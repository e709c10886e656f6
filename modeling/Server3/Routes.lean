import Mathlib.Data.List.Induction
import Server3.Clock

/-! Route rules: how the configuration becomes rules, and which rule a path gets. -/

namespace Server3.Routes

open Clock

inductive CacheMaxAgeRule where
  | cacheForever
  | cacheFor (duration : Duration)
  | cacheNever
  deriving DecidableEq, Repr

structure CacheEnabledRouteRule where
  maxAge : CacheMaxAgeRule
  deriving DecidableEq, Repr

inductive CacheRouteRule where
  | enabled (rule : CacheEnabledRouteRule)
  | disabled
  deriving DecidableEq, Repr

/-- What the server uses of `path_tree::PathTree`. `find` also returns the
parameters of the match, which nothing here reads. -/
class PathTree (T : Type → Type) where
  new {V : Type} : T V
  insert {V : Type} : T V → String → V → T V
  find {V : Type} : T V → String → Option V

/-- The tree after these insertions. -/
def PathTree.ofList {T : Type → Type} [PathTree T] {V : Type} (added : List (String × V)) : T V :=
  added.foldl (fun tree entry => PathTree.insert tree entry.1 entry.2) PathTree.new

def Rooted (pattern : String) : Prop := pattern.toList.head? = some '/'

instance (pattern : String) : Decidable (Rooted pattern) :=
  inferInstanceAs (Decidable (_ = _))

structure CacheRoutes (T : Type → Type) where
  defaultRule : CacheRouteRule
  routeRules : T (CacheRouteRule × String)
  routePaths : List String

namespace CacheRoutes

variable {T : Type → Type} [PathTree T]

def new (defaultRule : CacheRouteRule) : CacheRoutes T :=
  ⟨defaultRule, PathTree.new, []⟩

def addRoute (routes : CacheRoutes T) (pathPattern : String) (rule : CacheRouteRule) :
    CacheRoutes T :=
  { routes with
    routeRules := PathTree.insert routes.routeRules pathPattern (rule, pathPattern)
    routePaths := routes.routePaths.insert pathPattern }

def ofList (defaultRule : CacheRouteRule) (additions : List (String × CacheRouteRule)) :
    CacheRoutes T :=
  additions.foldl (fun routes addition => routes.addRoute addition.1 addition.2) (new defaultRule)

/-- The rule of a path and, unless it is the default rule, the pattern it comes from. -/
def matchRoute (routes : CacheRoutes T) (path : String) : CacheRouteRule × Option String :=
  match PathTree.find routes.routeRules path with
  | some (rule, pattern) => (rule, some pattern)
  | none => (routes.defaultRule, none)

theorem ofList_parts (defaultRule : CacheRouteRule) (additions : List (String × CacheRouteRule)) :
    (ofList defaultRule additions : CacheRoutes T).defaultRule = defaultRule ∧
      (ofList defaultRule additions : CacheRoutes T).routeRules =
        PathTree.ofList (additions.map fun addition => (addition.1, (addition.2, addition.1))) := by
  induction additions using List.reverseRecOn with
  | nil => exact ⟨rfl, rfl⟩
  | append_singleton additions addition ih =>
      simp only [ofList, PathTree.ofList, List.map_append, List.foldl_append, List.map_cons,
        List.map_nil, List.foldl_cons, List.foldl_nil] at ih ⊢
      exact ⟨ih.1, congrArg (PathTree.insert · addition.1 (addition.2, addition.1)) ih.2⟩

end CacheRoutes

/-- The tree that holds literal patterns only: a pattern matches the identical
path, and inserting it again overwrites its value. -/
def LiteralTree (V : Type) : Type := List (String × V)

instance : PathTree LiteralTree where
  new := []
  insert entries pattern value := (pattern, value) :: entries
  find entries path := (entries.find? fun entry => entry.1 = path).map Prod.snd

end Server3.Routes
