import Server3.ConfiguredRoutes

/-! Routes are added in the order in which the map of the configuration is iterated.
Patterns that differ only in the names of their parameters share one entry of the tree,
and the last one added has it. -/

namespace Server3.Routes

open Server3.Configuration

/-- The shape of a pattern is the sequence of its pieces without the names of the
parameters. Which shape matches a path depends on the shapes that a tree holds. -/
class ShapedPathTree (T : Type → Type) (Shape : outParam Type) where
  erase : String → Shape
  matched : (Shape → Bool) → String → Option Shape

/-- An entry is kept under the shape of its pattern, and inserting a pattern of the same
shape again overwrites it. `path_tree` keeps to this for patterns that start with a
slash. -/
class LawfulPathTree (T : Type → Type) (Shape : outParam Type) [PathTree T]
    [DecidableEq Shape] extends ShapedPathTree T Shape where
  entries {V : Type} : T V → Shape → Option V
  entries_new {V : Type} : entries (PathTree.new : T V) = fun _ => none
  entries_insert {V : Type} (tree : T V) (pattern : String) (value : V) :
    entries (PathTree.insert tree pattern value) =
      Function.update (entries tree) (erase pattern) (some value)
  find_matched {V : Type} (tree : T V) (path : String) :
    PathTree.find tree path =
      (matched (fun shape => (entries tree shape).isSome) path).bind (entries tree)

/-- A path finds what was added last for the shape that matches it. -/
def ReadsLast (T : Type → Type) {Shape : Type} [PathTree T] [DecidableEq Shape]
    [ShapedPathTree T Shape] {V : Type} (added : List (String × V)) (path : String) : Prop :=
  PathTree.find (PathTree.ofList added : T V) path =
    (ShapedPathTree.matched T
      (fun shape => added.any fun entry => ShapedPathTree.erase T entry.1 = shape) path).bind
        fun shape => (added.reverse.find? fun entry =>
          ShapedPathTree.erase T entry.1 = shape).map Prod.snd

/-- What `path_tree` keeps to: the law, for patterns that start with a slash. -/
class RootedPathTree (T : Type → Type) (Shape : outParam Type) [PathTree T] [DecidableEq Shape]
    [ShapedPathTree T Shape] : Prop where
  reads {V : Type} (added : List (String × V)) (path : String) :
    (∀ entry ∈ added, Rooted entry.1) → ReadsLast T added path

namespace LawfulPathTree

variable {T : Type → Type} {Shape : Type} [PathTree T] [DecidableEq Shape] [LawfulPathTree T Shape]
  {V : Type}

theorem added_entries (added : List (String × V)) (shape : Shape) :
    entries (PathTree.ofList added : T V) shape =
      (added.reverse.find? fun entry => ShapedPathTree.erase T entry.1 = shape).map Prod.snd := by
  induction added using List.reverseRecOn with
  | nil => exact congrFun entries_new shape
  | append_singleton added entry ih =>
      rw [PathTree.ofList] at ih ⊢
      rw [List.foldl_append, List.foldl_cons, List.foldl_nil, entries_insert, Function.update_apply,
        ih, List.reverse_append, List.reverse_singleton, List.singleton_append, List.find?_cons]
      by_cases same : ShapedPathTree.erase T entry.1 = shape
      · simp [same]
      · simp [same, Ne.symm same]

theorem reads (added : List (String × V)) (path : String) : ReadsLast T added path := by
  have held : (fun shape => (entries (PathTree.ofList added : T V) shape).isSome) =
      fun shape => added.any fun entry => ShapedPathTree.erase T entry.1 = shape := by
    funext shape
    rw [added_entries, Option.isSome_map, List.isSome_find?, List.any_reverse]
  rw [ReadsLast, find_matched, held]
  exact congrArg _ (funext (added_entries added))

instance : RootedPathTree T Shape := ⟨fun added path _ => reads added path⟩

end LawfulPathTree

abbrev RouteEntry := Sigma fun _ : String => RouteConfig

section Shapes

variable {T : Type → Type} {Shape : Type} [DecidableEq Shape] [ShapedPathTree T Shape]
  {routes first second : HashMap String RouteConfig}

/-- The same patterns with the same settings, iterated in any order. -/
def SameRoutes (first second : HashMap String RouteConfig) : Prop :=
  first.entries.Perm second.entries

variable (T) in
/-- No order of the routes changes what a path is matched by. -/
def OrderIndependent [PathTree T] (cacheConfig : CacheConfig)
    (routes : HashMap String RouteConfig) : Prop :=
  ∀ first second, SameRoutes first routes → SameRoutes second routes → ∀ path,
    (CacheRoutes.fromConfig cacheConfig first : CacheRoutes T).matchRoute path =
      (CacheRoutes.fromConfig cacheConfig second : CacheRoutes T).matchRoute path

variable (T) in
def configured (routes : HashMap String RouteConfig) (shape : Shape) : Bool :=
  routes.entries.any fun entry => ShapedPathTree.erase T entry.1 = shape

variable (T) in
/-- No path is matched by a shape that two configured patterns share. -/
def Unambiguous (routes : HashMap String RouteConfig) : Prop :=
  ∀ path shape, ShapedPathTree.matched T (configured T routes) path = some shape →
    ∀ pattern ∈ routes.keys, ∀ other ∈ routes.keys, ShapedPathTree.erase T pattern = shape →
      ShapedPathTree.erase T other = shape → pattern = other

variable (T) in
def lastOf (entries : List RouteEntry) (shape : Shape) : Option RouteEntry :=
  entries.reverse.find? fun entry => ShapedPathTree.erase T entry.1 = shape

namespace CacheRoutes

def matchedRoute (cacheConfig : CacheConfig) : Option RouteEntry → CacheRouteRule × Option String
  | some entry => (.ofConfig entry.2, some entry.1)
  | none => (.enabled (.ofConfig cacheConfig), none)

theorem last_member {entries : List RouteEntry} {shape : Shape} {entry : RouteEntry}
    (last : lastOf T entries shape = some entry) :
    entry ∈ entries ∧ ShapedPathTree.erase T entry.1 = shape := by
  have member := List.mem_of_find?_eq_some last
  have same := List.find?_some last
  exact ⟨List.mem_reverse.mp member, of_decide_eq_true same⟩

theorem last_exists {entries : List RouteEntry} {shape : Shape} :
    (lastOf T entries shape).isSome =
      entries.any fun entry => ShapedPathTree.erase T entry.1 = shape := by
  rw [lastOf, List.isSome_find?, List.any_reverse]

def addedRoutes (routes : HashMap String RouteConfig) :
    List (String × (CacheRouteRule × String)) :=
  routes.entries.map fun entry => (entry.1, (.ofConfig entry.2, entry.1))

theorem fromConfig_parts [PathTree T] (cacheConfig : CacheConfig)
    (routes : HashMap String RouteConfig) :
    (fromConfig cacheConfig routes : CacheRoutes T).defaultRule =
        .enabled (.ofConfig cacheConfig) ∧
      (fromConfig cacheConfig routes : CacheRoutes T).routeRules =
        PathTree.ofList (addedRoutes routes) := by
  have parts := ofList_parts (T := T) (.enabled (.ofConfig cacheConfig))
    (routes.entries.map fun entry => (entry.1, .ofConfig entry.2))
  rw [ofList, List.foldl_map, List.map_map] at parts
  exact parts

theorem match_configured [PathTree T] (cacheConfig : CacheConfig) {routes : HashMap String RouteConfig}
    {path : String} (reads : ReadsLast T (addedRoutes routes) path) :
    (fromConfig cacheConfig routes : CacheRoutes T).matchRoute path = matchedRoute cacheConfig
      ((ShapedPathTree.matched T (configured T routes) path).bind (lastOf T routes.entries)) := by
  rcases fromConfig_parts (T := T) cacheConfig routes with ⟨default, rules⟩
  have shapes : (fun shape => (addedRoutes routes).any fun entry =>
      ShapedPathTree.erase T entry.1 = shape) = configured T routes := by
    funext shape
    rw [addedRoutes, List.any_map, configured]
    rfl
  rw [ReadsLast, shapes] at reads
  rw [matchRoute, rules, reads, default]
  cases ShapedPathTree.matched T (configured T routes) path with
  | none => rfl
  | some shape =>
      rw [Option.bind_some, Option.bind_some, addedRoutes, ← List.map_reverse, List.find?_map,
        Option.map_map, lastOf]
      simp only [Function.comp_def]
      cases routes.entries.reverse.find? fun entry => ShapedPathTree.erase T entry.1 = shape with
      | none => rfl
      | some entry => rfl

end CacheRoutes

theorem same_configured (same : SameRoutes first second) :
    configured T first = configured T second := by
  funext shape
  exact same.any_eq

/-- Where the patterns of a shape are one, its last entry is in any order the same. -/
theorem last_same {shape : Shape} (same : SameRoutes first second)
    (unique : ∀ pattern ∈ second.keys, ∀ other ∈ second.keys,
      ShapedPathTree.erase T pattern = shape → ShapedPathTree.erase T other = shape →
        pattern = other) :
    lastOf T first.entries shape = lastOf T second.entries shape := by
  have present : (lastOf T first.entries shape).isSome = (lastOf T second.entries shape).isSome := by
    rw [CacheRoutes.last_exists, CacheRoutes.last_exists]
    exact same.any_eq
  cases found : lastOf T first.entries shape with
  | none =>
      rw [found] at present
      exact (Option.isSome_eq_false_iff.mp present.symm |> Option.isNone_iff_eq_none.mp).symm
  | some entry =>
      rw [found] at present
      rcases Option.isSome_iff_exists.mp present.symm with ⟨other, found'⟩
      have mine := CacheRoutes.last_member found
      have yours := CacheRoutes.last_member found'
      have member : entry ∈ second.entries := same.mem_iff.mp mine.1
      have patterns := unique entry.1 (List.mem_map_of_mem member) other.1
        (List.mem_map_of_mem yours.1) mine.2 yours.2
      obtain ⟨pattern, config⟩ := entry
      obtain ⟨pattern', config'⟩ := other
      simp only at patterns
      subst patterns
      rw [found', second.nodupKeys.eq_of_mk_mem member yours.1]

variable (T) in
theorem moved_last {entry : RouteEntry} (member : entry ∈ routes.entries) :
    ∃ order, SameRoutes order routes ∧
      lastOf T order.entries (ShapedPathTree.erase T entry.1) = some entry := by
  rcases List.append_of_mem member with ⟨before, after, split⟩
  have moved : (before ++ after ++ [entry]).Perm routes.entries := by
    rw [split, List.append_assoc]
    exact (List.perm_append_singleton entry after).append_left before
  refine ⟨⟨_, (List.perm_nodupKeys moved).mpr routes.nodupKeys⟩, moved, ?_⟩
  simp [lastOf]

end Shapes

open CacheRoutes

variable {T : Type → Type} {Shape : Type} [PathTree T] [DecidableEq Shape] [LawfulPathTree T Shape]

/-- Routing is the same for every order of the routes exactly if no path is matched by a
shape that two of the patterns share. -/
theorem order_independent_iff (cacheConfig : CacheConfig) (routes : HashMap String RouteConfig) :
    OrderIndependent T cacheConfig routes ↔ Unambiguous T routes := by
  constructor
  · intro independent path shape matched pattern member other member' same same'
    rcases List.mem_map.mp member with ⟨entry, present, rfl⟩
    rcases List.mem_map.mp member' with ⟨entry', present', rfl⟩
    rcases moved_last T present with ⟨first, order, last⟩
    rcases moved_last T present' with ⟨second, order', last'⟩
    have agree := independent first second order order' path
    rw [match_configured _ (LawfulPathTree.reads _ path),
      match_configured _ (LawfulPathTree.reads _ path), same_configured order,
      same_configured order', matched, Option.bind_some, Option.bind_some, ← same, last, same,
      ← same', last'] at agree
    exact Option.some.inj (congrArg Prod.snd agree)
  · intro unambiguous first second order order' path
    rw [match_configured _ (LawfulPathTree.reads _ path),
      match_configured _ (LawfulPathTree.reads _ path), same_configured order,
      same_configured order']
    cases matched : ShapedPathTree.matched T (configured T routes) path with
    | none => rfl
    | some shape =>
        rw [Option.bind_some, Option.bind_some, last_same order (unambiguous path shape matched),
          last_same order' (unambiguous path shape matched)]

/-- A piece of a pattern between slashes: a literal or a parameter. -/
inductive Piece where
  | literal (text : List Char)
  | parameter
  deriving DecidableEq

def pieceOf : List Char → Piece
  | ':' :: _ => .parameter
  | text => .literal text

/-- The shapes that match a path, with literal pieces before parameters. -/
def candidates : List (List Char) → List (List Piece)
  | [] => [[]]
  | [] :: rest => (candidates rest).map (.literal [] :: ·)
  | text :: rest =>
      (candidates rest).map (.literal text :: ·) ++ (candidates rest).map (.parameter :: ·)

/-- The tree for patterns of literal pieces and parameters. -/
def PieceTree (V : Type) : Type := List Piece → Option V

def patternShape (pattern : String) : List Piece :=
  (pattern.toList.splitOn '/').map pieceOf

instance : PathTree PieceTree where
  new := fun _ => none
  insert tree pattern value := Function.update tree (patternShape pattern) (some value)
  find tree path := (candidates (path.toList.splitOn '/')).findSome? tree

theorem first_entry {V : Type} (entry : List Piece → Option V) (shapes : List (List Piece)) :
    shapes.findSome? entry = (shapes.find? fun shape => (entry shape).isSome).bind entry := by
  induction shapes with
  | nil => rfl
  | cons shape rest ih =>
      rw [List.findSome?_cons, List.find?_cons]
      cases found : entry shape with
      | none => simpa using ih
      | some value => simp [found]

instance : LawfulPathTree PieceTree (List Piece) where
  erase := patternShape
  entries := id
  matched shapes path := (candidates (path.toList.splitOn '/')).find? shapes
  entries_new := rfl
  entries_insert := fun _ _ _ => rfl
  find_matched := fun _ path => first_entry _ (candidates (path.toList.splitOn '/'))

/-- One parameter under two names, disabled and enabled. -/
def namedTwice : HashMap String RouteConfig :=
  ⟨[⟨"/:id", .disabled⟩, ⟨"/:name", .enabled ⟨.other .forever⟩⟩], by simp [List.NodupKeys]⟩

def namedTwiceReversed : HashMap String RouteConfig :=
  ⟨[⟨"/:name", .enabled ⟨.other .forever⟩⟩, ⟨"/:id", .disabled⟩], by simp [List.NodupKeys]⟩

/-- The order decides whether /x is enabled. -/
theorem order_decides : ¬ OrderIndependent PieceTree ⟨.other .forever⟩ namedTwice := by
  intro independent
  have agree := independent namedTwice namedTwiceReversed (List.Perm.refl _)
    (List.Perm.swap _ _ _) "/x"
  have differ : (fromConfig ⟨.other .forever⟩ namedTwice : CacheRoutes PieceTree).matchRoute "/x" ≠
      (fromConfig ⟨.other .forever⟩ namedTwiceReversed : CacheRoutes PieceTree).matchRoute "/x" := by
    decide
  exact differ agree

end Server3.Routes
