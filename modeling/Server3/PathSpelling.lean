import Mathlib.Data.List.Find
import Server3.S3Upstream
import Server3.Sequential

/-! Paths that differ in leading slashes only: one object for the upstreams, but
not one path for the routes and the cache. -/

namespace Server3.Sequential

open Clock Routes Upstream Resource UrlReference

def spelled (extra : Nat) (path : String) : String :=
  String.ofList (List.replicate extra '/' ++ path.toList)

theorem spelled_trimmed (extra : Nat) (path : String) :
    trimSlashes (spelled extra path) = trimSlashes path := by
  rw [trimSlashes, spelled, String.toList_ofList]
  exact List.dropWhile_append_of_pos (by simp)

theorem spelled_same {extra : Nat} {path : String} : spelled extra path = path ↔ extra = 0 := by
  constructor
  · intro same
    have length := congrArg (fun text => text.toList.length) same
    simpa [spelled] using length
  · rintro rfl
    simp [spelled]

theorem http_spelling (upstream : HttpUpstream) (rules : Rules)
    (send : Url → Except String HttpResponse) {path other : UriPath} {extra : Nat}
    (spelling : other.text = spelled extra path.text) :
    upstream.get rules send other = upstream.get rules send path := by
  simp only [HttpUpstream.get, spelling, spelled_trimmed]

theorem s3_spelling (upstream : S3Upstream) (getObject : String → String → ObjectResponse)
    (extra : Nat) (path : String) :
    upstream.get getObject (spelled extra path) = upstream.get getObject path := by
  have same : upstream.key (spelled extra path) = upstream.key path := by
    simp only [S3Upstream.key, spelled_trimmed]
  unfold S3Upstream.get
  rw [same]

section Treatment

variable {T : Type → Type} [PathTree T]

def entry (cache : Cache T) (path : String) (now : Instant) : Option CachedResourceKey :=
  match plan (cache.rules.matchRoute path).1 now with
  | .cached _ => some (cache.key path)
  | _ => none

/-- Both paths get the same rule from the same pattern, and the same cache entry. -/
structure SameTreatment (cache : Cache T) (now : Instant) (first second : String) : Prop where
  route : cache.rules.matchRoute first = cache.rules.matchRoute second
  entry : entry cache first now = entry cache second now

theorem entry_cached {cache : Cache T} {path : String} {now : Instant}
    {expiresAfter : Option Instant}
    (planned : plan (cache.rules.matchRoute path).1 now = .cached expiresAfter) :
    entry cache path now = some (cache.key path) := by
  simp only [entry, planned]

theorem entry_none {cache : Cache T} {path : String} {now : Instant} :
    entry cache path now = none ↔
      ∀ expiresAfter, plan (cache.rules.matchRoute path).1 now ≠ .cached expiresAfter := by
  unfold entry
  cases plan (cache.rules.matchRoute path).1 now <;> simp

theorem same_entry_path {cache : Cache T} {first second : String} {now : Instant}
    (same : SameTreatment cache now first second) {expiresAfter : Option Instant}
    (planned : plan (cache.rules.matchRoute second).1 now = .cached expiresAfter) :
    first = second := by
  have used := same.entry
  rw [entry_cached planned, entry_cached (same.route ▸ planned), Option.some.injEq] at used
  exact congrArg CachedResourceKey.path used

theorem same_treatment_get {call : Call T} {path : String}
    (same : SameTreatment call.cache call.now path call.path) (storage : CacheStorage) :
    storage.get { call with path := path } = storage.get call := by
  have label : Call.label { call with path := path } = call.label := by
    simp only [Call.label, same.route]
  have plan' : Call.plan { call with path := path } = call.plan := by
    simp only [Call.plan, same.route]
  cases planned : call.plan with
  | cached expiresAfter =>
      obtain rfl := same_entry_path same planned
      rfl
  | unrouted | never | panicked =>
      simp only [CacheStorage.get, plan', planned, CacheStorage.count, label, Call.passOn]

end Treatment

/-- A pattern without the characters that `path_tree` reads as parameters or escapes. -/
def Literal (pattern : String) : Prop :=
  pattern.toList.all (fun char => !([':', '+', '*', '?', '\\'] : List Char).contains char) = true

instance (pattern : String) : Decidable (Literal pattern) := instDecidableEqBool _ _

def lastAdded {V : Type} (added : List (String × V)) (pattern : String) : Option V :=
  (added.reverse.find? fun entry => entry.1 = pattern).map Prod.snd

/-- What is documented of `path_tree`, for patterns that start with a slash: a path finds
a pattern that fits it, if one does. -/
class FittingPathTree (T : Type → Type) [PathTree T] where
  fits : String → String → Bool
  literal (pattern path : String) : Literal pattern → (fits pattern path = true ↔ pattern = path)
  found {V : Type} (added : List (String × V)) (path : String) (value : V) :
    (∀ entry ∈ added, Rooted entry.1) →
      PathTree.find (PathTree.ofList added : T V) path = some value →
      ∃ pattern, fits pattern path = true ∧ lastAdded added pattern = some value
  finds {V : Type} (added : List (String × V)) (path : String) (entry : String × V) :
    (∀ entry ∈ added, Rooted entry.1) → entry ∈ added → fits entry.1 path = true →
      (PathTree.find (PathTree.ofList added : T V) path).isSome

section Spellings

variable (T : Type → Type) [PathTree T] [FittingPathTree T] (defaultRule : CacheRouteRule)
  (additions : List (String × CacheRouteRule))

/-- No two of the configured patterns fit the path. -/
def FitsOnce (path : String) : Prop :=
  ∀ first ∈ additions, ∀ second ∈ additions, FittingPathTree.fits T first.1 path = true →
    FittingPathTree.fits T second.1 path = true → first.1 = second.1

def fittingRule (path : String) : CacheRouteRule :=
  ((additions.reverse.find? fun addition => FittingPathTree.fits T addition.1 path).map
    Prod.snd).getD defaultRule

/-- The configured patterns do not tell the two paths apart, and what they have for them
keeps no cache entry. -/
structure Untold (now : Instant) (first second : String) : Prop where
  rooted : ∀ addition ∈ additions, Rooted addition.1
  literals : ∀ addition ∈ additions, Literal addition.1 →
    addition.1 ≠ first ∧ addition.1 ≠ second
  others : ∀ addition ∈ additions, ¬ Literal addition.1 →
    FittingPathTree.fits T addition.1 first = FittingPathTree.fits T addition.1 second
  once : FitsOnce T additions second
  uncached : ∀ expiresAfter, plan (fittingRule T defaultRule additions second) now ≠
    .cached expiresAfter

variable {T} {defaultRule} {additions} {path first second : String} {now : Instant}

theorem lastAdded_values (pattern : String) :
    lastAdded (additions.map fun addition => (addition.1, (addition.2, addition.1))) pattern =
      (lastAdded additions pattern).map fun rule => (rule, pattern) := by
  rw [lastAdded, lastAdded, ← List.map_reverse, List.find?_map, Option.map_map, Option.map_map]
  simp only [Function.comp_def]
  cases last : additions.reverse.find? fun addition => addition.1 = pattern with
  | none => rfl
  | some addition =>
      have same := List.find?_some last
      rw [decide_eq_true_eq] at same
      simp only [Option.map_some, same]

theorem lastAdded_member {rule : CacheRouteRule} {pattern : String}
    (last : lastAdded additions pattern = some rule) : (pattern, rule) ∈ additions := by
  rcases Option.map_eq_some_iff.mp last with ⟨addition, found, rfl⟩
  have same := List.find?_some found
  rw [decide_eq_true_eq] at same
  subst same
  exact List.mem_reverse.mp (List.mem_of_find?_eq_some found)

variable (T) (defaultRule) in
/-- A path gets what was added last with one of the patterns that fit it, or the default. -/
theorem match_fitting (rooted : ∀ addition ∈ additions, Rooted addition.1) (path : String) :
    (∃ pattern rule, FittingPathTree.fits T pattern path = true ∧
      lastAdded additions pattern = some rule ∧
      (CacheRoutes.ofList defaultRule additions : CacheRoutes T).matchRoute path =
        (rule, some pattern)) ∨
    ((∀ addition ∈ additions, FittingPathTree.fits T addition.1 path = false) ∧
      (CacheRoutes.ofList defaultRule additions : CacheRoutes T).matchRoute path =
        (defaultRule, none)) := by
  rcases CacheRoutes.ofList_parts (T := T) defaultRule additions with ⟨default, rules⟩
  have slashes : ∀ entry ∈ additions.map fun addition => (addition.1, (addition.2, addition.1)),
      Rooted entry.1 := by
    intro entry member
    rcases List.mem_map.mp member with ⟨addition, among, rfl⟩
    exact rooted addition among
  rw [CacheRoutes.matchRoute, rules, default]
  cases found : PathTree.find (PathTree.ofList
      (additions.map fun addition => (addition.1, (addition.2, addition.1))) : T _) path with
  | some value =>
      rcases FittingPathTree.found _ path value slashes found with ⟨pattern, fits, last⟩
      rw [lastAdded_values] at last
      rcases Option.map_eq_some_iff.mp last with ⟨rule, added, rfl⟩
      exact Or.inl ⟨pattern, rule, fits, added, rfl⟩
  | none =>
      refine Or.inr ⟨?_, rfl⟩
      intro addition member
      by_contra fits
      have some := FittingPathTree.finds (T := T) _ path (addition.1, (addition.2, addition.1)) slashes
        (List.mem_map_of_mem member) (Bool.eq_true_of_not_eq_false fits)
      rw [found] at some
      cases some

theorem fittingRule_fits {pattern : String} {rule : CacheRouteRule} (once : FitsOnce T additions path)
    (fits : FittingPathTree.fits T pattern path = true)
    (last : lastAdded additions pattern = some rule) :
    fittingRule T defaultRule additions path = rule := by
  have one : (additions.reverse.find? fun addition => FittingPathTree.fits T addition.1 path) =
      additions.reverse.find? fun addition => addition.1 = pattern := by
    apply List.find?_congr
    intro addition member
    rw [Bool.eq_iff_iff, decide_eq_true_eq]
    constructor
    · exact fun also => once addition (List.mem_reverse.mp member) _ (lastAdded_member last) also fits
    · rintro rfl
      exact fits
  rw [lastAdded] at last
  rw [fittingRule, one, last]
  rfl

theorem match_fittingRule (rooted : ∀ addition ∈ additions, Rooted addition.1)
    (once : FitsOnce T additions path) :
    ((CacheRoutes.ofList defaultRule additions : CacheRoutes T).matchRoute path).1 =
      fittingRule T defaultRule additions path := by
  rcases match_fitting T defaultRule rooted path with
    ⟨pattern, rule, fits, last, same⟩ | ⟨nothing, same⟩
  · rw [same, fittingRule_fits once fits last]
  · have none : additions.reverse.find? (fun addition => FittingPathTree.fits T addition.1 path) =
        none := by
      rw [List.find?_eq_none]
      intro addition member
      rw [nothing addition (List.mem_reverse.mp member)]
      exact Bool.false_ne_true
    rw [same, fittingRule, none]
    rfl

theorem untold_fits (untold : Untold T defaultRule additions now first second) :
    ∀ addition ∈ additions, FittingPathTree.fits T addition.1 first =
      FittingPathTree.fits T addition.1 second := by
  intro addition member
  by_cases literal : Literal addition.1
  · have apart := untold.literals addition member literal
    rw [Bool.eq_iff_iff, FittingPathTree.literal _ _ literal, FittingPathTree.literal _ _ literal]
    exact iff_of_false apart.1 apart.2
  · exact untold.others addition member literal

theorem untold_route (untold : Untold T defaultRule additions now first second) :
    (CacheRoutes.ofList defaultRule additions : CacheRoutes T).matchRoute first =
      (CacheRoutes.ofList defaultRule additions : CacheRoutes T).matchRoute second := by
  have alike := untold_fits untold
  rcases match_fitting T defaultRule untold.rooted second with
    ⟨pattern, rule, fits, last, same⟩ | ⟨nothing, same⟩
  · rcases match_fitting T defaultRule untold.rooted first with
      ⟨other, rule', fits', last', same'⟩ | ⟨nothing, -⟩
    · have one : other = pattern := untold.once _ (lastAdded_member last') _ (lastAdded_member last)
        ((alike _ (lastAdded_member last')).symm.trans fits') fits
      subst one
      rw [last, Option.some.injEq] at last'
      rw [same, same', last']
    · have none := nothing _ (lastAdded_member last)
      rw [alike _ (lastAdded_member last), fits] at none
      cases none
  · rcases match_fitting T defaultRule untold.rooted first with
      ⟨other, rule', fits', last', -⟩ | ⟨-, same'⟩
    · have none := nothing _ (lastAdded_member last')
      rw [← alike _ (lastAdded_member last'), fits'] at none
      cases none
    · rw [same, same']

theorem fits_of_route (rooted : ∀ addition ∈ additions, Rooted addition.1)
    (once : FitsOnce T additions first)
    (route : (CacheRoutes.ofList defaultRule additions : CacheRoutes T).matchRoute first =
      (CacheRoutes.ofList defaultRule additions : CacheRoutes T).matchRoute second)
    {addition : String × CacheRouteRule} (member : addition ∈ additions)
    (fits : FittingPathTree.fits T addition.1 first = true) :
    FittingPathTree.fits T addition.1 second = true := by
  rcases match_fitting T defaultRule rooted first with
    ⟨pattern, rule, fitting, last, same⟩ | ⟨nothing, -⟩
  · have one := once addition member _ (lastAdded_member last) fits fitting
    rcases match_fitting T defaultRule rooted second with
      ⟨other, rule', fitting', -, same'⟩ | ⟨-, same'⟩
    · rw [same, same', Prod.mk.injEq, Option.some.injEq] at route
      rw [one, route.2]
      exact fitting'
    · rw [same, same'] at route
      cases congrArg Prod.snd route
  · rw [nothing addition member] at fits
    cases fits

end Spellings

/-- Another spelling is treated as the path itself where the patterns do not tell them
apart and nothing is cached. It is treated so only there, if no two patterns fit one of
the spellings. -/
theorem spelling_treated {T : Type → Type} [PathTree T] [FittingPathTree T] (hostKey : String)
    (defaultRule : CacheRouteRule) (additions : List (String × CacheRouteRule)) (now : Instant)
    (extra : Nat) (path : String) :
    (extra = 0 ∨ Untold T defaultRule additions now (spelled extra path) path →
      SameTreatment (⟨hostKey, .ofList defaultRule additions⟩ : Cache T) now
        (spelled extra path) path) ∧
    ((∀ addition ∈ additions, Rooted addition.1) → FitsOnce T additions (spelled extra path) →
      FitsOnce T additions path →
        SameTreatment (⟨hostKey, .ofList defaultRule additions⟩ : Cache T) now
          (spelled extra path) path →
            extra = 0 ∨ Untold T defaultRule additions now (spelled extra path) path) := by
  constructor
  · rintro (rfl | untold)
    · rw [spelled_same.mpr rfl]
      exact ⟨rfl, rfl⟩
    · have route := untold_route untold
      refine ⟨route, ?_⟩
      have uncached := untold.uncached
      rw [← match_fittingRule untold.rooted untold.once] at uncached
      have other : ∀ expiresAfter, plan ((CacheRoutes.ofList defaultRule additions :
          CacheRoutes T).matchRoute (spelled extra path)).1 now ≠ .cached expiresAfter := by
        rw [route]
        exact uncached
      exact (entry_none.mpr other).trans (entry_none.mpr uncached).symm
  · intro rooted onceSpelled once same
    by_cases plain : extra = 0
    · exact Or.inl plain
    · right
      have differ : spelled extra path ≠ path := fun equal => plain (spelled_same.mp equal)
      have alike {addition : String × CacheRouteRule} (member : addition ∈ additions) :
          FittingPathTree.fits T addition.1 (spelled extra path) = true ↔
            FittingPathTree.fits T addition.1 path = true :=
        ⟨fits_of_route rooted onceSpelled same.route member,
          fits_of_route rooted once same.route.symm member⟩
      refine ⟨rooted, ?_, ?_, once, ?_⟩
      · intro addition member literal
        have both := alike member
        rw [FittingPathTree.literal _ _ literal, FittingPathTree.literal _ _ literal] at both
        constructor
        · intro equal
          exact differ (equal.symm.trans (both.mp equal))
        · intro equal
          exact differ ((both.mpr equal).symm.trans equal)
      · intro addition member _
        exact Bool.eq_iff_iff.mpr (alike member)
      · intro expiresAfter planned
        rw [← match_fittingRule rooted once] at planned
        exact differ (same_entry_path same planned)

theorem literal_ofList {V : Type} (added : List (String × V)) :
    (PathTree.ofList added : LiteralTree V) = added.reverse := by
  induction added using List.reverseRecOn with
  | nil => rfl
  | append_singleton added entry ih =>
      rw [PathTree.ofList] at ih ⊢
      rw [List.foldl_append, List.foldl_cons, List.foldl_nil, ih, List.reverse_append]
      rfl

theorem literal_find {V : Type} (added : List (String × V)) (path : String) :
    PathTree.find (PathTree.ofList added : LiteralTree V) path = lastAdded added path := by
  rw [literal_ofList]
  rfl

instance : FittingPathTree LiteralTree where
  fits pattern path := pattern = path
  literal _ _ _ := decide_eq_true_iff
  found added path value _ found :=
    ⟨path, decide_eq_true rfl, (literal_find added path).symm.trans found⟩
  finds added path entry _ member fits := by
    rw [literal_find, lastAdded, Option.isSome_map, List.isSome_find?, List.any_reverse]
    exact List.any_eq_true.mpr ⟨entry, member, fits⟩

theorem spelling_treated_open :
    SameTreatment (⟨"files", .ofList (.enabled ⟨.cacheNever⟩) [("/secret", .disabled)]⟩ :
      Cache LiteralTree) epoch (spelled 2 "/open") "/open" := by
  apply (spelling_treated "files" (.enabled ⟨.cacheNever⟩) [("/secret", .disabled)] epoch 2
    "/open").1
  right
  have apart : ∀ addition ∈ [("/secret", CacheRouteRule.disabled)],
      addition.1 ≠ spelled 2 "/open" ∧ addition.1 ≠ "/open" := by decide
  refine ⟨by decide, fun addition member _ => apart addition member, ?_, ?_, ?_⟩
  · intro addition member special
    rw [List.mem_singleton] at member
    subst member
    have literal : Literal "/secret" := rfl
    exact absurd literal special
  · intro first member second member' _ _
    rw [List.mem_singleton.mp member, List.mem_singleton.mp member']
  · intro expiresAfter planned
    cases planned

def secretCache : Cache LiteralTree :=
  ⟨"files", (CacheRoutes.new (.enabled ⟨.cacheForever⟩)).addRoute "/secret" .disabled⟩

/-- A second slash leads around a disabled route. -/
theorem disabled_route_bypassed :
    ¬ ∀ (cache : Cache LiteralTree) (now : Instant) (extra : Nat) (path : String),
      path.toList.head? = some '/' → SameTreatment cache now (spelled extra path) path := by
  intro claim
  have same := claim secretCache epoch 1 "/secret" (by decide)
  have rules : CacheRouteRule.enabled ⟨.cacheForever⟩ = .disabled := congrArg Prod.fst same.route
  exact absurd rules (by decide)

end Server3.Sequential
