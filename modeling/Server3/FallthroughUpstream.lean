import Server3.Configuration
import Server3.FirstSuccess
import Server3.Upstream

/-! A tree of upstreams, and the flat list of leaves it behaves as. -/

namespace Server3.Upstream

open Server3.Configuration FirstSuccess

/-- `dyn Upstream`. What a request does to the outside is an effect of the monad. -/
structure DynUpstream (M : Type → Type) where
  get : String → M Answer

structure FallthroughUpstream (M : Type → Type) where
  upstreams : List (DynUpstream M)

inductive LeafConfig where
  | http (config : UpstreamHttpConfig)
  | s3 (config : UpstreamS3Config)
  deriving DecidableEq

/-- The indices that lead from the root to a node, last first. -/
abbrev Place := List Nat

section Build

variable {M : Type → Type} [Monad M]

/-- The loop of `FallthroughUpstream::get` and what follows it. -/
def FallthroughUpstream.loop (path : String) (firstError : Option UpstreamError) :
    List (DynUpstream M) → M Answer
  | [] =>
      match firstError with
      | some error => pure (.error error)
      | none => pure (.ok none)
  | upstream :: rest => do
      match ← upstream.get path with
      | .ok (some resource) => pure (.ok (some resource))
      | .ok none => loop path firstError rest
      | .error error => loop path (firstError.or (some error)) rest

def FallthroughUpstream.get (upstream : FallthroughUpstream M) (path : String) : M Answer :=
  loop path none upstream.upstreams

/-- `HttpUpstream::new` and `S3Upstream::new`. Two equal configurations build two
objects, so what is built may depend on the place. -/
abbrev NewLeaf (M : Type → Type) := Place → LeafConfig → Option (DynUpstream M)

mutual

/-- A failure carries no error: of several, which is reported depends on timing. -/
def buildUpstream (new : NewLeaf M) (place : Place) : UpstreamConfig → Option (DynUpstream M)
  | .http config => new place (.http config)
  | .s3 config => new place (.s3 config)
  | .fallthrough upstreams => do
      let upstreams ← tryJoinAll new place 0 upstreams
      return ⟨(FallthroughUpstream.mk upstreams).get⟩

/-- `try_join_all` over the builds of the children from an index on; their order is kept. -/
def tryJoinAll (new : NewLeaf M) (place : Place) (index : Nat) :
    List UpstreamConfig → Option (List (DynUpstream M))
  | [] => some []
  | config :: rest => do
      let upstream ← buildUpstream new (index :: place) config
      let upstreams ← tryJoinAll new place (index + 1) rest
      return upstream :: upstreams

end

end Build

mutual

def leaves (place : Place) : UpstreamConfig → List (Place × LeafConfig)
  | .http config => [(place, .http config)]
  | .s3 config => [(place, .s3 config)]
  | .fallthrough upstreams => leavesFrom place 0 upstreams

def leavesFrom (place : Place) (index : Nat) : List UpstreamConfig → List (Place × LeafConfig)
  | [] => []
  | config :: rest => leaves (index :: place) config ++ leavesFrom place (index + 1) rest

end

section Flattened

variable {M : Type → Type} (new : NewLeaf M)

def buildLeaves (parts : List (Place × LeafConfig)) : Option (List (DynUpstream M)) :=
  parts.mapM fun leaf => new leaf.1 leaf.2

variable {new}

theorem buildLeaves_append {first second : List (Place × LeafConfig)}
    {objects : List (DynUpstream M)} (built : buildLeaves new (first ++ second) = some objects) :
    ∃ front back, buildLeaves new first = some front ∧ buildLeaves new second = some back ∧
      objects = front ++ back := by
  simp only [buildLeaves, List.mapM_append, Option.pure_def, Option.bind_eq_bind,
    Option.bind_eq_some_iff, Option.some.injEq] at built
  rcases built with ⟨front, builtFront, back, builtBack, rfl⟩
  exact ⟨front, back, builtFront, builtBack, rfl⟩

variable [Monad M]

theorem loop_scan (path : String) (firstError : Option UpstreamError)
    (upstreams : List (DynUpstream M)) : FallthroughUpstream.loop path firstError upstreams =
      scan (fun upstream => upstream.get path) firstError upstreams := by
  induction upstreams generalizing firstError with
  | nil => cases firstError <;> rfl
  | cons upstream rest ih =>
      rw [FallthroughUpstream.loop, scan_cons]
      apply congrArg (upstream.get path >>= ·)
      funext answer
      rcases answer with error | ⟨_ | resource⟩
      · exact ih (firstError.or (some error))
      · exact ih firstError
      · rfl

variable [LawfulMonad M]

theorem single_scan {place : Place} {leaf : LeafConfig} {objects : List (DynUpstream M)}
    (built : buildLeaves new [(place, leaf)] = some objects) :
    ∃ upstream, new place leaf = some upstream ∧
      ∀ path, upstream.get path = scan (fun object => object.get path) none objects := by
  simp only [buildLeaves, List.mapM_cons, List.mapM_nil, Option.pure_def, Option.bind_eq_bind,
    Option.bind_some, Option.bind_eq_some_iff, Option.some.injEq] at built
  rcases built with ⟨upstream, found, rfl⟩
  exact ⟨upstream, found, fun path => (scan_single (fun object => object.get path) upstream).symm⟩

mutual

/-- A built tree asks its leaves as one flat scan does. -/
theorem build_scan (place : Place) (config : UpstreamConfig) {objects : List (DynUpstream M)}
    (built : buildLeaves new (leaves place config) = some objects) :
    ∃ upstream, buildUpstream new place config = some upstream ∧
      ∀ path, upstream.get path = scan (fun object => object.get path) none objects := by
  cases config with
  | http config => exact single_scan built
  | s3 config => exact single_scan built
  | fallthrough upstreams =>
      rcases join_scan place 0 upstreams built with ⟨objects, joined, flat⟩
      refine ⟨⟨(FallthroughUpstream.mk objects).get⟩, ?_, ?_⟩
      · rw [buildUpstream, joined]
        rfl
      · intro path
        exact (loop_scan path none objects).trans (flat path none)

theorem join_scan (place : Place) (index : Nat) (configs : List UpstreamConfig)
    {objects : List (DynUpstream M)}
    (built : buildLeaves new (leavesFrom place index configs) = some objects) :
    ∃ upstreams, tryJoinAll new place index configs = some upstreams ∧
      ∀ path first, scan (fun upstream => upstream.get path) first upstreams =
        scan (fun object => object.get path) first objects := by
  cases configs with
  | nil =>
      cases built
      exact ⟨[], rfl, fun _ _ => rfl⟩
  | cons config rest =>
      rcases buildLeaves_append built with ⟨front, back, builtFront, builtBack, rfl⟩
      rcases build_scan (index :: place) config builtFront with ⟨upstream, first, same⟩
      rcases join_scan place (index + 1) rest builtBack with ⟨upstreams, others, flat⟩
      refine ⟨upstream :: upstreams, ?_, ?_⟩
      · rw [tryJoinAll, first, others]
        rfl
      · intro path failed
        have later : resume (fun upstream => upstream.get path) failed upstreams =
            resume (fun object => object.get path) failed back := by
          funext answer
          rcases answer with error | ⟨_ | resource⟩
          · exact flat path (failed.or (some error))
          · exact flat path failed
          · rfl
        rw [scan_cons, same, scan_part, later]

end

end Flattened

mutual

theorem leaves_below (place : Place) (config : UpstreamConfig) {leaf : Place × LeafConfig}
    (member : leaf ∈ leaves place config) : place <:+ leaf.1 := by
  cases config with
  | http config | s3 config =>
      rw [List.mem_singleton.mp member]
  | fallthrough upstreams =>
      rcases leavesFrom_below place 0 upstreams member with ⟨index, -, below⟩
      exact (List.suffix_cons index place).trans below

theorem leavesFrom_below (place : Place) (start : Nat) (configs : List UpstreamConfig)
    {leaf : Place × LeafConfig} (member : leaf ∈ leavesFrom place start configs) :
    ∃ index, start ≤ index ∧ (index :: place) <:+ leaf.1 := by
  cases configs with
  | nil => cases member
  | cons config rest =>
      rcases List.mem_append.mp member with first | later
      · exact ⟨start, le_rfl, leaves_below (start :: place) config first⟩
      · rcases leavesFrom_below place (start + 1) rest later with ⟨index, after, below⟩
        exact ⟨index, Nat.le_of_succ_le after, below⟩

end

mutual

theorem places_distinct (place : Place) (config : UpstreamConfig) :
    ((leaves place config).map Prod.fst).Nodup := by
  cases config with
  | http config | s3 config => exact List.nodup_singleton place
  | fallthrough upstreams => exact placesFrom_distinct place 0 upstreams

theorem placesFrom_distinct (place : Place) (start : Nat) (configs : List UpstreamConfig) :
    ((leavesFrom place start configs).map Prod.fst).Nodup := by
  cases configs with
  | nil => exact List.nodup_nil
  | cons config rest =>
      rw [leavesFrom, List.map_append, List.nodup_append]
      refine ⟨places_distinct (start :: place) config, placesFrom_distinct place (start + 1) rest, ?_⟩
      intro one first other later same
      subst other
      rcases List.mem_map.mp first with ⟨leaf, member, rfl⟩
      rcases List.mem_map.mp later with ⟨twin, again, sameplace⟩
      have below := leaves_below (start :: place) config member
      rcases leavesFrom_below place (start + 1) rest again with ⟨index, after, alsoBelow⟩
      rw [sameplace] at alsoBelow
      have equal := (List.suffix_of_suffix_length_le below alsoBelow le_rfl).eq_of_length rfl
      have heads := (List.cons.inj equal).1
      omega

end

/-- Leaves that note their place in a trace when they are asked, and have one answer to
each path. -/
def tracedLeaves (answers : Place → String → Answer) : NewLeaf (StateM (List Place)) :=
  fun place _ => some ⟨fun path => probe (fun place => answers place path) place⟩

theorem tracedLeaves_built (answers : Place → String → Answer)
    (parts : List (Place × LeafConfig)) : buildLeaves (tracedLeaves answers) parts =
      some ((parts.map Prod.fst).map fun place =>
        ⟨fun path => probe (fun place => answers place path) place⟩) := by
  induction parts with
  | nil => rfl
  | cons part rest ih =>
      rw [buildLeaves] at ih ⊢
      rw [List.mapM_cons, ih]
      rfl

def leafPlaces (config : UpstreamConfig) : List Place := (leaves [] config).map Prod.fst

/-- A built tree answers with the first success among its leaves from left to right, else
with the first error, else with nothing, and it asks the leaves up to the first success,
each once and in order. Trees with the same leaves act alike whatever a request does. -/
theorem upstream_tree_flattened :
    (∀ (answers : Place → String → Answer) (config : UpstreamConfig),
      (leafPlaces config).Nodup ∧
      ∃ upstream, buildUpstream (tracedLeaves answers) [] config = some upstream ∧
        ∀ path trace, (upstream.get path).run trace =
          (verdict ((leafPlaces config).map fun place => answers place path),
            trace ++ asked (fun place => succeeds (answers place path)) (leafPlaces config))) ∧
    ∀ (M : Type → Type) [Monad M] [LawfulMonad M] (new other : NewLeaf M)
      (config rearranged : UpstreamConfig) (objects : List (DynUpstream M)),
      buildLeaves new (leaves [] config) = some objects →
      buildLeaves other (leaves [] rearranged) = some objects →
        ∃ first second, buildUpstream new [] config = some first ∧
          buildUpstream other [] rearranged = some second ∧ first.get = second.get := by
  constructor
  · intro answers config
    refine ⟨places_distinct [] config, ?_⟩
    rcases build_scan [] config (tracedLeaves_built answers (leaves [] config)) with
      ⟨upstream, built, flat⟩
    refine ⟨upstream, built, ?_⟩
    intro path trace
    rw [flat, scan_map]
    exact scan_traced (fun place => answers place path) (leafPlaces config) trace
  · intro M _ _ new other config rearranged objects built rebuilt
    rcases build_scan [] config built with ⟨first, builtFirst, flatFirst⟩
    rcases build_scan [] rearranged rebuilt with ⟨second, builtSecond, flatSecond⟩
    refine ⟨first, second, builtFirst, builtSecond, ?_⟩
    funext path
    exact (flatFirst path).trans (flatSecond path).symm

def bucketConfig (bucket : String) : UpstreamConfig := .s3 ⟨bucket, "", none, none, none⟩

def bucketLeaves : NewLeaf (StateM (List String))
  | _, .http _ => none
  | _, .s3 config => some ⟨fun path => probe (fun bucket =>
      if bucket = "second" then .ok (some ⟨⟨none⟩, ⟨[path.toUTF8.toList], none⟩⟩)
      else .error (.getObject "no such bucket")) config.bucket⟩

theorem upstream_tree_flattened_nested :
    ∃ first second,
      buildUpstream bucketLeaves [] (.fallthrough [.fallthrough [bucketConfig "first"],
        .fallthrough [], .fallthrough [bucketConfig "second", bucketConfig "third"]]) =
          some first ∧
      buildUpstream bucketLeaves [] (.fallthrough [bucketConfig "first", bucketConfig "second",
        bucketConfig "third"]) = some second ∧ first.get = second.get :=
  upstream_tree_flattened.2 (StateM (List String)) bucketLeaves bucketLeaves _ _ _ rfl rfl

end Server3.Upstream
