import Server3.Provenance

/-! Which gets bring content into the cache: only those whose rule lets them cache. -/

namespace Server3.Machine

open Clock Routes Upstream Resource Recency

def Pc.caches : Pc → Bool
  | .neverFetch | .panicked | .cancelled => false
  | .finished (.ok (some response)) => response.outcome ≠ .never
  | .finished _ => false
  | _ => true

variable {T : Type → Type} [PathTree T] {capacity : UInt64} {state next : State} {id : TaskId}
  {task : Task} {action : Action T} {actions : List (Action T)} {key : CachedResourceKey}
  {headers : UpstreamResourceHeaders} {content : Bytes}

def CachingGet (actions : List (Action T)) (id : TaskId) (key : CachedResourceKey) : Prop :=
  ∃ request, (requests actions)[id]? = some request ∧ request.key = key ∧
    ∃ expiresAfter, plan (request.cache.rules.matchRoute request.path).1 request.now =
      .cached expiresAfter

def Origin (actions : List (Action T)) (key : CachedResourceKey)
    (headers : UpstreamResourceHeaders) (content : Bytes) : Prop :=
  ∃ source, CachingGet actions source key ∧ AnsweredWith actions source headers content

def passedOn (resource : UpstreamResource) : CachedResourceResponse :=
  ⟨resource.headers, .upstream resource.body, .never, none⟩

structure Origins (actions : List (Action T)) (state : State) : Prop where
  tasks : ∀ (id : TaskId) task, state.tasks[id]? = some task → task.pc.caches = true →
    CachingGet actions id task.key
  cells : ∀ cell key resource, state.keyAt cell = some key →
    state.cellAt cell = some (.filled resource) →
      Origin actions key resource.headers resource.file.content
  served : ∀ (id : TaskId) task response, state.tasks[id]? = some task →
    task.pc = .finished (.ok (some response)) → response.outcome ≠ .never →
      ∃ file, response.body = .file file ∧ Origin actions task.key response.headers file.content
  passed : ∀ (id : TaskId) task response, state.tasks[id]? = some task →
    task.pc = .finished (.ok (some response)) → response.outcome = .never →
      ∃ resource, .answer id (.ok (some resource)) ∈ actions ∧ response = passedOn resource

theorem caching_later (caching : CachingGet actions id key) (action : Action T) :
    CachingGet (actions ++ [action]) id key := by
  rcases caching with ⟨request, asked, rest⟩
  refine ⟨request, ?_, rest⟩
  rw [requests, List.filterMap_append]
  exact Arena.get_append_old _ asked

theorem origin_later (origin : Origin actions key headers content) (action : Action T) :
    Origin (actions ++ [action]) key headers content := by
  rcases origin with ⟨source, caching, answered⟩
  exact ⟨source, caching_later caching action,
    answered_later (List.subset_append_left _ _) answered⟩

/-- A get that ends with a resource has it from its own answer or from its cell. -/
def EndsServed (id : TaskId) (action : Action T) (before after : Pc) : Prop :=
  ∀ response, after = .finished (.ok (some response)) →
    (∃ resource, action = .answer id (.ok (some resource)) ∧ response = passedOn resource) ∨
      ∃ cell resource, before = .cloning cell resource ∧ response = resource.response id

omit [PathTree T] in
theorem move_caches (move : Move state id task action next) :
    ∃ pc, next.tasks = state.tasks.set id { task with pc := pc } ∧
      (pc.caches = true → task.pc.caches = true) ∧ EndsServed id action task.pc pc := by
  cases move with
  | answerNever answer stage =>
      refine ⟨_, rfl, ?_, ?_⟩
      · intro caches
        match answer with
        | .error _ => cases caches
        | .ok none => cases caches
        | .ok (some resource) => simp [Except.map, Pc.caches] at caches
      · intro response finished
        match answer with
        | .error _ => cases finished
        | .ok none => cases finished
        | .ok (some resource) =>
            cases finished
            exact Or.inl ⟨resource, rfl, rfl⟩
  | respond cell resource cloneError result stage shape =>
      refine ⟨_, State.release_tasks _ _, fun _ => by rw [stage]; rfl, ?_⟩
      rintro response ⟨⟩
      cases cloneError with
      | some message => cases shape
      | none =>
          cases shape
          exact Or.inr ⟨cell, resource, stage, rfl⟩
  | lookup stage =>
      exact ⟨_, State.releaseOption_tasks _, fun _ => by rw [stage]; rfl, by rintro _ ⟨⟩⟩
  | answerNone cell stage | answerError cell _ stage | storeError cell _ _ _ stage =>
      exact ⟨_, State.abandon_tasks _ _ _, fun _ => by rw [stage]; rfl, by rintro _ ⟨⟩⟩
  | evict cell _ _ stage =>
      exact ⟨_, State.release_tasks _ _, fun _ => by rw [stage]; rfl, by rintro _ ⟨⟩⟩
  | cancelIdle stage => exact ⟨_, rfl, (fun caches => by cases caches), by rintro _ ⟨⟩⟩
  | cancelJoined cell stage =>
      exact ⟨_, State.release_tasks _ _, (fun caches => by cases caches), by rintro _ ⟨⟩⟩
  | cancelInit cell stage =>
      exact ⟨_, State.abandon_tasks _ _ _, (fun caches => by cases caches), by rintro _ ⟨⟩⟩
  | reserveFailed cell fetched locked stage refused =>
      refine ⟨_, rfl, fun _ => by rw [stage]; rfl, ?_⟩
      cases locked <;> rintro _ ⟨⟩
  | acquireLookup stage | acquireEvict _ _ stage | joinFilled _ _ stage | joinEmpty _ stage
  | answerFound _ _ stage | storeOk _ _ _ _ stage | reserveGranted _ _ _ _ _ stage
  | popEntry _ _ _ _ _ stage | popNothing _ _ stage | reserveUpTo _ _ _ _ stage
  | unlock _ _ _ stage | fill _ _ _ _ stage | count _ _ stage =>
      exact ⟨_, rfl, fun _ => by rw [stage]; rfl, by rintro _ ⟨⟩⟩

theorem response_cached (resource : CachedResource) (id : TaskId) :
    (resource.response id).outcome ≠ .never := by
  unfold CachedResource.response
  dsimp only
  split <;> simp

theorem origins_move (inv : Inv capacity state) (present : state.tasks[id]? = some task)
    (provenance : Provenance actions state) (origins : Origins actions state)
    (move : Move state id task action next) : Origins (actions ++ [action]) next := by
  rcases move_caches move with ⟨pc, tasks, caches, ends⟩
  refine ⟨?_, ?_, ?_, ?_⟩
  · intro other found after place
    rcases task_after present tasks after with ⟨rfl, rfl⟩ | ⟨-, before⟩
    · exact caching_later (origins.tasks other task present (caches place)) action
    · exact caching_later (origins.tasks other found before place) action
  · intro cell key resource known filled
    have older : state.keyAt cell = some key := by
      rcases move_keyAt inv move known with same | ⟨fresh, -, mapped⟩
      · exact same
      · rcases move_filled move filled with old | ⟨fetched, reservation, clock, -, stage, -⟩
        · have before := known_of_cell old
          rw [fresh] at before
          cases before
        · have own := ((inv.tasks id task present).own cell (by rw [stage]; rfl)).1
          rw [fresh] at own
          cases own
    rcases move_filled move filled with old | ⟨fetched, reservation, clock, -, stage, rfl⟩
    · exact origin_later (origins.cells cell key resource older old) action
    · have own := ((inv.tasks id task present).own cell (by rw [stage]; rfl)).1
      have same := Option.some.inj (own.symm.trans older)
      have caching := origins.tasks id task present (by rw [stage]; rfl)
      have answered := provenance.tasks id task present
      rw [stage] at answered
      exact origin_later ⟨id, same ▸ caching, answered⟩ action
  · intro other found response after finished served
    rcases task_after present tasks after with ⟨rfl, rfl⟩ | ⟨-, before⟩
    · rcases ends response finished with ⟨answered, -, rfl⟩ | ⟨cell, resource, stage, rfl⟩
      · exact absurd rfl served
      · have valid := inv.tasks other task present
        have filled := valid.stage
        have own := (valid.own cell (by rw [stage]; rfl)).1
        rw [stage] at filled
        exact ⟨resource.file, rfl,
          origin_later (origins.cells cell task.key resource own filled) action⟩
    · rcases origins.served other found response before finished served with ⟨file, body, origin⟩
      exact ⟨file, body, origin_later origin action⟩
  · intro other found response after finished never
    rcases task_after present tasks after with ⟨rfl, rfl⟩ | ⟨-, before⟩
    · rcases ends response finished with ⟨answered, rfl, same⟩ | ⟨cell, resource, stage, rfl⟩
      · exact ⟨answered, by simp, same⟩
      · exact absurd never (response_cached resource other)
    · rcases origins.passed other found response before finished never with ⟨resource, member, same⟩
      exact ⟨resource, List.mem_append_left _ member, same⟩

theorem origins_start {slots : Nat} {positive : 0 < slots} (origins : Origins actions state)
    (reached : Transition.run step (initial capacity slots positive) actions = some state)
    (cache : Cache T) (path : String) (now : Instant) :
    Origins (actions ++ [.start cache path now]) (state.start cache path now) := by
  rcases start_started state cache path now with ⟨fresh, started⟩
  have unserved : ∀ response, fresh.pc ≠ .finished (.ok (some response)) := by
    intro response finished
    rcases started.stage with ⟨stage, -⟩ | ⟨stage, -⟩ | ⟨stage, -⟩ | ⟨stage, -⟩ <;>
      rw [stage] at finished <;> cases finished
  refine ⟨?_, ?_, ?_, ?_⟩
  · intro id task present place
    rw [started.tasks] at present
    rcases Arena.get_append_cases present with old | ⟨last, rfl⟩
    · exact caching_later (origins.tasks id task old place) _
    · have count := run_count reached
      refine ⟨⟨cache, path, now⟩, ?_, ?_, ?_⟩
      · rw [requests, List.filterMap_append, last, count]
        exact Arena.get_append_new _ _
      · rw [Request.key, Cache.key, Task.key, started.host, started.requested]
      · rcases started.stage with ⟨-, planned⟩ | ⟨stage, -⟩ | ⟨stage, -⟩ | ⟨stage, -⟩
        · exact ⟨_, planned⟩
        · simp [stage, Pc.caches] at place
        · simp [stage, Pc.caches] at place
        · simp [stage, Pc.caches] at place
  · intro cell key resource known filled
    rw [started.keyAt] at known
    rw [started.cellAt] at filled
    exact origin_later (origins.cells cell key resource known filled) _
  · intro id task response present finished served
    rw [started.tasks] at present
    rcases Arena.get_append_cases present with old | ⟨-, rfl⟩
    · rcases origins.served id task response old finished served with ⟨file, body, origin⟩
      exact ⟨file, body, origin_later origin _⟩
    · exact absurd finished (unserved response)
  · intro id task response present finished never
    rw [started.tasks] at present
    rcases Arena.get_append_cases present with old | ⟨-, rfl⟩
    · rcases origins.passed id task response old finished never with ⟨resource, member, same⟩
      exact ⟨resource, List.mem_append_left _ member, same⟩
    · exact absurd finished (unserved response)

theorem run_origins {slots : Nat} {positive : 0 < slots}
    (reached : Transition.run step (initial capacity slots positive) actions = some state) :
    Origins actions state := by
  refine Transition.run_induction Origins ?_ ?_ reached
  · refine ⟨?_, ?_, ?_, ?_⟩
    · intro id task present
      simp [initial] at present
    · intro cell key resource known
      simp [initial, State.keyAt] at known
    · intro id task response present
      simp [initial] at present
    · intro id task response present
      simp [initial] at present
  · intro actions state action next earlier before taken
    rcases step_moves taken with ⟨cache, path, now, rfl, rfl⟩ | ⟨id, task, present, move⟩
    · exact origins_start before earlier cache path now
    · exact origins_move (run_inv earlier) present (run_provenance earlier) before move

/-- The get has had the cell in hand at some time of the run. -/
def Holding (start : State) (actions : List (Action T)) (id : TaskId) (cell : CellId) : Prop :=
  ∃ before rest middle task, actions = before ++ rest ∧
    Transition.run step start before = some middle ∧ middle.tasks[id]? = some task ∧
    task.pc.own = some cell

omit [PathTree T] in
theorem own_caches {pc : Pc} {cell : CellId} (own : pc.own = some cell) : pc.caches = true := by
  cases pc <;> first
    | rfl
    | cases own

theorem holding_snoc {start : State} {cell : CellId}
    (reached : Transition.run step start (actions ++ [action]) = some next)
    (holding : Holding start (actions ++ [action]) id cell) :
    Holding start actions id cell ∨
      ∃ task, next.tasks[id]? = some task ∧ task.pc.own = some cell := by
  rcases holding with ⟨before, rest, middle, task, split, earlier, present, own⟩
  rcases List.eq_nil_or_concat rest with rfl | ⟨rest, last, rfl⟩
  · rw [List.append_nil] at split
    rw [← split, reached, Option.some.injEq] at earlier
    exact Or.inr ⟨task, earlier ▸ present, own⟩
  · rw [List.concat_eq_append, ← List.append_assoc] at split
    exact Or.inl ⟨before, rest, middle, task, (List.append_inj' split rfl).1, earlier, present, own⟩

/-- A cell is only ever held by caching gets of its key. -/
theorem run_holding {slots : Nat} {positive : 0 < slots}
    (reached : Transition.run step (initial capacity slots positive) actions = some state) :
    ∀ (id : TaskId) cell, Holding (initial capacity slots positive) actions id cell →
      ∃ key, state.keyAt cell = some key ∧ CachingGet actions id key := by
  refine Transition.run_induction (fun actions state => ∀ (id : TaskId) cell,
    Holding (initial capacity slots positive) actions id cell →
      ∃ key, state.keyAt cell = some key ∧ CachingGet actions id key) ?_ ?_ reached
  · rintro id cell ⟨before, rest, middle, task, split, earlier, present, -⟩
    obtain ⟨rfl, rfl⟩ := List.append_eq_nil_iff.mp split.symm
    cases earlier
    simp [initial] at present
  · intro actions state action next earlier before taken id cell holding
    have later := Transition.run_snoc.mpr ⟨state, earlier, taken⟩
    rcases holding_snoc later holding with older | ⟨task, present, own⟩
    · rcases before id cell older with ⟨key, known, caching⟩
      refine ⟨key, ?_, caching_later caching action⟩
      rcases step_moves taken with ⟨cache, path, now, rfl, rfl⟩ | ⟨mover, task, present, move⟩
      · rcases start_started state cache path now with ⟨fresh, started⟩
        rw [State.keyAt, started.slots]
        exact known
      · exact move_keeps_key move known
    · have valid := ((run_inv later).tasks id task present).own cell own
      exact ⟨task.key, valid.1, (run_origins later).tasks id task present (own_caches own)⟩

end Server3.Machine
