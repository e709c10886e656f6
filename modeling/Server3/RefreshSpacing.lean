import Server3.Births
import Server3.Counting
import Server3.ReadOrder

/-! The resources that a key is cached with follow one another no faster than they expire,
except for those that are evicted. -/

namespace Server3.Machine

open Clock Routes Upstream Resource Recency

variable {T : Type → Type} [PathTree T] {capacity : UInt64} {slots : Nat} {positive : 0 < slots}
  {start state next : State} {id : TaskId} {task : Task} {action : Action T}
  {actions : List (Action T)} {key : CachedResourceKey} {cell other : CellId}
  {resource newer : CachedResource}

def lookupTimes (start : State) (actions : List (Action T)) : List Instant :=
  Transition.observed step lookupTime start actions

def InOrder (start : State) (actions : List (Action T)) : Prop :=
  (lookupTimes start actions).Pairwise (· ≤ ·)

theorem times_snoc (reached : Transition.run step start actions = some state) :
    lookupTimes start (actions ++ [action]) =
      lookupTimes start actions ++ (lookupTime state action).toList :=
  Transition.observed_snoc reached

theorem times_append {more : List (Action T)}
    (reached : Transition.run step start actions = some state) :
    lookupTimes start (actions ++ more) = lookupTimes start actions ++ lookupTimes state more :=
  Transition.observed_append reached

theorem order_before {more : List (Action T)} (ordered : InOrder start (actions ++ more))
    (reached : Transition.run step start actions = some state) : InOrder start actions := by
  rw [InOrder, times_append reached] at ordered
  exact (List.pairwise_append.mp ordered).1

section Looking

omit [PathTree T] in
theorem move_looks (present : state.tasks[id]? = some task) (move : Move state id task action next) :
    ∃ pc, next.tasks = state.tasks.set id { task with pc := pc } ∧
      ((pc = .lookup ∧ state.lock = none ∧ lookupTime state action = some task.now) ∨
        (pc ≠ .lookup ∧ lookupTime state action = none)) := by
  cases move with
  | acquireLookup stage unlocked =>
      exact ⟨_, rfl, Or.inl ⟨rfl, unlocked, by simp [lookupTime, present, stage]⟩⟩
  | acquireEvict cell fetched stage unlocked =>
      exact ⟨_, rfl, Or.inr ⟨nofun, by simp [lookupTime, present, stage]⟩⟩
  | lookup stage => exact ⟨_, State.releaseOption_tasks _, Or.inr ⟨nofun, rfl⟩⟩
  | reserveFailed cell fetched locked stage refused =>
      refine ⟨_, rfl, Or.inr ⟨?_, rfl⟩⟩
      cases locked <;> nofun
  | _ =>
      first
      | exact ⟨_, rfl, Or.inr ⟨nofun, rfl⟩⟩
      | exact ⟨_, State.release_tasks _ _, Or.inr ⟨nofun, rfl⟩⟩

/-- The get that is looking began last, so that with lookups in order it is the latest. -/
def Latest (start : State) (actions : List (Action T)) (state : State) : Prop :=
  ∀ (id : TaskId) task, state.tasks[id]? = some task → task.pc = .lookup →
    task.now ∈ lookupTimes start actions ∧ ∀ time ∈ lookupTimes start actions, time ≤ task.now

theorem latest_move (inv : Inv capacity state) (present : state.tasks[id]? = some task)
    (reached : Transition.run step start actions = some state)
    (ordered : InOrder start (actions ++ [action])) (before : Latest start actions state)
    (move : Move state id task action next) : Latest start (actions ++ [action]) next := by
  rcases move_looks present move with ⟨pc, tasks, looks⟩
  intro other found after stage
  rw [InOrder, times_snoc reached] at ordered
  rw [times_snoc reached]
  rcases task_after present tasks after with ⟨rfl, rfl⟩ | ⟨-, unchanged⟩
  · rcases looks with ⟨-, -, began⟩ | ⟨away, -⟩
    · rw [began] at ordered ⊢
      refine ⟨by simp, ?_⟩
      intro time member
      rcases List.mem_append.mp member with older | last
      · exact (List.pairwise_append.mp ordered).2.2 time older _ (by simp)
      · simp only [Option.toList_some, List.mem_singleton] at last
        rw [last]
        exact Nat.le_refl _
    · exact absurd stage away
  · -- no other get begins while this one has the lock
    have silent : lookupTime state action = none := by
      rcases looks with ⟨-, unlocked, -⟩ | ⟨-, silent⟩
      · have locked := (inv.tasks other found unchanged).lock (by rw [stage]; rfl)
        rw [unlocked] at locked
        cases locked
      · exact silent
    rw [silent, Option.toList_none, List.append_nil]
    exact before other found unchanged stage

theorem run_latest
    (reached : Transition.run step (initial capacity slots positive) actions = some state)
    (ordered : InOrder (initial capacity slots positive) actions) :
    Latest (initial capacity slots positive) actions state := by
  refine Transition.run_induction (fun actions state =>
    InOrder (initial capacity slots positive) actions →
      Latest (initial capacity slots positive) actions state) ?_ ?_ reached ordered
  · intro _ id task present
    simp [initial] at present
  · intro actions state action next earlier before taken ordered
    have older := before (order_before ordered earlier)
    rcases step_moves taken with ⟨cache, path, now, rfl, rfl⟩ | ⟨id, task, present, move⟩
    · rcases start_started state cache path now with ⟨fresh, started⟩
      intro id task present stage
      rw [times_snoc earlier]
      simp only [lookupTime, Option.toList_none, List.append_nil]
      rw [started.tasks] at present
      rcases Arena.get_append_cases present with old | ⟨-, rfl⟩
      · exact older id task old stage
      · rcases started.stage with ⟨shape, -⟩ | ⟨shape, -⟩ | ⟨shape, -⟩ | ⟨shape, -⟩ <;>
          rw [shape] at stage <;> cases stage
    · exact latest_move (run_inv earlier) present earlier ordered older move

omit [PathTree T] in
theorem lookup_stage [PathTree T] (present : state.tasks[id]? = some task)
    (taken : step state (.lookup id : Action T) = some next) : task.pc = .lookup := by
  simp only [step, present, Option.bind_some, State.lookup] at taken
  split at taken
  · assumption
  · cases taken

theorem lookup_before {front rest : List (Action T)} {middle after : State} {asker : TaskId}
    {asking : Task} (ordered : InOrder (initial capacity slots positive) actions)
    (reached : Transition.run step (initial capacity slots positive) actions = some state)
    (present : state.tasks[id]? = some task) (stage : task.pc = .lookup)
    (split : actions ++ [action] = front ++ .lookup asker :: rest)
    (earlier : Transition.run step (initial capacity slots positive) front = some middle)
    (found : middle.tasks[asker]? = some asking)
    (taken : step middle (.lookup asker : Action T) = some after) : asking.now ≤ task.now := by
  have front_actions : front <+: actions := by
    have lengths := congrArg List.length split
    simp only [List.length_append, List.length_cons, List.length_nil] at lengths
    exact List.prefix_of_prefix_length_le (split ▸ List.prefix_append front _)
      (List.prefix_append actions _) (by omega)
  rcases Transition.run_between earlier reached front_actions with ⟨more, rfl, -⟩
  have began := (run_latest earlier (order_before ordered earlier)) asker asking found
    (lookup_stage found taken)
  apply (run_latest reached ordered id task present stage).2
  rw [times_append earlier]
  exact List.mem_append_left _ began.1

end Looking

section Spacing

omit [PathTree T] in
theorem expired_later {time later : Instant} (expired : resource.isExpired time = true)
    (order : time ≤ later) : resource.isExpired later = true := by
  unfold CachedResource.isExpired at expired ⊢
  cases expires : resource.expiresAt with
  | none => simp [expires] at expired
  | some expiresAt =>
      simp only [expires, decide_eq_true_eq] at expired ⊢
      exact Nat.le_trans expired order

theorem held_longer (held : HeldIn start actions cell resource) (more : List (Action T)) :
    HeldIn start (actions ++ more) cell resource := by
  rcases held with ⟨before, middle, front, facts⟩
  exact ⟨before, middle, front.trans (List.prefix_append actions more), facts⟩

/-- The cell was evicted, or held what is expired at this time. -/
def Over (start : State) (actions : List (Action T)) (key : CachedResourceKey) (cell : CellId)
    (time : Instant) : Prop :=
  Evicted start actions key cell ∨
    ∃ resource, HeldIn start actions cell resource ∧ resource.isExpired time = true

theorem evicted_longer (evicted : Evicted start actions key cell) (more : List (Action T)) :
    Evicted start (actions ++ more) key cell := by
  rcases evicted with ⟨before, action, after, middle, next, split, facts⟩
  exact ⟨before, action, after ++ more, middle, next, by simp [split], facts⟩

theorem over_longer {time : Instant} (past : Over start actions key cell time)
    (more : List (Action T)) : Over start (actions ++ more) key cell time := by
  rcases past with evicted | ⟨resource, held, expired⟩
  · exact Or.inl (evicted_longer evicted more)
  · exact Or.inr ⟨resource, held_longer held more, expired⟩

omit [PathTree T] in
theorem older_known (inv : Inv capacity state) (move : Move state id task action next)
    (there : (state.keyAt cell).isSome) (older : other < cell)
    (known : next.keyAt other = some key) : state.keyAt other = some key := by
  rcases move_keyAt inv move known with same | ⟨fresh, -, -⟩
  · exact same
  · rcases Option.isSome_iff_exists.mp there with ⟨found, there⟩
    rcases Option.map_eq_some_iff.mp there with ⟨slot, present, -⟩
    have bound := Nat.lt_trans older (Arena.get_lt present)
    rw [State.keyAt, Option.map_eq_none_iff, List.getElem?_eq_none_iff] at fresh
    exact absurd bound (Nat.not_lt.mpr fresh)

theorem run_older_over
    (reached : Transition.run step (initial capacity slots positive) actions = some state)
    (ordered : InOrder (initial capacity slots positive) actions) :
    ∀ (id : TaskId) task cell other, state.tasks[id]? = some task → task.pc.own = some cell →
      other < cell → state.keyAt other = some task.key →
        Over (initial capacity slots positive) actions task.key other task.now := by
  refine Transition.run_induction (fun actions state =>
    InOrder (initial capacity slots positive) actions →
      ∀ (id : TaskId) task cell other, state.tasks[id]? = some task → task.pc.own = some cell →
        other < cell → state.keyAt other = some task.key →
          Over (initial capacity slots positive) actions task.key other task.now) ?_ ?_ reached
    ordered
  · intro _ id task cell other present
    simp [initial] at present
  · intro actions state action next earlier ih taken ordered id task cell other present own older
      known
    have before := order_before ordered earlier
    have inv := run_inv earlier
    rcases step_moves taken with ⟨cache, path, now, rfl, rfl⟩ | ⟨mover, moving, moves, move⟩
    · rcases start_started state cache path now with ⟨fresh, started⟩
      rw [started.tasks] at present
      rw [started.keyAt] at known
      rcases Arena.get_append_cases present with old | ⟨-, rfl⟩
      · exact over_longer (ih before id task cell other old own older known) _
      · rcases started.stage with ⟨stage, -⟩ | ⟨stage, -⟩ | ⟨stage, -⟩ | ⟨stage, -⟩ <;>
          rw [stage] at own <;> cases own
    · rcases move_own inv move with ⟨pc, tasks, -, looked⟩
      have kept (holder : TaskId) (held : Task) (present : state.tasks[holder]? = some held)
          (own : held.pc.own = some cell) (known : next.keyAt other = some held.key) :
          Over (initial capacity slots positive) (actions ++ [action]) held.key other held.now := by
        have there := ((inv.tasks holder held present).own cell own).1
        have same := older_known inv move (Option.isSome_of_eq_some there) older known
        exact over_longer (ih before holder held cell other present own older same) _
      rcases task_after moves tasks present with ⟨rfl, rfl⟩ | ⟨-, unchanged⟩
      · rcases looked cell own with held | ⟨-, stage, mapped⟩
        · exact kept id moving moves held known
        · -- the cell is the mapped one now, so that the older ones have left the map
          have final := Transition.run_snoc.mpr ⟨state, earlier, taken⟩
          have gone : (moving.key, other) ∉ next.map.entries :=
            fun member => older.ne (LruCache.entry_unique member mapped)
          rcases (run_generations final).left moving.key other known gone with
            evicted | ⟨front, asker, rest, middle, asking, resource, split, first, found, -, filled,
              expired⟩
          · exact Or.inl evicted
          · have onwards := final
            rw [split, Transition.run_append, first, Option.bind_some] at onwards
            rcases Option.bind_eq_some_iff.mp onwards with ⟨after, asked, -⟩
            have order := lookup_before before earlier moves stage split first found asked
            exact Or.inr ⟨resource, ⟨front, middle, split ▸ List.prefix_append front _, first,
              filled⟩, expired_later expired order⟩
      · exact kept id task unchanged own known

/-- Of two cells of a key that held something, the older one was evicted, or what it held was
expired for the get that fetched anew. -/
theorem held_spaced
    (reached : Transition.run step (initial capacity slots positive) actions = some state)
    (ordered : InOrder (initial capacity slots positive) actions)
    (known : state.keyAt cell = some key) (same : state.keyAt other = some key)
    (older : cell < other) (one : HeldIn (initial capacity slots positive) actions cell resource)
    (two : HeldIn (initial capacity slots positive) actions other newer) :
    Evicted (initial capacity slots positive) actions key cell ∨
      ∃ request, (requests actions)[newer.id]? = some request ∧
        resource.isExpired request.now = true := by
  rcases held_filled two with
    ⟨before, clock, after, middle, task, rfl, reachedMiddle, present, own, -⟩
  rcases Transition.run_between reachedMiddle reached (List.prefix_append before _) with
    ⟨rest, -, onwards⟩
  have keyed {cell : CellId} {found : CachedResourceKey} (final : state.keyAt cell = some key)
      (there : middle.keyAt cell = some found) : found = key := by
    have later := key_run onwards there
    rw [final, Option.some.injEq] at later
    exact later.symm
  have owned := ((run_inv reachedMiddle).tasks newer.id task present).own other own
  have taskKey := keyed same owned.1
  have there : middle.keyAt cell = some task.key := by
    have bound : other < middle.slots.length := by
      rcases Option.map_eq_some_iff.mp owned.1 with ⟨slot, found, -⟩
      exact Arena.get_lt found
    have below : cell < middle.slots.length := Nat.lt_trans older bound
    have some : middle.keyAt cell = some middle.slots[cell].key := by
      rw [State.keyAt, List.getElem?_eq_getElem below, Option.map_some]
    rw [some, taskKey, keyed known some]
  have before_ordered := order_before ordered reachedMiddle
  rcases run_older_over reachedMiddle before_ordered newer.id task other cell present own older there with
    evicted | ⟨held, heldIn, expired⟩
  · exact Or.inl (taskKey ▸ evicted_longer evicted _)
  · right
    rcases task_request reachedMiddle present with ⟨request, asked, -, now⟩
    refine ⟨request, ?_, ?_⟩
    · rw [requests, List.filterMap_append]
      exact Arena.get_append_old _ asked
    · rw [now, held_unique one (held_longer heldIn _)]
      exact expired

theorem held_planned
    (reached : Transition.run step (initial capacity slots positive) actions = some state)
    (known : state.keyAt cell = some key)
    (held : HeldIn (initial capacity slots positive) actions cell resource) :
    ∃ request, (requests actions)[resource.id]? = some request ∧ request.key = key ∧
      request.plan = .cached resource.expiresAt := by
  rcases held with ⟨before, middle, ⟨more, rfl⟩, earlier, filled⟩
  rcases Transition.run_between earlier reached (List.prefix_append before _) with
    ⟨rest, -, onwards⟩
  rcases Option.isSome_iff_exists.mp (known_of_cell filled) with ⟨found, there⟩
  have same := key_run onwards there
  rw [known, Option.some.injEq] at same
  subst same
  rcases (run_births earlier).cells cell key resource there filled with ⟨request, clock, birth⟩
  refine ⟨request, ?_, birth.key, birth.planned⟩
  rw [requests, List.filterMap_append]
  exact Arena.get_append_old _ birth.asked

structure Refreshed (start : State) (actions : List (Action T)) (state : State)
    (key : CachedResourceKey) (cell : CellId) : Prop where
  known : state.keyAt cell = some key
  held : ∃ resource, HeldIn start actions cell resource
  unevicted : ¬ Evicted start actions key cell

theorem held_lasts {duration : Duration}
    (reached : Transition.run step (initial capacity slots positive) actions = some state)
    (governed : ∀ request ∈ requests actions, request.key = key →
      request.rule = .enabled ⟨.cacheFor duration⟩)
    (known : state.keyAt cell = some key)
    (held : HeldIn (initial capacity slots positive) actions cell resource) :
    ∃ request, (requests actions)[resource.id]? = some request ∧ request.key = key ∧
      ∀ now : Instant, resource.isExpired now = true →
        request.now.nanos + duration.nanos ≤ now.nanos := by
  rcases held_planned reached known held with ⟨request, asked, same, planned⟩
  refine ⟨request, asked, same, ?_⟩
  intro now expired
  rw [Request.plan, governed request (List.mem_of_getElem? asked) same, Resource.plan] at planned
  cases added : request.now.checkedAdd duration with
  | none => simp [added] at planned
  | some expiresAt =>
      simp only [added, Plan.cached.injEq] at planned
      simp only [CachedResource.isExpired, ← planned, decide_eq_true_eq] at expired
      rw [← checked_add_some.mp added]
      exact expired

/-- A key that is cached for so long is not fetched and cached again within that time, except
for what is evicted: with lookups in the order of their times, the requests for the key
have no room for more cells than so. -/
theorem refreshes_spaced {duration : Duration} {first last : Instant} {cells : Finset CellId}
    (reached : Transition.run step (initial capacity slots positive) actions = some state)
    (ordered : InOrder (initial capacity slots positive) actions)
    (governed : ∀ request ∈ requests actions, request.key = key →
      request.rule = .enabled ⟨.cacheFor duration⟩)
    (within : ∀ request ∈ requests actions, request.key = key →
      first ≤ request.now ∧ request.now ≤ last)
    (refreshed : ∀ cell ∈ cells,
      Refreshed (initial capacity slots positive) actions state key cell) :
    cells.card * duration.nanos ≤ last.nanos - first.nanos + duration.nanos := by
  have fetched (item : cells) : ∃ resource request,
      HeldIn (initial capacity slots positive) actions item.1 resource ∧
        (requests actions)[resource.id]? = some request ∧ request.key = key ∧
        ∀ now : Instant, resource.isExpired now = true →
          request.now.nanos + duration.nanos ≤ now.nanos := by
    have member := refreshed item.1 item.2
    rcases member.held with ⟨resource, held⟩
    rcases held_lasts reached governed member.known held with ⟨request, made⟩
    exact ⟨resource, request, held, made⟩
  choose resource request held asked same lasts using fetched
  have window (item : cells) := within (request item) (List.mem_of_getElem? (asked item)) (same item)
  have spaced (one two : cells) (older : one < two) :
      (request one).now.nanos + duration.nanos ≤ (request two).now.nanos := by
    have oneMember := refreshed one.1 one.2
    have twoMember := refreshed two.1 two.2
    rcases held_spaced reached ordered oneMember.known twoMember.known older (held one) (held two)
      with evicted | ⟨again, found, expired⟩
    · exact absurd evicted oneMember.unevicted
    · rw [asked two, Option.some.injEq] at found
      subst found
      exact lasts one _ expired
  rcases cells.attach.eq_empty_or_nonempty with none | some
  · rw [← Finset.card_attach, none, Finset.card_empty, Nat.zero_mul]
    exact Nat.zero_le _
  · have room := Counting.spaced_card cells.attach (fun item => (request item).now.nanos)
      duration.nanos first.nanos (fun item _ => (window item).1)
      (fun one _ two _ older => spaced one two older) last.nanos (fun item _ => (window item).2)
      some
    rw [Finset.card_attach] at room
    omega

def calm (state : State) : Action T → Bool
  | .pop _ => false
  | .lookup _ => state.map.displaced.isNone
  | _ => true

theorem calm_unevicted
    (along : Transition.Along step (fun state (action : Action T) => calm state action = true) start
      actions) : ¬ Evicted start actions key cell := by
  intro evicted
  rcases evicted with ⟨before, action, after, middle, next, split, reached, -, evicts⟩
  have still := along before action after middle split reached
  rcases evicts.how with ⟨id, rest, rfl, -⟩ | ⟨id, task, rfl, -, -, displaced⟩
  · cases still
  · simp [calm, displaced] at still

end Spacing

theorem refreshes_spaced_twice :
    ({0, 1} : Finset CellId).card * (2 * 10^9) ≤ 5 * 10^9 - 0 + 2 * 10^9 := by
  have shape : (Transition.run step (initial 10 2 (by decide)) (firstRead ++ secondRead)).map
      (fun state => (state.keyAt 0, state.keyAt 1)) =
        some (some ⟨"files", "/a"⟩, some ⟨"files", "/a"⟩) := rfl
  rcases Option.map_eq_some_iff.mp shape with ⟨state, reached, keys⟩
  obtain ⟨zero, one⟩ := Prod.mk.inj keys
  have ordered : InOrder (initial 10 2 (by decide)) (firstRead ++ secondRead) := by
    change [epoch, fiveSeconds].Pairwise (· ≤ ·)
    decide
  have asked : requests (firstRead ++ secondRead) =
      [⟨shortCache, "/a", epoch⟩, ⟨shortCache, "/a", fiveSeconds⟩] := rfl
  have unevicted (cell : CellId) :
      ¬ Evicted (initial 10 2 (by decide)) (firstRead ++ secondRead) ⟨"files", "/a"⟩ cell :=
    calm_unevicted (by decide)
  have governed : ∀ request ∈ requests (firstRead ++ secondRead),
      request.key = ⟨"files", "/a"⟩ →
        request.rule = .enabled ⟨.cacheFor ⟨2 * 10^9, by decide⟩⟩ := by
    intro request member _
    rw [asked] at member
    simp only [List.mem_cons, List.not_mem_nil, or_false] at member
    rcases member with rfl | rfl <;> rfl
  have within : ∀ request ∈ requests (firstRead ++ secondRead),
      request.key = ⟨"files", "/a"⟩ → epoch ≤ request.now ∧ request.now ≤ fiveSeconds := by
    intro request member _
    rw [asked] at member
    simp only [List.mem_cons, List.not_mem_nil, or_false] at member
    rcases member with rfl | rfl <;> decide
  refine refreshes_spaced reached ordered governed within ?_
  intro cell member
  rcases Finset.mem_insert.mp member with rfl | last
  · exact ⟨zero, ⟨_, firstRead, _, List.prefix_append _ _, rfl, rfl⟩, unevicted 0⟩
  · rw [Finset.mem_singleton] at last
    subst last
    exact ⟨one, ⟨_, firstRead ++ secondRead, _, List.prefix_rfl, rfl, rfl⟩, unevicted 1⟩

end Server3.Machine
