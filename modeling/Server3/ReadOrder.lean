import Server3.Classification
import Server3.Generations

/-! The gets of a key read it forwards: one that looks the key up after another was answered
is not served what was fetched before that one's resource. -/

namespace Server3.Machine

open Clock Routes Upstream Resource Recency

variable {T : Type → Type} [PathTree T] {capacity : UInt64} {slots : Nat} {positive : 0 < slots}
  {start state later next : State} {id : TaskId} {task : Task} {action : Action T}
  {actions earlier rest : List (Action T)} {key : CachedResourceKey} {cell : CellId}
  {resource : CachedResource}

section Onwards

theorem key_run (reached : Transition.run step state rest = some later)
    (known : state.keyAt cell = some key) : later.keyAt cell = some key := by
  refine Transition.run_induction (fun _ later => later.keyAt cell = some key) known ?_ reached
  intro rest before action after _ known taken
  rcases step_moves taken with ⟨cache, path, now, rfl, rfl⟩ | ⟨id, task, present, move⟩
  · rcases start_started before cache path now with ⟨fresh, started⟩
    rw [started.keyAt]
    exact known
  · exact move_keeps_key move known

def Concluded (state : State) (cell : CellId) : Prop :=
  (state.keyAt cell).isSome ∧ ∀ content, state.cellAt cell = some content → content.pending = false

theorem concluded_run (inv : Inv capacity state)
    (reached : Transition.run step state rest = some later) (settled : Concluded state cell) :
    ∀ resource, later.cellAt cell = some (.filled resource) →
      state.cellAt cell = some (.filled resource) := by
  have whole : Inv capacity later ∧ Concluded later cell ∧
      ∀ resource, later.cellAt cell = some (.filled resource) →
        state.cellAt cell = some (.filled resource) := by
    refine Transition.run_induction (fun _ later => Inv capacity later ∧ Concluded later cell ∧
      ∀ resource, later.cellAt cell = some (.filled resource) →
        state.cellAt cell = some (.filled resource)) ⟨inv, settled, fun _ filled => filled⟩ ?_
      reached
    rintro rest before action after - ⟨valid, still, same⟩ taken
    refine ⟨step_inv valid taken, ?_⟩
    rcases step_moves taken with ⟨cache, path, now, rfl, rfl⟩ | ⟨id, task, present, move⟩
    · rcases start_started before cache path now with ⟨fresh, started⟩
      simp only [Concluded, started.keyAt, started.cellAt]
      exact ⟨still, same⟩
    · refine ⟨settled_move valid present move still, ?_⟩
      intro resource filled
      rcases move_filled move filled with old | ⟨fetched, reservation, clock, -, stage, -⟩
      · exact same resource old
      · have permit := (valid.tasks id task present).permit cell (by rw [stage]; rfl)
        cases still.2 _ permit
  exact whole.2.2

theorem own_run (inv : Inv capacity state) (present : state.tasks[id]? = some task)
    (reached : Transition.run step state rest = some later) :
    ∃ after, later.tasks[id]? = some after ∧ (task.pc.ended = true → after.pc.ended = true) ∧
      ∀ cell, task.pc.own = some cell → after.pc.own = some cell ∨ after.pc.ended = true := by
  have whole : Inv capacity later ∧ ∃ after, later.tasks[id]? = some after ∧
      (task.pc.ended = true → after.pc.ended = true) ∧
      ∀ cell, task.pc.own = some cell → after.pc.own = some cell ∨ after.pc.ended = true := by
    refine Transition.run_induction (fun _ later => Inv capacity later ∧
      ∃ after, later.tasks[id]? = some after ∧ (task.pc.ended = true → after.pc.ended = true) ∧
        ∀ cell, task.pc.own = some cell → after.pc.own = some cell ∨ after.pc.ended = true)
      ⟨inv, task, present, fun ended => ended, fun _ => Or.inl⟩ ?_ reached
    rintro rest before action after - ⟨valid, found, there, stays, place⟩ taken
    refine ⟨step_inv valid taken, ?_⟩
    rcases step_moves taken with ⟨cache, path, now, rfl, rfl⟩ | ⟨mover, moving, moves, move⟩
    · rcases start_started before cache path now with ⟨fresh, started⟩
      rw [started.tasks]
      exact ⟨found, Arena.get_append_old _ there, stays, place⟩
    · rcases move_own valid move with ⟨pc, tasks, keeps, -⟩
      rw [tasks]
      by_cases same : mover = id
      · subst same
        rw [moves, Option.some.injEq] at there
        subst there
        have going := move_unended move
        simp only [going, Bool.false_eq_true, imp_false, or_false] at stays place
        refine ⟨_, Arena.get_set_self _ moves, fun ended => absurd ended stays, ?_⟩
        intro cell own
        exact keeps cell (place cell own)
      · exact ⟨found, (Arena.get_set_other _ _ same).trans there, stays, place⟩
  exact whole.2

theorem newest_run (before : Transition.run step (initial capacity slots positive) earlier = some state)
    (waiting : ∀ task, state.tasks[id]? = some task → task.pc.own = none)
    (reached : Transition.run step state rest = some later) :
    ∀ task cell other, later.tasks[id]? = some task → task.pc.own = some cell →
      state.keyAt other = some task.key → other ≤ cell := by
  refine Transition.run_induction (fun _ later => ∀ task cell other,
    later.tasks[id]? = some task → task.pc.own = some cell →
      state.keyAt other = some task.key → other ≤ cell) ?_ ?_ reached
  · intro task cell other present own
    rw [waiting task present] at own
    cases own
  · intro rest middle action after onwards ih taken task cell other present own known
    have whole : Transition.run step (initial capacity slots positive) (earlier ++ rest) =
        some middle := by
      rw [Transition.run_append, before]
      exact onwards
    have final := Transition.run_snoc.mpr ⟨middle, whole, taken⟩
    have still := key_run (Transition.run_snoc.mpr ⟨middle, onwards, taken⟩) known
    rcases step_moves taken with ⟨cache, path, now, rfl, rfl⟩ | ⟨mover, moving, moves, move⟩
    · rcases start_started middle cache path now with ⟨fresh, started⟩
      rw [started.tasks] at present
      rcases Arena.get_append_cases present with old | ⟨-, rfl⟩
      · exact ih task cell other old own known
      · rcases started.stage with ⟨stage, -⟩ | ⟨stage, -⟩ | ⟨stage, -⟩ | ⟨stage, -⟩ <;>
          rw [stage] at own <;> cases own
    · rcases move_own (run_inv whole) move with ⟨pc, tasks, -, taken⟩
      rcases task_after moves tasks present with ⟨rfl, rfl⟩ | ⟨-, unchanged⟩
      · rcases taken cell own with held | ⟨-, -, mapped⟩
        · exact ih moving cell other moves held known
        · exact (run_generations final).newest _ cell other mapped still
      · exact ih task cell other unchanged own known

end Onwards

section Origins

/-- The lookup of the run that allocated the cell, and left it mapped. -/
def AllocatedIn (start : State) (actions : List (Action T)) (key : CachedResourceKey)
    (cell : CellId) : Prop :=
  ∃ before id after middle next, actions = before ++ .lookup id :: after ∧
    Transition.run step start before = some middle ∧
    step middle (.lookup id : Action T) = some next ∧ middle.keyAt cell = none ∧
    (key, cell) ∈ next.map.entries

def FilledIn (start : State) (actions : List (Action T)) (cell : CellId)
    (resource : CachedResource) : Prop :=
  ∃ before clock after middle task, actions = before ++ .fill resource.id clock :: after ∧
    Transition.run step start before = some middle ∧ middle.tasks[resource.id]? = some task ∧
    task.pc.own = some cell ∧ task.pc.ended = false

theorem allocated_longer (allocated : AllocatedIn start actions key cell) (more : List (Action T)) :
    AllocatedIn start (actions ++ more) key cell := by
  rcases allocated with ⟨before, id, after, middle, next, rfl, facts⟩
  exact ⟨before, id, after ++ more, middle, next, by simp, facts⟩

theorem filled_longer (filled : FilledIn start actions cell resource) (more : List (Action T)) :
    FilledIn start (actions ++ more) cell resource := by
  rcases filled with ⟨before, clock, after, middle, task, rfl, facts⟩
  exact ⟨before, clock, after ++ more, middle, task, by simp, facts⟩

theorem run_allocated
    (reached : Transition.run step (initial capacity slots positive) actions = some state)
    (known : state.keyAt cell = some key) :
    AllocatedIn (initial capacity slots positive) actions key cell := by
  refine Transition.run_induction (fun actions state => state.keyAt cell = some key →
    AllocatedIn (initial capacity slots positive) actions key cell) ?_ ?_ reached known
  · intro known
    simp [initial, State.keyAt] at known
  · intro actions state action next earlier ih taken known
    rcases step_moves taken with ⟨cache, path, now, rfl, rfl⟩ | ⟨id, task, present, move⟩
    · rcases start_started state cache path now with ⟨fresh, started⟩
      rw [started.keyAt] at known
      exact allocated_longer (ih known) _
    · rcases move_keyAt (run_inv earlier) move known with old | ⟨fresh, -, mapped⟩
      · exact allocated_longer (ih old) _
      · obtain rfl := move_allocates move fresh known
        exact ⟨actions, id, [], state, next, rfl, earlier, taken, fresh, mapped⟩

theorem run_filled
    (reached : Transition.run step (initial capacity slots positive) actions = some state)
    (filled : state.cellAt cell = some (.filled resource)) :
    FilledIn (initial capacity slots positive) actions cell resource := by
  refine Transition.run_induction (fun actions state =>
    state.cellAt cell = some (.filled resource) →
      FilledIn (initial capacity slots positive) actions cell resource) ?_ ?_ reached filled
  · intro filled
    simp [initial, State.cellAt] at filled
  · intro actions state action next earlier ih taken filled
    rcases step_moves taken with ⟨cache, path, now, rfl, rfl⟩ | ⟨id, task, present, move⟩
    · rcases start_started state cache path now with ⟨fresh, started⟩
      rw [started.cellAt] at filled
      exact filled_longer (ih filled) _
    · rcases move_filled move filled with old | ⟨fetched, reservation, clock, rfl, stage, rfl⟩
      · exact filled_longer (ih old) _
      · exact ⟨actions, clock, [], state, task, rfl, earlier, present, by rw [stage]; rfl,
          by rw [stage]; rfl⟩

theorem answered_placed {answer : Answer}
    (reached : Transition.run step (initial capacity slots positive) actions = some state)
    (answered : .answer id answer ∈ actions) :
    ∃ task, state.tasks[id]? = some task ∧
      ((∃ cell, task.pc.own = some cell) ∨ task.pc.ended = true) := by
  have classified := run_classified reached
  have member := mem_answersTo.mpr answered
  cases present : state.tasks[id]? with
  | none =>
      rw [(classified.unborn id (List.getElem?_eq_none_iff.mp present)).1] at member
      cases member
  | some task =>
      rcases task_request reached present with ⟨request, asked, -⟩
      have told := (classified.gets id task request present asked).told
      refine ⟨task, rfl, ?_⟩
      cases stage : task.pc with
      | neverFetch | lookupLock | lookup =>
          rw [stage] at told
          have silent : answersTo actions id = [] := by
            cases planned : request.plan with
            | unrouted | panicked =>
                rw [planned] at told
                cases told
            | never | cached expiresAfter =>
                rw [planned] at told
                first
                | exact told
                | exact told.elim
                | exact told.1
          rw [silent] at member
          cases member
      | finished result => exact Or.inr rfl
      | panicked => exact Or.inr rfl
      | cancelled => exact Or.inr rfl
      | _ => exact Or.inl ⟨_, rfl⟩

end Origins

section Order

def HeldIn (start : State) (actions : List (Action T)) (cell : CellId)
    (resource : CachedResource) : Prop :=
  ∃ before middle, before <+: actions ∧ Transition.run step start before = some middle ∧
    middle.cellAt cell = some (.filled resource)

/-- The second get was answered only after the first had filled its cell. -/
def FetchedAfter (actions : List (Action T)) (first second : TaskId) : Prop :=
  ∃ before after, actions = before ++ after ∧ (∃ clock, .fill first clock ∈ before) ∧
    ∀ answer, .answer second answer ∉ before

theorem unfilled_longer (evicted : EvictedUnfilled start actions key cell)
    (more : List (Action T)) : EvictedUnfilled start (actions ++ more) key cell := by
  rcases evicted with ⟨before, action, after, middle, next, split, facts⟩
  exact ⟨before, action, after ++ more, middle, next, by simp [split], facts⟩

theorem concluded_filled (filled : state.cellAt cell = some (.filled resource)) :
    Concluded state cell := by
  refine ⟨known_of_cell filled, ?_⟩
  intro content found
  rw [filled, Option.some.injEq] at found
  rw [← found]
  rfl

theorem held_concluded {before : List (Action T)} {middle : State}
    (one : Transition.run step (initial capacity slots positive) before = some middle)
    (front : before <+: actions) (settled : Concluded middle cell)
    (held : HeldIn (initial capacity slots positive) actions cell resource) :
    FilledIn (initial capacity slots positive) before cell resource := by
  rcases held with ⟨other, found, otherFront, two, filled⟩
  rcases List.prefix_or_prefix_of_prefix front otherFront with shorter | shorter
  · rcases Transition.run_between one two shorter with ⟨rest, -, onwards⟩
    exact run_filled one (concluded_run (run_inv one) onwards settled resource filled)
  · rcases shorter with ⟨more, rfl⟩
    exact filled_longer (run_filled two filled) more

theorem held_unique {other : CachedResource}
    (one : HeldIn (initial capacity slots positive) actions cell resource)
    (two : HeldIn (initial capacity slots positive) actions cell other) : resource = other := by
  rcases one with ⟨before, middle, front, first, filled⟩
  rcases two with ⟨behind, late, back, second, again⟩
  rcases List.prefix_or_prefix_of_prefix front back with shorter | shorter
  · rcases Transition.run_between first second shorter with ⟨rest, -, onwards⟩
    have same := concluded_run (run_inv first) onwards (concluded_filled filled) other again
    rw [filled, Option.some.injEq, Cell.filled.injEq] at same
    exact same
  · rcases Transition.run_between second first shorter with ⟨rest, -, onwards⟩
    have same := concluded_run (run_inv second) onwards (concluded_filled again) resource filled
    rw [again, Option.some.injEq, Cell.filled.injEq] at same
    exact same.symm

/-- The get that filled a cell was not answered before the cell was allocated. -/
theorem unanswered_before {before : List (Action T)} {middle : State} {answer : Answer}
    (reached : Transition.run step (initial capacity slots positive) before = some middle)
    (front : before <+: actions) (unknown : middle.keyAt cell = none)
    (filled : FilledIn (initial capacity slots positive) actions cell resource) :
    .answer resource.id answer ∉ before := by
  intro answered
  rcases filled with ⟨other, clock, after, late, task, rfl, filling, present, own, going⟩
  rcases answered_placed reached answered with ⟨placed, there, place⟩
  have known := ((run_inv filling).tasks resource.id task present).own cell own
  rcases List.prefix_or_prefix_of_prefix front (List.prefix_append other _) with shorter | shorter
  · rcases Transition.run_between reached filling shorter with ⟨rest, -, onwards⟩
    rcases own_run (run_inv reached) there onwards with ⟨again, same, stays, keeps⟩
    rw [present, Option.some.injEq] at same
    subst same
    simp only [going, Bool.false_eq_true, imp_false, or_false] at stays keeps
    rcases place with ⟨held, owned⟩ | ended
    · have same := own.symm.trans (keeps held owned)
      rw [Option.some.injEq] at same
      subst same
      have earlier := ((run_inv reached).tasks resource.id placed there).own cell owned
      rw [unknown] at earlier
      cases earlier.1
    · exact stays ended
  · rcases Transition.run_between filling reached shorter with ⟨rest, -, onwards⟩
    have still := key_run onwards known.1
    rw [unknown] at still
    cases still

theorem held_filled (held : HeldIn (initial capacity slots positive) actions cell resource) :
    FilledIn (initial capacity slots positive) actions cell resource := by
  rcases held with ⟨before, middle, ⟨more, rfl⟩, reached, filled⟩
  exact filled_longer (run_filled reached filled) more

/-- What an older cell of a key held was fetched before what a newer one held, unless the
older one was evicted before it was filled. -/
theorem held_order {other : CellId} {newer : CachedResource}
    (reached : Transition.run step (initial capacity slots positive) actions = some state)
    (known : state.keyAt cell = some key) (same : state.keyAt other = some key)
    (older : cell < other) (one : HeldIn (initial capacity slots positive) actions cell resource)
    (two : HeldIn (initial capacity slots positive) actions other newer) :
    EvictedUnfilled (initial capacity slots positive) actions key cell ∨
      FetchedAfter actions resource.id newer.id := by
  rcases run_allocated reached same with
    ⟨front, asker, after, middle, next, rfl, first, taken, unknown, mapped⟩
  have second := Transition.run_snoc.mpr ⟨middle, first, taken⟩
  have split : front ++ [.lookup asker] ++ after = front ++ .lookup asker :: after := by simp
  have onwards := reached
  rw [← split, Transition.run_append, second, Option.bind_some] at onwards
  -- the older cell was there when the newer one was allocated, and out of the map
  have there : cell < next.slots.length :=
    Nat.lt_trans older (entry_known (run_inv second) mapped)
  have keyed : next.keyAt cell = some key := by
    have some : next.keyAt cell = some next.slots[cell].key := by
      rw [State.keyAt, List.getElem?_eq_getElem there, Option.map_some]
    have later := key_run onwards some
    rw [known, Option.some.injEq] at later
    rw [some, later]
  have gone : (key, cell) ∉ next.map.entries :=
    fun member => older.ne (LruCache.entry_unique member mapped)
  have found : next.cellAt cell = some next.slots[cell].cell := by
    rw [State.cellAt, List.getElem?_eq_getElem there, Option.map_some]
  cases pending : next.slots[cell].cell.pending with
  | true =>
      rcases (run_tracked second).1 cell key _ keyed found pending with member | evicted
      · exact absurd member gone
      · left
        rw [← split]
        exact unfilled_longer evicted after
  | false =>
      have settled : Concluded next cell := by
        refine ⟨known_of_cell found, ?_⟩
        intro content again
        rw [found, Option.some.injEq] at again
        exact again ▸ pending
      rcases held_concluded second (split ▸ List.prefix_append _ after) settled one with
        ⟨before, clock, behind, _, _, shape, -⟩
      have member : .fill resource.id clock ∈ front ++ [.lookup asker] := by
        rw [shape]
        simp
      refine Or.inr ⟨front, .lookup asker :: after, rfl, ⟨clock, by simpa using member⟩, ?_⟩
      intro answer
      exact unanswered_before first (List.prefix_append _ _) unknown (held_filled two)

/-- A step of the run in which the get answers with the resource of the cell. -/
def ServedFrom (start : State) (actions : List (Action T)) (id : TaskId) (cell : CellId)
    (resource : CachedResource) : Prop :=
  ∃ before after middle task, actions = before ++ .respond id none :: after ∧
    Transition.run step start before = some middle ∧ middle.tasks[id]? = some task ∧
    task.pc = .cloning cell resource

theorem served_longer (served : ServedFrom start actions id cell resource)
    (more : List (Action T)) : ServedFrom start (actions ++ more) id cell resource := by
  rcases served with ⟨before, after, middle, task, rfl, facts⟩
  exact ⟨before, after ++ more, middle, task, by simp, facts⟩

theorem served_known
    (reached : Transition.run step (initial capacity slots positive) actions = some state)
    (served : ServedFrom (initial capacity slots positive) actions id cell resource) :
    (state.keyAt cell).isSome := by
  rcases served with ⟨before, after, middle, task, rfl, earlier, present, stage⟩
  have own := ((run_inv earlier).tasks id task present).own cell (by rw [stage]; rfl)
  rcases Transition.run_between earlier reached (List.prefix_append before _) with
    ⟨rest, -, onwards⟩
  exact Option.isSome_iff_exists.mpr ⟨_, key_run onwards own.1⟩

theorem served_held {request : Request T}
    (reached : Transition.run step (initial capacity slots positive) actions = some state)
    (asked : (requests actions)[id]? = some request)
    (served : ServedFrom (initial capacity slots positive) actions id cell resource) :
    HeldIn (initial capacity slots positive) actions cell resource ∧
      state.keyAt cell = some request.key := by
  rcases served with ⟨before, after, middle, task, rfl, earlier, present, stage⟩
  have valid := (run_inv earlier).tasks id task present
  have filled := valid.stage
  have own := (valid.own cell (by rw [stage]; rfl)).1
  rw [stage] at filled
  rcases Transition.run_between earlier reached (List.prefix_append before _) with
    ⟨rest, -, onwards⟩
  rcases task_request earlier present with ⟨other, early, key, -⟩
  rw [requests, List.filterMap_append] at asked
  have same := (Arena.get_append_old _ early).symm.trans asked
  rw [Option.some.injEq] at same
  refine ⟨⟨before, middle, List.prefix_append before _, earlier, filled⟩, ?_⟩
  rw [← same, key]
  exact key_run onwards own

theorem served_newest {request : Request T} {other : CellId}
    (before : Transition.run step (initial capacity slots positive) earlier = some state)
    (reached : Transition.run step (initial capacity slots positive) (earlier ++ rest) = some later)
    (waiting : ∀ task, state.tasks[id]? = some task → task.pc = .lookupLock ∨ task.pc = .lookup)
    (asked : (requests (earlier ++ rest))[id]? = some request)
    (served : ServedFrom (initial capacity slots positive) (earlier ++ rest) id cell resource)
    (known : state.keyAt other = some request.key) : other ≤ cell := by
  have key := (served_held reached asked served).2
  have idle : ∀ task, state.tasks[id]? = some task → task.pc.own = none := by
    intro task present
    rcases waiting task present with stage | stage <;> rw [stage] <;> rfl
  rcases served with ⟨front, after, middle, task, split, first, present, stage⟩
  have own : task.pc.own = some cell := by rw [stage]; rfl
  have start : front <+: earlier ++ rest := split ▸ List.prefix_append front _
  rcases List.prefix_or_prefix_of_prefix start (List.prefix_append earlier rest) with
    shorter | shorter
  · -- it had its cell before, which it has not
    rcases Transition.run_between first before shorter with ⟨_, -, onwards⟩
    rcases own_run (run_inv first) present onwards with ⟨again, found, -, keeps⟩
    rcases keeps cell own with held | ended
    · rw [idle again found] at held
      cases held
    · rcases waiting again found with stage | stage <;> rw [stage] at ended <;> cases ended
  · rcases Transition.run_between before first shorter with ⟨_, -, onwards⟩
    rcases Transition.run_between first reached start with ⟨_, -, toEnd⟩
    have still := key_run toEnd ((run_inv first).tasks id task present |>.own cell own).1
    rw [key, Option.some.injEq] at still
    exact newest_run before idle onwards task cell other present own (still ▸ known)

/-- Let a get be served before another of the same key looks it up. The other is served the
same resource, or one whose fetch was answered only after the first one was cached, unless
the cell of the first was evicted while it was being filled. -/
theorem reads_advance {one two : TaskId} {oneCell twoCell : CellId}
    {oneResource twoResource : CachedResource} {oneRequest twoRequest : Request T}
    (before : Transition.run step (initial capacity slots positive) earlier = some state)
    (reached : Transition.run step (initial capacity slots positive) (earlier ++ rest) = some later)
    (first : ServedFrom (initial capacity slots positive) earlier one oneCell oneResource)
    (second : ServedFrom (initial capacity slots positive) (earlier ++ rest) two twoCell twoResource)
    (waiting : ∀ task, state.tasks[two]? = some task → task.pc = .lookupLock ∨ task.pc = .lookup)
    (oneAsked : (requests (earlier ++ rest))[one]? = some oneRequest)
    (twoAsked : (requests (earlier ++ rest))[two]? = some twoRequest)
    (same : oneRequest.key = twoRequest.key) :
    twoResource = oneResource ∨
      EvictedUnfilled (initial capacity slots positive) (earlier ++ rest) oneRequest.key oneCell ∨
      FetchedAfter (earlier ++ rest) oneResource.id twoResource.id := by
  have oneServed := served_longer first rest
  rcases served_held reached oneAsked oneServed with ⟨oneHeld, oneKey⟩
  rcases served_held reached twoAsked second with ⟨twoHeld, twoKey⟩
  have onwards := reached
  rw [Transition.run_append, before, Option.bind_some] at onwards
  have there : state.keyAt oneCell = some twoRequest.key := by
    rcases Option.isSome_iff_exists.mp (served_known before first) with ⟨key, known⟩
    have still := key_run onwards known
    rw [oneKey, same, Option.some.injEq] at still
    rw [known, still]
  have newest := served_newest before reached waiting twoAsked second there
  rcases Nat.lt_or_eq_of_le newest with older | equal
  · exact Or.inr (held_order reached oneKey (same ▸ twoKey) older oneHeld twoHeld)
  · subst equal
    exact Or.inl (held_unique twoHeld oneHeld)

end Order

def firstRead : List (Action LiteralTree) :=
  fetchActions shortCache "/a" epoch 0 (plainBody [1]) ++ fillActions 0 ⟨epoch, ⟨0⟩⟩ ++
    respondActions 0

def secondRead : List (Action LiteralTree) :=
  fetchActions shortCache "/a" fiveSeconds 1 (plainBody [2]) ++
    fillActions 1 ⟨fiveSeconds, ⟨0⟩⟩ ++ respondActions 1

def readResource (id : Uuid) (expiresAt clock : Instant) (file : File) : CachedResource :=
  newResource id (some expiresAt) "files" ⟨some "text/plain"⟩ file ⟨1⟩ ⟨clock, ⟨0⟩⟩

theorem reads_advance_refreshed :
    EvictedUnfilled (initial 10 2 (by decide)) (firstRead ++ secondRead) ⟨"files", "/a"⟩ 0 ∨
      FetchedAfter (firstRead ++ secondRead) 0 1 := by
  let one := readResource 0 ⟨2 * 10^9, by decide⟩ epoch ⟨[1], by decide⟩
  let two := readResource 1 ⟨7 * 10^9, by decide⟩ fiveSeconds ⟨[2], by decide⟩
  have first : (Transition.run step (initial 10 2 (by decide)) firstRead).map
      (fun state => state.tasks.length) = some 1 := rfl
  have ends : (Transition.run step (initial 10 2 (by decide)) (firstRead ++ secondRead)).map
      (fun state => state.tasks.length) = some 2 := rfl
  rcases Option.map_eq_some_iff.mp first with ⟨state, before, count⟩
  rcases Option.map_eq_some_iff.mp ends with ⟨final, reached, -⟩
  have waiting : ∀ task, state.tasks[1]? = some task → task.pc = .lookupLock ∨ task.pc = .lookup := by
    intro task present
    have short := Arena.get_lt present
    omega
  have oneServed : ServedFrom (initial 10 2 (by decide)) firstRead 0 0 one :=
    ⟨fetchActions shortCache "/a" epoch 0 (plainBody [1]) ++ fillActions 0 ⟨epoch, ⟨0⟩⟩ ++
      [.count 0], [], _, _, rfl, rfl, rfl, rfl⟩
  have twoServed : ServedFrom (initial 10 2 (by decide)) (firstRead ++ secondRead) 1 1 two :=
    ⟨firstRead ++ fetchActions shortCache "/a" fiveSeconds 1 (plainBody [2]) ++
      fillActions 1 ⟨fiveSeconds, ⟨0⟩⟩ ++ [.count 1], [], _, _, rfl, rfl, rfl, rfl⟩
  rcases reads_advance before reached oneServed twoServed waiting rfl rfl rfl with same | advanced
  · exact absurd (congrArg CachedResource.id same) (by decide)
  · exact advanced

end Server3.Machine
