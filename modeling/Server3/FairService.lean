import Server3.FairProgress
import Server3.ServiceProgress

/-! Every request is answered, in every run of the server that goes on for ever under a fair
schedule, unless its client goes away or its get panics. -/

namespace Server3.Service

open Clock Server3.Configuration Routes Upstream Resource App
open Machine (TaskId Action Settled FairToGets)
open Transition (Course)
open Filter (atTop eventually_atTop eventually_all_finset)

variable {U : Type} {T : Type → Type}

def Event.advances : Event T → Option TaskId
  | .advance action => action.advances
  | _ => none

def Event.settles : Event T → Option Nat
  | .reply index | .disconnect index => some index
  | _ => none

def Due (state : State) (index : Nat) : Prop :=
  ∃ exchange id task, state.waits index = some (exchange, id, task) ∧ task.pc.ended = true

variable [PathTree T] {app : AppState U T} {showTimestamp : Timestamp → String}
  {metadata : MetadataConfig} {state next : State} {event : Event T} {index : Nat}
  {exchange : Exchange}

def State.asks (app : AppState U T) (state : State) : Event T → Option (Action T)
  | .arrive method headers path now =>
      if routed method then
        match app.select headers with
        | .ok cache => some (.start cache.toCache path now)
        | .error _ => none
      else none
  | .advance action => some action
  | .reply _ => none
  | .disconnect index =>
      match state.waits index with
      | some (_, id, task) =>
          match task.pc with
          | .panicked => none
          | _ => some (.cancel id)
      | none => none

theorem move_asks {inner : Option (App.Event T)}
    (move : Moves app showTimestamp metadata state event inner next) :
    (state.asks app event = none ∧ next.cache = state.cache) ∨
      ∃ action, state.asks app event = some action ∧
        Machine.step state.cache action = some next.cache := by
  cases move with
  | enter method headers path now cache allowed selected =>
      right
      refine ⟨.start cache.toCache path now, ?_, rfl⟩
      simp [State.asks, allowed, selected]
  | refuse method headers path now response why =>
      left
      rcases why with ⟨refused, -⟩ | ⟨allowed, failure, selected, -⟩
      · exact ⟨by simp [State.asks, refused], rfl⟩
      · exact ⟨by simp [State.asks, selected], rfl⟩
  | advance action own cache advances moved => exact Or.inr ⟨action, rfl, moved⟩
  | reply => exact Or.inl ⟨rfl, rfl⟩
  | lose index exchange id task waits panicked =>
      exact Or.inl ⟨by simp [State.asks, waits, panicked], rfl⟩
  | cancel index exchange id task cache waits moved =>
      right
      refine ⟨.cancel id, ?_, moved⟩
      cases stage : task.pc with
      | panicked =>
          rcases waits_some waits with ⟨-, -, -, present⟩
          simp [Machine.step, present, Machine.State.cancel, stage] at moved
      | _ => simp [State.asks, waits, stage]

theorem step_silent (taken : step app showTimestamp metadata state event = some next)
    (silent : state.asks app event = none) : next.cache = state.cache := by
  rcases step_moves taken with ⟨inner, move⟩
  rcases move_asks move with ⟨-, same⟩ | ⟨action, asked, -⟩
  · exact same
  · rw [silent] at asked
    cases asked

theorem step_shown {action : Action T}
    (taken : step app showTimestamp metadata state event = some next)
    (asked : state.asks app event = some action) :
    Machine.step state.cache action = some next.cache := by
  rcases step_moves taken with ⟨inner, move⟩
  rcases move_asks move with ⟨silent, -⟩ | ⟨other, asks, moved⟩
  · rw [asked] at silent
    cases silent
  · rw [asked, Option.some.injEq] at asks
    exact asks ▸ moved

theorem asks_request {inner : Option (App.Event T)} {action : Action T}
    (move : Moves app showTimestamp metadata state event inner next)
    (quiet : event.arrives = false) (asked : state.asks app event = some action) :
    action.request = none := by
  cases move with
  | enter | refuse => cases quiet
  | advance other own =>
      cases asked
      exact own
  | reply => cases asked
  | lose index exchange id task waits panicked =>
      simp [State.asks, waits, panicked] at asked
  | cancel index exchange id task cache waits moved =>
      simp only [State.asks, waits] at asked
      split at asked
      · cases asked
      · cases asked
        rfl

theorem step_exchange (taken : step app showTimestamp metadata state event = some next)
    (present : state.exchanges[index]? = some exchange) :
    (next.exchanges[index]? = some exchange ∧ event.settles ≠ some index) ∨
      (exchange.place = .waiting ∧ ∃ place,
        next.exchanges[index]? = some { exchange with place := place } ∧
        ((∃ response, place = .answered response) ∨
          (place = .gone ∧ event = .disconnect index))) := by
  have settled (other : Nat) (found : Exchange) (place : Place)
      (there : state.exchanges[other]? = some found) (waits : found.place = .waiting)
      (how : (∃ response, place = .answered response) ∨
        (place = .gone ∧ event = .disconnect other)) :
      ((state.settle other found place).exchanges[index]? = some exchange ∧
          some other ≠ some index) ∨
        (exchange.place = .waiting ∧ ∃ after,
          (state.settle other found place).exchanges[index]? =
            some { exchange with place := after } ∧
          ((∃ response, after = .answered response) ∨
            (after = .gone ∧ event = .disconnect index))) := by
    by_cases same : other = index
    · subst same
      rw [there, Option.some.injEq] at present
      subst present
      exact Or.inr ⟨waits, place, Arena.get_set_self _ there, how⟩
    · left
      refine ⟨(Arena.get_set_other _ _ same).trans present, ?_⟩
      rwa [ne_eq, Option.some.injEq]
  rcases step_moves taken with ⟨inner, move⟩
  cases move with
  | enter => exact Or.inl ⟨Arena.get_append_old _ present, nofun⟩
  | refuse => exact Or.inl ⟨Arena.get_append_old _ present, nofun⟩
  | advance => exact Or.inl ⟨present, nofun⟩
  | reply other found id task result response waits ended made =>
      rcases waits_some waits with ⟨there, waiting, -⟩
      exact settled other found (.answered response) there waiting (Or.inl ⟨response, rfl⟩)
  | lose other found id task waits panicked =>
      rcases waits_some waits with ⟨there, waiting, -⟩
      exact settled other found .gone there waiting (Or.inr ⟨rfl, rfl⟩)
  | cancel other found id task cache waits moved =>
      rcases waits_some waits with ⟨there, waiting, -⟩
      exact settled other found .gone there waiting (Or.inr ⟨rfl, rfl⟩)

section Runs

variable {capacity : UInt64} {slots : Nat} {positive : 0 < slots}
  {course : Course (step app showTimestamp metadata : State → Event T → Option State)
    (initial capacity slots positive)}

/-- The gets are scheduled fairly, upstreams and disk answer at last, and a request is not
passed over for ever once its get has ended. -/
structure FairToRequests (course : Course (step app showTimestamp metadata : State → Event T →
    Option State) (initial capacity slots positive)) : Prop where
  gets : course.Fair Event.advances fun state id => Machine.Ready T state.cache id
  replies : course.Fair Event.settles Due

def caches (course : Course (step app showTimestamp metadata : State → Event T → Option State)
    (initial capacity slots positive)) :
    Course (Machine.step : Machine.State → Action T → Option Machine.State)
      (Machine.initial capacity slots positive) :=
  course.viewed State.cache (State.asks app) (fun _ _ _ => step_silent)
    (fun _ _ _ _ => step_shown)

theorem caches_fair (fair : FairToRequests course) : FairToGets (caches course) := by
  intro id again time
  rcases fair.gets id again time with ⟨later, event, after, moved, own⟩
  cases event with
  | advance action =>
      refine ⟨later, action, after, ?_, own⟩
      simp only [caches, Course.viewed, moved, Option.bind_some, State.asks]
  | _ => cases own

theorem course_kept (time : Nat) : Kept capacity slots (course.state time) := by
  rcases course.reachable time with ⟨events, reached⟩
  exact run_kept reached

theorem settled_stays {since : Nat}
    (present : (course.state since).exchanges[index]? = some exchange)
    (done : exchange.place ≠ .waiting) :
    ∀ time, since ≤ time → (course.state time).exchanges[index]? = some exchange := by
  apply course.onwards (fun state => state.exchanges[index]? = some exchange) present
  intro time event _ moved found
  rcases step_exchange (course.advances time event moved) found with ⟨kept, -⟩ | ⟨waits, -⟩
  · exact kept
  · exact absurd waits done

theorem due_at_last (fair : FairToRequests course) {since : Nat} (waits : exchange.place = .waiting)
    (stays : ∀ time, since ≤ time → (course.state time).exchanges[index]? = some exchange) :
    ∃ moment, ∀ time, moment ≤ time → Due (course.state time) index := by
  rcases (course_kept since).attended.waiting index exchange (stays since le_rfl) waits with
    ⟨id, task, own, there, -⟩
  have present : ((caches course).state since).tasks[id]? = some task := there
  rcases Machine.get_ends (caches_fair fair) present with ⟨moment, pc, -, ended, found⟩
  refine ⟨max since moment, ?_⟩
  intro time after
  have known : (course.state time).cache.tasks[id]? = some { task with pc := pc } :=
    found time (le_of_max_le_right after)
  refine ⟨exchange, id, { task with pc := pc }, ?_, ended⟩
  simp [State.waits, stays time (le_of_max_le_left after), waits, own, known]

theorem request_ends (fair : FairToRequests course) {since : Nat}
    (present : (course.state since).exchanges[index]? = some exchange)
    (waits : exchange.place = .waiting) :
    ∃ moment place, since ≤ moment ∧
      (∀ time, moment ≤ time →
        (course.state time).exchanges[index]? = some { exchange with place := place }) ∧
      ((∃ response, place = .answered response) ∨
        (place = .gone ∧ ∃ time, since ≤ time ∧ course.move time = some (.disconnect index))) := by
  by_contra never
  have stays : ∀ time, since ≤ time → (course.state time).exchanges[index]? = some exchange := by
    apply course.onwards (fun state => state.exchanges[index]? = some exchange) present
    intro time event after moved found
    rcases step_exchange (course.advances time event moved) found with
      ⟨kept, -⟩ | ⟨-, place, placed, how⟩
    · exact kept
    · refine absurd ⟨time + 1, place, Nat.le_succ_of_le after, ?_, ?_⟩ never
      · apply settled_stays placed
        rcases how with ⟨response, answered⟩ | ⟨gone, -⟩
        · rw [answered]
          nofun
        · rw [gone]
          nofun
      · rcases how with answered | ⟨gone, lost⟩
        · exact Or.inl answered
        · exact Or.inr ⟨gone, time, after, lost ▸ moved⟩
  rcases due_at_last fair waits stays with ⟨moment, due⟩
  have again (time : Nat) : ∃ later, time ≤ later ∧ Due (course.state later) index :=
    ⟨max time moment, le_max_left time moment, due _ (le_max_right time moment)⟩
  rcases fair.replies index again since with ⟨time, event, after, moved, own⟩
  rcases step_exchange (course.advances time event moved) (stays time after) with
    ⟨-, passed⟩ | ⟨-, place, placed, how⟩
  · exact passed own
  · have next := stays (time + 1) (Nat.le_succ_of_le after)
    rw [placed, Option.some.injEq] at next
    have still : place = .waiting := (congrArg Exchange.place next).trans waits
    rcases how with ⟨response, answered⟩ | ⟨gone, -⟩
    · rw [still] at answered
      cases answered
    · rw [still] at gone
      cases gone

theorem exchanges_kept {since : Nat} (silent : ∀ time event, since ≤ time →
    course.move time = some event → event.arrives = false) :
    ∀ time, since ≤ time →
      (course.state time).exchanges.length = (course.state since).exchanges.length := by
  apply course.onwards
    (fun state => state.exchanges.length = (course.state since).exchanges.length) rfl
  intro time event after moved before
  have quiet := silent time event after moved
  rcases step_moves (course.advances time event moved) with ⟨inner, move⟩
  generalize course.state (time + 1) = next at move
  cases move with
  | enter | refuse => cases quiet
  | advance => exact before
  | reply | lose | cancel => exact (List.length_set ..).trans before

theorem none_waits_at_last (fair : FairToRequests course) {since : Nat}
    (silent : ∀ time event, since ≤ time → course.move time = some event →
      event.arrives = false) :
    ∃ moment, ∀ time, moment ≤ time → (course.state time).waitingCount = 0 := by
  have ends (index : Nat)
      (known : index ∈ Finset.range (course.state since).exchanges.length) :
      ∀ᶠ time in atTop, ∀ exchange ∈ (course.state time).exchanges[index]?,
        exchange.place ≠ .waiting := by
    have there : ∃ first, (course.state since).exchanges[index]? = some first :=
      ⟨_, List.getElem?_eq_getElem (Finset.mem_range.mp known)⟩
    rcases there with ⟨first, present⟩
    have settled : ∃ moment last, last.place ≠ .waiting ∧ ∀ time, moment ≤ time →
        (course.state time).exchanges[index]? = some last := by
      by_cases waits : first.place = .waiting
      · rcases request_ends fair present waits with ⟨moment, place, -, there, how⟩
        refine ⟨moment, _, ?_, there⟩
        rcases how with ⟨response, answered⟩ | ⟨gone, -⟩
        · simp [answered]
        · simp [gone]
      · exact ⟨since, first, waits, settled_stays present waits⟩
    rcases settled with ⟨moment, last, done, there⟩
    apply eventually_atTop.mpr
    refine ⟨moment, ?_⟩
    intro time after exchange found
    rw [there time after, Option.mem_some_iff] at found
    rw [← found]
    exact done
  rcases eventually_atTop.mp ((eventually_all_finset _).mpr ends) with ⟨moment, ended⟩
  refine ⟨max since moment, ?_⟩
  intro time after
  apply List.countP_eq_zero.mpr
  intro exchange member
  rcases List.getElem?_of_mem member with ⟨index, present⟩
  have known : index ∈ Finset.range (course.state since).exchanges.length := by
    rw [Finset.mem_range, ← exchanges_kept silent time (le_of_max_le_left after)]
    exact Arena.get_lt present
  simpa using ended time (le_of_max_le_right after) index known exchange present

theorem fair_idling {events : List (Event T)} {final : State}
    (reached : Transition.run (step app showTimestamp metadata) (initial capacity slots positive)
      events = some final)
    (quiet : final.cache.Quiet) (done : final.waitingCount = 0) :
    FairToRequests (Transition.idling events reached) := by
  constructor
  · intro id again
    rcases again events.length with ⟨time, after, ready⟩
    rw [Transition.idling_final reached after] at ready
    exact absurd ready (Machine.quiet_unready quiet)
  · intro index again
    rcases again events.length with ⟨time, after, exchange, id, task, waits, -⟩
    rw [Transition.idling_final reached after] at waits
    rcases waits_some waits with ⟨present, waiting, -⟩
    have none := List.countP_eq_zero.mp done exchange (List.mem_of_getElem? present)
    exact absurd (by simpa using waiting) none

/-- In every fair run of the server each request that waits is answered for good, unless
its client goes away or its get panics, however many requests keep coming; and once no
more of them come, all are done with and the caches are settled. -/
theorem fair_requests_end (course : Course (step app showTimestamp metadata : State → Event T →
    Option State) (initial capacity slots positive)) (fair : FairToRequests course) :
    (∀ since (index : Nat) exchange, (course.state since).exchanges[index]? = some exchange →
      exchange.place = .waiting → ∃ moment place, since ≤ moment ∧
        (∀ time, moment ≤ time →
          (course.state time).exchanges[index]? = some { exchange with place := place }) ∧
        ((∃ response, place = .answered response) ∨
          (place = .gone ∧ ∃ time, since ≤ time ∧
            course.move time = some (.disconnect index)))) ∧
    ∀ since, (∀ time event, since ≤ time → course.move time = some event →
        event.arrives = false) →
      ∃ moment, ∀ time, moment ≤ time → Settled capacity (course.state time).cache ∧
        (course.state time).waitingCount = 0 := by
  constructor
  · intro since index exchange present waits
    exact request_ends fair present waits
  · intro since silent
    have asked (time : Nat) (action : Action T) (after : since ≤ time)
        (shown : (caches course).move time = some action) : action.request = none := by
      rcases Option.bind_eq_some_iff.mp shown with ⟨event, moved, asks⟩
      rcases step_moves (course.advances time event moved) with ⟨inner, move⟩
      exact asks_request move (silent time event after moved) asks
    rcases Machine.settled_at_last (caches_fair fair) asked with ⟨rest, settled⟩
    rcases none_waits_at_last fair silent with ⟨moment, done⟩
    refine ⟨max rest moment, ?_⟩
    intro time after
    exact ⟨settled time (le_of_max_le_left after), done time (le_of_max_le_right after)⟩

end Runs

/-- Two clients ask for a page; one is answered, and one goes away while it waits. -/
def leavingEvents : List (Event LiteralTree) :=
  [.arrive "GET" [] "/a" epoch, .arrive "HEAD" [] "/a" epoch, .advance (.acquire 0),
    .advance (.lookup 0), .advance (.join 0), .advance (.answer 0 (plainBody [1, 2, 3])),
    .disconnect 1, .advance (.store 0 none), .advance (.reserve 0),
    .advance (.fill 0 ⟨epoch, ⟨0⟩⟩), .advance (.count 0), .advance (.respond 0 none), .reply 0]

theorem fair_requests_end_leaving :
    ∃ (app : AppState UpstreamConfig LiteralTree),
      mainState some (twoBuckets "files") = some app ∧
      ∃ course : Course (step app (fun _ => "") ⟨true, true, none⟩ :
          State → Event LiteralTree → Option State) (initial 10 2 (by decide)),
        (course.state 2).waitingCount = 2 ∧
        ∃ moment, ∀ time, moment ≤ time → Settled 10 (course.state time).cache ∧
          (course.state time).waitingCount = 0 := by
  have run : ∃ app : AppState UpstreamConfig LiteralTree,
      mainState some (twoBuckets "files") = some app ∧
      ∃ final, Transition.run (step app (fun _ => "") ⟨true, true, none⟩)
          (initial 10 2 (by decide)) leavingEvents = some final ∧
        (final.cache.tasks.all fun task => task.pc.ended) = true ∧
        final.waitingCount = 0 ∧
        ((Transition.run (step app (fun _ => "") ⟨true, true, none⟩)
          (initial 10 2 (by decide)) (leavingEvents.take 2)).getD final).waitingCount = 2 :=
    ⟨_, rfl, _, rfl, rfl, rfl, rfl⟩
  rcases run with ⟨app, accepted, final, reached, ended, done, early⟩
  have quiet : final.cache.Quiet := List.all_eq_true.mp ended
  refine ⟨app, accepted, Transition.idling leavingEvents reached, early, ?_⟩
  apply (fair_requests_end _ (fair_idling reached quiet done)).2 leavingEvents.length
  intro time event after moved
  have none := (List.getElem?_eq_none_iff.mpr after).symm.trans moved
  cases none

end Server3.Service
