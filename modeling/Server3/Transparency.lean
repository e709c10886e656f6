import Server3.Classification

/-! The cache against a proxy that keeps nothing: where the upstream answers all gets of
a key alike, a get ends as if it had asked the upstream itself. -/

namespace Server3.Machine

open Clock Routes Upstream Resource Recency

/-- What the client of a get is given: headers, bytes, and the error that breaks the
bytes off, if any. -/
structure Delivery where
  headers : UpstreamResourceHeaders
  content : Bytes
  error : Option String
  deriving DecidableEq

def passedDelivery (resource : UpstreamResource) : Delivery :=
  ⟨resource.headers, resource.body.content, resource.body.error⟩

def delivery (response : CachedResourceResponse) : Delivery :=
  match response.body with
  | .upstream body => ⟨response.headers, body.content, body.error⟩
  | .file file => ⟨response.headers, file.content, none⟩

def outcomeSeen (result : Except UpstreamError (Option CachedResourceResponse)) :
    Except UpstreamError (Option Delivery) :=
  result.map fun found => found.map delivery

/-- The proxy without a cache. Where the rule lets the cache keep a body, the body is
in a file before it is passed on. -/
def direct (rule : CacheRouteRule) (answer : Answer) : Except UpstreamError (Option Delivery) :=
  match rule with
  | .disabled => .ok none
  | .enabled ⟨.cacheNever⟩ => answer.map fun found => found.map passedDelivery
  | .enabled ⟨_⟩ =>
      match answer with
      | .error failure => .error failure
      | .ok none => .ok none
      | .ok (some resource) =>
          (Upstream.store resource.body none).map fun file =>
            some ⟨resource.headers, file.content, none⟩

/-- Why a get ends with an error: its upstream, its body or its disk. -/
inductive Failed {T : Type → Type} (actions : List (Action T)) (id : TaskId) :
    UpstreamError → Prop where
  | answered (failure : UpstreamError) (member : .answer id (.error failure) ∈ actions) :
      Failed actions id failure
  | stored (resource : UpstreamResource) (diskError : Option String) (failure : UpstreamError)
      (member : .answer id (.ok (some resource)) ∈ actions)
      (attempted : .store id diskError ∈ actions)
      (refused : Upstream.store resource.body diskError = .error failure) :
      Failed actions id failure
  | cloned (message : String) (member : .respond id (some message) ∈ actions) :
      Failed actions id (.io message)

section Failures

variable {T : Type → Type} {capacity : UInt64} {state next : State} {id : TaskId} {task : Task}
  {action : Action T} {actions later : List (Action T)} {failure : UpstreamError}

theorem failed_later (longer : actions ⊆ later) (failed : Failed actions id failure) :
    Failed later id failure := by
  cases failed with
  | answered failure member => exact .answered failure (longer member)
  | stored resource diskError failure member attempted refused =>
      exact .stored resource diskError failure (longer member) (longer attempted) refused
  | cloned message member => exact .cloned message (longer member)

theorem move_failed (provenance : Provenance actions state)
    (present : state.tasks[id]? = some task) (move : Move state id task action next) :
    ∃ pc, next.tasks = state.tasks.set id { task with pc := pc } ∧
      ∀ failure, pc = .finished (.error failure) → Failed (actions ++ [action]) id failure := by
  have last : action ∈ actions ++ [action] := by simp
  have longer : actions ⊆ actions ++ [action] := List.subset_append_left _ _
  have earlier := provenance.tasks id task present
  cases move with
  | answerNever answer stage =>
      refine ⟨_, rfl, ?_⟩
      intro failure ended
      cases answer with
      | ok found => cases ended
      | error other =>
          cases ended
          exact .answered _ last
  | answerError cell failure stage =>
      refine ⟨_, State.abandon_tasks _ _ _, ?_⟩
      intro other ended
      cases ended
      exact .answered _ last
  | storeError cell resource diskError failure stage stored =>
      refine ⟨_, State.abandon_tasks _ _ _, ?_⟩
      intro other ended
      cases ended
      rw [stage] at earlier
      exact .stored resource diskError _ (longer earlier) last stored
  | respond cell resource cloneError result stage shape =>
      refine ⟨_, State.release_tasks _ _, ?_⟩
      intro failure ended
      subst shape
      cases cloneError with
      | none => cases ended
      | some message =>
          cases ended
          exact .cloned message last
  | reserveFailed cell fetched locked stage refused =>
      refine ⟨_, rfl, ?_⟩
      intro failure ended
      cases locked <;> cases ended
  | lookup => exact ⟨_, State.releaseOption_tasks _, fun _ ended => by cases ended⟩
  | answerNone | cancelInit =>
      exact ⟨_, State.abandon_tasks _ _ _, fun _ ended => by cases ended⟩
  | evict | cancelJoined => exact ⟨_, State.release_tasks _ _, fun _ ended => by cases ended⟩
  | _ => exact ⟨_, rfl, fun _ ended => by cases ended⟩

theorem run_failed [PathTree T] {slots : Nat} {positive : 0 < slots}
    (reached : Transition.run step (initial capacity slots positive) actions = some state) :
    ∀ (id : TaskId) task failure, state.tasks[id]? = some task →
      task.pc = .finished (.error failure) → Failed actions id failure := by
  refine Transition.run_induction (fun actions state => ∀ (id : TaskId) task failure,
    state.tasks[id]? = some task → task.pc = .finished (.error failure) →
      Failed actions id failure) ?_ ?_ reached
  · intro id task failure present
    cases present
  · intro actions state action next earlier before taken id task failure after ended
    have longer : actions ⊆ actions ++ [action] := List.subset_append_left _ _
    rcases step_moves taken with ⟨cache, path, now, rfl, rfl⟩ | ⟨mover, moving, present, move⟩
    · rcases start_started state cache path now with ⟨fresh, started⟩
      rw [started.tasks] at after
      rcases Arena.get_append_cases after with old | ⟨-, rfl⟩
      · exact failed_later longer (before id task failure old ended)
      · rcases started.stage with ⟨stage, -⟩ | ⟨stage, -⟩ | ⟨stage, -⟩ | ⟨stage, -⟩ <;>
          rw [stage] at ended <;> cases ended
    · rcases move_failed (run_provenance earlier) present move with ⟨pc, tasks, failed⟩
      rcases task_after present tasks after with ⟨rfl, rfl⟩ | ⟨-, unchanged⟩
      · exact failed failure ended
      · exact failed_later longer (before id task failure unchanged ended)

end Failures

section Direct

variable {T : Type → Type} [PathTree T] {capacity : UInt64} {slots : Nat} {positive : 0 < slots}
  {state : State} {id : TaskId} {task : Task} {actions : List (Action T)} {request : Request T}
  {answer : Answer} {key : CachedResourceKey} {maxAge : CacheMaxAgeRule}
  {result : Except UpstreamError (Option CachedResourceResponse)}

/-- The get is answered so, and if it may use the cache so are all gets of its key that may. -/
def AnsweredAlike (actions : List (Action T)) (id : TaskId) (key : CachedResourceKey)
    (answer : Answer) : Prop :=
  ∀ source given, source = id ∨ (CachingGet actions id key ∧ CachingGet actions source key) →
    .answer source given ∈ actions → given = answer

def DiskServes (actions : List (Action T)) (id : TaskId) : Prop :=
  ∀ message, .store id (some message) ∉ actions ∧ .respond id (some message) ∉ actions

omit [PathTree T] in
theorem direct_caching (caching : maxAge ≠ .cacheNever) (answer : Answer) :
    direct (.enabled ⟨maxAge⟩) answer = direct (.enabled ⟨.cacheForever⟩) answer := by
  cases maxAge with
  | cacheNever => exact absurd rfl caching
  | cacheForever => rfl
  | cacheFor duration => rfl

omit [PathTree T] in
theorem store_whole {body : BodyStream} {file : File} (whole : body.error = none)
    (content : body.content = file.content) : Upstream.store body none = .ok file := by
  have bound := file.bound
  rw [← content] at bound
  obtain ⟨bytes, bounded⟩ := file
  subst content
  simp only [Upstream.store, whole, dif_pos bound]

theorem served_direct {response : CachedResourceResponse} {file : File}
    (body : response.body = .file file)
    (caches : CachingGet actions id key) (origin : Origin actions key response.headers file.content)
    (alike : AnsweredAlike actions id key answer) :
    direct (.enabled ⟨.cacheForever⟩) answer = .ok (some (delivery response)) := by
  rcases origin with ⟨source, caching, resource, answered, whole, headers, content⟩
  rw [← alike source _ (Or.inr ⟨caches, caching⟩) answered]
  simp only [direct, store_whole whole content, delivery, body, headers]
  rfl

theorem failed_direct {failure : UpstreamError} (failed : Failed actions id failure)
    (alike : AnsweredAlike actions id key answer) (serves : DiskServes actions id) :
    direct (.enabled ⟨.cacheForever⟩) answer = .error failure := by
  cases failed with
  | answered failure member =>
      rw [← alike id _ (Or.inl rfl) member]
      rfl
  | stored resource diskError failure member attempted refused =>
      cases diskError with
      | some message => exact absurd attempted (serves message).1
      | none =>
          rw [← alike id _ (Or.inl rfl) member]
          simp only [direct, refused]
          rfl
  | cloned message member => exact absurd member (serves message).2

theorem plan_caches {answers : List Answer} {filled : Bool} (ruled : request.rule = .enabled ⟨maxAge⟩)
    (caching : maxAge ≠ .cacheNever)
    (told : Told request.plan answers filled id (.finished result)) :
    ∃ expiresAfter, request.plan = .cached expiresAfter := by
  cases planned : request.plan with
  | cached expiresAfter => exact ⟨expiresAfter, rfl⟩
  | panicked =>
      rw [planned] at told
      cases told
  | unrouted | never =>
      rw [Request.plan, ruled] at planned
      cases maxAge <;> simp [plan] at planned caching
      split at planned <;> cases planned

/-- A get that ends is answered as by a proxy without a cache, if it and what it may be
served from are answered alike and the disk serves it. -/
theorem finished_direct
    (reached : Transition.run step (initial capacity slots positive) actions = some state)
    (present : state.tasks[id]? = some task) (finished : task.pc = .finished result)
    (asked : (requests actions)[id]? = some request)
    (alike : AnsweredAlike actions id request.key answer) (serves : DiskServes actions id) :
    outcomeSeen result = direct request.rule answer := by
  have told := ((run_classified reached).gets id task request present asked).told
  have failed := run_failed reached id task
  rcases task_request reached present with ⟨own, askedOwn, key, -⟩
  rw [asked, Option.some.injEq] at askedOwn
  subst own
  rw [finished] at told
  have given {other : Answer} (among : other ∈ answersTo actions id) : other = answer :=
    alike id other (Or.inl rfl) (mem_answersTo.mp among)
  cases ruled : request.rule with
  | disabled =>
      have planned : request.plan = .unrouted := by rw [Request.plan, ruled]; rfl
      rw [planned] at told
      cases told
      rfl
  | enabled enabled =>
      obtain ⟨maxAge⟩ := enabled
      by_cases never : maxAge = .cacheNever
      · subst never
        have planned : request.plan = .never := by rw [Request.plan, ruled]; rfl
        rw [planned] at told
        rcases told with ⟨other, answers, rfl⟩
        have same : other = answer := given (by rw [answers]; exact List.mem_singleton_self other)
        rw [same]
        cases answer with
        | error failure => rfl
        | ok found => cases found <;> rfl
      · rw [direct_caching never]
        rcases plan_caches ruled never told with ⟨expiresAfter, planned⟩
        rw [planned] at told
        cases result with
        | error failure =>
            rw [failed_direct (failed failure present finished) alike serves]
            rfl
        | ok found =>
            cases found with
            | none =>
                have same : answer = .ok none := (given told).symm
                rw [same]
                rfl
            | some response =>
                have cached : response.outcome ≠ .never := by
                  intro passed
                  have outcome := told.2
                  simp only [responseOutcome, passed] at outcome
                  split at outcome <;> cases outcome
                have origins := run_origins reached
                have caches := origins.tasks id task present (by rw [finished]; simpa [Pc.caches])
                rcases origins.served id task response present finished cached with
                  ⟨file, body, origin⟩
                rw [served_direct body (key ▸ caches) (key ▸ origin) alike]
                rfl

end Direct

/-- The first get goes away while the second waits for it, and the second fetches. -/
def takenOver : List (Action LiteralTree) :=
  fetchActions plainCache "/a" epoch 0 (plainBody [1, 2]) ++
    [.start plainCache "/a" epoch, .acquire 1, .lookup 1, .cancel 0, .join 1,
      .answer 1 (plainBody [1, 2])] ++ fillActions 1 ⟨epoch, ⟨0⟩⟩ ++ respondActions 1

end Server3.Machine
