import Server3.Service

/-! The server against one that keeps nothing: what its clients are sent. -/

namespace Server3.Service

open Clock Server3.Configuration Routes Upstream Resource App
open Machine (TaskId Delivery outcomeSeen passedDelivery delivery direct requests)

/-- What `Cache::get` would return for it without a cache. -/
def bare (found : Delivery) : CachedResourceResponse :=
  ⟨found.headers, .upstream ⟨[found.content], found.error⟩, .never, none⟩

def bareResult (result : Except UpstreamError (Option Delivery)) :
    Except UpstreamError (Option CachedResourceResponse) :=
  result.map fun found => found.map bare

theorem delivery_bare (found : Delivery) : delivery (bare found) = found := by
  simp [delivery, bare, BodyStream.content]

theorem sent_delivery (found : CachedResourceResponse) :
    (Body.stream found.body).sent = .bytes (delivery found).content (delivery found).error := by
  unfold delivery
  cases found.body <;> rfl

theorem headers_delivery (found : CachedResourceResponse) :
    found.headers = (delivery found).headers := by
  unfold delivery
  cases found.body <;> rfl

variable {showTimestamp : Timestamp → String} {metadata : MetadataConfig}

theorem plain_getResource (path : String)
    {one two : Except UpstreamError (Option CachedResourceResponse)}
    (alike : outcomeSeen one = outcomeSeen two) :
    (getResource showTimestamp metadata path one).plain =
      (getResource showTimestamp metadata path two).plain := by
  cases one with
  | error failure =>
      cases two with
      | error other =>
          obtain rfl := Except.error.inj alike
          rfl
      | ok other => cases alike
  | ok found =>
      cases two with
      | error other => cases alike
      | ok other =>
          have same : found.map delivery = other.map delivery := Except.ok.inj alike
          cases found with
          | none =>
              cases other with
              | none => rfl
              | some other => cases same
          | some found =>
              cases other with
              | none => cases same
              | some other =>
                  have same : delivery found = delivery other := Option.some.inj same
                  apply plain_annotate
                  · rw [headers_delivery, headers_delivery other, same]
                  · rw [sent_delivery, sent_delivery other, same]

theorem outcomeSeen_bare (result : Except UpstreamError (Option Delivery)) :
    outcomeSeen (bareResult result) = result := by
  cases result with
  | error failure => rfl
  | ok found =>
      cases found with
      | none => rfl
      | some found => exact congrArg (fun seen => Except.ok (some seen)) (delivery_bare found)

section Direct

variable {U : Type} {T : Type → Type} [PathTree T] (app : AppState U T)
  (showTimestamp : Timestamp → String) (metadata : MetadataConfig) (fetch : U → String → Answer)

/-- The response of a server that asks its upstream for every request. -/
def directResponse (method : String) (headers : HeaderMap) (path : String) : Response :=
  if routed method then
    (match app.select headers with
    | .ok cache => getResource showTimestamp metadata path
        (bareResult (direct (cache.rules.matchRoute path).1 (fetch cache.upstream path)))
    | .error refused => (RequestError.refused refused).intoResponse).forMethod method
  else methodNotAllowed

/-- Each upstream answers by the path alone. -/
def AnswersBy (events : List (Event T)) (state : State) : Prop :=
  ∀ exchange ∈ state.exchanges, ∀ id cache answer, exchange.get = some id →
    app.select exchange.headers = .ok cache → .advance (.answer id answer) ∈ events →
      answer = fetch cache.upstream exchange.path

end Direct

section Runs

variable {U : Type} {T : Type → Type} [PathTree T] {build : UpstreamConfig → Option U}
  {config : Config} {app : AppState U T} {fetch : U → String → Answer}
  {capacity : UInt64} {slots : Nat} {positive : 0 < slots} {events : List (Event T)}
  {inner : List (App.Event T)} {state : State}

/-- Gets that may be served from each other's entries are of one upstream and path. -/
theorem answers_alike (accepted : mainState build config = some app) (apart : ¬ Collides T config)
    (traced : Traced app showTimestamp metadata (Machine.initial capacity slots positive) events
      state inner)
    (fixed : AnswersBy app fetch events state) {exchange : Exchange}
    (member : exchange ∈ state.exchanges) {id : TaskId} (own : exchange.get = some id)
    {cache : HostCache U T} {owner : Owner} {request : Machine.Request T}
    (selected : app.select exchange.headers = .ok cache)
    (owned : (owners app inner)[id]? = some owner) (cached : app.cacheOf owner = some cache)
    (path : request.path = exchange.path) :
    Machine.AnsweredAlike (actionsOf app inner) id request.key
      (fetch cache.upstream exchange.path) := by
  intro source given kind answered
  have advanced := (traced.steps (.answer source given) rfl).mp answered
  rcases kind with rfl | ⟨caching, sourceCaching⟩
  · exact fixed exchange member source cache given own selected advanced
  · rcases source_exchange accepted apart traced owned cached caching sourceCaching with
      ⟨other, otherMember, otherOwn, otherSelected, same⟩
    rw [← path, ← same]
    exact fixed other otherMember source cache given otherOwn otherSelected advanced

end Runs

def sharedEvents : List (Event LiteralTree) :=
  [.arrive "GET" [] "/a" epoch, .advance (.acquire 0), .advance (.lookup 0), .advance (.join 0),
    .advance (.answer 0 (plainBody [1, 2, 3])), .advance (.store 0 none), .advance (.reserve 0),
    .advance (.fill 0 ⟨epoch, ⟨0⟩⟩), .advance (.count 0), .advance (.respond 0 none), .reply 0,
    .arrive "GET" [] "/a" epoch, .advance (.acquire 1), .advance (.lookup 1), .advance (.join 1),
    .advance (.count 1), .advance (.respond 1 none), .reply 1]

def outcomesShown : MetadataConfig := ⟨true, false, some "node"⟩

end Server3.Service
