import Server3.App
import Server3.S3Upstream

/-! What a request is answered with: the response of a resource, with the metadata headers
that the configuration asks for, or the response of an error. -/

namespace Server3.Resource

def CacheOutcome.asStr : CacheOutcome → String
  | .hit => "hit"
  | .miss => "miss"
  | .never => "never"

end Server3.Resource

namespace Server3.Upstream

/-- Each error is shown as the one that it wraps. -/
def UpstreamError.message : UpstreamError → String
  | .url message | .reqwest message | .getObject message | .io message => message

end Server3.Upstream

namespace Server3.App

open Clock Upstream Resource

structure MetadataConfig where
  cacheOutcome : Bool
  expiresAt : Bool
  nodeName : Option String
  deriving DecidableEq, Repr

/-- The body of an error is a `JsonError`, kept as its message. -/
inductive Body where
  | stream (body : ResponseBody)
  | json (message : String)
  | empty
  deriving DecidableEq

/-- The names of headers are in lower case, as the map holds them. Those that frame the body
are set as it is sent, and are left out. -/
structure Response where
  status : Nat
  headers : List (String × String)
  body : Body
  deriving DecidableEq

/-- `HeaderMap::insert` puts a value in the place of those that are there. -/
def Response.insertHeader (response : Response) (name value : String) : Response :=
  { response with
    headers := response.headers.filter (fun header => header.1 ≠ name) ++ [(name, value)] }

/-- `IntoResponse for UpstreamResource`. -/
def resourceResponse (headers : UpstreamResourceHeaders) (body : ResponseBody) : Response :=
  let response : Response := ⟨200, [], .stream body⟩
  match headers.contentType with
  | some contentType => response.insertHeader "content-type" contentType
  | none => response

/-- The errors of `get_resource`; those from before the cache is asked are `AppError`. -/
inductive RequestError where
  | upstream (error : UpstreamError)
  | notFound (path : String)
  | refused (error : AppError)
  deriving DecidableEq

/-- `IntoResponse for AppError`. -/
def RequestError.statusAndMessage : RequestError → Nat × String
  | .upstream error => (500, "upstream error: " ++ error.message)
  | .notFound path => (404, "resource not found: " ++ path)
  | .refused (.noUpstreamServer _) => (404, "no upstream server configured for this host")
  | .refused .invalidHostHeader => (400, "invalid 'Host' header value")

def RequestError.intoResponse (error : RequestError) : Response where
  status := error.statusAndMessage.1
  headers := [("content-type", "application/json")]
  body := .json error.statusAndMessage.2

section Metadata

-- `Timestamp::to_string` is a parameter
variable (showTimestamp : Timestamp → String) (metadata : MetadataConfig)

/-- A value that is no header value is left out. -/
def Response.insertValid (response : Response) (name : String) (value : Option String) :
    Response :=
  match value.filter isHeaderValue with
  | some value => response.insertHeader name value
  | none => response

def annotate (found : CachedResourceResponse) : Response :=
  let response := resourceResponse found.headers found.body
  let response :=
    if metadata.cacheOutcome then
      response.insertHeader "server3-cache-outcome" found.outcome.asStr
    else response
  let response :=
    if metadata.expiresAt then
      response.insertValid "server3-expires-at" (found.expiresAt.map showTimestamp)
    else response
  response.insertValid "server3-node-name" metadata.nodeName

/-- The rest of `get_resource`, from what `Cache::get` returns. -/
def getResource (path : String) (result : Except UpstreamError (Option CachedResourceResponse)) :
    Response :=
  match result with
  | .error error => (RequestError.upstream error).intoResponse
  | .ok none => (RequestError.notFound path).intoResponse
  | .ok (some found) => annotate showTimestamp metadata found

end Metadata

/-- `axum::routing::get` also takes `HEAD`, and leaves out its body. -/
def routed (method : String) : Bool := method = "GET" || method = "HEAD"

def methodNotAllowed : Response := ⟨405, [("allow", "GET,HEAD")], .empty⟩

def Response.forMethod (method : String) (response : Response) : Response :=
  if method = "HEAD" then { response with body := .empty } else response

section Seen

/-- The bytes of a body, with the error that breaks them off, if any. -/
inductive Sent where
  | bytes (content : Bytes) (error : Option String)
  | json (message : String)
  | empty
  deriving DecidableEq

def Body.sent : Body → Sent
  | .stream (.upstream body) => .bytes body.content body.error
  | .stream (.file file) => .bytes file.content none
  | .json message => .json message
  | .empty => .empty

def tellsOfCache (name : String) : Bool :=
  name = "server3-cache-outcome" || name = "server3-expires-at"

/-- What the client is sent, without the headers that tell of the cache. -/
structure Plain where
  status : Nat
  headers : List (String × String)
  sent : Sent
  deriving DecidableEq

def Response.plain (response : Response) : Plain where
  status := response.status
  headers := response.headers.filter fun header => !tellsOfCache header.1
  sent := response.body.sent

variable {response other : Response} {name value : String}

theorem plain_forMethod (same : response.plain = other.plain) (method : String) :
    (response.forMethod method).plain = (other.forMethod method).plain := by
  obtain ⟨status, headers, -⟩ := Plain.mk.inj same
  unfold Response.forMethod
  split
  · simp only [Response.plain, status, headers]
  · exact same

theorem plain_insert_hidden (hidden : tellsOfCache name = true) :
    (response.insertHeader name value).plain = response.plain := by
  simp only [Response.plain, Response.insertHeader, List.filter_append, List.filter_filter]
  have last : [(name, value)].filter (fun header => !tellsOfCache header.1) = [] := by
    simp [hidden]
  rw [last, List.append_nil]
  congr 1
  apply List.filter_congr
  intro header _
  by_cases same : header.1 = name
  · simp [same, hidden]
  · simp [same]

theorem plain_insert (same : response.plain = other.plain) :
    (response.insertHeader name value).plain = (other.insertHeader name value).plain := by
  obtain ⟨status, headers, sent⟩ := Plain.mk.inj same
  have swap (headers : List (String × String)) :
      (headers.filter fun header => header.1 ≠ name).filter (fun header => !tellsOfCache header.1) =
        (headers.filter fun header => !tellsOfCache header.1).filter fun header =>
          header.1 ≠ name := by
    simp only [List.filter_filter, Bool.and_comm]
  simp only [Response.plain, Response.insertHeader, List.filter_append, swap, status, headers, sent]

theorem plain_valid (same : response.plain = other.plain) (value : Option String) :
    (response.insertValid name value).plain = (other.insertValid name value).plain := by
  unfold Response.insertValid
  split
  · exact plain_insert same
  · exact same

theorem plain_valid_hidden (hidden : tellsOfCache name = true) (value : Option String) :
    (response.insertValid name value).plain = response.plain := by
  unfold Response.insertValid
  split
  · exact plain_insert_hidden hidden
  · rfl

variable {showTimestamp : Timestamp → String} {metadata : MetadataConfig}

theorem plain_annotate {one two : CachedResourceResponse} (headers : one.headers = two.headers)
    (sent : (Body.stream one.body).sent = (Body.stream two.body).sent) :
    (annotate showTimestamp metadata one).plain = (annotate showTimestamp metadata two).plain := by
  have resource : (resourceResponse one.headers one.body).plain =
      (resourceResponse two.headers two.body).plain := by
    unfold resourceResponse
    rw [headers]
    cases two.headers.contentType <;>
      simp only [Response.insertHeader, Response.plain, sent]
  have outcome : (if metadata.cacheOutcome then
        (resourceResponse one.headers one.body).insertHeader "server3-cache-outcome"
          one.outcome.asStr
      else resourceResponse one.headers one.body).plain =
      (if metadata.cacheOutcome then
        (resourceResponse two.headers two.body).insertHeader "server3-cache-outcome"
          two.outcome.asStr
      else resourceResponse two.headers two.body).plain := by
    split
    · rw [plain_insert_hidden (by decide), plain_insert_hidden (by decide), resource]
    · exact resource
  unfold annotate
  apply plain_valid
  split
  · rw [plain_valid_hidden (by decide), plain_valid_hidden (by decide)]
    exact outcome
  · exact outcome

end Seen

end Server3.App
