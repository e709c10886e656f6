import Server3.Upstream
import Server3.UrlReference

/-! Which URLs the HTTP upstream requests. -/

namespace Server3.Upstream

open UrlReference

def isPathChar (char : Char) : Bool := 32 < char.toNat && char != '?' && char != '#'

/-- A path that `http::Uri` accepts has no blank, no control character, no `?` and no `#`. -/
structure UriPath where
  text : String
  accepted : text.toList.all isPathChar = true

/-- `path.trim_start_matches('/')`. -/
def trimSlashes (path : String) : List Char := path.toList.dropWhile fun char => char = '/'

structure HttpResponse where
  status : Nat
  contentType : Option String
  body : BodyStream
  deriving DecidableEq, Repr

def HttpResponse.errorForStatus (response : HttpResponse) : Bool :=
  400 ≤ response.status && response.status < 600

structure HttpUpstream where
  url : Url

/-- The URL a get sends its request for, if it sends one, and what it returns. -/
structure Exchange where
  requested : Option Url
  answer : Answer

/-- The client refuses a URL that is neither `http` nor `https` before it sends anything. -/
def HttpUpstream.get (upstream : HttpUpstream) (rules : Rules)
    (send : Url → Except String HttpResponse) (path : UriPath) : Exchange :=
  match rules.join upstream.url (trimSlashes path.text) with
  | .error message => ⟨none, .error (.url message)⟩
  | .ok none => ⟨none, .error (.reqwest "URL scheme is not allowed")⟩
  | .ok (some url) =>
      { requested := some url
        answer :=
          match send url with
          | .error message => .error (.reqwest message)
          | .ok response =>
              if response.status = 404 then .ok none
              else if response.errorForStatus then .error (.reqwest "HTTP status error")
              else .ok (some ⟨⟨response.contentType⟩, response.body⟩) }

theorem get_requested {upstream : HttpUpstream} {rules : Rules}
    {send : Url → Except String HttpResponse} {path : UriPath} {url : Url} :
    (upstream.get rules send path).requested = some url ↔
      rules.join upstream.url (trimSlashes path.text) = .ok (some url) := by
  unfold HttpUpstream.get
  cases joined : rules.join upstream.url (trimSlashes path.text) with
  | error message => simp
  | ok found => cases found <;> simp

theorem names_requested_inside {rules : Rules} {upstream : HttpUpstream}
    (directory : upstream.url.path.file = .empty) {send : Url → Except String HttpResponse}
    {path : UriPath} (colon : ':' ∉ path.text.toList) (backslash : '\\' ∉ path.text.toList)
    (level : ∀ name ∈ directorySegments (trimSlashes path.text), isDoubleDot name = false)
    {url : Url} (requested : (upstream.get rules send path).requested = some url) :
    Inside upstream.url url := by
  have part : trimSlashes path.text ⊆ path.text.toList := (List.dropWhile_sublist _).subset
  have trimmed : (trimSlashes path.text).head? ≠ some '/' := by
    intro slash
    have name := List.head?_dropWhile_not (fun char => char = '/') path.text.toList
    rw [trimSlashes] at slash
    simp [slash] at name
  have stays : rules.Stays upstream.url _ :=
    Rules.names_stay upstream.url (fun member => colon (part member))
      (fun member => backslash (part member)) trimmed level
  exact (Rules.resolve_inside directory _).mpr stays url (get_requested.mp requested)

/-- A path stays below a base that is a directory when, without its leading slashes, it is
a reference that stays there, and only then. -/
theorem requests_confined (rules : Rules) (upstream : HttpUpstream)
    (directory : upstream.url.path.file = .empty) (send : Url → Except String HttpResponse)
    (path : UriPath) :
    (∀ url, (upstream.get rules send path).requested = some url → Inside upstream.url url) ↔
      rules.Stays upstream.url (form upstream.url.scheme (trimSlashes path.text)) := by
  rw [← Rules.resolve_inside directory]
  exact forall_congr' fun url => imp_congr_left get_requested

/-- Host names and names of files that are written without escapes. -/
def plainRules : Rules where
  parseAuthority := fun _ host => .ok ⟨[], host, none⟩
  encode := id
  foreign := fun _ => .ok ()

def filesUpstream : HttpUpstream where
  url :=
    { scheme := .http
      authority := ⟨[], "upstream".toList, none⟩
      path := ⟨[⟨"files".toList, by decide⟩], .empty⟩
      query := none }

theorem absolute_path_escapes :
    ¬ ∀ (rules : Rules) (upstream : HttpUpstream), upstream.url.path.file = .empty →
      ∀ (send : Url → Except String HttpResponse) (path : UriPath) (url : Url),
        (upstream.get rules send path).requested = some url → Inside upstream.url url := by
  intro claim
  have inside := claim plainRules filesUpstream rfl (fun _ => .error "refused")
    ⟨"/https://evil/", rfl⟩
    ⟨.https, ⟨[], "evil".toList, none⟩, ⟨[], .empty⟩, none⟩ (by decide)
  exact absurd inside.1 (by decide)

theorem requests_confined_plain :
    Inside filesUpstream.url
      { filesUpstream.url with path := ⟨[⟨"files".toList, by decide⟩], ⟨"b".toList, by decide⟩⟩ } :=
  (requests_confined plainRules filesUpstream rfl (fun _ => .error "refused")
    ⟨"/a/../b", rfl⟩).mpr (by decide) _ (by decide)

end Server3.Upstream
