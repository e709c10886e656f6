import Server3.HttpUpstream

/-! Which object the S3 upstream requests. -/

namespace Server3.Upstream

structure S3Upstream where
  bucket : String
  keyPrefix : String
  deriving DecidableEq, Repr

/-- What `get_object` returns: an object, `NoSuchKey`, or another error. -/
inductive ObjectResponse where
  | found (contentType : Option String) (body : BodyStream)
  | noSuchKey
  | failed (message : String)
  deriving DecidableEq, Repr

structure ObjectExchange where
  requested : Option (String × String)
  answer : Answer

/-- `HeaderValue::from_str` takes tabs and all bytes from 32 on but 127, so every
character beyond ASCII. -/
def isHeaderValue (value : String) : Bool :=
  value.toList.all fun char => (' ' ≤ char && char ≠ '\x7f') || char = '\t'

def S3Upstream.key (upstream : S3Upstream) (path : String) : String :=
  upstream.keyPrefix ++ String.ofList (trimSlashes path)

/-- The S3 API has no empty key, so none is requested. -/
def S3Upstream.get (upstream : S3Upstream) (getObject : String → String → ObjectResponse)
    (path : String) : ObjectExchange :=
  let key := upstream.key path
  if key.isEmpty then ⟨none, .ok none⟩
  else
    { requested := some (upstream.bucket, key)
      answer :=
        match getObject upstream.bucket key with
        | .noSuchKey => .ok none
        | .failed message => .error (.getObject message)
        | .found contentType body => .ok (some ⟨⟨contentType.filter isHeaderValue⟩, body⟩) }

end Server3.Upstream
