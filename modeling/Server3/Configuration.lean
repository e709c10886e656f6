import Mathlib.Data.List.AList
import Server3.Clock
import Server3.UrlReference

/-! The configuration, as far as it decides upstreams and cache rules. -/

namespace Server3.Configuration

open Clock

/-- A map with its entries in the order in which it is iterated. -/
abbrev HashMap (κ ν : Type) := AList fun _ : κ => ν

/-- Seconds are an `i64`, and the nanoseconds have their sign. -/
structure SignedDuration where
  nanos : Int
  bound : nanos.natAbs < 2^63 * 10^9 ∨ (nanos < 0 ∧ nanos.natAbs < (2^63 + 1) * 10^9)
  deriving DecidableEq

inductive CacheConfigMaxAgeOther where
  | forever
  | never
  deriving DecidableEq, Repr

inductive CacheConfigMaxAge where
  | seconds (seconds : Int64)
  | duration (duration : SignedDuration)
  | other (other : CacheConfigMaxAgeOther)
  deriving DecidableEq

structure CacheConfig where
  maxAge : CacheConfigMaxAge
  deriving DecidableEq

inductive RouteConfig where
  | disabled
  | enabled (cache : CacheConfig)
  deriving DecidableEq

structure UpstreamHttpConfig where
  url : UrlReference.Url
  httpTimeout : Option Duration
  httpReadTimeout : Option Duration
  httpConnectTimeout : Option Duration
  deriving DecidableEq

structure UpstreamS3Config where
  bucket : String
  keyPrefix : String
  profile : Option String
  region : Option String
  endpointUrl : Option UrlReference.Url
  deriving DecidableEq

inductive UpstreamConfig where
  | http (config : UpstreamHttpConfig)
  | s3 (config : UpstreamS3Config)
  | fallthrough (upstreams : List UpstreamConfig)

structure HostConfig where
  upstream : Option UpstreamConfig
  routes : Option (HashMap String RouteConfig)
  cache : Option CacheConfig

structure Config where
  hosts : HashMap String HostConfig
  upstream : Option UpstreamConfig
  routes : HashMap String RouteConfig
  cache : CacheConfig

end Server3.Configuration
