import Server3.Configuration
import Server3.Routes

/-! How the configuration becomes route rules. -/

namespace Server3.Routes

open Clock Server3.Configuration

theorem seconds_bound (seconds : Int64) : seconds.toInt.toNat * 10^9 < durationLimit := by
  have small := Int64.toInt_lt seconds
  rw [durationLimit]
  omega

theorem signed_bound (duration : SignedDuration) : duration.nanos.toNat < durationLimit := by
  have small := duration.bound
  rw [durationLimit]
  omega

/-- Neither conversion to a `Duration` can fail for a positive amount. -/
def CacheMaxAgeRule.ofConfig : CacheConfigMaxAge → CacheMaxAgeRule
  | .seconds seconds =>
      if 0 < seconds then .cacheFor ⟨seconds.toInt.toNat * 10^9, seconds_bound seconds⟩
      else .cacheNever
  | .duration duration =>
      if 0 < duration.nanos then .cacheFor ⟨duration.nanos.toNat, signed_bound duration⟩
      else .cacheNever
  | .other .forever => .cacheForever
  | .other .never => .cacheNever

def CacheEnabledRouteRule.ofConfig (config : CacheConfig) : CacheEnabledRouteRule :=
  ⟨.ofConfig config.maxAge⟩

def CacheRouteRule.ofConfig : RouteConfig → CacheRouteRule
  | .disabled => .disabled
  | .enabled cache => .enabled (.ofConfig cache)

namespace CacheRoutes

variable {T : Type → Type} [PathTree T]

def fromConfig (cacheConfig : CacheConfig) (routesConfig : HashMap String RouteConfig) :
    CacheRoutes T :=
  routesConfig.entries.foldl
    (fun routes entry => routes.addRoute entry.1 (.ofConfig entry.2))
    (new (.enabled (.ofConfig cacheConfig)))

end CacheRoutes

end Server3.Routes
