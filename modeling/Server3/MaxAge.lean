import Server3.Oversize
import Server3.ConfiguredRoutes

/-! What a configured `max_age` comes to: which gets panic, which call upstream and
which are served what an earlier get fetched. -/

namespace Server3.Sequential

open Clock Routes Upstream Resource Recency
open Server3.Configuration (CacheConfigMaxAge)

/-- The age in nanoseconds, unless it is `forever` or `never`. -/
def maxAgeNanos : CacheConfigMaxAge → Option Int
  | .seconds seconds => some (seconds.toInt * 10^9)
  | .duration duration => some duration.nanos
  | .other _ => none

def Fits (maxAge : CacheConfigMaxAge) (now : Instant) : Prop :=
  ∀ age, maxAgeNanos maxAge = some age → 0 < age → now.nanos + age < instantLimit

inductive Converted (maxAge : CacheConfigMaxAge) : Prop where
  | limited (age : Int) (duration : Duration) (configured : maxAgeNanos maxAge = some age)
      (positive : 0 < age) (rule : CacheMaxAgeRule.ofConfig maxAge = .cacheFor duration)
      (same : (duration.nanos : Int) = age)
  | never (unlimited : ∀ age, maxAgeNanos maxAge = some age → age ≤ 0)
      (given : maxAge ≠ .other .forever) (rule : CacheMaxAgeRule.ofConfig maxAge = .cacheNever)
  | forever (given : maxAge = .other .forever)
      (rule : CacheMaxAgeRule.ofConfig maxAge = .cacheForever)

theorem converted (maxAge : CacheConfigMaxAge) : Converted maxAge := by
  cases maxAge with
  | seconds seconds =>
      by_cases positive : 0 < seconds
      · have value : 0 < seconds.toInt := Int64.lt_iff_toInt_lt.mp positive
        refine .limited _ ⟨seconds.toInt.toNat * 10^9, seconds_bound seconds⟩ rfl (by omega) ?_ ?_
        · exact if_pos positive
        · simp only
          omega
      · have value : ¬ 0 < seconds.toInt := fun more => positive (Int64.lt_iff_toInt_lt.mpr more)
        refine .never ?_ nofun (if_neg positive)
        rintro age ⟨⟩
        omega
  | duration duration =>
      by_cases positive : 0 < duration.nanos
      · refine .limited _ ⟨duration.nanos.toNat, signed_bound duration⟩ rfl positive
          (if_pos positive) ?_
        simp only
        omega
      · refine .never ?_ nofun (if_neg positive)
        rintro age ⟨⟩
        omega
  | other other =>
      cases other with
      | forever => exact .forever rfl rfl
      | never => exact .never nofun nofun rfl

variable {T : Type → Type} [PathTree T] {storage : CacheStorage} {call fetch next : Call T}
  {between : List (Call T)} {expiresAfter : Option Instant} {maxAge : CacheConfigMaxAge}

def Governed (maxAge : CacheConfigMaxAge) (call : Call T) : Prop :=
  (call.cache.rules.matchRoute call.path).1 = .enabled ⟨.ofConfig maxAge⟩

namespace CacheStorage

def later (storage : CacheStorage) (fetch : Call T) (between : List (Call T)) : CacheStorage :=
  (storage.get fetch).1.serve between

structure Held (storage : CacheStorage) (fetch : Call T) (between : List (Call T))
    (resource : CachedResource) : Prop where
  fetched : (storage.get fetch).2.upstreamCalls = 1
  stored : (fetch.key, some resource) ∈ (storage.get fetch).1.cachedResources.entries
  resident : (fetch.key, some resource) ∈ (storage.later fetch between).cachedResources.entries

end CacheStorage

/-- The age means what the configuration says, for a get and a later get of its key. -/
structure Meant (maxAge : CacheConfigMaxAge) (storage : CacheStorage) (fetch : Call T)
    (between : List (Call T)) (next : Call T) : Prop where
  returns : (storage.get fetch).2.reply ≠ .panicked ∧
    ((storage.later fetch between).get next).2.reply ≠ .panicked
  limited : ∀ age, maxAgeNanos maxAge = some age → 0 < age →
    ∀ resource, storage.Held fetch between resource →
      (next.now.nanos < fetch.now.nanos + age →
        ((storage.later fetch between).get next).2 = ⟨next.respond resource, 0⟩) ∧
      (fetch.now.nanos + age ≤ next.now.nanos →
        ((storage.later fetch between).get next).2.upstreamCalls = 1)
  never : (∀ age, maxAgeNanos maxAge = some age → age ≤ 0) → maxAge ≠ .other .forever →
    (storage.get fetch).2.upstreamCalls = 1 ∧
      ((storage.later fetch between).get next).2.upstreamCalls = 1
  forever : maxAge = .other .forever → ∀ resource, storage.Held fetch between resource →
    ((storage.later fetch between).get next).2 = ⟨next.respond resource, 0⟩

theorem plan_limited {duration : Duration} (governed : Governed maxAge call)
    (rule : CacheMaxAgeRule.ofConfig maxAge = .cacheFor duration) :
    (instantLimit ≤ call.now.nanos + duration.nanos ∧ call.plan = .panicked) ∨
      ∃ expiresAt, expiresAt.nanos = call.now.nanos + duration.nanos ∧
        call.plan = .cached (some expiresAt) := by
  rw [Governed, rule] at governed
  cases added : call.now.checkedAdd duration with
  | none =>
      refine Or.inl ⟨?_, by simp only [Call.plan, governed, Resource.plan, added]⟩
      unfold Instant.checkedAdd at added
      split at added
      · cases added
      · rename_i overflow
        exact Nat.le_of_not_lt overflow
  | some expiresAt =>
      exact Or.inr ⟨expiresAt, checked_add_some.mp added,
        by simp only [Call.plan, governed, Resource.plan, added]⟩

theorem plan_never (governed : Governed maxAge call)
    (rule : CacheMaxAgeRule.ofConfig maxAge = .cacheNever) : call.plan = .never := by
  rw [Governed, rule] at governed
  simp only [Call.plan, governed, Resource.plan]

theorem plan_forever (governed : Governed maxAge call)
    (rule : CacheMaxAgeRule.ofConfig maxAge = .cacheForever) : call.plan = .cached none := by
  rw [Governed, rule] at governed
  simp only [Call.plan, governed, Resource.plan]

namespace CacheStorage

theorem reserve_loop_grants {size : UInt64} {rounds : Nat}
    (enough : storage.cachedResources.entries.length < rounds) :
    (reserveLoop size rounds storage).isSome := by
  induction rounds generalizing storage with
  | zero => exact absurd enough (Nat.not_lt_zero _)
  | succ rounds ih =>
      by_cases room : size.toNat ≤ storage.pool.availableCapacity.toNat
      · rcases reserve_granted rounds room with ⟨pool, reservation, granted, -, -⟩
        rw [granted]
        rfl
      · have short := Nat.lt_of_not_le room
        rcases List.eq_nil_or_concat' storage.cachedResources.entries with
          empty | ⟨front, last, entries⟩
        · rcases reserve_exhausted rounds empty short with ⟨pool, reservation, granted⟩
          rw [granted]
          rfl
        · rcases reserve_pops rounds entries short with ⟨map, left, -, round⟩
          rw [entries, List.length_append, List.length_singleton] at enough
          rw [round]
          apply ih
          rw [drop_cachedResources, left]
          omega

/-- An initialiser never panics. -/
theorem try_init_returns (storage : CacheStorage) (call : Call T) (expiresAfter : Option Instant) :
    (storage.getOrTryInit call expiresAfter).2.reply ≠ .panicked := by
  unfold getOrTryInit
  cases call.answer with
  | error failure =>
      intro panicked
      cases panicked
  | ok answer =>
      cases answer with
      | none =>
          intro panicked
          cases panicked
      | some found =>
          cases stored : store found.body call.diskError with
          | error failure => simp [stored]
          | ok file =>
              have granted : (storage.reserve file.size).isSome :=
                reserve_loop_grants (Nat.lt_succ_self _)
              rcases Option.isSome_iff_exists.mp granted with ⟨reserved, taken⟩
              simp only [stored, taken, Call.respond]
              cases call.cloneError <;> simp

theorem get_panics : (storage.get call).2.reply = .panicked ↔ call.plan = .panicked := by
  unfold get
  cases planned : call.plan with
  | unrouted => simp
  | never => simp [Call.passOn]
  | panicked => simp
  | cached expiresAfter =>
      refine iff_of_false ?_ nofun
      simp only
      split
      · unfold Call.respond
        cases call.cloneError <;> nofun
      · exact try_init_returns _ call expiresAfter

theorem fetched_expires {resource : CachedResource} (caches : call.plan = .cached expiresAfter)
    (fetched : (storage.get call).2.upstreamCalls = 1)
    (stored : (call.key, some resource) ∈ (storage.get call).1.cachedResources.entries) :
    resource.expiresAt = expiresAfter := by
  rcases storage.get_cached 0 caches with
    ⟨_, _, _, answered, _⟩ | ⟨_, missed, rest, ended, _, entries, _⟩
  · rw [answered] at fetched
    cases fetched
  · rw [ended] at stored
    have front : (call.key, none) ∈ missed.cachedResources.entries := by
      rw [entries]
      exact List.mem_cons_self
    have vacant (same : (missed.getOrTryInit call expiresAfter).1.cachedResources =
        missed.cachedResources) : False := by
      rw [same] at stored
      cases LruCache.entry_unique stored front
    cases answered : call.answer with
    | error failure => exact (vacant (by simp only [getOrTryInit, answered]; rfl)).elim
    | ok answer =>
        cases answer with
        | none => exact (vacant (by simp only [getOrTryInit, answered]; rfl)).elim
        | some found =>
            cases kept : store found.body call.diskError with
            | error failure =>
                exact (vacant (by simp only [getOrTryInit, answered, kept]; rfl)).elim
            | ok file =>
                cases taken : missed.reserve file.size with
                | none =>
                    exact (vacant (by simp only [getOrTryInit, answered, kept, taken])).elim
                | some grant =>
                    rcases fetch_keeps expiresAfter answered kept taken with
                      ⟨counted, -, -, whole⟩
                    rw [whole, keep] at stored
                    split at stored
                    · rcases LruCache.mem_replace stored with ⟨-, other⟩ | ⟨own, -⟩
                      · exact absurd rfl other
                      · cases own
                        rfl
                    · rename_i absent
                      rw [drop_cachedResources] at stored
                      exact absurd (List.mem_map_of_mem stored) absent

theorem get_resident {resource : CachedResource} (caches : call.plan = .cached expiresAfter)
    (resident : (call.key, some resource) ∈ storage.cachedResources.entries) :
    (resource.isExpired call.now = false → (storage.get call).2 = ⟨call.respond resource, 0⟩) ∧
      (resource.isExpired call.now = true → (storage.get call).2.upstreamCalls = 1) := by
  rcases storage.get_cached 0 caches with
    ⟨other, member, unexpired, answered, -⟩ | ⟨expired, missed, rest, ended, -⟩
  · obtain rfl := Option.some.inj (LruCache.entry_unique member resident)
    refine ⟨fun _ => answered, fun expired => ?_⟩
    rw [unexpired] at expired
    cases expired
  · refine ⟨fun unexpired => ?_, fun _ => by rw [ended, try_init_calls]⟩
    rw [expired resource resident] at unexpired
    cases unexpired

theorem get_never (never : call.plan = .never) : (storage.get call).2.upstreamCalls = 1 := by
  simp only [get, never]

end CacheStorage

theorem expired_after {resource : CachedResource} {expiresAt start : Instant} {age : Int}
    (expires : resource.expiresAt = some expiresAt)
    (sum : (expiresAt.nanos : Int) = start.nanos + age) (now : Instant) :
    (now.nanos < start.nanos + age → resource.isExpired now = false) ∧
      (start.nanos + age ≤ now.nanos → resource.isExpired now = true) := by
  simp only [CachedResource.isExpired, expires, decide_eq_false_iff_not, decide_eq_true_eq,
    instant_le]
  omega

open CacheStorage in
theorem meant_limited {age : Int} {duration : Duration} (first : Governed maxAge fetch)
    (second : Governed maxAge next) (same : next.key = fetch.key)
    (configured : maxAgeNanos maxAge = some age) (positive : 0 < age)
    (rule : CacheMaxAgeRule.ofConfig maxAge = .cacheFor duration)
    (value : (duration.nanos : Int) = age) :
    Meant maxAge storage fetch between next ↔ Fits maxAge fetch.now ∧ Fits maxAge next.now := by
  have fits (now : Instant) : Fits maxAge now ↔ now.nanos + age < instantLimit := by
    simp only [Fits, configured, Option.some.injEq, forall_eq', positive, true_implies]
  rw [fits, fits]
  rcases plan_limited first rule with ⟨overflow, panics⟩ | ⟨expiresAt, sum, caches⟩
  · refine iff_of_false (fun meant => meant.returns.1 (get_panics.mpr panics)) ?_
    rintro ⟨less, -⟩
    omega
  · rcases plan_limited second rule with ⟨overflow, panics⟩ | ⟨later, sum', caches'⟩
    · refine iff_of_false (fun meant => meant.returns.2 (get_panics.mpr panics)) ?_
      rintro ⟨-, less⟩
      omega
    · have bound := expiresAt.bound
      have bound' := later.bound
      refine iff_of_true ⟨⟨?_, ?_⟩, ?_, ?_, ?_⟩ ⟨by omega, by omega⟩
      · exact get_panics.not.mpr (by simp [caches])
      · exact get_panics.not.mpr (by simp [caches'])
      · intro other again _ resource held
        obtain rfl : other = age := Option.some.inj (again.symm.trans configured)
        have expires := fetched_expires caches held.fetched held.stored
        have resident := held.resident
        rw [← same] at resident
        have served := get_resident caches' resident
        have moment : (expiresAt.nanos : Int) = fetch.now.nanos + other := by omega
        have order := expired_after expires moment next.now
        exact ⟨fun before => served.1 (order.1 before), fun after => served.2 (order.2 after)⟩
      · intro unlimited
        exact absurd positive (Int.not_lt.mpr (unlimited age configured))
      · rintro rfl
        cases configured

open CacheStorage in
/-- An age means what the configuration says exactly if, being positive, it can be added
to the time of either get. -/
theorem max_age_respected (storage : CacheStorage) (between : List (Call T))
    (first : Governed maxAge fetch) (second : Governed maxAge next) (same : next.key = fetch.key) :
    Meant maxAge storage fetch between next ↔ Fits maxAge fetch.now ∧ Fits maxAge next.now := by
  cases converted maxAge with
  | limited age duration configured positive rule value =>
      exact meant_limited first second same configured positive rule value
  | never unlimited given rule =>
      have fits (now : Instant) : Fits maxAge now := by
        intro age configured positive
        exact absurd positive (Int.not_lt.mpr (unlimited age configured))
      have never := plan_never first rule
      have never' := plan_never second rule
      refine iff_of_true ⟨⟨?_, ?_⟩, ?_, ?_, ?_⟩ ⟨fits _, fits _⟩
      · exact get_panics.not.mpr (by simp [never])
      · exact get_panics.not.mpr (by simp [never'])
      · intro age configured positive
        exact absurd positive (Int.not_lt.mpr (unlimited age configured))
      · intro _ _
        exact ⟨get_never never, get_never never'⟩
      · intro forever
        exact absurd forever given
  | forever given rule =>
      subst given
      have caches := plan_forever first rule
      have caches' := plan_forever second rule
      refine iff_of_true ⟨⟨?_, ?_⟩, nofun, ?_, ?_⟩ ⟨nofun, nofun⟩
      · exact get_panics.not.mpr (by simp [caches])
      · exact get_panics.not.mpr (by simp [caches'])
      · intro _ other
        exact absurd rfl other
      · intro _ resource held
        have expires := fetched_expires caches held.fetched held.stored
        have resident := held.resident
        rw [← same] at resident
        exact (get_resident caches' resident).1 (by simp only [CachedResource.isExpired, expires])

def agedCall (maxAge : CacheConfigMaxAge) (now : Instant) (initId : Uuid) : Call LiteralTree where
  cache := ⟨"files", CacheRoutes.new (.enabled ⟨.ofConfig maxAge⟩)⟩
  path := "/a"
  now := now
  initId := initId
  answer := plainBody [1, 2]
  diskError := none
  cloneError := none
  clock := ⟨epoch, ⟨0⟩⟩

/-- The longest age that the configuration admits makes a get panic. -/
theorem longest_age_panics :
    ¬ Meant (.seconds 9223372036854775807) (CacheStorage.new 8 2 (by decide))
      (agedCall (.seconds 9223372036854775807) ⟨10^9, by decide⟩ 0) []
      (agedCall (.seconds 9223372036854775807) ⟨2 * 10^9, by decide⟩ 1) :=
  fun meant => meant.returns.1 rfl

theorem max_age_respected_seconds :
    Meant (.seconds 5) (CacheStorage.new 8 2 (by decide))
      (agedCall (.seconds 5) ⟨10^9, by decide⟩ 0) []
      (agedCall (.seconds 5) ⟨6 * 10^9, by decide⟩ 1) := by
  refine (max_age_respected _ [] ?_ ?_ ?_).mpr ⟨?_, ?_⟩
  · rfl
  · rfl
  · rfl
  · rintro age ⟨⟩ -
    decide
  · rintro age ⟨⟩ -
    decide

end Server3.Sequential
