import Server3.LiveFiles

/-! How `CacheStorage::new` divides the file descriptors of the process between the
cache and everything else. -/

namespace Server3.StorageLimits

open Word64 Resource Recency Machine
open CapacityPool (CacheCapacityPool)

structure StorageConfig where
  dir : String
  maxDiskCapacity : UInt64
  minCacheFiles : UInt64
  maxCacheFiles : Option UInt64
  minNonCacheFiles : UInt64
  deriving DecidableEq

/-- The `NOFILE` limits of the process. Raising the soft limit to one within the hard
limit may fail; otherwise the new soft limit may come out higher than asked for. -/
structure Rlimit where
  softLimit : UInt64
  hardLimit : UInt64
  ordered : softLimit.toNat ≤ hardLimit.toNat
  increaseNofileLimit : UInt64 → Except String UInt64
  raised : ∀ limit next, limit.toNat ≤ hardLimit.toNat →
    increaseNofileLimit limit = .ok next →
      limit.toNat ≤ next.toNat ∧ next.toNat ≤ hardLimit.toNat

structure CacheStorage where
  cacheDir : String
  capacityPool : CacheCapacityPool
  cachedResources : LruCache CachedResourceKey CellId

structure Created where
  storage : CacheStorage
  softLimit : UInt64

def StorageConfig.minSoftLimit (config : StorageConfig) : Option UInt64 :=
  match config.maxCacheFiles with
  | some maxCacheFiles => checkedAdd maxCacheFiles config.minNonCacheFiles
  | none => checkedAdd config.minNonCacheFiles (max config.minCacheFiles 1)

/-- The soft limit is raised only if it is too low. -/
def Rlimit.raise (rlimit : Rlimit) (minSoftLimit : UInt64) : Except String UInt64 :=
  if rlimit.softLimit < minSoftLimit then
    match rlimit.increaseNofileLimit minSoftLimit with
    | .ok softLimit => .ok softLimit
    | .error _ => .error "failed to increase NOFILE rlimit"
  else .ok rlimit.softLimit

/-- The number of cache files, and `none` where the subtraction is unwrapped in vain. -/
def StorageConfig.cacheFiles (config : StorageConfig) (softLimit : UInt64) : Option UInt64 :=
  match config.maxCacheFiles with
  | some maxCacheFiles => some maxCacheFiles
  | none => checkedSub softLimit config.minNonCacheFiles

/-- `none` is a panic: an `unwrap` of an overflow, or of a capacity of zero. -/
def CacheStorage.new (config : StorageConfig) (getrlimit : Except String Rlimit) :
    Option (Except String Created) :=
  match getrlimit with
  | .error _ => some (.error "failed to get rlimit")
  | .ok rlimit =>
      match config.minSoftLimit with
      | none => none
      | some minSoftLimit =>
          if minSoftLimit ≤ rlimit.hardLimit then
            match rlimit.raise minSoftLimit with
            | .error message => some (.error message)
            | .ok softLimit =>
                match config.cacheFiles softLimit with
                | none => none
                | some maxCacheFiles =>
                    if positive : 0 < maxCacheFiles.toNat then
                      some (.ok ⟨⟨config.dir, ⟨config.maxDiskCapacity⟩,
                        LruCache.new maxCacheFiles.toNat positive⟩, softLimit⟩)
                    else none
          else
            let hardLimit := rlimit.hardLimit
            some (.error (s!"NOFILE hard rlimit {hardLimit} is less than the minimum limit of " ++
              s!"{minSoftLimit} in the config"))

/-- The least soft limit that leaves the cache the files it is promised. -/
def StorageConfig.minimum (config : StorageConfig) : Nat :=
  config.minNonCacheFiles.toNat +
    match config.maxCacheFiles with
    | some maxCacheFiles => maxCacheFiles.toNat
    | none => max config.minCacheFiles.toNat 1

/-- The minimum is out of reach: the hard limit is lower, or the soft limit is and
cannot be raised. -/
def Refused (config : StorageConfig) (rlimit : Rlimit) : Prop :=
  rlimit.hardLimit.toNat < config.minimum ∨
    (rlimit.softLimit.toNat < config.minimum ∧
      ∃ failure, rlimit.increaseNofileLimit (UInt64.ofNat config.minimum) = .error failure)

/-- The files of the cache and the others share the soft limit as configured. -/
structure Divided (config : StorageConfig) (created : Created) : Prop where
  positive : 1 ≤ created.storage.cachedResources.capacity
  shared : created.storage.cachedResources.capacity + config.minNonCacheFiles.toNat ≤
    created.softLimit.toNat
  exact : ∀ maxCacheFiles, config.maxCacheFiles = some maxCacheFiles →
    created.storage.cachedResources.capacity = maxCacheFiles.toNat
  enough : config.maxCacheFiles = none →
    config.minCacheFiles.toNat ≤ created.storage.cachedResources.capacity

/-- Start-up never panics; it fails if the minimum is out of reach, and otherwise divides
the files. -/
structure StartsWell (config : StorageConfig) (rlimit : Rlimit)
    (started : Option (Except String Created)) : Prop where
  returns : started ≠ none
  refuses : Refused config rlimit → ∃ message, started = some (.error message)
  divides : ∀ created, started = some (.ok created) → Divided config created

variable {config : StorageConfig} {rlimit : Rlimit} {limit : UInt64} {created : Created}

theorem max_value (left right : UInt64) : (max left right).toNat = max left.toNat right.toNat := by
  rw [UInt64.max_def]
  split
  · rename_i less
    exact (Nat.max_eq_right (UInt64.le_iff_toNat_le.mp less)).symm
  · rename_i more
    exact (Nat.max_eq_left (Nat.le_of_not_le fun less => more (UInt64.le_iff_toNat_le.mpr less))).symm

theorem min_soft_some : config.minSoftLimit = some limit ↔ limit.toNat = config.minimum := by
  unfold StorageConfig.minSoftLimit StorageConfig.minimum
  cases config.maxCacheFiles with
  | some maxCacheFiles => rw [checked_add_some, Nat.add_comm]
  | none =>
      rw [checked_add_some, max_value]
      rfl

theorem min_soft_none : config.minSoftLimit = none ↔ 2^64 ≤ config.minimum := by
  unfold StorageConfig.minSoftLimit StorageConfig.minimum
  cases config.maxCacheFiles with
  | some maxCacheFiles => rw [checked_add_none, Nat.add_comm]
  | none =>
      rw [checked_add_none, max_value]
      rfl

theorem raise_cases (value : limit.toNat = config.minimum)
    (within : limit.toNat ≤ rlimit.hardLimit.toNat) :
    (Refused config rlimit ∧ ∃ message, rlimit.raise limit = .error message) ∨
      (¬ Refused config rlimit ∧
        ∃ softLimit, rlimit.raise limit = .ok softLimit ∧ limit.toNat ≤ softLimit.toNat) := by
  have same : UInt64.ofNat config.minimum = limit := by
    rw [← value]
    exact UInt64.ofNat_toNat
  unfold Refused Rlimit.raise
  rw [same, ← value]
  by_cases low : rlimit.softLimit < limit
  · have low' := UInt64.lt_iff_toNat_lt.mp low
    rw [if_pos low]
    cases answer : rlimit.increaseNofileLimit limit with
    | error failure => exact Or.inl ⟨Or.inr ⟨low', failure, rfl⟩, _, rfl⟩
    | ok softLimit =>
        refine Or.inr ⟨?_, softLimit, rfl, (rlimit.raised limit softLimit within answer).1⟩
        rintro (high | ⟨_, failure, failed⟩)
        · omega
        · cases failed
  · have enough := Nat.le_of_not_lt fun less => low (UInt64.lt_iff_toNat_lt.mpr less)
    rw [if_neg low]
    refine Or.inr ⟨?_, rlimit.softLimit, rfl, enough⟩
    rintro (high | ⟨less, _⟩) <;> omega

theorem cache_files_some {softLimit : UInt64} (enough : config.minimum ≤ softLimit.toNat) :
    ∃ files, config.cacheFiles softLimit = some files ∧
      files.toNat + config.minNonCacheFiles.toNat ≤ softLimit.toNat ∧
      (∀ maxCacheFiles, config.maxCacheFiles = some maxCacheFiles → files = maxCacheFiles) ∧
      (config.maxCacheFiles = none → max config.minCacheFiles.toNat 1 ≤ files.toNat) := by
  unfold StorageConfig.minimum at enough
  unfold StorageConfig.cacheFiles
  cases chosen : config.maxCacheFiles with
  | some maxCacheFiles =>
      simp only [chosen] at enough
      refine ⟨maxCacheFiles, rfl, by omega, ?_, by simp⟩
      rintro _ ⟨⟩
      rfl
  | none =>
      simp only [chosen] at enough
      cases taken : checkedSub softLimit config.minNonCacheFiles with
      | none =>
          have short := (checked_sub_none _ _).mp taken
          omega
      | some files =>
          have balance := (checked_sub_some _ _ _).mp taken
          exact ⟨files, rfl, by omega, by simp, fun _ => by omega⟩

theorem new_cases (config : StorageConfig) (rlimit : Rlimit) :
    (2^64 ≤ config.minimum ∧ CacheStorage.new config (.ok rlimit) = none) ∨
    (config.minimum < 2^64 ∧ Refused config rlimit ∧
      ∃ message, CacheStorage.new config (.ok rlimit) = some (.error message)) ∨
    (config.minimum < 2^64 ∧ ¬ Refused config rlimit ∧ config.maxCacheFiles = some 0 ∧
      CacheStorage.new config (.ok rlimit) = none) ∨
    (config.minimum < 2^64 ∧ ¬ Refused config rlimit ∧ config.maxCacheFiles ≠ some 0 ∧
      ∃ created, CacheStorage.new config (.ok rlimit) = some (.ok created) ∧
        Divided config created ∧
        created.storage.capacityPool.availableCapacity = config.maxDiskCapacity ∧
        created.storage.cachedResources.entries = []) := by
  cases lowest : config.minSoftLimit with
  | none =>
      refine Or.inl ⟨min_soft_none.mp lowest, ?_⟩
      simp only [CacheStorage.new, lowest]
  | some limit =>
      have value := min_soft_some.mp lowest
      have bounded : config.minimum < 2^64 := value ▸ limit.toNat_lt
      right
      by_cases within : limit ≤ rlimit.hardLimit
      · have within' := UInt64.le_iff_toNat_le.mp within
        rcases raise_cases value within' with
          ⟨refused, message, failed⟩ | ⟨granted, softLimit, raised, enough⟩
        · refine Or.inl ⟨bounded, refused, message, ?_⟩
          simp only [CacheStorage.new, lowest, if_pos within, failed]
        · right
          rcases cache_files_some (value ▸ enough) with ⟨files, left, shared, exact, atLeast⟩
          by_cases zero : config.maxCacheFiles = some 0
          · refine Or.inl ⟨bounded, granted, zero, ?_⟩
            have none : ¬ 0 < files.toNat := by
              rw [exact 0 zero]
              decide
            simp only [CacheStorage.new, lowest, if_pos within, raised, left, dif_neg none]
          · have positive : 0 < files.toNat := by
              cases chosen : config.maxCacheFiles with
              | none =>
                  have more := atLeast chosen
                  omega
              | some maxCacheFiles =>
                  rw [exact maxCacheFiles chosen]
                  refine Nat.pos_of_ne_zero fun none => zero ?_
                  rw [chosen, value_injective maxCacheFiles 0 none]
            refine Or.inr ⟨bounded, granted, zero, ⟨⟨config.dir, ⟨config.maxDiskCapacity⟩,
              LruCache.new files.toNat positive⟩, softLimit⟩, ?_, ?_, rfl, rfl⟩
            · simp only [CacheStorage.new, lowest, if_pos within, raised, left, dif_pos positive]
            · exact ⟨positive, shared, fun chosen same => congrArg UInt64.toNat (exact chosen same),
                fun unset => (Nat.le_max_left _ _).trans (atLeast unset)⟩
      · refine Or.inl ⟨bounded, Or.inl ?_, ?_⟩
        · rw [← value]
          exact Nat.lt_of_not_le fun less => within (UInt64.le_iff_toNat_le.mpr less)
        · simp only [CacheStorage.new, lowest, if_neg within]
          exact ⟨_, rfl⟩

theorem new_created (done : CacheStorage.new config (.ok rlimit) = some (.ok created)) :
    Divided config created ∧
      created.storage.capacityPool.availableCapacity = config.maxDiskCapacity ∧
      created.storage.cachedResources.entries = [] := by
  rcases new_cases config rlimit with ⟨_, outcome⟩ | ⟨_, _, _, outcome⟩ | ⟨_, _, _, outcome⟩ |
    ⟨_, _, _, other, outcome, empty⟩
  · simp [outcome] at done
  · simp [outcome] at done
  · simp [outcome] at done
  · rw [outcome] at done
    cases done
    exact empty

def CacheStorage.state (storage : CacheStorage) : State where
  pool := storage.capacityPool
  map := storage.cachedResources
  lock := none
  slots := []
  tasks := []
  metrics := Metrics.zero
  poolPanicked := false

/-- What start-up creates is an initial state of the machine. -/
theorem created_initial (done : CacheStorage.new config (.ok rlimit) = some (.ok created)) :
    created.storage.state = initial config.maxDiskCapacity
      created.storage.cachedResources.capacity created.storage.cachedResources.positive := by
  rcases new_created done with ⟨-, available, vacant⟩
  have pool : created.storage.capacityPool = ⟨config.maxDiskCapacity⟩ := by rw [← available]
  have map : created.storage.cachedResources =
      LruCache.new created.storage.cachedResources.capacity
        created.storage.cachedResources.positive :=
    LruCache.eq_of_entries vacant rfl
  rw [CacheStorage.state, initial, pool, ← map]

theorem entries_within_limit {T : Type → Type} [Routes.PathTree T] {actions : List (Action T)}
    {state : State} (done : CacheStorage.new config (.ok rlimit) = some (.ok created))
    (reached : Transition.run step created.storage.state actions = some state) :
    state.map.entries.length + config.minNonCacheFiles.toNat ≤ created.softLimit.toNat := by
  rw [created_initial done] at reached
  have capacity := run_capacity reached
  have bounded := state.map.bounded
  have divided := (new_created done).1.shared
  omega

/-- Start-up keeps its promise exactly if the minimum fits 64 bits and a cache without
any files is refused for another reason. -/
theorem startup_sound (config : StorageConfig) (rlimit : Rlimit) :
    StartsWell config rlimit (CacheStorage.new config (.ok rlimit)) ↔
      config.minimum < 2^64 ∧ (config.maxCacheFiles = some 0 → Refused config rlimit) := by
  rcases new_cases config rlimit with ⟨overflow, outcome⟩ | ⟨bounded, refused, message, outcome⟩ |
    ⟨bounded, granted, zero, outcome⟩ | ⟨bounded, granted, some, created, outcome, divided, -⟩
  · refine iff_of_false (fun well => well.returns outcome) ?_
    rintro ⟨bounded, -⟩
    omega
  · refine iff_of_true ⟨?_, fun _ => ⟨message, outcome⟩, ?_⟩ ⟨bounded, fun _ => refused⟩
    · rw [outcome]
      simp
    · intro created done
      rw [outcome] at done
      cases done
  · exact iff_of_false (fun well => well.returns outcome) fun ⟨_, fails⟩ => granted (fails zero)
  · refine iff_of_true ⟨?_, fun refused => absurd refused granted, ?_⟩
      ⟨bounded, fun zero => absurd zero some⟩
    · rw [outcome]
      simp
    · intro other done
      rw [outcome] at done
      cases done
      exact divided

def fixedLimits : Rlimit where
  softLimit := 1024
  hardLimit := 1024
  ordered := Nat.le_refl _
  increaseNofileLimit := .ok
  raised := fun limit next within done => by
    cases done
    exact ⟨Nat.le_refl _, within⟩

def defaultConfig (maxCacheFiles : Option UInt64) : StorageConfig where
  dir := "/tmp"
  maxDiskCapacity := 1000000000
  minCacheFiles := 500
  maxCacheFiles := maxCacheFiles
  minNonCacheFiles := 500

/-- No cache files at all, or more than a `u64` can count with the others, are not
refused with an error. -/
theorem startup_panics :
    ¬ StartsWell (defaultConfig (some 0)) fixedLimits
        (CacheStorage.new (defaultConfig (some 0)) (.ok fixedLimits)) ∧
      ¬ StartsWell (defaultConfig (some 18446744073709551615)) fixedLimits
        (CacheStorage.new (defaultConfig (some 18446744073709551615)) (.ok fixedLimits)) :=
  ⟨fun well => well.returns rfl, fun well => well.returns rfl⟩

end Server3.StorageLimits
