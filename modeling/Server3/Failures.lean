import Server3.Sequential

/-! What failed gets on other keys do to a sequence of gets: the sequence is
compared with the same sequence without them. -/

namespace Server3.Sequential

open Clock Routes Upstream Resource Recency
open CapacityPool (CacheCapacityPool CacheCapacityReservation)

variable {T : Type → Type} [PathTree T]

/-- What the client sees: hit or miss, body and headers. -/
def Outcome.visible (outcome : Outcome) :
    Option (CacheOutcome × ResponseBody × UpstreamResourceHeaders) :=
  match outcome.reply with
  | .returned (.ok (some response)) => some (response.outcome, response.body, response.headers)
  | _ => none

def Failed (served : Call T × Outcome) : Prop :=
  served.1.cloneError = none ∧
    (served.2.reply = .returned (.ok none) ∨
      ∃ failure, served.2.reply = .returned (.error failure))

namespace CacheStorage

variable {inserted : CachedResourceKey → Bool} {first second storage : CacheStorage}
  {key : CachedResourceKey} {call : Call T}

/-- The gets on the keys not marked as inserted are answered as if the others were not made. -/
def Undisturbed (storage : CacheStorage) (inserted : CachedResourceKey → Bool)
    (calls : List (Call T)) : Prop :=
  ((storage.outcomes calls).filter fun served => !inserted served.1.key).map
      (fun served => served.2.visible) =
    (storage.outcomes (calls.filter fun call => !inserted call.key)).map
      fun served => served.2.visible

/-- When the get brings a new key into a full map, the entry that leaves is of an
inserted get, or no inserted get is involved. -/
def SparesOthers (inserted : CachedResourceKey → Bool) (storage : CacheStorage)
    (call : Call T) : Prop :=
  ∀ expiresAfter, call.plan = .cached expiresAfter → call.key ∉ storage.keys →
    storage.cachedResources.entries.length = storage.cachedResources.capacity →
    (∃ last, storage.cachedResources.entries.getLast? = some last ∧ inserted last.1 = true) ∨
      (inserted call.key = false ∧ ∀ key ∈ storage.keys, inserted key = false)

/-- But for the empty cells of inserted gets in the first, the storages are the same. -/
structure Related (inserted : CachedResourceKey → Bool) (first second : CacheStorage) : Prop where
  entries : first.cachedResources.entries.filter (fun entry => !inserted entry.1) =
    second.cachedResources.entries
  empty : ∀ entry ∈ first.cachedResources.entries, inserted entry.1 = true → entry.2 = none
  pool : first.pool = second.pool
  capacity : first.cachedResources.capacity = second.cachedResources.capacity

theorem related_mem (related : Related inserted first second) (original : inserted key = false)
    {cell : Option CachedResource} :
    (key, cell) ∈ second.cachedResources.entries ↔ (key, cell) ∈ first.cachedResources.entries := by
  rw [← related.entries, List.mem_filter]
  simp [original]

theorem related_keys (related : Related inserted first second) (original : inserted key = false) :
    key ∈ second.keys ↔ key ∈ first.keys := by
  simp only [keys, List.mem_map, Prod.exists, exists_and_right, exists_eq_right]
  exact exists_congr fun cell => related_mem related original

theorem related_drop (related : Related inserted first second) (cell : Option CachedResource) :
    Related inserted (first.drop cell) (second.drop cell) := by
  constructor
  · rw [drop_cachedResources, drop_cachedResources, related.entries]
  · rw [drop_cachedResources]
    exact related.empty
  · exact drop_pool_congr related.pool
  · rw [drop_cachedResources, drop_cachedResources, related.capacity]

theorem filter_others (inserted : CachedResourceKey → Bool) (key : CachedResourceKey)
    (entries : List (CachedResourceKey × Option CachedResource)) :
    (LruCache.others entries key).filter (fun entry => !inserted entry.1) =
      LruCache.others (entries.filter fun entry => !inserted entry.1) key := by
  simp only [LruCache.others, List.filter_filter, Bool.and_comm]

theorem filter_others_inserted (entries : List (CachedResourceKey × Option CachedResource))
    (other : inserted key = true) :
    (LruCache.others entries key).filter (fun entry => !inserted entry.1) =
      entries.filter fun entry => !inserted entry.1 := by
  rw [filter_others]
  apply LruCache.others_absent
  intro member
  rcases List.mem_map.mp member with ⟨entry, kept, rfl⟩
  simp [other] at kept

theorem related_front {map map' : LruCache CachedResourceKey (Option CachedResource)}
    {cell : Option CachedResource} {rest rest' : List (CachedResourceKey × Option CachedResource)}
    (related : Related inserted first second) (original : inserted key = false)
    (entries : map.entries = (key, cell) :: rest) (entries' : map'.entries = (key, cell) :: rest')
    (older : rest ⊆ first.cachedResources.entries)
    (same : rest.filter (fun entry => !inserted entry.1) = rest')
    (capacity : map.capacity = first.cachedResources.capacity)
    (capacity' : map'.capacity = second.cachedResources.capacity) :
    Related inserted { first with cachedResources := map }
      { second with cachedResources := map' } := by
  constructor
  · simp only [entries, entries', ← same]
    exact List.filter_cons_of_pos (by simp [original])
  · simp only [entries]
    intro entry member other
    rcases List.mem_cons.mp member with rfl | behind
    · simp [original] at other
    · exact related.empty entry (older behind) other
  · exact related.pool
  · exact capacity.trans (related.capacity.trans capacity'.symm)

theorem others_subset (entries : List (CachedResourceKey × Option CachedResource)) :
    LruCache.others entries key ⊆ entries :=
  fun _ member => (LruCache.mem_others.mp member).1

/-- When the last entry of the first map is of an inserted get, the second map has none
for it. -/
theorem related_last {rest : List (CachedResourceKey × Option CachedResource)}
    {last : CachedResourceKey × Option CachedResource} (related : Related inserted first second)
    (split : first.cachedResources.entries = rest ++ [last])
    (spares : ∃ last, first.cachedResources.entries.getLast? = some last ∧
      inserted last.1 = true) :
    last.2 = none ∧
      rest.filter (fun entry => !inserted entry.1) = second.cachedResources.entries := by
  rcases spares with ⟨last', final, other⟩
  rw [split, List.getLast?_append_cons, List.getLast?_singleton, Option.some.injEq] at final
  subst last'
  have same := related.entries
  rw [split, List.filter_append, List.filter_singleton, other, Bool.not_true, cond_false,
    List.append_nil] at same
  exact ⟨related.empty last (split ▸ List.mem_append_right _ (by simp)) other, same⟩

theorem related_insert (related : Related inserted first second) (original : inserted key = false)
    {map map' : LruCache CachedResourceKey (Option CachedResource)}
    (entries : map.entries = (key, none) ::
      first.cachedResources.entries.take (first.cachedResources.capacity - 1))
    (entries' : map'.entries = (key, none) ::
      second.cachedResources.entries.take (second.cachedResources.capacity - 1))
    (capacity : map.capacity = first.cachedResources.capacity)
    (capacity' : map'.capacity = second.cachedResources.capacity)
    (spares : first.cachedResources.entries.length = first.cachedResources.capacity →
      (∃ last, first.cachedResources.entries.getLast? = some last ∧ inserted last.1 = true) ∨
        ∀ key ∈ first.keys, inserted key = false) :
    Related inserted
      ({ first with cachedResources := map }.drop
        (first.cachedResources.displaced.bind Prod.snd))
      ({ second with cachedResources := map' }.drop
        (second.cachedResources.displaced.bind Prod.snd)) := by
  have positive := first.cachedResources.positive
  have older := List.take_subset (first.cachedResources.capacity - 1) first.cachedResources.entries
  -- as long as the second map has a slot free it displaces nothing
  have joined : ∀ left : List (CachedResourceKey × Option CachedResource),
      first.cachedResources.entries.take (first.cachedResources.capacity - 1) = left →
      left.filter (fun entry => !inserted entry.1) = second.cachedResources.entries →
      second.cachedResources.entries.length < second.cachedResources.capacity →
      Related inserted { first with cachedResources := map }
        ({ second with cachedResources := map' }.drop
          (second.cachedResources.displaced.bind Prod.snd)) := by
    rintro left rfl same free
    rcases second.cachedResources.displaced_cases with ⟨_, _, full, _⟩ | ⟨gone, _, whole⟩
    · omega
    · rw [gone, Option.bind_none]
      rw [whole] at entries'
      exact related_front related original entries entries' older same capacity capacity'
  rcases first.cachedResources.displaced_cases with ⟨last, gone, full, split⟩ | ⟨gone, room, whole⟩
  · rcases spares full with last | none
    · rcases related_last related split last with ⟨vacant, same⟩
      rw [gone, Option.bind_some, vacant]
      refine joined _ rfl same ?_
      calc
        _ ≤ (first.cachedResources.entries.take (first.cachedResources.capacity - 1)).length := by
          rw [← same]
          exact List.length_filter_le _ _
        _ ≤ first.cachedResources.capacity - 1 := List.length_take_le _ _
        _ < second.cachedResources.capacity := by
          rw [← related.capacity]
          omega
    · have all : first.cachedResources.entries = second.cachedResources.entries := by
        rw [← related.entries]
        symm
        apply List.filter_eq_self.mpr
        intro entry member
        simp [none entry.1 (List.mem_map_of_mem member)]
      have displaced : first.cachedResources.displaced = second.cachedResources.displaced := by
        simp only [LruCache.displaced, all, related.capacity]
      rw [displaced]
      apply related_drop
      refine related_front related original entries entries' older ?_ capacity capacity'
      rw [← all, ← related.capacity]
      apply List.filter_eq_self.mpr
      intro entry member
      simp [none entry.1 (List.mem_map_of_mem (older member))]
  · rw [gone, Option.bind_none]
    refine joined _ whole related.entries ?_
    calc
      _ ≤ first.cachedResources.entries.length := by
        rw [← related.entries]
        exact List.length_filter_le _ _
      _ < second.cachedResources.capacity := related.capacity ▸ room

theorem related_lookup (related : Related inserted first second)
    (original : inserted key = false) (now : Instant)
    (spares : key ∉ first.keys →
      first.cachedResources.entries.length = first.cachedResources.capacity →
      (∃ last, first.cachedResources.entries.getLast? = some last ∧ inserted last.1 = true) ∨
        ∀ key ∈ first.keys, inserted key = false) :
    ∃ next next' cell, first.lookup key now = (next, cell) ∧
      second.lookup key now = (next', cell) ∧ Related inserted next next' := by
  have others := filter_others inserted key first.cachedResources.entries
  rw [related.entries] at others
  rcases first.cell_cases key now with ⟨cell, member, unexpired⟩ | ⟨resource, member, expired⟩ | absent
  · rcases lookup_kept member unexpired with ⟨map, entries, capacity, found⟩
    rcases lookup_kept ((related_mem related original).mpr member) unexpired with
      ⟨map', entries', capacity', found'⟩
    exact ⟨_, _, cell, found, found', related_front related original entries entries'
      (others_subset _) others capacity capacity'⟩
  · rcases lookup_expired member expired with ⟨map, entries, capacity, found⟩
    rcases lookup_expired ((related_mem related original).mpr member) expired with
      ⟨map', entries', capacity', found'⟩
    exact ⟨_, _, none, found, found', related_drop (related_front related original entries entries'
      (others_subset _) others capacity capacity') _⟩
  · have absent' : key ∉ second.keys := fun member =>
      absent ((related_keys related original).mp member)
    rcases lookup_absent now absent with ⟨map, entries, capacity, found⟩
    rcases lookup_absent now absent' with ⟨map', entries', capacity', found'⟩
    exact ⟨_, _, none, found, found', related_insert related original entries entries' capacity
      capacity' (spares absent)⟩

theorem related_reserve (bytes : UInt64) {rounds rounds' : Nat}
    (related : Related inserted first second)
    (enough : first.cachedResources.entries.length < rounds)
    (enough' : second.cachedResources.entries.length < rounds') :
    ∃ next next' reservation, reserveLoop bytes rounds first = some (next, reservation) ∧
      reserveLoop bytes rounds' second = some (next', reservation) ∧
      Related inserted next next' := by
  induction rounds generalizing first second rounds' with
  | zero => exact absurd enough (Nat.not_lt_zero _)
  | succ rounds ih =>
      obtain ⟨rounds', rfl⟩ := Nat.exists_eq_succ_of_ne_zero (Nat.ne_zero_of_lt enough')
      cases granted : first.pool.reserve bytes with
      | some grant =>
          have granted' := granted
          rw [related.pool] at granted'
          refine ⟨{ first with pool := grant.1 }, { second with pool := grant.1 }, grant.2, ?_, ?_,
            related.entries, related.empty, rfl, related.capacity⟩
          · simp only [reserveLoop, granted]
          · simp only [reserveLoop, granted']
      | none =>
          have refused := granted
          rw [related.pool] at refused
          cases popped : first.cachedResources.popLru with
          | none =>
              have nothing := related.entries
              rw [LruCache.pop_none.mp popped] at nothing
              have popped' := LruCache.pop_none.mpr nothing.symm
              rcases CapacityPool.reserve_up_to_grants second.pool bytes with
                ⟨pool, reservation, granted', _⟩
              refine ⟨{ first with pool := pool }, { second with pool := pool }, reservation, ?_, ?_,
                related.entries, related.empty, rfl, related.capacity⟩
              · simp only [reserveLoop, popped, related.pool, refused, granted', Option.map_some]
              · simp only [reserveLoop, refused, popped', granted', Option.map_some]
          | some pair =>
              obtain ⟨⟨key, victim⟩, rest⟩ := pair
              rcases LruCache.pop_some popped with ⟨split, capacity⟩
              have remaining := related.entries
              rw [split, List.filter_append, List.filter_singleton] at remaining
              rw [split, List.length_append, List.length_singleton] at enough
              have older : ∀ entry ∈ rest.entries, inserted entry.1 = true → entry.2 = none := by
                intro entry member
                exact related.empty entry (split ▸ List.mem_append_left _ member)
              cases other : inserted key with
              | true =>
                  have vacant : victim = none :=
                    related.empty (key, victim) (split ▸ List.mem_append_right _ (by simp)) other
                  subst vacant
                  rw [other, Bool.not_true, cond_false, List.append_nil] at remaining
                  have evicted : Related inserted { first with cachedResources := rest } second :=
                    ⟨remaining, older, related.pool, capacity.trans related.capacity⟩
                  rcases ih evicted (Nat.lt_of_succ_lt_succ enough) enough' with
                    ⟨next, next', reservation, done, done', again⟩
                  exact ⟨next, next', reservation, by simpa only [reserveLoop, granted, popped, drop,
                    evictionMetrics] using done, done', again⟩
              | false =>
                  rw [other, Bool.not_false, cond_true] at remaining
                  rcases LruCache.pop_last remaining.symm with ⟨rest', popped', entries', capacity'⟩
                  have evicted : Related inserted
                      { first with
                        cachedResources := rest
                        metrics := first.evictionMetrics victim }
                      { second with
                        cachedResources := rest'
                        metrics := second.evictionMetrics victim } :=
                    ⟨entries'.symm, older, related.pool,
                      capacity.trans (related.capacity.trans capacity'.symm)⟩
                  have shorter := congrArg List.length remaining
                  rw [List.length_append, List.length_singleton, ← entries'] at shorter
                  have fewer : (drop { second with
                      cachedResources := rest'
                      metrics := second.evictionMetrics victim }
                        victim).cachedResources.entries.length < rounds' := by
                    rw [drop_cachedResources]
                    simp only
                    omega
                  rcases ih (related_drop evicted victim)
                    (by rw [drop_cachedResources]; exact Nat.lt_of_succ_lt_succ enough) fewer with
                    ⟨next, next', reservation, done, done', again⟩
                  exact ⟨next, next', reservation, by simpa only [reserveLoop, granted, popped] using
                    done, by simpa only [reserveLoop, refused, popped'] using done', again⟩

theorem related_count (related : Related inserted first second)
    (change change' : CacheRouteMetrics → CacheRouteMetrics) :
    Related inserted (first.count call change) (second.count call change') :=
  ⟨related.entries, related.empty, related.pool, related.capacity⟩

theorem related_keep (related : Related inserted first second) (original : inserted key = false)
    (resource : CachedResource) :
    Related inserted (first.keep key resource) (second.keep key resource) := by
  simp only [keep, related_keys related original]
  split
  · constructor
    · simp only [LruCache.replace, ← related.entries, List.filter_map]
      congr 1
      apply List.filter_congr
      intro entry _
      by_cases same : entry.1 = key <;> simp [same]
    · intro entry member other
      rcases LruCache.mem_replace member with ⟨older, _⟩ | ⟨rfl, _⟩
      · exact related.empty entry older other
      · simp [original] at other
    · exact related.pool
    · exact related.capacity
  · exact related_drop related _

theorem related_try_init (related : Related inserted first second)
    (original : inserted call.key = false) (expiresAfter : Option Instant) :
    (first.getOrTryInit call expiresAfter).2 = (second.getOrTryInit call expiresAfter).2 ∧
      Related inserted (first.getOrTryInit call expiresAfter).1
        (second.getOrTryInit call expiresAfter).1 := by
  unfold getOrTryInit
  cases call.answer with
  | error failure => exact ⟨rfl, related_count related _ _⟩
  | ok answer =>
      cases answer with
      | none => exact ⟨rfl, related_count related _ _⟩
      | some found =>
          cases stored : store found.body call.diskError with
          | error failure =>
              simp only [stored, true_and]
              exact related_count related _ _
          | ok file =>
              simp only [stored]
              rcases related_reserve file.size related (Nat.lt_succ_self _) (Nat.lt_succ_self _) with
                ⟨next, next', reservation, done, done', again⟩
              simp only [reserve, done, done', true_and]
              refine related_keep ?_ original _
              exact ⟨again.entries, again.empty, again.pool, again.capacity⟩

/-- An original get is answered the same from both storages. -/
theorem related_get (related : Related inserted first second)
    (original : inserted call.key = false) (spares : SparesOthers inserted first call) :
    (first.get call).2 = (second.get call).2 ∧
      Related inserted (first.get call).1 (second.get call).1 := by
  have requested : Related inserted (first.count call CacheRouteMetrics.requested)
      (second.count call CacheRouteMetrics.requested) := related_count related _ _
  cases planned : call.plan with
  | unrouted =>
      simp only [get, planned, true_and]
      exact related_count requested _ _
  | never =>
      simp only [get, planned, true_and]
      exact related_count requested _ _
  | panicked =>
      simp only [get, planned, true_and]
      exact requested
  | cached expiresAfter =>
      rcases related_lookup requested original call.now (fun absent full =>
        (spares expiresAfter planned absent full).imp id And.right) with
        ⟨next, next', cell, found, found', again⟩
      simp only [get, planned, found, found']
      cases cell with
      | none => exact related_try_init again original expiresAfter
      | some resource => exact ⟨rfl, related_count again _ _⟩

theorem try_init_failed {expiresAfter : Option Instant}
    (failed : Failed (call, (storage.getOrTryInit call expiresAfter).2)) :
    ∃ change, (storage.getOrTryInit call expiresAfter).1 = storage.count call change := by
  rcases failed with ⟨readable, reply⟩
  have noClone : call.cloneError = none := readable
  unfold getOrTryInit at reply ⊢
  cases answered : call.answer with
  | error failure => exact ⟨_, rfl⟩
  | ok answer =>
      cases answer with
      | none => exact ⟨_, rfl⟩
      | some found =>
          cases stored : store found.body call.diskError with
          | error failure =>
              simp only [stored]
              exact ⟨_, rfl⟩
          | ok file =>
              cases reserved : storage.reserve file.size with
              | none => simp [answered, stored, reserved] at reply
              | some granted => simp [answered, stored, reserved, Call.respond, noClone] at reply

theorem related_inserted {map : LruCache CachedResourceKey (Option CachedResource)}
    {rest : List (CachedResourceKey × Option CachedResource)}
    (related : Related inserted first second) (other : inserted key = true)
    (entries : map.entries = (key, none) :: rest) (older : rest ⊆ first.cachedResources.entries)
    (same : rest.filter (fun entry => !inserted entry.1) = second.cachedResources.entries)
    (capacity : map.capacity = first.cachedResources.capacity) :
    Related inserted { first with cachedResources := map } second := by
  constructor
  · simp only [entries]
    rw [List.filter_cons_of_neg (by simp [other]), same]
  · simp only [entries]
    intro entry member again
    rcases List.mem_cons.mp member with rfl | behind
    · rfl
    · exact related.empty entry (older behind) again
  · exact related.pool
  · exact capacity.trans related.capacity

theorem related_lookup_inserted (related : Related inserted first second)
    (other : inserted key = true) (now : Instant)
    (spares : key ∉ first.keys →
      first.cachedResources.entries.length = first.cachedResources.capacity →
      ∃ last, first.cachedResources.entries.getLast? = some last ∧ inserted last.1 = true) :
    ∃ next, first.lookup key now = (next, none) ∧ Related inserted next second := by
  rcases first.cell_cases key now with ⟨cell, member, unexpired⟩ | ⟨resource, member, _⟩ | absent
  · obtain rfl : cell = none := related.empty (key, cell) member other
    rcases lookup_kept member unexpired with ⟨map, entries, capacity, found⟩
    exact ⟨_, found, related_inserted related other entries (others_subset _)
      ((filter_others_inserted _ other).trans related.entries) capacity⟩
  · exact absurd (related.empty _ member other) (Option.some_ne_none resource)
  · rcases lookup_absent now absent with ⟨map, entries, capacity, found⟩
    refine ⟨_, found, ?_⟩
    rcases first.cachedResources.displaced_cases with ⟨last, gone, full, split⟩ | ⟨gone, _, whole⟩
    · rcases related_last related split (spares absent full) with ⟨vacant, same⟩
      rw [gone, Option.bind_some, vacant]
      exact related_inserted related other entries (List.take_subset _ _) same capacity
    · rw [gone, Option.bind_none]
      rw [whole] at entries
      exact related_inserted related other entries (List.Subset.refl _) related.entries capacity

theorem related_failed (related : Related inserted first second)
    (other : inserted call.key = true) (failed : Failed (call, (first.get call).2))
    (spares : SparesOthers inserted first call) : Related inserted (first.get call).1 second := by
  have requested : Related inserted (first.count call CacheRouteMetrics.requested) second :=
    ⟨related.entries, related.empty, related.pool, related.capacity⟩
  cases planned : call.plan with
  | cached expiresAfter =>
      have displaces : call.key ∉ first.keys →
          first.cachedResources.entries.length = first.cachedResources.capacity →
          ∃ last, first.cachedResources.entries.getLast? = some last ∧ inserted last.1 = true := by
        intro absent full
        rcases spares expiresAfter planned absent full with last | ⟨original, _⟩
        · exact last
        · rw [other] at original
          cases original
      rcases related_lookup_inserted requested other call.now displaces with ⟨next, found, again⟩
      simp only [get, planned, found] at failed ⊢
      rcases try_init_failed failed with ⟨change, ended⟩
      rw [ended]
      exact ⟨again.entries, again.empty, again.pool, again.capacity⟩
  | unrouted | never | panicked =>
      simp only [get, planned]
      exact ⟨related.entries, related.empty, related.pool, related.capacity⟩

theorem related_outcomes {calls : List (Call T)} (related : Related inserted first second)
    (failed : ∀ served ∈ first.outcomes calls, inserted served.1.key = true → Failed served)
    (spares : Transition.Along step (SparesOthers inserted) first calls) :
    (first.outcomes calls).filter (fun served => !inserted served.1.key) =
      second.outcomes (calls.filter fun call => !inserted call.key) := by
  induction calls generalizing first second with
  | nil => rfl
  | cons call later ih =>
      rcases Transition.along_cons.mp spares with ⟨now, after⟩
      have after := after (first.get call).1 rfl
      have behind : ∀ served ∈ (first.get call).1.outcomes later,
          inserted served.1.key = true → Failed served := by
        intro served member
        exact failed served (List.mem_cons_of_mem _ member)
      cases other : inserted call.key with
      | true =>
          have next := related_failed related other (failed _ List.mem_cons_self other) now
          rw [outcomes, List.filter_cons_of_neg (by simp [other]),
            List.filter_cons_of_neg (by simp [other])]
          exact ih next behind after
      | false =>
          rcases related_get related other now with ⟨same, next⟩
          rw [outcomes, List.filter_cons_of_pos (by simp [other]),
            List.filter_cons_of_pos (by simp [other]), outcomes, same, ih next behind after]

end CacheStorage

open CacheStorage in
/-- Failed gets on other keys do not disturb a run in which no entry they brought in takes
the slot of another. -/
theorem failures_undisturbing (capacity : UInt64) (slots : Nat) (positive : 0 < slots)
    (inserted : CachedResourceKey → Bool) (calls : List (Call T))
    (failed : ∀ served ∈ (new capacity slots positive).outcomes calls,
      inserted served.1.key = true → Failed served)
    (spares : Transition.Along step (SparesOthers inserted) (new capacity slots positive) calls) :
    (new capacity slots positive).Undisturbed inserted calls := by
  have related : Related inserted (new capacity slots positive) (new capacity slots positive) := by
    refine ⟨rfl, ?_, rfl, rfl⟩
    intro entry member
    cases member
  exact congrArg _ (related_outcomes related failed spares)

def missingCall (path : String) (initId : Uuid) : Call LiteralTree :=
  { plainCall path initId [] with answer := .ok none }

/-- A cached file is asked for again after a file that is missing. -/
def missingBetween : List (Call LiteralTree) :=
  [plainCall "/a" 0 [1], missingCall "/b" 1, plainCall "/a" 2 [1]]

open CacheStorage in
/-- With one slot the cell of the missing file displaces the cached file. -/
theorem failure_displaces :
    ¬ ∀ (capacity : UInt64) (slots : Nat) (positive : 0 < slots)
      (inserted : CachedResourceKey → Bool) (calls : List (Call LiteralTree)),
      (∀ served ∈ (new capacity slots positive).outcomes calls,
        inserted served.1.key = true → Failed served) →
      (new capacity slots positive).Undisturbed inserted calls := by
  intro claim
  have failed : ∀ served ∈ (new 10 1 (by decide)).outcomes missingBetween,
      decide (served.1.key.path = "/b") = true → Failed served := by
    intro served member other
    rcases List.mem_cons.mp member with rfl | member
    · exact absurd other (by decide)
    · rcases List.mem_cons.mp member with rfl | member
      · exact ⟨rfl, Or.inl rfl⟩
      · rw [List.mem_singleton.mp member] at other
        exact absurd other (by decide)
  have undisturbed := claim 10 1 (by decide) (fun key => key.path = "/b") missingBetween failed
  have seen := congrArg (List.map (Option.map Prod.fst)) undisturbed
  have refetched : [some CacheOutcome.miss, some CacheOutcome.miss] =
      [some CacheOutcome.miss, some CacheOutcome.hit] := seen
  exact absurd refetched (by decide)

open CacheStorage in
/-- With two slots it does not. -/
theorem failures_undisturbing_room :
    (new 10 2 (by decide)).Undisturbed (fun key => key.path = "/b") missingBetween := by
  apply failures_undisturbing
  · intro served member other
    rcases List.mem_cons.mp member with rfl | member
    · exact absurd other (by decide)
    · rcases List.mem_cons.mp member with rfl | member
      · exact ⟨rfl, Or.inl rfl⟩
      · rw [List.mem_singleton.mp member] at other
        exact absurd other (by decide)
  · refine Transition.along_cons.mpr ⟨?_, ?_⟩
    · intro _ _ _ full
      exact absurd full (by decide)
    · rintro next ⟨⟩
      refine Transition.along_cons.mpr ⟨?_, ?_⟩
      · intro _ _ _ full
        exact absurd full (by decide)
      · rintro next ⟨⟩
        refine Transition.along_cons.mpr ⟨?_, fun _ _ => Transition.along_nil⟩
        intro _ _ absent
        exact absurd (show (plainCall "/a" 2 [1]).key ∈ _ by decide) absent

end Server3.Sequential
