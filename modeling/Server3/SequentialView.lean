import Server3.Sequential
import Server3.MachineEffects

/-! What the machine's state is to a get that runs alone: the storage of the
sequential `get`, and what each operation of the machine does to it. -/

namespace Server3.Machine

open Clock Routes Upstream Resource Recency
open CapacityPool (CacheCapacityPool CacheCapacityReservation)
open Server3.Sequential (CacheStorage)

/-- What a cell shows to a get that looks it up. -/
def Cell.content : Cell → Option CachedResource
  | .filled resource => some resource
  | _ => none

def State.contentAt (state : State) (id : CellId) : Option CachedResource :=
  (state.cellAt id).bind Cell.content

def State.storage (state : State) : CacheStorage where
  pool := state.pool
  cachedResources := state.map.mapValues state.contentAt
  metrics := state.metrics
  poolPanicked := state.poolPanicked

def Cell.holding : Option CachedResource → Cell
  | some resource => .filled resource
  | none => .empty

variable {capacity : UInt64} {state : State} {id : TaskId} {task : Task} {pc : Pc}
  {cell own : CellId} {resource : CachedResource}

theorem content_filled {state : State} {cell : CellId} {resource : CachedResource} :
    state.contentAt cell = some resource ↔ state.cellAt cell = some (.filled resource) := by
  rw [State.contentAt]
  cases state.cellAt cell with
  | none => simp
  | some content => cases content <;> simp [Cell.content]

theorem storage_keys : state.storage.keys = state.map.entries.map Prod.fst :=
  LruCache.map_values_keys

theorem storage_member {key : CachedResourceKey} (member : (key, cell) ∈ state.map.entries) :
    (key, state.contentAt cell) ∈ state.storage.cachedResources.entries :=
  List.mem_map.mpr ⟨(key, cell), member, rfl⟩

section Storage

theorem storage_setCell {content before : Cell} (found : state.cellAt cell = some before)
    (same : content.content = before.content) :
    (state.setCell cell content).storage = state.storage := by
  have contents (other : CellId) :
      (state.setCell cell content).contentAt other = state.contentAt other := by
    rw [State.contentAt, State.setCell_cellAt]
    split
    · rename_i equal
      subst other
      simp [State.contentAt, found, same]
    · rfl
  have values : state.map.mapValues (state.setCell cell content).contentAt =
      state.map.mapValues state.contentAt :=
    LruCache.map_values_congr fun entry _ => contents entry.2
  simp only [State.storage, State.setCell_map, values]
  rfl

theorem storage_unmapped (content : Cell) (unmapped : state.mapped cell = false) :
    (state.setCell cell content).storage = state.storage := by
  have values : state.map.mapValues (state.setCell cell content).contentAt =
      state.map.mapValues state.contentAt := by
    apply LruCache.map_values_congr
    intro entry member
    have different : cell ≠ entry.2 := by
      rintro rfl
      exact not_mapped_iff.mp unmapped entry.1 member
    rw [State.contentAt, State.setCell_cellAt, if_neg different]
    rfl
  simp only [State.storage, State.setCell_map, values]
  rfl

theorem storage_giveBack (reservation : CacheCapacityReservation) :
    (state.giveBack reservation).storage = state.storage.giveBack reservation := by
  simp only [State.giveBack, CacheStorage.giveBack]
  cases returned : state.pool.returnToPool reservation with
  | none => simp only [State.storage, returned]; rfl
  | some pool => simp only [State.storage, returned]; rfl

theorem storage_free (unmapped : state.mapped cell = false) :
    (state.free cell).storage = state.storage.drop (state.contentAt cell) := by
  unfold State.free
  split
  · rename_i resource found
    rw [content_filled.mpr found, CacheStorage.drop, storage_unmapped, storage_giveBack]
    · rfl
    · rw [State.mapped, State.giveBack_map]
      exact unmapped
  · rename_i notFilled
    have content : state.contentAt cell = none := by
      cases found : state.contentAt cell with
      | none => rfl
      | some resource => exact absurd (content_filled.mp found) (notFilled resource)
    rw [content, storage_unmapped _ unmapped]
    rfl

/-- Letting go of a cell that is not in the map drops it, unless a get still holds it,
and then it is empty. -/
theorem storage_release (unmapped : state.mapped cell = false)
    (held : state.held cell = true → state.contentAt cell = none) :
    (state.release cell).storage = state.storage.drop (state.contentAt cell) := by
  unfold State.release
  split
  · rename_i kept
    rw [held kept]
    rfl
  · exact storage_free unmapped

theorem release_mapped (mapped : state.mapped cell = true) : state.release cell = state := by
  unfold State.release
  rw [State.held, mapped, Bool.true_or, if_pos rfl]

end Storage

theorem abandon_storage (found : state.cellAt own = some (.initializing id))
    (mapped : state.mapped own = true) :
    (state.abandon id task own pc).storage = state.storage := by
  have same : (state.setCell own .empty).storage = state.storage := storage_setCell found rfl
  rw [State.abandon, release_mapped]
  · exact same
  · exact mapped

/-- Every cell of the map was allocated for its key. -/
def State.Keyed (state : State) : Prop :=
  ∀ key cell, (key, cell) ∈ state.map.entries → state.keyAt cell = some key

/-- The map has no other cell under the key. -/
def State.Sole (state : State) (key : CachedResourceKey) (cell : CellId) : Prop :=
  ∀ other, (key, other) ∈ state.map.entries → other = cell

theorem Inv.keyed (inv : Inv capacity state) : state.Keyed :=
  fun key cell member => (inv.entries key cell member).key

theorem same_key (keys : state.Keyed) {first second : CachedResourceKey}
    (one : (first, cell) ∈ state.map.entries) (two : (second, cell) ∈ state.map.entries) :
    first = second := by
  have known := keys first cell one
  rw [keys second cell two, Option.some.injEq] at known
  exact known.symm

theorem fill_storage {key : CachedResourceKey} (keys : state.Keyed)
    (keyed : state.keyAt own = some key) {before : Cell} (found : state.cellAt own = some before)
    (only : state.Sole key own) :
    (state.setCell own (.filled resource)).storage =
      if state.mapped own then
        { state.storage with
          cachedResources := state.storage.cachedResources.replace key (some resource) }
      else state.storage := by
  by_cases mapped : state.mapped own = true
  · rw [if_pos mapped]
    have values : state.map.mapValues (state.setCell own (.filled resource)).contentAt =
        state.storage.cachedResources.replace key (some resource) := by
      apply LruCache.eq_of_entries
      · simp only [LruCache.replace, State.storage, LruCache.map_values_entries, List.map_map]
        apply List.map_congr_left
        rintro ⟨other, cell⟩ member
        have known := keys other cell member
        rw [Function.comp_apply, State.contentAt, State.setCell_cellAt]
        by_cases same : other = key
        · subst other
          obtain rfl := only cell member
          simp [found, Cell.content]
        · have different : own ≠ cell := by
            rintro rfl
            rw [keyed, Option.some.injEq] at known
            exact same known.symm
          simp only [if_neg different, if_neg same]
          rfl
      · rfl
    simp only [State.storage, State.setCell_map, values]
    rfl
  · rw [if_neg mapped]
    exact storage_unmapped _ (Bool.eq_false_iff.mpr mapped)

theorem mapped_key {key : CachedResourceKey} (keys : state.Keyed)
    (keyed : state.keyAt own = some key)
    (only : state.Sole key own) :
    state.mapped own = true ↔ key ∈ state.storage.keys := by
  rw [mapped_iff, storage_keys, List.mem_map]
  constructor
  · rintro ⟨other, member⟩
    have known := keys other own member
    rw [keyed, Option.some.injEq] at known
    exact ⟨(other, own), member, known.symm⟩
  · rintro ⟨⟨other, cell⟩, member, same⟩
    change other = key at same
    subst other
    exact ⟨key, only cell member ▸ member⟩

theorem afterLookup_content (other : CellId) :
    (state.afterLookup id task).contentAt other = state.contentAt other := by
  simp only [State.contentAt, State.cellAt, afterLookup_slots]
  split
  · rcases Nat.lt_trichotomy other state.slots.length with old | new | beyond
    · rw [List.getElem?_append_left old]
    · subst new
      simp [Cell.content]
    · rw [List.getElem?_eq_none (by simp; omega), List.getElem?_eq_none (by omega)]
  · rfl

theorem afterLookup_storage :
    (state.afterLookup id task).storage =
      { state.storage with
        cachedResources :=
          (state.lookupKey task.key task.now).map.mapValues state.contentAt } := by
  have contents : (state.afterLookup id task).contentAt = state.contentAt :=
    funext afterLookup_content
  simp only [State.storage, contents]
  rfl

theorem afterLookup_unmapped {own : CellId} {kept : List (CachedResourceKey × CellId)}
    (entries : (state.lookupKey task.key task.now).map.entries = (task.key, own) :: kept)
    (older : cell ≠ own) (absent : ∀ key, (key, cell) ∉ kept) :
    (state.afterLookup id task).mapped cell = false := by
  refine not_mapped_iff.mpr ?_
  intro key again
  change (key, cell) ∈ (state.lookupKey task.key task.now).map.entries at again
  rw [entries] at again
  rcases List.mem_cons.mp again with front | stays
  · exact older (congrArg Prod.snd front)
  · exact absent key stays

theorem unlinked_unmapped (id : TaskId) (inv : Inv capacity state)
    (unlinked : (state.lookupKey task.key task.now).unlinked = some cell) :
    (state.afterLookup id task).mapped cell = false ∧
      cell ≠ (state.lookupKey task.key task.now).own := by
  cases task_lookup_cases inv task.key task.now with
  | absent missing entries own allocates unlinks =>
      rw [unlinked, eq_comm, Option.map_eq_some_iff] at unlinks
      rcases unlinks with ⟨⟨key, _⟩, gone, rfl⟩
      have member := LruCache.displaced_member gone
      have older := (entry_known inv member).ne
      refine ⟨afterLookup_unmapped entries older ?_, own ▸ older⟩
      intro other kept
      have same := same_key inv.keyed (List.mem_of_mem_take kept) member
      exact LruCache.displaced_not_kept gone (List.mem_map.mpr ⟨_, kept, same⟩)
  | expired old resource mapped filled expired entries own allocates unlinks =>
      rw [unlinked, Option.some.injEq] at unlinks
      subst unlinks
      have older := (entry_known inv mapped).ne
      refine ⟨afterLookup_unmapped entries older ?_, own ▸ older⟩
      intro other kept
      rcases LruCache.mem_others.mp kept with ⟨member, different⟩
      exact different (same_key inv.keyed member mapped)
  | shared old mapped fresh entries own allocates unlinks =>
      rw [unlinked] at unlinks
      cases unlinks

theorem fresh_content : state.contentAt state.slots.length = none := by
  simp [State.contentAt, State.cellAt]

theorem storage_others (key : CachedResourceKey) :
    LruCache.others state.storage.cachedResources.entries key =
      (LruCache.others state.map.entries key).map fun entry =>
        (entry.1, state.contentAt entry.2) := by
  simp only [LruCache.others, State.storage, LruCache.mapValues, List.filter_map]
  rfl

theorem lookup_matches (id : TaskId) (inv : Inv capacity state) :
    state.storage.lookup task.key task.now =
      ((state.afterLookup id task).storage.drop
        ((state.lookupKey task.key task.now).unlinked.bind state.contentAt),
        state.contentAt (state.lookupKey task.key task.now).own) := by
  rw [afterLookup_storage]
  have slots : (state.lookupKey task.key task.now).map.capacity = state.map.capacity :=
    lookupKey_capacity task.key task.now
  cases task_lookup_cases inv task.key task.now with
  | absent missing entries own allocates unlinks =>
      have absent : task.key ∉ state.storage.keys := storage_keys ▸ missing
      rcases CacheStorage.lookup_absent task.now absent with ⟨map, entries', slots', found⟩
      have same : map = (state.lookupKey task.key task.now).map.mapValues state.contentAt := by
        apply LruCache.eq_of_entries
        · rw [entries', LruCache.map_values_entries, entries, List.map_cons,
            fresh_content, List.map_take]
          rfl
        · exact slots'.trans slots.symm
      have displaced : state.storage.cachedResources.displaced = _ := LruCache.map_values_displaced
      rw [found, same, own, fresh_content, unlinks, displaced, Option.bind_map, Option.bind_map]
      rfl
  | expired old resource mapped filled expired entries own allocates unlinks =>
      have content := content_filled.mpr filled
      have member := storage_member mapped
      rw [content] at member
      rcases CacheStorage.lookup_expired member expired with ⟨map, entries', slots', found⟩
      have same : map = (state.lookupKey task.key task.now).map.mapValues state.contentAt := by
        apply LruCache.eq_of_entries
        · rw [entries', LruCache.map_values_entries, entries, List.map_cons,
            fresh_content, storage_others]
        · exact slots'.trans slots.symm
      rw [found, same, own, fresh_content, unlinks, Option.bind_some, content]
  | shared old mapped fresh entries own allocates unlinks =>
      have unexpired : ∀ resource, state.contentAt old = some resource →
          resource.isExpired task.now = false := by
        intro resource content
        exact fresh resource (content_filled.mp content)
      rcases CacheStorage.lookup_kept (storage_member mapped) unexpired with
        ⟨map, entries', slots', found⟩
      have same : map = (state.lookupKey task.key task.now).map.mapValues state.contentAt := by
        apply LruCache.eq_of_entries
        · rw [entries', LruCache.map_values_entries, entries, List.map_cons, storage_others]
        · exact slots'.trans slots.symm
      rw [found, same, own, unlinks]
      rfl

theorem release_content {other : CellId} (different : cell ≠ other) :
    (state.release cell).contentAt other = state.contentAt other := by
  unfold State.release
  split
  · rfl
  · have after := state.setCell_cellAt cell .freed other
    rw [if_neg different] at after
    simp only [State.contentAt, State.cellAt, State.free_slots] at after ⊢
    rw [after]

theorem popped_unmapped (keys : state.Keyed) {key : CachedResourceKey}
    {rest : LruCache CachedResourceKey CellId}
    (popped : state.map.popLru = some ((key, cell), rest)) :
    ({ state with map := rest } : State).mapped cell = false := by
  have entries := (LruCache.pop_some popped).1
  have distinct := state.map.distinct
  rw [entries, List.map_append, List.nodup_append] at distinct
  apply not_mapped_iff.mpr
  intro other member
  have last : (key, cell) ∈ state.map.entries := by
    rw [entries]
    exact List.mem_append_right _ (List.mem_singleton_self _)
  have front : (other, cell) ∈ state.map.entries := by
    rw [entries]
    exact List.mem_append_left _ member
  have same := same_key keys front last
  exact distinct.2.2 other (List.mem_map_of_mem member) key (List.mem_singleton_self _) same

theorem storage_pop {key : CachedResourceKey} {rest : LruCache CachedResourceKey CellId}
    (popped : state.map.popLru = some ((key, cell), rest)) :
    state.storage.cachedResources.popLru =
      some ((key, state.contentAt cell), rest.mapValues state.contentAt) := by
  rw [State.storage, LruCache.map_values_pop, popped]
  rfl

theorem storage_evictionMetrics :
    state.evictionMetrics cell = state.storage.evictionMetrics (state.contentAt cell) := by
  rw [State.evictionMetrics, State.contentAt]
  cases state.cellAt cell with
  | none => rfl
  | some content => cases content <;> rfl

end Server3.Machine
