import Mathlib.Data.List.Nodup
import Mathlib.Data.List.Infix
import Mathlib.Tactic.Common

/-! A map of bounded size ordered by recency of use. Entries are kept most recent
first; the structure carries the uniqueness of keys and the size bound. -/

namespace Recency

variable {κ ν : Type*}

structure LruCache (κ ν : Type*) where
  entries : List (κ × ν)
  capacity : Nat
  distinct : (entries.map Prod.fst).Nodup
  bounded : entries.length ≤ capacity
  positive : 0 < capacity

namespace LruCache

def new (capacity : Nat) (positive : 0 < capacity) : LruCache κ ν :=
  ⟨[], capacity, List.nodup_nil, Nat.zero_le _, positive⟩

def dropLru (cache : LruCache κ ν) (count : Nat) : LruCache κ ν where
  entries := cache.entries.take (cache.entries.length - count)
  capacity := cache.capacity
  distinct := cache.distinct.sublist ((List.take_sublist _ _).map Prod.fst)
  bounded := (List.length_take_le' _ _).trans cache.bounded
  positive := cache.positive

def popLru (cache : LruCache κ ν) : Option ((κ × ν) × LruCache κ ν) :=
  cache.entries.getLast?.map fun entry => (entry, cache.dropLru 1)

/-- The entry an insertion of a new key displaces. -/
def displaced (cache : LruCache κ ν) : Option (κ × ν) :=
  if cache.entries.length = cache.capacity then cache.entries.getLast? else none

variable {cache : LruCache κ ν}

theorem entry_unique {key : κ} {first second : ν} (one : (key, first) ∈ cache.entries)
    (two : (key, second) ∈ cache.entries) : first = second := by
  have same := List.inj_on_of_nodup_map cache.distinct one two rfl
  exact congrArg Prod.snd same

@[simp] theorem dropLru_capacity (count : Nat) : (cache.dropLru count).capacity = cache.capacity := rfl

theorem take_of_room {limit : Nat} {entries : List (κ × ν)} (positive : 0 < limit)
    (bounded : entries.length ≤ limit) :
    entries.take (limit - 1) = if entries.length = limit then entries.dropLast else entries := by
  split
  · rename_i full
    rw [List.dropLast_eq_take, full]
  · rename_i room
    exact List.take_of_length_le (by omega)

theorem displaced_cases (cache : LruCache κ ν) :
    (∃ last, cache.displaced = some last ∧ cache.entries.length = cache.capacity ∧
      cache.entries = cache.entries.take (cache.capacity - 1) ++ [last]) ∨
    (cache.displaced = none ∧ cache.entries.length < cache.capacity ∧
      cache.entries.take (cache.capacity - 1) = cache.entries) := by
  have bounded := cache.bounded
  have positive := cache.positive
  rw [displaced, take_of_room positive bounded]
  by_cases full : cache.entries.length = cache.capacity
  · left
    have nonempty : cache.entries ≠ [] := by
      intro empty
      rw [empty] at full
      exact positive.ne full
    rw [if_pos full, if_pos full]
    exact ⟨_, List.getLast?_eq_some_getLast nonempty, full,
      (List.dropLast_append_getLast nonempty).symm⟩
  · right
    rw [if_neg full, if_neg full]
    exact ⟨rfl, by omega, rfl⟩

theorem take_keeps {entry : κ × ν} (member : entry ∈ cache.entries) :
    entry ∈ cache.entries.take (cache.capacity - 1) ∨ cache.displaced = some entry := by
  rcases cache.displaced_cases with ⟨last, gone, _, split⟩ | ⟨_, _, whole⟩
  · rw [split] at member
    rcases List.mem_append.mp member with front | final
    · exact Or.inl front
    · rw [List.mem_singleton.mp final]
      exact Or.inr gone
  · rw [whole]
    exact Or.inl member

theorem displaced_split {entry : κ × ν} (gone : cache.displaced = some entry) :
    cache.entries = cache.entries.take (cache.capacity - 1) ++ [entry] := by
  rcases cache.displaced_cases with ⟨last, found, _, split⟩ | ⟨none, _, _⟩
  · obtain rfl := Option.some.inj (gone.symm.trans found)
    exact split
  · rw [none] at gone
    cases gone

theorem displaced_member {entry : κ × ν} (gone : cache.displaced = some entry) :
    entry ∈ cache.entries := by
  rw [displaced_split gone]
  exact List.mem_append_right _ (List.mem_singleton_self entry)

theorem displaced_not_kept {entry : κ × ν} (gone : cache.displaced = some entry) :
    entry.1 ∉ (cache.entries.take (cache.capacity - 1)).map Prod.fst := by
  have distinct := cache.distinct
  rw [displaced_split gone, List.map_append, List.nodup_append] at distinct
  intro again
  exact distinct.2.2 _ again _ (List.mem_singleton_self _) rfl

theorem pop_none : cache.popLru = none ↔ cache.entries = [] := by
  simp [popLru]

theorem pop_some {entry : κ × ν} {rest : LruCache κ ν} (popped : cache.popLru = some (entry, rest)) :
    cache.entries = rest.entries ++ [entry] ∧ rest.capacity = cache.capacity := by
  unfold popLru at popped
  obtain ⟨last, found, shape⟩ := Option.map_eq_some_iff.mp popped
  obtain ⟨rfl, rfl⟩ := Prod.mk.inj shape
  have nonempty : cache.entries ≠ [] := List.ne_nil_of_mem (List.mem_of_getLast? found)
  rw [List.getLast?_eq_some_getLast nonempty, Option.some.injEq] at found
  refine ⟨?_, rfl⟩
  calc
    cache.entries = cache.entries.dropLast ++ [cache.entries.getLast nonempty] :=
      (List.dropLast_append_getLast nonempty).symm
    _ = (cache.dropLru 1).entries ++ [last] := by
      rw [found, List.dropLast_eq_take]
      rfl

theorem pop_last {front : List (κ × ν)} {last : κ × ν} (shape : cache.entries = front ++ [last]) :
    ∃ rest, cache.popLru = some (last, rest) ∧ rest.entries = front ∧
      rest.capacity = cache.capacity := by
  cases popped : cache.popLru with
  | none => simp [pop_none.mp popped] at shape
  | some popped' =>
      obtain ⟨entry, rest⟩ := popped'
      obtain ⟨split, capacity⟩ := pop_some popped
      obtain ⟨front, last⟩ := List.append_inj' (split.symm.trans shape) rfl
      obtain rfl := List.singleton_inj.mp last
      exact ⟨rest, rfl, front, capacity⟩

def mapValues {μ : Type*} (cache : LruCache κ ν) (f : ν → μ) : LruCache κ μ where
  entries := cache.entries.map fun entry => (entry.1, f entry.2)
  capacity := cache.capacity
  distinct := by
    rw [List.map_map]
    exact cache.distinct
  bounded := by simpa using cache.bounded
  positive := cache.positive

section MapValues

variable {μ : Type*} {f g : ν → μ}

theorem eq_of_entries {first second : LruCache κ ν} (entries : first.entries = second.entries)
    (capacity : first.capacity = second.capacity) : first = second := by
  obtain ⟨_, _, _, _, _⟩ := first
  obtain ⟨_, _, _, _, _⟩ := second
  simp only at entries capacity
  subst entries capacity
  rfl

theorem map_values_entries : (cache.mapValues f).entries =
    cache.entries.map fun entry => (entry.1, f entry.2) := rfl

theorem map_values_congr (same : ∀ entry ∈ cache.entries, f entry.2 = g entry.2) :
    cache.mapValues f = cache.mapValues g := by
  apply eq_of_entries
  · apply List.map_congr_left
    intro entry member
    rw [same entry member]
  · rfl

theorem map_values_keys :
    (cache.mapValues f).entries.map Prod.fst = cache.entries.map Prod.fst := by
  simp [mapValues, Function.comp_def]

theorem map_values_pop : (cache.mapValues f).popLru =
    cache.popLru.map fun popped => ((popped.1.1, f popped.1.2), popped.2.mapValues f) := by
  have rest : (cache.mapValues f).dropLru 1 = (cache.dropLru 1).mapValues f := by
    apply eq_of_entries
    · simp [mapValues, dropLru, List.map_take]
    · rfl
  simp only [popLru, mapValues, List.getLast?_map, Option.map_map, Function.comp_def] at rest ⊢
  rw [rest]

theorem map_values_displaced : (cache.mapValues f).displaced =
    cache.displaced.map fun entry => (entry.1, f entry.2) := by
  simp only [displaced, mapValues, List.length_map, List.getLast?_map]
  split <;> rfl

end MapValues

section Keyed

variable [DecidableEq κ]

def peek (cache : LruCache κ ν) (key : κ) : Option ν :=
  (cache.entries.find? fun entry => entry.1 = key).map Prod.snd

def others (entries : List (κ × ν)) (key : κ) : List (κ × ν) :=
  entries.filter fun entry => entry.1 ≠ key

theorem others_absent {entries : List (κ × ν)} {key : κ} (absent : key ∉ entries.map Prod.fst) :
    others entries key = entries := by
  apply List.filter_eq_self.mpr
  intro entry member
  apply decide_eq_true
  rintro rfl
  exact absent (List.mem_map_of_mem member)

theorem mem_others {entries : List (κ × ν)} {key : κ} {entry : κ × ν} :
    entry ∈ others entries key ↔ entry ∈ entries ∧ entry.1 ≠ key := by
  simp [others]

theorem others_keys (entries : List (κ × ν)) (key : κ) :
    (others entries key).map Prod.fst = (entries.map Prod.fst).filter fun other => other ≠ key := by
  rw [others, List.filter_map]
  rfl

theorem front_distinct {entries : List (κ × ν)} (key : κ) (value : ν)
    (distinct : (entries.map Prod.fst).Nodup) :
    (((key, value) :: others entries key).map Prod.fst).Nodup := by
  rw [List.map_cons, List.nodup_cons, others_keys]
  exact ⟨by simp, distinct.filter _⟩

theorem front_bounded {entries : List (κ × ν)} {key : κ} (value : ν)
    (present : key ∈ entries.map Prod.fst) :
    ((key, value) :: others entries key).length ≤ entries.length := by
  obtain ⟨entry, member, rfl⟩ := List.mem_map.mp present
  have shorter : (others entries entry.1).length < entries.length :=
    List.length_filter_lt_length_iff_exists.mpr ⟨entry, member, by simp⟩
  exact Nat.succ_le_of_lt shorter

/-- The key and its value move to the front. Nothing is displaced. -/
def promote (cache : LruCache κ ν) (key : κ) (value : ν)
    (present : key ∈ cache.entries.map Prod.fst) : LruCache κ ν where
  entries := (key, value) :: others cache.entries key
  capacity := cache.capacity
  distinct := front_distinct key value cache.distinct
  bounded := (front_bounded value present).trans cache.bounded
  positive := cache.positive

/-- A new key goes to the front; with every slot taken the last entry leaves. -/
def insert (cache : LruCache κ ν) (key : κ) (value : ν)
    (absent : key ∉ cache.entries.map Prod.fst) : LruCache κ ν where
  entries := (key, value) :: cache.entries.take (cache.capacity - 1)
  capacity := cache.capacity
  distinct := by
    rw [List.map_cons, List.nodup_cons]
    have part := (List.take_sublist (cache.capacity - 1) cache.entries).map Prod.fst
    exact ⟨fun member => absent (part.subset member), cache.distinct.sublist part⟩
  bounded := by
    have positive := cache.positive
    simp only [List.length_cons, List.length_take]
    omega
  positive := cache.positive

structure Inserted (κ ν : Type*) where
  cache : LruCache κ ν
  value : ν
  displaced : Option (κ × ν)

/-- Promotes a present key and returns its value; puts the fresh value under an
absent one. -/
def getOrInsertMutRef (cache : LruCache κ ν) (key : κ) (fresh : ν) : Inserted κ ν :=
  if present : key ∈ cache.entries.map Prod.fst then
    let value := (cache.peek key).getD fresh
    ⟨cache.promote key value present, value, none⟩
  else
    ⟨cache.insert key fresh present, fresh, cache.displaced⟩

def replace (cache : LruCache κ ν) (key : κ) (value : ν) : LruCache κ ν where
  entries := cache.entries.map fun entry => if entry.1 = key then (key, value) else entry
  capacity := cache.capacity
  distinct := by
    have same : (cache.entries.map fun entry => if entry.1 = key then (key, value) else entry).map
        Prod.fst = cache.entries.map Prod.fst := by
      rw [List.map_map]
      apply List.map_congr_left
      intro entry _
      by_cases equal : entry.1 = key <;> simp [equal]
    rw [same]
    exact cache.distinct
  bounded := by simpa using cache.bounded
  positive := cache.positive

theorem peek_some {key : κ} {value : ν} :
    cache.peek key = some value ↔ (key, value) ∈ cache.entries := by
  unfold peek
  rw [Option.map_eq_some_iff]
  constructor
  · rintro ⟨⟨other, stored⟩, found, rfl⟩
    have member := List.mem_of_find?_eq_some found
    have same : other = key := by simpa using List.find?_some found
    exact same ▸ member
  · intro member
    cases found : cache.entries.find? fun entry => entry.1 = key with
    | none =>
        have absent := List.find?_eq_none.mp found (key, value) member
        simp at absent
    | some entry =>
        obtain ⟨other, stored⟩ := entry
        have kept := List.mem_of_find?_eq_some found
        have same : other = key := by simpa using List.find?_some found
        subst other
        exact ⟨(key, stored), rfl, entry_unique kept member⟩

theorem get_or_insert_present {key : κ} {value : ν} (fresh : ν)
    (present : (key, value) ∈ cache.entries) :
    (cache.getOrInsertMutRef key fresh).cache.entries = (key, value) :: others cache.entries key ∧
      (cache.getOrInsertMutRef key fresh).value = value ∧
      (cache.getOrInsertMutRef key fresh).displaced = none := by
  have inKeys : key ∈ cache.entries.map Prod.fst := List.mem_map_of_mem present
  have found := peek_some.mpr present
  unfold getOrInsertMutRef
  rw [dif_pos inKeys]
  simp [promote, found]

/-- An absent key enters at the front and takes the slot of the last entry when
there is no other. -/
theorem get_or_insert_absent {key : κ} (fresh : ν) (absent : key ∉ cache.entries.map Prod.fst) :
    (cache.getOrInsertMutRef key fresh).cache.entries =
        (key, fresh) :: cache.entries.take (cache.capacity - 1) ∧
      (cache.getOrInsertMutRef key fresh).value = fresh ∧
      (cache.getOrInsertMutRef key fresh).displaced = cache.displaced := by
  unfold getOrInsertMutRef
  rw [dif_neg absent]
  exact ⟨rfl, rfl, rfl⟩

@[simp] theorem get_or_insert_capacity (key : κ) (fresh : ν) :
    (cache.getOrInsertMutRef key fresh).cache.capacity = cache.capacity := by
  unfold getOrInsertMutRef
  split <;> rfl

@[simp] theorem replace_capacity (key : κ) (value : ν) :
    (cache.replace key value).capacity = cache.capacity := rfl

theorem mem_replace {key : κ} {value : ν} {entry : κ × ν}
    (member : entry ∈ (cache.replace key value).entries) :
    (entry ∈ cache.entries ∧ entry.1 ≠ key) ∨
      (entry = (key, value) ∧ key ∈ cache.entries.map Prod.fst) := by
  obtain ⟨old, present, rfl⟩ := List.mem_map.mp member
  by_cases same : old.1 = key
  · rw [if_pos same]
    exact Or.inr ⟨rfl, same ▸ List.mem_map_of_mem present⟩
  · rw [if_neg same]
    exact Or.inl ⟨present, same⟩

theorem replace_front {key : κ} {old : ν} (value : ν) {entries : List (κ × ν)}
    (front : cache.entries = (key, old) :: others entries key) :
    (cache.replace key value).entries = (key, value) :: others entries key := by
  have rest : (others entries key).map (fun entry => if entry.1 = key then (key, value) else entry) =
      others entries key := by
    calc
      _ = (others entries key).map id := by
        apply List.map_congr_left
        intro entry member
        exact if_neg (mem_others.mp member).2
      _ = others entries key := List.map_id _
  simp only [replace, front, List.map_cons, if_true, rest]

end Keyed

end LruCache

end Recency
