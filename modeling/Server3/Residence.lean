import Mathlib.Algebra.Ring.Nat
import Mathlib.Algebra.BigOperators.Group.Finset.Basic
import Mathlib.Data.Finset.Dedup
import Mathlib.Data.List.Nodup
import Mathlib.Tactic.Common

/-! Which keys a recency cache holds when it is limited in number and in weight:
the longest front of the requests, most recent first and each key once, that is
within both limits. -/

namespace WeightedLru

variable {κ : Type*}

/-- The longest front within the limits. -/
def fit (weight : κ → Nat) : Nat → Nat → List κ → List κ
  | _, _, [] => []
  | slots, room, key :: rest =>
      if 0 < slots ∧ weight key ≤ room then key :: fit weight (slots - 1) (room - weight key) rest
      else []

def load (weight : κ → Nat) (keys : List κ) : Nat := (keys.map weight).sum

variable {weight : κ → Nat} {slots room : Nat} {keys front rest requests : List κ} {key : κ}

@[simp] theorem load_nil : load weight [] = 0 := rfl

@[simp] theorem load_cons : load weight (key :: keys) = weight key + load weight keys := by
  simp [load]

@[simp] theorem load_append : load weight (front ++ rest) = load weight front + load weight rest := by
  simp [load]

/-- A front that is within the limits is kept, and the rest has what remains. -/
theorem fit_append (short : front.length ≤ slots) (light : load weight front ≤ room) :
    fit weight slots room (front ++ rest) =
      front ++ fit weight (slots - front.length) (room - load weight front) rest := by
  induction front generalizing slots room with
  | nil => rfl
  | cons key front ih =>
      simp only [List.length_cons, load_cons] at short light
      rw [List.cons_append, fit, if_pos ⟨by omega, by omega⟩, ih (by omega) (by omega)]
      simp only [List.cons_append, List.length_cons, load_cons]
      rw [Nat.sub_sub, Nat.sub_sub, Nat.add_comm 1]

theorem fit_split (weight : κ → Nat) (slots room : Nat) (keys : List κ) :
    ∃ rest, keys = fit weight slots room keys ++ rest ∧
      (fit weight slots room keys).length ≤ slots ∧
      load weight (fit weight slots room keys) ≤ room ∧
      fit weight (slots - (fit weight slots room keys).length)
        (room - load weight (fit weight slots room keys)) rest = [] := by
  induction keys generalizing slots room with
  | nil => exact ⟨[], rfl, Nat.zero_le _, Nat.zero_le _, rfl⟩
  | cons key keys ih =>
      by_cases fits : 0 < slots ∧ weight key ≤ room
      · rcases ih (slots - 1) (room - weight key) with ⟨rest, split, short, light, stop⟩
        rw [fit, if_pos fits]
        refine ⟨rest, by rw [List.cons_append, ← split], ?_, ?_, ?_⟩
        · rw [List.length_cons]
          omega
        · rw [load_cons]
          omega
        · have fewer := Nat.sub_right_comm slots
            (fit weight (slots - 1) (room - weight key) keys).length 1
          rw [List.length_cons, load_cons, ← Nat.sub_sub, ← Nat.sub_sub, fewer]
          exact stop
      · have nothing : fit weight slots room (key :: keys) = [] := by rw [fit, if_neg fits]
        rw [nothing]
        exact ⟨key :: keys, rfl, Nat.zero_le _, Nat.zero_le _, nothing⟩

theorem fit_front (weight : κ → Nat) (slots room : Nat) (keys : List κ) :
    fit weight slots room keys <+: keys := by
  rcases fit_split weight slots room keys with ⟨rest, split, _⟩
  exact ⟨rest, split.symm⟩

theorem fit_cut (cut : fit weight slots room front ≠ front) :
    fit weight slots room (front ++ rest) = fit weight slots room front := by
  induction front generalizing slots room with
  | nil => exact absurd rfl cut
  | cons key front ih =>
      rw [List.cons_append, fit, fit]
      by_cases fits : 0 < slots ∧ weight key ≤ room
      · rw [fit, if_pos fits] at cut
        rw [if_pos fits, if_pos fits, ih fun same => cut (by rw [same])]
      · rw [if_neg fits, if_neg fits]

theorem fit_whole (short : keys.length ≤ slots) (light : load weight keys ≤ room) :
    fit weight slots room keys = keys := by
  calc
    fit weight slots room keys = fit weight slots room (keys ++ []) := by rw [List.append_nil]
    _ = keys ++ fit weight (slots - keys.length) (room - load weight keys) [] :=
      fit_append short light
    _ = keys := by rw [fit, List.append_nil]

theorem fit_take : fit weight slots room (keys.take slots) = fit weight slots room keys := by
  induction keys generalizing slots room with
  | nil => rw [List.take_nil]
  | cons key keys ih =>
      cases slots with
      | zero => simp [fit]
      | succ slots => rw [List.take_succ_cons, fit, fit, Nat.add_sub_cancel, ih]

/-- When the keys are too heavy together, the last one does not matter. -/
theorem fit_overweight (heavy : room < load weight (front ++ [key])) :
    fit weight slots room (front ++ [key]) = fit weight slots room front := by
  by_cases whole : fit weight slots room front = front
  · rcases fit_split weight slots room front with ⟨_, _, short, light, _⟩
    rw [whole] at short light
    simp only [load_append, load_cons, load_nil] at heavy
    rw [fit_append short light, fit, if_neg (by omega), List.append_nil, whole]
  · exact fit_cut whole

theorem mem_fit (distinct : (front ++ key :: rest).Nodup) :
    key ∈ fit weight slots room (front ++ key :: rest) ↔
      front.length < slots ∧ load weight front + weight key ≤ room := by
  have outside : key ∉ front := by
    intro member
    exact (List.nodup_append.mp distinct).2.2 key member key List.mem_cons_self rfl
  by_cases fits : front.length ≤ slots ∧ load weight front ≤ room
  · rw [fit_append fits.1 fits.2, List.mem_append, fit]
    by_cases next : 0 < slots - front.length ∧ weight key ≤ room - load weight front
    · rw [if_pos next]
      simp only [List.mem_cons, true_or, or_true, true_iff]
      omega
    · rw [if_neg next]
      simp only [outside, List.not_mem_nil, or_self, false_iff]
      omega
  · have cut : fit weight slots room front ≠ front := by
      intro whole
      rcases fit_split weight slots room front with ⟨_, _, short, light, _⟩
      rw [whole] at short light
      exact fits ⟨short, light⟩
    rw [fit_cut cut]
    have absent : key ∉ fit weight slots room front := fun member =>
      outside ((fit_front weight slots room front).subset member)
    simp only [absent, false_iff]
    omega

section Keyed

variable [DecidableEq κ]

/-- The distinct keys of requests given newest first, by their last request. -/
def recent : List κ → List κ
  | [] => []
  | key :: older => key :: (recent older).erase key

theorem recent_nodup (requests : List κ) : (recent requests).Nodup := by
  induction requests with
  | nil => exact List.nodup_nil
  | cons key older ih =>
      rw [recent, List.nodup_cons]
      exact ⟨ih.not_mem_erase, ih.erase key⟩

theorem mem_recent : key ∈ recent requests ↔ key ∈ requests := by
  induction requests with
  | nil => rfl
  | cons newest older ih =>
      rw [recent, List.mem_cons, List.mem_cons]
      by_cases same : key = newest
      · simp [same]
      · rw [List.mem_erase_of_ne same, ih]

theorem recent_split (requested : key ∈ requests) :
    ∃ front rest, recent requests = front ++ key :: rest ∧
      front.toFinset = (requests.takeWhile (· ≠ key)).toFinset := by
  induction requests with
  | nil => cases requested
  | cons newest older ih =>
      by_cases same : newest = key
      · subst newest
        exact ⟨[], (recent older).erase key, rfl, by simp⟩
      · have earlier : key ∈ older := by
          rcases List.mem_cons.mp requested with front | earlier
          · exact absurd front.symm same
          · exact earlier
        rcases ih earlier with ⟨front, rest, split, since⟩
        rw [recent, split, List.takeWhile_cons_of_pos (by simpa using same),
          List.toFinset_cons, ← since]
        by_cases repeated : newest ∈ front
        · refine ⟨newest :: front.erase newest, rest, ?_, ?_⟩
          · rw [List.erase_append_left _ repeated]
            rfl
          · have distinct : front.Nodup := by
              have whole := recent_nodup older
              rw [split] at whole
              exact whole.of_append_left
            ext other
            simp only [List.toFinset_cons, Finset.mem_insert, List.mem_toFinset,
              distinct.mem_erase_iff]
            by_cases equal : other = newest <;> simp [equal, repeated]
        · refine ⟨newest :: front, rest.erase newest, ?_, by simp⟩
          rw [List.erase_append_right _ repeated, List.erase_cons_tail (by simpa using Ne.symm same)]
          rfl

theorem load_erase (member : key ∈ keys) :
    load weight (keys.erase key) + weight key = load weight keys := by
  have order := (List.perm_cons_erase member).map weight
  have total := order.sum_eq
  simp only [load, total, List.map_cons, List.sum_cons]
  omega

/-- A key is held exactly when it was requested and it fits together with the keys
requested since. -/
theorem mem_fit_recent :
    key ∈ fit weight slots room (recent requests) ↔
      key ∈ requests ∧ (requests.takeWhile (· ≠ key)).toFinset.card < slots ∧
        weight key + ∑ other ∈ (requests.takeWhile (· ≠ key)).toFinset, weight other ≤ room := by
  by_cases requested : key ∈ requests
  · rcases recent_split requested with ⟨front, rest, split, since⟩
    have distinct := recent_nodup requests
    rw [split] at distinct
    have frontDistinct : front.Nodup := distinct.of_append_left
    rw [split, mem_fit distinct, ← since, List.toFinset_card_of_nodup frontDistinct,
      List.sum_toFinset weight frontDistinct, Nat.add_comm]
    simp only [requested, true_and, load]
  · have absent : key ∉ fit weight slots room (recent requests) := fun member =>
      requested (mem_recent.mp ((fit_front weight slots room _).subset member))
    simp only [absent, requested, false_and]

theorem fit_promote (held : key ∈ fit weight slots room keys) :
    fit weight slots room (key :: keys.erase key) =
      key :: (fit weight slots room keys).erase key := by
  rcases fit_split weight slots room keys with ⟨rest, split, short, light, stop⟩
  have order : keys.erase key = (fit weight slots room keys).erase key ++ rest := by
    conv_lhs => rw [split]
    exact List.erase_append_left rest held
  have lighter : load weight ((fit weight slots room keys).erase key) + weight key = _ :=
    load_erase held
  have length := List.length_erase_of_mem held
  have positive := List.length_pos_of_mem held
  rw [order, ← List.cons_append, fit_append]
  · have same : fit weight
        (slots - (key :: (fit weight slots room keys).erase key).length)
        (room - load weight (key :: (fit weight slots room keys).erase key)) rest = [] := by
      rw [List.length_cons, load_cons, length, Nat.sub_add_cancel positive, Nat.add_comm, lighter]
      exact stop
    rw [same, List.append_nil]
  · rw [List.length_cons]
    omega
  · rw [load_cons]
    omega

theorem fit_admit (absent : key ∉ fit weight slots room keys) (positive : 0 < slots)
    (light : weight key ≤ room) :
    fit weight slots room (key :: keys.erase key) =
      key :: fit weight (slots - 1) (room - weight key) (fit weight slots room keys) := by
  rcases fit_split weight slots room keys with ⟨rest, split, short, load_le, stop⟩
  have order : keys.erase key = fit weight slots room keys ++ rest.erase key := by
    conv_lhs => rw [split]
    exact List.erase_append_right rest absent
  rw [fit, if_pos ⟨positive, light⟩, order]
  congr 1
  by_cases whole : fit weight (slots - 1) (room - weight key) (fit weight slots room keys) =
      fit weight slots room keys
  · rcases fit_split weight (slots - 1) (room - weight key) (fit weight slots room keys) with
      ⟨_, _, shorter, lighter, _⟩
    rw [whole] at shorter lighter
    rw [whole, fit_append shorter lighter]
    -- what did not fit behind the held keys does not fit in front of the new one
    cases rest with
    | nil => simp [fit]
    | cons next rest =>
        have heavy : room - load weight (fit weight slots room keys) < weight next := by
          by_contra fits
          rw [fit, if_pos ⟨by omega, by omega⟩] at stop
          cases stop
        have different : next ≠ key := by
          rintro rfl
          omega
        rw [List.erase_cons_tail (by simpa using different), fit, if_neg (by omega),
          List.append_nil]
  · exact fit_cut whole

theorem fit_renew (held : key ∈ fit weight slots room keys) :
    fit weight slots room (key :: keys.erase key) =
      key :: fit weight (slots - 1) (room - weight key) ((fit weight slots room keys).erase key) := by
  rcases fit_split weight slots room keys with ⟨_, _, short, light, _⟩
  have lighter : load weight ((fit weight slots room keys).erase key) + weight key = _ :=
    load_erase held
  have length := List.length_erase_of_mem held
  have positive := List.length_pos_of_mem held
  have whole : fit weight (slots - 1) (room - weight key) ((fit weight slots room keys).erase key) =
      (fit weight slots room keys).erase key := fit_whole (by omega) (by omega)
  rw [fit_promote held, whole]

end Keyed

end WeightedLru
