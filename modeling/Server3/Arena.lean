import Mathlib.Algebra.Ring.Nat
import Mathlib.Algebra.BigOperators.Group.Finset.Piecewise
import Mathlib.Algebra.BigOperators.Group.List.Basic
import Mathlib.Algebra.Order.BigOperators.Group.Finset
import Mathlib.Tactic.Common

/-! Lists used as growing stores: an item is allocated at the end, addressed by
its index and overwritten in place. Totals follow a single overwrite. -/

namespace Arena

variable {α : Type*}

def total (weight : α → Nat) (items : List α) : Nat := (items.map weight).sum

variable (weight : α → Nat)

@[simp] theorem total_nil : total weight [] = 0 := rfl

@[simp] theorem total_cons (item : α) (items : List α) :
    total weight (item :: items) = weight item + total weight items := by
  simp [total]

@[simp] theorem total_append (first second : List α) :
    total weight (first ++ second) = total weight first + total weight second := by
  simp [total]

theorem weight_le_total {items : List α} {index : Nat} {item : α}
    (present : items[index]? = some item) : weight item ≤ total weight items := by
  induction items generalizing index with
  | nil => simp at present
  | cons head tail ih =>
      cases index with
      | zero =>
          simp only [List.getElem?_cons_zero, Option.some.injEq] at present
          subst item
          simp
      | succ index =>
          have rest := ih (by simpa using present)
          simp only [total_cons]
          omega

theorem total_set {items : List α} {index : Nat} {old : α} (new : α)
    (present : items[index]? = some old) :
    total weight (items.set index new) + weight old = total weight items + weight new := by
  induction items generalizing index with
  | nil => simp at present
  | cons head tail ih =>
      cases index with
      | zero =>
          simp only [List.getElem?_cons_zero, Option.some.injEq] at present
          subst old
          simp only [List.set_cons_zero, total_cons]
          omega
      | succ index =>
          have rest := ih (by simpa using present)
          simp only [List.set_cons_succ, total_cons]
          omega

/-- A total after one overwrite, with other weights than before: no other item weighs
more, and the overwritten one pays the cost. -/
theorem total_spent {before after : α → Nat} {items : List α} {index cost : Nat} {old new : α}
    (present : items[index]? = some old) (paid : after new + cost ≤ before old)
    (others : ∀ other item, other ≠ index → items[other]? = some item → after item ≤ before item) :
    total after (items.set index new) + cost ≤ total before items := by
  induction items generalizing index with
  | nil => simp at present
  | cons head tail ih =>
      cases index with
      | zero =>
          simp only [List.getElem?_cons_zero, Option.some.injEq] at present
          subst old
          have rest : total after tail ≤ total before tail := by
            apply List.sum_le_sum
            intro item member
            rcases List.getElem?_of_mem member with ⟨other, found⟩
            exact others (other + 1) item (Nat.succ_ne_zero other) (by simpa using found)
          simp only [List.set_cons_zero, total_cons]
          omega
      | succ index =>
          have front := others 0 head (Nat.succ_ne_zero index).symm rfl
          have rest := ih (by simpa using present) fun other item different found =>
            others (other + 1) item (by omega) (by simpa using found)
          simp only [List.set_cons_succ, total_cons]
          omega

theorem sum_picked_le {indices : List Nat} (weights : List Nat) (distinct : indices.Nodup) :
    (indices.map fun index => (weights[index]?).getD 0).sum ≤ weights.sum := by
  induction indices generalizing weights with
  | nil => simp
  | cons index rest ih =>
      obtain ⟨absent, distinct⟩ := List.nodup_cons.mp distinct
      rw [List.map_cons, List.sum_cons]
      cases present : weights[index]? with
      | none =>
          rw [Option.getD_none, Nat.zero_add]
          exact ih weights distinct
      | some weight =>
          -- the other indices do not see the picked weight
          have unchanged : (rest.map fun other => (weights[other]?).getD 0) =
              rest.map fun other => ((weights.set index 0)[other]?).getD 0 := by
            apply List.map_congr_left
            intro other member
            rw [List.getElem?_set_ne]
            rintro rfl
            exact absent member
          have smaller := ih (weights.set index 0) distinct
          have taken := total_set id 0 present
          simp only [total, List.map_id, id_eq] at taken
          rw [unchanged, Option.getD_some]
          omega

theorem picked_le_total {items : List α} {indices : List Nat} (distinct : indices.Nodup) :
    (indices.map fun index => ((items[index]?).map weight).getD 0).sum ≤ total weight items := by
  have bound := sum_picked_le (items.map weight) distinct
  simp only [List.getElem?_map] at bound
  exact bound

/-- The share of one key in a total. -/
def share {κ : Type*} [DecidableEq κ] (weight : α → Nat) (key : α → κ) (owner : κ)
    (items : List α) : Nat :=
  total (fun item => if key item = owner then weight item else 0) items

theorem total_by_key {κ : Type*} [DecidableEq κ] {key : α → κ} {keys : Finset κ} {items : List α}
    (known : ∀ item ∈ items, key item ∈ keys) :
    total weight items = ∑ owner ∈ keys, share weight key owner items := by
  induction items with
  | nil => simp [share]
  | cons head tail ih =>
      have first := known head List.mem_cons_self
      have rest := ih fun item member => known item (List.mem_cons_of_mem _ member)
      simp only [share, total_cons, Finset.sum_add_distrib, Finset.sum_ite_eq, if_pos first] at rest ⊢
      rw [rest]

theorem total_zero {items : List α} (nothing : ∀ item ∈ items, weight item = 0) :
    total weight items = 0 := by
  induction items with
  | nil => rfl
  | cons head tail ih =>
      rw [total_cons, nothing head List.mem_cons_self,
        ih fun item member => nothing item (List.mem_cons_of_mem _ member)]

theorem total_filter (chosen : α → Prop) [DecidablePred chosen] (items : List α) :
    total (fun item => if chosen item then weight item else 0) items =
      total weight (items.filter chosen) := by
  induction items with
  | nil => rfl
  | cons head tail ih =>
      rw [total_cons, ih, List.filter_cons]
      by_cases first : chosen head <;> simp [first]

theorem total_single {items : List α} {index : Nat} {item : α} (present : items[index]? = some item)
    (alone : ∀ other someItem, items[other]? = some someItem → other ≠ index →
      weight someItem = 0) : total weight items = weight item := by
  induction items generalizing index with
  | nil => simp at present
  | cons head tail ih =>
      cases index with
      | zero =>
          simp only [List.getElem?_cons_zero, Option.some.injEq] at present
          subst item
          rw [total_cons, total_zero, Nat.add_zero]
          intro other member
          rcases List.getElem?_of_mem member with ⟨place, found⟩
          exact alone (place + 1) other (by simpa using found) (Nat.succ_ne_zero place)
      | succ index =>
          have headAlone := alone 0 head (by simp) (Nat.succ_ne_zero index).symm
          rw [total_cons, headAlone, Nat.zero_add]
          apply ih (by simpa using present)
          intro other someItem found different
          exact alone (other + 1) someItem (by simpa using found) (by omega)

theorem countP_single {chosen : α → Bool} {items : List α} (index : Nat)
    (alone : ∀ (other : Nat) item, items[other]? = some item → chosen item = true → other = index) :
    items.countP chosen ≤ 1 := by
  induction items generalizing index with
  | nil => exact Nat.zero_le 1
  | cons head tail ih =>
      rw [List.countP_cons]
      by_cases first : chosen head = true
      · obtain rfl : 0 = index := alone 0 head rfl first
        have rest : tail.countP chosen = 0 := by
          apply List.countP_eq_zero.mpr
          intro item member also
          rcases List.getElem?_of_mem member with ⟨place, found⟩
          exact absurd (alone (place + 1) item (by simpa using found) also) (Nat.succ_ne_zero place)
        rw [rest, if_pos first]
      · rw [if_neg first]
        apply ih (index - 1)
        intro other item found also
        exact Nat.eq_sub_of_add_eq (alone (other + 1) item (by simpa using found) also)

/-- Two properties together are had no more often than two others that follow from them. -/
theorem countP_exchange {one two three four : α → Bool} {items : List α}
    (first : ∀ item ∈ items, one item = true → three item = true)
    (second : ∀ item ∈ items, two item = true → three item = true)
    (both : ∀ item ∈ items, one item = true → two item = true → four item = true) :
    items.countP one + items.countP two ≤ items.countP three + items.countP four := by
  induction items with
  | nil => exact Nat.le_refl _
  | cons head tail ih =>
      have rest := ih (fun item member => first item (List.mem_cons_of_mem _ member))
        (fun item member => second item (List.mem_cons_of_mem _ member))
        (fun item member => both item (List.mem_cons_of_mem _ member))
      have here := first head List.mem_cons_self
      have also := second head List.mem_cons_self
      have shared := both head List.mem_cons_self
      simp only [List.countP_cons]
      by_cases has : one head = true
      · by_cases alsoHas : two head = true
        · rw [if_pos has, if_pos alsoHas, if_pos (here has), if_pos (shared has alsoHas)]
          omega
        · rw [if_pos has, if_neg alsoHas, if_pos (here has)]
          omega
      · by_cases alsoHas : two head = true
        · rw [if_neg has, if_pos alsoHas, if_pos (also alsoHas)]
          omega
        · rw [if_neg has, if_neg alsoHas]
          omega

theorem countP_set (chosen : α → Bool) {items : List α} {index : Nat} {old : α} (new : α)
    (present : items[index]? = some old) :
    (items.set index new).countP chosen + (chosen old).toNat =
      items.countP chosen + (chosen new).toNat := by
  induction items generalizing index with
  | nil => simp at present
  | cons head tail ih =>
      cases index with
      | zero =>
          simp only [List.getElem?_cons_zero, Option.some.injEq] at present
          subst old
          rw [List.set_cons_zero, List.countP_cons, List.countP_cons]
          cases chosen head <;> cases chosen new <;> simp
      | succ index =>
          have rest := ih (by simpa using present)
          rw [List.set_cons_succ, List.countP_cons, List.countP_cons]
          omega

section Shares

variable {weight} {κ : Type*} [DecidableEq κ] {key : α → κ} {owner : κ} {items : List α}

theorem share_zero (nothing : ∀ (index : Nat) item, items[index]? = some item →
    key item = owner → weight item = 0) : share weight key owner items = 0 := by
  apply total_zero
  intro item member
  rcases List.getElem?_of_mem member with ⟨index, present⟩
  rw [ite_eq_right_iff]
  exact nothing index item present

theorem share_le {bound : Nat}
    (one : ∀ (first second : Nat) item other, items[first]? = some item →
      items[second]? = some other → key item = owner → key other = owner →
        weight item ≠ 0 → weight other ≠ 0 → first = second)
    (each : ∀ (index : Nat) item, items[index]? = some item → key item = owner →
      weight item ≤ bound) : share weight key owner items ≤ bound := by
  by_cases nothing : ∀ (index : Nat) item, items[index]? = some item → key item = owner →
      weight item = 0
  · rw [share_zero nothing]
    exact Nat.zero_le bound
  · simp only [not_forall] at nothing
    rcases nothing with ⟨index, item, present, same, positive⟩
    have alone := total_single (fun item => if key item = owner then weight item else 0) present
      (by
        intro other someItem found different
        rw [ite_eq_right_iff]
        intro alsoSame
        by_contra alsoPositive
        exact different (one other index someItem item found present alsoSame same alsoPositive
          positive))
    rw [share, alone, if_pos same]
    exact each index item present same

end Shares

theorem get_set {items : List α} {index : Nat} {old : α} (new : α)
    (present : items[index]? = some old) (other : Nat) :
    (items.set index new)[other]? = if index = other then some new else items[other]? := by
  have bound : index < items.length := (List.getElem?_eq_some_iff.mp present).1
  rw [List.getElem?_set]
  by_cases same : index = other
  · subst other
    simp [bound]
  · simp [same]

theorem get_set_self {items : List α} {index : Nat} {old : α} (new : α)
    (present : items[index]? = some old) : (items.set index new)[index]? = some new := by
  rw [get_set new present, if_pos rfl]

theorem get_set_other (items : List α) {index other : Nat} (new : α) (different : index ≠ other) :
    (items.set index new)[other]? = items[other]? := by
  rw [List.getElem?_set, if_neg different]

theorem set_same {items : List α} {index : Nat} {item : α} (present : items[index]? = some item) :
    items.set index item = items := by
  apply List.ext_getElem?
  intro other
  rw [get_set item present]
  split
  · rename_i same
    exact (same ▸ present).symm
  · rfl

theorem modify_present {items : List α} {index : Nat} {old : α} (change : α → α)
    (present : items[index]? = some old) : items.modify index change = items.set index (change old) := by
  apply List.ext_getElem?
  intro other
  rw [get_set _ present, List.getElem?_modify]
  by_cases same : index = other
  · subst other
    simp [present]
  · simp [same]

theorem get_lt {items : List α} {index : Nat} {item : α} (present : items[index]? = some item) :
    index < items.length := (List.getElem?_eq_some_iff.mp present).1

theorem get_append_old {items : List α} {index : Nat} {item : α} (extra : List α)
    (present : items[index]? = some item) : (items ++ extra)[index]? = some item := by
  rw [List.getElem?_append_left (get_lt present)]
  exact present

theorem get_append_split {items extra : List α} {index : Nat} {item : α}
    (present : (items ++ extra)[index]? = some item) :
    items[index]? = some item ∨ (items.length ≤ index ∧ item ∈ extra) := by
  rw [List.getElem?_append] at present
  split at present
  · exact Or.inl present
  · exact Or.inr ⟨by omega, List.mem_of_getElem? present⟩

theorem get_append_new (items : List α) (item : α) :
    (items ++ [item])[items.length]? = some item := by simp

theorem get_append_cases {items : List α} {index : Nat} {fresh item : α}
    (present : (items ++ [fresh])[index]? = some item) :
    items[index]? = some item ∨ (index = items.length ∧ item = fresh) := by
  rcases Nat.lt_trichotomy index items.length with inside | atEnd | outside
  · left
    rwa [List.getElem?_append_left inside] at present
  · right
    subst index
    exact ⟨rfl, by simpa using present.symm⟩
  · have short : (items ++ [fresh]).length ≤ index := by
      simp only [List.length_append, List.length_singleton]
      omega
    rw [List.getElem?_eq_none short] at present
    cases present

section Picked

variable {β : Type*}

theorem filterMap_range (pick : α → Option β) (items : List α) :
    items.filterMap pick =
      (List.range items.length).filterMap fun index => (items[index]?).bind pick := by
  induction items using List.reverseRecOn with
  | nil => rfl
  | append_singleton items item ih =>
      have front : (List.range items.length).filterMap (fun index =>
          ((items ++ [item])[index]?).bind pick) =
            (List.range items.length).filterMap fun index => (items[index]?).bind pick := by
        apply List.filterMap_congr
        intro index member
        rw [List.getElem?_append_left (List.mem_range.mp member)]
      rw [List.length_append, List.length_singleton, List.range_succ, List.filterMap_append,
        List.filterMap_append, front, ih]
      simp [List.filterMap_cons]

theorem filterMap_perm (pick : Nat → Option β) {first second : List Nat} (one : first.Nodup)
    (two : second.Nodup) (same : ∀ index, (pick index).isSome → (index ∈ first ↔ index ∈ second)) :
    (first.filterMap pick).Perm (second.filterMap pick) := by
  have only (indices : List Nat) :
      indices.filterMap pick = (indices.filter fun index => (pick index).isSome).filterMap pick := by
    rw [List.filterMap_filter]
    apply List.filterMap_congr
    intro index _
    cases pick index <;> rfl
  rw [only first, only second]
  apply List.Perm.filterMap
  rw [List.perm_ext_iff_of_nodup (one.filter _) (two.filter _)]
  intro index
  simp only [List.mem_filter]
  constructor
  · rintro ⟨member, found⟩
    exact ⟨(same index found).mp member, found⟩
  · rintro ⟨member, found⟩
    exact ⟨(same index found).mpr member, found⟩

theorem picked_perm (pick : α → Option β) {items : List α} {indices : List Nat}
    (distinct : indices.Nodup) (covers : ∀ (index : Nat) item, items[index]? = some item →
      (pick item).isSome → index ∈ indices) :
    (items.filterMap pick).Perm (indices.filterMap fun index => (items[index]?).bind pick) := by
  rw [filterMap_range]
  apply filterMap_perm _ List.nodup_range distinct
  intro index found
  cases present : items[index]? with
  | none => simp [present] at found
  | some item =>
      simp only [present, Option.bind_some] at found
      exact iff_of_true (List.mem_range.mpr (get_lt present)) (covers index item present found)

end Picked

end Arena
