import Server3.Recency
import Server3.Residence

/-! A map ordered by recency keeps its entries in the order of their last uses, whatever
is taken out of it in between. What it gives up was used before everything it keeps. -/

namespace WeightedLru

variable {κ : Type*} [DecidableEq κ] {uses keys : List κ} {key : κ}

theorem recent_pairwise (uses : List κ) :
    (recent uses).Pairwise fun newer older => uses.idxOf newer < uses.idxOf older := by
  induction uses with
  | nil => exact List.Pairwise.nil
  | cons latest earlier ih =>
      have distinct := recent_nodup earlier
      have other {key : κ} (member : key ∈ (recent earlier).erase latest) :
          (latest :: earlier).idxOf key = earlier.idxOf key + 1 :=
        List.idxOf_cons_ne _ (distinct.mem_erase_iff.mp member).1.symm
      rw [recent, List.pairwise_cons]
      constructor
      · intro key member
        rw [List.idxOf_cons_self, other member]
        exact Nat.succ_pos _
      · apply (ih.sublist List.erase_sublist).imp_of_mem
        intro newer older first second before
        rw [other first, other second]
        omega

theorem recent_front (ordered : keys.Sublist (recent uses)) (absent : key ∉ keys) :
    (key :: keys).Sublist (recent (key :: uses)) := by
  have rest := ordered.erase key
  rw [List.erase_of_not_mem absent] at rest
  exact rest.cons_cons key

theorem last_oldest (ordered : (keys ++ [key]).Sublist (recent uses)) :
    key ∈ uses ∧ ∀ other ∈ keys, uses.idxOf other < uses.idxOf key := by
  have order := (recent_pairwise uses).sublist ordered
  rw [List.pairwise_append] at order
  refine ⟨mem_recent.mp (ordered.subset (by simp)), ?_⟩
  intro other member
  exact order.2.2 other member key (List.mem_singleton_self key)

end WeightedLru

namespace Recency.LruCache

open WeightedLru (recent)

variable {κ ν : Type*} [DecidableEq κ] {cache rest : LruCache κ ν} {uses : List κ} {key : κ}
  {value : ν} {entry : κ × ν}

/-- The entries are in the order of the last uses of their keys, given newest first. -/
def Ordered (cache : LruCache κ ν) (uses : List κ) : Prop :=
  (cache.entries.map Prod.fst).Sublist (recent uses)

theorem ordered_new (capacity : Nat) (positive : 0 < capacity) :
    (new capacity positive : LruCache κ ν).Ordered [] := List.Sublist.refl []

theorem ordered_get_or_insert (ordered : cache.Ordered uses) (key : κ) (fresh : ν) :
    (cache.getOrInsertMutRef key fresh).cache.Ordered (key :: uses) := by
  by_cases present : key ∈ cache.entries.map Prod.fst
  · rcases List.mem_map.mp present with ⟨⟨owner, value⟩, member, same⟩
    change owner = key at same
    subst owner
    rw [Ordered, (get_or_insert_present fresh member).1, List.map_cons, others_keys]
    exact WeightedLru.recent_front (List.filter_sublist.trans ordered) (by simp)
  · rw [Ordered, (get_or_insert_absent fresh present).1, List.map_cons]
    have part := (List.take_sublist (cache.capacity - 1) cache.entries).map Prod.fst
    exact WeightedLru.recent_front (part.trans ordered) fun member => present (part.subset member)

theorem replace_keys (key : κ) (value : ν) :
    (cache.replace key value).entries.map Prod.fst = cache.entries.map Prod.fst := by
  rw [replace, List.map_map]
  apply List.map_congr_left
  intro entry _
  by_cases same : entry.1 = key <;> simp [same]

theorem ordered_replace (ordered : cache.Ordered uses) (key : κ) (value : ν) :
    (cache.replace key value).Ordered uses := by
  rw [Ordered, replace_keys]
  exact ordered

theorem ordered_pop (ordered : cache.Ordered uses) (popped : cache.popLru = some (entry, rest)) :
    rest.Ordered uses := by
  rw [Ordered, (pop_some popped).1, List.map_append] at ordered
  exact (List.sublist_append_left _ _).trans ordered

theorem popped_oldest (ordered : cache.Ordered uses)
    (popped : cache.popLru = some (entry, rest)) :
    entry.1 ∈ uses ∧ ∀ other ∈ rest.entries.map Prod.fst,
      uses.idxOf other < uses.idxOf entry.1 := by
  rw [Ordered, (pop_some popped).1, List.map_append] at ordered
  exact WeightedLru.last_oldest ordered

theorem displaced_oldest (ordered : cache.Ordered uses) (absent : key ∉ cache.entries.map Prod.fst)
    (gone : cache.displaced = some entry) (fresh : ν) :
    entry.1 ∈ uses ∧ ∀ other ∈ (cache.getOrInsertMutRef key fresh).cache.entries.map Prod.fst,
      (key :: uses).idxOf other < (key :: uses).idxOf entry.1 := by
  have split := displaced_split gone
  have whole := WeightedLru.recent_front ordered absent
  rw [split, List.map_append, ← List.cons_append] at whole
  have oldest := WeightedLru.last_oldest whole
  rw [(get_or_insert_absent fresh absent).1, List.map_cons]
  refine ⟨?_, oldest.2⟩
  rcases List.mem_cons.mp oldest.1 with same | used
  · exact absurd (same ▸ List.mem_map_of_mem (displaced_member gone)) absent
  · exact used

end Recency.LruCache
