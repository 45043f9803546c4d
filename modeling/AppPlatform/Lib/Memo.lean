import Mathlib.Data.List.AList

/-!
# A memo with a bound

A map in the order of insertion, with the oldest key last. Remembering one key more than the bound
forgets the oldest key.
-/

namespace Memo
variable {κ ν : Type*} [DecidableEq κ]

/-- `Map.prototype.size`. -/
def size (m : AList fun _ : κ => ν) : ℕ := m.keys.length

/-- `Map.prototype.set`: a key that is there keeps its place. -/
def put (k : κ) (v : ν) (m : AList fun _ : κ => ν) : AList fun _ : κ => ν :=
  if k ∈ m then m.replace k v else m.insert k v

/-- Make place for one key, by forgetting the oldest one. -/
def evict (bound : ℕ) (m : AList fun _ : κ => ν) : AList fun _ : κ => ν :=
  if bound ≤ size m then
    match m.keys.getLast? with
    | some oldest => m.erase oldest
    | none => m
  else m

def remember (bound : ℕ) (k : κ) (v : ν) (m : AList fun _ : κ => ν) : AList fun _ : κ => ν :=
  put k v (evict bound m)

theorem mem_put {k k' : κ} {v : ν} {m : AList fun _ : κ => ν} : k' ∈ put k v m ↔ k' = k ∨ k' ∈ m := by
  unfold put
  split
  · rename_i present
    rw [AList.mem_replace]
    constructor
    · exact Or.inr
    · rintro (rfl | member)
      · exact present
      · exact member
  · exact AList.mem_insert m

theorem mem_of_mem_evict {bound : ℕ} {k : κ} {m : AList fun _ : κ => ν} (member : k ∈ evict bound m) : k ∈ m := by
  unfold evict at member
  split at member
  · split at member
    · exact (AList.mem_erase.mp member).2
    · exact member
  · exact member

theorem notMem_remember {bound : ℕ} {k k' : κ} {v : ν} {m : AList fun _ : κ => ν} (differs : k' ≠ k) (absent : k' ∉ m) :
    k' ∉ remember bound k v m := by
  intro member
  rcases mem_put.mp member with same | old
  · exact differs same
  · exact absent (mem_of_mem_evict old)

theorem lookup_replace {k : κ} {v : ν} {m : AList fun _ : κ => ν} (present : k ∈ m) : (m.replace k v).lookup k = some v := by
  obtain ⟨entries, nodup⟩ := m
  have found : ∀ entries : List (Sigma fun _ : κ => ν), k ∈ entries.keys →
      (entries.kreplace k v).dlookup k = some v := by
    intro entries member
    induction entries with
    | nil => cases member
    | cons entry rest ih =>
      by_cases same : k = entry.1
      · rw [List.kreplace, List.lookmap_cons, if_pos same]
        exact List.dlookup_cons_eq ..
      · have later : k ∈ rest.keys := by
          rw [List.keys_cons] at member
          exact (List.mem_cons.mp member).resolve_left same
        rw [List.kreplace, List.lookmap_cons, if_neg same, List.dlookup_cons_ne _ _ same]
        exact ih later
  exact found entries present

theorem lookup_put_same (k : κ) (v : ν) (m : AList fun _ : κ => ν) : (put k v m).lookup k = some v := by
  unfold put
  split
  · rename_i present
    exact lookup_replace present
  · exact AList.lookup_insert _

theorem lookup_remember (bound : ℕ) (k : κ) (v : ν) (m : AList fun _ : κ => ν) :
    (remember bound k v m).lookup k = some v :=
  lookup_put_same k v _

theorem lookup_replace_ne {k k' : κ} {v : ν} {m : AList fun _ : κ => ν} (differs : k' ≠ k) :
    (m.replace k v).lookup k' = m.lookup k' := by
  obtain ⟨entries, nodup⟩ := m
  have found : ∀ entries : List (Sigma fun _ : κ => ν), (entries.kreplace k v).dlookup k' = entries.dlookup k' := by
    intro entries
    induction entries with
    | nil => rfl
    | cons entry rest ih =>
      by_cases same : k = entry.1
      · rw [List.kreplace, List.lookmap_cons, if_pos same]
        obtain ⟨key, value⟩ := entry
        rw [List.dlookup_cons_ne _ _ differs, List.dlookup_cons_ne _ _ (by rw [← same]; exact differs)]
      · rw [List.kreplace, List.lookmap_cons, if_neg same]
        by_cases here : k' = entry.1
        · obtain ⟨key, value⟩ := entry
          obtain rfl := here
          rw [List.dlookup_cons_eq, List.dlookup_cons_eq]
        · rw [List.dlookup_cons_ne _ _ here, List.dlookup_cons_ne _ _ here]
          exact ih
  exact found entries

theorem lookup_put_ne {k k' : κ} {v : ν} {m : AList fun _ : κ => ν} (differs : k' ≠ k) :
    (put k v m).lookup k' = m.lookup k' := by
  unfold put
  split
  · exact lookup_replace_ne differs
  · exact AList.lookup_insert_ne differs

theorem lookup_of_remember {bound : ℕ} {k k' : κ} {v w : ν} {m : AList fun _ : κ => ν} (differs : k' ≠ k)
    (found : (remember bound k v m).lookup k' = some w) : m.lookup k' = some w := by
  have kept : (evict bound m).lookup k' = some w := (lookup_put_ne differs).symm.trans found
  unfold evict at kept
  split at kept
  · split at kept
    · rename_i oldest _
      by_cases same : k' = oldest
      · rw [same, AList.lookup_erase] at kept
        cases kept
      · exact (AList.lookup_erase_ne same).symm.trans kept
    · exact kept
  · exact kept

theorem notMem_erase (k : κ) (m : AList fun _ : κ => ν) : k ∉ m.erase k := by
  intro member
  exact (AList.mem_erase.mp member).1 rfl

theorem size_put_le (k : κ) (v : ν) (m : AList fun _ : κ => ν) : size (put k v m) ≤ size m + 1 := by
  unfold put size
  split
  · rw [AList.keys_replace]
    omega
  · rename_i absent
    rw [AList.keys_insert, List.erase_of_not_mem (mt AList.mem_keys.mpr absent), List.length_cons]

theorem size_evict_lt {bound : ℕ} (positive : 0 < bound) {m : AList fun _ : κ => ν} (small : size m ≤ bound) :
    size (evict bound m) < bound := by
  unfold evict
  split
  · rename_i full
    cases last : m.keys.getLast? with
    | none =>
      have empty := List.getLast?_eq_none_iff.mp last
      simp [size, empty] at full
      omega
    | some oldest =>
      have member := List.mem_of_getLast? last
      have shorter := List.length_erase_of_mem member
      simp only [size, AList.keys_erase] at small full ⊢
      omega
  · omega

theorem size_erase_le (k : κ) (m : AList fun _ : κ => ν) : size (m.erase k) ≤ size m := by
  unfold size
  rw [AList.keys_erase]
  exact List.length_erase_le

theorem size_remember_le {bound : ℕ} (positive : 0 < bound) {k : κ} {v : ν} {m : AList fun _ : κ => ν}
    (small : size m ≤ bound) : size (remember bound k v m) ≤ bound := by
  have evicted := size_evict_lt positive small
  have added := size_put_le k v (evict bound m)
  unfold remember
  omega

end Memo
