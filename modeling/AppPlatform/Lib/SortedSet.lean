import Mathlib.Data.List.Sort
import Mathlib.Data.Int.Order.Basic
import Mathlib.Tactic.TypeStar

/-!
# Sorted sets

The part of a Valkey sorted set that a log of times needs: every member has one score, and the entries are
in the order of their scores. The order of equal scores is not observed.
-/

structure SortedSet (α : Type*) where
  entries : List (ℤ × α)
  sorted : entries.Pairwise fun a b => a.1 ≤ b.1
  unique : (entries.map Prod.snd).Nodup

namespace SortedSet
variable {α : Type*}

def empty : SortedSet α := ⟨[], .nil, .nil⟩

instance : Membership (ℤ × α) (SortedSet α) := ⟨fun s e => e ∈ s.entries⟩

theorem mem_def {s : SortedSet α} {e : ℤ × α} : e ∈ s ↔ e ∈ s.entries := Iff.rfl

@[simp] theorem notMem_empty (e : ℤ × α) : e ∉ (empty : SortedSet α) := List.not_mem_nil

theorem eq_of_member {s : SortedSet α} {e e' : ℤ × α} (member : e ∈ s) (member' : e' ∈ s) (same : e.2 = e'.2) : e = e' :=
  List.inj_on_of_nodup_map s.unique member member' same

def filter (s : SortedSet α) (p : ℤ × α → Bool) : SortedSet α where
  entries := s.entries.filter p
  sorted := s.sorted.filter p
  unique := s.unique.sublist (List.filter_sublist.map _)

@[simp] theorem mem_filter {s : SortedSet α} {p : ℤ × α → Bool} {e : ℤ × α} : e ∈ s.filter p ↔ e ∈ s ∧ p e = true :=
  List.mem_filter

/-- `ZCARD`. -/
def card (s : SortedSet α) : ℕ := s.entries.length

theorem length_le_card {s : SortedSet α} {l : List (ℤ × α)} (nodup : l.Nodup)
    (inside : ∀ e ∈ l, e ∈ s) : l.length ≤ s.card :=
  (List.subperm_of_subset nodup inside).length_le

/-- `ZREMRANGEBYSCORE -inf bound`. -/
def removeUpTo (s : SortedSet α) (bound : ℤ) : SortedSet α := s.filter fun e => bound < e.1

@[simp] theorem mem_removeUpTo {s : SortedSet α} {bound : ℤ} {e : ℤ × α} : e ∈ s.removeUpTo bound ↔
    e ∈ s ∧ bound < e.1 := by
  simp [removeUpTo]

/-- `ZRANGE 0 0`. -/
def first? (s : SortedSet α) : Option (ℤ × α) := s.entries.head?

theorem card_filter_le (s : SortedSet α) (p : ℤ × α → Bool) : (s.filter p).card ≤ s.card := List.length_filter_le p s.entries

theorem card_removeUpTo_lt {s : SortedSet α} {bound : ℤ} {e : ℤ × α} (inside : e ∈ s) (old : e.1 ≤ bound) :
    (s.removeUpTo bound).card < s.card := by
  refine List.length_filter_lt_length_iff_exists.mpr ⟨e, inside, ?_⟩
  rw [decide_eq_true_eq]
  omega

theorem first?_isSome {s : SortedSet α} (some : 0 < s.card) : ∃ e, s.first? = .some e := by
  obtain ⟨e, rest, shape⟩ := List.exists_cons_of_ne_nil (List.length_pos_iff.mp some)
  exact ⟨e, congrArg List.head? shape⟩

/-- The first entry is the oldest. -/
theorem first?_le {s : SortedSet α} {e : ℤ × α} (first : s.first? = some e) : e ∈ s ∧ ∀ e' ∈ s, e.1 ≤ e'.1 := by
  obtain ⟨rest, shape⟩ := List.head?_eq_some_iff.mp first
  have sorted := s.sorted
  rw [shape] at sorted
  refine ⟨mem_def.mpr (shape ▸ List.mem_cons_self), fun e' inside => ?_⟩
  rw [mem_def, shape] at inside
  rcases List.mem_cons.mp inside with rfl | later
  · exact le_rfl
  · exact (List.pairwise_cons.mp sorted).1 e' later

variable [DecidableEq α]

/-- `ZREM`. -/
def remove (s : SortedSet α) (member : α) : SortedSet α := s.filter fun e => e.2 ≠ member

@[simp] theorem mem_remove {s : SortedSet α} {member : α} {e : ℤ × α} : e ∈ s.remove member ↔ e ∈ s ∧ e.2 ≠ member := by
  simp [remove]

/-- `ZADD`: a member that is there already gets the new score. -/
def add (s : SortedSet α) (score : ℤ) (member : α) : SortedSet α where
  entries := (s.remove member).entries.orderedInsert (fun a b => a.1 ≤ b.1) (score, member)
  sorted := by
    have sorted := (s.remove member).sorted
    generalize (s.remove member).entries = entries at sorted ⊢
    induction entries with
    | nil => exact List.pairwise_singleton ..
    | cons head rest ih =>
      obtain ⟨below, later⟩ := List.pairwise_cons.mp sorted
      rw [List.orderedInsert_cons]
      split
      · rename_i first
        refine List.pairwise_cons.mpr ⟨?_, sorted⟩
        intro e member
        rcases List.mem_cons.mp member with rfl | deep
        · exact first
        · exact le_trans first (below e deep)
      · rename_i after
        refine List.pairwise_cons.mpr ⟨?_, ih later⟩
        intro e member
        rcases List.mem_orderedInsert _ |>.mp member with rfl | deep
        · exact le_of_lt (not_le.mp after)
        · exact below e deep
  unique := by
    have kept := (s.remove member).unique
    have fresh : member ∉ (s.remove member).entries.map Prod.snd := by
      intro present
      obtain ⟨e, here, same⟩ := List.mem_map.mp present
      exact (mem_remove.mp here).2 same
    exact ((List.perm_orderedInsert _ _ _).map Prod.snd).nodup_iff.mpr (List.nodup_cons.mpr ⟨fresh, kept⟩)

@[simp] theorem mem_add {s : SortedSet α} {score : ℤ} {member : α} {e : ℤ × α} :
    e ∈ s.add score member ↔ e = (score, member) ∨ e ∈ s ∧ e.2 ≠ member := by
  rw [mem_def, add, List.mem_orderedInsert, ← mem_def, mem_remove]

theorem card_add_le (s : SortedSet α) (score : ℤ) (member : α) : (s.add score member).card ≤ s.card + 1 := by
  rw [card, add, List.orderedInsert_length]
  exact Nat.succ_le_succ (card_filter_le s _)

end SortedSet
