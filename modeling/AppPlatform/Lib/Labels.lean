import Mathlib.Data.List.Basic
import Mathlib.Tactic.TypeStar

/-!
# Labels between separators

A list split at a separator: which part of the labels a suffix is.
-/

namespace Labels
variable {α : Type*}

theorem intercalate_append (sep : List α) {xs ys : List (List α)} (nonempty : xs ≠ []) (nonempty' : ys ≠ []) :
    sep.intercalate (xs ++ ys) = sep.intercalate xs ++ sep ++ sep.intercalate ys := by
  induction xs with
  | nil => exact absurd rfl nonempty
  | cons x xs ih =>
    rcases eq_or_ne xs [] with rfl | more
    · rw [List.singleton_append, List.intercalate_cons_of_ne_nil nonempty', List.intercalate_singleton]
    · rw [List.cons_append, List.intercalate_cons_of_ne_nil (List.append_ne_nil_of_left_ne_nil more ys),
        List.intercalate_cons_of_ne_nil more, ih more]
      simp only [List.append_assoc]

theorem mem_intercalate {a sep : α} {ls : List (List α)} (member : a ∈ [sep].intercalate ls) :
    a = sep ∨ ∃ l ∈ ls, a ∈ l := by
  induction ls with
  | nil => cases member
  | cons l ls ih =>
    rcases eq_or_ne ls [] with rfl | more
    · rw [List.intercalate_singleton] at member
      exact Or.inr ⟨l, List.mem_cons_self, member⟩
    · rw [List.intercalate_cons_of_ne_nil more, List.mem_append, List.mem_append] at member
      rcases member with (here | separator) | later
      · exact Or.inr ⟨l, List.mem_cons_self, here⟩
      · exact Or.inl (List.mem_singleton.mp separator)
      · rcases ih later with separator | ⟨l', found, inside⟩
        · exact Or.inl separator
        · exact Or.inr ⟨l', List.mem_cons_of_mem _ found, inside⟩

variable [BEq α] [LawfulBEq α]

theorem splitOn_injective (sep : α) {s t : List α} (same : s.splitOn sep = t.splitOn sep) : s = t := by
  have joined : [sep].intercalate (s.splitOn sep) = s := List.intercalate_splitOn sep
  rw [← joined, same, List.intercalate_splitOn]

theorem mem_labels (sep : α) {a : α} {t : List α} (member : a ∈ t) : a = sep ∨ ∃ l ∈ t.splitOn sep, a ∈ l := by
  have joined : [sep].intercalate (t.splitOn sep) = t := List.intercalate_splitOn sep
  rw [← joined] at member
  exact mem_intercalate member

/-- What follows a separator is the last labels, and not all of them. -/
theorem suffix_iff (sep : α) (h t : List α) :
    sep :: h <:+ t ↔ ∃ front, front ≠ [] ∧ t.splitOn sep = front ++ h.splitOn sep := by
  constructor
  · rintro ⟨s, rfl⟩
    exact ⟨s.splitOn sep, List.splitOn_ne_nil sep s, List.splitOn_append_cons_self s h⟩
  · rintro ⟨front, nonempty, labels⟩
    have joined := congrArg ([sep].intercalate ·) labels
    rw [List.intercalate_splitOn, intercalate_append [sep] nonempty (List.splitOn_ne_nil sep h), List.intercalate_splitOn,
      List.append_assoc] at joined
    exact ⟨_, joined.symm⟩

theorem not_mem_of_single {sep : α} {t l : List α} (single : t.splitOn sep = [l]) : sep ∉ t := by
  intro separator
  obtain ⟨s, r, rfl⟩ := List.append_of_mem separator
  rw [List.splitOn_append_cons_self] at single
  have count := congrArg List.length single
  have front := List.length_pos_iff.mpr (List.splitOn_ne_nil sep s)
  have back := List.length_pos_iff.mpr (List.splitOn_ne_nil sep r)
  rw [List.length_append, List.length_singleton] at count
  omega

/-- A list with one separator has two labels. -/
theorem splitOn_pair {sep : α} {t x y : List α} : t.splitOn sep = [x, y] ↔ t = x ++ sep :: y ∧ sep ∉ x ∧ sep ∉ y := by
  constructor
  · intro labels
    have joined : [sep].intercalate (t.splitOn sep) = t := List.intercalate_splitOn sep
    rw [labels, List.intercalate_cons_of_ne_nil (List.cons_ne_nil _ _), List.intercalate_singleton, List.append_assoc,
      List.singleton_append] at joined
    rw [← joined, List.splitOn_append_cons_self] at labels
    have first := List.splitOn_ne_nil sep x
    have second := List.splitOn_ne_nil sep y
    have lengths := congrArg List.length labels
    rw [List.length_append, List.length_cons, List.length_singleton] at lengths
    have positive := List.length_pos_iff.mpr first
    have positive' := List.length_pos_iff.mpr second
    obtain ⟨x', shape⟩ := List.length_eq_one_iff.mp (show (x.splitOn sep).length = 1 by omega)
    obtain ⟨y', shape'⟩ := List.length_eq_one_iff.mp (show (y.splitOn sep).length = 1 by omega)
    exact ⟨joined.symm, not_mem_of_single shape, not_mem_of_single shape'⟩
  · rintro ⟨rfl, plain, plain'⟩
    rw [List.splitOn_append_cons_self, List.splitOn_eq_singleton plain, List.splitOn_eq_singleton plain']
    rfl

end Labels
