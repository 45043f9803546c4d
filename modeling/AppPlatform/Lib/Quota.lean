import Mathlib.Data.List.Basic

/-!
# Serving until a quota

`served p n l` is the start of a list up to the `n`-th element with the property `p`, or the whole list
when it has fewer of them.
-/

namespace Quota
variable {α : Type*} (p : α → Bool)

def served : ℕ → List α → List α
  | 0, _ => []
  | _ + 1, [] => []
  | n + 1, x :: l => x :: served (if p x then n else n + 1) l

theorem served_nil (n : ℕ) : served p n [] = [] := by
  cases n <;> rfl

theorem served_cons {n : ℕ} (open_ : 0 < n) (x : α) (l : List α) :
    served p n (x :: l) = x :: served p (n - if p x then 1 else 0) l := by
  cases n with
  | zero => omega
  | succ n =>
    rw [served]
    cases p x <;> rfl

/-- The elements with the property that are served are the first `n`. -/
theorem served_filter (n : ℕ) (l : List α) : (served p n l).filter p = (l.filter p).take n := by
  induction l generalizing n with
  | nil => rw [served_nil, List.filter_nil, List.take_nil]
  | cons x l ih =>
    cases n with
    | zero => rfl
    | succ n =>
      rw [served, List.filter_cons, List.filter_cons]
      cases p x with
      | true => exact congrArg (x :: ·) (ih n)
      | false => exact ih (n + 1)

theorem mem_served {before : α → α → Prop} (asymm : ∀ a b, before a b → ¬before b a) {l : List α}
    (sorted : l.Pairwise before)
    {n : ℕ} {x : α} (member : x ∈ l) :
    x ∈ served p (n + 1) l ↔ ∀ last, (l.filter p)[n]? = some last → x = last ∨ before x last := by
  induction l generalizing n with
  | nil => cases member
  | cons a l ih =>
    obtain ⟨first, rest⟩ := List.pairwise_cons.mp sorted
    have apart : ∀ b ∈ l, b ≠ a ∧ ¬before b a := by
      intro b later
      refine ⟨?_, asymm _ _ (first b later)⟩
      intro same
      have below := first b later
      rw [same] at below
      exact asymm _ _ below below
    rw [served, List.filter_cons]
    rcases List.mem_cons.mp member with same | later
    · -- the head is always served
      rw [same]
      refine iff_of_true List.mem_cons_self ?_
      intro last found
      split at found
      · rcases List.mem_cons.mp (List.mem_of_getElem? found) with head | tail
        · exact .inl head.symm
        · exact .inr (first _ (List.mem_of_mem_filter tail))
      · exact .inr (first _ (List.mem_of_mem_filter (List.mem_of_getElem? found)))
    · obtain ⟨differs, notBefore⟩ := apart x later
      rw [List.mem_cons, or_iff_right differs]
      cases p a with
      | false => exact ih rest later
      | true =>
        cases n with
        | zero =>
          refine iff_of_false (by simp [served]) ?_
          intro all
          rcases all a rfl with same | below
          · exact differs same
          · exact notBefore below
        | succ n => exact ih rest later

end Quota
