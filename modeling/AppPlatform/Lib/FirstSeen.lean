import Mathlib.Data.List.Induction
import Mathlib.Data.List.Nodup
import Mathlib.Tactic.TypeStar

/-!
# The first values of a history

The first `n` distinct values of a list, and how they grow with it. A value that was among them when it came stays among them,
and one that came too late never joins them.
-/

namespace FirstSeen
variable {α : Type*} [BEq α] [LawfulBEq α]

/-- The first `n` distinct values, in the order they came. -/
def firsts (n : ℕ) (history : List α) : List α := history.eraseDups.take n

theorem eraseDups_snoc (history : List α) (a : α) :
    (history ++ [a]).eraseDups = if a ∈ history then history.eraseDups else history.eraseDups ++ [a] := by
  rw [List.eraseDups_append]
  split
  · rename_i seen
    simp [List.removeAll, seen]
  · rename_i fresh
    simp [List.removeAll, fresh, List.eraseDups_cons]

theorem eraseDups_nodup (history : List α) : history.eraseDups.Nodup := by
  induction history using List.reverseRecOn with
  | nil => exact List.nodup_nil
  | append_singleton earlier a ih =>
    rw [eraseDups_snoc]
    split
    · exact ih
    · rename_i fresh
      refine List.nodup_append.mpr ⟨ih, List.nodup_singleton a, ?_⟩
      intro b old c new
      cases List.mem_singleton.mp new
      rintro rfl
      exact fresh (List.mem_eraseDups.mp old)

omit [LawfulBEq α] in
theorem length_firsts (n : ℕ) (history : List α) : (firsts n history).length ≤ n := List.length_take_le n _

theorem mem_of_firsts {n : ℕ} {history : List α} {a : α} (first : a ∈ firsts n history) : a ∈ history :=
  List.mem_eraseDups.mp (List.mem_of_mem_take first)

/-- A value joins the first ones when it comes, while there is room, or never. -/
theorem firsts_snoc (n : ℕ) (history : List α) (a : α) : firsts n (history ++ [a]) =
    if a ∈ firsts n history then firsts n history
    else if (firsts n history).length < n then firsts n history ++ [a] else firsts n history := by
  unfold firsts
  rw [eraseDups_snoc, List.length_take]
  by_cases seen : a ∈ history
  · rw [if_pos seen]
    split
    · rfl
    · rename_i late
      rw [if_neg]
      intro room
      rw [List.take_of_length_le (by omega)] at late
      exact late (List.mem_eraseDups.mpr seen)
  · have fresh : a ∉ history.eraseDups.take n := fun first => seen (mem_of_firsts first)
    rw [if_neg seen, if_neg fresh]
    split
    · rw [List.take_of_length_le (by simp only [List.length_append, List.length_singleton]; omega),
        List.take_of_length_le (by omega)]
    · rw [List.take_append_of_le_length (by omega)]

theorem firsts_extend (n : ℕ) (earlier later : List α) : firsts n earlier <+: firsts n (earlier ++ later) := by
  unfold firsts
  rw [List.eraseDups_append, List.take_append]
  exact List.prefix_append _ _

theorem mem_firsts_append {n : ℕ} {earlier later : List α} {a : α} (came : a ∈ earlier) :
    a ∈ firsts n (earlier ++ later) ↔ a ∈ firsts n earlier := by
  constructor
  · intro first
    have apart := eraseDups_nodup (earlier ++ later)
    rw [List.eraseDups_append] at apart
    rw [firsts, List.eraseDups_append, List.take_append] at first
    rcases List.mem_append.mp first with first | last
    · exact first
    · have new := List.mem_of_mem_take last
      exact absurd rfl ((List.nodup_append.mp apart).2.2 a (List.mem_eraseDups.mpr came) a new)
  · intro first
    exact (firsts_extend n earlier later).subset first

end FirstSeen
