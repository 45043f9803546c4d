import Mathlib.Data.List.Basic
import Mathlib.Tactic.TypeStar

/-!
# Interleaved operations

The operations of two processes in any interleaving, and what is there in the end whatever the
interleaving was: a state that goes through stages none of which any operation takes back.
-/

namespace Interleave
variable {σ α : Type*}

/-- The third list is the first two, each in its own order. -/
inductive Interleaving : List α → List α → List α → Prop where
  | nil : Interleaving [] [] []
  | left {a : α} {l r w : List α} (rest : Interleaving l r w) : Interleaving (a :: l) r (a :: w)
  | right {a : α} {l r w : List α} (rest : Interleaving l r w) : Interleaving l (a :: r) (a :: w)

theorem Interleaving.sublist_left {l r w : List α} (interleaving : Interleaving l r w) : l.Sublist w := by
  induction interleaving with
  | nil => exact List.Sublist.slnil
  | left _ ih => exact ih.cons_cons _
  | right _ ih => exact ih.cons _

theorem Interleaving.mem {l r w : List α} (interleaving : Interleaving l r w) {a : α} (member : a ∈ w) : a ∈ l ∨ a ∈ r := by
  induction interleaving with
  | nil => cases member
  | left _ ih =>
    rcases List.mem_cons.mp member with rfl | later
    · exact Or.inl List.mem_cons_self
    · exact (ih later).imp_left (List.mem_cons_of_mem _)
  | right _ ih =>
    rcases List.mem_cons.mp member with rfl | later
    · exact Or.inr List.mem_cons_self
    · exact (ih later).imp_right (List.mem_cons_of_mem _)

/-- One process after the other. -/
theorem Interleaving.append (l r : List α) : Interleaving l r (l ++ r) := by
  induction l with
  | nil =>
    induction r with
    | nil => exact .nil
    | cons a r ih => exact .right ih
  | cons a l ih => exact .left ih

variable (step : σ → α → σ)

/-- No operation of the list takes `P` back. -/
def Keeps (w : List α) (P : σ → Prop) : Prop := ∀ a ∈ w, ∀ s, P s → P (step s a)

variable {step}

theorem Keeps.foldl {w : List α} {P : σ → Prop} (keeps : Keeps step w P) {s : σ} (h : P s) : P (w.foldl step s) := by
  induction w generalizing s with
  | nil => exact h
  | cons a w ih =>
    exact ih (fun b member => keeps b (List.mem_cons_of_mem a member)) (keeps a List.mem_cons_self s h)

/-- Each operation leads from the stage before it to its own. -/
def Linked (step : σ → α → σ) : (σ → Prop) → List (α × (σ → Prop)) → Prop
  | _, [] => True
  | P, (a, Q) :: stages => (∀ s, P s → Q (step s a)) ∧ Linked step Q stages

def lastStage : (σ → Prop) → List (α × (σ → Prop)) → σ → Prop
  | P, [] => P
  | _, (_, Q) :: stages => lastStage Q stages

theorem stages_reached (step : σ → α → σ) (P : σ → Prop) (stages : List (α × (σ → Prop))) {w : List α} {s : σ}
    (order : (stages.map Prod.fst).Sublist w) (first : Keeps step w P) (keeps : ∀ stage ∈ stages, Keeps step w stage.2)
    (linked : Linked step P stages) (h : P s) : lastStage P stages (w.foldl step s) := by
  induction stages generalizing P w s with
  | nil => exact first.foldl h
  | cons stage stages ih =>
    obtain ⟨a, Q⟩ := stage
    obtain ⟨before, after, rfl, member, rest⟩ := List.cons_sublist_iff.mp order
    obtain ⟨early, late, rfl⟩ := List.append_of_mem member
    have inside : ∀ b ∈ late ++ after, b ∈ early ++ a :: late ++ after := by
      intro b found
      rw [List.append_assoc]
      exact List.mem_append_right _ (List.mem_cons_of_mem _ found)
    have there : P (early.foldl step s) := Keeps.foldl (fun b found => first b (by simp [found])) h
    have next := ih Q (rest.trans (List.sublist_append_right late after))
      (fun b found => keeps _ List.mem_cons_self b (inside b found))
      (fun stage found b within => keeps stage (List.mem_cons_of_mem _ found) b (inside b within)) linked.2
      (linked.1 _ there)
    rw [lastStage]
    simpa [List.foldl_append] using next

end Interleave
