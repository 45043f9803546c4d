import Mathlib.Data.List.Basic
import Mathlib.Data.List.Induction
import Mathlib.Data.List.TakeWhile
import Mathlib.Tactic.TypeStar

/-!
# Regular expressions with backtracking

Expressions over classes of units, with word boundaries and repetitions of one class. `run` tries the
alternatives in order, a greedy repetition with the longest run first, and hands each end of a match to what
comes next. `Derives` says which pieces a regex matches between two neighbours, without the order: a match is
found exactly when there is one.
-/

inductive Regex (α : Type*) where
  | empty
  | unit (p : α → Bool)
  /-- `\b` -/
  | boundary
  | seq (r s : Regex α)
  | alt (r s : Regex α)
  /-- `[...]*`, or `[...]*?` when it is not greedy. -/
  | many (greedy : Bool) (p : α → Bool)

namespace Regex
variable {α β : Type*}

def all : List (Regex α) → Regex α
  | [] => .empty
  | r :: rs => .seq r (all rs)

def oneOf : List (Regex α) → Regex α
  | [] => .unit fun _ => false
  | r :: rs => .alt r (oneOf rs)

/-- `r?` -/
def optional (r : Regex α) : Regex α := .alt r .empty

/-- `[...]+` -/
def some (p : α → Bool) : Regex α := .seq (.unit p) (.many true p)

def isBoundary (word : α → Bool) (prev next : Option α) : Bool := prev.any word != next.any word

def runMany (p : α → Bool) (greedy : Bool) (k : Option α → List α → Option β) : Option α → List α → Option β
  | prev, [] => k prev []
  | prev, u :: t =>
    let more := if p u then runMany p greedy k (.some u) t else none
    if greedy then more.or (k prev (u :: t)) else (k prev (u :: t)).or more

/-- Match at the head of the text, after the unit `prev`, and go on with `k`. -/
def run (word : α → Bool) : Regex α → Option α → List α → (Option α → List α → Option β) → Option β
  | .empty, prev, t, k => k prev t
  | .unit _, _, [], _ => none
  | .unit p, _, u :: t, k => if p u then k (.some u) t else none
  | .boundary, prev, t, k => if isBoundary word prev t.head? then k prev t else none
  | .seq r s, prev, t, k => run word r prev t fun prev t => run word s prev t k
  | .alt r s, prev, t, k => (run word r prev t k).or (run word s prev t k)
  | .many greedy p, prev, t, k => runMany p greedy k prev t

/-- What follows the match at the head of the text. -/
def exec (word : α → Bool) (r : Regex α) (prev : Option α) (t : List α) : Option (List α) :=
  run word r prev t fun _ rest => .some rest

/-! ### What is matched -/

/-- The unit before what follows the piece. -/
def lastOf (prev : Option α) (piece : List α) : Option α := piece.getLast?.or prev

/-- The unit after what comes before the piece. -/
def firstOf (piece : List α) (next : Option α) : Option α := piece.head?.or next

/-- The regex matches the piece between two neighbours. -/
inductive Derives (word : α → Bool) : Regex α → Option α → List α → Option α → Prop where
  | empty {prev next : Option α} : Derives word .empty prev [] next
  | unit {p : α → Bool} {u : α} {prev next : Option α} : p u = true → Derives word (.unit p) prev [u] next
  | boundary {prev next : Option α} : isBoundary word prev next = true → Derives word .boundary prev [] next
  | seq {r s : Regex α} {prev next : Option α} {a b : List α} : Derives word r prev a (firstOf b next) →
      Derives word s (lastOf prev a) b next → Derives word (.seq r s) prev (a ++ b) next
  | left {r s : Regex α} {prev next : Option α} {a : List α} : Derives word r prev a next → Derives word (.alt r s) prev a next
  | right {r s : Regex α} {prev next : Option α} {a : List α} : Derives word s prev a next → Derives word (.alt r s) prev a next
  | many {greedy : Bool} {p : α → Bool} {prev next : Option α} {a : List α} : (∀ u ∈ a, p u = true) →
      Derives word (.many greedy p) prev a next

variable {word : α → Bool} {r s : Regex α} {prev next : Option α} {a b t : List α}

@[simp] theorem lastOf_nil (prev : Option α) : lastOf prev [] = prev := rfl

@[simp] theorem firstOf_nil (next : Option α) : firstOf [] next = next := rfl

theorem lastOf_append (prev : Option α) (a b : List α) : lastOf prev (a ++ b) = lastOf (lastOf prev a) b := by
  unfold lastOf
  rw [List.getLast?_append, Option.or_assoc]

theorem lastOf_cons (prev : Option α) (u : α) (a : List α) : lastOf prev (u :: a) = lastOf (.some u) a := by
  rw [← List.singleton_append, lastOf_append]
  rfl

theorem firstOf_append (a b : List α) (next : Option α) : firstOf (a ++ b) next = firstOf a (firstOf b next) := by
  unfold firstOf
  rw [List.head?_append, Option.or_assoc]

theorem head?_append_firstOf (a b : List α) : (a ++ b).head? = firstOf a b.head? := List.head?_append

theorem runMany_some {p : α → Bool} {greedy : Bool} {k : Option α → List α → Option β} {x : β}
    (found : runMany p greedy k prev t = .some x) :
    ∃ a rest, t = a ++ rest ∧ (∀ u ∈ a, p u = true) ∧ k (lastOf prev a) rest = .some x := by
  have here : ∀ {prev t}, k prev t = .some x → ∃ a rest, t = a ++ rest ∧ (∀ u ∈ a, p u = true) ∧
    k (lastOf prev a) rest = .some x :=
    fun ends => ⟨[], _, rfl, List.forall_mem_nil _, ends⟩
  induction t generalizing prev with
  | nil => exact here found
  | cons u t ih =>
    have more : (if p u then runMany p greedy k (.some u) t else none) = .some x →
        ∃ a rest, u :: t = a ++ rest ∧ (∀ u ∈ a, p u = true) ∧ k (lastOf prev a) rest = .some x := by
      intro found
      split at found
      · rename_i matched
        obtain ⟨a, rest, rfl, units, ends⟩ := ih found
        refine ⟨u :: a, rest, rfl, List.forall_mem_cons.mpr ⟨matched, units⟩, ?_⟩
        rwa [lastOf_cons]
      · cases found
    unfold runMany at found
    dsimp only at found
    split at found
    · rcases Option.or_eq_some_iff.mp found with longer | ⟨_, ends⟩
      · exact more longer
      · exact here ends
    · rcases Option.or_eq_some_iff.mp found with ends | ⟨_, longer⟩
      · exact here ends
      · exact more longer

theorem run_some {k : Option α → List α → Option β} {x : β} (found : run word r prev t k = .some x) :
    ∃ a rest, t = a ++ rest ∧ Derives word r prev a rest.head? ∧ k (lastOf prev a) rest = .some x := by
  induction r generalizing prev t k with
  | empty => exact ⟨[], t, rfl, .empty, found⟩
  | unit p =>
    cases t with
    | nil => cases found
    | cons u t =>
      rw [run] at found
      split at found
      · rename_i matched
        exact ⟨[u], t, rfl, .unit matched, found⟩
      · cases found
  | boundary =>
    rw [run] at found
    split at found
    · rename_i matched
      exact ⟨[], t, rfl, .boundary matched, found⟩
    · cases found
  | seq r s ihr ihs =>
    obtain ⟨a, rest, rfl, first, found⟩ := ihr found
    obtain ⟨b, rest, rfl, second, ends⟩ := ihs found
    refine ⟨a ++ b, rest, (List.append_assoc _ _ _).symm, .seq ?_ second, ?_⟩
    · rwa [← head?_append_firstOf]
    · rwa [lastOf_append]
  | alt r s ihr ihs =>
    rw [run] at found
    rcases Option.or_eq_some_iff.mp found with left | ⟨_, right⟩
    · obtain ⟨a, rest, same, derives, ends⟩ := ihr left
      exact ⟨a, rest, same, .left derives, ends⟩
    · obtain ⟨a, rest, same, derives, ends⟩ := ihs right
      exact ⟨a, rest, same, .right derives, ends⟩
  | many greedy p =>
    obtain ⟨a, rest, same, units, ends⟩ := runMany_some found
    exact ⟨a, rest, same, .many units, ends⟩

theorem runMany_isSome {p : α → Bool} {greedy : Bool} {k : Option α → List α → Option β} {rest : List α}
    (units : ∀ u ∈ a, p u = true) (ends : (k (lastOf prev a) rest).isSome = true) :
    (runMany p greedy k prev (a ++ rest)).isSome = true := by
  induction a generalizing prev with
  | nil =>
    cases rest with
    | nil => exact ends
    | cons u rest =>
      rw [List.nil_append, runMany]
      split
      · rw [Option.isSome_or, show (k prev (u :: rest)).isSome = true from ends, Bool.or_true]
      · rw [Option.isSome_or, show (k prev (u :: rest)).isSome = true from ends, Bool.true_or]
  | cons u a ih =>
    obtain ⟨matched, units⟩ := List.forall_mem_cons.mp units
    rw [lastOf_cons] at ends
    have more : (runMany p greedy k (.some u) (a ++ rest)).isSome = true := ih units ends
    rw [List.cons_append, runMany]
    rw [if_pos matched]
    split
    · rw [Option.isSome_or, more, Bool.true_or]
    · rw [Option.isSome_or, more, Bool.or_true]

theorem run_isSome {k : Option α → List α → Option β} {rest : List α} (derives : Derives word r prev a rest.head?)
    (ends : (k (lastOf prev a) rest).isSome = true) : (run word r prev (a ++ rest) k).isSome = true := by
  induction r generalizing prev a k rest with
  | empty =>
    cases derives
    exact ends
  | unit p =>
    cases derives with
    | unit matched =>
      rw [List.singleton_append, run, if_pos matched]
      exact ends
  | boundary =>
    cases derives with
    | boundary matched =>
      rw [List.nil_append, run, if_pos matched]
      exact ends
  | seq r s ihr ihs =>
    cases derives with
    | @seq _ _ _ _ a b first second =>
      rw [List.append_assoc, run]
      rw [lastOf_append] at ends
      rw [← head?_append_firstOf] at first
      refine ihr first ?_
      exact ihs second ends
  | alt r s ihr ihs =>
    rw [run, Option.isSome_or]
    cases derives with
    | left derives => rw [ihr derives ends, Bool.true_or]
    | right derives => rw [ihs derives ends, Bool.or_true]
  | many greedy p =>
    cases derives with
    | many units => exact runMany_isSome units ends

theorem exec_some {rest : List α} (found : exec word r prev t = .some rest) :
    ∃ a, t = a ++ rest ∧ Derives word r prev a rest.head? := by
  obtain ⟨a, rest', same, derives, ends⟩ := run_some found
  obtain rfl := Option.some.inj ends
  exact ⟨a, same, derives⟩

theorem exec_isSome {rest : List α} (derives : Derives word r prev a rest.head?) : (exec word r prev (a ++ rest)).isSome = true :=
  run_isSome derives rfl

/-! ### Neighbours -/

def nullable : Regex α → Bool
  | .empty | .boundary | .many _ _ => true
  | .unit _ => false
  | .seq r s => r.nullable && s.nullable
  | .alt r s => r.nullable || s.nullable

/-- It may look at the unit before the match. -/
def looksBehind : Regex α → Bool
  | .empty | .unit _ | .many _ _ => false
  | .boundary => true
  | .seq r s => r.looksBehind || (r.nullable && s.looksBehind)
  | .alt r s => r.looksBehind || s.looksBehind

/-- It may look at the unit after the match. -/
def looksAhead : Regex α → Bool
  | .empty | .unit _ | .many _ _ => false
  | .boundary => true
  | .seq r s => s.looksAhead || (s.nullable && r.looksAhead)
  | .alt r s => r.looksAhead || s.looksAhead

theorem Derives.nullable (derives : Derives word r prev [] next) : r.nullable = true := by
  generalize nothing : ([] : List α) = piece at derives
  induction derives with
  | empty => rfl
  | unit _ => cases nothing
  | boundary _ => rfl
  | seq _ _ ihr ihs =>
    obtain ⟨first, second⟩ := List.append_eq_nil_iff.mp nothing.symm
    rw [Regex.nullable, ihr first.symm, ihs second.symm, Bool.and_true]
  | left _ ih => rw [Regex.nullable, ih nothing, Bool.true_or]
  | right _ ih => rw [Regex.nullable, ih nothing, Bool.or_true]
  | many _ => rfl

/-- Only what a regex looks at outside its match has to stay. -/
theorem Derives.context (derives : Derives word r prev a next) {prev' next' : Option α}
    (before : r.looksBehind = true → prev.any word = prev'.any word)
    (after : r.looksAhead = true → next.any word = next'.any word) : Derives word r prev' a next' := by
  induction derives generalizing prev' next' with
  | empty => exact .empty
  | unit matched => exact .unit matched
  | boundary matched =>
    refine .boundary ?_
    rwa [isBoundary, ← before rfl, ← after rfl]
  | @seq r s prev next a b first second ihr ihs =>
    refine .seq (ihr ?_ ?_) (ihs ?_ ?_)
    · exact fun looks => before (by rw [looksBehind, looks, Bool.true_or])
    · intro looks
      cases b with
      | nil => exact after (by rw [looksAhead, second.nullable, looks, Bool.and_true, Bool.or_true])
      | cons u b => rfl
    · intro looks
      cases a using List.reverseRecOn with
      | nil => exact before (by rw [looksBehind, first.nullable, looks, Bool.and_true, Bool.or_true])
      | append_singleton a u => simp [lastOf]
    · exact fun looks => after (by rw [looksAhead, looks, Bool.true_or])
  | left _ ih =>
    exact .left (ih (fun looks => before (by rw [looksBehind, looks, Bool.true_or]))
      fun looks => after (by rw [looksAhead, looks, Bool.true_or]))
  | right _ ih =>
    exact .right (ih (fun looks => before (by rw [looksBehind, looks, Bool.or_true]))
      fun looks => after (by rw [looksAhead, looks, Bool.or_true]))
  | many units => exact .many units

theorem Derives.unit_inv {p : α → Bool} (derives : Derives word (.unit p) prev a next) : ∃ u, a = [u] ∧ p u = true := by
  cases derives with
  | unit matched => exact ⟨_, rfl, matched⟩

theorem Derives.all_cons {rs : List (Regex α)} (derives : Derives word (all (r :: rs)) prev a next) :
    ∃ b c, a = b ++ c ∧ Derives word r prev b (firstOf c next) ∧ Derives word (all rs) (lastOf prev b) c next := by
  cases derives with
  | seq first second => exact ⟨_, _, rfl, first, second⟩

theorem Derives.all_append {rs ss : List (Regex α)} (derives : Derives word (all (rs ++ ss)) prev a next) :
    ∃ b c, a = b ++ c ∧ Derives word (all rs) prev b (firstOf c next) ∧ Derives word (all ss) (lastOf prev b) c next := by
  induction rs generalizing prev a with
  | nil => exact ⟨[], a, rfl, .empty, derives⟩
  | cons r rs ih =>
    obtain ⟨b, c, rfl, first, rest⟩ := derives.all_cons
    obtain ⟨d, e, rfl, second, third⟩ := ih rest
    refine ⟨b ++ d, e, (List.append_assoc _ _ _).symm, .seq ?_ second, ?_⟩
    · rwa [firstOf_append] at first
    · rwa [lastOf_append]

theorem Derives.append {rs ss : List (Regex α)} (first : Derives word (all rs) prev a (firstOf b next))
    (second : Derives word (all ss) (lastOf prev a) b next) : Derives word (all (rs ++ ss)) prev (a ++ b) next := by
  induction rs generalizing prev a with
  | nil =>
    cases first
    exact second
  | cons r rs ih =>
    obtain ⟨c, d, rfl, head, rest⟩ := first.all_cons
    rw [lastOf_append] at second
    rw [List.append_assoc]
    refine .seq ?_ (ih rest second)
    rwa [firstOf_append]

theorem Derives.oneOf_inv {rs : List (Regex α)} (derives : Derives word (oneOf rs) prev a next) :
    ∃ r ∈ rs, Derives word r prev a next := by
  induction rs with
  | nil =>
    obtain ⟨_, _, impossible⟩ := derives.unit_inv
    cases impossible
  | cons r rs ih =>
    cases derives with
    | left derives => exact ⟨r, List.mem_cons_self, derives⟩
    | right derives =>
      obtain ⟨s, member, derives⟩ := ih derives
      exact ⟨s, List.mem_cons_of_mem _ member, derives⟩

theorem run_all_append (rs ss : List (Regex α)) {k : Option α → List α → Option β} :
    run word (all (rs ++ ss)) prev t k = run word (all rs) prev t fun prev t => run word (all ss) prev t k := by
  induction rs generalizing prev t with
  | nil => rfl
  | cons r rs ih =>
    rw [List.cons_append, all, all, run, run]
    congr 1
    funext prev t
    exact ih

/-- A greedy repetition at the end takes all it can. -/
theorem runMany_greedy (p : α → Bool) (prev : Option α) (t : List α) :
    runMany p true (fun _ rest => .some rest) prev t = .some (t.dropWhile p) := by
  induction t generalizing prev with
  | nil => rfl
  | cons u t ih =>
    rw [runMany, List.dropWhile_cons, if_pos rfl, ih]
    split
    · rfl
    · rfl

theorem exec_some_ends {p : α → Bool} {rest : List α} (found : exec word (.some p) prev t = .some rest) :
    ∀ u ∈ rest.head?, p u = false := by
  cases t with
  | nil => cases found
  | cons u t =>
    rw [exec, Regex.some, run, run] at found
    split at found
    · rw [run, runMany_greedy] at found
      obtain rfl := Option.some.inj found
      intro v head
      have stops := List.head?_dropWhile_not p t
      rw [Option.mem_def.mp head] at stops
      exact stops
    · cases found

/-! ### Removing the matches -/

section
variable (word) (r)

/-- `replace` of every match by nothing, from left to right; the number of units of the current match is still to go.
A match of nothing moves on by a unit. -/
def removeAll : Option α → ℕ → List α → List α
  | _, _, [] => []
  | _, n + 1, u :: t => removeAll (.some u) n t
  | prev, 0, u :: t =>
    match exec word r prev (u :: t) with
    | .some rest =>
      if rest.length ≤ t.length then removeAll (.some u) (t.length - rest.length) t else u :: removeAll (.some u) 0 t
    | none => u :: removeAll (.some u) 0 t

theorem removeAll_length (prev : Option α) (n : ℕ) (t : List α) : (removeAll word r prev n t).length ≤ t.length := by
  induction t generalizing prev n with
  | nil => cases n <;> exact le_rfl
  | cons u t ih =>
    have kept := ih (.some u) 0
    cases n with
    | succ n => exact (ih _ _).trans (Nat.le_succ _)
    | zero =>
      rw [removeAll]
      split
      · split
        · exact (ih _ _).trans (Nat.le_succ _)
        · exact Nat.succ_le_succ kept
      · exact Nat.succ_le_succ kept

end

/-- The regex matches somewhere: `regex.test(t)`. -/
def Matches (word : α → Bool) (r : Regex α) (prev : Option α) (t : List α) : Prop :=
  ∃ x y, t = x ++ y ∧ (exec word r (lastOf prev x) y).isSome = true

theorem matches_cons {u : α} : Matches word r prev (u :: t) ↔
    (exec word r prev (u :: t)).isSome = true ∨ Matches word r (.some u) t := by
  constructor
  · rintro ⟨x, y, same, found⟩
    cases x with
    | nil =>
      rw [List.nil_append] at same
      exact .inl (same ▸ found)
    | cons v x =>
      obtain ⟨rfl, rfl⟩ := List.cons.inj same
      refine .inr ⟨x, y, rfl, ?_⟩
      rwa [lastOf_cons] at found
  · rintro (found | ⟨x, y, rfl, found⟩)
    · exact ⟨[], u :: t, rfl, found⟩
    · refine ⟨u :: x, y, rfl, ?_⟩
      rwa [lastOf_cons]

theorem removeAll_eq (absent : ¬Matches word r prev t) : removeAll word r prev 0 t = t := by
  induction t generalizing prev with
  | nil => rfl
  | cons u t ih =>
    rw [matches_cons, not_or, Bool.not_eq_true, Option.isSome_eq_false_iff, Option.isNone_iff_eq_none] at absent
    rw [removeAll, absent.1]
    dsimp only
    rw [ih absent.2]

theorem exec_shorter (solid : r.nullable = false) {rest : List α} (found : exec word r prev t = .some rest) :
    rest.length < t.length := by
  obtain ⟨a, rfl, derives⟩ := exec_some found
  cases a with
  | nil =>
    rw [derives.nullable] at solid
    cases solid
  | cons u a =>
    rw [List.length_append, List.length_cons]
    omega

theorem removeAll_shorter (solid : r.nullable = false) (somewhere : Matches word r prev t) :
    (removeAll word r prev 0 t).length < t.length := by
  induction t generalizing prev with
  | nil =>
    obtain ⟨x, y, same, found⟩ := somewhere
    obtain ⟨rfl, rfl⟩ := List.append_eq_nil_iff.mp same.symm
    obtain ⟨rest, found⟩ := Option.isSome_iff_exists.mp found
    exact absurd (exec_shorter solid found) (Nat.not_lt_zero _)
  | cons u t ih =>
    rw [removeAll]
    cases found : exec word r prev (u :: t) with
    | some rest =>
      have shorter := exec_shorter solid found
      rw [List.length_cons] at shorter
      dsimp only
      rw [if_pos (by omega)]
      exact Nat.lt_succ_of_le (removeAll_length word r _ _ t)
    | none =>
      rw [matches_cons, found] at somewhere
      exact Nat.succ_lt_succ (ih (somewhere.resolve_left Bool.false_ne_true))

/-- What a match cannot start with is kept. -/
theorem removeAll_keeps (unstarted : ∀ u ∈ a, ∀ prev t, exec word r prev (u :: t) = none) (prev : Option α) (t : List α) :
    removeAll word r prev 0 (a ++ t) = a ++ removeAll word r (lastOf prev a) 0 t := by
  induction a generalizing prev with
  | nil => rfl
  | cons u a ih =>
    obtain ⟨absent, others⟩ := List.forall_mem_cons.mp unstarted
    rw [List.cons_append, removeAll, absent]
    dsimp only
    rw [ih others, lastOf_cons, List.cons_append]

theorem removeAll_sublist (prev : Option α) (n : ℕ) (t : List α) : (removeAll word r prev n t).Sublist t := by
  induction t generalizing prev n with
  | nil => cases n <;> exact .slnil
  | cons u t ih =>
    cases n with
    | succ n => exact (ih _ _).cons u
    | zero =>
      rw [removeAll]
      split
      · split
        · exact (ih _ _).cons u
        · exact (ih _ _).cons_cons u
      · exact (ih _ _).cons_cons u

/-- The first unit stays unless a match starts there. -/
theorem removeAll_head (absent : exec word r prev t = none) : (removeAll word r prev 0 t).head? = t.head? := by
  cases t with
  | nil => rfl
  | cons u t =>
    rw [removeAll, absent]
    rfl

/-! ### Striking the matches out -/

/-- What is not struck out. -/
def standing (t : List (α × Bool)) : List α := (t.filter fun m => !m.2).map Prod.fst

@[simp] theorem standing_nil : standing ([] : List (α × Bool)) = [] := rfl

@[simp] theorem standing_struck (u : α) (t : List (α × Bool)) : standing ((u, true) :: t) = standing t := rfl

@[simp] theorem standing_kept (u : α) (t : List (α × Bool)) : standing ((u, false) :: t) = u :: standing t := rfl

@[simp] theorem standing_append (x y : List (α × Bool)) : standing (x ++ y) = standing x ++ standing y := by
  rw [standing, List.filter_append, List.map_append]
  rfl

theorem standing_split {f : List (α × Bool)} {x y : List α} {u : α} (same : standing f = x ++ u :: y) :
    ∃ X Y, f = X ++ (u, false) :: Y ∧ standing X = x ∧ standing Y = y := by
  induction f generalizing x with
  | nil => simp at same
  | cons m f ih =>
    obtain ⟨v, struck⟩ := m
    cases struck with
    | true =>
      obtain ⟨X, Y, rfl, rfl, rfl⟩ := ih same
      exact ⟨(v, true) :: X, Y, rfl, rfl, rfl⟩
    | false =>
      cases x with
      | nil =>
        obtain ⟨rfl, rfl⟩ := List.cons.inj same
        exact ⟨[], f, rfl, rfl, rfl⟩
      | cons v' x =>
        obtain ⟨rfl, later⟩ := List.cons.inj same
        obtain ⟨X, Y, rfl, rfl, rfl⟩ := ih later
        exact ⟨(v, false) :: X, Y, rfl, rfl, rfl⟩

section
variable (word) (r)

/-- `removeAll`, in a text that keeps what is removed, struck out. Only what stands is looked at. -/
def strike : Option α → ℕ → List (α × Bool) → List (α × Bool)
  | _, _, [] => []
  | prev, n, (u, true) :: t => (u, true) :: strike prev n t
  | _, n + 1, (u, false) :: t => (u, true) :: strike (.some u) n t
  | prev, 0, (u, false) :: t =>
    match exec word r prev (u :: standing t) with
    | .some rest =>
      if rest.length ≤ (standing t).length then (u, true) :: strike (.some u) ((standing t).length - rest.length) t
      else (u, false) :: strike (.some u) 0 t
    | none => (u, false) :: strike (.some u) 0 t

theorem strike_standing (prev : Option α) (n : ℕ) (t : List (α × Bool)) :
    standing (strike word r prev n t) = removeAll word r prev n (standing t) := by
  induction t generalizing prev n with
  | nil => cases n <;> rfl
  | cons m t ih =>
    obtain ⟨u, struck⟩ := m
    cases struck with
    | true =>
      rw [strike, standing_struck, standing_struck]
      exact ih _ _
    | false =>
      rw [standing_kept]
      cases n with
      | succ n => exact ih _ _
      | zero =>
        rw [strike, removeAll]
        split
        · split
          · exact ih _ _
          · rw [standing_kept, ih]
        · rw [standing_kept, ih]

theorem strike_fst (prev : Option α) (n : ℕ) (t : List (α × Bool)) : (strike word r prev n t).map Prod.fst = t.map Prod.fst := by
  induction t generalizing prev n with
  | nil => cases n <;> rfl
  | cons m t ih =>
    obtain ⟨u, struck⟩ := m
    cases struck with
    | true => rw [strike, List.map_cons, List.map_cons, ih]
    | false =>
      cases n with
      | succ n => rw [strike, List.map_cons, List.map_cons, ih]
      | zero =>
        rw [strike]
        split
        · split
          · rw [List.map_cons, List.map_cons, ih]
          · rw [List.map_cons, List.map_cons, ih]
        · rw [List.map_cons, List.map_cons, ih]

end

/-- Where the pass stands: after the unit that it left last, or inside or behind a match that it strikes out. -/
def Reached (word : α → Bool) (r : Regex α) (prev kept : Option α) (n : ℕ) (t : List α) : Prop :=
  (n = 0 ∧ prev = kept) ∨
    ∃ p w, w ≠ [] ∧ prev = w.getLast? ∧ n ≤ t.length ∧ exec word r p (w ++ t) = .some (t.drop n)

theorem Reached.skip {kept : Option α} {n : ℕ} {u : α} (reached : Reached word r prev kept (n + 1) (u :: t)) (kept' : Option α) :
    Reached word r (.some u) kept' n t := by
  rcases reached with ⟨zero, _⟩ | ⟨p, w, _, _, long, found⟩
  · cases zero
  · refine .inr ⟨p, w ++ [u], by simp, by simp, Nat.le_of_succ_le_succ long, ?_⟩
    rwa [List.append_assoc]

theorem Reached.found (solid : r.nullable = false) {u : α} {rest : List α} (found : exec word r prev (u :: t) = .some rest)
    (kept : Option α) : Reached word r (.some u) kept (t.length - rest.length) t := by
  obtain ⟨a, same, derives⟩ := exec_some found
  cases a with
  | nil =>
    rw [derives.nullable] at solid
    cases solid
  | cons v a =>
    rw [List.cons_append, List.cons.injEq] at same
    obtain ⟨rfl, rfl⟩ := same
    have length : (a ++ rest).length - rest.length = a.length := by rw [List.length_append, Nat.add_sub_cancel]
    refine .inr ⟨prev, [u], List.cons_ne_nil _ _, rfl, Nat.sub_le _ _, ?_⟩
    rw [length, List.drop_left]
    exact found

/-- What a pass over what stands leaves standing, from its start on, stood there as it is. -/
theorem strike_prefix (solid : r.nullable = false) {t w Y : List (α × Bool)} (same : strike word r prev 0 t = w ++ Y)
    (whole : ∀ m ∈ w, m.2 = false) : ∃ Y₀, t = w ++ Y₀ ∧ Y = strike word r (lastOf prev (standing w)) 0 Y₀ := by
  induction w generalizing prev t with
  | nil => exact ⟨t, rfl, same.symm⟩
  | cons m w ih =>
    obtain ⟨stands, others⟩ := List.forall_mem_cons.mp whole
    cases t with
    | nil => cases same
    | cons m' t =>
      obtain ⟨u, struck⟩ := m'
      cases struck with
      | true =>
        rw [strike] at same
        rw [← (List.cons.inj same).1] at stands
        cases stands
      | false =>
        rw [strike] at same
        cases found : exec word r prev (u :: standing t) with
        | some rest =>
          have shorter := exec_shorter solid found
          rw [List.length_cons] at shorter
          rw [found] at same
          dsimp only at same
          rw [if_pos (by omega)] at same
          rw [← (List.cons.inj same).1] at stands
          cases stands
        | none =>
          rw [found] at same
          obtain ⟨rfl, later⟩ := List.cons.inj same
          obtain ⟨Y₀, rfl, rest⟩ := ih later others
          refine ⟨Y₀, rfl, ?_⟩
          rw [standing_kept, lastOf_cons]
          exact rest

/-- A stretch of which all stands after a pass stood before it, and no match started with it. -/
theorem strike_stretch (solid : r.nullable = false) {kept : Option α} {n : ℕ} {t X w Y : List (α × Bool)}
    (reached : Reached word r prev kept n (standing t)) (same : strike word r prev n t = X ++ w ++ Y) (nonempty : w ≠ [])
    (whole : ∀ m ∈ w, m.2 = false) :
    ∃ X₀ Y₀ p, t = X₀ ++ w ++ Y₀ ∧ exec word r p (standing w ++ standing Y₀) = none ∧
      Reached word r p (lastOf kept (standing X)) 0 (standing w ++ standing Y₀) ∧
      standing Y = removeAll word r (lastOf none (standing w)) 0 (standing Y₀) := by
  induction t generalizing prev kept n X with
  | nil =>
    have empty : ([] : List (α × Bool)) = X ++ w ++ Y := by cases n <;> exact same
    simp [nonempty] at empty
  | cons m t ih =>
    -- what comes later is left or struck out one unit further on
    have later : ∀ {prev' kept' : Option α} {n' : ℕ} {X' m'}, Reached word r prev' kept' n' (standing t) →
        m' :: strike word r prev' n' t = m' :: X' ++ w ++ Y → lastOf kept' (standing X') = lastOf kept (standing X) →
        ∃ X₀ Y₀ p, m :: t = X₀ ++ w ++ Y₀ ∧ exec word r p (standing w ++ standing Y₀) = none ∧
          Reached word r p (lastOf kept (standing X)) 0 (standing w ++ standing Y₀) ∧
          standing Y = removeAll word r (lastOf none (standing w)) 0 (standing Y₀) := by
      intro prev' kept' n' X' m' reached' same' agrees
      obtain ⟨X₀, Y₀, p, rfl, absent, stands, rest⟩ := ih reached' (List.cons.inj same').2
      rw [agrees] at stands
      exact ⟨m :: X₀, Y₀, p, rfl, absent, stands, rest⟩
    -- a stretch that starts here starts with a unit that stands
    have starts : ∀ {u : α} {t' : List (α × Bool)}, (u, true) :: t' = X ++ w ++ Y → ∃ X', X = (u, true) :: X' := by
      intro u t' same'
      cases X with
      | cons m' X => exact ⟨X, by rw [(List.cons.inj same').1]⟩
      | nil =>
        cases w with
        | nil => exact absurd rfl nonempty
        | cons m' w =>
          have stands := whole m' List.mem_cons_self
          rw [← (List.cons.inj same').1] at stands
          cases stands
    obtain ⟨u, struck⟩ := m
    cases struck with
    | true =>
      rw [strike] at same
      obtain ⟨X, rfl⟩ := starts same
      exact later reached same rfl
    | false =>
      rw [standing_kept] at reached
      cases n with
      | succ n =>
        rw [strike] at same
        obtain ⟨X, rfl⟩ := starts same
        exact later (reached.skip kept) same rfl
      | zero =>
        rw [strike] at same
        cases found : exec word r prev (u :: standing t) with
        | some rest =>
          have shorter := exec_shorter solid found
          rw [List.length_cons] at shorter
          rw [found] at same
          dsimp only at same
          rw [if_pos (by omega)] at same
          obtain ⟨X, rfl⟩ := starts same
          exact later (.found solid found kept) same rfl
        | none =>
          rw [found] at same
          dsimp only at same
          cases X with
          | cons m X =>
            obtain ⟨rfl, _⟩ := List.cons.inj same
            have here : Reached word r (.some u) (.some u) 0 (standing t) := .inl ⟨rfl, rfl⟩
            refine later here same ?_
            rw [standing_kept, lastOf_cons]
          | nil =>
            cases w with
            | nil => exact absurd rfl nonempty
            | cons m w =>
              obtain ⟨rfl, rest⟩ := List.cons.inj same
              obtain ⟨Y₀, rfl, behind⟩ := strike_prefix solid rest (List.forall_mem_cons.mp whole).2
              refine ⟨[], Y₀, prev, rfl, ?_, ?_, ?_⟩
              · rwa [standing_append] at found
              · rwa [standing_append] at reached
              · rw [behind, strike_standing, standing_kept, lastOf_cons]

end Regex
