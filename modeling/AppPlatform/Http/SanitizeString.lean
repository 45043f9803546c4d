import AppPlatform.Lib.Regex
import AppPlatform.Lib.Text

/-!
# Stripping markup from a string

`sanitizeString` removes the matches of three patterns, one after the other, and trims. A pass removes every
match that stands in its text; what it joins is looked at only by the passes after it. So the patterns match
nothing in the result exactly when no opening of a tag or a handler in the input reads across a removed piece.
-/

namespace Sanitize
open Js

/-- `\w` -/
def isWord (u : CodeUnit) : Bool := isLetter u || isDigit u || u = unit '_'

/-- A letter under `i`; no letter outside ASCII stands for one inside. -/
def foldCase (u : CodeUnit) : CodeUnit := if isUpper u then u + 32 else u

def lit (c : CodeUnit) : Regex CodeUnit := .unit fun u => foldCase u = c

def word (w : Text) : Regex CodeUnit := .all (w.map lit)

/-- `\s*` -/
def spaces : Regex CodeUnit := .many true isWhiteSpace

def closingScript : List (Regex CodeUnit) :=
  [lit (unit '<'), spaces, lit (unit '/'), spaces, word (text "script"), lit (unit '>')]

/-- `/<\s*script[^>]*>.*?<\s*\/\s*script>/gis` -/
def scriptBlock : Regex CodeUnit :=
  .all ([lit (unit '<'), spaces, word (text "script"), .many true (· ≠ unit '>'), lit (unit '>'), .many false fun _ => true] ++
    closingScript)

/-- `(?:script|iframe|object|embed|form|input|textarea|style)` -/
def tagName : Regex CodeUnit :=
  .oneOf [word (text "script"), word (text "iframe"), word (text "object"), word (text "embed"), word (text "form"),
    word (text "input"), word (text "textarea"), word (text "style")]

/-- `<\s*\/?\s*(?:...)\b` -/
def tagOpening : List (Regex CodeUnit) :=
  [lit (unit '<'), spaces, .optional (lit (unit '/')), spaces, tagName, .boundary]

/-- `/<\s*\/?\s*(?:...)\b[^>]*>/gis` -/
def listedTag : Regex CodeUnit := .all (tagOpening ++ [.many true (· ≠ unit '>'), lit (unit '>')])

def quoted (q : CodeUnit) : Regex CodeUnit := .all [lit q, .many true (· ≠ q), lit q]

def quotationMark : CodeUnit := 0x22

def apostrophe : CodeUnit := 0x27

/-- `[^\s>]` -/
def isBare (u : CodeUnit) : Bool := !isWhiteSpace u && u ≠ unit '>'

/-- `(?:"[^"]*"|'[^']*'|[^\s>]+)` -/
def attributeValue : Regex CodeUnit := .oneOf [quoted quotationMark, quoted apostrophe, .some isBare]

/-- `\bon\w+\s*=` -/
def handlerOpening : List (Regex CodeUnit) :=
  [.boundary, lit (unit 'o'), lit (unit 'n'), .some isWord, spaces, lit (unit '=')]

/-- `/\bon\w+\s*=\s*(?:...)/gis` -/
def inlineHandler : Regex CodeUnit := .all (handlerOpening ++ [spaces, attributeValue])

def sanitizeString (input : Text) : Text :=
  let input := Regex.removeAll isWord scriptBlock none 0 input
  let input := Regex.removeAll isWord listedTag none 0 input
  let input := Regex.removeAll isWord inlineHandler none 0 input
  trim input

example : sanitizeString (text "a<script>steal()</script>b") = text "ab" := by decide +kernel

example : sanitizeString (text "x onclick=\"a'b()\"") = text "x" := by decide +kernel

def PATTERNS : List (Regex CodeUnit) := [scriptBlock, listedTag, inlineHandler]

/-- No pattern matches anywhere. -/
def Clean (t : Text) : Prop := ∀ r ∈ PATTERNS, ¬Regex.Matches isWord r none t

/-- The input, with every piece struck out that a pass removes. -/
def struck (input : Text) : List (CodeUnit × Bool) :=
  let input := input.map fun u => (u, false)
  let input := Regex.strike isWord scriptBlock none 0 input
  let input := Regex.strike isWord listedTag none 0 input
  Regex.strike isWord inlineHandler none 0 input

/-- The piece opens a tag, and a `>` comes later; or it opens a handler, and a value can follow. -/
def Opens (prev : Option CodeUnit) (piece rest : Text) : Prop :=
  (Regex.Derives isWord (.all tagOpening) prev piece rest.head? ∧ unit '>' ∈ rest) ∨
    (Regex.Derives isWord (.all handlerOpening) prev piece rest.head? ∧
      ∃ u ∈ (rest.dropWhile isWhiteSpace).head?, u ≠ unit '>')

/-- In the input a stretch begins and ends with what is not struck out, has a struck unit inside, and is an opening
without the struck ones. -/
def Joined (input : Text) : Prop :=
  ∃ X u W v Y, struck input = X ++ (u, false) :: (W ++ (v, false) :: Y) ∧ (∃ m ∈ W, m.2 = true) ∧
    Opens (Regex.lastOf none (Regex.standing X)) (u :: (Regex.standing W ++ [v])) (Regex.standing Y)

theorem struck_fst (input : Text) : (struck input).map Prod.fst = input := by
  unfold struck
  rw [Regex.strike_fst, Regex.strike_fst, Regex.strike_fst, List.map_map]
  exact List.map_id input

theorem sanitizeString_eq (input : Text) : sanitizeString input = trim (Regex.standing (struck input)) := by
  have plain : Regex.standing (input.map fun u => (u, false)) = input := by
    induction input with
    | nil => rfl
    | cons u input ih => rw [List.map_cons, Regex.standing_kept, ih]
  unfold sanitizeString struck
  dsimp only
  rw [Regex.strike_standing, Regex.strike_standing, Regex.strike_standing, plain]

/-! ### Units and words -/

theorem isUpper_range {u : CodeUnit} (upper : isUpper u = true) : 65 ≤ u.toNat ∧ u.toNat ≤ 90 := by
  simp only [isUpper, Bool.and_eq_true, decide_eq_true_eq, UInt16.le_iff_toNat_le] at upper
  exact upper

theorem isLower_foldCase {u : CodeUnit} (upper : isUpper u = true) : isLower (foldCase u) = true := by
  have range := isUpper_range upper
  have value : (u + 32).toNat = u.toNat + 32 := by
    rw [UInt16.toNat_add, show (32 : UInt16).toNat = 32 from rfl, Nat.mod_eq_of_lt (by omega)]
  have a : (unit 'a').toNat = 97 := rfl
  have z : (unit 'z').toNat = 122 := rfl
  rw [foldCase, if_pos upper]
  simp only [isLower, Bool.and_eq_true, decide_eq_true_eq, UInt16.le_iff_toNat_le, value]
  omega

/-- A unit that is not a letter stands for itself. -/
theorem eq_of_foldCase {u c : CodeUnit} (notLower : isLower c = false) (same : foldCase u = c) : u = c := by
  unfold foldCase at same
  split at same
  · rename_i upper
    have lower := isLower_foldCase upper
    rw [foldCase, if_pos upper, same, notLower] at lower
    cases lower
  · exact same

theorem isWord_of_foldCase {u : CodeUnit} (lower : isLower (foldCase u) = true) : isWord u = true := by
  have letter : isLetter u = true := by
    unfold foldCase at lower
    split at lower
    · rename_i upper
      rw [isLetter, upper, Bool.true_or]
    · rw [isLetter, lower, Bool.or_true]
  rw [isWord, letter, Bool.true_or, Bool.true_or]

theorem isWord_of_space {u : CodeUnit} (space : isWhiteSpace u = true) : isWord u = false := by
  by_contra word
  rw [Bool.not_eq_false] at word
  have range : 33 ≤ u.toNat ∧ u.toNat ≤ 122 := by
    simp only [isWord, isLetter, isUpper, isLower, isDigit, Bool.or_eq_true, Bool.and_eq_true, decide_eq_true_eq,
      UInt16.le_iff_toNat_le] at word
    have a : (unit 'a').toNat = 97 := rfl
    have z : (unit 'z').toNat = 122 := rfl
    have upperA : (unit 'A').toNat = 65 := rfl
    have upperZ : (unit 'Z').toNat = 90 := rfl
    have zero : (unit '0').toNat = 48 := rfl
    have nine : (unit '9').toNat = 57 := rfl
    rcases word with letter | rfl
    · omega
    · decide
  rw [isWhiteSpace_letter range.1 range.2] at space
  cases space

variable {prev next : Option CodeUnit} {a t : Text}

theorem lit_inv {c : CodeUnit} (derives : Regex.Derives isWord (lit c) prev a next) : ∃ u, a = [u] ∧ foldCase u = c := by
  obtain ⟨u, rfl, same⟩ := derives.unit_inv
  exact ⟨u, rfl, of_decide_eq_true same⟩

theorem word_inv {w : Text} (derives : Regex.Derives isWord (word w) prev a next) : a.map foldCase = w := by
  induction w generalizing prev a with
  | nil =>
    cases derives
    rfl
  | cons c w ih =>
    obtain ⟨_, rest, rfl, first, later⟩ := Regex.Derives.all_cons derives
    obtain ⟨u, rfl, same⟩ := lit_inv first
    rw [List.singleton_append, List.map_cons, same, ih later]

/-- A name ends with a letter. -/
theorem word_last {w : Text} (derives : Regex.Derives isWord (word w) prev a next) (letter : w.getLast?.any isLower = true) :
    ∃ b u, a = b ++ [u] ∧ isWord u = true := by
  have letters := word_inv derives
  cases a using List.reverseRecOn with
  | nil =>
    rw [← letters] at letter
    cases letter
  | append_singleton b u =>
    rw [← letters, List.map_append, List.map_singleton, List.getLast?_concat] at letter
    exact ⟨b, u, rfl, isWord_of_foldCase letter⟩

theorem boundary_after {u : CodeUnit} (word : isWord u = true) :
    Regex.isBoundary isWord (some u) next = true ↔ next.any isWord = false := by
  rw [Regex.isBoundary, Option.any_some, word, bne_iff_ne, ne_comm, ne_eq, Bool.not_eq_true]

theorem closingScript_listedTag (derives : Regex.Derives isWord (.all closingScript) prev a next) :
    Regex.Derives isWord listedTag prev a next := by
  obtain ⟨_, _, rfl, less, derives⟩ := derives.all_cons
  obtain ⟨space, _, rfl, spaces₁, derives⟩ := derives.all_cons
  obtain ⟨_, _, rfl, slash, derives⟩ := derives.all_cons
  obtain ⟨space', _, rfl, spaces₂, derives⟩ := derives.all_cons
  obtain ⟨name, _, rfl, script, derives⟩ := derives.all_cons
  obtain ⟨_, _, rfl, greater, derives⟩ := derives.all_cons
  cases derives
  obtain ⟨g, rfl, isGreater⟩ := lit_inv greater
  have g_eq : g = unit '>' := eq_of_foldCase (by decide) isGreater
  obtain ⟨start, last, rfl, letter⟩ := word_last script (by decide)
  have ends : ∀ p, Regex.Derives isWord (.all [.boundary, .many true (· ≠ unit '>'), lit (unit '>')])
      (Regex.lastOf p (start ++ [last])) ([g] ++ []) next := by
    intro p
    have bounded : Regex.isBoundary isWord (Regex.lastOf p (start ++ [last])) (some g) = true := by
      rw [Regex.lastOf_append]
      exact (boundary_after letter).mpr (by rw [g_eq]; decide)
    have close : Regex.Derives isWord (.all [lit (unit '>')]) (Regex.lastOf p (start ++ [last])) ([g] ++ []) next :=
      .seq (.unit (decide_eq_true isGreater)) .empty
    exact .seq (a := []) (.boundary bounded) (.seq (a := []) (.many (List.forall_mem_nil _)) close)
  exact .seq less (.seq spaces₁ (.seq (.left slash) (.seq spaces₂ (.seq (.left script) (ends _)))))

theorem scriptBlock_listedTag (somewhere : Regex.Matches isWord scriptBlock prev t) : Regex.Matches isWord listedTag prev t := by
  obtain ⟨x, y, rfl, found⟩ := somewhere
  obtain ⟨rest, found⟩ := Option.isSome_iff_exists.mp found
  obtain ⟨piece, rfl, derives⟩ := Regex.exec_some found
  obtain ⟨b, c, rfl, _, closing⟩ := Regex.Derives.all_append derives
  refine ⟨x ++ b, c ++ rest, by simp, ?_⟩
  rw [Regex.lastOf_append]
  exact Regex.exec_isSome (closingScript_listedTag closing)

/-! ### Behind a handler -/

theorem quoted_last {q : CodeUnit} (derives : Regex.Derives isWord (quoted q) prev a next) :
    ∃ b u, a = b ++ [u] ∧ foldCase u = q := by
  obtain ⟨b, _, rfl, _, derives⟩ := derives.all_cons
  obtain ⟨c, _, rfl, _, derives⟩ := derives.all_cons
  obtain ⟨_, _, rfl, close, derives⟩ := derives.all_cons
  cases derives
  obtain ⟨u, rfl, same⟩ := lit_inv close
  exact ⟨b ++ c, u, by simp, same⟩

theorem quoted_end {q : CodeUnit} (notLower : isLower q = false) (notWord : isWord q = false) {w front rest tail : Text}
    (same : w ++ rest = front ++ tail) (found : Regex.exec isWord (quoted q) prev tail = some rest) :
    w.getLast?.any isWord = false := by
  obtain ⟨v, rfl, derives⟩ := Regex.exec_some found
  obtain ⟨b, u, rfl, isQuote⟩ := quoted_last derives
  rw [← List.append_assoc] at same
  have ends : w = front ++ (b ++ [u]) := List.append_cancel_right same
  rw [ends, ← List.append_assoc, List.getLast?_concat, Option.any_some, eq_of_foldCase notLower isQuote, notWord]

/-- A handler ends with a quote, or before a unit that cannot go on with its value. -/
theorem handler_end {w rest : Text} (found : Regex.exec isWord inlineHandler prev (w ++ rest) = some rest) :
    w.getLast?.any isWord = false ∨ ∀ u ∈ rest.head?, isBare u = false := by
  obtain ⟨front, tail, same, _, found⟩ :=
    Regex.run_some ((Regex.run_all_append (handlerOpening ++ [spaces]) [attributeValue]).symm.trans found)
  have found : ((Regex.exec isWord (quoted quotationMark) (Regex.lastOf prev front) tail).or
      ((Regex.exec isWord (quoted apostrophe) (Regex.lastOf prev front) tail).or
        ((Regex.exec isWord (.some isBare) (Regex.lastOf prev front) tail).or
          (Regex.exec isWord (.unit fun _ => false) (Regex.lastOf prev front) tail)))) = some rest := found
  rcases Option.or_eq_some_iff.mp found with double | ⟨_, found⟩
  · exact .inl (quoted_end (by decide) (by decide) same double)
  rcases Option.or_eq_some_iff.mp found with single | ⟨_, found⟩
  · exact .inl (quoted_end (by decide) (by decide) same single)
  rcases Option.or_eq_some_iff.mp found with bare | ⟨_, found⟩
  · exact .inr (Regex.exec_some_ends bare)
  · obtain ⟨_, _, derives⟩ := Regex.exec_some found
    obtain ⟨_, _, impossible⟩ := derives.unit_inv
    cases impossible

theorem isBare_of_word {u : CodeUnit} (word : isWord u = true) : isBare u = true := by
  rw [isBare, Bool.and_eq_true, Bool.not_eq_true', decide_eq_true_eq]
  constructor
  · by_contra space
    rw [isWord_of_space (Bool.not_eq_false _ |>.mp space)] at word
    cases word
  · rintro rfl
    exact absurd word (by decide)

theorem handler_start {rs : List (Regex CodeUnit)}
    (derives : Regex.Derives isWord (.all (.boundary :: lit (unit 'o') :: rs)) prev a next) :
    prev.any isWord = false ∧ ∃ u a', a = u :: a' ∧ isWord u = true := by
  obtain ⟨_, _, rfl, bound, rest⟩ := derives.all_cons
  cases bound with
  | boundary bounded =>
    obtain ⟨_, tail, rfl, first, _⟩ := rest.all_cons
    obtain ⟨u, rfl, isO⟩ := lit_inv first
    have letter : isWord u = true := isWord_of_foldCase (by rw [isO]; decide)
    refine ⟨?_, u, tail, rfl, letter⟩
    rw [Regex.isBoundary, show (Regex.firstOf ([u] ++ tail) next) = some u from rfl, Option.any_some, letter] at bounded
    simpa using bounded

theorem handler_unstarted {u : CodeUnit} (other : isWord u = false) (prev : Option CodeUnit) (t : Text) :
    Regex.exec isWord inlineHandler prev (u :: t) = none := by
  cases found : Regex.exec isWord inlineHandler prev (u :: t) with
  | none => rfl
  | some rest =>
    obtain ⟨piece, same, derives⟩ := Regex.exec_some found
    obtain ⟨_, v, piece, rfl, letter⟩ := handler_start derives
    obtain ⟨rfl, _⟩ := List.cons.inj same
    rw [other] at letter
    cases letter

/-- Behind a removed handler the next one is not hidden by what the first one ended with. -/
theorem handler_resumes {p kept : Option CodeUnit} {u : CodeUnit} (letter : isWord u = true) (before : kept.any isWord = false)
    (reached : Regex.Reached isWord inlineHandler p kept 0 (u :: t)) : p.any isWord = false := by
  rcases reached with ⟨_, rfl⟩ | ⟨_, w, _, rfl, _, found⟩
  · exact before
  · rcases handler_end found with ends | stops
    · exact ends
    · have bare := stops u rfl
      rw [isBare_of_word letter] at bare
      cases bare

/-! ### Openings -/

theorem tagName_last (derives : Regex.Derives isWord tagName prev a next) : ∃ b u, a = b ++ [u] ∧ isWord u = true := by
  obtain ⟨r, member, derives⟩ := derives.oneOf_inv
  simp only [List.mem_cons, List.not_mem_nil, or_false] at member
  rcases member with rfl | rfl | rfl | rfl | rfl | rfl | rfl | rfl
  all_goals exact word_last derives (by decide)

theorem tagOpening_end (derives : Regex.Derives isWord (.all tagOpening) prev a next) :
    (Regex.lastOf none a).any isWord = true ∧ next.any isWord = false := by
  have split : Regex.Derives isWord
      (.all ([lit (unit '<'), spaces, .optional (lit (unit '/')), spaces] ++ [tagName, .boundary])) prev a next := derives
  obtain ⟨front, _, rfl, _, derives⟩ := split.all_append
  obtain ⟨name, _, rfl, isName, derives⟩ := derives.all_cons
  obtain ⟨b, u, rfl, letter⟩ := tagName_last isName
  obtain ⟨_, _, rfl, bound, derives⟩ := derives.all_cons
  cases derives
  cases bound with
  | boundary bounded =>
    rw [Regex.lastOf_append] at bounded
    constructor
    · simp [Regex.lastOf, letter]
    · exact (boundary_after letter).mp bounded

theorem tag_start {rs : List (Regex CodeUnit)} (derives : Regex.Derives isWord (.all (lit (unit '<') :: rs)) prev a next) :
    ∃ a', a = unit '<' :: a' := by
  obtain ⟨_, a', rfl, first, _⟩ := derives.all_cons
  obtain ⟨u, rfl, same⟩ := lit_inv first
  exact ⟨a', by rw [eq_of_foldCase (by decide) same]; rfl⟩

theorem tag_complete {rest : Text} (opening : Regex.Derives isWord (.all tagOpening) prev a rest.head?)
    (closes : unit '>' ∈ rest) :
    ∃ more rest', rest = more ++ unit '>' :: rest' ∧
      ∀ next, Regex.Derives isWord listedTag prev (a ++ (more ++ [unit '>'])) next := by
  obtain ⟨more, rest', rfl, others⟩ := List.eq_append_cons_of_mem closes
  refine ⟨more, rest', rfl, fun next => ?_⟩
  have follows : (more ++ unit '>' :: rest').head? = Regex.firstOf (more ++ [unit '>']) next := by
    cases more <;> rfl
  rw [follows] at opening
  have units : ∀ u ∈ more, decide (u ≠ unit '>') = true := by
    intro u member
    refine decide_eq_true ?_
    rintro rfl
    exact others member
  have close : ∀ p, Regex.Derives isWord (.all [lit (unit '>')]) p ([unit '>'] ++ []) next :=
    fun _ => .seq (.unit (by decide)) .empty
  exact opening.append (.seq (.many units) (close _))

theorem handler_complete {rest : Text} (opening : Regex.Derives isWord (.all handlerOpening) prev a next)
    (value : ∃ u ∈ (rest.dropWhile isWhiteSpace).head?, u ≠ unit '>') :
    ∃ more u rest', rest = more ++ u :: rest' ∧ isWhiteSpace u = false ∧
      ∀ next, Regex.Derives isWord inlineHandler prev (a ++ (more ++ [u])) next := by
  obtain ⟨u, first, other⟩ := value
  have solid := List.head?_dropWhile_not isWhiteSpace rest
  rw [Option.mem_def.mp first] at solid
  obtain ⟨rest', later⟩ := List.head?_eq_some_iff.mp first
  refine ⟨rest.takeWhile isWhiteSpace, u, rest', ?_, solid, fun next => ?_⟩
  · rw [← later, List.takeWhile_append_dropWhile]
  have bare : isBare u = true := by
    rw [isBare, solid, decide_eq_true other]
    rfl
  have some : ∀ p, Regex.Derives isWord attributeValue p ([u] ++ []) next := by
    intro p
    exact .right (.right (.left (.seq (.unit bare) (.many (List.forall_mem_nil _)))))
  have value : ∀ p, Regex.Derives isWord (.all [attributeValue]) p ([u] ++ [] ++ []) next :=
    fun p => .seq (some p) .empty
  refine Regex.Derives.append (opening.context (fun _ => rfl) fun looks => absurd looks (by decide)) (.seq (.many ?_) (value _))
  exact fun u member => List.mem_takeWhile_imp member

theorem attributeValue_head (derives : Regex.Derives isWord attributeValue prev a next) :
    ∃ u a', a = u :: a' ∧ isWhiteSpace u = false ∧ u ≠ unit '>' := by
  have quote : ∀ {q : CodeUnit} {a : Text}, isLower q = false → isWhiteSpace q = false → q ≠ unit '>' →
      Regex.Derives isWord (quoted q) prev a next → ∃ u a', a = u :: a' ∧ isWhiteSpace u = false ∧ u ≠ unit '>' := by
    intro q a notLower solid other derives
    obtain ⟨_, a', rfl, first, _⟩ := derives.all_cons
    obtain ⟨u, rfl, same⟩ := lit_inv first
    rw [eq_of_foldCase notLower same]
    exact ⟨q, a', rfl, solid, other⟩
  obtain ⟨r, member, derives⟩ := derives.oneOf_inv
  simp only [List.mem_cons, List.not_mem_nil, or_false] at member
  rcases member with rfl | rfl | rfl
  · exact quote (by decide) (by decide) (by decide) derives
  · exact quote (by decide) (by decide) (by decide) derives
  · cases derives with
    | @seq _ _ _ _ _ b first _ =>
      obtain ⟨u, rfl, bare⟩ := first.unit_inv
      rw [isBare, Bool.and_eq_true, Bool.not_eq_true', decide_eq_true_eq] at bare
      exact ⟨u, b, rfl, bare.1, bare.2⟩

theorem opens_of_match {r : Regex CodeUnit} (pattern : r = listedTag ∨ r = inlineHandler)
    (derives : Regex.Derives isWord r prev a next) : ∃ b c, a = b ++ c ∧ ∀ rest, Opens prev b (c ++ rest) := by
  rcases pattern with rfl | rfl
  · obtain ⟨b, c, rfl, opening, closing⟩ := Regex.Derives.all_append derives
    obtain ⟨more, _, rfl, _, close⟩ := closing.all_cons
    obtain ⟨_, _, rfl, greater, _⟩ := close.all_cons
    obtain ⟨g, rfl, isGreater⟩ := lit_inv greater
    obtain rfl : g = unit '>' := eq_of_foldCase (by decide) isGreater
    refine ⟨b, _, rfl, fun rest => .inl ⟨?_, by simp⟩⟩
    cases more <;> exact opening
  · obtain ⟨b, c, rfl, opening, closing⟩ := Regex.Derives.all_append derives
    obtain ⟨more, value, rfl, white, closing⟩ := closing.all_cons
    obtain ⟨value, _, rfl, isValue, nothing⟩ := closing.all_cons
    cases nothing
    obtain ⟨u, value, rfl, solid, other⟩ := attributeValue_head isValue
    refine ⟨b, _, rfl, fun rest => .inr ⟨?_, u, ?_, other⟩⟩
    · exact opening.context (fun _ => rfl) fun looks => absurd looks (by decide)
    · cases white with
      | many white =>
        rw [List.append_nil, List.append_assoc, List.dropWhile_append_of_pos white, List.cons_append,
          List.dropWhile_cons_of_neg (by rw [solid]; exact Bool.false_ne_true)]
        rfl

theorem Opens.ends {rest : Text} (opens : Opens prev a rest) :
    ∃ u b v, a = u :: (b ++ [v]) ∧ isWhiteSpace u = false := by
  have two : ∀ {rs : List (Regex CodeUnit)} {p : Option CodeUnit} {u : CodeUnit} {t : Text},
      Regex.Derives isWord (.all rs) p t rest.head? → (Regex.all rs).nullable = false → isWhiteSpace u = false →
        ∃ u' b v, u :: t = u' :: (b ++ [v]) ∧ isWhiteSpace u' = false := by
    intro rs p u t derives long solid
    cases t using List.reverseRecOn with
    | nil =>
      rw [derives.nullable] at long
      cases long
    | append_singleton b v => exact ⟨u, b, v, rfl, solid⟩
  rcases opens with ⟨opening, _⟩ | ⟨opening, _⟩
  · obtain ⟨_, t, rfl, first, later⟩ := opening.all_cons
    obtain ⟨u, rfl, same⟩ := lit_inv first
    obtain rfl : u = unit '<' := eq_of_foldCase (by decide) same
    exact two later rfl (by decide)
  · obtain ⟨_, t, rfl, bound, opening⟩ := opening.all_cons
    cases bound
    obtain ⟨_, t, rfl, first, later⟩ := opening.all_cons
    obtain ⟨u, rfl, same⟩ := lit_inv first
    have letter : isWord u = true := isWord_of_foldCase (by rw [same]; decide)
    refine two later rfl ?_
    by_contra space
    rw [isWord_of_space (Bool.not_eq_false _ |>.mp space)] at letter
    cases letter

theorem Opens.complete {rest : Text} (opens : Opens prev a rest) :
    ∃ r ∈ PATTERNS, ∃ more u rest', rest = more ++ u :: rest' ∧ isWhiteSpace u = false ∧
      ∀ next, Regex.Derives isWord r prev (a ++ (more ++ [u])) next := by
  rcases opens with ⟨opening, closes⟩ | ⟨opening, value⟩
  · obtain ⟨more, rest', rfl, tag⟩ := tag_complete opening closes
    exact ⟨listedTag, by simp [PATTERNS], more, unit '>', rest', rfl, by decide, tag⟩
  · obtain ⟨more, u, rest', rfl, solid, handler⟩ := handler_complete opening value
    exact ⟨inlineHandler, by simp [PATTERNS], more, u, rest', rfl, solid, handler⟩

/-! ### No opening stands whole -/

/-- The unit behind the equals sign that a value begins with was there before the handlers were removed. -/
theorem value_stood (value : ∃ u ∈ ((Regex.removeAll isWord inlineHandler prev 0 t).dropWhile isWhiteSpace).head?, u ≠ unit '>') :
    ∃ u ∈ (t.dropWhile isWhiteSpace).head?, u ≠ unit '>' := by
  obtain ⟨u, first, other⟩ := value
  have split := List.takeWhile_append_dropWhile (p := isWhiteSpace) (l := t)
  have white : ∀ u ∈ t.takeWhile isWhiteSpace, isWhiteSpace u = true := fun u member => List.mem_takeWhile_imp member
  rw [← split, Regex.removeAll_keeps (fun u member => handler_unstarted (isWord_of_space (white u member))),
    List.dropWhile_append_of_pos white] at first
  cases later : t.dropWhile isWhiteSpace with
  | nil =>
    rw [later] at first
    cases first
  | cons v l =>
    refine ⟨v, rfl, ?_⟩
    rintro rfl
    rw [later, Regex.removeAll, handler_unstarted (by decide)] at first
    dsimp only at first
    rw [List.dropWhile_cons_of_neg (by decide)] at first
    exact other (Option.some.inj first).symm

/-- What a `\b` behind the name of a tag sees was no letter before a pass either. -/
theorem stop_stood {r : Regex CodeUnit} (stop : (Regex.removeAll isWord r prev 0 t).head?.any isWord = false)
    (started : ∀ {a next}, Regex.Derives isWord r prev a next → a.head?.any isWord = false) (solid : r.nullable = false) :
    t.head?.any isWord = false := by
  cases found : Regex.exec isWord r prev t with
  | none =>
    rw [Regex.removeAll_head found] at stop
    exact stop
  | some rest =>
    obtain ⟨piece, rfl, derives⟩ := Regex.exec_some found
    cases piece with
    | nil =>
      rw [derives.nullable] at solid
      cases solid
    | cons u piece =>
      show (u :: piece).head?.any isWord = false
      exact started derives

theorem not_opens_whole {input : Text} {X w Y : List (CodeUnit × Bool)} (same : struck input = X ++ w ++ Y) (nonempty : w ≠ [])
    (whole : ∀ m ∈ w, m.2 = false) : ¬Opens (Regex.lastOf none (Regex.standing X)) (Regex.standing w) (Regex.standing Y) := by
  obtain ⟨X₂, Y₂, p₂, before₂, absent₂, reached, behind₂⟩ :=
    Regex.strike_stretch (r := inlineHandler) rfl (.inl ⟨rfl, rfl⟩) same nonempty whole
  obtain ⟨X₁, Y₁, p₁, _, absent₁, _, behind₁⟩ :=
    Regex.strike_stretch (r := listedTag) rfl (.inl ⟨rfl, rfl⟩) before₂ nonempty whole
  have matched : ∀ {r : Regex CodeUnit} {p : Option CodeUnit} {more t : Text} {u : CodeUnit},
      Regex.exec isWord r p (Regex.standing w ++ (more ++ u :: t)) = none →
        (∀ next, Regex.Derives isWord r p (Regex.standing w ++ (more ++ [u])) next) → False := by
    intro r p more t u absent derives
    have found := Regex.exec_isSome (derives t.head?)
    have shape : Regex.standing w ++ (more ++ [u]) ++ t = Regex.standing w ++ (more ++ u :: t) := by simp
    rw [shape, absent] at found
    cases found
  rintro (⟨opening, closes⟩ | ⟨opening, value⟩)
  · -- no handler starts behind a name, and a tag that starts there is as good as what follows
    obtain ⟨letter, stop⟩ := tagOpening_end opening
    rw [behind₂] at stop closes
    have stop₂ := stop_stood stop (fun derives => by rw [(handler_start derives).1] at letter; cases letter) rfl
    have closes₂ := (Regex.removeAll_sublist _ _ _).subset closes
    rw [behind₁] at stop₂ closes₂
    have stop₁ := stop_stood stop₂ (fun derives => by obtain ⟨_, rfl⟩ := tag_start derives; rfl) rfl
    have closes₁ := (Regex.removeAll_sublist _ _ _).subset closes₂
    have opening₁ : Regex.Derives isWord (.all tagOpening) p₁ (Regex.standing w) (Regex.standing Y₁).head? :=
      opening.context (fun looks => absurd looks (by decide)) fun _ => by rw [(tagOpening_end opening).2, stop₁]
    obtain ⟨more, rest, shape, tag⟩ := tag_complete opening₁ closes₁
    rw [shape] at absent₁
    exact matched absent₁ tag
  · rw [behind₂] at value
    obtain ⟨before, u, later, shape, letter⟩ := handler_start opening
    have before₂ : p₂.any isWord = false := by
      rw [shape] at reached
      exact handler_resumes letter before reached
    have opening₂ : Regex.Derives isWord (.all handlerOpening) p₂ (Regex.standing w) (Regex.standing Y).head? :=
      opening.context (fun _ => by rw [before, before₂]) fun _ => rfl
    obtain ⟨more, v, rest, shape, _, handler⟩ := handler_complete opening₂ (value_stood value)
    rw [shape] at absent₂
    exact matched absent₂ handler

/-! ### What is left is clean, or joined -/

theorem lastOf_space {front x : Text} (spaces : ∀ u ∈ front, isWhiteSpace u = true) :
    (Regex.lastOf none x).any isWord = (Regex.lastOf none (front ++ x)).any isWord := by
  rw [Regex.lastOf_append]
  cases x using List.reverseRecOn with
  | append_singleton x u => simp [Regex.lastOf]
  | nil =>
    cases front using List.reverseRecOn with
    | nil => rfl
    | append_singleton front v =>
      have space := isWord_of_space (spaces v (by simp))
      simp [Regex.lastOf, space]

theorem trim_split (t : Text) : ∃ front back, t = front ++ trim t ++ back ∧ ∀ u ∈ front, isWhiteSpace u = true := by
  obtain ⟨back, ends⟩ := List.rdropWhile_prefix isWhiteSpace (t.dropWhile isWhiteSpace)
  refine ⟨t.takeWhile isWhiteSpace, back, ?_, fun u member => List.mem_takeWhile_imp member⟩
  rw [List.append_assoc, show trim t ++ back = _ from ends, List.takeWhile_append_dropWhile]

theorem trim_piece {x b y : Text} {u v : CodeUnit} (first : isWhiteSpace u = false) (last : isWhiteSpace v = false) :
    trim (x ++ u :: (b ++ v :: y)) = x.dropWhile isWhiteSpace ++ u :: (b ++ v :: y.rdropWhile isWhiteSpace) := by
  have drop : ∀ {x y : Text} {u : CodeUnit}, isWhiteSpace u = false →
      (x ++ u :: y).dropWhile isWhiteSpace = x.dropWhile isWhiteSpace ++ u :: y := by
    intro x y u solid
    rw [List.dropWhile_append]
    split
    · rename_i nothing
      rw [List.isEmpty_iff.mp nothing, List.dropWhile_cons_of_neg (by rw [solid]; exact Bool.false_ne_true), List.nil_append]
    · rfl
  have back : ∀ z : Text, z ++ u :: (b ++ v :: y) = (z ++ u :: b) ++ v :: y := fun z => by simp
  rw [trim, drop first, back, List.rdropWhile, List.reverse_append, List.reverse_cons, List.append_assoc, List.singleton_append,
    drop last]
  simp [List.rdropWhile]

/-- An opening that is read in what is left was not read whole in the input. -/
theorem joined_of_opens {input x rest : Text} (text : Regex.standing (struck input) = x ++ (a ++ rest))
    (opens : Opens (Regex.lastOf none x) a rest) : Joined input := by
  obtain ⟨u, b, v, rfl, _⟩ := opens.ends
  have text : Regex.standing (struck input) = x ++ u :: (b ++ v :: rest) := by
    rw [text]
    simp
  obtain ⟨X, later, same, before, text⟩ := Regex.standing_split text
  obtain ⟨W, Y, rfl, inside, behind⟩ := Regex.standing_split text
  rw [← before, ← inside, ← behind] at opens
  by_cases whole : ∀ m ∈ W, m.2 = false
  · have shape : struck input = X ++ ((u, false) :: (W ++ [(v, false)])) ++ Y := by
      rw [same]
      simp
    refine (not_opens_whole shape (List.cons_ne_nil _ _) ?_ (by simpa using opens)).elim
    intro m member
    rcases List.mem_cons.mp member with rfl | member
    · rfl
    · rcases List.mem_append.mp member with member | member
      · exact whole m member
      · rw [List.mem_singleton.mp member]
  · exact ⟨X, u, W, v, Y, same, by simpa using whole, opens⟩

theorem joined_of_match {input : Text} {r : Regex CodeUnit} (pattern : r = listedTag ∨ r = inlineHandler)
    (somewhere : Regex.Matches isWord r none (trim (Regex.standing (struck input)))) : Joined input := by
  obtain ⟨x, after, trimmed, found⟩ := somewhere
  obtain ⟨rest, found⟩ := Option.isSome_iff_exists.mp found
  obtain ⟨piece, rfl, derives⟩ := Regex.exec_some found
  obtain ⟨front, back, text, white⟩ := trim_split (Regex.standing (struck input))
  have here : Regex.Derives isWord r (Regex.lastOf none (front ++ x)) piece rest.head? :=
    derives.context (fun _ => lastOf_space white) fun _ => rfl
  obtain ⟨b, c, rfl, opens⟩ := opens_of_match pattern here
  refine joined_of_opens ?_ (opens (rest ++ back))
  rw [text, trimmed]
  simp

/-- A joined opening goes on to a match, which no trimming takes away. -/
theorem Joined.matches {input : Text} (joined : Joined input) :
    ∃ r ∈ PATTERNS, Regex.Matches isWord r none (trim (Regex.standing (struck input))) := by
  obtain ⟨X, u, W, v, Y, same, _, opens⟩ := joined
  have solid : isWhiteSpace u = false := by
    obtain ⟨_, _, _, shape, solid⟩ := opens.ends
    rw [(List.cons.inj shape).1]
    exact solid
  obtain ⟨r, pattern, more, last, rest, shape, ends, derives⟩ := opens.complete
  have text : Regex.standing (struck input) =
      Regex.standing X ++ u :: ((Regex.standing W ++ v :: more) ++ last :: rest) := by
    rw [same]
    simp [shape]
  refine ⟨r, pattern, ?_⟩
  rw [text, trim_piece solid ends]
  refine ⟨(Regex.standing X).dropWhile isWhiteSpace, _, rfl, ?_⟩
  have piece : u :: ((Regex.standing W ++ v :: more) ++ last :: rest.rdropWhile isWhiteSpace) =
      u :: (Regex.standing W ++ [v]) ++ (more ++ [last]) ++ rest.rdropWhile isWhiteSpace := by simp
  rw [piece]
  refine Regex.exec_isSome ((derives _).context (fun _ => ?_) fun _ => rfl)
  have white : ∀ u ∈ (Regex.standing X).takeWhile isWhiteSpace, isWhiteSpace u = true :=
    fun u member => List.mem_takeWhile_imp member
  have ends := lastOf_space (x := (Regex.standing X).dropWhile isWhiteSpace) white
  rw [List.takeWhile_append_dropWhile] at ends
  exact ends.symm

theorem clean_iff {input : Text} : Clean (sanitizeString input) ↔ ¬Joined input := by
  rw [sanitizeString_eq]
  constructor
  · intro clean joined
    obtain ⟨r, pattern, somewhere⟩ := joined.matches
    exact clean r pattern somewhere
  · intro apart r pattern
    rcases List.mem_cons.mp pattern with rfl | pattern
    · exact fun block => apart (joined_of_match (.inl rfl) (scriptBlock_listedTag block))
    rcases List.mem_cons.mp pattern with rfl | pattern
    · exact fun tag => apart (joined_of_match (.inl rfl) tag)
    · rw [List.mem_singleton.mp pattern]
      exact fun handler => apart (joined_of_match (.inr rfl) handler)

theorem trim_length (t : Text) : (trim t).length ≤ t.length :=
  (List.rdropWhile_prefix isWhiteSpace _).length_le.trans (List.dropWhile_suffix isWhiteSpace).length_le

/-- A text is clean exactly when sanitizing leaves it, up to the white space around it. -/
theorem clean_iff_fixed {t : Text} (trimmed : trim t = t) : Clean t ↔ sanitizeString t = t := by
  constructor
  · intro clean
    rw [sanitizeString, Regex.removeAll_eq (clean scriptBlock (by simp [PATTERNS])),
      Regex.removeAll_eq (clean listedTag (by simp [PATTERNS])), Regex.removeAll_eq (clean inlineHandler (by simp [PATTERNS])), trimmed]
  · intro fixed
    have length := congrArg List.length fixed
    unfold sanitizeString at length
    dsimp only at length
    have ends := trim_length (Regex.removeAll isWord inlineHandler none 0
      (Regex.removeAll isWord listedTag none 0 (Regex.removeAll isWord scriptBlock none 0 t)))
    have third := Regex.removeAll_length isWord inlineHandler none 0
      (Regex.removeAll isWord listedTag none 0 (Regex.removeAll isWord scriptBlock none 0 t))
    have second := Regex.removeAll_length isWord listedTag none 0 (Regex.removeAll isWord scriptBlock none 0 t)
    have first := Regex.removeAll_length isWord scriptBlock none 0 t
    -- a pass that finds something leaves less, and no pass adds anything
    have blocks : ¬Regex.Matches isWord scriptBlock none t := by
      intro somewhere
      have shorter := Regex.removeAll_shorter rfl somewhere
      omega
    have tags : ¬Regex.Matches isWord listedTag none t := by
      intro somewhere
      have shorter := Regex.removeAll_shorter rfl somewhere
      rw [Regex.removeAll_eq blocks] at third second length ends
      omega
    have handlers : ¬Regex.Matches isWord inlineHandler none t := by
      intro somewhere
      have shorter := Regex.removeAll_shorter rfl somewhere
      rw [Regex.removeAll_eq blocks, Regex.removeAll_eq tags] at length ends
      omega
    intro r pattern
    rcases List.mem_cons.mp pattern with rfl | pattern
    · exact blocks
    rcases List.mem_cons.mp pattern with rfl | pattern
    · exact tags
    · rw [List.mem_singleton.mp pattern]
      exact handlers

end Sanitize
