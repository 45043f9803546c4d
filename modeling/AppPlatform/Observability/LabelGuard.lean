import AppPlatform.Lib.FirstSeen
import AppPlatform.Observability.ErrorLog

/-!
# The metric label guard

`LabelCardinalityGuard`: one map of the texts seen for each recorder and label. The limit of a label is read as a property
of the record of limits, so the names that every object inherits are found there too.
-/

namespace LabelGuard
open Js FirstSeen
open ErrorLog (OBJECT_PROTOTYPE)

def OVERFLOW_LABEL_VALUE : Text := text "__other__"

def MAX_LABEL_VALUE_LENGTH : ℕ := 128

def DEFAULT_LABEL_LIMIT : ℕ := 100

def LABEL_LIMITS : List (Text × ℕ) :=
  [(text "route", 500), (text "error_code", 200), (text "job_name", DEFAULT_LABEL_LIMIT), (text "queue", DEFAULT_LABEL_LIMIT)]

/-- A value as `String(value ?? 'UNKNOWN')` sees it. -/
inductive Value where
  | nullish
  | readable (text : Text)
  /-- `String` of it throws. -/
  | hostile

structure Call where
  scope : Text
  label : Text
  value : Value

/-- The own properties of the record of limits, and the limit of every other label. -/
structure Guard where
  limits : List (Text × ℕ)
  defaultLimit : ℕ

def labelGuard : Guard := ⟨LABEL_LIMITS, DEFAULT_LABEL_LIMIT⟩

structure State where
  seen : Text → List Text
  warned : List Text

def initial : State := ⟨fun _ => [], []⟩

/-- What `this.limits[label] ?? this.defaultLimit` reads. -/
inductive Limit where
  | number (n : ℕ)
  /-- A function of `Object.prototype`, or that object itself. -/
  | inherited

def Guard.limit (g : Guard) (label : Text) : Limit :=
  match g.limits.lookup label with
  | some n => .number n
  | none => if label ∈ OBJECT_PROTOTYPE then .inherited else .number g.defaultLimit

/-- `size < limit`: no number is less than an object that is no number. -/
def Limit.above (size : ℕ) : Limit → Bool
  | .number n => size < n
  | .inherited => false

def Value.text? : Value → Option Text
  | .nullish => some (text "UNKNOWN")
  | .readable text => some text
  | .hostile => none

/-- The text that is recorded, cut. -/
def Call.text? (c : Call) : Option Text := c.value.text?.map (·.take MAX_LABEL_VALUE_LENGTH)

def keyOf (scope label : Text) : Text := scope ++ unit '/' :: label

def State.add (s : State) (key bounded : Text) : State :=
  { s with seen := Function.update s.seen key (s.seen key ++ [bounded]) }

def State.warn (s : State) (key : Text) : State :=
  { s with warned := if key ∈ s.warned then s.warned else key :: s.warned }

/-- The body of `try`: what is returned and left, or nothing where it throws. -/
def record (g : Guard) (s : State) (c : Call) : Option (Text × State) :=
  c.text?.map fun bounded =>
    let key := keyOf c.scope c.label
    let values := s.seen key
    if bounded ∈ values then (bounded, s)
    else if (g.limit c.label).above values.length then (bounded, s.add key bounded)
    else (OVERFLOW_LABEL_VALUE, s.warn key)

def bound (g : Guard) (s : State) (c : Call) : Text × State :=
  (record g s c).getD (OVERFLOW_LABEL_VALUE, s)

def after (g : Guard) : State → List Call → State
  | s, [] => s
  | s, c :: rest => after g (bound g s c).2 rest

/-- What the calls of a history returned. -/
def answers (g : Guard) : State → List Call → List (Call × Text)
  | _, [] => []
  | s, c :: rest => (c, (bound g s c).1) :: answers g (bound g s c).2 rest

def Call.about (c : Call) (scope label : Text) : Bool := c.scope = scope ∧ c.label = label

/-- The texts recorded under a label, as they are cut. -/
def texts (history : List Call) (scope label : Text) : List Text :=
  (history.filter (·.about scope label)).filterMap Call.text?

def Guard.limitOf (g : Guard) (label : Text) : ℕ := (g.limits.lookup label).getD g.defaultLimit

def expected (first : List Text) (c : Call) : Text :=
  match c.text? with
  | some bounded => if bounded ∈ first then bounded else OVERFLOW_LABEL_VALUE
  | none => OVERFLOW_LABEL_VALUE

def returned (g : Guard) (history : List Call) (scope label : Text) : List Text :=
  ((answers g initial history).filter (·.1.about scope label)).map Prod.snd

/-- What the guard promises of a label in a history. -/
structure Bounded (g : Guard) (history : List Call) (scope label : Text) : Prop where
  answered : ∀ before c later, history = before ++ c :: later → c.about scope label = true →
    (bound g (after g initial before) c).1 = expected (firsts (g.limitOf label) (texts history scope label)) c
  few : (returned g history scope label).eraseDups.length ≤ g.limitOf label + 1

/-- No slash in the names. -/
def Call.plain (c : Call) : Bool := unit '/' ∉ c.scope ∧ unit '/' ∉ c.label

theorem keyOf_inj {c : Call} (plain : c.plain = true) {scope label : Text} (plainScope : unit '/' ∉ scope) :
    keyOf c.scope c.label = keyOf scope label ↔ c.about scope label = true := by
  have names := of_decide_eq_true plain
  constructor
  · intro same
    exact decide_eq_true (before_first names.1 plainScope same)
  · intro about
    obtain ⟨rfl, rfl⟩ := of_decide_eq_true about
    rfl

/-- The texts kept under a key after one more came. -/
def keep (limit : Limit) (values : List Text) (bounded : Text) : List Text :=
  if bounded ∈ values then values else if limit.above values.length then values ++ [bounded] else values

theorem bound_text {g : Guard} {s : State} {c : Call} {bounded : Text} (read : c.text? = some bounded) :
    (bound g s c).1 = (if bounded ∈ keep (g.limit c.label) (s.seen (keyOf c.scope c.label)) bounded then bounded
      else OVERFLOW_LABEL_VALUE) ∧
    (bound g s c).2.seen = Function.update s.seen (keyOf c.scope c.label)
      (keep (g.limit c.label) (s.seen (keyOf c.scope c.label)) bounded) := by
  simp only [bound, record, read, Option.map_some, Option.getD_some, keep]
  split
  · simp
  · split
    · simp [State.add]
    · simp [State.warn]

theorem bound_hostile {g : Guard} {s : State} {c : Call} (hostile : c.text? = none) :
    bound g s c = (OVERFLOW_LABEL_VALUE, s) := by
  rw [bound, record, hostile]
  rfl

theorem bound_other {g : Guard} {s : State} {c : Call} {key : Text} (other : keyOf c.scope c.label ≠ key) :
    (bound g s c).2.seen key = s.seen key := by
  cases read : c.text? with
  | none => rw [bound_hostile read]
  | some bounded => rw [(bound_text read).2, Function.update_of_ne (Ne.symm other)]

/-! ### Histories -/

theorem after_append (g : Guard) (s : State) (history later : List Call) :
    after g s (history ++ later) = after g (after g s history) later := by
  induction history generalizing s with
  | nil => rfl
  | cons c rest ih => exact ih _

theorem texts_append (history later : List Call) (scope label : Text) :
    texts (history ++ later) scope label = texts history scope label ++ texts later scope label := by
  simp [texts]

theorem texts_about {c : Call} {scope label : Text} (about : c.about scope label = true) :
    texts [c] scope label = c.text?.toList := by
  cases read : c.text? <;> simp [texts, about, read]

theorem texts_other {c : Call} {scope label : Text} (other : c.about scope label ≠ true) : texts [c] scope label = [] := by
  simp [texts, other]

theorem keep_number (n : ℕ) (history : List Text) (bounded : Text) :
    keep (.number n) (firsts n history) bounded = firsts n (history ++ [bounded]) := by
  rw [keep, firsts_snoc]
  simp only [Limit.above, decide_eq_true_eq]

section
variable {g : Guard} {history : List Call} {scope label : Text}

theorem seen_number {n : ℕ} (limit : g.limit label = .number n) (plain : ∀ c ∈ history, c.plain = true)
    (plainScope : unit '/' ∉ scope) :
    (after g initial history).seen (keyOf scope label) = firsts n (texts history scope label) := by
  induction history using List.reverseRecOn with
  | nil => simp [after, initial, texts, firsts]
  | append_singleton earlier c ih =>
    have before := ih fun c member => plain c (List.mem_append_left _ member)
    have names := plain c (by simp)
    rw [after_append, texts_append]
    by_cases about : c.about scope label = true
    · have key := (keyOf_inj names plainScope).mpr about
      obtain ⟨rfl, rfl⟩ := of_decide_eq_true about
      rw [texts_about about]
      cases read : c.text? with
      | none =>
        rw [after, after, bound_hostile read]
        simpa using before
      | some bounded =>
        rw [after, after, (bound_text read).2, Function.update_self, before, limit, keep_number]
        rfl
    · have key : keyOf c.scope c.label ≠ keyOf scope label := fun same => about ((keyOf_inj names plainScope).mp same)
      rw [texts_other about, List.append_nil, after, after, bound_other key, before]

theorem seen_inherited (limit : g.limit label = .inherited) (plain : ∀ c ∈ history, c.plain = true)
    (plainScope : unit '/' ∉ scope) :
    (after g initial history).seen (keyOf scope label) = [] := by
  induction history using List.reverseRecOn with
  | nil => rfl
  | append_singleton earlier c ih =>
    have before := ih fun c member => plain c (List.mem_append_left _ member)
    have names := plain c (by simp)
    rw [after_append, after, after]
    by_cases about : c.about scope label = true
    · obtain ⟨rfl, rfl⟩ := of_decide_eq_true about
      cases read : c.text? with
      | none => rw [bound_hostile read, before]
      | some bounded =>
        rw [(bound_text read).2, Function.update_self, before, limit]
        rfl
    · have key : keyOf c.scope c.label ≠ keyOf scope label := fun same => about ((keyOf_inj names plainScope).mp same)
      rw [bound_other key, before]

theorem answered_number {n : ℕ} (limit : g.limit label = .number n) {before later : List Call} {c : Call}
    (plain : ∀ call ∈ before ++ c :: later, call.plain = true) (plainScope : unit '/' ∉ scope)
      (about : c.about scope label = true) :
    (bound g (after g initial before) c).1 = expected (firsts n (texts (before ++ c :: later) scope label)) c := by
  have kept : (after g initial before).seen (keyOf scope label) = firsts n (texts before scope label) :=
    seen_number limit (fun c member => plain c (List.mem_append_left _ member)) plainScope
  obtain ⟨rfl, rfl⟩ := of_decide_eq_true about
  unfold expected
  cases read : c.text? with
  | none => rw [bound_hostile read]
  | some bounded =>
    have came : bounded ∈ texts before c.scope c.label ++ [bounded] := by simp
    have split : texts (before ++ c :: later) c.scope c.label =
        (texts before c.scope c.label ++ [bounded]) ++ texts later c.scope c.label := by
      rw [List.append_cons, texts_append, texts_append, texts_about about, read]
      rfl
    rw [(bound_text read).1, kept, limit, keep_number, split]
    simp only [mem_firsts_append came]

theorem answered_inherited (limit : g.limit label = .inherited) {before : List Call} {c : Call}
    (plain : ∀ c ∈ before, c.plain = true) (plainScope : unit '/' ∉ scope) (about : c.about scope label = true) :
    (bound g (after g initial before) c).1 = OVERFLOW_LABEL_VALUE := by
  have kept := seen_inherited limit plain plainScope
  obtain ⟨rfl, rfl⟩ := of_decide_eq_true about
  cases read : c.text? with
  | none => rw [bound_hostile read]
  | some bounded =>
    rw [(bound_text read).1, kept, limit]
    rfl

end

/-! ### The promise -/

theorem mem_answers {g : Guard} {s : State} {history : List Call} {c : Call} {answer : Text}
    (member : (c, answer) ∈ answers g s history) :
    ∃ before later, history = before ++ c :: later ∧ answer = (bound g (after g s before) c).1 := by
  induction history generalizing s with
  | nil => cases member
  | cons first rest ih =>
    rcases List.mem_cons.mp member with same | member
    · cases same
      exact ⟨[], rest, rfl, rfl⟩
    · obtain ⟨before, later, rfl, same⟩ := ih member
      exact ⟨first :: before, later, rfl, same⟩

theorem mem_returned {g : Guard} {history : List Call} {scope label answer : Text} (member : answer ∈ returned g history scope label) :
    ∃ before c later, history = before ++ c :: later ∧ c.about scope label = true ∧
      answer = (bound g (after g initial before) c).1 := by
  obtain ⟨⟨c, _⟩, kept, rfl⟩ := List.mem_map.mp member
  obtain ⟨made, about⟩ := List.mem_filter.mp kept
  obtain ⟨before, later, split, same⟩ := mem_answers made
  exact ⟨before, c, later, split, about, same⟩

theorem expected_mem (first : List Text) (c : Call) : expected first c ∈ OVERFLOW_LABEL_VALUE :: first := by
  unfold expected
  split
  · split
    · rename_i kept
      exact List.mem_cons_of_mem _ kept
    · exact List.mem_cons_self
  · exact List.mem_cons_self

theorem returned_few {g : Guard} {history : List Call} {scope label : Text} {first : List Text}
    (known : ∀ answer ∈ returned g history scope label, answer ∈ OVERFLOW_LABEL_VALUE :: first) :
    (returned g history scope label).eraseDups.length ≤ first.length + 1 :=
  ((eraseDups_nodup _).subperm fun answer member => known answer (List.mem_eraseDups.mp member)).length_le

/-- The limit of a label is found on `Object.prototype`. -/
def Guard.inherits (g : Guard) (label : Text) : Prop := g.limits.lookup label = none ∧ label ∈ OBJECT_PROTOTYPE

theorem limit_inherited {g : Guard} {label : Text} (inherits : g.inherits label) : g.limit label = .inherited := by
  rw [Guard.limit, inherits.1]
  exact if_pos inherits.2

theorem limit_number {g : Guard} {label : Text} (own : ¬g.inherits label) : g.limit label = .number (g.limitOf label) := by
  unfold Guard.limit Guard.limitOf
  cases listed : g.limits.lookup label with
  | some n => rfl
  | none => exact if_neg fun inherited => own ⟨listed, inherited⟩

theorem mem_texts {history : List Call} {scope label bounded : Text} (came : bounded ∈ texts history scope label) :
    ∃ before c later, history = before ++ c :: later ∧ c.about scope label = true ∧ c.text? = some bounded := by
  obtain ⟨c, kept, read⟩ := List.mem_filterMap.mp came
  obtain ⟨made, about⟩ := List.mem_filter.mp kept
  obtain ⟨before, later, split⟩ := List.append_of_mem made
  exact ⟨before, c, later, split, about, read⟩

theorem bounded_of_own {g : Guard} {history : List Call} {scope label : Text} (plain : ∀ c ∈ history, c.plain = true)
    (plainScope : unit '/' ∉ scope) (own : ¬g.inherits label) : Bounded g history scope label := by
  have answered : ∀ before c later, history = before ++ c :: later → c.about scope label = true →
      (bound g (after g initial before) c).1 = expected (firsts (g.limitOf label) (texts history scope label)) c := by
    rintro before c later rfl about
    exact answered_number (limit_number own) plain plainScope about
  have known : ∀ answer ∈ returned g history scope label,
      answer ∈ OVERFLOW_LABEL_VALUE :: firsts (g.limitOf label) (texts history scope label) := by
    intro answer member
    obtain ⟨before, c, later, split, about, rfl⟩ := mem_returned member
    rw [answered before c later split about]
    exact expected_mem _ c
  exact ⟨answered, (returned_few known).trans (Nat.succ_le_succ (length_firsts _ _))⟩

theorem bounded_of_inherits {g : Guard} {history : List Call} {scope label : Text} (plain : ∀ c ∈ history, c.plain = true)
    (plainScope : unit '/' ∉ scope) (inherits : g.inherits label) :
    Bounded g history scope label ↔
      ∀ bounded ∈ firsts (g.limitOf label) (texts history scope label), bounded = OVERFLOW_LABEL_VALUE := by
  have overflows : ∀ before c later, history = before ++ c :: later → c.about scope label = true →
      (bound g (after g initial before) c).1 = OVERFLOW_LABEL_VALUE := by
    rintro before c later rfl about
    exact answered_inherited (limit_inherited inherits) (fun c member => plain c (List.mem_append_left _ member)) plainScope about
  constructor
  · intro promised bounded first
    obtain ⟨before, c, later, split, about, read⟩ := mem_texts (mem_of_firsts first)
    have answer := promised.answered before c later split about
    rw [overflows before c later split about, expected, read] at answer
    simp only [if_pos first] at answer
    exact answer.symm
  · intro merged
    refine ⟨?_, ?_⟩
    · intro before c later split about
      rw [overflows before c later split about, expected]
      split
      · split
        · rename_i first
          exact (merged _ first).symm
        · rfl
      · rfl
    · have known : ∀ answer ∈ returned g history scope label, answer ∈ [OVERFLOW_LABEL_VALUE] := by
        intro answer member
        obtain ⟨before, c, later, split, about, rfl⟩ := mem_returned member
        rw [overflows before c later split about]
        exact List.mem_cons_self
      exact (returned_few known).trans (Nat.succ_le_succ (Nat.zero_le _))

/-- In a history of names without a slash, whatever is recorded under other names, the guard keeps its promise to a label exactly
where the label has a limit of its own or is no name that every object inherits, or no text but the overflow value came first. -/
theorem bounded_iff {g : Guard} {history : List Call} {scope label : Text} (plain : ∀ c ∈ history, c.plain = true)
    (plainScope : unit '/' ∉ scope) :
    Bounded g history scope label ↔ (g.limits.lookup label).isSome = true ∨ label ∉ OBJECT_PROTOTYPE ∨
      ∀ bounded ∈ firsts (g.limitOf label) (texts history scope label), bounded = OVERFLOW_LABEL_VALUE := by
  by_cases inherits : g.inherits label
  · rw [bounded_of_inherits plain plainScope inherits, inherits.1]
    simp [inherits.2]
  · refine iff_of_true (bounded_of_own plain plainScope inherits) ?_
    rw [Guard.inherits, not_and_or] at inherits
    rcases inherits with listed | other
    · exact .inl (Option.isSome_iff_ne_none.mpr listed)
    · exact .inr (.inl other)

def smallGuard : Guard := ⟨[(text "route", 2)], DEFAULT_LABEL_LIMIT⟩

/-- Routes past a limit of two, one of them again, a value that cannot be put into words, and a queue among them. -/
def routeCalls : List Call :=
  [⟨text "http", text "route", .readable (text "/a")⟩, ⟨text "http", text "route", .hostile⟩,
    ⟨text "http", text "route", .readable (text "/b")⟩, ⟨text "jobs", text "queue", .readable (text "mail")⟩,
    ⟨text "http", text "route", .readable (text "/a")⟩, ⟨text "http", text "route", .readable (text "/c")⟩,
    ⟨text "http", text "route", .nullish⟩]

theorem bounded_iff_routes :
    returned smallGuard routeCalls (text "http") (text "route") =
      [text "/a", OVERFLOW_LABEL_VALUE, text "/b", text "/a", OVERFLOW_LABEL_VALUE, OVERFLOW_LABEL_VALUE] ∧
    (Bounded smallGuard routeCalls (text "http") (text "route") ↔
      (smallGuard.limits.lookup (text "route")).isSome = true ∨ text "route" ∉ OBJECT_PROTOTYPE ∨
        ∀ bounded ∈ firsts (smallGuard.limitOf (text "route")) (texts routeCalls (text "http") (text "route")),
          bounded = OVERFLOW_LABEL_VALUE) :=
  ⟨by decide +kernel, bounded_iff (by decide +kernel) (by decide)⟩

def constructorCall : Call := ⟨text "http.server", text "constructor", .readable (text "a")⟩

/-- The first text of the label `constructor` is merged. -/
theorem constructor_merged : constructorCall.plain = true ∧
    (bound labelGuard initial constructorCall).1 = OVERFLOW_LABEL_VALUE ∧
    ¬Bounded labelGuard [constructorCall] (text "http.server") (text "constructor") := by
  have merged : (bound labelGuard initial constructorCall).1 = OVERFLOW_LABEL_VALUE := by decide +kernel
  refine ⟨by decide +kernel, merged, fun promised => ?_⟩
  have answer := promised.answered [] constructorCall [] rfl (by decide +kernel)
  rw [after, merged] at answer
  exact absurd answer (by decide +kernel)

end LabelGuard
