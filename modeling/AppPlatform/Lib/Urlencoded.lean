import AppPlatform.Lib.PercentEncoding

/-!
# Form encoding

A list of names and values as one string of bytes. What is written is read back, with U+FFFD for every surrogate outside a pair.
-/

namespace Urlencoded
open Js Percent

abbrev Params := List (Text × Text)

/-- The bytes that stand for themselves. -/
def literal (b : UInt8) : Bool :=
  (48 ≤ b && b ≤ 57) || (65 ≤ b && b ≤ 90) || (97 ≤ b && b ≤ 122) || (ascii "*-._").contains b

def encodeByte (b : UInt8) : Bytes := if b = byte ' ' then [byte '+'] else if literal b then [b] else escape b

def encode (t : Text) : Bytes := (utf8 t).flatMap encodeByte

def space (b : UInt8) : UInt8 := if b = byte '+' then byte ' ' else b

def decode (bytes : Bytes) : Text := decodeUtf8 (Percent.decode (bytes.map space))

def part (p : Text × Text) : Bytes := encode p.1 ++ byte '=' :: encode p.2

def serialize (params : Params) : Bytes := [byte '&'].intercalate (params.map part)

def pair (part : Bytes) : Text × Text :=
  (decode (part.takeWhile (· ≠ byte '=')), decode (part.dropWhile (· ≠ byte '=')).tail)

def parse (bytes : Bytes) : Params := ((bytes.splitOn (byte '&')).filter (· ≠ [])).map pair

/-! ### What is written -/

/-- The bytes that a name or a value is written with. -/
def Written (b : UInt8) : Prop := b = byte '+' ∨ b = byte '%' ∨ literal b = true

theorem literal_hexDigit : ∀ n < 16, literal (Percent.hexDigit n) = true := by decide

theorem encode_written (t : Text) : ∀ b ∈ encode t, Written b := by
  intro b member
  obtain ⟨c, _, written⟩ := List.mem_flatMap.mp member
  have word := c.toNat_lt
  unfold encodeByte at written
  split at written
  · exact .inl (List.mem_singleton.mp written)
  · split at written
    · rename_i own
      rw [List.mem_singleton.mp written]
      exact .inr (.inr own)
    · rcases List.mem_cons.mp written with percent | written
      · exact .inr (.inl percent)
      · rcases List.mem_cons.mp written with high | written
        · rw [high]
          exact .inr (.inr (literal_hexDigit _ (by omega)))
        · rw [List.mem_singleton.mp written]
          exact .inr (.inr (literal_hexDigit _ (by omega)))

theorem not_written {b : UInt8} (plus : b ≠ byte '+') (percent : b ≠ byte '%') (other : literal b = false) : ¬ Written b := by
  rintro (same | same | own)
  · exact plus same
  · exact percent same
  · cases other.symm.trans own

theorem part_ne (p : Text × Text) {b : UInt8} (unwritten : ¬ Written b) (equals : b ≠ byte '=') : b ∉ part p := by
  intro member
  rcases List.mem_append.mp member with name | rest
  · exact unwritten (encode_written _ _ name)
  · rcases List.mem_cons.mp rest with same | value
    · exact equals same
    · exact unwritten (encode_written _ _ value)

theorem part_ne_nil (p : Text × Text) : part p ≠ [] := by simp [part]

theorem mem_intercalate {α : Type*} {sep x : α} {parts : List (List α)} (member : x ∈ [sep].intercalate parts) :
    x = sep ∨ ∃ part ∈ parts, x ∈ part := by
  induction parts with
  | nil => cases member
  | cons first parts ih =>
    cases parts with
    | nil =>
      rw [List.intercalate_singleton] at member
      exact .inr ⟨first, List.mem_singleton_self _, member⟩
    | cons second parts =>
      rw [List.intercalate_cons_cons, List.append_assoc] at member
      rcases List.mem_append.mp member with here | member
      · exact .inr ⟨first, List.mem_cons_self, here⟩
      · rcases List.mem_append.mp member with here | there
        · exact .inl (List.mem_singleton.mp here)
        · rcases ih there with same | ⟨part, given, inside⟩
          · exact .inl same
          · exact .inr ⟨part, List.mem_cons_of_mem _ given, inside⟩

theorem serialize_written (params : Params) : ∀ b ∈ serialize params, Written b ∨ b = byte '&' ∨ b = byte '=' := by
  intro b member
  rcases mem_intercalate member with separator | ⟨written, given, inside⟩
  · exact .inr (.inl separator)
  · obtain ⟨p, _, rfl⟩ := List.mem_map.mp given
    by_contra other
    rw [not_or, not_or] at other
    exact part_ne p other.1 other.2.2 inside

theorem serialize_ne_nil {params : Params} (some : params ≠ []) : serialize params ≠ [] := by
  intro empty
  obtain ⟨p, params, rfl⟩ := List.exists_cons_of_ne_nil some
  cases params with
  | nil =>
    rw [serialize, List.map_singleton, List.intercalate_singleton] at empty
    exact part_ne_nil p empty
  | cons q params =>
    rw [serialize, List.map_cons, List.map_cons, List.intercalate_cons_cons, List.append_assoc, List.append_eq_nil_iff] at empty
    exact part_ne_nil p empty.1

theorem decode_encodeByte (b : UInt8) (rest : Bytes) :
    Percent.decode ((encodeByte b ++ rest).map space) = b :: Percent.decode (rest.map space) := by
  have word := b.toNat_lt
  have digits : ∀ n < 16, space (Percent.hexDigit n) = Percent.hexDigit n := by decide
  unfold encodeByte
  split
  · rename_i blank
    subst blank
    rw [List.singleton_append, List.map_cons, show space (byte '+') = byte ' ' from rfl, decode_cons (by decide)]
  · split
    · rename_i own
      have plus : b ≠ byte '+' := by
        rintro rfl
        exact absurd own (by decide)
      have percent : b ≠ byte '%' := by
        rintro rfl
        exact absurd own (by decide)
      rw [List.singleton_append, List.map_cons, space, if_neg plus, decode_cons percent]
    · rw [List.map_append, show (escape b).map space = escape b from ?_, decode_escape]
      rw [escape, List.map_cons, List.map_cons, List.map_singleton, digits _ (by omega), digits _ (by omega)]
      rfl

theorem decode_encode (t : Text) : decode (encode t) = toWellFormed t := by
  have read : ∀ bytes : Bytes, Percent.decode ((bytes.flatMap encodeByte).map space) = bytes := by
    intro bytes
    induction bytes with
    | nil => rfl
    | cons b bytes ih => rw [List.flatMap_cons, decode_encodeByte, ih]
  rw [decode, encode, read, decodeUtf8_utf8]

theorem pair_part (p : Text × Text) : pair (part p) = (toWellFormed p.1, toWellFormed p.2) := by
  have unwritten : ∀ b ∈ encode p.1, decide (b ≠ byte '=') = true := by
    intro b member
    rw [decide_eq_true_iff]
    rintro rfl
    exact not_written (by decide) (by decide) (by decide) (encode_written _ _ member)
  rw [pair, part, List.takeWhile_append_of_pos unwritten, List.dropWhile_append_of_pos unwritten]
  simp [decode_encode]

theorem parse_serialize (params : Params) : parse (serialize params) = params.map fun p => (toWellFormed p.1, toWellFormed p.2) := by
  cases params with
  | nil => rfl
  | cons p params =>
    have apart : ∀ written ∈ (p :: params).map part, byte '&' ∉ written := by
      intro written given
      obtain ⟨q, _, rfl⟩ := List.mem_map.mp given
      exact part_ne q (not_written (by decide) (by decide) (by decide)) (by decide)
    have kept : ((p :: params).map part).filter (· ≠ []) = (p :: params).map part := by
      rw [List.filter_eq_self]
      intro written given
      obtain ⟨q, _, rfl⟩ := List.mem_map.mp given
      exact decide_eq_true (part_ne_nil q)
    rw [parse, serialize, List.splitOn_intercalate _ apart (by simp), kept, List.map_map]
    exact List.map_congr_left fun q _ => pair_part q

theorem decode_wellFormed (bytes : Bytes) : isWellFormed (decode bytes) = true := by
  rw [decode, decodeUtf8]
  generalize decodeChars none (Percent.decode (bytes.map space)) = chars
  induction chars with
  | nil => rfl
  | cons c chars ih => rw [List.flatMap_cons, isWellFormed_unitsOf, ih]

theorem parse_wellFormed {bytes : Bytes} {p : Text × Text} (member : p ∈ parse bytes) :
    isWellFormed p.1 = true ∧ isWellFormed p.2 = true := by
  obtain ⟨part, _, rfl⟩ := List.mem_map.mp member
  exact ⟨decode_wellFormed _, decode_wellFormed _⟩

/-! ### `URLSearchParams` -/

def has (params : Params) (name : Text) : Bool := params.any fun p => p.1 = name

/-- The first of the name gets the value, and the others go. -/
def set (params : Params) (name value : Text) : Params :=
  match params with
  | [] => [(name, value)]
  | p :: rest => if p.1 = name then (name, value) :: rest.filter (·.1 ≠ name) else p :: set rest name value

def get (params : Params) (name : Text) : Option Text := (params.find? fun p => p.1 = name).map Prod.snd

def others (params : Params) (name : Text) : Params := params.filter (·.1 ≠ name)

theorem set_ne_nil (params : Params) (name value : Text) : set params name value ≠ [] := by
  cases params with
  | nil => nofun
  | cons p rest =>
    rw [set]
    split <;> nofun

theorem others_set (params : Params) (name value : Text) : others (set params name value) name = others params name := by
  induction params with
  | nil => simp [set, others]
  | cons p rest ih =>
    rw [set]
    split
    · rename_i same
      simp [others, same]
    · rename_i differs
      simp only [others, List.filter_cons, differs, ne_eq, not_false_eq_true, decide_true, if_true] at ih ⊢
      rw [ih]

theorem get_set (params : Params) (name value : Text) : get (set params name value) name = some value := by
  induction params with
  | nil => simp [set, get]
  | cons p rest ih =>
    rw [set]
    split
    · simp [get]
    · rename_i differs
      unfold get at ih ⊢
      rw [List.find?_cons_of_neg (by simpa using differs)]
      exact ih

theorem mem_set {params : Params} {name value : Text} {p : Text × Text} (member : p ∈ set params name value) :
    p = (name, value) ∨ p ∈ params := by
  induction params with
  | nil => exact .inl (List.mem_singleton.mp member)
  | cons q rest ih =>
    rw [set] at member
    split at member
    · rcases List.mem_cons.mp member with same | member
      · exact .inl same
      · exact .inr (List.mem_cons_of_mem _ (List.mem_of_mem_filter member))
    · rcases List.mem_cons.mp member with same | member
      · exact .inr (same ▸ List.mem_cons_self)
      · rcases ih member with same | there
        · exact .inl same
        · exact .inr (List.mem_cons_of_mem _ there)

/-- Of a list that was read, what `set` gives is written and read back as it is. -/
theorem parse_set {bytes : Bytes} {name value : Text} (plain : isWellFormed name = true) (plain' : isWellFormed value = true) :
    parse (serialize (set (parse bytes) name value)) = set (parse bytes) name value := by
  rw [parse_serialize]
  conv_rhs => rw [← List.map_id (set (parse bytes) name value)]
  refine List.map_congr_left fun p member => ?_
  have wellFormed : isWellFormed p.1 = true ∧ isWellFormed p.2 = true := by
    rcases mem_set member with rfl | given
    · exact ⟨plain, plain'⟩
    · exact parse_wellFormed given
  rw [toWellFormed_eq wellFormed.1, toWellFormed_eq wellFormed.2]
  rfl

end Urlencoded
