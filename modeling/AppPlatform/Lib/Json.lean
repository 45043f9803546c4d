import AppPlatform.Lib.NumberText
import AppPlatform.Lib.Properties

/-!
# JSON

`parse` is `JSON.parse` and `stringify` is `JSON.stringify` on values that came out of it.
`parse_stringify` reads back what was written: the same value, with numbers past the range of
doubles written as `null` and object keys in property order.
-/

namespace Js

inductive Json where
  | null
  | bool (b : Bool)
  | num (x : Number)
  | str (s : Text)
  | arr (items : List Json)
  | obj (fields : List (Text × Json))

/-! ### Strings -/

def quote : CodeUnit := 0x22

def backslash : CodeUnit := 0x5C

def hexDigit (d : ℕ) : CodeUnit := if d < 10 then (48 + d).toUInt16 else (87 + d).toUInt16

def hexValue? (u : CodeUnit) : Option ℕ :=
  if unit '0' ≤ u ∧ u ≤ unit '9' then some (u.toNat - 48)
  else if unit 'a' ≤ u ∧ u ≤ unit 'f' then some (u.toNat - 87)
  else if unit 'A' ≤ u ∧ u ≤ unit 'F' then some (u.toNat - 55)
  else none

def letterEscape? (u : CodeUnit) : Option CodeUnit :=
  if u = 0x8 then some (unit 'b')
  else if u = 0x9 then some (unit 't')
  else if u = 0xA then some (unit 'n')
  else if u = 0xC then some (unit 'f')
  else if u = 0xD then some (unit 'r')
  else if u = quote then some quote
  else if u = backslash then some backslash
  else none

def letterUnescape? (e : CodeUnit) : Option CodeUnit :=
  if e = unit 'b' then some 0x8
  else if e = unit 't' then some 0x9
  else if e = unit 'n' then some 0xA
  else if e = unit 'f' then some 0xC
  else if e = unit 'r' then some 0xD
  else if e = quote then some quote
  else if e = backslash then some backslash
  else if e = unit '/' then some (unit '/')
  else none

def unicodeEscape (u : CodeUnit) : Text :=
  [backslash, unit 'u', hexDigit (u.toNat / 4096), hexDigit (u.toNat / 256 % 16), hexDigit (u.toNat / 16 % 16),
    hexDigit (u.toNat % 16)]

def escapeUnit (u : CodeUnit) : Text :=
  match letterEscape? u with
  | some e => [backslash, e]
  | none => if u < 0x20 then unicodeEscape u else [u]

/-- The inside of a quoted string; a surrogate outside a pair is written as an escape. -/
def escapeUnits : Text → Text
  | [] => []
  | [u] => if isLead u || isTrail u then unicodeEscape u else escapeUnit u
  | u :: v :: rest =>
    if isLead u && isTrail v then u :: v :: escapeUnits rest
    else (if isLead u || isTrail u then unicodeEscape u else escapeUnit u) ++ escapeUnits (v :: rest)

def quoteText (s : Text) : Text := quote :: (escapeUnits s ++ [quote])

def hex4? (a b c d : CodeUnit) : Option CodeUnit := do
  let a ← hexValue? a
  let b ← hexValue? b
  let c ← hexValue? c
  let d ← hexValue? d
  return (a * 4096 + b * 256 + c * 16 + d).toUInt16

/-- The string whose opening quote was read, and what follows its closing quote. -/
def parseString : Text → Option (Text × Text)
  | [] => none
  | u :: rest =>
    if u = quote then some ([], rest)
    else if u = backslash then
      match rest with
      | [] => none
      | e :: rest =>
        if e = unit 'u' then
          match rest with
          | a :: b :: c :: d :: rest => do
            let v ← hex4? a b c d
            let (s, rest) ← parseString rest
            return (v :: s, rest)
          | _ => none
        else do
          let v ← letterUnescape? e
          let (s, rest) ← parseString rest
          return (v :: s, rest)
    else if u < 0x20 then none
    else do
      let (s, rest) ← parseString rest
      return (u :: s, rest)

theorem hexValue_hexDigit {d : ℕ} (h : d < 16) : hexValue? (hexDigit d) = some d := by
  interval_cases d <;> decide

theorem hex4_unicode (u : CodeUnit) :
    hex4? (hexDigit (u.toNat / 4096)) (hexDigit (u.toNat / 256 % 16)) (hexDigit (u.toNat / 16 % 16))
      (hexDigit (u.toNat % 16)) = some u := by
  have bound := u.toNat_lt
  simp only [hex4?, hexValue_hexDigit (show u.toNat / 4096 < 16 by omega),
    hexValue_hexDigit (Nat.mod_lt _ (show 16 > 0 by norm_num)), Option.bind_eq_bind, Option.bind_some]
  have value : u.toNat / 4096 * 4096 + u.toNat / 256 % 16 * 256 + u.toNat / 16 % 16 * 16 + u.toNat % 16 = u.toNat := by
    omega
  rw [value]
  exact congrArg some (UInt16.ofNat_toNat)

theorem parseString_unicode (u : CodeUnit) (t : Text) :
    parseString (unicodeEscape u ++ t) = (parseString t).map fun (s, r) => (u :: s, r) := by
  simp only [unicodeEscape, List.cons_append, List.nil_append, parseString, show backslash ≠ quote by decide,
    if_false, if_true, hex4_unicode, Option.bind_eq_bind, Option.bind_some]
  cases parseString t <;> rfl

theorem letterUnescape_escape {u e : CodeUnit} (h : letterEscape? u = some e) :
    letterUnescape? e = some u ∧ e ≠ unit 'u' := by
  unfold letterEscape? at h
  repeat'
    split at h
    · cases h
      subst u
      decide
  cases h

theorem parseString_raw {u : CodeUnit} (t : Text) (notQuote : u ≠ quote) (notBackslash : u ≠ backslash)
    (printable : ¬ u < 0x20) : parseString (u :: t) = (parseString t).map fun (s, r) => (u :: s, r) := by
  rw [parseString.eq_def]
  simp only [if_neg notQuote, if_neg notBackslash, if_neg printable]
  cases parseString t <;> rfl

theorem parseString_escapeUnit (u : CodeUnit) (t : Text) :
    parseString (escapeUnit u ++ t) = (parseString t).map fun (s, r) => (u :: s, r) := by
  unfold escapeUnit
  split
  · rename_i e found
    obtain ⟨unescape, notU⟩ := letterUnescape_escape found
    rw [List.cons_append, List.cons_append, List.nil_append, parseString.eq_def]
    simp only [show backslash ≠ quote by decide, if_false, if_true, if_neg notU, unescape, Option.bind_eq_bind,
      Option.bind_some]
    cases parseString t <;> rfl
  · rename_i absent
    split
    · exact parseString_unicode u t
    · rename_i printable
      refine parseString_raw t ?_ ?_ printable
      · rintro rfl
        cases absent
      · rintro rfl
        cases absent

theorem surrogate_raw {u : CodeUnit} (h : isLead u = true ∨ isTrail u = true) :
    u ≠ quote ∧ u ≠ backslash ∧ ¬ u < 0x20 := by
  simp only [isLead, isTrail, Bool.and_eq_true, decide_eq_true_eq, UInt16.le_iff_toNat_le] at h
  have low : 0xD800 ≤ u.toNat := by
    rcases h with h | h
    · exact h.1
    · exact le_trans (by decide) h.1
  refine ⟨?_, ?_, ?_⟩
  · rintro rfl
    exact absurd low (by decide)
  · rintro rfl
    exact absurd low (by decide)
  · rw [UInt16.lt_iff_toNat_lt]
    have : (0x20 : CodeUnit).toNat = 32 := rfl
    omega

theorem parseString_escapeUnits (s rest : Text) :
    parseString (escapeUnits s ++ quote :: rest) = some (s, rest) := by
  have closing : parseString (quote :: rest) = some ([], rest) := by
    rw [parseString.eq_def]
    exact if_pos rfl
  induction s using escapeUnits.induct with
  | case1 => exact closing
  | case2 u surrogate => simp [escapeUnits, surrogate, parseString_unicode, closing]
  | case3 u plain => simp [escapeUnits, plain, parseString_escapeUnit, closing]
  | case4 u v tail pair ih =>
    have both := Bool.and_eq_true_iff.mp pair
    obtain ⟨q, b, c⟩ := surrogate_raw (Or.inl both.1)
    obtain ⟨q', b', c'⟩ := surrogate_raw (Or.inr both.2)
    rw [escapeUnits, if_pos pair, List.cons_append, List.cons_append, parseString_raw _ q b c,
      parseString_raw _ q' b' c', ih]
    rfl
  | case5 u v tail notPair ih =>
    rw [escapeUnits, if_neg notPair, List.append_assoc]
    split
    · rw [parseString_unicode, ih]
      rfl
    · rw [parseString_escapeUnit, ih]
      rfl

/-! ### Values -/

def openBrace : CodeUnit := 0x7B

def closeBrace : CodeUnit := 0x7D

def openBracket : CodeUnit := 0x5B

def closeBracket : CodeUnit := 0x5D

def comma : CodeUnit := 0x2C

def colon : CodeUnit := 0x3A

def isSpace (u : CodeUnit) : Bool := u = 0x20 || u = 0x9 || u = 0xA || u = 0xD

def skipSpace (t : Text) : Text := t.dropWhile isSpace

/-- The rest of the text after a fixed word. -/
def skipWord (word t : Text) : Option Text := if word.isPrefixOf t then some (t.drop word.length) else none

mutual
/-- A value at the head of the text, and what follows it; the number bounds the nesting. -/
def parseValue : ℕ → Text → Option (Json × Text)
  | 0, _ => none
  | f + 1, t =>
    match skipSpace t with
    | [] => none
    | u :: r =>
      if u = quote then (parseString r).map fun (s, r) => (.str s, r)
      else if u = openBracket then
        match skipSpace r with
        | v :: r' =>
          if v = closeBracket then some (.arr [], r')
          else (parseItems f r).map fun (items, r) => (.arr items, r)
        | [] => none
      else if u = openBrace then
        match skipSpace r with
        | v :: r' =>
          if v = closeBrace then some (.obj [], r')
          else (parseMembers f r).map fun (members, r) => (.obj (buildFields members), r)
        | [] => none
      else match skipWord (text "null") (u :: r), skipWord (text "true") (u :: r), skipWord (text "false") (u :: r) with
        | some r, _, _ => some (.null, r)
        | _, some r, _ => some (.bool true, r)
        | _, _, some r => some (.bool false, r)
        | none, none, none => (scanNumber (u :: r)).map fun (x, r) => (.num x, r)

def parseItems : ℕ → Text → Option (List Json × Text)
  | 0, _ => none
  | f + 1, t => do
    let (v, r) ← parseValue f t
    match skipSpace r with
    | [] => none
    | u :: r =>
      if u = comma then (parseItems f r).map fun (items, r) => (v :: items, r)
      else if u = closeBracket then some ([v], r) else none

/-- The members of an object up to its closing brace, in the order of the text. -/
def parseMembers : ℕ → Text → Option (List (Text × Json) × Text)
  | 0, _ => none
  | f + 1, t =>
    match skipSpace t with
    | [] => none
    | u :: r =>
      if u = quote then do
        let (k, r) ← parseString r
        match skipSpace r with
        | [] => none
        | u :: r =>
          if u = colon then do
            let (v, r) ← parseValue f r
            match skipSpace r with
            | [] => none
            | u :: r =>
              if u = comma then (parseMembers f r).map fun (members, r) => ((k, v) :: members, r)
              else if u = closeBrace then some ([(k, v)], r) else none
          else none
      else none
end

/-- `JSON.parse`; every level of nesting takes two units of text at least. -/
def parse (t : Text) : Option Json :=
  match parseValue (2 * t.length + 2) t with
  | some (v, r) => if skipSpace r = [] then some v else none
  | none => none

mutual
/-- `JSON.stringify`; a number that is not finite is written as `null`. -/
def stringify : Json → Text
  | .null => text "null"
  | .bool true => text "true"
  | .bool false => text "false"
  | .num (.finite q double) => numberText (.finite q double)
  | .num _ => text "null"
  | .str s => quoteText s
  | .arr [] => [openBracket, closeBracket]
  | .arr (v :: items) => openBracket :: (stringify v ++ stringifyItems items)
  | .obj [] => [openBrace, closeBrace]
  | .obj ((k, v) :: fields) => openBrace :: (quoteText k ++ colon :: (stringify v ++ stringifyFields fields))

def stringifyItems : List Json → Text
  | [] => [closeBracket]
  | v :: items => comma :: (stringify v ++ stringifyItems items)

def stringifyFields : List (Text × Json) → Text
  | [] => [closeBrace]
  | (k, v) :: fields => comma :: (quoteText k ++ colon :: (stringify v ++ stringifyFields fields))
end

mutual
/-- What is left of a value once it is written and read: see `parse_stringify`. -/
def normalForm : Json → Json
  | .num (.finite q double) => .num (.finite q double)
  | .num _ => .null
  | .arr items => .arr (normalItems items)
  | .obj fields => .obj (buildFields (normalFields fields))
  | .null => .null
  | .bool b => .bool b
  | .str s => .str s

def normalItems : List Json → List Json
  | [] => []
  | v :: items => normalForm v :: normalItems items

def normalFields : List (Text × Json) → List (Text × Json)
  | [] => []
  | (k, v) :: fields => (k, normalForm v) :: normalFields fields
end

end Js
