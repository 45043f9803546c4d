import AppPlatform.Lib.JsonRoundTrip
import AppPlatform.Lib.Utf8Decode

/-!
# JSON in UTF-8

What `stringify` writes is well formed: it escapes every surrogate outside a pair, so that its bytes in UTF-8
are read back as the same text.
-/

namespace Js

theorem isSurrogate_hexDigit {d : ℕ} (small : d < 16) : isSurrogate (hexDigit d) = false := by
  apply isSurrogate_small
  rw [hexDigit]
  split
  · rw [toUInt16_toNat (by omega)]
    omega
  · rw [toUInt16_toNat (by omega)]
    omega

theorem isWellFormed_unicodeEscape (u : CodeUnit) (rest : Text) : isWellFormed (unicodeEscape u ++ rest) = isWellFormed rest := by
  have small := u.toNat_lt
  apply isWellFormed_append
  apply isWellFormed_plain
  have ends : isSurrogate (hexDigit (u.toNat % 16)) = false := isSurrogate_hexDigit (by omega)
  have third : isSurrogate (hexDigit (u.toNat / 16 % 16)) = false := isSurrogate_hexDigit (by omega)
  have second : isSurrogate (hexDigit (u.toNat / 256 % 16)) = false := isSurrogate_hexDigit (by omega)
  have first : isSurrogate (hexDigit (u.toNat / 4096)) = false := isSurrogate_hexDigit (by omega)
  simp only [unicodeEscape, List.forall_mem_cons]
  exact ⟨by decide, by decide, first, second, third, ends, List.forall_mem_nil _⟩

theorem letterEscape_plain {u e : CodeUnit} (escape : letterEscape? u = some e) : isSurrogate e = false := by
  unfold letterEscape? at escape
  repeat' split at escape
  all_goals cases escape
  all_goals decide

theorem isWellFormed_escapeUnit {u : CodeUnit} (plain : isSurrogate u = false) (rest : Text) :
    isWellFormed (escapeUnit u ++ rest) = isWellFormed rest := by
  rw [escapeUnit]
  split
  · rename_i e escape
    rw [List.cons_append, List.singleton_append, isWellFormed_cons (by decide), isWellFormed_cons (letterEscape_plain escape)]
  · split
    · exact isWellFormed_unicodeEscape u rest
    · exact isWellFormed_cons plain rest

theorem isWellFormed_escapeUnits (s rest : Text) : isWellFormed (escapeUnits s ++ rest) = isWellFormed rest := by
  have one : ∀ (u : CodeUnit) (rest : Text),
      isWellFormed ((if isLead u || isTrail u then unicodeEscape u else escapeUnit u) ++ rest) = isWellFormed rest := by
    intro u rest
    split
    · exact isWellFormed_unicodeEscape u rest
    · rename_i plain
      exact isWellFormed_escapeUnit (Bool.eq_false_iff.mpr plain) rest
  induction s using escapeUnits.induct with
  | case1 => rfl
  | case2 u surrogate => exact one u rest
  | case3 u plain => exact one u rest
  | case4 u v tail pair ih =>
    rw [escapeUnits, if_pos pair, List.cons_append, List.cons_append, isWellFormed, if_pos pair, ih]
  | case5 u v tail notPair ih => rw [escapeUnits, if_neg notPair, List.append_assoc, one, ih]

theorem isWellFormed_quoteText (s rest : Text) : isWellFormed (quoteText s ++ rest) = isWellFormed rest := by
  rw [quoteText, List.cons_append, isWellFormed_cons (by decide), List.append_assoc, isWellFormed_escapeUnits]
  exact isWellFormed_cons (by decide) rest

theorem numberText_plain {q : ℚ} (double : IsDouble q) : ∀ u ∈ numberText (.finite q double), isSurrogate u = false := by
  intro u member
  have known := numberText_units double u member
  rw [isNumberUnit, Bool.or_eq_true, Bool.or_eq_true, Bool.or_eq_true, Bool.or_eq_true] at known
  rcases known with (((digit | point) | exponent) | plus) | minus
  · exact isDigit_plain digit
  · rw [of_decide_eq_true point]
    decide
  · rw [of_decide_eq_true exponent]
    decide
  · rw [of_decide_eq_true plus]
    decide
  · rw [of_decide_eq_true minus]
    decide

mutual
theorem isWellFormed_stringify : ∀ (v : Json) (rest : Text), isWellFormed (stringify v ++ rest) = isWellFormed rest
  | .null, rest => isWellFormed_append (by decide) rest
  | .bool true, rest => isWellFormed_append (by decide) rest
  | .bool false, rest => isWellFormed_append (by decide) rest
  | .num (.finite q double), rest => isWellFormed_append (isWellFormed_plain (numberText_plain double)) rest
  | .num .nan, rest => isWellFormed_append (s := text "null") (by decide) rest
  | .num (.infinity _), rest => isWellFormed_append (s := text "null") (by decide) rest
  | .str s, rest => isWellFormed_quoteText s rest
  | .arr [], rest => isWellFormed_append (by decide) rest
  | .arr (v :: items), rest => by
    rw [stringify, List.cons_append, isWellFormed_cons (by decide), List.append_assoc, isWellFormed_stringify v,
      isWellFormed_stringifyItems items]
  | .obj [], rest => isWellFormed_append (by decide) rest
  | .obj ((k, v) :: fields), rest => by
    rw [stringify, List.cons_append, isWellFormed_cons (by decide), List.append_assoc, isWellFormed_quoteText,
      List.cons_append, isWellFormed_cons (by decide), List.append_assoc, isWellFormed_stringify v,
      isWellFormed_stringifyFields fields]

theorem isWellFormed_stringifyItems : ∀ (items : List Json) (rest : Text),
    isWellFormed (stringifyItems items ++ rest) = isWellFormed rest
  | [], rest => isWellFormed_append (by decide) rest
  | v :: items, rest => by
    rw [stringifyItems, List.cons_append, isWellFormed_cons (by decide), List.append_assoc, isWellFormed_stringify v,
      isWellFormed_stringifyItems items]

theorem isWellFormed_stringifyFields : ∀ (fields : List (Text × Json)) (rest : Text),
    isWellFormed (stringifyFields fields ++ rest) = isWellFormed rest
  | [], rest => isWellFormed_append (by decide) rest
  | (k, v) :: fields, rest => by
    rw [stringifyFields, List.cons_append, isWellFormed_cons (by decide), List.append_assoc, isWellFormed_quoteText,
      List.cons_append, isWellFormed_cons (by decide), List.append_assoc, isWellFormed_stringify v,
      isWellFormed_stringifyFields fields]
end

/-- What is written as UTF-8 is read back. -/
theorem decodeUtf8_stringify (v : Json) : decodeUtf8 (utf8 (stringify v)) = stringify v := by
  have whole := isWellFormed_stringify v []
  rw [List.append_nil] at whole
  rw [decodeUtf8_utf8, toWellFormed_eq whole]

end Js
