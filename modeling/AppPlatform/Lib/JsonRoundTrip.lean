import AppPlatform.Lib.Json

/-!
`parse_stringify`: what `stringify` writes, `parse` reads back as the normal form of the value.
The fuel of the parser is measured against the text: two units for every unit written.
-/

namespace Js

theorem numberText_head {q : ℚ} (double : IsDouble q) :
    ∃ u t, numberText (.finite q double) = u :: t ∧ (isDigit u = true ∨ u = unit '-') := by
  simp only [numberText]
  split
  · rename_i positive
    obtain ⟨u, t, shape, digit⟩ :=
      literal_text_head (Decimal.literal_valid (shortestDecimal_positive positive double)) []
    exact ⟨u, t, by simpa using shape, Or.inl digit⟩
  split
  · exact ⟨_, _, rfl, Or.inr rfl⟩
  · exact ⟨_, _, rfl, Or.inl rfl⟩

def startsValue (u : CodeUnit) : Bool := !isSpace u && u != closeBracket && u != closeBrace

theorem number_head_starts {u : CodeUnit} (h : isDigit u = true ∨ u = unit '-') :
    startsValue u = true ∧ u ≠ quote ∧ u ≠ openBracket ∧ u ≠ openBrace ∧
      u ≠ unit 'n' ∧ u ≠ unit 't' ∧ u ≠ unit 'f' := by
  rcases h with digit | rfl
  · have range := isDigit_range digit
    have differs : ∀ v : CodeUnit, v.toNat < 48 ∨ 57 < v.toNat → u ≠ v := by
      rintro v outside rfl
      omega
    refine ⟨?_, differs _ (by decide), differs _ (by decide), differs _ (by decide), differs _ (by decide),
      differs _ (by decide), differs _ (by decide)⟩
    simp [startsValue, isSpace, differs 0x20 (by decide), differs 0x9 (by decide), differs 0xA (by decide),
      differs 0xD (by decide), differs closeBracket (by decide), differs closeBrace (by decide)]
  · decide

theorem stringify_head (v : Json) : ∃ u t, stringify v = u :: t ∧ startsValue u = true := by
  cases v with
  | null => exact ⟨_, _, rfl, by decide⟩
  | bool b => cases b <;> exact ⟨_, _, rfl, by decide⟩
  | num x =>
    cases x with
    | finite q double =>
      obtain ⟨u, t, shape, head⟩ := numberText_head double
      exact ⟨u, t, by simpa [stringify] using shape, (number_head_starts head).1⟩
    | _ => exact ⟨_, _, by simp only [stringify]; rfl, by decide⟩
  | str s => exact ⟨_, _, rfl, by decide⟩
  | arr items => cases items <;> exact ⟨_, _, by simp only [stringify]; rfl, by decide⟩
  | obj fields => rcases fields with _ | ⟨⟨k, v⟩, fields⟩ <;> exact ⟨_, _, by simp only [stringify]; rfl, by decide⟩

theorem skipSpace_cons {u : CodeUnit} {t : Text} (h : isSpace u = false) : skipSpace (u :: t) = u :: t := by
  simp [skipSpace, h]

theorem startsValue_iff {u : CodeUnit} :
    startsValue u = true ↔ isSpace u = false ∧ u ≠ closeBracket ∧ u ≠ closeBrace := by
  simp [startsValue, and_assoc]

/-- The units that follow a written value end a number. -/
theorem stops_comma (t : Text) : StopsAt continuesNumber (comma :: t) := stopsAt_cons (by decide)

theorem stops_closeBracket (t : Text) : StopsAt continuesNumber (closeBracket :: t) := stopsAt_cons (by decide)

theorem stops_closeBrace (t : Text) : StopsAt continuesNumber (closeBrace :: t) := stopsAt_cons (by decide)

theorem parseValue_number {q : ℚ} (double : IsDouble q) (f : ℕ) {rest : Text} (stop : StopsAt continuesNumber rest) :
    parseValue (f + 1) (numberText (.finite q double) ++ rest) = some (.num (.finite q double), rest) := by
  have scanned := scanNumber_numberText double stop
  obtain ⟨u, t, shape, head⟩ := numberText_head double
  obtain ⟨starts, notQuote, notBracket, notBrace, notN, notT, notF⟩ := number_head_starts head
  have word : ∀ (w : CodeUnit) (ws : Text), u ≠ w → skipWord (w :: ws) (u :: (t ++ rest)) = none := by
    intro w ws differs
    simp [skipWord, Ne.symm differs]
  rw [shape, List.cons_append] at scanned ⊢
  rw [parseValue, skipSpace_cons (startsValue_iff.mp starts).1]
  simp only [if_neg notQuote, if_neg notBracket, if_neg notBrace, show text "null" = unit 'n' :: text "ull" from rfl,
    show text "true" = unit 't' :: text "rue" from rfl, show text "false" = unit 'f' :: text "alse" from rfl,
    word _ _ notN, word _ _ notT, word _ _ notF, scanned, Option.map_some]

theorem parseValue_null (f : ℕ) (rest : Text) : parseValue (f + 1) (text "null" ++ rest) = some (.null, rest) := by
  rw [parseValue]
  rfl

theorem parseValue_bool (b : Bool) (f : ℕ) (rest : Text) :
    parseValue (f + 1) (stringify (.bool b) ++ rest) = some (.bool b, rest) := by
  rw [parseValue]
  cases b <;> rfl

theorem parseValue_str (s : Text) (f : ℕ) (rest : Text) :
    parseValue (f + 1) (quoteText s ++ rest) = some (.str s, rest) := by
  rw [parseValue, quoteText, List.cons_append, skipSpace_cons (by decide), List.append_assoc]
  simp only [if_true, List.singleton_append, parseString_escapeUnits, Option.map_some]

/-- The value reads back from its text, whatever follows it. -/
def ReadsBack (v : Json) : Prop :=
  ∀ (f : ℕ) (rest : Text), 2 * (stringify v).length + 1 ≤ f → StopsAt continuesNumber rest →
    parseValue f (stringify v ++ rest) = some (normalForm v, rest)

mutual
theorem readsBack : ∀ v : Json, ReadsBack v
  | .null => fun f rest fuel _ => by
    obtain ⟨f, rfl⟩ := Nat.exists_eq_succ_of_ne_zero (show f ≠ 0 by omega)
    exact parseValue_null f rest
  | .bool b => fun f rest fuel _ => by
    obtain ⟨f, rfl⟩ := Nat.exists_eq_succ_of_ne_zero (show f ≠ 0 by omega)
    exact parseValue_bool b f rest
  | .num x => fun f rest fuel stop => by
    obtain ⟨f, rfl⟩ := Nat.exists_eq_succ_of_ne_zero (show f ≠ 0 by omega)
    cases x with
    | finite q double => simpa [stringify, normalForm] using parseValue_number double f stop
    | _ => simpa [stringify, normalForm] using parseValue_null f rest
  | .str s => fun f rest fuel _ => by
    obtain ⟨f, rfl⟩ := Nat.exists_eq_succ_of_ne_zero (show f ≠ 0 by omega)
    exact parseValue_str s f rest
  | .arr [] => fun f rest fuel _ => by
    obtain ⟨f, rfl⟩ := Nat.exists_eq_succ_of_ne_zero (show f ≠ 0 by omega)
    rw [parseValue]
    rfl
  | .arr (v :: items) => fun f rest fuel _ => by
    obtain ⟨f, rfl⟩ := Nat.exists_eq_succ_of_ne_zero (show f ≠ 0 by omega)
    obtain ⟨u, t, shape, starts⟩ := stringify_head v
    obtain ⟨notSpace, notClose, -⟩ := startsValue_iff.mp starts
    have read := itemsReadBack items v (readsBack v) f rest (by
      simp only [stringify, List.length_cons, List.length_append] at fuel ⊢
      omega)
    rw [parseValue, stringify, List.cons_append, skipSpace_cons (by decide), List.append_assoc]
    simp only [show openBracket ≠ quote by decide, if_false, if_true]
    rw [shape, List.cons_append] at read ⊢
    simp only [skipSpace_cons notSpace, if_neg notClose, read, Option.map_some, normalForm, normalItems]
  | .obj [] => fun f rest fuel _ => by
    obtain ⟨f, rfl⟩ := Nat.exists_eq_succ_of_ne_zero (show f ≠ 0 by omega)
    rw [parseValue]
    rfl
  | .obj ((k, v) :: fields) => fun f rest fuel _ => by
    obtain ⟨f, rfl⟩ := Nat.exists_eq_succ_of_ne_zero (show f ≠ 0 by omega)
    have read := membersReadBack fields k v (readsBack v) f rest (by
      simp only [stringify, List.length_cons, List.length_append] at fuel ⊢
      omega)
    have keyHead : quoteText k = quote :: (escapeUnits k ++ [quote]) := rfl
    rw [parseValue, stringify, List.cons_append, skipSpace_cons (by decide)]
    simp only [show openBrace ≠ quote by decide, show openBrace ≠ openBracket by decide, if_false, if_true,
      List.append_assoc, List.cons_append]
    rw [keyHead, List.cons_append] at read ⊢
    simp only [skipSpace_cons (show isSpace quote = false by decide), show quote ≠ closeBrace by decide, if_false, read,
      Option.map_some, normalForm, normalFields]

theorem itemsReadBack : ∀ (items : List Json) (v : Json), ReadsBack v → ∀ (f : ℕ) (rest : Text),
    2 * ((stringify v).length + (stringifyItems items).length) + 1 ≤ f →
    parseItems f (stringify v ++ (stringifyItems items ++ rest)) = some (normalForm v :: normalItems items, rest)
  | [], v, head, f, rest, fuel => by
    obtain ⟨f, rfl⟩ := Nat.exists_eq_succ_of_ne_zero (show f ≠ 0 by omega)
    simp only [stringifyItems, List.length_cons, List.length_nil] at fuel
    rw [parseItems, stringifyItems, List.singleton_append,
      head f (closeBracket :: rest) (by omega) (stops_closeBracket rest)]
    rfl
  | w :: items, v, head, f, rest, fuel => by
    obtain ⟨f, rfl⟩ := Nat.exists_eq_succ_of_ne_zero (show f ≠ 0 by omega)
    simp only [stringifyItems, List.length_cons, List.length_append] at fuel
    have tail := itemsReadBack items w (readsBack w) f rest (by omega)
    rw [parseItems, stringifyItems, List.cons_append,
      head f (comma :: _) (by omega) (stops_comma _)]
    simp only [Option.bind_eq_bind, Option.bind_some, skipSpace_cons (show isSpace comma = false by decide), if_true,
      List.append_assoc, tail, Option.map_some, normalItems]

theorem membersReadBack : ∀ (fields : List (Text × Json)) (k : Text) (v : Json), ReadsBack v →
    ∀ (f : ℕ) (rest : Text),
    2 * ((quoteText k).length + 1 + (stringify v).length + (stringifyFields fields).length) + 1 ≤ f →
    parseMembers f (quoteText k ++ colon :: (stringify v ++ (stringifyFields fields ++ rest))) =
      some ((k, normalForm v) :: normalFields fields, rest)
  | [], k, v, head, f, rest, fuel => by
    obtain ⟨f, rfl⟩ := Nat.exists_eq_succ_of_ne_zero (show f ≠ 0 by omega)
    simp only [stringifyFields, List.length_cons, List.length_nil] at fuel
    have value := head f (closeBrace :: rest) (by omega) (stops_closeBrace rest)
    rw [parseMembers, quoteText, List.cons_append, skipSpace_cons (by decide), List.append_assoc]
    simp only [if_true, List.singleton_append, parseString_escapeUnits, Option.bind_eq_bind, Option.bind_some,
      skipSpace_cons (show isSpace colon = false by decide), stringifyFields, value]
    rfl
  | (k', w) :: fields, k, v, head, f, rest, fuel => by
    obtain ⟨f, rfl⟩ := Nat.exists_eq_succ_of_ne_zero (show f ≠ 0 by omega)
    simp only [stringifyFields, List.length_cons, List.length_append] at fuel
    have tail := membersReadBack fields k' w (readsBack w) f rest (by omega)
    have value := head f (comma :: (quoteText k' ++ colon :: (stringify w ++ (stringifyFields fields ++ rest))))
      (by omega) (stops_comma _)
    rw [parseMembers, quoteText, List.cons_append, skipSpace_cons (by decide), List.append_assoc]
    simp only [if_true, List.cons_append, List.nil_append, parseString_escapeUnits, Option.bind_eq_bind,
      Option.bind_some, skipSpace_cons (show isSpace colon = false by decide), stringifyFields, List.append_assoc,
        value, skipSpace_cons (show isSpace comma = false by decide), tail, Option.map_some, normalFields]
end

/-! ### Canonical values -/

mutual
/-- Every object of the value has distinct keys in property order. -/
def Json.Canonical : Json → Prop
  | .arr items => CanonicalItems items
  | .obj fields => Ordered fields ∧ CanonicalFields fields
  | _ => True

def CanonicalItems : List Json → Prop
  | [] => True
  | v :: items => v.Canonical ∧ CanonicalItems items

def CanonicalFields : List (Text × Json) → Prop
  | [] => True
  | (_, v) :: fields => v.Canonical ∧ CanonicalFields fields
end

mutual
/-- No number of the value is past the range of doubles. -/
def Json.FiniteNumbers : Json → Prop
  | .num x => ∃ q double, x = .finite q double
  | .arr items => FiniteItems items
  | .obj fields => FiniteFields fields
  | _ => True

def FiniteItems : List Json → Prop
  | [] => True
  | v :: items => v.FiniteNumbers ∧ FiniteItems items

def FiniteFields : List (Text × Json) → Prop
  | [] => True
  | (_, v) :: fields => v.FiniteNumbers ∧ FiniteFields fields
end

theorem canonicalFields_iff {fields : List (Text × Json)} :
    CanonicalFields fields ↔ ∀ member ∈ fields, member.2.Canonical := by
  induction fields with
  | nil => simp [CanonicalFields]
  | cons head rest ih => simp [CanonicalFields, ih]

theorem finiteFields_iff {fields : List (Text × Json)} :
    FiniteFields fields ↔ ∀ member ∈ fields, member.2.FiniteNumbers := by
  induction fields with
  | nil => simp [FiniteFields]
  | cons head rest ih => simp [FiniteFields, ih]

mutual
theorem normalForm_canonical : ∀ v : Json, (normalForm v).Canonical
  | .null | .bool _ | .str _ | .num (.finite _ _) | .num .nan | .num (.infinity _) => trivial
  | .arr items => normalItems_canonical items
  | .obj fields => by
    refine ⟨buildFields_ordered _, canonicalFields_iff.mpr fun member found => ?_⟩
    exact canonicalFields_iff.mp (normalFields_canonical fields) member (mem_buildFields found)

theorem normalItems_canonical : ∀ items : List Json, CanonicalItems (normalItems items)
  | [] => trivial
  | v :: items => ⟨normalForm_canonical v, normalItems_canonical items⟩

theorem normalFields_canonical : ∀ fields : List (Text × Json), CanonicalFields (normalFields fields)
  | [] => trivial
  | (_, v) :: fields => ⟨normalForm_canonical v, normalFields_canonical fields⟩
end

mutual
theorem normalForm_eq : ∀ v : Json, v.Canonical → v.FiniteNumbers → normalForm v = v
  | .null, _, _ | .bool _, _, _ | .str _, _, _ | .num (.finite _ _), _, _ => rfl
  | .num .nan, _, finite | .num (.infinity _), _, finite => by
    obtain ⟨_, _, impossible⟩ := finite
    cases impossible
  | .arr items, canonical, finite => congrArg Json.arr (normalItems_eq items canonical finite)
  | .obj fields, canonical, finite => by
    rw [normalForm, normalFields_eq fields canonical.2 finite, buildFields_eq canonical.1]

theorem normalItems_eq : ∀ items : List Json, CanonicalItems items → FiniteItems items →
    normalItems items = items
  | [], _, _ => rfl
  | v :: items, canonical, finite => by
    rw [normalItems, normalForm_eq v canonical.1 finite.1, normalItems_eq items canonical.2 finite.2]

theorem normalFields_eq : ∀ fields : List (Text × Json), CanonicalFields fields → FiniteFields fields →
    normalFields fields = fields
  | [], _, _ => rfl
  | (_, v) :: fields, canonical, finite => by
    rw [normalFields, normalForm_eq v canonical.1 finite.1, normalFields_eq fields canonical.2 finite.2]
end

mutual
theorem normalForm_finite : ∀ v : Json, (normalForm v).FiniteNumbers
  | .null | .bool _ | .str _ | .num .nan | .num (.infinity _) => trivial
  | .num (.finite q double) => ⟨q, double, rfl⟩
  | .arr items => normalItems_finite items
  | .obj fields => finiteFields_iff.mpr fun member found =>
    finiteFields_iff.mp (normalFields_finite fields) member (mem_buildFields found)

theorem normalItems_finite : ∀ items : List Json, FiniteItems (normalItems items)
  | [] => trivial
  | v :: items => ⟨normalForm_finite v, normalItems_finite items⟩

theorem normalFields_finite : ∀ fields : List (Text × Json), FiniteFields (normalFields fields)
  | [] => trivial
  | (_, v) :: fields => ⟨normalForm_finite v, normalFields_finite fields⟩
end

theorem normalFields_keys (fields : List (Text × Json)) :
    (normalFields fields).map Prod.fst = fields.map Prod.fst := by
  induction fields with
  | nil => rfl
  | cons head rest ih =>
    obtain ⟨k, v⟩ := head
    rw [normalFields, List.map_cons, List.map_cons, ih]

theorem normalFields_ordered {fields : List (Text × Json)} (ordered : Ordered fields) : Ordered (normalFields fields) := by
  have keys : (fields.map Prod.fst).Pairwise fun a b => a ≠ b ∧ precedes b a = false := List.pairwise_map.mpr ordered
  rw [← normalFields_keys] at keys
  exact List.pairwise_map.mp keys

theorem lookup_normalFields (fields : List (Text × Json)) (k : Text) :
    (normalFields fields).lookup k = (fields.lookup k).map normalForm := by
  induction fields with
  | nil => rfl
  | cons head rest ih =>
    obtain ⟨k', v⟩ := head
    rw [normalFields, List.lookup_cons, List.lookup_cons]
    split
    · rfl
    · exact ih

theorem normalForm_idem (v : Json) : normalForm (normalForm v) = normalForm v :=
  normalForm_eq _ (normalForm_canonical v) (normalForm_finite v)

/-- What was written is read back as the normal form of the value. -/
theorem parse_stringify (v : Json) : parse (stringify v) = some (normalForm v) := by
  have read := readsBack v (2 * (stringify v).length + 2) [] (by omega) (fun u head => by cases head)
  rw [List.append_nil] at read
  rw [parse, read]
  rfl

theorem stringify_inj {v w : Json} (canonical : v.Canonical) (finite : v.FiniteNumbers) (canonical' : w.Canonical)
    (finite' : w.FiniteNumbers) (same : stringify v = stringify w) : v = w := by
  have read := congrArg parse same
  rw [parse_stringify, parse_stringify, normalForm_eq v canonical finite, normalForm_eq w canonical' finite'] at read
  exact Option.some.inj read

theorem parsed_canonical (f : ℕ) :
    (∀ t v r, parseValue f t = some (v, r) → v.Canonical) ∧
    (∀ t items r, parseItems f t = some (items, r) → CanonicalItems items) ∧
    (∀ t members r, parseMembers f t = some (members, r) → CanonicalFields members) := by
  induction f with
  | zero => simp [parseValue, parseItems, parseMembers]
  | succ f ih =>
    obtain ⟨ihValue, ihItems, ihMembers⟩ := ih
    refine ⟨?_, ?_, ?_⟩
    · intro t v r h
      rw [parseValue] at h
      split at h
      · cases h
      split at h
      · obtain ⟨_, _, same⟩ := Option.map_eq_some_iff.mp h
        cases same
        trivial
      split at h
      · split at h
        · split at h
          · cases h
            trivial
          · obtain ⟨⟨items, rest⟩, read, same⟩ := Option.map_eq_some_iff.mp h
            cases same
            exact ihItems _ _ _ read
        · cases h
      split at h
      · split at h
        · split at h
          · cases h
            exact ⟨List.Pairwise.nil, trivial⟩
          · obtain ⟨⟨members, rest⟩, read, same⟩ := Option.map_eq_some_iff.mp h
            cases same
            refine ⟨buildFields_ordered _, canonicalFields_iff.mpr fun member found => ?_⟩
            exact canonicalFields_iff.mp (ihMembers _ _ _ read) member (mem_buildFields found)
        · cases h
      split at h
      · cases h
        trivial
      · cases h
        trivial
      · cases h
        trivial
      · obtain ⟨_, _, same⟩ := Option.map_eq_some_iff.mp h
        cases same
        trivial
    · intro t items r h
      rw [parseItems] at h
      obtain ⟨⟨v, rest⟩, read, h⟩ := Option.bind_eq_some_iff.mp h
      dsimp only at h
      split at h
      · cases h
      split at h
      · obtain ⟨⟨items, rest⟩, later, same⟩ := Option.map_eq_some_iff.mp h
        cases same
        exact ⟨ihValue _ _ _ read, ihItems _ _ _ later⟩
      split at h
      · cases h
        exact ⟨ihValue _ _ _ read, trivial⟩
      · cases h
    · intro t members r h
      rw [parseMembers] at h
      split at h
      · cases h
      split at h
      · obtain ⟨⟨k, rest⟩, _, h⟩ := Option.bind_eq_some_iff.mp h
        dsimp only at h
        split at h
        · cases h
        split at h
        · obtain ⟨⟨v, rest⟩, read, h⟩ := Option.bind_eq_some_iff.mp h
          dsimp only at h
          split at h
          · cases h
          split at h
          · obtain ⟨⟨members, rest⟩, later, same⟩ := Option.map_eq_some_iff.mp h
            cases same
            exact ⟨ihValue _ _ _ read, ihMembers _ _ _ later⟩
          split at h
          · cases h
            exact ⟨ihValue _ _ _ read, trivial⟩
          · cases h
        · cases h
      · cases h

theorem parse_canonical {t : Text} {v : Json} (h : parse t = some v) : v.Canonical := by
  unfold parse at h
  split at h
  · rename_i read
    split at h
    · cases h
      exact (parsed_canonical _).1 _ _ _ read
    · cases h
  · cases h

end Js
