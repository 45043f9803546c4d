import AppPlatform.Http.SanitizeString
import AppPlatform.Lib.JsonRoundTrip

/-!
# Stripping markup from an object

`sanitizeObject` walks the values of an object that came out of JSON. It does not look inside an array that is
an item of an array, and its assignments lose the key `__proto__`.
-/

namespace Sanitize
open Js

def PROTO : Text := text "__proto__"

/-- `sanitized[key] = value`: the setter of `__proto__` defines no property. -/
def assign (sanitized : List (Text × Json)) (key : Text) (value : Json) : List (Text × Json) :=
  if key = PROTO then sanitized else setField sanitized key value

mutual
/-- The value that a property gets. -/
def sanitizeValue : Json → Json
  | .str s => .str (sanitizeString s)
  | .arr items => .arr (sanitizeItems items)
  | .obj fields => .obj (sanitizeEntries fields [])
  | .null => .null
  | .bool b => .bool b
  | .num x => .num x

/-- The callback of `map`. -/
def sanitizeItem : Json → Json
  | .str s => .str (sanitizeString s)
  | .obj fields => .obj (sanitizeEntries fields [])
  | .arr items => .arr items
  | .null => .null
  | .bool b => .bool b
  | .num x => .num x

def sanitizeItems : List Json → List Json
  | [] => []
  | item :: items => sanitizeItem item :: sanitizeItems items

/-- The loop over the entries. -/
def sanitizeEntries : List (Text × Json) → List (Text × Json) → List (Text × Json)
  | [], sanitized => sanitized
  | (key, value) :: entries, sanitized => sanitizeEntries entries (assign sanitized key (sanitizeValue value))
end

def sanitizeObject (obj : List (Text × Json)) : List (Text × Json) := sanitizeEntries obj []

mutual
/-- The same keys, array lengths and values other than strings, and every string in its sanitized form. -/
inductive Sanitized : Json → Json → Prop where
  | null : Sanitized .null .null
  | bool (b : Bool) : Sanitized (.bool b) (.bool b)
  | num (x : Number) : Sanitized (.num x) (.num x)
  | str (s : Text) : Sanitized (.str s) (.str (sanitizeString s))
  | arr {items items' : List Json} (each : SanitizedItems items items') : Sanitized (.arr items) (.arr items')
  | obj {fields fields' : List (Text × Json)} (each : SanitizedFields fields fields') : Sanitized (.obj fields) (.obj fields')

inductive SanitizedItems : List Json → List Json → Prop where
  | nil : SanitizedItems [] []
  | cons {v w : Json} {items items' : List Json} (head : Sanitized v w) (tail : SanitizedItems items items') :
    SanitizedItems (v :: items) (w :: items')

inductive SanitizedFields : List (Text × Json) → List (Text × Json) → Prop where
  | nil : SanitizedFields [] []
  | cons (k : Text) {v w : Json} {fields fields' : List (Text × Json)} (head : Sanitized v w) (tail : SanitizedFields fields fields') :
    SanitizedFields ((k, v) :: fields) ((k, w) :: fields')
end

mutual
/-- The strings in a value, at any depth. -/
def strings : Json → List Text
  | .str s => [s]
  | .arr items => stringsOfItems items
  | .obj fields => stringsOfFields fields
  | .null | .bool _ | .num _ => []

def stringsOfItems : List Json → List Text
  | [] => []
  | item :: items => strings item ++ stringsOfItems items

def stringsOfFields : List (Text × Json) → List Text
  | [] => []
  | (_, value) :: fields => strings value ++ stringsOfFields fields
end

/-- The strings are in their sanitized form. -/
def Settled (found : List Text) : Prop := ∀ s ∈ found, sanitizeString s = s

mutual
/-- No object on the way has the key `__proto__`, and what stands in an array that is an item of an array is settled. -/
def Covered : Json → Prop
  | .arr items => CoveredItems items
  | .obj fields => PROTO ∉ fields.map Prod.fst ∧ CoveredValues fields
  | .null | .bool _ | .num _ | .str _ => True

def CoveredItem : Json → Prop
  | .arr items => Settled (stringsOfItems items)
  | .obj fields => PROTO ∉ fields.map Prod.fst ∧ CoveredValues fields
  | .null | .bool _ | .num _ | .str _ => True

def CoveredItems : List Json → Prop
  | [] => True
  | item :: items => CoveredItem item ∧ CoveredItems items

def CoveredValues : List (Text × Json) → Prop
  | [] => True
  | (_, value) :: fields => Covered value ∧ CoveredValues fields
end

theorem sanitizeEntries_eq {entries sanitized : List (Text × Json)} (ordered : Ordered (sanitized ++ entries)) :
    sanitizeEntries entries sanitized =
      sanitized ++ (entries.filter fun e => e.1 ≠ PROTO).map fun e => (e.1, sanitizeValue e.2) := by
  have general : ∀ (entries sanitized : List (Text × Json)), Ordered entries →
      (∀ a ∈ sanitized, ∀ b ∈ entries, a.1 ≠ b.1 ∧ precedes b.1 a.1 = false) → sanitizeEntries entries sanitized =
        sanitized ++ (entries.filter fun e => e.1 ≠ PROTO).map fun e => (e.1, sanitizeValue e.2) := by
    intro entries
    induction entries with
    | nil => exact fun sanitized _ _ => by rw [sanitizeEntries, List.filter_nil, List.map_nil, List.append_nil]
    | cons entry entries ih =>
      intro sanitized ordered before
      obtain ⟨key, value⟩ := entry
      obtain ⟨first, later⟩ := List.pairwise_cons.mp ordered
      have beforeLater : ∀ a ∈ sanitized, ∀ b ∈ entries, a.1 ≠ b.1 ∧ precedes b.1 a.1 = false :=
        fun a found b member => before a found b (List.mem_cons_of_mem _ member)
      rw [sanitizeEntries, assign]
      by_cases proto : key = PROTO
      · rw [if_pos proto, List.filter_cons_of_neg (by simp [proto])]
        exact ih sanitized later beforeLater
      · have last : setField sanitized key (sanitizeValue value) = sanitized ++ [(key, sanitizeValue value)] :=
          setField_last fun a found => before a found (key, value) List.mem_cons_self
        rw [if_neg proto, last, List.filter_cons_of_pos (by simp [proto]), List.map_cons, ih _ later]
        · rw [List.append_assoc, List.singleton_append]
        · intro a found b member
          rcases List.mem_append.mp found with old | new
          · exact beforeLater a old b member
          · rw [List.mem_singleton.mp new]
            exact first b member
  obtain ⟨_, later, before⟩ := List.pairwise_append.mp ordered
  exact general entries sanitized later before

theorem sanitizedFields_keys {fields fields' : List (Text × Json)} (each : SanitizedFields fields fields') :
    fields'.map Prod.fst = fields.map Prod.fst := by
  induction fields generalizing fields' with
  | nil =>
    cases each
    rfl
  | cons entry fields ih =>
    cases each with
    | cons k _ tail => rw [List.map_cons, List.map_cons, ih tail]

/-- An object with the key `__proto__` comes out without it. -/
theorem sanitizedFields_entries {fields : List (Text × Json)} (ordered : Ordered fields) :
    SanitizedFields fields (sanitizeEntries fields []) ↔
      PROTO ∉ fields.map Prod.fst ∧ SanitizedFields fields (fields.map fun e => (e.1, sanitizeValue e.2)) := by
  rw [sanitizeEntries_eq (by rwa [List.nil_append]), List.nil_append]
  have whole : PROTO ∉ fields.map Prod.fst → (fields.filter fun e => e.1 ≠ PROTO) = fields := by
    intro absent
    rw [List.filter_eq_self]
    intro e member
    rw [decide_eq_true_eq]
    exact fun proto => absent (proto ▸ List.mem_map_of_mem member)
  constructor
  · intro each
    have absent : PROTO ∉ fields.map Prod.fst := by
      rw [← sanitizedFields_keys each, List.map_map]
      intro present
      obtain ⟨e, kept, proto⟩ := List.mem_map.mp present
      have other := (List.mem_filter.mp kept).2
      rw [decide_eq_true_eq] at other
      exact other proto
    rw [whole absent] at each
    exact ⟨absent, each⟩
  · rintro ⟨absent, each⟩
    rwa [whole absent]

/-! ### Every nesting -/

theorem settled_append {s t : List Text} : Settled (s ++ t) ↔ Settled s ∧ Settled t := List.forall_mem_append

theorem sanitized_str {s : Text} {v : Json} : Sanitized (.str s) v ↔ v = .str (sanitizeString s) := by
  constructor
  · intro each
    cases each
    rfl
  · rintro rfl
    exact .str s

theorem sanitized_arr {items items' : List Json} : Sanitized (.arr items) (.arr items') ↔ SanitizedItems items items' := by
  constructor
  · intro each
    cases each with
    | arr each => exact each
  · exact .arr

theorem sanitized_obj {fields fields' : List (Text × Json)} :
    Sanitized (.obj fields) (.obj fields') ↔ SanitizedFields fields fields' := by
  constructor
  · intro each
    cases each with
    | obj each => exact each
  · exact .obj

theorem sanitizedItems_cons {v w : Json} {items items' : List Json} :
    SanitizedItems (v :: items) (w :: items') ↔ Sanitized v w ∧ SanitizedItems items items' := by
  constructor
  · intro each
    cases each with
    | cons head tail => exact ⟨head, tail⟩
  · rintro ⟨head, tail⟩
    exact .cons head tail

theorem sanitizedFields_cons {k : Text} {v w : Json} {fields fields' : List (Text × Json)} :
    SanitizedFields ((k, v) :: fields) ((k, w) :: fields') ↔ Sanitized v w ∧ SanitizedFields fields fields' := by
  constructor
  · intro each
    cases each with
    | cons _ head tail => exact ⟨head, tail⟩
  · rintro ⟨head, tail⟩
    exact .cons k head tail

mutual
/-- A value stands for its own sanitized form when nothing in it needs sanitizing. -/
theorem sanitized_self : ∀ v : Json, Sanitized v v ↔ Settled (strings v)
  | .null => iff_of_true .null (List.forall_mem_nil _)
  | .bool b => iff_of_true (.bool b) (List.forall_mem_nil _)
  | .num x => iff_of_true (.num x) (List.forall_mem_nil _)
  | .str s => by
    rw [sanitized_str, Json.str.injEq, strings, Settled, List.forall_mem_singleton]
    exact eq_comm
  | .arr items => by rw [sanitized_arr, strings, sanitizedItems_self items]
  | .obj fields => by rw [sanitized_obj, strings, sanitizedFields_self fields]

theorem sanitizedItems_self : ∀ items : List Json, SanitizedItems items items ↔ Settled (stringsOfItems items)
  | [] => iff_of_true .nil (List.forall_mem_nil _)
  | v :: items => by
    rw [sanitizedItems_cons, stringsOfItems, settled_append, sanitized_self v, sanitizedItems_self items]

theorem sanitizedFields_self : ∀ fields : List (Text × Json), SanitizedFields fields fields ↔ Settled (stringsOfFields fields)
  | [] => iff_of_true .nil (List.forall_mem_nil _)
  | (_, v) :: fields => by
    rw [sanitizedFields_cons, stringsOfFields, settled_append, sanitized_self v, sanitizedFields_self fields]
end

mutual
theorem sanitizeValue_iff : ∀ v : Json, v.Canonical → (Sanitized v (sanitizeValue v) ↔ Covered v)
  | .null, _ => iff_of_true .null trivial
  | .bool b, _ => iff_of_true (.bool b) trivial
  | .num x, _ => iff_of_true (.num x) trivial
  | .str s, _ => iff_of_true (.str s) trivial
  | .arr items, canonical => by rw [sanitizeValue, sanitized_arr, Covered, sanitizeItems_iff items canonical]
  | .obj fields, canonical => by
    rw [sanitizeValue, sanitized_obj, sanitizedFields_entries canonical.1, Covered, sanitizeValues_iff fields canonical.2]

/-- An item of an array that is an array itself comes out as it went in. -/
theorem sanitizeItem_iff : ∀ v : Json, v.Canonical → (Sanitized v (sanitizeItem v) ↔ CoveredItem v)
  | .null, _ => iff_of_true .null trivial
  | .bool b, _ => iff_of_true (.bool b) trivial
  | .num x, _ => iff_of_true (.num x) trivial
  | .str s, _ => iff_of_true (.str s) trivial
  | .arr items, _ => by rw [sanitizeItem, sanitized_self, strings, CoveredItem]
  | .obj fields, canonical => by
    rw [sanitizeItem, sanitized_obj, sanitizedFields_entries canonical.1, CoveredItem, sanitizeValues_iff fields canonical.2]

theorem sanitizeItems_iff : ∀ items : List Json, CanonicalItems items →
    (SanitizedItems items (sanitizeItems items) ↔ CoveredItems items)
  | [], _ => iff_of_true .nil trivial
  | v :: items, canonical => by
    rw [sanitizeItems, sanitizedItems_cons, CoveredItems, sanitizeItem_iff v canonical.1, sanitizeItems_iff items canonical.2]

theorem sanitizeValues_iff : ∀ fields : List (Text × Json), CanonicalFields fields →
    (SanitizedFields fields (fields.map fun e => (e.1, sanitizeValue e.2)) ↔ CoveredValues fields)
  | [], _ => iff_of_true .nil trivial
  | (_, v) :: fields, canonical => by
    rw [List.map_cons, sanitizedFields_cons, CoveredValues, sanitizeValue_iff v canonical.1, sanitizeValues_iff fields canonical.2]
end

/-- Every string of an object is reached and its shape kept, exactly when no object in it has the key `__proto__` and
what its nested arrays hold needs no sanitizing. -/
theorem sanitizeObject_iff {obj : List (Text × Json)} (canonical : (Json.obj obj).Canonical) :
    Sanitized (.obj obj) (.obj (sanitizeObject obj)) ↔ PROTO ∉ obj.map Prod.fst ∧ CoveredValues obj := by
  rw [sanitizeObject, sanitized_obj, sanitizedFields_entries canonical.1, sanitizeValues_iff obj canonical.2]

/-- `{"tags":["<b>",["plain"]]}` -/
theorem sanitizeObject_tags : Sanitized (.obj [(text "tags", .arr [.str (text "<b>"), .arr [.str (text "plain")]])])
    (.obj (sanitizeObject [(text "tags", .arr [.str (text "<b>"), .arr [.str (text "plain")]])])) := by
  have canonical : (Json.obj [(text "tags", .arr [.str (text "<b>"), .arr [.str (text "plain")]])]).Canonical :=
    ⟨List.pairwise_singleton _ _, ⟨trivial, ⟨trivial, trivial⟩, trivial⟩, trivial⟩
  refine (sanitizeObject_iff canonical).mpr ?_
  have plain : sanitizeString (text "plain") = text "plain" := by decide +kernel
  have inner : Settled (stringsOfItems [.str (text "plain")]) := List.forall_mem_singleton.mpr plain
  exact ⟨by decide, ⟨trivial, inner, trivial⟩, trivial⟩

/-- `{"tags":[["<script>"]]}` -/
theorem nested_array_skipped :
    ¬∀ obj, (Json.obj obj).Canonical → Sanitized (.obj obj) (.obj (sanitizeObject obj)) := by
  intro every
  have canonical : (Json.obj [(text "tags", .arr [.arr [.str (text "<script>")]])]).Canonical :=
    ⟨List.pairwise_singleton _ _, ⟨⟨trivial, trivial⟩, trivial⟩, trivial⟩
  have each := every _ canonical
  have same : sanitizeObject [(text "tags", .arr [.arr [.str (text "<script>")]])] =
      [(text "tags", .arr [.arr [.str (text "<script>")]])] := rfl
  rw [same, sanitized_self] at each
  have script := each (text "<script>") List.mem_cons_self
  exact absurd script (by decide +kernel)

end Sanitize
