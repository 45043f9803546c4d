import AppPlatform.Lib.JsonRoundTrip
import AppPlatform.Lib.Headers
import Mathlib.Data.List.Perm.Basic

/-!
# JSON up to the order of keys

`Json.Same` relates values that differ in the order of object keys only, at any depth. Sorting the keys of
every object picks one value of each class: `sortKeys_eq_iff`.
-/

namespace Js

mutual
/-- The same value, with the properties of its objects in any order. -/
inductive Json.Same : Json → Json → Prop where
  | null : Json.Same .null .null
  | bool (b : Bool) : Json.Same (.bool b) (.bool b)
  | num (x : Number) : Json.Same (.num x) (.num x)
  | str (s : Text) : Json.Same (.str s) (.str s)
  | arr {items items' : List Json} (each : SameItems items items') : Json.Same (.arr items) (.arr items')
  | obj {fields shuffled fields' : List (Text × Json)} (order : fields.Perm shuffled) (each : SameFields shuffled fields') :
    Json.Same (.obj fields) (.obj fields')

inductive SameItems : List Json → List Json → Prop where
  | nil : SameItems [] []
  | cons {v w : Json} {items items' : List Json} (head : v.Same w) (tail : SameItems items items') :
    SameItems (v :: items) (w :: items')

inductive SameFields : List (Text × Json) → List (Text × Json) → Prop where
  | nil : SameFields [] []
  | cons (k : Text) {v w : Json} {fields fields' : List (Text × Json)} (head : v.Same w) (tail : SameFields fields fields') :
    SameFields ((k, v) :: fields) ((k, w) :: fields')
end

/-! ### Sorting the keys -/

/-- `([a], [b]) => a < b ? -1 : a > b ? 1 : 0` -/
def byKey (a b : Text × Json) : Prop := Fetch.Headers.Sorted a.1 b.1

instance : DecidableRel byKey := fun a b => inferInstanceAs (Decidable (Fetch.Headers.Sorted a.1 b.1))

instance : Std.Total byKey := ⟨fun a b => Std.Total.total (r := Fetch.Headers.Sorted) a.1 b.1⟩

instance : IsTrans (Text × Json) byKey := ⟨fun a b c => IsTrans.trans (r := Fetch.Headers.Sorted) a.1 b.1 c.1⟩

mutual
/-- The value with the keys of every object defined in sorted order. -/
def sortKeys : Json → Json
  | .arr items => .arr (sortItems items)
  | .obj fields => .obj (buildFields ((sortFields fields).insertionSort byKey))
  | .null => .null
  | .bool b => .bool b
  | .num x => .num x
  | .str s => .str s

def sortItems : List Json → List Json
  | [] => []
  | v :: items => sortKeys v :: sortItems items

/-- The values of the properties sorted, and the properties where they were. -/
def sortFields : List (Text × Json) → List (Text × Json)
  | [] => []
  | (k, v) :: fields => (k, sortKeys v) :: sortFields fields
end

theorem sortFields_map (fields : List (Text × Json)) : sortFields fields = fields.map fun m => (m.1, sortKeys m.2) := by
  induction fields with
  | nil => rfl
  | cons head rest ih => rw [sortFields, List.map_cons, ih]

theorem sortFields_keys (fields : List (Text × Json)) : (sortFields fields).map Prod.fst = fields.map Prod.fst := by
  rw [sortFields_map, List.map_map]
  rfl

theorem ordered_distinct {fields : List (Text × Json)} (ordered : Ordered fields) : (fields.map Prod.fst).Nodup :=
  List.pairwise_map.mpr (ordered.imp fun h => h.1)

theorem sorted_eq_of_perm {fields fields' : List (Text × Json)} (perm : fields.Perm fields')
    (distinct : (fields.map Prod.fst).Nodup) : fields.insertionSort byKey = fields'.insertionSort byKey := by
  have perm' : (fields.insertionSort byKey).Perm (fields'.insertionSort byKey) :=
    ((List.perm_insertionSort byKey fields).trans perm).trans (List.perm_insertionSort byKey fields').symm
  refine perm'.eq_of_pairwise ?_ (List.pairwise_insertionSort byKey fields) (List.pairwise_insertionSort byKey fields')
  intro a b first second below above
  have key : a.1 = b.1 := Std.Antisymm.antisymm (r := Fetch.Headers.Sorted) _ _ below above
  have inFields : a ∈ fields := (List.mem_insertionSort byKey).mp first
  have inFields' : b ∈ fields := perm.mem_iff.mpr ((List.mem_insertionSort byKey).mp second)
  exact List.inj_on_of_nodup_map distinct inFields inFields' key

theorem sorted_perm {fields : List (Text × Json)} (distinct : (fields.map Prod.fst).Nodup) :
    (buildFields (fields.insertionSort byKey)).Perm fields := by
  have perm := List.perm_insertionSort byKey fields
  exact (buildFields_perm ((perm.map Prod.fst).nodup_iff.mpr distinct)).trans perm

mutual
theorem sortKeys_congr : ∀ {v w : Json}, v.Same w → v.Canonical → sortKeys v = sortKeys w
  | _, _, .null, _ => rfl
  | _, _, .bool _, _ => rfl
  | _, _, .num _, _ => rfl
  | _, _, .str _, _ => rfl
  | _, _, .arr each, canonical => congrArg Json.arr (sortItems_congr each canonical)
  | _, _, @Json.Same.obj fields shuffled _ order each, canonical => by
    have children : CanonicalFields shuffled :=
      canonicalFields_iff.mpr fun member found => canonicalFields_iff.mp canonical.2 member (order.mem_iff.mpr found)
    have perm : (sortFields fields).Perm (sortFields shuffled) := by
      rw [sortFields_map, sortFields_map]
      exact order.map _
    rw [sortFields_congr each children] at perm
    rw [sortKeys, sortKeys, sorted_eq_of_perm perm]
    rw [sortFields_keys]
    exact ordered_distinct canonical.1

theorem sortItems_congr : ∀ {items items' : List Json}, SameItems items items' → CanonicalItems items →
    sortItems items = sortItems items'
  | _, _, .nil, _ => rfl
  | _, _, .cons head tail, canonical => by
    rw [sortItems, sortItems, sortKeys_congr head canonical.1, sortItems_congr tail canonical.2]

theorem sortFields_congr : ∀ {fields fields' : List (Text × Json)}, SameFields fields fields' → CanonicalFields fields →
    sortFields fields = sortFields fields'
  | _, _, .nil, _ => rfl
  | _, _, .cons k head tail, canonical => by
    rw [sortFields, sortFields, sortKeys_congr head canonical.1, sortFields_congr tail canonical.2]
end

/-- Properties whose sorted values agree in some order are the same properties in some order. -/
theorem sameFields_of_map {fields : List (Text × Json)} (each : ∀ m ∈ fields, ∀ w : Json, m.2.Canonical → w.Canonical →
    sortKeys m.2 = sortKeys w → m.2.Same w) (canonical : CanonicalFields fields) :
    ∀ {fields' : List (Text × Json)}, CanonicalFields fields' → sortFields fields = sortFields fields' →
      SameFields fields fields' := by
  induction fields with
  | nil =>
    intro fields' _ same
    cases fields' with
    | nil => exact .nil
    | cons head rest => cases same
  | cons head rest ih =>
    intro fields' canonical' same
    obtain ⟨k, v⟩ := head
    cases fields' with
    | nil => cases same
    | cons head' rest' =>
      obtain ⟨k', w⟩ := head'
      rw [sortFields, sortFields] at same
      obtain ⟨first, others⟩ := List.cons.inj same
      obtain ⟨rfl, value⟩ := Prod.mk.inj first
      exact .cons k (each (k, v) List.mem_cons_self w canonical.1 canonical'.1 value)
        (ih (fun m member => each m (List.mem_cons_of_mem _ member)) canonical.2 canonical'.2 others)

theorem same_obj {fields fields' : List (Text × Json)} (each : ∀ m ∈ fields, ∀ w : Json, m.2.Canonical → w.Canonical →
    sortKeys m.2 = sortKeys w → m.2.Same w) (canonical : (Json.obj fields).Canonical) (canonical' : (Json.obj fields').Canonical)
    (same : sortKeys (.obj fields) = sortKeys (.obj fields')) : (Json.obj fields).Same (.obj fields') := by
  have keys : ((sortFields fields).map Prod.fst).Nodup := by
    rw [sortFields_keys]
    exact ordered_distinct canonical.1
  have keys' : ((sortFields fields').map Prod.fst).Nodup := by
    rw [sortFields_keys]
    exact ordered_distinct canonical'.1
  rw [sortKeys, sortKeys, Json.obj.injEq] at same
  have perm : (sortFields fields').Perm (sortFields fields) := by
    have first := sorted_perm keys
    rw [same] at first
    exact (sorted_perm keys').symm.trans first
  rw [sortFields_map fields] at perm
  have split : Relation.Comp (fun l l' => l = l'.map fun m : Text × Json => (m.1, sortKeys m.2)) List.Perm
      (sortFields fields') fields := by
    rw [List.eq_map_comp_perm]
    exact perm
  obtain ⟨shuffled, agree, order⟩ := split
  refine .obj order.symm (sameFields_of_map ?_ ?_ canonical'.2 ?_)
  · exact fun m member => each m (order.mem_iff.mp member)
  · exact canonicalFields_iff.mpr fun m member => canonicalFields_iff.mp canonical.2 m (order.mem_iff.mp member)
  · rw [sortFields_map shuffled, agree]

mutual
theorem same_of_sortKeys : ∀ (v w : Json), v.Canonical → w.Canonical → sortKeys v = sortKeys w → v.Same w
  | .null, w, _, _, same => by
    cases w <;> cases same
    exact .null
  | .bool b, w, _, _, same => by
    cases w <;> cases same
    exact .bool b
  | .num x, w, _, _, same => by
    cases w <;> cases same
    exact .num x
  | .str s, w, _, _, same => by
    cases w <;> cases same
    exact .str s
  | .arr items, w, canonical, canonical', same => by
    cases w with
    | arr items' => exact .arr (same_of_sortItems items items' canonical canonical' (Json.arr.inj same))
    | _ => cases same
  | .obj fields, w, canonical, canonical', same => by
    cases w with
    | obj fields' => exact same_obj (same_of_sortFields fields) canonical canonical' same
    | _ => cases same

theorem same_of_sortItems : ∀ (items items' : List Json), CanonicalItems items → CanonicalItems items' →
    sortItems items = sortItems items' → SameItems items items'
  | [], items', _, _, same => by
    cases items' with
    | nil => exact .nil
    | cons w items' => cases same
  | v :: items, items', canonical, canonical', same => by
    cases items' with
    | nil => cases same
    | cons w items' =>
      obtain ⟨head, tail⟩ := List.cons.inj same
      exact .cons (same_of_sortKeys v w canonical.1 canonical'.1 head)
        (same_of_sortItems items items' canonical.2 canonical'.2 tail)

theorem same_of_sortFields : ∀ (fields : List (Text × Json)), ∀ m ∈ fields, ∀ w : Json, m.2.Canonical → w.Canonical →
    sortKeys m.2 = sortKeys w → m.2.Same w
  | [], _, member, _, _, _, _ => by cases member
  | (k, v) :: fields, m, member, w, canonical, canonical', same => by
    rcases List.mem_cons.mp member with first | later
    · rw [first] at canonical same ⊢
      exact same_of_sortKeys v w canonical canonical' same
    · exact same_of_sortFields fields m later w canonical canonical' same
end

theorem sortKeys_eq_iff {v w : Json} (canonical : v.Canonical) (canonical' : w.Canonical) :
    sortKeys v = sortKeys w ↔ v.Same w :=
  ⟨same_of_sortKeys v w canonical canonical', fun same => sortKeys_congr same canonical⟩

/-! ### Sorting and writing -/

theorem normalFields_map (fields : List (Text × Json)) : normalFields fields = fields.map fun m => (m.1, normalForm m.2) := by
  induction fields with
  | nil => rfl
  | cons head rest ih => rw [normalFields, List.map_cons, ih]

theorem normalForm_obj {fields : List (Text × Json)} (ordered : Ordered fields) :
    normalForm (.obj fields) = .obj (fields.map fun m => (m.1, normalForm m.2)) := by
  rw [normalForm, buildFields_eq (normalFields_ordered ordered), normalFields_map]

theorem sorted_map (f : Json → Json) (fields : List (Text × Json)) :
    buildFields ((fields.map fun m => (m.1, f m.2)).insertionSort byKey) =
      (buildFields (fields.insertionSort byKey)).map fun m => (m.1, f m.2) := by
  rw [← buildFields_map, List.map_insertionSort (r := byKey) (s := byKey)]
  exact fun a _ b _ => Iff.rfl

mutual
theorem normalForm_sortKeys : ∀ v : Json, v.Canonical → normalForm (sortKeys v) = sortKeys (normalForm v)
  | .null, _ => rfl
  | .bool _, _ => rfl
  | .num x, _ => by cases x <;> rfl
  | .str _, _ => rfl
  | .arr items, canonical => congrArg Json.arr (normalItems_sortItems items canonical)
  | .obj fields, canonical => by
    rw [sortKeys, normalForm_obj (buildFields_ordered _), ← sorted_map, normalForm_obj canonical.1, sortKeys, sortFields_map,
      sortFields_map, List.map_map, List.map_map]
    congr 2
    refine congrArg (List.insertionSort byKey) (List.map_congr_left fun m member => ?_)
    exact congrArg (Prod.mk m.1) (normalForm_sortField fields canonical.2 m member)

theorem normalItems_sortItems : ∀ items : List Json, CanonicalItems items →
    normalItems (sortItems items) = sortItems (normalItems items)
  | [], _ => rfl
  | v :: items, canonical => by
    rw [sortItems, normalItems, normalItems, sortItems, normalForm_sortKeys v canonical.1,
      normalItems_sortItems items canonical.2]

theorem normalForm_sortField : ∀ fields : List (Text × Json), CanonicalFields fields → ∀ m ∈ fields,
    normalForm (sortKeys m.2) = sortKeys (normalForm m.2)
  | [], _, _, member => by cases member
  | (k, v) :: fields, canonical, m, member => by
    rcases List.mem_cons.mp member with first | later
    · rw [first]
      exact normalForm_sortKeys v canonical.1
    · exact normalForm_sortField fields canonical.2 m later
end

mutual
theorem sortKeys_canonical : ∀ v : Json, v.Canonical → (sortKeys v).Canonical
  | .null, _ => trivial
  | .bool _, _ => trivial
  | .num _, _ => trivial
  | .str _, _ => trivial
  | .arr items, canonical => sortItems_canonical items canonical
  | .obj fields, canonical => by
    refine ⟨buildFields_ordered _, canonicalFields_iff.mpr fun m found => ?_⟩
    have member := (List.mem_insertionSort byKey).mp (mem_buildFields found)
    exact sortFields_canonical fields canonical.2 m member

theorem sortItems_canonical : ∀ items : List Json, CanonicalItems items → CanonicalItems (sortItems items)
  | [], _ => trivial
  | v :: items, canonical => ⟨sortKeys_canonical v canonical.1, sortItems_canonical items canonical.2⟩

theorem sortFields_canonical : ∀ fields : List (Text × Json), CanonicalFields fields → ∀ m ∈ sortFields fields, m.2.Canonical
  | [], _, _, member => by cases member
  | (k, v) :: fields, canonical, m, member => by
    rcases List.mem_cons.mp member with first | later
    · rw [first]
      exact sortKeys_canonical v canonical.1
    · exact sortFields_canonical fields canonical.2 m later
end

mutual
theorem stringify_normalForm : ∀ v : Json, v.Canonical → stringify (normalForm v) = stringify v
  | .null, _ => rfl
  | .bool _, _ => rfl
  | .num x, _ => by cases x <;> rfl
  | .str _, _ => rfl
  | .arr [], _ => rfl
  | .arr (v :: items), canonical => by
    rw [normalForm, normalItems, stringify, stringify, stringify_normalForm v canonical.1,
      stringify_normalItems items canonical.2]
  | .obj [], _ => rfl
  | .obj ((k, v) :: fields), canonical => by
    rw [normalForm, buildFields_eq (normalFields_ordered canonical.1), normalFields, stringify, stringify,
      stringify_normalForm v canonical.2.1, stringify_normalFields fields canonical.2.2]

theorem stringify_normalItems : ∀ items : List Json, CanonicalItems items →
    stringifyItems (normalItems items) = stringifyItems items
  | [], _ => rfl
  | v :: items, canonical => by
    rw [normalItems, stringifyItems, stringifyItems, stringify_normalForm v canonical.1,
      stringify_normalItems items canonical.2]

theorem stringify_normalFields : ∀ fields : List (Text × Json), CanonicalFields fields →
    stringifyFields (normalFields fields) = stringifyFields fields
  | [], _ => rfl
  | (k, v) :: fields, canonical => by
    rw [normalFields, stringifyFields, stringifyFields, stringify_normalForm v canonical.1,
      stringify_normalFields fields canonical.2]
end

/-- Two values are written the same exactly when they are read back the same. -/
theorem stringify_eq_iff {v w : Json} (canonical : v.Canonical) (canonical' : w.Canonical) :
    stringify v = stringify w ↔ normalForm v = normalForm w := by
  constructor
  · intro same
    have read := parse_stringify v
    rw [same, parse_stringify] at read
    exact (Option.some.inj read).symm
  · intro same
    rw [← stringify_normalForm v canonical, same, stringify_normalForm w canonical']

/-- What is written of the sorted values tells them apart as far as a round trip does, up to the order of keys. -/
theorem stringify_sortKeys_eq_iff {v w : Json} (canonical : v.Canonical) (canonical' : w.Canonical) :
    stringify (sortKeys v) = stringify (sortKeys w) ↔ (normalForm v).Same (normalForm w) := by
  rw [stringify_eq_iff (sortKeys_canonical v canonical) (sortKeys_canonical w canonical'), normalForm_sortKeys v canonical,
    normalForm_sortKeys w canonical', sortKeys_eq_iff (normalForm_canonical v) (normalForm_canonical w)]

end Js
