import Mathlib.Data.List.Forall2
import Mathlib.Logic.Function.Basic

/-!
# Tables of rows

A database of tables, a table of rows by id, a row of fields. A query names the rows that its `where`
finds; which they are is for the database to say. Two databases that are related field by field stay
so under related queries, and give related answers.
-/

namespace Rows
variable {μ ι φ α : Type*}

abbrev Row (φ α : Type*) := φ → Option α

abbrev Tables (μ ι φ α : Type*) := μ → ι → Option (Row φ α)

inductive Query (ι φ α : Type*) where
  | create (id : ι) (data : Row φ α)
  | update (found : Option ι) (changes : Row φ α)
  | updateMany (found : List ι) (changes : Row φ α)
  | findOne (found : Option ι)
  | findMany (found : List ι)

def merge (row changes : Row φ α) : Row φ α := fun k => (changes k).or (row k)

section
variable [DecidableEq ι]

/-- The table after the query. -/
def Query.write (rows : ι → Option (Row φ α)) : Query ι φ α → ι → Option (Row φ α)
  | .create id data => Function.update rows id (some data)
  | .update found changes => fun i => if found = some i then (rows i).map (merge · changes) else rows i
  | .updateMany found changes => fun i => if i ∈ found then (rows i).map (merge · changes) else rows i
  | .findOne _ | .findMany _ => rows

def Query.answer (rows : ι → Option (Row φ α)) : Query ι φ α → List (Row φ α)
  | .create _ data => [data]
  | .update found changes => ((found.bind rows).map (merge · changes)).toList
  | .updateMany _ _ => []
  | .findOne found => (found.bind rows).toList
  | .findMany found => found.filterMap rows

end

/-! ### Related field by field -/

def RowRel (R : φ → α → α → Prop) (a b : Row φ α) : Prop := ∀ k, Option.Rel (R k) (a k) (b k)

inductive QueryRel (R : φ → α → α → Prop) : Query ι φ α → Query ι φ α → Prop where
  | create (id : ι) {data data' : Row φ α} : RowRel R data data' → QueryRel R (.create id data) (.create id data')
  | update (found : Option ι) {changes changes' : Row φ α} : RowRel R changes changes' →
      QueryRel R (.update found changes) (.update found changes')
  | updateMany (found : List ι) {changes changes' : Row φ α} : RowRel R changes changes' →
      QueryRel R (.updateMany found changes) (.updateMany found changes')
  | findOne (found : Option ι) : QueryRel R (.findOne found) (.findOne found)
  | findMany (found : List ι) : QueryRel R (.findMany found) (.findMany found)

section
variable {R S : φ → α → α → Prop}

theorem RowRel.mono {a b : Row φ α} (rel : RowRel R a b) (weaker : ∀ k x y, R k x y → S k x y) : RowRel S a b := by
  intro k
  have field := rel k
  generalize a k = x, b k = y at field ⊢
  cases field with
  | none => exact .none
  | some h => exact .some (weaker k _ _ h)

theorem QueryRel.mono {q q' : Query ι φ α} (rel : QueryRel R q q') (weaker : ∀ k x y, R k x y → S k x y) : QueryRel S q q' := by
  cases rel with
  | create id data => exact .create id (data.mono weaker)
  | update found changes => exact .update found (changes.mono weaker)
  | updateMany found changes => exact .updateMany found (changes.mono weaker)
  | findOne found => exact .findOne found
  | findMany found => exact .findMany found

theorem rowRel_merge {row row' changes changes' : Row φ α} (old : RowRel R row row') (new : RowRel R changes changes') :
    RowRel R (merge row changes) (merge row' changes') := by
  intro k
  unfold merge
  have field := new k
  generalize changes k = x, changes' k = y at field ⊢
  cases field with
  | none => exact old k
  | some h => exact .some h

theorem rel_map_merge {row row' : Option (Row φ α)} {changes changes' : Row φ α} (old : Option.Rel (RowRel R) row row')
    (new : RowRel R changes changes') : Option.Rel (RowRel R) (row.map (merge · changes)) (row'.map (merge · changes')) := by
  cases old with
  | none => exact .none
  | some h => exact .some (rowRel_merge h new)

theorem forall₂_toList {a b : Option (Row φ α)} (rel : Option.Rel (RowRel R) a b) : List.Forall₂ (RowRel R) a.toList b.toList := by
  cases rel with
  | none => exact .nil
  | some h => exact .cons h .nil

variable {rows rows' : ι → Option (Row φ α)} (related : ∀ i, Option.Rel (RowRel R) (rows i) (rows' i))
include related

theorem rel_bind (found : Option ι) : Option.Rel (RowRel R) (found.bind rows) (found.bind rows') := by
  cases found with
  | none => exact .none
  | some i => exact related i

theorem forall₂_filterMap (found : List ι) : List.Forall₂ (RowRel R) (found.filterMap rows) (found.filterMap rows') := by
  induction found with
  | nil => exact .nil
  | cons i found ih =>
    have head := related i
    rw [List.filterMap_cons, List.filterMap_cons]
    generalize rows i = row, rows' i = row' at head
    cases head with
    | none => exact ih
    | some h => exact .cons h ih

variable [DecidableEq ι] {q q' : Query ι φ α}

theorem QueryRel.write (rel : QueryRel R q q') (i : ι) : Option.Rel (RowRel R) (q.write rows i) (q'.write rows' i) := by
  cases rel with
  | create id data =>
    by_cases here : i = id
    · subst here
      rw [Query.write, Query.write, Function.update_self, Function.update_self]
      exact .some data
    · rw [Query.write, Query.write, Function.update_of_ne here, Function.update_of_ne here]
      exact related i
  | update found changes =>
    simp only [Query.write]
    split
    · exact rel_map_merge (related i) changes
    · exact related i
  | updateMany found changes =>
    simp only [Query.write]
    split
    · exact rel_map_merge (related i) changes
    · exact related i
  | findOne found => exact related i
  | findMany found => exact related i

omit [DecidableEq ι] in
theorem QueryRel.answer (rel : QueryRel R q q') : List.Forall₂ (RowRel R) (q.answer rows) (q'.answer rows') := by
  cases rel with
  | create id data => exact .cons data .nil
  | update found changes => exact forall₂_toList (rel_map_merge (rel_bind related found) changes)
  | updateMany found changes => exact .nil
  | findOne found => exact forall₂_toList (rel_bind related found)
  | findMany found => exact forall₂_filterMap related found

end

/-- Rows of equal fields are equal. -/
theorem rowRel_eq {a b : Row φ α} : RowRel (fun _ => Eq) a b ↔ a = b := by
  constructor
  · intro rel
    funext k
    have field := rel k
    generalize a k = x, b k = y at field
    cases field with
    | none => rfl
    | some h => rw [h]
  · rintro rfl k
    cases a k with
    | none => exact .none
    | some x => exact .some rfl

theorem queryRel_refl (q : Query ι φ α) : QueryRel (fun _ => Eq) q q := by
  cases q with
  | create id data => exact .create id (rowRel_eq.mpr rfl)
  | update found changes => exact .update found (rowRel_eq.mpr rfl)
  | updateMany found changes => exact .updateMany found (rowRel_eq.mpr rfl)
  | findOne found => exact .findOne found
  | findMany found => exact .findMany found

end Rows
