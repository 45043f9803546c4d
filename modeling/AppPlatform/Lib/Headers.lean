import AppPlatform.Lib.Text
import Mathlib.Data.List.Dedup
import Mathlib.Data.List.Lex
import Mathlib.Data.List.Sort

/-!
# Header lists

The `Headers` class: a list of names and values that is read without regard to case. Iteration gives
every name once, in lower case and in order, with its values joined; only `set-cookie` is given once
a value. `entries_filter_congr` is the frame of iteration: the entries of some names depend on the
values of these names alone.
-/

namespace Fetch

open Js

/-- Names and values in the order they were added; a name is an ASCII token. -/
abbrev Headers := List (Text × Text)

namespace Headers

def named (name : Text) (e : Text × Text) : Bool := toLowerCase e.1 = toLowerCase name

def values (h : Headers) (name : Text) : List Text := (h.filter (named name)).map Prod.snd

/-- Values of one name as one, joined by a comma and a space. -/
def combine (values : List Text) : Text := (text ", ").intercalate values

/-- Names are sorted by their code units. -/
def Sorted (s t : Text) : Prop := s.map UInt16.toNat ≤ t.map UInt16.toNat

instance : DecidableRel Sorted := fun s t => inferInstanceAs (Decidable (s.map UInt16.toNat ≤ t.map UInt16.toNat))

instance : Std.Total Sorted := ⟨fun s t => le_total (s.map UInt16.toNat) (t.map UInt16.toNat)⟩

instance : IsTrans Text Sorted := ⟨fun s t _ => le_trans (a := s.map UInt16.toNat) (b := t.map UInt16.toNat)⟩

instance : Std.Antisymm Sorted := ⟨fun _ _ below above =>
  List.map_injective_iff.mpr (fun _ _ => UInt16.toNat_inj.mp) (le_antisymm below above)⟩

def names (h : Headers) : List Text := (h.map fun e => toLowerCase e.1).dedup.insertionSort Sorted

/-- The entries iteration gives for a name. -/
def block (h : Headers) (name : Text) : List (Text × Text) :=
  if name = text "set-cookie" then (h.values name).map fun value => (name, value) else [(name, combine (h.values name))]

def entries (h : Headers) : List (Text × Text) := h.names.flatMap h.block

def keys (h : Headers) : List Text := h.entries.map Prod.fst

def get (h : Headers) (name : Text) : Option Text :=
  if h.values name = [] then none else some (combine (h.values name))

def append (h : Headers) (name value : Text) : Headers := h ++ [(name, value)]

def delete (h : Headers) (name : Text) : Headers := h.filter fun e => !named name e

def set (h : Headers) (name value : Text) : Headers :=
  match h with
  | [] => [(name, value)]
  | e :: rest => if named name e then (e.1, value) :: delete rest name else e :: set rest name value

theorem named_iff {name : Text} {e : Text × Text} : named name e = true ↔ toLowerCase e.1 = toLowerCase name :=
  decide_eq_true_iff

theorem values_lower (h : Headers) (name : Text) : h.values (toLowerCase name) = h.values name := by
  unfold values named
  rw [toLowerCase_toLowerCase]

/-! ### Iteration -/

theorem mem_names {h : Headers} {name : Text} : name ∈ h.names ↔ ∃ e ∈ h, toLowerCase e.1 = name := by
  rw [names, List.mem_insertionSort, List.mem_dedup, List.mem_map]

theorem names_lower {h : Headers} {name : Text} (member : name ∈ h.names) : toLowerCase name = name := by
  obtain ⟨e, -, rfl⟩ := mem_names.mp member
  exact toLowerCase_toLowerCase e.1

theorem mem_names_iff {h : Headers} {name : Text} : name ∈ h.names ↔ toLowerCase name = name ∧ h.values name ≠ [] := by
  constructor
  · intro member
    have lower := names_lower member
    obtain ⟨e, given, same⟩ := mem_names.mp member
    refine ⟨lower, ?_⟩
    intro empty
    rw [values, List.map_eq_nil_iff, List.filter_eq_nil_iff] at empty
    exact empty e given (named_iff.mpr (same.trans lower.symm))
  · rintro ⟨lower, nonempty⟩
    rw [values, ne_eq, List.map_eq_nil_iff, List.filter_eq_nil_iff] at nonempty
    push Not at nonempty
    obtain ⟨e, given, same⟩ := nonempty
    exact mem_names.mpr ⟨e, given, (named_iff.mp same).trans lower⟩

theorem names_nodup (h : Headers) : h.names.Nodup :=
  (List.perm_insertionSort Sorted _).nodup_iff.mpr (List.nodup_dedup _)

theorem names_sorted (h : Headers) : h.names.Pairwise Sorted := List.pairwise_insertionSort Sorted _

/-- The order of iteration depends on which names are there, not on how they were added. -/
theorem names_filter_congr {h k : Headers} {p : Text → Bool} (same : ∀ name, p name = true → h.values name = k.values name) :
    h.names.filter p = k.names.filter p := by
  have members : ∀ name, name ∈ h.names.filter p ↔ name ∈ k.names.filter p := by
    intro name
    rw [List.mem_filter, List.mem_filter, mem_names_iff, mem_names_iff]
    constructor
    · rintro ⟨⟨lower, nonempty⟩, chosen⟩
      exact ⟨⟨lower, same name chosen ▸ nonempty⟩, chosen⟩
    · rintro ⟨⟨lower, nonempty⟩, chosen⟩
      exact ⟨⟨lower, (same name chosen).symm ▸ nonempty⟩, chosen⟩
  have perm : (h.names.filter p).Perm (k.names.filter p) :=
    (List.perm_ext_iff_of_nodup (h.names_nodup.filter p) (k.names_nodup.filter p)).mpr members
  exact perm.eq_of_pairwise' (h.names_sorted.filter p) (k.names_sorted.filter p)

theorem block_fst {h : Headers} {name : Text} : ∀ e ∈ h.block name, e.1 = name := by
  unfold block
  split
  · intro e member
    obtain ⟨value, -, rfl⟩ := List.mem_map.mp member
    rfl
  · intro e member
    rw [List.mem_singleton.mp member]

theorem block_congr {h k : Headers} {name : Text} (same : h.values name = k.values name) : h.block name = k.block name := by
  unfold block
  rw [same]

theorem filter_flatMap_block (h : Headers) (p : Text → Bool) (l : List Text) :
    (l.flatMap h.block).filter (fun e => p e.1) = (l.filter p).flatMap h.block := by
  induction l with
  | nil => rfl
  | cons name l ih =>
    rw [List.flatMap_cons, List.filter_append, ih, List.filter_cons]
    split
    · rename_i chosen
      rw [List.flatMap_cons, List.filter_eq_self.mpr]
      intro e member
      rw [block_fst e member]
      exact chosen
    · rename_i left
      rw [List.filter_eq_nil_iff.mpr, List.nil_append]
      intro e member
      rw [block_fst e member]
      exact left

theorem entries_filter_congr {h k : Headers} {p : Text → Bool}
    (same : ∀ name, p name = true → h.values name = k.values name) :
    h.entries.filter (fun e => p e.1) = k.entries.filter (fun e => p e.1) := by
  rw [entries, entries, filter_flatMap_block, filter_flatMap_block, names_filter_congr same]
  refine List.flatMap_congr fun name member => block_congr (same name ?_)
  exact (List.mem_filter.mp member).2

theorem get_congr {h k : Headers} {name : Text} (same : h.values name = k.values name) : h.get name = k.get name := by
  unfold get
  rw [same]

theorem mem_keys {h : Headers} {e : Text × Text} (member : e ∈ h) : toLowerCase e.1 ∈ h.keys := by
  have found : e.2 ∈ h.values (toLowerCase e.1) := by
    rw [values_lower]
    exact List.mem_map_of_mem (List.mem_filter.mpr ⟨member, named_iff.mpr rfl⟩)
  have there : toLowerCase e.1 ∈ h.names := mem_names.mpr ⟨e, member, rfl⟩
  rw [keys, entries, List.map_flatMap, List.mem_flatMap]
  refine ⟨toLowerCase e.1, there, ?_⟩
  unfold block
  split
  · exact List.mem_map.mpr ⟨(toLowerCase e.1, e.2), List.mem_map_of_mem found, rfl⟩
  · exact List.mem_singleton.mpr rfl

/-- A header list that was filled from the entries of another reads the same. -/
theorem get_entries (h : Headers) (name : Text) : get h.entries name = h.get name := by
  have chosen : h.names.filter (fun n => toLowerCase n = toLowerCase name) = if h.values name = [] then [] else [toLowerCase name] := by
    have same : h.names.filter (fun n => toLowerCase n = toLowerCase name) = h.names.filter (· = toLowerCase name) := by
      refine List.filter_congr fun n member => ?_
      rw [names_lower member]
    rw [same, List.filter_eq, h.names_nodup.count]
    split
    · rename_i member
      rw [mem_names_iff, values_lower] at member
      rw [if_neg member.2]
      rfl
    · rename_i missing
      rw [mem_names_iff, values_lower, not_and_not_right] at missing
      rw [if_pos (missing (toLowerCase_toLowerCase name))]
      rfl
  have read : values h.entries name = (if h.values name = [] then [] else [toLowerCase name]).flatMap fun n =>
    (h.block n).map Prod.snd := by
    have filtered := filter_flatMap_block h (fun n => toLowerCase n = toLowerCase name) h.names
    rw [chosen] at filtered
    rw [← List.map_flatMap, ← filtered]
    rfl
  unfold get
  rw [read]
  by_cases empty : h.values name = []
  · rw [if_pos empty, if_pos empty]
    rfl
  · rw [if_neg empty, if_neg empty, List.flatMap_singleton, block, values_lower]
    split
    · rw [List.map_map]
      change (if (h.values name).map id = [] then none else some (combine ((h.values name).map id))) = _
      rw [List.map_id, if_neg empty]
    · rw [List.map_singleton, if_neg (List.cons_ne_nil _ []), combine, List.intercalate_singleton]

/-! ### Changes -/

theorem mem_delete {h : Headers} {name : Text} {e : Text × Text} :
    e ∈ h.delete name ↔ e ∈ h ∧ toLowerCase e.1 ≠ toLowerCase name := by
  rw [delete, List.mem_filter, Bool.not_eq_true', Bool.eq_false_iff, ne_eq, named_iff]

theorem mem_set {h : Headers} {name value : Text} {e : Text × Text} (member : e ∈ h.set name value) :
    (e ∈ h ∧ toLowerCase e.1 ≠ toLowerCase name) ∨ (toLowerCase e.1 = toLowerCase name ∧ e.2 = value) := by
  induction h with
  | nil =>
    rw [set, List.mem_singleton] at member
    rw [member]
    exact .inr ⟨rfl, rfl⟩
  | cons f rest ih =>
    rw [set] at member
    split at member
    · rename_i same
      rcases List.mem_cons.mp member with rfl | later
      · exact .inr ⟨named_iff.mp same, rfl⟩
      · obtain ⟨inRest, other⟩ := mem_delete.mp later
        exact .inl ⟨List.mem_cons_of_mem f inRest, other⟩
    · rename_i other
      rcases List.mem_cons.mp member with rfl | later
      · exact .inl ⟨List.mem_cons_self, mt named_iff.mpr other⟩
      · exact (ih later).imp_left fun kept => ⟨List.mem_cons_of_mem f kept.1, kept.2⟩

theorem values_cons_same {e : Text × Text} {name : Text} (same : toLowerCase e.1 = toLowerCase name) (h : Headers) :
    values (e :: h) name = e.2 :: h.values name := by
  rw [values, List.filter_cons_of_pos (named_iff.mpr same)]
  rfl

theorem values_cons_other {e : Text × Text} {name : Text} (differs : toLowerCase e.1 ≠ toLowerCase name) (h : Headers) :
    values (e :: h) name = h.values name := by
  rw [values, List.filter_cons_of_neg (mt named_iff.mp differs)]
  rfl

theorem values_delete (h : Headers) (name : Text) : (h.delete name).values name = [] := by
  rw [values, List.map_eq_nil_iff, List.filter_eq_nil_iff]
  intro e member same
  exact (mem_delete.mp member).2 (named_iff.mp same)

theorem values_delete_other {h : Headers} {name other : Text} (differs : toLowerCase name ≠ toLowerCase other) :
    (h.delete name).values other = h.values other := by
  rw [values, delete, List.filter_filter, values]
  refine congrArg (List.map Prod.snd) (List.filter_congr fun e _ => ?_)
  cases same : named other e with
  | false => rfl
  | true =>
    have apart : named name e = false := Bool.eq_false_iff.mpr fun here =>
      differs ((named_iff.mp here).symm.trans (named_iff.mp same))
    rw [apart]
    rfl

theorem values_set (h : Headers) (name value : Text) : (h.set name value).values name = [value] := by
  induction h with
  | nil => exact values_cons_same rfl []
  | cons e h ih =>
    rw [set]
    split
    · rename_i same
      rw [values_cons_same (e := (e.1, value)) (named_iff.mp same), values_delete]
    · rename_i other
      rw [values_cons_other (mt named_iff.mpr other), ih]

theorem values_set_other {h : Headers} {name other value : Text} (differs : toLowerCase name ≠ toLowerCase other) :
    (h.set name value).values other = h.values other := by
  induction h with
  | nil => exact values_cons_other differs []
  | cons e h ih =>
    rw [set]
    split
    · rename_i same
      have apart : toLowerCase e.1 ≠ toLowerCase other := (named_iff.mp same).symm ▸ differs
      rw [values_cons_other (e := (e.1, value)) apart, values_delete_other differs, values_cons_other apart]
    · unfold values at ih ⊢
      rw [List.filter_cons, List.filter_cons]
      split
      · rw [List.map_cons, List.map_cons, ih]
      · exact ih

theorem get_set (h : Headers) (name value : Text) : (h.set name value).get name = some value := by
  rw [get, values_set, if_neg (List.cons_ne_nil value []), combine, List.intercalate_singleton]

theorem get_set_other {h : Headers} {name other value : Text} (differs : toLowerCase name ≠ toLowerCase other) :
    (h.set name value).get other = h.get other := get_congr (values_set_other differs)

end Headers

end Fetch
