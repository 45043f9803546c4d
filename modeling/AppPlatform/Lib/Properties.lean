import AppPlatform.Lib.Text

/-!
# Own properties of an object

Array indices come first, in ascending order, then the other keys in the order they were defined.
-/

namespace Js
variable {α : Type*}

def arrayIndex? (key : Text) : Option ℕ :=
  if key = natText (natOf key) ∧ natOf key < 2 ^ 32 - 1 then some (natOf key) else none

/-- A new key `k` is placed before the key `k'`. -/
def precedes (k k' : Text) : Bool :=
  match arrayIndex? k, arrayIndex? k' with
  | some i, some j => i < j
  | some _, none => true
  | none, _ => false

/-- Define the property `k`: in place when the object has it, else in property order. -/
def setField : List (Text × α) → Text → α → List (Text × α)
  | [], k, v => [(k, v)]
  | (k', v') :: rest, k, v =>
    if k' = k then (k, v) :: rest
    else if precedes k k' then (k, v) :: (k', v') :: rest
    else (k', v') :: setField rest k v

def buildFields (members : List (Text × α)) : List (Text × α) :=
  members.foldl (fun fields member => setField fields member.1 member.2) []

/-- Keys are distinct and in property order. -/
def Ordered (fields : List (Text × α)) : Prop :=
  fields.Pairwise fun a b => a.1 ≠ b.1 ∧ precedes b.1 a.1 = false

theorem precedes_asymm {k k' : Text} (h : precedes k k' = true) : precedes k' k = false := by
  unfold precedes at h ⊢
  cases hk : arrayIndex? k <;> cases hk' : arrayIndex? k' <;> simp_all
  omega

theorem precedes_trans {a b c : Text} (h : precedes a b = true) (h' : precedes b c = true) : precedes a c = true := by
  unfold precedes at h h' ⊢
  cases ha : arrayIndex? a <;> cases hb : arrayIndex? b <;> cases hc : arrayIndex? c <;> simp_all
  omega

/-- The key does not start with a digit, so it is not an array index. -/
def isName : Text → Bool
  | [] => false
  | u :: _ => !isDigit u

theorem arrayIndex_name {key : Text} (name : isName key = true) : arrayIndex? key = none := by
  cases key with
  | nil => cases name
  | cons u t =>
    refine if_neg fun index => ?_
    have digit := natText_digits (natOf (u :: t)) u (index.1 ▸ List.mem_cons_self)
    simp [isName, digit] at name

theorem ordered_names {fields : List (Text × α)} (keys : List Text) (shape : fields.map Prod.fst = keys)
    (distinct : keys.Nodup) (names : keys.all isName = true) : Ordered fields := by
  have ordered : keys.Pairwise fun a b => a ≠ b ∧ precedes b a = false := by
    refine distinct.imp_of_mem ?_
    intro a b _ found differs
    have name := arrayIndex_name (List.all_eq_true.mp names b found)
    exact ⟨differs, by rw [precedes, name]⟩
  exact List.pairwise_map.mp (shape ▸ ordered)

theorem mem_setField {fields : List (Text × α)} {k : Text} {v : α} {member : Text × α}
    (h : member ∈ setField fields k v) : member = (k, v) ∨ member ∈ fields := by
  induction fields with
  | nil => exact Or.inl (List.mem_singleton.mp h)
  | cons head rest ih =>
    rw [setField] at h
    split at h
    · exact (List.mem_cons.mp h).imp_right (List.mem_cons_of_mem _)
    split at h
    · exact List.mem_cons.mp h
    · rcases List.mem_cons.mp h with same | later
      · exact Or.inr (by simp [same])
      · exact (ih later).imp_right (List.mem_cons_of_mem _)

theorem setField_ordered {fields : List (Text × α)} (ordered : Ordered fields) (k : Text) (v : α) :
    Ordered (setField fields k v) := by
  induction fields with
  | nil => exact List.pairwise_singleton _ _
  | cons head rest ih =>
    obtain ⟨above, tail⟩ := List.pairwise_cons.mp ordered
    rw [setField]
    split
    · rename_i same
      exact List.pairwise_cons.mpr ⟨by simpa [same] using above, tail⟩
    rename_i differs
    split
    · rename_i first
      refine List.pairwise_cons.mpr ⟨?_, ordered⟩
      intro b member
      rcases List.mem_cons.mp member with rfl | later
      · exact ⟨Ne.symm differs, precedes_asymm first⟩
      · obtain ⟨-, after⟩ := above b later
        refine ⟨?_, ?_⟩
        · intro same
          rw [show k = b.1 from same, after] at first
          cases first
        · by_contra before
          rw [precedes_trans (Bool.not_eq_false _ |>.mp before) first] at after
          cases after
    · rename_i notFirst
      refine List.pairwise_cons.mpr ⟨?_, ih tail⟩
      intro b member
      rcases mem_setField member with rfl | later
      · exact ⟨differs, by simpa using notFirst⟩
      · exact above b later

theorem buildFields_ordered (members : List (Text × α)) : Ordered (buildFields members) := by
  have general : ∀ (members fields : List (Text × α)), Ordered fields →
      Ordered (members.foldl (fun fields member => setField fields member.1 member.2) fields) := by
    intro members
    induction members with
    | nil => exact fun _ ordered => ordered
    | cons member rest ih => exact fun fields ordered => ih _ (setField_ordered ordered _ _)
  exact general members [] List.Pairwise.nil

theorem mem_buildFields {members : List (Text × α)} {member : Text × α} (h : member ∈ buildFields members) :
    member ∈ members := by
  have general : ∀ (members fields : List (Text × α)),
      member ∈ members.foldl (fun fields member => setField fields member.1 member.2) fields →
      member ∈ fields ∨ member ∈ members := by
    intro members
    induction members with
    | nil => exact fun _ found => Or.inl found
    | cons head rest ih =>
      intro fields found
      rcases ih _ found with defined | later
      · rcases mem_setField defined with same | old
        · exact Or.inr (by simp [same])
        · exact Or.inl old
      · exact Or.inr (List.mem_cons_of_mem _ later)
  exact (general members [] h).resolve_left List.not_mem_nil

theorem setField_last {fields : List (Text × α)} {k : Text} {v : α}
    (last : ∀ a ∈ fields, a.1 ≠ k ∧ precedes k a.1 = false) : setField fields k v = fields ++ [(k, v)] := by
  induction fields with
  | nil => rfl
  | cons head rest ih =>
    obtain ⟨differs, notBefore⟩ := last head List.mem_cons_self
    rw [setField, if_neg differs, if_neg (by simp [notBefore]),
      ih fun a member => last a (List.mem_cons_of_mem _ member)]
    rfl

theorem buildFields_eq {fields : List (Text × α)} (ordered : Ordered fields) : buildFields fields = fields := by
  have general : ∀ (rest done : List (Text × α)), Ordered (done ++ rest) →
      rest.foldl (fun fields member => setField fields member.1 member.2) done = done ++ rest := by
    intro rest
    induction rest with
    | nil => simp
    | cons member rest ih =>
      intro done ordered
      have last : ∀ a ∈ done, a.1 ≠ member.1 ∧ precedes member.1 a.1 = false :=
        fun a found => (List.pairwise_append.mp ordered).2.2 a found member List.mem_cons_self
      rw [List.foldl_cons, setField_last last]
      simpa using ih (done ++ [member]) (by simpa using ordered)
  exact general fields [] ordered

@[simp]
theorem lookup_setField_same (fields : List (Text × α)) (k : Text) (v : α) :
    (setField fields k v).lookup k = some v := by
  induction fields with
  | nil => simp [setField]
  | cons head rest ih =>
    rw [setField]
    split
    · simp
    split
    · simp
    · rename_i differs _
      rw [List.lookup_cons, beq_false_of_ne (Ne.symm differs)]
      exact ih

theorem lookup_setField_other (fields : List (Text × α)) {k k' : Text} (v : α) (differs : k' ≠ k) :
    (setField fields k v).lookup k' = fields.lookup k' := by
  induction fields with
  | nil => simp [setField, List.lookup_cons, beq_false_of_ne differs]
  | cons head rest ih =>
    rw [setField]
    split
    · rename_i same
      obtain ⟨name, value⟩ := head
      cases same
      simp [List.lookup_cons, beq_false_of_ne differs]
    split
    · simp [List.lookup_cons, beq_false_of_ne differs]
    · rw [List.lookup_cons, List.lookup_cons, ih]

/-- Defining a property twice keeps the second value. -/
theorem setField_setField (fields : List (Text × α)) (k : Text) (v w : α) :
    setField (setField fields k v) k w = setField fields k w := by
  induction fields with
  | nil => simp [setField]
  | cons head rest ih =>
    obtain ⟨name, value⟩ := head
    by_cases same : name = k
    · simp [setField, same]
    by_cases first : precedes k name = true
    · simp [setField, same, first]
    · simp [setField, same, first, ih]

theorem mem_of_lookup {fields : List (Text × α)} {k : Text} {v : α} (found : fields.lookup k = some v) :
    (k, v) ∈ fields := by
  obtain ⟨before, after, shape, -⟩ := List.lookup_eq_some_iff.mp found
  simp [shape]

/-- Writing back the value a property has changes nothing. -/
theorem setField_lookup {fields : List (Text × α)} {k : Text} {v : α} (ordered : Ordered fields)
    (found : fields.lookup k = some v) : setField fields k v = fields := by
  induction fields with
  | nil => cases found
  | cons head rest ih =>
    obtain ⟨name, value⟩ := head
    obtain ⟨above, tail⟩ := List.pairwise_cons.mp ordered
    by_cases same : name = k
    · subst same
      rw [List.lookup_cons_self] at found
      cases found
      simp [setField]
    · rw [List.lookup_cons, beq_false_of_ne (Ne.symm same)] at found
      have member := mem_of_lookup found
      rw [setField, if_neg same, if_neg (by simp [(above _ member).2]), ih tail found]

/-! ### Building from distinct keys -/

theorem setField_perm {fields : List (Text × α)} {k : Text} {v : α} (fresh : ∀ a ∈ fields, a.1 ≠ k) :
    (setField fields k v).Perm ((k, v) :: fields) := by
  induction fields with
  | nil => exact List.Perm.refl _
  | cons head rest ih =>
    rw [setField, if_neg (fresh head List.mem_cons_self)]
    split
    · exact List.Perm.refl _
    · exact ((ih fun a member => fresh a (List.mem_cons_of_mem _ member)).cons head).trans (List.Perm.swap _ _ _)

theorem buildFields_perm {members : List (Text × α)} (distinct : (members.map Prod.fst).Nodup) :
    (buildFields members).Perm members := by
  have general : ∀ (members fields : List (Text × α)), ((fields ++ members).map Prod.fst).Nodup →
      (members.foldl (fun fields member => setField fields member.1 member.2) fields).Perm (fields ++ members) := by
    intro members
    induction members with
    | nil => exact fun fields _ => by rw [List.append_nil]; rfl
    | cons member rest ih =>
      intro fields distinct
      have moved : (fields ++ member :: rest).Perm (member :: fields ++ rest) := List.perm_middle
      have fresh : ∀ a ∈ fields, a.1 ≠ member.1 := by
        intro a found same
        have nodup := ((moved.map Prod.fst).nodup_iff.mp distinct)
        exact (List.nodup_cons.mp nodup).1 (List.mem_map.mpr ⟨a, List.mem_append_left _ found, same⟩)
      have defined := setField_perm (v := member.2) fresh
      refine ((ih _ ?_).trans (defined.append_right rest)).trans moved.symm
      exact (((defined.append_right rest).trans moved.symm).map Prod.fst).nodup_iff.mpr distinct
  exact general members [] distinct

theorem setField_map {β : Type*} (f : α → β) (fields : List (Text × α)) (k : Text) (v : α) :
    setField (fields.map fun m => (m.1, f m.2)) k (f v) = (setField fields k v).map fun m => (m.1, f m.2) := by
  induction fields with
  | nil => rfl
  | cons head rest ih =>
    obtain ⟨k', v'⟩ := head
    rw [List.map_cons, setField, setField]
    split
    · rfl
    split
    · rfl
    · rw [ih, List.map_cons]

theorem buildFields_map {β : Type*} (f : α → β) (members : List (Text × α)) :
    buildFields (members.map fun m => (m.1, f m.2)) = (buildFields members).map fun m => (m.1, f m.2) := by
  have general : ∀ (members fields : List (Text × α)),
      (members.map fun m => (m.1, f m.2)).foldl (fun fields m => setField fields m.1 m.2) (fields.map fun m => (m.1, f m.2)) =
        (members.foldl (fun fields m => setField fields m.1 m.2) fields).map fun m => (m.1, f m.2) := by
    intro members
    induction members with
    | nil => exact fun _ => rfl
    | cons member rest ih =>
      intro fields
      rw [List.map_cons, List.foldl_cons, List.foldl_cons, setField_map, ih]
  exact general members []

end Js
