import AppPlatform.Identity.SsoProtect
import AppPlatform.Identity.SsoSealing

/-!
# The sealing is transparent

However many wrappers a call passes, the first seals and the others leave it, the innermost opens and
the others leave it. The tables stay related to what the callers wrote, through transactions and out
of them.
-/

namespace Identity.Sso
open Js Rows Runs
variable {κ γ ι : Type*}

/-- The field that is sealed is in the relation, every other field is the same. -/
def Config (R : Cell γ → Cell γ → Prop) (model field : Text) (a b : Cell γ) : Prop :=
  if model = MODEL ∧ field = OIDC_CONFIG then R a b else b = a

theorem config_other {R : Cell γ → Cell γ → Prop} {model field : Text} {a b : Cell γ}
    (other : ¬ (model = MODEL ∧ field = OIDC_CONFIG)) : Config R model field a b ↔ b = a := by
  rw [Config, if_neg other]

theorem config_mono {R S : Cell γ → Cell γ → Prop} {model field : Text} {a b : Cell γ} (weaker : ∀ a b, R a b → S a b)
    (related : Config R model field a b) : Config S model field a b := by
  unfold Config at related ⊢
  split
  · rename_i here
    rw [if_pos here] at related
    exact weaker a b related
  · rename_i other
    rwa [if_neg other] at related

/-- What a caller may write to a provider. -/
def WritableRow (ring : Keyring κ) (row : Fields γ) : Prop := ∀ config, row OIDC_CONFIG = some config → Writable ring config

def WritableQuery (ring : Keyring κ) : Query ι Text (Cell γ) → Prop
  | .create _ data | .update _ data | .updateMany _ data => WritableRow ring data
  | .findOne _ | .findMany _ => True

/-- Nothing is written to a provider that is not concealed and does not come back. -/
def Writes (ring : Keyring κ) (_ : State ι γ) : Event ι γ → Prop
  | .call model query _ => model = MODEL → WritableQuery ring query
  | _ => True

/-! ### Rows -/

theorem rowRel_refl {R : Cell γ → Cell γ → Prop} {row : Fields γ} (config : ∀ c, row OIDC_CONFIG = some c → R c c) :
    RowRel (Config R MODEL) row row := by
  intro k
  cases found : row k with
  | none => exact .none
  | some c =>
    refine .some ?_
    unfold Config
    split
    · rename_i here
      rw [here.2] at found
      exact config c found
    · rfl

/-- The rows agree outside of the configuration. -/
theorem rowRel_intro {R S : Cell γ → Cell γ → Prop} {a b b' : Fields γ} (rel : RowRel (Config R MODEL) a b)
    (same : ∀ k, k ≠ OIDC_CONFIG → b' k = b k) (config : Option.Rel S (a OIDC_CONFIG) (b' OIDC_CONFIG)) :
    RowRel (Config S MODEL) a b' := by
  intro k
  by_cases field : k = OIDC_CONFIG
  · subst field
    generalize a OIDC_CONFIG = x, b' OIDC_CONFIG = y at config ⊢
    cases config with
    | none => exact .none
    | some h => exact .some (by rwa [Config, if_pos ⟨rfl, rfl⟩])
  · rw [same k field]
    have related := rel k
    generalize a k = x, b k = y at related ⊢
    cases related with
    | none => exact .none
    | some h =>
      rw [config_other fun both => field both.2] at h
      exact .some ((config_other fun both => field both.2).mpr h)

theorem rowRel_config {R : Cell γ → Cell γ → Prop} {a b : Fields γ} (rel : RowRel (Config R MODEL) a b) :
    Option.Rel R (a OIDC_CONFIG) (b OIDC_CONFIG) := by
  have related := rel OIDC_CONFIG
  generalize a OIDC_CONFIG = x, b OIDC_CONFIG = y at related ⊢
  cases related with
  | none => exact .none
  | some h => exact .some (by rwa [Config, if_pos ⟨rfl, rfl⟩] at h)

/-- Mapping the configuration of a row leads from one relation to another. -/
theorem mapConfig_rel {R S : Cell γ → Cell γ → Prop} {fn : Cell γ → Except Thrown (Cell γ)} {a b : Fields γ}
    (rel : RowRel (Config R MODEL) a b) (maps : ∀ x y, R x y → ∃ z, fn y = .ok z ∧ S x z) :
    ∃ c, mapConfig fn b = .ok c ∧ RowRel (Config S MODEL) a c := by
  have config := rowRel_config rel
  unfold mapConfig
  cases here : b OIDC_CONFIG with
  | none =>
    refine ⟨b, rfl, rowRel_intro rel (fun _ _ => rfl) ?_⟩
    rw [here] at config ⊢
    generalize a OIDC_CONFIG = x at config ⊢
    cases config
    exact .none
  | some y =>
    rw [here] at config
    generalize found : a OIDC_CONFIG = x at config
    cases config with
    | @some x y h =>
      obtain ⟨z, mapped, related⟩ := maps x y h
      refine ⟨Function.update b OIDC_CONFIG (some z), ?_, rowRel_intro rel (fun k other => Function.update_of_ne other _ _) ?_⟩
      · dsimp only
        rw [mapped]
        rfl
      · rw [found, Function.update_self]
        exact .some related

theorem mapConfig_fixed {R : Cell γ → Cell γ → Prop} {fn : Cell γ → Except Thrown (Cell γ)} {a b : Fields γ}
    (rel : RowRel (Config R MODEL) a b) (fixes : ∀ x y, R x y → fn y = .ok y) : mapConfig fn b = .ok b := by
  have config := rowRel_config rel
  unfold mapConfig
  cases here : b OIDC_CONFIG with
  | none => rfl
  | some y =>
    rw [here] at config
    generalize a OIDC_CONFIG = x at config
    cases config with
    | some h =>
      dsimp only
      rw [fixes _ _ h]
      exact congrArg Except.ok (Function.update_eq_self_iff.mpr here.symm)

section
variable {aes : Aes κ} {ring : Keyring κ}

theorem sealRow_writable {data : Fields γ} (writable : WritableRow ring data) (iv : Iv) :
    ∃ sealed, sealRow aes ring iv data = .ok sealed ∧ RowRel (Config (Stored aes ring) MODEL) data sealed := by
  have same : RowRel (Config (fun a b : Cell γ => b = a ∧ Writable ring a) MODEL) data data :=
    rowRel_refl fun c found => ⟨rfl, writable c found⟩
  apply mapConfig_rel same
  rintro x y ⟨rfl, allowed⟩
  exact sealOidcConfig_writable allowed iv

theorem sealQuery_writable {query : Query ι Text (Cell γ)} (writable : WritableQuery ring query) (iv : Iv) :
    ∃ sealed, sealQuery aes ring iv query = .ok sealed ∧ QueryRel (Config (Stored aes ring) MODEL) query sealed := by
  cases query with
  | create id data =>
    obtain ⟨sealed, done, rel⟩ := sealRow_writable writable iv
    exact ⟨.create id sealed, by rw [sealQuery, done]; rfl, .create id rel⟩
  | update found changes =>
    obtain ⟨sealed, done, rel⟩ := sealRow_writable writable iv
    exact ⟨.update found sealed, by rw [sealQuery, done]; rfl, .update found rel⟩
  | updateMany found changes =>
    obtain ⟨sealed, done, rel⟩ := sealRow_writable writable iv
    exact ⟨.updateMany found sealed, by rw [sealQuery, done]; rfl, .updateMany found rel⟩
  | findOne found => exact ⟨.findOne found, rfl, .findOne found⟩
  | findMany found => exact ⟨.findMany found, rfl, .findMany found⟩

/-- A second wrapper leaves what the first sealed. -/
theorem sealQuery_stored {query sealed : Query ι Text (Cell γ)}
    (rel : QueryRel (Config (Stored aes ring) MODEL) query sealed) (iv : Iv) :
    sealQuery aes ring iv sealed = .ok sealed := by
  have fixed : ∀ {a b : Fields γ}, RowRel (Config (Stored aes ring) MODEL) a b → sealRow aes ring iv b = .ok b :=
    fun row => mapConfig_fixed row fun _ _ kept => sealOidcConfig_stored kept iv
  cases rel with
  | create id data => rw [sealQuery, fixed data]; rfl
  | update found changes => rw [sealQuery, fixed changes]; rfl
  | updateMany found changes => rw [sealQuery, fixed changes]; rfl
  | findOne found => rfl
  | findMany found => rfl

/-- What is stored, or was opened by a wrapper already. -/
def Openable (aes : Aes κ) (ring : Keyring κ) (written stored : Cell γ) : Prop :=
  Stored aes ring written stored ∨ Shown ring written stored

theorem openRow_openable {row stored : Fields γ} (rel : RowRel (Config (Openable aes ring) MODEL) row stored) :
    ∃ shown, openRow aes ring stored = .ok shown ∧ RowRel (Config (Shown ring) MODEL) row shown := by
  apply mapConfig_rel rel
  rintro x y (kept | seen)
  · exact openOidcConfig_stored kept
  · exact ⟨y, openOidcConfig_shown seen, seen⟩

theorem mapM_openRow {expected rows : List (Fields γ)}
    (rel : List.Forall₂ (RowRel (Config (Openable aes ring) MODEL)) expected rows) :
    ∃ shown, rows.mapM (openRow aes ring) = .ok shown ∧ List.Forall₂ (RowRel (Config (Shown ring) MODEL)) expected shown := by
  induction rel with
  | nil => exact ⟨[], rfl, .nil⟩
  | cons head _ ih =>
    obtain ⟨shown, opened, rel⟩ := openRow_openable head
    obtain ⟨rest, openedRest, rels⟩ := ih
    refine ⟨shown :: rest, ?_, .cons rel rels⟩
    rw [List.mapM_cons, opened, openedRest]
    rfl

theorem openAnswer_openable [DecidableEq ι] {query : Query ι Text (Cell γ)} {table : ι → Option (Fields γ)}
    {rows : List (Fields γ)}
    (rel : List.Forall₂ (RowRel (Config (Openable aes ring) MODEL)) (query.answer table) rows) :
    ∃ shown, openAnswer aes ring query rows = .ok shown ∧
      List.Forall₂ (RowRel (Config (Shown ring) MODEL)) (query.answer table) shown := by
  cases query with
  | updateMany found changes =>
    cases rel
    exact ⟨[], rfl, .nil⟩
  | create id data => exact mapM_openRow rel
  | update found changes => exact mapM_openRow rel
  | findOne found => exact mapM_openRow rel
  | findMany found => exact mapM_openRow rel

theorem openAnswer_rel {R : Text → Cell γ → Cell γ → Prop} {query query' : Query ι Text (Cell γ)}
    (rel : QueryRel R query query') :
    openAnswer aes ring query' = openAnswer aes ring query := by
  cases rel <;> rfl

section
variable [DecidableEq ι] {ivs : ℕ → Iv} {db : Database ι γ}

theorem method_other {model : Text} (other : model ≠ MODEL) (n : ℕ) (query : Query ι Text (Cell γ)) :
    method aes ring ivs n model query db = unpatched model query db := by
  induction n with
  | zero => rfl
  | succ n ih => rw [method, wrap, if_neg other, ih]

def Database.after (db : Database ι γ) (model : Text) (query : Query ι Text (Cell γ)) : Database ι γ :=
  ⟨write db.tables model query, (model, query) :: db.received⟩

variable {query sealed : Query ι Text (Cell γ)} {written : ι → Option (Fields γ)}

theorem method_sealed (rel : QueryRel (Config (Stored aes ring) MODEL) query sealed)
    (tables : ∀ i, Option.Rel (RowRel (Config (Stored aes ring) MODEL)) (written i) (db.tables MODEL i)) (n : ℕ) :
    ∃ rows, method aes ring ivs n MODEL sealed db = (.ok rows, db.after MODEL sealed) ∧
      List.Forall₂ (RowRel (Config (Openable aes ring) MODEL)) (query.answer written) rows := by
  induction n with
  | zero =>
    refine ⟨sealed.answer (db.tables MODEL), rfl, ?_⟩
    have answers := rel.answer tables
    exact answers.imp fun _ _ row => row.mono fun _ _ _ => config_mono fun _ _ => Or.inl
  | succ n ih =>
    obtain ⟨rows, called, related⟩ := ih
    obtain ⟨shown, opened, seen⟩ := openAnswer_openable related
    refine ⟨shown, ?_, seen.imp fun _ _ row => row.mono fun _ _ _ => config_mono fun _ _ => Or.inr⟩
    rw [method, wrap, if_pos rfl, sealQuery_stored rel]
    dsimp only
    rw [called, openAnswer_rel rel]
    dsimp only [Except.bind]
    rw [opened]

/-- A query that a caller may make, behind one wrapper or more. -/
theorem method_writable (writable : WritableQuery ring query)
    (tables : ∀ i, Option.Rel (RowRel (Config (Stored aes ring) MODEL)) (written i) (db.tables MODEL i)) {n : ℕ} (wrapped : 0 < n) :
    ∃ sealed rows, QueryRel (Config (Stored aes ring) MODEL) query sealed ∧
      method aes ring ivs n MODEL query db = (.ok rows, db.after MODEL sealed) ∧
      List.Forall₂ (RowRel (Config (Shown ring) MODEL)) (query.answer written) rows := by
  obtain ⟨n, rfl⟩ := Nat.exists_eq_succ_of_ne_zero wrapped.ne'
  obtain ⟨sealed, done, rel⟩ := sealQuery_writable writable (ivs n)
  obtain ⟨rows, called, related⟩ := method_sealed rel tables n
  obtain ⟨shown, opened, seen⟩ := openAnswer_openable related
  refine ⟨sealed, shown, rel, ?_, seen⟩
  rw [method, wrap, if_pos rfl, done]
  dsimp only
  rw [called]
  dsimp only [Except.bind]
  rw [opened]

end

end

/-! ### Runs -/

/-- The tables hold what was written, sealed. -/
def Keeps (aes : Aes κ) (ring : Keyring κ) (written tables : Tables Text ι Text (Cell γ)) : Prop :=
  ∀ model i, Option.Rel (RowRel (Config (Stored aes ring) model)) (written model i) (tables model i)

/-- The call went through, and was answered with what was written. -/
def Answered (o : Outcome ι γ) : Prop :=
  ∃ rows, o.answer = .ok rows ∧ List.Forall₂ (RowRel (Config Faithful o.model)) o.expected rows

/-- The query that reached the database for a call has the secret encrypted. -/
def Handed (aes : Aes κ) (ring : Keyring κ) (o : Outcome ι γ) (received : Text × Query ι Text (Cell γ)) : Prop :=
  received.1 = o.model ∧ QueryRel (Config (Concealed aes ring) o.model) o.query received.2

structure Sound (aes : Aes κ) (ring : Keyring κ) (s : State ι γ) : Prop where
  wrapped : 0 < s.adapter.wrappers
  keeps : Keeps aes ring s.written s.db.tables
  frames : ∀ f ∈ s.frames, 0 < f.adapter.wrappers ∧ Keeps aes ring f.written f.tables
  answered : ∀ o ∈ s.outcomes, Answered o
  handed : List.Forall₂ (Handed aes ring) s.outcomes s.db.received

theorem patch_wrapped (adapter : Adapter) : 0 < (patch adapter).wrappers := by
  unfold patch
  split
  · rename_i patched
    exact adapter.wrapped patched
  · exact Nat.succ_pos _

section
variable [DecidableEq ι] {aes : Aes κ} {ring : Keyring κ}

/-- A model other than the providers is kept as it is. -/
theorem rowRel_other {R : Cell γ → Cell γ → Prop} {model : Text} (other : model ≠ MODEL) (row : Fields γ) :
    RowRel (Config R model) row row := by
  refine (rowRel_eq.mpr rfl).mono fun k x y same => ?_
  subst same
  exact (config_other fun both => other both.1).mpr rfl

omit [DecidableEq ι] in
theorem queryRel_other {R : Cell γ → Cell γ → Prop} {model : Text} (other : model ≠ MODEL) (query : Query ι Text (Cell γ)) :
    QueryRel (Config R model) query query := by
  refine (queryRel_refl query).mono fun k x y same => ?_
  subst same
  exact (config_other fun both => other both.1).mpr rfl

theorem keeps_write {written tables : Tables Text ι Text (Cell γ)} {model : Text} {query sealed : Query ι Text (Cell γ)}
    (keeps : Keeps aes ring written tables) (rel : QueryRel (Config (Stored aes ring) model) query sealed) :
    Keeps aes ring (write written model query) (write tables model sealed) := by
  intro model' i
  unfold write
  by_cases here : model' = model
  · subst here
    rw [Function.update_self, Function.update_self]
    exact rel.write (keeps model') i
  · rw [Function.update_of_ne here, Function.update_of_ne here]
    exact keeps model' i

/-- One call: what reaches the database, and what comes back. -/
theorem call_spec {s : State ι γ} (sound : Sound aes ring s) {model : Text} {query : Query ι Text (Cell γ)} (ivs : ℕ → Iv)
    (writable : model = MODEL → WritableQuery ring query) :
    ∃ sealed rows, QueryRel (Config (Stored aes ring) model) query sealed ∧
      method aes ring ivs s.adapter.wrappers model query s.db = (.ok rows, s.db.after model sealed) ∧
      List.Forall₂ (RowRel (Config (Shown ring) model)) (query.answer (s.written model)) rows := by
  by_cases provider : model = MODEL
  · subst provider
    exact method_writable (writable rfl) (sound.keeps MODEL) sound.wrapped
  · refine ⟨query, query.answer (s.db.tables model), queryRel_other provider query, method_other provider _ query, ?_⟩
    have answers := (queryRel_other (R := Stored aes ring) provider query).answer (sound.keeps model)
    refine answers.imp fun a b row => row.mono fun k x y related => ?_
    exact (config_other fun both => provider both.1).mpr ((config_other fun both => provider both.1).mp related)

omit [DecidableEq ι] in
theorem start_sound {made : Adapter} {tables : Tables Text ι Text (Cell γ)} (empty : ∀ i, tables MODEL i = none) :
    Sound aes ring (start made tables) where
  wrapped := patch_wrapped made
  keeps model i := by
    show Option.Rel _ (tables model i) (tables model i)
    cases found : tables model i with
    | none => exact .none
    | some row =>
      have other : model ≠ MODEL := by
        rintro rfl
        rw [empty] at found
        cases found
      exact .some (rowRel_other other row)
  frames _ member := by cases member
  answered _ member := by cases member
  handed := .nil

theorem step_sound {s s' : State ι γ} {e : Event ι γ} (sound : Sound aes ring s) (writes : Writes ring s e)
    (taken : step aes ring s e = some s') : Sound aes ring s' := by
  cases e with
  | call model query ivs =>
    obtain ⟨sealed, rows, rel, called, shown⟩ := call_spec sound ivs writes
    simp only [step, called, Option.some.injEq] at taken
    subst taken
    refine ⟨sound.wrapped, keeps_write sound.keeps rel, sound.frames, ?_, ?_⟩
    · intro o member
      rcases List.mem_cons.mp member with rfl | before
      · exact ⟨rows, rfl, shown.imp fun _ _ row => row.mono fun _ _ _ => config_mono fun _ _ => Shown.faithful⟩
      · exact sound.answered o before
    · exact .cons ⟨rfl, rel.mono fun _ _ _ => config_mono fun _ _ => Stored.concealed⟩ sound.handed
  | transaction trx =>
    cases taken
    refine ⟨patch_wrapped trx, sound.keeps, ?_, sound.answered, sound.handed⟩
    intro f member
    rcases List.mem_cons.mp member with rfl | before
    · exact ⟨sound.wrapped, sound.keeps⟩
    · exact sound.frames f before
  | commit =>
    simp only [step] at taken
    split at taken
    · rename_i frame rest here
      obtain rfl := Option.some.inj taken
      have outer := sound.frames frame (by rw [here]; exact List.mem_cons_self)
      exact ⟨outer.1, sound.keeps, fun f member => sound.frames f (by rw [here]; exact List.mem_cons_of_mem _ member),
        sound.answered, sound.handed⟩
    · cases taken
  | rollback =>
    simp only [step] at taken
    split at taken
    · rename_i frame rest here
      obtain rfl := Option.some.inj taken
      have outer := sound.frames frame (by rw [here]; exact List.mem_cons_self)
      exact ⟨outer.1, outer.2, fun f member => sound.frames f (by rw [here]; exact List.mem_cons_of_mem _ member),
        sound.answered, sound.handed⟩
    · cases taken

/-- Where only writable configurations are written, every call goes through and is answered with what was
written, and the database never receives a secret. -/
theorem sealing_transparent {made : Adapter} {tables : Tables Text ι Text (Cell γ)} (empty : ∀ i, tables MODEL i = none)
    {s : State ι γ} {es : List (Event ι γ)} (run : Run (step aes ring) (Writes ring) (start made tables) es s) :
    (∀ o ∈ s.outcomes, Answered o) ∧ List.Forall₂ (Handed aes ring) s.outcomes s.db.received := by
  have sound := run.invariant (I := Sound aes ring) step_sound (start_sound empty)
  exact ⟨sound.answered, sound.handed⟩

end

/-! ### A provider -/

/-- The cipher as it was recorded once, for a key and an `iv` of zeros. -/
def recorded : Aes Unit where
  encrypt _ iv plain :=
    if iv.val = List.replicate 12 0 ∧ plain = utf8 (text "s3cret") then
      ([189, 148, 35, 79, 40, 20], [103, 166, 76, 213, 185, 215, 82, 108, 108, 115, 234, 124, 143, 44, 90, 93])
    else (plain, List.replicate 16 0)
  decrypt _ iv body tag :=
    if iv.val = List.replicate 12 0 ∧ body = [189, 148, 35, 79, 40, 20] ∧
        tag = [103, 166, 76, 213, 185, 215, 82, 108, 108, 115, 234, 124, 143, 44, 90, 93] then some (utf8 (text "s3cret"))
    else if tag = List.replicate 16 0 then some body else none
  tag_length _ iv plain := by split <;> rfl
  decrypt_encrypt _ iv plain := by
    by_cases here : iv.val = List.replicate 12 0 ∧ plain = utf8 (text "s3cret")
    · rw [if_pos here]
      simp [here]
    · rw [if_neg here]
      simp

def firstKey : Keyring Unit where
  current := Number.ofNat 1
  keys version := if version.isFinite 1 then some () else none
  currentKey := ()
  held := by
    rw [Number.ofNat_eq (show 1 < 2 ^ 53 by norm_num)]
    simp [Number.isFinite]

def zeros : ℕ → Iv := fun _ => ⟨List.replicate 12 0, rfl⟩

def provider (config : Text) : Fields Unit := fun k => if k = OIDC_CONFIG then some (.str config) else none

def fresh : Adapter := ⟨0, false, nofun⟩

def noRows : Tables Text ℕ Text (Cell Unit) := fun _ _ => none

def secretConfig : Text := stringify (.obj [(CLIENT_SECRET, .str (text "s3cret"))])

theorem holds_secretConfig : Holds secretConfig [(CLIENT_SECRET, .str (text "s3cret"))] (text "s3cret") := by
  have canonical : (Json.obj [(CLIENT_SECRET, .str (text "s3cret"))]).Canonical := ⟨List.pairwise_singleton _ _, trivial, trivial⟩
  have finite : (Json.obj [(CLIENT_SECRET, .str (text "s3cret"))]).FiniteNumbers := ⟨trivial, trivial⟩
  exact ⟨by rw [secretConfig, parse_stringify, normalForm_eq _ canonical finite], List.lookup_cons_self⟩

theorem firstKey_readable : firstKey.Readable := by
  have small : 1 < 2 ^ 53 := by norm_num
  intro u member
  have written : u ∈ natText 1 := by
    rw [← numberText_nat small (isDouble_nat small), ← Number.ofNat_eq small]
    exact member
  exact natText_digits 1 u written

theorem provider_writable : WritableRow firstKey (provider secretConfig) := by
  intro config here
  have config : config = .str secretConfig := (Option.some.inj here).symm
  subst config
  refine ⟨?_, fun fields s holds => ?_⟩
  · rw [holds_secretConfig.parsed]
    nofun
  · obtain ⟨rfl, rfl⟩ := holds_secretConfig.unique holds
    exact ⟨firstKey_readable, by decide, by decide, trivial, trivial⟩

/-- A provider is created in a transaction and read after it. -/
theorem sealing_transparent_provider : ∃ s : State ℕ Unit,
    (∀ o ∈ s.outcomes, Answered o) ∧ List.Forall₂ (Handed recorded firstKey) s.outcomes s.db.received ∧
      s.outcomes.length = 2 := by
  have run : ∃ s, Run (step recorded firstKey) (Writes firstKey) (start fresh noRows)
      [.transaction fresh, .call MODEL (.create 0 (provider secretConfig)) zeros, .commit, .call MODEL (.findOne (some 0)) zeros] s ∧
      s.outcomes.length = 2 :=
    ⟨_, .cons trivial rfl (.cons (fun _ => provider_writable) rfl (.cons trivial rfl (.cons (fun _ => trivial) rfl (.nil _)))), rfl⟩
  obtain ⟨s, run, two⟩ := run
  obtain ⟨answered, handed⟩ := sealing_transparent (fun _ => rfl) run
  exact ⟨s, answered, handed, two⟩

/-- A provider whose configuration reads `null` cannot be created. -/
theorem null_throws : ¬ ∀ (s : State ℕ Unit) (es : List (Event ℕ Unit)),
    Run (step recorded firstKey) (fun _ _ => True) (start fresh noRows) es s → ∀ o ∈ s.outcomes, Answered o := by
  intro transparent
  have null : parse (text "null") = some .null := by
    have read := parse_stringify .null
    rwa [stringify, normalForm] at read
  have run : Run (step recorded firstKey) (fun _ _ => True) (start fresh noRows)
      [.call MODEL (.create 0 (provider (text "null"))) zeros] _ := .cons trivial rfl (.nil _)
  obtain ⟨rows, answer, _⟩ := transparent _ _ run _ List.mem_cons_self
  have thrown : sealOidcConfig recorded firstKey (zeros 0) (.str (text "null") : Cell Unit) = .error .typeError :=
    mapClientSecret_null null _
  have refused : (method recorded firstKey zeros 1 MODEL (.create 0 (provider (text "null"))) ⟨noRows, []⟩).1 =
      Except.error Thrown.typeError := by
    rw [method, wrap, if_pos rfl, sealQuery, sealRow, mapConfig]
    simp only [provider, if_true, thrown, Except.map]
  exact absurd (refused.symm.trans answer) (by nofun)

end Identity.Sso
