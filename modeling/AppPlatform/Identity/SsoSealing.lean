import AppPlatform.Identity.SsoCrypto

/-!
# Sealing and opening a configuration

What a configuration becomes when it is sealed once or more, and what it is again when it is opened.
-/

namespace Identity.Sso
open Js
variable {κ γ : Type*}

/-! ### Secrets -/

/-- The version of the key is written in decimal digits: below `10 ^ 21`. -/
def Keyring.Readable (ring : Keyring κ) : Prop := ∀ u ∈ numberText ring.current, isDigit u = true

theorem skipWord_append (word rest : Text) : skipWord word (word ++ rest) = some rest := by
  rw [skipWord, if_pos (List.isPrefixOf_iff_prefix.mpr (List.prefix_append _ _)), List.drop_left]

section
variable {aes : Aes κ} {ring : Keyring κ} {iv : Iv} {s : Text}

theorem matchSealed_encryptSecret (readable : ring.Readable) :
    matchSealed (encryptSecret aes ring iv s) = some (numberText ring.current,
      btoa (iv.val ++ (aes.encrypt ring.currentKey iv (utf8 s)).1 ++ (aes.encrypt ring.currentKey iv (utf8 s)).2)) := by
  have stop : StopsAt isDigit (colon :: btoa (iv.val ++ (aes.encrypt ring.currentKey iv (utf8 s)).1 ++
      (aes.encrypt ring.currentKey iv (utf8 s)).2)) := stopsAt_cons (by decide)
  obtain ⟨run, after⟩ := takeWhile_stop readable stop
  unfold matchSealed encryptSecret
  dsimp only
  rw [skipWord_append]
  dsimp only
  rw [run, after, if_neg (numberText_ne_nil ring.current)]
  exact if_pos rfl

theorem isEncrypted_encryptSecret (readable : ring.Readable) : isEncrypted (encryptSecret aes ring iv s) = true := by
  rw [isEncrypted, matchSealed_encryptSecret readable]
  rfl

theorem symbol_not_terminator : ∀ n < 64, isLineTerminator (Base64.symbol n) = false := by decide

theorem btoa_not_terminator (bytes : Bytes) : (btoa bytes).any isLineTerminator = false := by
  rw [List.any_eq_false]
  intro u member
  rcases mem_btoa member with rfl | ⟨n, small, rfl⟩
  · decide
  · rw [symbol_not_terminator n small]
    exact Bool.false_ne_true

theorem payload_parts {start tag : Bytes} (body : Bytes) (startLength : start.length = IV_BYTES) (tagLength : tag.length = TAG_BYTES) :
    (start ++ body ++ tag).take IV_BYTES = start ∧
      ((start ++ body ++ tag).take ((start ++ body ++ tag).length - TAG_BYTES)).drop IV_BYTES = body ∧
      (start ++ body ++ tag).drop ((start ++ body ++ tag).length - TAG_BYTES) = tag := by
  have cut : (start ++ body ++ tag).length - TAG_BYTES = (start ++ body).length := by
    rw [List.length_append, tagLength]
    omega
  rw [cut, List.take_left, List.drop_left, List.append_assoc, ← startLength, List.take_left, List.drop_left]
  exact ⟨rfl, rfl, rfl⟩

theorem decryptPayload_encrypted (key : κ) (plain : Bytes) :
    decryptPayload aes key (iv.val ++ (aes.encrypt key iv plain).1 ++ (aes.encrypt key iv plain).2) = .ok (decodeUtf8 plain) := by
  have inverse := aes.decrypt_encrypt key iv plain
  have tagLength := aes.tag_length key iv plain
  generalize aes.encrypt key iv plain = encrypted at inverse tagLength ⊢
  obtain ⟨first, middle, last⟩ := payload_parts encrypted.1 iv.property tagLength
  have long : IV_BYTES + TAG_BYTES ≤ (iv.val ++ encrypted.1 ++ encrypted.2).length := by
    rw [List.length_append, List.length_append, iv.property, tagLength]
    omega
  rw [decryptPayload, dif_pos long]
  simp only [first, middle, last, inverse]

theorem btoa_payload (key : κ) (plain : Bytes) :
    ¬(btoa (iv.val ++ (aes.encrypt key iv plain).1 ++ (aes.encrypt key iv plain).2) = [] ∨
      (btoa (iv.val ++ (aes.encrypt key iv plain).1 ++ (aes.encrypt key iv plain).2)).any isLineTerminator = true) := by
  have tagLength := aes.tag_length key iv plain
  have nonempty : iv.val ++ (aes.encrypt key iv plain).1 ++ (aes.encrypt key iv plain).2 ≠ [] := by
    intro empty
    rw [(List.append_eq_nil_iff.mp empty).2] at tagLength
    cases tagLength
  rintro (empty | terminated)
  · exact btoa_ne_nil nonempty empty
  · rw [btoa_not_terminator] at terminated
    cases terminated

theorem decryptSecret_held (readable : ring.Readable) {other : Keyring κ} {key : κ} (held : other.keys ring.current = some key) :
    decryptSecret aes other (encryptSecret aes ring iv s) = decryptPayload aes key
      (iv.val ++ (aes.encrypt ring.currentKey iv (utf8 s)).1 ++ (aes.encrypt ring.currentKey iv (utf8 s)).2) := by
  unfold decryptSecret
  rw [matchSealed_encryptSecret readable]
  dsimp only
  rw [if_neg (btoa_payload _ _), Number.ofNat, ofRat_numberText readable, fromBase64_btoa]
  simp only [held]

theorem decryptSecret_missing (readable : ring.Readable) {other : Keyring κ} (missing : other.keys ring.current = none) :
    decryptSecret aes other (encryptSecret aes ring iv s) =
      .error (.encryptionKeyError (text "no key configured for version v" ++ numberText ring.current)) := by
  unfold decryptSecret
  rw [matchSealed_encryptSecret readable]
  dsimp only
  rw [if_neg (btoa_payload _ _), Number.ofNat, ofRat_numberText readable]
  simp only [missing]

/-- What was encrypted is decrypted, with U+FFFD for a surrogate outside a pair. -/
theorem decryptSecret_encryptSecret (readable : ring.Readable) :
    decryptSecret aes ring (encryptSecret aes ring iv s) = .ok (toWellFormed s) := by
  rw [decryptSecret_held readable ring.held, decryptPayload_encrypted, decodeUtf8_utf8]

end

/-- The text is an object with a string under `clientSecret`. -/
structure Holds (t : Text) (fields : List (Text × Json)) (s : Text) : Prop where
  parsed : parse t = some (.obj fields)
  secret : fields.lookup CLIENT_SECRET = some (.str s)

/-- The object, written with `c` for its secret. -/
def withSecret (fields : List (Text × Json)) (c : Text) : Text := stringify (.obj (setField fields CLIENT_SECRET (.str c)))

theorem mapClientSecret_holds {t s : Text} {fields : List (Text × Json)} (holds : Holds t fields s) (fn : Text → Except Thrown Text) :
    mapClientSecret (.str t : Cell γ) fn = (fn s).map fun c => .str (withSecret fields c) := by
  unfold mapClientSecret
  dsimp only
  rw [holds.parsed]
  dsimp only
  rw [holds.secret]
  rfl

/-- The text has no secret, and is not `null`. -/
structure Secretless (t : Text) : Prop where
  notNull : parse t ≠ some .null
  none : ∀ fields s, ¬ Holds t fields s

theorem mapClientSecret_secretless {t : Text} (secretless : Secretless t) (fn : Text → Except Thrown Text) :
    mapClientSecret (.str t : Cell γ) fn = .ok (.str t) := by
  unfold mapClientSecret
  dsimp only
  split
  · rfl
  · rename_i null
    exact absurd null secretless.notNull
  · rename_i fields parsed
    split
    · rename_i s secret
      exact absurd ⟨parsed, secret⟩ (secretless.none fields s)
    · rfl
  · rfl

theorem mapClientSecret_null {t : Text} (null : parse t = some .null) (fn : Text → Except Thrown Text) :
    mapClientSecret (.str t : Cell γ) fn = .error .typeError := by
  unfold mapClientSecret
  dsimp only
  rw [null]

/-- Writing the secret keeps the rest of the object, and its numbers. -/
theorem parse_withSecret {t s : Text} {fields : List (Text × Json)} (holds : Holds t fields s)
    (finite : FiniteFields fields) (c : Text) :
    parse (withSecret fields c) = some (.obj (setField fields CLIENT_SECRET (.str c))) := by
  have canonical : (Json.obj fields).Canonical := parse_canonical holds.parsed
  have member : ∀ m ∈ setField fields CLIENT_SECRET (.str c), m.2.Canonical ∧ m.2.FiniteNumbers := by
    intro m found
    rcases mem_setField found with rfl | old
    · exact ⟨trivial, trivial⟩
    · exact ⟨canonicalFields_iff.mp canonical.2 m old, finiteFields_iff.mp finite m old⟩
  have canonical' : (Json.obj (setField fields CLIENT_SECRET (.str c))).Canonical :=
    ⟨setField_ordered canonical.1 _ _, canonicalFields_iff.mpr fun m found => (member m found).1⟩
  have finite' : (Json.obj (setField fields CLIENT_SECRET (.str c))).FiniteNumbers :=
    finiteFields_iff.mpr fun m found => (member m found).2
  rw [withSecret, parse_stringify, normalForm_eq _ canonical' finite']

theorem holds_withSecret {t s : Text} {fields : List (Text × Json)} (holds : Holds t fields s)
    (finite : FiniteFields fields) (c : Text) :
    Holds (withSecret fields c) (setField fields CLIENT_SECRET (.str c)) c :=
  ⟨parse_withSecret holds finite c, lookup_setField_same fields CLIENT_SECRET (.str c)⟩

theorem withSecret_withSecret (fields : List (Text × Json)) (c d : Text) :
    withSecret (setField fields CLIENT_SECRET (.str c)) d = withSecret fields d := by
  rw [withSecret, setField_setField, withSecret]

/-! ### What is stored and what is shown -/

/-- A secret that is sealed, and opened again as it was. -/
structure Sealable (ring : Keyring κ) (fields : List (Text × Json)) (s : Text) : Prop where
  readable : ring.Readable
  unsealed : isEncrypted s = false
  wellFormed : isWellFormed s = true
  finite : FiniteFields fields

/-- The configurations that may be written. -/
def Writable (ring : Keyring κ) : Cell γ → Prop
  | .other _ => True
  | .str t => parse t ≠ some .null ∧ ∀ fields s, Holds t fields s → Sealable ring fields s

/-- There is nothing to seal. -/
def Untouched : Cell γ → Prop
  | .other _ => True
  | .str t => Secretless t

/-- What the column holds of what was written. -/
inductive Stored (aes : Aes κ) (ring : Keyring κ) : Cell γ → Cell γ → Prop where
  | untouched {config : Cell γ} : Untouched config → Stored aes ring config config
  | encrypted {t s : Text} {fields : List (Text × Json)} (iv : Iv) : Holds t fields s → Sealable ring fields s →
      Stored aes ring (.str t) (.str (withSecret fields (encryptSecret aes ring iv s)))

/-- What is read of what was written. -/
inductive Shown (ring : Keyring κ) : Cell γ → Cell γ → Prop where
  | untouched {config : Cell γ} : Untouched config → Shown ring config config
  | opened {t s : Text} {fields : List (Text × Json)} : Holds t fields s → Sealable ring fields s →
      Shown ring (.str t) (.str (stringify (.obj fields)))

section
variable {aes : Aes κ} {ring : Keyring κ} {config stored shown : Cell γ}

theorem mapClientSecret_untouched (untouched : Untouched config) (fn : Text → Except Thrown Text) :
    mapClientSecret config fn = .ok config := by
  cases config with
  | str t => exact mapClientSecret_secretless untouched fn
  | other x => rfl

theorem sealOidcConfig_writable (writable : Writable ring config) (iv : Iv) :
    ∃ stored, sealOidcConfig aes ring iv config = .ok stored ∧ Stored aes ring config stored := by
  cases config with
  | other x => exact ⟨.other x, rfl, .untouched trivial⟩
  | str t =>
    obtain ⟨notNull, secrets⟩ := writable
    by_cases held : ∃ fields s, Holds t fields s
    · obtain ⟨fields, s, holds⟩ := held
      have sealable := secrets fields s holds
      refine ⟨_, mapClientSecret_holds holds _, ?_⟩
      rw [sealable.unsealed]
      exact .encrypted iv holds sealable
    · have secretless : Secretless t := ⟨notNull, fun fields s holds => held ⟨fields, s, holds⟩⟩
      exact ⟨.str t, mapClientSecret_secretless secretless _, .untouched secretless⟩

theorem sealOidcConfig_stored (kept : Stored aes ring config stored) (iv : Iv) : sealOidcConfig aes ring iv stored = .ok stored := by
  cases kept with
  | untouched nothing => exact mapClientSecret_untouched nothing _
  | @encrypted t s fields iv' holds sealable =>
    rw [sealOidcConfig, mapClientSecret_holds (holds_withSecret holds sealable.finite _),
      isEncrypted_encryptSecret sealable.readable, if_pos rfl]
    dsimp only [Except.map]
    rw [withSecret_withSecret]

theorem openOidcConfig_stored (kept : Stored aes ring config stored) :
    ∃ shown, openOidcConfig aes ring stored = .ok shown ∧ Shown ring config shown := by
  cases kept with
  | untouched nothing => exact ⟨_, mapClientSecret_untouched nothing _, .untouched nothing⟩
  | @encrypted t s fields iv' holds sealable =>
    have ordered : Ordered fields := (parse_canonical holds.parsed).1
    refine ⟨.str (stringify (.obj fields)), ?_, .opened holds sealable⟩
    rw [openOidcConfig, mapClientSecret_holds (holds_withSecret holds sealable.finite _),
      isEncrypted_encryptSecret sealable.readable, if_pos rfl, decryptSecret_encryptSecret sealable.readable,
      toWellFormed_eq sealable.wellFormed]
    dsimp only [Except.map]
    rw [withSecret_withSecret, withSecret, setField_lookup ordered holds.secret]

theorem parse_stringify_fields {t s : Text} {fields : List (Text × Json)} (holds : Holds t fields s) (finite : FiniteFields fields) :
    parse (stringify (.obj fields)) = parse t := by
  rw [parse_stringify, normalForm_eq _ (parse_canonical holds.parsed) finite, holds.parsed]

theorem openOidcConfig_shown (seen : Shown ring config shown) : openOidcConfig aes ring shown = .ok shown := by
  cases seen with
  | untouched nothing => exact mapClientSecret_untouched nothing _
  | @opened t s fields holds sealable =>
    have ordered : Ordered fields := (parse_canonical holds.parsed).1
    have again : Holds (stringify (.obj fields)) fields s :=
      ⟨(parse_stringify_fields holds sealable.finite).trans holds.parsed, holds.secret⟩
    rw [openOidcConfig, mapClientSecret_holds again, sealable.unsealed, if_neg Bool.false_ne_true]
    dsimp only [Except.map]
    rw [withSecret, setField_lookup ordered holds.secret]

end

/-- A read configuration is JSON-equal to the written one, and the same text where there is no secret. -/
structure Faithful (written read : Cell γ) : Prop where
  equal : ∀ t fields s, written = .str t → Holds t fields s → ∃ r, read = .str r ∧ parse r = parse t
  same : (∀ t fields s, written = .str t → ¬ Holds t fields s) → read = written

/-- A configuration that leaves the application has another secret, which is the encrypted one. -/
structure Concealed (aes : Aes κ) (ring : Keyring κ) (written handed : Cell γ) : Prop where
  encrypted : ∀ t fields s, written = .str t → Holds t fields s →
    ∃ iv, handed = .str (withSecret fields (encryptSecret aes ring iv s)) ∧ encryptSecret aes ring iv s ≠ s
  same : (∀ t fields s, written = .str t → ¬ Holds t fields s) → handed = written

theorem Holds.unique {t s s' : Text} {fields fields' : List (Text × Json)} (holds : Holds t fields s) (holds' : Holds t fields' s') :
    fields = fields' ∧ s = s' := by
  have fields := holds.parsed.symm.trans holds'.parsed
  cases fields
  have secret := holds.secret.symm.trans holds'.secret
  cases secret
  exact ⟨rfl, rfl⟩

theorem Untouched.secretless {config : Cell γ} (untouched : Untouched config) {t s : Text} {fields : List (Text × Json)}
    (text : config = .str t) : ¬ Holds t fields s := by
  subst text
  exact untouched.none fields s

section
variable {aes : Aes κ} {ring : Keyring κ} {config stored shown : Cell γ}

theorem Shown.faithful (seen : Shown ring config shown) : Faithful config shown := by
  cases seen with
  | untouched nothing => exact ⟨fun t fields s text holds => absurd holds (nothing.secretless text), fun _ => rfl⟩
  | @opened t s fields holds sealable =>
    refine ⟨fun t' fields' s' text _ => ?_, fun secretless => absurd holds (secretless t fields s rfl)⟩
    cases text
    exact ⟨_, rfl, parse_stringify_fields holds sealable.finite⟩

theorem Stored.concealed (kept : Stored aes ring config stored) : Concealed aes ring config stored := by
  cases kept with
  | untouched nothing => exact ⟨fun t fields s text holds => absurd holds (nothing.secretless text), fun _ => rfl⟩
  | @encrypted t s fields iv holds sealable =>
    refine ⟨fun t' fields' s' text holds' => ?_, fun secretless => absurd holds (secretless t fields s rfl)⟩
    cases text
    obtain ⟨rfl, rfl⟩ := holds.unique holds'
    refine ⟨iv, rfl, fun same => ?_⟩
    have encrypted : isEncrypted (encryptSecret aes ring iv s) = true := isEncrypted_encryptSecret sealable.readable
    rw [same, sealable.unsealed] at encrypted
    cases encrypted

theorem writable_transparent (writable : Writable ring config) (iv : Iv) :
    ∃ handed, sealOidcConfig aes ring iv config = .ok handed ∧ Concealed aes ring config handed ∧
      ∃ read, openOidcConfig aes ring handed = .ok read ∧ Faithful config read := by
  obtain ⟨handed, sealed, kept⟩ := sealOidcConfig_writable writable iv
  obtain ⟨read, opened, seen⟩ := openOidcConfig_stored kept
  exact ⟨handed, sealed, kept.concealed, read, opened, seen.faithful⟩

end

/-! ### Nothing else is -/

/-- The secret that was written is found again, whatever else the object holds. -/
theorem exists_holds_withSecret {fields : List (Text × Json)} (ordered : Ordered fields) (c : Text) :
    ∃ fields', Holds (withSecret fields c) fields' c := by
  refine ⟨normalFields (setField fields CLIENT_SECRET (.str c)), ?_, ?_⟩
  · rw [withSecret, parse_stringify, normalForm, buildFields_eq (normalFields_ordered (setField_ordered ordered _ _))]
  · rw [lookup_normalFields, lookup_setField_same]
    rfl

theorem withSecret_injective {fields : List (Text × Json)} (ordered : Ordered fields) {c d : Text}
    (same : withSecret fields c = withSecret fields d) : c = d := by
  obtain ⟨_, first⟩ := exists_holds_withSecret ordered c
  obtain ⟨_, second⟩ := exists_holds_withSecret ordered d
  rw [same] at first
  exact (first.unique second).2

section
variable {aes : Aes κ} {ring : Keyring κ} {iv : Iv}

/-- A version that is not written in digits is not recognized. -/
theorem isEncrypted_unreadable (unreadable : ¬ ring.Readable) (s : Text) : isEncrypted (encryptSecret aes ring iv s) = false := by
  obtain ⟨w, written, notDigit⟩ : ∃ w ∈ numberText ring.current, isDigit w ≠ true := by
    by_contra digits
    exact unreadable fun u member => by_contra fun no => digits ⟨u, member, no⟩
  have stuck : (numberText ring.current).dropWhile isDigit ≠ [] := fun all => notDigit (List.dropWhile_eq_nil_iff.mp all w written)
  obtain ⟨u, rest, shape⟩ := List.exists_cons_of_ne_nil stuck
  have notColon : u ≠ colon := by
    rintro rfl
    have member : colon ∈ (numberText ring.current).dropWhile isDigit := by
      rw [shape]
      exact List.mem_cons_self
    exact colon_numberText ring.current ((List.dropWhile_suffix isDigit).subset member)
  unfold isEncrypted encryptSecret
  dsimp only
  rw [matchSealed, skipWord_append]
  dsimp only
  rw [List.dropWhile_append, shape]
  split
  · rfl
  · exact congrArg Option.isSome (if_neg notColon)

theorem transparent_writable {t : Text}
    (transparent : ∀ iv, ∃ handed, sealOidcConfig aes ring iv (.str t : Cell γ) = .ok handed ∧
      Concealed aes ring (.str t) handed ∧ ∃ read, openOidcConfig aes ring handed = .ok read ∧ Faithful (.str t) read) (iv : Iv) :
    Writable ring (.str t : Cell γ) := by
  obtain ⟨handed, sealed, concealed, read, opened, faithful⟩ := transparent iv
  constructor
  · intro null
    rw [sealOidcConfig, mapClientSecret_null null] at sealed
    cases sealed
  · intro fields s holds
    have ordered : Ordered fields := (parse_canonical holds.parsed).1
    obtain ⟨iv', rfl, other⟩ := concealed.encrypted t fields s rfl holds
    -- sealing wrote what is concealed, so the secret was not taken for a sealed one
    rw [sealOidcConfig, mapClientSecret_holds holds] at sealed
    simp only [Except.map, Except.ok.injEq, Cell.str.injEq] at sealed
    have written := withSecret_injective ordered sealed
    have unsealed : isEncrypted s = false := by
      rw [Bool.eq_false_iff]
      intro encrypted
      rw [if_pos encrypted] at written
      exact other written.symm
    obtain ⟨fields', kept⟩ := exists_holds_withSecret ordered (encryptSecret aes ring iv' s)
    obtain ⟨r, rfl, same⟩ := faithful.equal t fields s rfl holds
    have ordered' : Ordered fields' := (parse_canonical kept.parsed).1
    rw [openOidcConfig, mapClientSecret_holds kept] at opened
    have readable : ring.Readable := by
      by_contra unreadable
      rw [isEncrypted_unreadable unreadable, if_neg Bool.false_ne_true] at opened
      simp only [Except.map, Except.ok.injEq, Cell.str.injEq] at opened
      obtain ⟨_, shown⟩ := exists_holds_withSecret ordered' (encryptSecret aes ring iv' s)
      rw [opened] at shown
      exact other (shown.unique ⟨same.trans holds.parsed, holds.secret⟩).2
    rw [isEncrypted_encryptSecret readable, if_pos rfl, decryptSecret_encryptSecret readable] at opened
    simp only [Except.map, Except.ok.injEq, Cell.str.injEq] at opened
    obtain ⟨_, shown⟩ := exists_holds_withSecret ordered' (toWellFormed s)
    rw [opened] at shown
    have again : Holds r fields s := ⟨same.trans holds.parsed, holds.secret⟩
    refine ⟨readable, unsealed, ?_, ?_⟩
    · have secret : toWellFormed s = s := (shown.unique again).2
      rw [← secret]
      exact isWellFormed_toWellFormed s
    · have parsed := again.parsed
      rw [← opened, withSecret, parse_stringify] at parsed
      have finite := normalForm_finite (.obj (setField fields' CLIENT_SECRET (.str (toWellFormed s))))
      rw [Option.some.inj parsed] at finite
      exact finite

/-- A configuration is concealed and comes back exactly when it may be written. -/
theorem transparent_iff (config : Cell γ) (iv : Iv) :
    (∀ iv, ∃ handed, sealOidcConfig aes ring iv config = .ok handed ∧ Concealed aes ring config handed ∧
      ∃ read, openOidcConfig aes ring handed = .ok read ∧ Faithful config read) ↔ Writable ring config := by
  constructor
  · intro transparent
    cases config with
    | str t => exact transparent_writable transparent iv
    | other x => trivial
  · exact writable_transparent

end

end Identity.Sso
