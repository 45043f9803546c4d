import AppPlatform.Http.EdgeSignature
import AppPlatform.Identity.KnownDevice
import AppPlatform.Lib.Utf8Decode

/-!
# The text of a known-device cookie

`v2.<userId>.<deviceId>.<iat>.<epoch>.<tag>`. The tag is over the cookie name and what stands before it, and the epoch
is a tag cut to 16 bytes. HMAC-SHA256 under the key of this purpose is a parameter: it is compared on the messages that
it was computed of, and nobody else makes tags.
-/

namespace Identity.DeviceCookie
open Js Identity.KnownDevice
open Edge (base64url base64url_injective base64url_units length_base64url isSigUnit)

def dot : CodeUnit := unit '.'

/-- `[A-Za-z0-9_-]{n}` -/
def isToken (n : ℕ) (t : Text) : Bool := t.length = n && t.all isSigUnit

/-- `\d{9,12}` -/
def isIat (t : Text) : Bool := 9 ≤ t.length && t.length ≤ 12 && t.all isDigit

/-- The groups of `PATTERN`. -/
structure Groups where
  userId : Text
  deviceId : Text
  iat : Text
  epoch : Text
  tag : Text

/-- `PATTERN.exec`: no group can hold a dot, so the groups are what stands between the dots. -/
def execPattern (raw : Text) : Option Groups :=
  match raw.splitOn dot with
  | [version, userId, deviceId, iat, epoch, tag] =>
    if version = text "v2" && userId ≠ [] && isToken 24 deviceId && isIat iat && isToken 22 epoch && isToken 43 tag then
      some ⟨userId, deviceId, iat, epoch, tag⟩
    else none
  | _ => none

/-- `raw.slice(0, raw.lastIndexOf('.'))` -/
def beforeLastDot (raw : Text) : Text := (raw.rdropWhile (· ≠ dot)).dropLast

/-- HMAC-SHA256 under the derived key. -/
structure Hmac where
  hmac : Bytes → Bytes
  digest : ∀ message, (hmac message).length = 32

structure CookieName where
  name : Text
  line : newline ∉ name
  wellFormed : isWellFormed name = true

/-- `String(n)` of an integer in range. -/
def intText (n : ℤ) : Text := if n < 0 then unit '-' :: natText n.natAbs else natText n.natAbs

def payloadText (userId deviceId iat epoch : Text) : Text :=
  text "v2" ++ dot :: (userId ++ dot :: (deviceId ++ dot :: (iat ++ dot :: epoch)))

def messageText (name : CookieName) (payload : Text) : Text := name.name ++ newline :: payload

section
variable (h : Hmac)

def tagOf (message : Text) : Text := base64url (h.hmac (utf8 message))

def signDeviceValue (name : CookieName) (payload : Text) : Text := payload ++ dot :: tagOf h (messageText name payload)

/-- The epoch under the same key. -/
def epochConfig (userId : Text) : Config := ⟨fun t => base64url ((h.hmac (utf8 t)).take 16), userId⟩

def epochOf (userId : Text) (inputs : Option EpochInputs) : Option Text := inputs.map (fingerprint (epochConfig h userId))

/-- `equal`: the bytes are compared. -/
def equal (a b : Text) : Bool := utf8 a = utf8 b

def parse (name : CookieName) (raw : Option Text) : Option Parsed :=
  raw.bind fun raw => (execPattern raw).bind fun m =>
    if equal m.tag (tagOf h (messageText name (beforeLastDot raw))) then some ⟨m.userId, m.deviceId, natOf m.iat, m.epoch⟩
    else none

/-- `now` is in seconds; `userId` is who the request is for, and `inputs` is what is read of them if they have a password. -/
def validDevice (name : CookieName) (raw userId : Option Text) (now : ℤ) (inputs : Option EpochInputs) : Option Device :=
  (parse h name raw).bind fun device =>
    let age := now - device.iat
    if maxAgeSeconds < age ∨ age < -clockSkewSeconds then none
    else if userId ≠ some device.userId then none
    else (epochOf h device.userId inputs).bind fun epoch =>
      if epoch ≠ [] && equal epoch device.epoch then some device.device else none

/-- The value that is set, unless there is no password account. -/
def writeDevice (name : CookieName) (userId deviceId : Text) (iat : ℤ) (inputs : Option EpochInputs) : Option Text :=
  (epochOf h userId inputs).bind fun epoch =>
    if epoch = [] then none else some (signDeviceValue h name (payloadText userId deviceId (intText iat) epoch))

/-- A call of `writeDevice` for a user with a password: a fresh device id is 18 random bytes, and one that is written again
was parsed. Ids come from the database, so they are well formed. -/
structure Written where
  name : CookieName
  userId : Text
  deviceId : Text
  iat : ℤ
  inputs : EpochInputs
  token : isToken 24 deviceId = true
  id_stored : isWellFormed userId = true

def Written.epoch (w : Written) : Text := fingerprint (epochConfig h w.userId) w.inputs

def Written.payload (w : Written) : Text := payloadText w.userId w.deviceId (intText w.iat) (w.epoch h)

def Written.message (w : Written) : Text := messageText w.name (w.payload h)

def Written.cookie (w : Written) : Option Text := writeDevice h w.name w.userId w.deviceId w.iat (some w.inputs)

def Written.device (w : Written) : Device := ⟨w.deviceId, w.iat⟩

def epochMessage (userId : Text) (inputs : EpochInputs) : Text := text "epoch\n" ++ material userId inputs

inductive Maced (issued : List Written) (userId : Text) (current : Option EpochInputs) : Bytes → Prop where
  | cookie {w : Written} (member : w ∈ issued) : Maced issued userId current (utf8 (w.message h))
  | epoch {w : Written} (member : w ∈ issued) : Maced issued userId current (utf8 (epochMessage w.userId w.inputs))
  | now {inputs : EpochInputs} (read : current = some inputs) : Maced issued userId current (utf8 (epochMessage userId inputs))

/-- The HMAC, cut to 16 bytes too, tells these messages apart. -/
def CollisionFree (issued : List Written) (userId : Text) (current : Option EpochInputs) : Prop :=
  {message | Maced h issued userId current message}.InjOn fun message => (h.hmac message).take 16

/-- A tag that is right was made by `writeDevice`. -/
def Unforged (issued : List Written) (name : CookieName) (raw : Text) : Prop :=
  ∀ m, execPattern raw = some m → m.tag = tagOf h (messageText name (beforeLastDot raw)) →
    ∃ w ∈ issued, utf8 (w.message h) = utf8 (messageText name (beforeLastDot raw))

structure Written.For (w : Written) (name : CookieName) (userId : Text) (current : Option EpochInputs) : Prop where
  name : w.name = name
  userId : w.userId = userId
  inputs : some w.inputs = current

def InAge (now iat : ℤ) : Prop := -clockSkewSeconds ≤ now - iat ∧ now - iat ≤ maxAgeSeconds

/-- What `PATTERN` can read: a user id that is not empty, and a time of 9 to 12 digits. -/
def Written.Legible (w : Written) : Prop := w.userId ≠ [] ∧ 10 ^ 8 ≤ w.iat ∧ w.iat < 10 ^ 12

/-! ### Tokens and numbers -/

theorem token_units {n : ℕ} {t : Text} (token : isToken n t = true) : ∀ u ∈ t, isSigUnit u = true := by
  rw [isToken, Bool.and_eq_true, List.all_eq_true] at token
  exact token.2

theorem dot_not_token {n : ℕ} {t : Text} (token : isToken n t = true) : dot ∉ t := by
  intro member
  exact absurd (token_units token dot member) (by decide)

theorem isSigUnit_plain {u : CodeUnit} (unit_ : isSigUnit u = true) : isSurrogate u = false := by
  have z : (unit 'z').toNat = 122 := rfl
  have a : (unit 'Z').toNat = 90 := rfl
  simp only [isSigUnit, isLetter, isUpper, isLower, Bool.or_eq_true, Bool.and_eq_true, decide_eq_true_eq,
    UInt16.le_iff_toNat_le] at unit_
  apply isSurrogate_small
  obtain (((upper | lower) | digit) | rfl) | rfl := unit_
  · omega
  · omega
  · have := isDigit_range digit
    omega
  · decide
  · decide

theorem token_plain {n : ℕ} {t : Text} (token : isToken n t = true) : ∀ u ∈ t, isSurrogate u = false := by
  intro u member
  exact isSigUnit_plain (token_units token u member)

theorem isToken_base64url {n : ℕ} {bytes : Bytes} (size : (4 * bytes.length + 2) / 3 = n) :
    isToken n (base64url bytes) = true := by
  rw [isToken, length_base64url, size, Bool.and_eq_true, List.all_eq_true]
  exact ⟨decide_eq_true rfl, base64url_units bytes⟩

theorem isToken_tagOf (message : Text) : isToken 43 (tagOf h message) = true :=
  isToken_base64url (by rw [h.digest])

theorem isToken_fingerprint (userId : Text) (inputs : EpochInputs) : isToken 22 (fingerprint (epochConfig h userId) inputs) = true :=
  by
  apply isToken_base64url
  rw [List.length_take, h.digest]
  rfl

theorem isTimeUnit_plain {u : CodeUnit} (unit_ : isTimeUnit u = true) : isSurrogate u = false := by
  simp only [isTimeUnit, Bool.or_eq_true, decide_eq_true_eq] at unit_
  obtain (((((digit | rfl) | rfl) | rfl) | rfl) | rfl) | rfl := unit_
  · exact isDigit_plain digit
  all_goals decide

def isIntUnit (u : CodeUnit) : Bool := isDigit u || u = unit '-'

theorem intText_units (n : ℤ) : ∀ u ∈ intText n, isIntUnit u = true := by
  have digits : ∀ u ∈ natText n.natAbs, isIntUnit u = true := by
    intro u member
    rw [isIntUnit, natText_digits _ u member, Bool.true_or]
  unfold intText
  split
  · exact List.forall_mem_cons.mpr ⟨by decide, digits⟩
  · exact digits

theorem dot_not_intText (n : ℤ) : dot ∉ intText n := by
  intro member
  exact absurd (intText_units n dot member) (by decide)

theorem intText_plain (n : ℤ) : ∀ u ∈ intText n, isSurrogate u = false := by
  intro u member
  have unit_ := intText_units n u member
  rw [isIntUnit, Bool.or_eq_true, decide_eq_true_eq] at unit_
  obtain digit | rfl := unit_
  · exact isDigit_plain digit
  · decide

theorem intText_injective : Function.Injective intText := by
  have sign : ∀ n : ℕ, ∀ t : Text, natText n ≠ unit '-' :: t := by
    intro n t same
    exact absurd (natText_digits n (unit '-') (same ▸ List.mem_cons_self)) (by decide)
  intro m n same
  unfold intText at same
  split at same <;> split at same
  · have := natText_injective (List.cons.inj same).2
    omega
  · exact (sign _ _ same.symm).elim
  · exact (sign _ _ same).elim
  · have := natText_injective same
    omega

theorem isIat_intText {n : ℤ} : isIat (intText n) = true ↔ 10 ^ 8 ≤ n ∧ n < 10 ^ 12 := by
  unfold intText
  split
  · rename_i negative
    have sign : isDigit (unit '-') = false := by decide
    simp only [isIat, List.all_cons, sign, Bool.false_and, Bool.and_false, Bool.false_eq_true, false_iff]
    omega
  · have digits : (natText n.natAbs).all isDigit = true := List.all_eq_true.mpr (natText_digits _)
    have short := natText_length_le (n := n.natAbs) (show 0 < 8 by omega)
    have long := natText_length_le (n := n.natAbs) (show 0 < 12 by omega)
    simp only [isIat, digits, Bool.and_true, Bool.and_eq_true, decide_eq_true_eq]
    omega

theorem natOf_intText {n : ℤ} (positive : 0 ≤ n) : (natOf (intText n) : ℤ) = n := by
  rw [intText, if_neg (by omega), natOf_natText]
  omega

/-- Read from the right: the last three fields hold no dot. -/
theorem payloadText_injective {userId userId' deviceId deviceId' iat iat' epoch epoch' : Text} (device : dot ∉ deviceId)
    (device' : dot ∉ deviceId') (time : dot ∉ iat) (time' : dot ∉ iat') (last : dot ∉ epoch) (last' : dot ∉ epoch')
    (same : payloadText userId deviceId iat epoch = payloadText userId' deviceId' iat' epoch') :
    userId = userId' ∧ deviceId = deviceId' ∧ iat = iat' ∧ epoch = epoch' := by
  have fields := (List.append_inj same rfl).2
  simp only [← List.cons_append, ← List.append_assoc] at fields
  obtain ⟨first, epochs⟩ := after_last last last' fields
  obtain ⟨second, times⟩ := after_last time time' first
  obtain ⟨third, devices⟩ := after_last device device' second
  exact ⟨(List.cons.inj third).2, devices, times, epochs⟩

theorem isWellFormed_payloadText {userId deviceId iat epoch : Text} (id : isWellFormed userId = true)
    (device : ∀ u ∈ deviceId, isSurrogate u = false) (time : ∀ u ∈ iat, isSurrogate u = false)
    (last : ∀ u ∈ epoch, isSurrogate u = false) : isWellFormed (payloadText userId deviceId iat epoch) = true := by
  have plain : isSurrogate dot = false := by decide
  rw [payloadText, isWellFormed_append (by decide), isWellFormed_cons plain, isWellFormed_append id, isWellFormed_cons plain,
    isWellFormed_append (isWellFormed_plain device), isWellFormed_cons plain, isWellFormed_append (isWellFormed_plain time),
    isWellFormed_cons plain]
  exact isWellFormed_plain last

theorem isWellFormed_messageText (name : CookieName) {payload : Text} (wellFormed : isWellFormed payload = true) :
    isWellFormed (messageText name payload) = true := by
  rw [messageText, isWellFormed_append name.wellFormed, isWellFormed_cons (by decide), wellFormed]

theorem messageText_injective {name name' : CookieName} {payload payload' : Text}
    (same : messageText name payload = messageText name' payload') : name = name' ∧ payload = payload' := by
  obtain ⟨names, payloads⟩ := before_first name.line name'.line same
  obtain ⟨t, line, wellFormed⟩ := name
  obtain ⟨t', line', wellFormed'⟩ := name'
  obtain rfl : t = t' := names
  exact ⟨rfl, payloads⟩

theorem isWellFormed_epochMessage {userId : Text} (id : isWellFormed userId = true) (inputs : EpochInputs) :
    isWellFormed (epochMessage userId inputs) = true := by
  have line : isSurrogate newline = false := by decide
  have time : ∀ ms, isWellFormed (toISOString ms) = true := by
    intro ms
    apply isWellFormed_plain
    intro u member
    exact isTimeUnit_plain (toISOString_units ms u member)
  rw [epochMessage, isWellFormed_append (by decide), material, isWellFormed_append id, isWellFormed_cons line,
    isWellFormed_append inputs.stored, isWellFormed_cons line, isWellFormed_append (time _), isWellFormed_cons line, time]

theorem epochMessage_injective {userId : Text} (id : isWellFormed userId = true) {inputs inputs' : EpochInputs}
    (same : utf8 (epochMessage userId inputs) = utf8 (epochMessage userId inputs')) : inputs = inputs' := by
  have messages := utf8_injective (isWellFormed_epochMessage id _) (isWellFormed_epochMessage id _) same
  exact material_injective userId (List.append_cancel_left messages)

theorem beforeLastDot_append {payload tag : Text} (plain : dot ∉ tag) : beforeLastDot (payload ++ dot :: tag) = payload := by
  have all : ∀ u ∈ tag.reverse, decide (u ≠ dot) = true := by
    intro u member
    apply decide_eq_true
    rintro rfl
    exact plain (List.mem_reverse.mp member)
  rw [beforeLastDot, List.rdropWhile, List.reverse_append, List.reverse_cons, List.append_assoc,
    List.dropWhile_append_of_pos all]
  simp

structure Groups.Valid (m : Groups) : Prop where
  userId : m.userId ≠ []
  deviceId : isToken 24 m.deviceId = true
  iat : isIat m.iat = true
  epoch : isToken 22 m.epoch = true
  tag : isToken 43 m.tag = true

def Groups.payload (m : Groups) : Text := payloadText m.userId m.deviceId m.iat m.epoch

theorem dot_not_iat {t : Text} (digits : isIat t = true) : dot ∉ t := by
  rw [isIat, Bool.and_eq_true, List.all_eq_true] at digits
  intro member
  exact absurd (digits.2 dot member) (by decide)

theorem execPattern_some {raw : Text} {m : Groups} (exec : execPattern raw = some m) :
    m.Valid ∧ raw = m.payload ++ dot :: m.tag := by
  have joined : [dot].intercalate (raw.splitOn dot) = raw := List.intercalate_splitOn dot
  unfold execPattern at exec
  split at exec
  · rename_i version userId deviceId iat epoch tag split_
    split at exec
    · rename_i shaped
      cases exec
      simp only [Bool.and_eq_true, decide_eq_true_eq, ne_eq, decide_not, Bool.not_eq_true', decide_eq_false_iff_not] at shaped
      obtain ⟨⟨⟨⟨⟨version_, user⟩, device⟩, time⟩, last⟩, tagged⟩ := shaped
      refine ⟨⟨user, device, time, last, tagged⟩, ?_⟩
      rw [← joined, split_, version_]
      simp [List.intercalate, Groups.payload, payloadText]
    · cases exec
  · cases exec

theorem execPattern_valid {m : Groups} (valid : m.Valid) (dotFree : dot ∉ m.userId) :
    execPattern (m.payload ++ dot :: m.tag) = some m := by
  have fields : (m.payload ++ dot :: m.tag).splitOn dot = [text "v2", m.userId, m.deviceId, m.iat, m.epoch, m.tag] := by
    simp only [Groups.payload, payloadText, List.append_assoc, List.cons_append]
    rw [List.splitOn_append_cons_self_of_not_mem (by decide), List.splitOn_append_cons_self_of_not_mem dotFree,
      List.splitOn_append_cons_self_of_not_mem (dot_not_token valid.deviceId),
      List.splitOn_append_cons_self_of_not_mem (dot_not_iat valid.iat),
      List.splitOn_append_cons_self_of_not_mem (dot_not_token valid.epoch),
      List.splitOn_eq_singleton (dot_not_token valid.tag)]
  simp [execPattern, fields, valid.userId, valid.deviceId, valid.iat, valid.epoch, valid.tag]

theorem beforeLastDot_match {raw : Text} {m : Groups} (exec : execPattern raw = some m) : beforeLastDot raw = m.payload := by
  obtain ⟨valid, joined⟩ := execPattern_some exec
  rw [joined, beforeLastDot_append (dot_not_token valid.tag)]

theorem iat_plain {t : Text} (digits : isIat t = true) : ∀ u ∈ t, isSurrogate u = false := by
  rw [isIat, Bool.and_eq_true, List.all_eq_true] at digits
  intro u member
  exact isDigit_plain (digits.2 u member)

theorem Groups.isWellFormed_payload {m : Groups} (valid : m.Valid) (id : isWellFormed m.userId = true) :
    isWellFormed m.payload = true :=
  isWellFormed_payloadText id (token_plain valid.deviceId) (iat_plain valid.iat) (token_plain valid.epoch)

theorem equal_token {n n' : ℕ} {s t : Text} (token : isToken n s = true) (token' : isToken n' t = true) :
    equal s t = true ↔ s = t := by
  rw [equal, decide_eq_true_eq]
  constructor
  · exact utf8_injective (isWellFormed_plain (token_plain token)) (isWellFormed_plain (token_plain token'))
  · exact congrArg utf8

theorem token_ne_nil {n : ℕ} {t : Text} (token : isToken (n + 1) t = true) : t ≠ [] := by
  rintro rfl
  simp [isToken] at token

theorem parse_some {name : CookieName} {raw : Text} {p : Parsed} :
    parse h name (some raw) = some p ↔ ∃ m, execPattern raw = some m ∧ m.tag = tagOf h (messageText name m.payload) ∧
      p = ⟨m.userId, m.deviceId, natOf m.iat, m.epoch⟩ := by
  simp only [parse, Option.bind_some, Option.bind_eq_some_iff]
  refine exists_congr fun m => and_congr_right fun exec => ?_
  have valid := (execPattern_some exec).1
  rw [beforeLastDot_match exec]
  simp only [equal_token valid.tag (isToken_tagOf h _), Option.ite_none_right_eq_some, Option.some.injEq]
  exact and_congr_right fun _ => eq_comm

theorem validDevice_some {name : CookieName} {raw userId : Text} {now : ℤ} {current : Option EpochInputs} {device : Device} :
    validDevice h name (some raw) (some userId) now current = some device ↔
      ∃ m inputs, execPattern raw = some m ∧ m.tag = tagOf h (messageText name m.payload) ∧ InAge now (natOf m.iat) ∧
        m.userId = userId ∧ current = some inputs ∧ m.epoch = fingerprint (epochConfig h userId) inputs ∧
        device = ⟨m.deviceId, natOf m.iat⟩ := by
  constructor
  · intro accepted
    obtain ⟨p, parsed, judged⟩ := Option.bind_eq_some_iff.mp accepted
    obtain ⟨m, exec, tagged, rfl⟩ := (parse_some h).mp parsed
    have valid := (execPattern_some exec).1
    dsimp only at judged
    split at judged
    · cases judged
    rename_i age
    split at judged
    · cases judged
    rename_i mine
    have user : userId = m.userId := Option.some.inj (not_not.mp mine)
    obtain ⟨epoch, read, chosen⟩ := Option.bind_eq_some_iff.mp judged
    obtain ⟨inputs, present, rfl⟩ := Option.map_eq_some_iff.mp read
    split at chosen
    · rename_i right
      rw [Bool.and_eq_true, equal_token (isToken_fingerprint h _ _) valid.epoch] at right
      subst user
      exact ⟨m, inputs, exec, tagged, ⟨by omega, by omega⟩, rfl, present, right.2.symm, (Option.some.inj chosen).symm⟩
    · cases chosen
  · rintro ⟨m, inputs, exec, tagged, age, rfl, rfl, epoch, rfl⟩
    have nonempty := token_ne_nil (isToken_fingerprint h m.userId inputs)
    have same : equal m.epoch m.epoch = true := decide_eq_true rfl
    rw [validDevice, (parse_some h).mpr ⟨m, exec, tagged, rfl⟩, Option.bind_some]
    dsimp only
    rw [if_neg (by unfold InAge at age; omega), if_neg (not_not.mpr rfl), epochOf, Option.map_some, Option.bind_some,
      ← epoch, same]
    rw [← epoch] at nonempty
    simp [nonempty, Parsed.device]

/-! ### What was written is told apart -/

theorem writeDevice_some {name : CookieName} {userId deviceId raw : Text} {iat : ℤ} {inputs : EpochInputs} :
    writeDevice h name userId deviceId iat (some inputs) = some raw ↔
      raw = signDeviceValue h name (payloadText userId deviceId (intText iat) (fingerprint (epochConfig h userId) inputs)) := by
  have nonempty : fingerprint (epochConfig h userId) inputs ≠ [] := token_ne_nil (isToken_fingerprint h _ _)
  rw [writeDevice, epochOf, Option.map_some, Option.bind_some, if_neg nonempty, Option.some.injEq, eq_comm]

theorem Written.cookie_some {w : Written} {raw : Text} :
    w.cookie h = some raw ↔ raw = w.payload h ++ dot :: tagOf h (w.message h) :=
  writeDevice_some h

theorem parsed_epoch {name name' : CookieName} {userId deviceId raw : Text} {iat : ℤ} {inputs : EpochInputs} {p : Parsed}
    (wrote : writeDevice h name userId deviceId iat (some inputs) = some raw) (parsed : parse h name' (some raw) = some p) :
    p.epoch = fingerprint (epochConfig h userId) inputs := by
  obtain ⟨m, exec, _, rfl⟩ := (parse_some h).mp parsed
  obtain ⟨valid, joined⟩ := execPattern_some exec
  rw [writeDevice_some, signDeviceValue, joined] at wrote
  obtain ⟨payloads, _⟩ := after_last (dot_not_token valid.tag) (dot_not_token (isToken_tagOf h _)) wrote
  have fields := payloads
  simp only [Groups.payload, payloadText, ← List.cons_append, ← List.append_assoc] at fields
  exact (after_last (dot_not_token valid.epoch) (dot_not_token (isToken_fingerprint h _ _)) fields).2

theorem parsed_device {name name' : CookieName} {userId deviceId raw : Text} {iat : ℤ} {inputs : EpochInputs} {p : Parsed}
    (device : dot ∉ deviceId) (wrote : writeDevice h name userId deviceId iat (some inputs) = some raw)
    (parsed : parse h name' (some raw) = some p) : p.userId = userId ∧ p.device = ⟨deviceId, iat⟩ := by
  obtain ⟨m, exec, _, rfl⟩ := (parse_some h).mp parsed
  obtain ⟨valid, joined⟩ := execPattern_some exec
  rw [writeDevice_some, signDeviceValue, joined] at wrote
  obtain ⟨payloads, _⟩ := after_last (dot_not_token valid.tag) (dot_not_token (isToken_tagOf h _)) wrote
  obtain ⟨users, devices, times, _⟩ := payloadText_injective (dot_not_token valid.deviceId) device (dot_not_iat valid.iat)
    (dot_not_intText iat) (dot_not_token valid.epoch) (dot_not_token (isToken_fingerprint h _ _)) payloads
  have early := (isIat_intText.mp (times ▸ valid.iat)).1
  refine ⟨users, ?_⟩
  rw [Parsed.device, devices, times, natOf_intText (by omega)]

theorem parsed_plain {name : CookieName} {raw : Text} {p : Parsed} (parsed : parse h name (some raw) = some p) :
    dot ∉ p.deviceId := by
  obtain ⟨m, exec, _, rfl⟩ := (parse_some h).mp parsed
  exact dot_not_token (execPattern_some exec).1.deviceId

theorem Written.isToken_epoch (w : Written) : isToken 22 (w.epoch h) = true := isToken_fingerprint h _ _

theorem Written.isWellFormed_message (w : Written) : isWellFormed (w.message h) = true :=
  isWellFormed_messageText w.name (isWellFormed_payloadText w.id_stored (token_plain w.token) (intText_plain w.iat)
    (token_plain (w.isToken_epoch h)))

section
variable {issued : List Written} {userId : Text} {current : Option EpochInputs}

theorem fingerprint_inputs (collisionFree : CollisionFree h issued userId current) {user : Text} {inputs inputs' : EpochInputs}
    (maced : Maced h issued userId current (utf8 (epochMessage user inputs)))
    (maced' : Maced h issued userId current (utf8 (epochMessage user inputs'))) (id : isWellFormed user = true)
    (same : fingerprint (epochConfig h user) inputs = fingerprint (epochConfig h user) inputs') : inputs = inputs' :=
  epochMessage_injective id (collisionFree maced maced' (base64url_injective same))

/-- One string is written in one way only. -/
theorem cookie_unique (collisionFree : CollisionFree h issued userId current) {w w' : Written} (member : w ∈ issued)
    (member' : w' ∈ issued) {raw : Text} (wrote : w.cookie h = some raw) (wrote' : w'.cookie h = some raw) :
    w.name = w'.name ∧ w.userId = w'.userId ∧ w.device = w'.device ∧ w.inputs = w'.inputs := by
  rw [Written.cookie_some] at wrote wrote'
  obtain ⟨payloads, tags⟩ := after_last (dot_not_token (isToken_tagOf h _)) (dot_not_token (isToken_tagOf h _))
    (wrote.symm.trans wrote')
  have macs := congrArg (List.take 16) (base64url_injective tags)
  have messages := utf8_injective (w.isWellFormed_message h) (w'.isWellFormed_message h)
    (collisionFree (.cookie member) (.cookie member') macs)
  obtain ⟨user, device, time, epoch⟩ := payloadText_injective (dot_not_token w.token) (dot_not_token w'.token)
    (dot_not_intText _) (dot_not_intText _) (dot_not_token (w.isToken_epoch h)) (dot_not_token (w'.isToken_epoch h)) payloads
  rw [Written.epoch, Written.epoch, ← user] at epoch
  refine ⟨(messageText_injective messages).1, user, ?_, ?_⟩
  · rw [Written.device, Written.device, device, intText_injective time]
  · exact fingerprint_inputs h collisionFree (.epoch member) (user ▸ .epoch member') w.id_stored epoch

def Written.groups (w : Written) : Groups := ⟨w.userId, w.deviceId, intText w.iat, w.epoch h, tagOf h (w.message h)⟩

theorem Written.groups_valid {w : Written} (legible : w.Legible) : (w.groups h).Valid where
  userId := legible.1
  deviceId := w.token
  iat := isIat_intText.mpr legible.2
  epoch := w.isToken_epoch h
  tag := isToken_tagOf h _

theorem Written.natOf_iat {w : Written} (legible : w.Legible) : (natOf (intText w.iat) : ℤ) = w.iat := by
  have early := legible.2.1
  exact natOf_intText (by omega)

theorem Written.execPattern_cookie {w : Written} {raw : Text} (dotFree : dot ∉ w.userId) (wrote : w.cookie h = some raw)
    (legible : w.Legible) : execPattern raw = some (w.groups h) := by
  rw [(Written.cookie_some h).mp wrote]
  exact execPattern_valid (w.groups_valid h legible) dotFree

theorem Written.parse_cookie {w : Written} {raw : Text} (dotFree : dot ∉ w.userId) (wrote : w.cookie h = some raw)
    (legible : w.Legible) : parse h w.name (some raw) = some ⟨w.userId, w.deviceId, w.iat, w.epoch h⟩ := by
  refine (parse_some h).mpr ⟨w.groups h, Written.execPattern_cookie h dotFree wrote legible, rfl, ?_⟩
  rw [← Written.natOf_iat legible]
  rfl

theorem written_of_match {name : CookieName} {raw : Text} {m : Groups} (unforged : Unforged h issued name raw)
    (exec : execPattern raw = some m) (tagged : m.tag = tagOf h (messageText name m.payload))
    (id : isWellFormed m.userId = true) :
    ∃ w ∈ issued, w.name = name ∧ w.cookie h = some raw ∧ w.Legible ∧ w.userId = m.userId ∧ m.epoch = w.epoch h ∧
      w.device = ⟨m.deviceId, natOf m.iat⟩ := by
  obtain ⟨valid, joined⟩ := execPattern_some exec
  have payload := beforeLastDot_match exec
  obtain ⟨w, member, bytes⟩ := unforged m exec (by rw [payload, tagged])
  rw [payload] at bytes
  have messages := utf8_injective (w.isWellFormed_message h) (isWellFormed_messageText name (m.isWellFormed_payload valid id)) bytes
  obtain ⟨names, payloads⟩ := messageText_injective messages
  obtain ⟨user, device, time, epoch⟩ := payloadText_injective (dot_not_token w.token) (dot_not_token valid.deviceId)
    (dot_not_intText _) (dot_not_iat valid.iat) (dot_not_token (w.isToken_epoch h)) (dot_not_token valid.epoch) payloads
  have legible : w.Legible := ⟨user ▸ valid.userId, isIat_intText.mp (time ▸ valid.iat)⟩
  refine ⟨w, member, names, ?_, legible, user, epoch.symm, ?_⟩
  · rw [Written.cookie_some, joined, tagged, ← messages, ← payloads]
  · rw [Written.device, device, ← time, Written.natOf_iat legible]

section
variable {name : CookieName} {raw : Text} {now : ℤ} {device : Device}

theorem written_of_accepted (id_stored : isWellFormed userId = true) (unforged : Unforged h issued name raw)
    (collisionFree : CollisionFree h issued userId current)
    (accepted : validDevice h name (some raw) (some userId) now current = some device) :
    ∃ w ∈ issued, w.For name userId current ∧ w.cookie h = some raw ∧ w.device = device ∧ InAge now w.iat ∧ w.Legible := by
  obtain ⟨m, inputs, exec, tagged, age, user, present, epoch, rfl⟩ := (validDevice_some h).mp accepted
  obtain ⟨w, member, names, wrote, legible, same, epochs, devices⟩ := written_of_match h unforged exec tagged (user ▸ id_stored)
  have mine : w.userId = userId := same.trans user
  have written : fingerprint (epochConfig h userId) w.inputs = fingerprint (epochConfig h userId) inputs := by
    rw [← epoch, epochs, Written.epoch, mine]
  have read := fingerprint_inputs h collisionFree (mine ▸ .epoch member) (.now present) id_stored written
  refine ⟨w, member, ⟨names, mine, present ▸ congrArg some read⟩, wrote, devices, ?_, legible⟩
  have times := congrArg Device.iat devices
  dsimp only [Written.device] at times
  rwa [times]

theorem accepted_of_written {w : Written} (mine : w.For name userId current) (dotFree : dot ∉ userId)
    (wrote : w.cookie h = some raw) (age : InAge now w.iat) (legible : w.Legible) :
    validDevice h name (some raw) (some userId) now current = some w.device := by
  obtain ⟨rfl, rfl, rfl⟩ := mine
  have exec := Written.execPattern_cookie h dotFree wrote legible
  have time : (natOf (w.groups h).iat : ℤ) = w.iat := Written.natOf_iat legible
  rw [validDevice_some]
  exact ⟨w.groups h, w.inputs, exec, rfl, by rwa [time], rfl, rfl, rfl, by rw [time]; rfl⟩

end

/-- A cookie is accepted exactly when it was written for this name, this user and this epoch and its age is in range, and
gives what it was written with. -/
theorem device_cookie_accepted {name : CookieName} {raw : Text} {now : ℤ} (dotFree : dot ∉ userId)
    (id_stored : isWellFormed userId = true) (unforged : Unforged h issued name raw)
    (collisionFree : CollisionFree h issued userId current) :
    (∀ device, validDevice h name (some raw) (some userId) now current = some device ↔
      ∃ w ∈ issued, w.For name userId current ∧ w.cookie h = some raw ∧ w.device = device ∧ InAge now w.iat ∧ w.Legible) ∧
    ∀ device, validDevice h name (some raw) (some userId) now current = some device →
      ∀ w ∈ issued, w.cookie h = some raw → w.For name userId current ∧ w.device = device := by
  constructor
  · intro device
    constructor
    · exact written_of_accepted h id_stored unforged collisionFree
    · rintro ⟨w, member, mine, wrote, rfl, age, legible⟩
      exact accepted_of_written h mine dotFree wrote age legible
  · intro device accepted w member wrote
    obtain ⟨w', member', ⟨rfl, rfl, rfl⟩, wrote', rfl, -⟩ :=
      written_of_accepted h id_stored unforged collisionFree accepted
    obtain ⟨names, user, devices, inputs⟩ := cookie_unique h collisionFree member member' wrote wrote'
    exact ⟨⟨names, user, congrArg some inputs⟩, devices⟩

theorem unforged_own {w : Written} (member : w ∈ issued) {raw : Text} (wrote : w.cookie h = some raw) :
    Unforged h issued w.name raw := by
  rw [Written.cookie_some] at wrote
  intro m _ _
  refine ⟨w, member, ?_⟩
  rw [wrote, beforeLastDot_append (dot_not_token (isToken_tagOf h _)), Written.message]

theorem collisionFree_own {w : Written}
    (apart : (h.hmac (utf8 (w.message h))).take 16 ≠ (h.hmac (utf8 (epochMessage w.userId w.inputs))).take 16) :
    CollisionFree h [w] w.userId (some w.inputs) := by
  have messages : ∀ {message}, Maced h [w] w.userId (some w.inputs) message →
      message = utf8 (w.message h) ∨ message = utf8 (epochMessage w.userId w.inputs) := by
    intro message maced
    cases maced with
    | cookie member => exact .inl (by rw [List.mem_singleton.mp member])
    | epoch member => exact .inr (by rw [List.mem_singleton.mp member])
    | now read => exact .inr (by rw [Option.some.inj read])
  intro message maced message' maced' same
  obtain rfl | rfl := messages maced <;> obtain rfl | rfl := messages maced'
  · rfl
  · exact (apart same).elim
  · exact (apart same.symm).elim
  · rfl

end

end

/-! ### Recorded values -/

namespace Sample

def name : CookieName := ⟨text "qnsc.known_device", by decide, by decide⟩

def userId : Text := text "5f0c7a4e-2b1d-4c3a-9e8f-1a2b3c4d5e6f"

theorem isWellFormed_userId : isWellFormed userId = true := by decide

def laptop : Text := text "AAECAwQFBgcICQoLDA0ODxAR"

def phone : Text := text "EhMUFRYXGBkaGxwdHh8gISIj"

def inputsAt (updatedAt : ℤ) : EpochInputs :=
  ⟨updatedAt, text "$argon2id$v=19$m=19456,t=2,p=1$c2FsdA$aGFzaA", 1690000000000, by decide⟩

def messageAt (deviceId : Text) (iat : ℤ) : Text :=
  messageText name (payloadText userId deviceId (intText iat) (text "k52NwqfjLU9lFKLiWLWTsw"))

/-- HMAC-SHA256 under the key that HKDF derives from the secret `better-auth-secret-0123456789abcdef`. -/
def recorded : List (Text × Bytes) :=
  [(epochMessage userId (inputsAt 1700000000000),
      [147, 157, 141, 194, 167, 227, 45, 79, 101, 20, 162, 226, 88, 181, 147, 179,
        95, 128, 14, 140, 199, 87, 195, 235, 120, 96, 220, 23, 175, 199, 216, 76]),
    (epochMessage userId (inputsAt 1700000001000),
      [172, 245, 148, 62, 9, 59, 80, 77, 249, 187, 207, 154, 211, 164, 200, 170,
        224, 48, 83, 96, 233, 246, 121, 127, 105, 72, 247, 108, 34, 245, 74, 42]),
    (messageAt laptop 1700000000,
      [93, 207, 60, 9, 58, 33, 158, 35, 157, 247, 1, 206, 54, 170, 142, 173,
        55, 24, 234, 204, 136, 34, 87, 40, 206, 132, 187, 5, 34, 228, 200, 230]),
    (messageAt laptop 0,
      [30, 217, 206, 54, 55, 99, 25, 234, 168, 127, 238, 175, 57, 81, 86, 214,
        178, 129, 114, 125, 22, 91, 223, 219, 88, 146, 79, 202, 41, 209, 244, 177]),
    (messageAt phone 1700000000,
      [97, 87, 164, 247, 105, 173, 42, 31, 195, 174, 254, 135, 153, 186, 112, 181,
        88, 57, 1, 142, 123, 20, 218, 207, 133, 139, 135, 238, 169, 48, 249, 165])]

theorem recorded_digest (message : Bytes) :
    (((recorded.find? fun entry => utf8 entry.1 = message).map Prod.snd).getD (List.replicate 32 0)).length = 32 := by
  cases found : recorded.find? fun entry => utf8 entry.1 = message with
  | none => exact List.length_replicate
  | some entry =>
    have lengths : ∀ entry ∈ recorded, entry.2.length = 32 := by decide
    exact lengths entry (List.mem_of_find?_eq_some found)

def hmac : Hmac := ⟨_, recorded_digest⟩

/-- The cookie of the laptop, which signed in when the user was last updated. -/
def writtenAt (iat : ℤ) : Written := ⟨name, userId, laptop, iat, inputsAt 1700000000000, by decide, isWellFormed_userId⟩

def cookieAt (iat : ℤ) : Text := (writtenAt iat).payload hmac ++ dot :: tagOf hmac ((writtenAt iat).message hmac)

end Sample

open Sample in
theorem device_cookie_accepted_fresh :
    validDevice hmac name (some (cookieAt 1700000000)) (some userId) 1700000005 (some (inputsAt 1700000000000)) =
      some ⟨laptop, 1700000000⟩ := by
  have wrote : (writtenAt 1700000000).cookie hmac = some (cookieAt 1700000000) := (Written.cookie_some hmac).mpr rfl
  have unforged := unforged_own hmac (List.mem_singleton_self _) wrote
  have collisionFree : CollisionFree hmac [writtenAt 1700000000] _ _ := collisionFree_own hmac (by decide +kernel)
  refine ((device_cookie_accepted hmac (by decide) (by decide) unforged collisionFree).1 _).mpr ?_
  exact ⟨_, List.mem_singleton_self _, ⟨rfl, rfl, rfl⟩, wrote, rfl, ⟨by decide, by decide⟩, by decide, by decide, by decide⟩

open Sample in
/-- Written at time 0 and read at time 0. -/
theorem early_cookie_refused :
    dot ∉ userId ∧ Unforged hmac [writtenAt 0] name (cookieAt 0) ∧
      CollisionFree hmac [writtenAt 0] userId (some (inputsAt 1700000000000)) ∧
      ¬(validDevice hmac name (some (cookieAt 0)) (some userId) 0 (some (inputsAt 1700000000000)) = some (writtenAt 0).device ↔
        ∃ w ∈ [writtenAt 0], w.For name userId (some (inputsAt 1700000000000)) ∧ w.cookie hmac = some (cookieAt 0) ∧
          w.device = (writtenAt 0).device ∧ InAge 0 w.iat) := by
  have wrote : (writtenAt 0).cookie hmac = some (cookieAt 0) := (Written.cookie_some hmac).mpr rfl
  refine ⟨by decide, unforged_own hmac (List.mem_singleton_self _) wrote, collisionFree_own hmac (by decide +kernel), ?_⟩
  intro exactly
  have accepted := exactly.mpr ⟨_, List.mem_singleton_self _, ⟨rfl, rfl, rfl⟩, wrote, rfl, by decide, by decide⟩
  exact absurd accepted (by decide +kernel)

end Identity.DeviceCookie
