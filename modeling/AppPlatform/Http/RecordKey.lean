import AppPlatform.Http.Idempotency

/-!
# Whose record a request gets

The record key of a request: `idem:` and, in a Redis Cluster hash tag, the caller and a digest of the method,
the URL and the `Idempotency-Key`. A caller is a user id, or the start of a hash of address and agent. The
hash is a parameter; two requests are compared where their hashes do not collide.
-/

namespace Idempotency
open Js

inductive Caller where
  /-- `currentUserId()` -/
  | user (id : Text)
  /-- `clientIp(req)` and the `user-agent` header. -/
  | anonymous (ip : Text) (userAgent : Option Text)

structure KeyedRequest where
  caller : Caller
  method : Text
  url : Text
  idempotencyKey : Text
  method_line : newline ∉ method
  url_line : newline ∉ url

/-- What a caller is known by, before it is hashed. -/
def Caller.source : Caller → Text
  | .user id => id
  | .anonymous ip userAgent => ip ++ unit ':' :: userAgent.getD []

def KeyedRequest.line (r : KeyedRequest) : Text := r.method ++ newline :: (r.url ++ newline :: r.idempotencyKey)

/-- `createHash('sha256').update(t).digest('hex')` -/
structure HexHash where
  hex : Text → Text
  length : ∀ t, (hex t).length = 64
  digits : ∀ t, ∀ u ∈ hex t, isDigit u = true ∨ (unit 'a' ≤ u ∧ u ≤ unit 'f')

section
variable (sha256 : HexHash)

def Caller.who (c : Caller) : Text :=
  match c with
  | .user id => id
  | .anonymous _ _ => (sha256.hex c.source).take 16

def hasBrace (who : Text) : Bool := who.any fun u => u = openBrace || u = closeBrace

/-- `who` with no `{` or `}`: such an id is replaced by a hash of itself. -/
def tagSafe (who : Text) : Text := if hasBrace who then (sha256.hex who).take 32 else who

def KeyedRequest.digest (r : KeyedRequest) : Text := (sha256.hex r.line).take 32

/-- What stands between the braces. -/
def KeyedRequest.tag (r : KeyedRequest) : Text := tagSafe sha256 (r.caller.who sha256) ++ unit ':' :: r.digest sha256

def KeyedRequest.recordKey (r : KeyedRequest) : Text := text "idem:" ++ openBrace :: (r.tag sha256 ++ [closeBrace])

def KeyedRequest.claimKey (r : KeyedRequest) : Text := r.recordKey sha256 ++ text ":claim"

def hashTag (key : Text) : Option Text :=
  match key.dropWhile (· ≠ openBrace) with
  | [] => none
  | _ :: rest =>
    if closeBrace ∈ rest ∧ rest.takeWhile (· ≠ closeBrace) ≠ [] then some (rest.takeWhile (· ≠ closeBrace)) else none

/-- What is hashed for the two requests does not collide where the hash is cut. -/
structure NoCollision (r r' : KeyedRequest) : Prop where
  line : (sha256.hex r.line).take 32 = (sha256.hex r'.line).take 32 → r.line = r'.line
  id : ∀ {id id'}, r.caller = .user id → r'.caller = .user id' → (sha256.hex id).take 32 = (sha256.hex id').take 32 → id = id'
  address : ∀ {ip userAgent ip' userAgent'}, r.caller = .anonymous ip userAgent → r'.caller = .anonymous ip' userAgent' →
    (sha256.hex r.caller.source).take 16 = (sha256.hex r'.caller.source).take 16 → r.caller.source = r'.caller.source

/-- The two callers are told apart, unless they are one: an id with braces and one that is its hash are not, an id that
is the hash of an address and agent and who has these are not, nor are two who split the same text differently. -/
def Caller.Apart : Caller → Caller → Prop
  | .user id, .user id' => (hasBrace id = true → id' ≠ (sha256.hex id).take 32) ∧
    (hasBrace id' = true → id ≠ (sha256.hex id').take 32)
  | .user id, .anonymous ip userAgent => id ≠ (sha256.hex (Caller.anonymous ip userAgent).source).take 16
  | .anonymous ip userAgent, .user id => id ≠ (sha256.hex (Caller.anonymous ip userAgent).source).take 16
  | .anonymous ip userAgent, .anonymous ip' userAgent' =>
    (Caller.anonymous ip userAgent).source = (Caller.anonymous ip' userAgent').source → ip = ip' ∧ userAgent = userAgent'

structure KeyedRequest.Same (r r' : KeyedRequest) : Prop where
  caller : r.caller = r'.caller
  method : r.method = r'.method
  url : r.url = r'.url
  idempotencyKey : r.idempotencyKey = r'.idempotencyKey

structure Isolated (r r' : KeyedRequest) : Prop where
  same : r.recordKey sha256 = r'.recordKey sha256 → r.Same r'
  claim : r.recordKey sha256 ≠ r'.claimKey sha256
  tag : ∃ tag, tag ≠ [] ∧ hashTag (r.recordKey sha256) = some tag ∧ hashTag (r.claimKey sha256) = some tag

end

variable {sha256 : HexHash} {r r' : KeyedRequest}

theorem take_length (t : Text) {n : ℕ} (le : n ≤ 64) : ((sha256.hex t).take n).length = n := by
  rw [List.length_take, sha256.length]
  omega

theorem brace_not_hex (sha256 : HexHash) (t : Text) (n : ℕ) : openBrace ∉ (sha256.hex t).take n ∧
    closeBrace ∉ (sha256.hex t).take n := by
  have plain : ∀ u, isDigit u = false → ¬(unit 'a' ≤ u ∧ u ≤ unit 'f') → u ∉ (sha256.hex t).take n := by
    intro u digit letter member
    rcases sha256.digits t u (List.mem_of_mem_take member) with yes | yes
    · rw [digit] at yes
      cases yes
    · exact letter yes
  exact ⟨plain _ (by decide) (by decide), plain _ (by decide) (by decide)⟩

theorem hasBrace_iff {t : Text} : hasBrace t = false ↔ openBrace ∉ t ∧ closeBrace ∉ t := by
  rw [hasBrace, List.any_eq_false]
  constructor
  · intro none
    exact ⟨fun member => none _ member (by decide), fun member => none _ member (by decide)⟩
  · rintro ⟨opens, closes⟩ u member brace
    rw [Bool.or_eq_true, decide_eq_true_eq, decide_eq_true_eq] at brace
    rcases brace with rfl | rfl
    · exact opens member
    · exact closes member

theorem hasBrace_hex (t : Text) (n : ℕ) : hasBrace ((sha256.hex t).take n) = false := hasBrace_iff.mpr (brace_not_hex sha256 t n)

theorem hasBrace_tagSafe (sha256 : HexHash) (who : Text) : hasBrace (tagSafe sha256 who) = false := by
  unfold tagSafe
  split
  · exact hasBrace_hex who 32
  · rename_i plain
    exact Bool.eq_false_iff.mpr plain

theorem tag_plain (sha256 : HexHash) (r : KeyedRequest) : openBrace ∉ r.tag sha256 ∧ closeBrace ∉ r.tag sha256 := by
  obtain ⟨opens, closes⟩ := hasBrace_iff.mp (hasBrace_tagSafe sha256 (r.caller.who sha256))
  obtain ⟨opens', closes'⟩ := brace_not_hex sha256 r.line 32
  unfold KeyedRequest.tag
  simp only [List.mem_append, List.mem_cons, not_or]
  exact ⟨⟨opens, by decide, opens'⟩, ⟨closes, by decide, closes'⟩⟩

theorem hashTag_tag (sha256 : HexHash) (r : KeyedRequest) (rest : Text) :
    hashTag (text "idem:" ++ openBrace :: (r.tag sha256 ++ closeBrace :: rest)) = some (r.tag sha256) := by
  obtain ⟨_, closes⟩ := tag_plain sha256 r
  have start : (text "idem:" ++ openBrace :: (r.tag sha256 ++ closeBrace :: rest)).dropWhile (· ≠ openBrace) =
      openBrace :: (r.tag sha256 ++ closeBrace :: rest) := by rfl
  have inside : (r.tag sha256 ++ closeBrace :: rest).takeWhile (· ≠ closeBrace) = r.tag sha256 := by
    refine (takeWhile_stop (fun u member => ?_) (stopsAt_cons (by decide))).1
    rw [decide_eq_true_eq]
    rintro rfl
    exact closes member
  have nonempty : r.tag sha256 ≠ [] := by
    unfold KeyedRequest.tag
    simp
  unfold hashTag
  rw [start]
  dsimp only
  rw [inside, if_pos ⟨List.mem_append_right _ List.mem_cons_self, nonempty⟩]

theorem recordKey_ne_claimKey (r r' : KeyedRequest) : r.recordKey sha256 ≠ r'.claimKey sha256 := by
  intro same
  have last := congrArg List.getLast? same
  rw [KeyedRequest.recordKey, KeyedRequest.claimKey, ← List.cons_append, ← List.append_assoc, List.getLast?_concat,
    List.getLast?_append, show (text ":claim").getLast? = some (unit 'm') by decide, Option.some_or] at last
  exact absurd last (by decide)

theorem recordKey_eq_iff (clean : NoCollision sha256 r r') : r.recordKey sha256 = r'.recordKey sha256 ↔
    tagSafe sha256 (r.caller.who sha256) = tagSafe sha256 (r'.caller.who sha256) ∧ r.line = r'.line := by
  have length : (r.digest sha256).length = (r'.digest sha256).length := by
    rw [KeyedRequest.digest, KeyedRequest.digest, take_length _ (by decide), take_length _ (by decide)]
  constructor
  · intro same
    have tags : r.tag sha256 = r'.tag sha256 :=
      List.append_cancel_right (List.cons.inj (List.append_cancel_left same)).2
    obtain ⟨callers, digests⟩ := List.append_inj' tags (congrArg Nat.succ length)
    exact ⟨callers, clean.line (List.cons.inj digests).2⟩
  · rintro ⟨callers, lines⟩
    rw [KeyedRequest.recordKey, KeyedRequest.recordKey, KeyedRequest.tag, KeyedRequest.tag, KeyedRequest.digest,
      KeyedRequest.digest, callers, lines]

theorem line_eq_iff : r.line = r'.line ↔ r.method = r'.method ∧ r.url = r'.url ∧ r.idempotencyKey = r'.idempotencyKey := by
  constructor
  · intro same
    obtain ⟨method, rest⟩ := before_first r.method_line r'.method_line same
    obtain ⟨url, key⟩ := before_first r.url_line r'.url_line rest
    exact ⟨method, url, key⟩
  · rintro ⟨method, url, key⟩
    rw [KeyedRequest.line, KeyedRequest.line, method, url, key]

/-! ### Callers -/

/-- An id that is the hash of another is not the id of a caller without a user. -/
theorem hex_ne_of_length {t s : Text} {m n : ℕ} (differs : m ≠ n) (le : m ≤ 64) (le' : n ≤ 64) :
    (sha256.hex t).take m ≠ (sha256.hex s).take n := by
  intro same
  have lengths := congrArg List.length same
  rw [take_length t le, take_length s le'] at lengths
  exact differs lengths

theorem tagSafe_hex (t : Text) (n : ℕ) : tagSafe sha256 ((sha256.hex t).take n) = (sha256.hex t).take n := by
  rw [tagSafe, hasBrace_hex, if_neg Bool.false_ne_true]

/-- A user and somebody without one are confused exactly when the id is the hash of the other's address and agent. -/
theorem tagSafe_user_anonymous (id : Text) (t : Text) :
    tagSafe sha256 id = (sha256.hex t).take 16 ↔ id = (sha256.hex t).take 16 := by
  constructor
  · intro same
    unfold tagSafe at same
    split at same
    · exact (hex_ne_of_length (by decide) (by decide) (by decide) same).elim
    · exact same
  · rintro rfl
    exact tagSafe_hex t 16

theorem tagSafe_users {id id' : Text} (clean : (sha256.hex id).take 32 = (sha256.hex id').take 32 → id = id') :
    (tagSafe sha256 id = tagSafe sha256 id' → id = id') ↔
      (hasBrace id = true → id' ≠ (sha256.hex id).take 32) ∧ (hasBrace id' = true → id ≠ (sha256.hex id').take 32) := by
  constructor
  · intro faithful
    constructor
    · rintro brace rfl
      have same := faithful (by rw [tagSafe_hex, tagSafe, if_pos brace])
      rw [same, hasBrace_hex] at brace
      cases brace
    · rintro brace rfl
      have same := faithful (by rw [tagSafe_hex, tagSafe, if_pos brace])
      rw [← same, hasBrace_hex] at brace
      cases brace
  · rintro ⟨left, right⟩ same
    unfold tagSafe at same
    split at same
    · rename_i brace
      split at same
      · exact clean same
      · exact (left brace same.symm).elim
    · split at same
      · rename_i brace
        exact (right brace same).elim
      · exact same

/-- Where nothing collides, the key tells two callers apart exactly when they are. -/
theorem tagSafe_who_iff (clean : NoCollision sha256 r r') :
    (tagSafe sha256 (r.caller.who sha256) = tagSafe sha256 (r'.caller.who sha256) → r.caller = r'.caller) ↔
      r.caller.Apart sha256 r'.caller := by
  cases left : r.caller with
  | user id =>
    cases right : r'.caller with
    | user id' =>
      have users := tagSafe_users (clean.id left right)
      simpa only [Caller.who, Caller.Apart, Caller.user.injEq] using users
    | anonymous ip userAgent =>
      simp only [Caller.who, Caller.Apart, tagSafe_hex, tagSafe_user_anonymous, reduceCtorEq, imp_false, ne_eq]
  | anonymous ip userAgent =>
    cases right : r'.caller with
    | user id =>
      simp only [Caller.who, Caller.Apart, tagSafe_hex, reduceCtorEq, imp_false, ne_eq]
      rw [eq_comm, tagSafe_user_anonymous]
    | anonymous ip' userAgent' =>
      have address := clean.address left right
      rw [left, right] at address
      simp only [Caller.who, Caller.Apart, tagSafe_hex, Caller.anonymous.injEq]
      exact ⟨fun faithful same => faithful (by rw [same]), fun apart same => apart (address same)⟩

/-- Two requests are isolated exactly when they differ in method, URL or key, or their callers are told apart. -/
theorem isolated_iff (clean : NoCollision sha256 r r') : Isolated sha256 r r' ↔
    (r.method = r'.method → r.url = r'.url → r.idempotencyKey = r'.idempotencyKey → r.caller.Apart sha256 r'.caller) := by
  rw [← tagSafe_who_iff clean]
  constructor
  · intro isolated method url key callers
    exact (isolated.same ((recordKey_eq_iff clean).mpr ⟨callers, line_eq_iff.mpr ⟨method, url, key⟩⟩)).caller
  · intro apart
    constructor
    · intro same
      obtain ⟨callers, lines⟩ := (recordKey_eq_iff clean).mp same
      obtain ⟨method, url, key⟩ := line_eq_iff.mp lines
      exact ⟨apart method url key callers, method, url, key⟩
    · exact recordKey_ne_claimKey r r'
    · refine ⟨r.tag sha256, ?_, hashTag_tag sha256 r [], ?_⟩
      · unfold KeyedRequest.tag
        simp
      · have claim := hashTag_tag sha256 r (text ":claim")
        rw [KeyedRequest.claimKey, KeyedRequest.recordKey, List.append_assoc, List.cons_append, List.append_assoc, List.singleton_append]
        exact claim

/-- The keys that the interceptor works with are the ones of the request. -/
theorem claimKey_config {ι : Type*} {c : Config ι} (record : c.recordKey = r.recordKey sha256) : c.claimKey = r.claimKey sha256 := by
  rw [Config.claimKey, KeyedRequest.claimKey, record]

def recorded (t : Text) : Text :=
  if t = text "POST\n/pay\nk1" then text "b68e68ab5c3d00c3195288f4b7dc7ce1d9939a2876917e3d5a92a9279cd0fc1f"
  else if t = text "u1" then text "bb82030dbc2bcaba32a90bf2e207a84a856fc5f033b77c480836ab6f77f40f19"
  else if t = text "203.0.113.7:curl/8" then text "7f31f84ea0c46f6e7f68ad77c58cdc8a6e7f9b4317db255fd8c0b49db0b19a74"
  else if t = text "2001:db8::1:2:curl" then text "4984ed52ecb4881036c70c1a9df1d07c5b73404770891edcf5251fdca44c7e23"
  else List.replicate 64 (unit '0')

theorem recorded_hex (t : Text) :
    ((recorded t).length == 64 && (recorded t).all fun u => isDigit u || (unit 'a' ≤ u && u ≤ unit 'f')) = true := by
  unfold recorded
  repeat' split
  all_goals decide +kernel

def recordedHash : HexHash where
  hex := recorded
  length t := by
    have hex := recorded_hex t
    rw [Bool.and_eq_true, beq_iff_eq] at hex
    exact hex.1
  digits t u member := by
    have hex := recorded_hex t
    rw [Bool.and_eq_true] at hex
    have one := List.all_eq_true.mp hex.2 u member
    rwa [Bool.or_eq_true, Bool.and_eq_true, decide_eq_true_eq, decide_eq_true_eq] at one

theorem post_line : newline ∉ text "POST" := by decide

theorem pay_line : newline ∉ text "/pay" := by decide

def payment (caller : Caller) : KeyedRequest where
  caller := caller
  method := text "POST"
  url := text "/pay"
  idempotencyKey := text "k1"
  method_line := post_line
  url_line := pay_line

def somebody : Caller := .anonymous (text "203.0.113.7") (some (text "curl/8"))

theorem isolated_payments : (payment somebody).caller.Apart recordedHash (payment (.user (text "u1"))).caller ∧
    Isolated recordedHash (payment somebody) (payment (.user (text "u1"))) := by
  have apart : somebody.Apart recordedHash (.user (text "u1")) := by
    show text "u1" ≠ _
    decide
  have clean : NoCollision recordedHash (payment somebody) (payment (.user (text "u1"))) :=
    ⟨fun _ => rfl, fun user => Caller.noConfusion user, fun _ anonymous => Caller.noConfusion anonymous⟩
  exact ⟨apart, (isolated_iff clean).mpr fun _ _ _ => apart⟩

/-- An address ends where the agent starts, and nothing says where that is. -/
theorem address_agent_confused : ¬∀ r r', NoCollision recordedHash r r' → Isolated recordedHash r r' := by
  intro isolated
  have clean : NoCollision recordedHash (payment (.anonymous (text "2001:db8::1") (some (text "2:curl"))))
      (payment (.anonymous (text "2001:db8::1:2") (some (text "curl")))) :=
    ⟨fun _ => rfl, fun user => Caller.noConfusion user, fun left right _ => by cases left; cases right; rfl⟩
  have same := ((isolated _ _ clean).same rfl).caller
  rw [payment, payment, Caller.anonymous.injEq] at same
  exact absurd same.1 (by decide)

end Idempotency
