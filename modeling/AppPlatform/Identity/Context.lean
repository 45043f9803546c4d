import AppPlatform.Lib.Calls
import AppPlatform.Lib.Memo
import AppPlatform.Lib.Value

/-!
# The active context of a session

A session carries the context its user acts in. It is written when the session is created, when a read
finds that its user left the context, when it is set, and when it is cleared. What the product answers
(`initial`, `membership`) and what the library loads are events; every call is split at its awaits.
-/

namespace Identity.Context
open Js

/-- Groups of hex digits of these lengths, with a hyphen between two. -/
def hexGroups : List ℕ → Text → Bool
  | [], t => t.isEmpty
  | [n], t => t.length = n && t.all isHex
  | n :: lengths, t =>
    (t.take n).length = n && (t.take n).all isHex && (t.drop n).head? = some (unit '-') &&
      hexGroups lengths (t.drop (n + 1))

/-- `UUID_RE`. -/
def uuidText (t : Text) : Bool := hexGroups [8, 4, 4, 4, 12] t

def isUuid : Value → Option Text
  | .str t => if uuidText t then some t else none
  | _ => none

/-- A record as an own-property list. -/
abbrev Row := List (Text × Value)

/-- `{ ...row, ...more }`. -/
def spread (row more : Row) : Row := more.foldl (fun row field => setField row field.1 field.2) row

inductive HookResult where
  | refused
  | data (row : Row)
  | nothing

/-- One turn of the loop of `chainCreateBefore`: the row the next hook sees, and what is merged so far. -/
def chainHook (current : Row) (merged : Option Row) : HookResult → Option (Row × Option Row)
  | .refused => none
  | .data row => some (spread current row, some (spread (merged.getD []) row))
  | .nothing => some (current, merged)

/-- How the staff hook ends: a refusal, an exception, no data, or an earlier end of the session. -/
inductive Staff where
  | refused
  | threw
  | passed
  | capped (expiresAt : Value)

def Staff.result : Staff → Option HookResult
  | .refused => some .refused
  | .threw => none
  | .passed => some .nothing
  | .capped expiresAt => some (.data [(text "expiresAt", expiresAt)])

/-- `initial` tells whether `options.initial` is given; `ttlMs` is `revalidateSeconds` in milliseconds. -/
structure Config where
  initial : Bool
  ttlMs : ℤ

def memoMax : ℕ := 10000

def keyOf (userId contextId : Text) : Text := userId ++ 0 :: contextId

abbrev Believed := AList fun _ : Text => ℤ

def believe (c : Config) (now : ℤ) (userId contextId : Text) (believed : Believed) : Believed :=
  if c.ttlMs = 0 then believed
  else Memo.remember memoMax (keyOf userId contextId) (now + c.ttlMs) (believed.erase (keyOf userId contextId))

def forget (userId : Text) (contextId : Option Text) (believed : Believed) : Believed :=
  match contextId with
  | some contextId => believed.erase (keyOf userId contextId)
  | none => believed.keys.foldl (fun believed key =>
      if (keyOf userId []).isPrefixOf key then believed.erase key else believed) believed

def isBelieved (now : ℤ) (userId contextId : Text) (believed : Believed) : Bool :=
  match believed.lookup (keyOf userId contextId) with
  | some till => now < till
  | none => false

/-! ### Sessions and calls -/

/-- `writer` is the call that wrote the context last: nothing reads it. -/
structure Session (ι : Type*) where
  userId : Value
  contextId : Value
  writer : ι

/-- A token names one session, ever. -/
inductive Slot (ι : Type*) where
  | live (session : Session ι)
  | ended

/-- What the library loads for a token: the session's own user, and a context that may be a cached one. -/
structure Found where
  userId : Value
  contextId : Value
  expiresAt : Option ℤ

inductive Answer (α : Type*) where
  | value (a : α)
  | threw

/-- Who asks for a fallback, and what for. -/
inductive Purpose where
  | create (token : Text) (session : Row) (merged : Option Row)
  | replace (token userId seen : Text) (found : Found)

/-- What the store does for a call: it loads a session, lists the token and the user of sessions, or ends an
`updateSession`; `updated` tells whether there was such a session. -/
inductive Reply where
  | found (found : Option Found)
  | rows (rows : List (Text × Value))
  | written (answered updated : Bool)

inductive Phase where
  | idle
  | hooking (token : Text) (session : Row)
  /-- `fallback` waits for `initial`, then for `membership`. -/
  | choosing (purpose : Purpose) (userId : Text)
  | approving (purpose : Purpose) (userId candidate : Text)
  | inserting (token : Text) (row : Row)
  | created (token : Text)
  | finding (token : Text)
  | checking (token userId seen : Text) (found : Found)
  | replacing (token userId seen : Text) (found : Found) (replacement : Option Text)
  | returned (found : Option Found)
  | loading (token : Text) (next : Option Text)
  | asking (token userId next : Text) (previous : Option Text)
  | setting (token userId : Text) (next previous : Option Text)
  | switched (token : Text) (next : Option Text)
  | scanning (contextId : Text) (userId : Option Text) (seen : List Text) (count : ℕ)
  | clearing (contextId : Text) (userId : Option Text) (seen : List Text) (count : ℕ) (batch : List (Text × Value))
  | cleared (count : ℕ)
  | failed
  /-- The store has made the reply the call waits for in the phase `p`. -/
  | replied (p : Phase) (reply : Reply)

inductive Call where
  | create (token : Text) (session : Row)
  | findSession (token : Text)
  | setContext (token : Text) (body : Value)
  | clearContext (contextId : Text) (userId : Option Text)

/-- How a write through `updateSession` ends: it is made and answered, not made, or made and not answered. -/
inductive Outcome where
  | done
  | lost
  | unanswered
  deriving DecidableEq

inductive Event (ι : Type*) where
  | begin (r : ι) (call : Call)
  | staffHook (r : ι) (result : Staff)
  | initial (r : ι) (answer : Answer Value)
  | membership (r : ι) (answer : Answer Bool)
  | insert (r : ι)
  | load (r : ι) (found : Option Found)
  | list (r : ι) (rows : List (Text × Value))
  | update (r : ι) (outcome : Outcome)
  | resume (r : ι)
  | signOut (token : Text)
  | tick (now : ℤ)

/-- `approved` lists, for each call, what `membership` answered "true" to: nothing reads it. -/
structure State (ι : Type*) extends Calls ι Phase where
  sessions : AList fun _ : Text => Slot ι
  believed : Believed
  now : ℤ
  approved : ι → List (Text × Text)

variable {ι : Type*} [DecidableEq ι]

namespace State

abbrev toPhase (s : State ι) (r : ι) (p : Phase) : State ι := { s with toCalls := s.move r p }

def approve (s : State ι) (r : ι) (userId contextId : Text) : State ι :=
  { s with approved := Function.update s.approved r ((userId, contextId) :: s.approved r) }

def believe (c : Config) (s : State ι) (userId contextId : Text) : State ι :=
  { s with believed := Context.believe c s.now userId contextId s.believed }

def forget (s : State ι) (userId : Text) (contextId : Option Text) : State ι :=
  { s with believed := Context.forget userId contextId s.believed }

def session? (s : State ι) (token : Text) : Option (Session ι) :=
  match s.sessions.lookup token with
  | some (.live session) => some session
  | _ => none

/-- `updateSession(token, { contextId })`, by the call `r`. -/
def writeContext (s : State ι) (r : ι) (token : Text) (contextId : Option Text) : State ι :=
  match s.session? token with
  | some session => { s with
      sessions := s.sessions.insert token
        (.live { session with contextId := contextId.elim .null .str, writer := r }) }
  | none => s

end State

/-! ### The functions -/

/-- `fallback` ends with this context. -/
def fellBack (s : State ι) (r : ι) (contextId : Option Text) : Purpose → State ι
  | .create token session merged =>
    s.toPhase r (.inserting token (spread session (spread (merged.getD []) [(text "contextId", contextId.elim .null .str)])))
  | .replace token userId seen found => s.toPhase r (.replacing token userId seen found contextId)

def fallback (c : Config) (s : State ι) (r : ι) (purpose : Purpose) (userId : Text) : State ι :=
  if c.initial then s.toPhase r (.choosing purpose userId) else fellBack s r none purpose

/-- The context hook of the chain, after the staff hook. -/
def createBefore (c : Config) (s : State ι) (r : ι) (token : Text) (session current : Row) (merged : Option Row) : State ι :=
  match current.lookup (text "userId") with
  | some (.str userId) => fallback c s r (.create token session merged) userId
  | _ => s.toPhase r (.inserting token (spread session (merged.getD [])))

def hooked (c : Config) (s : State ι) (r : ι) (token : Text) (session : Row) (staff : Staff) : State ι :=
  match staff.result.bind (chainHook session none) with
  | some (current, merged) => createBefore c s r token session current merged
  | none => s.toPhase r .failed

def sessionOf (row : Row) (r : ι) : Session ι where
  userId := (row.lookup (text "userId")).getD .null
  contextId := (row.lookup (text "contextId")).getD .null
  writer := r

/-- `findSession`, once the library has loaded the session. -/
def foundSession (s : State ι) (r : ι) (token : Text) : Option Found → State ι
  | none => s.toPhase r (.returned none)
  | some found =>
    match isUuid found.contextId, found.userId with
    | some contextId, .str userId =>
      if found.expiresAt.any (· ≤ s.now) || isBelieved s.now userId contextId s.believed then
        s.toPhase r (.returned (some found))
      else s.toPhase r (.checking token userId contextId found)
    | _, _ => s.toPhase r (.returned (some found))

/-- `setContext`, once its session is loaded. -/
def loadedSession (s : State ι) (r : ι) (token : Text) (next : Option Text) : Option Found → State ι
  | some found =>
    match found.userId, next with
    | .str userId, some next => s.toPhase r (.asking token userId next (isUuid found.contextId))
    | .str userId, none => s.toPhase r (.setting token userId none (isUuid found.contextId))
    | _, _ => s.toPhase r .failed
  | none => s.toPhase r .failed

/-- What a call does with the answer of `membership`. -/
def answeredMembership (c : Config) (s : State ι) (r : ι) (answer : Answer Bool) : Phase → Option (State ι)
  | .approving purpose userId candidate =>
    match answer with
    | .value true => some (fellBack ((s.approve r userId candidate).believe c userId candidate) r (some candidate) purpose)
    | _ => some (fellBack s r none purpose)
  | .checking token userId seen found =>
    match answer with
    | .value true => some (((s.approve r userId seen).believe c userId seen).toPhase r (.returned (some found)))
    | .value false => some (fallback c (s.forget userId (some seen)) r (.replace token userId seen found) userId)
    | .threw => some (s.toPhase r (.returned (some found)))
  | .asking token userId next previous =>
    match answer with
    | .value true => some ((s.approve r userId next).toPhase r (.setting token userId (some next) previous))
    | _ => some (s.toPhase r .failed)
  | _ => none

def answeredInitial (s : State ι) (r : ι) (purpose : Purpose) (userId : Text) : Answer Value → State ι
  | .value candidate =>
    match isUuid candidate with
    | some candidate => s.toPhase r (.approving purpose userId candidate)
    | none => fellBack s r none purpose
  | .threw => fellBack s r none purpose

/-- What a call does once its `updateSession` has ended. -/
def afterUpdate (c : Config) (s : State ι) (r : ι) (answered updated : Bool) : Phase → State ι
  | .replacing _ _ _ found replacement =>
    s.toPhase r (.returned (some { found with contextId := replacement.elim .null .str }))
  | .setting token userId next previous =>
    if answered then
      match next with
      | none => (s.forget userId previous).toPhase r (.switched token next)
      | some contextId => (if updated then s.believe c userId contextId else s).toPhase r (.switched token next)
    else s.toPhase r .failed
  | .clearing contextId target seen count ((_, userId) :: batch) =>
    if answered then
      let s := match userId with
        | .str userId => s.forget userId (some contextId)
        | _ => s
      s.toPhase r (if batch = [] then .scanning contextId target seen (count + 1)
        else .clearing contextId target seen (count + 1) batch)
    else s.toPhase r .failed
  | p => s.toPhase r p

/-- The session and the context a call is about to write. -/
def Phase.write? : Phase → Option (Text × Option Text)
  | .replacing token _ _ _ replacement => some (token, replacement)
  | .setting token _ next _ => some (token, next)
  | .clearing _ _ _ _ ((token, _) :: _) => some (token, none)
  | _ => none

/-- The session a call waits for. -/
def Phase.load? : Phase → Option Text
  | .finding token => some token
  | .loading token _ => some token
  | _ => none

def updated (s : State ι) (r : ι) (token : Text) (contextId : Option Text) (outcome : Outcome) : State ι :=
  let written := if outcome = .lost then s else s.writeContext r token contextId
  written.toPhase r (.replied (s.phase r) (.written (outcome = .done) (s.session? token).isSome))

/-- What `findMany` answered, less the tokens seen before. -/
def scanned (s : State ι) (r : ι) (contextId : Text) (userId : Option Text) (seen : List Text) (count : ℕ)
    (rows : List (Text × Value)) : State ι :=
  let batch := rows.filter fun row => row.1 ∉ seen
  if batch = [] then
    (userId.elim s fun userId => s.forget userId (some contextId)).toPhase r (.cleared count)
  else s.toPhase r (.clearing contextId userId (seen ++ batch.map Prod.fst) count batch)

/-- A call goes on with the reply it waited for. -/
def resumed (c : Config) (s : State ι) (r : ι) : Phase → Reply → Option (State ι)
  | .finding token, .found found => some (foundSession s r token found)
  | .loading token next, .found found => some (loadedSession s r token next found)
  | .scanning contextId userId seen count, .rows rows => some (scanned s r contextId userId seen count rows)
  | p, .written answered updated => some (afterUpdate c s r answered updated p)
  | _, _ => none

def begun : Call → Phase
  | .create token session => .hooking token session
  | .findSession token => .finding token
  | .setContext token body =>
    match body, isUuid body with
    | .null, _ => .loading token none
    | _, some next => .loading token (some next)
    | _, none => .failed
  | .clearContext contextId userId =>
    if uuidText contextId && userId.all uuidText then .scanning contextId userId [] 0 else .failed

def step (c : Config) (s : State ι) : Event ι → Option (State ι)
  | .begin r call =>
    match s.phase r with
    | .idle => some (s.toPhase r (begun call))
    | _ => none
  | .staffHook r staff =>
    match s.phase r with
    | .hooking token session => some (hooked c s r token session staff)
    | _ => none
  | .initial r answer =>
    match s.phase r with
    | .choosing purpose userId => some (answeredInitial s r purpose userId answer)
    | _ => none
  | .membership r answer => answeredMembership c s r answer (s.phase r)
  | .insert r =>
    match s.phase r with
    | .inserting token row =>
      if token ∈ s.sessions then some (s.toPhase r .failed)
      else some ({ s with sessions := s.sessions.insert token (.live (sessionOf row r)) }.toPhase r (.created token))
    | _ => none
  | .load r found =>
    match (s.phase r).load? with
    | some _ => some (s.toPhase r (.replied (s.phase r) (.found found)))
    | none => none
  | .list r rows =>
    match s.phase r with
    | .scanning .. => some (s.toPhase r (.replied (s.phase r) (.rows rows)))
    | _ => none
  | .update r outcome =>
    match (s.phase r).write? with
    | some (token, contextId) => some (updated s r token contextId outcome)
    | none => none
  | .resume r =>
    match s.phase r with
    | .replied p reply => resumed c s r p reply
    | _ => none
  | .signOut token => if token ∈ s.sessions then some { s with sessions := s.sessions.insert token .ended } else none
  | .tick now => some { s with now := now }

@[simp] theorem toPhase_session? (s : State ι) (r : ι) (p : Phase) (token : Text) :
    (s.toPhase r p).session? token = s.session? token := rfl

omit [DecidableEq ι] in
theorem session?_insert_same (s : State ι) (token : Text) (session : Session ι) :
    ({ s with sessions := s.sessions.insert token (.live session) } : State ι).session? token = some session := by
  simp [State.session?]

omit [DecidableEq ι] in
theorem session?_insert_other (s : State ι) {token token' : Text} (slot : Slot ι) (differs : token' ≠ token) :
    ({ s with sessions := s.sessions.insert token slot } : State ι).session? token' = s.session? token' := by
  simp [State.session?, AList.lookup_insert_ne differs]

/-- The library answers for a token with the user of its session. -/
def Loads (s : State ι) (token : Text) (found : Option Found) : Prop :=
  ∀ answer, found = some answer → ∃ session, s.session? token = some session ∧ answer.userId = session.userId

end Identity.Context
