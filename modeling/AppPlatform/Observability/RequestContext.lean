import AppPlatform.Lib.Json
import AppPlatform.Lib.Properties
import AppPlatform.Lib.Refusal
import AppPlatform.Lib.Run
import AppPlatform.Observability.TraceContext

/-!
# The request context

A request gets a context of its own, with the correlation id that it brought or that was made for it; a job gets one with the id that its
payload carries. Guards write the caller into the context, and every log line reads it.
-/

namespace RequestContext
open Js Runs TraceContext

/-- `SAFE_CORRELATION_ID.test` -/
def isCorrelationId (t : Text) : Bool := isCode 128 t

inductive Header where
  | absent
  | one (value : Text)
  | many (values : List Text)
  deriving DecidableEq

structure Resolved where
  id : Text
  /-- The length of a value that was not used. -/
  replaced : Option ℕ
  deriving DecidableEq

def resolveCorrelationId (supplied : Header) (generated : Text) : Resolved :=
  match supplied with
  | .absent => ⟨generated, none⟩
  | .many values => ⟨generated, some (values.head?.getD []).length⟩
  | .one value => if isCorrelationId value then ⟨value, none⟩ else ⟨generated, some value.length⟩

def firstValid (value : Header) (pattern : Text → Bool) : Option Text :=
  match value with
  | .absent => none
  | .one single => if pattern single then some single else none
  | .many values => values.head?.filter pattern

structure Context where
  workspaceId : Option Text
  userId : Option Text
  sessionId : Option Text
  correlationId : Text
  traceparent : Option Text
  principalFields : Option (List (Text × Json))

/-- The headers that the middleware reads. -/
structure Arrival where
  correlationId : Header
  traceparent : Header
  deriving DecidableEq

/-- What the middleware leaves: the header of the response, the request's own from then on, what is logged, and the context. -/
structure Seeded where
  response : Text
  request : Text
  debug : Option ℕ
  context : Context

/-- The middleware of `enableCorrelationId`. -/
def correlate (arrival : Arrival) (generated : Text) : Seeded where
  response := (resolveCorrelationId arrival.correlationId generated).id
  request := (resolveCorrelationId arrival.correlationId generated).id
  debug := (resolveCorrelationId arrival.correlationId generated).replaced
  context := ⟨none, none, none, (resolveCorrelationId arrival.correlationId generated).id,
    firstValid arrival.traceparent isTraceparent, none⟩

structure JobContextSeed where
  correlationId : Option Text
  workspaceId : Option Text
  userId : Option Text
  traceparent : Option Text

def withJobContext (jobName generated : Text) (seed : JobContextSeed) : Context :=
  ⟨seed.workspaceId, seed.userId, none, seed.correlationId.getD (jobName ++ unit ':' :: generated), seed.traceparent, none⟩

def currentCorrelationId (store : Option Context) : Option Text := (store.map Context.correlationId).filter isCorrelationId

/-- `.replace(UNSAFE, '.')` -/
def safeUnits (t : Text) : Text := t.map fun u => if isCodeUnit u then u else unit '.'

def fallbackCorrelationId (queue jobId : Text) : Text :=
  let id := (safeUnits jobId).take 64
  let room := 128 - 1 - id.length
  (safeUnits queue).take (max 1 room) ++ unit ':' :: id

def correlationIdFor (queue jobId : Text) (data : Json) : Text :=
  match data with
  | .obj fields =>
    match fields.lookup (text "correlationId") with
    | some (.str candidate) => if isCorrelationId candidate then candidate else fallbackCorrelationId queue jobId
    | _ => fallbackCorrelationId queue jobId
  | _ => fallbackCorrelationId queue jobId

/-! ### The principal -/

/-- An id as a guard gave it. -/
inductive Given where
  | undefined
  | string (s : Text)
  | other
  deriving DecidableEq

structure RequestPrincipal where
  userId : Given
  sessionId : Given
  workspaceId : Given
  fields : Option (List (Text × Json))

def MAX_PRINCIPAL_FIELDS : ℕ := 8

def ID_MAX : ℕ := 128

def RESERVED_FIELDS : List Text :=
  [text "userId", text "sessionId", text "workspaceId", text "correlationId", text "traceparent", text "time", text "level", text "msg",
    text "message", text "service", text "env", text "version", text "err", text "error", text "req", text "res", text "pid",
    text "hostname", text "trace.id", text "span.id"]

/-- `/[\u0000-\u001f\u007f]/` -/
def isControl (u : CodeUnit) : Bool := u ≤ 0x1F || u = 0x7F

def assertId (value : Given) (name : Text) : Except Text Text :=
  let wrong := text "setRequestPrincipal: " ++ name ++ text " must be a non-empty string of at most 128 characters"
  match value with
  | .string s =>
    if s = [] ∨ ID_MAX < s.length then .error wrong
    else if s.any isControl then .error (text "setRequestPrincipal: " ++ name ++ text " must not contain control characters")
    else .ok s
  | _ => .error wrong

/-- `/^[a-z][A-Za-z0-9_.]{0,39}$/` -/
def isFieldKey : Text → Bool
  | [] => false
  | u :: rest => isLower u && rest.length ≤ 39 && rest.all fun v => isLetter v || isDigit v || v = unit '_' || v = unit '.'

def isFieldValue : Json → Bool
  | .str s => s.length ≤ ID_MAX && !s.any isControl
  | .num (.finite _ _) => true
  | .bool _ => true
  | _ => false

def checkFields : List (Text × Json) → Except Text Unit
  | [] => .ok ()
  | (key, value) :: rest =>
    if !isFieldKey key || RESERVED_FIELDS.contains key then
      .error (text "setRequestPrincipal: field name \"" ++ key.take 40 ++ text "\" is not allowed")
    else if !isFieldValue value then .error (text "setRequestPrincipal: field \"" ++ key ++ text "\" has an unsupported value")
    else checkFields rest

def validFields (fields : List (Text × Json)) : Except Text (List (Text × Json)) :=
  if MAX_PRINCIPAL_FIELDS < fields.length then .error (text "setRequestPrincipal: at most 8 fields")
  else (checkFields fields).map fun _ => fields

def assertWorkspace : Given → Except Text (Option Text)
  | .undefined => .ok none
  | given => (assertId given (text "workspaceId")).map some

/-- The context afterwards, if there is one. -/
def setRequestPrincipal (principal : RequestPrincipal) (store : Option Context) : Except Text (Option Context) := do
  let userId ← assertId principal.userId (text "userId")
  let sessionId ← assertId principal.sessionId (text "sessionId")
  let workspaceId ← assertWorkspace principal.workspaceId
  let fields ← principal.fields.mapM validFields
  return store.map fun ctx =>
    { ctx with
      userId := some userId, sessionId := some sessionId, workspaceId := workspaceId.or ctx.workspaceId,
      principalFields := fields }

/-- `RequestContextService.setAuthContext` -/
def setAuthContext (workspaceId : Option Text) (userId sessionId : Text) (ctx : Context) : Context :=
  { ctx with workspaceId, userId := some userId, sessionId := some sessionId }

def setTruthy (fields : List (Text × Json)) (key : Text) (value : Option Text) : List (Text × Json) :=
  match value with
  | some (u :: rest) => setField fields key (.str (u :: rest))
  | _ => fields

def spanFields (isSpanContextValid : SpanContext → Bool) : Option SpanContext → List (Text × Json)
  | some spanContext =>
    if isSpanContextValid spanContext then
      setField (setField [] (text "trace.id") (.str spanContext.traceId)) (text "span.id") (.str spanContext.spanId)
    else []
  | none => []

/-- The mixin of the logger. Which spans are valid is for the tracer to say. -/
def mixin (isSpanContextValid : SpanContext → Bool) (span : Option SpanContext) (store : Option Context) : List (Text × Json) :=
  match store with
  | none => spanFields isSpanContextValid span
  | some ctx =>
    let fields := setTruthy (setTruthy (setTruthy (spanFields isSpanContextValid span) (text "workspaceId") ctx.workspaceId)
      (text "userId") ctx.userId) (text "correlationId") (some ctx.correlationId)
    (ctx.principalFields.getD []).foldl (fun fields e => setField fields e.1 e.2) fields

/-! ### Requests and jobs -/

inductive Origin where
  | request (arrival : Arrival) (generated : Text)
  | job (queue jobId : Text) (data : Json)

def Origin.id : Origin → Text
  | .request arrival generated => (resolveCorrelationId arrival.correlationId generated).id
  | .job queue jobId data => correlationIdFor queue jobId data

/-- A context, and the one that its chain of jobs began in. -/
structure Entry where
  context : Context
  root : ℕ
  origin : Origin

/-- A job that was sent; `root` when the sender passed on the id of its context. -/
structure Sent where
  queue : Text
  data : List (Text × Json)
  root : Option ℕ

structure State where
  entries : List Entry
  sent : List Sent

inductive Event where
  | request (arrival : Arrival) (generated : Text)
  /-- Code that runs in a context, or outside of any, sends a job; `continued` with `correlationId: currentCorrelationId()`. -/
  | send (context : Option ℕ) (queue : Text) (data : List (Text × Json)) (continued : Bool)
  /-- A job that was sent is handled, the first time or again. -/
  | job (message : ℕ) (jobId : Text)
  | principal (context : Option ℕ) (principal : RequestPrincipal)
  | auth (context : ℕ) (workspaceId : Option Text) (userId sessionId : Text)

/-- What is stored of `{ ...data, correlationId: currentCorrelationId() }`: a field that is undefined is not. -/
def continuedData (store : Option Context) (data : List (Text × Json)) : List (Text × Json) :=
  match currentCorrelationId store with
  | some id => setField data (text "correlationId") (.str id)
  | none => data.filter fun e => e.1 ≠ text "correlationId"

def State.write (s : State) (i : ℕ) (entry : Entry) (context : Context) : State :=
  { s with entries := s.entries.set i { entry with context } }

def State.enter (s : State) (context : Context) (root : Option ℕ) (origin : Origin) : State :=
  { s with entries := s.entries ++ [⟨context, root.getD s.entries.length, origin⟩] }

def State.queued (s : State) (sent : Sent) : State := { s with sent := s.sent ++ [sent] }

def step (s : State) : Event → Option State
  | .request arrival generated => some (s.enter (correlate arrival generated).context none (.request arrival generated))
  | .send none queue data continued => some (s.queued ⟨queue, if continued then continuedData none data else data, none⟩)
  | .send (some i) queue data continued =>
    (s.entries[i]?).map fun entry =>
      if continued then s.queued ⟨queue, continuedData (some entry.context) data,
        some entry.root⟩ else s.queued ⟨queue, data, none⟩
  | .job i jobId =>
    (s.sent[i]?).map fun message =>
      s.enter (withJobContext message.queue [] ⟨some (correlationIdFor message.queue jobId (.obj message.data)), none, none, none⟩)
        message.root (.job message.queue jobId (.obj message.data))
  | .principal none _ => some s
  | .principal (some i) principal =>
    (s.entries[i]?).map fun entry =>
      match setRequestPrincipal principal (some entry.context) with
      | .ok (some context) => s.write i entry context
      | _ => s
  | .auth i workspaceId userId sessionId =>
    (s.entries[i]?).map fun entry => s.write i entry (setAuthContext workspaceId userId sessionId entry.context)

def initial : State := ⟨[], []⟩

/-- `randomUUID` gives a UUID. -/
def Generated (_ : State) : Event → Prop
  | .request _ generated => (readGroups [8, 4, 4, 4, 12] generated).isSome
  | _ => True

/-! ### Ids that are valid -/

theorem isCodeUnit_lowerHex {u : CodeUnit} (hex : isLowerHex u = true) : isCodeUnit u = true := by
  rw [isLowerHex, Bool.or_eq_true, Bool.and_eq_true, decide_eq_true_eq, decide_eq_true_eq] at hex
  rcases hex with digit | ⟨low, high⟩
  · simp [isCodeUnit, digit]
  · have letter : isLower u = true := by
      rw [isLower, Bool.and_eq_true, decide_eq_true_eq, decide_eq_true_eq]
      have last : unit 'f' ≤ unit 'z' := by decide
      exact ⟨low, UInt16.le_trans high last⟩
    simp [isCodeUnit, isLetter, letter]

theorem writeGroups_length (groups : List Text) :
    (writeGroups groups).length = (groups.map List.length).sum + (groups.length - 1) := by
  induction groups with
  | nil => rfl
  | cons g later ih =>
    cases later with
    | nil =>
      rw [writeGroups, List.intercalate_singleton]
      rfl
    | cons next later =>
      rw [List.length_cons, Nat.add_sub_cancel] at ih
      rw [writeGroups_cons, List.length_append, List.length_cons, ih, List.map_cons (l := next :: later),
        List.sum_cons, List.length_cons]
      simp only [List.length_cons]
      omega

theorem generated_code {t : Text} (generated : (readGroups [8, 4, 4, 4, 12] t).isSome) : isCorrelationId t = true := by
  obtain ⟨groups, read⟩ := Option.isSome_iff_exists.mp generated
  obtain ⟨lengths, hex, rfl⟩ := readGroups_eq.mp read
  have five : groups.length = 5 := by
    rw [← List.length_map List.length, lengths]
    rfl
  have length : (writeGroups groups).length = 36 := by
    rw [writeGroups_length, lengths, five]
    rfl
  have units : (writeGroups groups).all isCodeUnit = true := by
    rw [List.all_eq_true]
    intro u found
    rcases mem_writeGroups found with rfl | ⟨g, member, inside⟩
    · decide
    · exact isCodeUnit_lowerHex (List.all_eq_true.mp (hex g member) u inside)
  have some : writeGroups groups ≠ [] := List.length_pos_iff.mp (by omega)
  simp [isCorrelationId, isCode, length, units, some]

theorem resolve_code {generated : Text} (code : isCorrelationId generated = true) (supplied : Header) :
    isCorrelationId (resolveCorrelationId supplied generated).id = true := by
  unfold resolveCorrelationId
  split
  · exact code
  · exact code
  · split
    · assumption
    · exact code

theorem safeUnits_code (t : Text) : ∀ u ∈ safeUnits t, isCodeUnit u = true := by
  intro u found
  obtain ⟨v, _, rfl⟩ := List.mem_map.mp found
  split
  · assumption
  · decide

theorem fallback_code (queue jobId : Text) : isCorrelationId (fallbackCorrelationId queue jobId) = true := by
  have short : ((safeUnits jobId).take 64).length ≤ 64 := List.length_take_le _ _
  have front : ((safeUnits queue).take (max 1 (128 - 1 - ((safeUnits jobId).take 64).length))).length ≤
      max 1 (128 - 1 - ((safeUnits jobId).take 64).length) := List.length_take_le _ _
  have length : (fallbackCorrelationId queue jobId).length ≤ 128 := by
    rw [fallbackCorrelationId, List.length_append, List.length_cons]
    omega
  have units : (fallbackCorrelationId queue jobId).all isCodeUnit = true := by
    rw [fallbackCorrelationId, List.all_append, List.all_cons, Bool.and_eq_true, Bool.and_eq_true]
    exact ⟨List.all_eq_true.mpr fun u found => safeUnits_code queue u (List.mem_of_mem_take found), by decide,
      List.all_eq_true.mpr fun u found => safeUnits_code jobId u (List.mem_of_mem_take found)⟩
  have some : fallbackCorrelationId queue jobId ≠ [] := List.append_ne_nil_of_right_ne_nil _ (List.cons_ne_nil _ _)
  simp [isCorrelationId, isCode, length, units, some]

theorem correlationIdFor_code (queue jobId : Text) (data : Json) : isCorrelationId (correlationIdFor queue jobId data) = true := by
  unfold correlationIdFor
  split
  · split
    · split
      · assumption
      · exact fallback_code queue jobId
    · exact fallback_code queue jobId
  · exact fallback_code queue jobId

theorem correlationIdFor_carried {id : Text} (code : isCorrelationId id = true) {data : List (Text × Json)}
    (carried : data.lookup (text "correlationId") = some (.str id)) (queue jobId : Text) :
    correlationIdFor queue jobId (.obj data) = id := by
  unfold correlationIdFor
  dsimp only
  rw [carried]
  dsimp only
  rw [if_pos code]

theorem continuedData_carried {ctx : Context} (code : isCorrelationId ctx.correlationId = true) (data : List (Text × Json)) :
    (continuedData (some ctx) data).lookup (text "correlationId") = some (.str ctx.correlationId) := by
  have current : currentCorrelationId (some ctx) = some ctx.correlationId := by
    rw [currentCorrelationId, Option.map_some, Option.filter_some, if_pos code]
  rw [continuedData, current]
  exact lookup_setField_same _ _ _

theorem checkFields_ok {fields : List (Text × Json)} (accepted : checkFields fields = .ok ()) :
    ∀ e ∈ fields, isFieldKey e.1 = true ∧ RESERVED_FIELDS.contains e.1 = false ∧ isFieldValue e.2 = true := by
  induction fields with
  | nil => exact List.forall_mem_nil _
  | cons e fields ih =>
    rw [checkFields] at accepted
    split at accepted
    · cases accepted
    · rename_i allowed
      split at accepted
      · cases accepted
      · rename_i supported
        simp only [Bool.or_eq_true, Bool.not_eq_true', not_or, Bool.not_eq_true, Bool.not_eq_false] at allowed supported
        exact List.forall_mem_cons.mpr ⟨⟨allowed.1, allowed.2, supported⟩, ih accepted⟩

theorem validFields_ok {fields kept : List (Text × Json)} (accepted : validFields fields = .ok kept) :
    kept = fields ∧ ∀ e ∈ kept, isFieldKey e.1 = true ∧ RESERVED_FIELDS.contains e.1 = false ∧ isFieldValue e.2 = true := by
  rw [validFields] at accepted
  split at accepted
  · cases accepted
  · cases checked : checkFields fields with
    | error _ =>
      rw [checked] at accepted
      cases accepted
    | ok _ =>
      rw [checked] at accepted
      cases accepted
      exact ⟨rfl, checkFields_ok checked⟩

theorem assertId_ok {value : Given} {name id : Text} (accepted : assertId value name = .ok id) : value = .string id := by
  unfold assertId at accepted
  split at accepted
  · split at accepted
    · cases accepted
    · split at accepted
      · cases accepted
      · cases accepted
        rfl
  · cases accepted

theorem setRequestPrincipal_eq {principal : RequestPrincipal} {store store' : Option Context}
    (accepted : setRequestPrincipal principal store = .ok store') : ∃ user session, ∃ workspace : Option Text, ∃ fields,
      principal.userId = .string user ∧ principal.sessionId = .string session ∧ principal.fields.mapM validFields = .ok fields ∧
      store' = store.map fun ctx =>
        { ctx with
          userId := some user, sessionId := some session, workspaceId := workspace.or ctx.workspaceId,
          principalFields := fields } := by
  obtain ⟨user, userId, accepted⟩ := Refusal.bind_ok accepted
  obtain ⟨session, sessionId, accepted⟩ := Refusal.bind_ok accepted
  obtain ⟨workspace, _, accepted⟩ := Refusal.bind_ok accepted
  obtain ⟨fields, checked, accepted⟩ := Refusal.bind_ok accepted
  cases accepted
  exact ⟨user, session, workspace, fields, assertId_ok userId, assertId_ok sessionId, checked, rfl⟩

/-- What a guard changes: the caller is the one that it gave, and every field has a name of its own. -/
theorem setRequestPrincipal_ok {principal : RequestPrincipal} {ctx ctx' : Context}
    (accepted : setRequestPrincipal principal (some ctx) = .ok (some ctx')) :
    ctx'.correlationId = ctx.correlationId ∧ (∃ user, principal.userId = .string user ∧ ctx'.userId = some user) ∧
    ∀ fields, ctx'.principalFields = some fields → ∀ e ∈ fields, RESERVED_FIELDS.contains e.1 = false := by
  obtain ⟨user, session, workspace, fields, userId, _, checked, same⟩ := setRequestPrincipal_eq accepted
  obtain rfl := Option.some.inj same
  refine ⟨rfl, ⟨user, userId, rfl⟩, fun kept same => ?_⟩
  obtain rfl : fields = some kept := same
  cases given : principal.fields with
  | none =>
    rw [given] at checked
    cases checked
  | some all =>
    rw [given, Option.mapM_some] at checked
    cases valid : validFields all with
    | error _ =>
      rw [valid] at checked
      cases checked
    | ok names =>
      rw [valid] at checked
      cases checked
      exact fun e found => ((validFields_ok valid).2 e found).2.1

/-! ### Chains of jobs -/

/-- What no guard changes of a context. -/
structure Ident where
  id : Text
  root : ℕ
  origin : Origin

def Entry.ident (e : Entry) : Ident := ⟨e.context.correlationId, e.root, e.origin⟩

def State.ids (s : State) : List Ident := s.entries.map Entry.ident

theorem ids_getElem (s : State) (i : ℕ) :
    s.ids[i]? = (s.entries[i]?).map Entry.ident := List.getElem?_map

theorem write_ids {s : State} {i : ℕ} {entry : Entry} {context : Context} (found : s.entries[i]? = some entry)
    (same : context.correlationId = entry.context.correlationId) : (s.write i entry context).ids = s.ids := by
  apply List.ext_getElem?
  intro j
  rw [ids_getElem, ids_getElem, State.write, List.getElem?_set]
  by_cases here : i = j
  · subst here
    rw [if_pos rfl, if_pos (List.getElem?_eq_some_iff.mp found).1, found, Option.map_some, Option.map_some,
      Entry.ident, Entry.ident, same]
  · rw [if_neg here]

theorem enter_ids (s : State) (context : Context) (root : Option ℕ) (origin : Origin) :
    (s.enter context root origin).ids = s.ids ++ [⟨context.correlationId, root.getD s.ids.length, origin⟩] := by
  rw [State.ids, State.enter, List.map_append, List.map_singleton, State.ids, List.length_map]
  rfl

/-- Every context has the id of the one that its chain began in, and so has every message that continues a chain. -/
structure Kept (ids : List Ident) (sent : List Sent) : Prop where
  code : ∀ c ∈ ids, isCorrelationId c.id = true
  root : ∀ (i : ℕ) (c : Ident), ids[i]? = some c →
    c.root ≤ i ∧ ∃ origin : Origin, ids[c.root]? = some ⟨c.id, c.root, origin⟩ ∧ origin.id = c.id
  sent : ∀ message ∈ sent, ∀ r, message.root = some r →
    ∃ id origin, ids[r]? = some ⟨id, r, origin⟩ ∧ message.data.lookup (text "correlationId") = some (.str id)

theorem kept_enter {s : State} (kept : Kept s.ids s.sent) {context : Context} {root : Option ℕ} {origin : Origin}
    (code : isCorrelationId context.correlationId = true) (begun : root = none → origin.id = context.correlationId)
    (continued : ∀ r, root = some r → ∃ first, s.ids[r]? = some ⟨context.correlationId, r, first⟩) :
    Kept (s.enter context root origin).ids s.sent := by
  rw [enter_ids]
  have before : ∀ {i : ℕ} {c : Ident}, s.ids[i]? = some c →
      (s.ids ++ [⟨context.correlationId, root.getD s.ids.length, origin⟩])[i]? = some c := by
    intro i c found
    rw [List.getElem?_append_left (List.getElem?_eq_some_iff.mp found).1, found]
  refine ⟨List.forall_mem_append.mpr ⟨kept.code, List.forall_mem_singleton.mpr code⟩, ?_, ?_⟩
  · intro i c found
    rcases Nat.lt_or_ge i s.ids.length with old | new
    · rw [List.getElem?_append_left old] at found
      obtain ⟨earlier, first, there, same⟩ := kept.root i c found
      exact ⟨earlier, first, before there, same⟩
    · rw [List.getElem?_append_right new, List.getElem?_singleton] at found
      obtain ⟨_, same⟩ := Option.ite_none_right_eq_some.mp found
      cases same
      cases root with
      | none =>
        refine ⟨by rw [Option.getD_none]; omega, origin, ?_, begun rfl⟩
        rw [Option.getD_none, List.getElem?_concat_length]
      | some r =>
        obtain ⟨first, there⟩ := continued r rfl
        obtain ⟨_, second, again, same⟩ := kept.root r _ there
        have bound := (List.getElem?_eq_some_iff.mp there).1
        exact ⟨(Nat.le_of_lt bound).trans new, second, before again, same⟩
  · intro message found r same
    obtain ⟨id, first, there, carried⟩ := kept.sent message found r same
    exact ⟨id, first, before there, carried⟩

theorem kept_queued {s : State} (kept : Kept s.ids s.sent) {message : Sent}
    (carried : ∀ r, message.root = some r →
      ∃ id origin, s.ids[r]? = some ⟨id, r, origin⟩ ∧ message.data.lookup (text "correlationId") = some (.str id)) :
    Kept (s.queued message).ids (s.queued message).sent :=
  ⟨kept.code, kept.root, List.forall_mem_append.mpr ⟨kept.sent, List.forall_mem_singleton.mpr carried⟩⟩

theorem kept_write {s : State} (kept : Kept s.ids s.sent) {i : ℕ} {entry : Entry} {context : Context}
    (found : s.entries[i]? = some entry) (same : context.correlationId = entry.context.correlationId) :
    Kept (s.write i entry context).ids (s.write i entry context).sent := by
  rw [write_ids found same]
  exact kept

theorem kept_step {s t : State} {e : Event} (kept : Kept s.ids s.sent) (allowed : Generated s e) (taken : step s e = some t) :
    Kept t.ids t.sent := by
  cases e with
  | request arrival generated =>
    cases taken
    exact kept_enter kept (resolve_code (generated_code allowed) _) (fun _ => rfl) (fun r same => by cases same)
  | send context queue data continued =>
    cases context with
    | none =>
      cases taken
      exact kept_queued kept fun r same => by cases same
    | some i =>
      obtain ⟨entry, found, rfl⟩ := Option.map_eq_some_iff.mp taken
      have ident : s.ids[i]? = some entry.ident := by
        rw [ids_getElem, found, Option.map_some]
      cases continued with
      | false => exact kept_queued kept fun r same => by cases same
      | true =>
        refine kept_queued kept fun r same => ?_
        cases same
        obtain ⟨_, first, there, _⟩ := kept.root i _ ident
        exact ⟨entry.context.correlationId, first, there, continuedData_carried (kept.code _ (List.mem_of_getElem? ident)) data⟩
  | job i jobId =>
    obtain ⟨message, found, rfl⟩ := Option.map_eq_some_iff.mp taken
    have code := correlationIdFor_code message.queue jobId (.obj message.data)
    refine kept_enter kept code (fun _ => rfl) fun r same => ?_
    obtain ⟨id, first, there, carried⟩ := kept.sent message (List.mem_of_getElem? found) r same
    have follows : correlationIdFor message.queue jobId (.obj message.data) = id :=
      correlationIdFor_carried (kept.code _ (List.mem_of_getElem? there)) carried _ _
    refine ⟨first, ?_⟩
    rw [there, ← follows]
    rfl
  | principal context principal =>
    cases context with
    | none =>
      cases taken
      exact kept
    | some i =>
      obtain ⟨entry, found, rfl⟩ := Option.map_eq_some_iff.mp taken
      split
      · rename_i context accepted
        exact kept_write kept found (setRequestPrincipal_ok accepted).1
      · exact kept
  | auth i workspaceId userId sessionId =>
    obtain ⟨entry, found, rfl⟩ := Option.map_eq_some_iff.mp taken
    exact kept_write kept found rfl

theorem kept_run {s : State} {es : List Event} (run : Run step Generated initial es s) : Kept s.ids s.sent :=
  run.invariant (I := fun s => Kept s.ids s.sent) kept_step
    ⟨List.forall_mem_nil _, fun i c found => (by cases found), List.forall_mem_nil _⟩

def chain : List Event :=
  [.request ⟨.one (text "order-7"), .absent⟩ (writeGroups (List.map (fun n => List.replicate n (unit 'a')) [8, 4, 4, 4, 12])),
    .principal (some 0) ⟨.string (text "u1"), .string (text "s1"), .undefined, some [(text "plan", .str (text "pro"))]⟩,
    .send (some 0) (text "invoice.render") [(text "orderId", .bool true)] true, .job 0 (text "j1"),
    .send (some 1) (text "mail.send") [] true, .job 1 (text "j2")]

theorem chain_run : ∃ s, Run step Generated initial chain s ∧
    (∃ entry, s.entries[0]? = some entry ∧ entry.context.userId = some (text "u1")) ∧
    ∃ entry, s.entries[2]? = some entry ∧ entry.context.correlationId = text "order-7" := by
  refine ⟨_, .cons rfl rfl (.cons trivial rfl (.cons trivial rfl (.cons trivial rfl (.cons trivial rfl (.cons trivial rfl
    (.nil _)))))), ?_, ?_⟩
  · exact ⟨_, rfl, rfl⟩
  · exact ⟨_, rfl, rfl⟩

/-- Every context has a valid id, and it is the one that the first context of its chain came with. -/
theorem ids_followed {s : State} {es : List Event} (run : Run step Generated initial es s) {i : ℕ} {entry : Entry}
    (found : s.entries[i]? = some entry) : isCorrelationId entry.context.correlationId = true ∧ entry.root ≤ i ∧
      ∃ first, s.entries[entry.root]? = some first ∧ first.root = entry.root ∧ first.origin.id = entry.context.correlationId ∧
        first.context.correlationId = entry.context.correlationId := by
  have kept := kept_run run
  have ident : s.ids[i]? = some entry.ident := by
    rw [ids_getElem, found, Option.map_some]
  obtain ⟨earlier, origin, there, same⟩ := kept.root i _ ident
  rw [ids_getElem] at there
  obtain ⟨first, here, parts⟩ := Option.map_eq_some_iff.mp there
  obtain ⟨idSame, rootSame, rfl⟩ := Ident.mk.inj parts
  exact ⟨kept.code _ (List.mem_of_getElem? ident), earlier, first, here, rootSame, same, idSame⟩

theorem ids_followed_chain : ∃ (s : State) (entry : Entry), Run step Generated initial chain s ∧
    entry.context.correlationId = text "order-7" ∧ isCorrelationId entry.context.correlationId = true ∧ entry.root ≤ 2 ∧
      ∃ first, s.entries[entry.root]? = some first ∧ first.root = entry.root ∧ first.origin.id = entry.context.correlationId ∧
        first.context.correlationId = entry.context.correlationId := by
  obtain ⟨s, run, _, entry, found, id⟩ := chain_run
  exact ⟨s, entry, run, id, ids_followed run found⟩

/-! ### What a log line says -/

def Event.Says (i : ℕ) (user : Text) : Event → Prop
  | .principal (some j) given => j = i ∧ given.userId = .string user
  | .auth j _ userId _ => j = i ∧ userId = user
  | _ => False

/-- Some guard said in this context that the caller is this user. -/
def Said (i : ℕ) (user : Text) (es : List Event) : Prop := ∃ e ∈ es, e.Says i user

theorem Said.later {i : ℕ} {user : Text} {es : List Event} (said : Said i user es) (fs : List Event) : Said i user (es ++ fs) := by
  obtain ⟨e, found, here⟩ := said
  exact ⟨e, List.mem_append_left fs found, here⟩

/-- What a context holds of its caller was said in it. -/
structure Told (i : ℕ) (es : List Event) (ctx : Context) : Prop where
  user : ∀ user, ctx.userId = some user → Said i user es
  fields : ∀ fields, ctx.principalFields = some fields → ∀ e ∈ fields, RESERVED_FIELDS.contains e.1 = false

theorem Told.later {i : ℕ} {es : List Event} {ctx : Context} (told : Told i es ctx) (fs : List Event) : Told i (es ++ fs) ctx :=
  ⟨fun user same => (told.user user same).later fs, told.fields⟩

def AllTold (s : State) (es : List Event) : Prop := ∀ (i : ℕ) (entry : Entry), s.entries[i]? = some entry → Told i es entry.context

theorem told_enter {s : State} {es : List Event} (told : AllTold s es) {context : Context} (user : context.userId = none)
    (fields : context.principalFields = none) (root : Option ℕ) (origin : Origin) (e : Event) :
    AllTold (s.enter context root origin) (es ++ [e]) := by
  intro i entry found
  rw [State.enter, List.getElem?_append] at found
  split at found
  · exact (told i entry found).later [e]
  · rw [List.getElem?_singleton, Option.ite_none_right_eq_some] at found
    obtain ⟨_, same⟩ := found
    cases same
    refine ⟨fun user' same => ?_, fun fields' same => ?_⟩
    · rw [user] at same
      cases same
    · rw [fields] at same
      cases same

theorem told_write {s : State} {es : List Event} (told : AllTold s es) {i : ℕ} {entry : Entry} {context : Context} {e : Event}
    (written : Told i (es ++ [e]) context) : AllTold (s.write i entry context) (es ++ [e]) := by
  intro j entry' found
  rw [State.write, List.getElem?_set] at found
  split at found
  · rename_i here
    obtain ⟨_, same⟩ := Option.ite_none_right_eq_some.mp found
    cases same
    rw [← here]
    exact written
  · exact (told j entry' found).later [e]

theorem told_step {s t : State} {es : List Event} {e : Event} (told : AllTold s es) (taken : step s e = some t) :
    AllTold t (es ++ [e]) := by
  have unchanged : AllTold s (es ++ [e]) := fun i entry found => (told i entry found).later [e]
  have last : e ∈ es ++ [e] := List.mem_append_right es List.mem_cons_self
  cases e with
  | request arrival generated =>
    cases taken
    exact told_enter told rfl rfl _ _ _
  | send context queue data continued =>
    cases context with
    | none =>
      cases taken
      exact unchanged
    | some i =>
      obtain ⟨entry, _, rfl⟩ := Option.map_eq_some_iff.mp taken
      cases continued with
      | false => exact unchanged
      | true => exact unchanged
  | job i jobId =>
    obtain ⟨message, _, rfl⟩ := Option.map_eq_some_iff.mp taken
    exact told_enter told rfl rfl _ _ _
  | principal context principal =>
    cases context with
    | none =>
      cases taken
      exact unchanged
    | some i =>
      obtain ⟨entry, found, rfl⟩ := Option.map_eq_some_iff.mp taken
      split
      · rename_i context accepted
        obtain ⟨_, ⟨user, given, written⟩, fields⟩ := setRequestPrincipal_ok accepted
        refine told_write told ⟨fun user' same => ⟨_, last, rfl, ?_⟩, fields⟩
        rw [given, ← Option.some.inj (written.symm.trans same)]
      · exact unchanged
  | auth i workspaceId userId sessionId =>
    obtain ⟨entry, found, rfl⟩ := Option.map_eq_some_iff.mp taken
    exact told_write told ⟨fun user' same => ⟨_, last, rfl, Option.some.inj same⟩, (told i entry found).fields⟩

theorem told_run {s : State} {es : List Event} (run : Run step Generated initial es s) : AllTold s es :=
  run.history (I := AllTold) (fun told _ taken => told_step told taken) fun i entry found => (by cases found)

theorem lookup_assigned {fields : List (Text × Json)} {key : Text} (other : ∀ e ∈ fields, e.1 ≠ key)
    (base : List (Text × Json)) :
    (fields.foldl (fun fields e => setField fields e.1 e.2) base).lookup key = base.lookup key := by
  induction fields generalizing base with
  | nil => rfl
  | cons e fields ih =>
    obtain ⟨first, rest⟩ := List.forall_mem_cons.mp other
    rw [List.foldl_cons, ih rest, lookup_setField_other base e.2 first.symm]

theorem setTruthy_same (fields : List (Text × Json)) (key : Text) (value : Option Text) :
    (setTruthy fields key value).lookup key = ((value.filter fun t => t ≠ []).map Json.str).or (fields.lookup key) := by
  match value with
  | none => rfl
  | some [] => rfl
  | some (u :: rest) => exact lookup_setField_same fields key (.str (u :: rest))

theorem setTruthy_other (fields : List (Text × Json)) {key other : Text} (differs : other ≠ key) (value : Option Text) :
    (setTruthy fields key value).lookup other = fields.lookup other := by
  match value with
  | none => rfl
  | some [] => rfl
  | some (u :: rest) => exact lookup_setField_other fields (.str (u :: rest)) differs

theorem spanFields_lookup (isSpanContextValid : SpanContext → Bool) (span : Option SpanContext) :
    (spanFields isSpanContextValid span).lookup (text "trace.id") = (span.filter isSpanContextValid).map (fun c => .str c.traceId) ∧
    (spanFields isSpanContextValid span).lookup (text "span.id") = (span.filter isSpanContextValid).map (fun c => .str c.spanId) := by
  match span with
  | none => exact ⟨rfl, rfl⟩
  | some spanContext =>
    rw [spanFields, Option.filter_some]
    split
    · have differs : text "trace.id" ≠ text "span.id" := by decide
      exact ⟨by rw [lookup_setField_other _ _ differs, lookup_setField_same]; rfl, by rw [lookup_setField_same]; rfl⟩
    · exact ⟨rfl, rfl⟩

theorem spanFields_other (isSpanContextValid : SpanContext → Bool) (span : Option SpanContext) {key : Text}
    (trace : key ≠ text "trace.id") (spanId : key ≠ text "span.id") : (spanFields isSpanContextValid span).lookup key = none := by
  match span with
  | none => rfl
  | some spanContext =>
    rw [spanFields]
    split
    · rw [lookup_setField_other _ _ spanId, lookup_setField_other _ _ trace]
      rfl
    · rfl

/-- What the mixin says of a name of the logger is what the logger wrote; no field of a principal takes its place. -/
theorem mixin_own {i : ℕ} {es : List Event} {ctx : Context} (told : Told i es ctx) {key : Text}
    (own : RESERVED_FIELDS.contains key = true)
    (isSpanContextValid : SpanContext → Bool) (span : Option SpanContext) : (mixin isSpanContextValid span (some ctx)).lookup key =
      (setTruthy (setTruthy (setTruthy (spanFields isSpanContextValid span) (text "workspaceId") ctx.workspaceId)
        (text "userId") ctx.userId) (text "correlationId") (some ctx.correlationId)).lookup key := by
  refine lookup_assigned (fun e found same => ?_) _
  cases given : ctx.principalFields with
  | none =>
    rw [given] at found
    cases found
  | some fields =>
    rw [given, Option.getD_some] at found
    have free := told.fields fields given e found
    rw [same, own] at free
    cases free

/-- A log line has the id of its context and of its span, and no caller but one that was said in its context, whatever fields
the principal has. -/
theorem log_lines {s : State} {es : List Event} (run : Run step Generated initial es s) {i : ℕ} {entry : Entry}
    (found : s.entries[i]? = some entry) (isSpanContextValid : SpanContext → Bool) (span : Option SpanContext) :
    (mixin isSpanContextValid span (some entry.context)).lookup (text "correlationId") = some (.str entry.context.correlationId) ∧
    (∀ v, (mixin isSpanContextValid span (some entry.context)).lookup (text "userId") = some v →
      ∃ user, v = .str user ∧ Said i user es) ∧
    (mixin isSpanContextValid span (some entry.context)).lookup (text "trace.id") =
      (span.filter isSpanContextValid).map (fun c => .str c.traceId) ∧
    (mixin isSpanContextValid span (some entry.context)).lookup (text "span.id") =
      (span.filter isSpanContextValid).map (fun c => .str c.spanId) := by
  have told := told_run run i entry found
  have code : isCorrelationId entry.context.correlationId = true := by
    have ident : entry.ident ∈ s.ids := List.mem_map_of_mem (List.mem_of_getElem? found)
    exact (kept_run run).code _ ident
  have set : entry.context.correlationId ≠ [] := by
    intro empty
    rw [empty] at code
    cases code
  obtain ⟨traceId, spanId⟩ := spanFields_lookup isSpanContextValid span
  refine ⟨?_, ?_, ?_, ?_⟩
  · rw [mixin_own told (by decide), setTruthy_same, Option.filter_some, if_pos (by simpa using set)]
    rfl
  · intro v line
    rw [mixin_own told (by decide), setTruthy_other _ (by decide), setTruthy_same, setTruthy_other _ (by decide),
      spanFields_other _ _ (by decide) (by decide), Option.or_none] at line
    obtain ⟨user, held, rfl⟩ := Option.map_eq_some_iff.mp line
    exact ⟨user, rfl, told.user user (Option.filter_eq_some_iff.mp held).1⟩
  · rw [mixin_own told (by decide), setTruthy_other _ (by decide), setTruthy_other _ (by decide),
      setTruthy_other _ (by decide), traceId]
  · rw [mixin_own told (by decide), setTruthy_other _ (by decide), setTruthy_other _ (by decide), setTruthy_other _ (by decide), spanId]

theorem log_lines_chain : ∃ (s : State) (entry : Entry), Run step Generated initial chain s ∧
    entry.context.userId = some (text "u1") ∧
    (mixin (fun _ => true) (some requestSpan) (some entry.context)).lookup (text "correlationId") =
      some (.str entry.context.correlationId) ∧
    (∀ v, (mixin (fun _ => true) (some requestSpan) (some entry.context)).lookup (text "userId") = some v →
      ∃ user, v = .str user ∧ Said 0 user chain) ∧
    (mixin (fun _ => true) (some requestSpan) (some entry.context)).lookup (text "trace.id") =
      ((some requestSpan).filter fun _ => true).map (fun c => .str c.traceId) ∧
    (mixin (fun _ => true) (some requestSpan) (some entry.context)).lookup (text "span.id") =
      ((some requestSpan).filter fun _ => true).map (fun c => .str c.spanId) := by
  obtain ⟨s, run, ⟨entry, found, user⟩, _⟩ := chain_run
  exact ⟨s, entry, run, user, log_lines run found (fun _ => true) (some requestSpan)⟩

end RequestContext
