import AppPlatform.Jobs.QueueConfig
import Mathlib.Data.List.Perm.Basic
import Mathlib.Logic.Function.Basic

/-!
# Registering queues, handlers and schedules

The three calls made before `start()`, as steps on the maps of the engine, and what their order can
change. The first refusal ends a run. Whether a time zone exists is a parameter.
-/

namespace Queues
open Js Refusal
variable {ρ φ : Type}

def DEFAULT_TIME_ZONE : Text := text "Asia/Ho_Chi_Minh"

inductive Registration (ρ φ : Type) where
  | defineQueue (queue : Text) (config : QueueConfig ρ)
  | handle (queue : Text) (handler : φ) (options : HandleOptions ρ)
  | schedule (name cron : Text) (data : Option Json) (tz : Option Text)

structure RegisteredHandler (ρ φ : Type) where
  queue : ResolvedQueue ρ
  options : ResolvedHandler
  fn : φ

structure ScheduledJob where
  name : Text
  cron : Text
  data : Json
  tz : Text

@[ext]
structure Registry (ρ φ : Type) where
  queues : Text → Option (ResolvedQueue ρ)
  handlers : Text → Option (RegisteredHandler ρ φ)
  schedules : Text → Option ScheduledJob

def Registry.empty : Registry ρ φ := ⟨fun _ => none, fun _ => none, fun _ => none⟩

def Registry.setQueue (s : Registry ρ φ) (name : Text) (r : ResolvedQueue ρ) : Registry ρ φ :=
  { s with queues := Function.update s.queues name (some r) }

def Registry.setHandler (s : Registry ρ φ) (name : Text) (h : RegisteredHandler ρ φ) : Registry ρ φ :=
  { s with handlers := Function.update s.handlers name (some h) }

def Registry.setSchedule (s : Registry ρ φ) (name : Text) (j : ScheduledJob) : Registry ρ φ :=
  { s with schedules := Function.update s.schedules name (some j) }

/-- `split(/\s+/)` -/
def splitSpaces : Text → List Text
  | [] => [[]]
  | u :: t =>
    if isWhiteSpace u then
      if t.head?.any isWhiteSpace then splitSpaces t else [] :: splitSpaces t
    else match splitSpaces t with
      | word :: words => (u :: word) :: words
      | [] => [[u]]

def definedTwice (queue : Text) : Text :=
  text "Queue \"" ++ queue ++ text ("\" is defined twice with different configuration. A queue has one " ++
    "configuration; define it in one place.")

def defineResolved (s : Registry ρ φ) (resolved : ResolvedQueue ρ) : Except Text (Registry ρ φ) :=
  match s.queues resolved.name with
  | some existing =>
    if existing.fingerprint ≠ resolved.fingerprint then .error (definedTwice resolved.name)
    else .ok (s.setQueue resolved.name resolved)
  | none => .ok (s.setQueue resolved.name resolved)

/-- The queue a schedule lands on is made sure to exist. -/
def ensureDefined (s : Registry ρ φ) (name : Text) : Except Text (Registry ρ φ) :=
  match s.queues name with
  | some _ => .ok s
  | none => resolveQueue name .empty >>= defineResolved s

def register (validZone : Text → Bool) (s : Registry ρ φ) : Registration ρ φ → Except Text (Registry ρ φ)
  | .defineQueue queue config => do
    let resolved ← resolveQueue queue config
    match s.queues queue with
    | some existing =>
      if existing.fingerprint ≠ resolved.fingerprint then .error (definedTwice queue) else .ok s
    | none => .ok (s.setQueue queue resolved)
  | .handle queue handler options => do
    refuseIf ((s.handlers queue).isSome = true) (text "Queue \"" ++ queue ++
      text "\" already has a handler; a queue has exactly one.")
    let resolvedQueue ← resolveQueue queue options.config
    let resolvedHandler ← resolveHandler queue options
    let s ← defineResolved s resolvedQueue
    .ok (s.setHandler queue ⟨resolvedQueue, resolvedHandler, handler⟩)
  | .schedule name cron data tz => do
    assertQueueName name
    refuseIf ((splitSpaces (trim cron)).length < 5) (text "Schedule \"" ++ name ++ text "\": \"" ++ cron ++
      text "\" is not a cron expression (5 fields).")
    let tz := tz.getD DEFAULT_TIME_ZONE
    refuseIf (validZone tz = false) (text "\"" ++ tz ++ text "\" is not a valid IANA time zone (for example \"" ++
      DEFAULT_TIME_ZONE ++ text "\").")
    refuseIf ((s.schedules name).isSome = true) (text "Schedule \"" ++ name ++
      text "\" is already registered; a queue has one schedule.")
    let s ← ensureDefined s name
    .ok (s.setSchedule name ⟨name, cron, data.getD (.obj []), tz⟩)

def registerAll (validZone : Text → Bool) : Registry ρ φ → List (Registration ρ φ) → Except Text (Registry ρ φ)
  | s, [] => .ok s
  | s, r :: rest => register validZone s r >>= fun s => registerAll validZone s rest

/-- What a run of registrations comes to: refused, or the three maps. -/
def outcome (validZone : Text → Bool) (registrations : List (Registration ρ φ)) : Option (Registry ρ φ) :=
  match registerAll validZone .empty registrations with
  | .ok s => some s
  | .error _ => none

def Registration.handled? : Registration ρ φ → Option Text
  | .handle queue _ _ => some queue
  | _ => none

def Registration.scheduled? : Registration ρ φ → Option Text
  | .schedule name _ _ _ => some name
  | _ => none

def Registration.defined? : Registration ρ φ → Option Text
  | .defineQueue queue _ => some queue
  | .handle queue _ _ => some queue
  | .schedule _ _ _ _ => none

def Registration.config? : Registration ρ φ → Option (QueueConfig ρ)
  | .defineQueue _ config => some config
  | .handle _ _ options => some options.config
  | .schedule _ _ _ _ => none

/-- The registration defines the queue `name`, as `r`. -/
structure Defines (reg : Registration ρ φ) (name : Text) (r : ResolvedQueue ρ) : Prop where
  defined : reg.defined? = some name
  resolves : ∃ config, reg.config? = some config ∧ resolveQueue name config = .ok r

/-- The registration is in order by itself. -/
def Valid (validZone : Text → Bool) : Registration ρ φ → Prop
  | .defineQueue queue config => ∃ r, resolveQueue queue config = .ok r
  | .handle queue _ options => (∃ r, resolveQueue queue options.config = .ok r) ∧ ∃ h, resolveHandler queue options = .ok h
  | .schedule name cron _ tz =>
    queueName name = true ∧ 5 ≤ (splitSpaces (trim cron)).length ∧ validZone (tz.getD DEFAULT_TIME_ZONE) = true

/-! ### What a registration does -/

theorem Valid.defines {validZone : Text → Bool} {reg : Registration ρ φ} {name : Text} (valid : Valid validZone reg)
    (defined : reg.defined? = some name) : ∃ r, Defines reg name r := by
  cases reg with
  | defineQueue queue config =>
    obtain ⟨r, resolves⟩ := valid
    obtain rfl := Option.some.inj defined
    exact ⟨r, rfl, config, rfl, resolves⟩
  | handle queue handler options =>
    obtain ⟨⟨r, resolves⟩, _⟩ := valid
    obtain rfl := Option.some.inj defined
    exact ⟨r, rfl, options.config, rfl, resolves⟩
  | schedule => cases defined

theorem setQueue_same (s : Registry ρ φ) (name : Text) (r : ResolvedQueue ρ) : (s.setQueue name r).queues name = some r :=
  Function.update_self ..

theorem setQueue_other (s : Registry ρ φ) {name other : Text} (r : ResolvedQueue ρ) (differs : other ≠ name) :
    (s.setQueue name r).queues other = s.queues other := Function.update_of_ne differs ..

/-- What is there has the fingerprint of `r`. -/
def Agrees (s : Registry ρ φ) (name : Text) (r : ResolvedQueue ρ) : Prop :=
  ∀ existing, s.queues name = some existing → existing.fingerprint = r.fingerprint

theorem defineResolved_iff {s t : Registry ρ φ} {r : ResolvedQueue ρ} :
    defineResolved s r = .ok t ↔ Agrees s r.name r ∧ t = s.setQueue r.name r := by
  unfold defineResolved Agrees
  cases found : s.queues r.name with
  | none => simp [eq_comm]
  | some existing =>
    by_cases same : existing.fingerprint = r.fingerprint
    · simp [same, eq_comm]
    · simp [same]

theorem ensureDefined_iff {s t : Registry ρ φ} {name : Text} :
    ensureDefined s name = .ok t ↔ (s.queues name ≠ none ∧ t = s) ∨
      (s.queues name = none ∧ ∃ d, resolveQueue name .empty = .ok d ∧ t = s.setQueue name d) := by
  unfold ensureDefined
  cases found : s.queues name with
  | some existing => simp [eq_comm]
  | none =>
    rw [bind_ok_iff]
    simp only [ne_eq, not_true_eq_false, false_and, true_and, false_or]
    refine exists_congr fun d => and_congr_right fun resolves => ?_
    have named := (resolveQueue_ok resolves).named
    rw [defineResolved_iff, named]
    refine ⟨And.right, fun same => ⟨?_, same⟩⟩
    intro existing present
    rw [found] at present
    cases present

variable {validZone : Text → Bool}

theorem register_defineQueue {s t : Registry ρ φ} {queue : Text} {config : QueueConfig ρ} :
    register validZone s (.defineQueue queue config) = .ok t ↔ ∃ r, resolveQueue queue config = .ok r ∧ Agrees s queue r ∧
      ((s.queues queue ≠ none ∧ t = s) ∨ (s.queues queue = none ∧ t = s.setQueue queue r)) := by
  rw [register, bind_ok_iff]
  refine exists_congr fun r => and_congr_right fun _ => ?_
  unfold Agrees
  cases found : s.queues queue with
  | none => simp [eq_comm]
  | some existing =>
    by_cases same : existing.fingerprint = r.fingerprint
    · simp [same, eq_comm]
    · simp [same]

theorem register_handle {s t : Registry ρ φ} {queue : Text} {handler : φ} {options : HandleOptions ρ} :
    register validZone s (.handle queue handler options) = .ok t ↔ s.handlers queue = none ∧
      ∃ r h, resolveQueue queue options.config = .ok r ∧ resolveHandler queue options = .ok h ∧ Agrees s queue r ∧
        t = (s.setQueue queue r).setHandler queue ⟨r, h, handler⟩ := by
  simp only [register, bind_ok_iff, refuseIf_iff, defineResolved_iff]
  constructor
  · intro ⟨_, free, r, resolves, h, resolved, _, ⟨agrees, same⟩, done⟩
    obtain rfl := Except.ok.inj done
    subst same
    rw [(resolveQueue_ok resolves).named] at agrees ⊢
    exact ⟨by simpa using free, r, h, resolves, resolved, agrees, rfl⟩
  · intro ⟨free, r, h, resolves, resolved, agrees, same⟩
    have named := (resolveQueue_ok resolves).named
    refine ⟨(), by simpa using free, r, resolves, h, resolved, _, ⟨?_, rfl⟩, ?_⟩
    · rwa [named]
    · rw [named, same]

theorem register_schedule {s t : Registry ρ φ} {name cron : Text} {data : Option Json} {tz : Option Text} :
    register validZone s (.schedule name cron data tz) = .ok t ↔
      Valid validZone (.schedule name cron data tz : Registration ρ φ) ∧ s.schedules name = none ∧
        ∃ u, ensureDefined s name = .ok u ∧
          t = u.setSchedule name ⟨name, cron, data.getD (.obj []), tz.getD DEFAULT_TIME_ZONE⟩ := by
  simp only [register, bind_ok_iff, refuseIf_iff, Valid, assertQueueName]
  constructor
  · intro ⟨_, named, _, fields, _, zone, _, free, u, ensured, done⟩
    exact ⟨⟨by simpa using named, by omega, by simpa using zone⟩, by simpa using free, u, ensured, (Except.ok.inj done).symm⟩
  · intro ⟨⟨named, fields, zone⟩, free, u, ensured, same⟩
    exact ⟨(), by simpa using named, (), by omega, (), by simpa using zone, (), by simpa using free, u, ensured, by rw [same]⟩

/-! ### What the maps come from -/

/-- Where the queue `name` of the map comes from: its handler, else a definition, else a schedule. -/
inductive Source (l : List (Registration ρ φ)) (name : Text) (r : ResolvedQueue ρ) : Prop where
  | handled {reg : Registration ρ φ} (member : reg ∈ l) (handles : reg.handled? = some name) (defines : Defines reg name r)
  | defined {reg : Registration ρ φ} (unhandled : ∀ reg ∈ l, reg.handled? ≠ some name) (member : reg ∈ l)
      (defines : Defines reg name r)
  | default {reg : Registration ρ φ} (undefined : ∀ reg ∈ l, reg.defined? ≠ some name) (member : reg ∈ l)
      (scheduled : reg.scheduled? = some name) (resolves : resolveQueue name .empty = .ok r)

structure Handles (reg : Registration ρ φ) (name : Text) (h : RegisteredHandler ρ φ) : Prop where
  handled : ∃ options, reg = .handle name h.fn options ∧ resolveQueue name options.config = .ok h.queue ∧
    resolveHandler name options = .ok h.options

structure Schedules (reg : Registration ρ φ) (name : Text) (j : ScheduledJob) : Prop where
  scheduled : ∃ cron data tz, reg = .schedule name cron data tz ∧
    j = ⟨name, cron, data.getD (.obj []), tz.getD DEFAULT_TIME_ZONE⟩

/-- The map has an entry for each name that a registration sets, made by one of them. -/
structure MadeBy {β : Type} (l : List (Registration ρ φ)) (map : Text → Option β) (sets : Registration ρ φ → Option Text)
    (makes : Registration ρ φ → Text → β → Prop) : Prop where
  made : ∀ name b, map name = some b → ∃ reg ∈ l, makes reg name b
  unset : ∀ name, map name = none → ∀ reg ∈ l, sets reg ≠ some name

/-- The maps are what the registrations made so far say, whatever their order was. -/
structure Reached (l : List (Registration ρ φ)) (s : Registry ρ φ) : Prop where
  queue : ∀ name r, s.queues name = some r → Source l name r
  noQueue : ∀ name, s.queues name = none → ∀ reg ∈ l, reg.defined? ≠ some name ∧ reg.scheduled? ≠ some name
  handlers : MadeBy l s.handlers Registration.handled? Handles
  schedules : MadeBy l s.schedules Registration.scheduled? Schedules

theorem handled_defined {reg : Registration ρ φ} {name : Text} (handled : reg.handled? = some name) :
    reg.defined? = some name := by
  cases reg with
  | handle => exact handled
  | defineQueue => cases handled
  | schedule => cases handled

theorem forall_snoc {α : Type} {l : List α} {a : α} {P : α → Prop} (old : ∀ b ∈ l, P b) (new : P a) :
    ∀ b ∈ l ++ [a], P b := by
  intro b member
  rcases List.mem_append.mp member with before | last
  · exact old b before
  · rwa [List.mem_singleton.mp last]

theorem Source.keep {l : List (Registration ρ φ)} {name : Text} {r : ResolvedQueue ρ} (source : Source l name r)
    {reg : Registration ρ φ} (other : reg.defined? ≠ some name) : Source (l ++ [reg]) name r := by
  cases source with
  | handled member handles defines => exact .handled (List.mem_append_left _ member) handles defines
  | defined unhandled member defines =>
    exact .defined (forall_snoc unhandled (mt handled_defined other)) (List.mem_append_left _ member) defines
  | default undefined member scheduled resolves =>
    exact .default (forall_snoc undefined other) (List.mem_append_left _ member) scheduled resolves

theorem eq_of_default {name : Text} {config : QueueConfig ρ} {d r : ResolvedQueue ρ} (default : resolveQueue name .empty = .ok d)
    (resolves : resolveQueue name config = .ok r) (same : d.fingerprint = r.fingerprint) : d = r := by
  have accepted := resolveQueue_ok default
  have accepted' := resolveQueue_ok resolves
  have resolved := (fingerprint_eq accepted accepted').mp same
  have unguarded : d.guarded = false := accepted.guarded
  have noRule : d.canRedrive = none := Option.not_isSome_iff_eq_none.mp (by simp [← accepted.rule, unguarded])
  have noRule' : r.canRedrive = none := Option.not_isSome_iff_eq_none.mp (by simp [← accepted'.rule, ← resolved, unguarded])
  obtain ⟨_, _, _⟩ := d
  obtain ⟨_, _, _⟩ := r
  simp only at resolved noRule noRule' same
  subst resolved noRule noRule' same
  rfl

/-- A map after one entry was set. -/
theorem update_some {α β : Type} [DecidableEq α] {f : α → Option β} {a a' : α} {b b' : β}
    (h : Function.update f a (some b) a' = some b') : (a' = a ∧ b' = b) ∨ (a' ≠ a ∧ f a' = some b') := by
  rcases eq_or_ne a' a with rfl | differs
  · rw [Function.update_self] at h
    exact Or.inl ⟨rfl, (Option.some.inj h).symm⟩
  · rw [Function.update_of_ne differs] at h
    exact Or.inr ⟨differs, h⟩

theorem update_none {α β : Type} [DecidableEq α] {f : α → Option β} {a a' : α} {b : β}
    (h : Function.update f a (some b) a' = none) : a' ≠ a ∧ f a' = none := by
  rcases eq_or_ne a' a with rfl | differs
  · rw [Function.update_self] at h
    cases h
  · rw [Function.update_of_ne differs] at h
    exact ⟨differs, h⟩

section MadeBy
variable {β : Type} {l : List (Registration ρ φ)} {map : Text → Option β} {sets : Registration ρ φ → Option Text}
  {makes : Registration ρ φ → Text → β → Prop} {reg : Registration ρ φ}

theorem MadeBy.skip (made : MadeBy l map sets makes) (quiet : sets reg = none) : MadeBy (l ++ [reg]) map sets makes := by
  refine ⟨?_, ?_⟩
  · intro name b present
    obtain ⟨reg', member, maker⟩ := made.made name b present
    exact ⟨reg', List.mem_append_left _ member, maker⟩
  · intro name absent
    exact forall_snoc (made.unset name absent) (by rw [quiet]; nofun)

theorem MadeBy.set (made : MadeBy l map sets makes) {name : Text} {b : β} (sets_name : sets reg = some name)
    (maker : makes reg name b) : MadeBy (l ++ [reg]) (Function.update map name (some b)) sets makes := by
  refine ⟨?_, ?_⟩
  · intro name' b' present
    rcases update_some present with ⟨rfl, rfl⟩ | ⟨-, kept⟩
    · exact ⟨reg, by simp, maker⟩
    · obtain ⟨reg', member, maker'⟩ := made.made name' b' kept
      exact ⟨reg', List.mem_append_left _ member, maker'⟩
  · intro name' absent
    obtain ⟨differs, before⟩ := update_none absent
    refine forall_snoc (made.unset name' before) ?_
    rw [sets_name]
    exact fun same => differs (Option.some.inj same).symm

end MadeBy

theorem Reached.empty : Reached ([] : List (Registration ρ φ)) .empty := by
  refine ⟨?_, ?_, ⟨?_, ?_⟩, ⟨?_, ?_⟩⟩ <;> simp [Registry.empty]

section Step
variable {l : List (Registration ρ φ)} {s t : Registry ρ φ}

theorem Reached.again (reached : Reached l s) {name : Text} {existing r : ResolvedQueue ρ} {reg : Registration ρ φ}
    (found : s.queues name = some existing) (agrees : Agrees s name r) (defines : Defines reg name r)
    (unhandling : reg.handled? = none) : Source (l ++ [reg]) name existing := by
  have quiet : reg.handled? ≠ some name := by rw [unhandling]; nofun
  cases reached.queue name existing found with
  | handled member handles defines' => exact .handled (List.mem_append_left _ member) handles defines'
  | defined unhandled member defines' =>
    exact .defined (forall_snoc unhandled quiet) (List.mem_append_left _ member) defines'
  | default undefined member scheduled resolves =>
    obtain ⟨config, _, resolves'⟩ := defines.resolves
    have same := eq_of_default resolves resolves' (agrees existing found)
    have unhandled : ∀ reg ∈ l, reg.handled? ≠ some name := fun reg member => mt handled_defined (undefined reg member)
    exact .defined (forall_snoc unhandled quiet) (by simp) (same ▸ defines)

theorem Reached.defineQueue (reached : Reached l s) {queue : Text} {config : QueueConfig ρ}
    (h : register validZone s (.defineQueue queue config) = .ok t) : Reached (l ++ [.defineQueue queue config]) t := by
  obtain ⟨r, resolves, agrees, effect⟩ := register_defineQueue.mp h
  have defines : Defines (.defineQueue queue config : Registration ρ φ) queue r := ⟨rfl, config, rfl, resolves⟩
  have other : ∀ name ≠ queue, (.defineQueue queue config : Registration ρ φ).defined? ≠ some name :=
    fun name differs same => differs (Option.some.inj same).symm
  rcases effect with ⟨found, rfl⟩ | ⟨absent, rfl⟩
  · refine ⟨?_, ?_, reached.handlers.skip rfl, reached.schedules.skip rfl⟩
    · intro name existing present
      rcases eq_or_ne name queue with rfl | differs
      · exact reached.again present agrees defines rfl
      · exact (reached.queue name existing present).keep (other name differs)
    · intro name absent
      have differs : name ≠ queue := fun same => found (same ▸ absent)
      exact forall_snoc (reached.noQueue name absent) ⟨other name differs, nofun⟩
  · refine ⟨?_, ?_, reached.handlers.skip rfl, reached.schedules.skip rfl⟩
    · intro name r' present
      rcases update_some present with ⟨rfl, rfl⟩ | ⟨differs, kept⟩
      · have unhandled : ∀ reg ∈ l, reg.handled? ≠ some name :=
          fun reg member => mt handled_defined (reached.noQueue name absent reg member).1
        exact .defined (forall_snoc unhandled nofun) (by simp) defines
      · exact (reached.queue name r' kept).keep (other name differs)
    · intro name none
      obtain ⟨differs, before⟩ := update_none none
      exact forall_snoc (reached.noQueue name before) ⟨other name differs, nofun⟩

theorem Reached.handle (reached : Reached l s) {queue : Text} {handler : φ} {options : HandleOptions ρ}
    (h : register validZone s (.handle queue handler options) = .ok t) : Reached (l ++ [.handle queue handler options]) t := by
  obtain ⟨free, r, resolved, resolves, resolvesHandler, agrees, rfl⟩ := register_handle.mp h
  have other : ∀ name ≠ queue, (.handle queue handler options : Registration ρ φ).defined? ≠ some name :=
    fun name differs same => differs (Option.some.inj same).symm
  refine ⟨?_, ?_, reached.handlers.set rfl ⟨options, rfl, resolves, resolvesHandler⟩, reached.schedules.skip rfl⟩
  · intro name r' present
    rcases update_some present with ⟨rfl, rfl⟩ | ⟨differs, kept⟩
    · have last : (.handle name handler options : Registration ρ φ) ∈ l ++ [.handle name handler options] := by simp
      exact .handled last rfl ⟨rfl, options.config, rfl, resolves⟩
    · exact (reached.queue name r' kept).keep (other name differs)
  · intro name none
    obtain ⟨differs, before⟩ := update_none none
    exact forall_snoc (reached.noQueue name before) ⟨other name differs, nofun⟩

theorem Reached.schedule (reached : Reached l s) {name cron : Text} {data : Option Json} {tz : Option Text}
    (h : register validZone s (.schedule name cron data tz) = .ok t) : Reached (l ++ [.schedule name cron data tz]) t := by
  obtain ⟨valid, free, u, ensured, rfl⟩ := register_schedule.mp h
  have other : ∀ other ≠ name, (.schedule name cron data tz : Registration ρ φ).scheduled? ≠ some other :=
    fun other differs same => differs (Option.some.inj same).symm
  rcases ensureDefined_iff.mp ensured with ⟨found, rfl⟩ | ⟨absent, d, resolves, rfl⟩
  · refine ⟨?_, ?_, reached.handlers.skip rfl, reached.schedules.set rfl ⟨cron, data, tz, rfl, rfl⟩⟩
    · intro queue r present
      exact (reached.queue queue r present).keep nofun
    · intro queue none
      have differs : queue ≠ name := fun same => found (same ▸ none)
      exact forall_snoc (reached.noQueue queue none) ⟨nofun, other queue differs⟩
  · refine ⟨?_, ?_, reached.handlers.skip rfl, reached.schedules.set rfl ⟨cron, data, tz, rfl, rfl⟩⟩
    · intro queue r present
      rcases update_some present with ⟨rfl, rfl⟩ | ⟨-, kept⟩
      · have undefined : ∀ reg ∈ l, reg.defined? ≠ some queue := fun reg member => (reached.noQueue queue absent reg member).1
        have last : (.schedule queue cron data tz : Registration ρ φ) ∈ l ++ [.schedule queue cron data tz] := by simp
        exact .default (forall_snoc undefined nofun) last rfl resolves
      · exact (reached.queue queue r kept).keep nofun
    · intro queue none
      obtain ⟨differs, before⟩ := update_none none
      exact forall_snoc (reached.noQueue queue before) ⟨nofun, other queue differs⟩

theorem Reached.step (reached : Reached l s) {reg : Registration ρ φ} (h : register validZone s reg = .ok t) :
    Reached (l ++ [reg]) t := by
  cases reg with
  | defineQueue => exact reached.defineQueue h
  | handle => exact reached.handle h
  | schedule => exact reached.schedule h

end Step

theorem registerAll_append {s t : Registry ρ φ} {l l' : List (Registration ρ φ)} :
    registerAll validZone s (l ++ l') = .ok t ↔ ∃ u, registerAll validZone s l = .ok u ∧ registerAll validZone u l' = .ok t := by
  induction l generalizing s with
  | nil => simp [registerAll]
  | cons reg l ih =>
    simp only [List.cons_append, registerAll, bind_ok_iff, ih]
    constructor
    · intro ⟨a, first, u, before, after⟩
      exact ⟨u, ⟨a, first, before⟩, after⟩
    · intro ⟨u, ⟨a, first, before⟩, after⟩
      exact ⟨a, first, u, before, after⟩

theorem Reached.run {l l' : List (Registration ρ φ)} {s t : Registry ρ φ} (reached : Reached l s)
    (h : registerAll validZone s l' = .ok t) : Reached (l ++ l') t := by
  induction l' generalizing l s with
  | nil =>
    obtain rfl := Except.ok.inj h
    rwa [List.append_nil]
  | cons reg l' ih =>
    obtain ⟨u, first, rest⟩ := bind_ok h
    simpa using ih (reached.step first) rest

/-! ### What a run keeps -/

section Keeps
variable {s t : Registry ρ φ} {reg : Registration ρ φ} {name : Text} {d r : ResolvedQueue ρ}

theorem register_defines (h : register validZone s reg = .ok t) (defines : Defines reg name r) :
    ∃ d, t.queues name = some d ∧ d.fingerprint = r.fingerprint := by
  obtain ⟨defined, config, given, resolves⟩ := defines
  cases reg with
  | defineQueue queue config =>
    obtain rfl := Option.some.inj defined
    obtain rfl := Option.some.inj given
    obtain ⟨r', resolves', agrees, effect⟩ := register_defineQueue.mp h
    obtain rfl := Except.ok.inj (resolves.symm.trans resolves')
    rcases effect with ⟨found, rfl⟩ | ⟨-, rfl⟩
    · obtain ⟨existing, present⟩ := Option.ne_none_iff_exists'.mp found
      exact ⟨existing, present, agrees existing present⟩
    · exact ⟨r, Function.update_self .., rfl⟩
  | handle queue handler options =>
    obtain rfl := Option.some.inj defined
    obtain rfl := Option.some.inj given
    obtain ⟨-, r', _, resolves', -, -, rfl⟩ := register_handle.mp h
    obtain rfl := Except.ok.inj (resolves.symm.trans resolves')
    exact ⟨r, Function.update_self .., rfl⟩
  | schedule => cases defined

theorem register_keeps (h : register validZone s reg = .ok t) (found : s.queues name = some d) :
    t.queues name = some d ∨ (reg.handled? = some name ∧ ∃ d', t.queues name = some d' ∧ d'.fingerprint = d.fingerprint) := by
  cases reg with
  | defineQueue queue config =>
    obtain ⟨r', -, -, effect⟩ := register_defineQueue.mp h
    rcases effect with ⟨-, rfl⟩ | ⟨absent, rfl⟩
    · exact Or.inl found
    · have differs : name ≠ queue := by
        rintro rfl
        rw [found] at absent
        cases absent
      exact Or.inl ((Function.update_of_ne differs ..).trans found)
  | handle queue handler options =>
    obtain ⟨-, r', _, -, -, agrees, rfl⟩ := register_handle.mp h
    rcases eq_or_ne name queue with rfl | differs
    · exact Or.inr ⟨rfl, r', Function.update_self .., (agrees d found).symm⟩
    · exact Or.inl ((Function.update_of_ne differs ..).trans found)
  | schedule queue =>
    obtain ⟨-, -, u, ensured, rfl⟩ := register_schedule.mp h
    rcases ensureDefined_iff.mp ensured with ⟨-, rfl⟩ | ⟨absent, _, -, rfl⟩
    · exact Or.inl found
    · have differs : name ≠ queue := by
        rintro rfl
        rw [found] at absent
        cases absent
      exact Or.inl ((Function.update_of_ne differs ..).trans found)

theorem registerAll_fingerprint {l : List (Registration ρ φ)} (h : registerAll validZone s l = .ok t)
    (found : s.queues name = some d) : ∃ d', t.queues name = some d' ∧ d'.fingerprint = d.fingerprint := by
  induction l generalizing s d with
  | nil =>
    obtain rfl := Except.ok.inj h
    exact ⟨d, found, rfl⟩
  | cons reg l ih =>
    obtain ⟨u, first, rest⟩ := bind_ok h
    rcases register_keeps first found with kept | ⟨-, d', replaced, same⟩
    · exact ih rest kept
    · obtain ⟨d'', final, same'⟩ := ih rest replaced
      exact ⟨d'', final, same'.trans same⟩

theorem registerAll_kept {l : List (Registration ρ φ)} (h : registerAll validZone s l = .ok t)
    (found : s.queues name = some d) (unhandled : ∀ reg ∈ l, reg.handled? ≠ some name) : t.queues name = some d := by
  induction l generalizing s with
  | nil =>
    obtain rfl := Except.ok.inj h
    exact found
  | cons reg l ih =>
    obtain ⟨u, first, rest⟩ := bind_ok h
    rcases register_keeps first found with kept | ⟨handled, -⟩
    · exact ih rest kept fun reg member => unhandled reg (List.mem_cons_of_mem _ member)
    · exact (unhandled reg List.mem_cons_self handled).elim

theorem registerAll_agrees {l : List (Registration ρ φ)} (h : registerAll validZone s l = .ok t) {reg : Registration ρ φ}
    (member : reg ∈ l) (defines : Defines reg name r) : ∃ d, t.queues name = some d ∧ d.fingerprint = r.fingerprint := by
  obtain ⟨before, after, rfl⟩ := List.append_of_mem member
  obtain ⟨u, -, rest⟩ := registerAll_append.mp h
  obtain ⟨v, step, rest⟩ := bind_ok rest
  obtain ⟨d, found, same⟩ := register_defines step defines
  obtain ⟨d', final, same'⟩ := registerAll_fingerprint rest found
  exact ⟨d', final, same'.trans same⟩

theorem register_valid (h : register validZone s reg = .ok t) : Valid validZone reg := by
  cases reg with
  | defineQueue queue config =>
    obtain ⟨r, resolves, -⟩ := register_defineQueue.mp h
    exact ⟨r, resolves⟩
  | handle queue handler options =>
    obtain ⟨-, r, resolved, resolves, resolvesHandler, -⟩ := register_handle.mp h
    exact ⟨⟨r, resolves⟩, resolved, resolvesHandler⟩
  | schedule => exact (register_schedule.mp h).1

theorem registerAll_valid {l : List (Registration ρ φ)} (h : registerAll validZone s l = .ok t) :
    ∀ reg ∈ l, Valid validZone reg := by
  intro reg member
  obtain ⟨before, after, rfl⟩ := List.append_of_mem member
  obtain ⟨u, -, rest⟩ := registerAll_append.mp h
  obtain ⟨v, step, -⟩ := bind_ok rest
  exact register_valid step

/-- A registration that finds its own entry in the map is refused; the others leave the map. -/
def SetsOnce {β : Type} (validZone : Text → Bool) (map : Registry ρ φ → Text → Option β)
    (sets : Registration ρ φ → Option Text) : Prop :=
  ∀ s t reg, register validZone s reg = .ok t →
    (sets reg = none ∧ map t = map s) ∨
      ∃ name b, sets reg = some name ∧ map s name = none ∧ map t = Function.update (map s) name (some b)

theorem defineQueue_keeps {queue : Text} {config : QueueConfig ρ}
    (h : register validZone s (.defineQueue queue config) = .ok t) : t.handlers = s.handlers ∧ t.schedules = s.schedules := by
  obtain ⟨r, -, -, effect⟩ := register_defineQueue.mp h
  rcases effect with ⟨-, rfl⟩ | ⟨-, rfl⟩ <;> exact ⟨rfl, rfl⟩

theorem handlers_once : SetsOnce validZone (Registry.handlers (ρ := ρ) (φ := φ)) Registration.handled? := by
  intro s t reg h
  cases reg with
  | defineQueue queue config =>
    exact Or.inl ⟨rfl, (defineQueue_keeps h).1⟩
  | handle queue handler options =>
    obtain ⟨free, r, resolved, -, -, -, rfl⟩ := register_handle.mp h
    exact Or.inr ⟨queue, _, rfl, free, rfl⟩
  | schedule name =>
    obtain ⟨-, -, u, ensured, rfl⟩ := register_schedule.mp h
    rcases ensureDefined_iff.mp ensured with ⟨-, rfl⟩ | ⟨-, _, -, rfl⟩ <;> exact Or.inl ⟨rfl, rfl⟩

theorem schedules_once : SetsOnce validZone (Registry.schedules (ρ := ρ) (φ := φ)) Registration.scheduled? := by
  intro s t reg h
  cases reg with
  | defineQueue queue config =>
    exact Or.inl ⟨rfl, (defineQueue_keeps h).2⟩
  | handle queue handler options =>
    obtain ⟨-, r, resolved, -, -, -, rfl⟩ := register_handle.mp h
    exact Or.inl ⟨rfl, rfl⟩
  | schedule name =>
    obtain ⟨-, free, u, ensured, rfl⟩ := register_schedule.mp h
    rcases ensureDefined_iff.mp ensured with ⟨-, rfl⟩ | ⟨-, _, -, rfl⟩ <;> exact Or.inr ⟨name, _, rfl, free, rfl⟩

theorem SetsOnce.nodup {β : Type} {map : Registry ρ φ → Text → Option β} {sets : Registration ρ φ → Option Text}
    (once : SetsOnce validZone map sets) {l : List (Registration ρ φ)} (h : registerAll validZone s l = .ok t) :
    (l.filterMap sets).Nodup ∧ ∀ name ∈ l.filterMap sets, map s name = none := by
  induction l generalizing s with
  | nil => simp
  | cons reg l ih =>
    obtain ⟨u, first, rest⟩ := bind_ok h
    obtain ⟨distinct, free⟩ := ih rest
    rcases once s u reg first with ⟨quiet, same⟩ | ⟨name, b, named, before, after⟩
    · rw [List.filterMap_cons_none quiet, ← same]
      exact ⟨distinct, free⟩
    · rw [List.filterMap_cons_some named, List.nodup_cons]
      rw [after] at free
      refine ⟨⟨fun again => ?_, distinct⟩, ?_⟩
      · exact (update_none (free name again)).1 rfl
      · intro other member
        rcases List.mem_cons.mp member with rfl | later
        · exact before
        · exact (update_none (free other later)).2

end Keeps

/-! ### What the order can change -/

section Order
variable {l l' : List (Registration ρ φ)} {s t : Registry ρ φ}

def Defined (l : List (Registration ρ φ)) (name : Text) (r : ResolvedQueue ρ) : Prop := ∃ reg ∈ l, Defines reg name r

/-- No order can help registrations that are not: one is out of order by itself, a queue has two handlers,
two schedules or two configurations, or a queue that is only scheduled cannot have the default one. -/
structure Acceptable (validZone : Text → Bool) (l : List (Registration ρ φ)) : Prop where
  valid : ∀ reg ∈ l, Valid validZone reg
  handlers : (l.filterMap Registration.handled?).Nodup
  schedules : (l.filterMap Registration.scheduled?).Nodup
  agree : ∀ name r r', Defined l name r → Defined l name r' → r.fingerprint = r'.fingerprint
  default : ∀ name, (∃ reg ∈ l, reg.scheduled? = some name) → (∀ reg ∈ l, reg.defined? ≠ some name) →
    ∃ d : ResolvedQueue ρ, resolveQueue name .empty = .ok d

/-- A queue that is both scheduled and defined is defined with the default configuration. -/
def DefaultsAgree (l : List (Registration ρ φ)) : Prop :=
  ∀ name, (∃ reg ∈ l, reg.scheduled? = some name) → ∀ r, Defined l name r →
    ∃ d : ResolvedQueue ρ, resolveQueue name .empty = .ok d ∧ d.fingerprint = r.fingerprint

/-- The definitions of a queue without a handler give one rule. -/
def RulesAgree (l : List (Registration ρ φ)) : Prop :=
  ∀ name, (∀ reg ∈ l, reg.handled? ≠ some name) → ∀ r r', Defined l name r → Defined l name r' →
    r.canRedrive = r'.canRedrive

theorem acceptable_of_run (h : registerAll validZone .empty l = .ok t) : Acceptable validZone l := by
  refine ⟨registerAll_valid h, (handlers_once.nodup h).1, (schedules_once.nodup h).1, ?_, ?_⟩
  · intro name r r' ⟨reg, member, defines⟩ ⟨reg', member', defines'⟩
    obtain ⟨d, found, same⟩ := registerAll_agrees h member defines
    obtain ⟨d', found', same'⟩ := registerAll_agrees h member' defines'
    obtain rfl := Option.some.inj (found.symm.trans found')
    exact same.symm.trans same'
  · intro name ⟨reg, member, scheduled⟩ undefined
    have reached := Reached.empty.run h
    rw [List.nil_append] at reached
    cases found : t.queues name with
    | none => exact ((reached.noQueue name found reg member).2 scheduled).elim
    | some d =>
      cases reached.queue name d found with
      | handled member _ defines => exact (undefined _ member defines.defined).elim
      | defined _ member defines => exact (undefined _ member defines.defined).elim
      | default _ _ _ resolves => exact ⟨d, resolves⟩

/-- A schedule comes after a definition of its queue, or makes no difference to the later ones. -/
def EarlyEnough (l : List (Registration ρ φ)) : Prop :=
  ∀ before reg after name, l = before ++ reg :: after → reg.scheduled? = some name →
    (∃ r, Defined before name r) ∨
      ∃ d : ResolvedQueue ρ, resolveQueue name .empty = .ok d ∧ ∀ r, Defined after name r → d.fingerprint = r.fingerprint

theorem Defines.unique {reg : Registration ρ φ} {name : Text} {r r' : ResolvedQueue ρ} (defines : Defines reg name r)
    (defines' : Defines reg name r') : r = r' := by
  obtain ⟨config, given, resolves⟩ := defines.resolves
  obtain ⟨config', given', resolves'⟩ := defines'.resolves
  obtain rfl := Option.some.inj (given.symm.trans given')
  exact Except.ok.inj (resolves.symm.trans resolves')

theorem agrees_next {before after : List (Registration ρ φ)} {reg : Registration ρ φ} {name : Text} {r : ResolvedQueue ρ}
    (acceptable : Acceptable validZone (before ++ reg :: after)) (early : EarlyEnough (before ++ reg :: after))
    (reached : Reached before s) (defines : Defines reg name r) : Agrees s name r := by
  intro existing found
  have next : Defined (before ++ reg :: after) name r := ⟨reg, by simp, defines⟩
  cases reached.queue name existing found with
  | handled member _ defines' => exact acceptable.agree name _ _ ⟨_, List.mem_append_left _ member, defines'⟩ next
  | defined _ member defines' => exact acceptable.agree name _ _ ⟨_, List.mem_append_left _ member, defines'⟩ next
  | default undefined member scheduled resolves =>
    obtain ⟨first, later, rfl⟩ := List.append_of_mem member
    rcases early first _ (later ++ reg :: after) name
      (by simp) scheduled with ⟨r', reg', found', defines'⟩ | ⟨d, resolves', same⟩
    · exact (undefined reg' (List.mem_append_left _ found') defines'.defined).elim
    · obtain rfl := Except.ok.inj (resolves.symm.trans resolves')
      exact same r ⟨reg, by simp, defines⟩

theorem nodup_free {α : Type} {f : α → Option Text} {before after : List α} {a : α} {name : Text}
    (distinct : ((before ++ a :: after).filterMap f).Nodup) (named : f a = some name) : ∀ b ∈ before, f b ≠ some name := by
  intro b member same
  rw [List.filterMap_append, List.filterMap_cons_some named] at distinct
  exact (List.nodup_append.mp distinct).2.2 name (List.mem_filterMap.mpr ⟨b, member, same⟩) name List.mem_cons_self rfl

theorem MadeBy.free {β : Type} {map : Text → Option β} {sets : Registration ρ φ → Option Text}
    {makes : Registration ρ φ → Text → β → Prop} (made : MadeBy l map sets makes)
    (names : ∀ reg name b, makes reg name b → sets reg = some name) {name : Text} (absent : ∀ reg ∈ l, sets reg ≠ some name) :
    map name = none := by
  cases found : map name with
  | none => rfl
  | some b =>
    obtain ⟨reg, member, maker⟩ := made.made name b found
    exact (absent reg member (names reg name b maker)).elim

theorem Handles.name {reg : Registration ρ φ} {name : Text} {h : RegisteredHandler ρ φ} (handles : Handles reg name h) :
    reg.handled? = some name := by
  obtain ⟨options, rfl, -⟩ := handles.handled
  rfl

theorem Schedules.name {reg : Registration ρ φ} {name : Text} {j : ScheduledJob} (schedules : Schedules reg name j) :
    reg.scheduled? = some name := by
  obtain ⟨cron, data, tz, rfl, -⟩ := schedules.scheduled
  rfl

theorem exists_register {before after : List (Registration ρ φ)} {reg : Registration ρ φ}
    (acceptable : Acceptable validZone (before ++ reg :: after)) (early : EarlyEnough (before ++ reg :: after))
    (reached : Reached before s) : ∃ t, register validZone s reg = .ok t := by
  have valid := acceptable.valid reg (by simp)
  cases reg with
  | defineQueue queue config =>
    obtain ⟨r, resolves⟩ := valid
    have agrees : Agrees s queue r := agrees_next acceptable early reached ⟨rfl, config, rfl, resolves⟩
    by_cases absent : s.queues queue = none
    · exact ⟨_, register_defineQueue.mpr ⟨r, resolves, agrees, Or.inr ⟨absent, rfl⟩⟩⟩
    · exact ⟨_, register_defineQueue.mpr ⟨r, resolves, agrees, Or.inl ⟨absent, rfl⟩⟩⟩
  | handle queue handler options =>
    obtain ⟨⟨r, resolves⟩, h, resolvesHandler⟩ := valid
    have agrees : Agrees s queue r := agrees_next acceptable early reached ⟨rfl, options.config, rfl, resolves⟩
    have free := reached.handlers.free (fun _ _ _ => Handles.name) (nodup_free acceptable.handlers rfl)
    exact ⟨_, register_handle.mpr ⟨free, r, h, resolves, resolvesHandler, agrees, rfl⟩⟩
  | schedule name cron data tz =>
    have free := reached.schedules.free (fun _ _ _ => Schedules.name) (nodup_free acceptable.schedules rfl)
    have ensured : ∃ u, ensureDefined s name = .ok u := by
      by_cases absent : s.queues name = none
      · have undefined : ∀ r, ¬Defined before name r := by
          intro r ⟨reg, member, defines⟩
          exact (reached.noQueue name absent reg member).1 defines.defined
        rcases early before _ after name rfl rfl with ⟨r, defined⟩ | ⟨d, resolves, -⟩
        · exact (undefined r defined).elim
        · exact ⟨_, ensureDefined_iff.mpr (Or.inr ⟨absent, d, resolves, rfl⟩)⟩
      · exact ⟨_, ensureDefined_iff.mpr (Or.inl ⟨absent, rfl⟩)⟩
    obtain ⟨u, ensured⟩ := ensured
    exact ⟨_, register_schedule.mpr ⟨valid, free, u, ensured, rfl⟩⟩

theorem exists_run (acceptable : Acceptable validZone l) (early : EarlyEnough l) :
    ∃ t, registerAll validZone .empty l = .ok t := by
  have general : ∀ before after : List (Registration ρ φ), l = before ++ after →
      ∃ t, registerAll validZone .empty before = .ok t := by
    intro before
    induction before using List.reverseRecOn with
    | nil => exact fun _ _ => ⟨_, rfl⟩
    | append_singleton before reg ih =>
      intro after shape
      rw [List.append_assoc, List.singleton_append] at shape
      obtain ⟨s, run⟩ := ih (reg :: after) shape
      have reached := Reached.empty.run run
      rw [List.nil_append] at reached
      subst shape
      obtain ⟨t, step⟩ := exists_register acceptable early reached
      exact ⟨t, registerAll_append.mpr ⟨s, run, bind_ok_iff.mpr ⟨t, step, rfl⟩⟩⟩
  exact general l [] (List.append_nil l).symm

/-! ### Orders of the same registrations -/

theorem Defined.perm (perm : l.Perm l') {name : Text} {r : ResolvedQueue ρ} (defined : Defined l name r) : Defined l' name r := by
  obtain ⟨reg, member, defines⟩ := defined
  exact ⟨reg, perm.mem_iff.mp member, defines⟩

theorem Acceptable.perm (acceptable : Acceptable validZone l) (perm : l.Perm l') : Acceptable validZone l' := by
  refine ⟨?_, ?_, ?_, ?_, ?_⟩
  · exact fun reg member => acceptable.valid reg (perm.mem_iff.mpr member)
  · exact (perm.filterMap _).nodup_iff.mp acceptable.handlers
  · exact (perm.filterMap _).nodup_iff.mp acceptable.schedules
  · exact fun name r r' defined defined' => acceptable.agree name r r' (defined.perm perm.symm) (defined'.perm perm.symm)
  · intro name ⟨reg, member, scheduled⟩ undefined
    exact acceptable.default name ⟨reg, perm.mem_iff.mpr member, scheduled⟩
      fun reg member => undefined reg (perm.mem_iff.mp member)

theorem Source.perm (perm : l.Perm l') {name : Text} {r : ResolvedQueue ρ} (source : Source l name r) : Source l' name r := by
  cases source with
  | handled member handles defines => exact .handled (perm.mem_iff.mp member) handles defines
  | defined unhandled member defines =>
    exact .defined (fun reg member => unhandled reg (perm.mem_iff.mpr member)) (perm.mem_iff.mp member) defines
  | default undefined member scheduled resolves =>
    exact .default (fun reg member => undefined reg (perm.mem_iff.mpr member)) (perm.mem_iff.mp member) scheduled resolves

theorem MadeBy.perm {β : Type} {map : Text → Option β} {sets : Registration ρ φ → Option Text}
    {makes : Registration ρ φ → Text → β → Prop} (perm : l.Perm l') (made : MadeBy l map sets makes) :
    MadeBy l' map sets makes := by
  refine ⟨?_, fun name absent reg member => made.unset name absent reg (perm.mem_iff.mpr member)⟩
  intro name b found
  obtain ⟨reg, member, maker⟩ := made.made name b found
  exact ⟨reg, perm.mem_iff.mp member, maker⟩

theorem Reached.perm (perm : l.Perm l') (reached : Reached l s) : Reached l' s := by
  refine ⟨fun name r found => (reached.queue name r found).perm perm, ?_, reached.handlers.perm perm, reached.schedules.perm perm⟩
  exact fun name absent reg member => reached.noQueue name absent reg (perm.mem_iff.mpr member)

theorem nodup_unique {α : Type} {f : α → Option Text} {as : List α} (distinct : (as.filterMap f).Nodup) {a b : α} {name : Text}
    (member : a ∈ as) (member' : b ∈ as) (named : f a = some name) (named' : f b = some name) : a = b := by
  obtain ⟨before, after, rfl⟩ := List.append_of_mem member
  rcases List.mem_append.mp member' with earlier | later
  · exact (nodup_free distinct named b earlier named').elim
  rcases List.mem_cons.mp later with rfl | later
  · rfl
  · rw [List.filterMap_append, List.filterMap_cons_some named] at distinct
    have fresh := (List.nodup_cons.mp (List.nodup_append.mp distinct).2.1).1
    exact (fresh (List.mem_filterMap.mpr ⟨b, later, named'⟩)).elim

theorem MadeBy.unique {β : Type} {map map' : Text → Option β} {sets : Registration ρ φ → Option Text}
    {makes : Registration ρ φ → Text → β → Prop} (made : MadeBy l map sets makes) (made' : MadeBy l map' sets makes)
    (names : ∀ reg name b, makes reg name b → sets reg = some name) (distinct : (l.filterMap sets).Nodup)
    (single : ∀ reg name b b', makes reg name b → makes reg name b' → b = b') : map = map' := by
  funext name
  cases found : map name with
  | none => exact (made'.free names (made.unset name found)).symm
  | some b =>
    cases found' : map' name with
    | none =>
      obtain ⟨reg, member, maker⟩ := made.made name b found
      exact (made'.unset name found' reg member (names reg name b maker)).elim
    | some b' =>
      obtain ⟨reg, member, maker⟩ := made.made name b found
      obtain ⟨reg', member', maker'⟩ := made'.made name b' found'
      obtain rfl := nodup_unique distinct member member' (names reg name b maker) (names reg' name b' maker')
      rw [single reg name b b' maker maker']

theorem Handles.unique {reg : Registration ρ φ} {name : Text} {h h' : RegisteredHandler ρ φ} (handles : Handles reg name h)
    (handles' : Handles reg name h') : h = h' := by
  obtain ⟨options, rfl, resolves, resolved⟩ := handles.handled
  obtain ⟨options', same, resolves', resolved'⟩ := handles'.handled
  obtain ⟨-, sameFn, rfl⟩ := Registration.handle.inj same
  have sameQueue := Except.ok.inj (resolves.symm.trans resolves')
  have sameOptions := Except.ok.inj (resolved.symm.trans resolved')
  obtain ⟨_, _, _⟩ := h
  obtain ⟨_, _, _⟩ := h'
  simp only at sameFn sameQueue sameOptions
  subst sameFn sameQueue sameOptions
  rfl

theorem Schedules.unique {reg : Registration ρ φ} {name : Text} {j j' : ScheduledJob} (schedules : Schedules reg name j)
    (schedules' : Schedules reg name j') : j = j' := by
  obtain ⟨cron, data, tz, rfl, rfl⟩ := schedules.scheduled
  obtain ⟨cron', data', tz', same, rfl⟩ := schedules'.scheduled
  obtain ⟨-, rfl, rfl, rfl⟩ := Registration.schedule.inj same
  rfl

theorem Source.unique {name : Text} {r r' : ResolvedQueue ρ} (acceptable : Acceptable validZone l) (rules : RulesAgree l)
    (source : Source l name r) (source' : Source l name r') : r = r' := by
  cases source with
  | handled member handles defines =>
    cases source' with
    | handled member' handles' defines' =>
      obtain rfl := nodup_unique acceptable.handlers member member' handles handles'
      exact defines.unique defines'
    | defined unhandled _ _ => exact (unhandled _ member handles).elim
    | default undefined _ _ _ => exact (undefined _ member defines.defined).elim
  | defined unhandled member defines =>
    cases source' with
    | handled member' handles' _ => exact (unhandled _ member' handles').elim
    | defined _ member' defines' =>
      have sameRule := rules name unhandled r r' ⟨_, member, defines⟩ ⟨_, member', defines'⟩
      have same := acceptable.agree name r r' ⟨_, member, defines⟩ ⟨_, member', defines'⟩
      obtain ⟨config, _, resolves⟩ := defines.resolves
      obtain ⟨config', _, resolves'⟩ := defines'.resolves
      have resolved := (fingerprint_eq (resolveQueue_ok resolves) (resolveQueue_ok resolves')).mp same
      obtain ⟨_, _, _⟩ := r
      obtain ⟨_, _, _⟩ := r'
      simp only at sameRule same resolved
      subst sameRule same resolved
      rfl
    | default undefined _ _ _ => exact (undefined _ member defines.defined).elim
  | default undefined member scheduled resolves =>
    cases source' with
    | handled member' _ defines' => exact (undefined _ member' defines'.defined).elim
    | defined _ member' defines' => exact (undefined _ member' defines'.defined).elim
    | default _ _ _ resolves' => exact Except.ok.inj (resolves.symm.trans resolves')

theorem Source.mentions {name : Text} {r : ResolvedQueue ρ} (source : Source l name r) :
    ∃ reg ∈ l, reg.defined? = some name ∨ reg.scheduled? = some name := by
  cases source with
  | handled member _ defines => exact ⟨_, member, Or.inl defines.defined⟩
  | defined _ member defines => exact ⟨_, member, Or.inl defines.defined⟩
  | default _ member scheduled _ => exact ⟨_, member, Or.inr scheduled⟩

theorem Reached.unique (acceptable : Acceptable validZone l) (rules : RulesAgree l) (reached : Reached l s)
    (reached' : Reached l t) : s = t := by
  have absent : ∀ {s t : Registry ρ φ}, Reached l s → Reached l t → ∀ name, s.queues name = none → t.queues name = none := by
    intro s t reached reached' name missing
    cases found : t.queues name with
    | none => rfl
    | some r =>
      obtain ⟨reg, member, mentions⟩ := (reached'.queue name r found).mentions
      obtain ⟨undefined, unscheduled⟩ := reached.noQueue name missing reg member
      exact (mentions.elim undefined unscheduled).elim
  refine Registry.ext ?_ ?_ ?_
  · funext name
    cases found : s.queues name with
    | none => exact (absent reached reached' name found).symm
    | some r =>
      cases found' : t.queues name with
      | none =>
        rw [absent reached' reached name found'] at found
        cases found
      | some r' => rw [(reached.queue name r found).unique acceptable rules (reached'.queue name r' found')]
  · exact reached.handlers.unique reached'.handlers (fun _ _ _ => Handles.name) acceptable.handlers fun _ _ _ _ => Handles.unique
  · exact reached.schedules.unique reached'.schedules (fun _ _ _ => Schedules.name) acceptable.schedules
      fun _ _ _ _ => Schedules.unique

/-! ### When the order makes no difference -/

theorem outcome_some : outcome validZone l = some s ↔ registerAll validZone .empty l = .ok s := by
  unfold outcome
  cases registerAll validZone .empty l <;> simp

/-- A queue that no registration defines has no definition, and the other way round. -/
theorem Acceptable.undefined (acceptable : Acceptable validZone l) {name : Text} (none : ¬∃ r, Defined l name r) :
    ∀ reg ∈ l, reg.defined? ≠ some name := by
  intro reg member defined
  obtain ⟨r, defines⟩ := (acceptable.valid reg member).defines defined
  exact none ⟨r, reg, member, defines⟩

theorem earlyEnough_of_defaults (acceptable : Acceptable validZone l) (defaults : DefaultsAgree l) : EarlyEnough l := by
  intro before reg after name shape scheduled
  have present : ∃ reg ∈ l, reg.scheduled? = some name := ⟨reg, by simp [shape], scheduled⟩
  have later : ∀ r, Defined after name r → Defined l name r :=
    fun r ⟨reg', member, defines⟩ => ⟨reg', by simp [shape, member], defines⟩
  by_cases defined : ∃ r, Defined l name r
  · obtain ⟨r, defined⟩ := defined
    obtain ⟨d, resolves, same⟩ := defaults name present r defined
    exact Or.inr ⟨d, resolves, fun r' found => same.trans (acceptable.agree name r r' defined (later r' found))⟩
  · obtain ⟨d, resolves⟩ := acceptable.default name present (acceptable.undefined defined)
    exact Or.inr ⟨d, resolves, fun r found => (defined ⟨r, later r found⟩).elim⟩

theorem earlyEnough_schedules_last {definitions schedules : List (Registration ρ φ)}
    (acceptable : Acceptable validZone (definitions ++ schedules)) (first : ∀ reg ∈ definitions, reg.scheduled? = none)
    (last : ∀ reg ∈ schedules, reg.defined? = none) : EarlyEnough (definitions ++ schedules) := by
  intro before reg after name shape scheduled
  have present : ∃ reg ∈ definitions ++ schedules, reg.scheduled? = some name := ⟨reg, by simp [shape], scheduled⟩
  have after_definitions : ∃ between, before = definitions ++ between := by
    rcases List.append_eq_append_iff.mp shape with ⟨between, split, -⟩ | ⟨between, split, rest⟩
    · exact ⟨between, split⟩
    · cases between with
      | nil => exact ⟨[], by simpa using split.symm⟩
      | cons head tail =>
        obtain ⟨rfl, -⟩ := List.cons.inj rest
        rw [first reg (by simp [split])] at scheduled
        cases scheduled
  obtain ⟨between, rfl⟩ := after_definitions
  by_cases defined : ∃ r, Defined (definitions ++ schedules) name r
  · obtain ⟨r, reg', member, defines⟩ := defined
    rcases List.mem_append.mp member with early | late
    · exact Or.inl ⟨r, reg', List.mem_append_left _ early, defines⟩
    · have impossible := defines.defined
      rw [last reg' late] at impossible
      cases impossible
  · obtain ⟨d, resolves⟩ := acceptable.default name present (acceptable.undefined defined)
    refine Or.inr ⟨d, resolves, fun r found => (defined ⟨r, ?_⟩).elim⟩
    obtain ⟨reg', member, defines⟩ := found
    exact ⟨reg', by simp [shape, member], defines⟩

theorem exists_order (acceptable : Acceptable validZone l) : ∃ l₁ t, l₁.Perm l ∧ registerAll validZone .empty l₁ = .ok t := by
  let definition : Registration ρ φ → Bool := fun reg => reg.scheduled?.isNone
  have perm : (l.filter definition ++ l.filter fun reg => !definition reg).Perm l := List.filter_append_perm definition l
  have first : ∀ reg ∈ l.filter definition, reg.scheduled? = none := by simp [definition]
  have last : ∀ reg ∈ l.filter fun reg => !definition reg, reg.defined? = none := by
    intro reg member
    cases reg with
    | defineQueue => simp [definition, Registration.scheduled?] at member
    | handle => simp [definition, Registration.scheduled?] at member
    | schedule => rfl
  have acceptable' := acceptable.perm perm.symm
  obtain ⟨t, run⟩ := exists_run acceptable' (earlyEnough_schedules_last acceptable' first last)
  exact ⟨_, t, perm, run⟩

theorem register_empty_defines {reg : Registration ρ φ} {name : Text} {r : ResolvedQueue ρ}
    (h : register validZone .empty reg = .ok t) (defines : Defines reg name r) : t.queues name = some r := by
  have reached := Reached.empty.step h
  obtain ⟨d, found, -⟩ := register_defines h defines
  have only : ∀ reg' ∈ [] ++ [reg], reg' = reg := by simp
  cases reached.queue name d found with
  | handled member _ defines' =>
    obtain rfl := only _ member
    rw [found, defines.unique defines']
  | defined _ member defines' =>
    obtain rfl := only _ member
    rw [found, defines.unique defines']
  | default undefined _ _ _ => exact (undefined reg (by simp) defines.defined).elim

theorem register_empty_schedule {reg : Registration ρ φ} {name : Text} (h : register validZone .empty reg = .ok t)
    (scheduled : reg.scheduled? = some name) : ∃ d, resolveQueue name .empty = .ok d ∧ t.queues name = some d := by
  have reached := Reached.empty.step h
  have only : ∀ reg' ∈ [] ++ [reg], reg'.defined? ≠ some name := by
    cases reg with
    | schedule => simp [Registration.defined?]
    | defineQueue => cases scheduled
    | handle => cases scheduled
  cases found : t.queues name with
  | none => exact ((reached.noQueue name found reg (by simp)).2 scheduled).elim
  | some d =>
    cases reached.queue name d found with
    | handled member _ defines => exact (only _ member defines.defined).elim
    | defined _ member defines => exact (only _ member defines.defined).elim
    | default _ _ _ resolves => exact ⟨d, resolves, rfl⟩

/-- The order of registrations makes no difference exactly if none can be accepted or, first, the queues
both scheduled and defined have the default configuration, and second, the definitions of a queue without
a handler give one rule. -/
theorem registration_order_iff (validZone : Text → Bool) (l : List (Registration ρ φ)) :
    (∀ l₁ l₂, l₁.Perm l → l₂.Perm l → outcome validZone l₁ = outcome validZone l₂) ↔
      (Acceptable validZone l → DefaultsAgree l ∧ RulesAgree l) := by
  constructor
  · intro same acceptable
    obtain ⟨l₀, t₀, perm₀, run₀⟩ := exists_order acceptable
    -- one accepted order, so every order is accepted with the same maps
    have every : ∀ l₁, l₁.Perm l → registerAll validZone .empty l₁ = .ok t₀ := by
      intro l₁ perm₁
      rw [← outcome_some, same l₁ l₀ perm₁ perm₀, outcome_some, run₀]
    have front : ∀ reg ∈ l, ∃ u rest, (reg :: rest).Perm l ∧ register validZone .empty reg = .ok u ∧
        registerAll validZone u rest = .ok t₀ := by
      intro reg member
      obtain ⟨before, after, rfl⟩ := List.append_of_mem member
      have perm : (reg :: (before ++ after)).Perm (before ++ reg :: after) := List.perm_middle.symm
      obtain ⟨u, first, rest⟩ := bind_ok (every _ perm)
      exact ⟨u, _, perm, first, rest⟩
    refine ⟨?_, ?_⟩
    · intro name ⟨reg, member, scheduled⟩ r ⟨reg', member', defines⟩
      obtain ⟨u, rest, perm, first, run⟩ := front reg member
      obtain ⟨d, resolves, found⟩ := register_empty_schedule first scheduled
      obtain ⟨d', final, fingerprint⟩ := registerAll_fingerprint run found
      obtain ⟨d'', final', fingerprint'⟩ := registerAll_agrees run₀ (perm₀.mem_iff.mpr member') defines
      obtain rfl := Option.some.inj (final.symm.trans final')
      exact ⟨d, resolves, fingerprint.symm.trans fingerprint'⟩
    · intro name unhandled r r' ⟨reg, member, defines⟩ ⟨reg', member', defines'⟩
      have final : ∀ reg ∈ l, ∀ r, Defines reg name r → t₀.queues name = some r := by
        intro reg member r defines
        obtain ⟨u, rest, perm, first, run⟩ := front reg member
        refine registerAll_kept run (register_empty_defines first defines) ?_
        exact fun other later => unhandled other (perm.mem_iff.mp (List.mem_cons_of_mem _ later))
      have both := (final reg member r defines).symm.trans (final reg' member' r' defines')
      rw [Option.some.inj both]
  · intro confluent l₁ l₂ perm₁ perm₂
    by_cases acceptable : Acceptable validZone l
    · obtain ⟨defaults, rules⟩ := confluent acceptable
      have run : ∀ l₁, l₁.Perm l → ∃ t, registerAll validZone .empty l₁ = .ok t ∧ Reached l t := by
        intro l₁ perm
        have defaults₁ : DefaultsAgree l₁ := fun name ⟨reg, member, scheduled⟩ r defined =>
          defaults name ⟨reg, perm.mem_iff.mp member, scheduled⟩ r (defined.perm perm)
        have acceptable₁ := acceptable.perm perm.symm
        obtain ⟨t, run⟩ := exists_run acceptable₁ (earlyEnough_of_defaults acceptable₁ defaults₁)
        exact ⟨t, run, (Reached.empty.run run).perm perm⟩
      obtain ⟨t₁, run₁, reached₁⟩ := run l₁ perm₁
      obtain ⟨t₂, run₂, reached₂⟩ := run l₂ perm₂
      rw [outcome_some.mpr run₁, outcome_some.mpr run₂, reached₁.unique acceptable rules reached₂]
    · have refused : ∀ l₁, l₁.Perm l → outcome validZone l₁ = none := by
        intro l₁ perm
        cases accepted : outcome validZone l₁ with
        | none => rfl
        | some t => exact (acceptable ((acceptable_of_run (outcome_some.mp accepted)).perm perm)).elim
      rw [refused l₁ perm₁, refused l₂ perm₂]

end Order

def fiveRetries : QueueConfig Unit := plainOptions (some 5) none none none

def nightly (retryLimit : Option ℕ) : Resolved := plainQueue (text "nightly") retryLimit none none none

theorem nightly_default : resolveQueue (text "nightly") (QueueConfig.empty : QueueConfig Unit) = .ok ((nightly none).withRule none) :=
  resolveQueue_plain none none none none (by decide) (by decide) nofun (by decide) (by decide) (by decide) (by decide)
    (by decide) (by decide)

theorem nightly_five : resolveQueue (text "nightly") fiveRetries = .ok ((nightly (some 5)).withRule none) :=
  resolveQueue_plain (some 5) none none none (by decide) (by decide) nofun (by decide) (by decide) (by decide) (by decide)
    (by decide) (by decide)

def nightlySchedule : Registration Unit Unit := .schedule (text "nightly") (text "0 2 * * *") none none

def nightlyDefinition : Registration Unit Unit := .defineQueue (text "nightly") fiveRetries

/-- The definition is accepted before the schedule and refused after it. -/
theorem schedule_first_refused :
    outcome (fun _ => true) [nightlyDefinition, nightlySchedule] ≠ outcome (fun _ => true) [nightlySchedule, nightlyDefinition] := by
  have defines : Defines nightlyDefinition (text "nightly") ((nightly (some 5)).withRule none) :=
    ⟨rfl, fiveRetries, rfl, nightly_five⟩
  have valid : Valid (fun _ => true) nightlySchedule := ⟨by decide, by decide, rfl⟩
  have definition : register (fun _ => true) .empty nightlyDefinition =
      .ok (Registry.empty.setQueue (text "nightly") ((nightly (some 5)).withRule none)) := by
    refine register_defineQueue.mpr ⟨_, nightly_five, ?_, Or.inr ⟨rfl, rfl⟩⟩
    intro existing found
    cases found
  have accepted : ∃ t, registerAll (fun _ => true) .empty [nightlyDefinition, nightlySchedule] = .ok t := by
    have present : (Registry.empty.setQueue (text "nightly") ((nightly (some 5)).withRule none) : Registry Unit
      Unit).queues (text "nightly") ≠ none := by
      rw [setQueue_same]
      nofun
    have schedule := register_schedule.mpr ⟨valid, rfl, _, ensureDefined_iff.mpr (Or.inl ⟨present, rfl⟩), rfl⟩
    exact ⟨_, bind_ok_iff.mpr ⟨_, definition, bind_ok_iff.mpr ⟨_, schedule, rfl⟩⟩⟩
  have refused : ∀ t, registerAll (fun _ => true) .empty [nightlySchedule, nightlyDefinition] ≠ .ok t := by
    intro t run
    obtain ⟨u, first, rest⟩ := bind_ok run
    obtain ⟨d, resolves, found⟩ := register_empty_schedule first rfl
    obtain rfl := Except.ok.inj (nightly_default.symm.trans resolves)
    obtain ⟨d', final, kept⟩ := registerAll_fingerprint rest found
    obtain ⟨d'', final', agrees⟩ := registerAll_agrees run (by simp) defines
    obtain rfl := Option.some.inj (final.symm.trans final')
    have same := (fingerprint_eq (resolveQueue_ok nightly_default) (resolveQueue_ok nightly_five)).mp (kept.symm.trans agrees)
    exact absurd (congrArg (fun r : Resolved => r.queue.retryLimit) same) (by decide)
  obtain ⟨t, accepted⟩ := accepted
  intro same
  rw [outcome_some.mpr accepted] at same
  exact refused t (outcome_some.mp same.symm)

end Queues
