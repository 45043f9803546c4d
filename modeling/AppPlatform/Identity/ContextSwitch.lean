import AppPlatform.Identity.ApprovedContexts
import AppPlatform.Identity.ContextSteps

/-!
# A context that was set stays set

A read that found its context lost writes a replacement some awaits later, whatever the session holds by
then. A switch is kept as long as no such write comes after it.
-/

namespace Identity.Context
open Js
variable {ι : Type*} [DecidableEq ι]

/-- The step leaves alone what the session holds: no one writes another context to it, and no read that has loaded
that context is told that its user is no member of it. -/
def Undisturbed (token : Text) (held : Option Text) (s : State ι) : Event ι → Prop
  | .membership r (.value false) => ∀ userId seen found, held = some seen → s.phase r ≠ .checking token userId seen found
  | .update r outcome => outcome ≠ .lost → ∀ contextId, (s.phase r).write? = some (token, contextId) → contextId = held
  | _ => True

/-- The session holds what it was set to. -/
structure Kept (token : Text) (held : Option Text) (s : State ι) : Prop where
  minted : token ∈ s.sessions
  holds : ∀ session, s.session? token = some session → session.contextId = held.elim .null .str

theorem step_kept {c : Config} {token : Text} {held : Option Text} {s t : State ι} {e : Event ι} (kept : Kept token held s)
    (undisturbed : Undisturbed token held s e) (taken : step c s e = some t) : Kept token held t := by
  have did := step_did taken
  refine ⟨did.minted kept.minted, ?_⟩
  intro session found
  cases did.stored found with
  | before old => exact kept.holds session old
  | inserted event inserting unused same => exact (unused kept.minted).elim
  | @written r outcome contextId before event made writes present same =>
    subst event same
    rw [undisturbed made contextId writes]

/-- A `setContext` whose write is made and answered has set the context of the session. -/
theorem written_kept {c : Config} {s t : State ι} {r : ι} {token userId : Text} {next previous : Option Text}
    (minted : token ∈ s.sessions) (setting : s.phase r = .setting token userId next previous)
    (taken : step c s (.update r .done) = some t) : Kept token next t := by
  refine ⟨(step_did taken).minted minted, ?_⟩
  intro session found
  have writes : (s.phase r).write? = some (token, next) := by
    rw [setting]
    rfl
  simp only [step, writes] at taken
  obtain rfl := Option.some.inj taken
  exact writeContext_holds found

def workspaceB : Text := text "0194a000-0000-7000-8000-00000000000b"

/-- No call but these begins to set or clear the context, and none that asked since `base` is told that the user is no member of it. -/
def Alone (token : Text) (held : Option Text) (base s : State ι) : Event ι → Prop
  | .begin _ (.setContext token' _) => token' ≠ token
  | .begin _ (.clearContext ..) => False
  | .membership r (.value false) => ∀ userId seen found, held = some seen → s.phase r = .checking token userId seen found →
      base.phase r = s.phase r
  | _ => True

/-- Session `t` of user `u`, in workspace A: call 0 signs in, call 1 sets A. -/
def switchedToA : List (Event ℕ) :=
  [.begin 0 (.create (text "t") [(text "userId", .str (text "u"))]), .staffHook 0 .passed, .insert 0,
    .begin 1 (.setContext (text "t") (.str workspaceA)), .load 1 (some ⟨.str (text "u"), .null, none⟩), .resume 1,
    .membership 1 (.value true)]

theorem loads_t {s : State ℕ} {p : Phase} {session : Session ℕ} {answer : Found} (waits : p.load? = some (text "t"))
    (present : s.session? (text "t") = some session) (user : answer.userId = session.userId) (token : Text)
    (here : p.load? = some token) : Loads s token (some answer) := by
  rintro _ ⟨⟩
  obtain rfl := Option.some.inj (waits.symm.trans here)
  exact ⟨session, present, user⟩

end Identity.Context
