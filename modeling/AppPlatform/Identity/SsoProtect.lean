import AppPlatform.Identity.SsoCrypto
import AppPlatform.Lib.Rows
import AppPlatform.Lib.Run

/-!
# The patched database adapter

`patch` wraps the methods of an adapter in place, once for each adapter object, and those of every
adapter that a transaction hands to its callback. Such an adapter may have its methods from one that
is patched already: its calls then pass through several wrappers.
-/

namespace Identity.Sso
open Js Rows
variable {κ γ ι : Type*}

def MODEL : Text := text "ssoProvider"

def OIDC_CONFIG : Text := text "oidcConfig"

abbrev Fields (γ : Type*) := Row Text (Cell γ)

structure Database (ι γ : Type*) where
  tables : Tables Text ι Text (Cell γ)
  received : List (Text × Query ι Text (Cell γ))

/-- A call of a method: the model and the arguments. -/
abbrev Method (ι γ : Type*) := Text → Query ι Text (Cell γ) → Database ι γ → Except Thrown
    (List (Fields γ)) × Database ι γ

section
variable [DecidableEq ι]

def write (tables : Tables Text ι Text (Cell γ)) (model : Text) (query : Query ι Text (Cell γ)) : Tables Text ι Text (Cell γ) :=
  Function.update tables model (query.write (tables model))

/-- A method of the adapter as it is made. -/
def unpatched : Method ι γ := fun model query db =>
  (.ok (query.answer (db.tables model)), ⟨write db.tables model query, (model, query) :: db.received⟩)

variable (aes : Aes κ) (ring : Keyring κ)

/-- `{ ...row, oidcConfig: fn(row.oidcConfig) }`, where the row has the field. -/
def mapConfig (fn : Cell γ → Except Thrown (Cell γ)) (row : Fields γ) : Except Thrown (Fields γ) :=
  match row OIDC_CONFIG with
  | some config => (fn config).map fun mapped => Function.update row OIDC_CONFIG (some mapped)
  | none => .ok row

def sealRow (iv : Iv) (data : Fields γ) : Except Thrown (Fields γ) := mapConfig (sealOidcConfig aes ring iv) data

def openRow (row : Fields γ) : Except Thrown (Fields γ) := mapConfig (openOidcConfig aes ring) row

/-- What a wrapper makes of the arguments. -/
def sealQuery (iv : Iv) : Query ι Text (Cell γ) → Except Thrown (Query ι Text (Cell γ))
  | .create id data => (sealRow aes ring iv data).map (.create id)
  | .update found changes => (sealRow aes ring iv changes).map (.update found)
  | .updateMany found changes => (sealRow aes ring iv changes).map (.updateMany found)
  | .findOne found => .ok (.findOne found)
  | .findMany found => .ok (.findMany found)

/-- What a wrapper makes of the answer: that of `updateMany` is a count. -/
def openAnswer (query : Query ι Text (Cell γ)) (rows : List (Fields γ)) : Except Thrown (List (Fields γ)) :=
  match query with
  | .updateMany _ _ => .ok rows
  | .create _ _ | .update _ _ | .findOne _ | .findMany _ => rows.mapM (openRow aes ring)

def wrap (iv : Iv) (original : Method ι γ) : Method ι γ := fun model query db =>
  if model = MODEL then
    match sealQuery aes ring iv query with
    | .error e => (.error e, db)
    | .ok sealed =>
      let answer := original model sealed db
      (answer.1.bind (openAnswer aes ring query), answer.2)
  else original model query db

/-- A method behind some wrappers, each with an `iv` of its own for this call. -/
def method (ivs : ℕ → Iv) : ℕ → Method ι γ
  | 0 => unpatched
  | n + 1 => wrap aes ring (ivs n) (method ivs n)

/-- An adapter object: whether it is in `PATCHED`, and how many wrappers its methods have. -/
structure Adapter where
  wrappers : ℕ
  patched : Bool
  wrapped : patched = true → 0 < wrappers

def patch (adapter : Adapter) : Adapter :=
  if adapter.patched then adapter else ⟨adapter.wrappers + 1, true, fun _ => Nat.succ_pos _⟩

/-! ### Sequences of calls -/

/-- A call, what came of it, and what an adapter would answer that keeps every row as it was written. -/
structure Outcome (ι γ : Type*) where
  model : Text
  query : Query ι Text (Cell γ)
  expected : List (Fields γ)
  answer : Except Thrown (List (Fields γ))

/-- An open transaction: the adapter outside, and what there was when it began. -/
structure Frame (ι γ : Type*) where
  adapter : Adapter
  tables : Tables Text ι Text (Cell γ)
  written : Tables Text ι Text (Cell γ)

structure State (ι γ : Type*) where
  adapter : Adapter
  db : Database ι γ
  /-- The rows as the callers wrote them. -/
  written : Tables Text ι Text (Cell γ)
  outcomes : List (Outcome ι γ)
  frames : List (Frame ι γ)

inductive Event (ι γ : Type*) where
  | call (model : Text) (query : Query ι Text (Cell γ)) (ivs : ℕ → Iv)
  /-- `transaction`, with the adapter it makes for the callback. -/
  | transaction (trx : Adapter)
  | commit
  | rollback

def step (s : State ι γ) : Event ι γ → Option (State ι γ)
  | .call model query ivs =>
    let answer := method aes ring ivs s.adapter.wrappers model query s.db
    some { s with
      db := answer.2
      written := write s.written model query
      outcomes := ⟨model, query, query.answer (s.written model), answer.1⟩ :: s.outcomes }
  | .transaction trx =>
    some { s with adapter := patch trx, frames := ⟨s.adapter, s.db.tables, s.written⟩ :: s.frames }
  | .commit =>
    match s.frames with
    | frame :: rest => some { s with adapter := frame.adapter, frames := rest }
    | [] => none
  | .rollback =>
    match s.frames with
    | frame :: rest => some { s with
        adapter := frame.adapter, frames := rest, db := { s.db with tables := frame.tables }, written := frame.written }
    | [] => none

end

/-- `withEncryptedSsoSecrets`, before any provider was written. -/
def start (made : Adapter) (tables : Tables Text ι Text (Cell γ)) : State ι γ where
  adapter := patch made
  db := ⟨tables, []⟩
  written := tables
  outcomes := []
  frames := []

end Identity.Sso
