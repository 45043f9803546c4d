import AppPlatform.Lib.KeyValue
import AppPlatform.Lib.Text

/-!
# The mail ledger

One key per message. It holds the token of the attempt that is sending the message, or the id the
provider gave to it.
-/

namespace Mail
open Js

abbrev Store := KeyValue.Store Text Text

def MAIL_CLAIM_LEASE_SECONDS : ℕ := 60

def MAIL_SENT_TTL_SECONDS : ℕ := 7 * 24 * 60 * 60

inductive ClaimResult where
  | claimed (token : Text)
  | sent (id : Text)
  | inFlight
  deriving DecidableEq

def claimedValue (token : Text) : Text := text "claimed:" ++ token

def sentValue (id : Text) : Text := text "sent:" ++ id

/-- The script: its reply and what it leaves. -/
def CLAIM (s : Store) (key token : Text) (leaseSeconds : ℕ) : Text × Store :=
  match s.get key with
  | none => (text "claimed", s.set key (claimedValue token) (some (1000 * leaseSeconds)))
  | some v => if v.take 5 = text "sent:" then (v, s) else (text "in-flight", s)

def claimResult (reply token : Text) : ClaimResult :=
  if reply = text "claimed" then .claimed token
  else if (text "sent:").isPrefixOf reply then .sent (reply.drop 5)
  else .inFlight

def claim (s : Store) (key token : Text) (leaseSeconds : ℕ) : ClaimResult × Store :=
  (claimResult (CLAIM s key token leaseSeconds).1 token, (CLAIM s key token leaseSeconds).2)

def markSent (s : Store) (key id : Text) (ttlSeconds : ℕ) : Store :=
  s.set key (sentValue id) (some (1000 * ttlSeconds))

def renew (s : Store) (key token : Text) (leaseSeconds : ℕ) : Store :=
  s.expireIf key (claimedValue token) (1000 * leaseSeconds)

def release (s : Store) (key token : Text) : Store := s.delIf key (claimedValue token)

theorem claimed_ne_sent (token id : Text) : claimedValue token ≠ sentValue id := by
  intro same
  have heads := congrArg List.head? same
  exact absurd heads (by simp [claimedValue, sentValue, text, unitsOf])

theorem claimedValue_injective {t t' : Text} (same : claimedValue t = claimedValue t') : t = t' :=
  List.append_cancel_left same

theorem claim_absent {s : Store} {key : Text} (absent : s.get key = none) (token : Text) (leaseSeconds : ℕ) :
    claim s key token leaseSeconds =
      (.claimed token, s.set key (claimedValue token) (some (1000 * leaseSeconds))) := by
  rw [claim, CLAIM, absent]
  rfl

theorem claim_present {s : Store} {key v : Text} (present : s.get key = some v) (token : Text) (leaseSeconds : ℕ) :
    (claim s key token leaseSeconds).2 = s := by
  rw [claim, CLAIM, present]
  simp only
  split <;> rfl

theorem claim_granted {s : Store} {key v : Text} (present : s.get key = some v) (token t : Text) (leaseSeconds : ℕ) :
    (claim s key token leaseSeconds).1 ≠ .claimed t := by
  have reply : (CLAIM s key token leaseSeconds).1 ≠ text "claimed" := by
    rw [CLAIM, present]
    simp only
    split
    · rename_i tag
      rintro rfl
      exact absurd tag (by decide)
    · show text "in-flight" ≠ text "claimed"
      decide
  rw [claim, claimResult, if_neg reply]
  split <;> simp

theorem claim_sent {s : Store} {key id : Text} (sent : s.get key = some (sentValue id)) (token : Text)
    (leaseSeconds : ℕ) : claim s key token leaseSeconds = (.sent id, s) := by
  have tag : (sentValue id).take 5 = text "sent:" := rfl
  have reply : claimResult (sentValue id) token = .sent id := by
    have notClaimed : sentValue id ≠ text "claimed" := by
      intro same
      have heads := congrArg List.head? same
      exact absurd heads (by simp [sentValue, text, unitsOf])
    have tagged : (text "sent:").isPrefixOf (sentValue id) = true := List.isPrefixOf_iff_prefix.mpr ⟨id, rfl⟩
    rw [claimResult, if_neg notClaimed, if_pos tagged]
    rfl
  rw [claim, CLAIM, sent]
  simp only [if_pos tag, reply]

theorem claim_held {s : Store} {key v : Text} (held : s.get key = some (claimedValue v)) (token : Text)
    (leaseSeconds : ℕ) : claim s key token leaseSeconds = (.inFlight, s) := by
  have tag : (claimedValue v).take 5 ≠ text "sent:" := by
    rw [show (claimedValue v).take 5 = text "claim" from rfl]
    decide
  rw [claim, CLAIM, held]
  simp only [if_neg tag]
  rfl

/-- A renewal by an attempt that does not own the claim leaves the entry and its deadline alone. -/
theorem renew_other {s : Store} {key token : Text} (notOwn : s.get key ≠ some (claimedValue token)) (leaseSeconds : ℕ) :
    renew s key token leaseSeconds = s := if_neg notOwn

theorem release_other {s : Store} {key token : Text} (notOwn : s.get key ≠ some (claimedValue token)) :
    release s key token = s := if_neg notOwn

end Mail
