import AppPlatform.Lib.Text

/-!
# Unverified accounts

`purgeWith` and `replaceUnverifiedAccount`, run with nobody else at the database. The rows a query
returns come in an order of the database's choosing.
-/

namespace Identity.Accounts
open Js
variable {ι : Type*}

structure User (ι : Type*) where
  id : ι
  email : Text
  emailVerified : Bool
  createdAt : ℤ
  deriving DecidableEq

structure Account (ι : Type*) where
  userId : ι
  providerId : Text

structure Db (ι : Type*) where
  users : List (User ι)
  accounts : List (Account ι)
  /-- The user of each session. -/
  sessions : List ι

inductive SecurityEvent (ι : Type*) where
  | unverifiedReplaced (userId : ι)
  | unverifiedPurged (userId : ι)

def CREDENTIAL : Text := text "credential"

def unverifiedAccountTtlHours : ℤ := 72

section
variable [DecidableEq ι]

def accountsOf (db : Db ι) (userId : ι) : List (Account ι) := db.accounts.filter (·.userId = userId)

def replaceable (db : Db ι) (userId : ι) (accounts : List (Account ι)) : Bool :=
  if accounts.any (·.providerId ≠ CREDENTIAL) then false else !db.sessions.any (· = userId)

def deleteSessions (db : Db ι) (userId : ι) : Db ι := { db with sessions := db.sessions.filter (· ≠ userId) }

def deleteAccounts (db : Db ι) (userId : ι) : Db ι := { db with accounts := db.accounts.filter (·.userId ≠ userId) }

def deleteRow (db : Db ι) (userId : ι) : Db ι := { db with users := db.users.filter (·.id ≠ userId) }

def deleteUser (db : Db ι) (userId : ι) : Db ι := deleteRow (deleteAccounts (deleteSessions db userId) userId) userId

/-- `findUserByEmail`, then the rule. -/
def replaceUnverifiedAccount (lower : Text → Text) (db : Db ι) (email : Text) : Bool × Db ι × List (SecurityEvent ι) :=
  match db.users.find? (·.email = lower email) with
  | none => (false, db, [])
  | some user =>
    if user.emailVerified then (false, db, [])
    else if !replaceable db user.id (accountsOf db user.id) then (false, db, [])
    else (true, deleteUser db user.id, [.unverifiedReplaced user.id])

def cutoff (now : ℤ) (olderThanHours : Option ℤ) : ℤ := now - olderThanHours.getD unverifiedAccountTtlHours * 3600000

/-- The rows that the query for candidates is about. -/
def old (db : Db ι) (cutoff : ℤ) : List (User ι) := db.users.filter fun u => !u.emailVerified && u.createdAt < cutoff

/-- The query's answer: the first 500, in some order. -/
def Selected (db : Db ι) (cutoff : ℤ) (candidates : List (User ι)) : Prop :=
  ∃ rows : List (User ι), rows.Perm (old db cutoff) ∧ candidates = rows.take 500

/-- The loop: what is purged, what is left and what is reported. -/
def purge (db : Db ι) : List (User ι) → ℕ × Db ι × List (SecurityEvent ι)
  | [] => (0, db, [])
  | u :: candidates =>
    if !replaceable db u.id (accountsOf db u.id) then purge db candidates
    else
      let rest := purge (deleteUser db u.id) candidates
      (rest.1 + 1, rest.2.1, .unverifiedPurged u.id :: rest.2.2)

/-- A run of `purgeWith`. -/
def PurgeWith (db : Db ι) (now : ℤ) (olderThanHours : Option ℤ) (result : ℕ × Db ι × List (SecurityEvent ι)) : Prop :=
  ∃ candidates, Selected db (cutoff now olderThanHours) candidates ∧ result = purge db candidates

end

end Identity.Accounts
