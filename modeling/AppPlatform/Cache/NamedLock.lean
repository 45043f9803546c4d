import AppPlatform.Cache.LockOwnership
import AppPlatform.Lib.Memo

/-!
# Locks by name

`acquireLock` takes a lock with `tryLock` and remembers it under its key; `releaseLock` has no handle, and
releases the oldest lock that is remembered. Memory is bounded: when many keys are remembered the entries
whose lease has ended are dropped, and of one key all but the last few. Replies arrive in the order in which
the server ran their commands.
-/

namespace Locks.Named
open Js KeyValue

/-- An entry of `held`: whose lock it is, and the end of its lease on the clock of this process. -/
structure Entry (ι : Type*) where
  holder : ι
  till : ℕ

inductive Stage where
  | idle
  | trying (key : Text) (ttlMs : ℕ)
  | granted (key : Text)
  | holding (key : Text)
  | failed
  /-- `late` tells whether the lock had lapsed when it was called. -/
  | released (key : Text) (late : Bool)
  deriving DecidableEq

/-- A lock that was taken, and whose `acquireLock` has not gone on. -/
structure Taken (ι : Type*) where
  holder : ι
  key : Text
  ttlMs : ℕ

inductive Event (ι : Type*) where
  | acquireLock (h : ι) (key : Text) (ttlMs : ℚ) (token : Text) (connected : Bool)
  | run (c : ι ⊕ ι) (call : Call)
  | resume (now : ℕ)
  | releaseLock (h : ι) (connected : Bool)
  | advance (ms : ℕ)

/-- The calls of `acquireLock` are on the left of the calls on locks, those of `releaseLock` on the right. `order` lists the
holders of each key as they took it, and `recent` those that have not called `releaseLock`, if no entry of the key was
dropped since they were remembered: no call reads them. -/
structure State (ι : Type*) where
  locks : Locks.State (ι ⊕ ι)
  held : AList fun _ : Text => List (Entry ι)
  replies : List (Taken ι)
  stage : ι → Stage
  order : Text → List ι
  recent : Text → List ι

variable {ι : Type*} [DecidableEq ι]

def maxKeys : ℕ := 1000

def maxEntries : ℕ := 16

def entriesOf (held : AList fun _ : Text => List (Entry ι)) (key : Text) : List (Entry ι) := (held.lookup key).getD []

abbrev State.entries (s : State ι) (key : Text) : List (Entry ι) := entriesOf s.held key

def pruneKey (now : ℕ) (held : AList fun _ : Text => List (Entry ι)) (key : Text) : AList fun _ : Text => List (Entry ι) :=
  let live := (entriesOf held key).filter fun entry => now < entry.till
  if live = [] then held.erase key else Memo.put key live held

def prune (now : ℕ) (held : AList fun _ : Text => List (Entry ι)) : AList fun _ : Text => List (Entry ι) :=
  if maxKeys ≤ held.keys.length then held.keys.foldl (pruneKey now) held else held

/-- `entries.push`, and `entries.shift` when they are too many. -/
def pushed (entries : List (Entry ι)) (entry : Entry ι) : List (Entry ι) :=
  let entries := entries ++ [entry]
  if maxEntries < entries.length then entries.tail else entries

/-- What `acquireLock` does once it has its lock. -/
def remembered (s : State ι) (now : ℕ) (taken : Taken ι) (replies : List (Taken ι)) : State ι :=
  let held := prune now s.held
  let entries := pushed (entriesOf held taken.key) ⟨taken.holder, now + taken.ttlMs⟩
  let dropped := fun key => (entriesOf held key).length < (s.entries key).length ∨
    key = taken.key ∧ maxEntries < (entriesOf held key).length + 1
  { s with
    held := Memo.put taken.key entries held
    replies := replies
    stage := Function.update s.stage taken.holder (.holding taken.key)
    recent := fun key => (if dropped key then [] else s.recent key) ++ if key = taken.key then [taken.holder] else [] }

def tried (s : State ι) (h : ι) (key : Text) (ttlMs : ℕ) (locks : Locks.State (ι ⊕ ι)) : State ι :=
  match locks.phase (.inl h) with
  | .granted => { s with
      locks := locks
      replies := s.replies ++ [⟨h, key, ttlMs⟩]
      stage := Function.update s.stage h (.granted key)
      order := Function.update s.order key (s.order key ++ [h]) }
  | _ => { s with locks := locks, stage := Function.update s.stage h .failed }

def acquireLock (s : State ι) (h : ι) (key : Text) (locks : Locks.State (ι ⊕ ι)) : State ι :=
  match locks.phase (.inl h) with
  | .setting _ _ ttlMs => { s with locks := locks, stage := Function.update s.stage h (.trying key ttlMs) }
  | _ => { s with locks := locks, stage := Function.update s.stage h .failed }

/-- The holder has lost its key. -/
def lapsed (s : State ι) (h : ι) (key : Text) : Bool :=
  match s.locks.locks (.inl h) with
  | some lock => s.locks.store.get (lockKey key) ≠ some lock.token
  | none => true

def releaseLock (s : State ι) (h : ι) (key : Text) (connected : Bool) : Option (State ι) :=
  let called := { s with
    stage := Function.update s.stage h (.released key (lapsed s h key))
    recent := Function.update s.recent key ((s.recent key).erase h) }
  match s.entries key with
  | [] => some called
  | oldest :: rest =>
    (Locks.step s.locks (.release (.inr h) (.inl oldest.holder) connected)).map fun locks => { called with
      locks := locks
      held := if rest = [] then s.held.erase key else Memo.put key rest s.held }

def step (s : State ι) : Event ι → Option (State ι)
  | .acquireLock h key ttlMs token connected =>
    match s.stage h with
    | .idle => (Locks.step s.locks (.tryLock (.inl h) key ttlMs token connected)).map (acquireLock s h key)
    | _ => none
  | .run (.inl h) call =>
    match s.stage h with
    | .trying key ttlMs => (Locks.step s.locks (.run (.inl h) call)).map (tried s h key ttlMs)
    | _ => none
  | .run (.inr h) call => (Locks.step s.locks (.run (.inr h) call)).map fun locks => { s with locks := locks }
  | .resume now =>
    match s.replies with
    | taken :: replies => some (remembered s now taken replies)
    | [] => none
  | .releaseLock h connected =>
    match s.stage h with
    | .holding key => releaseLock s h key connected
    | _ => none
  | .advance ms => (Locks.step s.locks (.advance ms)).map fun locks => { s with locks := locks }

def Drawn (s : State ι) : Event ι → Prop
  | .acquireLock h key ttlMs token connected => Distinct s.locks (.tryLock (.inl h) key ttlMs token connected)
  | _ => True

/-- Besides, no holder calls `releaseLock` when it has lost its key and an entry of the key was dropped since it was remembered. -/
def Timely (s : State ι) : Event ι → Prop
  | .acquireLock h key ttlMs token connected => Distinct s.locks (.tryLock (.inl h) key ttlMs token connected)
  | .releaseLock h _ => ∀ key, s.stage h = .holding key → lapsed s h key = true → h ∈ s.recent key
  | _ => True

end Locks.Named
