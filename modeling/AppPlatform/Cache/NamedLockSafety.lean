import AppPlatform.Cache.NamedLock
import Mathlib.Data.Fintype.Basic
import Mathlib.Data.List.FinRange

/-!
# A late release by name

As long as every call of `releaseLock` is matched by an entry, a holder that has lost its key releases an
older lock than the one that is held, and frees nothing.
-/

namespace Locks.Named
open Js KeyValue
variable {ι : Type*}

/-! ### What is remembered -/

theorem pruneKey_sublist (now : ℕ) (held : AList fun _ : Text => List (Entry ι)) (key key' : Text) :
    (entriesOf (pruneKey now held key) key').Sublist (entriesOf held key') := by
  unfold pruneKey
  dsimp only
  split
  · by_cases here : key' = key
    · subst here
      unfold entriesOf
      rw [AList.lookup_erase]
      exact List.nil_sublist _
    · unfold entriesOf
      rw [AList.lookup_erase_ne here]
  · by_cases here : key' = key
    · subst here
      rw [entriesOf, Memo.lookup_put_same]
      exact List.filter_sublist
    · rw [entriesOf, Memo.lookup_put_ne here]
      exact List.Sublist.refl _

theorem pruneKeys_sublist (now : ℕ) (keys : List Text) (held : AList fun _ : Text => List (Entry ι)) (key : Text) :
    (entriesOf (keys.foldl (pruneKey now) held) key).Sublist (entriesOf held key) := by
  induction keys generalizing held with
  | nil => exact List.Sublist.refl _
  | cons key' keys ih => exact (ih (pruneKey now held key')).trans (pruneKey_sublist now held key' key)

theorem prune_sublist (now : ℕ) (held : AList fun _ : Text => List (Entry ι)) (key : Text) :
    (entriesOf (prune now held) key).Sublist (entriesOf held key) := by
  unfold prune
  split
  · exact pruneKeys_sublist now held.keys held key
  · exact List.Sublist.refl _

theorem pushed_sublist (entries : List (Entry ι)) (entry : Entry ι) : (pushed entries entry).Sublist (entries ++ [entry]) := by
  unfold pushed
  dsimp only
  split
  · exact List.tail_sublist _
  · exact List.Sublist.refl _

theorem length_pushed (entries : List (Entry ι)) (entry : Entry ι) :
    (pushed entries entry).length = if maxEntries < entries.length + 1 then entries.length else entries.length + 1 := by
  unfold pushed
  dsimp only
  rw [List.length_append, List.length_singleton]
  split
  · rw [List.length_tail, List.length_append, List.length_singleton, Nat.add_sub_cancel]
  · rw [List.length_append, List.length_singleton]

theorem entriesOf_put_same (key : Text) (entries : List (Entry ι)) (held : AList fun _ : Text => List (Entry ι)) :
    entriesOf (Memo.put key entries held) key = entries := by
  rw [entriesOf, Memo.lookup_put_same]
  rfl

theorem entriesOf_put_other {key key' : Text} (entries : List (Entry ι)) (held : AList fun _ : Text => List (Entry ι))
    (differs : key' ≠ key) : entriesOf (Memo.put key entries held) key' = entriesOf held key' := by
  rw [entriesOf, Memo.lookup_put_ne differs, entriesOf]

theorem entriesOf_shift {key : Text} {oldest : Entry ι} {rest : List (Entry ι)} {held : AList fun _ : Text => List (Entry ι)}
    (here : entriesOf held key = oldest :: rest) (key' : Text) :
    entriesOf (if rest = [] then held.erase key else Memo.put key rest held) key' =
      if key' = key then rest else entriesOf held key' := by
  split
  · rename_i last
    subst last
    by_cases same : key' = key
    · subst same
      rw [if_pos rfl, entriesOf, AList.lookup_erase]
      rfl
    · rw [if_neg same, entriesOf, AList.lookup_erase_ne same, entriesOf]
  · by_cases same : key' = key
    · subst same
      rw [if_pos rfl, entriesOf_put_same]
    · rw [if_neg same, entriesOf_put_other _ _ same]

/-! ### What holds at every moment -/

def Stage.took (key : Text) : Stage → Prop
  | .granted key' => key' = key
  | .holding key' => key' = key
  | .released key' _ => key' = key
  | _ => False

def Stage.known (key : Text) : Stage → Prop
  | .holding key' => key' = key
  | .released key' _ => key' = key
  | _ => False

theorem Stage.took_of_known {key : Text} {stage : Stage} (known : stage.known key) : stage.took key := by
  cases stage with
  | holding key' => exact known
  | released key' late => exact known
  | idle => exact known
  | trying key' ttlMs => exact known
  | granted key' => exact False.elim known
  | failed => exact known

theorem Stage.took_of_granted {key : Text} {stage : Stage} (granted : stage = .granted key) : stage.took key := by
  rw [granted]
  rfl

theorem Stage.known_of_holding {key : Text} {stage : Stage} (holding : stage = .holding key) : stage.known key := by
  rw [holding]
  rfl

theorem Stage.known_of_released {key : Text} {late : Bool} {stage : Stage} (released : stage = .released key late) :
    stage.known key := by
  rw [released]
  rfl

/-- The holders of a key that `acquireLock` has not remembered yet. -/
def waiting (replies : List (Taken ι)) (key : Text) : List ι :=
  (replies.filter fun taken => taken.key = key).map Taken.holder

theorem waiting_head_same {taken : Taken ι} (replies : List (Taken ι)) {key : Text} (same : taken.key = key) :
    waiting (taken :: replies) key = taken.holder :: waiting replies key := by
  unfold waiting
  rw [List.filter_cons_of_pos (by rw [decide_eq_true_iff]; exact same), List.map_cons]

theorem waiting_head_other {taken : Taken ι} (replies : List (Taken ι)) {key : Text} (differs : taken.key ≠ key) :
    waiting (taken :: replies) key = waiting replies key := by
  unfold waiting
  rw [List.filter_cons_of_neg (by rw [decide_eq_true_iff]; exact differs)]

theorem waiting_append (replies : List (Taken ι)) (taken : Taken ι) (key : Text) :
    waiting (replies ++ [taken]) key = waiting replies key ++ if taken.key = key then [taken.holder] else [] := by
  unfold waiting
  rw [List.filter_append, List.map_append]
  split
  · rename_i same
    rw [List.filter_cons_of_pos (by rw [decide_eq_true_iff]; exact same)]
    rfl
  · rename_i differs
    rw [List.filter_cons_of_neg (by rw [decide_eq_true_iff]; exact differs)]
    rfl

theorem mem_waiting {replies : List (Taken ι)} {key : Text} {h : ι} :
    h ∈ waiting replies key ↔ ∃ taken ∈ replies, taken.key = key ∧ taken.holder = h := by
  simp only [waiting, List.mem_map, List.mem_filter, decide_eq_true_iff, and_assoc]

/-- Those that took the key are, in order, the ones that were remembered and the ones that are not yet. -/
structure Ordered (s : State ι) (key : Text) (done : List ι) : Prop where
  order : s.order key = done ++ waiting s.replies key
  entries : ((s.entries key).map Entry.holder).Sublist done
  recent : (s.recent key).Sublist done
  known : ∀ h ∈ done, (s.stage h).known key

structure Safe (s : State ι) : Prop where
  locks : Locks.Safe s.locks
  trying : ∀ h key ttlMs, s.stage h = .trying key ttlMs → ∃ token, s.locks.phase (.inl h) = .setting key token ttlMs
  uncalled : ∀ h, (∀ key late, s.stage h ≠ .released key late) → s.locks.phase (.inr h) = .idle
  ordered : ∀ key, ∃ done, Ordered s key done
  nodup : ∀ key, (s.order key).Nodup
  pending : ∀ taken ∈ s.replies, s.stage taken.holder = .granted taken.key
  took : ∀ key h, (s.stage h).took key ↔ h ∈ s.order key
  got : ∀ key h, (s.stage h).took key → ∃ lock, s.locks.locks (.inl h) = some lock ∧ lock.key = key
  recent : ∀ key h, h ∈ s.recent key → s.stage h = .holding key
  enough : ∀ key, (s.recent key).length ≤ (s.entries key).length
  last : ∀ key h, Holds s.locks (.inl h) key → s.stage h = .failed ∨ (s.order key).getLast? = some h
  uncounted : ∀ key h, Holds s.locks (.inl h) key → s.stage h = .holding key → h ∉ s.recent key → s.recent key = []
  spared : ∀ key h c, s.stage h = .released key true → s.locks.phase (.inr h) = .releasing c →
    ∃ h', c = .inl h' ∧ (s.stage h').known key ∧ (Holds s.locks (.inl h') key → ∃ late, s.stage h' = .released key late)

/-- No one that was remembered and has the key now is followed by another that took it. -/
theorem Ordered.waiting_nil {s : State ι} {key : Text} {done : List ι} {h : ι} (ordered : Ordered s key done)
    (nodup : (s.order key).Nodup) (last : (s.order key).getLast? = some h) (member : h ∈ done) :
    waiting s.replies key = [] := by
  rw [ordered.order] at last nodup
  by_contra some
  rw [List.getLast?_append_of_ne_nil _ some] at last
  exact (List.nodup_append.mp nodup).2.2 h member h (List.mem_of_getLast? last) rfl

theorem first_not_last {α : Type*} {first second h : α} {rest done : List α} (sublist : (first :: second :: rest).Sublist done)
    (nodup : done.Nodup) (last : done.getLast? = some h) : first ≠ h := by
  rintro rfl
  obtain ⟨front, rfl⟩ := List.getLast?_eq_some_iff.mp last
  obtain ⟨before, after, same, within, rest'⟩ := List.sublist_append_iff.mp sublist
  cases before with
  | nil =>
    have short := rest'.length_le
    rw [List.nil_append] at same
    rw [← same] at short
    simp only [List.length_cons, List.length_nil] at short
    omega
  | cons first' before =>
    obtain ⟨rfl, _⟩ := List.cons.inj same
    have member := within.subset List.mem_cons_self
    exact (List.nodup_append.mp nodup).2.2 _ member _ (List.mem_singleton_self _) rfl

theorem two_of_mem {α : Type*} {a b : α} {l : List α} (first : a ∈ l) (second : b ∈ l) (differs : a ≠ b) : 2 ≤ l.length := by
  match l with
  | [] => cases first
  | [c] => exact (differs ((List.mem_singleton.mp first).trans (List.mem_singleton.mp second).symm)).elim
  | _ :: _ :: _ => exact Nat.le_add_left 2 _

/-! ### Every step keeps the invariant -/

theorem Ordered.stages {s : State ι} {key : Text} {done : List ι} (ordered : Ordered s key done) {locks : Locks.State (ι ⊕ ι)}
    {stage : ι → Stage} (known : ∀ h, (s.stage h).known key → (stage h).known key) :
    Ordered { s with locks := locks, stage := stage } key done :=
  ⟨ordered.order, ordered.entries, ordered.recent, fun h member => known h (ordered.known h member)⟩

variable [DecidableEq ι]

theorem Safe.frame {s : State ι} (safe : Safe s) {e : Locks.Event (ι ⊕ ι)} {locks : Locks.State (ι ⊕ ι)} {stage : ι → Stage}
    (distinct : Distinct s.locks e) (taken : Locks.step s.locks e = some locks)
    (quiet : ∀ h, stage h = s.stage h ∨ ∀ key, ¬ (s.stage h).took key ∧ ¬ (stage h).took key ∧ s.stage h ≠ .failed)
    (trying : ∀ h key ttlMs, stage h = .trying key ttlMs → ∃ token, locks.phase (.inl h) = .setting key token ttlMs)
    (failed : ∀ h call, e = .run (.inl h) call → stage h = .failed)
    (uncalled : ∀ h, (∀ key late, s.stage h ≠ .released key late) → locks.phase (.inr h) = .idle)
    (sent : ∀ h c, locks.phase (.inr h) = .releasing c → s.locks.phase (.inr h) = .releasing c) :
    Safe { s with locks := locks, stage := stage } := by
  have took : ∀ key h, (stage h).took key ↔ (s.stage h).took key := by
    intro key h
    rcases quiet h with same | neither
    · rw [same]
    · exact ⟨fun took => ((neither key).2.1 took).elim, fun took => ((neither key).1 took).elim⟩
  have steady : ∀ key h, (s.stage h).took key → stage h = s.stage h := by
    intro key h took
    rcases quiet h with same | neither
    · exact same
    · exact ((neither key).1 took).elim
  have holds : ∀ key h, Holds locks (.inl h) key → Holds s.locks (.inl h) key ∨ stage h = .failed := by
    intro key h holds
    rcases holds_of_step safe.locks distinct taken holds with old | ⟨token, ttlMs, call, event, _⟩
    · exact Or.inl old
    · exact Or.inr (failed h call event)
  have known : ∀ key h, (s.stage h).known key → (stage h).known key := by
    intro key h known
    rw [steady key h (Stage.took_of_known known)]
    exact known
  refine ⟨Locks.step_safe safe.locks distinct taken, trying, ?_, ?_, safe.nodup, ?_, ?_, ?_, ?_, safe.enough, ?_, ?_, ?_⟩
  · intro h unreleased
    refine uncalled h fun key late released => unreleased key late ?_
    exact (steady key h (Stage.took_of_known (Stage.known_of_released released))).trans released
  · intro key
    obtain ⟨done, ordered⟩ := safe.ordered key
    exact ⟨done, ordered.stages (known key)⟩
  · intro taken' member
    have granted := safe.pending taken' member
    exact (steady taken'.key taken'.holder (Stage.took_of_granted granted)).trans granted
  · intro key h
    exact (took key h).trans (safe.took key h)
  · intro key h here
    obtain ⟨lock, found, same⟩ := safe.got key h ((took key h).mp here)
    obtain ⟨lock', found', same'⟩ := step_locks safe.locks taken found
    exact ⟨lock', found', same'.trans same⟩
  · intro key h member
    have holding := safe.recent key h member
    exact (steady key h (Stage.took_of_known (Stage.known_of_holding holding))).trans holding
  · intro key h now
    rcases holds key h now with old | here
    · rcases safe.last key h old with failed | last
      · rcases quiet h with same | neither
        · exact Or.inl (same.trans failed)
        · exact ((neither key).2.2 failed).elim
      · exact Or.inr last
    · exact Or.inl here
  · intro key h now holding unlisted
    rcases holds key h now with old | here
    · have before := steady key h ((took key h).mp (Stage.took_of_known (Stage.known_of_holding holding)))
      exact safe.uncounted key h old (before.symm.trans holding) unlisted
    · cases here.symm.trans holding
  · intro key h c released sends
    have before := steady key h ((took key h).mp (Stage.took_of_known (Stage.known_of_released released)))
    obtain ⟨h', same, known', lost⟩ := safe.spared key h c (before.symm.trans released) (sent h c sends)
    have steady' := steady key h' (Stage.took_of_known known')
    refine ⟨h', same, known key h' known', fun now => ?_⟩
    rcases holds key h' now with old | here
    · obtain ⟨late, gone⟩ := lost old
      exact ⟨late, steady'.trans gone⟩
    · have impossible := known key h' known'
      rw [here] at impossible
      exact False.elim impossible

theorem Safe.frame_at {s : State ι} (safe : Safe s) {h : ι} {e : Locks.Event (ι ⊕ ι)} {locks : Locks.State (ι ⊕ ι)} {p : Stage}
    (caller : e.caller? = some (.inl h)) (distinct : Distinct s.locks e) (taken : Locks.step s.locks e = some locks)
    (before : ∀ key, ¬ (s.stage h).took key) (unfailed : s.stage h ≠ .failed) (after : ∀ key, ¬ p.took key)
    (trying : ∀ key ttlMs, p = .trying key ttlMs → ∃ token, locks.phase (.inl h) = .setting key token ttlMs)
    (failed : ∀ call, e = .run (.inl h) call → p = .failed) :
    Safe { s with locks := locks, stage := Function.update s.stage h p } := by
  have right : ∀ h', locks.phase (.inr h') = s.locks.phase (.inr h') := by
    intro h'
    refine step_others taken fun same => ?_
    cases caller.symm.trans same
  refine safe.frame distinct taken ?_ ?_ ?_ ?_ ?_
  · intro h'
    by_cases here : h' = h
    · subst here
      rw [Function.update_self]
      exact Or.inr fun key => ⟨before key, after key, unfailed⟩
    · exact Or.inl (Function.update_of_ne here ..)
  · intro h' key ttlMs trying'
    by_cases here : h' = h
    · subst here
      rw [Function.update_self] at trying'
      exact trying key ttlMs trying'
    · rw [Function.update_of_ne here] at trying'
      obtain ⟨token, setting⟩ := safe.trying h' key ttlMs trying'
      refine ⟨token, (step_others taken fun same => here ?_).trans setting⟩
      exact (Sum.inl.inj (Option.some.inj (caller.symm.trans same))).symm
  · intro h' call event
    obtain rfl : h = h' := by
      rw [event] at caller
      exact (Sum.inl.inj (Option.some.inj caller)).symm
    rw [Function.update_self]
    exact failed call event
  · intro h' unreleased
    rw [right]
    exact safe.uncalled h' unreleased
  · intro h' c sends
    rwa [right] at sends

theorem acquireLock_safe {s : State ι} (safe : Safe s) {h : ι} {key token : Text} {ttlMs : ℚ} {connected : Bool}
    {locks : Locks.State (ι ⊕ ι)} (idle : s.stage h = .idle)
    (distinct : Distinct s.locks (.tryLock (.inl h) key ttlMs token connected))
    (taken : Locks.step s.locks (.tryLock (.inl h) key ttlMs token connected) = some locks) :
    Safe (acquireLock s h key locks) := by
  have before : ∀ key, ¬ (s.stage h).took key := by
    intro key took
    rw [idle] at took
    exact took
  have unfailed : s.stage h ≠ .failed := by
    rw [idle]
    nofun
  unfold acquireLock
  split
  · rename_i key' token' ttlMs' setting
    refine safe.frame_at rfl distinct taken before unfailed (fun _ took => took) ?_ nofun
    intro key'' ttlMs'' same
    obtain ⟨rfl, rfl⟩ := Stage.trying.inj same
    exact ⟨token', by rw [setting, tryLock_setting taken setting]⟩
  · exact safe.frame_at rfl distinct taken before unfailed (fun _ took => took) nofun nofun

theorem granted_safe {s : State ι} (safe : Safe s) {h : ι} {key : Text} {ttlMs : ℕ} {call : Call} {locks : Locks.State (ι ⊕ ι)}
    (trying : s.stage h = .trying key ttlMs) (taken : Locks.step s.locks (.run (.inl h) call) = some locks)
    (granted : locks.phase (.inl h) = .granted) :
    Safe { s with
      locks := locks
      replies := s.replies ++ [⟨h, key, ttlMs⟩]
      stage := Function.update s.stage h (.granted key)
      order := Function.update s.order key (s.order key ++ [h]) } := by
  obtain ⟨token, setting⟩ := safe.trying h key ttlMs trying
  obtain ⟨free, lock, found, same⟩ := run_granted setting taken granted
  have nobody : ∀ h', ¬ Holds s.locks (.inl h') key := by
    intro h' ⟨token', _, stored⟩
    cases free.symm.trans stored
  have untook : ∀ key', ¬ (s.stage h).took key' := by
    intro key' took
    rw [trying] at took
    exact took
  have steady : ∀ h', s.stage h' ≠ .trying key ttlMs → Function.update s.stage h (.granted key) h' = s.stage h' := by
    intro h' settled
    refine Function.update_of_ne ?_ ..
    rintro rfl
    exact settled trying
  have apart : ∀ key' h', (s.stage h').took key' → h' ≠ h := by
    rintro key' h' took rfl
    exact untook key' took
  have right : ∀ h', locks.phase (.inr h') = s.locks.phase (.inr h') :=
    fun h' => step_others taken nofun
  have holds : ∀ key' h', Holds locks (.inl h') key' → Holds s.locks (.inl h') key' ∨ h' = h ∧ key' = key := by
    intro key' h' now
    rcases holds_of_step (e := .run (.inl h) call) safe.locks trivial taken now with old | ⟨token', ttlMs', call', event, setting'⟩
    · exact Or.inl old
    · obtain rfl := Sum.inl.inj (Locks.Event.run.inj event).1
      exact Or.inr ⟨rfl, (Phase.setting.inj (setting'.symm.trans setting)).1⟩
  refine ⟨Locks.step_safe (e := .run (.inl h) call) safe.locks trivial taken, ?_, ?_, ?_, ?_, ?_, ?_, ?_, ?_,
    safe.enough, ?_, ?_, ?_⟩
  · intro h' key' ttlMs' trying'
    have differs : h' ≠ h := by
      rintro rfl
      cases (Function.update_self ..).symm.trans trying'
    obtain ⟨token', setting'⟩ := safe.trying h' key' ttlMs' ((Function.update_of_ne differs ..).symm.trans trying')
    exact ⟨token', (step_others taken fun here => differs (Sum.inl.inj (Option.some.inj here)).symm).trans setting'⟩
  · intro h' unreleased
    refine (right h').trans (safe.uncalled h' fun key' late released => unreleased key' late ?_)
    exact (steady h' (by rw [released]; nofun)).trans released
  · intro key'
    obtain ⟨done, ordered⟩ := safe.ordered key'
    refine ⟨done, ?_, ordered.entries, ordered.recent, ?_⟩
    · dsimp only
      rw [waiting_append, ← List.append_assoc, ← ordered.order]
      by_cases here : key' = key
      · rw [here, Function.update_self, if_pos rfl]
      · rw [Function.update_of_ne here, if_neg fun there => here there.symm, List.append_nil]
    · intro h' member
      have known := ordered.known h' member
      dsimp only
      rwa [Function.update_of_ne (apart key' h' (Stage.took_of_known known))]
  · intro key'
    dsimp only
    by_cases here : key' = key
    · subst here
      rw [Function.update_self]
      refine List.nodup_append.mpr ⟨safe.nodup key', List.nodup_singleton h, ?_⟩
      intro h' member h'' single same
      obtain rfl := List.mem_singleton.mp single
      exact untook key' ((safe.took key' h'').mpr (same ▸ member))
    · rw [Function.update_of_ne here]
      exact safe.nodup key'
  · intro taken' member
    rcases List.mem_append.mp member with old | new
    · have granted' := safe.pending taken' old
      exact (Function.update_of_ne (apart taken'.key taken'.holder (Stage.took_of_granted granted')) ..).trans granted'
    · obtain rfl := List.mem_singleton.mp new
      exact Function.update_self ..
  · intro key' h'
    dsimp only
    by_cases there : h' = h
    · subst there
      rw [Function.update_self]
      constructor
      · intro took
        obtain rfl : key = key' := took
        rw [Function.update_self]
        exact List.mem_append_right _ (List.mem_singleton_self _)
      · intro member
        by_contra differs
        rw [Function.update_of_ne fun same => differs (same.symm : key = key')] at member
        exact untook key' ((safe.took key' h').mpr member)
    · rw [Function.update_of_ne there, safe.took key' h']
      by_cases here : key' = key
      · subst here
        rw [Function.update_self, List.mem_append, List.mem_singleton, or_iff_left there]
      · rw [Function.update_of_ne here]
  · intro key' h' took
    dsimp only at took
    by_cases there : h' = h
    · subst there
      rw [Function.update_self] at took
      exact ⟨lock, found, same.trans took⟩
    · rw [Function.update_of_ne there] at took
      obtain ⟨lock', found', same'⟩ := safe.got key' h' took
      obtain ⟨lock'', found'', same''⟩ := step_locks safe.locks taken found'
      exact ⟨lock'', found'', same''.trans same'⟩
  · intro key' h' member
    have holding := safe.recent key' h' member
    exact (steady h' (by rw [holding]; nofun)).trans holding
  · intro key' h' now
    dsimp only
    rcases holds key' h' now with old | ⟨rfl, rfl⟩
    · have differs : key' ≠ key := by
        rintro rfl
        exact nobody h' old
      rw [Function.update_of_ne differs]
      rcases safe.last key' h' old with failed | last
      · exact Or.inl ((steady h' (by rw [failed]; nofun)).trans failed)
      · exact Or.inr last
    · refine Or.inr ?_
      rw [Function.update_self]
      exact List.getLast?_concat
  · intro key' h' now holding unlisted
    have differs : h' ≠ h := by
      rintro rfl
      cases (Function.update_self ..).symm.trans holding
    rcases holds key' h' now with old | ⟨here, _⟩
    · exact safe.uncounted key' h' old ((Function.update_of_ne differs ..).symm.trans holding) unlisted
    · exact (differs here).elim
  · intro key' h' c released sends
    have differs : h' ≠ h := by
      rintro rfl
      cases (Function.update_self ..).symm.trans released
    obtain ⟨h'', same, known, lost⟩ := safe.spared key' h' c ((Function.update_of_ne differs ..).symm.trans released)
      ((right h').symm.trans sends)
    have apart'' := apart key' h'' (Stage.took_of_known known)
    refine ⟨h'', same, ?_, fun now => ?_⟩
    · dsimp only
      rwa [Function.update_of_ne apart'']
    · rcases holds key' h'' now with old | ⟨here, _⟩
      · obtain ⟨late, gone⟩ := lost old
        exact ⟨late, (Function.update_of_ne apart'' ..).trans gone⟩
      · exact (apart'' here).elim

theorem tried_safe {s : State ι} (safe : Safe s) {h : ι} {key : Text} {ttlMs : ℕ} {call : Call} {locks : Locks.State (ι ⊕ ι)}
    (trying : s.stage h = .trying key ttlMs) (taken : Locks.step s.locks (.run (.inl h) call) = some locks) :
    Safe (tried s h key ttlMs locks) := by
  unfold tried
  split
  · rename_i granted
    exact granted_safe safe trying taken granted
  · refine safe.frame_at (e := .run (.inl h) call) rfl trivial taken ?_ ?_ (fun _ took => took) nofun fun _ _ => rfl
    · intro key took
      rw [trying] at took
      exact took
    · rw [trying]
      nofun

/-- Going on after a reply changes the entries of other keys only by what `prune` drops, and adds one to its own. -/
theorem remembered_entries (s : State ι) (now : ℕ) (taken : Taken ι) (replies : List (Taken ι)) (key : Text) :
    (remembered s now taken replies).entries key =
      if key = taken.key then pushed (entriesOf (prune now s.held) key) ⟨taken.holder, now + taken.ttlMs⟩
      else entriesOf (prune now s.held) key := by
  dsimp only [remembered, State.entries]
  split
  · rename_i same
    rw [same, entriesOf_put_same]
  · rename_i differs
    exact entriesOf_put_other _ _ differs

theorem remembered_enough {s : State ι} (safe : Safe s) (now : ℕ) (taken : Taken ι) (replies : List (Taken ι)) (key : Text) :
    ((remembered s now taken replies).recent key).length ≤ ((remembered s now taken replies).entries key).length := by
  have shrinks := (prune_sublist now s.held key).length_le
  have enough := safe.enough key
  rw [remembered_entries]
  dsimp only [remembered]
  by_cases same : key = taken.key
  · subst same
    rw [if_pos rfl, if_pos rfl, length_pushed, List.length_append, List.length_singleton]
    split
    · rename_i dropped
      rw [List.length_nil]
      split
      · rename_i full
        unfold maxEntries at full
        omega
      · omega
    · rename_i kept
      push Not at kept
      have kept' := kept.2 rfl
      rw [if_neg (by omega)]
      omega
  · rw [if_neg same, if_neg same, List.append_nil]
    split
    · exact Nat.zero_le _
    · rename_i kept
      push Not at kept
      omega

theorem remembered_safe {s : State ι} (safe : Safe s) (now : ℕ) {taken : Taken ι} {replies : List (Taken ι)}
    (head : s.replies = taken :: replies) : Safe (remembered s now taken replies) := by
  have granted := safe.pending taken (head ▸ List.mem_cons_self)
  have forward : ∀ h p, s.stage h = p → p ≠ .granted taken.key → (remembered s now taken replies).stage h = p := by
    intro h p same settled
    refine (Function.update_of_ne ?_ ..).trans same
    rintro rfl
    exact settled (same.symm.trans granted)
  have backward : ∀ h p, (remembered s now taken replies).stage h = p → p ≠ .holding taken.key → s.stage h = p := by
    intro h p same settled
    refine (Function.update_of_ne ?_ ..).symm.trans same
    rintro rfl
    exact settled (same.symm.trans (Function.update_self ..))
  have took : ∀ key h, (Function.update s.stage taken.holder (.holding taken.key) h).took key ↔ (s.stage h).took key := by
    intro key h
    by_cases here : h = taken.holder
    · rw [here, Function.update_self, granted]
      exact Iff.rfl
    · rw [Function.update_of_ne here]
  have known : ∀ key h, (s.stage h).known key →
      (Function.update s.stage taken.holder (.holding taken.key) h).known key := by
    intro key h before
    by_cases here : h = taken.holder
    · rw [here, granted] at before
      exact False.elim before
    · rwa [Function.update_of_ne here]
  have others : ∀ taken' ∈ replies, taken'.holder ≠ taken.holder := by
    intro taken' member same
    have granted' := safe.pending taken' (head ▸ List.mem_cons_of_mem _ member)
    have keys := Stage.granted.inj (granted'.symm.trans (same ▸ granted))
    obtain ⟨done, ordered⟩ := safe.ordered taken.key
    have nodup := safe.nodup taken.key
    rw [ordered.order, head, waiting_head_same replies rfl] at nodup
    have single := (List.nodup_cons.mp (List.nodup_append.mp nodup).2.1).1
    exact single (mem_waiting.mpr ⟨taken', member, keys, same⟩)
  have recent : ∀ key h, h ∈ (remembered s now taken replies).recent key →
      h ∈ s.recent key ∨ h = taken.holder ∧ key = taken.key := by
    intro key h member
    rcases List.mem_append.mp member with old | new
    · split at old
      · cases old
      · exact Or.inl old
    · split at new
      · rename_i same
        exact Or.inr ⟨List.mem_singleton.mp new, same⟩
      · cases new
  refine ⟨safe.locks, ?_, ?_, ?_, safe.nodup, ?_, ?_, ?_, ?_, remembered_enough safe now taken replies, ?_, ?_, ?_⟩
  · intro h key ttlMs trying
    exact safe.trying h key ttlMs (backward h _ trying nofun)
  · intro h unreleased
    exact safe.uncalled h fun key late released => unreleased key late (forward h _ released nofun)
  · intro key
    obtain ⟨done, ordered⟩ := safe.ordered key
    by_cases here : key = taken.key
    · subst here
      refine ⟨done ++ [taken.holder], ?_, ?_, ?_, ?_⟩
      · have order := ordered.order
        rw [head, waiting_head_same replies rfl] at order
        rw [List.append_assoc]
        exact order
      · rw [remembered_entries, if_pos rfl]
        refine ((pushed_sublist _ _).map Entry.holder).trans ?_
        rw [List.map_append]
        exact (((prune_sublist now s.held taken.key).map Entry.holder).trans ordered.entries).append (List.Sublist.refl _)
      · dsimp only [remembered]
        rw [if_pos rfl]
        refine List.Sublist.append ?_ (List.Sublist.refl _)
        split
        · exact List.nil_sublist _
        · exact ordered.recent
      · intro h member
        rcases List.mem_append.mp member with old | new
        · exact known taken.key h (ordered.known h old)
        · rw [List.mem_singleton.mp new]
          exact Stage.known_of_holding (Function.update_self ..)
    · refine ⟨done, ?_, ?_, ?_, fun h member => known key h (ordered.known h member)⟩
      · have order := ordered.order
        rwa [head, waiting_head_other replies fun there => here there.symm] at order
      · rw [remembered_entries, if_neg here]
        exact ((prune_sublist now s.held key).map Entry.holder).trans ordered.entries
      · dsimp only [remembered]
        rw [if_neg here, List.append_nil]
        split
        · exact List.nil_sublist _
        · exact ordered.recent
  · intro taken' member
    have granted' := safe.pending taken' (head ▸ List.mem_cons_of_mem _ member)
    exact (Function.update_of_ne (others taken' member) ..).trans granted'
  · intro key h
    exact (took key h).trans (safe.took key h)
  · intro key h here
    exact safe.got key h ((took key h).mp here)
  · intro key h member
    rcases recent key h member with old | ⟨rfl, rfl⟩
    · exact forward h _ (safe.recent key h old) nofun
    · exact Function.update_self ..
  · intro key h now'
    rcases safe.last key h now' with failed | last
    · exact Or.inl (forward h _ failed nofun)
    · exact Or.inr last
  · intro key h now' holding unlisted
    by_cases here : h = taken.holder
    · subst here
      obtain rfl := Stage.holding.inj ((Function.update_self ..).symm.trans holding)
      refine (unlisted (List.mem_append_right _ ?_)).elim
      rw [if_pos rfl]
      exact List.mem_singleton_self _
    · have before := (Function.update_of_ne here ..).symm.trans holding
      have last := (safe.last key h now').resolve_left (by rw [before]; nofun)
      obtain ⟨done, ordered⟩ := safe.ordered key
      have member : h ∈ done := by
        have listed := (safe.took key h).mp (Stage.took_of_known (Stage.known_of_holding before))
        rw [ordered.order] at listed
        refine (List.mem_append.mp listed).resolve_right fun waits => ?_
        obtain ⟨taken', member', _, rfl⟩ := mem_waiting.mp waits
        cases (safe.pending taken' member').symm.trans before
      have none := ordered.waiting_nil (safe.nodup key) last member
      have differs : key ≠ taken.key := by
        rintro rfl
        rw [head, waiting_head_same replies rfl] at none
        cases none
      have unlisted' : h ∉ s.recent key → s.recent key = [] := safe.uncounted key h now' before
      dsimp only [remembered] at unlisted ⊢
      rw [if_neg differs, List.append_nil] at unlisted ⊢
      split
      · rfl
      · rename_i kept
        rw [if_neg kept] at unlisted
        exact unlisted' unlisted
  · intro key h c released sends
    obtain ⟨h', same, known', lost⟩ := safe.spared key h c (backward h _ released nofun) sends
    refine ⟨h', same, known key h' known', fun now' => ?_⟩
    obtain ⟨late, gone⟩ := lost now'
    exact ⟨late, forward h' _ gone nofun⟩

omit [DecidableEq ι] in
theorem holds_of_lapsed {s : State ι} (safe : Safe s) {h : ι} {key : Text} (holding : s.stage h = .holding key)
    (owns : lapsed s h key = false) : Holds s.locks (.inl h) key := by
  obtain ⟨lock, found, rfl⟩ := safe.got key h (Stage.took_of_known (Stage.known_of_holding holding))
  unfold lapsed at owns
  simp only [found, ne_eq, decide_not, Bool.not_eq_false', decide_eq_true_iff] at owns
  exact ⟨lock.token, (safe.locks.owned (.inl h) lock found).1, owns⟩

theorem released_safe {s : State ι} (safe : Safe s) {h : ι} {key : Text} {locks : Locks.State (ι ⊕ ι)}
    {held : AList fun _ : Text => List (Entry ι)} (holding : s.stage h = .holding key)
    (timely : lapsed s h key = true → h ∈ s.recent key) (locksSafe : Locks.Safe locks)
    (others : ∀ c, c ≠ .inr h → locks.phase c = s.locks.phase c)
    (holds : ∀ key h', Holds locks (.inl h') key → Holds s.locks (.inl h') key)
    (got : ∀ h' lock, s.locks.locks (.inl h') = some lock → ∃ lock', locks.locks (.inl h') = some lock' ∧ lock'.key = lock.key)
    (entries : ∀ key', key' ≠ key → entriesOf held key' = s.entries key')
    (shorter : (entriesOf held key).Sublist (s.entries key))
    (shifted : (s.entries key).length ≤ (entriesOf held key).length + 1)
    (sends : ∀ c, lapsed s h key = true → locks.phase (.inr h) = .releasing c → ∃ h', c = .inl h' ∧ (s.stage h').known key ∧
      (Holds locks (.inl h') key → h' = h ∨ ∃ late, s.stage h' = .released key late)) :
    Safe { s with
      locks := locks
      held := held
      stage := Function.update s.stage h (.released key (lapsed s h key))
      recent := Function.update s.recent key ((s.recent key).erase h) } := by
  have took : ∀ key' h', (Function.update s.stage h (.released key (lapsed s h key)) h').took key' ↔ (s.stage h').took key' := by
    intro key' h'
    by_cases here : h' = h
    · rw [here, Function.update_self, holding]
      exact Iff.rfl
    · rw [Function.update_of_ne here]
  have known : ∀ key' h', (s.stage h').known key' →
      (Function.update s.stage h (.released key (lapsed s h key)) h').known key' := by
    intro key' h' before
    by_cases here : h' = h
    · rw [here, holding] at before
      rw [here, Function.update_self]
      exact before
    · rwa [Function.update_of_ne here]
  have forward : ∀ h' p, s.stage h' = p → p ≠ .holding key →
      Function.update s.stage h (.released key (lapsed s h key)) h' = p := by
    intro h' p same settled
    refine (Function.update_of_ne ?_ ..).trans same
    rintro rfl
    exact settled (same.symm.trans holding)
  have listed : ∀ key', (Function.update s.recent key ((s.recent key).erase h) key').Sublist (s.recent key') := by
    intro key'
    by_cases here : key' = key
    · rw [here, Function.update_self]
      exact List.erase_sublist
    · rw [Function.update_of_ne here]
  have fewer : ∀ key', (entriesOf held key').Sublist (s.entries key') := by
    intro key'
    by_cases here : key' = key
    · exact here ▸ shorter
    · rw [entries key' here]
  refine ⟨locksSafe, ?_, ?_, ?_, safe.nodup, ?_, ?_, ?_, ?_, ?_, ?_, ?_, ?_⟩
  · intro h' key' ttlMs trying
    have differs : h' ≠ h := by
      rintro rfl
      cases (Function.update_self ..).symm.trans trying
    obtain ⟨token, setting⟩ := safe.trying h' key' ttlMs ((Function.update_of_ne differs ..).symm.trans trying)
    exact ⟨token, (others (.inl h') nofun).trans setting⟩
  · intro h' unreleased
    have differs : h' ≠ h := by
      rintro rfl
      exact unreleased _ _ (Function.update_self ..)
    refine (others (.inr h') fun same => differs (Sum.inr.inj same)).trans (safe.uncalled h' fun key' late released => ?_)
    exact unreleased key' late (forward h' _ released nofun)
  · intro key'
    obtain ⟨done, ordered⟩ := safe.ordered key'
    exact ⟨done, ordered.order, ((fewer key').map Entry.holder).trans ordered.entries, (listed key').trans ordered.recent,
      fun h' member => known key' h' (ordered.known h' member)⟩
  · intro taken member
    exact forward taken.holder _ (safe.pending taken member) nofun
  · intro key' h'
    exact (took key' h').trans (safe.took key' h')
  · intro key' h' here
    obtain ⟨lock, found, same⟩ := safe.got key' h' ((took key' h').mp here)
    obtain ⟨lock', found', same'⟩ := got h' lock found
    exact ⟨lock', found', same'.trans same⟩
  · intro key' h' member
    have before := safe.recent key' h' ((listed key').subset member)
    refine (Function.update_of_ne ?_ ..).trans before
    rintro rfl
    obtain rfl := Stage.holding.inj (before.symm.trans holding)
    dsimp only at member
    rw [Function.update_self] at member
    obtain ⟨done, ordered⟩ := safe.ordered key'
    have nodup := safe.nodup key'
    rw [ordered.order] at nodup
    exact ((ordered.recent.nodup (List.nodup_append.mp nodup).1).mem_erase_iff.mp member).1 rfl
  · intro key'
    by_cases here : key' = key
    · subst here
      have enough := safe.enough key'
      dsimp only [State.entries]
      rw [Function.update_self]
      by_cases member : h ∈ s.recent key'
      · rw [List.length_erase_of_mem member]
        omega
      · rw [List.erase_of_not_mem member, safe.uncounted key' h (holds_of_lapsed safe holding ?_) holding member]
        · exact Nat.zero_le _
        · exact Bool.eq_false_iff.mpr fun late => member (timely late)
    · dsimp only [State.entries]
      rw [Function.update_of_ne here, entries key' here]
      exact safe.enough key'
  · intro key' h' now
    rcases safe.last key' h' (holds key' h' now) with failed | last
    · exact Or.inl (forward h' _ failed nofun)
    · exact Or.inr last
  · intro key' h' now holding' unlisted
    have differs : h' ≠ h := by
      rintro rfl
      cases (Function.update_self ..).symm.trans holding'
    have before := (Function.update_of_ne differs ..).symm.trans holding'
    have none : s.recent key' = [] := by
      refine safe.uncounted key' h' (holds key' h' now) before fun member => unlisted ?_
      by_cases here : key' = key
      · subst here
        dsimp only
        rw [Function.update_self]
        exact (List.mem_erase_of_ne differs).mpr member
      · dsimp only
        rwa [Function.update_of_ne here]
    exact List.sublist_nil.mp (none ▸ listed key')
  · intro key' h' c released sends'
    have finish : ∀ h'', (h'' = h ∧ key' = key ∨ ∃ late, s.stage h'' = .released key' late) →
        ∃ late, Function.update s.stage h (.released key (lapsed s h key)) h'' = .released key' late := by
      rintro h'' (⟨rfl, rfl⟩ | ⟨late, gone⟩)
      · exact ⟨_, Function.update_self ..⟩
      · exact ⟨late, forward h'' _ gone nofun⟩
    by_cases here : h' = h
    · subst here
      obtain ⟨rfl, late⟩ := Stage.released.inj ((Function.update_self ..).symm.trans released)
      obtain ⟨h'', same, known', lost⟩ := sends c late sends'
      refine ⟨h'', same, known key h'' known', fun now => finish h'' ?_⟩
      rcases lost now with own | gone
      · exact Or.inl ⟨own, rfl⟩
      · exact Or.inr gone
    · have before := (Function.update_of_ne here ..).symm.trans released
      obtain ⟨h'', same, known', lost⟩ := safe.spared key' h' c before
        ((others (.inr h') fun same => here (Sum.inr.inj same)).symm.trans sends')
      exact ⟨h'', same, known key' h'' known', fun now => finish h'' (Or.inr (lost (holds key' h'' now)))⟩

/-- A holder that is late does not come upon the lock of a holder that is not done: its own entry, or an older one, is first. -/
theorem oldest_done {s : State ι} (safe : Safe s) {h : ι} {key : Text} {oldest : Entry ι} {rest : List (Entry ι)}
    (entries : s.entries key = oldest :: rest) (member : h ∈ s.recent key) :
    (s.stage oldest.holder).known key ∧ (Holds s.locks (.inl oldest.holder) key →
      oldest.holder = h ∨ ∃ late, s.stage oldest.holder = .released key late) := by
  obtain ⟨done, ordered⟩ := safe.ordered key
  have sublist := ordered.entries
  rw [entries, List.map_cons] at sublist
  have remembered : oldest.holder ∈ done := sublist.subset List.mem_cons_self
  have known := ordered.known oldest.holder remembered
  refine ⟨known, fun holds => ?_⟩
  by_contra neither
  push Not at neither
  have holding : s.stage oldest.holder = .holding key := by
    revert known
    cases found : s.stage oldest.holder with
    | holding key' => exact fun same => congrArg Stage.holding same
    | released key' late => exact fun same => (neither.2 late (found.trans (congrArg (Stage.released · late) same))).elim
    | idle => exact False.elim
    | trying key' ttlMs => exact False.elim
    | granted key' => exact False.elim
    | failed => exact False.elim
  have last := (safe.last key oldest.holder holds).resolve_left (by rw [holding]; nofun)
  have nodup := safe.nodup key
  have none := ordered.waiting_nil nodup last remembered
  rw [ordered.order, none, List.append_nil] at last nodup
  have counted : oldest.holder ∈ s.recent key := by
    by_contra unlisted
    rw [safe.uncounted key oldest.holder holds holding unlisted] at member
    cases member
  have enough := safe.enough key
  have two := two_of_mem counted member neither.1
  rw [entries, List.length_cons] at enough
  cases rest with
  | nil =>
    rw [List.length_nil] at enough
    omega
  | cons second rest => exact first_not_last sublist nodup last rfl

theorem releaseLock_safe {s t : State ι} (safe : Safe s) {h : ι} {key : Text} {connected : Bool}
    (holding : s.stage h = .holding key) (timely : lapsed s h key = true → h ∈ s.recent key)
    (taken : releaseLock s h key connected = some t) : Safe t := by
  unfold releaseLock at taken
  dsimp only at taken
  split at taken
  · rename_i empty
    obtain rfl := Option.some.inj taken
    refine released_safe safe holding timely safe.locks (fun _ _ => rfl) (fun _ _ now => now)
      (fun _ lock found => ⟨lock, found, rfl⟩) (fun _ _ => rfl) (List.Sublist.refl _) (Nat.le_succ _) ?_
    intro c late sends
    rw [safe.uncalled h (by rw [holding]; nofun)] at sends
    cases sends
  · rename_i oldest rest entries
    obtain ⟨locks, called, rfl⟩ := Option.map_eq_some_iff.mp taken
    have shift := entriesOf_shift entries
    have distinct : Distinct s.locks (.release (.inr h) (.inl oldest.holder) connected) := trivial
    have holds : ∀ key h', Holds locks (.inl h') key → Holds s.locks (.inl h') key := by
      intro key' h' now
      rcases holds_of_step safe.locks distinct called now with old | ⟨_, _, _, event, _⟩
      · exact old
      · cases event
    refine released_safe safe holding timely (Locks.step_safe safe.locks distinct called) ?_ holds
      (fun h' lock found => step_locks safe.locks called found) ?_ ?_ ?_ ?_
    · intro c differs
      exact step_others called fun same => differs (Option.some.inj same).symm
    · intro key' differs
      rw [shift, if_neg differs]
    · rw [shift, if_pos rfl]
      exact entries ▸ List.sublist_cons_self oldest rest
    · rw [shift, if_pos rfl, entries, List.length_cons]
    · intro c late sends
      obtain ⟨known, done⟩ := oldest_done safe entries (timely late)
      exact ⟨oldest.holder, release_releasing called sends, known, fun now => done (holds key oldest.holder now)⟩

theorem step_safe {s t : State ι} {e : Event ι} (safe : Safe s) (timely : Timely s e) (taken : step s e = some t) : Safe t := by
  unfold step at taken
  split at taken
  · split at taken
    · rename_i idle
      obtain ⟨locks, called, rfl⟩ := Option.map_eq_some_iff.mp taken
      exact acquireLock_safe safe idle timely called
    · cases taken
  · split at taken
    · rename_i trying
      obtain ⟨locks, called, rfl⟩ := Option.map_eq_some_iff.mp taken
      exact tried_safe safe trying called
    · cases taken
  · rename_i h call
    obtain ⟨locks, called, rfl⟩ := Option.map_eq_some_iff.mp taken
    obtain ⟨sent, p, settled, _, phase⟩ := run_phase called
    have others : ∀ c, c ≠ .inr h → locks.phase c = s.locks.phase c := by
      intro c differs
      exact step_others called fun same => differs (Option.some.inj same).symm
    refine safe.frame (e := .run (.inr h) call) trivial called (fun _ => Or.inl rfl) ?_ nofun ?_ ?_
    · intro h' key ttlMs trying
      obtain ⟨token, setting⟩ := safe.trying h' key ttlMs trying
      exact ⟨token, (others (.inl h') nofun).trans setting⟩
    · intro h' unreleased
      have idle := safe.uncalled h' unreleased
      refine (others (.inr h') ?_).trans idle
      rintro ⟨⟩
      rw [idle] at sent
      cases sent
    · intro h' c sends
      refine (others (.inr h') ?_).symm.trans sends
      rintro ⟨⟩
      rw [phase, Calls.move_self] at sends
      rw [sends] at settled
      cases settled
  · split at taken
    · rename_i head
      obtain rfl := Option.some.inj taken
      exact remembered_safe safe _ head
    · cases taken
  · split at taken
    · rename_i holding
      exact releaseLock_safe safe holding (timely _ holding) taken
    · cases taken
  · rename_i ms
    obtain ⟨locks, called, rfl⟩ := Option.map_eq_some_iff.mp taken
    have others : ∀ c, locks.phase c = s.locks.phase c := fun c => step_others called nofun
    refine safe.frame (e := .advance ms) trivial called (fun _ => Or.inl rfl) ?_ nofun ?_ ?_
    · intro h key ttlMs trying
      rw [others]
      exact safe.trying h key ttlMs trying
    · intro h unreleased
      rw [others]
      exact safe.uncalled h unreleased
    · intro h c sends
      rwa [others] at sends

/-- No call has begun, and nothing is remembered. -/
structure Start (s : State ι) : Prop where
  locks : Locks.Start s.locks
  held : ∀ key, s.entries key = []
  replies : s.replies = []
  idle : ∀ h, s.stage h = .idle
  order : ∀ key, s.order key = []
  recent : ∀ key, s.recent key = []

omit [DecidableEq ι] in
theorem start_safe {s : State ι} (start : Start s) : Safe s where
  locks := Locks.start_safe start.locks
  trying h key ttlMs trying := by cases (start.idle h).symm.trans trying
  uncalled h _ := start.locks.idle (.inr h)
  ordered key := by
    refine ⟨[], ?_, ?_, ?_, nofun⟩
    · rw [start.order, start.replies]
      rfl
    · rw [start.held]
      exact List.Sublist.refl _
    · rw [start.recent]
  nodup key := by
    rw [start.order]
    exact List.nodup_nil
  pending taken member := by
    rw [start.replies] at member
    cases member
  took key h := by
    rw [start.idle, start.order]
    exact ⟨False.elim, nofun⟩
  got key h took := by
    rw [start.idle] at took
    exact False.elim took
  recent key h member := by
    rw [start.recent] at member
    cases member
  enough key := by
    rw [start.recent]
    exact Nat.zero_le _
  last key h holds := by
    obtain ⟨token, drawn, _⟩ := holds
    cases (start.locks.drawn (.inl h)).symm.trans drawn
  uncounted key h _ _ _ := start.recent key
  spared key h c released := by cases (start.idle h).symm.trans released

/-- A holder that had lost its key when it called `releaseLock` does not free the key of one that has it and has not called
`releaseLock`, in a run where no holder calls so late once an entry of its key was dropped. -/
theorem late_release_spares {s₀ s t : State ι} {es : List (Event ι)} (start : Start s₀) (run : Runs.Run step Timely s₀ es s)
    {h n : ι} {key : Text} {call : Call} (late : s.stage h = .released key true) (taken : step s (.run (.inr h) call) = some t)
    (holds : Holds s.locks (.inl n) key) (uncalled : ∀ late, s.stage n ≠ .released key late) : Holds t.locks (.inl n) key := by
  have safe := run.invariant step_safe (start_safe start)
  obtain ⟨locks, called, rfl⟩ := Option.map_eq_some_iff.mp taken
  refine run_keeps safe.locks called holds fun lock releasing own => ?_
  obtain ⟨h', rfl, _, lost⟩ := safe.spared key h lock late releasing
  obtain ⟨late', gone⟩ := lost own
  obtain rfl := Sum.inl.inj (safe.locks.exclusive holds own)
  exact uncalled late' gone

/-! ### Runs of seventeen holders -/

instance distinctDecidable [Fintype ι] (s : State ι) (h : ι) (key : Text) (ttlMs : ℚ) (token : Text) (connected : Bool) :
    Decidable (Distinct s.locks (.tryLock (.inl h) key ttlMs token connected)) :=
  decidable_of_iff ((∀ h, (s.locks.drawn (.inl h)).map Prod.snd ≠ some token) ∧
      ∀ h, (s.locks.drawn (.inr h)).map Prod.snd ≠ some token) <| by
    constructor
    · intro fresh c key found
      cases c with
      | inl h => exact fresh.1 h (by rw [found]; rfl)
      | inr h => exact fresh.2 h (by rw [found]; rfl)
    · intro fresh
      constructor
      all_goals
        intro h found
        obtain ⟨⟨key, _⟩, drawn, rfl⟩ := Option.map_eq_some_iff.mp found
        exact fresh _ key drawn

instance [Fintype ι] (s : State ι) : (e : Event ι) → Decidable (Drawn s e)
  | .acquireLock h key ttlMs token connected => distinctDecidable s h key ttlMs token connected
  | .run .. => .isTrue trivial
  | .resume _ => .isTrue trivial
  | .releaseLock .. => .isTrue trivial
  | .advance _ => .isTrue trivial

instance [Fintype ι] (s : State ι) : (e : Event ι) → Decidable (Timely s e)
  | .acquireLock h key ttlMs token connected => distinctDecidable s h key ttlMs token connected
  | .run .. => .isTrue trivial
  | .resume _ => .isTrue trivial
  | .releaseLock h _ =>
    match found : s.stage h with
    | .holding key => decidable_of_iff (lapsed s h key = true → h ∈ s.recent key) <| by
        constructor
        · intro timely key' holding
          obtain rfl := Stage.holding.inj (found.symm.trans holding)
          exact timely
        · exact fun timely => timely key found
    | .idle => .isTrue fun _ holding => nomatch found.symm.trans holding
    | .trying .. => .isTrue fun _ holding => nomatch found.symm.trans holding
    | .granted _ => .isTrue fun _ holding => nomatch found.symm.trans holding
    | .failed => .isTrue fun _ holding => nomatch found.symm.trans holding
    | .released .. => .isTrue fun _ holding => nomatch found.symm.trans holding
  | .advance _ => .isTrue trivial

def noHolders : State (Fin 17) where
  locks := { store := .empty 0, locks := fun _ => none, phase := fun _ => .idle, drawn := fun _ => none }
  held := ∅
  replies := []
  stage _ := .idle
  order _ := []
  recent _ := []

theorem noHolders_start : Start noHolders :=
  ⟨⟨fun _ => rfl, fun _ => rfl, fun _ => rfl, fun _ => rfl⟩, fun _ => rfl, rfl, fun _ => rfl, fun _ => rfl, fun _ => rfl⟩

/-- A token of 32 hexadecimal digits. -/
def tokenOf (h : Fin 17) : Text := List.replicate h.val 48 ++ List.replicate (32 - h.val) 102

/-- The holder takes the key for a millisecond, which passes. -/
def overruns (h : Fin 17) : List (Event (Fin 17)) :=
  [.acquireLock h (text "k") 1 (tokenOf h) true, .run (.inl h) .ok, .resume h.val, .advance 1]

def takes (h : Fin 17) : List (Event (Fin 17)) :=
  [.acquireLock h (text "k") 60000 (tokenOf h) true, .run (.inl h) .ok, .resume h.val]

def releases (h : Fin 17) : List (Event (Fin 17)) := [.releaseLock h true, .run (.inr h) .ok]

/-- The check of a run that ends before the release of `h`, where `n` has the key: what is left of the key afterwards. -/
def aboutToRelease (s : State (Fin 17)) (h n : Fin 17) (left : Option Text) : Prop :=
  s.stage h = .released (text "k") true ∧ s.stage n = .holding (text "k") ∧
    s.locks.drawn (.inl n) = some (text "k", tokenOf n) ∧ s.locks.store.get (lockKey (text "k")) = some (tokenOf n) ∧
    (step s (.run (.inr h) .ok)).map (fun t => t.locks.store.get (lockKey (text "k"))) = some left

instance (s : State (Fin 17)) (h n : Fin 17) (left : Option Text) : Decidable (aboutToRelease s h n left) :=
  inferInstanceAs (Decidable (_ ∧ _))

/-- The first of two holders releases late. -/
theorem late_release_spares_second : ∃ s t : State (Fin 17), step s (.run (.inr 0) .ok) = some t ∧
    s.stage 0 = .released (text "k") true ∧ Holds s.locks (.inl 1) (text "k") ∧ Holds t.locks (.inl 1) (text "k") := by
  have check : ∃ s ∈ Runs.exec step Timely noHolders (overruns 0 ++ takes 1 ++ [.releaseLock 0 true]),
      aboutToRelease s 0 1 (some (tokenOf 1)) := by decide +kernel
  obtain ⟨s, reached, late, holding, drawn, stored, after⟩ := check
  obtain ⟨t, taken, _⟩ := Option.map_eq_some_iff.mp after
  have holds : Holds s.locks (.inl 1) (text "k") := ⟨_, drawn, stored⟩
  refine ⟨s, t, taken, late, holds, ?_⟩
  refine late_release_spares noHolders_start (Runs.Run.of_exec reached) late taken holds fun late' released => ?_
  cases holding.symm.trans released

/-- Of seventeen entries the first is dropped, and so the late releases of sixteen holders reach the lock of the last. -/
theorem sixteenth_late_release_frees : ¬ ∀ (s₀ s t : State (Fin 17)) (es : List (Event (Fin 17))) (h n : Fin 17) (key : Text)
    (call : Call), Start s₀ → Runs.Run step Drawn s₀ es s → s.stage h = .released key true →
      step s (.run (.inr h) call) = some t → Holds s.locks (.inl n) key →
      (∀ late, s.stage n ≠ .released key late) → Holds t.locks (.inl n) key := by
  have check : ∃ s ∈ Runs.exec step Drawn noHolders (((List.finRange 17).take 16).flatMap overruns ++ takes 16 ++
      ((List.finRange 17).take 15).flatMap releases ++ [.releaseLock 15 true]), aboutToRelease s 15 16 none := by
    decide +kernel
  obtain ⟨s, reached, late, holding, drawn, stored, after⟩ := check
  obtain ⟨t, taken, freed⟩ := Option.map_eq_some_iff.mp after
  intro spares
  obtain ⟨token, _, left⟩ := spares noHolders s t _ 15 16 (text "k") .ok noHolders_start (Runs.Run.of_exec reached) late taken
    ⟨_, drawn, stored⟩ fun late' released => nomatch holding.symm.trans released
  cases freed.symm.trans left

end Locks.Named
