import AppPlatform.Identity.ApprovedContexts
import AppPlatform.Identity.ContextSteps

/-!
# A context that was cleared

`clearContext` empties the sessions of a user that hold a context, and forgets the membership. A call that
was told of the membership before can still write the context, and can remember the membership again; a
session is answered with the context only when both come after the clear.
-/

namespace Identity.Context
open Js
variable {ι : Type*}

/-! ### UUIDs -/

theorem hexGroups_length {lengths : List ℕ} {t : Text} (groups : hexGroups lengths t = true) :
    t.length + 1 = lengths.sum + lengths.length ∨ lengths = [] := by
  induction lengths generalizing t with
  | nil => exact Or.inr rfl
  | cons n lengths ih =>
    refine Or.inl ?_
    cases lengths with
    | nil =>
      simp only [hexGroups, Bool.and_eq_true, decide_eq_true_eq] at groups
      simp [groups.1]
    | cons m lengths =>
      simp only [hexGroups, Bool.and_eq_true, decide_eq_true_eq] at groups
      obtain ⟨⟨⟨whole, _⟩, hyphen⟩, rest⟩ := groups
      have long : n < t.length := by
        by_contra short
        rw [List.drop_eq_nil_of_le (by omega)] at hyphen
        cases hyphen
      have later := (ih rest).resolve_right nofun
      rw [List.length_drop] at later
      simp only [List.sum_cons, List.length_cons] at later ⊢
      omega

theorem uuidText_length {t : Text} (uuid : uuidText t = true) : t.length = 36 := by
  have groups := (hexGroups_length uuid).resolve_right nofun
  simp at groups
  omega

theorem keyOf_injective {userId contextId userId' contextId' : Text} (uuid : uuidText contextId = true)
    (uuid' : uuidText contextId' = true) (same : keyOf userId contextId = keyOf userId' contextId') :
    userId = userId' ∧ contextId = contextId' := by
  have lengths : (0 :: contextId).length = (0 :: contextId').length := by
    simp [uuidText_length uuid, uuidText_length uuid']
  obtain ⟨users, contexts⟩ := List.append_inj' same lengths
  exact ⟨users, (List.cons.inj contexts).2⟩

/-- The contexts a call asks for are UUIDs, and it has begun. -/
def Proper : Phase → Prop
  | .approving _ _ candidate => uuidText candidate = true
  | .checking _ _ seen _ => uuidText seen = true
  | .loading _ next => ∀ contextId, next = some contextId → uuidText contextId = true
  | .asking _ _ next _ => uuidText next = true
  | .setting _ _ next _ => ∀ contextId, next = some contextId → uuidText contextId = true
  | .replied p _ => p ≠ .idle ∧ Proper p
  | _ => True

theorem decided_proper (contextId : Option Text) (purpose : Purpose) : Proper (decided contextId purpose) := by
  cases purpose <;> trivial

theorem deciding_proper (c : Config) (purpose : Purpose) (userId : Text) : Proper (deciding c purpose userId) := by
  unfold deciding
  split
  · trivial
  · exact decided_proper none purpose

theorem begun_proper (call : Call) : Proper (begun call) := by
  cases call with
  | setContext token body =>
    simp only [begun]
    split
    · intro context no
      cases no
    · rename_i context uuid
      rintro _ ⟨⟩
      exact isUuid_proper uuid
    · trivial
  | clearContext contextId userId =>
    simp only [begun]
    split <;> trivial
  | _ => trivial

theorem Next.proper {c : Config} {s : State ι} {p p' : Phase} {e : Event ι} (next : Next c s p e p') (proper : Proper p) :
    Proper p' := by
  cases next with
  | begun => exact begun_proper _
  | hookFallback => exact deciding_proper c _ _
  | noCandidate => exact decided_proper none _
  | candidate uuid => exact isUuid_proper uuid
  | approved => exact decided_proper _ _
  | notApproved => exact decided_proper none _
  | served loads =>
    refine ⟨?_, proper⟩
    rintro rfl
    cases loads
  | listed => exact ⟨nofun, proper⟩
  | written writes =>
    refine ⟨?_, proper⟩
    rintro rfl
    cases writes
  | unsure uuid => exact isUuid_proper uuid
  | lost => exact deciding_proper c _ _
  | loaded => exact proper.2 _ rfl
  | loadedNone => exact nofun
  | allowed =>
    rintro _ ⟨⟩
    exact proper
  | wentOn => exact proper.2
  | clearedOne => split <;> trivial
  | _ => trivial

theorem Next.busy {c : Config} {s : State ι} {p p' : Phase} {e : Event ι} (next : Next c s p e p') (proper : Proper p) :
    p' ≠ .idle := by
  have decided_busy : ∀ contextId purpose, decided contextId purpose ≠ .idle := by
    intro contextId purpose
    cases purpose <;> (intro same; cases same)
  have deciding_busy : ∀ purpose userId, deciding c purpose userId ≠ .idle := by
    intro purpose userId
    unfold deciding
    split
    · intro same
      cases same
    · exact decided_busy none purpose
  cases next with
  | @begun r call =>
    cases call with
    | setContext token body =>
      simp only [Context.begun]
      split <;> (intro same; cases same)
    | clearContext contextId userId =>
      simp only [Context.begun]
      split <;> (intro same; cases same)
    | _ => intro same; cases same
  | hookFallback => exact deciding_busy _ _
  | noCandidate => exact decided_busy none _
  | approved => exact decided_busy _ _
  | notApproved => exact decided_busy none _
  | lost => exact deciding_busy _ _
  | wentOn => exact proper.1
  | clearedOne => split <;> (intro same; cases same)
  | _ => intro same; cases same

theorem step_proper [DecidableEq ι] {c : Config} {s t : State ι} {e : Event ι} (proper : ∀ r, Proper (s.phase r))
    (taken : step c s e = some t) (r : ι) : Proper (t.phase r) := by
  rcases (step_did taken).phase r with same | ⟨_, next⟩
  · rw [same]
    exact proper r
  · exact next.proper (proper r)

/-- The user and the context a call asks `membership` about. -/
def Phase.asked? : Phase → Option (Text × Text)
  | .approving _ userId candidate => some (userId, candidate)
  | .checking _ userId seen _ => some (userId, seen)
  | .asking _ userId next _ => some (userId, next)
  | _ => none

/-- The session is one `findMany` looks for. -/
def Matches (contextId : Text) (target : Option Text) (session : Session ι) : Prop :=
  session.contextId = .str contextId ∧ ∀ userId, target = some userId → session.userId = .str userId

def findLimit : ℕ := 500

/-- The rows of `findMany`, of which there are at most `findLimit`. -/
structure Lists (s : State ι) (contextId : Text) (target : Option Text) (rows : List (Text × Value)) : Prop where
  sound : ∀ row ∈ rows, ∃ session, s.session? row.1 = some session ∧ session.userId = row.2 ∧ Matches contextId target session
  complete : rows.length < findLimit → ∀ token session, s.session? token = some session → Matches contextId target session →
    token ∈ rows.map Prod.fst

/-- The store works: it serves what is stored, and every write is made and answered. -/
def Works (s : State ι) : Event ι → Prop
  | .load r found => ∀ token answer, (s.phase r).load? = some token → found = some answer →
      ∃ session, s.session? token = some session ∧ answer.userId = session.userId ∧ answer.contextId = session.contextId
  | .list r rows => ∀ contextId target seen count, s.phase r = .scanning contextId target seen count →
      Lists s contextId target rows
  | .update _ outcome => outcome = .done
  | _ => True

/-- `membership` denies the context to the user, whenever it is asked after the state `base`. -/
def Denied (userId contextId : Text) (base s : State ι) : Event ι → Prop
  | .membership r answer => (s.phase r).asked? = some (userId, contextId) → s.phase r ≠ base.phase r → answer = .value false
  | _ => True

def Unwritten (userId contextId : Text) (s : State ι) : Event ι → Prop
  | .insert r => ∀ token row, s.phase r = .inserting token row →
      ¬ (row.lookup (text "userId") = some (.str userId) ∧ row.lookup (text "contextId") = some (.str contextId))
  | .update r _ => ∀ token session, (s.phase r).write? = some (token, some contextId) → s.session? token = some session →
      session.userId ≠ .str userId
  | _ => True

/-- No call remembers the membership, and no read goes on with a session of the user that holds the context and has expired. -/
def Unremembered (userId contextId : Text) (s : State ι) (e : Event ι) : Prop :=
  remembers s e ≠ some (userId, contextId) ∧ ∀ r token answer, e = .resume r →
    s.phase r = .replied (.finding token) (.found (some answer)) → answer.userId = .str userId →
    answer.contextId = .str contextId → answer.expiresAt.any (· ≤ s.now) = false

/-! ### Sessions that hold the context -/

def Holds (s : State ι) (userId contextId token : Text) : Prop :=
  ∃ session, s.session? token = some session ∧ session.userId = .str userId ∧ session.contextId = .str contextId

/-- No session comes to hold the context unless it is written. -/
theorem holds_of_step [DecidableEq ι] {c : Config} {s t : State ι} {e : Event ι} {userId contextId token : Text}
    (unwritten : Unwritten userId contextId s e) (taken : step c s e = some t) (holds : Holds t userId contextId token) :
    Holds s userId contextId token := by
  obtain ⟨session, found, user, context⟩ := holds
  cases (step_did taken).stored found with
  | before old => exact ⟨session, old, user, context⟩
  | @inserted r row event inserting unused same =>
    subst event same
    refine (unwritten token row inserting ⟨?_, ?_⟩).elim
    · unfold sessionOf at user
      cases stored : row.lookup (text "userId") with
      | none => simp [stored] at user
      | some value => simp_all
    · unfold sessionOf at context
      cases stored : row.lookup (text "contextId") with
      | none => simp [stored] at context
      | some value => simp_all
  | @written r outcome contextId' before event made writes present same =>
    subst event same
    cases contextId' with
    | none => cases context
    | some contextId' =>
      obtain rfl := Value.str.inj context
      exact (unwritten token before writes present user).elim

/-- The phases of the clear, once it has checked what it was given. -/
def Clears (userId contextId : Text) : Phase → Prop
  | .scanning contextId' target _ _ => contextId' = contextId ∧ target = some userId ∧ uuidText contextId = true
  | .clearing contextId' target _ _ _ => contextId' = contextId ∧ target = some userId ∧ uuidText contextId = true
  | .replied p _ => Clears userId contextId p ∧ ∀ count, p ≠ .cleared count
  | .cleared _ => True
  | .failed => True
  | _ => False

theorem begun_clears (userId contextId : Text) :
    Clears userId contextId (begun (.clearContext contextId (some userId))) := by
  simp only [begun]
  split
  · rename_i uuids
    exact ⟨rfl, rfl, (Bool.and_eq_true_iff.mp uuids).1⟩
  · trivial

theorem Next.clears {c : Config} {s : State ι} {p p' : Phase} {e : Event ι} {userId contextId : Text} (next : Next c s p e p')
    (clears : Clears userId contextId p) : Clears userId contextId p' := by
  cases next with
  | served waits =>
    refine ⟨clears, ?_⟩
    rintro count rfl
    cases waits
  | listed => exact ⟨clears, nofun⟩
  | written writes =>
    refine ⟨clears, ?_⟩
    rintro count rfl
    cases writes
  | wentOn => exact clears.1
  | clearedOne =>
    split
    · exact clears.1
    · exact clears.1
  | notCleared => trivial
  | batch => exact clears.1
  | cleared => trivial
  | _ => first | exact False.elim clears | exact False.elim clears.1

def Emptied (userId contextId : Text) (s : State ι) : Phase → Prop
  | .scanning _ _ seen _ => ∀ token ∈ seen, ¬ Holds s userId contextId token
  | .clearing _ _ seen _ batch => ∀ token ∈ seen, Holds s userId contextId token → token ∈ batch.map Prod.fst
  | .replied (.scanning _ _ seen _) (.rows rows) => (∀ token ∈ seen, ¬ Holds s userId contextId token) ∧
      (∀ row ∈ rows, row.1 ∉ seen) ∧
        (rows.length < findLimit → ∀ token, Holds s userId contextId token → token ∈ rows.map Prod.fst)
  | .replied (.clearing _ _ seen _ (_ :: batch)) _ => ∀ token ∈ seen, Holds s userId contextId token → token ∈ batch.map Prod.fst
  | .cleared _ => ∀ token, ¬ Holds s userId contextId token
  | .failed => True
  | _ => False

theorem Emptied.shrinks {userId contextId : Text} {s t : State ι} {p : Phase} (emptied : Emptied userId contextId s p)
    (shrinks : ∀ token, Holds t userId contextId token → Holds s userId contextId token) : Emptied userId contextId t p := by
  revert emptied
  unfold Emptied
  split
  · exact fun emptied token member holds => emptied token member (shrinks token holds)
  · exact fun emptied token member holds => emptied token member (shrinks token holds)
  · rintro ⟨seen, unseen, all⟩
    exact ⟨fun token member holds => seen token member (shrinks token holds), unseen,
      fun few token holds => all few token (shrinks token holds)⟩
  · exact fun emptied token member holds => emptied token member (shrinks token holds)
  · exact fun emptied token holds => emptied token (shrinks token holds)
  · exact id
  · exact id

theorem begun_emptied (userId contextId : Text) (s : State ι) :
    Emptied userId contextId s (begun (.clearContext contextId (some userId))) := by
  simp only [begun]
  split
  · intro token member
    cases member
  · trivial

theorem emptied_end {userId contextId : Text} {s : State ι} {seen : List Text} {rows : List (Text × Value)}
    (unseen : ∀ row ∈ rows, row.1 ∉ seen) (all : rows.length < findLimit → ∀ token, Holds s userId contextId token →
      token ∈ rows.map Prod.fst) (done : rows.filter (·.1 ∉ seen) = []) (token : Text) : ¬ Holds s userId contextId token := by
  intro holds
  have none : rows = [] := by
    rw [List.filter_eq_nil_iff] at done
    refine List.eq_nil_iff_forall_not_mem.mpr fun row member => ?_
    exact done row member (by simpa using unseen row member)
  subst none
  have listed := all (by decide) token holds
  cases listed

section
variable [DecidableEq ι] {c : Config} {userId contextId : Text}

theorem emptied_write {s t : State ι} {r : ι} {target : Option Text} {seen : List Text} {count : ℕ} {row : Text × Value}
    {batch : List (Text × Value)} {outcome : Outcome} (made : outcome = .done)
    (clearing : s.phase r = .clearing contextId target seen count (row :: batch)) (taken : step c s (.update r outcome) = some t) :
    ¬ Holds t userId contextId row.1 := by
  subst made
  have writes : (s.phase r).write? = some (row.1, none) := by
    rw [clearing]
    rfl
  simp only [step, writes] at taken
  obtain rfl := Option.some.inj taken
  rintro ⟨session, found, _, context⟩
  have cleared := writeContext_holds found
  cases context.symm.trans cleared

theorem step_emptied {s t : State ι} {e : Event ι} {r : ι} (clears : Clears userId contextId (s.phase r))
    (emptied : Emptied userId contextId s (s.phase r)) (works : Works s e) (unwritten : Unwritten userId contextId s e)
    (taken : step c s e = some t) : Emptied userId contextId t (t.phase r) := by
  have shrinks : ∀ token, Holds t userId contextId token → Holds s userId contextId token :=
    fun token holds => holds_of_step unwritten taken holds
  rcases (step_did taken).phase r with same | ⟨caller, next⟩
  · rw [same]
    exact emptied.shrinks shrinks
  · generalize before : s.phase r = p at next clears emptied
    generalize t.phase r = p' at next ⊢
    cases next with
    | served loads =>
      cases p with
      | finding => cases clears
      | loading => cases clears
      | _ => cases loads
    | listed =>
      obtain ⟨rfl, rfl, _⟩ := clears
      obtain rfl := Option.some.inj caller
      obtain ⟨sound, complete⟩ := works _ _ _ _ before
      refine ⟨fun token member holds => emptied token member (shrinks token holds), ?_, ?_⟩
      · intro row member seen
        obtain ⟨session, found, user, context, owned⟩ := sound row member
        exact emptied row.1 seen ⟨session, found, owned _ rfl, context⟩
      · intro few token holds
        obtain ⟨session, found, user, context⟩ := shrinks token holds
        refine complete few token session found ⟨context, ?_⟩
        rintro _ ⟨⟩
        exact user
    | @written _ _ _ _ _ _ writes =>
      cases p with
      | clearing contextId' target seen count batch =>
        obtain rfl := Option.some.inj caller
        obtain ⟨rfl, _, _⟩ := clears
        cases batch with
        | nil => cases writes
        | cons row batch =>
          have gone : ¬ Holds t userId _ row.1 := emptied_write works before taken
          intro token member holds
          have listed := emptied token member (shrinks token holds)
          rw [List.map_cons] at listed
          refine (List.mem_cons.mp listed).resolve_left ?_
          rintro rfl
          exact gone holds
      | replacing => cases clears
      | setting => cases clears
      | _ => cases writes
    | clearedOne =>
      rename_i batch _
      split
      · rename_i last
        subst last
        intro token member holds
        cases emptied token member (shrinks token holds)
      · exact fun token member holds => emptied token member (shrinks token holds)
    | notCleared => trivial
    | batch more =>
      obtain ⟨seen, unseen, all⟩ := emptied
      intro token member holds
      rcases List.mem_append.mp member with old | new
      · exact (seen token old (shrinks token holds)).elim
      · exact new
    | cleared done =>
      obtain ⟨seen, unseen, all⟩ := emptied
      exact fun token holds => emptied_end unseen all done token (shrinks token holds)
    | wentOn idle =>
      cases p' with
      | clearing contextId' target seen count batch =>
        cases batch with
        | nil => cases emptied
        | cons row batch => cases idle
      | _ => cases emptied
    | _ => first | exact False.elim clears | exact False.elim clears.1

end

/-! ### Reads -/

/-- A read that is in this phase will not answer the context, unless it trusts what it was served. -/
def Fine (userId contextId : Text) : Phase → Prop
  | .choosing (.replace _ owner _ found) asked => found.userId = .str owner ∧ asked = owner
  | .approving (.replace _ owner _ found) asked _ => found.userId = .str owner ∧ asked = owner
  | .checking _ owner seen found => found.userId = .str owner ∧ found.contextId = .str seen
  | .replacing _ _ _ found replacement => found.userId = .str userId → replacement ≠ some contextId
  | .returned (some found) => found.userId = .str userId → found.contextId ≠ .str contextId
  | .replied p _ => Fine userId contextId p
  | _ => True

theorem isUuid_str {value : Value} {t : Text} (uuid : isUuid value = some t) : value = .str t := by
  unfold isUuid at uuid
  split at uuid
  · obtain ⟨_, same⟩ := Option.ite_none_right_eq_some.mp uuid
    rw [Option.some.inj same]
  · cases uuid

theorem begun_fine (userId contextId : Text) (call : Call) : Fine userId contextId (begun call) := by
  cases call with
  | setContext token body =>
    simp only [begun]
    split <;> trivial
  | clearContext contextId' target =>
    simp only [begun]
    split <;> trivial
  | _ => trivial

theorem deciding_fine (c : Config) {userId contextId asked : Text} {purpose : Purpose}
    (asks : Fine userId contextId (.choosing purpose asked)) : Fine userId contextId (deciding c purpose asked) := by
  unfold deciding
  split
  · exact asks
  · cases purpose with
    | create => trivial
    | replace => exact fun _ => nofun

/-- A read that is denied the membership never comes to answer the context, if it did not trust what it was served. -/
theorem Next.fine {c : Config} {s : State ι} {p p' : Phase} {e : Event ι} {userId contextId : Text} (next : Next c s p e p')
    (uuid : uuidText contextId = true) (fine : Fine userId contextId p)
    (denied : ∀ r answer, e = .membership r answer → p.asked? = some (userId, contextId) → answer = .value false)
    (trusts : ∀ token answer, p = .replied (.finding token) (.found (some answer)) →
      answer.expiresAt.any (· ≤ s.now) ∨ isBelieved s.now userId contextId s.believed → answer.userId = .str userId →
      answer.contextId ≠ .str contextId) : Fine userId contextId p' := by
  cases next with
  | begun => exact begun_fine _ _ _
  | hookFallback => exact deciding_fine c trivial
  | @noCandidate _ purpose =>
    cases purpose with
    | create => trivial
    | replace => exact fun _ => nofun
  | @candidate _ purpose =>
    cases purpose with
    | create => trivial
    | replace => exact fine
  | @approved r purpose asked candidate =>
    cases purpose with
    | create => trivial
    | replace token owner seen found =>
      obtain ⟨user, same⟩ := fine
      intro mine approved
      obtain rfl := Option.some.inj approved
      obtain rfl := Value.str.inj (user.symm.trans mine)
      subst same
      cases denied r _ rfl rfl
  | @notApproved _ purpose =>
    cases purpose with
    | create => trivial
    | replace => exact fun _ => nofun
  | served => exact fine
  | listed => exact fine
  | written => exact fine
  | @found r token found trusted =>
    cases found with
    | none => trivial
    | some answer =>
      intro user context
      have proper : isUuid answer.contextId = some contextId := by
        rw [context]
        exact if_pos uuid
      exact trusts token answer rfl (trusted answer userId contextId rfl proper user) user context
  | unsure proper user => exact ⟨user, isUuid_str proper⟩
  | @kept r token owner seen found answer member =>
    obtain ⟨user, context⟩ := fine
    intro mine holds
    obtain rfl := Value.str.inj (user.symm.trans mine)
    obtain rfl := Value.str.inj (context.symm.trans holds)
    exact member (denied r answer rfl rfl)
  | lost => exact deciding_fine c ⟨fine.1, rfl⟩
  | @replaced r token owner seen found replacement =>
    intro user context
    cases replacement with
    | none => cases context
    | some replacement =>
      obtain rfl := Value.str.inj context
      exact fine user rfl
  | wentOn => exact fine
  | clearedOne => split <;> trivial
  | _ => trivial

def Served (userId contextId : Text) : Phase → Prop
  | .replied p reply => Served userId contextId p ∧ ∀ token answer, p = .finding token → reply = .found (some answer) →
      answer.userId = .str userId → answer.contextId ≠ .str contextId
  | _ => True

theorem begun_served (userId contextId : Text) (call : Call) : Served userId contextId (begun call) := by
  cases call with
  | setContext token body =>
    simp only [begun]
    split <;> trivial
  | clearContext contextId' target =>
    simp only [begun]
    split <;> trivial
  | _ => trivial

theorem decided_served (userId contextId : Text) (replacement : Option Text) (purpose : Purpose) :
    Served userId contextId (decided replacement purpose) := by
  cases purpose <;> trivial

theorem deciding_served (c : Config) (userId contextId : Text) (purpose : Purpose) (asked : Text) :
    Served userId contextId (deciding c purpose asked) := by
  unfold deciding
  split
  · trivial
  · exact decided_served userId contextId none purpose

section
variable [DecidableEq ι] {c : Config} {userId contextId : Text}

theorem step_served {s t : State ι} {e : Event ι} {q : ι} (none : ∀ token, ¬ Holds s userId contextId token) (works : Works s e)
    (served : Served userId contextId (s.phase q)) (taken : step c s e = some t) : Served userId contextId (t.phase q) := by
  rcases (step_did taken).phase q with same | ⟨caller, next⟩
  · rw [same]
    exact served
  · generalize before : s.phase q = p at next served
    generalize t.phase q = p' at next ⊢
    cases next with
    | begun => exact begun_served _ _ _
    | hookFallback => exact deciding_served c _ _ _ _
    | noCandidate => exact decided_served _ _ _ _
    | approved => exact decided_served _ _ _ _
    | notApproved => exact decided_served _ _ _ _
    | lost => exact deciding_served c _ _ _ _
    | served waits =>
      obtain rfl := Option.some.inj caller
      refine ⟨served, ?_⟩
      rintro token answer rfl ⟨⟩ user context
      obtain ⟨session, found, owner, holds⟩ := works token answer (by rw [before]; rfl) rfl
      exact none _ ⟨session, found, owner.symm.trans user, holds.symm.trans context⟩
    | listed => exact ⟨trivial, nofun⟩
    | written => exact ⟨served, fun _ _ _ => nofun⟩
    | wentOn => exact served.1
    | clearedOne => split <;> trivial
    | _ => trivial

omit [DecidableEq ι] in
/-- The phase of a call that began after the state `base` differs from the one it had then, unless it waits to begin. -/
theorem asked_since {base s : State ι} {q : ι} (idle : base.phase q = .idle) {pair : Text × Text}
    (asked : (s.phase q).asked? = some pair) : s.phase q ≠ base.phase q := by
  rw [idle]
  intro same
  rw [same] at asked
  cases asked

omit [DecidableEq ι] in
theorem denied_answer {base s : State ι} {e : Event ι} {q : ι} (idle : base.phase q = .idle)
    (denied : Denied userId contextId base s e) (caller : e.caller? = some q) (r : ι) (answer : Answer Bool)
    (event : e = .membership r answer) (asked : (s.phase q).asked? = some (userId, contextId)) : answer = .value false := by
  subst event
  obtain rfl := Option.some.inj caller
  exact denied asked (asked_since idle asked)

/-- No membership of the pair is remembered. -/
def Forgotten (userId contextId : Text) (s : State ι) : Prop := s.believed.lookup (keyOf userId contextId) = none

omit [DecidableEq ι] in
theorem Forgotten.unsure {s : State ι} (forgotten : Forgotten userId contextId s) :
    isBelieved s.now userId contextId s.believed = false := by
  unfold isBelieved
  rw [forgotten]

omit [DecidableEq ι] in
theorem remembers_proper {s : State ι} {e : Event ι} (proper : ∀ r, Proper (s.phase r)) {pair : Text × Text}
    (remembered : remembers s e = some pair) : uuidText pair.2 = true := by
  unfold remembers at remembered
  split at remembered
  · rename_i r
    have here := proper r
    split at remembered
    · rename_i asks
      rw [asks] at here
      obtain rfl := Option.some.inj remembered
      exact here
    · rename_i asks
      rw [asks] at here
      obtain rfl := Option.some.inj remembered
      exact here
    · cases remembered
  · rename_i r
    have here := proper r
    split at remembered
    · rename_i waits
      rw [waits] at here
      obtain rfl := Option.some.inj remembered
      exact here.2 _ rfl
    · cases remembered
  · cases remembered

theorem step_forgotten {s t : State ι} {e : Event ι} (uuid : uuidText contextId = true) (proper : ∀ r, Proper (s.phase r))
    (forgotten : Forgotten userId contextId s) (unremembered : remembers s e ≠ some (userId, contextId))
    (taken : step c s e = some t) : Forgotten userId contextId t := by
  refine Option.eq_none_iff_forall_ne_some.mpr fun till present => ?_
  rcases (step_did taken).believed present with old | ⟨userId', contextId', remembered, same⟩
  · cases old.symm.trans forgotten
  · obtain ⟨rfl, rfl⟩ := keyOf_injective uuid (remembers_proper proper remembered) same
    exact unremembered remembered

theorem cleared_forgotten {s t : State ι} {r : ι} {count : ℕ} (clears : Clears userId contextId (s.phase r))
    (taken : step c s (.resume r) = some t) (cleared : t.phase r = .cleared count) :
    Forgotten userId contextId t ∧ uuidText contextId = true := by
  rcases (step_did taken).phase r with same | ⟨_, next⟩
  · have idle : s.phase r = .cleared count := same.symm.trans cleared
    simp only [step, idle] at taken
    cases taken
  · generalize before : s.phase r = p at next clears
    generalize t.phase r = p' at next cleared
    cases next with
    | cleared done =>
      rename_i contextId' target seen count rows
      obtain ⟨⟨rfl, rfl, uuid⟩, _⟩ := clears
      simp only [step, before, resumed, scanned, if_pos done] at taken
      obtain rfl := Option.some.inj taken
      exact ⟨AList.lookup_erase _ _, uuid⟩
    | wentOn => exact (clears.2 _ cleared).elim
    | clearedOne =>
      split at cleared <;> cases cleared
    | _ => cases cleared

theorem step_clears {s t : State ι} {e : Event ι} {r : ι} (clears : Clears userId contextId (s.phase r))
    (taken : step c s e = some t) : Clears userId contextId (t.phase r) := by
  rcases (step_did taken).phase r with same | ⟨_, next⟩
  · rw [same]
    exact clears
  · exact next.clears clears

/-- What a read that begins after the clear can rely on. -/
structure Reads (userId contextId : Text) (s : State ι) (q : ι) : Prop where
  proper : ∀ r, Proper (s.phase r)
  fine : Fine userId contextId (s.phase q)

theorem step_reads {base s t : State ι} {e : Event ι} {q : ι} (uuid : uuidText contextId = true) (idle : base.phase q = .idle)
    (reads : Reads userId contextId s q) (denied : Denied userId contextId base s e)
    (trusts : ∀ token answer, e = .resume q → s.phase q = .replied (.finding token) (.found (some answer)) →
      answer.expiresAt.any (· ≤ s.now) ∨ isBelieved s.now userId contextId s.believed → answer.userId = .str userId →
      answer.contextId ≠ .str contextId) (taken : step c s e = some t) : Reads userId contextId t q := by
  refine ⟨step_proper reads.proper taken, ?_⟩
  rcases (step_did taken).phase q with same | ⟨caller, next⟩
  · rw [same]
    exact reads.fine
  · refine next.fine uuid reads.fine (denied_answer idle denied caller) ?_
    intro token answer waits
    refine trusts token answer ?_ waits
    generalize s.phase q = p at next waits
    generalize t.phase q = p' at next
    subst waits
    cases next with
    | found => rw [Option.some.inj caller]
    | unsure => rw [Option.some.inj caller]
    | served loads => cases loads
    | written writes => cases writes

/-! ### Whole runs -/

/-- Either no call gives the context to a session of the user, or none remembers the membership. -/
def Spared (unwritten : Bool) (userId contextId : Text) (s : State ι) (e : Event ι) : Prop :=
  if unwritten then Unwritten userId contextId s e else Unremembered userId contextId s e

/-- A read that begins when the membership is forgotten does not answer the context, as long as the membership stays so. -/
theorem forgotten_effective {base s₄ s₅ : State ι} {es : List (Event ι)} {q : ι} (uuid : uuidText contextId = true)
    (proper : ∀ r, Proper (s₄.phase r)) (old : base.phase q = .idle) (idle : s₄.phase q = .idle)
    (forgotten : Forgotten userId contextId s₄)
    (after : Runs.Run (step c) (fun s e => Denied userId contextId base s e ∧ Unremembered userId contextId s e) s₄ es s₅) :
    Reads userId contextId s₅ q := by
  have start : Forgotten userId contextId s₄ ∧ Reads userId contextId s₄ q := by
    refine ⟨forgotten, proper, ?_⟩
    rw [idle]
    trivial
  refine (after.invariant (I := fun s => Forgotten userId contextId s ∧ Reads userId contextId s q) ?_ start).2
  rintro s e t ⟨forgotten, reads⟩ ⟨denied, unremembered, alive⟩ taken
  refine ⟨step_forgotten uuid reads.proper forgotten unremembered taken, step_reads uuid old reads denied ?_ taken⟩
  intro token answer event waits trusted user context
  rcases trusted with expired | believed
  · cases (alive q token answer event waits user context).symm.trans expired
  · cases forgotten.unsure.symm.trans believed

/-- A read that begins when no session of the user holds the context does not answer it, as long as none comes to hold it. -/
theorem unheld_effective {base s₄ s₅ : State ι} {es : List (Event ι)} {q : ι} (uuid : uuidText contextId = true)
    (proper : ∀ r, Proper (s₄.phase r)) (old : base.phase q = .idle) (idle : s₄.phase q = .idle)
    (none : ∀ token, ¬ Holds s₄ userId contextId token)
    (after : Runs.Run (step c) (fun s e => Works s e ∧ Denied userId contextId base s e ∧
      Unwritten userId contextId s e) s₄ es s₅) :
    Reads userId contextId s₅ q := by
  have start : (∀ token, ¬ Holds s₄ userId contextId token) ∧ Served userId contextId (s₄.phase q) ∧
      Reads userId contextId s₄ q := by
    refine ⟨none, ?_, proper, ?_⟩
    · rw [idle]
      trivial
    · rw [idle]
      trivial
  refine (after.invariant (I := fun s => (∀ token, ¬ Holds s userId contextId token) ∧
    Served userId contextId (s.phase q) ∧ Reads userId contextId s q) ?_ start).2.2
  rintro s e t ⟨none, served, reads⟩ ⟨works, denied, unwritten⟩ taken
  refine ⟨fun token holds => none token (holds_of_step unwritten taken holds), step_served none works served taken,
    step_reads uuid old reads denied ?_ taken⟩
  intro token answer _ waits _ user context
  rw [waits] at served
  exact served.2 token answer rfl rfl user context

theorem idle_before {s t : State ι} {es : List (Event ι)} {q : ι} (proper : ∀ r, Proper (s.phase r))
    (run : Runs.Run (step c) (fun _ _ => True) s es t) (idle : t.phase q = .idle) : s.phase q = .idle := by
  by_contra busy
  refine run.invariant_under (J := fun s => ∀ r, Proper (s.phase r)) (I := fun s => s.phase q ≠ .idle) ?_ ?_ proper busy idle
  · intro s e t proper _ taken
    exact step_proper proper taken
  · intro s e t proper busy _ taken
    rcases (step_did taken).phase q with same | ⟨_, next⟩
    · rw [same]
      exact busy
    · exact next.busy (proper q)

/-- After a clear has returned, no session read that begins answers the context: if no call gives it to a session of the user
from the beginning of the clear on, or if no call remembers the membership from its end on. -/
theorem clear_effective (unwritten : Bool) {s₀ base s₁ s₂ s₃ s₄ s₅ : State ι}
    {es₀ es₁ es₂ es₃ : List (Event ι)} {r q : ι} {count : ℕ}
    {found : Found} (empty : Empty s₀) (reach : Runs.Run (step c) (fun _ _ => True) s₀ es₀ base)
    (before : Runs.Run (step c) (fun s e => Works s e ∧ Denied userId contextId base s e) base es₁ s₁)
    (begins : step c s₁ (.begin r (.clearContext contextId (some userId))) = some s₂)
    (clears : Runs.Run (step c) (fun s e => Works s e ∧ Denied userId contextId base s e ∧
      (unwritten = true → Unwritten userId contextId s e)) s₂ es₂ s₃)
    (returns : step c s₃ (.resume r) = some s₄) (cleared : s₄.phase r = .cleared count)
    (after : Runs.Run (step c) (fun s e => Works s e ∧ Denied userId contextId base s e ∧ Spared unwritten userId contextId s e)
      s₄ es₃ s₅) (idle : s₄.phase q = .idle) (answer : s₅.phase q = .returned (some found)) :
    ¬ (found.userId = .str userId ∧ found.contextId = .str contextId) := by
  have proper : ∀ r, Proper (base.phase r) := by
    refine reach.invariant (I := fun s => ∀ r, Proper (s.phase r)) (fun proper _ taken => step_proper proper taken) ?_
    intro r
    rw [empty.idle r]
    trivial
  have whole : Runs.Run (step c) (fun _ _ => True) base _ s₄ :=
    ((before.mono fun _ _ _ => trivial).append (.cons trivial begins (clears.mono fun _ _ _ => trivial))).snoc trivial returns
  have proper₄ : ∀ r, Proper (s₄.phase r) :=
    whole.invariant (I := fun s => ∀ r, Proper (s.phase r)) (fun proper _ taken => step_proper proper taken) proper
  have old := idle_before proper whole idle
  have first : s₂.phase r = begun (.clearContext contextId (some userId)) := by
    simp only [step] at begins
    split at begins
    · obtain rfl := Option.some.inj begins
      exact Calls.move_self ..
    · cases begins
  have start : Clears userId contextId (s₂.phase r) := by
    rw [first]
    exact begun_clears userId contextId
  have clearing : Clears userId contextId (s₃.phase r) :=
    clears.invariant (I := fun s => Clears userId contextId (s.phase r)) (fun clears _ taken => step_clears clears taken) start
  obtain ⟨forgotten, uuid⟩ := cleared_forgotten clearing returns cleared
  have reads : Reads userId contextId s₅ q := by
    cases unwritten with
    | false => exact forgotten_effective uuid proper₄ old idle forgotten (after.mono fun _ _ both => both.2)
    | true =>
      have nothing : Emptied userId contextId s₂ (s₂.phase r) := by
        rw [first]
        exact begun_emptied userId contextId s₂
      obtain ⟨_, emptied⟩ := clears.invariant
        (I := fun s => Clears userId contextId (s.phase r) ∧ Emptied userId contextId s (s.phase r))
        (fun both allowed taken => ⟨step_clears both.1 taken, step_emptied both.1 both.2 allowed.1 (allowed.2.2 rfl) taken⟩)
        ⟨start, nothing⟩
      have none := step_emptied (e := .resume r) clearing emptied trivial trivial returns
      rw [cleared] at none
      exact unheld_effective uuid proper₄ old idle none after
  have fine := reads.fine
  rw [answer] at fine
  exact fun both => fine both.1 both.2

end

/-! ### Two runs -/

def userU : Text := text "0194a000-0000-7000-8000-0000000000ff"

/-- Session `t` of user U: call 0 signs in, call 1 is told that U is a member of workspace A. -/
def askedForA : List (Event ℕ) :=
  [.begin 0 (.create (text "t") [(text "userId", .str userU)]), .staffHook 0 .passed, .insert 0,
    .begin 1 (.setContext (text "t") (.str workspaceA)), .load 1 (some ⟨.str userU, .null, none⟩), .resume 1,
    .membership 1 (.value true)]

theorem session?_only {s : State ℕ} {session session' : Session ℕ} {token : Text}
    (sessions : s.sessions = AList.insert (text "t") (.live session) ∅) (found : s.session? token = some session') :
    token = text "t" ∧ session' = session := by
  unfold State.session? at found
  rw [sessions] at found
  by_cases here : token = text "t"
  · subst here
    rw [AList.lookup_insert] at found
    exact ⟨rfl, (Option.some.inj found).symm⟩
  · rw [AList.lookup_insert_ne here] at found
    cases found

theorem lists_nothing {s : State ℕ} {session : Session ℕ} {contextId : Text} {target : Option Text}
    (sessions : s.sessions = AList.insert (text "t") (.live session) ∅) (none : session.contextId = .null) :
    Lists s contextId target [] where
  sound := nofun
  complete := by
    rintro - token session' found ⟨context, _⟩
    obtain ⟨-, rfl⟩ := session?_only sessions found
    cases none.symm.trans context

theorem lists_one {s : State ℕ} {session : Session ℕ} {userId contextId : Text}
    (sessions : s.sessions = AList.insert (text "t") (.live session) ∅) (user : session.userId = .str userId)
    (context : session.contextId = .str contextId) : Lists s contextId (some userId) [(text "t", .str userId)] where
  sound := by
    intro row member
    obtain rfl := List.mem_singleton.mp member
    have present : s.session? (text "t") = some session := by
      unfold State.session?
      rw [sessions, AList.lookup_insert]
    refine ⟨session, present, user, context, ?_⟩
    rintro _ ⟨⟩
    exact user
  complete := by
    intro _ token session' found _
    obtain ⟨rfl, _⟩ := session?_only sessions found
    exact List.mem_singleton_self _

theorem takes_none {s : State ℕ} {r : ℕ} {token userId contextId : Text} {outcome : Outcome}
    (writes : (s.phase r).write? = some (token, none)) : Unwritten userId contextId s (.update r outcome) := by
  intro token' session other
  cases writes.symm.trans other

theorem works_t {s : State ℕ} {p : Phase} {session : Session ℕ} {answer : Found} (waits : p.load? = some (text "t"))
    (present : s.session? (text "t") = some session) (user : answer.userId = session.userId)
    (context : answer.contextId = session.contextId) (token : Text) (answer' : Found) (here : p.load? = some token)
    (same : some answer = some answer') :
    ∃ session, s.session? token = some session ∧ answer'.userId = session.userId ∧ answer'.contextId = session.contextId := by
  obtain rfl := Option.some.inj (waits.symm.trans here)
  obtain rfl := Option.some.inj same
  exact ⟨session, present, user, context⟩

theorem lists_here {s : State ℕ} {r : ℕ} {rows : List (Text × Value)} {contextId : Text} {target : Option Text} {seen : List Text}
    {count : ℕ} (here : s.phase r = .scanning contextId target seen count) (lists : Lists s contextId target rows) :
    Works s (.list r rows) := by
  intro contextId' target' seen' count' same
  obtain ⟨rfl, rfl, _, _⟩ := Phase.scanning.inj (here.symm.trans same)
  exact lists

/-- The session is in A; the clear takes it out, and a read that follows finds it in no context. -/
theorem clear_effective_read : ∃ s : State ℕ, ∃ found, s.phase 3 = .returned (some found) ∧
    ¬ (found.userId = .str userU ∧ found.contextId = .str workspaceA) := by
  have run : ∃ base : State ℕ, Runs.Run (step ⟨false, 60000⟩) (fun _ _ => True) noSessions
    (askedForA ++ [.update 1 .done, .resume 1]) base ∧
      ∃ s₂, step ⟨false, 60000⟩ base (.begin 2 (.clearContext workspaceA (some userU))) = some s₂ ∧
      ∃ s₃, Runs.Run (step ⟨false, 60000⟩) (fun s e => Works s e ∧ Denied userU workspaceA base s e ∧
        (true = true → Unwritten userU workspaceA s e)) s₂
        [.list 2 [(text "t", .str userU)], .resume 2, .update 2 .done, .resume 2, .list 2 []] s₃ ∧
      ∃ s₄, step ⟨false, 60000⟩ s₃ (.resume 2) = some s₄ ∧ s₄.phase 2 = .cleared 1 ∧ s₄.phase 3 = .idle ∧
      ∃ s₅, Runs.Run (step ⟨false, 60000⟩) (fun s e => Works s e ∧ Denied userU workspaceA base s e ∧
        Spared true userU workspaceA s e) s₄
        [.begin 3 (.findSession (text "t")), .load 3 (some ⟨.str userU, .null, none⟩), .resume 3] s₅ ∧
      s₅.phase 3 = .returned (some ⟨.str userU, .null, none⟩) := by
    refine ⟨_, .cons trivial rfl (.cons trivial rfl (.cons trivial rfl (.cons trivial rfl (.cons trivial rfl (.cons trivial rfl
      (.cons trivial rfl (.cons trivial rfl (.cons trivial rfl (.nil _))))))))), _, rfl, _,
      .cons ⟨lists_here rfl (lists_one rfl rfl rfl), trivial, fun _ => trivial⟩ rfl
      (.cons ⟨trivial, trivial, fun _ => trivial⟩ rfl
      (.cons ⟨rfl, trivial, fun _ => takes_none rfl⟩ rfl
      (.cons ⟨trivial, trivial, fun _ => trivial⟩ rfl
      (.cons ⟨lists_here rfl (lists_nothing rfl rfl), trivial, fun _ => trivial⟩ rfl (.nil _))))),
      _, rfl, rfl, rfl, ?_⟩
    refine ⟨_, .cons ⟨trivial, trivial, trivial⟩ rfl (.cons ⟨works_t rfl rfl rfl rfl, trivial, trivial⟩ rfl
      (.cons ⟨trivial, trivial, trivial⟩ rfl (.nil _))), ?_⟩
    rfl
  obtain ⟨base, reach, s₂, begins, s₃, clears, s₄, returns, cleared, idle, s₅, after, answer⟩ := run
  exact ⟨s₅, _, answer, clear_effective true ⟨rfl, fun _ => rfl⟩ reach (.nil _) begins clears returns
    cleared after idle answer⟩

/-- The switch to A is written, and its membership remembered, after the clear has returned. -/
theorem late_switch_survives :
    ¬ ∀ (es₀ es₁ es₂ es₃ : List (Event ℕ)) (base s₁ s₂ s₃ s₄ s₅ : State ℕ) (userId contextId : Text)
    (r q count : ℕ) (found : Found), Runs.Run (step ⟨false, 60000⟩) (fun _ _ => True) noSessions es₀ base →
    Runs.Run (step ⟨false, 60000⟩) (fun s e => Works s e ∧ Denied userId contextId base s e) base es₁ s₁ →
    step ⟨false, 60000⟩ s₁ (.begin r (.clearContext contextId (some userId))) = some s₂ →
    Runs.Run (step ⟨false, 60000⟩) (fun s e => Works s e ∧ Denied userId contextId base s e) s₂ es₂ s₃ →
    step ⟨false, 60000⟩ s₃ (.resume r) = some s₄ → s₄.phase r = .cleared count →
    Runs.Run (step ⟨false, 60000⟩) (fun s e => Works s e ∧ Denied userId contextId base s e) s₄ es₃ s₅ →
    s₄.phase q = .idle → s₅.phase q = .returned (some found) →
    ¬ (found.userId = .str userId ∧ found.contextId = .str contextId) := by
  intro effective
  have run : ∃ base : State ℕ, Runs.Run (step ⟨false, 60000⟩) (fun _ _ => True) noSessions askedForA base ∧
      ∃ s₂, step ⟨false, 60000⟩ base (.begin 2 (.clearContext workspaceA (some userU))) = some s₂ ∧
      ∃ s₃, Runs.Run (step ⟨false, 60000⟩) (fun s e => Works s e ∧ Denied userU workspaceA base s e) s₂ [.list 2 []] s₃ ∧
      ∃ s₄, step ⟨false, 60000⟩ s₃ (.resume 2) = some s₄ ∧ s₄.phase 2 = .cleared 0 ∧ s₄.phase 3 = .idle ∧
      ∃ s₅, Runs.Run (step ⟨false, 60000⟩) (fun s e => Works s e ∧ Denied userU workspaceA base s e) s₄
        [.update 1 .done, .resume 1, .begin 3 (.findSession (text "t")),
          .load 3 (some ⟨.str userU, .str workspaceA, none⟩), .resume 3] s₅ ∧
      s₅.phase 3 = .returned (some ⟨.str userU, .str workspaceA, none⟩) := by
    refine ⟨_, .cons trivial rfl (.cons trivial rfl (.cons trivial rfl (.cons trivial rfl (.cons trivial rfl (.cons trivial rfl
      (.cons trivial rfl (.nil _))))))), _, rfl, _, .cons ⟨lists_here rfl (lists_nothing rfl rfl), trivial⟩ rfl (.nil _),
      _, rfl, rfl, rfl, ?_⟩
    refine ⟨_, .cons ⟨rfl, trivial⟩ rfl (.cons ⟨trivial, trivial⟩ rfl (.cons ⟨trivial, trivial⟩ rfl
      (.cons ⟨works_t rfl rfl rfl rfl, trivial⟩ rfl (.cons ⟨trivial, trivial⟩ rfl (.nil _))))), ?_⟩
    rfl
  obtain ⟨base, reach, s₂, begins, s₃, clears, s₄, returns, cleared, idle, s₅, after, answer⟩ := run
  exact effective _ _ _ _ _ _ _ _ _ _ _ _ _ _ _ _ reach (.nil _) begins clears returns cleared after idle answer ⟨rfl, rfl⟩

end Identity.Context
