import AppPlatform.Jobs.Registration
import AppPlatform.Lib.Interleave

/-!
# Converging the stored queue options

`start()` creates every queue and its dead-letter queue and writes their options. The library that
stores them is a parameter: a queue that is there is left alone by `createQueue`, and `updateQueue`
sets the options it is given.
-/

namespace Queues
open Js Interleave Refusal
variable {ρ φ σ : Type}

structure StoredQueue where
  expireInSeconds : ℕ
  heartbeatSeconds : Option ℕ
  retryLimit : ℕ
  retryDelay : ℕ
  retryBackoff : Bool
  retryDelayMax : Option ℕ
  deleteAfterSeconds : ℕ
  retentionSeconds : ℕ
  deadLetter : Option Text

/-- The options that `updateQueue` is given here. -/
inductive QueueUpdate where
  | all (options : QueueOptions)
  | retention (options : DeadLetterOptions)

def QueueOptions.stored (o : QueueOptions) : StoredQueue :=
  ⟨o.expireInSeconds, o.heartbeatSeconds, o.retryLimit, o.retryDelay, true, some o.retryDelayMax, o.deleteAfterSeconds,
    o.retentionSeconds, some o.deadLetter⟩

def StoredQueue.set (row : StoredQueue) : QueueUpdate → StoredQueue
  | .all options => options.stored
  | .retention options =>
    { row with retentionSeconds := options.retentionSeconds, deleteAfterSeconds := options.deleteAfterSeconds }

structure PgBoss (σ : Type) where
  createQueue : Text → Option Text → σ → σ
  updateQueue : Text → QueueUpdate → σ → σ
  queue : σ → Text → Option StoredQueue

/-- What `ensureQueue` relies on. -/
structure PgBoss.Documented (boss : PgBoss σ) : Prop where
  create_adds : ∀ s name deadLetter, (∀ dlq, deadLetter = some dlq → boss.queue s dlq ≠ none) →
    boss.queue (boss.createQueue name deadLetter s) name ≠ none
  create_keeps : ∀ s name deadLetter other row, boss.queue s other = some row →
    boss.queue (boss.createQueue name deadLetter s) other = some row
  update_sets : ∀ s name update row, boss.queue s name = some row →
    boss.queue (boss.updateQueue name update s) name = some (row.set update)
  update_other : ∀ s name update other, other ≠ name → boss.queue (boss.updateQueue name update s) other = boss.queue s other

inductive Op where
  | createQueue (name : Text) (deadLetter : Option Text)
  | updateQueue (name : Text) (update : QueueUpdate)

def PgBoss.step (boss : PgBoss σ) (s : σ) : Op → σ
  | .createQueue name deadLetter => boss.createQueue name deadLetter s
  | .updateQueue name update => boss.updateQueue name update s

def ensureQueue (queue : ResolvedQueue ρ) : List Op :=
  [.createQueue queue.deadLetter none, .updateQueue queue.deadLetter (.retention queue.deadLetterQueue),
    .createQueue queue.name (some queue.deadLetter), .updateQueue queue.name (.all queue.queue)]

/-- `for (const queue of this.queues.values()) await this.ensureQueue(queue)` -/
def start (queues : List (ResolvedQueue ρ)) : List Op := queues.flatMap ensureQueue

/-- The list has the queues of the map, each once. -/
structure Iterates (registry : Registry ρ φ) (queues : List (ResolvedQueue ρ)) : Prop where
  values : ∀ q, q ∈ queues ↔ ∃ name, registry.queues name = some q
  once : queues.Nodup

/-- The stored options are the declared ones. -/
structure Converged (boss : PgBoss σ) (s : σ) (queues : List (ResolvedQueue ρ)) : Prop where
  queue : ∀ q ∈ queues, boss.queue s q.name = some q.queue.stored
  deadLetter : ∀ q ∈ queues, ∃ row, boss.queue s q.deadLetter = some row ∧
    row.retentionSeconds = q.deadLetterQueue.retentionSeconds ∧ row.deleteAfterSeconds = q.deadLetterQueue.deleteAfterSeconds

/-- The declared options of the dead-letter queues can all be had: the queues that share one declare the
same, and one that is itself a queue declares for itself what the queues that name it do. -/
structure Compatible (queues : List (ResolvedQueue ρ)) : Prop where
  shared : ∀ q ∈ queues, ∀ q' ∈ queues, q'.deadLetter = q.deadLetter → q'.deadLetterQueue = q.deadLetterQueue
  defined : ∀ q ∈ queues, ∀ q' ∈ queues, q'.name = q.deadLetter →
    q'.queue.retentionSeconds = q.deadLetterQueue.retentionSeconds ∧
      q'.queue.deleteAfterSeconds = q.deadLetterQueue.deleteAfterSeconds

theorem Converged.compatible {boss : PgBoss σ} {s : σ} {queues : List (ResolvedQueue ρ)} (converged : Converged boss s queues) :
    Compatible queues := by
  refine ⟨?_, ?_⟩
  · intro q member q' member' same
    obtain ⟨row, stored, retention, deleteAfter⟩ := converged.deadLetter q member
    obtain ⟨row', stored', retention', deleteAfter'⟩ := converged.deadLetter q' member'
    rw [same, stored] at stored'
    obtain rfl := Option.some.inj stored'
    exact DeadLetterOptions.ext (retention'.symm.trans retention) (deleteAfter'.symm.trans deleteAfter)
  · intro q member q' member' same
    obtain ⟨row, stored, retention, deleteAfter⟩ := converged.deadLetter q member
    have stored' := converged.queue q' member'
    rw [same, stored] at stored'
    obtain rfl := Option.some.inj stored'
    exact ⟨retention, deleteAfter⟩

section Converging
variable {boss : PgBoss σ} {queues : List (ResolvedQueue ρ)}

theorem registered_name {validZone : Text → Bool} {registrations : List (Registration ρ φ)} {registry : Registry ρ φ}
    (accepted : registerAll validZone .empty registrations = .ok registry) {name : Text} {q : ResolvedQueue ρ}
    (found : registry.queues name = some q) : q.name = name := by
  have reached := Reached.empty.run accepted
  cases reached.queue name q found with
  | handled _ _ defines =>
    obtain ⟨_, _, resolves⟩ := defines.resolves
    exact (resolveQueue_ok resolves).named
  | defined _ _ defines =>
    obtain ⟨_, _, resolves⟩ := defines.resolves
    exact (resolveQueue_ok resolves).named
  | default _ _ _ resolves => exact (resolveQueue_ok resolves).named

theorem mem_start {op : Op} {l : List (ResolvedQueue ρ)} (perm : l.Perm queues) (member : op ∈ start l) :
    ∃ q ∈ queues, op ∈ ensureQueue q := by
  obtain ⟨q, found, within⟩ := List.mem_flatMap.mp member
  exact ⟨q, perm.mem_iff.mp found, within⟩

theorem ensureQueue_sublist {q : ResolvedQueue ρ} {l : List (ResolvedQueue ρ)} (member : q ∈ l) :
    (ensureQueue q).Sublist (start l) := by
  obtain ⟨before, after, rfl⟩ := List.append_of_mem member
  rw [start, List.flatMap_append, List.flatMap_cons]
  exact (List.sublist_append_left _ _).trans (List.sublist_append_right _ _)

theorem present_kept (documented : boss.Documented) (name : Text) (w : List Op) :
    Keeps boss.step w fun s => boss.queue s name ≠ none := by
  intro op _ s present
  obtain ⟨row, stored⟩ := Option.ne_none_iff_exists'.mp present
  cases op with
  | createQueue other deadLetter =>
    rw [PgBoss.step, documented.create_keeps s other deadLetter name row stored]
    nofun
  | updateQueue other update =>
    rw [PgBoss.step]
    rcases eq_or_ne name other with rfl | differs
    · rw [documented.update_sets s name update row stored]
      nofun
    · rwa [documented.update_other s other update name differs]

theorem row_kept (documented : boss.Documented) {w : List Op} {name : Text} {P : StoredQueue → Prop}
    (updates : ∀ update, .updateQueue name update ∈ w → ∀ row, P row → P (row.set update)) :
    Keeps boss.step w fun s => ∃ row, boss.queue s name = some row ∧ P row := by
  intro op member s ⟨row, stored, holds⟩
  cases op with
  | createQueue other deadLetter => exact ⟨row, documented.create_keeps s other deadLetter name row stored, holds⟩
  | updateQueue other update =>
    rcases eq_or_ne name other with rfl | differs
    · exact ⟨_, documented.update_sets s name update row stored, updates update member row holds⟩
    · exact ⟨row, (documented.update_other s other update name differs).trans stored, holds⟩

theorem update_cases {q : ResolvedQueue ρ} {name : Text} {update : QueueUpdate}
    (member : Op.updateQueue name update ∈ ensureQueue q) :
    (name = q.deadLetter ∧ update = .retention q.deadLetterQueue) ∨ (name = q.name ∧ update = .all q.queue) := by
  simpa [ensureQueue] using member

theorem set_all (row : StoredQueue) (options : QueueOptions) : row.set (.all options) = options.stored := rfl

theorem set_retention_same {row : StoredQueue} {options : DeadLetterOptions}
    (retention : row.retentionSeconds = options.retentionSeconds)
    (deleteAfter : row.deleteAfterSeconds = options.deleteAfterSeconds) : row.set (.retention options) = row := by
  rw [StoredQueue.set, ← retention, ← deleteAfter]

/-- Whatever was stored before, compatible options are the stored ones once a process has made its four
calls for each queue, in any order and between those of the other. -/
theorem converges (documented : boss.Documented) (distinct : ∀ q ∈ queues, ∀ q' ∈ queues, q.name = q'.name → q = q')
    (compatible : Compatible queues) {l₁ l₂ : List (ResolvedQueue ρ)} (perm₁ : l₁.Perm queues) (perm₂ : l₂.Perm queues)
    {w : List Op} (interleaving : Interleaving (start l₁) (start l₂) w) (s : σ) :
    Converged boss (w.foldl boss.step s) queues := by
  have ours : ∀ op ∈ w, ∃ q ∈ queues, op ∈ ensureQueue q := by
    intro op member
    rcases interleaving.mem member with first | second
    · exact mem_start perm₁ first
    · exact mem_start perm₂ second
  have calls : ∀ q ∈ queues, (ensureQueue q).Sublist w := fun q member =>
    (ensureQueue_sublist (perm₁.mem_iff.mpr member)).trans interleaving.sublist_left
  refine ⟨?_, ?_⟩
  · intro q member
    have kept : Keeps boss.step w fun s => ∃ row, boss.queue s q.name = some row ∧ row = q.queue.stored := by
      refine row_kept documented ?_
      intro update found row declared
      obtain ⟨q', member', within⟩ := ours _ found
      subst declared
      rcases update_cases within with ⟨named, rfl⟩ | ⟨named, rfl⟩
      · obtain ⟨retention, deleteAfter⟩ := compatible.defined q' member' q member named
        exact set_retention_same retention deleteAfter
      · rw [set_all, distinct q member q' member' named]
    have order : [Op.createQueue q.deadLetter none, .createQueue q.name (some q.deadLetter),
        .updateQueue q.name (.all q.queue)].Sublist w :=
      List.Sublist.trans (((List.Sublist.refl _).cons _).cons_cons _) (calls q member)
    have reached := stages_reached boss.step (fun _ => True)
      [(Op.createQueue q.deadLetter none, fun s => boss.queue s q.deadLetter ≠ none),
        (.createQueue q.name (some q.deadLetter), fun s => boss.queue s q.name ≠ none),
        (.updateQueue q.name (.all q.queue), fun s => ∃ row, boss.queue s q.name = some row ∧ row = q.queue.stored)]
      order (fun _ _ _ _ => trivial)
      (List.forall_mem_cons.mpr ⟨present_kept documented _ w, List.forall_mem_cons.mpr
        ⟨present_kept documented _ w, List.forall_mem_singleton.mpr kept⟩⟩)
      ⟨fun s _ => documented.create_adds s q.deadLetter none nofun, fun s present => ?_, fun s present =>
        ?_, trivial⟩ (s := s) trivial
    · obtain ⟨row, stored, rfl⟩ := reached
      exact stored
    · refine documented.create_adds s q.name (some q.deadLetter) ?_
      intro dlq same
      exact Option.some.inj same ▸ present
    · obtain ⟨row, stored⟩ := Option.ne_none_iff_exists'.mp present
      exact ⟨_, documented.update_sets s q.name _ row stored, rfl⟩
  · intro q member
    have kept : Keeps boss.step w fun s => ∃ row, boss.queue s q.deadLetter = some row ∧
        row.retentionSeconds = q.deadLetterQueue.retentionSeconds ∧ row.deleteAfterSeconds = q.deadLetterQueue.deleteAfterSeconds := by
      refine row_kept documented ?_
      intro update found row declared
      obtain ⟨q', member', within⟩ := ours _ found
      rcases update_cases within with ⟨named, rfl⟩ | ⟨named, rfl⟩
      · rw [compatible.shared q member q' member' named.symm]
        exact ⟨rfl, rfl⟩
      · exact compatible.defined q member q' member' named.symm
    have order : [Op.createQueue q.deadLetter none, .updateQueue q.deadLetter (.retention q.deadLetterQueue)].Sublist w :=
      List.Sublist.trans ((List.nil_sublist _).cons_cons _ |>.cons_cons _) (calls q member)
    refine stages_reached boss.step (fun _ => True)
      [(Op.createQueue q.deadLetter none, fun s => boss.queue s q.deadLetter ≠ none),
        (.updateQueue q.deadLetter (.retention q.deadLetterQueue), fun s => ∃ row, boss.queue s q.deadLetter = some row ∧
          row.retentionSeconds = q.deadLetterQueue.retentionSeconds ∧ row.deleteAfterSeconds = q.deadLetterQueue.deleteAfterSeconds)]
      order (fun _ _ _ _ => trivial)
      (List.forall_mem_cons.mpr ⟨present_kept documented _ w, List.forall_mem_singleton.mpr kept⟩)
      ⟨fun s _ => documented.create_adds s q.deadLetter none nofun, fun s present => ?_, trivial⟩ trivial
    obtain ⟨row, stored⟩ := Option.ne_none_iff_exists'.mp present
    exact ⟨_, documented.update_sets s q.deadLetter _ row stored, rfl, rfl⟩

/-- The start of two processes converges the stored options, whatever the orders, the interleaving and what
was stored before, exactly if the definitions are compatible. -/
theorem start_converges_iff (documented : boss.Documented) {validZone : Text → Bool} {registrations : List (Registration ρ φ)}
    {registry : Registry ρ φ} (accepted : registerAll validZone .empty registrations = .ok registry)
    (iterates : Iterates registry queues) (s : σ) :
    (∀ l₁ l₂ w, l₁.Perm queues → l₂.Perm queues → Interleaving (start l₁) (start l₂) w →
      Converged boss (w.foldl boss.step s) queues) ↔ Compatible queues := by
  constructor
  · intro converges
    exact (converges queues queues _ (List.Perm.refl _) (List.Perm.refl _) (Interleaving.append _ _)).compatible
  · intro compatible l₁ l₂ w perm₁ perm₂ interleaving
    have distinct : ∀ q ∈ queues, ∀ q' ∈ queues, q.name = q'.name → q = q' := by
      intro q member q' member' same
      obtain ⟨name, found⟩ := (iterates.values q).mp member
      obtain ⟨name', found'⟩ := (iterates.values q').mp member'
      obtain rfl := registered_name accepted found
      obtain rfl := registered_name accepted found'
      rw [same, found'] at found
      exact (Option.some.inj found).symm
    exact converges documented distinct compatible perm₁ perm₂ interleaving s

end Converging

/-! ### Two queues that share a dead-letter queue -/

def tableBoss : PgBoss (Text → Option StoredQueue) where
  createQueue name deadLetter s :=
    match s name with
    | some _ => s
    | none => Function.update s name (some ⟨900, none, 2, 0, false, none, 604800, 1209600, deadLetter⟩)
  updateQueue name update s :=
    match s name with
    | some row => Function.update s name (some (row.set update))
    | none => s
  queue s := s

theorem tableBoss_documented : tableBoss.Documented := by
  refine ⟨?_, ?_, ?_, ?_⟩
  · intro s name deadLetter _
    cases found : s name <;> simp [tableBoss, found]
  · intro s name deadLetter other row stored
    cases found : s name with
    | some _ => simpa [tableBoss, found] using stored
    | none =>
      have differs : other ≠ name := by
        intro same
        have stored' : s other = some row := stored
        rw [same, found] at stored'
        cases stored'
      simpa [tableBoss, found, differs] using stored
  · intro s name update row stored
    have found : s name = some row := stored
    simp [tableBoss, found]
  · intro s name update other differs
    cases found : s name <;> simp [tableBoss, found, differs]

def sharing (kept : ℕ) : QueueConfig Unit := plainOptions none none (some (text "shared.dlq")) (some kept)

def sharingQueue (name : Text) (kept : ℕ) : Resolved := plainQueue name none none (some (text "shared.dlq")) (some kept)

theorem sharing_one : resolveQueue (text "one") (sharing day) = .ok ((sharingQueue (text "one") day).withRule none) :=
  resolveQueue_plain none none (some (text "shared.dlq")) (some day) (by decide) (by decide) (by decide) (by decide) (by decide)
    (by decide) (by decide) (by decide) (by decide)

theorem sharing_two : resolveQueue (text "two") (sharing (2 * day)) = .ok ((sharingQueue (text "two") (2 * day)).withRule none) :=
  resolveQueue_plain none none (some (text "shared.dlq")) (some (2 * day)) (by decide) (by decide) (by decide) (by decide)
    (by decide) (by decide) (by decide) (by decide) (by decide)

def sharingRegistrations : List (Registration Unit Unit) :=
  [.defineQueue (text "one") (sharing day), .defineQueue (text "two") (sharing (2 * day))]

def sharingQueues : List (ResolvedQueue Unit) :=
  [(sharingQueue (text "one") day).withRule none, (sharingQueue (text "two") (2 * day)).withRule none]

theorem sharing_registered : registerAll (fun _ => true) .empty sharingRegistrations =
    .ok ((Registry.empty.setQueue (text "one") ((sharingQueue (text "one") day).withRule none)).setQueue (text "two")
      ((sharingQueue (text "two") (2 * day)).withRule none)) := by
  have absent : (Registry.empty.setQueue (text "one") ((sharingQueue (text "one") day).withRule none) : Registry Unit Unit).queues
      (text "two") = none := setQueue_other _ _ (by decide)
  refine bind_ok_iff.mpr ⟨_, register_defineQueue.mpr ⟨_, sharing_one, nofun, Or.inr ⟨rfl, rfl⟩⟩, bind_ok_iff.mpr ⟨_,
    register_defineQueue.mpr ⟨_, sharing_two, ?_, Or.inr ⟨absent, rfl⟩⟩, rfl⟩⟩
  intro existing found
  rw [absent] at found
  cases found

theorem sharing_iterates : Iterates ((Registry.empty.setQueue (text "one") ((sharingQueue (text "one") day).withRule none)).setQueue
    (text "two") ((sharingQueue (text "two") (2 * day)).withRule none) : Registry Unit Unit) sharingQueues := by
  refine ⟨fun q => ⟨?_, ?_⟩, ?_⟩
  · intro member
    simp only [sharingQueues, List.mem_cons, List.not_mem_nil, or_false] at member
    rcases member with rfl | rfl
    · exact ⟨text "one", (setQueue_other _ _ (by decide)).trans (setQueue_same ..)⟩
    · exact ⟨text "two", setQueue_same ..⟩
  · intro ⟨name, found⟩
    rcases update_some found with ⟨-, rfl⟩ | ⟨-, found⟩
    · simp [sharingQueues]
    rcases update_some found with ⟨-, rfl⟩ | ⟨-, found⟩
    · simp [sharingQueues]
    · cases found
  · have differs : (sharingQueue (text "one") day).withRule (none : Option Unit) ≠
      (sharingQueue (text "two") (2 * day)).withRule none :=
      fun same => absurd (congrArg (fun q : ResolvedQueue Unit => q.name) same) (by decide)
    simpa [sharingQueues] using differs

theorem start_converges_iff_sharing :
    (∀ l₁ l₂ w, l₁.Perm sharingQueues → l₂.Perm sharingQueues → Interleaving (start l₁) (start l₂) w →
      Converged tableBoss (w.foldl tableBoss.step fun _ => none) sharingQueues) ↔ Compatible sharingQueues :=
  start_converges_iff tableBoss_documented sharing_registered sharing_iterates _

/-- The engine accepts both definitions, and no start stores the options that they declare. -/
theorem shared_dead_letter_diverges :
    ∃ registry, registerAll (fun _ => true) .empty sharingRegistrations = .ok registry ∧ Iterates registry sharingQueues ∧
      ∀ (w : List Op) s, ¬Converged tableBoss (w.foldl tableBoss.step s) sharingQueues := by
  refine ⟨_, sharing_registered, sharing_iterates, fun w s converged => ?_⟩
  have same := converged.compatible.shared _ List.mem_cons_self _ (List.mem_cons_of_mem _ List.mem_cons_self) rfl
  exact absurd (congrArg DeadLetterOptions.retentionSeconds same) (by decide)

end Queues
