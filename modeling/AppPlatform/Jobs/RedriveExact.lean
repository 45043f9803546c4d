import AppPlatform.Jobs.RedriveLoop

/-!
# A redrive is exact

The copies seen so far and the rest make up the copies that match. A visit takes one off the rest, so
the loop ends, and what it has seen is what is served up to the limit.
-/

namespace RedriveLoop
open Js Refusal
open Redrive (JobState Rule allowed Key)

structure Content (dlq : Text) where
  table : List Job
  keys : (table.map fun job => (job.queue, job.id)).Nodup
  distinct : ∀ a ∈ table, ∀ b ∈ table, a.queue = dlq → b.queue = dlq → ∀ o, a.origin = some o →
    b.origin = some o → a = b
  elsewhere : ∀ a ∈ table, a.queue = dlq → ∀ o, a.origin = some o → o.1 ≠ dlq

def occupied (origin : Key) (table : List Job) : Bool := table.any fun job => job.at origin && job.state ≠ .failed

/-- The copy can move: its origin queue is there, with a rule that lets it pass, and its id is free. -/
def movable (deps : Deps) (table : List Job) (copy : Job) : Bool :=
  match copy.origin with
  | none => false
  | some origin => deps.hasQueue origin.1 && (deps.policyFor origin.1).any (allowed · copy.data) && !occupied origin table

def policyRejects (deps : Deps) (copy : Job) : Bool :=
  match copy.origin with
  | none => false
  | some origin => deps.hasQueue origin.1 && !(deps.policyFor origin.1).any (allowed · copy.data)

theorem not_rejects_of_movable {deps : Deps} {table : List Job} {copy : Job} (moves : movable deps table copy = true) :
    policyRejects deps copy = false := by
  unfold movable at moves
  unfold policyRejects
  cases origin : copy.origin with
  | none => rfl
  | some o =>
    simp only [origin, Bool.and_eq_true] at moves
    simp [moves.1.2]

theorem clear_any (origin : Key) (table : List Job) : (clear origin table).any (·.at origin) = occupied origin table := by
  rw [clear, List.any_filter, occupied]
  congr 1
  funext job
  cases job.at origin <;> by_cases failed : job.state = .failed <;> simp [failed]

def moveInto (deps : Deps) (dlq : Text) (now : ℕ) (origin : Key) (copy : Job) (table : List Job) : List Job :=
  (clear origin table ++ [deps.redriven now origin copy]).filter fun job => !job.at (dlq, copy.id)

theorem moveOne_cases (deps : Deps) {dlq : Text} {now : ℕ} {table : List Job} {copy : Job}
    (found : (table.find? fun job => job.waits now dlq && job.id = copy.id) = some copy) :
    (movable deps table copy = true ∧ policyRejects deps copy = false ∧ ∃ origin, copy.origin = some origin ∧
      moveOne deps dlq copy.id now table = (.moved, moveInto deps dlq now origin copy table)) ∨
    (movable deps table copy = false ∧ policyRejects deps copy = true ∧
      moveOne deps dlq copy.id now table = (.rejected, table)) ∨
    (movable deps table copy = false ∧ policyRejects deps copy = false ∧
      moveOne deps dlq copy.id now table = (.left, table)) := by
  unfold movable policyRejects
  rw [moveOne, found]
  cases origin : copy.origin with
  | none => simp [origin]
  | some o =>
    cases present : deps.hasQueue o.1 with
    | false => simp [origin, present]
    | true =>
      cases policy : deps.policyFor o.1 with
      | none => simp [origin, present, policy]
      | some rule =>
        cases passes : allowed rule copy.data with
        | false => simp [origin, present, policy, passes]
        | true =>
          cases taken : occupied o table with
          | true => simp [origin, present, policy, passes, clear_any, taken]
          | false => simp [origin, present, policy, passes, clear_any, taken, moveInto]

theorem at_eq (job : Job) (k : Key) : job.at k = decide ((job.queue, job.id) = k) := by
  rw [Bool.eq_iff_iff, Job.at, Bool.and_eq_true, decide_eq_true_eq, decide_eq_true_eq, decide_eq_true_eq, Prod.ext_iff]

section
variable {deps : Deps} {dlq : Text} {now : ℕ} {origin : Key} {copy : Job} {table : List Job}

theorem moveInto_dlq (elsewhere : origin.1 ≠ dlq) :
    (moveInto deps dlq now origin copy table).filter (·.queue = dlq) =
      (table.filter (·.queue = dlq)).filter fun job => job.id ≠ copy.id := by
  have inserted : [deps.redriven now origin copy].filter (fun job => job.queue = dlq && !job.at (dlq, copy.id)) = [] := by
    simp [Deps.redriven, elsewhere]
  rw [moveInto, List.filter_filter, List.filter_append, inserted, List.append_nil, clear, List.filter_filter, List.filter_filter]
  apply List.filter_congr
  intro job _
  by_cases here : job.queue = dlq
  · have apart : (dlq, job.id) ≠ origin := by
      intro same
      exact elsewhere (congrArg Prod.fst same).symm
    simp [at_eq, here, apart]
  · simp [here]

theorem mem_moveInto_of_mem {job : Job} (elsewhere : job.queue ≠ dlq) (apart : (job.queue, job.id) ≠ origin)
    (here : job ∈ table) : job ∈ moveInto deps dlq now origin copy table := by
  refine List.mem_filter.mpr ⟨List.mem_append_left _ (List.mem_filter.mpr ⟨here, ?_⟩), ?_⟩
  · simp [at_eq, apart]
  · simp [at_eq, elsewhere]

theorem redriven_mem_moveInto (elsewhere : origin.1 ≠ dlq) :
    deps.redriven now origin copy ∈ moveInto deps dlq now origin copy table := by
  have apart : origin ≠ (dlq, copy.id) := by
    intro same
    exact elsewhere (congrArg Prod.fst same)
  refine List.mem_filter.mpr ⟨List.mem_append_right _ (List.mem_singleton_self _), ?_⟩
  simp [at_eq, Deps.redriven, apart]

theorem occupied_moveInto {other : Key} (apart : other ≠ origin) (elsewhere : other.1 ≠ dlq) :
    occupied other (moveInto deps dlq now origin copy table) = occupied other table := by
  rw [Bool.eq_iff_iff, occupied, occupied, List.any_eq_true, List.any_eq_true]
  constructor
  · rintro ⟨job, member, holds⟩
    have key := (Bool.and_eq_true_iff.mp holds).1
    rw [at_eq, decide_eq_true_eq] at key
    rcases List.mem_append.mp (List.mem_of_mem_filter member) with kept | inserted
    · exact ⟨job, List.mem_of_mem_filter kept, holds⟩
    · rw [List.mem_singleton.mp inserted] at key
      exact absurd key.symm apart
  · rintro ⟨job, member, holds⟩
    have key := (Bool.and_eq_true_iff.mp holds).1
    rw [at_eq, decide_eq_true_eq] at key
    refine ⟨job, mem_moveInto_of_mem ?_ ?_ member, holds⟩
    · rw [← key] at elsewhere
      exact elsewhere
    · rw [key]
      exact apart

/-- Another copy can move after the move if it could before. -/
theorem movable_moveInto {other : Job} (apart : ∀ o, other.origin = some o → o ≠ origin ∧ o.1 ≠ dlq) :
    movable deps (moveInto deps dlq now origin copy table) other = movable deps table other := by
  unfold movable
  cases found : other.origin with
  | none => rfl
  | some o => simp only [occupied_moveInto (apart o found).1 (apart o found).2]

end

/-- `ORDER BY created_on, id` of different copies. -/
def before (a b : Job) : Prop := a.age < b.age

instance : Std.Irrefl before := ⟨fun a => lt_irrefl a.age⟩

instance : Std.Antisymm before := ⟨fun _ _ first second => absurd (lt_trans first second) (lt_irrefl _)⟩

instance : Std.Total older := ⟨fun a b => le_total a.age b.age⟩

instance : IsTrans Job older := ⟨fun _ _ _ first second => le_trans first second⟩

theorem id_eq_of_age_eq {a b : Job} (same : a.age = b.age) : a.id = b.id := by
  have ids : a.id.map UInt16.toNat = b.id.map UInt16.toNat := congrArg (fun age => (ofLex age).2) same
  exact List.map_injective_iff.mpr (fun _ _ => UInt16.toNat_inj.mp) ids

section
variable {deps : Deps} {dlq : Text} {filter : Filter} {now : ℕ} {exclude : List Text} {table : List Job}

theorem mem_candidates {job : Job} :
    job ∈ candidates deps dlq filter now exclude table ↔
      job ∈ table ∧ job.waits now dlq = true ∧ filter.accepts deps job = true ∧ job.id ∉ exclude := by
  rw [candidates, List.mem_insertionSort, List.mem_filter, Bool.and_eq_true, Bool.and_eq_true, decide_eq_true_eq, and_assoc]

theorem waits_iff {job : Job} :
    job.waits now dlq = true ↔ job.queue = dlq ∧ job.state.waiting = true ∧ now < job.keepUntil := by
  rw [Job.waits, Bool.and_eq_true, Bool.and_eq_true, decide_eq_true_eq, decide_eq_true_eq, and_assoc]

/-- The candidates come in the strict order of their age. -/
theorem candidates_sorted (distinct : ((table.filter (·.queue = dlq)).map Job.id).Nodup) :
    (candidates deps dlq filter now exclude table).Pairwise before := by
  have ids : ((candidates deps dlq filter now exclude table).map Job.id).Nodup := by
    refine ((List.perm_insertionSort older _).map Job.id).nodup_iff.mpr (distinct.sublist (List.Sublist.map Job.id ?_))
    apply List.monotone_filter_right
    intro job holds
    exact decide_eq_true (waits_iff.mp (Bool.and_eq_true_iff.mp (Bool.and_eq_true_iff.mp holds).1).1).1
  have sorted : (candidates deps dlq filter now exclude table).Pairwise older := List.pairwise_insertionSort older _
  refine (sorted.and (List.pairwise_map.mp ids)).imp ?_
  intro a b ⟨order, differ⟩
  exact lt_of_le_of_ne order fun same => differ (id_eq_of_age_eq same)

end

namespace Content
variable {dlq : Text} (content : Content dlq)

theorem same {a b : Job} (here : a ∈ content.table) (there : b ∈ content.table) (queue : a.queue = b.queue)
    (id : a.id = b.id) : a = b :=
  List.inj_on_of_nodup_map content.keys here there (Prod.ext queue id)

theorem ids : ((content.table.filter (·.queue = dlq)).map Job.id).Nodup := by
  have keys := content.keys.sublist ((List.filter_sublist (p := (·.queue = dlq))).map fun job : Job => (job.queue, job.id))
  rw [List.Nodup, List.pairwise_map] at keys ⊢
  refine keys.imp_of_mem ?_
  intro a b here there differ same
  have first := of_decide_eq_true (List.mem_filter.mp here).2
  have second := of_decide_eq_true (List.mem_filter.mp there).2
  exact differ (Prod.ext (first.trans second.symm) same)

/-- The copies that match when the run begins, the oldest first. -/
def matching (deps : Deps) (filter : Filter) : List Job := candidates deps dlq filter (deps.clock 0) [] content.table

theorem mem_matching {deps : Deps} {filter : Filter} {copy : Job} :
    copy ∈ content.matching deps filter ↔ copy ∈ content.table ∧ copy.waits (deps.clock 0) dlq = true ∧
      filter.accepts deps copy = true := by
  rw [matching, mem_candidates]
  simp

theorem matching_sorted (deps : Deps) (filter : Filter) : (content.matching deps filter).Pairwise before :=
  candidates_sorted content.ids

end Content

/-- What a run did, for the copies `matching` with the oldest first. -/
structure Exact (deps : Deps) (dlq : Text) (limit : ℕ) (table matching : List Job) (s : Run) : Prop where
  moved : s.moved = min limit (matching.filter (movable deps table)).length
  left : s.table.filter (·.queue = dlq) = (table.filter (·.queue = dlq)).filter fun job =>
    job.id ∉ ((matching.filter (movable deps table)).take limit).map Job.id
  redriven : ∀ copy ∈ (matching.filter (movable deps table)).take limit, ∃ origin now, copy.origin = some origin ∧
    deps.redriven now origin copy ∈ s.table
  /-- Those the policy rejects before the last that moved, or all when the limit is not reached. -/
  skipped : s.skipped = (matching.filter fun copy => policyRejects deps copy &&
    (matching.filter (movable deps table))[limit - 1]?.all fun last => copy.age < last.age).length

/-- What the run did before a visit: `seen` are the copies it found, `rest` those it may still try. -/
structure Progress {dlq : Text} (deps : Deps) (filter : Filter) (limit : ℕ) (content : Content dlq) (seen rest : List Job)
    (s : Run) : Prop where
  order : (seen ++ rest).Sublist (content.matching deps filter)
  expired : ∀ copy ∈ content.matching deps filter, copy ∉ seen ++ rest → copy.keepUntil ≤ deps.clock s.statements
  tried : ∀ copy ∈ seen, copy.id ∈ s.tried
  untried : ∀ copy ∈ rest, copy.id ∉ s.tried
  table : s.table.filter (·.queue = dlq) = (content.table.filter (·.queue = dlq)).filter fun job =>
    job.id ∉ (seen.filter (movable deps content.table)).map Job.id
  free : ∀ copy ∈ rest, movable deps s.table copy = movable deps content.table copy
  redriven : ∀ copy ∈ seen.filter (movable deps content.table), ∃ origin now, copy.origin = some origin ∧
    deps.redriven now origin copy ∈ s.table
  moved : s.moved = (seen.filter (movable deps content.table)).length
  skipped : s.skipped = (seen.filter (policyRejects deps)).length
  within : s.moved ≤ limit
  quota : ∀ later, Quota.served (movable deps content.table) limit (seen ++ later) =
    seen ++ Quota.served (movable deps content.table) (limit - s.moved) later

namespace Progress
variable {dlq : Text} {deps : Deps} {filter : Filter} {limit : ℕ} {content : Content dlq} {seen rest : List Job}
  {copy : Job} {s : Run}

theorem sorted (h : Progress deps filter limit content seen rest s) : (seen ++ rest).Pairwise before :=
  (content.matching_sorted deps filter).sublist h.order

theorem mem_matching (h : Progress deps filter limit content seen rest s) (here : copy ∈ seen ++ rest) :
    copy ∈ content.table ∧ copy.queue = dlq ∧ copy.state.waiting = true ∧ filter.accepts deps copy = true := by
  obtain ⟨stored, waits, accepted⟩ := content.mem_matching.mp (h.order.subset here)
  obtain ⟨queue, waiting, _⟩ := waits_iff.mp waits
  exact ⟨stored, queue, waiting, accepted⟩

theorem mem_table (h : Progress deps filter limit content seen rest s) {job : Job} (queue : job.queue = dlq) :
    job ∈ s.table ↔ job ∈ content.table ∧ job.id ∉ (seen.filter (movable deps content.table)).map Job.id := by
  have same : job ∈ s.table.filter (·.queue = dlq) ↔ job ∈ (content.table.filter (·.queue = dlq)).filter fun job =>
      job.id ∉ (seen.filter (movable deps content.table)).map Job.id := by rw [h.table]
  simpa only [List.mem_filter, queue, decide_true, and_true, decide_eq_true_eq] using same

theorem mem_rest (h : Progress deps filter limit content seen rest s) (here : copy ∈ rest) : copy ∈ s.table := by
  obtain ⟨stored, queue, _⟩ := h.mem_matching (List.mem_append_right _ here)
  refine (h.mem_table queue).mpr ⟨stored, ?_⟩
  intro moved
  obtain ⟨other, member, same⟩ := List.mem_map.mp moved
  apply h.untried copy here
  rw [← same]
  exact h.tried other (List.mem_of_mem_filter member)

theorem find (h : Progress deps filter limit content seen rest s) (here : copy ∈ rest) :
    (s.table.find? fun job => job.waits (deps.clock s.statements) dlq && job.id = copy.id) =
      if deps.clock s.statements < copy.keepUntil then some copy else none := by
  obtain ⟨stored, queue, waiting, _⟩ := h.mem_matching (List.mem_append_right _ here)
  have unique : ∀ job ∈ s.table, (job.waits (deps.clock s.statements) dlq && job.id = copy.id) = true →
      job = copy ∧ deps.clock s.statements < job.keepUntil := by
    intro job member holds
    obtain ⟨waits, id⟩ := Bool.and_eq_true_iff.mp holds
    obtain ⟨at_, _, alive⟩ := waits_iff.mp waits
    exact ⟨content.same ((h.mem_table at_).mp member).1 stored (at_.trans queue.symm) (of_decide_eq_true id), alive⟩
  split
  · rename_i alive
    cases found : s.table.find? fun job => job.waits (deps.clock s.statements) dlq && job.id = copy.id with
    | none =>
      have refused := List.find?_eq_none.mp found copy (h.mem_rest here)
      simp [waits_iff.mpr ⟨queue, waiting, alive⟩] at refused
    | some job =>
      have holds := List.find?_some found
      rw [(unique job (List.mem_of_find?_eq_some found) holds).1]
  · rename_i dead
    apply List.find?_eq_none.mpr
    intro job member holds
    obtain ⟨same, alive⟩ := unique job member holds
    rw [same] at alive
    exact dead alive

/-- The query finds what is left of the copies and has not expired. -/
theorem candidates_eq (h : Progress deps filter limit content seen rest s) (clock : Monotone deps.clock) :
    candidates deps dlq filter (deps.clock s.statements) s.tried s.table =
      rest.filter fun copy => deps.clock s.statements < copy.keepUntil := by
  have distinct : ((s.table.filter (·.queue = dlq)).map Job.id).Nodup := by
    rw [h.table]
    exact content.ids.sublist (List.filter_sublist.map Job.id)
  have sorted : (rest.filter fun copy => deps.clock s.statements < copy.keepUntil).Pairwise before :=
    (List.pairwise_append.mp h.sorted).2.1.filter _
  refine (candidates_sorted distinct).eq_of_mem_iff sorted ?_
  intro job
  rw [mem_candidates, List.mem_filter, decide_eq_true_eq]
  constructor
  · intro ⟨stored, waits, accepted, fresh⟩
    obtain ⟨queue, waiting, alive⟩ := waits_iff.mp waits
    have matches_ : job ∈ content.matching deps filter := by
      refine content.mem_matching.mpr ⟨((h.mem_table queue).mp stored).1, waits_iff.mpr ⟨queue, waiting, ?_⟩, accepted⟩
      exact (clock (Nat.zero_le _)).trans_lt alive
    have here : job ∈ seen ++ rest := by
      by_contra lost
      exact absurd (h.expired job matches_ lost) (Nat.not_le.mpr alive)
    rcases List.mem_append.mp here with tried | left
    · exact absurd (h.tried job tried) fresh
    · exact ⟨left, alive⟩
  · intro ⟨here, alive⟩
    obtain ⟨_, queue, waiting, accepted⟩ := h.mem_matching (List.mem_append_right _ here)
    exact ⟨h.mem_rest here, waits_iff.mpr ⟨queue, waiting, alive⟩, accepted, h.untried job here⟩

/-- What has expired is no longer waited for. -/
theorem drop (h : Progress deps filter limit content seen rest s) :
    Progress deps filter limit content seen (rest.filter fun copy => deps.clock s.statements < copy.keepUntil) s where
  order := (List.Sublist.append_left List.filter_sublist seen).trans h.order
  expired := by
    intro copy matches_ lost
    by_cases here : copy ∈ seen ++ rest
    · rcases List.mem_append.mp here with tried | left
      · exact absurd (List.mem_append_left _ tried) lost
      · by_contra alive
        exact lost (List.mem_append_right _ (List.mem_filter.mpr ⟨left, decide_eq_true (Nat.not_le.mp alive)⟩))
    · exact h.expired copy matches_ here
  tried := h.tried
  untried copy here := h.untried copy (List.mem_of_mem_filter here)
  table := h.table
  free copy here := h.free copy (List.mem_of_mem_filter here)
  redriven := h.redriven
  moved := h.moved
  skipped := h.skipped
  within := h.within
  quota := h.quota

theorem tick (h : Progress deps filter limit content seen rest s) (clock : Monotone deps.clock) :
    Progress deps filter limit content seen rest { s with statements := s.statements + 1 } :=
  { h with expired := fun copy matches_ lost => (h.expired copy matches_ lost).trans (clock (Nat.le_succ _)) }

theorem mem_others (h : Progress deps filter limit content seen (copy :: rest) s) {other : Job} (here : other ∈ seen ++ rest) :
    other ∈ content.table ∧ other.queue = dlq := by
  have member : other ∈ seen ++ copy :: rest := by
    rcases List.mem_append.mp here with left | right
    · exact List.mem_append_left _ left
    · exact List.mem_append_right _ (List.mem_cons_of_mem _ right)
  exact ⟨(h.mem_matching member).1, (h.mem_matching member).2.1⟩

theorem id_ne (h : Progress deps filter limit content seen (copy :: rest) s) {other : Job} (here : other ∈ seen ++ rest) :
    other.id ≠ copy.id := by
  intro same
  have differ : copy ∉ seen ++ rest := (List.nodup_cons.mp (List.nodup_middle.mp h.sorted.nodup)).1
  obtain ⟨stored, queue, _⟩ := h.mem_matching (List.mem_append_right _ List.mem_cons_self)
  obtain ⟨there, at_⟩ := h.mem_others here
  rw [content.same there stored (at_.trans queue.symm) same] at here
  exact differ here

/-- The copy under visit does not come again. -/
theorem untried_after (h : Progress deps filter limit content seen (copy :: rest) s) :
    ∀ other ∈ rest, other.id ∉ s.tried ++ [copy.id] := by
  intro other here tried
  rcases List.mem_append.mp tried with before | now
  · exact h.untried other (List.mem_cons_of_mem _ here) before
  · exact h.id_ne (List.mem_append_right _ here) (List.mem_singleton.mp now)

/-- A visit that finds the copy expired. -/
theorem skip (h : Progress deps filter limit content seen (copy :: rest) s) (clock : Monotone deps.clock)
    (dead : copy.keepUntil ≤ deps.clock s.statements) :
    Progress deps filter limit content seen rest
      ⟨s.table, s.tried ++ [copy.id], s.moved, s.skipped, s.statements + 1⟩ where
  order := (List.Sublist.append_left (List.sublist_cons_self _ _) seen).trans h.order
  expired := by
    intro other matches_ lost
    have later : deps.clock s.statements ≤ deps.clock (s.statements + 1) := clock (Nat.le_succ _)
    by_cases same : other = copy
    · rw [same]
      exact dead.trans later
    · refine (h.expired other matches_ ?_).trans later
      intro here
      rcases List.mem_append.mp here with left | right
      · exact lost (List.mem_append_left _ left)
      · exact lost (List.mem_append_right _ ((List.mem_cons.mp right).resolve_left same))
  tried other here := List.mem_append_left _ (h.tried other here)
  untried := h.untried_after
  table := h.table
  free other here := h.free other (List.mem_cons_of_mem _ here)
  redriven := h.redriven
  moved := h.moved
  skipped := h.skipped
  within := h.within
  quota := h.quota

theorem advance (h : Progress deps filter limit content seen (copy :: rest) s) (clock : Monotone deps.clock)
    (open_ : s.moved < limit) (after : List Job)
    (table : after.filter (·.queue = dlq) = (content.table.filter (·.queue = dlq)).filter fun job =>
      job.id ∉ ((seen ++ [copy]).filter (movable deps content.table)).map Job.id)
    (free : ∀ other ∈ rest, movable deps after other = movable deps content.table other)
    (redriven : ∀ other ∈ (seen ++ [copy]).filter (movable deps content.table), ∃ origin now, other.origin = some origin ∧
      deps.redriven now origin other ∈ after) :
    Progress deps filter limit content (seen ++ [copy]) rest
      ⟨after, s.tried ++ [copy.id], s.moved + if movable deps content.table copy then 1 else 0,
        s.skipped + if policyRejects deps copy then 1 else 0, s.statements + 1⟩ where
  order := by
    rw [List.append_assoc]
    exact h.order
  expired := by
    intro other matches_ lost
    rw [List.append_assoc] at lost
    exact (h.expired other matches_ lost).trans (clock (Nat.le_succ _))
  tried := by
    intro other here
    rcases List.mem_append.mp here with before | now
    · exact List.mem_append_left _ (h.tried other before)
    · rw [List.mem_singleton.mp now]
      exact List.mem_append_right _ (List.mem_singleton_self _)
  untried := h.untried_after
  table := table
  free := free
  redriven := redriven
  moved := by
    rw [List.filter_append, List.length_append, ← h.moved, List.filter_singleton]
    cases movable deps content.table copy <;> rfl
  skipped := by
    rw [List.filter_append, List.length_append, ← h.skipped, List.filter_singleton]
    cases policyRejects deps copy <;> rfl
  within := by
    split
    · exact open_
    · exact h.within
  quota := by
    intro later
    rw [List.append_assoc, List.append_assoc, h.quota, List.singleton_append,
      Quota.served_cons _ (Nat.sub_pos_of_lt open_), Nat.sub_sub]
    rfl

/-- A visit that leaves the copy. -/
theorem stay (h : Progress deps filter limit content seen (copy :: rest) s) (clock : Monotone deps.clock)
    (open_ : s.moved < limit) (fixed : movable deps content.table copy = false) :
    Progress deps filter limit content (seen ++ [copy]) rest
      ⟨s.table, s.tried ++ [copy.id], s.moved, s.skipped + if policyRejects deps copy then 1 else 0, s.statements + 1⟩ := by
  have same : (seen ++ [copy]).filter (movable deps content.table) = seen.filter (movable deps content.table) := by
    rw [List.filter_append, List.filter_singleton, fixed]
    exact List.append_nil _
  have after := h.advance clock open_ s.table (by rw [same, h.table])
    (fun other here => h.free other (List.mem_cons_of_mem _ here)) (by rw [same]; exact h.redriven)
  rw [fixed] at after
  exact after

theorem move (h : Progress deps filter limit content seen (copy :: rest) s) (clock : Monotone deps.clock)
    (open_ : s.moved < limit) (movable_ : movable deps content.table copy = true) {origin : Key}
    (died : copy.origin = some origin) :
    Progress deps filter limit content (seen ++ [copy]) rest
      ⟨moveInto deps dlq (deps.clock s.statements) origin copy s.table, s.tried ++ [copy.id], s.moved + 1,
        s.skipped + if policyRejects deps copy then 1 else 0, s.statements + 1⟩ := by
  obtain ⟨stored, queue, _⟩ := h.mem_matching (List.mem_append_right _ List.mem_cons_self)
  have elsewhere := content.elsewhere copy stored queue origin died
  have moved : (seen ++ [copy]).filter (movable deps content.table) = seen.filter (movable deps content.table) ++ [copy] := by
    rw [List.filter_append, List.filter_singleton, movable_]
    rfl
  -- a copy of another id came from another job
  have apart : ∀ other ∈ seen ++ rest, ∀ o, other.origin = some o → o ≠ origin ∧ o.1 ≠ dlq := by
    intro other here o from'
    have differ := h.id_ne here
    obtain ⟨there, at_⟩ := h.mem_others here
    refine ⟨?_, content.elsewhere other there at_ o from'⟩
    intro same
    rw [same] at from'
    exact differ (congrArg Job.id (content.distinct other there copy stored at_ queue origin from' died))
  have after := h.advance clock open_ (moveInto deps dlq (deps.clock s.statements) origin copy s.table) ?_ ?_ ?_
  · rw [movable_] at after
    exact after
  · rw [moveInto_dlq elsewhere, h.table, List.filter_filter, moved]
    apply List.filter_congr
    intro job _
    rw [Bool.eq_iff_iff, Bool.and_eq_true, decide_eq_true_eq, decide_eq_true_eq, decide_eq_true_eq, List.map_append,
      List.mem_append, not_or, List.map_singleton, List.mem_singleton, and_comm]
  · intro other here
    rw [movable_moveInto (apart other (List.mem_append_right _ here)), h.free other (List.mem_cons_of_mem _ here)]
  · rw [moved]
    intro other here
    rcases List.mem_append.mp here with before | now
    · obtain ⟨o, time, from', inserted⟩ := h.redriven other before
      obtain ⟨differ, outside⟩ := apart other (List.mem_append_left _ (List.mem_of_mem_filter before)) o from'
      exact ⟨o, time, from', mem_moveInto_of_mem outside differ inserted⟩
    · rw [List.mem_singleton.mp now]
      exact ⟨origin, _, died, redriven_mem_moveInto elsewhere⟩

theorem visit (h : Progress deps filter limit content seen (copy :: rest) s) (clock : Monotone deps.clock)
    (open_ : s.moved < limit) :
    ∃ seen', Progress deps filter limit content seen' rest (RedriveLoop.visit deps dlq s copy.id) := by
  have found := h.find List.mem_cons_self
  have free := h.free copy List.mem_cons_self
  split at found
  · rcases moveOne_cases deps found with ⟨movable_, stays, origin, died, done⟩ | ⟨fixed, leaves,
      done⟩ | ⟨fixed, stays, done⟩
    · refine ⟨seen ++ [copy], ?_⟩
      have after := h.move clock open_ (free.symm.trans movable_) died
      rw [stays] at after
      rw [RedriveLoop.visit, done]
      exact after
    · refine ⟨seen ++ [copy], ?_⟩
      have after := h.stay clock open_ (free.symm.trans fixed)
      rw [leaves] at after
      rw [RedriveLoop.visit, done]
      exact after
    · refine ⟨seen ++ [copy], ?_⟩
      have after := h.stay clock open_ (free.symm.trans fixed)
      rw [stays] at after
      rw [RedriveLoop.visit, done]
      exact after
  · rename_i dead
    refine ⟨seen, ?_⟩
    have taken : moveOne deps dlq copy.id (deps.clock s.statements) s.table = (.taken, s.table) := by
      rw [moveOne, found]
    rw [RedriveLoop.visit, taken]
    exact h.skip clock (Nat.not_lt.mp dead)

theorem visitAll (clock : Monotone deps.clock) (batch : List Job) :
    ∀ {seen s}, Progress deps filter limit content seen (batch ++ rest) s → s.moved < limit →
      ∃ seen' rest', rest'.length ≤ batch.tail.length + rest.length ∧
        Progress deps filter limit content seen' rest' (RedriveLoop.visitAll deps dlq limit (batch.map Job.id) s) := by
  induction batch with
  | nil =>
    intro seen s h _
    exact ⟨seen, rest, by simp, h⟩
  | cons copy batch ih =>
    intro seen s h open_
    obtain ⟨seen', after⟩ := h.visit clock open_
    rw [List.map_cons, RedriveLoop.visitAll]
    split
    · exact ⟨seen', batch ++ rest, by simp, after⟩
    · rename_i more
      obtain ⟨seen₂, rest₂, shorter, done⟩ := ih after (Nat.not_le.mp more)
      refine ⟨seen₂, rest₂, ?_, done⟩
      rw [List.tail_cons]
      have tail := List.length_tail (l := batch)
      omega

/-- A run that is over has seen exactly the copies served. -/
theorem served (h : Progress deps filter limit content seen rest s) (ended : limit ≤ s.moved ∨ rest = []) :
    Quota.served (movable deps content.table) limit (seen ++ rest) = seen := by
  rw [h.quota]
  rcases ended with full | empty
  · rw [Nat.sub_eq_zero_of_le full, Quota.served, List.append_nil]
  · rw [empty, Quota.served_nil, List.append_nil]

theorem exact_ (h : Progress deps filter limit content seen rest s) (ended : limit ≤ s.moved ∨ rest = []) (some_ : 0 < limit) :
    Exact deps dlq limit content.table (seen ++ rest) s := by
  have served := h.served ended
  have first : seen.filter (movable deps content.table) =
      ((seen ++ rest).filter (movable deps content.table)).take limit := by
    rw [← Quota.served_filter, served]
  constructor
  · rw [h.moved, first, List.length_take]
  · rw [h.table, first]
  · rw [← first]
    exact h.redriven
  · rw [h.skipped]
    congr 1
    have sorted := h.sorted
    refine ((List.pairwise_append.mp sorted).1.filter _).eq_of_mem_iff (sorted.filter _) ?_
    intro copy
    rw [List.mem_filter, List.mem_filter, Bool.and_eq_true, Option.all_eq_true]
    have reached : ∀ member : copy ∈ seen ++ rest, copy ∈ seen ↔ ∀ last,
        ((seen ++ rest).filter (movable deps content.table))[limit - 1]? = some last → copy = last ∨ before copy last := by
      intro member
      have mem := Quota.mem_served (movable deps content.table) (fun a b first second => lt_asymm first second) sorted
        (n := limit - 1) member
      rw [Nat.sub_add_cancel some_, served] at mem
      exact mem
    constructor
    · intro ⟨here, rejects⟩
      have member : copy ∈ seen ++ rest := List.mem_append_left _ here
      refine ⟨member, rejects, ?_⟩
      intro last found
      rcases (reached member).mp here last found with same | older_
      · have moves := List.mem_filter.mp (List.mem_of_getElem? found)
        rw [← same] at moves
        exact absurd rejects (Bool.eq_false_iff.mp (not_rejects_of_movable moves.2))
      · have first : copy.age < last.age := older_
        exact decide_eq_true first
    · intro ⟨member, rejects, all⟩
      refine ⟨(reached member).mpr ?_, rejects⟩
      intro last found
      have first : copy.age < last.age := of_decide_eq_true (all last found)
      exact .inr first

end Progress

variable {dlq : Text} {deps : Deps} {filter : Filter} {limit : ℕ} {content : Content dlq}

/-- Every round tries at least one copy more. -/
theorem loop_exact (clock : Monotone deps.clock) (n : ℕ) :
    ∀ {seen rest s}, Progress deps filter limit content seen rest s → rest.length < n →
      ∃ seen' rest' s', Progress deps filter limit content seen' rest' s' ∧ (limit ≤ s'.moved ∨ rest' = []) ∧
        ∀ fuel, n ≤ fuel → loop deps dlq filter limit fuel s = some s' := by
  induction n with
  | zero =>
    intro _ _ _ _ impossible
    omega
  | succ n ih =>
    intro seen rest s h short
    by_cases full : limit ≤ s.moved
    · refine ⟨seen, rest, s, h, .inl full, ?_⟩
      intro fuel enough
      obtain ⟨m, same⟩ := Nat.exists_eq_succ_of_ne_zero (Nat.ne_of_gt (Nat.lt_of_lt_of_le (Nat.succ_pos n) enough))
      rw [same, loop, if_pos full]
    · have open_ := Nat.not_le.mp full
      have dropped := h.drop
      have asked : candidateIds deps dlq filter (limit - s.moved) (deps.clock s.statements) s.tried s.table =
          ((rest.filter fun copy => deps.clock s.statements < copy.keepUntil).take (limit - s.moved)).map Job.id := by
        rw [candidateIds, h.candidates_eq clock]
      generalize alive : (rest.filter fun copy => deps.clock s.statements < copy.keepUntil) = left at dropped asked
      have shorter : left.length ≤ rest.length := by
        rw [← alive]
        exact List.length_filter_le _ _
      cases left with
      | nil =>
        refine ⟨seen, [], s, dropped, .inr rfl, ?_⟩
        intro fuel enough
        obtain ⟨m, same⟩ := Nat.exists_eq_succ_of_ne_zero (Nat.ne_of_gt (Nat.lt_of_lt_of_le (Nat.succ_pos n) enough))
        rw [same, loop, if_neg full, asked, List.take_nil]
        rfl
      | cons copy more =>
        obtain ⟨k, quota⟩ := Nat.exists_eq_succ_of_ne_zero (Nat.sub_ne_zero_of_lt open_)
        have round : candidateIds deps dlq filter (limit - s.moved) (deps.clock s.statements) s.tried s.table =
            (copy :: more.take k).map Job.id := by rw [asked, quota, List.take_succ_cons]
        have batch := dropped.tick clock
        rw [← List.take_append_drop (k + 1) (copy :: more), List.take_succ_cons, List.drop_succ_cons] at batch
        obtain ⟨seen', rest', tried, after⟩ := Progress.visitAll clock _ batch open_
        have fewer : rest'.length < n := by
          rw [List.tail_cons, List.length_take, List.length_drop] at tried
          rw [List.length_cons] at shorter
          omega
        obtain ⟨seen₂, rest₂, result, done, ended, runs⟩ := ih after fewer
        refine ⟨seen₂, rest₂, result, done, ended, ?_⟩
        intro fuel enough
        obtain ⟨m, same⟩ := Nat.exists_eq_succ_of_ne_zero (Nat.ne_of_gt (Nat.lt_of_lt_of_le (Nat.succ_pos n) enough))
        rw [same, loop, if_neg full, round]
        exact runs m (by omega)

/-- Nothing is tried when a run begins. -/
theorem begins (deps : Deps) (filter : Filter) (limit : ℕ) (content : Content dlq) :
    Progress deps filter limit content [] (content.matching deps filter) ⟨content.table, [], 0, 0, 0⟩ where
  order := .refl _
  expired copy here lost := absurd here lost
  tried copy here := absurd here List.not_mem_nil
  untried copy _ := List.not_mem_nil
  table := by simp
  free copy _ := rfl
  redriven copy here := absurd here List.not_mem_nil
  moved := rfl
  skipped := rfl
  within := Nat.zero_le _
  quota later := rfl

theorem checkLimit_pos {limit : Number} {n : ℕ} (accepted : checkLimit limit = .ok n) : 0 < n := by
  unfold checkLimit at accepted
  split at accepted
  · split at accepted
    · cases accepted
    · rename_i whole _ range
      cases accepted
      omega
  · cases accepted

/-- With nobody else at the table a redrive ends, moves the oldest copies that can move, up to the limit, and counts the
copies the policy rejects on the way. Only a copy whose deadline passes meanwhile may be missing from those that match. -/
theorem redrive_exact (deps : Deps) (content : Content dlq) (options : RedriveOptions) (clock : Monotone deps.clock)
    (accepted : checkLimit (options.limit.getD (.ofNat REDRIVE_DEFAULT_LIMIT)) = .ok limit)
    (ids : checkIds ((options.filter.getD .none).ids.getD []) = .ok ())
    (owned : deps.queues.any (fun queue => queue.2 = some dlq) = true) :
    ∃ result matching,
      (∀ fuel, content.table.length < fuel →
        redriveDeadLetters fuel deps dlq options content.table = .ok (some result)) ∧
      matching.Sublist (content.matching deps (options.filter.getD .none)) ∧
      (∀ copy ∈ content.matching deps (options.filter.getD .none), copy ∉ matching →
        copy.keepUntil ≤ deps.clock result.statements) ∧
      Exact deps dlq limit content.table matching result := by
  have count : (content.matching deps (options.filter.getD .none)).length < content.table.length + 1 := by
    rw [Content.matching, candidates, List.length_insertionSort, Nat.lt_succ_iff]
    exact List.length_filter_le _ _
  obtain ⟨seen, rest, result, done, ended, runs⟩ := loop_exact clock _ (begins deps (options.filter.getD .none) limit content) count
  refine ⟨result, seen ++ rest, ?_, done.order, done.expired, done.exact_ ended (checkLimit_pos accepted)⟩
  intro fuel enough
  rw [redriveDeadLetters, accepted, ids, owned]
  exact congrArg Except.ok (runs fuel enough)

def jobId (digits : String) : Text := text "6ba7b810-9dad-41d1-80b4-00c04fd430" ++ text digits

/-- A copy of a mail in the dead-letter queue. -/
def mailCopy (id : String) (createdOn : ℕ) (sourceName sourceId : String) (data : Json) (keepUntil : ℕ) : Job :=
  ⟨⟨.created, data, 0, some (text sourceName), some (jobId sourceId), keepUntil⟩, text "mail.send.dlq", jobId id, createdOn⟩

/-- Three copies of one moment, an older one whose queue is gone, two younger ones, one that the filter leaves out and one whose
deadline has passed; one of the originals is still there, dead. -/
def mailTable : List Job :=
  [mailCopy "d3" 5 "mail.send" "a3" (.bool true) 1000, mailCopy "d6" 9 "mail.send" "a6" (.bool false) 1000,
    mailCopy "d1" 5 "mail.send" "a1" (.bool false) 1000, mailCopy "d4" 2 "mail.old" "a4" (.bool true) 1000,
    ⟨⟨.failed, .bool true, 0, none, none, 900⟩, text "mail.send", jobId "a2", 1⟩,
      mailCopy "d2" 5 "mail.send" "a2" (.bool true) 1000,
    mailCopy "d5" 9 "mail.send" "a5" (.bool true) 1000, mailCopy "d7" 12 "mail.send" "a7" (.bool true) 1000,
    mailCopy "d0" 1 "mail.send" "a0" (.bool true) 15]

theorem mailTable_keys : (mailTable.map fun job => (job.queue, job.id)).Nodup := by decide

def failedMails : Content (text "mail.send.dlq") where
  table := mailTable
  keys := mailTable_keys
  distinct := by
    have ids : ∀ a ∈ mailTable, ∀ b ∈ mailTable, a.queue = text "mail.send.dlq" → b.queue = text "mail.send.dlq" →
        a.origin = b.origin → a.id = b.id := by
      decide +kernel
    intro a first b second here here' o origin origin'
    refine List.inj_on_of_nodup_map mailTable_keys first second ?_
    exact Prod.ext (here.trans here'.symm) (ids a first b second here here' (origin.trans origin'.symm))
  elsewhere := by
    have away : ∀ a ∈ mailTable, a.origin.all fun o => o.1 ≠ text "mail.send.dlq" := by decide +kernel
    intro a member _ o origin
    have other := away a member
    rw [origin, Option.all_some, decide_eq_true_eq] at other
    exact other

/-- The rule lets a mail pass that is marked so. -/
def mailDeps : Deps where
  policyFor name := if name = text "mail.send" then some (some fun data => match data with
    | .bool marked => some marked
    | _ => none) else none
  queues := [(text "mail.send", some (text "mail.send.dlq"))]
  retention _ := 5
  contains _ _ := true
  clock n := 20 + n

def twoOlder : RedriveOptions := ⟨some (.ofNat 2), some { Filter.none with createdBefore := some 10 }⟩

theorem redrive_exact_two :
    ∃ result matching, result.moved = 2 ∧ result.skipped = 1 ∧
      (∀ fuel, failedMails.table.length < fuel →
        redriveDeadLetters fuel mailDeps (text "mail.send.dlq") twoOlder failedMails.table = .ok (some result)) ∧
      matching.Sublist (failedMails.matching mailDeps { Filter.none with createdBefore := some 10 }) ∧
      (∀ copy ∈ failedMails.matching mailDeps { Filter.none with createdBefore := some 10 }, copy ∉ matching →
        copy.keepUntil ≤ mailDeps.clock result.statements) ∧
      Exact mailDeps (text "mail.send.dlq") 2 failedMails.table matching result := by
  obtain ⟨result, matching, ends, order, expired, exact_⟩ := redrive_exact mailDeps failedMails twoOlder
    (fun _ _ later => Nat.add_le_add_left later 20) (show checkLimit (.ofNat 2) = .ok 2 by decide +kernel) rfl (by decide)
  have check : (redriveDeadLetters 10 mailDeps (text "mail.send.dlq") twoOlder failedMails.table).toOption.join.map
      (fun s => (s.moved, s.skipped)) = some (2, 1) := by
    decide +kernel
  rw [ends 10 (by decide)] at check
  obtain ⟨moved, skipped⟩ := Prod.mk.inj (Option.some.inj check)
  exact ⟨result, matching, moved, skipped, ends, order, expired, exact_⟩

end RedriveLoop
