import Switchboard.Proof.Tasks

/-!
# What an untargeted checkout gives out

`TaskClaimable` says over the store before a checkout which tasks an agent may be given: the
two evaluators of the dependencies, the sweep and the snapshot of the loop do not occur in
it.

* `completedFor_iff`: both evaluators of the dependencies agree with the store.
* `takes_iff`: what the loop takes in the swept store is what was claimable before.
* `checkout_claims`: after any sequence of operations, leases are exclusive and a checkout
  gives out the first claimable task and leaves the others alone.
-/

namespace Switchboard

open Table Transaction Program Tasks

/-- A task is still held at `now`. -/
def LiveLease (now : Time) (s : TaskStore) (id : ℤ) : Prop := ∃ l ∈ s.leases, l.taskId = id ∧ now < l.expiresAt

/-- **A checkout at `now` may give out `t`**: it is pending, or its lease has expired; nobody holds it; and every
dependency that exists is completed, which a task with an expired lease no longer is. -/
structure TaskClaimable (now : Time) (s : TaskStore) (t : TaskRow) : Prop where
  pending : t.status = .pending ∨ Expired now s t.id
  free : ¬ LiveLease now s t.id
  ready : ∀ d ∈ s.tasks, (t.id, d.id) ∈ s.dependencies → d.status = .completed ∧ ¬ Expired now s d.id

/-- The order of the candidates: the highest priority, then the lowest id. -/
def ComesFirst (t u : TaskRow) : Prop := u.priority < t.priority ∨ (u.priority = t.priority ∧ t.id < u.id)

section evaluators

variable {s : TaskStore} {t : TaskRow} {now : Time} {agentId : String}

theorem mem_dependenciesOf {id d : ℤ} : d ∈ TaskRepository.dependenciesOf id s ↔ (id, d) ∈ s.dependencies := by
  unfold TaskRepository.dependenciesOf
  rw [mem_sortedIds, List.mem_map]
  constructor
  · rintro ⟨e, he, rfl⟩
    obtain ⟨he, hid⟩ := List.mem_filter.1 he
    have hid' : e.1 = id := by simpa using hid
    rw [← hid']; exact he
  · intro h
    exact ⟨(id, d), List.mem_filter.2 ⟨h, by simp⟩, rfl⟩

/-- The statuses that the loop has read. -/
def statusOf (statuses : List (ℤ × TaskStatus)) (d : ℤ) : Option TaskStatus :=
  (statuses.find? fun e => e.1 == d).map Prod.snd

theorem fromRecords_cons {statuses : List (ℤ × TaskStatus)} {d : ℤ} {deps : List ℤ} :
    dependenciesCompletedFromRecords statuses (d :: deps) =
      match statusOf statuses d with
      | none => none
      | some status =>
        if status = .completed then dependenciesCompletedFromRecords statuses deps else some false := rfl

theorem fromRecords_true {statuses : List (ℤ × TaskStatus)} {deps : List ℤ}
    (h : dependenciesCompletedFromRecords statuses deps = some true) :
    ∀ d ∈ deps, statusOf statuses d = some .completed := by
  induction deps with
  | nil => intro d hd; cases hd
  | cons e deps ih =>
    rw [fromRecords_cons] at h
    cases he : statusOf statuses e with
    | none => rw [he] at h; cases h
    | some status =>
      rw [he] at h
      by_cases hs : status = .completed
      · subst hs
        intro d hd
        rcases List.mem_cons.1 hd with rfl | hd
        · exact he
        · exact ih h d hd
      · simp [hs] at h

theorem fromRecords_false {statuses : List (ℤ × TaskStatus)} {deps : List ℤ}
    (h : dependenciesCompletedFromRecords statuses deps = some false) :
    ∃ d ∈ deps, ∃ status, statusOf statuses d = some status ∧ status ≠ .completed := by
  induction deps with
  | nil => cases h
  | cons e deps ih =>
    rw [fromRecords_cons] at h
    cases he : statusOf statuses e with
    | none => rw [he] at h; cases h
    | some status =>
      rw [he] at h
      by_cases hs : status = .completed
      · subst hs
        obtain ⟨d, hd, hstatus⟩ := ih h
        exact ⟨d, List.mem_cons_of_mem _ hd, hstatus⟩
      · exact ⟨e, List.mem_cons_self, status, he, hs⟩

/-- The statuses of the loop are those of the store. -/
theorem statusOf_candidates (hids : (s.tasks.map TaskRow.id).Nodup) {d : ℤ} {status : TaskStatus} :
    statusOf ((TaskRepository.listCandidates none s).map fun r => (r.row.id, r.row.status)) d = some status ↔
      ∃ u ∈ s.tasks, u.id = d ∧ u.status = status := by
  have hnodup : (((TaskRepository.listCandidates none s).map fun r => (r.row.id, r.row.status)).map Prod.fst).Nodup := by
    have hperm : ((s.tasks.mergeSort TaskRepository.candidateBefore).map TaskRow.id).Perm (s.tasks.map TaskRow.id) :=
      (List.mergeSort_perm _ _).map _
    have hcol : ((TaskRepository.listCandidates none s).map fun r => (r.row.id, r.row.status)).map Prod.fst =
        (s.tasks.mergeSort TaskRepository.candidateBefore).map TaskRow.id := by
      unfold TaskRepository.listCandidates
      rw [List.map_map, List.map_map]
      rfl
    rw [hcol]
    exact hperm.nodup_iff.2 hids
  have hmem : ∀ e, e ∈ (TaskRepository.listCandidates none s).map (fun r => (r.row.id, r.row.status)) ↔
      ∃ u ∈ s.tasks, (u.id, u.status) = e := by
    intro e
    unfold TaskRepository.listCandidates
    rw [List.map_map, List.mem_map]
    constructor
    · rintro ⟨u, hu, rfl⟩; exact ⟨u, List.mem_mergeSort.1 hu, rfl⟩
    · rintro ⟨u, hu, rfl⟩; exact ⟨u, List.mem_mergeSort.2 hu, rfl⟩
  unfold statusOf
  constructor
  · intro h
    obtain ⟨e, he, rfl⟩ := Option.map_eq_some_iff.1 h
    obtain ⟨u, hu, rfl⟩ := (hmem e).1 (List.mem_of_find?_eq_some he)
    exact ⟨u, hu, by simpa using List.find?_some he, rfl⟩
  · rintro ⟨u, hu, rfl, rfl⟩
    have hfind := find?_column hnodup ((hmem (u.id, u.status)).2 ⟨u, hu, rfl⟩)
    rw [show (fun e : ℤ × TaskStatus => e.1 == u.id) = fun e => e.1 == (u.id, u.status).1 from rfl, hfind]
    rfl

theorem dependenciesCompleted_iff {id : ℤ} : TaskRepository.dependenciesCompleted id s = true ↔
    ∀ d ∈ s.tasks, (id, d.id) ∈ s.dependencies → d.status = .completed := by
  unfold TaskRepository.dependenciesCompleted
  rw [List.all_eq_true]
  refine forall₂_congr fun d _ => ?_
  rw [Bool.or_eq_true, Bool.not_eq_true', beq_iff_eq, ← mem_dependenciesOf, ← List.contains_iff_mem]
  cases (TaskRepository.dependenciesOf id s).contains d.id <;> simp

/-- **Both evaluators agree with the store.** -/
theorem completedFor_iff (hids : (s.tasks.map TaskRow.id).Nodup) :
    completedFor none ((TaskRepository.listCandidates none s).map fun r => (r.row.id, r.row.status)) s
      (TaskRepository.toRecord s t) = true ↔
    ∀ d ∈ s.tasks, (t.id, d.id) ∈ s.dependencies → d.status = .completed := by
  unfold completedFor
  show (Option.getD (dependenciesCompletedFromRecords _ (TaskRepository.dependenciesOf t.id s)) _) = true ↔ _
  generalize hstatuses : (TaskRepository.listCandidates none s).map (fun r => (r.row.id, r.row.status)) = statuses
  cases hknown : dependenciesCompletedFromRecords statuses (TaskRepository.dependenciesOf t.id s) with
  | none => exact dependenciesCompleted_iff
  | some known =>
    cases known with
    | true =>
      refine iff_of_true rfl fun d hd hedge => ?_
      have hstatus := fromRecords_true hknown d.id (mem_dependenciesOf.2 hedge)
      rw [← hstatuses, statusOf_candidates hids] at hstatus
      obtain ⟨u, hu, hid, hs⟩ := hstatus
      rw [← List.inj_on_of_nodup_map hids hu hd hid]
      exact hs
    | false =>
      refine iff_of_false (by simp) fun hall => ?_
      obtain ⟨d, hd, status, hstatus, hne⟩ := fromRecords_false hknown
      rw [← hstatuses, statusOf_candidates hids] at hstatus
      obtain ⟨u, hu, rfl, rfl⟩ := hstatus
      exact hne (hall u hu (mem_dependenciesOf.1 hd))

end evaluators

/-! ## The sweep and the loop -/

section loop

variable {s : TaskStore} {t : TaskRow} {now : Time} {agentId : String}

/-- What the sweep makes of a row. -/
def sweptRow (now : Time) (s : TaskStore) (t : TaskRow) : TaskRow :=
  if (LeaseRepository.expiredIds now s).contains t.id && t.status != .pending then
    { t with status := .pending, completedNotes := none }
  else t

theorem swept_tasks : (Tasks.swept agentId now s).tasks = s.tasks.map (sweptRow now s) := rfl

theorem sweptRow_id : (sweptRow now s t).id = t.id := by
  unfold sweptRow; split
  · rfl
  · rfl

theorem sweptRow_priority : (sweptRow now s t).priority = t.priority := by
  unfold sweptRow; split
  · rfl
  · rfl

theorem sweptRow_of_not_expired (h : ¬ Expired now s t.id) : sweptRow now s t = t := by
  unfold sweptRow
  rw [if_neg fun hb => h (mem_expiredIds.1 (Bool.and_eq_true _ _ ▸ hb : _ ∧ _).1)]

theorem sweptRow_pending : (sweptRow now s t).status = .pending ↔ t.status = .pending ∨ Expired now s t.id := by
  by_cases he : Expired now s t.id
  · have hc := mem_expiredIds.2 he
    unfold sweptRow
    rw [hc]
    by_cases hp : t.status = .pending
    · simp [hp]
    · simp [hp, he]
  · rw [sweptRow_of_not_expired he]
    exact ⟨Or.inl, fun h => h.resolve_right he⟩

theorem sweptRow_completed : (sweptRow now s t).status = .completed ↔ t.status = .completed ∧ ¬ Expired now s t.id := by
  by_cases he : Expired now s t.id
  · have hp := sweptRow_pending.2 (Or.inr he)
    rw [hp]
    exact iff_of_false (by simp) fun h => h.2 he
  · rw [sweptRow_of_not_expired he]
    exact ⟨fun h => ⟨h, he⟩, fun h => h.1⟩

/-- The sweep leaves no lease that is not live, and no live lease is swept. -/
theorem live_swept (h : s.Valid) {id : ℤ} :
    ((LeaseRepository.forTask id (Tasks.swept agentId now s)).any fun l => decide (now < l.expiresAt)) = true ↔
      LiveLease now s id := by
  have hlookup : ∀ l ∈ s.leases, l.taskId = id → LeaseRepository.forTask id s = some l := by
    rintro l hl rfl
    exact forTask_of_mem h.one hl
  rw [forTask_swept]
  by_cases he : Expired now s id
  · rw [if_pos (mem_expiredIds.2 he)]
    refine iff_of_false (by simp) ?_
    rintro ⟨l, hl, hid, hlive⟩
    obtain ⟨m, hm, hid', hexp⟩ := he
    have hsame : some l = some m := (hlookup l hl hid).symm.trans (hlookup m hm hid')
    obtain rfl := Option.some.inj hsame
    exact lt_asymm hlive hexp
  · rw [if_neg fun hc => he (mem_expiredIds.1 hc)]
    constructor
    · intro hany
      cases hl : LeaseRepository.forTask id s with
      | none => rw [hl] at hany; cases hany
      | some l =>
        rw [hl] at hany
        exact ⟨l, forTask_mem hl, forTask_taskId hl, by simpa using hany⟩
    · rintro ⟨l, hl, hid, hlive⟩
      rw [hlookup l hl hid]
      simpa using hlive

/-- **What the loop takes in the swept store is what was claimable before.** -/
theorem takes_iff (h : s.Valid) :
    takes none ((TaskRepository.listCandidates none (Tasks.swept agentId now s)).map
        fun r => (r.row.id, r.row.status)) now (Tasks.swept agentId now s)
      (TaskRepository.toRecord (Tasks.swept agentId now s) (sweptRow now s t)) = true ↔ TaskClaimable now s t := by
  unfold takes isAvailable
  rw [Bool.and_eq_true, Bool.and_eq_true, Bool.not_eq_true', completedFor_iff h.swept.ids, beq_iff_eq,
    ← Bool.not_eq_true]
  show ((sweptRow now s t).status = .pending ∧ _) ∧ ¬ ((LeaseRepository.forTask (sweptRow now s t).id
    (Tasks.swept agentId now s)).any fun l => decide (now < l.expiresAt)) = true ↔ _
  rw [live_swept h, sweptRow_id, sweptRow_pending]
  constructor
  · rintro ⟨⟨hp, hdeps⟩, hfree⟩
    refine ⟨hp, hfree, fun d hd hedge => sweptRow_completed.1 ?_⟩
    exact hdeps (sweptRow now s d) (List.mem_map_of_mem hd) (by rw [sweptRow_id]; exact hedge)
  · rintro ⟨hp, hfree, hready⟩
    refine ⟨⟨hp, fun d hd hedge => ?_⟩, hfree⟩
    rw [swept_tasks] at hd
    obtain ⟨u, hu, rfl⟩ := List.mem_map.1 hd
    rw [sweptRow_id] at hedge
    exact sweptRow_completed.2 (hready u hu hedge)

theorem candidateBefore_iff {a b : TaskRow} : TaskRepository.candidateBefore a b = true ↔
    b.priority < a.priority ∨ (a.priority = b.priority ∧ a.id ≤ b.id) := by
  unfold TaskRepository.candidateBefore
  simp

theorem candidates_sorted (tasks : List TaskRow) :
    (tasks.mergeSort TaskRepository.candidateBefore).Pairwise
      fun a b => TaskRepository.candidateBefore a b = true := by
  refine List.pairwise_mergeSort (fun a b c hab hbc => ?_) (fun a b => ?_) tasks
  · rw [candidateBefore_iff] at *
    omega
  · rw [Bool.or_eq_true, candidateBefore_iff, candidateBefore_iff]
    omega

/-- **The loop takes the first claimable task.** -/
theorem chosen_first (h : s.Valid) {r : TaskRecord} (hr : chosen none now (Tasks.swept agentId now s) = some r) :
    ∃ t ∈ s.tasks, TaskClaimable now s t ∧ r = TaskRepository.toRecord (Tasks.swept agentId now s) (sweptRow now s t) ∧
      ∀ u ∈ s.tasks, TaskClaimable now s u → u = t ∨ ComesFirst t u := by
  unfold chosen at hr
  generalize hp : takes none ((TaskRepository.listCandidates none (Tasks.swept agentId now s)).map
    fun r => (r.row.id, r.row.status)) now (Tasks.swept agentId now s) = p at hr
  unfold TaskRepository.listCandidates at hr
  rw [List.find?_map] at hr
  obtain ⟨t₂, hfind, rfl⟩ := Option.map_eq_some_iff.1 hr
  have ht₂ : t₂ ∈ (Tasks.swept agentId now s).tasks := List.mem_mergeSort.1 (List.mem_of_find?_eq_some hfind)
  rw [swept_tasks] at ht₂
  obtain ⟨t, ht, rfl⟩ := List.mem_map.1 ht₂
  have htakes := List.find?_some hfind
  rw [← hp] at htakes
  refine ⟨t, ht, (takes_iff h).1 htakes, rfl, fun u hu hclaim => ?_⟩
  -- the rows of the swept store are sorted, and the loop stops at the first that it can take
  have hu₂ : sweptRow now s u ∈ (Tasks.swept agentId now s).tasks.mergeSort TaskRepository.candidateBefore :=
    List.mem_mergeSort.2 (List.mem_map_of_mem hu)
  have hpu : (p ∘ TaskRepository.toRecord (Tasks.swept agentId now s)) (sweptRow now s u) = true := by
    rw [← hp]; exact (takes_iff h).2 hclaim
  rcases rel_of_find? (candidates_sorted _) hfind hu₂ hpu with hsame | hbefore
  · have hid : u.id = t.id := by
      have hu' : (sweptRow now s u).id = u.id := sweptRow_id
      rw [← hu', hsame, sweptRow_id]
    exact Or.inl (List.inj_on_of_nodup_map h.ids hu ht hid)
  · rw [candidateBefore_iff, sweptRow_id, sweptRow_id, sweptRow_priority, sweptRow_priority] at hbefore
    by_cases hid : u.id = t.id
    · exact Or.inl (List.inj_on_of_nodup_map h.ids hu ht hid)
    · refine Or.inr ?_
      unfold ComesFirst
      omega

/-- Without a choice, nothing was claimable. -/
theorem chosen_none (h : s.Valid) (hr : chosen none now (Tasks.swept agentId now s) = none) :
    ∀ t ∈ s.tasks, ¬ TaskClaimable now s t := by
  intro t ht hclaim
  have hmem : TaskRepository.toRecord (Tasks.swept agentId now s) (sweptRow now s t) ∈
      TaskRepository.listCandidates none (Tasks.swept agentId now s) :=
    List.mem_map_of_mem (List.mem_mergeSort.2 (List.mem_map_of_mem ht))
  exact List.find?_eq_none.1 hr _ hmem ((takes_iff h).2 hclaim)

end loop

/-! ## The checkout -/

/-- **What an untargeted checkout by `agentId` at `now` has to do**, from the store before to its result and the
store after. -/
structure ClaimsFirst (leaseSeconds : ℤ) (agentId : String) (now : Time) (s : TaskStore)
    (result : Tasks.CheckoutResult) (s' : TaskStore) : Prop where
  /-- A task is returned if and only if one is claimable. -/
  returned : result.task.isSome ↔ ∃ t ∈ s.tasks, TaskClaimable now s t
  /-- The first claimable task is returned, and it is in progress with a lease of the agent. -/
  first : ∀ r, result.task = some r → ∃ t ∈ s.tasks, TaskClaimable now s t ∧ r.row.id = t.id ∧
    (∀ u ∈ s.tasks, TaskClaimable now s u → u = t ∨ ComesFirst t u) ∧ r.row ∈ s'.tasks ∧ r.row.status = .inProgress ∧
    ∃ l ∈ s'.leases, result.lease = some l ∧ l.taskId = t.id ∧ l.agentId = agentId ∧
      l.expiresAt = deadline leaseSeconds now
  /-- No task comes or goes. -/
  rows : s'.tasks.map TaskRow.id = s.tasks.map TaskRow.id
  /-- Every other task whose lease has not expired is as it was, with its lease. -/
  others : ∀ u ∈ s.tasks, (∀ r, result.task = some r → r.row.id ≠ u.id) → ¬ Expired now s u.id →
    u ∈ s'.tasks ∧ LeaseRepository.forTask u.id s' = LeaseRepository.forTask u.id s
  dependencies : s'.dependencies = s.dependencies

section claims

variable {s : TaskStore} {now : Time} {agentId : String} {leaseSeconds : ℤ}

/-- A checkout that finds nothing only sweeps. -/
theorem claimsFirst_none (h : s.Valid) (hr : chosen none now (Tasks.swept agentId now s) = none) :
    ClaimsFirst leaseSeconds agentId now s (notAvailable none) (Tasks.swept agentId now s) where
  returned := iff_of_false (by simp [notAvailable]) fun ⟨t, ht, hclaim⟩ => chosen_none h hr t ht hclaim
  first := fun r hres => by cases hres
  rows := map_updateWhere fun _ => rfl
  others := fun u hu _ he => by
    refine ⟨?_, ?_⟩
    · rw [swept_tasks]
      exact List.mem_map.2 ⟨u, hu, sweptRow_of_not_expired he⟩
    · rw [forTask_swept, if_neg fun hc => he (mem_expiredIds.1 hc)]
  dependencies := rfl

/-- A claim leaves the other rows and the dependencies. -/
theorem claimed_frame (taskId : ℤ) :
    (Tasks.claimed leaseSeconds agentId now taskId s).tasks = (TaskRepository.claimPending taskId s).1.tasks ∧
    (Tasks.claimed leaseSeconds agentId now taskId s).dependencies = s.dependencies := by
  unfold Tasks.claimed LeaseRepository.save
  split
  · exact ⟨rfl, rfl⟩
  · exact ⟨rfl, rfl⟩

theorem claimsFirst_some (h : s.Valid) {r : TaskRecord}
    (hr : chosen none now (Tasks.swept agentId now s) = some r) :
    ClaimsFirst leaseSeconds agentId now s
      (claimResult leaseSeconds agentId now r.row.id (Tasks.swept agentId now s))
      (Tasks.claimed leaseSeconds agentId now r.row.id (Tasks.swept agentId now s)) := by
  obtain ⟨t, ht, hclaim, rfl, hfirst⟩ := chosen_first h hr
  obtain ⟨hrow, hpending⟩ := chosen_pending h.swept.ids hr
  change TaskRepository.getRow (sweptRow now s t).id _ = some (sweptRow now s t) at hrow
  change (sweptRow now s t).status = .pending at hpending
  change ClaimsFirst _ _ _ _ (claimResult _ _ _ (sweptRow now s t).id _) (Tasks.claimed _ _ _ (sweptRow now s t).id _)
  -- the row that was claimed
  have hclaimed : TaskRepository.getRow (sweptRow now s t).id
      (TaskRepository.claimPending (sweptRow now s t).id (Tasks.swept agentId now s)).1 =
      some { sweptRow now s t with status := .inProgress } := by
    have hget := getRow_updateTasks (Tasks.swept agentId now s) (sweptRow now s t).id
      (p := fun u => u.id == (sweptRow now s t).id && u.status == .pending)
      (f := fun u => { u with status := .inProgress }) fun _ => rfl
    refine hget.trans ?_
    rw [hrow, Option.map_some, if_pos (by simp [hpending])]
  have hresult : (claimResult leaseSeconds agentId now (sweptRow now s t).id (Tasks.swept agentId now s)).task =
      some (TaskRepository.toRecord
        (TaskRepository.claimPending (sweptRow now s t).id (Tasks.swept agentId now s)).1
        { sweptRow now s t with status := .inProgress }) := by
    show TaskRepository.get _ _ = _
    unfold TaskRepository.get
    rw [hclaimed]
    rfl
  have hlease : LeaseRepository.forTask (sweptRow now s t).id
      (Tasks.claimed leaseSeconds agentId now (sweptRow now s t).id (Tasks.swept agentId now s)) =
      some ⟨(Tasks.swept agentId now s).nextLeaseId, (sweptRow now s t).id, agentId, deadline leaseSeconds now⟩ := by
    rw [forTask_claimed, if_pos rfl]
  refine ⟨?_, ?_, ?_, ?_, ?_⟩
  · rw [hresult]
    exact iff_of_true rfl ⟨t, ht, hclaim⟩
  · intro r hr'
    rw [hresult] at hr'
    obtain rfl := Option.some.inj hr'
    refine ⟨t, ht, hclaim, sweptRow_id, hfirst, ?_, rfl, _, forTask_mem hlease, hlease, sweptRow_id, rfl, rfl⟩
    rw [(claimed_frame _).1]
    exact getRow_mem hclaimed
  · rw [(claimed_frame _).1]
    have hclaim : (TaskRepository.claimPending (sweptRow now s t).id (Tasks.swept agentId now s)).1.tasks.map
        TaskRow.id = (Tasks.swept agentId now s).tasks.map TaskRow.id := map_updateWhere fun _ => rfl
    rw [hclaim]
    exact map_updateWhere fun _ => rfl
  · intro u hu hne he
    have hid : (sweptRow now s t).id ≠ u.id := hne _ hresult
    refine ⟨?_, ?_⟩
    · rw [(claimed_frame _).1]
      refine List.mem_map.2 ⟨u, ?_, ?_⟩
      · rw [swept_tasks]
        exact List.mem_map.2 ⟨u, hu, sweptRow_of_not_expired he⟩
      · rw [if_neg]
        rw [Bool.and_eq_true, beq_iff_eq]
        exact fun hu' => hid hu'.1.symm
    · rw [forTask_claimed, if_neg fun h' => hid h'.symm, forTask_swept, if_neg fun hc => he (mem_expiredIds.1 hc)]
  · rw [(claimed_frame _).2]
    rfl

end claims

/-- **Checkouts give exclusive, ordered, dependency-respecting claims.** After any sequence of operations, every
lease belongs to a task in progress and no task has two; an untargeted checkout answers, and it gives out the first
claimable task, if there is one, and changes no other task except those whose lease had expired. -/
theorem checkout_claims (calls : List TaskCall) :
    (∀ l ∈ (runTasks calls).db.leases,
      ∃ t ∈ (runTasks calls).db.tasks, t.id = l.taskId ∧ t.status = .inProgress) ∧
    ((runTasks calls).db.leases.map TaskLease.taskId).Nodup ∧
    ∀ (now : Time) (leaseSeconds : ℤ) (agentId : String), ∃ result ss',
      TaskCall.transaction ⟨now, leaseSeconds, .checkout agentId none⟩ (runTasks calls) =
        .ok (.checkout result, ss') ∧
      ClaimsFirst leaseSeconds agentId now (runTasks calls).db result ss'.db := by
  have h := runTasks_valid calls
  refine ⟨fun l hl => ?_, h.one, fun now leaseSeconds agentId => ?_⟩
  · obtain ⟨t, ht, hs⟩ := h.held l.taskId l (forTask_of_mem h.one hl)
    exact ⟨t, getRow_mem ht, getRow_id ht, hs⟩
  · have hrun : TaskCall.transaction ⟨now, leaseSeconds, .checkout agentId none⟩ (runTasks calls) =
        (run (fun _ => now) (checkoutAt leaseSeconds agentId none now) >>= fun result => pure (.checkout result))
          (runTasks calls) := by
      show run (fun _ => now) (ask TaskStore.systemState >>= _) (runTasks calls) = _
      rw [run_ask_bind, h.working, if_neg (by simp), run_now_bind, run_bind_pure]
    rcases run_checkoutAt (fun _ => now) leaseSeconds agentId none now h.ids with ⟨hnone, ss₁, hdb, hok⟩ | ⟨r, ss₁, hsome, hdb, hok⟩
    · refine ⟨notAvailable none, ss₁, by rw [hrun, bind_of_ok hok]; rfl, ?_⟩
      rw [hdb]
      exact claimsFirst_none h hnone
    · refine ⟨_, ss₁, by rw [hrun, bind_of_ok hok]; rfl, ?_⟩
      rw [hdb]
      exact claimsFirst_some h hsome

end Switchboard
