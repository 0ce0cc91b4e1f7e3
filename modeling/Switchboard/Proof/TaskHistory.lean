import Switchboard.Lib.Acyclic
import Switchboard.Proof.Tasks

/-!
# Finished tasks, stuck tasks and cycles

Three properties of the task store along whole runs. None of them holds for every run; each
theorem says for which runs it does.

* `finished_kept_iff`: an operation keeps the finished tasks unless it abandons one.
* `recoverable_iff`: every task in progress has a lease unless an update has put one in
  progress without.
* `completable_iff`: the dependencies are acyclic unless an update has closed a cycle.
-/

namespace Switchboard

open Table Transaction Program Tasks

/-! ## Runs -/

theorem runTasks_append (calls : List TaskCall) (c : TaskCall) : runTasks (calls ++ [c]) = stepTasks (runTasks calls) c := by
  unfold runTasks
  rw [List.foldl_append]
  rfl

/-- A property of the store along a run from the empty store. -/
theorem tasks_prefixes_iff {P : TaskStore → Prop} {G : TaskStore → TaskCall → Prop} (hinit : P TaskStore.init)
    (hstep : ∀ ss c, ss.db.Valid → P ss.db → (P (stepTasks ss c).db ↔ G ss.db c)) (calls : List TaskCall) :
    (∀ pre, pre <+: calls → P (runTasks pre).db) ↔
      ∀ pre c, pre ++ [c] <+: calls → G (runTasks pre).db c :=
  Run.prefixes_iff (I := fun ss : Session TaskStore => ss.db.Valid) (P := fun ss : Session TaskStore => P ss.db)
    (G := fun (ss : Session TaskStore) c => G ss.db c) stepTasks_valid TaskStore.init_valid hinit hstep calls

/-! ## Finished tasks -/

/-- The operations that are meant to reopen or remove a task. -/
def TaskOperation.mayReopen : TaskOperation → Bool
  | .updateTask _ _ | .deleteTask _ => true
  | _ => false

/-- **A finished task stays finished**, with its notes unless `complete` rewrites them. -/
def KeepsFinished (c : TaskCall) (s s' : TaskStore) : Prop :=
  ∀ t ∈ s.tasks, t.status = .completed → ∃ t' ∈ s'.tasks, t'.id = t.id ∧ t'.status = .completed ∧
    (t'.completedNotes = t.completedNotes ∨
      ∃ agentId notes, c.operation = .complete agentId t.id notes ∧ t'.completedNotes = normalizedNotes notes)

/-- The call gives up a finished task. -/
def AbandonsFinished (c : TaskCall) (s : TaskStore) : Prop :=
  ∃ agentId, ∃ t ∈ s.tasks, c.operation = .abandon agentId t.id ∧ t.status = .completed

section finished

variable {s s' : TaskStore} {c : TaskCall}

/-- The rows are kept if the lookups are. -/
theorem keepsFinished_of_getRow (h : s.Valid)
    (hrow : ∀ id t, TaskRepository.getRow id s = some t → t.status = .completed →
      TaskRepository.getRow id s' = some t) : KeepsFinished c s s' := by
  intro t ht hs
  exact ⟨t, getRow_mem (hrow t.id t (getRow_of_mem h.ids ht) hs), rfl, hs, Or.inl rfl⟩

/-- A finished task has no lease. -/
theorem forTask_of_completed (h : s.Valid) {id : ℤ} {t : TaskRow} (ht : TaskRepository.getRow id s = some t)
    (hs : t.status = .completed) : LeaseRepository.forTask id s = none := by
  cases hl : LeaseRepository.forTask id s with
  | none => rfl
  | some l =>
    obtain ⟨u, hu, hprogress⟩ := h.held id l hl
    rw [ht] at hu
    rw [← Option.some.inj hu, hs] at hprogress
    cases hprogress

theorem not_expired_of_completed (h : s.Valid) {now : Time} {t : TaskRow}
    (ht : TaskRepository.getRow t.id s = some t) (hs : t.status = .completed) : ¬ Expired now s t.id := by
  rintro ⟨l, hl, hid, -⟩
  have hnone := forTask_of_completed h ht hs
  rw [← hid, forTask_of_mem h.one hl] at hnone
  cases hnone

/-- The sweep does not reopen a finished task: it has no lease. -/
theorem getRow_swept_completed (h : s.Valid) {agentId : String} {now : Time} {id : ℤ} {t : TaskRow}
    (ht : TaskRepository.getRow id s = some t) (hs : t.status = .completed) :
    TaskRepository.getRow id (Tasks.swept agentId now s) = some t := by
  obtain rfl := getRow_id ht
  rw [getRow_swept, ht, Option.map_some, if_neg]
  intro hb
  exact not_expired_of_completed h ht hs (mem_expiredIds.1 (Bool.and_eq_true _ _ ▸ hb : _ ∧ _).1)

/-- **Only an abandonment of a finished task reopens it.** -/
theorem TaskStep.keepsFinished (hstep : TaskStep c s s') (h : s.Valid) (hop : c.operation.mayReopen = false)
    (hno : ¬ AbandonsFinished c s) : KeepsFinished c s s' := by
  cases hstep with
  | unchanged => exact keepsFinished_of_getRow h fun _ _ ht _ => ht
  | heartbeat agentId taskId hop' hcan =>
    refine keepsFinished_of_getRow h fun id t ht _ => ?_
    have hsame : TaskRepository.getRow id
        (LeaseRepository.save taskId agentId (deadline c.leaseSeconds c.now) s).1 = TaskRepository.getRow id s := by
      unfold LeaseRepository.save
      split
      · rfl
      · rfl
    rw [hsame]; exact ht
  | completed agentId taskId notes task hop' htask hcan =>
    obtain ⟨-, hid⟩ := get_some htask
    intro t ht hs
    have hrow := getRow_of_mem h.ids ht
    by_cases hid' : t.id = taskId
    · have hafter : TaskRepository.getRow t.id (released (withStatus task .completed (normalizedNotes notes)) s) =
          some (TaskRepository.savedRow (withStatus task .completed (normalizedNotes notes)) t) := by
        rw [getRow_released, hrow, Option.map_some, if_pos]
        simpa [withStatus, hid] using hid'
      exact ⟨_, getRow_mem hafter, rfl, rfl, Or.inr ⟨agentId, notes, by rw [hop', hid'], rfl⟩⟩
    · have hafter : TaskRepository.getRow t.id (released (withStatus task .completed (normalizedNotes notes)) s) =
          some t := by
        rw [getRow_released, hrow, Option.map_some, if_neg]
        simpa [withStatus, hid] using hid'
      exact ⟨t, getRow_mem hafter, rfl, hs, Or.inl rfl⟩
  | abandoned agentId taskId task hop' htask hcan =>
    obtain ⟨-, hid⟩ := get_some htask
    refine keepsFinished_of_getRow h fun id t ht hs => ?_
    have hne : ¬ t.id = taskId := by
      intro hid'
      exact hno ⟨agentId, t, getRow_mem ht, by rw [hop', hid'], hs⟩
    rw [getRow_released, ht, Option.map_some, if_neg]
    simpa [withStatus, hid] using hne
  | created newId title description dependsOn priority hop' hdeps hnew =>
    refine keepsFinished_of_getRow h fun id t ht _ => ?_
    rw [getRow_create hnew, if_neg]
    · exact ht
    · rintro rfl
      rw [hnew] at ht; cases ht
  | updated taskId changes hop' hacc => rw [hop'] at hop; cases hop
  | deleted taskId hop' => rw [hop'] at hop; cases hop
  | swept agentId wanted hop' hnone => exact keepsFinished_of_getRow h fun id t ht hs => getRow_swept_completed h ht hs
  | claimed agentId wanted r hop' hsome =>
    refine keepsFinished_of_getRow h fun id t ht hs => ?_
    rw [getRow_claimed, getRow_swept_completed h ht hs, Option.map_some, if_neg]
    rw [Bool.and_eq_true, beq_iff_eq, beq_iff_eq, hs]
    rintro ⟨-, hp⟩
    cases hp

/-- **An abandonment of a finished task always reopens it**: without a lease it is permitted to everybody. -/
theorem abandon_reopens {ss : Session TaskStore} (h : ss.db.Valid) (hab : AbandonsFinished c ss.db) :
    ¬ KeepsFinished c ss.db (stepTasks ss c).db := by
  obtain ⟨agentId, t, ht, hop, hs⟩ := hab
  obtain ⟨now, leaseSeconds, operation⟩ := c
  obtain rfl : operation = .abandon agentId t.id := hop
  have hrow := getRow_of_mem h.ids ht
  have hcan : LeasePolicy.canAbandon (LeaseRepository.forTask t.id ss.db) agentId now = true := by
    rw [forTask_of_completed h hrow hs]; rfl
  have htask : TaskRepository.get t.id ss.db = some (TaskRepository.toRecord ss.db t) := by
    unfold TaskRepository.get; rw [hrow]; rfl
  obtain ⟨ss₁, hdb, hrun⟩ := run_abandonAt (c := fun _ => now) hcan htask
  have hafter : (stepTasks ss ⟨now, leaseSeconds, .abandon agentId t.id⟩).db =
      released (withStatus (TaskRepository.toRecord ss.db t) .pending none) ss.db := by
    have hok : TaskCall.transaction ⟨now, leaseSeconds, .abandon agentId t.id⟩ ss = _ := hrun
    unfold stepTasks
    rw [commit_of_ok hok, hdb]
  intro hkeeps
  obtain ⟨t', ht', hid, hstatus, -⟩ := hkeeps t ht hs
  rw [hafter] at ht'
  have hrow' := getRow_of_mem (h.released _).ids ht'
  rw [hid, getRow_released, hrow, Option.map_some, if_pos (by exact beq_self_eq_true _)] at hrow'
  rw [← Option.some.inj hrow'] at hstatus
  cases hstatus

end finished

/-- **Finished tasks stay finished under an operation that is not meant to reopen them, if and only if it does not
abandon one.** -/
theorem finished_kept_iff (calls : List TaskCall) (c : TaskCall) (hop : c.operation.mayReopen = false) :
    KeepsFinished c (runTasks calls).db (runTasks (calls ++ [c])).db ↔ ¬ AbandonsFinished c (runTasks calls).db := by
  have h := runTasks_valid calls
  rw [runTasks_append]
  constructor
  · exact fun hkeeps hab => abandon_reopens h hab hkeeps
  · exact (stepTasks_step c _ h.ids).keepsFinished h hop

/-- One task, completed by an agent. -/
def finishedRun : List TaskCall :=
  [⟨0, 300, .createTask 1 "build" "" [] 0⟩, ⟨0, 300, .checkout "ada" none⟩, ⟨1, 300, .complete "ada" 1 (some "done")⟩]

theorem finishedRun_tasks : (runTasks finishedRun).db.tasks = [⟨1, "build", "", 0, .completed, some "done"⟩] := by
  decide +kernel

/-- A later checkout leaves the finished task alone. -/
theorem finished_kept_checkout :
    (runTasks finishedRun).db.tasks = [⟨1, "build", "", 0, .completed, some "done"⟩] ∧
    KeepsFinished ⟨2, 300, .checkout "bob" none⟩ (runTasks finishedRun).db
      (runTasks (finishedRun ++ [⟨2, 300, .checkout "bob" none⟩])).db := by
  refine ⟨finishedRun_tasks, (finished_kept_iff finishedRun ⟨2, 300, .checkout "bob" none⟩ rfl).2 ?_⟩
  rintro ⟨agentId, t, -, hop, -⟩
  cases hop

/-- **Anybody can reopen a finished task by abandoning it.** -/
theorem finished_reopened :
    ¬ KeepsFinished ⟨2, 300, .abandon "bob" 1⟩ (runTasks finishedRun).db
      (runTasks (finishedRun ++ [⟨2, 300, .abandon "bob" 1⟩])).db := by
  have hafter : (runTasks (finishedRun ++ [⟨2, 300, .abandon "bob" 1⟩])).db.tasks =
      [⟨1, "build", "", 0, .pending, none⟩] := by decide +kernel
  intro h
  obtain ⟨t', ht', -, hstatus, -⟩ := h ⟨1, "build", "", 0, .completed, some "done"⟩
    (by rw [finishedRun_tasks]; exact List.mem_singleton.2 rfl) rfl
  rw [hafter] at ht'
  rw [List.mem_singleton.1 ht'] at hstatus
  cases hstatus

/-! ## Stuck tasks -/

/-- **A task in progress has a lease**, so that the sweep of a checkout after its deadline makes it pending. -/
def Recoverable (s : TaskStore) : Prop :=
  ∀ t ∈ s.tasks, t.status = .inProgress → ∃ l ∈ s.leases, l.taskId = t.id ∧
    ∀ now, l.expiresAt < now → TaskRepository.getRow t.id (LeaseRepository.sweep now s).1 =
      some { t with status := .pending, completedNotes := none }

/-- The call puts a task in progress that has no lease. -/
def ForcesProgress (c : TaskCall) (s : TaskStore) : Prop :=
  ∃ taskId changes, c.operation = .updateTask taskId changes ∧ Accepted taskId changes s ∧
    changes.status = some .inProgress ∧ LeaseRepository.forTask taskId s = none

section stuck

variable {s s' : TaskStore} {c : TaskCall}

/-- The same over the lookups. -/
def Leased (s : TaskStore) : Prop :=
  ∀ id t, TaskRepository.getRow id s = some t → t.status = .inProgress → (LeaseRepository.forTask id s).isSome

theorem recoverable_iff_leased (h : s.Valid) : Recoverable s ↔ Leased s := by
  constructor
  · intro hrec id t ht hs
    obtain ⟨l, hl, hid, -⟩ := hrec t (getRow_mem ht) hs
    rw [← getRow_id ht, ← hid, forTask_of_mem h.one hl]
    rfl
  · intro hleased t ht hs
    have hrow := getRow_of_mem h.ids ht
    obtain ⟨l, hl⟩ := Option.isSome_iff_exists.1 (hleased t.id t hrow hs)
    refine ⟨l, forTask_mem hl, forTask_taskId hl, fun now hexp => ?_⟩
    have hexpired : Expired now s t.id := ⟨l, forTask_mem hl, forTask_taskId hl, hexp⟩
    rw [getRow_sweep, hrow, Option.map_some, if_pos]
    rw [Bool.and_eq_true]
    exact ⟨mem_expiredIds.2 hexpired, by rw [hs]; rfl⟩

/-- Rows and leases that are kept. -/
theorem Leased.of_same (h : Leased s)
    (hsame : ∀ id t, TaskRepository.getRow id s' = some t → t.status = .inProgress →
      TaskRepository.getRow id s = some t ∧ (LeaseRepository.forTask id s).isSome = (LeaseRepository.forTask id s').isSome) :
    Leased s' := by
  intro id t ht hs
  obtain ⟨hrow, hlease⟩ := hsame id t ht hs
  rw [← hlease]
  exact h id t hrow hs

theorem Leased.released (h : Leased s) {record : TaskRecord} (hstatus : record.row.status ≠ .inProgress) :
    Leased (Tasks.released record s) := by
  refine h.of_same fun id t ht hs => ?_
  rw [getRow_released] at ht
  obtain ⟨u, hu, rfl⟩ := Option.map_eq_some_iff.1 ht
  by_cases hid : u.id = record.row.id
  · rw [if_pos (by simpa using hid)] at hs
    exact absurd hs hstatus
  · rw [if_neg (by simpa using hid), forTask_released, if_neg fun h' => hid ((getRow_id hu).trans h')]
    exact ⟨hu, rfl⟩

theorem Leased.swept (h : Leased s) {agentId : String} {now : Time} : Leased (Tasks.swept agentId now s) := by
  refine h.of_same fun id t ht hs => ?_
  rw [getRow_swept] at ht
  obtain ⟨u, hu, rfl⟩ := Option.map_eq_some_iff.1 ht
  split at hs
  · cases hs
  · rename_i hkeep
    rw [if_neg hkeep]
    refine ⟨hu, ?_⟩
    rw [forTask_swept, if_neg]
    intro hexp
    refine hkeep ?_
    rw [Bool.and_eq_true, getRow_id hu]
    exact ⟨hexp, by rw [hs]; rfl⟩

/-- **Only a forced update leaves a task in progress without a lease.** -/
theorem TaskStep.leased (hstep : TaskStep c s s') (h : Leased s) (hno : ¬ ForcesProgress c s) : Leased s' := by
  cases hstep with
  | unchanged => exact h
  | heartbeat agentId taskId hop hcan =>
    refine h.of_same fun id t ht hs => ?_
    have hrow : TaskRepository.getRow id
        (LeaseRepository.save taskId agentId (deadline c.leaseSeconds c.now) s).1 = TaskRepository.getRow id s := by
      unfold LeaseRepository.save
      split
      · rfl
      · rfl
    rw [hrow] at ht
    refine ⟨ht, ?_⟩
    rw [forTask_save]
    split
    · rename_i hid
      rw [h id t ht hs]
      rfl
    · rfl
  | completed agentId taskId notes task hop htask hcan => exact h.released (by simp [withStatus])
  | abandoned agentId taskId task hop htask hcan => exact h.released (by simp [withStatus])
  | created newId title description dependsOn priority hop hdeps hnew =>
    refine h.of_same fun id t ht hs => ?_
    rw [getRow_create hnew] at ht
    split at ht
    · rw [← Option.some.inj ht] at hs
      cases hs
    · rw [forTask_create]
      exact ⟨ht, rfl⟩
  | updated taskId changes hop hacc =>
    intro id t ht hs
    rw [getRow_updated hacc.row] at ht
    obtain ⟨u, hu, rfl⟩ := Option.map_eq_some_iff.1 ht
    rw [forTask_updated]
    by_cases hid : u.id = taskId
    · rw [if_pos (by simpa using hid)] at hs
      have hid' : id = taskId := (getRow_id hu).symm.trans hid
      cases hstatus : changes.status with
      | none =>
        rw [if_neg (by simp)]
        refine h id u hu ?_
        rw [← hs]
        show u.status = (normalizedChanges changes).status.getD u.status
        rw [show (normalizedChanges changes).status = none from hstatus]
        rfl
      | some status =>
        have hnew : status = .inProgress := by
          rw [← hs]
          show status = (normalizedChanges changes).status.getD u.status
          rw [show (normalizedChanges changes).status = some status from hstatus]
          rfl
        subst hnew
        rw [if_neg (by simp)]
        cases hlease : LeaseRepository.forTask id s with
        | some l => rfl
        | none => exact absurd ⟨taskId, changes, hop, hacc, hstatus, hid' ▸ hlease⟩ hno
    · rw [if_neg (by simpa using hid)] at hs
      rw [if_neg fun h' => hid ((getRow_id hu).trans h'.1)]
      exact h id u hu hs
  | deleted taskId hop =>
    refine h.of_same fun id t ht hs => ?_
    rw [getRow_delete] at ht
    split at ht
    · cases ht
    · rename_i hne
      rw [forTask_delete, if_neg hne]
      exact ⟨ht, rfl⟩
  | swept agentId wanted hop hnone => exact h.swept
  | claimed agentId wanted r hop hsome =>
    intro id t ht hs
    rw [forTask_claimed]
    split
    · rfl
    · rename_i hne
      rw [getRow_claimed] at ht
      obtain ⟨u, hu, rfl⟩ := Option.map_eq_some_iff.1 ht
      rw [if_neg] at hs
      · exact h.swept id u hu hs
      · rw [Bool.and_eq_true, beq_iff_eq]
        exact fun h' => hne ((getRow_id hu).symm.trans h'.1)

/-- **A forced update leaves a task in progress without a lease.** -/
theorem forced_not_leased {ss : Session TaskStore} (hforce : ForcesProgress c ss.db) :
    ¬ Leased (stepTasks ss c).db := by
  obtain ⟨taskId, changes, hop, hacc, hstatus, hlease⟩ := hforce
  obtain ⟨now, leaseSeconds, operation⟩ := c
  obtain rfl : operation = .updateTask taskId changes := hop
  obtain ⟨answer, ss₁, hdb, hrun⟩ := run_updateTask (c := fun _ => now) hacc
  have hok : TaskCall.transaction ⟨now, leaseSeconds, .updateTask taskId changes⟩ ss = _ := hrun
  unfold stepTasks
  rw [commit_of_ok hok, hdb]
  intro h
  obtain ⟨t, ht⟩ := Option.isSome_iff_exists.1 hacc.row
  have hrow : TaskRepository.getRow taskId (Tasks.updated taskId changes ss.db) =
      some (TaskRepository.updatedRow (normalizedChanges changes) t) := by
    rw [getRow_updated hacc.row, ht, Option.map_some, if_pos (by simpa using getRow_id ht)]
  have hprogress : (TaskRepository.updatedRow (normalizedChanges changes) t).status = .inProgress := by
    show (normalizedChanges changes).status.getD t.status = .inProgress
    rw [show (normalizedChanges changes).status = some .inProgress from hstatus]
    rfl
  have := h taskId _ hrow hprogress
  rw [forTask_updated, hstatus, if_neg (by simp), hlease] at this
  cases this

end stuck

/-- **No task is stuck in progress all along a run, if and only if no update puts a task in progress that has no
lease.** -/
theorem recoverable_iff (calls : List TaskCall) :
    (∀ pre, pre <+: calls → Recoverable (runTasks pre).db) ↔
      ∀ pre c, pre ++ [c] <+: calls → ¬ ForcesProgress c (runTasks pre).db := by
  have hall : (∀ pre, pre <+: calls → Recoverable (runTasks pre).db) ↔
      ∀ pre, pre <+: calls → Leased (runTasks pre).db :=
    forall₂_congr fun pre _ => recoverable_iff_leased (runTasks_valid pre)
  rw [hall]
  refine tasks_prefixes_iff (P := Leased) (G := fun s c => ¬ ForcesProgress c s) ?_ ?_ calls
  · intro id t ht
    cases ht
  · intro ss c h hleased
    constructor
    · exact fun hafter hforce => forced_not_leased hforce hafter
    · exact (stepTasks_step c ss h.ids).leased hleased

/-- An update that puts a new task in progress. -/
def stuckRun : List TaskCall :=
  [⟨0, 300, .createTask 1 "build" "" [] 0⟩,
    ⟨0, 300, .updateTask 1 ⟨none, none, some .inProgress, none, none, none⟩⟩]

/-- **A task can be put in progress without a lease**; no checkout will ever return it. -/
theorem task_stuck : ¬ Recoverable (runTasks stuckRun).db := by
  have htasks : (runTasks stuckRun).db.tasks = [⟨1, "build", "", 0, .inProgress, none⟩] := by decide +kernel
  have hleases : (runTasks stuckRun).db.leases = [] := by decide +kernel
  intro h
  obtain ⟨l, hl, -⟩ := h _ (by rw [htasks]; exact List.mem_singleton.2 rfl) rfl
  rw [hleases] at hl
  cases hl

/-! ## Cycles -/

/-- `depends_on`. -/
def DependsOn (s : TaskStore) (a b : ℤ) : Prop := (a, b) ∈ s.dependencies

/-- **The dependencies have no cycle**, so that the tasks can be completed in some order. -/
structure Completable (s : TaskStore) : Prop where
  acyclic : Graph.Acyclic (DependsOn s)
  order : ∃ order : List ℤ, order.Perm (s.tasks.map TaskRow.id) ∧ order.Pairwise fun a b => ¬ DependsOn s a b

/-- The call lets a task depend on one that already depends on it, directly or not. -/
def ClosesCycle (c : TaskCall) (s : TaskStore) : Prop :=
  ∃ taskId changes deps, c.operation = .updateTask taskId changes ∧ Accepted taskId changes s ∧
    changes.dependsOn = some deps ∧ ∃ d ∈ deps, Relation.ReflTransGen (DependsOn s) d taskId

section cycles

variable {s s' : TaskStore} {c : TaskCall}

theorem completable_iff_acyclic (h : s.Valid) : Completable s ↔ Graph.Acyclic (DependsOn s) := by
  refine ⟨Completable.acyclic, fun hacyclic => ⟨hacyclic, ?_⟩⟩
  obtain ⟨order, hperm, hpair⟩ := hacyclic.exists_order (s.tasks.map TaskRow.id)
  exact ⟨order, hperm, hpair.imp fun hno hedge => hno (h.edges _ hedge).2 hedge⟩

theorem mem_updated {taskId : ℤ} {changes : TaskRepository.TaskChanges}
    (hrow : (TaskRepository.getRow taskId s).isSome) {deps : List ℤ} (hdeps : changes.dependsOn = some deps) {a b : ℤ} :
    DependsOn (Tasks.updated taskId changes s) a b ↔ (DependsOn s a b ∧ a ≠ taskId) ∨ (a = taskId ∧ b ∈ deps) := by
  unfold DependsOn
  rw [updated_eq.2.1, (update_of_row hrow).2]
  have hsome : (normalizedChanges changes).dependsOn = some (TaskRepository.sortedIds deps) := by
    unfold normalizedChanges; rw [hdeps]; rfl
  rw [hsome]
  show (a, b) ∈ _ ++ _ ↔ _
  rw [List.mem_append, List.mem_filter, List.mem_map]
  refine or_congr (by simp) ?_
  constructor
  · rintro ⟨d, hd, he⟩
    obtain ⟨rfl, rfl⟩ := Prod.mk.inj he
    exact ⟨rfl, mem_sortedIds.1 (mem_sortedIds.1 hd)⟩
  · rintro ⟨rfl, hb⟩
    exact ⟨b, mem_sortedIds.2 (mem_sortedIds.2 hb), rfl⟩

theorem updated_dependencies_none {taskId : ℤ} {changes : TaskRepository.TaskChanges}
    (hrow : (TaskRepository.getRow taskId s).isSome) (hdeps : changes.dependsOn = none) :
    (Tasks.updated taskId changes s).dependencies = s.dependencies := by
  rw [updated_eq.2.1, (update_of_row hrow).2]
  have hnone : (normalizedChanges changes).dependsOn = none := by unfold normalizedChanges; rw [hdeps]; rfl
  rw [hnone]

/-- Nothing leads to a task that does not exist yet. -/
theorem not_reaches_new (h : s.Valid) {newId d : ℤ} (hnew : TaskRepository.getRow newId s = none)
    (hd : (TaskRepository.getRow d s).isSome) : ¬ Relation.ReflTransGen (DependsOn s) d newId := by
  intro hpath
  rcases hpath.cases_tail with rfl | ⟨b, -, hedge⟩
  · rw [hnew] at hd; cases hd
  · have hthere := mem_ids.1 (h.edges _ hedge).2
    rw [hnew] at hthere; cases hthere

/-- **Only an update can close a cycle.** -/
theorem TaskStep.acyclic (hstep : TaskStep c s s') (h : s.Valid) (hacyclic : Graph.Acyclic (DependsOn s))
    (hno : ¬ ClosesCycle c s) : Graph.Acyclic (DependsOn s') := by
  cases hstep with
  | unchanged => exact hacyclic
  | heartbeat agentId taskId hop hcan =>
    refine hacyclic.mono fun a b hedge => ?_
    have hsame : (LeaseRepository.save taskId agentId (deadline c.leaseSeconds c.now) s).1.dependencies =
        s.dependencies := by
      unfold LeaseRepository.save
      split
      · rfl
      · rfl
    unfold DependsOn at hedge
    rw [hsame] at hedge
    exact hedge
  | completed agentId taskId notes task hop htask hcan => exact hacyclic
  | abandoned agentId taskId task hop htask hcan => exact hacyclic
  | created newId title description dependsOn priority hop hdeps hnew =>
    refine hacyclic.replace (v := newId) (E := fun d => d ∈ dependsOn) (fun a b hedge => ?_) fun d hd =>
      not_reaches_new h hnew (hdeps d hd)
    unfold DependsOn TaskRepository.create at hedge
    rw [hnew] at hedge
    rcases List.mem_append.1 hedge with hold | hedge
    · exact Or.inl hold
    · obtain ⟨d, hd, he⟩ := List.mem_map.1 hedge
      obtain ⟨rfl, rfl⟩ := Prod.mk.inj he
      exact Or.inr ⟨rfl, mem_sortedIds.1 (mem_sortedIds.1 hd)⟩
  | updated taskId changes hop hacc =>
    cases hdeps : changes.dependsOn with
    | none =>
      refine hacyclic.mono fun a b hedge => ?_
      unfold DependsOn at hedge
      rw [updated_dependencies_none hacc.row hdeps] at hedge
      exact hedge
    | some deps =>
      refine hacyclic.replace (v := taskId) (E := fun d => d ∈ deps) (fun a b hedge => ?_) fun d hd hpath =>
        hno ⟨taskId, changes, deps, hop, hacc, hdeps, d, hd, hpath⟩
      rcases (mem_updated hacc.row hdeps).1 hedge with ⟨hold, -⟩ | hnew
      · exact Or.inl hold
      · exact Or.inr hnew
  | deleted taskId hop =>
    refine hacyclic.mono fun a b hedge => ?_
    exact (List.mem_filter.1 hedge).1
  | swept agentId wanted hop hnone => exact hacyclic
  | claimed agentId wanted r hop hsome =>
    refine hacyclic.mono fun a b hedge => ?_
    have hsame : (Tasks.claimed c.leaseSeconds agentId c.now r.row.id (Tasks.swept agentId c.now s)).dependencies =
        s.dependencies := by
      unfold Tasks.claimed LeaseRepository.save
      split
      · rfl
      · rfl
    unfold DependsOn at hedge
    rw [hsame] at hedge
    exact hedge

/-- **Such an update does close a cycle.** -/
theorem closes_not_acyclic {ss : Session TaskStore} (hclose : ClosesCycle c ss.db) :
    ¬ Graph.Acyclic (DependsOn (stepTasks ss c).db) := by
  obtain ⟨taskId, changes, deps, hop, hacc, hdeps, d, hd, hpath⟩ := hclose
  obtain ⟨now, leaseSeconds, operation⟩ := c
  obtain rfl : operation = .updateTask taskId changes := hop
  obtain ⟨answer, ss₁, hdb, hrun⟩ := run_updateTask (c := fun _ => now) hacc
  have hok : TaskCall.transaction ⟨now, leaseSeconds, .updateTask taskId changes⟩ ss = _ := hrun
  unfold stepTasks
  rw [commit_of_ok hok, hdb]
  refine Graph.not_acyclic_replace (v := taskId) (d := d) (fun a b hedge hne => ?_) ?_ hpath
  · exact (mem_updated hacc.row hdeps).2 (Or.inl ⟨hedge, hne⟩)
  · exact (mem_updated hacc.row hdeps).2 (Or.inr ⟨rfl, hd⟩)

end cycles

/-- **The dependencies are acyclic all along a run, if and only if no update lets a task depend on one that
already depends on it.** -/
theorem completable_iff (calls : List TaskCall) :
    (∀ pre, pre <+: calls → Completable (runTasks pre).db) ↔
      ∀ pre c, pre ++ [c] <+: calls → ¬ ClosesCycle c (runTasks pre).db := by
  have hall : (∀ pre, pre <+: calls → Completable (runTasks pre).db) ↔
      ∀ pre, pre <+: calls → Graph.Acyclic (DependsOn (runTasks pre).db) :=
    forall₂_congr fun pre _ => completable_iff_acyclic (runTasks_valid pre)
  rw [hall]
  refine tasks_prefixes_iff (P := fun s => Graph.Acyclic (DependsOn s)) (G := fun s c => ¬ ClosesCycle c s) ?_ ?_ calls
  · intro a ha
    obtain ⟨b, hab, -⟩ := Relation.TransGen.head'_iff.1 ha
    cases hab
  · intro ss c h hacyclic
    constructor
    · exact fun hafter hclose => closes_not_acyclic hclose hafter
    · exact (stepTasks_step c ss h.ids).acyclic h hacyclic

/-- Two tasks, the second after the first; then the first after the second. -/
def cyclicRun : List TaskCall :=
  [⟨0, 300, .createTask 1 "build" "" [] 0⟩, ⟨0, 300, .createTask 2 "test" "" [1] 0⟩,
    ⟨0, 300, .updateTask 1 ⟨none, none, none, some [2], none, none⟩⟩]

/-- **A cycle of two tasks is accepted.** -/
theorem tasks_deadlocked : ¬ Completable (runTasks cyclicRun).db := by
  have hedges : (runTasks cyclicRun).db.dependencies = [(2, 1), (1, 2)] := by decide +kernel
  intro h
  have h₁ : DependsOn (runTasks cyclicRun).db 1 2 := by unfold DependsOn; rw [hedges]; simp
  have h₂ : DependsOn (runTasks cyclicRun).db 2 1 := by unfold DependsOn; rw [hedges]; simp
  exact h.acyclic 1 (.tail (.single h₁) h₂)

end Switchboard
