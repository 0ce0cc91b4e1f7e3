import Switchboard.Lib.Run
import Switchboard.Spec.Tasks

/-!
# What the task operations do

Every operation alone, as a transaction: what it answers and what it leaves in the
store. The store is read through two lookups, the row of a task and the lease of a
task; each repository call has one lemma for each of them.

* `heartbeat_ok`, `complete_ok`, `abandon_ok`, `createTask_ok`, `updateTask_ok`,
  `deleteTask_ok`, `checkout_ok`: what an operation that did not raise has done.
* `TaskStep`, `stepTasks_step`: everything that one operation can do to the store.
* `TaskStore.Valid`, `runTasks_valid`: the invariant of the store, after any sequence of
  operations.
-/

namespace Switchboard

open Table Transaction Program

/-! ## Lookups -/

section lookups

variable {s : TaskStore} {id taskId : ℤ} {t : TaskRow} {l : TaskLease} {now : Time}

theorem getRow_id (h : TaskRepository.getRow id s = some t) : t.id = id := by
  have := List.find?_some h
  exact of_decide_eq_true (by simpa using this)

theorem getRow_mem (h : TaskRepository.getRow id s = some t) : t ∈ s.tasks := List.mem_of_find?_eq_some h

theorem forTask_taskId (h : LeaseRepository.forTask id s = some l) : l.taskId = id := by
  have := List.find?_some h
  exact of_decide_eq_true (by simpa using this)

theorem forTask_mem (h : LeaseRepository.forTask id s = some l) : l ∈ s.leases := List.mem_of_find?_eq_some h

/-- A row of a table without two rows of one id is what the lookup finds. -/
theorem getRow_of_mem (hids : (s.tasks.map TaskRow.id).Nodup) (h : t ∈ s.tasks) :
    TaskRepository.getRow t.id s = some t := find?_column hids h

theorem forTask_of_mem (hl : (s.leases.map TaskLease.taskId).Nodup) (h : l ∈ s.leases) :
    LeaseRepository.forTask l.taskId s = some l := find?_column hl h

theorem getRow_isSome : (TaskRepository.getRow id s).isSome ↔ ∃ t ∈ s.tasks, t.id = id := by
  unfold TaskRepository.getRow
  rw [List.find?_isSome]
  simp

/-- The tasks whose lease has expired for the sweep. -/
def Expired (now : Time) (s : TaskStore) (id : ℤ) : Prop := ∃ l ∈ s.leases, l.taskId = id ∧ l.expiresAt < now

theorem mem_expiredIds : (LeaseRepository.expiredIds now s).contains id = true ↔ Expired now s id := by
  unfold LeaseRepository.expiredIds LeaseRepository.expired Expired
  simp only [List.contains_iff_mem, List.mem_map, List.mem_filter, decide_eq_true_eq]
  constructor
  · rintro ⟨l, ⟨hl, he⟩, rfl⟩; exact ⟨l, hl, rfl, he⟩
  · rintro ⟨l, hl, rfl, he⟩; exact ⟨l, ⟨hl, he⟩, rfl⟩

/-! ### Task rows -/

theorem getRow_updateTasks (s : TaskStore) (id : ℤ) {p : TaskRow → Bool} {f : TaskRow → TaskRow}
    (hf : ∀ u, (f u).id = u.id) :
    (updateWhere p f s.tasks).find? (fun u => u.id == id) =
      (TaskRepository.getRow id s).map fun u => if p u then f u else u :=
  find?_updateWhere fun u => by rw [hf u]

/-- A row that may have been changed by a statement about task `taskId` only. -/
theorem getRow_updateOne {p : TaskRow → Bool} {f : TaskRow → TaskRow} (hf : ∀ u, (f u).id = u.id)
    (hp : ∀ u, p u = true → u.id = taskId) (hne : id ≠ taskId) :
    (updateWhere p f s.tasks).find? (fun u => u.id == id) = TaskRepository.getRow id s := by
  rw [getRow_updateTasks s id hf]
  cases h : TaskRepository.getRow id s with
  | none => rfl
  | some u =>
    have hu : ¬ p u = true := fun hp' => hne ((getRow_id h).symm.trans (hp u hp'))
    simp [hu]

/-! ### Leases -/

theorem forTask_delete :
    LeaseRepository.forTask id (LeaseRepository.delete taskId s).1 =
      if id = taskId then none else LeaseRepository.forTask id s := by
  unfold LeaseRepository.forTask LeaseRepository.delete
  split
  · rename_i h
    subst h
    exact find?_deleteWhere_none fun x _ hx => hx
  · rename_i h
    refine find?_deleteWhere fun x hx => ?_
    have hid : x.taskId = id := by simpa using hx
    simp [hid, h]

/-- The lease that `save` leaves. -/
def savedLease (taskId : ℤ) (agentId : String) (expiresAt : Time) (s : TaskStore) : TaskLease :=
  match LeaseRepository.forTask taskId s with
  | none => ⟨s.nextLeaseId, taskId, agentId, expiresAt⟩
  | some l => { l with agentId, expiresAt }

theorem forTask_save {agentId : String} {expiresAt : Time} :
    LeaseRepository.forTask id (LeaseRepository.save taskId agentId expiresAt s).1 =
      if id = taskId then some (savedLease taskId agentId expiresAt s) else LeaseRepository.forTask id s := by
  unfold LeaseRepository.save savedLease
  cases h : LeaseRepository.forTask taskId s with
  | none =>
    show List.find? (fun l : TaskLease => l.taskId == id) (s.leases ++ [_]) = _
    rw [List.find?_append]
    by_cases hid : id = taskId
    · subst hid
      rw [show s.leases.find? (fun l => l.taskId == id) = none from h]
      simp
    · have hne : ¬ taskId = id := fun he => hid he.symm
      simp [LeaseRepository.forTask, hid, hne]
  | some l =>
    have hfind := find?_updateWhere (t := s.leases) (p := fun m => m.taskId == taskId)
      (q := fun m => m.taskId == id) (f := fun m => { m with agentId, expiresAt }) fun _ => rfl
    refine hfind.trans ?_
    by_cases hid : id = taskId
    · subst hid
      rw [show s.leases.find? (fun l => l.taskId == id) = some l from h]
      simp [forTask_taskId h]
    · rw [if_neg hid]
      change (LeaseRepository.forTask id s).map _ = LeaseRepository.forTask id s
      cases h' : LeaseRepository.forTask id s with
      | none => rfl
      | some m =>
        have hm := forTask_taskId h'
        simp [hm, hid]

/-- The leases of a sweep. -/
theorem forTask_sweep :
    LeaseRepository.forTask id (LeaseRepository.sweep now s).1 =
      if (LeaseRepository.expiredIds now s).contains id then none else LeaseRepository.forTask id s := by
  unfold LeaseRepository.forTask LeaseRepository.sweep
  split
  · rename_i h
    refine find?_deleteWhere_none fun x _ hx => ?_
    rw [show x.taskId = id by simpa using hx]
    exact h
  · rename_i h
    refine find?_deleteWhere fun x hx => ?_
    rw [show x.taskId = id by simpa using hx]
    simpa using h

/-- The rows of a sweep. -/
theorem getRow_sweep :
    TaskRepository.getRow id (LeaseRepository.sweep now s).1 =
      (TaskRepository.getRow id s).map fun u =>
        if (LeaseRepository.expiredIds now s).contains u.id && u.status != .pending then
          { u with status := .pending, completedNotes := none }
        else u :=
  getRow_updateTasks s id fun _ => rfl

end lookups

/-! ## The operations -/

namespace Tasks

section operations

variable {c : ℕ → Time} {ss ss' : Session TaskStore} {answer : TaskAnswer} {agentId : String} {taskId : ℤ}
  {leaseSeconds : ℤ} {now : Time} {notes : Option String}

/-- A flush leaves what the statement leaves. -/
theorem run_flush_bind {β : Type} (c : ℕ → Time) (ss : Session TaskStore) (st : TaskStore → TaskStore × Bool) (f : Bool → TaskTx β) :
    ∃ ss₁ : Session TaskStore, ss₁.db = (st ss.db).1 ∧ run c (flush st >>= f) ss = run c (f (st ss.db).2) ss₁ := by
  by_cases h : st ss.db = (ss.db, true)
  · refine ⟨ss, by rw [h], ?_⟩
    show run c ((if decide (st ss.db = (ss.db, true)) = true then pure true else guarded st) >>= f) ss = _
    rw [if_pos (by simpa using h), h]
    rfl
  · refine ⟨ss.push (st ss.db).1, rfl, ?_⟩
    show run c ((if decide (st ss.db = (ss.db, true)) = true then pure true else guarded st) >>= f) ss = _
    rw [if_neg (by simpa using h)]
    rfl

theorem flush_bind_ok {β : Type} {st : TaskStore → TaskStore × Bool} {f : Bool → TaskTx β} {r : β × Session TaskStore}
    (h : run c (flush st >>= f) ss = .ok r) :
    ∃ ss₁ : Session TaskStore, ss₁.db = (st ss.db).1 ∧ run c (f (st ss.db).2) ss₁ = .ok r := by
  obtain ⟨ss₁, hdb, hrun⟩ := run_flush_bind c ss st f
  exact ⟨ss₁, hdb, hrun ▸ h⟩

/-- `save` on a row that is there. -/
theorem run_saveTask_bind {β : Type} {record : TaskRecord}
    (h : (TaskRepository.getRow record.row.id ss.db).isSome) (f : Unit → TaskTx β) :
    ∃ ss₁ : Session TaskStore, ss₁.db = (TaskRepository.save record ss.db).1 ∧
      run c (saveTask record >>= f) ss = run c (f ()) ss₁ := by
  unfold saveTask
  rw [bind_assoc]
  obtain ⟨ss₁, hdb, hrun⟩ := run_flush_bind c ss (TaskRepository.save record)
    fun saved => demand saved (.runtime s!"Task {record.row.id} does not exist") >>= f
  refine ⟨ss₁, hdb, ?_⟩
  rw [hrun, show (TaskRepository.save record ss.db).2 = true from h]
  rfl

/-- `save` found its row. -/
theorem saveTask_bind_ok {β : Type} {record : TaskRecord} {f : Unit → TaskTx β} {r : β × Session TaskStore}
    (h : run c (saveTask record >>= f) ss = .ok r) :
    ∃ ss₁ : Session TaskStore, ss₁.db = (TaskRepository.save record ss.db).1 ∧ run c (f ()) ss₁ = .ok r := by
  unfold saveTask at h
  rw [bind_assoc] at h
  obtain ⟨ss₁, hdb, hrun⟩ := flush_bind_ok h
  cases hsaved : (TaskRepository.save record ss.db).2 with
  | false => rw [hsaved] at hrun; cases hrun
  | true => rw [hsaved] at hrun; exact ⟨ss₁, hdb, hrun⟩

/-- **What a heartbeat has done.** -/
theorem heartbeat_ok (h : run c (heartbeatAt leaseSeconds agentId taskId now) ss = .ok (answer, ss')) :
    (LeasePolicy.canHeartbeat (LeaseRepository.forTask taskId ss.db) agentId now = true ∧
      ss'.db = (LeaseRepository.save taskId agentId (deadline leaseSeconds now) ss.db).1 ∧
      answer = .heartbeat true taskId (LeaseRepository.forTask taskId ss.db)) ∨
    (LeasePolicy.canHeartbeat (LeaseRepository.forTask taskId ss.db) agentId now = false ∧ ss'.db = ss.db ∧
      answer = .heartbeat false taskId (LeaseRepository.forTask taskId ss.db)) := by
  unfold heartbeatAt at h
  rw [run_ask_bind] at h
  cases hcan : LeasePolicy.canHeartbeat (LeaseRepository.forTask taskId ss.db) agentId now with
  | true =>
    rw [if_pos hcan] at h
    obtain ⟨ss₁, hdb, hrun⟩ := flush_bind_ok h
    obtain ⟨rfl, rfl⟩ := pure_ok.1 hrun
    exact Or.inl ⟨rfl, hdb, rfl⟩
  | false =>
    rw [if_neg (by simp [hcan]), run_pure, pure_ok] at h
    obtain ⟨rfl, rfl⟩ := h
    exact Or.inr ⟨rfl, rfl, rfl⟩

/-- The store after `saveTask` and the deletion of the lease. -/
def released (record : TaskRecord) (s : TaskStore) : TaskStore :=
  (LeaseRepository.delete record.row.id (TaskRepository.save record s).1).1

theorem get_some {s : TaskStore} {task : TaskRecord} (h : TaskRepository.get taskId s = some task) :
    TaskRepository.getRow taskId s = some task.row ∧ task.row.id = taskId := by
  unfold TaskRepository.get at h
  cases hrow : TaskRepository.getRow taskId s with
  | none => rw [hrow] at h; cases h
  | some row =>
    rw [hrow] at h
    obtain rfl := Option.some.inj h
    exact ⟨rfl, getRow_id hrow⟩

theorem get_none {s : TaskStore} (h : TaskRepository.get taskId s = none) : TaskRepository.getRow taskId s = none := by
  unfold TaskRepository.get at h
  simpa using h

/-- **What `complete` has done.** -/
theorem complete_ok (h : run c (completeAt agentId taskId notes now) ss = .ok (answer, ss')) :
    (LeasePolicy.canComplete (LeaseRepository.forTask taskId ss.db) agentId now = true ∧
      ∃ task saved, TaskRepository.get taskId ss.db = some task ∧
        ss'.db = released (withStatus task .completed (normalizedNotes notes)) ss.db ∧
        answer = .completion true saved (LeaseRepository.forTask taskId ss.db)) ∨
    (ss'.db = ss.db ∧ answer = .completion false none (LeaseRepository.forTask taskId ss.db)) := by
  unfold completeAt at h
  rw [run_ask_bind] at h
  cases hcan : LeasePolicy.canComplete (LeaseRepository.forTask taskId ss.db) agentId now with
  | false =>
    rw [if_neg (by simp [hcan]), run_pure, pure_ok] at h
    obtain ⟨rfl, rfl⟩ := h
    exact Or.inr ⟨rfl, rfl⟩
  | true =>
    rw [if_pos hcan, run_ask_bind] at h
    cases htask : TaskRepository.get taskId ss.db with
    | none =>
      rw [htask] at h
      obtain ⟨rfl, rfl⟩ := pure_ok.1 h
      exact Or.inr ⟨rfl, rfl⟩
    | some task =>
      rw [htask] at h
      have hid := (get_some htask).2
      obtain ⟨ss₁, hdb, hrun⟩ := saveTask_bind_ok h
      rw [run_ask_bind, run_guarded_bind] at hrun
      obtain ⟨rfl, rfl⟩ := pure_ok.1 hrun
      refine Or.inl ⟨rfl, task, _, rfl, ?_, rfl⟩
      show (LeaseRepository.delete taskId ss₁.db).1 = (LeaseRepository.delete task.row.id _).1
      rw [hdb, hid]

/-- **What `abandon` has done.** -/
theorem abandon_ok (h : run c (abandonAt agentId taskId now) ss = .ok (answer, ss')) :
    (LeasePolicy.canAbandon (LeaseRepository.forTask taskId ss.db) agentId now = true ∧
      ∃ task, TaskRepository.get taskId ss.db = some task ∧ ss'.db = released (withStatus task .pending none) ss.db ∧
        answer = .abandoned true taskId (LeaseRepository.forTask taskId ss.db)) ∨
    (ss'.db = ss.db ∧ answer = .abandoned false taskId (LeaseRepository.forTask taskId ss.db)) := by
  unfold abandonAt at h
  rw [run_ask_bind] at h
  cases hcan : LeasePolicy.canAbandon (LeaseRepository.forTask taskId ss.db) agentId now with
  | false =>
    rw [if_neg (by simp [hcan]), run_pure, pure_ok] at h
    obtain ⟨rfl, rfl⟩ := h
    exact Or.inr ⟨rfl, rfl⟩
  | true =>
    rw [if_pos hcan, run_ask_bind] at h
    cases htask : TaskRepository.get taskId ss.db with
    | none =>
      rw [htask] at h
      obtain ⟨rfl, rfl⟩ := pure_ok.1 h
      exact Or.inr ⟨rfl, rfl⟩
    | some task =>
      rw [htask] at h
      have hid := (get_some htask).2
      obtain ⟨ss₁, hdb, hrun⟩ := saveTask_bind_ok h
      rw [run_guarded_bind] at hrun
      obtain ⟨rfl, rfl⟩ := pure_ok.1 hrun
      refine Or.inl ⟨rfl, task, rfl, ?_, rfl⟩
      show (LeaseRepository.delete taskId ss₁.db).1 = (LeaseRepository.delete task.row.id _).1
      rw [hdb, hid]

/-- An abandonment that is permitted goes through. -/
theorem run_abandonAt {task : TaskRecord}
    (hcan : LeasePolicy.canAbandon (LeaseRepository.forTask taskId ss.db) agentId now = true)
    (htask : TaskRepository.get taskId ss.db = some task) :
    ∃ ss₁ : Session TaskStore, ss₁.db = released (withStatus task .pending none) ss.db ∧
      run c (abandonAt agentId taskId now) ss =
        .ok (.abandoned true taskId (LeaseRepository.forTask taskId ss.db), ss₁) := by
  obtain ⟨hrow, hid⟩ := get_some htask
  have hthere : (TaskRepository.getRow (withStatus task .pending none).row.id ss.db).isSome := by
    show (TaskRepository.getRow task.row.id ss.db).isSome
    rw [hid, hrow]; rfl
  obtain ⟨ss₁, hdb, hrun⟩ := run_saveTask_bind (c := c) hthere fun _ =>
    guarded (LeaseRepository.delete taskId) >>= fun _ =>
      (pure (.abandoned true taskId (LeaseRepository.forTask taskId ss.db)) : TaskTx TaskAnswer)
  refine ⟨ss₁.push (LeaseRepository.delete taskId ss₁.db).1, ?_, ?_⟩
  · show (LeaseRepository.delete taskId ss₁.db).1 = (LeaseRepository.delete task.row.id _).1
    rw [hdb, hid]
  · unfold abandonAt
    rw [run_ask_bind, if_pos hcan, run_ask_bind, htask]
    exact hrun

theorem mem_sortedIds {ids : List ℤ} {d : ℤ} : d ∈ TaskRepository.sortedIds ids ↔ d ∈ ids := by
  unfold TaskRepository.sortedIds
  rw [List.mem_mergeSort, List.mem_eraseDups]

theorem mem_missing {s : TaskStore} {deps : List ℤ} {d : ℤ} :
    d ∈ TaskRepository.sortedIds (deps.filter fun d => !(TaskRepository.existingIds deps s).contains d) ↔
      d ∈ deps ∧ ¬ (TaskRepository.getRow d s).isSome := by
  rw [mem_sortedIds, List.mem_filter, Bool.not_eq_true', ← Bool.not_eq_true, List.contains_iff_mem]
  refine and_congr_right fun hd => not_congr ?_
  rw [getRow_isSome]
  unfold TaskRepository.existingIds
  rw [List.mem_filter, List.mem_map, List.contains_iff_mem]
  exact and_iff_left hd

/-- The check of the dependencies passes if and only if they exist. -/
theorem run_ensureDependenciesExist_bind {β : Type} (c : ℕ → Time) (ss : Session TaskStore) (deps : List ℤ) (f : Unit → TaskTx β) :
    (∀ d ∈ deps, (TaskRepository.getRow d ss.db).isSome) ∧
        run c (ensureDependenciesExist deps >>= f) ss = run c (f ()) ss ∨
      ∃ e, run c (ensureDependenciesExist deps >>= f) ss = .error e ∧
        ¬ ∀ d ∈ deps, (TaskRepository.getRow d ss.db).isSome := by
  unfold ensureDependenciesExist
  rw [bind_assoc, run_ask_bind]
  generalize hmissing : TaskRepository.sortedIds
    (deps.filter fun d => !(TaskRepository.existingIds deps ss.db).contains d) = missing
  have hmem : ∀ d, d ∈ missing ↔ d ∈ deps ∧ ¬ (TaskRepository.getRow d ss.db).isSome := by
    intro d
    rw [← hmissing]; exact mem_missing
  change _ ∧ run c (demand missing.isEmpty (.missingDependencies missing) >>= f) ss = _ ∨
    ∃ e, run c (demand missing.isEmpty (.missingDependencies missing) >>= f) ss = .error e ∧ _
  cases missing with
  | nil =>
    refine Or.inl ⟨fun d hd => ?_, rfl⟩
    by_contra hnone
    exact absurd ((hmem d).2 ⟨hd, hnone⟩) List.not_mem_nil
  | cons m ms =>
    obtain ⟨hm, hnone⟩ := (hmem m).1 List.mem_cons_self
    exact Or.inr ⟨_, rfl, fun hall => hnone (hall m hm)⟩

/-- The dependencies that were checked exist. -/
theorem ensureDependenciesExist_bind_ok {β : Type} {deps : List ℤ} {f : Unit → TaskTx β} {r : β × Session TaskStore}
    (h : run c (ensureDependenciesExist deps >>= f) ss = .ok r) :
    (∀ d ∈ deps, (TaskRepository.getRow d ss.db).isSome) ∧ run c (f ()) ss = .ok r := by
  rcases run_ensureDependenciesExist_bind c ss deps f with ⟨hdeps, hrun⟩ | ⟨e, hrun, -⟩
  · exact ⟨hdeps, hrun ▸ h⟩
  · rw [hrun] at h; cases h

/-- **What `create_task` has done.** -/
theorem createTask_ok {newId : ℤ} {title description : String} {dependsOn : List ℤ} {priority : ℤ}
    (h : run c (createTask newId title description dependsOn priority) ss = .ok (answer, ss')) :
    (∀ d ∈ dependsOn, (TaskRepository.getRow d ss.db).isSome) ∧ TaskRepository.getRow newId ss.db = none ∧
      ss'.db = (TaskRepository.create newId title description (TaskRepository.sortedIds dependsOn) priority ss.db).1 := by
  unfold createTask at h
  obtain ⟨hdeps, h⟩ := ensureDependenciesExist_bind_ok h
  refine ⟨fun d hd => hdeps d (mem_sortedIds.2 hd), ?_⟩
  rw [run_guarded_bind, run_demand_bind] at h
  simp only [bind_ok, require_ok] at h
  obtain ⟨_, _, ⟨hcreated, rfl⟩, h⟩ := h
  rw [run_ask_bind, run_demandSome_bind] at h
  simp only [bind_ok, requireSome_ok] at h
  obtain ⟨task, _, ⟨_, rfl⟩, h⟩ := h
  obtain ⟨rfl, rfl⟩ := pure_ok.1 h
  refine ⟨?_, rfl⟩
  cases hrow : TaskRepository.getRow newId ss.db with
  | none => rfl
  | some t =>
    have hfalse : (TaskRepository.create newId title description (TaskRepository.sortedIds dependsOn) priority
        ss.db).2 = false := by
      unfold TaskRepository.create
      rw [hrow]; rfl
    rw [hfalse] at hcreated
    cases hcreated

/-- The changes that the repository gets. -/
def normalizedChanges (changes : TaskRepository.TaskChanges) : TaskRepository.TaskChanges :=
  { changes with dependsOn := changes.dependsOn.map TaskRepository.sortedIds }

/-- The store after `update_task`. -/
def updated (taskId : ℤ) (changes : TaskRepository.TaskChanges) (s : TaskStore) : TaskStore :=
  if changes.status = some .pending ∨ changes.status = some .completed then
    (LeaseRepository.delete taskId (TaskRepository.update taskId (normalizedChanges changes) s).1).1
  else (TaskRepository.update taskId (normalizedChanges changes) s).1

/-- The row is written, whether or not the write slot had to be taken. -/
theorem run_updateRow_bind {β : Type} (c : ℕ → Time) (ss : Session TaskStore) (taskId : ℤ) (changes : TaskRepository.TaskChanges) (f : Bool → TaskTx β) :
    ∃ ss₁ : Session TaskStore, ss₁.db = (TaskRepository.update taskId changes ss.db).1 ∧
      run c (updateRow taskId changes >>= f) ss = run c (f (TaskRepository.update taskId changes ss.db).2) ss₁ := by
  unfold updateRow
  split
  · exact ⟨_, rfl, rfl⟩
  · exact run_flush_bind c ss _ f

theorem run_deleteLease_bind {β : Type} (c : ℕ → Time) (ss : Session TaskStore) (taskId : ℤ) (status : Option TaskStatus) (f : Bool → TaskTx β) :
    ∃ ss₁ : Session TaskStore,
      ss₁.db = (if status = some .pending ∨ status = some .completed then (LeaseRepository.delete taskId ss.db).1
        else ss.db) ∧ run c (deleteLease taskId status >>= f) ss = run c (f true) ss₁ := by
  unfold deleteLease
  by_cases hs : status = some .pending ∨ status = some .completed
  · refine ⟨ss.push (LeaseRepository.delete taskId ss.db).1, (if_pos hs).symm, ?_⟩
    rw [if_pos hs]
    rfl
  · refine ⟨ss, (if_neg hs).symm, ?_⟩
    rw [if_neg hs]
    rfl

/-- What `update_task` asks of its arguments. -/
structure Accepted (taskId : ℤ) (changes : TaskRepository.TaskChanges) (s : TaskStore) : Prop where
  row : (TaskRepository.getRow taskId s).isSome
  deps : ∀ deps, changes.dependsOn = some deps → taskId ∉ deps ∧ ∀ d ∈ deps, (TaskRepository.getRow d s).isSome

theorem getRow_update_isSome {s : TaskStore} (changes : TaskRepository.TaskChanges)
    (h : (TaskRepository.getRow taskId s).isSome) :
    (TaskRepository.update taskId changes s).2 = true ∧
      (TaskRepository.getRow taskId (TaskRepository.update taskId changes s).1).isSome := by
  unfold TaskRepository.update
  rw [if_pos h]
  refine ⟨rfl, ?_⟩
  have hget := getRow_updateTasks s taskId (p := fun t => t.id == taskId) (f := TaskRepository.updatedRow changes)
    fun _ => rfl
  show ((updateWhere _ _ s.tasks).find? (fun u => u.id == taskId)).isSome
  rw [hget]
  simpa using h

/-- `update_task` from the write on. -/
def afterUpdate (taskId : ℤ) (status : Option TaskStatus) (updated : Bool) : TaskTx TaskAnswer := do
  demand updated .taskNotFound
  let _ ← deleteLease taskId status
  let task ← ask (TaskRepository.get taskId)
  let task ← demandSome task .database
  return .record task

theorem run_afterUpdate (status : Option TaskStatus) (h : (TaskRepository.getRow taskId ss.db).isSome) :
    ∃ answer ss₁, ss₁.db = (if status = some .pending ∨ status = some .completed then
        (LeaseRepository.delete taskId ss.db).1 else ss.db) ∧
      run c (afterUpdate taskId status true) ss = .ok (answer, ss₁) := by
  obtain ⟨ss₁, hdb, hrun⟩ := run_deleteLease_bind c ss taskId status fun _ =>
    ask (TaskRepository.get taskId) >>= fun task => demandSome task .database >>= fun task =>
      (pure (.record task) : TaskTx TaskAnswer)
  have hrow : (TaskRepository.getRow taskId ss₁.db).isSome := by
    rw [hdb]
    split
    · exact h
    · exact h
  obtain ⟨row, hrow⟩ := Option.isSome_iff_exists.1 hrow
  refine ⟨.record (TaskRepository.toRecord ss₁.db row), ss₁, hdb, hrun.trans ?_⟩
  rw [run_ask_bind]
  unfold TaskRepository.get
  rw [hrow]
  rfl

/-- **An accepted update goes through.** -/
theorem run_updateTask {changes : TaskRepository.TaskChanges} (h : Accepted taskId changes ss.db) :
    ∃ answer ss₁, ss₁.db = updated taskId changes ss.db ∧ run c (updateTask taskId changes) ss = .ok (answer, ss₁) := by
  have hself : (!(changes.dependsOn.any fun deps => deps.contains taskId)) = true := by
    cases hd : changes.dependsOn with
    | none => rfl
    | some deps => simpa using (h.deps deps hd).1
  have hthere : (TaskRepository.get taskId ss.db).isSome = true := by
    unfold TaskRepository.get
    simpa using h.row
  have hdeps : ∀ d ∈ (changes.dependsOn.map TaskRepository.sortedIds).getD [],
      (TaskRepository.getRow d ss.db).isSome := by
    cases hd : changes.dependsOn with
    | none => intro d hd'; cases hd'
    | some deps => exact fun d hd' => (h.deps deps hd).2 d (mem_sortedIds.1 hd')
  obtain ⟨ss₁, hdb, hrun⟩ := run_updateRow_bind c ss taskId (normalizedChanges changes)
    (afterUpdate taskId changes.status)
  obtain ⟨hwritten, hrow⟩ := getRow_update_isSome (normalizedChanges changes) h.row
  rw [hwritten] at hrun
  have hrow₁ : (TaskRepository.getRow taskId ss₁.db).isSome := by rw [hdb]; exact hrow
  obtain ⟨answer, ss₂, hdb₂, hrun₂⟩ := run_afterUpdate (c := c) changes.status hrow₁
  refine ⟨answer, ss₂, by rw [hdb₂, hdb]; rfl, ?_⟩
  unfold updateTask
  rw [hself]
  show run c (ask (TaskRepository.get taskId) >>= _) ss = _
  rw [run_ask_bind, hthere]
  rcases run_ensureDependenciesExist_bind c ss
    ((changes.dependsOn.map TaskRepository.sortedIds).getD []) fun _ =>
      updateRow taskId (normalizedChanges changes) >>= afterUpdate taskId changes.status with ⟨-, hens⟩ | ⟨e, -, hno⟩
  · exact hens.trans (hrun.trans hrun₂)
  · exact absurd hdeps hno

/-- **What `update_task` has done.** -/
theorem updateTask_ok {changes : TaskRepository.TaskChanges}
    (h : run c (updateTask taskId changes) ss = .ok (answer, ss')) :
    Accepted taskId changes ss.db ∧ ss'.db = updated taskId changes ss.db := by
  have hacc : Accepted taskId changes ss.db := by
    unfold updateTask at h
    rw [run_demand_bind] at h
    simp only [bind_ok, require_ok] at h
    obtain ⟨_, _, ⟨hself, rfl⟩, h⟩ := h
    rw [run_ask_bind, run_demand_bind] at h
    simp only [bind_ok, require_ok] at h
    obtain ⟨_, _, ⟨htask, rfl⟩, h⟩ := h
    obtain ⟨hdeps, -⟩ := ensureDependenciesExist_bind_ok h
    refine ⟨?_, fun deps hd => ?_⟩
    · obtain ⟨task, htask⟩ := Option.isSome_iff_exists.1 htask
      rw [(get_some htask).1]; rfl
    · rw [hd] at hself hdeps
      refine ⟨by simpa using hself, fun d hd' => hdeps d ?_⟩
      exact mem_sortedIds.2 hd'
  obtain ⟨answer', ss₁, hdb, hrun⟩ := run_updateTask (c := c) hacc
  rw [h] at hrun
  obtain ⟨-, rfl⟩ := Prod.mk.inj (Except.ok.inj hrun)
  exact ⟨hacc, hdb⟩

/-- **What `delete_task` has done.** -/
theorem deleteTask_ok (h : run c (deleteTask taskId) ss = .ok (answer, ss')) :
    ss'.db = (LeaseRepository.delete taskId (TaskRepository.delete taskId ss.db).1).1 := by
  unfold deleteTask at h
  rw [run_guarded_bind, run_guarded_bind] at h
  obtain ⟨rfl, rfl⟩ := pure_ok.1 h
  rfl

/-! ### Checkout -/

/-- Whether the loop takes the dependencies of a candidate for completed. -/
def completedFor (wanted : Option ℤ) (statuses : List (ℤ × TaskStatus)) (s : TaskStore) (task : TaskRecord) : Bool :=
  (if wanted.isSome then none else dependenciesCompletedFromRecords statuses task.dependsOn).getD
    (TaskRepository.dependenciesCompleted task.row.id s)

/-- Whether the loop claims a candidate. -/
def takes (wanted : Option ℤ) (statuses : List (ℤ × TaskStatus)) (now : Time) (s : TaskStore) (task : TaskRecord) :
    Bool :=
  isAvailable task.row (completedFor wanted statuses s task) (LeaseRepository.forTask task.row.id s) now

/-- The store after a claim. -/
def claimed (leaseSeconds : ℤ) (agentId : String) (now : Time) (taskId : ℤ) (s : TaskStore) : TaskStore :=
  (LeaseRepository.save taskId agentId (deadline leaseSeconds now)
    (LeaseRepository.delete taskId (TaskRepository.claimPending taskId s).1).1).1

/-- The result of a claim. -/
def claimResult (leaseSeconds : ℤ) (agentId : String) (now : Time) (taskId : ℤ) (s : TaskStore) :
    Tasks.CheckoutResult :=
  ⟨TaskRepository.get taskId (TaskRepository.claimPending taskId s).1,
    LeaseRepository.forTask taskId (claimed leaseSeconds agentId now taskId s), none, none⟩

instance : Keyed TaskRow ℤ := ⟨TaskRow.id⟩

/-- A pending row can be claimed. -/
theorem claimPending_true {s : TaskStore} {t : TaskRow} (hids : (s.tasks.map TaskRow.id).Nodup) (ht : t ∈ s.tasks)
    (hp : t.status = .pending) : (TaskRepository.claimPending t.id s).2 = true := by
  refine affectedOne_of_mem (r := t) hids ht ?_ fun u hu hpu => ?_
  · simp [hp]
  · have hid : u.id = t.id := by
      have h := (Bool.and_eq_true _ _ ▸ hpu : _ ∧ _).1
      simpa using h
    exact hid

theorem run_claim (leaseSeconds : ℤ) (agentId : String) (now : Time) {task : TaskRecord} (h : (TaskRepository.claimPending task.row.id ss.db).2 = true) :
    ∃ ss₁ : Session TaskStore, ss₁.db = claimed leaseSeconds agentId now task.row.id ss.db ∧
      run c (claim leaseSeconds agentId now task) ss =
        .ok (some (claimResult leaseSeconds agentId now task.row.id ss.db), ss₁) := by
  unfold claim
  rw [run_guarded_bind, h]
  exact ⟨_, rfl, rfl⟩

theorem run_ite {β : Type} {b : Bool} {p q : TaskTx β} :
    run c (if b = true then p else q) ss = if b = true then run c p ss else run c q ss :=
  apply_ite (fun p => run c p ss) _ _ _

theorem claim_clockFree (leaseSeconds : ℤ) (agentId : String) (now : Time) (task : TaskRecord) :
    (claim leaseSeconds agentId now task).ClockFree := by
  intro claimed
  cases claimed with
  | true => exact fun _ _ _ _ => trivial
  | false => trivial

/-- One turn of the loop. -/
theorem run_scan_cons {wanted : Option ℤ} {statuses : List (ℤ × TaskStatus)} {task : TaskRecord}
    {rest : List TaskRecord} :
    run c (scan leaseSeconds agentId now wanted statuses (task :: rest)) ss =
      if takes wanted statuses now ss.db task then
        run c (claim leaseSeconds agentId now task >>= fun claimed =>
          match claimed with
          | some result => pure result
          | none =>
            if wanted.isSome then pure (notAvailable wanted)
            else scan leaseSeconds agentId now wanted statuses rest) ss
      else if wanted.isSome then .ok (notAvailable wanted, ss)
      else run c (scan leaseSeconds agentId now wanted statuses rest) ss := by
  unfold takes completedFor
  conv_lhs => unfold scan
  generalize (if wanted.isSome = true then none else dependenciesCompletedFromRecords statuses task.dependsOn) = known
  -- both ways to decide about the dependencies end in the same branch
  cases known with
  | some completed =>
    refine (run_ite (b := isAvailable task.row completed (LeaseRepository.forTask task.row.id ss.db) now)).trans ?_
    cases wanted <;> rfl
  | none =>
    refine (run_ite (b := isAvailable task.row (TaskRepository.dependenciesCompleted task.row.id ss.db)
      (LeaseRepository.forTask task.row.id ss.db) now)).trans ?_
    cases wanted <;> rfl

/-- The loop claims the first candidate that it can take. -/
theorem run_scan (leaseSeconds : ℤ) (agentId : String) (now : Time) (wanted : Option ℤ)
    (statuses : List (ℤ × TaskStatus)) (hids : (ss.db.tasks.map TaskRow.id).Nodup)
    {candidates : List TaskRecord} (hrows : ∀ r ∈ candidates, r.row ∈ ss.db.tasks)
    (hone : wanted.isSome → candidates.length ≤ 1) :
    (candidates.find? (takes wanted statuses now ss.db) = none ∧
      run c (scan leaseSeconds agentId now wanted statuses candidates) ss = .ok (notAvailable wanted, ss)) ∨
    ∃ r ss₁, candidates.find? (takes wanted statuses now ss.db) = some r ∧
      ss₁.db = claimed leaseSeconds agentId now r.row.id ss.db ∧
      run c (scan leaseSeconds agentId now wanted statuses candidates) ss =
        .ok (claimResult leaseSeconds agentId now r.row.id ss.db, ss₁) := by
  induction candidates with
  | nil => exact Or.inl ⟨rfl, rfl⟩
  | cons task rest ih =>
    rw [run_scan_cons, List.find?_cons]
    cases htakes : takes wanted statuses now ss.db task with
    | true =>
      have hpending : task.row.status = .pending := by
        unfold takes isAvailable at htakes
        simp only [Bool.and_eq_true, beq_iff_eq] at htakes
        exact htakes.1.1
      have hclaim := claimPending_true hids (hrows task List.mem_cons_self) hpending
      obtain ⟨ss₁, hdb, hrun⟩ := run_claim (c := c) leaseSeconds agentId now hclaim
      refine Or.inr ⟨task, ss₁, rfl, hdb, ?_⟩
      rw [if_pos rfl, run_bind (claim_clockFree _ _ _ _), bind_of_ok hrun]
      rfl
    | false =>
      rw [if_neg (by simp)]
      cases wanted with
      | some id =>
        have hrest : rest = [] := by
          have := hone rfl
          rw [List.length_cons] at this
          exact List.length_eq_zero_iff.1 (by omega)
        subst hrest
        exact Or.inl ⟨rfl, rfl⟩
      | none => exact ih (fun r hr => hrows r (List.mem_cons_of_mem _ hr)) fun h => by cases h

/-- The store in which the candidates are listed. -/
def swept (agentId : String) (now : Time) (s : TaskStore) : TaskStore :=
  (LeaseRepository.sweep now (AgentRepository.ensure agentId s).1).1

/-- The candidate that a checkout takes in a swept store. -/
def chosen (wanted : Option ℤ) (now : Time) (s : TaskStore) : Option TaskRecord :=
  (TaskRepository.listCandidates wanted s).find?
    (takes wanted ((TaskRepository.listCandidates wanted s).map fun r => (r.row.id, r.row.status)) now s)

theorem listCandidates_rows {wanted : Option ℤ} {s : TaskStore} {r : TaskRecord}
    (h : r ∈ TaskRepository.listCandidates wanted s) : r.row ∈ s.tasks := by
  unfold TaskRepository.listCandidates at h
  cases wanted with
  | some id =>
    have hget : TaskRepository.get id s = some r := by simpa using h
    exact getRow_mem (get_some hget).1
  | none =>
    obtain ⟨t, ht, rfl⟩ := List.mem_map.1 h
    exact List.mem_mergeSort.1 ht

theorem listCandidates_length {wanted : Option ℤ} {s : TaskStore} (h : wanted.isSome) :
    (TaskRepository.listCandidates wanted s).length ≤ 1 := by
  obtain ⟨id, rfl⟩ := Option.isSome_iff_exists.1 h
  unfold TaskRepository.listCandidates
  exact Option.length_toList_le

theorem swept_ids {s : TaskStore} (agentId : String) (now : Time) (h : (s.tasks.map TaskRow.id).Nodup) :
    ((swept agentId now s).tasks.map TaskRow.id).Nodup := by
  have hsame : (swept agentId now s).tasks.map TaskRow.id = s.tasks.map TaskRow.id := map_updateWhere fun _ => rfl
  rw [hsame]; exact h

/-- **What a checkout answers and leaves**, out of maintenance. -/
theorem run_checkoutAt (c : ℕ → Time) (leaseSeconds : ℤ) (agentId : String) (wanted : Option ℤ) (now : Time)
    (hids : (ss.db.tasks.map TaskRow.id).Nodup) :
    (chosen wanted now (swept agentId now ss.db) = none ∧ ∃ ss₁ : Session TaskStore,
      ss₁.db = swept agentId now ss.db ∧
      run c (checkoutAt leaseSeconds agentId wanted now) ss = .ok (notAvailable wanted, ss₁)) ∨
    ∃ (r : TaskRecord) (ss₁ : Session TaskStore), chosen wanted now (swept agentId now ss.db) = some r ∧
      ss₁.db = claimed leaseSeconds agentId now r.row.id (swept agentId now ss.db) ∧
      run c (checkoutAt leaseSeconds agentId wanted now) ss =
        .ok (claimResult leaseSeconds agentId now r.row.id (swept agentId now ss.db), ss₁) := by
  unfold checkoutAt ensureAgent expireStale
  simp only [bind_assoc, pure_bind]
  obtain ⟨ss₁, hdb₁, hrun₁⟩ := run_flush_bind c ss (AgentRepository.ensure agentId) fun _ =>
    flush (LeaseRepository.sweep now) >>= fun _ => ask (TaskRepository.listCandidates wanted) >>= fun candidates =>
      scan leaseSeconds agentId now wanted (candidates.map fun r => (r.row.id, r.row.status)) candidates
  obtain ⟨ss₂, hdb₂, hrun₂⟩ := run_flush_bind c ss₁ (LeaseRepository.sweep now) fun _ =>
    ask (TaskRepository.listCandidates wanted) >>= fun candidates =>
      scan leaseSeconds agentId now wanted (candidates.map fun r => (r.row.id, r.row.status)) candidates
  have hdb : ss₂.db = swept agentId now ss.db := by rw [hdb₂, hdb₁]; rfl
  rw [hrun₁, hrun₂, run_ask_bind, hdb]
  have hids₂ : (ss₂.db.tasks.map TaskRow.id).Nodup := by rw [hdb]; exact swept_ids agentId now hids
  have hrows : ∀ r ∈ TaskRepository.listCandidates wanted (swept agentId now ss.db), r.row ∈ ss₂.db.tasks := by
    rw [hdb]; exact fun r hr => listCandidates_rows hr
  have hscan := run_scan (c := c) leaseSeconds agentId now wanted
    ((TaskRepository.listCandidates wanted (swept agentId now ss.db)).map fun r => (r.row.id, r.row.status)) hids₂
    hrows listCandidates_length
  rw [hdb] at hscan
  rcases hscan with ⟨hnone, hrun⟩ | ⟨r, ss₃, hsome, hdb₃, hrun⟩
  · exact Or.inl ⟨hnone, ss₂, hdb, hrun⟩
  · exact Or.inr ⟨r, ss₃, hsome, hdb₃, hrun⟩

end operations

end Tasks

/-! ## One operation -/

open Tasks

/-- **Everything that one operation can do to the store.** -/
inductive TaskStep (c : TaskCall) (s : TaskStore) : TaskStore → Prop
  /-- It raised, or it was refused. -/
  | unchanged : TaskStep c s s
  | heartbeat (agentId : String) (taskId : ℤ) (hop : c.operation = .heartbeat agentId taskId)
      (hcan : LeasePolicy.canHeartbeat (LeaseRepository.forTask taskId s) agentId c.now = true) :
      TaskStep c s (LeaseRepository.save taskId agentId (deadline c.leaseSeconds c.now) s).1
  | completed (agentId : String) (taskId : ℤ) (notes : Option String) (task : TaskRecord)
      (hop : c.operation = .complete agentId taskId notes) (htask : TaskRepository.get taskId s = some task)
      (hcan : LeasePolicy.canComplete (LeaseRepository.forTask taskId s) agentId c.now = true) :
      TaskStep c s (released (withStatus task .completed (normalizedNotes notes)) s)
  | abandoned (agentId : String) (taskId : ℤ) (task : TaskRecord) (hop : c.operation = .abandon agentId taskId)
      (htask : TaskRepository.get taskId s = some task)
      (hcan : LeasePolicy.canAbandon (LeaseRepository.forTask taskId s) agentId c.now = true) :
      TaskStep c s (released (withStatus task .pending none) s)
  | created (newId : ℤ) (title description : String) (dependsOn : List ℤ) (priority : ℤ)
      (hop : c.operation = .createTask newId title description dependsOn priority)
      (hdeps : ∀ d ∈ dependsOn, (TaskRepository.getRow d s).isSome) (hnew : TaskRepository.getRow newId s = none) :
      TaskStep c s (TaskRepository.create newId title description (TaskRepository.sortedIds dependsOn) priority s).1
  | updated (taskId : ℤ) (changes : TaskRepository.TaskChanges) (hop : c.operation = .updateTask taskId changes)
      (hacc : Accepted taskId changes s) : TaskStep c s (Tasks.updated taskId changes s)
  | deleted (taskId : ℤ) (hop : c.operation = .deleteTask taskId) :
      TaskStep c s (LeaseRepository.delete taskId (TaskRepository.delete taskId s).1).1
  /-- A checkout that took nothing. -/
  | swept (agentId : String) (wanted : Option ℤ) (hop : c.operation = .checkout agentId wanted)
      (hnone : chosen wanted c.now (Tasks.swept agentId c.now s) = none) :
      TaskStep c s (Tasks.swept agentId c.now s)
  | claimed (agentId : String) (wanted : Option ℤ) (r : TaskRecord) (hop : c.operation = .checkout agentId wanted)
      (hsome : chosen wanted c.now (Tasks.swept agentId c.now s) = some r) :
      TaskStep c s (Tasks.claimed c.leaseSeconds agentId c.now r.row.id (Tasks.swept agentId c.now s))

/-- **An operation does one of these.** -/
theorem stepTasks_step (c : TaskCall) (ss : Session TaskStore) (hids : (ss.db.tasks.map TaskRow.id).Nodup) :
    TaskStep c ss.db (stepTasks ss c).db := by
  unfold stepTasks
  cases hrun : c.transaction ss with
  | error e =>
    have hsame : commit c.transaction ss = ss := by unfold commit; rw [hrun]
    rw [hsame]; exact .unchanged
  | ok r =>
    obtain ⟨answer, ss'⟩ := r
    rw [commit_of_ok hrun]
    obtain ⟨now, leaseSeconds, operation⟩ := c
    cases operation with
    | checkout agentId wanted =>
      change run (fun _ => now) (ask TaskStore.systemState >>= _) ss = _ at hrun
      rw [run_ask_bind] at hrun
      split at hrun
      · obtain ⟨-, rfl⟩ := pure_ok.1 hrun
        exact .unchanged
      · rw [run_now_bind, run_bind_pure] at hrun
        rcases run_checkoutAt (fun _ => now) leaseSeconds agentId wanted now hids with ⟨hnone, ss₁, hdb, h⟩ | ⟨r, ss₁, hsome, hdb, h⟩
        · rw [bind_of_ok h] at hrun
          obtain ⟨-, rfl⟩ := pure_ok.1 hrun
          rw [hdb]
          exact .swept agentId wanted rfl hnone
        · rw [bind_of_ok h] at hrun
          obtain ⟨-, rfl⟩ := pure_ok.1 hrun
          rw [hdb]
          exact .claimed agentId wanted r rfl hsome
    | heartbeat agentId taskId =>
      rcases heartbeat_ok hrun with ⟨hcan, hdb, -⟩ | ⟨-, hdb, -⟩
      · rw [hdb]; exact .heartbeat agentId taskId rfl hcan
      · rw [hdb]; exact .unchanged
    | complete agentId taskId notes =>
      rcases complete_ok hrun with ⟨hcan, task, -, htask, hdb, -⟩ | ⟨hdb, -⟩
      · rw [hdb]; exact .completed agentId taskId notes task rfl htask hcan
      · rw [hdb]; exact .unchanged
    | abandon agentId taskId =>
      rcases abandon_ok hrun with ⟨hcan, task, htask, hdb, -⟩ | ⟨hdb, -⟩
      · rw [hdb]; exact .abandoned agentId taskId task rfl htask hcan
      · rw [hdb]; exact .unchanged
    | createTask newId title description dependsOn priority =>
      obtain ⟨hdeps, hnew, hdb⟩ := createTask_ok hrun
      rw [hdb]; exact .created newId title description dependsOn priority rfl hdeps hnew
    | updateTask taskId changes =>
      obtain ⟨hacc, hdb⟩ := updateTask_ok hrun
      rw [hdb]; exact .updated taskId changes rfl hacc
    | deleteTask taskId =>
      rw [deleteTask_ok hrun]; exact .deleted taskId rfl

/-! ### Lookups after an operation -/

section after

variable {s : TaskStore} {id taskId : ℤ} {record : TaskRecord} {changes : TaskRepository.TaskChanges}
  {agentId : String} {now : Time} {leaseSeconds : ℤ}

theorem getRow_released :
    TaskRepository.getRow id (released record s) =
      (TaskRepository.getRow id s).map fun u =>
        if u.id == record.row.id then TaskRepository.savedRow record u else u :=
  getRow_updateTasks s id fun _ => rfl

theorem forTask_released :
    LeaseRepository.forTask id (released record s) =
      if id = record.row.id then none else LeaseRepository.forTask id s := forTask_delete

theorem getRow_create {title description : String} {deps : List ℤ} {priority : ℤ}
    (hnew : TaskRepository.getRow taskId s = none) :
    TaskRepository.getRow id (TaskRepository.create taskId title description deps priority s).1 =
      if id = taskId then some ⟨taskId, title, description, priority, .pending, none⟩
      else TaskRepository.getRow id s := by
  unfold TaskRepository.create
  rw [hnew]
  show List.find? (fun u : TaskRow => u.id == id) (s.tasks ++ [_]) = _
  rw [List.find?_append]
  by_cases hid : id = taskId
  · subst hid
    rw [show List.find? (fun u : TaskRow => u.id == id) s.tasks = none from hnew]
    simp
  · have hne : ¬ taskId = id := fun he => hid he.symm
    simp [TaskRepository.getRow, hid, hne]

theorem forTask_create {title description : String} {deps : List ℤ} {priority : ℤ} :
    LeaseRepository.forTask id (TaskRepository.create taskId title description deps priority s).1 =
      LeaseRepository.forTask id s := by
  unfold TaskRepository.create
  split
  · rfl
  · rfl

theorem getRow_delete :
    TaskRepository.getRow id (LeaseRepository.delete taskId (TaskRepository.delete taskId s).1).1 =
      if id = taskId then none else TaskRepository.getRow id s := by
  show (deleteWhere (fun t : TaskRow => t.id == taskId) s.tasks).find? (fun u => u.id == id) = _
  split
  · rename_i h
    subst h
    exact find?_deleteWhere_none fun x _ hx => hx
  · rename_i h
    refine find?_deleteWhere fun x hx => ?_
    have hid : x.id = id := by simpa using hx
    simp [hid, h]

theorem update_of_row (hrow : (TaskRepository.getRow taskId s).isSome) :
    (TaskRepository.update taskId changes s).1.tasks =
      updateWhere (fun t => t.id == taskId) (TaskRepository.updatedRow changes) s.tasks ∧
    (TaskRepository.update taskId changes s).1.dependencies =
      match changes.dependsOn with
      | none => s.dependencies
      | some deps => (s.dependencies.filter fun e => e.1 != taskId) ++
          (TaskRepository.sortedIds deps).map fun d => (taskId, d) := by
  unfold TaskRepository.update
  rw [if_pos hrow]
  exact ⟨rfl, rfl⟩

/-- An update touches nothing else. -/
theorem updated_eq :
    (Tasks.updated taskId changes s).tasks = (TaskRepository.update taskId (normalizedChanges changes) s).1.tasks ∧
    (Tasks.updated taskId changes s).dependencies =
      (TaskRepository.update taskId (normalizedChanges changes) s).1.dependencies ∧
    (Tasks.updated taskId changes s).systemState = s.systemState := by
  have hstate : (TaskRepository.update taskId (normalizedChanges changes) s).1.systemState = s.systemState := by
    unfold TaskRepository.update
    split
    · rfl
    · rfl
  unfold Tasks.updated
  split
  · exact ⟨rfl, rfl, hstate⟩
  · exact ⟨rfl, rfl, hstate⟩

theorem getRow_updated (hrow : (TaskRepository.getRow taskId s).isSome) :
    TaskRepository.getRow id (Tasks.updated taskId changes s) =
      (TaskRepository.getRow id s).map fun u =>
        if u.id == taskId then TaskRepository.updatedRow (normalizedChanges changes) u else u := by
  show (Tasks.updated taskId changes s).tasks.find? (fun u => u.id == id) = _
  rw [updated_eq.1, (update_of_row hrow).1]
  exact getRow_updateTasks s id fun _ => rfl

theorem forTask_updated :
    LeaseRepository.forTask id (Tasks.updated taskId changes s) =
      if id = taskId ∧ (changes.status = some .pending ∨ changes.status = some .completed) then none
      else LeaseRepository.forTask id s := by
  have hsame : ∀ changes, LeaseRepository.forTask id (TaskRepository.update taskId changes s).1 =
      LeaseRepository.forTask id s := by
    intro changes
    unfold TaskRepository.update
    split
    · rfl
    · rfl
  unfold Tasks.updated
  by_cases hs : changes.status = some .pending ∨ changes.status = some .completed
  · rw [if_pos hs, forTask_delete, hsame]
    by_cases hid : id = taskId
    · rw [if_pos hid, if_pos ⟨hid, hs⟩]
    · rw [if_neg hid, if_neg fun h => hid h.1]
  · rw [if_neg hs, hsame, if_neg fun h => hs h.2]

theorem getRow_swept :
    TaskRepository.getRow id (Tasks.swept agentId now s) =
      (TaskRepository.getRow id s).map fun u =>
        if (LeaseRepository.expiredIds now s).contains u.id && u.status != .pending then
          { u with status := .pending, completedNotes := none }
        else u := getRow_sweep

theorem forTask_swept :
    LeaseRepository.forTask id (Tasks.swept agentId now s) =
      if (LeaseRepository.expiredIds now s).contains id then none else LeaseRepository.forTask id s := forTask_sweep

theorem getRow_claimed :
    TaskRepository.getRow id (Tasks.claimed leaseSeconds agentId now taskId s) =
      (TaskRepository.getRow id s).map fun u =>
        if u.id == taskId && u.status == .pending then { u with status := .inProgress } else u := by
  have hsame : ∀ t : TaskStore, TaskRepository.getRow id
      (LeaseRepository.save taskId agentId (deadline leaseSeconds now) t).1 = TaskRepository.getRow id t := by
    intro t
    unfold LeaseRepository.save
    split
    · rfl
    · rfl
  unfold Tasks.claimed
  rw [hsame]
  exact getRow_updateTasks s id fun _ => rfl

theorem forTask_claimed :
    LeaseRepository.forTask id (Tasks.claimed leaseSeconds agentId now taskId s) =
      if id = taskId then some ⟨s.nextLeaseId, taskId, agentId, deadline leaseSeconds now⟩
      else LeaseRepository.forTask id s := by
  unfold Tasks.claimed
  rw [forTask_save]
  by_cases hid : id = taskId
  · rw [if_pos hid, if_pos hid]
    unfold savedLease
    rw [forTask_delete, if_pos rfl]
    rfl
  · rw [if_neg hid, if_neg hid, forTask_delete, if_neg hid]
    rfl

end after

/-! ## The invariant -/

/-- **The invariant of the store.** -/
structure TaskStore.Valid (s : TaskStore) : Prop where
  ids : (s.tasks.map TaskRow.id).Nodup
  one : (s.leases.map TaskLease.taskId).Nodup
  held : ∀ id l, LeaseRepository.forTask id s = some l →
    ∃ t, TaskRepository.getRow id s = some t ∧ t.status = .inProgress
  edges : ∀ e ∈ s.dependencies, e.1 ∈ s.tasks.map TaskRow.id ∧ e.2 ∈ s.tasks.map TaskRow.id
  working : s.systemState.maintenanceMode = false

theorem TaskStore.init_valid : TaskStore.init.Valid where
  ids := List.nodup_nil
  one := List.nodup_nil
  held := fun _ _ h => by cases h
  edges := fun _ h => by cases h
  working := rfl

section valid

variable {s : TaskStore} {taskId : ℤ} {agentId : String} {expiresAt now : Time}

theorem mem_ids : taskId ∈ s.tasks.map TaskRow.id ↔ (TaskRepository.getRow taskId s).isSome := by
  rw [getRow_isSome, List.mem_map]

/-- A lease that is saved for a task without one, or for its holder, is the only one of its task. -/
theorem nodup_save (h : (s.leases.map TaskLease.taskId).Nodup) :
    ((LeaseRepository.save taskId agentId expiresAt s).1.leases.map TaskLease.taskId).Nodup := by
  unfold LeaseRepository.save
  cases hl : LeaseRepository.forTask taskId s with
  | some l =>
    show (List.map TaskLease.taskId (updateWhere _ _ s.leases)).Nodup
    rw [map_updateWhere (f := fun l : TaskLease => { l with agentId, expiresAt }) fun _ => rfl]
    exact h
  | none =>
    show (List.map TaskLease.taskId (s.leases ++ [_])).Nodup
    rw [List.map_append, List.map_singleton, List.nodup_append]
    refine ⟨h, List.nodup_singleton _, fun a ha b hb => ?_⟩
    obtain rfl := List.mem_singleton.1 hb
    obtain ⟨m, hm, rfl⟩ := List.mem_map.1 ha
    have := List.find?_eq_none.1 hl m hm
    simpa using this

theorem nodup_deleteLeases {p : TaskLease → Bool} (h : (s.leases.map TaskLease.taskId).Nodup) :
    ((deleteWhere p s.leases).map TaskLease.taskId).Nodup :=
  h.sublist (List.filter_sublist.map _)

/-- `complete` and `abandon` keep the invariant. -/
theorem TaskStore.Valid.released (h : s.Valid) (record : TaskRecord) : (Tasks.released record s).Valid := by
  have hcol : (Tasks.released record s).tasks.map TaskRow.id = s.tasks.map TaskRow.id := map_updateWhere fun _ => rfl
  refine ⟨by rw [hcol]; exact h.ids, nodup_deleteLeases h.one, ?_, by rw [hcol]; exact h.edges, h.working⟩
  intro id l hl
  rw [forTask_released] at hl
  split at hl
  · cases hl
  · rename_i hne
    obtain ⟨t, ht, hs⟩ := h.held id l hl
    refine ⟨t, ?_, hs⟩
    rw [getRow_released, ht, Option.map_some, if_neg (by simpa [getRow_id ht] using hne)]

theorem TaskStore.Valid.heartbeat (h : s.Valid)
    (hcan : LeasePolicy.canHeartbeat (LeaseRepository.forTask taskId s) agentId now = true) :
    (LeaseRepository.save taskId agentId expiresAt s).1.Valid := by
  unfold LeasePolicy.canHeartbeat at hcan
  cases hl : LeaseRepository.forTask taskId s with
  | none => rw [hl] at hcan; cases hcan
  | some l =>
    have hsave : (LeaseRepository.save taskId agentId expiresAt s).1 = { s with
        leases := updateWhere (fun l => l.taskId == taskId) (fun l => { l with agentId, expiresAt }) s.leases } := by
      unfold LeaseRepository.save; rw [hl]
    refine ⟨?_, nodup_save h.one, ?_, ?_, ?_⟩
    · rw [hsave]; exact h.ids
    · intro id m hm
      rw [forTask_save] at hm
      have hrow : ∀ t, TaskRepository.getRow id (LeaseRepository.save taskId agentId expiresAt s).1 = some t ↔
          TaskRepository.getRow id s = some t := by rw [hsave]; exact fun t => Iff.rfl
      split at hm
      · rename_i hid
        subst hid
        obtain ⟨t, ht, hs⟩ := h.held _ l hl
        exact ⟨t, (hrow t).2 ht, hs⟩
      · obtain ⟨t, ht, hs⟩ := h.held _ m hm
        exact ⟨t, (hrow t).2 ht, hs⟩
    · rw [hsave]; exact h.edges
    · rw [hsave]; exact h.working

theorem TaskStore.Valid.created (h : s.Valid) {title description : String} {deps : List ℤ} {priority : ℤ}
    (hdeps : ∀ d ∈ deps, (TaskRepository.getRow d s).isSome) (hnew : TaskRepository.getRow taskId s = none) :
    (TaskRepository.create taskId title description deps priority s).1.Valid := by
  have hcreate : (TaskRepository.create taskId title description deps priority s).1 = { s with
      tasks := s.tasks ++ [⟨taskId, title, description, priority, .pending, none⟩]
      dependencies := s.dependencies ++ (TaskRepository.sortedIds deps).map fun d => (taskId, d) } := by
    unfold TaskRepository.create; rw [hnew]; rfl
  have hcol : (TaskRepository.create taskId title description deps priority s).1.tasks.map TaskRow.id =
      s.tasks.map TaskRow.id ++ [taskId] := by
    rw [hcreate]; exact List.map_append
  have hfresh : taskId ∉ s.tasks.map TaskRow.id := by rw [mem_ids, hnew]; simp
  refine ⟨?_, ?_, ?_, ?_, ?_⟩
  · rw [hcol, List.nodup_append]
    refine ⟨h.ids, List.nodup_singleton _, fun a ha b hb hab => ?_⟩
    obtain rfl := List.mem_singleton.1 hb
    exact hfresh (hab ▸ ha)
  · rw [hcreate]; exact h.one
  · intro id l hl
    rw [forTask_create] at hl
    obtain ⟨t, ht, hs⟩ := h.held id l hl
    refine ⟨t, ?_, hs⟩
    rw [getRow_create hnew, if_neg fun hid => by rw [hid, hnew] at ht; cases ht]
    exact ht
  · intro e he
    rw [hcreate] at he
    rw [hcol]
    rcases List.mem_append.1 he with he | he
    · exact ⟨List.mem_append_left _ (h.edges e he).1, List.mem_append_left _ (h.edges e he).2⟩
    · obtain ⟨d, hd, rfl⟩ := List.mem_map.1 he
      refine ⟨List.mem_append_right _ (List.mem_singleton.2 rfl), List.mem_append_left _ ?_⟩
      exact mem_ids.2 (hdeps d (mem_sortedIds.1 hd))
  · rw [hcreate]; exact h.working

theorem TaskStore.Valid.updated (h : s.Valid) {changes : TaskRepository.TaskChanges}
    (hrow : (TaskRepository.getRow taskId s).isSome)
    (hdeps : ∀ deps, changes.dependsOn = some deps → ∀ d ∈ deps, (TaskRepository.getRow d s).isSome) :
    (Tasks.updated taskId changes s).Valid := by
  have hcol : (Tasks.updated taskId changes s).tasks.map TaskRow.id = s.tasks.map TaskRow.id := by
    rw [updated_eq.1, (update_of_row hrow).1]; exact map_updateWhere fun _ => rfl
  refine ⟨by rw [hcol]; exact h.ids, ?_, ?_, ?_, by rw [updated_eq.2.2]; exact h.working⟩
  · have hleases : (TaskRepository.update taskId (normalizedChanges changes) s).1.leases = s.leases := by
      unfold TaskRepository.update; rw [if_pos hrow]
    unfold Tasks.updated
    split
    · refine nodup_deleteLeases ?_
      rw [hleases]; exact h.one
    · rw [hleases]; exact h.one
  · intro id l hl
    rw [forTask_updated] at hl
    split at hl
    · cases hl
    · rename_i hne
      obtain ⟨t, ht, hs⟩ := h.held id l hl
      rw [getRow_updated hrow, ht]
      refine ⟨_, rfl, ?_⟩
      beta_reduce
      split
      · rename_i hid
        -- the new status is the old one, or in progress
        have hid' : id = taskId := by rw [← getRow_id ht]; simpa using hid
        have hstatus : ¬ (changes.status = some .pending ∨ changes.status = some .completed) :=
          fun h' => hne ⟨hid', h'⟩
        show changes.status.getD t.status = .inProgress
        cases hc : changes.status with
        | none => exact hs
        | some status =>
          cases status with
          | pending => exact absurd (Or.inl hc) hstatus
          | completed => exact absurd (Or.inr hc) hstatus
          | inProgress => rfl
      · exact hs
  · intro e he
    rw [hcol]
    rw [updated_eq.2.1, (update_of_row hrow).2] at he
    cases hd : changes.dependsOn with
    | none =>
      have hnone : (normalizedChanges changes).dependsOn = none := by unfold normalizedChanges; rw [hd]; rfl
      rw [hnone] at he
      exact h.edges e he
    | some deps =>
      have hsome : (normalizedChanges changes).dependsOn = some (TaskRepository.sortedIds deps) := by
        unfold normalizedChanges; rw [hd]; rfl
      rw [hsome] at he
      rcases List.mem_append.1 he with he | he
      · exact h.edges e (List.mem_filter.1 he).1
      · obtain ⟨d, hd', rfl⟩ := List.mem_map.1 he
        exact ⟨mem_ids.2 hrow, mem_ids.2 (hdeps deps hd d (mem_sortedIds.1 (mem_sortedIds.1 hd')))⟩

theorem TaskStore.Valid.deleted (h : s.Valid) :
    (LeaseRepository.delete taskId (TaskRepository.delete taskId s).1).1.Valid := by
  refine ⟨h.ids.sublist (List.filter_sublist.map _), nodup_deleteLeases h.one, ?_, ?_, h.working⟩
  · intro id l hl
    rw [forTask_delete] at hl
    split at hl
    · cases hl
    · rename_i hne
      obtain ⟨t, ht, hs⟩ := h.held id l hl
      exact ⟨t, by rw [getRow_delete, if_neg hne]; exact ht, hs⟩
  · intro e he
    obtain ⟨he, hne⟩ := List.mem_filter.1 he
    have hne' : e.1 ≠ taskId ∧ e.2 ≠ taskId := by simpa using hne
    obtain ⟨h₁, h₂⟩ := h.edges e he
    rw [mem_ids] at h₁ h₂
    rw [mem_ids, mem_ids, getRow_delete, getRow_delete, if_neg hne'.1, if_neg hne'.2]
    exact ⟨h₁, h₂⟩

theorem TaskStore.Valid.swept (h : s.Valid) : (Tasks.swept agentId now s).Valid := by
  have hcol : (Tasks.swept agentId now s).tasks.map TaskRow.id = s.tasks.map TaskRow.id :=
    map_updateWhere fun _ => rfl
  refine ⟨by rw [hcol]; exact h.ids, nodup_deleteLeases h.one, ?_, by rw [hcol]; exact h.edges, h.working⟩
  intro id l hl
  rw [forTask_swept] at hl
  split at hl
  · cases hl
  · rename_i hlive
    obtain ⟨t, ht, hs⟩ := h.held id l hl
    refine ⟨t, ?_, hs⟩
    rw [getRow_swept, ht, Option.map_some, getRow_id ht, if_neg]
    exact fun hb => hlive (Bool.and_eq_true _ _ ▸ hb : _ ∧ _).1

/-- A claim keeps the invariant if its task is there and pending. -/
theorem TaskStore.Valid.claimed (h : s.Valid) {leaseSeconds : ℤ} {t : TaskRow}
    (ht : TaskRepository.getRow taskId s = some t) (hp : t.status = .pending) :
    (Tasks.claimed leaseSeconds agentId now taskId s).Valid := by
  have hsave : ∀ u : TaskStore, (LeaseRepository.save taskId agentId (deadline leaseSeconds now) u).1.tasks = u.tasks ∧
      (LeaseRepository.save taskId agentId (deadline leaseSeconds now) u).1.dependencies = u.dependencies ∧
      (LeaseRepository.save taskId agentId (deadline leaseSeconds now) u).1.systemState = u.systemState := by
    intro u
    unfold LeaseRepository.save
    split
    · exact ⟨rfl, rfl, rfl⟩
    · exact ⟨rfl, rfl, rfl⟩
  have hcol : (Tasks.claimed leaseSeconds agentId now taskId s).tasks.map TaskRow.id = s.tasks.map TaskRow.id := by
    unfold Tasks.claimed
    rw [(hsave _).1]
    exact map_updateWhere fun _ => rfl
  refine ⟨by rw [hcol]; exact h.ids, ?_, ?_, ?_, ?_⟩
  · exact nodup_save (nodup_deleteLeases h.one)
  · intro id l hl
    rw [forTask_claimed] at hl
    split at hl
    · rename_i hid
      subst hid
      rw [getRow_claimed, ht]
      refine ⟨_, rfl, ?_⟩
      beta_reduce
      rw [if_pos (by simp [getRow_id ht, hp])]
    · rename_i hne
      obtain ⟨u, hu, hs⟩ := h.held id l hl
      refine ⟨u, ?_, hs⟩
      rw [getRow_claimed, hu, Option.map_some, getRow_id hu]
      simp [hne]
  · rw [hcol]
    unfold Tasks.claimed
    rw [(hsave _).2.1]
    exact h.edges
  · unfold Tasks.claimed
    rw [(hsave _).2.2]
    exact h.working

/-- What the loop takes is there and pending. -/
theorem chosen_pending {wanted : Option ℤ} {r : TaskRecord} (hids : (s.tasks.map TaskRow.id).Nodup)
    (h : chosen wanted now s = some r) :
    TaskRepository.getRow r.row.id s = some r.row ∧ r.row.status = .pending := by
  have hmem := listCandidates_rows (List.mem_of_find?_eq_some h)
  have htakes := List.find?_some h
  refine ⟨getRow_of_mem hids hmem, ?_⟩
  unfold takes isAvailable at htakes
  simp only [Bool.and_eq_true, beq_iff_eq] at htakes
  exact htakes.1.1

/-- **Every operation keeps the invariant.** -/
theorem TaskStep.valid {c : TaskCall} {s' : TaskStore} (hstep : TaskStep c s s') (h : s.Valid) : s'.Valid := by
  cases hstep with
  | unchanged => exact h
  | heartbeat agentId taskId hop hcan => exact h.heartbeat hcan
  | completed agentId taskId notes task hop htask hcan => exact h.released _
  | abandoned agentId taskId task hop htask hcan => exact h.released _
  | created newId title description dependsOn priority hop hdeps hnew =>
    exact h.created (fun d hd => hdeps d (mem_sortedIds.1 hd)) hnew
  | updated taskId changes hop hacc => exact h.updated hacc.row fun deps hd => (hacc.deps deps hd).2
  | deleted taskId hop => exact h.deleted
  | swept agentId wanted hop hnone => exact h.swept
  | claimed agentId wanted r hop hsome =>
    obtain ⟨ht, hp⟩ := chosen_pending h.swept.ids hsome
    exact h.swept.claimed ht hp

end valid

theorem stepTasks_valid (ss : Session TaskStore) (c : TaskCall) (h : ss.db.Valid) : (stepTasks ss c).db.Valid :=
  (stepTasks_step c ss h.ids).valid h

/-- **The invariant holds after any sequence of operations.** -/
theorem runTasks_valid (calls : List TaskCall) : (runTasks calls).db.Valid :=
  Run.foldl_keeps (I := fun ss : Session TaskStore => ss.db.Valid) stepTasks_valid TaskStore.init_valid calls

end Switchboard
