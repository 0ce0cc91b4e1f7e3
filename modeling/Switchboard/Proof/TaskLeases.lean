import Switchboard.Lib.Interference
import Switchboard.Proof.Tasks

/-!
# Task leases under interleaving

The operations run call by call, in any interleaving: a read locks nothing, and the first
write takes SQLite's write slot. `heartbeat`, `complete` and `abandon` read the lease of
their task, decide, and write later without looking again.

* `Linearized`: what a committed operation owes to the lease at its write.
* `heartbeat_ensures`, `complete_ensures`, `abandon_ensures`: each operation meets it as
  long as the lease it has read is not replaced or deleted.
* `leases_linearized`: every interleaving in which no lease is replaced or deleted between
  the read and the write of another operation on it is linearizable.
* `lease_recreated`: one in which a heartbeat brings a deleted lease back.
-/

namespace Switchboard

open Table Transaction Program Tasks

/-! ## What is owed -/

/-- Which lease it is, and whose. -/
def TaskLease.ident (l : TaskLease) : ℕ × String := (l.id, l.agentId)

/-- The current lease of a task. -/
def currentLease (taskId : ℤ) (s : TaskStore) : Option (ℕ × String) :=
  (LeaseRepository.forTask taskId s).map TaskLease.ident

/-- The task whose lease the operation validates. -/
def TaskOperation.target : TaskOperation → Option ℤ
  | .heartbeat _ taskId | .complete _ taskId _ | .abandon _ taskId => some taskId
  | _ => none

/-- Whether such an operation reports ok, and the lease that it validated. -/
def TaskAnswer.validated : TaskAnswer → Option (Bool × Option TaskLease)
  | .heartbeat ok _ lease => some (ok, lease)
  | .completion ok _ lease => some (ok, lease)
  | .abandoned ok _ lease => some (ok, lease)
  | _ => none

def TaskOperation.isCheckout : TaskOperation → Bool
  | .checkout _ _ => true
  | _ => false

/-- No lease is made, and none changes hands. -/
def KeepsLeases (s s' : TaskStore) : Prop := ∀ id, currentLease id s' = none ∨ currentLease id s' = currentLease id s

/-- **What a committed operation owes**, over the store before and after its writes. -/
structure Linearized (operation : TaskOperation) (s : TaskStore) (answer : TaskAnswer) (s' : TaskStore) : Prop where
  /-- It takes effect only if the lease that it validated is still the current one. -/
  current : ∀ taskId lease, operation.target = some taskId → answer.validated = some (true, lease) →
    currentLease taskId s = lease.map TaskLease.ident
  /-- It changes nothing if the task has another lease by then. -/
  foreign : ∀ taskId ok lease l, operation.target = some taskId → answer.validated = some (ok, lease) →
    LeaseRepository.forTask taskId s = some l → lease.map TaskLease.ident ≠ some l.ident → s' = s
  /-- It changes no other task. -/
  others : ∀ taskId id, operation.target = some taskId → id ≠ taskId →
    TaskRepository.getRow id s' = TaskRepository.getRow id s ∧
      LeaseRepository.forTask id s' = LeaseRepository.forTask id s
  /-- Only a checkout makes a lease or changes its agent. -/
  kept : operation.isCheckout = false → KeepsLeases s s'

section owed

variable {s s' : TaskStore} {operation : TaskOperation} {answer : TaskAnswer}

theorem KeepsLeases.refl (s : TaskStore) : KeepsLeases s s := fun _ => Or.inr rfl

theorem KeepsLeases.trans {s s' s'' : TaskStore} (h : KeepsLeases s s') (h' : KeepsLeases s' s'') :
    KeepsLeases s s'' := by
  intro id
  rcases h' id with hnone | hsame
  · exact Or.inl hnone
  · rw [hsame]; exact h id

theorem keepsLeases_delete (taskId : ℤ) (s : TaskStore) : KeepsLeases s (LeaseRepository.delete taskId s).1 := by
  intro id
  unfold currentLease
  rw [forTask_delete]
  split
  · exact Or.inl rfl
  · exact Or.inr rfl

theorem keepsLeases_of_forTask (h : ∀ id, LeaseRepository.forTask id s' = LeaseRepository.forTask id s) :
    KeepsLeases s s' := by
  intro id
  unfold currentLease
  rw [h id]
  exact Or.inr rfl

/-- An operation that changed nothing. -/
theorem linearized_unchanged
    (hcurrent : ∀ taskId lease, operation.target = some taskId → answer.validated = some (true, lease) →
      currentLease taskId s = lease.map TaskLease.ident) : Linearized operation s answer s where
  current := hcurrent
  foreign := fun _ _ _ _ _ _ _ _ => rfl
  others := fun _ _ _ _ => ⟨rfl, rfl⟩
  kept := fun _ => KeepsLeases.refl s

/-- An operation that validated the current lease. -/
theorem linearized_current {taskId : ℤ} {ok : Bool} {lease : Option TaskLease}
    (htarget : operation.target = some taskId) (hanswer : answer.validated = some (ok, lease))
    (hcurrent : currentLease taskId s = lease.map TaskLease.ident)
    (hothers : ∀ id, id ≠ taskId → TaskRepository.getRow id s' = TaskRepository.getRow id s ∧
      LeaseRepository.forTask id s' = LeaseRepository.forTask id s)
    (hkept : KeepsLeases s s') : Linearized operation s answer s' where
  current := by
    intro taskId' lease' ht ha
    obtain rfl : taskId = taskId' := Option.some.inj (htarget.symm.trans ht)
    have hpair := Option.some.inj (hanswer.symm.trans ha)
    rw [hcurrent, (Prod.mk.inj hpair).2]
  foreign := by
    intro taskId' ok' lease' l ht ha hl hne
    obtain rfl : taskId = taskId' := Option.some.inj (htarget.symm.trans ht)
    have hpair := Option.some.inj (hanswer.symm.trans ha)
    refine absurd ?_ hne
    rw [← (Prod.mk.inj hpair).2, ← hcurrent]
    unfold currentLease
    rw [hl]
    rfl
  others := by
    intro taskId' id ht hne
    obtain rfl : taskId = taskId' := Option.some.inj (htarget.symm.trans ht)
    exact hothers id hne
  kept := fun _ => hkept

end owed

/-! ## The operations that validate a lease -/

/-- What they rely on: the lease that was read is neither replaced nor deleted. -/
def SameLease (taskId : ℤ) (s s' : TaskStore) : Prop := currentLease taskId s' = currentLease taskId s

section ensures

variable {agentId : String} {taskId : ℤ} {notes : Option String} {leaseSeconds : ℤ} {now t : Time} {s : TaskStore}
  {c : ℕ → Time} {ss ss' : Session TaskStore} {answer : TaskAnswer}

/-- The writes of a heartbeat. -/
theorem heartbeat_write {lease : Option TaskLease} (hcan : LeasePolicy.canHeartbeat lease agentId now = true)
    (hcurrent : currentLease taskId s = lease.map TaskLease.ident) (expiresAt : Time) :
    Linearized (.heartbeat agentId taskId) s (.heartbeat true taskId lease)
      (LeaseRepository.save taskId agentId expiresAt s).1 := by
  unfold LeasePolicy.canHeartbeat at hcan
  cases lease with
  | none => cases hcan
  | some l =>
    obtain ⟨hagent, -⟩ : (l.agentId == agentId) = true ∧ _ := by simpa using hcan
    have hrow : ∀ id, TaskRepository.getRow id (LeaseRepository.save taskId agentId expiresAt s).1 =
        TaskRepository.getRow id s := by
      intro id
      unfold LeaseRepository.save
      split
      · rfl
      · rfl
    refine linearized_current rfl rfl hcurrent (fun id hid => ⟨hrow id, by rw [forTask_save, if_neg hid]⟩) fun id => ?_
    unfold currentLease
    rw [forTask_save]
    split
    · rename_i hid
      subst hid
      -- the row is there, with the id and the agent that were validated
      refine Or.inr ?_
      cases hl : LeaseRepository.forTask id s with
      | none => unfold currentLease at hcurrent; rw [hl] at hcurrent; cases hcurrent
      | some m =>
        unfold currentLease at hcurrent
        rw [hl] at hcurrent
        obtain ⟨-, hm⟩ := Prod.mk.inj (Option.some.inj hcurrent)
        unfold savedLease
        rw [hl]
        show some (m.id, agentId) = some (m.id, m.agentId)
        rw [hm, beq_iff_eq.1 hagent]
    · exact Or.inr rfl

theorem SameLease.trans {x y z : TaskStore} (h : SameLease taskId x y) (h' : SameLease taskId y z) :
    SameLease taskId x z := Eq.trans h' h

/-- A flush writes nothing and goes on reading, or it writes. -/
theorem ensures_flush {G : Time → TaskStore → TaskAnswer → TaskStore → Prop} {st : TaskStore → TaskStore × Bool}
    {f : Bool → TaskTx TaskAnswer}
    (hread : ∀ s₁, SameLease taskId s s₁ → (f true).Ensures (fun _ => True) (SameLease taskId) G t s₁)
    (hwrite : ∀ c T (ss : Session TaskStore) a ss', SameLease taskId s ss.db →
      run c (f (st ss.db).2) (ss.push (st ss.db).1) = .ok (a, ss') → G T ss.db a ss'.db) :
    (flush st >>= f).Ensures (fun _ => True) (SameLease taskId) G t s := by
  unfold flush
  rw [bind_assoc]
  intro s₁ _ h₁
  show ((if decide (st s₁ = (s₁, true)) = true then pure true else guarded st) >>= f).Ensures _ _ G t s₁
  by_cases hu : st s₁ = (s₁, true)
  · rw [if_pos (by simpa using hu), pure_bind]
    exact hread s₁ h₁
  · rw [if_neg (by simpa using hu)]
    exact ensures_guarded fun c T ss a ss' _ _ h₂ hrun => hwrite c T ss a ss' (h₁.trans h₂) hrun

/-- An answer at the end of a program that has written nothing. -/
theorem ensures_answer {operation : TaskOperation} {ok : Bool} {lease : Option TaskLease}
    (htarget : operation.target = some taskId) (hanswer : answer.validated = some (ok, lease))
    (hread : ok = true → currentLease taskId s = lease.map TaskLease.ident) :
    (pure answer : TaskTx TaskAnswer).Ensures (fun _ => True) (SameLease taskId)
      (fun _ => Linearized operation) t s := by
  intro T s' _ _ hsame
  refine linearized_unchanged fun taskId' lease' ht ha => ?_
  obtain rfl : taskId = taskId' := Option.some.inj (htarget.symm.trans ht)
  obtain ⟨rfl, rfl⟩ := Prod.mk.inj (Option.some.inj (hanswer.symm.trans ha))
  rw [show currentLease taskId s' = currentLease taskId s from hsame]
  exact hread rfl

/-- **A heartbeat meets its obligations while its lease is left alone.** -/
theorem heartbeatAt_ensures :
    (heartbeatAt leaseSeconds agentId taskId now).Ensures (fun _ => True) (SameLease taskId)
      (fun _ => Linearized (.heartbeat agentId taskId)) t s := by
  unfold heartbeatAt
  refine ensures_ask fun s₁ _ _ => ?_
  cases hcan : LeasePolicy.canHeartbeat (LeaseRepository.forTask taskId s₁) agentId now with
  | true =>
    rw [if_pos rfl]
    refine ensures_flush (fun s₂ h₂ => ?_) fun c T ss a ss' hss hrun => ?_
    · exact ensures_answer rfl rfl fun _ => h₂
    · obtain ⟨rfl, rfl⟩ := pure_ok.1 hrun
      exact heartbeat_write hcan hss _
  | false =>
    rw [if_neg (by simp)]
    exact ensures_answer rfl rfl fun h => by cases h

/-- The writes of `complete` and `abandon`. -/
theorem released_write {operation : TaskOperation} {record : TaskRecord} {lease : Option TaskLease}
    (htarget : operation.target = some taskId) (hanswer : answer.validated = some (true, lease))
    (hid : record.row.id = taskId) (hcurrent : currentLease taskId s = lease.map TaskLease.ident) :
    Linearized operation s answer (released record s) := by
  refine linearized_current htarget hanswer hcurrent (fun id hne => ⟨?_, ?_⟩) ?_
  · rw [getRow_released]
    cases hrow : TaskRepository.getRow id s with
    | none => rfl
    | some u =>
      rw [Option.map_some, if_neg]
      rw [getRow_id hrow, hid]
      simpa using hne
  · rw [forTask_released, hid, if_neg hne]
  · exact (keepsLeases_of_forTask fun _ => rfl : KeepsLeases s (TaskRepository.save record s).1).trans
      (keepsLeases_delete _ _)

/-- Their writes when the row is already as it should be. -/
theorem deleted_write {operation : TaskOperation} {lease : Option TaskLease}
    (htarget : operation.target = some taskId) (hanswer : answer.validated = some (true, lease))
    (hcurrent : currentLease taskId s = lease.map TaskLease.ident) :
    Linearized operation s answer (LeaseRepository.delete taskId s).1 :=
  linearized_current htarget hanswer hcurrent (fun id hne => ⟨rfl, by rw [forTask_delete, if_neg hne]⟩)
    (keepsLeases_delete _ _)

/-- **So does `complete`.** -/
theorem completeAt_ensures :
    (completeAt agentId taskId notes now).Ensures (fun _ => True) (SameLease taskId)
      (fun _ => Linearized (.complete agentId taskId notes)) t s := by
  unfold completeAt
  refine ensures_ask fun s₁ _ _ => ?_
  cases hcan : LeasePolicy.canComplete (LeaseRepository.forTask taskId s₁) agentId now with
  | false =>
    rw [if_neg (by simp)]
    exact ensures_answer rfl rfl fun h => by cases h
  | true =>
    rw [if_pos rfl]
    refine ensures_ask fun s₂ _ h₂ => ?_
    cases htask : TaskRepository.get taskId s₂ with
    | none => exact ensures_answer rfl rfl fun h => by cases h
    | some task =>
      have hid : (withStatus task .completed (normalizedNotes notes)).row.id = taskId := (get_some htask).2
      show (saveTask _ >>= _).Ensures _ _ _ t s₂
      unfold saveTask
      rw [bind_assoc]
      refine ensures_flush (fun s₃ h₃ => ?_) fun c T ss a ss' hss hrun => ?_
      · -- only the deletion of the lease is left to write
        refine ensures_ask fun s₄ _ h₄ => ensures_guarded fun c T ss a ss' _ _ hss hrun => ?_
        obtain ⟨rfl, rfl⟩ := pure_ok.1 hrun
        exact deleted_write rfl rfl (((h₂.trans h₃).trans h₄).trans hss)
      · cases hsaved : (TaskRepository.save (withStatus task .completed (normalizedNotes notes)) ss.db).2 with
        | false => rw [hsaved] at hrun; cases hrun
        | true =>
          rw [hsaved] at hrun
          obtain ⟨rfl, rfl⟩ := pure_ok.1 hrun
          have hdb : Linearized (.complete agentId taskId notes) ss.db (.completion true (TaskRepository.get taskId
              (TaskRepository.save (withStatus task .completed (normalizedNotes notes)) ss.db).1)
              (LeaseRepository.forTask taskId s₁))
              (released (withStatus task .completed (normalizedNotes notes)) ss.db) :=
            released_write rfl rfl hid (h₂.trans hss)
          unfold released at hdb
          rw [hid] at hdb
          exact hdb

/-- **And `abandon`.** -/
theorem abandonAt_ensures :
    (abandonAt agentId taskId now).Ensures (fun _ => True) (SameLease taskId)
      (fun _ => Linearized (.abandon agentId taskId)) t s := by
  unfold abandonAt
  refine ensures_ask fun s₁ _ _ => ?_
  cases hcan : LeasePolicy.canAbandon (LeaseRepository.forTask taskId s₁) agentId now with
  | false =>
    rw [if_neg (by simp)]
    exact ensures_answer rfl rfl fun h => by cases h
  | true =>
    rw [if_pos rfl]
    refine ensures_ask fun s₂ _ h₂ => ?_
    cases htask : TaskRepository.get taskId s₂ with
    | none => exact ensures_answer rfl rfl fun h => by cases h
    | some task =>
      have hid : (withStatus task .pending none).row.id = taskId := (get_some htask).2
      show (saveTask _ >>= _).Ensures _ _ _ t s₂
      unfold saveTask
      rw [bind_assoc]
      refine ensures_flush (fun s₃ h₃ => ?_) fun c T ss a ss' hss hrun => ?_
      · refine ensures_guarded fun c T ss a ss' _ _ hss hrun => ?_
        obtain ⟨rfl, rfl⟩ := pure_ok.1 hrun
        exact deleted_write rfl rfl ((h₂.trans h₃).trans hss)
      · cases hsaved : (TaskRepository.save (withStatus task .pending none) ss.db).2 with
        | false => rw [hsaved] at hrun; cases hrun
        | true =>
          rw [hsaved] at hrun
          obtain ⟨rfl, rfl⟩ := pure_ok.1 hrun
          have hdb : Linearized (.abandon agentId taskId) ss.db
              (.abandoned true taskId (LeaseRepository.forTask taskId s₁))
              (released (withStatus task .pending none) ss.db) := released_write rfl rfl hid (h₂.trans hss)
          unfold released at hdb
          rw [hid] at hdb
          exact hdb

end ensures

/-! ## The other operations -/

section moves

variable {agentId : String} {taskId : ℤ} {leaseSeconds : ℤ}

theorem moves_flush {st : TaskStore → TaskStore × Bool} (h : ∀ s, KeepsLeases s (st s).1) :
    (flush st).Moves KeepsLeases := by
  intro s
  show (if decide (st s = (s, true)) = true then pure true else guarded st : TaskTx Bool).Moves KeepsLeases
  split
  · trivial
  · exact ⟨h, fun _ => trivial⟩

theorem moves_demand (b : Bool) (e : TaskError) : (demand b e : TaskTx Unit).Moves KeepsLeases := by
  cases b <;> trivial

theorem moves_demandSome {β : Type} (o : Option β) (e : TaskError) : (demandSome o e : TaskTx β).Moves KeepsLeases := by
  cases o <;> trivial

theorem moves_ensureDependenciesExist (deps : List ℤ) : (ensureDependenciesExist deps).Moves KeepsLeases :=
  fun _ => moves_demand _ _

theorem moves_createTask (newId : ℤ) (title description : String) (dependsOn : List ℤ) (priority : ℤ) :
    (createTask newId title description dependsOn priority).Moves KeepsLeases := by
  unfold createTask
  refine (moves_ensureDependenciesExist _).bind fun _ => ⟨fun s => ?_, fun b => ?_⟩
  · exact keepsLeases_of_forTask fun _ => forTask_create
  · exact (moves_demand _ _).bind fun _ s => (moves_demandSome _ _).bind fun _ => trivial

theorem keepsLeases_update (changes : TaskRepository.TaskChanges) (s : TaskStore) :
    KeepsLeases s (TaskRepository.update taskId changes s).1 := by
  refine keepsLeases_of_forTask fun id => ?_
  unfold TaskRepository.update
  split
  · rfl
  · rfl

theorem moves_updateTask (changes : TaskRepository.TaskChanges) : (updateTask taskId changes).Moves KeepsLeases := by
  have hrow : ∀ changes, (updateRow taskId changes).Moves KeepsLeases := by
    intro changes
    unfold updateRow
    split
    · exact ⟨fun s => keepsLeases_update changes s, fun _ => trivial⟩
    · exact moves_flush fun s => keepsLeases_update changes s
  have hlease : ∀ status, (deleteLease taskId status).Moves KeepsLeases := by
    intro status
    unfold deleteLease
    split
    · exact ⟨fun s => keepsLeases_delete taskId s, fun _ => trivial⟩
    · trivial
  unfold updateTask
  refine (moves_demand _ _).bind fun _ s => (moves_demand _ _).bind fun _ => ?_
  refine (moves_ensureDependenciesExist _).bind fun _ => (hrow _).bind fun _ => ?_
  refine (moves_demand _ _).bind fun _ => (hlease _).bind fun _ s => ?_
  exact (moves_demandSome _ _).bind fun _ => trivial

theorem moves_deleteTask : (deleteTask taskId).Moves KeepsLeases :=
  ⟨fun _ => keepsLeases_of_forTask fun _ => rfl, fun _ => ⟨fun s => keepsLeases_delete taskId s, fun _ => trivial⟩⟩

end moves

/-! ## Every interleaving -/

/-- What an operation relies on between its steps. -/
def TaskOperation.relies (operation : TaskOperation) : TaskStore → TaskStore → Prop :=
  match operation.target with
  | some taskId => SameLease taskId
  | none => fun _ _ => True

theorem TaskOperation.relies_refl (operation : TaskOperation) (s : TaskStore) : operation.relies s s := by
  unfold TaskOperation.relies
  cases operation.target with
  | none => trivial
  | some taskId => rfl

theorem TaskOperation.relies_trans {operation : TaskOperation} {x y z : TaskStore} (hxy : operation.relies x y)
    (hyz : operation.relies y z) : operation.relies x z := by
  unfold TaskOperation.relies at *
  cases htarget : operation.target with
  | none => trivial
  | some taskId =>
    rw [htarget] at hxy hyz
    exact SameLease.trans hxy hyz

/-- The operation has not read the lease yet. -/
def TaskOperation.Unread (leaseSeconds : ℤ) (operation : TaskOperation) (p : TaskTx TaskAnswer) : Prop :=
  p = operation.program leaseSeconds ∨ ∃ now,
    match operation with
    | .heartbeat agentId taskId => p = heartbeatAt leaseSeconds agentId taskId now
    | .complete agentId taskId notes => p = completeAt agentId taskId notes now
    | .abandon agentId taskId => p = abandonAt agentId taskId now
    | _ => False

/-- An operation whose only debt is about the leases. -/
theorem linearized_of_kept {operation : TaskOperation} {s s' : TaskStore} {answer : TaskAnswer}
    (htarget : operation.target = none) (hkept : operation.isCheckout = false → KeepsLeases s s') :
    Linearized operation s answer s' where
  current := fun taskId _ ht => by rw [htarget] at ht; cases ht
  foreign := fun taskId _ _ _ ht => by rw [htarget] at ht; cases ht
  others := fun taskId _ ht => by rw [htarget] at ht; cases ht
  kept := hkept

/-- **Every operation meets its obligations**, from before it has read the lease. -/
theorem program_ensures (leaseSeconds : ℤ) (operation : TaskOperation) (t : Time) (s : TaskStore) :
    (operation.program leaseSeconds).Ensures (fun _ => True) operation.relies (fun _ => Linearized operation) t s := by
  have hmoves : ∀ {p : TaskTx TaskAnswer}, operation.target = none → p.Moves KeepsLeases →
      p.Ensures (fun _ => True) operation.relies (fun _ => Linearized operation) t s := fun htarget hp =>
    hp.ensures KeepsLeases.refl KeepsLeases.trans (fun hkept => linearized_of_kept htarget fun _ => hkept) t s
  cases operation with
  | heartbeat agentId taskId => exact ensures_now fun _ _ => heartbeatAt_ensures
  | complete agentId taskId notes => exact ensures_now fun _ _ => completeAt_ensures
  | abandon agentId taskId => exact ensures_now fun _ _ => abandonAt_ensures
  | createTask newId title description dependsOn priority =>
    exact hmoves rfl (moves_createTask newId title description dependsOn priority)
  | updateTask taskId changes => exact hmoves rfl (moves_updateTask changes)
  | deleteTask taskId => exact hmoves rfl moves_deleteTask
  | checkout agentId wanted =>
    refine Moves.ensures (K := fun _ _ => True) (fun _ => trivial) (fun _ _ => trivial)
      (fun _ => linearized_of_kept rfl fun h => by cases h) ?_ t s
    exact moves_true _

theorem unread_ensures {leaseSeconds : ℤ} {operation : TaskOperation} {p : TaskTx TaskAnswer}
    (hp : operation.Unread leaseSeconds p) (t : Time) (s : TaskStore) :
    p.Ensures (fun _ => True) operation.relies (fun _ => Linearized operation) t s := by
  rcases hp with rfl | ⟨now, hp⟩
  · exact program_ensures leaseSeconds operation t s
  · cases operation with
    | heartbeat agentId taskId => rw [hp]; exact heartbeatAt_ensures
    | complete agentId taskId notes => rw [hp]; exact completeAt_ensures
    | abandon agentId taskId => rw [hp]; exact abandonAt_ensures
    | checkout agentId wanted => exact hp.elim
    | createTask newId title description dependsOn priority => exact hp.elim
    | updateTask taskId changes => exact hp.elim
    | deleteTask taskId => exact hp.elim

/-- What the operations of a run rely on. -/
def taskRelies {ι : Type} (leaseSeconds : ι → ℤ) (operations : ι → TaskOperation) :
    Machine.Relies ι TaskStore Time TaskError TaskAnswer where
  rel := fun i => (operations i).relies
  fresh := fun i => (operations i).Unread (leaseSeconds i)

/-- The operations at their first step. -/
def startTasks {ι : Type} (leaseSeconds : ι → ℤ) (operations : ι → TaskOperation) (ss : Session TaskStore)
    (now : Time) : Machine ι TaskStore Time TaskError TaskAnswer :=
  Machine.start ss now fun i => (operations i).program (leaseSeconds i)

/-- **Task leases are linearizable in every quiet interleaving**: one in which the lease of a task is not replaced
or deleted by a commit while another operation has read it and not yet written. -/
theorem leases_linearized {ι : Type} [DecidableEq ι] (leaseSeconds : ι → ℤ) (operations : ι → TaskOperation)
    (ss : Session TaskStore) (now : Time) (turns : List (Turn ι Time))
    (hquiet : Machine.Quiet .database (taskRelies leaseSeconds operations) (startTasks leaseSeconds operations ss now)
      turns) :
    ∀ c ∈ ((startTasks leaseSeconds operations ss now).runTurns .database turns).log,
      Linearized (operations c.index) c.before c.result c.after := by
  have hstart : (startTasks leaseSeconds operations ss now).Covered (taskRelies leaseSeconds operations)
      fun i _ => Linearized (operations i) :=
    Machine.Covered.start fun i => program_ensures (leaseSeconds i) (operations i) now ss.db
  refine (hstart.run ?_ ?_ ?_ hquiet).commits
  · exact fun i s => (operations i).relies_refl s
  · exact fun hxy hyz => TaskOperation.relies_trans hxy hyz
  · exact fun i p hp t s => unread_ensures hp t s

/-! ### Two operations of one agent -/

/-- A task that `ada` holds. -/
def heldTask : Session TaskStore :=
  ⟨⟨[⟨1, "build", "", 0, .inProgress, none⟩], [], [⟨0, 1, "ada", 300000000⟩], 1, ["ada"], ⟨false, none⟩⟩, []⟩

theorem heldTask_reached :
    heldTask.db = (runTasks [⟨0, 300, .createTask 1 "build" "" [] 0⟩, ⟨0, 300, .checkout "ada" none⟩]).db := by
  decide +kernel

/-- A heartbeat and a completion. -/
def heartbeatAndComplete : Bool → TaskOperation
  | true => .heartbeat "ada" 1
  | false => .complete "ada" 1 none

/-- The heartbeat, then the completion. -/
def inTurn : List (Turn Bool Time) := List.replicate 5 (.step true) ++ List.replicate 8 (.step false)

/-- The completion between the read and the write of the heartbeat. -/
def overlapping : List (Turn Bool Time) :=
  List.replicate 2 (.step true) ++ List.replicate 8 (.step false) ++ List.replicate 3 (.step true)

/-- A turn that commits nothing new is against nobody. -/
theorem quiet_unchanged {ι : Type} [DecidableEq ι] {leaseSeconds : ι → ℤ} {operations : ι → TaskOperation}
    {m : Machine ι TaskStore Time TaskError TaskAnswer} {u : Turn ι Time}
    (h : (m.turn .database u).session.db = m.session.db) :
    ∀ j p, m.tasks j = .reading p → ¬ (taskRelies leaseSeconds operations).fresh j p →
      (taskRelies leaseSeconds operations).rel j m.session.db (m.turn .database u).session.db := by
  intro j p _ _
  rw [h]
  exact (operations j).relies_refl _

theorem inTurn_quiet : Machine.Quiet .database (taskRelies (fun _ => 300) heartbeatAndComplete)
    (startTasks (fun _ => 300) heartbeatAndComplete heldTask 1) inTurn := by
  have hwriting : ∀ {r : Task TaskStore Time TaskError TaskAnswer} {p : TaskTx TaskAnswer} {q ss},
      r = .writing q ss → ¬ r = .reading p := by
    rintro r p q ss rfl h; cases h
  refine ⟨quiet_unchanged (by decide +kernel), quiet_unchanged (by decide +kernel),
    quiet_unchanged (by decide +kernel), quiet_unchanged (by decide +kernel), ?_, ?_⟩
  · -- the heartbeat commits, and the completion has read nothing
    intro j p hp hfresh
    cases j with
    | true => exact absurd hp (hwriting rfl)
    | false =>
      refine absurd (Or.inl ?_) hfresh
      exact (Task.reading.inj (hp.symm.trans rfl))
  · refine ⟨quiet_unchanged (by decide +kernel), quiet_unchanged (by decide +kernel),
      quiet_unchanged (by decide +kernel), quiet_unchanged (by decide +kernel), quiet_unchanged (by decide +kernel),
      quiet_unchanged (by decide +kernel), quiet_unchanged (by decide +kernel), ?_, trivial⟩
    -- the completion commits, and the heartbeat has ended
    intro j p hp hfresh
    cases j with
    | true => exact absurd hp (by intro h; cases h)
    | false => exact absurd hp (hwriting rfl)

/-- One after the other, both commit and owe nothing. -/
theorem leases_linearized_in_turn :
    ((startTasks (fun _ => 300) heartbeatAndComplete heldTask 1).runTurns .database inTurn).log.map
        (fun c => (c.index, c.before.leases, c.after.leases)) =
      [(false, [⟨0, 1, "ada", 300000001⟩], []), (true, [⟨0, 1, "ada", 300000000⟩], [⟨0, 1, "ada", 300000001⟩])] ∧
    ∀ c ∈ ((startTasks (fun _ => 300) heartbeatAndComplete heldTask 1).runTurns .database inTurn).log,
      Linearized (heartbeatAndComplete c.index) c.before c.result c.after := by
  refine ⟨by decide +kernel, leases_linearized (fun _ => 300) heartbeatAndComplete heldTask 1 inTurn inTurn_quiet⟩

/-- **A heartbeat brings back a lease that was deleted** between its read and its write. -/
theorem lease_recreated :
    heldTask.db = (runTasks [⟨0, 300, .createTask 1 "build" "" [] 0⟩, ⟨0, 300, .checkout "ada" none⟩]).db ∧
    ¬ ∀ c ∈ ((startTasks (fun _ => 300) heartbeatAndComplete heldTask 1).runTurns .database overlapping).log,
      Linearized (heartbeatAndComplete c.index) c.before c.result c.after := by
  refine ⟨heldTask_reached, ?_⟩
  have hlog : ((startTasks (fun _ => 300) heartbeatAndComplete heldTask 1).runTurns .database overlapping).log.map
        (fun c => (c.index, c.before.leases, c.after.leases)) =
      [(true, [], [⟨1, 1, "ada", 300000001⟩]), (false, [⟨0, 1, "ada", 300000000⟩], [])] := by decide +kernel
  intro h
  have hmem : (true, [], [⟨1, 1, "ada", 300000001⟩]) ∈
      ((startTasks (fun _ => 300) heartbeatAndComplete heldTask 1).runTurns .database overlapping).log.map
        (fun c => (c.index, c.before.leases, c.after.leases)) := by
    rw [hlog]; exact List.mem_cons_self
  obtain ⟨c, hc, heq⟩ := List.mem_map.1 hmem
  obtain ⟨hindex, hleases⟩ := Prod.mk.inj heq
  obtain ⟨hbefore, hafter⟩ := Prod.mk.inj hleases
  have hkept := (h c hc).kept (by rw [hindex]; rfl) 1
  unfold currentLease LeaseRepository.forTask at hkept
  rw [hbefore, hafter] at hkept
  simp at hkept

end Switchboard
