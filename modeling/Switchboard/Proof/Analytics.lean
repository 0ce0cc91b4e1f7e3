import Switchboard.Proof.TaskCheckout
import Switchboard.Spec.Analytics

/-!
# What ready means

Three places ask whether the dependencies of a task are completed: the snapshot of an untargeted checkout, the
query of a targeted one, and the counters of the analytics. The first two are about the dependencies that
exist; the analytics take a missing one for not completed.

* `checkoutReady_targeted`: the first two always agree.
* `analytics_ready`, `analytics_blocked`: what the counters count.
* `readinessAgrees_iff`: the counter agrees with a checkout exactly when no pending task waits for missing
  dependencies alone.
-/

namespace Switchboard

open Table Transaction Tasks TaskRepository

variable {s : TaskStore} {t : TaskRow}

/-- The statuses that the loop of a checkout has read. -/
def snapshot (s : TaskStore) : List (ℤ × TaskStatus) := (listCandidates none s).map fun r => (r.row.id, r.row.status)

/-- `deps_completed` of a checkout, for all tasks (`none`) or for one. -/
def checkoutReady (wanted : Option ℤ) (s : TaskStore) (t : TaskRow) : Bool :=
  completedFor wanted (snapshot s) s (toRecord s t)

/-- A task is ready for the analytics: each dependency is there and completed. -/
def countedReady (s : TaskStore) (t : TaskRow) : Bool :=
  (dependenciesOf t.id s).all fun d => statusLookup s.tasks d == some .completed

/-! ## The evaluators of a checkout -/

theorem checkoutReady_query (wanted : ℤ) : checkoutReady (some wanted) s t = dependenciesCompleted t.id s := rfl

/-- **Both evaluators of a checkout give the same answer.** -/
theorem checkoutReady_targeted (hids : (s.tasks.map TaskRow.id).Nodup) (wanted : ℤ) :
    checkoutReady none s t = checkoutReady (some wanted) s t := by
  rw [checkoutReady_query, Bool.eq_iff_iff, dependenciesCompleted_iff]
  exact completedFor_iff hids

theorem checkoutReady_iff (hids : (s.tasks.map TaskRow.id).Nodup) (wanted : Option ℤ) :
    checkoutReady wanted s t = true ↔ ∀ d ∈ s.tasks, (t.id, d.id) ∈ s.dependencies → d.status = .completed := by
  cases wanted with
  | none => exact completedFor_iff hids
  | some wanted => exact dependenciesCompleted_iff

/-! ## The counters -/

theorem statusLookup_mem (hids : (s.tasks.map TaskRow.id).Nodup) (ht : t ∈ s.tasks) :
    statusLookup s.tasks t.id = some t.status := by
  unfold statusLookup
  rw [find?_column hids ht]
  rfl

theorem statusLookup_some {tasks : List TaskRow} {d : ℤ} {status : TaskStatus}
    (h : statusLookup tasks d = some status) : ∃ u ∈ tasks, u.id = d ∧ u.status = status := by
  obtain ⟨u, hu, hstatus⟩ := Option.map_eq_some_iff.1 h
  exact ⟨u, List.mem_of_find?_eq_some hu, by simpa using List.find?_some hu, hstatus⟩

theorem tally_allCompleted (tasks : List TaskRow) (dependencies : List ℤ) (a : DependencyTally) :
    (dependencies.foldl (DependencyTally.count tasks) a).allCompleted =
      (a.allCompleted && dependencies.all fun d => statusLookup tasks d == some .completed) := by
  induction dependencies generalizing a with
  | nil => simp
  | cons d dependencies ih =>
    rw [List.foldl_cons, ih, List.all_cons]
    unfold DependencyTally.count
    cases hd : statusLookup tasks d with
    | none => simp
    | some status =>
      by_cases hs : status = .completed
      · simp [hs]
      · simp [hs]

/-- What one task adds to the counters of ready and blocked tasks. -/
theorem count_ready (a : TaskAnalytics) (h : statusLookup s.tasks t.id = some t.status) :
    (a.count s t).readyTasks = a.readyTasks + (if t.status == .pending && countedReady s t then 1 else 0) ∧
      (a.count s t).blockedTasks = a.blockedTasks + (if t.status == .pending && !countedReady s t then 1 else 0) := by
  unfold TaskAnalytics.count countedReady
  rw [h]
  by_cases hp : t.status = .pending
  · by_cases hd : dependenciesOf t.id s = []
    · simp [hp, hd]
    · have htally := tally_allCompleted s.tasks (dependenciesOf t.id s) {}
      rw [Bool.true_and] at htally
      simp only [hd, if_false, hp, ne_eq, not_true_eq_false, beq_self_eq_true, Bool.true_and, ← htally]
      cases ((dependenciesOf t.id s).foldl (DependencyTally.count s.tasks) {}).allCompleted <;> simp
  · by_cases hd : dependenciesOf t.id s = [] <;> simp [hp, hd]

theorem foldl_ready (tasks : List TaskRow) (a : TaskAnalytics)
    (h : ∀ t ∈ tasks, statusLookup s.tasks t.id = some t.status) :
    (tasks.foldl (TaskAnalytics.count s) a).readyTasks =
        a.readyTasks + tasks.countP (fun t => t.status == .pending && countedReady s t) ∧
      (tasks.foldl (TaskAnalytics.count s) a).blockedTasks =
        a.blockedTasks + tasks.countP (fun t => t.status == .pending && !countedReady s t) := by
  induction tasks generalizing a with
  | nil => exact ⟨rfl, rfl⟩
  | cons t tasks ih =>
    obtain ⟨hready, hblocked⟩ := count_ready a (h t List.mem_cons_self)
    obtain ⟨ihready, ihblocked⟩ := ih (a.count s t) fun u hu => h u (List.mem_cons_of_mem _ hu)
    rw [List.foldl_cons, List.countP_cons, List.countP_cons]
    omega

theorem analytics_ready (hids : (s.tasks.map TaskRow.id).Nodup) :
    (analytics s).readyTasks = s.tasks.countP fun t => t.status == .pending && countedReady s t := by
  unfold analytics
  split
  · rename_i hempty
    rw [hempty]
    rfl
  · have hcount := (foldl_ready s.tasks {} fun t ht => statusLookup_mem hids ht).1
    exact hcount.trans (Nat.zero_add _)

theorem analytics_blocked (hids : (s.tasks.map TaskRow.id).Nodup) :
    (analytics s).blockedTasks = s.tasks.countP fun t => t.status == .pending && !countedReady s t := by
  unfold analytics
  split
  · rename_i hempty
    rw [hempty]
    rfl
  · have hcount := (foldl_ready s.tasks {} fun t ht => statusLookup_mem hids ht).2
    exact hcount.trans (Nat.zero_add _)

theorem analytics_pending (s : TaskStore) :
    (analytics s).pendingTasks = s.tasks.countP fun t => t.status == .pending := by
  unfold analytics
  split
  · rename_i hempty
    rw [hempty]
    rfl
  · rfl

theorem countP_split {α : Type} (p q : α → Bool) (l : List α) :
    l.countP p = l.countP (fun x => p x && q x) + l.countP fun x => p x && !q x := by
  induction l with
  | nil => rfl
  | cons x l ih =>
    simp only [List.countP_cons]
    cases p x <;> cases q x <;> simp <;> omega

/-! ## Agreement -/

/-- **Readiness means the same everywhere**: the counter of ready tasks is the number of pending tasks for which a
checkout finds the dependencies completed, with either evaluator; the evaluators agree on every task; and a
pending task is ready or blocked. -/
structure ReadinessAgrees (s : TaskStore) : Prop where
  counted : ∀ wanted, (analytics s).readyTasks = s.tasks.countP fun t => t.status == .pending && checkoutReady wanted s t
  evaluators : ∀ t ∈ s.tasks, checkoutReady none s t = checkoutReady (some t.id) s t
  partitioned : (analytics s).readyTasks + (analytics s).blockedTasks = (analytics s).pendingTasks

/-- A pending task has a dependency without a row, and all with a row are completed. -/
structure WaitsForMissing (s : TaskStore) (t : TaskRow) : Prop where
  pending : t.status = .pending
  missing : ∃ d, (t.id, d) ∈ s.dependencies ∧ d ∉ s.tasks.map TaskRow.id
  others : ∀ u ∈ s.tasks, (t.id, u.id) ∈ s.dependencies → u.status = .completed

theorem countedReady_iff (hids : (s.tasks.map TaskRow.id).Nodup) :
    countedReady s t = true ↔ checkoutReady none s t = true ∧ ∀ d, (t.id, d) ∈ s.dependencies → d ∈ s.tasks.map TaskRow.id := by
  rw [checkoutReady_iff hids]
  unfold countedReady
  simp only [List.all_eq_true, beq_iff_eq]
  constructor
  · intro h
    refine ⟨fun u hu hedge => ?_, fun d hedge => ?_⟩
    · have hstatus := h u.id (mem_dependenciesOf.2 hedge)
      rw [statusLookup_mem hids hu] at hstatus
      exact Option.some.inj hstatus
    · obtain ⟨u, hu, rfl, -⟩ := statusLookup_some (h d (mem_dependenciesOf.2 hedge))
      exact List.mem_map_of_mem hu
  · rintro ⟨hcompleted, hpresent⟩ d hd
    have hedge := mem_dependenciesOf.1 hd
    obtain ⟨u, hu, rfl⟩ := List.mem_map.1 (hpresent d hedge)
    rw [statusLookup_mem hids hu, hcompleted u hu hedge]

/-- **The three notions agree exactly when no pending task waits for missing dependencies alone.** -/
theorem readinessAgrees_iff (hids : (s.tasks.map TaskRow.id).Nodup) :
    ReadinessAgrees s ↔ ∀ t ∈ s.tasks, ¬ WaitsForMissing s t := by
  have hsame : ∀ wanted, (fun t : TaskRow => t.status == .pending && checkoutReady wanted s t) =
      fun t => t.status == .pending && checkoutReady none s t := by
    intro wanted
    cases wanted with
    | none => rfl
    | some id =>
      funext t
      rw [checkoutReady_targeted hids id]
  -- of the tasks that a checkout takes for ready, the analytics do not count those that wait
  have hsplit := countP_split (fun t : TaskRow => t.status == .pending && checkoutReady none s t) (countedReady s) s.tasks
  have hready : s.tasks.countP (fun t => t.status == .pending && checkoutReady none s t && countedReady s t) =
      (analytics s).readyTasks := by
    rw [analytics_ready hids]
    refine List.countP_congr fun t _ => ?_
    simp only [Bool.and_eq_true]
    exact ⟨fun h => ⟨h.1.1, h.2⟩, fun h => ⟨⟨h.1, ((countedReady_iff hids).1 h.2).1⟩, h.2⟩⟩
  have hwaits : ∀ t, (t.status == .pending && checkoutReady none s t && !countedReady s t) = true ↔
      WaitsForMissing s t := by
    intro t
    rw [Bool.and_eq_true, Bool.and_eq_true, beq_iff_eq, Bool.not_eq_true', ← Bool.not_eq_true, countedReady_iff hids,
      checkoutReady_iff hids]
    constructor
    · rintro ⟨⟨hp, hothers⟩, hnot⟩
      have hmissing : ¬ ∀ d, (t.id, d) ∈ s.dependencies → d ∈ s.tasks.map TaskRow.id := fun h => hnot ⟨hothers, h⟩
      push Not at hmissing
      exact ⟨hp, hmissing, hothers⟩
    · rintro ⟨hp, ⟨d, hedge, hnone⟩, hothers⟩
      exact ⟨⟨hp, hothers⟩, fun h => hnone (h.2 d hedge)⟩
  rw [hready] at hsplit
  constructor
  · intro h t ht hwait
    have hcounted := h.counted none
    have hpos : 0 < s.tasks.countP fun t => t.status == .pending && checkoutReady none s t && !countedReady s t :=
      List.countP_pos_iff.2 ⟨t, ht, (hwaits t).2 hwait⟩
    omega
  · intro h
    have hzero : s.tasks.countP (fun t => t.status == .pending && checkoutReady none s t && !countedReady s t) = 0 :=
      List.countP_eq_zero.2 fun t ht hb => h t ht ((hwaits t).1 hb)
    refine ⟨fun wanted => ?_, fun t _ => checkoutReady_targeted hids t.id, ?_⟩
    · rw [hsame wanted]
      omega
    · rw [analytics_ready hids, analytics_blocked hids, analytics_pending]
      exact (countP_split _ _ _).symm

/-! ## A dangling dependency -/

def parentRow : TaskRow := ⟨1, "Parent", "", 0, .completed, none⟩

def childRow : TaskRow := ⟨2, "Child", "", 0, .pending, none⟩

/-- The child depends on the parent and on these. -/
def driftedStore (missing : List ℤ) : TaskStore :=
  { TaskStore.init with tasks := [parentRow, childRow], dependencies := (2, 1) :: missing.map fun d => (2, d) }

theorem parent_agrees : ReadinessAgrees (driftedStore []) := by
  refine (readinessAgrees_iff (by decide)).2 ?_
  rintro t - ⟨-, ⟨d, hedge, hnone⟩, -⟩
  obtain ⟨-, rfl⟩ : t.id = 2 ∧ d = 1 := by simpa [driftedStore] using hedge
  exact hnone (by decide)

/-- The analytics count the child as blocked, and a checkout gives it out. -/
theorem dangling_disagrees : ¬ ReadinessAgrees (driftedStore [9999]) := by
  intro h
  have hids : ((driftedStore [9999]).tasks.map TaskRow.id).Nodup := by decide
  have hready : checkoutReady none (driftedStore [9999]) childRow = true := by
    rw [checkoutReady_iff hids]
    decide
  have hnot : countedReady (driftedStore [9999]) childRow = false := by
    rw [← Bool.not_eq_true, countedReady_iff hids]
    rintro ⟨-, hpresent⟩
    exact absurd (hpresent 9999 (by decide)) (by decide)
  have hcounted := (analytics_ready hids).symm.trans (h.counted none)
  simp only [driftedStore, List.countP_cons, List.countP_nil] at hcounted hready hnot
  rw [hready, hnot] at hcounted
  revert hcounted
  decide

end Switchboard
