import Switchboard.Lib.Binary64
import Switchboard.Spec.Tasks

/-!
# Task analytics

`SqlAlchemyTaskRepository.analytics`: one pass over the tasks, with a dictionary of all statuses and the sorted
dependencies of each task.

* `DependencyTally`: the loop over the dependencies of a pending task.
* `analytics`: the counters.
-/

namespace Switchboard

namespace TaskRepository

/-- `TaskAnalytics`. -/
structure TaskAnalytics where
  totalTasks : ℕ := 0
  pendingTasks : ℕ := 0
  inProgressTasks : ℕ := 0
  completedTasks : ℕ := 0
  readyTasks : ℕ := 0
  blockedTasks : ℕ := 0
  withDependencies : ℕ := 0
  withoutDependencies : ℕ := 0
  dependencyEdges : ℕ := 0
  missingDependencyTasks : ℕ := 0
  missingDependencyEdges : ℕ := 0
  averageDependencies : Binary64 := .finite 0
  deriving DecidableEq

/-- The dictionary of statuses; ids are unique. -/
def statusLookup (tasks : List TaskRow) (taskId : ℤ) : Option TaskStatus :=
  (tasks.find? fun t => t.id == taskId).map TaskRow.status

/-- The variables of the loop over the dependencies of one task. -/
structure DependencyTally where
  missingEdges : ℕ := 0
  dependencyMissing : Bool := false
  allCompleted : Bool := true
  deriving DecidableEq

/-- One dependency. -/
def DependencyTally.count (tasks : List TaskRow) (a : DependencyTally) (dependency : ℤ) : DependencyTally :=
  match statusLookup tasks dependency with
  | none => ⟨a.missingEdges + 1, true, false⟩
  | some status => if status = .completed then a else { a with allCompleted := false }

/-- One task of the loop of `analytics`. -/
def TaskAnalytics.count (s : TaskStore) (a : TaskAnalytics) (task : TaskRow) : TaskAnalytics :=
  let dependencies := dependenciesOf task.id s
  let a :=
    if dependencies = [] then a
    else
      { a with
        withDependencies := a.withDependencies + 1
        dependencyEdges := a.dependencyEdges + dependencies.length }
  if statusLookup s.tasks task.id ≠ some .pending then a
  else if dependencies = [] then { a with readyTasks := a.readyTasks + 1 }
  else
    let tally := dependencies.foldl (DependencyTally.count s.tasks) {}
    let a :=
      { a with
        missingDependencyEdges := a.missingDependencyEdges + tally.missingEdges
        missingDependencyTasks := a.missingDependencyTasks + if tally.dependencyMissing then 1 else 0 }
    if tally.allCompleted then { a with readyTasks := a.readyTasks + 1 }
    else { a with blockedTasks := a.blockedTasks + 1 }

/-- `analytics`. -/
def analytics (s : TaskStore) : TaskAnalytics :=
  if s.tasks = [] then {}
  else
    let counted := s.tasks.foldl (TaskAnalytics.count s) {}
    let statusCounter := fun status => s.tasks.countP fun t => t.status == status
    { counted with
      totalTasks := s.tasks.length
      pendingTasks := statusCounter .pending
      inProgressTasks := statusCounter .inProgress
      completedTasks := statusCounter .completed
      withoutDependencies := s.tasks.length - counted.withDependencies
      averageDependencies := .ofRat ((counted.dependencyEdges : ℚ) / s.tasks.length) }

end TaskRepository

end Switchboard
