import Mathlib.Data.Int.Notation
import Mathlib.Data.List.Basic

/-!
# States, policies and transition tables

The enumerations of the execution plane (`enums.py`) and its two declarative
transition tables (`transitions.py`).
-/

namespace Switchboard

/-- Lifecycle states of a work order. -/
inductive WorkOrderStatus
  | pendingApproval | approved | queued | assigned | running
  | succeeded | failed | timedOut | cancelled | rejected | expired
  deriving DecidableEq, Repr

/-- Lifecycle states of one execution attempt. -/
inductive ExecutionRunStatus
  | queued | assigned | running | succeeded | failed | timedOut | cancelled
  deriving DecidableEq, Repr

inductive WorkerStatus
  | online | busy | draining | offline
  deriving DecidableEq, Repr

inductive ApprovalPolicy
  | explicit
  deriving DecidableEq, Repr

inductive NetworkPolicy
  | disabled | workerRestricted
  deriving DecidableEq, Repr

inductive RepositoryWritePolicy
  | readOnly
  deriving DecidableEq, Repr

inductive ReusePolicy
  | never | allowExact | requireExact
  deriving DecidableEq, Repr

/-- The server-owned reuse decision of a run. -/
inductive ReuseDecision
  | notRequested | pending | candidateAvailable | fresh | reused | unavailable
  deriving DecidableEq, Repr

inductive RoutingPolicy
  | firstAvailable | cheapestCapable
  deriving DecidableEq, Repr

/-- Lifecycle of the quota reserved for one run. -/
inductive QuotaReservationState
  | notRequired | reserved | consumed | released
  deriving DecidableEq, Repr

/-- `TerminalStatus` of the evidence contract. -/
inductive TerminalStatus
  | succeeded | failed | timedOut | cancelled
  deriving DecidableEq, Repr

/-- The decision literals that reuse provenance may carry. -/
inductive ProvenanceDecision
  | fresh | reused | unavailable
  deriving DecidableEq, Repr

/-! ## Enumeration values -/

def WorkOrderStatus.value : WorkOrderStatus → String
  | .pendingApproval => "pending_approval"
  | .approved => "approved"
  | .queued => "queued"
  | .assigned => "assigned"
  | .running => "running"
  | .succeeded => "succeeded"
  | .failed => "failed"
  | .timedOut => "timed_out"
  | .cancelled => "cancelled"
  | .rejected => "rejected"
  | .expired => "expired"

def WorkerStatus.value : WorkerStatus → String
  | .online => "online"
  | .busy => "busy"
  | .draining => "draining"
  | .offline => "offline"

def ApprovalPolicy.value : ApprovalPolicy → String
  | .explicit => "explicit"

def NetworkPolicy.value : NetworkPolicy → String
  | .disabled => "disabled"
  | .workerRestricted => "worker_restricted"

def ReusePolicy.value : ReusePolicy → String
  | .never => "never"
  | .allowExact => "allow_exact"
  | .requireExact => "require_exact"

def RoutingPolicy.value : RoutingPolicy → String
  | .firstAvailable => "first_available"
  | .cheapestCapable => "cheapest_capable"

def ExecutionRunStatus.value : ExecutionRunStatus → String
  | .queued => "queued"
  | .assigned => "assigned"
  | .running => "running"
  | .succeeded => "succeeded"
  | .failed => "failed"
  | .timedOut => "timed_out"
  | .cancelled => "cancelled"

def ReuseDecision.value : ReuseDecision → String
  | .notRequested => "not_requested"
  | .pending => "pending"
  | .candidateAvailable => "candidate_available"
  | .fresh => "fresh"
  | .reused => "reused"
  | .unavailable => "unavailable"

/-- `WorkOrderStatus(status.value)`. -/
def ExecutionRunStatus.toWorkOrder : ExecutionRunStatus → WorkOrderStatus
  | .queued => .queued
  | .assigned => .assigned
  | .running => .running
  | .succeeded => .succeeded
  | .failed => .failed
  | .timedOut => .timedOut
  | .cancelled => .cancelled

/-- The run status whose value is the evidence literal. -/
def TerminalStatus.toRun : TerminalStatus → ExecutionRunStatus
  | .succeeded => .succeeded
  | .failed => .failed
  | .timedOut => .timedOut
  | .cancelled => .cancelled

/-- The reuse decision whose value is the provenance literal. -/
def ProvenanceDecision.toDecision : ProvenanceDecision → ReuseDecision
  | .fresh => .fresh
  | .reused => .reused
  | .unavailable => .unavailable

/-! ## Terminal and active states -/

/-- `is_terminal_work_order`. -/
def WorkOrderStatus.isTerminal : WorkOrderStatus → Bool
  | .succeeded | .failed | .timedOut | .cancelled | .rejected | .expired => true
  | _ => false

/-- `is_terminal_run`. -/
def ExecutionRunStatus.isTerminal : ExecutionRunStatus → Bool
  | .succeeded | .failed | .timedOut | .cancelled => true
  | _ => false

/-- The order states the guarded statements treat as leased. -/
def WorkOrderStatus.isActive : WorkOrderStatus → Bool
  | .assigned | .running => true
  | _ => false

/-- The run states the guarded statements treat as leased. -/
def ExecutionRunStatus.isActive : ExecutionRunStatus → Bool
  | .assigned | .running => true
  | _ => false

theorem ExecutionRunStatus.toWorkOrder_isActive (s : ExecutionRunStatus) :
    s.toWorkOrder.isActive = s.isActive := by cases s <;> rfl

theorem ExecutionRunStatus.toWorkOrder_isTerminal (s : ExecutionRunStatus) :
    s.toWorkOrder.isTerminal = s.isTerminal := by cases s <;> rfl

theorem ExecutionRunStatus.toWorkOrder_inj {s t : ExecutionRunStatus} (h : s.toWorkOrder = t.toWorkOrder) :
    s = t := by cases s <;> cases t <;> simp_all [toWorkOrder]

theorem ExecutionRunStatus.not_active_of_terminal {s : ExecutionRunStatus} (h : s.isTerminal = true) :
    s.isActive = false := by cases s <;> simp_all [isTerminal, isActive]

theorem WorkOrderStatus.not_active_of_terminal {s : WorkOrderStatus} (h : s.isTerminal = true) :
    s.isActive = false := by cases s <;> simp_all [isTerminal, isActive]

/-! ## Transition tables -/

/-- `WORK_ORDER_TRANSITIONS`. -/
def workOrderTransitions : WorkOrderStatus → List WorkOrderStatus
  | .pendingApproval => [.approved, .queued, .rejected, .cancelled]
  | .approved => [.queued, .cancelled, .expired]
  | .queued => [.assigned, .cancelled, .expired]
  | .assigned => [.running, .queued, .succeeded, .failed, .timedOut, .cancelled]
  | .running => [.succeeded, .failed, .timedOut, .cancelled, .queued]
  | .succeeded | .failed | .timedOut | .cancelled | .rejected | .expired => []

/-- `RUN_TRANSITIONS`. -/
def runTransitions : ExecutionRunStatus → List ExecutionRunStatus
  | .queued => [.assigned]
  | .assigned => [.running, .succeeded, .failed, .timedOut, .cancelled]
  | .running => [.succeeded, .failed, .timedOut, .cancelled]
  | .succeeded | .failed | .timedOut | .cancelled => []

def allowsWorkOrderTransition (current target : WorkOrderStatus) : Bool :=
  target ∈ workOrderTransitions current

def allowsRunTransition (current target : ExecutionRunStatus) : Bool :=
  target ∈ runTransitions current

end Switchboard
