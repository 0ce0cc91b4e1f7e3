import Switchboard.Proof.Coherence

/-!
# Transitions and frozen records

* `Allowed.frozen`, `Grows.frozen`: a terminal order or run stays as it is, over one
  statement and over any number of them.
* `Effect.frozen`: so it does over one block.
* `runCalls_transitions`: along every run, statement by statement, each change of a
  status is one of the transition tables, and no later call touches a terminal record.
-/

namespace Switchboard

open Table Transaction

variable {P : Platform} {scope : Scope} {ss ss' : Session Database} {s s' : Database} {now : Time}

/-- Terminal orders and terminal runs are still there, unchanged. -/
structure Frozen (s s' : Database) : Prop where
  orders : RowsMove (fun o o' : WorkOrder => o.status.isTerminal = true → o' = o) s.orders s'.orders
  runs : RowsMove (fun r r' : ExecutionRun => r.status.isTerminal = true → r' = r) s.runs s'.runs

theorem Frozen.refl (hk : Keys s) : Frozen s s :=
  ⟨RowsMove.refl hk.orders.unique fun _ _ => rfl, RowsMove.refl hk.runs.unique fun _ _ => rfl⟩

theorem Frozen.trans {s₁ s₂ s₃ : Database} (h : Frozen s₁ s₂) (h' : Frozen s₂ s₃) : Frozen s₁ s₃ := by
  refine ⟨h.orders.trans ?_ h'.orders, h.runs.trans ?_ h'.runs⟩
  · intro x y z hxy hyz ht
    have hy : y = x := hxy ht
    rw [hyz (hy ▸ ht), hy]
  · intro x y z hxy hyz ht
    have hy : y = x := hxy ht
    rw [hyz (hy ▸ ht), hy]

theorem Allowed.frozen (h : Allowed s s') : Frozen s s' :=
  ⟨⟨h.orders.kept, fun x hx x' hx' he => (h.orders.moves x hx x' hx' he).2⟩,
    ⟨h.runs.kept, fun x hx x' hx' he => (h.runs.moves x hx x' hx' he).2⟩⟩

/-- What was terminal at some point of a session is so ever after. -/
theorem Grows.frozen (h : Grows Allowed ss ss') (hk : Keys ss.db) : Frozen ss.db ss'.db := by
  induction h with
  | refl => exact Frozen.refl hk
  | push _ hd ih => exact ih.trans hd.frozen

theorem Frozen.order_mem (h : Frozen s s') {o : WorkOrder} (ho : o ∈ s.orders) (ht : o.status.isTerminal = true) :
    o ∈ s'.orders := by
  obtain ⟨o', ho', hid⟩ := h.orders.kept o ho
  rw [← h.orders.moves o ho o' ho' hid ht]
  exact ho'

theorem Frozen.run_mem (h : Frozen s s') {r : ExecutionRun} (hr : r ∈ s.runs) (ht : r.status.isTerminal = true) :
    r ∈ s'.runs := by
  obtain ⟨r', hr', hid⟩ := h.runs.kept r hr
  rw [← h.runs.moves r hr r' hr' hid ht]
  exact hr'

/-- A keyed write of a row that was not terminal. -/
theorem frozen_putOrder (hk : Keys s) {o o' : WorkOrder} (ho : o ∈ s.orders) (hid : o'.id = o.id)
    (ht : o.status.isTerminal = false) :
    RowsMove (fun o o' : WorkOrder => o.status.isTerminal = true → o' = o) s.orders (put o' s.orders) :=
  RowsMove.put hk.orders.unique (fun _ _ => rfl) ho hid.symm fun h => by rw [ht] at h; cases h

theorem frozen_putRun (hk : Keys s) {r r' : ExecutionRun} (hr : r ∈ s.runs) (hid : r'.id = r.id)
    (hact : r.status.isActive = true) :
    RowsMove (fun r r' : ExecutionRun => r.status.isTerminal = true → r' = r) s.runs (put r' s.runs) := by
  refine RowsMove.put hk.runs.unique (fun _ _ => rfl) hr hid.symm fun h => ?_
  rw [ExecutionRunStatus.not_active_of_terminal h] at hact
  cases hact

theorem WorkOrderStatus.not_terminal_of_active {st : WorkOrderStatus} (h : st.isActive = true) :
    st.isTerminal = false := by
  cases st <;> simp_all [WorkOrderStatus.isActive, WorkOrderStatus.isTerminal]

theorem UnleasedMove.not_terminal {o o' : WorkOrder} (h : UnleasedMove o o') : o.status.isTerminal = false := by
  have hallowed := h.allowed
  unfold allowsWorkOrderTransition at hallowed
  revert hallowed
  cases o.status <;> simp [WorkOrderStatus.isTerminal, workOrderTransitions]

/-- **No effect touches a terminal record.** -/
theorem Effect.frozen (he : Effect P scope now s s') (hk : Keys s) : Frozen s s' := by
  have hsame := Frozen.refl hk
  cases he with
  | idle => exact hsame
  | manifest | insertWorker | updateWorker | insertProfile | rewriteProfile => exact ⟨hsame.orders, hsame.runs⟩
  | createOrder o hid =>
    refine ⟨RowsMove.append hk.orders.unique (fun _ _ => rfl) fun x hx => ?_, hsame.runs⟩
    rw [key_order o, hid]
    exact Nat.ne_of_lt (lt_nextId hx)
  | moveOrder o o' ho hm => exact ⟨frozen_putOrder hk ho hm.id hm.not_terminal, hsame.runs⟩
  | claim w o q count pin expiresAt profiles hcl =>
    refine ⟨frozen_putOrder hk hcl.order rfl (by rw [hcl.queued]; rfl), ?_⟩
    exact RowsMove.append hk.runs.unique (fun _ _ => rfl) fun x hx => Nat.ne_of_lt (lt_nextId hx)
  | heartbeat l r o expiresAt hb =>
    exact ⟨frozen_putOrder hk hb.order (settledOrder_id _ _ _) (WorkOrderStatus.not_terminal_of_active hb.orderActive),
      frozen_putRun hk hb.run (settledRun_id _ _) hb.runActive⟩
  | close outcome l r o w profiles hcl =>
    refine ⟨frozen_putOrder hk hcl.order ?_ (WorkOrderStatus.not_terminal_of_active hcl.orderActive),
      frozen_putRun hk hcl.run ?_ hcl.runActive⟩
    · rw [outcome_order_id, settledOrder_id]
    · rw [outcome_run_id, settledRun_id]
  | resolve l r o identity selected hr =>
    exact ⟨hsame.orders, frozen_putRun hk hr.run rfl hr.runActive⟩

/-- **Every change of a status is one of the transition tables, and terminal records are frozen.**
Consecutive states of a run, one per executed statement, are related by `Allowed`; and whatever
calls follow, the row of a terminal order or run stays the same in all its columns. -/
theorem runCalls_transitions (P : Platform) (calls : List Call) :
    Linked Allowed (runCalls P calls) ∧
      ∀ later, Frozen (runCalls P calls).db (runCalls P (calls ++ later)).db := by
  constructor
  · obtain ⟨_, hs, -⟩ := runCalls_steps P calls
    exact hs.trail.linked (List.isChain_singleton _)
  · intro later
    obtain ⟨_, hs, -⟩ := foldl_steps (P := P) (runCalls P calls) (runCalls_keys P calls) later
    have h := Grows.frozen hs.trail (runCalls_keys P calls)
    unfold runCalls at h ⊢
    rw [List.foldl_append]
    exact h

end Switchboard
