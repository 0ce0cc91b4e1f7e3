import Switchboard.Spec.Operator
import Switchboard.Proof.Quota

/-!
# Reservations

* `Effect.quotaMoves`: an effect that is not an operator's edit moves a reservation out
  of `RESERVED` at most once and keeps the balance of every profile.
* `PendingOK`: while an operator's edit is in flight, the revision it read stays a
  certificate that its worker is idle.
* `runEvents_quota`: balances and reservations along every run, with operator edits in
  flight.
-/

namespace Switchboard

open Table Transaction

variable {P : Platform} {scope : Scope} {s s' : Database} {now : Time}

/-! ## Reservations leave once -/

/-- A run's reservation before and after: a reservation is consumed or released, and then stays so. -/
def ReservationMoves (r r' : ExecutionRun) : Prop :=
  r'.workerId = r.workerId ∧ r'.route.reservedQuotaUnits = r.route.reservedQuotaUnits ∧
    (r'.route.quotaState = r.route.quotaState ∨ (r.route.quotaState = .reserved ∧
      (r'.route.quotaState = .consumed ∨ r'.route.quotaState = .released)))

theorem ReservationMoves.refl (r : ExecutionRun) : ReservationMoves r r := ⟨rfl, rfl, Or.inl rfl⟩

theorem ReservationMoves.trans {r₁ r₂ r₃ : ExecutionRun} (h : ReservationMoves r₁ r₂) (h' : ReservationMoves r₂ r₃) :
    ReservationMoves r₁ r₃ := by
  obtain ⟨hw, hu, hs⟩ := h
  obtain ⟨hw', hu', hs'⟩ := h'
  refine ⟨hw'.trans hw, hu'.trans hu, ?_⟩
  rcases hs' with hs' | ⟨hq, hs'⟩
  · rw [hs']; exact hs
  · -- a reservation of the middle state was one from the start
    rcases hs with hs | ⟨-, hs⟩
    · exact Or.inr ⟨hs ▸ hq, hs'⟩
    · rw [hq] at hs; rcases hs with hs | hs <;> cases hs

/-- No reservation is lost or made twice: what leaves `RESERVED` is consumed or comes back, and the
units of every profile, remaining, reserved or consumed, stay the same in sum. -/
structure QuotaMoves (s s' : Database) : Prop where
  runs : RowsMove ReservationMoves s.runs s'.runs
  profiles : RowsMove (fun p p' => p'.quotaCapacityUnits = p.quotaCapacityUnits ∧ balance s' p' = balance s p)
    s.profiles s'.profiles

theorem QuotaMoves.trans {s₁ s₂ s₃ : Database} (h : QuotaMoves s₁ s₂) (h' : QuotaMoves s₂ s₃) : QuotaMoves s₁ s₃ := by
  refine ⟨h.runs.trans (fun a b => a.trans b) h'.runs, ?_, ?_⟩
  · intro p hp
    obtain ⟨p₂, hp₂, hid⟩ := h.profiles.kept p hp
    obtain ⟨p₃, hp₃, hid'⟩ := h'.profiles.kept p₂ hp₂
    exact ⟨p₃, hp₃, hid'.trans hid⟩
  · intro p hp p₃ hp₃ hid
    obtain ⟨p₂, hp₂, hid₂⟩ := h.profiles.kept p hp
    obtain ⟨hc, hb⟩ := h.profiles.moves p hp p₂ hp₂ hid₂
    obtain ⟨hc', hb'⟩ := h'.profiles.moves p₂ hp₂ p₃ hp₃ (hid.trans hid₂.symm)
    exact ⟨hc'.trans hc, hb'.trans hb⟩

/-- Profiles as before, and for each worker as many reserved and consumed units in sum. -/
theorem QuotaMoves.of_profiles_eq (hk : Keys s) (hp : s'.profiles = s.profiles)
    (hruns : RowsMove ReservationMoves s.runs s'.runs)
    (hsum : ∀ w, unitsIn .reserved s' w + unitsIn .consumed s' w = unitsIn .reserved s w + unitsIn .consumed s w) :
    QuotaMoves s s' := by
  refine ⟨hruns, fun p hm => ⟨p, hp ▸ hm, rfl⟩, ?_⟩
  intro p hm p' hm' hid
  have he : p' = p := hk.profiles.eq_of_key (hp ▸ hm') hm hid
  subst he
  have h := hsum p'.workerId
  refine ⟨rfl, ?_⟩
  unfold balance
  omega

/-- The profile of one worker was rewritten. -/
theorem QuotaMoves.of_profiles_put (hk : Keys s) {x : RoutingProfile} (x' : RoutingProfile) (hx : x ∈ s.profiles)
    (hid : x'.workerId = x.workerId) (hcap : x'.quotaCapacityUnits = x.quotaCapacityUnits)
    (hp : s'.profiles = put x' s.profiles) (hruns : RowsMove ReservationMoves s.runs s'.runs)
    (hself : balance s' x' = balance s x)
    (hother : ∀ w, w ≠ x.workerId →
      unitsIn .reserved s' w + unitsIn .consumed s' w = unitsIn .reserved s w + unitsIn .consumed s w) :
    QuotaMoves s s' := by
  refine ⟨hruns, fun p hm => by rw [hp]; exact exists_mem_put hm, ?_⟩
  intro p hm p' hm' hid'
  rw [hp] at hm'
  rcases of_mem_put hm' with rfl | ⟨hm', hne⟩
  · have he : p = x := hk.profiles.eq_of_key hm hx (hid'.symm.trans hid)
    rw [he]; exact ⟨hcap, hself⟩
  · have he : p' = p := hk.profiles.eq_of_key hm' hm hid'
    subst he
    have h := hother p'.workerId fun he => hne (Eq.trans he hid.symm)
    refine ⟨rfl, ?_⟩
    unfold balance
    omega

theorem settledRun_moves {q : QuotaReservationState} (hq : q = .consumed ∨ q = .released) {r r' : ExecutionRun}
    (hw : r'.workerId = r.workerId) (hroute : r'.route = (settledRun q r).route) : ReservationMoves r r' := by
  refine ⟨hw, by rw [hroute, settledRun_units], ?_⟩
  rw [hroute]
  unfold settledRun
  split
  · rename_i hr; exact Or.inr ⟨hr, hq⟩
  · exact Or.inl rfl

theorem reservations_put (hk : Keys s) {r : ExecutionRun} (r' : ExecutionRun) (hr : r ∈ s.runs)
    (hid : r'.id = r.id) (h : ReservationMoves r r') : RowsMove ReservationMoves s.runs (put r' s.runs) :=
  RowsMove.put hk.runs.unique ReservationMoves.refl hr hid.symm h

/-- A heartbeat turns what the run had reserved into consumed units. -/
theorem Beating.quotaMoves (hk : Keys s) {l : Lease} {r : ExecutionRun} {o : WorkOrder}
    {expiresAt : Time} (hb : Beating s l r o now) : QuotaMoves s (beatenDatabase s now expiresAt l r o) := by
  set r' := (settledRun .consumed r).started now expiresAt with hr'
  have hrid : r'.id = r.id := settledRun_id .consumed r
  have hw : r'.workerId = r.workerId := settledRun_workerId .consumed r
  refine .of_profiles_eq hk rfl (reservations_put hk r' hb.run hrid
    (settledRun_moves (Or.inl rfl) hw rfl)) fun w => ?_
  have hres : unitsOf .reserved w r' = 0 := unitsOf_reserved_settled (by decide) w r
  have hcon : unitsOf .consumed w r' = unitsOf .consumed w r + unitsOf .reserved w r :=
    unitsOf_consumed_consumed w r
  have hput : ∀ q, unitsIn q (beatenDatabase s now expiresAt l r o) w =
      unitsIn q s w - unitsOf q w r + unitsOf q w r' := fun q => unitsIn_put hk.runs.unique hb.run hrid rfl
  rw [hput, hput]
  omega

/-- Closing a lease gives back what the run had reserved. -/
theorem Closing.quotaMoves (h : QuotaOK s) (hk : Keys s) (hc : Coherent s) {outcome : Outcome} {l : Lease}
    {r : ExecutionRun} {o : WorkOrder} {w : Worker} {profiles : List RoutingProfile}
    (hcl : Closing P s outcome l r o w profiles) : QuotaMoves s (closedDatabase s now outcome l r o w profiles) := by
  have hb := hc.backed hk hcl.lease hcl.run hcl.order hcl.runId hcl.orderId
  set s' := closedDatabase s now outcome l r o w profiles with hs'
  set r' := outcome.run now (settledRun .released r) with hr'
  have hrid : r'.id = r.id := by rw [hr', outcome_run_id, settledRun_id]
  have hw : r'.workerId = r.workerId := by rw [hr', outcome_run_workerId, settledRun_workerId]
  have hroute : r'.route = (settledRun .released r).route := by rw [hr', outcome_run_route]
  have hruns := reservations_put hk r' hcl.run hrid (settledRun_moves (Or.inr rfl) hw hroute)
  have hunits : ∀ q w, unitsOf q w r' = unitsOf q w (settledRun .released r) := by
    intro q w
    exact unitsOf_congr (hw.trans (settledRun_workerId .released r).symm) hroute
  have hres : ∀ w, unitsIn .reserved s' w = unitsIn .reserved s w - unitsOf .reserved w r := by
    intro w
    rw [unitsIn_put (s := s) hk.runs.unique hcl.run hrid rfl, hunits, unitsOf_reserved_settled (by decide)]
    omega
  have hcon : ∀ w, unitsIn .consumed s' w = unitsIn .consumed s w := by
    intro w
    rw [unitsIn_put (s := s) hk.runs.unique hcl.run hrid rfl, hunits, unitsOf_consumed_released]
    omega
  rcases hcl.profiles_cases h hb.worker with ⟨hq, p, hp, hid, he⟩ | ⟨hq, he⟩
  · refine .of_profiles_put hk (p.refunded r.route.reservedQuotaUnits) hp rfl rfl he hruns ?_ ?_
    · have hself := unitsOf_reserved_self hq
      rw [← hid] at hself
      have h₁ := hres p.workerId
      have h₂ := hcon p.workerId
      simp only [balance, RoutingProfile.refunded]
      omega
    · intro w hne
      have h₁ := hres w
      rw [unitsOf_other (fun hh => hne (hh.symm.trans hid.symm))] at h₁
      have h₂ := hcon w
      omega
  · refine .of_profiles_eq hk he hruns fun w => ?_
    have h₁ := hres w
    rw [unitsOf_not hq] at h₁
    have h₂ := hcon w
    omega

/-- A claim reserves what it takes from the profile. -/
theorem Claiming.quotaMoves (hk : Keys s) {w : Worker} {o : WorkOrder} {q : Service.QuotaClaim}
    {profiles : List RoutingProfile} {expiresAt : Time} {count : ℕ} {pin : Bool} (hcl : Claiming s w o q profiles) :
    QuotaMoves s (claimedDatabase s now expiresAt w o (Service.orderRoute w q count pin now)
      (Service.runRoute o q count pin now) profiles) := by
  set r := Repository.activeRun (o.claimed now (Service.orderRoute w q count pin now)) w.workerId now expiresAt
    (Service.runRoute o q count pin now) (nextId s.runs) with hr
  set s' := claimedDatabase s now expiresAt w o (Service.orderRoute w q count pin now)
    (Service.runRoute o q count pin now) profiles with hs'
  have hstate : r.route.quotaState = q.quotaState := rfl
  have hruns : RowsMove ReservationMoves s.runs s'.runs :=
    RowsMove.append hk.runs.unique ReservationMoves.refl fun x hx => Nat.ne_of_lt (lt_nextId hx)
  have happ : ∀ state w, unitsIn state s' w = unitsIn state s w + unitsOf state w r :=
    fun state w => unitsIn_append rfl
  have hcon : ∀ w, unitsOf .consumed w r = 0 := by
    intro w
    refine unitsOf_not ?_
    rw [hstate]
    rcases hcl.profiles_cases with ⟨hq, -⟩ | ⟨p, -, -, -, -, hq, -⟩
    · rw [hq]; decide
    · rw [hq]; split <;> decide
  rcases hcl.profiles_cases with ⟨hq, he⟩ | ⟨p, hp, hid, -, hunits, hq, he⟩
  · refine .of_profiles_eq hk he hruns fun w => ?_
    have h₀ : unitsOf .reserved w r = 0 := unitsOf_not (by rw [hstate, hq]; decide)
    have h₁ := hcon w
    rw [happ, happ]
    omega
  · refine .of_profiles_put hk (p.reserved p.revision o.spec.requiredQuotaUnits) hp rfl rfl he hruns ?_ ?_
    · have hself := unitsOf_claimed (r := r) rfl rfl hunits hq
      have hrw : r.workerId = p.workerId := hid.symm
      rw [hrw] at hself
      have h₁ := hcon p.workerId
      have h₂ := happ .reserved p.workerId
      have h₃ := happ .consumed p.workerId
      simp only [balance, RoutingProfile.reserved]
      omega
    · intro v hne
      have h₀ : unitsOf .reserved v r = 0 := unitsOf_other fun hh => hne (hh.symm.trans hid.symm)
      have h₁ := hcon v
      rw [happ, happ]
      omega

theorem Resolving.quotaMoves (hk : Keys s) {l : Lease} {r : ExecutionRun} {o : WorkOrder} {identity : ReuseIdentity}
    {hash : String} {selected : Option ReuseCandidate} (hr : Resolving P s now l r o identity selected) :
    QuotaMoves s { s with runs := put (Service.resolvedRun identity hash selected r) s.runs } := by
  set r' := Service.resolvedRun identity hash selected r with hr'
  have hrid : r'.id = r.id := rfl
  refine .of_profiles_eq hk rfl (reservations_put hk r' hr.run hrid ⟨rfl, rfl, Or.inl rfl⟩) fun w => ?_
  have hunits : ∀ q, unitsOf q w r' = unitsOf q w r := fun q => unitsOf_congr rfl rfl
  have hput : ∀ q, unitsIn q { s with runs := put r' s.runs } w =
      unitsIn q s w - unitsOf q w r + unitsOf q w r' := fun q => unitsIn_put hk.runs.unique hr.run hrid rfl
  rw [hput, hput, hunits, hunits]
  omega

/-- **An effect that is no operator's edit moves a reservation out of `RESERVED` at most once and keeps
the balance of every profile.** -/
theorem Effect.quotaMoves (he : Effect P scope now s s') (hs : scope.edits = false) (hk : Keys s)
    (hc : Coherent s) (h : QuotaOK s) : QuotaMoves s s' := by
  have hsame : RowsMove ReservationMoves s.runs s.runs := RowsMove.refl hk.runs.unique ReservationMoves.refl
  cases he with
  | idle | manifest | createOrder | moveOrder | insertWorker | updateWorker =>
    exact .of_profiles_eq hk rfl hsame fun _ => rfl
  | insertProfile p hnew =>
    exact ⟨hsame, RowsMove.append hk.profiles (fun _ => ⟨rfl, rfl⟩) hnew⟩
  | rewriteProfile p p' hp hid hrev hu hidle hedits => rw [hs] at hedits; cases hedits
  | claim w o q count pin expiresAt profiles hcl => exact hcl.quotaMoves hk
  | heartbeat l r o expiresAt hb => exact hb.quotaMoves hk
  | close outcome l r o w profiles hcl => exact hcl.quotaMoves h hk hc
  | resolve l r o identity selected hr => exact hr.quotaMoves hk

theorem Steps.quotaMoves {ts : List Time} {ss ss' : Session Database} (h : Steps P scope ts ss ss')
    (hs : scope.edits = false) (hk : Keys ss.db) (hc : Coherent ss.db) (hq : QuotaOK ss.db) : QuotaMoves ss.db ss'.db := by
  induction h with
  | nil ss =>
    exact .of_profiles_eq hk rfl (RowsMove.refl hk.runs.unique ReservationMoves.refl) fun _ => rfl
  | cons b _ ih =>
    have he := b.effect
    exact (he.quotaMoves hs hk hc hq).trans (ih (he.keys hk) (he.coherent hk hc) (he.quotaOK hk hc hq))

/-! ## Operator edits in flight -/

/-- What an edit in flight knows: the profile is still there at the revision it read or a later one,
and at that revision a reservation count of zero still holds. -/
structure PendingOK (s : Database) (d : PendingEdit) : Prop where
  profile : ∃ p ∈ s.profiles, p.workerId = d.edit.workerId
  revision : ∀ p ∈ s.profiles, p.workerId = d.edit.workerId → d.profile.revision ≤ p.revision
  idle : d.reserved = some 0 → ∀ p ∈ s.profiles, p.workerId = d.edit.workerId →
    p.revision = d.profile.revision → Idle s d.edit.workerId

/-- An idle worker stays idle, or its profile moves to a later revision. -/
def RevisionMoves (s s' : Database) (p p' : RoutingProfile) : Prop :=
  p.revision ≤ p'.revision ∧ (p'.revision = p.revision → Idle s p.workerId → Idle s' p.workerId)

theorem PendingOK.moves (h : RowsMove (RevisionMoves s s') s.profiles s'.profiles) {d : PendingEdit}
    (hd : PendingOK s d) : PendingOK s' d := by
  obtain ⟨p, hp, hid⟩ := hd.profile
  obtain ⟨p', hp', hid'⟩ := h.kept p hp
  refine ⟨⟨p', hp', Eq.trans hid' hid⟩, ?_, ?_⟩
  · intro x hx hxid
    have hle := (h.moves p hp x hx (hxid.trans hid.symm)).1
    exact le_trans (hd.revision p hp hid) hle
  · intro h0 x hx hxid hrev
    obtain ⟨hle, hkeep⟩ := h.moves p hp x hx (hxid.trans hid.symm)
    have hp₀ := hd.revision p hp hid
    -- the revision read is also the one in between
    have hsame : p.revision = d.profile.revision := by omega
    rw [← hid]
    exact hkeep (by omega) (hid ▸ hd.idle h0 p hp hid hsame)

theorem revisions_same (hk : Keys s) (hp : s'.profiles = s.profiles)
    (h : ∀ w, Idle s w → Idle s' w) : RowsMove (RevisionMoves s s') s.profiles s'.profiles := by
  rw [hp]
  exact RowsMove.refl hk.profiles fun p => ⟨le_rfl, fun _ => h p.workerId⟩

theorem Idle.put {w : String} {r' : ExecutionRun} (h : Idle s w) (hruns : s'.runs = put r' s.runs)
    (hq : r'.route.quotaState ≠ .reserved) : Idle s' w := by
  intro x hx hid
  rw [hruns] at hx
  rcases of_mem_put hx with rfl | ⟨hx, -⟩
  · exact hq
  · exact h x hx hid

theorem Idle.append {w : String} {r' : ExecutionRun} (h : Idle s w) (hruns : s'.runs = s.runs ++ [r'])
    (hq : r'.workerId = w → r'.route.quotaState ≠ .reserved) : Idle s' w := by
  intro x hx hid
  rw [hruns] at hx
  rcases List.mem_append.1 hx with hx | hx
  · exact h x hx hid
  · rw [List.mem_singleton.1 hx] at hid ⊢; exact hq hid

/-- **The revision of a profile moves whenever its worker stops being idle.** -/
theorem Effect.revisions (he : Effect P scope now s s') (hk : Keys s) (hc : Coherent s) (hq : QuotaOK s) :
    RowsMove (RevisionMoves s s') s.profiles s'.profiles := by
  cases he with
  | idle | manifest | createOrder | moveOrder | insertWorker | updateWorker =>
    exact revisions_same hk rfl fun _ h => h
  | insertProfile p hnew => exact .append hk.profiles (fun _ => ⟨le_rfl, fun _ h => h⟩) hnew
  | rewriteProfile p p' hp hid hrev =>
    exact .put hk.profiles (fun _ => ⟨le_rfl, fun _ h => h⟩) hp hid.symm ⟨by omega, fun he => by omega⟩
  | claim w o q count pin expiresAt profiles hcl =>
    rcases hcl.profiles_cases with ⟨hstate, rfl⟩ | ⟨p, hp, hid, -, -, -, rfl⟩
    · refine revisions_same hk rfl fun v h => h.append rfl fun _ => ?_
      show q.quotaState ≠ .reserved
      rw [hstate]; decide
    · refine .put_of_ne hk.profiles ?_ hp rfl ?_
      · -- the new run is not one of another worker
        intro x _ hne
        refine ⟨le_rfl, fun _ h => h.append rfl fun hw => absurd ?_ hne⟩
        exact (hid.trans hw).symm
      · exact ⟨by simp only [RoutingProfile.reserved]; omega, fun h => by
          simp only [RoutingProfile.reserved] at h; omega⟩
  | heartbeat l r o expiresAt hb =>
    exact revisions_same hk rfl fun v h => h.put rfl (settledRun_not_reserved (by decide) r)
  | close outcome l r o w profiles hcl =>
    have hb := hc.backed hk hcl.lease hcl.run hcl.order hcl.runId hcl.orderId
    have hidle : ∀ v, Idle s v → Idle (closedDatabase s now outcome l r o w profiles) v := by
      intro v h
      refine h.put rfl ?_
      rw [outcome_run_route]
      exact settledRun_not_reserved (by decide) r
    rcases hcl.profiles_cases hq hb.worker with ⟨-, p, hp, -, rfl⟩ | ⟨-, rfl⟩
    · refine .put hk.profiles (fun x => ⟨le_rfl, fun _ => hidle x.workerId⟩) hp rfl ?_
      exact ⟨by simp only [RoutingProfile.refunded]; omega, fun _ => hidle p.workerId⟩
    · exact revisions_same hk rfl hidle
  | resolve l r o identity selected hr =>
    refine revisions_same hk rfl fun v h x hx hid => ?_
    rcases of_mem_put hx with rfl | ⟨hx, -⟩
    · exact h r hr.run hid
    · exact h x hx hid

/-- The invariant of the plane. -/
structure PlaneOK (pl : Plane) : Prop where
  keys : Keys pl.session.db
  coherent : Coherent pl.session.db
  quota : QuotaOK pl.session.db
  pending : ∀ d ∈ pl.pending, PendingOK pl.session.db d
  /-- A reset in flight passed the checks on its arguments. -/
  checked : ∀ d ∈ pl.pending, ∀ workerId request, d.edit = .reset workerId request → Service.checkReset request = .ok ()

/-- What the effects keep while edits are in flight. -/
theorem Steps.planeOK {pl : Plane} {ts : List Time} {ss' : Session Database} (h : Steps P .any ts pl.session ss')
    (hpl : PlaneOK pl) : PlaneOK { pl with session := ss' } := by
  have hall := h.invariant
    (I := fun s => (Keys s ∧ Coherent s ∧ QuotaOK s) ∧ ∀ d ∈ pl.pending, PendingOK s d)
    (fun he hi => by
      obtain ⟨⟨hk, hc, hq⟩, hp⟩ := hi
      exact ⟨⟨he.keys hk, he.coherent hk hc, he.quotaOK hk hc hq⟩,
        fun d hd => (hp d hd).moves (he.revisions hk hc hq)⟩)
    ⟨⟨hpl.keys, hpl.coherent, hpl.quota⟩, hpl.pending⟩
  exact ⟨hall.1.1, hall.1.2.1, hall.1.2.2, hall.2, hpl.checked⟩

/-- Dropping or rewriting edits in flight, by members that are sound. -/
theorem PlaneOK.withPending {pl : Plane} (hpl : PlaneOK pl) {pending : List PendingEdit}
    (hp : ∀ d ∈ pending, PendingOK pl.session.db d)
    (hc : ∀ d ∈ pending, ∀ workerId request, d.edit = .reset workerId request → Service.checkReset request = .ok ()) :
    PlaneOK { pl with pending := pending } :=
  ⟨hpl.keys, hpl.coherent, hpl.quota, hp, hc⟩

theorem PlaneOK.eraseIdx {pl : Plane} (hpl : PlaneOK pl) (i : ℕ) :
    PlaneOK { pl with pending := pl.pending.eraseIdx i } :=
  hpl.withPending (fun d hd => hpl.pending d (List.mem_of_mem_eraseIdx hd))
    fun d hd => hpl.checked d (List.mem_of_mem_eraseIdx hd)

theorem requireRoutingProfile_ok {workerId : String} {p : RoutingProfile}
    (h : Service.requireRoutingProfile workerId s = .ok p) : p ∈ s.profiles ∧ p.workerId = workerId := by
  unfold Service.requireRoutingProfile Repository.getRoutingProfile at h
  split at h
  · rename_i x hx
    obtain rfl : x = p := by simpa using h
    exact ⟨List.mem_of_find?_eq_some hx, by simpa using List.find?_some hx⟩
  · cases h

/-- The first read of an edit: the profile of its worker, and the checks of a reset. -/
theorem readProfile_ok {e : Edit} {p : RoutingProfile} (h : e.readProfile s = .ok (some p)) :
    (p ∈ s.profiles ∧ p.workerId = e.workerId) ∧
      ∀ workerId request, e = .reset workerId request → Service.checkReset request = .ok () := by
  cases e with
  | replace id replacement =>
    simp only [Edit.readProfile, except_bind_ok, ensure_ok, except_pure_ok, Option.some.injEq] at h
    obtain ⟨_, -, x, hx, rfl⟩ := h
    exact ⟨requireRoutingProfile_ok hx, fun _ _ he => by cases he⟩
  | reset id request =>
    simp only [Edit.readProfile, except_bind_ok, except_pure_ok] at h
    obtain ⟨_, hcheck, x, hx, applied, -, he⟩ := h
    cases applied with
    | true => simp at he
    | false =>
      obtain rfl : x = p := by simpa using he
      refine ⟨requireRoutingProfile_ok hx, ?_⟩
      rintro _ _ ⟨⟩
      exact hcheck

/-- The guarded update of an edit in flight is a block of an operator. -/
theorem update_block {pl : Plane} (hpl : PlaneOK pl) {d : PendingEdit} (hd : d ∈ pl.pending) {reserved : ℕ}
    (hres : d.reserved = some reserved) {p : RoutingProfile} {ss' : Session Database}
    (h : d.edit.update d.profile reserved pl.session = .ok (p, ss')) : Block P .editing now pl.session ss' := by
  have hidle : reserved = 0 → ∀ p ∈ pl.session.db.profiles, p.workerId = d.edit.workerId →
      p.revision = d.profile.revision → Idle pl.session.db d.edit.workerId :=
    fun h0 => (hpl.pending d hd).idle (h0 ▸ hres)
  cases he : d.edit with
  | replace id replacement =>
    rw [he] at h hidle
    exact replaceReadProfile_block hpl.keys hidle h
  | reset id request =>
    rw [he] at h hidle
    exact resetReadProfile_block hpl.keys (hpl.checked d hd id request he) hidle h

/-! ## Edits leave the runs alone -/

/-- The rows of `execution_runs` stay as they are. -/
def RunsSame (ss ss' : Session Database) : Prop := ss'.db.runs = ss.db.runs

theorem runsSame_refl (ss : Session Database) : RunsSame ss ss := rfl

theorem RunsSame.trans {ss₁ ss₂ ss₃ : Session Database} (h : RunsSame ss₁ ss₂) (h' : RunsSame ss₂ ss₃) :
    RunsSame ss₁ ss₃ := Eq.trans h' h

theorem replaceReadProfile_runsSame (workerId : String) (replacement : RoutingProfileReplacement)
    (profile : RoutingProfile) (reserved : ℕ) :
    Transaction.Within RunsSame (Service.replaceReadProfile workerId replacement profile reserved) := by
  unfold Service.replaceReadProfile
  refine within_bind RunsSame.trans (within_require runsSame_refl _) fun _ => ?_
  refine within_bind RunsSame.trans (within_require runsSame_refl _) fun _ => ?_
  refine within_bind RunsSame.trans (within_query runsSame_refl _) fun _ => ?_
  refine within_bind RunsSame.trans (within_exec fun _ => rfl) fun _ => ?_
  refine within_bind RunsSame.trans (within_require runsSame_refl _) fun _ => ?_
  exact within_query runsSame_refl _

theorem resetReadProfile_runsSame (workerId : String) (reset : RoutingQuotaReset) (profile : RoutingProfile)
    (reserved : ℕ) : Transaction.Within RunsSame (Service.resetReadProfile workerId reset profile reserved) := by
  unfold Service.resetReadProfile
  refine within_bind RunsSame.trans (within_require runsSame_refl _) fun _ => ?_
  refine within_bind RunsSame.trans (within_require runsSame_refl _) fun _ => ?_
  refine within_bind RunsSame.trans (within_require runsSame_refl _) fun _ => ?_
  refine within_bind RunsSame.trans (within_exec fun _ => rfl) fun _ => ?_
  refine within_bind RunsSame.trans (within_require runsSame_refl _) fun _ => ?_
  exact within_query runsSame_refl _

theorem update_runsSame (e : Edit) (profile : RoutingProfile) (reserved : ℕ) :
    Transaction.Within RunsSame (e.update profile reserved) := by
  cases e with
  | replace id replacement => exact replaceReadProfile_runsSame id replacement profile reserved
  | reset id request => exact resetReadProfile_runsSame id request profile reserved

theorem edits_runsSame {c : Call} (h : c.operation.edits = true) : Transaction.Within RunsSame (c.transaction P) := by
  obtain ⟨env, operation⟩ := c
  cases operation <;> try cases h
  case replaceRoutingProfile id replacement =>
    refine within_bind RunsSame.trans ?_ fun _ => within_pure runsSame_refl
    refine within_bind RunsSame.trans (within_require runsSame_refl _) fun _ => ?_
    refine within_bind RunsSame.trans (within_query runsSame_refl _) fun profile => ?_
    exact within_bind RunsSame.trans (within_read runsSame_refl _) fun reserved =>
      replaceReadProfile_runsSame id replacement profile reserved
  case resetRoutingQuota id reset =>
    refine within_bind RunsSame.trans ?_ fun _ => within_pure runsSame_refl
    refine within_bind RunsSame.trans (within_query runsSame_refl _) fun _ => ?_
    refine within_bind RunsSame.trans (within_query runsSame_refl _) fun profile => ?_
    refine within_bind RunsSame.trans (within_query runsSame_refl _) fun applied => ?_
    cases applied with
    | true => exact within_pure runsSame_refl
    | false =>
      exact within_bind RunsSame.trans (within_read runsSame_refl _) fun reserved =>
        resetReadProfile_runsSame id reset profile reserved

/-! ## Runs with edits in flight -/

/-- What one event does to reservations and balances. -/
structure EventKeepsQuota (e : Event) (s s' : Database) : Prop where
  moves : e.edits = false → QuotaMoves s s'
  edits : e.edits = true → s'.runs = s.runs

theorem EventKeepsQuota.same {e : Event} (hk : Keys s) : EventKeepsQuota e s s :=
  ⟨fun _ => .of_profiles_eq hk rfl (RowsMove.refl hk.runs.unique ReservationMoves.refl) fun _ => rfl, fun _ => rfl⟩

theorem PlaneOK.readProfile {pl : Plane} (hpl : PlaneOK pl) {e : Edit} {p : RoutingProfile}
    (h : e.readProfile pl.session.db = .ok (some p)) :
    PlaneOK { pl with pending := pl.pending ++ [⟨e, p, none⟩] } := by
  obtain ⟨⟨hp, hid⟩, hcheck⟩ := readProfile_ok h
  refine hpl.withPending ?_ ?_
  · intro d hd
    rcases List.mem_append.1 hd with hd | hd
    · exact hpl.pending d hd
    · rw [List.mem_singleton.1 hd]
      refine ⟨⟨p, hp, hid⟩, fun x hx hxid => ?_, fun h => by cases h⟩
      rw [hpl.keys.profiles.eq_of_key hx hp (Eq.trans hxid hid.symm)]
  · intro d hd
    rcases List.mem_append.1 hd with hd | hd
    · exact hpl.checked d hd
    · rw [List.mem_singleton.1 hd]; exact hcheck

/-- A count of zero certifies an idle worker at the revision of this moment. -/
theorem PendingOK.count {d : PendingEdit} (h : PendingOK s d) : PendingOK s (d.count s) := by
  refine ⟨h.profile, h.revision, fun hcount => ?_⟩
  cases hres : d.reserved with
  | some n =>
    have hsame : d.reserved = some 0 := by simpa [PendingEdit.count, hres] using hcount
    exact h.idle hsame
  | none =>
    have hzero : Repository.countReservedQuotaRuns d.edit.workerId s = 0 := by
      simpa [PendingEdit.count, hres] using hcount
    exact fun _ _ _ _ => idle_of_count hzero

theorem PlaneOK.countReserved {pl : Plane} (hpl : PlaneOK pl) (i : ℕ) :
    PlaneOK { pl with pending := pl.pending.modify i (PendingEdit.count pl.session.db) } := by
  have hold : ∀ d ∈ pl.pending.modify i (PendingEdit.count pl.session.db), ∃ d₀ ∈ pl.pending,
      d = d₀ ∨ d = d₀.count pl.session.db := by
    intro d hd
    obtain ⟨j, hj, rfl⟩ := List.mem_iff_getElem.1 hd
    rw [List.getElem_modify]
    refine ⟨_, List.getElem_mem (by simpa using hj), ?_⟩
    split
    · exact Or.inr rfl
    · exact Or.inl rfl
  refine hpl.withPending ?_ ?_
  · intro d hd
    obtain ⟨d₀, hd₀, rfl | rfl⟩ := hold d hd
    · exact hpl.pending d hd₀
    · exact (hpl.pending d₀ hd₀).count
  · intro d hd
    obtain ⟨d₀, hd₀, rfl | rfl⟩ := hold d hd
    · exact hpl.checked d hd₀
    · exact hpl.checked d₀ hd₀

theorem PlaneOK.update (P : Platform) {pl : Plane} (hpl : PlaneOK pl) {e : Edit} {profile : RoutingProfile} {reserved : ℕ}
    (hd : ⟨e, profile, some reserved⟩ ∈ pl.pending) :
    PlaneOK { pl with session := commit (e.update profile reserved) pl.session } := by
  unfold commit
  split
  · rename_i hok
    have hb : Block P .editing 0 pl.session _ := update_block hpl hd rfl hok
    exact (Steps.single hb).mono.planeOK hpl
  · exact hpl

/-- **One event keeps the plane sound and moves each reservation at most once.** -/
theorem PlaneOK.step {pl : Plane} (hpl : PlaneOK pl) (e : Event) :
    PlaneOK (pl.step P e) ∧ EventKeepsQuota e pl.session.db (pl.step P e).session.db := by
  cases e with
  | call c =>
    obtain ⟨_, is, -, -, hs⟩ := step_runs (P := P) hpl.keys c
    refine ⟨hs.mono.planeOK hpl, fun hedits => ?_, fun hedits => ?_⟩
    · have hscope : c.operation.scope.edits = false := c.operation.scope_edits.trans hedits
      exact hs.quotaMoves hscope hpl.keys hpl.coherent hpl.quota
    · exact within_commit runsSame_refl (edits_runsSame hedits)
  | readProfile e =>
    simp only [Plane.step]
    split
    · rename_i p hread; exact ⟨hpl.readProfile hread, .same hpl.keys⟩
    · exact ⟨hpl, .same hpl.keys⟩
  | countReserved i => exact ⟨hpl.countReserved i, .same hpl.keys⟩
  | update i =>
    simp only [Plane.step]
    split
    · rename_i e profile reserved hget
      have hd := List.mem_of_getElem? hget
      refine ⟨(hpl.update P hd).eraseIdx i, ⟨fun h => Bool.noConfusion h, fun _ => ?_⟩⟩
      exact within_commit runsSame_refl (update_runsSame e profile reserved)
    · exact ⟨hpl, .same hpl.keys⟩
  | abandon i => exact ⟨hpl.eraseIdx i, .same hpl.keys⟩

theorem EventKeepsQuota.reservations {e : Event} (h : EventKeepsQuota e s s') (hk : Keys s) :
    RowsMove ReservationMoves s.runs s'.runs := by
  cases he : e.edits with
  | false => exact (h.moves he).runs
  | true => rw [h.edits he]; exact RowsMove.refl hk.runs.unique ReservationMoves.refl

theorem PlaneOK.run {pl : Plane} (hpl : PlaneOK pl) (events : List Event) :
    PlaneOK (events.foldl (Plane.step P) pl) ∧
      RowsMove ReservationMoves pl.session.db.runs (events.foldl (Plane.step P) pl).session.db.runs := by
  induction events generalizing pl with
  | nil => exact ⟨hpl, RowsMove.refl hpl.keys.runs.unique ReservationMoves.refl⟩
  | cons e events ih =>
    obtain ⟨hstep, hkeeps⟩ := hpl.step (P := P) e
    obtain ⟨hend, hmoves⟩ := ih hstep
    exact ⟨hend, (hkeeps.reservations hpl.keys).trans (fun a b => a.trans b) hmoves⟩

theorem PlaneOK.init : PlaneOK ⟨⟨Database.init, []⟩, []⟩ :=
  ⟨Keys.init, Coherent.init, QuotaOK.init, by simp, by simp⟩

theorem runEvents_planeOK (P : Platform) (events : List Event) : PlaneOK (runEvents P events) :=
  (PlaneOK.init.run events).1

/-- The balances of every profile, and the reservations of every run. -/
structure QuotaConserved (s : Database) : Prop where
  nonneg : ∀ p ∈ s.profiles, 0 ≤ p.quotaRemainingUnits
  bounded : ∀ p ∈ s.profiles, p.quotaRemainingUnits + unitsIn .reserved s p.workerId ≤ p.quotaCapacityUnits
  active : ∀ r ∈ s.runs, r.route.quotaState = .reserved → r.status.isActive = true
  agrees : ∀ r ∈ s.runs, r.route.quotaState = .reserved →
    (∃ o ∈ s.orders, o.id = r.workOrderId) ∧
      ∀ o ∈ s.orders, o.id = r.workOrderId → o.route.quotaState = some r.route.quotaState

theorem PlaneOK.conserved {pl : Plane} (h : PlaneOK pl) : QuotaConserved pl.session.db := by
  refine ⟨h.quota.nonneg, h.quota.bounded, h.quota.active, fun r hr hq => ?_⟩
  obtain ⟨o, ho, hid, hoq⟩ := h.quota.agrees r hr hq
  refine ⟨⟨o, ho, hid⟩, fun o' ho' hid' => ?_⟩
  rw [h.keys.orders.unique.eq_of_key ho' ho (hid'.trans hid.symm), hoq, hq]

/-- **Quota is conserved along every run, with operator edits in flight.** In every state reached, the
remaining units of a profile are not negative and, with the reserved ones, within its capacity; a
reservation belongs to an active run whose order agrees. Each event that is no operator's edit keeps
the sum of remaining, reserved and consumed units of every profile, so consumed units never come back
and released ones come back once; an edit leaves all runs alone. From any moment on, each reservation
leaves `RESERVED` at most once and for good. -/
theorem runEvents_quota (P : Platform) (events : List Event) :
    QuotaConserved (runEvents P events).session.db ∧
    (∀ e, EventKeepsQuota e (runEvents P events).session.db (runEvents P (events ++ [e])).session.db) ∧
    ∀ later, RowsMove ReservationMoves (runEvents P events).session.db.runs
      (runEvents P (events ++ later)).session.db.runs := by
  have hpl := runEvents_planeOK P events
  refine ⟨hpl.conserved, fun e => ?_, fun later => ?_⟩
  · have hstep := (hpl.step (P := P) e).2
    unfold runEvents at hstep ⊢
    rw [List.foldl_append]
    exact hstep
  · have hrun := (hpl.run (P := P) later).2
    unfold runEvents at hrun ⊢
    rw [List.foldl_append]
    exact hrun

end Switchboard
