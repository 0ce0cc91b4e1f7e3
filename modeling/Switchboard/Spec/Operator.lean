import Switchboard.Spec.Lifecycle

/-!
# Operator edits in flight

`replace_routing_profile` and `reset_routing_quota` read a profile, count the
reservations of its worker and then issue one guarded update. Here the three can be
separated by any other operation and by the parts of other edits.

* `Plane`: the session and the edits in flight.
* `runEvents`: the plane after a finite sequence of events, from the empty database.
-/

namespace Switchboard

open Table Transaction

/-- An operator's edit of a routing profile. -/
inductive Edit
  | replace (workerId : String) (replacement : RoutingProfileReplacement)
  | reset (workerId : String) (request : RoutingQuotaReset)

namespace Edit

def workerId : Edit → String
  | replace id _ => id
  | reset id _ => id

/-- The checks and the first read: the profile to edit, or `none` when a reset was already applied. -/
def readProfile (s : Database) : Edit → Except ExecutionError (Option RoutingProfile)
  | replace id replacement => do
    ensure (Service.validRoutingRevision replacement.expectedRevision)
      (.lifecycleConflict "routing_profile_revision_out_of_bounds")
    let profile ← Service.requireRoutingProfile id s
    return some profile
  | reset id request => do
    Service.checkReset request
    let profile ← Service.requireRoutingProfile id s
    let applied ← Service.resetAlreadyApplied request profile
    return if applied then none else some profile

/-- The remaining checks and the guarded update. -/
def update (profile : RoutingProfile) (reserved : ℕ) : Edit → Tx RoutingProfile
  | replace id replacement => Service.replaceReadProfile id replacement profile reserved
  | reset id request => Service.resetReadProfile id request profile reserved

end Edit

/-- An edit after its first read, and its reservation count once that was read. -/
structure PendingEdit where
  edit : Edit
  profile : RoutingProfile
  reserved : Option ℕ

/-- The execution plane with operator edits in flight. -/
structure Plane where
  session : Session Database
  pending : List PendingEdit

inductive Event
  | call (c : Call)
  | readProfile (e : Edit)
  | countReserved (i : ℕ)
  | update (i : ℕ)
  | abandon (i : ℕ)

/-- The events that can rewrite a profile on an operator's behalf. -/
def Event.edits : Event → Bool
  | call c => c.operation.edits
  | update _ => true
  | _ => false

/-- The reservation count, read once. -/
def PendingEdit.count (s : Database) (d : PendingEdit) : PendingEdit :=
  { d with reserved := d.reserved.or (some (Repository.countReservedQuotaRuns d.edit.workerId s)) }

def Plane.step (P : Platform) (pl : Plane) : Event → Plane
  | .call c => { pl with session := Switchboard.step P pl.session c }
  | .readProfile e =>
    match e.readProfile pl.session.db with
    | .ok (some profile) => { pl with pending := pl.pending ++ [⟨e, profile, none⟩] }
    | _ => pl
  | .countReserved i => { pl with pending := pl.pending.modify i (PendingEdit.count pl.session.db) }
  | .update i =>
    match pl.pending[i]? with
    | some ⟨e, profile, some reserved⟩ =>
      { session := commit (e.update profile reserved) pl.session, pending := pl.pending.eraseIdx i }
    | _ => pl
  | .abandon i => { pl with pending := pl.pending.eraseIdx i }

/-- The plane after the events, from the empty database. -/
def runEvents (P : Platform) (events : List Event) : Plane :=
  events.foldl (Plane.step P) ⟨⟨Database.init, []⟩, []⟩

end Switchboard
