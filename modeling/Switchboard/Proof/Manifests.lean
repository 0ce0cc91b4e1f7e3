import Switchboard.Proof.Lookups

/-!
# Manifest snapshots

Every stored manifest is the snapshot of a trusted definition, stored once under its name and
version, and every work order carries the id and the name of one.

* `ManifestsOK`, `runCalls_manifestsOK`: the invariant.
* `syncTrustedManifests_ok`: with a well-formed registry the synchronisation does not raise, and
  only appends snapshots.
* `listQueuedWorkOrders_eq`: the queued orders are listed once each, in id order.
-/

namespace Switchboard

open Table Transaction

variable {P : Platform} {scope : Scope} {ss ss' : Session Database} {s s' : Database} {now : Time}

/-- The registry is keyed by name and version, and the digests tell its definitions apart. -/
structure Platform.Registered (P : Platform) : Prop where
  names : ∀ d ∈ P.manifests, ∀ d' ∈ P.manifests, d.metadata.name = d'.metadata.name →
    d.metadata.version = d'.metadata.version → d = d'
  digests : ∀ d ∈ P.manifests, ∀ d' ∈ P.manifests, P.manifestDigest d = P.manifestDigest d' → d = d'

/-- What the manifest table keeps. -/
structure ManifestsOK (P : Platform) (s : Database) : Prop where
  ids : Ordered s.manifests
  names : ∀ m ∈ s.manifests, ∀ m' ∈ s.manifests, m.metadata.name = m'.metadata.name →
    m.metadata.version = m'.metadata.version → m = m'
  sources : ∀ m ∈ s.manifests, ∃ d ∈ P.manifests, m.metadata = d.metadata ∧ m.digest = P.manifestDigest d
  orders : ∀ o ∈ s.orders, NamesManifest s o

@[simp] theorem key_manifest (m : CommandManifest) : key m = m.id := rfl

theorem getManifest_none {name version : String} (h : Repository.getManifest name version s = none) :
    ∀ m ∈ s.manifests, m.metadata.name = name → m.metadata.version ≠ version := by
  intro m hm hname hversion
  have := List.find?_eq_none.1 h m hm
  simp [hname, hversion] at this

theorem getManifest_some {name version : String} {m : CommandManifest}
    (h : Repository.getManifest name version s = some m) :
    m ∈ s.manifests ∧ m.metadata.name = name ∧ m.metadata.version = version := by
  have hname := List.find?_some h
  simp only [Bool.and_eq_true, beq_iff_eq] at hname
  exact ⟨List.mem_of_find?_eq_some h, hname.1, hname.2⟩

theorem ManifestsOK.append {m : CommandManifest} (h : ManifestsOK P s) (hnew : NewManifest P s m) :
    ManifestsOK P { s with manifests := s.manifests ++ [m] } := by
  have hfresh := getManifest_none hnew.fresh
  refine ⟨h.ids.append hnew.id, ?_, ?_, ?_⟩
  · intro x hx y hy hname hversion
    rcases List.mem_append.1 hx with hx | hx <;> rcases List.mem_append.1 hy with hy | hy
    · exact h.names x hx y hy hname hversion
    · rw [List.mem_singleton.1 hy] at hname hversion
      exact absurd hversion (hfresh x hx hname)
    · rw [List.mem_singleton.1 hx] at hname hversion
      exact absurd hversion.symm (hfresh y hy hname.symm)
    · rw [List.mem_singleton.1 hx, List.mem_singleton.1 hy]
  · intro x hx
    rcases List.mem_append.1 hx with hx | hx
    · exact h.sources x hx
    · rw [List.mem_singleton.1 hx]; exact hnew.source
  · intro o ho
    obtain ⟨x, hx, hid⟩ := h.orders o ho
    exact ⟨x, List.mem_append_left _ hx, hid⟩

/-- An effect that keeps the manifest table keeps what it says about it. -/
theorem ManifestsOK.of_same (h : ManifestsOK P s) (hm : s'.manifests = s.manifests)
    (ho : ∀ o' ∈ s'.orders, NamesManifest s o') : ManifestsOK P s' := by
  refine ⟨hm ▸ h.ids, hm ▸ h.names, hm ▸ h.sources, ?_⟩
  intro o' ho'
  obtain ⟨m, hmem, hid⟩ := ho o' ho'
  exact ⟨m, hm ▸ hmem, hid⟩

theorem Effect.manifestsOK (he : Effect P scope now s s') (h : ManifestsOK P s) : ManifestsOK P s' := by
  have horders : ∀ o' ∈ s'.orders, NamesManifest s o' := by
    intro o' ho'
    rcases he.order_specs o' ho' with ⟨o, ho, hspec⟩ | ⟨-, hnames⟩
    · obtain ⟨m, hm, hid⟩ := h.orders o ho
      exact ⟨m, hm, by rw [hspec]; exact hid⟩
    · exact hnames
  cases he with
  | manifest m hnew => exact h.append hnew
  | _ => exact h.of_same rfl horders

theorem runCalls_manifestsOK (P : Platform) (calls : List Call) : ManifestsOK P (runCalls P calls).db := by
  refine runCalls_invariant ?_ (fun he _ h => he.manifestsOK h) calls
  refine ⟨List.Pairwise.nil, ?_, ?_, ?_⟩ <;> simp [Database.init]

/-! ## The manifest of an order -/

theorem ManifestsOK.getManifest (h : ManifestsOK P s) {o : WorkOrder} {m : CommandManifest} (hm : m ∈ s.manifests)
    (hid : m.id = o.spec.manifestId) (ho : o ∈ s.orders) :
    Repository.getManifest o.spec.manifestName o.spec.manifestVersion s = some m := by
  obtain ⟨x, hx, hxid, hname, hversion⟩ := h.orders o ho
  obtain rfl : x = m := h.ids.unique.eq_of_key hx hm (hxid.trans hid.symm)
  cases hget : Repository.getManifest o.spec.manifestName o.spec.manifestVersion s with
  | none => exact absurd hversion (getManifest_none hget x hx hname)
  | some y =>
    obtain ⟨hy, hyname, hyversion⟩ := getManifest_some hget
    rw [h.names y hy x hx (hyname.trans hname.symm) (hyversion.trans hversion.symm)]

/-- The snapshot that the order's id names. -/
def manifestOf (s : Database) (o : WorkOrder) : Option CommandManifest :=
  s.manifests.find? fun m => m.id == o.spec.manifestId

theorem ManifestsOK.manifestOf (h : ManifestsOK P s) {o : WorkOrder} (ho : o ∈ s.orders) :
    ∃ m, Switchboard.manifestOf s o = some m ∧ m ∈ s.manifests ∧ m.id = o.spec.manifestId := by
  obtain ⟨m, hm, hid, -⟩ := h.orders o ho
  refine ⟨m, h.ids.unique.find?_eq hm (by simp [hid]) ?_, hm, hid⟩
  intro x _ hx
  simp only [beq_iff_eq] at hx
  exact hx.trans hid.symm

/-- The rows of a table under one key are at most one row. -/
theorem filter_manifestId (h : ManifestsOK P s) {o : WorkOrder} (ho : o ∈ s.orders) :
    (s.manifests.filter fun m => m.id == o.spec.manifestId) = (Switchboard.manifestOf s o).toList := by
  obtain ⟨m, hm, hmem, hid⟩ := h.manifestOf ho
  have hone : (s.manifests.filter fun x => x.id == o.spec.manifestId).length = 1 := by
    rw [← List.countP_eq_length_filter]
    refine countP_eq_one_of_unique h.ids.unique hmem (by simp [hid]) fun x _ hx => ?_
    simp only [beq_iff_eq] at hx
    exact hx.trans hid.symm
  obtain ⟨x, hx⟩ := List.length_eq_one_iff.1 hone
  have hxm : m ∈ s.manifests.filter fun x => x.id == o.spec.manifestId :=
    List.mem_filter.2 ⟨hmem, by simp [hid]⟩
  rw [hx, List.mem_singleton] at hxm
  rw [hm, hx, hxm]
  rfl

/-- **The queued orders are listed once each, in id order, with their manifests.** -/
theorem listQueuedWorkOrders_eq (h : ManifestsOK P s) :
    Repository.listQueuedWorkOrders s =
      (s.orders.filter fun o => o.status == .queued).flatMap fun o => (manifestOf s o).toList.map fun m => (o, m) := by
  unfold Repository.listQueuedWorkOrders
  refine List.flatMap_congr fun o ho => ?_
  rw [filter_manifestId h (List.mem_filter.1 ho).1]

/-! ## Synchronisation -/

/-- Only snapshots were added. -/
structure Synced (s s' : Database) : Prop where
  manifests : ∃ new, s'.manifests = s.manifests ++ new
  orders : s'.orders = s.orders
  workers : s'.workers = s.workers
  profiles : s'.profiles = s.profiles
  runs : s'.runs = s.runs
  leases : s'.leases = s.leases

theorem Synced.refl (s : Database) : Synced s s := ⟨⟨[], by simp⟩, rfl, rfl, rfl, rfl, rfl⟩

theorem Synced.trans {s₁ s₂ s₃ : Database} (h : Synced s₁ s₂) (h' : Synced s₂ s₃) : Synced s₁ s₃ := by
  obtain ⟨new, hn⟩ := h.manifests
  obtain ⟨new', hn'⟩ := h'.manifests
  refine ⟨⟨new ++ new', by rw [hn', hn, List.append_assoc]⟩, h'.orders.trans h.orders, h'.workers.trans h.workers,
    h'.profiles.trans h.profiles, h'.runs.trans h.runs, h'.leases.trans h.leases⟩

theorem ensureManifest_synced {metadata : ManifestMetadata} {digest : String} {m : CommandManifest}
    (h : Repository.ensureManifest metadata digest ss = .ok (m, ss')) : Synced ss.db ss'.db := by
  rcases ensureManifest_ok h with ⟨-, -, rfl⟩ | ⟨-, -, rfl⟩
  · exact Synced.refl _
  · exact ⟨⟨[m], rfl⟩, rfl, rfl, rfl, rfl, rfl⟩

theorem ensureManifests_synced {ms : List (ManifestMetadata × String)} {u : Unit}
    (h : Repository.ensureManifests ms ss = .ok (u, ss')) : Synced ss.db ss'.db := by
  induction ms generalizing ss with
  | nil =>
    simp only [Repository.ensureManifests, pure_ok] at h
    obtain ⟨-, rfl⟩ := h
    exact Synced.refl _
  | cons m ms ih =>
    simp only [Repository.ensureManifests, bind_ok] at h
    obtain ⟨_, s₁, h₁, h₂⟩ := h
    exact (ensureManifest_synced h₁).trans (ih h₂)

theorem syncTrustedManifests_synced {u : Unit} (h : Service.syncTrustedManifests P ss = .ok (u, ss')) :
    Synced ss.db ss'.db := ensureManifests_synced h

/-- A definition of a well-formed registry agrees with its snapshot, or it is stored. -/
theorem ensureManifest_total (hP : P.Registered) (h : ManifestsOK P ss.db) {d : TrustedManifest}
    (hd : d ∈ P.manifests) :
    ∃ m ss', Repository.ensureManifest d.metadata (P.manifestDigest d) ss = .ok (m, ss') ∧ ManifestsOK P ss'.db := by
  cases hget : Repository.getManifest d.metadata.name d.metadata.version ss.db with
  | some m =>
    obtain ⟨hm, hname, hversion⟩ := getManifest_some hget
    obtain ⟨d', hd', hmeta, hdigest⟩ := h.sources m hm
    obtain rfl : d' = d := hP.names d' hd' d hd (hmeta ▸ hname) (hmeta ▸ hversion)
    refine ⟨m, ss, ?_, h⟩
    unfold Repository.ensureManifest
    simp only [bind_ok, read_ok]
    refine ⟨some m, ss, ⟨hget, rfl⟩, ?_⟩
    simp only [bind_ok, require_ok, pure_ok, Bool.and_eq_true, beq_iff_eq]
    exact ⟨(), ss, ⟨⟨hdigest, by rw [hmeta]; exact ManifestMetadata.matches_refl _⟩, rfl⟩, trivial, rfl⟩
  | none =>
    -- a snapshot with the same digest would be one of the same definition
    have htaken : (ss.db.manifests.any fun m => m.digest == P.manifestDigest d) = false := by
      rw [List.any_eq_false]
      intro m hm
      obtain ⟨d', hd', hmeta, hdigest⟩ := h.sources m hm
      simp only [beq_iff_eq]
      intro heq
      obtain rfl : d' = d := hP.digests d' hd' d hd (hdigest.symm.trans heq)
      exact getManifest_none hget m hm (by rw [hmeta]) (by rw [hmeta])
    have hok : Repository.ensureManifest d.metadata (P.manifestDigest d) ss =
        .ok (⟨nextId ss.db.manifests, d.metadata, P.manifestDigest d⟩, ss.push
          { ss.db with manifests := ss.db.manifests ++ [⟨nextId ss.db.manifests, d.metadata, P.manifestDigest d⟩] }) := by
      unfold Repository.ensureManifest
      simp only [bind_ok, read_ok]
      refine ⟨none, ss, ⟨hget, rfl⟩, ?_⟩
      simp only [bind_ok, read_ok, require_ok, exec_ok]
      exact ⟨false, ss, ⟨htaken, rfl⟩, (), ss, ⟨rfl, rfl⟩, rfl, rfl⟩
    exact ⟨_, _, hok, h.append ⟨rfl, hget, d, hd, rfl, rfl⟩⟩

theorem ensureManifests_total (hP : P.Registered) (h : ManifestsOK P ss.db) {ds : List TrustedManifest}
    (hds : ∀ d ∈ ds, d ∈ P.manifests) :
    ∃ ss', Repository.ensureManifests (ds.map fun d => (d.metadata, P.manifestDigest d)) ss = .ok ((), ss') ∧
      ManifestsOK P ss'.db := by
  induction ds generalizing ss with
  | nil => exact ⟨ss, rfl, h⟩
  | cons d ds ih =>
    obtain ⟨m, s₁, h₁, hok₁⟩ := ensureManifest_total hP h (hds d List.mem_cons_self)
    obtain ⟨s₂, h₂, hok₂⟩ := ih hok₁ fun x hx => hds x (List.mem_cons_of_mem _ hx)
    refine ⟨s₂, ?_, hok₂⟩
    simp only [List.map_cons, Repository.ensureManifests, bind_ok]
    exact ⟨m, s₁, h₁, h₂⟩

/-- **With a well-formed registry the synchronisation does not raise**, and it only adds snapshots. -/
theorem syncTrustedManifests_ok (hP : P.Registered) (h : ManifestsOK P ss.db) :
    ∃ ss', Service.syncTrustedManifests P ss = .ok ((), ss') ∧ ManifestsOK P ss'.db ∧ Synced ss.db ss'.db := by
  obtain ⟨ss', hok, hm⟩ := ensureManifests_total hP h fun _ hd => hd
  exact ⟨ss', hok, hm, syncTrustedManifests_synced hok⟩

/-- The orders' manifests are found again after a synchronisation. -/
theorem Synced.manifestOf (h : Synced s s') (hs : ManifestsOK P s) {o : WorkOrder} (ho : o ∈ s.orders) :
    manifestOf s' o = manifestOf s o := by
  obtain ⟨new, hn⟩ := h.manifests
  obtain ⟨m, hm, -, -⟩ := hs.manifestOf ho
  unfold Switchboard.manifestOf at hm ⊢
  rw [hn, List.find?_append, hm]
  rfl

end Switchboard
