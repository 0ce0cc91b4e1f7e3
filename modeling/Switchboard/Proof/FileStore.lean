import Switchboard.Lib.Run
import Switchboard.Spec.FileStore

/-!
# Digests of live files

A cached digest is served as long as it is there. It is right as long as no file is written
under one spelling of its path while another spelling has a digest of other bytes.

* `putFile_ok`: what a `put_file` that did not fail has done.
* `fresh_step_iff`: a call keeps the cached digests right, unless it writes past one of
  another spelling.
* `etags_current_iff`: the ETags are right all along a run if and only if no call does that.
-/

namespace Switchboard

open Table

section lookups

variable {s : FileStore} {location other : Location} {data : Bytes} {root : Location}

theorem fileAt_location {file : StoredFile} (h : s.fileAt location = some file) : file.location = location := by
  simpa using List.find?_some h

theorem entryFor_path {relPath : String} {e : FileEntry} (h : s.entryFor relPath = some e) : e.path = relPath := by
  simpa using List.find?_some h

/-- The write goes through. -/
def Writes (root location : Location) (s : FileStore) : Prop :=
  (∀ p ∈ location.inits.dropLast, s.fileAt p = none) ∧ s.isDirectory root location = false

theorem writeBytesAtomic_ok {s' : FileStore} (h : writeBytesAtomic root location data s = .ok s') :
    Writes root location s ∧ s'.entries = s.entries ∧
      ∀ other, s'.fileAt other = if other = location then some ⟨location, data⟩ else s.fileAt other := by
  unfold writeBytesAtomic at h
  by_cases hparents : (location.inits.dropLast.any fun p => (s.fileAt p).isSome) = true
  · rw [if_pos hparents] at h; cases h
  rw [if_neg hparents] at h
  cases hdir : s.isDirectory root location with
  | true => rw [hdir, if_pos rfl] at h; cases h
  | false =>
    rw [hdir, if_neg (by simp)] at h
    obtain rfl := Except.ok.inj h
    refine ⟨⟨fun p hp => ?_, hdir⟩, rfl, fun other => ?_⟩
    · by_contra hsome
      exact hparents (List.any_eq_true.2 ⟨p, hp, Option.isSome_iff_ne_none.2 hsome⟩)
    · show List.find? (fun f : StoredFile => f.location == other) (_ :: _) = _
      by_cases hother : other = location
      · subst hother
        simp
      · have hne : ¬ location = other := fun he => hother he.symm
        rw [List.find?_cons_of_neg (by simpa using hne), if_neg hother]
        refine find?_deleteWhere fun f hf => ?_
        have hf' : f.location = other := by simpa using hf
        simp [hf', hother]

theorem writeBytesAtomic_of_writes (h : Writes root location s) (data : Bytes) :
    ∃ s', writeBytesAtomic root location data s = .ok s' := by
  unfold writeBytesAtomic
  rw [if_neg, h.2, if_neg (by simp)]
  · exact ⟨_, rfl⟩
  · intro hany
    obtain ⟨p, hp, hsome⟩ := List.any_eq_true.1 hany
    rw [h.1 p hp] at hsome
    cases hsome

theorem entryFor_saveEntry {entry : FileEntry} {relPath : String} :
    (s.saveEntry entry).entryFor relPath = if relPath = entry.path then some entry else s.entryFor relPath := by
  unfold FileStore.saveEntry
  cases h : s.entryFor entry.path with
  | none =>
    show List.find? (fun e : FileEntry => e.path == relPath) (s.entries ++ [entry]) = _
    rw [List.find?_append]
    by_cases hpath : relPath = entry.path
    · subst hpath
      rw [show List.find? (fun e : FileEntry => e.path == entry.path) s.entries = none from h]
      simp
    · have hne : ¬ entry.path = relPath := fun he => hpath he.symm
      simp [FileStore.entryFor, hpath, hne]
  | some e =>
    have hfind := find?_updateWhere (t := s.entries) (p := fun e => e.path == entry.path)
      (q := fun e => e.path == relPath) (f := fun e => { e with sha256 := entry.sha256, size := entry.size })
      fun _ => rfl
    refine hfind.trans ?_
    by_cases hpath : relPath = entry.path
    · subst hpath
      rw [show List.find? (fun e : FileEntry => e.path == entry.path) s.entries = some e from h]
      have he := entryFor_path h
      simp [he]
    · rw [if_neg hpath]
      change (s.entryFor relPath).map _ = s.entryFor relPath
      cases h' : s.entryFor relPath with
      | none => rfl
      | some e' =>
        have he' := entryFor_path h'
        simp [he', hpath]

theorem fileAt_saveEntry {entry : FileEntry} : (s.saveEntry entry).fileAt location = s.fileAt location := by
  unfold FileStore.saveEntry
  split
  · rfl
  · rfl

end lookups

section operations

variable {sha256 : Bytes → String} {root : Location} {s s' : FileStore} {relPath : String} {data : Bytes}
  {writable : Bool}

/-- The call writes `data` at `location`. -/
structure PutsAt (root : Location) (writable : Bool) (relPath : String) (s : FileStore) (location : Location) :
    Prop where
  taken : writable = true
  resolves : fullPath root relPath = .ok location
  writes : Writes root location s

/-- **What `put_file` has done.** -/
theorem putFile_ok {result : FileWriteResult} (h : putFile sha256 root writable relPath data s = .ok (result, s')) :
    ∃ location, PutsAt root writable relPath s location ∧
      (∀ other, s'.fileAt other = if other = location then some ⟨location, data⟩ else s.fileAt other) ∧
      ∀ path, s'.entryFor path =
        if path = relPath then some ⟨relPath, sha256 data, data.length⟩ else s.entryFor path := by
  unfold putFile at h
  cases writable with
  | false => cases h
  | true =>
    cases hpath : fullPath root relPath with
    | error e => rw [hpath] at h; cases h
    | ok location =>
      rw [hpath] at h
      cases hwrite : writeBytesAtomic root location data s with
      | error e =>
        change (writeBytesAtomic root location data s >>= _) = _ at h
        rw [hwrite] at h; cases h
      | ok s₁ =>
        change (writeBytesAtomic root location data s >>= _) = _ at h
        rw [hwrite] at h
        obtain ⟨hwrites, hentries, hfiles⟩ := writeBytesAtomic_ok hwrite
        obtain ⟨-, rfl⟩ := Prod.mk.inj (Except.ok.inj h)
        refine ⟨location, ⟨rfl, hpath, hwrites⟩, fun other => ?_, fun path => ?_⟩
        · rw [fileAt_saveEntry, hfiles]
        · rw [entryFor_saveEntry]
          unfold FileStore.entryFor
          rw [hentries]

theorem putFile_of_putsAt (sha256 : Bytes → String) {location : Location} (h : PutsAt root writable relPath s location) (data : Bytes) :
    ∃ r, putFile sha256 root writable relPath data s = .ok r := by
  obtain ⟨rfl, hpath, hwrites⟩ := h
  obtain ⟨s₁, hwrite⟩ := writeBytesAtomic_of_writes hwrites data
  refine ⟨(⟨sha256 data, data.length⟩, s₁.saveEntry ⟨relPath, sha256 data, data.length⟩), ?_⟩
  unfold putFile
  rw [hpath]
  show (writeBytesAtomic root location data s >>= _) = _
  rw [hwrite]
  rfl

/-! ## Fresh digests -/

/-- **ETags are never stale**: for every accepted path with a file, `etag_for_path` answers with the quoted digest
of the bytes that are there now. -/
def EtagsCurrent (sha256 : Bytes → String) (root : Location) (s : FileStore) : Prop :=
  ∀ relPath location file, fullPath root relPath = .ok location → s.fileAt location = some file →
    ∃ s', etagForPath sha256 root relPath s = .ok (some ("\"" ++ sha256 file.data ++ "\""), s')

/-- Every cached digest is that of the file. -/
def Fresh (sha256 : Bytes → String) (root : Location) (s : FileStore) : Prop :=
  ∀ relPath location file e, fullPath root relPath = .ok location → s.fileAt location = some file →
    s.entryFor relPath = some e → e.sha256 ≠ "" → e.sha256 = sha256 file.data

/-- The answer for a path with a file. -/
theorem etagForPath_file {location : Location} {file : StoredFile} (hpath : fullPath root relPath = .ok location)
    (hfile : s.fileAt location = some file) :
    etagForPath sha256 root relPath s =
      match (s.entryFor relPath).filter fun e => e.sha256 != "" with
      | some e => .ok (some ("\"" ++ e.sha256 ++ "\""), s)
      | none => .ok (some ("\"" ++ sha256 file.data ++ "\""),
          s.saveEntry ⟨relPath, sha256 file.data, file.data.length⟩) := by
  have hexists : s.pathExists root location = true := by
    unfold FileStore.pathExists
    rw [hfile]; rfl
  unfold etagForPath ensureEntrySha
  rw [hpath]
  show (if (!s.pathExists root location) = true then _ else _) = _
  rw [hexists, if_neg (by simp)]
  cases hentry : (s.entryFor relPath).filter fun e => e.sha256 != "" with
  | some e => rfl
  | none =>
    show (if (!s.pathExists root location) = true then _ else _) >>= _ = _
    rw [hexists, if_neg (by simp), hfile]
    rfl

/-- What `etag_for_path` has done to the store. -/
theorem etagForPath_ok {r : Option String × FileStore} (h : etagForPath sha256 root relPath s = .ok r) :
    r.2 = s ∨ ∃ location file, fullPath root relPath = .ok location ∧ s.fileAt location = some file ∧
      r.2 = s.saveEntry ⟨relPath, sha256 file.data, file.data.length⟩ := by
  cases hpath : fullPath root relPath with
  | error e => unfold etagForPath at h; rw [hpath] at h; cases h
  | ok location =>
    cases hfile : s.fileAt location with
    | some file =>
      rw [etagForPath_file hpath hfile] at h
      split at h
      · exact Or.inl (Except.ok.inj h ▸ rfl)
      · exact Or.inr ⟨location, file, rfl, hfile, Except.ok.inj h ▸ rfl⟩
    | none =>
      refine Or.inl ?_
      unfold etagForPath ensureEntrySha at h
      rw [hpath] at h
      change (if (!s.pathExists root location) = true then _ else _) = _ at h
      split at h
      · exact Except.ok.inj h ▸ rfl
      · rename_i hexists
        split at h
        · exact Except.ok.inj h ▸ rfl
        · change ((if (!s.pathExists root location) = true then _ else _) >>= _) = _ at h
          rw [if_neg hexists, hfile] at h
          cases h

theorem etagsCurrent_iff_fresh : EtagsCurrent sha256 root s ↔ Fresh sha256 root s := by
  constructor
  · intro h relPath location file e hpath hfile hentry hne
    obtain ⟨s', hetag⟩ := h relPath location file hpath hfile
    rw [etagForPath_file hpath hfile, hentry, Option.filter_some, if_pos (by simpa using hne)] at hetag
    have hquoted := Option.some.inj (Prod.mk.inj (Except.ok.inj hetag)).1
    simpa using hquoted
  · intro h relPath location file hpath hfile
    rw [etagForPath_file hpath hfile]
    cases hentry : (s.entryFor relPath).filter fun e => e.sha256 != "" with
    | none => exact ⟨_, rfl⟩
    | some e =>
      obtain ⟨hentry, hne⟩ := Option.filter_eq_some_iff.1 hentry
      refine ⟨s, ?_⟩
      show Except.ok (some ("\"" ++ e.sha256 ++ "\""), s) = _
      rw [h relPath location file e hpath hfile hentry (by simpa using hne)]

/-- **The call writes past a digest**: it changes the file of a path while another spelling of the path has a
digest that is not that of the new bytes. -/
def WritesPastDigest (sha256 : Bytes → String) (root : Location) (s : FileStore) : FileCall → Prop
  | .putFile writable relPath data => ∃ location e, PutsAt root writable relPath s location ∧
      e.path ≠ relPath ∧ fullPath root e.path = .ok location ∧ s.entryFor e.path = some e ∧ e.sha256 ≠ "" ∧
      e.sha256 ≠ sha256 data
  | .etagForPath _ => False

/-- **A call keeps the digests right if and only if it does not write past one.** -/
theorem fresh_step_iff (h : Fresh sha256 root s) (c : FileCall) :
    Fresh sha256 root (stepFiles sha256 root s c) ↔ ¬ WritesPastDigest sha256 root s c := by
  cases c with
  | putFile writable relPath data =>
    cases hput : putFile sha256 root writable relPath data s with
    | error e =>
      have hsame : stepFiles sha256 root s (.putFile writable relPath data) = s := by
        simp only [stepFiles, hput]
      rw [hsame]
      refine iff_of_true h ?_
      rintro ⟨location, -, hputs, -⟩
      obtain ⟨r, hr⟩ := putFile_of_putsAt sha256 hputs data
      rw [hput] at hr; cases hr
    | ok r =>
      obtain ⟨result, s'⟩ := r
      have hafter : stepFiles sha256 root s (.putFile writable relPath data) = s' := by
        simp only [stepFiles, hput]
      obtain ⟨location, hputs, hfiles, hentries⟩ := putFile_ok hput
      rw [hafter]
      constructor
      · rintro hfresh ⟨location', e, hputs', hne, hpath, hentry, hnonempty, hdiff⟩
        obtain rfl : location' = location := Except.ok.inj (hputs'.resolves.symm.trans hputs.resolves)
        refine hdiff (hfresh e.path location' ⟨location', data⟩ e hpath ?_ ?_ hnonempty)
        · rw [hfiles, if_pos rfl]
        · rw [hentries, if_neg hne]; exact hentry
      · intro hno path location' file e hpath hfile hentry hnonempty
        rw [hfiles] at hfile
        rw [hentries] at hentry
        by_cases hpath' : path = relPath
        · -- the digest that was just stored
          subst hpath'
          obtain rfl : location = location' := Except.ok.inj (hputs.resolves.symm.trans hpath)
          rw [if_pos rfl] at hfile hentry
          rw [← Option.some.inj hentry, ← Option.some.inj hfile]
        · rw [if_neg hpath'] at hentry
          by_cases hlocation : location' = location
          · subst hlocation
            rw [if_pos rfl] at hfile
            rw [← Option.some.inj hfile]
            by_contra hdiff
            obtain rfl := entryFor_path hentry
            exact hno ⟨location', e, hputs, hpath', hpath, hentry, hnonempty, hdiff⟩
          · rw [if_neg hlocation] at hfile
            exact h path location' file e hpath hfile hentry hnonempty
  | etagForPath relPath =>
    refine iff_of_true ?_ fun hfalse => hfalse
    cases hetag : etagForPath sha256 root relPath s with
    | error e =>
      have hsame : stepFiles sha256 root s (.etagForPath relPath) = s := by simp only [stepFiles, hetag]
      rw [hsame]; exact h
    | ok r =>
      have hafter : stepFiles sha256 root s (.etagForPath relPath) = r.2 := by simp only [stepFiles, hetag]
      rw [hafter]
      rcases etagForPath_ok hetag with hsame | ⟨location, file, hpath, hfile, hsaved⟩
      · rw [hsame]; exact h
      · rw [hsaved]
        intro path location' file' e hpath' hfile' hentry hnonempty
        rw [fileAt_saveEntry] at hfile'
        rw [entryFor_saveEntry] at hentry
        by_cases hsame : path = relPath
        · subst hsame
          obtain rfl : location = location' := Except.ok.inj (hpath.symm.trans hpath')
          obtain rfl : file = file' := Option.some.inj (hfile.symm.trans hfile')
          rw [if_pos rfl] at hentry
          rw [← Option.some.inj hentry]
        · rw [if_neg hsame] at hentry
          exact h path location' file' e hpath' hfile' hentry hnonempty

end operations

/-- **The ETags are right all along a run, from a store without cached digests, if and only if no call writes past
one.** -/
theorem etags_current_iff (sha256 : Bytes → String) (root : Location) (files : List StoredFile)
    (directories : List Location) (calls : List FileCall) :
    (∀ pre, pre <+: calls → EtagsCurrent sha256 root (runFiles sha256 root ⟨files, directories, []⟩ pre)) ↔
      ∀ pre c, pre ++ [c] <+: calls →
        ¬ WritesPastDigest sha256 root (runFiles sha256 root ⟨files, directories, []⟩ pre) c := by
  have hstart : Fresh sha256 root ⟨files, directories, []⟩ := fun _ _ _ _ _ _ hentry => by cases hentry
  have hall : (∀ pre, pre <+: calls → EtagsCurrent sha256 root (runFiles sha256 root ⟨files, directories, []⟩ pre)) ↔
      ∀ pre, pre <+: calls → Fresh sha256 root (runFiles sha256 root ⟨files, directories, []⟩ pre) :=
    forall₂_congr fun _ _ => etagsCurrent_iff_fresh
  rw [hall]
  exact Run.prefixes_iff (I := fun _ => True) (P := Fresh sha256 root)
    (G := fun s c => ¬ WritesPastDigest sha256 root s c) (fun _ _ _ => trivial) trivial hstart
    (fun s c _ h => fresh_step_iff h c) calls

/-! ### Two spellings of one file -/

/-- SHA-256 of the one-byte files `a` and `b`. -/
def oneByteSha256 (data : Bytes) : String :=
  if data = [97] then "ca978112ca1bbdcafac231b39a23dc4da786eff8147c4e72b9807785afee48bb"
  else if data = [98] then "3e23e8160039594a33894f6564e1b1348bbd7a0088d42c4acb73eeaed59c009d"
  else ""

/-- A file, its digest under another spelling, and new bytes. -/
def respelledRun : List FileCall :=
  [.putFile true "a.txt" [97], .etagForPath "./a.txt", .putFile true "a.txt" [98]]

/-- **The ETag of the other spelling is that of the old bytes.** -/
theorem etag_stale :
    ¬ EtagsCurrent oneByteSha256 ["srv".toList, "files".toList]
      (runFiles oneByteSha256 ["srv".toList, "files".toList] ⟨[], [], []⟩ respelledRun) := by
  have hpath : fullPath ["srv".toList, "files".toList] "./a.txt" =
      .ok ["srv".toList, "files".toList, "a.txt".toList] := by decide +kernel
  have hfile : (runFiles oneByteSha256 ["srv".toList, "files".toList] ⟨[], [], []⟩ respelledRun).fileAt
      ["srv".toList, "files".toList, "a.txt".toList] =
      some ⟨["srv".toList, "files".toList, "a.txt".toList], [98]⟩ := by decide +kernel
  have hentry : (runFiles oneByteSha256 ["srv".toList, "files".toList] ⟨[], [], []⟩ respelledRun).entryFor "./a.txt" =
      some ⟨"./a.txt", "ca978112ca1bbdcafac231b39a23dc4da786eff8147c4e72b9807785afee48bb", 1⟩ := by decide +kernel
  rw [etagsCurrent_iff_fresh]
  intro h
  have hsame := h "./a.txt" _ _ _ hpath hfile hentry (by decide)
  revert hsame
  decide

end Switchboard
