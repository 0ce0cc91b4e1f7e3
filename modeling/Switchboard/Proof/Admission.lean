import Switchboard.Proof.Reuse
import Switchboard.Proof.Routing
import Switchboard.Spec.Discovery

/-!
# What the service accepts and the worker admits

The service matches the requirements of a manifest and of an order with a registration; the
worker that discovered the registration compares them once more before it runs anything.

* `versionParts_normalized`: registration keeps the parts of a runtime version.
* `capabilitySatisfied_iff`: a requirement that the service accepts is satisfied for the
  worker if and only if both read it alike.
* `validateManifest_admits`: the checks are those of `_validate_manifest`.
* `admits_iff`: which of the accepted requirements and policies the worker admits.
-/

namespace Switchboard

open Transaction

variable {P : Platform}

/-! ## Versions -/

theorem versionPart_fold (hP : P.Unicode) (cs : List Char) (h : ∀ c ∈ cs, PyText.isAsciiDigit c = true) (n : ℕ) :
    cs.foldl (fun acc c => do return 10 * (← acc) + (← P.digit c)) (some n) = some (Nat.ofDigitChars 10 cs n) := by
  induction cs generalizing n with
  | nil => rfl
  | cons c cs ih =>
    have hc : P.digit c = some (c.toNat - 48) := hP.digit_ascii c (h c List.mem_cons_self)
    rw [List.foldl_cons, Nat.ofDigitChars_cons]
    simp only [hc]
    exact ih (fun d hd => h d (List.mem_cons_of_mem _ hd)) _

theorem versionPart_toDigits (hP : P.Unicode) (n : ℕ) : versionPart P (Nat.toDigits 10 n) = some n := by
  unfold versionPart
  rw [if_neg Nat.toDigits_ne_nil, versionPart_fold hP _ fun c hc => PyText.isAsciiDigit_of_toDigits hc]
  rw [Nat.ofDigitChars_ten_toDigits]

/-- `normalized[:1].lower() == "v"`. -/
def leadingV (s : List Char) : Bool := s.head?.any fun c => c == 'v' || c == 'V'

variable (P) in
/-- `_version_parts` of a text without white space around it and without a `v`. -/
def versionGroups (s : List Char) : Option (List ℕ) :=
  if (s.splitOn '.').length ≤ 3 then (s.splitOn '.').mapM (versionPart P) else none

theorem versionParts_of_no_v {value : String} (h : leadingV (PyText.strip value.toList) = false) (b : Bool) :
    versionParts P value b = versionGroups P (PyText.strip value.toList) := by
  unfold versionParts versionGroups
  cases hs : PyText.strip value.toList with
  | nil => rfl
  | cons c cs =>
    have hc : (c == 'v' || c == 'V') = false := by simpa [leadingV, hs] using h
    simp only [hc, Bool.and_false, Bool.false_eq_true, if_false]

/-- A text of digits and dots is read as it stands. -/
theorem versionParts_plain (hP : P.Unicode) {value : String}
    (h : ∀ c ∈ value.toList, (P.digit c).isSome = true ∨ c = '.') (b : Bool) :
    leadingV (PyText.strip value.toList) = false ∧ versionParts P value b = versionGroups P value.toList := by
  have hspace : ∀ c ∈ value.toList, PyText.isSpace c = false := by
    intro c hc
    rcases h c hc with hd | rfl
    · exact hP.digit_space c hd
    · decide
  have hstrip := PyText.strip_eq_self hspace
  have hv : leadingV value.toList = false := by
    cases hs : value.toList with
    | nil => rfl
    | cons c cs =>
      have hc := h c (by rw [hs]; exact List.mem_cons_self)
      by_contra hcontra
      rw [Bool.not_eq_false] at hcontra
      have hletter : c = 'v' ∨ c = 'V' := by simpa [leadingV] using hcontra
      rcases hletter with rfl | rfl
      · simp [hP.digit_letter.1] at hc
      · simp [hP.digit_letter.2] at hc
  rw [← hstrip] at hv
  refine ⟨hv, ?_⟩
  rw [versionParts_of_no_v hv, hstrip]

/-- The parts of a version can be read back from its text. -/
theorem versionParts_versionText (hP : P.Unicode) {parts : List ℕ} (hne : parts ≠ []) (hlen : parts.length ≤ 3)
    (b : Bool) : versionParts P (versionText parts) b = some parts := by
  have hchars : ∀ c ∈ (versionText parts).toList, (P.digit c).isSome = true ∨ c = '.' := by
    intro c hc
    rw [versionText, String.toList_ofList] at hc
    rcases PyText.mem_intercalate hc with hc | ⟨g, hg, hc⟩
    · exact .inr (List.mem_singleton.1 hc)
    · obtain ⟨n, -, rfl⟩ := List.mem_map.1 hg
      rw [hP.digit_ascii c (PyText.isAsciiDigit_of_toDigits hc)]
      exact .inl rfl
  have hsplit : (versionText parts).toList.splitOn '.' = parts.map fun n => Nat.toDigits 10 n := by
    rw [versionText, String.toList_ofList]
    refine List.splitOn_intercalate '.' ?_ (by simpa using hne)
    intro g hg hdot
    obtain ⟨n, -, rfl⟩ := List.mem_map.1 hg
    exact absurd (PyText.isAsciiDigit_of_toDigits hdot) (by decide)
  have hparts : (parts.map fun n => Nat.toDigits 10 n).mapM (versionPart P) = some parts := by
    clear hne hlen hchars hsplit
    induction parts with
    | nil => rfl
    | cons n parts ih =>
      rw [List.map_cons, List.mapM_cons, versionPart_toDigits hP n, ih]
      rfl
  rw [(versionParts_plain hP hchars b).2, versionGroups, hsplit, List.length_map, if_pos hlen, hparts]

/-- **Registration keeps the parts of a runtime version.** -/
theorem versionParts_normalized (hP : P.Unicode) {value normalized : String} {b : Bool}
    (h : normalizeRuntimeVersion P value b = some normalized)
    (hv : b = true → leadingV (PyText.strip value.toList) = false) :
    versionParts P normalized b = versionParts P value b := by
  have hno : leadingV (PyText.strip value.toList) = false := by
    cases b with
    | true => exact hv rfl
    | false =>
      cases hs : PyText.strip value.toList with
      | nil => rfl
      | cons c cs =>
        -- a leading `v` is refused where it is not allowed
        by_contra hcontra
        rw [Bool.not_eq_false] at hcontra
        have hc : (c == 'v' || c == 'V') = true := by simpa [leadingV] using hcontra
        simp [normalizeRuntimeVersion, hs, hc] at h
  have hstripped : leadingV (PyText.strip (String.ofList (PyText.strip value.toList)).toList) = false := by
    rw [String.toList_ofList, PyText.strip_strip]
    exact hno
  have hread : versionParts P (String.ofList (PyText.strip value.toList)) false = versionParts P value b := by
    rw [versionParts_of_no_v hstripped, versionParts_of_no_v hno, String.toList_ofList, PyText.strip_strip]
  have hnormal : normalizeRuntimeVersion P value b = (do
      let parts ← versionParts P (String.ofList (PyText.strip value.toList)) false
      if parts.length = 2 ∨ parts.length = 3 then some (versionText parts) else none) := by
    unfold normalizeRuntimeVersion
    cases hs : PyText.strip value.toList with
    | nil => rfl
    | cons c cs =>
      have hc : (c == 'v' || c == 'V') = false := by simpa [leadingV, hs] using hno
      simp [hc]
  rw [hnormal, hread] at h
  obtain ⟨parts, hparts, htext⟩ := Option.bind_eq_some_iff.1 h
  split at htext
  case isFalse => cases htext
  case isTrue hlen =>
    cases htext
    rw [hparts]
    exact versionParts_versionText hP (by rintro rfl; simp at hlen) (by omega) b

/-! ## Discovered versions -/

theorem semver_digits {line : List Char} {groups : List (List Char)} (h : semver P line = some groups) :
    ∀ g ∈ groups, ∀ c ∈ g, (P.digit c).isSome = true := by
  simp only [semver, Option.ite_none_right_eq_some, Option.some.injEq] at h
  obtain ⟨⟨-, hall⟩, rfl⟩ := h
  intro g hg c hc
  have hg' := List.all_eq_true.1 hall g hg
  rw [Bool.and_eq_true] at hg'
  exact List.all_eq_true.1 hg'.2 c hc

/-- A discovered version consists of digits and dots. -/
theorem parseVersionOutput_chars {output : List Char} {b : Bool} {version : String}
    (h : parseVersionOutput P output b = some version) :
    ∀ c ∈ version.toList, (P.digit c).isSome = true ∨ c = '.' := by
  unfold parseVersionOutput at h
  dsimp only at h
  split at h
  · cases h
  · split at h
    · cases h
    · rename_i groups hsemver
      split at h
      · cases h
      · cases h
        intro c hc
        rw [String.toList_ofList] at hc
        rcases PyText.mem_intercalate hc with hc | ⟨g, hg, hc⟩
        · exact .inr (List.mem_singleton.1 hc)
        · exact .inl (semver_digits hsemver g hg c hc)

theorem toolVersion_no_v (hP : P.Unicode) {probe : HostProbe} {name version : String} {b : Bool}
    (h : toolVersion P probe name b = some version) : leadingV (PyText.strip version.toList) = false := by
  unfold toolVersion at h
  split at h
  · obtain ⟨output, -, hparse⟩ := Option.bind_eq_some_iff.1 h
    exact (versionParts_plain hP (parseVersionOutput_chars hparse) false).1
  · cases h

/-- A version field matches the same requirements before and after registration. -/
theorem runtimeVersionField_matches (hP : P.Unicode) {name : String} {b : Bool} {actual registered : Option String}
    (h : runtimeVersionField P name b actual = .ok registered)
    (hv : ∀ v, actual = some v → b = true → leadingV (PyText.strip v.toList) = false) (required : Json) :
    runtimeVersionMatches P registered required b = runtimeVersionMatches P actual required b := by
  cases actual with
  | none =>
    cases h
    rfl
  | some value =>
    simp only [runtimeVersionField, except_bind_ok] at h
    obtain ⟨-, -, h⟩ := h
    split at h
    · cases h
    · rename_i normalized hnormal
      cases h
      have hparts := versionParts_normalized hP hnormal (hv value rfl)
      unfold runtimeVersionMatches
      cases versionRequirement required with
      | none => rfl
      | some constraint => simp only [hparts]

/-! ## Registrations -/

/-- A registration that passes its contract is the given one with other version texts. -/
theorem workerRegistrationIn_ok {r registered : WorkerRegistration} (h : workerRegistrationIn P r = .ok registered) :
    ∃ pythonVersion nodeVersion pnpmVersion,
      runtimeVersionField P "python_version" false r.declaration.pythonVersion = .ok pythonVersion ∧
      runtimeVersionField P "node_version" true r.declaration.nodeVersion = .ok nodeVersion ∧
      runtimeVersionField P "pnpm_version" false r.declaration.pnpmVersion = .ok pnpmVersion ∧
      registered = { r with declaration := { r.declaration with pythonVersion, nodeVersion, pnpmVersion } } := by
  simp only [workerRegistrationIn, except_bind_ok, except_pure_ok] at h
  obtain ⟨-, -, -, -, -, -, -, -, -, -, pythonVersion, hpython, nodeVersion, hnode, pnpmVersion, hpnpm, -, -, -, -,
    -, -, -, -, -, -, rfl⟩ := h
  exact ⟨pythonVersion, nodeVersion, pnpmVersion, hpython, hnode, hpnpm, rfl⟩

/-- `register_worker` stores the normalised registration. -/
theorem registerWorker_normalised (env : Env) (r : WorkerRegistration) :
    Service.registerWorker P env r = (do
      require (!r.declaration.repositoryWriteCapability)
        (.repositoryWritePolicy "repository_write_capability_must_be_false")
      Repository.upsertWorker (r.normalised P) (env.clock 0)) := rfl

/-! ## Requirements -/

section requirements

variable {config : RegisteredConfig} {probe : HostProbe} {name : String} {required : Json}

/-- The names of `_local_capabilities`. -/
def localNames : List String :=
  ["git_available", "node_available", "pnpm_available", "repository_registry_count", "worker_root_configured",
    "operating_system", "architecture", "python", "node", "pnpm", "docker", "gpu", "unity", "desktop", "browsers",
    "repository_write"]

def aliasNames : List String :=
  ["python_version", "node_version", "pnpm_version", "docker_available", "gpu_available", "unity_available",
    "desktop_available"]

theorem lower_known (hP : P.Unicode) (h : name ∈ localNames ++ aliasNames) : P.lower name = name := by
  have hchars : ∀ n ∈ localNames ++ aliasNames, ∀ c ∈ n.toList, keyChar c = true ∨ c = '_' := by decide +kernel
  exact hP.lower_ascii name (hchars name h)

theorem capabilityKey_eq (h : name ∉ aliasNames) : capabilityKey name = name := by
  unfold capabilityKey
  split
  case h_8 => rfl
  all_goals exact absurd (by decide) h

theorem capabilitySatisfied_known (h : capabilitySatisfied P config probe name required = true) :
    name ∈ localNames ++ aliasNames := by
  by_cases halias : name ∈ aliasNames
  · exact List.mem_append_right _ halias
  · refine List.mem_append_left _ ?_
    unfold capabilitySatisfied at h
    rw [capabilityKey_eq halias] at h
    cases hlookup : lookup (localCapabilities P config probe) name with
    | none => simp [hlookup] at h
    | some actual =>
      obtain ⟨entry, hentry, -⟩ := Option.map_eq_some_iff.1 hlookup
      have hkey : entry.1 = name := by simpa using List.find?_some hentry
      have hnames : (localCapabilities P config probe).map Prod.fst = localNames := rfl
      rw [← hnames, ← hkey]
      exact List.mem_map_of_mem (List.mem_of_find?_eq_some hentry)

theorem requirementSatisfied_platform {platform : String} (hname : name ∉ ["python", "node", "pnpm"]) :
    requirementSatisfied P (.str platform) required name = true ↔ NamesPlatform platform required := by
  unfold requirementSatisfied
  rw [if_neg hname]
  cases required with
  | str s => exact beq_iff_eq.trans eq_comm
  | arr items =>
    simp only [NamesPlatform, List.any_eq_true]
    constructor
    · rintro ⟨item, hitem, heq⟩
      cases item with
      | str s => rw [beq_iff_eq.1 heq]; exact hitem
      | _ => cases heq
    · intro hmem
      exact ⟨_, hmem, beq_self_eq_true platform⟩
  | _ => simp [NamesPlatform]

theorem requirementSatisfied_version {version : Option String} (hname : name ∈ ["python", "node", "pnpm"]) :
    requirementSatisfied P (optionalText version) required name =
      runtimeVersionMatches P version required (name == "node") := by
  unfold requirementSatisfied
  rw [if_pos hname]
  cases version <;> rfl

theorem requirementSatisfied_bool {available b : Bool} (hname : name ∉ ["python", "node", "pnpm"]) :
    requirementSatisfied P (.bool available) (.bool b) name = true ↔ available = b := by
  unfold requirementSatisfied
  rw [if_neg hname]
  exact beq_iff_eq

theorem requirementSatisfied_list {items : List Json} (hname : name ∉ ["python", "node", "pnpm"]) :
    requirementSatisfied P (.arr items) required name = false := by
  unfold requirementSatisfied
  rw [if_neg hname]
  cases required <;> rfl

theorem booleanCapabilityMismatch_none {available : Bool} :
    booleanCapabilityMismatch available name required = none ↔ ∃ b, required = .bool b ∧ (b = true → available = true) := by
  cases required <;> cases available <;> simp [booleanCapabilityMismatch]

theorem repositoryWriteMismatch_none : repositoryWriteMismatch required = none ↔ required = .bool false := by
  cases required <;> simp [repositoryWriteMismatch]

theorem versionMismatch_none {actual : Option String} (h : versionMismatch P actual name required = none) :
    runtimeVersionMatches P actual required (name == "node") = true := by
  unfold versionMismatch at h
  split at h
  · cases h
  · split at h
    · assumption
    · split at h <;> cases h

/-- A capability that is a flag or a count is accepted for the flag it is. -/
theorem customCapabilityMismatch_none {capabilities : List (String × Json)}
    (hflags : ∀ f ∈ capabilities, asStringSet P f.2 = none)
    (h : customCapabilityMismatch P capabilities name required = none) :
    ∃ b, required = .bool b ∧ lookup capabilities name = some (.bool b) := by
  have hnone : (lookup capabilities name).bind (asStringSet P) = none := by
    cases hlookup : lookup capabilities name with
    | none => rfl
    | some actual =>
      obtain ⟨entry, hentry, rfl⟩ := Option.map_eq_some_iff.1 hlookup
      exact hflags entry (List.mem_of_find?_eq_some hentry)
  unfold customCapabilityMismatch at h
  simp only [hnone] at h
  split at h
  · rename_i b
    split at h
    · rename_i a ha
      split at h
      · rename_i hab
        exact ⟨b, rfl, by rw [ha, hab]⟩
      · cases h
    · cases h
  · cases h
  · split at h <;> cases h

theorem discoveredCapabilities_flags : ∀ f ∈ discoveredCapabilities P config probe, asStringSet P f.2 = none := by
  simp [discoveredCapabilities, asStringSet]

theorem lookup_discovered {v : Json} (h : lookup (discoveredCapabilities P config probe) name = some v) :
    name ∈ ["git_available", "node_available", "pnpm_available", "repository_registry_count",
      "worker_root_configured"] := by
  obtain ⟨entry, hentry, -⟩ := Option.map_eq_some_iff.1 h
  have hmem := List.mem_map_of_mem (f := Prod.fst) (List.mem_of_find?_eq_some hentry)
  rw [show entry.1 = name by simpa using List.find?_some hentry] at hmem
  simpa [discoveredCapabilities] using hmem

/-- What a declaration keeps of the discovery it comes from. -/
structure Declared (P : Platform) (config : RegisteredConfig) (probe : HostProbe) (d : WorkerDeclaration) : Prop where
  python : ∀ required, runtimeVersionMatches P d.pythonVersion required false =
    runtimeVersionMatches P (some probe.pythonVersion) required false
  node : ∀ required, runtimeVersionMatches P d.nodeVersion required true =
    runtimeVersionMatches P (probe.nodeVersion P) required true
  pnpm : ∀ required, runtimeVersionMatches P d.pnpmVersion required false =
    runtimeVersionMatches P (probe.pnpmVersion P) required false
  docker : d.dockerAvailable = probe.which "docker"
  absent : d.gpuAvailable = false ∧ d.unityAvailable = false ∧ d.desktopAvailable = false
  capabilities : d.capabilities = discoveredCapabilities P config probe
  networkPolicy : d.networkPolicyCapability = config.networkPolicyCapability

theorem declared_of_registered (hP : P.Unicode) {registered : WorkerRegistration}
    (hreg : workerRegistrationIn P (discoverWorkerRegistration P config probe) = .ok registered) :
    Declared P config probe (registered.normalised P).declaration := by
  obtain ⟨pythonVersion, nodeVersion, pnpmVersion, hpython, hnode, hpnpm, rfl⟩ := workerRegistrationIn_ok hreg
  exact
    { python := runtimeVersionField_matches hP hpython fun _ _ h => nomatch h
      node := runtimeVersionField_matches hP hnode fun v hv _ => toolVersion_no_v hP hv
      pnpm := runtimeVersionField_matches hP hpnpm fun _ _ h => nomatch h
      docker := rfl, absent := ⟨rfl, rfl, rfl⟩, capabilities := rfl, networkPolicy := rfl }

/-! The names one by one: what is accepted for `d` against what is satisfied for the host. -/

variable {d : WorkerDeclaration}

theorem capabilitySatisfied_eq {a : Json} (hkey : capabilityKey name = name)
    (h : lookup (localCapabilities P config probe) name = some a) :
    capabilitySatisfied P config probe name required = requirementSatisfied P a required name := by
  simp only [capabilitySatisfied, hkey, h]

theorem satisfied_version (hd : Declared P config probe d) (hname : name ∈ ["python", "node", "pnpm"])
    (haccept : capabilityMismatch P d name required = none) :
    capabilitySatisfied P config probe name required = true := by
  simp only [List.mem_cons, List.not_mem_nil, or_false] at hname
  rcases hname with rfl | rfl | rfl
  · have hmismatch : versionMismatch P d.pythonVersion "python" required = none := haccept
    have hmatch := versionMismatch_none hmismatch
    rw [capabilitySatisfied_eq rfl (a := optionalText (some probe.pythonVersion)) rfl,
      requirementSatisfied_version (by decide)]
    exact (hd.python required).symm.trans hmatch
  · have hmismatch : versionMismatch P d.nodeVersion "node" required = none := haccept
    have hmatch := versionMismatch_none hmismatch
    rw [capabilitySatisfied_eq rfl (a := optionalText (probe.nodeVersion P)) rfl,
      requirementSatisfied_version (by decide)]
    exact (hd.node required).symm.trans hmatch
  · have hmismatch : versionMismatch P d.pnpmVersion "pnpm" required = none := haccept
    have hmatch := versionMismatch_none hmismatch
    rw [capabilitySatisfied_eq rfl (a := optionalText (probe.pnpmVersion P)) rfl,
      requirementSatisfied_version (by decide)]
    exact (hd.pnpm required).symm.trans hmatch

theorem satisfied_docker (hd : Declared P config probe d) (haccept : capabilityMismatch P d "docker" required = none) :
    capabilitySatisfied P config probe "docker" required = true ↔
      (probe.which "docker" = true → required ≠ .bool false) := by
  obtain ⟨b, rfl, hb⟩ := booleanCapabilityMismatch_none.1 haccept
  rw [hd.docker] at hb
  rw [capabilitySatisfied_eq rfl (a := .bool (probe.which "docker")) rfl, requirementSatisfied_bool (by decide)]
  cases b with
  | true => simp [hb]
  | false => cases probe.which "docker" <;> simp

theorem satisfied_absent (hd : Declared P config probe d)
    (hname : name ∈ ["gpu", "unity", "desktop", "repository_write"])
    (haccept : capabilityMismatch P d name required = none) :
    capabilitySatisfied P config probe name required = true := by
  have hflag : ∀ {n : String}, booleanCapabilityMismatch false n required = none → required = .bool false := by
    intro n h
    obtain ⟨b, rfl, hb⟩ := booleanCapabilityMismatch_none.1 h
    cases b with
    | true => cases hb rfl
    | false => rfl
  obtain ⟨hgpu, hunity, hdesktop⟩ := hd.absent
  have hfalse : required = .bool false := by
    simp only [List.mem_cons, List.not_mem_nil, or_false] at hname
    rcases hname with rfl | rfl | rfl | rfl
    · exact hflag (n := "gpu") (by rw [← hgpu]; exact haccept)
    · exact hflag (n := "unity") (by rw [← hunity]; exact haccept)
    · exact hflag (n := "desktop") (by rw [← hdesktop]; exact haccept)
    · exact repositoryWriteMismatch_none.1 haccept
  subst hfalse
  simp only [List.mem_cons, List.not_mem_nil, or_false] at hname
  rcases hname with rfl | rfl | rfl | rfl <;> rfl

theorem satisfied_custom (hd : Declared P config probe d)
    (haccept : customCapabilityMismatch P d.capabilities name required = none) :
    capabilitySatisfied P config probe name required = true := by
  rw [hd.capabilities] at haccept
  obtain ⟨b, rfl, hlookup⟩ := customCapabilityMismatch_none discoveredCapabilities_flags haccept
  have hname := lookup_discovered hlookup
  have hkey : capabilityKey name = name := by
    revert hname
    simp only [List.mem_cons, List.not_mem_nil, or_false]
    rintro (rfl | rfl | rfl | rfl | rfl) <;> rfl
  have hlocal : lookup (localCapabilities P config probe) name = some (.bool b) := by
    obtain ⟨entry, hentry, hvalue⟩ := Option.map_eq_some_iff.1 hlookup
    have happend : (localCapabilities P config probe).find? (fun f => f.1 == name) = some entry := by
      unfold localCapabilities
      rw [List.find?_append]
      exact congrArg (Option.or · _) hentry
    exact Option.map_eq_some_iff.2 ⟨entry, happend, hvalue⟩
  have hversion : name ∉ ["python", "node", "pnpm"] := by
    revert hname
    simp only [List.mem_cons, List.not_mem_nil, or_false]
    rintro (rfl | rfl | rfl | rfl | rfl) <;> decide
  rw [capabilitySatisfied_eq hkey hlocal]
  exact (requirementSatisfied_bool hversion).2 rfl

/-- What only the service can satisfy. -/
theorem not_satisfied (hname : name ∈ ["browser", "browsers", "network_policy"]) :
    capabilitySatisfied P config probe name required = false := by
  simp only [List.mem_cons, List.not_mem_nil, or_false] at hname
  rcases hname with rfl | rfl | rfl
  · rfl
  · rw [capabilitySatisfied_eq rfl (a := .arr (probe.browsers.map .str)) rfl, requirementSatisfied_list (by decide)]
  · rfl

theorem capabilityMismatch_custom
    (hname : name ∉ ["operating_system", "architecture", "python", "node", "pnpm", "docker", "gpu", "unity", "desktop",
      "browser", "browsers", "repository_write", "network_policy"]) :
    capabilityMismatch P d name required = customCapabilityMismatch P d.capabilities name required := by
  unfold capabilityMismatch
  split
  case h_14 => rfl
  all_goals exact absurd (by decide) hname

/-- Where the name is in lower case, only five names are read differently. -/
theorem agreedRequirement_of_other (hlower : P.lower name = name)
    (hname : name ∉ ["browser", "browsers", "network_policy", "operating_system", "architecture", "docker"]) :
    AgreedRequirement P probe name required := by
  refine ⟨hlower, fun h => hname ?_, ?_, ?_, ?_⟩
  · simp only [List.mem_cons, List.not_mem_nil, or_false] at h ⊢
    rcases h with rfl | rfl | rfl <;> simp
  all_goals
    rintro rfl
    exact absurd (by decide) hname

/-- **A requirement that the service accepts is satisfied for the worker if and only if both read it alike.** -/
theorem capabilitySatisfied_iff (hP : P.Unicode) (hd : Declared P config probe d)
    (haccept : capabilityMismatch P d (P.lower name) required = none) :
    capabilitySatisfied P config probe name required = true ↔ AgreedRequirement P probe name required := by
  by_cases hlower : P.lower name = name
  case neg =>
    -- the worker looks the name up as it stands
    exact ⟨fun h => absurd (lower_known hP (capabilitySatisfied_known h)) hlower, fun h => absurd h.lowerCase hlower⟩
  rw [hlower] at haccept
  by_cases honly : name ∈ ["browser", "browsers", "network_policy"]
  · rw [not_satisfied honly]
    exact ⟨nofun, fun h => absurd honly h.known⟩
  by_cases hos : name = "operating_system"
  · subst hos
    rw [capabilitySatisfied_eq rfl (a := .str (probe.operatingSystem P)) rfl,
      requirementSatisfied_platform (by decide)]
    exact ⟨fun h => ⟨hlower, honly, fun _ => h, nofun, nofun⟩, fun h => h.operatingSystem rfl⟩
  by_cases harch : name = "architecture"
  · subst harch
    rw [capabilitySatisfied_eq rfl (a := .str (probe.architecture P)) rfl, requirementSatisfied_platform (by decide)]
    exact ⟨fun h => ⟨hlower, honly, nofun, fun _ => h, nofun⟩, fun h => h.architecture rfl⟩
  by_cases hdocker : name = "docker"
  · subst hdocker
    rw [satisfied_docker hd haccept]
    exact ⟨fun h => ⟨hlower, honly, nofun, nofun, fun _ => h⟩, fun h => h.docker rfl⟩
  have hagreed : AgreedRequirement P probe name required := by
    refine agreedRequirement_of_other hlower ?_
    simp only [List.mem_cons, List.not_mem_nil, or_false] at honly ⊢
    tauto
  refine ⟨fun _ => hagreed, fun _ => ?_⟩
  by_cases hversion : name ∈ ["python", "node", "pnpm"]
  · exact satisfied_version hd hversion haccept
  by_cases habsent : name ∈ ["gpu", "unity", "desktop", "repository_write"]
  · exact satisfied_absent hd habsent haccept
  · refine satisfied_custom hd ?_
    rw [← haccept]
    refine (capabilityMismatch_custom ?_).symm
    simp only [List.mem_cons, List.not_mem_nil, or_false] at honly hversion habsent ⊢
    tauto

end requirements

/-! ## Mappings and policies -/

section mappings

variable {config : RegisteredConfig} {probe : HostProbe} {d : WorkerDeclaration}
  {manifestRequirements requestedRequirements requirements : List (String × Json)}
  {manifestPolicy orderPolicy : NetworkPolicy}

theorem matchCapabilityMapping_nil : matchCapabilityMapping P d requirements = [] ↔
    ∀ r ∈ requirements, capabilityMismatch P d (P.lower r.1) r.2 = none := by
  unfold matchCapabilityMapping
  exact List.filterMap_eq_nil_iff

theorem matchWorkerCapabilities_nil
    (h : matchWorkerCapabilities P d manifestRequirements requestedRequirements orderPolicy = []) :
    matchCapabilityMapping P d manifestRequirements = [] ∧ matchCapabilityMapping P d requestedRequirements = [] ∧
      networkPolicyUnsupported d.networkPolicyCapability orderPolicy = none := by
  unfold matchWorkerCapabilities at h
  rw [eraseDups_eq_nil] at h
  simp only [List.append_eq_nil_iff, Option.toList_eq_nil_iff] at h
  obtain ⟨⟨⟨hmanifest, hrequested⟩, hpolicy⟩, -⟩ := h
  exact ⟨hmanifest, hrequested, hpolicy⟩

theorem validateCapabilities_ok : validateCapabilities P config probe requirements = .ok () ↔
    ∀ r ∈ requirements, capabilitySatisfied P config probe r.1 r.2 = true := by
  unfold validateCapabilities
  rw [except_forM_ok]
  exact forall₂_congr fun _ _ => ensure_ok

theorem validateCapabilities_iff (hP : P.Unicode) (hd : Declared P config probe d)
    (haccept : matchCapabilityMapping P d requirements = []) :
    validateCapabilities P config probe requirements = .ok () ↔
      ∀ r ∈ requirements, AgreedRequirement P probe r.1 r.2 := by
  rw [validateCapabilities_ok]
  have haccept' := matchCapabilityMapping_nil.1 haccept
  exact forall₂_congr fun r hr => capabilitySatisfied_iff hP hd (haccept' r hr)

/-- The service turns an order away only from a worker without the network it asks for. -/
theorem orderPolicy_iff {offered : NetworkPolicy} (h : networkPolicyUnsupported offered orderPolicy = none) :
    orderPolicy = offered ↔ ¬ (orderPolicy = .disabled ∧ offered = .workerRestricted) := by
  cases orderPolicy <;> cases offered <;> simp_all [networkPolicyUnsupported]

/-- A manifest that the worker accepts has passed these checks. -/
theorem validateManifest_admits {host : Host} (hprobed : host.Probed P config probe) {m manifest : TrustedManifest}
    {remote : SafeManifest} {order : AssignedWorkOrder}
    (h : validateManifest P host (some m) remote order = .ok manifest) :
    Admits P config probe m.metadata.requiredCapabilities order.spec.requiredCapabilities m.metadata.networkPolicy
      order.spec.networkPolicy := by
  simp only [validateManifest, except_bind_ok, ensure_ok, beq_iff_eq] at h
  obtain ⟨-, -, -, -, -, -, -, -, -, horder, -, hmanifest, -, -, -, -, -, hcapabilities, -, hrequested, -⟩ := h
  rw [hprobed.configured] at horder hmanifest
  exact ⟨(hprobed.satisfies _).1 hcapabilities, (hprobed.satisfies _).1 hrequested, horder, hmanifest⟩

/-- **Which accepted requirements the worker admits.** For a registration that the service has accepted, and
requirements and a policy that it matches with it, the checks of the worker pass if and only if every requirement is
read alike on both sides, the order does not forbid the network that the worker offers, and the manifest has the
worker's policy. -/
theorem admits_iff (P : Platform) (hP : P.Unicode) (config : RegisteredConfig) (probe : HostProbe)
    (registered : WorkerRegistration)
    (hreg : workerRegistrationIn P (discoverWorkerRegistration P config probe) = .ok registered)
    (manifestRequirements requestedRequirements : List (String × Json)) (manifestPolicy orderPolicy : NetworkPolicy)
    (haccept : matchWorkerCapabilities P (registered.normalised P).declaration manifestRequirements
      requestedRequirements orderPolicy = []) :
    Admits P config probe manifestRequirements requestedRequirements manifestPolicy orderPolicy ↔
      (∀ r ∈ manifestRequirements ++ requestedRequirements, AgreedRequirement P probe r.1 r.2) ∧
      ¬ (orderPolicy = .disabled ∧ config.networkPolicyCapability = .workerRestricted) ∧
      manifestPolicy = config.networkPolicyCapability := by
  have hd := declared_of_registered hP hreg
  obtain ⟨hmanifest, hrequested, hpolicy⟩ := matchWorkerCapabilities_nil haccept
  rw [hd.networkPolicy] at hpolicy
  have hm := validateCapabilities_iff hP hd hmanifest
  have hr := validateCapabilities_iff hP hd hrequested
  have ho := orderPolicy_iff hpolicy
  constructor
  · intro h
    refine ⟨fun r hmem => ?_, ho.1 h.orderPolicy, h.manifestPolicy⟩
    rcases List.mem_append.1 hmem with hmem | hmem
    · exact hm.1 h.manifest r hmem
    · exact hr.1 h.order r hmem
  · rintro ⟨hagreed, horder, hpolicies⟩
    exact
      { manifest := hm.2 fun r hmem => hagreed r (List.mem_append_left _ hmem)
        order := hr.2 fun r hmem => hagreed r (List.mem_append_right _ hmem)
        orderPolicy := ho.2 horder
        manifestPolicy := hpolicies }

end mappings

/-! ## A host with Chromium -/

/-- The platform of the samples with the ASCII part of the Unicode tables. -/
def asciiPlatform : Platform :=
  { samplePlatform with
    lower := fun s => String.ofList (s.toList.map Char.toLower)
    digit := fun c => if PyText.isAsciiDigit c then some (c.toNat - 48) else none }

theorem toLower_keyChar {c : Char} (h : keyChar c = true ∨ c = '_') : c.toLower = c := by
  have hrange : ¬ (c.val ≥ 'A'.val ∧ c.val ≤ 'Z'.val) := by
    rintro ⟨hA, hZ⟩
    have hA' : 65 ≤ c.val.toNat := hA
    have hZ' : c.val.toNat ≤ 90 := hZ
    rcases h with h | rfl
    · simp only [keyChar, PyText.isAsciiDigit, Bool.or_eq_true, Bool.and_eq_true, decide_eq_true_eq] at h
      rcases h with ⟨h, -⟩ | ⟨-, h⟩
      · have : 97 ≤ c.val.toNat := h
        omega
      · have : c.val.toNat ≤ 57 := h
        omega
    · exact absurd hZ' (by decide)
  unfold Char.toLower
  rw [dif_neg hrange]

theorem asciiPlatform_unicode : asciiPlatform.Unicode where
  lower_ascii := by
    intro s hs
    have hmap : s.toList.map Char.toLower = s.toList := by
      conv_rhs => rw [← List.map_id s.toList]
      exact List.map_congr_left fun c hc => toLower_keyChar (hs c hc)
    simp only [asciiPlatform, hmap, String.ofList_toList]
  digit_ascii := by
    intro c hc
    simp only [asciiPlatform, hc, if_true]
  digit_letter := by decide
  digit_space := by
    intro c hc
    have hdigit : PyText.isAsciiDigit c = true := by
      by_contra h
      simp [asciiPlatform, h] at hc
    simp only [PyText.isAsciiDigit, Bool.and_eq_true, decide_eq_true_eq] at hdigit
    obtain ⟨hlow, hhigh⟩ := hdigit
    have hlow' : 48 ≤ c.toNat := hlow
    have hhigh' : c.toNat ≤ 57 := hhigh
    simp only [PyText.isSpace, Bool.or_eq_false_iff, Bool.and_eq_false_iff, decide_eq_false_iff_not, beq_eq_false_iff_ne]
    omega

def sampleConfig : RegisteredConfig :=
  { workerId := "w", networkPolicyCapability := .workerRestricted, executionTimeoutSeconds := 120
    maximumStepTimeoutSeconds := 3600, outputSummaryLimit := 4096, displayName := "worker"
    repositories := ["org/repo"], maxConcurrency := 1 }

def sampleProbe : HostProbe :=
  { system := "Linux", machine := "x86_64", pythonVersion := "3.12.4"
    which := fun name => name ∈ ["git", "chromium", "node"]
    versionOutput := fun _ => some "v22.14.0\n".toList }

theorem eq_ok_of_toOption {x : Except InputError WorkerRegistration} {r : WorkerRegistration}
    (h : x.toOption = some r) : x = .ok r := by
  cases x with
  | error e => cases h
  | ok r' => cases h; rfl

/-- The host is registered, and the service accepts its Node, its platform and its browser. -/
theorem sampleProbe_accepted :
    ∃ registered,
      workerRegistrationIn asciiPlatform (discoverWorkerRegistration asciiPlatform sampleConfig sampleProbe) =
        .ok registered ∧
      matchWorkerCapabilities asciiPlatform (registered.normalised asciiPlatform).declaration
        [("node", .obj [("exact", .str "22.14.0")])] [("operating_system", .arr [.str "linux"])] .workerRestricted = [] ∧
      matchWorkerCapabilities asciiPlatform (registered.normalised asciiPlatform).declaration
        [("browsers", .arr [.str "chromium"])] [] .workerRestricted = [] := by
  have hmatch : ((workerRegistrationIn asciiPlatform
      (discoverWorkerRegistration asciiPlatform sampleConfig sampleProbe)).toOption.map fun registered =>
        (matchWorkerCapabilities asciiPlatform (registered.normalised asciiPlatform).declaration
          [("node", .obj [("exact", .str "22.14.0")])] [("operating_system", .arr [.str "linux"])] .workerRestricted,
        matchWorkerCapabilities asciiPlatform (registered.normalised asciiPlatform).declaration
          [("browsers", .arr [.str "chromium"])] [] .workerRestricted)) = some ([], []) := by decide +kernel
  obtain ⟨registered, hsome, hpair⟩ := Option.map_eq_some_iff.1 hmatch
  rw [Prod.mk.injEq] at hpair
  exact ⟨registered, eq_ok_of_toOption hsome, hpair⟩

/-- A worker with Node on Linux admits what the service accepts for it. -/
theorem admits_sample :
    ∃ registered, workerRegistrationIn asciiPlatform (discoverWorkerRegistration asciiPlatform sampleConfig sampleProbe) =
        .ok registered ∧
      matchWorkerCapabilities asciiPlatform (registered.normalised asciiPlatform).declaration
        [("node", .obj [("exact", .str "22.14.0")])] [("operating_system", .arr [.str "linux"])] .workerRestricted = [] ∧
      Admits asciiPlatform sampleConfig sampleProbe [("node", .obj [("exact", .str "22.14.0")])]
        [("operating_system", .arr [.str "linux"])] .workerRestricted .workerRestricted := by
  obtain ⟨registered, hreg, haccept, -⟩ := sampleProbe_accepted
  refine ⟨registered, hreg, haccept, ?_⟩
  refine (admits_iff asciiPlatform asciiPlatform_unicode sampleConfig sampleProbe registered hreg _ _ _ _ haccept).2
    ⟨?_, nofun, rfl⟩
  intro r hr
  simp only [List.cons_append, List.nil_append, List.mem_cons, List.not_mem_nil, or_false] at hr
  rcases hr with rfl | rfl
  · exact ⟨by decide, by decide, nofun, nofun, nofun⟩
  · exact ⟨by decide, by decide, fun _ => List.mem_cons_self, nofun, nofun⟩

/-- The service accepts a required browser that the host has; the worker never does. -/
theorem browsers_not_admitted :
    ∃ registered, workerRegistrationIn asciiPlatform (discoverWorkerRegistration asciiPlatform sampleConfig sampleProbe) =
        .ok registered ∧
      matchWorkerCapabilities asciiPlatform (registered.normalised asciiPlatform).declaration
        [("browsers", .arr [.str "chromium"])] [] .workerRestricted = [] ∧
      ¬ Admits asciiPlatform sampleConfig sampleProbe [("browsers", .arr [.str "chromium"])] [] .workerRestricted
        .workerRestricted := by
  obtain ⟨registered, hreg, -, haccept⟩ := sampleProbe_accepted
  refine ⟨registered, hreg, haccept, fun h => ?_⟩
  have hsatisfied := validateCapabilities_ok.1 h.manifest _ List.mem_cons_self
  rw [not_satisfied (by decide)] at hsatisfied
  cases hsatisfied

end Switchboard
