import Switchboard.Proof.AssociationUrls
import Switchboard.Proof.ParserErrors

/-!
# What escapes from the decoders of the transport

The callers of the transport handle `GitHubTransportError` and nothing else. Three primitives raise something of
their own: `json.loads` and the recursion of the size check, the hash of a state that is a list or a mapping, and
the URL of an association that cannot be split.

* `InVocabulary`: an exception is a transport error, with the rules of the combinators.
* `decodeRepository_inVocabulary`, `decodeActor_inVocabulary`: the decoders that keep to it.
* `validateJsonLimits_inVocabulary`: the size check, up to the nodes that it can reach.
* `decodeJson_inVocabulary`, `decodePullRequest_inVocabulary`, `decodeIssueAssociation_inVocabulary`,
  `decodeComment_inVocabulary`: the others, with the inputs that get out.
* `decoders_inVocabulary_iff`: all of them.
-/

namespace Switchboard

open PyText Transaction
open JsonText (Value)

variable {α β : Type} {T : Url.Tables} {U : CharTable} {R : JsonReader} {value : GitHubJson}

/-! ## The vocabulary -/

/-- The exception is a `GitHubTransportError`. -/
def DecodeException.IsTransport (e : DecodeException) : Prop := ∃ reason, e = .transport reason

/-- Whatever is raised is a `GitHubTransportError`. -/
def InVocabulary (x : DecodeM α) : Prop := Raises DecodeException.IsTransport x

theorem inVocabulary_ok {a : α} : InVocabulary (.ok a) := raises_ok

theorem inVocabulary_pure {a : α} : InVocabulary (pure a) := raises_ok

theorem inVocabulary_transport (reason : String) : InVocabulary (.error (.transport reason) : DecodeM α) :=
  raises_error.2 ⟨reason, rfl⟩

theorem inVocabulary_error {e : DecodeException} : InVocabulary (.error e : DecodeM α) ↔ e.IsTransport := raises_error

theorem inVocabulary_ensure {c : Bool} (reason : String) : InVocabulary (ensure c (.transport reason)) :=
  raises_ensure ⟨reason, rfl⟩

theorem inVocabulary_bind {x : DecodeM α} {f : α → DecodeM β} :
    InVocabulary (x >>= f) ↔ InVocabulary x ∧ ∀ a, x = .ok a → InVocabulary (f a) := by
  constructor
  · intro h
    refine ⟨fun e he => h e ?_, fun a ha e he => h e ?_⟩
    · exact except_bind_error.2 (.inl he)
    · exact except_bind_error.2 (.inr ⟨a, ha, he⟩)
  · rintro ⟨hx, hf⟩
    exact raises_bind hx hf

/-- After a check that raises a transport error. -/
theorem inVocabulary_ensure_bind {c : Bool} {reason : String} {f : Unit → DecodeM β} :
    InVocabulary (ensure c (.transport reason) >>= f) ↔ (c = true → InVocabulary (f ())) := by
  rw [inVocabulary_bind, and_iff_right (inVocabulary_ensure reason)]
  constructor
  · intro h hc
    exact h () (ensure_ok.2 hc)
  · intro h u hu
    exact h (ensure_ok.1 hu)

/-- After a computation that keeps to the vocabulary. -/
theorem inVocabulary_after {x : DecodeM α} {f : α → DecodeM β} (hx : InVocabulary x)
    (hf : ∀ a, InVocabulary (f a)) : InVocabulary (x >>= f) :=
  inVocabulary_bind.2 ⟨hx, fun a _ => hf a⟩

/-! ## Fields -/

section fields

variable {allowed required : List String} {fields : List (String × GitHubJson)}

/-- The mapping has the required keys and no other than the allowed ones. -/
def StrictKeys (allowed required : List String) (fields : List (String × GitHubJson)) : Prop :=
  (∀ name ∈ required, ∃ f ∈ fields, f.1 = name) ∧ ∀ f ∈ fields, f.1 ∈ allowed

theorem strictObject_ok : strictObject value allowed required = .ok fields ↔
    value = .obj fields ∧ StrictKeys allowed required fields := by
  unfold strictObject StrictKeys
  cases value with
  | obj found =>
    simp only [except_bind_ok, ensure_ok, except_pure_ok, Bool.and_eq_true, List.all_eq_true, List.any_eq_true,
      beq_iff_eq, List.contains_iff_mem, Value.obj.injEq]
    constructor
    · rintro ⟨-, hkeys, rfl⟩
      exact ⟨rfl, hkeys⟩
    · rintro ⟨rfl, hkeys⟩
      exact ⟨(), hkeys, rfl⟩
  | null | bool | int | float | str | arr => simp

theorem strictObject_inVocabulary : InVocabulary (strictObject value allowed required) := by
  unfold strictObject
  split
  · exact inVocabulary_ensure_bind.2 fun _ => inVocabulary_ok
  · exact inVocabulary_transport _

theorem safeId_inVocabulary : InVocabulary (safeId value) := by
  unfold safeId
  split
  · exact inVocabulary_ensure_bind.2 fun _ => inVocabulary_ok
  · exact inVocabulary_transport _

theorem safeNodeId_inVocabulary : InVocabulary (safeNodeId value) := by
  unfold safeNodeId
  split
  · exact inVocabulary_ensure_bind.2 fun _ => inVocabulary_ok
  · exact inVocabulary_transport _

theorem safeRepositoryName_inVocabulary : InVocabulary (safeRepositoryName value) := by
  unfold safeRepositoryName
  split
  · split
    · exact inVocabulary_transport _
    · exact inVocabulary_ok
  · exact inVocabulary_transport _

theorem safeDisplayText_inVocabulary : InVocabulary (safeDisplayText value) := by
  unfold safeDisplayText
  split
  · exact inVocabulary_ensure_bind.2 fun _ => inVocabulary_ok
  · exact inVocabulary_transport _

theorem safeSha_inVocabulary {required : Bool} : InVocabulary (safeSha value required) := by
  have hmissing : InVocabulary (if required then .error headUnavailable else .ok none : DecodeM (Option String)) := by
    split
    · exact inVocabulary_transport _
    · exact inVocabulary_ok
  unfold safeSha
  split
  · split
    · exact inVocabulary_ok
    · exact hmissing
  · exact hmissing

theorem decodeFlag_inVocabulary : InVocabulary (decodeFlag value) := by
  unfold decodeFlag
  split
  · exact inVocabulary_ok
  · exact inVocabulary_transport _

end fields

/-! ## Objects -/

section objects

/-- **A repository is decoded or refused with a transport error.** -/
theorem decodeRepository_inVocabulary : InVocabulary (decodeRepository value) := by
  refine inVocabulary_after strictObject_inVocabulary fun payload => ?_
  refine inVocabulary_after safeRepositoryName_inVocabulary fun fullName => ?_
  refine inVocabulary_after safeId_inVocabulary fun repositoryId => ?_
  exact inVocabulary_after safeNodeId_inVocabulary fun nodeId => inVocabulary_ok

/-- **So is an actor.** -/
theorem decodeActor_inVocabulary : InVocabulary (decodeActor value) := by
  refine inVocabulary_after strictObject_inVocabulary fun payload => ?_
  refine inVocabulary_after safeId_inVocabulary fun actorId => ?_
  exact inVocabulary_after safeNodeId_inVocabulary fun nodeId => inVocabulary_ok

theorem decodeRef_inVocabulary {requireRepository requireSha : Bool} :
    InVocabulary (decodeRef value requireRepository requireSha) := by
  have hpresent : InVocabulary (decodePresentRef value requireRepository requireSha) := by
    refine inVocabulary_after strictObject_inVocabulary fun payload => ?_
    refine inVocabulary_after ?_ fun repository => ?_
    · unfold decodeRefRepository
      split
      · exact inVocabulary_after decodeRepository_inVocabulary fun repository => inVocabulary_ok
      · exact inVocabulary_ok
    · cases repository with
      | none =>
        refine inVocabulary_ensure_bind.2 fun _ => ?_
        exact inVocabulary_after safeDisplayText_inVocabulary fun ref => inVocabulary_ok
      | some repository =>
        refine inVocabulary_after safeDisplayText_inVocabulary fun ref => ?_
        exact inVocabulary_after safeSha_inVocabulary fun sha => inVocabulary_ok
  unfold decodeRef
  split
  · exact inVocabulary_ok
  · exact hpresent

/-- A list or a mapping: it has no hash. -/
def Unhashable : GitHubJson → Prop
  | .arr _ | .obj _ => True
  | .null | .bool _ | .int _ | .float _ | .str _ => False

theorem decodeState_inVocabulary : InVocabulary (decodeState value) ↔ ¬ Unhashable value := by
  cases value with
  | str s => exact iff_of_true (inVocabulary_ensure_bind.2 fun _ => inVocabulary_ok) id
  | null | bool | int | float => exact iff_of_true (inVocabulary_transport _) id
  | arr | obj =>
    refine iff_of_false ?_ (not_not.2 trivial)
    intro h
    obtain ⟨reason, hreason⟩ := inVocabulary_error.1 h
    cases hreason

/-- **A pull request is decoded or refused with a transport error, unless its state has no hash.** -/
theorem decodePullRequest_inVocabulary {repository : GitHubRepositoryIdentity} {requestedNumber : ℤ}
    {requireHead : Bool} :
    InVocabulary (decodePullRequest value repository requestedNumber requireHead) ↔
      ∀ payload, value = .obj payload →
        StrictKeys pullRequestFields ["id", "node_id", "number", "state", "draft", "merged", "base", "head"] payload →
        equalsInt (payloadItem payload "number") requestedNumber = true →
        ¬ Unhashable (payloadItem payload "state") := by
  unfold decodePullRequest
  rw [inVocabulary_bind, and_iff_right strictObject_inVocabulary]
  simp only [strictObject_ok, and_imp]
  refine forall_congr' fun payload => forall_congr' fun _ => forall_congr' fun _ => ?_
  unfold transportFailed
  rw [inVocabulary_ensure_bind]
  refine forall_congr' fun _ => ?_
  rw [inVocabulary_bind, decodeState_inVocabulary]
  refine and_iff_left_of_imp fun _ state _ => ?_
  refine inVocabulary_after decodeFlag_inVocabulary fun draft => ?_
  refine inVocabulary_after decodeFlag_inVocabulary fun merged => ?_
  refine inVocabulary_after decodeRef_inVocabulary fun base => ?_
  refine inVocabulary_ensure_bind.2 fun _ => ?_
  refine inVocabulary_after decodeRef_inVocabulary fun head => ?_
  refine inVocabulary_after safeId_inVocabulary fun pullRequestId => ?_
  exact inVocabulary_after safeNodeId_inVocabulary fun nodeId => inVocabulary_ok

end objects

/-! ## The size check -/

section limits

variable {calls nodes : ℕ}

/-- The nodes in the order in which `visit` meets them, each with the calls that are left for it. -/
def walk : ℕ → GitHubJson → List (ℕ × GitHubJson)
  | 0, value => [(0, value)]
  | calls + 1, value => (calls + 1, value) :: (nestedValues value).flatMap (walk calls)

/-- What `visit` does at one node. -/
def visitNode (nodes : ℕ) (node : ℕ × GitHubJson) : DecodeM ℕ :=
  if node.1 = 0 then .error .recursionError
  else do
    ensure (decide (nodes + 1 ≤ maxGithubJsonNodes)) responseTooLarge
    ensure (nodeWithinLimits node.2) responseTooLarge
    return nodes + 1

/-- A loop over nested lists is one loop. -/
theorem foldlM_flatMap {f : α → List β} {g : ℕ → β → DecodeM ℕ} {l : List α} :
    (l.flatMap f).foldlM g nodes = l.foldlM (fun nodes a => (f a).foldlM g nodes) nodes := by
  induction l generalizing nodes with
  | nil => rfl
  | cons a l ih => simp only [List.flatMap_cons, List.foldlM_append, List.foldlM_cons, ih]

/-- The recursion of `visit` is a loop over the walk. -/
theorem visit_eq : visit calls nodes value = (walk calls value).foldlM visitNode nodes := by
  induction calls generalizing nodes value with
  | zero => rfl
  | succ calls ih =>
    have hnested : (fun nodes v => visit calls nodes v) = fun nodes v => (walk calls v).foldlM visitNode nodes := by
      funext nodes v
      exact ih
    simp only [visit, walk, List.foldlM_cons, foldlM_flatMap]
    rw [← hnested]
    simp only [visitNode, Nat.add_one_ne_zero, if_false, bind_assoc, pure_bind]

/-- The first node that stops the walk is one without a call left. -/
theorem foldlM_visitNode {entries : List (ℕ × GitHubJson)} (hnodes : nodes ≤ maxGithubJsonNodes) :
    InVocabulary (entries.foldlM visitNode nodes) ↔
      ¬∃ before v behind, entries = before ++ (0, v) :: behind ∧
        (∀ node ∈ before, node.1 ≠ 0 ∧ nodeWithinLimits node.2 = true) ∧
        nodes + before.length ≤ maxGithubJsonNodes := by
  induction entries generalizing nodes with
  | nil => exact iff_of_true inVocabulary_pure (by simp)
  | cons node entries ih =>
    rw [List.foldlM_cons]
    by_cases hzero : node.1 = 0
    · refine iff_of_false ?_ (not_not.2 ⟨[], node.2, entries, ?_, by simp, by simpa using hnodes⟩)
      · intro h
        have herror : visitNode nodes node = .error .recursionError := if_pos hzero
        rw [herror] at h
        obtain ⟨reason, hreason⟩ := h _ rfl
        cases hreason
      · rw [List.nil_append, ← hzero]
    · have hvisit : visitNode nodes node >>= (entries.foldlM visitNode ·) =
          (ensure (decide (nodes + 1 ≤ maxGithubJsonNodes)) responseTooLarge >>= fun _ =>
            ensure (nodeWithinLimits node.2) responseTooLarge >>= fun _ =>
              entries.foldlM visitNode (nodes + 1)) := by
        simp only [visitNode, if_neg hzero, bind_assoc, pure_bind]
      rw [hvisit]
      unfold responseTooLarge
      rw [inVocabulary_ensure_bind, inVocabulary_ensure_bind, decide_eq_true_iff]
      constructor
      · -- the node that stops the walk stands behind this one
        rintro h ⟨before, v, behind, hentries, hwithin, hcount⟩
        cases before with
        | nil =>
          obtain ⟨rfl, -⟩ := List.cons.inj hentries
          exact hzero rfl
        | cons first before =>
          obtain ⟨rfl, rfl⟩ := List.cons.inj hentries
          rw [List.length_cons] at hcount
          have hrest := h (by omega) (hwithin node List.mem_cons_self).2
          refine (ih (by omega)).1 hrest ⟨before, v, behind, rfl, ?_, by omega⟩
          exact fun node' h' => hwithin node' (List.mem_cons_of_mem _ h')
      · intro h hmax hnode
        refine (ih hmax).2 ?_
        rintro ⟨before, v, behind, rfl, hwithin, hcount⟩
        refine h ⟨node :: before, v, behind, rfl, ?_, ?_⟩
        · intro node' h'
          rcases List.mem_cons.1 h' with rfl | h'
          · exact ⟨hzero, hnode⟩
          · exact hwithin node' h'
        · rw [List.length_cons]
          omega

/-- The walk comes to a node for which no call is left, before a limit stops it. -/
def Exhausts (calls : ℕ) (value : GitHubJson) : Prop :=
  ∃ before v behind, walk calls value = before ++ (0, v) :: behind ∧
    (∀ node ∈ before, node.1 ≠ 0 ∧ nodeWithinLimits node.2 = true) ∧ before.length ≤ maxGithubJsonNodes

/-- **The size check raises a transport error, or comes to a node for which no call is left.** -/
theorem validateJsonLimits_inVocabulary : InVocabulary (validateJsonLimits calls value) ↔ ¬Exhausts calls value := by
  unfold validateJsonLimits
  rw [inVocabulary_bind, and_iff_left fun _ _ => inVocabulary_pure, visit_eq,
    foldlM_visitNode (Nat.zero_le _)]
  simp only [Nat.zero_add, Exhausts]

end limits

/-! ## Payloads -/

section payloads

/-- The text is read, or refused as no JSON, and what is read is small enough to be walked. -/
structure Digestible (R : JsonReader) (text : List Char) : Prop where
  shallow : ¬JsonText.Nests (jsonDecoder R.interpreter) R.interpreter.recursionLimit (JsonText.skipWhitespace text)
  short : ¬JsonText.ReadsLong (jsonDecoder R.interpreter) R.interpreter.recursionLimit (JsonText.skipWhitespace text)
  walkable : ∀ value, JsonText.loads (jsonDecoder R.interpreter) text = .ok value → ¬Exhausts R.calls value

theorem jsonDecoder_quiet (I : Interpreter) (e : JsonText.Error) : (jsonDecoder I).Quiet e :=
  ⟨fun _ => raises_ok, fun _ => raises_ok⟩

/-- **A payload is decoded or refused with a transport error, unless its text is not digestible.** -/
theorem decodeJson_inVocabulary {payload : List UInt8} :
    InVocabulary (decodeJson R payload) ↔
      (payload ≠ [] → ∀ text, R.decode (detectEncoding payload) payload = some text →
        text.head? ≠ some (Char.ofNat 0xFEFF) → Digestible R text) := by
  have hrecursion := JsonText.loads_recursion (jsonDecoder_shallow R.interpreter)
  have hvalue := JsonText.loads_value (jsonDecoder_quiet R.interpreter .value)
  unfold decodeJson transportFailed
  rw [inVocabulary_ensure_bind]
  cases hdecode : R.decode (detectEncoding payload) payload with
  | none => exact iff_of_true (fun _ => inVocabulary_transport _) (by simp)
  | some text =>
    simp only [Option.some.injEq, forall_eq', Bool.not_eq_true', List.isEmpty_eq_false_iff]
    refine forall_congr' fun _ => ?_
    cases hloads : JsonText.loads (jsonDecoder R.interpreter) text with
    | error e =>
      cases e with
      | decode =>
        refine iff_of_true (inVocabulary_transport _) fun hbom => ⟨fun h => ?_, fun h => ?_, ?_⟩
        · cases hloads.symm.trans ((hrecursion text).2 ⟨hbom, h⟩)
        · cases hloads.symm.trans ((hvalue text).2 ⟨hbom, h⟩)
        · intro value h
          cases hloads.symm.trans h
      | value =>
        obtain ⟨hbom, hlong⟩ := (hvalue text).1 hloads
        refine iff_of_false ?_ fun h => (h hbom).short hlong
        intro h
        obtain ⟨reason, hreason⟩ := inVocabulary_error.1 h
        cases hreason
      | recursion =>
        obtain ⟨hbom, hdeep⟩ := (hrecursion text).1 hloads
        refine iff_of_false ?_ fun h => (h hbom).shallow hdeep
        intro h
        obtain ⟨reason, hreason⟩ := inVocabulary_error.1 h
        cases hreason
    | ok decoded =>
      have hbom : text.head? ≠ some (Char.ofNat 0xFEFF) := by
        intro hbom
        simp [JsonText.loads, hbom] at hloads
      rw [inVocabulary_bind, and_iff_left fun _ _ => inVocabulary_pure, validateJsonLimits_inVocabulary]
      constructor
      · intro h _
        refine ⟨fun hdeep => ?_, fun hlong => ?_, ?_⟩
        · cases hloads.symm.trans ((hrecursion text).2 ⟨hbom, hdeep⟩)
        · cases hloads.symm.trans ((hvalue text).2 ⟨hbom, hlong⟩)
        · intro value hvalue'
          obtain rfl := Except.ok.inj (hloads.symm.trans hvalue')
          exact h
      · intro h
        exact (h hbom).walkable decoded hloads

end payloads

/-! ## Associations -/

section associations

variable {origin : Origin} {pathPrefix : List Char}

theorem decodeRoute_inVocabulary {ownerPart repositoryPart numberPart : List Char} :
    InVocabulary (decodeRoute U ownerPart repositoryPart numberPart) := by
  unfold decodeRoute
  dsimp only
  split
  · exact inVocabulary_transport _
  · split
    · exact inVocabulary_transport _
    · exact inVocabulary_ensure_bind.2 fun _ => inVocabulary_ok

/-- **An association is decoded or refused with a transport error, unless its URL cannot be read.** -/
theorem decodeIssueAssociation_inVocabulary :
    InVocabulary (decodeIssueAssociation T U value origin pathPrefix) ↔
      ∀ url, value = .str url → url.length ≤ maxGithubStringLength → Url.Readable T url.toList := by
  have hvalue : ¬InVocabulary (.error .valueError : DecodeM (String × ℤ)) := by
    intro h
    obtain ⟨reason, hreason⟩ := inVocabulary_error.1 h
    cases hreason
  unfold decodeIssueAssociation
  cases value with
  | str url =>
    simp only [Value.str.injEq, forall_eq']
    unfold transportFailed
    rw [inVocabulary_ensure_bind, decide_eq_true_iff]
    refine forall_congr' fun _ => ?_
    rw [Url.readable_iff]
    cases hsplit : Url.urlsplit T url.toList with
    | none => exact iff_of_false hvalue (by simp)
    | some parsed =>
      cases hport : parsed.port with
      | none =>
        refine iff_of_false ?_ ?_
        · simpa [originOf, hport] using hvalue
        · simp [hport]
      | some port =>
        refine iff_of_true ?_ ⟨parsed, rfl, by simp [hport]⟩
        simp only [originOf, hport, Option.map_some]
        refine inVocabulary_ensure_bind.2 fun _ => ?_
        split
        · exact inVocabulary_ensure_bind.2 fun _ => decodeRoute_inVocabulary
        · exact inVocabulary_transport _
  | null | bool | int | float | arr | obj => exact iff_of_true (inVocabulary_transport _) (by simp)

/-- **A comment is decoded or refused with a transport error, unless the URL of its association cannot be read.** -/
theorem decodeComment_inVocabulary :
    InVocabulary (decodeComment T U value origin pathPrefix) ↔
      ∀ payload body url, value = .obj payload →
        StrictKeys commentFields ["id", "body", "issue_url", "user"] payload →
        payloadItem payload "body" = .str body → body.length ≤ maxGithubStringLength →
        payloadItem payload "issue_url" = .str url → url.length ≤ maxGithubStringLength →
        Url.Readable T url.toList := by
  unfold decodeComment
  rw [inVocabulary_bind, and_iff_right strictObject_inVocabulary]
  simp only [strictObject_ok, and_imp]
  constructor
  · rintro h payload body url rfl hkeys hbody hlength hurl
    have hdecoded := h payload rfl hkeys
    rw [hbody] at hdecoded
    have hassociation := (inVocabulary_bind.1 (inVocabulary_ensure_bind.1 hdecoded (decide_eq_true hlength))).1
    exact decodeIssueAssociation_inVocabulary.1 hassociation url hurl
  · rintro h payload rfl hkeys
    split
    · rename_i body hbody
      refine inVocabulary_ensure_bind.2 fun hlength => ?_
      refine inVocabulary_after ?_ fun association => ?_
      · exact decodeIssueAssociation_inVocabulary.2 fun url hurl =>
          h payload body url rfl hkeys hbody (of_decide_eq_true hlength) hurl
      · refine inVocabulary_after safeId_inVocabulary fun commentId => ?_
        exact inVocabulary_after decodeActor_inVocabulary fun author => inVocabulary_ok
    · exact inVocabulary_transport _

end associations

/-! ## All decoders -/

/-- **Which inputs keep the decoders to their vocabulary.** A payload must be digestible, the state of a pull
request must have a hash, and the URL of an association must be readable; repositories and actors are always
decoded or refused with a transport error. -/
theorem decoders_inVocabulary_iff (R : JsonReader) (T : Url.Tables) (U : CharTable) (payload : List UInt8)
    (value : GitHubJson) (repository : GitHubRepositoryIdentity) (requestedNumber : ℤ) (requireHead : Bool)
    (origin : Origin) (pathPrefix : List Char) :
    (InVocabulary (decodeJson R payload) ↔
      (payload ≠ [] → ∀ text, R.decode (detectEncoding payload) payload = some text →
        text.head? ≠ some (Char.ofNat 0xFEFF) → Digestible R text)) ∧
    InVocabulary (decodeRepository value) ∧
    (InVocabulary (decodePullRequest value repository requestedNumber requireHead) ↔
      ∀ payload, value = .obj payload →
        StrictKeys pullRequestFields ["id", "node_id", "number", "state", "draft", "merged", "base", "head"] payload →
        equalsInt (payloadItem payload "number") requestedNumber = true →
        ¬Unhashable (payloadItem payload "state")) ∧
    InVocabulary (decodeActor value) ∧
    (InVocabulary (decodeComment T U value origin pathPrefix) ↔
      ∀ payload body url, value = .obj payload →
        StrictKeys commentFields ["id", "body", "issue_url", "user"] payload →
        payloadItem payload "body" = .str body → body.length ≤ maxGithubStringLength →
        payloadItem payload "issue_url" = .str url → url.length ≤ maxGithubStringLength →
        Url.Readable T url.toList) ∧
    (InVocabulary (decodeIssueAssociation T U value origin pathPrefix) ↔
      ∀ url, value = .str url → url.length ≤ maxGithubStringLength → Url.Readable T url.toList) :=
  ⟨decodeJson_inVocabulary, decodeRepository_inVocabulary, decodePullRequest_inVocabulary, decodeActor_inVocabulary,
    decodeComment_inVocabulary, decodeIssueAssociation_inVocabulary⟩

/-! ### Examples -/

/-- A pull request whose state is an empty list. -/
def listedState : GitHubJson :=
  .obj [("id", .int 1), ("node_id", .str "PR_1"), ("number", .int 7), ("state", .arr []), ("draft", .bool false),
    ("merged", .bool false), ("base", .null), ("head", .null)]

def sampleRepositoryIdentity : GitHubRepositoryIdentity := ⟨"octo/repo", 1, "R_1"⟩

/-- A URL with a bracket that stays open. -/
def openBracket : GitHubJson := .str "https://["

def plainReader : JsonReader := { interpreter := plainInterpreter, calls := 1000, decode := fun _ b => Utf8.strict b }

/-- 1001 opening brackets. -/
def deepPayload : List UInt8 := List.replicate 1001 91

theorem not_inVocabulary {x : DecodeM α} {e : DecodeException} (h : x = .error e)
    (he : ∀ reason, e ≠ .transport reason) : ¬InVocabulary x := by
  intro hx
  obtain ⟨reason, hreason⟩ := hx e h
  exact he reason hreason

/-- The list, the bracket and the brackets get out as a `TypeError`, a `ValueError` and a `RecursionError`. -/
theorem decoders_escape :
    ¬InVocabulary (decodePullRequest listedState sampleRepositoryIdentity 7 true) ∧
      ¬InVocabulary (decodeIssueAssociation asciiTables asciiTable openBracket ("https".toList, ['h'], none) ['/']) ∧
      ¬InVocabulary (decodeJson plainReader deepPayload) := by
  refine ⟨?_, ?_, ?_⟩
  · have hlisted : decodePullRequest listedState sampleRepositoryIdentity 7 true = .error .typeError := by decide +kernel
    exact not_inVocabulary hlisted (by simp)
  · have hopen : decodeIssueAssociation asciiTables asciiTable openBracket ("https".toList, ['h'], none) ['/'] =
        .error .valueError := by decide +kernel
    exact not_inVocabulary hopen (by simp)
  · rw [decodeJson_inVocabulary]
    intro h
    have htext : plainReader.decode (detectEncoding deepPayload) deepPayload = some (List.replicate 1001 '[') := by
      change Utf8.strict (List.replicate 1001 91) = _
      rw [Utf8.strict_ascii fun b hb => by rw [List.eq_of_mem_replicate hb]; decide, List.map_replicate]
      rfl
    have hsome : deepPayload ≠ [] := List.cons_ne_nil 91 (List.replicate 1000 91)
    have hbom : (List.replicate 1001 '[').head? ≠ some (Char.ofNat 0xFEFF) := by
      rw [List.head?_replicate]
      decide
    have hdigest := h hsome _ htext hbom
    refine hdigest.shallow ?_
    exact @nests_brackets _ 1000 1001 (by decide)

end Switchboard
