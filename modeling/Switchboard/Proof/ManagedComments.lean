import Switchboard.Proof.Rendering
import Switchboard.Spec.Adapter

/-!
# Managed comments

* `rendered_marker`: what is rendered for a request begins with its marker.
* `marker_unique`: no comment carries the markers of two keys.
* `managed_append`, `managed_withBody`, `managed_foreign`: what a new comment, a new body and an edit by others do to
  the managed comments of a request.
-/

namespace Switchboard

open PyText Transaction

/-! ## Lines -/

theorem splitlinesFrom_append (line x rest : List Char) (hx : ∀ c ∈ x, isLineBreak c = false) :
    splitlinesFrom line (x ++ '\n' :: rest) = (line.reverse ++ x) :: splitlinesFrom [] rest := by
  induction x generalizing line with
  | nil =>
    have hbreak : isLineBreak '\n' = true := by decide
    rw [List.nil_append, splitlinesFrom, if_pos hbreak, List.append_nil]
    intro c h _
    exact absurd h (by decide)
  | cons c x ih =>
    have hc : isLineBreak c = false := hx c List.mem_cons_self
    have hreturn : c ≠ '\r' := by
      rintro rfl
      revert hc
      decide
    rw [List.cons_append, splitlinesFrom]
    · rw [hc, if_neg Bool.false_ne_true, ih (c :: line) fun d hd => hx d (List.mem_cons_of_mem c hd)]
      rw [List.reverse_cons, List.append_assoc, List.singleton_append]
    · intro cs h _
      exact hreturn h

/-- A text without line breaks is the first line of what it is a line of. -/
theorem splitlines_first {x rest : List Char} (hx : ∀ c ∈ x, isLineBreak c = false) :
    splitlines (x ++ '\n' :: rest) = x :: splitlines rest := splitlinesFrom_append [] x rest hx

namespace Adapter

/-! ## Markers -/

variable {D : GitHubDeployment}

theorem hasExactMarker_iff {body marker : String} : hasExactMarker body marker = true ↔
    body.utf8ByteSize ≤ maxRenderedCommentBytes ∧ (splitlines body.toList).head? = some marker.toList := by
  unfold hasExactMarker
  rw [Bool.and_eq_true, decide_eq_true_eq, beq_iff_eq]
  refine and_congr_right fun _ => ?_
  cases splitlines body.toList <;> simp

theorem enclosed_injective {a b x y : String} (h : a ++ x ++ b = a ++ y ++ b) : x = y := by
  have hchars := congrArg String.toList h
  simp only [String.toList_append] at hchars
  exact String.toList_injective (List.append_cancel_left (List.append_cancel_right hchars))

theorem commentMarker_injective {key key' : String} (h : commentMarker key = commentMarker key') : key = key' := by
  unfold commentMarker at h
  exact enclosed_injective h

/-- **No comment carries the markers of two keys.** -/
theorem marker_unique {body key key' : String} (h : hasExactMarker body (commentMarker key) = true)
    (h' : hasExactMarker body (commentMarker key') = true) : key = key' := by
  have hfirst := (hasExactMarker_iff.1 h).2
  rw [(hasExactMarker_iff.1 h').2] at hfirst
  exact (commentMarker_injective (String.toList_injective (Option.some.inj hfirst))).symm

theorem opensWith_marker (key : String) : OpensWith "<!-- switchboard-validation:" (commentMarker key) := by
  have hself : OpensWith "<!-- switchboard-validation:" "<!-- switchboard-validation:" := List.prefix_rfl
  unfold commentMarker
  exact (((hself.append _).append _).append _).append _

theorem marked_of_marker {c : GitHubComment} {key : String} (h : hasExactMarker c.body (commentMarker key) = true) :
    marked c = true := by
  unfold marked
  rw [(hasExactMarker_iff.1 h).2, Option.any_some, List.isPrefixOf_iff_prefix]
  exact opensWith_marker key

theorem hex64_chars {key : String} (h : hex64 key = true) {c : Char} (hc : c ∈ key.toList) : isLineBreak c = false := by
  unfold hex64 at h
  rw [Bool.and_eq_true, List.all_eq_true] at h
  have hchar := h.1 c hc
  simp only [isAsciiDigit, Bool.or_eq_true, Bool.and_eq_true, decide_eq_true_eq, Char.le_def, UInt32.le_iff_toNat_le]
    at hchar
  have hbounds : 48 ≤ c.toNat ∧ c.toNat ≤ 102 := by
    simp only [Char.toNat] at *
    rcases hchar with ⟨hlow, hhigh⟩ | ⟨hlow, hhigh⟩
    · have h1 : ('0'.val.toNat) = 48 := by decide
      have h2 : ('9'.val.toNat) = 57 := by decide
      omega
    · have h1 : ('a'.val.toNat) = 97 := by decide
      have h2 : ('f'.val.toNat) = 102 := by decide
      omega
  simp only [isLineBreak, Bool.or_eq_false_iff, Bool.and_eq_false_iff, decide_eq_false_iff_not, beq_eq_false_iff_ne]
  omega

theorem mem_append_toList {a b : String} {c : Char} (h : c ∈ (a ++ b).toList) : c ∈ a.toList ∨ c ∈ b.toList := by
  rwa [String.toList_append, List.mem_append] at h

theorem commentMarker_line {key : String} (h : hex64 key = true) :
    ∀ c ∈ (commentMarker key).toList, isLineBreak c = false := by
  have hopening : ∀ d ∈ ("<!-- switchboard-validation:" ++ markerVersion ++ ":").toList, isLineBreak d = false := by
    decide +kernel
  have hclosing : ∀ d ∈ " -->".toList, isLineBreak d = false := by decide +kernel
  intro c hc
  unfold commentMarker at hc
  rcases mem_append_toList hc with hc | hc
  · rcases mem_append_toList hc with hc | hc
    · exact hopening c hc
    · exact hex64_chars h hc
  · exact hclosing c hc

/-- **What is rendered for a request begins with its marker.** -/
theorem rendered_marker {request : GitHubValidationRequest} {evidence : EvidenceDocument}
    {decision decisionReason body : String} (h : renderManagedComment request evidence decision decisionReason = .ok body) :
    hasExactMarker body (commentMarker request.identity.idempotencyKey) = true := by
  have hbody := renderManagedComment_ok h
  unfold renderManagedComment managedCommentMarker at h
  simp only [except_bind_ok, ensure_ok, except_pure_ok] at h
  obtain ⟨_, -, _, ⟨_, hkey, -⟩, _, hsize, rfl⟩ := h
  rw [decide_eq_true_eq] at hsize
  refine hasExactMarker_iff.2 ⟨hsize, ?_⟩
  rw [hbody]
  unfold managedCommentLines identityLines
  rw [List.cons_append, List.cons_append, List.cons_append, List.cons_append, String.intercalate_cons_cons,
    String.append_assoc, String.toList_append, String.toList_append]
  have hline := commentMarker_line hkey
  have hbreak : "\n".toList = ['\n'] := by decide
  rw [hbreak, List.singleton_append, splitlines_first hline, List.head?_cons]

theorem published_marker {request : GitHubValidationRequest} {evidence : EvidenceDocument} {head : Option String}
    {body : String} (h : publishedComment request evidence head = .ok body) :
    hasExactMarker body (commentMarker request.identity.idempotencyKey) = true := rendered_marker h

/-! ## Ownership -/

variable {i : RequestIdentity} {comments : List GitHubComment} {c : GitHubComment}

theorem isManaged_marker (h : isManaged D i c = true) :
    hasExactMarker c.body (commentMarker i.idempotencyKey) = true := by
  unfold isManaged at h
  rw [Bool.and_eq_true] at h
  exact h.2

/-- For the actor of the request, a comment is owned exactly if it is managed. -/
theorem isOwned_eq {request : GitHubValidationRequest} {actor : GitHubActorIdentity}
    (hactor : sameActorIdentity request actor = true) (expected : Option ℕ) :
    isOwnedManagedComment D c actor request (commentMarker request.identity.idempotencyKey) expected =
      (isManaged D request.identity c && expected.all fun id => c.commentId == id) := by
  unfold sameActorIdentity at hactor
  rw [Bool.and_eq_true, beq_iff_eq, beq_iff_eq] at hactor
  have hauthor : (c.author == actor) =
      (request.identity.githubActorId == some c.author.actorId &&
        request.identity.githubActorNodeId == some c.author.nodeId) := by
    rw [hactor.1, hactor.2, Bool.eq_iff_iff]
    simp only [beq_iff_eq, Bool.and_eq_true, Option.some.injEq]
    constructor
    · rintro rfl
      exact ⟨rfl, rfl⟩
    · rintro ⟨hid, hnode⟩
      cases hc : c.author
      cases actor
      rw [hc] at hid hnode
      dsimp only at hid hnode
      rw [hid, hnode]
  unfold isOwnedManagedComment isManaged
  rw [hauthor]

/-! ## Changes -/

theorem managed_append (c : GitHubComment) : managedComments D i (comments ++ [c]) =
    managedComments D i comments ++ if isManaged D i c then [c] else [] := by
  unfold managedComments
  rw [List.filter_append, List.filter_singleton]
  cases isManaged D i c <;> rfl

/-- An edit by others leaves the managed comments of every request. -/
theorem managed_of_marked {comments' : List GitHubComment}
    (h : comments'.filter marked = comments.filter marked) : managedComments D i comments' = managedComments D i comments := by
  have hfilter : ∀ cs : List GitHubComment, managedComments D i cs = (cs.filter marked).filter (isManaged D i) := by
    intro cs
    unfold managedComments
    rw [List.filter_filter]
    refine List.filter_congr fun c _ => ?_
    cases hm : isManaged D i c with
    | false => rfl
    | true => rw [marked_of_marker (isManaged_marker hm), Bool.true_and]
  rw [hfilter, hfilter, h]

theorem withBody_id (commentId : ℕ) (body : String) (c : GitHubComment) :
    (withBody commentId body c).commentId = c.commentId := by
  unfold withBody
  split <;> rfl

theorem withBody_of_ne {commentId : ℕ} {body : String} (h : c.commentId ≠ commentId) : withBody commentId body c = c := by
  unfold withBody
  rw [if_neg]
  rwa [beq_iff_eq]

theorem withBody_self {body : String} : withBody c.commentId body c = { c with body := body } := by
  unfold withBody
  rw [if_pos (beq_self_eq_true _)]

/-- Whether a comment is managed depends on its body through the marker only. -/
theorem isManaged_body {body : String} (hc : isManaged D i c = true)
    (hbody : hasExactMarker body (commentMarker i.idempotencyKey) = true) :
    isManaged D i { c with body := body } = true := by
  unfold isManaged onPullRequest at hc ⊢
  rw [Bool.and_eq_true] at hc ⊢
  exact ⟨hc.1, hbody⟩

theorem managed_map {f : GitHubComment → GitHubComment}
    (hf : ∀ x ∈ comments, isManaged D i (f x) = isManaged D i x) :
    managedComments D i (comments.map f) = (managedComments D i comments).map f := by
  unfold managedComments
  rw [List.filter_map]
  congr 1
  exact List.filter_congr hf

section body

variable {body : String} (hids : (comments.map GitHubComment.commentId).Nodup) (hmem : c ∈ comments)
  (hc : isManaged D i c = true) (hbody : hasExactMarker body (commentMarker i.idempotencyKey) = true)

include hids hmem hc hbody

/-- **A new body of a managed comment keeps it among the managed comments of its request.** -/
theorem managed_withBody : managedComments D i (comments.map (withBody c.commentId body)) =
    (managedComments D i comments).map (withBody c.commentId body) := by
  refine managed_map fun x hx => ?_
  by_cases hid : x.commentId = c.commentId
  · obtain rfl : x = c := List.inj_on_of_nodup_map hids hx hmem hid
    rw [withBody_self, isManaged_body hc hbody, hc]
  · rw [withBody_of_ne hid]

/-- **It leaves the managed comments of every other request.** -/
theorem managed_withBody_other {j : RequestIdentity} (hkey : j.idempotencyKey ≠ i.idempotencyKey) :
    managedComments D j (comments.map (withBody c.commentId body)) = managedComments D j comments := by
  have hnot : ∀ x : GitHubComment, hasExactMarker x.body (commentMarker i.idempotencyKey) = true →
      isManaged D j x = false := by
    intro x hx
    by_contra hj
    rw [Bool.not_eq_false] at hj
    exact hkey (marker_unique (isManaged_marker hj) hx)
  have hcj : isManaged D j c = false := hnot c (isManaged_marker hc)
  have hsame : ∀ x ∈ comments, isManaged D j (withBody c.commentId body x) = isManaged D j x := by
    intro x hx
    by_cases hid : x.commentId = c.commentId
    · obtain rfl : x = c := List.inj_on_of_nodup_map hids hx hmem hid
      rw [withBody_self, hcj]
      exact hnot _ hbody
    · rw [withBody_of_ne hid]
  have hfixed : ∀ x ∈ managedComments D j comments, withBody c.commentId body x = id x := by
    intro x hx
    obtain ⟨hx, hj⟩ := List.mem_filter.1 hx
    refine withBody_of_ne fun hid => ?_
    obtain rfl : x = c := List.inj_on_of_nodup_map hids hx hmem hid
    rw [hcj] at hj
    cases hj
  rw [managed_map hsame, List.map_congr_left hfixed, List.map_id]

end body

end Adapter

end Switchboard
