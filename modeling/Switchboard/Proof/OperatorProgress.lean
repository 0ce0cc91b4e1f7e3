import Switchboard.Proof.OperatorOutcomes
import Switchboard.Spec.OperatorProgress

/-!
# Records of a running lifecycle

A lifecycle compares a new phase with the last one only, and the report contract compares all of them: both accept the
same phases. An observer sees each thing that happens once, in order, and nothing behind its own first exception.

* `foldlM_recordPhase`, `recordPhase_contract`: what can be recorded is what the contract accepts.
* `Published`: what a run of calls leaves of a publisher.
* `emitAll_observed`: what an observer sees.
-/

namespace Switchboard

open Transaction

namespace Operator

/-! ## Phases -/

/-- The phases of a report after one more phase is recorded. -/
theorem recordPhase_ok {phases next : List String} {phase : String} :
    recordPhase phases phase = .ok next ↔ next = phases ++ [phase] ∧ phase ∈ lifecyclePhases ∧
      previousPosition phases < lifecyclePhases.idxOf phase := by
  unfold recordPhase phaseOrder
  by_cases hknown : phase ∈ lifecyclePhases
  · rw [if_pos hknown]
    dsimp only
    split
    · rename_i hle
      constructor
      · intro h
        cases h
      · rintro ⟨_, _, hlt⟩
        omega
    · rename_i hlt
      constructor
      · intro h
        exact ⟨(Except.ok.inj h).symm, hknown, by omega⟩
      · rintro ⟨rfl, _, _⟩
        rfl
  · rw [if_neg hknown]
    dsimp only
    constructor
    · intro h
      cases h
    · rintro ⟨_, hmem, _⟩
      exact absurd hmem hknown

/-- The phases that were recorded one after another. -/
structure Recorded (phases : List String) : Prop where
  known : ∀ phase ∈ phases, phase ∈ lifecyclePhases
  increasing : (phases.map fun phase => lifecyclePhases.idxOf phase).Pairwise (· < ·)

theorem previousPosition_append {phases : List String} {phase : String} (h : phase ∈ lifecyclePhases) :
    previousPosition (phases ++ [phase]) = lifecyclePhases.idxOf phase := by
  unfold previousPosition phaseOrder
  rw [List.getLast?_concat]
  dsimp only
  rw [if_pos h]
  rfl

/-- **One more phase**: it is recorded if and only if the phases with it stand in their order. -/
theorem Recorded.append_iff {phases : List String} {phase : String} (h : Recorded phases) :
    Recorded (phases ++ [phase]) ↔ phase ∈ lifecyclePhases ∧ previousPosition phases < lifecyclePhases.idxOf phase := by
  constructor
  · intro happend
    refine ⟨happend.known phase (by simp), ?_⟩
    rcases List.eq_nil_or_concat phases with rfl | ⟨before, last, rfl⟩
    · show (-1 : ℤ) < _
      omega
    · rw [List.concat_eq_append] at happend h ⊢
      have hlast : last ∈ lifecyclePhases := h.known last (by simp)
      rw [previousPosition_append hlast]
      have hpairs := happend.increasing
      rw [List.map_append, List.pairwise_append] at hpairs
      have hlt := hpairs.2.2 (lifecyclePhases.idxOf last) (by simp) (lifecyclePhases.idxOf phase) (by simp)
      omega
  · rintro ⟨hknown, hlt⟩
    constructor
    · intro x hx
      rcases List.mem_append.1 hx with hx | hx
      · exact h.known x hx
      · rw [List.mem_singleton.1 hx]
        exact hknown
    · rw [List.map_append, List.pairwise_append]
      refine ⟨h.increasing, List.pairwise_singleton _ _, ?_⟩
      intro position hposition other hother
      obtain rfl := List.mem_singleton.1 hother
      -- the last position is the greatest
      rcases List.eq_nil_or_concat phases with rfl | ⟨before, last, rfl⟩
      · cases hposition
      · rw [List.concat_eq_append] at h hlt hposition
        have hlast : last ∈ lifecyclePhases := h.known last (by simp)
        rw [previousPosition_append hlast] at hlt
        have hpairs := h.increasing
        rw [List.map_append, List.pairwise_append] at hpairs
        rw [List.map_append] at hposition
        rcases List.mem_append.1 hposition with hposition | hposition
        · have hle := hpairs.2.2 position hposition (lifecyclePhases.idxOf last) (by simp)
          show position < lifecyclePhases.idxOf phase
          omega
        · obtain rfl := List.mem_singleton.1 hposition
          show lifecyclePhases.idxOf last < lifecyclePhases.idxOf phase
          omega

/-- **Phases are recorded one after another if and only if they stand in their order.** -/
theorem foldlM_recordPhase {phases next : List String} (h : Recorded phases) (more : List String) :
    more.foldlM recordPhase phases = .ok next ↔ next = phases ++ more ∧ Recorded (phases ++ more) := by
  induction more generalizing phases with
  | nil =>
    rw [List.foldlM_nil, List.append_nil, except_pure_ok]
    exact ⟨fun heq => ⟨heq.symm, h⟩, fun heq => heq.1.symm⟩
  | cons phase more ih =>
    rw [List.foldlM_cons, except_bind_ok]
    constructor
    · rintro ⟨after, hafter, hmore⟩
      obtain ⟨rfl, hknown, hlt⟩ := recordPhase_ok.1 hafter
      have hrecorded := h.append_iff.2 ⟨hknown, hlt⟩
      have hall := (ih hrecorded).1 hmore
      rw [List.append_assoc] at hall
      exact hall
    · rintro ⟨rfl, hall⟩
      have hsplit : phases ++ phase :: more = (phases ++ [phase]) ++ more := by rw [List.append_assoc]; rfl
      rw [hsplit] at hall
      have hfirst : Recorded (phases ++ [phase]) := by
        constructor
        · intro x hx
          exact hall.known x (List.mem_append_left _ hx)
        · have hpairs := hall.increasing
          rw [List.map_append, List.pairwise_append] at hpairs
          exact hpairs.1
      obtain ⟨hknown, hlt⟩ := h.append_iff.1 hfirst
      exact ⟨_, recordPhase_ok.2 ⟨rfl, hknown, hlt⟩, (ih hfirst).2 ⟨hsplit, hall⟩⟩

theorem phasesOrdered_of_increasing {phases : List String}
    (h : (phases.map fun phase => lifecyclePhases.idxOf phase).Pairwise (· < ·)) : phasesOrdered phases = true := by
  have hnodup : (phases.map fun phase => lifecyclePhases.idxOf phase).Nodup := h.imp fun hlt => ne_of_lt hlt
  have hsorted : (phases.map fun phase => lifecyclePhases.idxOf phase).Pairwise (· ≤ ·) := h.imp fun hlt => le_of_lt hlt
  unfold phasesOrdered
  rw [decide_eq_true_eq, hnodup.dedup, hsorted.insertionSort_eq]

/-- **The recorder and the contract agree**: the phases that the contract accepts are those that can be recorded. -/
theorem recordPhase_contract (phases : List String) :
    phases.foldlM recordPhase [] = .ok phases ↔
      (phases.all fun phase => decide (phase ∈ lifecyclePhases)) = true ∧ phasesOrdered phases = true := by
  have hnone : Recorded [] := ⟨by simp, List.Pairwise.nil⟩
  rw [foldlM_recordPhase hnone, List.nil_append, List.all_eq_true]
  constructor
  · rintro ⟨_, hrecorded⟩
    exact ⟨fun phase hphase => decide_eq_true (hrecorded.known phase hphase),
      phasesOrdered_of_increasing hrecorded.increasing⟩
  · rintro ⟨hknown, hordered⟩
    exact ⟨rfl, fun phase hphase => of_decide_eq_true (hknown phase hphase), phasesOrdered_iff hordered⟩

/-! ## Progress -/

/-- The distinct keys of the calls that fit, in the order of their first calls, as many as may be published. -/
def firstKeys (keys : List ProgressKey) : List ProgressKey :=
  (keys.filter ProgressKey.fits).eraseDups.take maxProgressEvents

/-- The observations of keys, numbered from one. -/
def numbered (keys : List ProgressKey) : List ProgressEvent :=
  keys.zipIdx.map fun x => x.1.observation (x.2 + 1)

theorem eraseDups_concat {α : Type} [BEq α] [LawfulBEq α] (xs : List α) (x : α) :
    (xs ++ [x]).eraseDups = xs.eraseDups ++ if xs.contains x then [] else [x] := by
  rw [List.eraseDups_append]
  by_cases hmem : x ∈ xs
  · simp [List.removeAll, List.filter, hmem]
  · simp [List.removeAll, List.filter, hmem, List.eraseDups_cons]

theorem numbered_concat (keys : List ProgressKey) (key : ProgressKey) :
    numbered (keys ++ [key]) = numbered keys ++ [key.observation (keys.length + 1)] := by
  unfold numbered
  rw [List.zipIdx_append, List.map_append]
  simp

-- whether the observer raises on its observation of a number
variable (raises : ℕ → Bool)

/-- What the calls leave of a publisher: the first keys, up to the first observation that raised. -/
structure Published (raises : ℕ → Bool) (keys : List ProgressKey) (p : ProgressPublisher) : Prop where
  observed : p.observed = numbered p.seen
  quiet : ∀ n, 1 ≤ n → n < p.seen.length → raises n = false
  whole : p.observing = true → p.seen = firstKeys keys ∧ (1 ≤ p.seen.length → raises p.seen.length = false)
  broken : p.observing = false → p.seen <+: firstKeys keys ∧ 1 ≤ p.seen.length ∧ raises p.seen.length = true

theorem mem_firstKeys {keys : List ProgressKey} {key : ProgressKey} (h : key ∈ firstKeys keys) :
    key ∈ keys.filter ProgressKey.fits := List.mem_eraseDups.1 (List.mem_of_mem_take h)

/-- A call that is repeated, comes too late or does not fit adds no key. -/
theorem firstKeys_old {keys : List ProgressKey} {key : ProgressKey}
    (h : key ∈ firstKeys keys ∨ maxProgressEvents ≤ (firstKeys keys).length ∨ key.fits = false) :
    firstKeys (keys ++ [key]) = firstKeys keys := by
  unfold firstKeys
  rw [List.filter_append]
  by_cases hfits : key.fits = true
  · have hsingle : [key].filter ProgressKey.fits = [key] := by simp [hfits]
    rw [hsingle, eraseDups_concat]
    rcases h with hmem | hfull | hno
    · rw [if_pos (List.contains_iff_mem.2 (mem_firstKeys hmem)), List.append_nil]
    · unfold firstKeys at hfull
      rw [List.length_take] at hfull
      rw [List.take_append_of_le_length (by omega)]
    · rw [hfits] at hno
      cases hno
  · have hsingle : [key].filter ProgressKey.fits = [] := by simp [hfits]
    rw [hsingle, List.append_nil]

/-- A call with a new key that fits adds it, if there is room. -/
theorem firstKeys_new {keys : List ProgressKey} {key : ProgressKey} (hnew : key ∉ firstKeys keys)
    (hroom : (firstKeys keys).length < maxProgressEvents) (hfits : key.fits = true) :
    firstKeys (keys ++ [key]) = firstKeys keys ++ [key] := by
  have hshort : (keys.filter ProgressKey.fits).eraseDups.length < maxProgressEvents := by
    unfold firstKeys at hroom
    rw [List.length_take] at hroom
    omega
  have hall : firstKeys keys = (keys.filter ProgressKey.fits).eraseDups := List.take_of_length_le (by omega)
  have hsingle : [key].filter ProgressKey.fits = [key] := by simp [hfits]
  rw [hall] at hnew ⊢
  unfold firstKeys
  rw [List.filter_append, hsingle, eraseDups_concat, if_neg fun h => hnew (List.mem_eraseDups.2 (List.contains_iff_mem.1 h))]
  refine List.take_of_length_le ?_
  rw [List.length_append, List.length_singleton]
  omega

theorem firstKeys_begins (keys : List ProgressKey) (key : ProgressKey) :
    firstKeys keys <+: firstKeys (keys ++ [key]) := by
  by_cases hold : key ∈ firstKeys keys ∨ maxProgressEvents ≤ (firstKeys keys).length ∨ key.fits = false
  · rw [firstKeys_old hold]
  · rw [not_or, not_or, Bool.not_eq_false, Nat.not_le] at hold
    rw [firstKeys_new hold.1 hold.2.1 hold.2.2]
    exact List.prefix_append _ _

/-- What a call does to a publisher that still observes. -/
theorem emit_observing {p : ProgressPublisher} (key : ProgressKey) (h : p.observing = true) :
    (key ∈ p.seen ∨ maxProgressEvents ≤ p.seen.length ∨ key.fits = false) ∧ p.emitted raises key = p ∨
      key ∉ p.seen ∧ p.seen.length < maxProgressEvents ∧ key.fits = true ∧ p.emitted raises key =
        { observing := !raises (p.seen.length + 1), seen := p.seen ++ [key]
          observed := p.observed ++ [key.observation (p.seen.length + 1)] } := by
  unfold ProgressPublisher.emitted ProgressPublisher.emit
  by_cases hseen : key ∈ p.seen
  · left
    refine ⟨.inl hseen, ?_⟩
    rw [if_pos (by simp [hseen])]
    rfl
  by_cases hfull : maxProgressEvents ≤ p.seen.length
  · left
    refine ⟨.inr (.inl hfull), ?_⟩
    rw [if_pos (by simp [hfull])]
    rfl
  rw [if_neg (by simp [h, hseen, hfull])]
  have hsequence : 1 ≤ p.seen.length + 1 ∧ p.seen.length + 1 ≤ maxProgressEvents := by omega
  by_cases hfits : key.fits = true
  · right
    have hvalid : (key.observation (p.seen.length + 1)).validate = .ok () :=
      ensure_ok.2 (by rw [Bool.and_eq_true]; exact ⟨decide_eq_true hsequence, hfits⟩)
    refine ⟨hseen, by omega, hfits, ?_⟩
    dsimp only
    rw [hvalid]
    rfl
  · left
    have hinvalid : (key.observation (p.seen.length + 1)).validate = .error .valueError := by
      unfold ProgressEvent.validate ensure
      rw [if_neg]
      rw [Bool.and_eq_true]
      exact fun h => hfits h.2
    refine ⟨.inr (.inr (by simpa using hfits)), ?_⟩
    dsimp only
    rw [hinvalid]
    rfl

theorem emitted_broken {p : ProgressPublisher} (key : ProgressKey) (h : p.observing = false) :
    p.emitted raises key = p := by
  unfold ProgressPublisher.emitted ProgressPublisher.emit
  rw [if_pos (by simp [h])]
  rfl

/-- **One more call.** -/
theorem Published.emitted {keys : List ProgressKey} {p : ProgressPublisher} (h : Published raises keys p)
    (key : ProgressKey) : Published raises (keys ++ [key]) (p.emitted raises key) := by
  cases hobserving : p.observing with
  | false =>
    rw [emitted_broken raises key hobserving]
    obtain ⟨hbegins, hsome, hraises⟩ := h.broken hobserving
    refine ⟨h.observed, h.quiet, fun hon => ?_, fun _ => ⟨hbegins.trans (firstKeys_begins keys key), hsome, hraises⟩⟩
    rw [hobserving] at hon
    cases hon
  | true =>
    obtain ⟨hwhole, hlast⟩ := h.whole hobserving
    rcases emit_observing raises key hobserving with ⟨hwhy, heq⟩ | ⟨hnew, hroom, hfits, heq⟩
    · rw [hwhole] at hwhy
      have hsame := firstKeys_old hwhy
      rw [heq]
      refine ⟨h.observed, h.quiet, fun _ => ⟨by rw [hsame, hwhole], hlast⟩, fun hoff => ?_⟩
      rw [hobserving] at hoff
      cases hoff
    · have hmore : firstKeys (keys ++ [key]) = p.seen ++ [key] := by
        rw [hwhole] at hnew hroom ⊢
        exact firstKeys_new hnew hroom hfits
      rw [heq]
      constructor
      · rw [numbered_concat, h.observed]
      · intro n hpos hlt
        rw [List.length_append, List.length_singleton] at hlt
        by_cases hn : n < p.seen.length
        · exact h.quiet n hpos hn
        · have hn' : n = p.seen.length := by omega
          rw [hn']
          exact hlast (by omega)
      · intro hon
        refine ⟨hmore.symm, fun _ => ?_⟩
        rw [List.length_append, List.length_singleton]
        simpa using hon
      · intro hoff
        refine ⟨by rw [hmore], by simp, ?_⟩
        rw [List.length_append, List.length_singleton]
        simpa using hoff

/-- **What a run of calls leaves.** -/
theorem published_emitAll (keys : List ProgressKey) :
    Published raises keys (ProgressPublisher.emitAll raises { observing := true } keys) := by
  induction keys using List.reverseRecOn with
  | nil =>
    refine ⟨rfl, fun n hpos hlt => ?_, fun _ => ⟨rfl, fun hpos => ?_⟩, fun hoff => ?_⟩
    · cases hlt
    · cases hpos
    · cases hoff
  | append_singleton keys key ih =>
    have hstep := ih.emitted raises key
    unfold ProgressPublisher.emitAll at hstep ⊢
    rw [List.foldl_append]
    exact hstep

/-- **An observer sees the distinct calls that fit, in the order of their first calls and numbered from one, at most
sixty-four of them, up to its first exception.** -/
theorem emitAll_observed (keys : List ProgressKey) : ∃ k,
    (ProgressPublisher.emitAll raises { observing := true } keys).observed = numbered ((firstKeys keys).take k) ∧
      (∀ n, 1 ≤ n → n < k → raises n = false) ∧ (k ≤ (firstKeys keys).length → raises k = true) := by
  have h := published_emitAll raises keys
  cases hobserving : (ProgressPublisher.emitAll raises { observing := true } keys).observing with
  | true =>
    obtain ⟨hwhole, hlast⟩ := h.whole hobserving
    refine ⟨(firstKeys keys).length + 1, ?_, ?_, fun hle => by omega⟩
    · rw [h.observed, hwhole, List.take_of_length_le (by omega)]
    · intro n hpos hlt
      rw [hwhole] at hlast
      by_cases hn : n < (firstKeys keys).length
      · have hquiet := h.quiet
        rw [hwhole] at hquiet
        exact hquiet n hpos hn
      · have hn' : n = (firstKeys keys).length := by omega
        rw [hn']
        exact hlast (by omega)
  | false =>
    obtain ⟨hbegins, _, hraises⟩ := h.broken hobserving
    refine ⟨_, ?_, h.quiet, fun _ => hraises⟩
    rw [h.observed]
    exact congrArg numbered (List.prefix_iff_eq_take.1 hbegins)

end Operator

end Switchboard
