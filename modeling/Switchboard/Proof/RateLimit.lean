import Switchboard.Lib.SlidingWindow
import Switchboard.Spec.RateLimit

/-!
# The window of the rate limiter

* `dispatch_limited`: a request touches only the bucket of its own key.
* `bucketsAfter_key`: the bucket of a key is the log of a sliding window that its requests alone have filled.
* `runRequests_slidingWindow`: no window holds more admitted requests of a key than allowed, a request is rejected if
  and only if the window that ends with it is full, and the requests of other keys change nothing.
-/

namespace Switchboard

open SlidingWindow

variable {settings : RateLimitSettings} {buckets : Buckets} {calls : List TimedRequest} {c : TimedRequest}
  {now : ℚ} {request : ClientRequest} {key : String}

/-- The length of the window. -/
abbrev RateLimitSettings.window (settings : RateLimitSettings) : ℚ := settings.windowSeconds

/-- The limit of an enabled limiter. -/
abbrev RateLimitSettings.limit (settings : RateLimitSettings) : ℕ := settings.requests.toNat

/-- The reply of a limiter to a request that finds a bucket. -/
def replyTo (settings : RateLimitSettings) (bucket : List ℚ) (c : TimedRequest) : Reply :=
  if admits settings.window settings.limit bucket c.now then .next
  else .tooManyRequests (toString settings.windowSeconds) (clientIdentifier c.request settings)

theorem limit_eq (henabled : settings.enabled = true) : (settings.limit : ℤ) = settings.requests := by
  unfold RateLimitSettings.enabled at henabled
  exact Int.toNat_of_nonneg (of_decide_eq_true (Bool.and_eq_true_iff.1 henabled).1).le

/-! ## One request -/

theorem dispatch_bypassed (h : limitedKey settings request = none) :
    dispatch settings buckets now request = (.next, buckets) := by
  have hbypass : shouldBypass settings (clientIdentifier request settings) = true := by
    unfold limitedKey at h
    by_contra hnot
    simp [hnot] at h
  unfold dispatch
  simp [hbypass]

/-- **A request touches only the bucket of its own key.** -/
theorem dispatch_limited (henabled : settings.enabled = true) (h : limitedKey settings c.request = some key) :
    dispatch settings buckets c.now c.request =
      (replyTo settings (buckets key) c,
        Function.update buckets key (record settings.window settings.limit (buckets key) c.now)) := by
  have hlimit := limit_eq henabled
  have hbypass : shouldBypass settings (clientIdentifier c.request settings) = false := by
    unfold limitedKey at h
    by_contra hnot
    simp [hnot] at h
  have hkey : bucketKey (clientIdentifier c.request settings) = key := by
    unfold limitedKey at h
    simpa [hbypass] using h
  have hroom : ∀ bucket : List ℚ, (bucket.length : ℤ) ≥ settings.requests ↔ ¬bucket.length < settings.limit := by
    intro bucket
    omega
  unfold dispatch replyTo record admits kept
  simp only [henabled, hbypass, hkey, hroom]
  by_cases hfull :
      ((buckets key).dropWhile fun t => decide (t < c.now - settings.window)).length < settings.limit
  · simp [hfull]
  · simp [hfull]

/-! ## Sequences of requests -/

/-- The buckets after a sequence of requests. -/
def bucketsAfter (settings : RateLimitSettings) (buckets : Buckets) (calls : List TimedRequest) : Buckets :=
  calls.foldl (fun buckets c => (dispatch settings buckets c.now c.request).2) buckets

theorem repliesFrom_append (buckets : Buckets) (before after : List TimedRequest) :
    repliesFrom settings buckets (before ++ after) =
      repliesFrom settings buckets before ++ repliesFrom settings (bucketsAfter settings buckets before) after := by
  induction before generalizing buckets with
  | nil => rfl
  | cons c before ih =>
    rw [List.cons_append, repliesFrom, ih]
    rfl

theorem length_repliesFrom (buckets : Buckets) (calls : List TimedRequest) :
    (repliesFrom settings buckets calls).length = calls.length := by
  induction calls generalizing buckets with
  | nil => rfl
  | cons c calls ih => exact congrArg (· + 1) (ih _)

theorem bucketsAfter_append (buckets : Buckets) (calls : List TimedRequest) (c : TimedRequest) :
    bucketsAfter settings buckets (calls ++ [c]) =
      (dispatch settings (bucketsAfter settings buckets calls) c.now c.request).2 := by
  unfold bucketsAfter
  rw [List.foldl_append]
  rfl

theorem requestsOf_append (calls : List TimedRequest) (c : TimedRequest) :
    requestsOf settings key (calls ++ [c]) =
      requestsOf settings key calls ++ if limitedKey settings c.request = some key then [c] else [] := by
  unfold requestsOf
  rw [List.filter_append]
  split
  · rename_i h
    rw [List.filter_cons_of_pos (by simpa using h)]
    rfl
  · rename_i h
    rw [List.filter_cons_of_neg (by simpa using h)]
    rfl

/-- A request of another key leaves the bucket as it is. -/
theorem dispatch_other (henabled : settings.enabled = true) (h : limitedKey settings c.request ≠ some key) :
    (dispatch settings buckets c.now c.request).2 key = buckets key := by
  cases hother : limitedKey settings c.request with
  | none => rw [dispatch_bypassed hother]
  | some other =>
    rw [dispatch_limited henabled hother]
    have hne : key ≠ other := by
      rintro rfl
      exact h hother
    exact Function.update_of_ne hne _ _

/-- **The bucket of a key is the log of a sliding window that its requests alone have filled.** -/
theorem bucketsAfter_key (henabled : settings.enabled = true) (calls : List TimedRequest) (key : String) :
    bucketsAfter settings (fun _ => []) calls key =
      logAfter settings.window settings.limit ((requestsOf settings key calls).map TimedRequest.now) := by
  induction calls using List.reverseRecOn with
  | nil => rfl
  | append_singleton calls c ih =>
    rw [bucketsAfter_append, requestsOf_append]
    by_cases h : limitedKey settings c.request = some key
    · rw [dispatch_limited henabled h, if_pos h, List.map_append, List.map_singleton, logAfter_append, ← ih]
      exact Function.update_self _ _ _
    · rw [dispatch_other henabled h, if_neg h, List.append_nil, ih]

theorem replyTo_next (bucket : List ℚ) (c : TimedRequest) :
    replyTo settings bucket c = .next ↔ admits settings.window settings.limit bucket c.now = true := by
  unfold replyTo
  split
  · rename_i h
    exact iff_of_true rfl h
  · rename_i h
    exact iff_of_false (by simp) h

/-- The instants of the admitted requests of a key are those that its sliding window admits. -/
theorem admittedAt_eq (henabled : settings.enabled = true) (calls : List TimedRequest) (key : String) :
    admittedAt settings key calls =
      admitted settings.window settings.limit ((requestsOf settings key calls).map TimedRequest.now) := by
  induction calls using List.reverseRecOn with
  | nil => rfl
  | append_singleton calls c ih =>
    have hsplit : admittedAt settings key (calls ++ [c]) =
        admittedAt settings key calls ++
          if limitedKey settings c.request = some key ∧
              (dispatch settings (bucketsAfter settings (fun _ => []) calls) c.now c.request).1 = .next then [c.now]
          else [] := by
      unfold admittedAt repliesOf runRequests
      rw [repliesFrom_append, List.filter_append, List.filter_append, List.map_append]
      refine congrArg (_ ++ ·) ?_
      simp only [repliesFrom, List.filter_cons, List.filter_nil, decide_eq_true_eq]
      by_cases h : limitedKey settings c.request = some key
      · by_cases hnext : (dispatch settings (bucketsAfter settings (fun _ => []) calls) c.now c.request).1 = .next
        · simp [h, hnext]
        · simp [h, hnext]
      · simp [h]
    rw [hsplit, requestsOf_append, ih]
    by_cases h : limitedKey settings c.request = some key
    · rw [dispatch_limited henabled h, bucketsAfter_key henabled]
      simp only [h, true_and, if_true, replyTo_next, List.map_append, List.map_singleton, admitted_append]
    · simp [h]

/-- What a request of a key meets does not depend on the buckets of the others. -/
theorem repliesFrom_filter (henabled : settings.enabled = true) {first second : Buckets}
    (hsame : first key = second key) (calls : List TimedRequest) :
    (repliesFrom settings first calls).filter (fun entry => limitedKey settings entry.1.request = some key) =
      (repliesFrom settings second (requestsOf settings key calls)).filter
        fun entry => limitedKey settings entry.1.request = some key := by
  induction calls generalizing first second with
  | nil => rfl
  | cons c calls ih =>
    unfold requestsOf
    by_cases h : limitedKey settings c.request = some key
    · have hafter : (dispatch settings first c.now c.request).2 key = (dispatch settings second c.now c.request).2 key := by
        rw [dispatch_limited henabled h, dispatch_limited henabled h]
        simp only [Function.update_self, hsame]
      have hreply : (dispatch settings first c.now c.request).1 = (dispatch settings second c.now c.request).1 := by
        rw [dispatch_limited henabled h, dispatch_limited henabled h, hsame]
      have hrest := ih hafter
      rw [List.filter_cons_of_pos (by simpa using h)]
      simp only [repliesFrom, List.filter_cons, h, decide_true, if_true, hreply]
      exact congrArg (_ :: ·) hrest
    · have hafter : (dispatch settings first c.now c.request).2 key = second key :=
        (dispatch_other henabled h).trans hsame
      rw [List.filter_cons_of_neg (by simpa using h)]
      simp only [repliesFrom, List.filter_cons, h, decide_false, Bool.false_eq_true, if_false]
      exact ih hafter

/-! ## The window -/

/-- The requests of a key that were admitted from one instant to another. -/
def admittedBetween (settings : RateLimitSettings) (key : String) (calls : List TimedRequest) (first last : ℚ) : ℕ :=
  ((admittedAt settings key calls).filter fun t => decide (first ≤ t ∧ t ≤ last)).length

theorem requestsOf_sorted (settings : RateLimitSettings) (key : String)
    (h : (calls.map TimedRequest.now).Pairwise (· ≤ ·)) :
    ((requestsOf settings key calls).map TimedRequest.now).Pairwise (· ≤ ·) :=
  h.sublist (List.filter_sublist.map _)

/-- **The limiter enforces a sliding window.** The requests of a sequence come at times that do not decrease. -/
theorem runRequests_slidingWindow (settings : RateLimitSettings) (henabled : settings.enabled = true)
    (calls : List TimedRequest) (hsorted : (calls.map TimedRequest.now).Pairwise (· ≤ ·)) (key : String) :
    (∀ start : ℚ,
      (admittedBetween settings key calls start (start + settings.windowSeconds) : ℤ) ≤ settings.requests) ∧
    (∀ before c after, calls = before ++ c :: after → limitedKey settings c.request = some key →
      (runRequests settings calls)[before.length]? =
        some (c,
          if (admittedBetween settings key before (c.now - settings.windowSeconds) c.now : ℤ) = settings.requests then
            .tooManyRequests (toString settings.windowSeconds) (clientIdentifier c.request settings)
          else .next)) ∧
    repliesOf settings key calls = repliesOf settings key (requestsOf settings key calls) := by
  have hlimit := limit_eq henabled
  refine ⟨fun start => ?_, ?_, repliesFrom_filter henabled rfl calls⟩
  · have hwindow := history_interval settings.window settings.limit (requestsOf_sorted settings key hsorted) start
    rw [← admittedAt_eq henabled] at hwindow
    rw [← hlimit]
    exact_mod_cast hwindow
  · rintro before c after rfl hkey
    rw [List.map_append, List.map_cons, List.pairwise_append] at hsorted
    obtain ⟨hbefore, -, hlater⟩ := hsorted
    have hpast : ∀ t ∈ (requestsOf settings key before).map TimedRequest.now, t ≤ c.now := by
      intro t ht
      exact hlater t ((List.filter_sublist.map _).subset ht) c.now (by simp)
    have hrejects := history_rejects_iff settings.window settings.limit (requestsOf_sorted settings key hbefore) hpast
    rw [← admittedAt_eq henabled, ← bucketsAfter_key henabled] at hrejects
    have hposition : (runRequests settings (before ++ c :: after))[before.length]? =
        some (c, replyTo settings (bucketsAfter settings (fun _ => []) before key) c) := by
      unfold runRequests
      rw [repliesFrom_append, List.getElem?_append_right (length_repliesFrom _ _).le, length_repliesFrom,
        Nat.sub_self, repliesFrom, dispatch_limited henabled hkey]
      rfl
    rw [hposition]
    unfold replyTo admittedBetween
    by_cases hfull : admits settings.window settings.limit (bucketsAfter settings (fun _ => []) before key) c.now = true
    · have hnot : ¬(((admittedAt settings key before).filter fun t =>
          decide (c.now - settings.window ≤ t ∧ t ≤ c.now)).length : ℤ) = settings.requests := by
        intro heq
        have hrejected := hrejects.2 (by exact_mod_cast heq.trans hlimit.symm)
        rw [hfull] at hrejected
        cases hrejected
      rw [if_pos hfull, if_neg hnot]
    · have heq := hrejects.1 (Bool.eq_false_of_not_eq_true hfull)
      rw [if_neg hfull, if_pos]
      rw [← hlimit]
      exact_mod_cast heq

def oneAMinute : RateLimitSettings := { requests := 1, windowSeconds := 60, trustedBypass := [], trustedProxies := [] }

/-- Three requests of one client, the second at the very end of the first one's window. -/
def minuteRequests : List TimedRequest :=
  [⟨0, ⟨some "client", none⟩⟩, ⟨60, ⟨some "client", none⟩⟩, ⟨61, ⟨some "client", none⟩⟩]

/-- The end of the window belongs to it: the request is rejected there, and the next one is admitted. -/
theorem oneAMinute_slidingWindow :
    (runRequests oneAMinute minuteRequests)[1]? =
        some (⟨60, ⟨some "client", none⟩⟩, .tooManyRequests "60" (some "client")) ∧
      (runRequests oneAMinute minuteRequests)[2]? = some (⟨61, ⟨some "client", none⟩⟩, .next) := by
  have hlaw := (runRequests_slidingWindow oneAMinute rfl minuteRequests (by decide +kernel) "client").2.1
  have hsecond := hlaw [⟨0, ⟨some "client", none⟩⟩] ⟨60, ⟨some "client", none⟩⟩ _ rfl (by decide +kernel)
  have hthird := hlaw [⟨0, ⟨some "client", none⟩⟩, ⟨60, ⟨some "client", none⟩⟩] ⟨61, ⟨some "client", none⟩⟩ _ rfl
    (by decide +kernel)
  exact ⟨hsecond.trans (by decide +kernel), hthird.trans (by decide +kernel)⟩

end Switchboard
