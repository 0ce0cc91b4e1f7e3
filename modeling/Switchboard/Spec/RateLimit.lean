import Mathlib.Data.Rat.Defs
import Mathlib.Algebra.Order.Ring.Rat
import Switchboard.Lib.PyText

/-!
# The rate limiter

The middleware of `server/middleware/rate_limit.py`: a bucket of instants for each key of a client. The instants of the
monotonic clock are exact.

* `dispatch`: one request.
* `runRequests`: a sequence of them, in the order in which they take the lock.
-/

namespace Switchboard

/-- `RateLimitSettings`. -/
structure RateLimitSettings where
  requests : ℤ
  windowSeconds : ℤ
  trustedBypass : List String
  trustedProxies : List String
  deriving DecidableEq, Repr

def RateLimitSettings.enabled (settings : RateLimitSettings) : Bool :=
  decide (0 < settings.requests) && decide (0 < settings.windowSeconds)

/-- What the limiter reads of a request. -/
structure ClientRequest where
  /-- `request.client.host`. -/
  clientHost : Option String
  /-- The header `x-forwarded-for`. -/
  forwardedFor : Option String
  deriving DecidableEq, Repr

/-- `forwarded.split(",", 1)[0].strip()`, unless it is empty. -/
def firstForwarded (forwarded : String) : Option String :=
  let first := String.ofList (PyText.strip (forwarded.toList.takeWhile (· ≠ ',')))
  if first ≠ "" then some first else none

/-- `_client_identifier`. -/
def clientIdentifier (request : ClientRequest) (settings : RateLimitSettings) : Option String :=
  let header := request.forwardedFor.filter (· ≠ "")
  match request.clientHost.filter (· ≠ "") with
  | some host =>
    if host ∈ settings.trustedProxies then some ((header.bind firstForwarded).getD host) else some host
  | none => header.bind firstForwarded

/-- `_should_bypass`. -/
def shouldBypass (settings : RateLimitSettings) (identifier : Option String) : Bool :=
  identifier.any fun name => decide (name ≠ "" ∧ name ∈ settings.trustedBypass)

/-- `identifier or "unknown"`. -/
def bucketKey (identifier : Option String) : String := (identifier.filter (· ≠ "")).getD "unknown"

/-- `_buckets`, the missing ones empty. -/
abbrev Buckets := String → List ℚ

inductive Reply
  /-- `call_next`. -/
  | next
  /-- The answer 429 with its header `Retry-After`, and the identifier given to the callback for metrics. -/
  | tooManyRequests (retryAfter : String) (identifier : Option String)
  deriving DecidableEq, Repr

/-- `dispatch`, with the reading of the clock. -/
def dispatch (settings : RateLimitSettings) (buckets : Buckets) (now : ℚ) (request : ClientRequest) : Reply × Buckets :=
  if !settings.enabled then (.next, buckets)
  else
    let identifier := clientIdentifier request settings
    if shouldBypass settings identifier then (.next, buckets)
    else
      let windowStart := now - settings.windowSeconds
      let key := bucketKey identifier
      -- the loop that pops the entries from before the window
      let bucket := (buckets key).dropWhile fun t => decide (t < windowStart)
      if (bucket.length : ℤ) ≥ settings.requests then
        (.tooManyRequests (toString settings.windowSeconds) identifier, Function.update buckets key bucket)
      else (.next, Function.update buckets key (bucket ++ [now]))

/-! ## Sequences of requests -/

/-- A request that takes the lock, with its reading of the clock. -/
structure TimedRequest where
  now : ℚ
  request : ClientRequest
  deriving DecidableEq

/-- The replies to a sequence of requests. -/
def repliesFrom (settings : RateLimitSettings) (buckets : Buckets) : List TimedRequest → List (TimedRequest × Reply)
  | [] => []
  | c :: calls =>
    let result := dispatch settings buckets c.now c.request
    (c, result.1) :: repliesFrom settings result.2 calls

/-- The requests of a sequence with their replies, from empty buckets. -/
def runRequests (settings : RateLimitSettings) (calls : List TimedRequest) : List (TimedRequest × Reply) :=
  repliesFrom settings (fun _ => []) calls

/-- The key under which a request is limited, if any. -/
def limitedKey (settings : RateLimitSettings) (request : ClientRequest) : Option String :=
  let identifier := clientIdentifier request settings
  if shouldBypass settings identifier then none else some (bucketKey identifier)

/-- The requests of a key in a sequence with others. -/
def requestsOf (settings : RateLimitSettings) (key : String) (calls : List TimedRequest) : List TimedRequest :=
  calls.filter fun c => limitedKey settings c.request = some key

/-- The requests of a key with their replies, in a sequence with others. -/
def repliesOf (settings : RateLimitSettings) (key : String) (calls : List TimedRequest) : List (TimedRequest × Reply) :=
  (runRequests settings calls).filter fun entry => limitedKey settings entry.1.request = some key

/-- The instants of the admitted requests of a key. -/
def admittedAt (settings : RateLimitSettings) (key : String) (calls : List TimedRequest) : List ℚ :=
  ((repliesOf settings key calls).filter fun entry => entry.2 = .next).map fun entry => entry.1.now

end Switchboard
