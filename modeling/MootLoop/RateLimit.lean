import MootLoop.Common
import MootLoop.Lib.Dict
import MootLoop.Lib.TokenBucket
import Mathlib.Algebra.Order.Ring.Rat

/-! The rate limit on write requests: one token bucket for each client key, in memory. -/

namespace MootLoop.RateLimit

abbrev Bucket := TokenBucket.Bucket Rat

structure RateLimitMiddleware where
  capacity : Rat := 20
  refill_per_sec : Rat := 2
  methods : List String := ["POST", "PUT", "PATCH", "DELETE"]
  buckets : Dict String Bucket := ∅

/-- The parts of an ASGI scope that the limiter reads; header values are decoded. -/
structure Scope where
  type : String
  method : Option String
  headers : List (String × String)
  client : Option String

/-- The edge's header, the first forwarded hop, then the host; a header given twice counts as its last. -/
def client_key (scope : Scope) : String :=
  let header := fun name => (scope.headers.reverse.lookup name).filter (· ≠ "")
  match (header "cf-connecting-ip").or (header "x-forwarded-for") with
  | some raw => strip (String.ofList (raw.toList.takeWhile (· ≠ ',')))
  | none => scope.client.getD "anonymous"

namespace RateLimitMiddleware

/-- Consumes a token; no answer means allowed, else the `Retry-After` seconds. -/
def check (limiter : RateLimitMiddleware) (key : String) (now : Rat) : Option Nat × RateLimitMiddleware :=
  let bucket := (limiter.buckets.get? key).getD ⟨limiter.capacity, now⟩
  let elapsed := max 0 (now - bucket.updated_at)
  let tokens := min limiter.capacity (bucket.tokens + elapsed * limiter.refill_per_sec)
  if tokens ≥ 1 then (none, { limiter with buckets := limiter.buckets.insert key ⟨tokens - 1, now⟩ })
  else
    let limiter := { limiter with buckets := limiter.buckets.insert key ⟨tokens, now⟩ }
    let deficit := 1 - tokens
    if limiter.refill_per_sec ≤ 0 then (some 3600, limiter)
    else (some (max 1 (deficit / limiter.refill_per_sec).ceil.toNat), limiter)

/-- Other requests than writes pass unchecked. -/
def call (limiter : RateLimitMiddleware) (scope : Scope) (now : Rat) : Option Nat × RateLimitMiddleware :=
  if scope.type ≠ "http" ∨ scope.method.all (· ∉ limiter.methods) then (none, limiter)
  else limiter.check (client_key scope) now

end RateLimitMiddleware

/-! ### Runs -/

/-- A check of a key, and its answer. -/
structure Checked where
  key : String
  now : Rat
  retry_after : Option Nat

/-- The limiter after a sequence of checks, and their answers. -/
def run (limiter : RateLimitMiddleware) (calls : List (String × Rat)) : List Checked × RateLimitMiddleware :=
  calls.foldl (fun (past, limiter) (key, now) =>
    let (retry_after, limiter) := limiter.check key now
    (past ++ [⟨key, now, retry_after⟩], limiter)) ([], limiter)

/-- How many checks of the key were allowed from `s` to `s + t`. -/
def allowed (past : List Checked) (key : String) (s t : Rat) : Nat :=
  past.countP fun checked => checked.key = key ∧ checked.retry_after = none ∧ s ≤ checked.now ∧ checked.now ≤ s + t

end MootLoop.RateLimit
