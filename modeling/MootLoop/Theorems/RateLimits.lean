import MootLoop.RateLimit
import Mathlib.Data.List.Induction

/-! What the rate limit lets through: in any window, for any key, at most the capacity and what refills in the window,
    however the keys interleave. -/

namespace MootLoop.RateLimit

open TokenBucket

variable {limiter limiter' : RateLimitMiddleware} {retry_after : Option Nat} {key : String} {now s t : Rat}
  {calls : List (String × Rat)}

/-- The key's bucket when it is next checked. -/
def RateLimitMiddleware.bucket (limiter : RateLimitMiddleware) (key : String) (now : Rat) : Bucket :=
  ((limiter.buckets.get? key).getD ⟨limiter.capacity, now⟩).refilled limiter.capacity limiter.refill_per_sec now

/-- A check draws from the key's bucket and leaves every other as it was. -/
theorem check_spec (limiter : RateLimitMiddleware) (key : String) (now : Rat) :
    ((limiter.check key now).1 = none ↔ (limiter.bucket key now).draw.1 = true) ∧
      (limiter.check key now).2 =
        { limiter with buckets := limiter.buckets.insert key (limiter.bucket key now).draw.2 } := by
  by_cases token : (limiter.bucket key now).tokens ≥ 1
  · have checked : limiter.check key now =
        (none, { limiter with buckets := limiter.buckets.insert key ⟨(limiter.bucket key now).tokens - 1, now⟩ }) :=
      if_pos token
    have drawn : (limiter.bucket key now).draw = (true, ⟨(limiter.bucket key now).tokens - 1, now⟩) := if_pos token
    rw [checked, drawn]
    exact ⟨by simp, rfl⟩
  · have checked : limiter.check key now =
        if limiter.refill_per_sec ≤ 0 then
          (some 3600, { limiter with buckets := limiter.buckets.insert key (limiter.bucket key now) })
        else
          (some (max 1 ((1 - (limiter.bucket key now).tokens) / limiter.refill_per_sec).ceil.toNat),
            { limiter with buckets := limiter.buckets.insert key (limiter.bucket key now) }) := if_neg token
    have drawn : (limiter.bucket key now).draw = (false, limiter.bucket key now) := if_neg token
    rw [checked, drawn]
    split <;> exact ⟨by simp, rfl⟩

theorem run_snoc (limiter : RateLimitMiddleware) (calls : List (String × Rat)) (key : String) (now : Rat) :
    run limiter (calls ++ [(key, now)]) =
      ((run limiter calls).1 ++ [⟨key, now, ((run limiter calls).2.check key now).1⟩],
        ((run limiter calls).2.check key now).2) := by
  rw [run, List.foldl_append]
  rfl

theorem allowed_snoc (past : List Checked) (checked : Checked) :
    allowed (past ++ [checked]) key s t = allowed past key s t +
      if checked.key = key ∧ checked.retry_after = none ∧ s ≤ checked.now ∧ checked.now ≤ s + t then 1 else 0 := by
  simp [allowed, List.countP_append, List.countP_singleton]

/-! ### The account of a key -/

/-- A limiter keeps the account of a key: its bucket was last drawn from at one of the calls, and has given what was
    allowed. A key with no bucket was allowed nothing. -/
def Kept (start : RateLimitMiddleware) (key : String) (s t : Rat) (calls : List (String × Rat)) : Prop :=
  match (run start calls).2.buckets.get? key with
  | none => allowed (run start calls).1 key s t = 0
  | some bucket => bucket.updated_at ∈ calls.map (·.2) ∧
      Account start.capacity start.refill_per_sec s t (allowed (run start calls).1 key s t : Rat) bucket

theorem run_config (start : RateLimitMiddleware) (calls : List (String × Rat)) :
    (run start calls).2.capacity = start.capacity ∧ (run start calls).2.refill_per_sec = start.refill_per_sec := by
  induction calls using List.reverseRecOn with
  | nil => exact ⟨rfl, rfl⟩
  | append_singleton calls call ih =>
    obtain ⟨key, now⟩ := call
    rw [run_snoc]
    rw [(check_spec (run start calls).2 key now).2]
    exact ih

/-- The account of a key over one more check of it. -/
theorem Kept.check_same {start : RateLimitMiddleware} (kept : Kept start key s t calls) (length : 0 ≤ t)
    (latest : ∀ call ∈ calls, call.2 ≤ now) : Kept start key s t (calls ++ [(key, now)]) := by
  obtain ⟨capacity, refill⟩ := run_config start calls
  have account : Account start.capacity start.refill_per_sec s t (allowed (run start calls).1 key s t : Rat)
      ((run start calls).2.bucket key now) := by
    unfold Kept at kept
    unfold RateLimitMiddleware.bucket
    rw [capacity, refill]
    cases found : (run start calls).2.buckets.get? key with
    | none =>
      rw [found] at kept
      rw [kept]
      exact (Account.new length).refilled (le_refl now)
    | some bucket =>
      rw [found] at kept
      obtain ⟨drawn, account⟩ := kept
      obtain ⟨call, mem, updated⟩ := List.mem_map.mp drawn
      exact account.refilled (updated ▸ latest call mem)
  obtain ⟨answer, after⟩ := check_spec (run start calls).2 key now
  unfold Kept
  rw [run_snoc, after, Dict.get?_insert_self, allowed_snoc]
  refine ⟨by simp [RateLimitMiddleware.bucket, TokenBucket.Bucket.refilled], ?_⟩
  by_cases inside : s ≤ now ∧ now ≤ s + t
  · have counted := account.draw_inside inside.1 inside.2
    simp only [true_and, answer, inside, and_true]
    push_cast
    exact counted
  · have counted := account.draw_outside inside
    rw [if_neg fun window => inside window.2.2]
    exact counted

/-- A check of another key leaves the account of this one. -/
theorem Kept.check_other {start : RateLimitMiddleware} (kept : Kept start key s t calls) {other : String}
    (ne : other ≠ key) : Kept start key s t (calls ++ [(other, now)]) := by
  unfold Kept at kept ⊢
  rw [run_snoc, (check_spec _ _ _).2, Dict.get?_insert_ne _ ne.symm, allowed_snoc,
    if_neg fun window => ne window.1, Nat.add_zero]
  cases found : (run start calls).2.buckets.get? key with
  | none =>
    rw [found] at kept
    exact kept
  | some bucket =>
    rw [found] at kept
    exact ⟨by simp [kept.1], kept.2⟩

theorem kept_run {start : RateLimitMiddleware} (empty : start.buckets = ∅) (length : 0 ≤ t)
    (in_order : (calls.map (·.2)).Pairwise (· ≤ ·)) : Kept start key s t calls := by
  induction calls using List.reverseRecOn with
  | nil =>
    unfold Kept
    rw [show (run start []).2 = start from rfl, empty]
    rfl
  | append_singleton calls call ih =>
    obtain ⟨checked, now⟩ := call
    rw [List.map_append, List.pairwise_append] at in_order
    obtain ⟨before, _, latest⟩ := in_order
    have kept := ih before
    by_cases same : checked = key
    · subst same
      exact kept.check_same length fun call mem => latest _ (List.mem_map_of_mem mem) now List.mem_cons_self
    · exact kept.check_other same

/-- From a limiter with no buckets yet, whatever its capacity and rate, the requests of a key allowed in a window are
    at most its capacity and what refills in the window, neither counted below zero. -/
theorem allowed_le (capacity refill_per_sec : Rat) (methods : List String) (key : String) (s : Rat)
    (in_order : (calls.map (·.2)).Pairwise (· ≤ ·)) (length : 0 ≤ t) :
    (allowed (run { capacity, refill_per_sec, methods } calls).1 key s t : Rat) ≤
      max 0 capacity + max 0 refill_per_sec * t := by
  have kept : Kept { capacity, refill_per_sec, methods } key s t calls := kept_run rfl length in_order
  unfold Kept at kept
  split at kept
  · have account : Account capacity refill_per_sec s t 0 ⟨capacity, s⟩ := .new length
    rw [kept]
    exact account.total
  · exact kept.2.total

/-- Two clients, one of them back after the other, at one token a second. -/
theorem allowed_le_two_clients :
    (allowed (run { capacity := 1, refill_per_sec := 1, methods := ["POST"] }
      [("10.0.0.1", 0), ("10.0.0.2", 0), ("10.0.0.1", 1 / 2), ("10.0.0.1", 1)]).1 "10.0.0.1" 0 1 : Rat) ≤
      max 0 1 + max 0 1 * 1 :=
  allowed_le 1 1 ["POST"] "10.0.0.1" 0 (by decide +kernel) (by decide +kernel)

/-- A limiter that drains instead of refilling still lets its first request through. -/
theorem draining_limiter_allows :
    ¬∀ (capacity refill_per_sec : Rat) (methods : List String) (key : String) (s t : Rat) (calls : List (String × Rat)),
      (calls.map (·.2)).Pairwise (· ≤ ·) → 0 ≤ t →
        (allowed (run { capacity, refill_per_sec, methods } calls).1 key s t : Rat) ≤ capacity + refill_per_sec * t := by
  intro bound
  have one_allowed : allowed (run { capacity := 1, refill_per_sec := -1, methods := [] } [("10.0.0.1", 0)]).1
      "10.0.0.1" 0 5 = 1 := by decide +kernel
  have le := bound 1 (-1) [] "10.0.0.1" 0 5 [("10.0.0.1", 0)] (List.pairwise_singleton _ _) (by norm_num)
  rw [one_allowed] at le
  norm_num at le

/-! ### Requests -/

/-- The requests that are checked: writes over HTTP. -/
def RateLimitMiddleware.limits (limiter : RateLimitMiddleware) (scope : Scope) : Bool :=
  scope.type = "http" ∧ scope.method.any (· ∈ limiter.methods)

theorem call_of_limits {scope : Scope} (limited : limiter.limits scope = true) :
    limiter.call scope now = limiter.check (client_key scope) now := by
  simp only [RateLimitMiddleware.limits, decide_eq_true_eq] at limited
  obtain ⟨http, write⟩ := limited
  refine if_neg ?_
  cases found : scope.method <;> simp_all

theorem call_of_exempt {scope : Scope} (exempt : limiter.limits scope = false) :
    limiter.call scope now = (none, limiter) := by
  simp only [RateLimitMiddleware.limits, decide_eq_false_iff_not, not_and] at exempt
  refine if_pos ?_
  by_cases http : scope.type = "http"
  · have read := exempt http
    cases found : scope.method <;> simp_all
  · exact .inl http

/-- A sequence of requests draws on the buckets as the checks of its writes do. -/
theorem call_run (limiter : RateLimitMiddleware) (requests : List (Scope × Rat)) :
    requests.foldl (fun limiter request => (limiter.call request.1 request.2).2) limiter =
      (run limiter ((requests.filter fun request => limiter.limits request.1).map fun request =>
        (client_key request.1, request.2))).2 := by
  have limits (calls : List (String × Rat)) (scope : Scope) :
      (run limiter calls).2.limits scope = limiter.limits scope := by
    induction calls using List.reverseRecOn with
    | nil => rfl
    | append_singleton calls call ih => rw [run_snoc, (check_spec _ _ _).2]; exact ih
  induction requests using List.reverseRecOn with
  | nil => rfl
  | append_singleton requests request ih =>
    obtain ⟨scope, now⟩ := request
    rw [List.foldl_append, ih, List.filter_append, List.map_append, List.foldl_cons, List.foldl_nil]
    cases limited : limiter.limits scope with
    | true =>
      rw [call_of_limits ((limits _ scope).trans limited), List.filter_cons_of_pos (by exact limited)]
      exact (congrArg Prod.snd (run_snoc _ _ _ _)).symm
    | false =>
      rw [call_of_exempt ((limits _ scope).trans limited), List.filter_cons_of_neg (by simp [limited])]
      simp

end MootLoop.RateLimit
