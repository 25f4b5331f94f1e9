import Mathlib.Algebra.Order.Field.Basic
import Mathlib.Tactic.Linarith
import Mathlib.Tactic.Ring

/-! Token buckets over an ordered field. A bucket refills at a rate up to its capacity, and each draw takes a token if
    there is one; what the draws take in a window of length `t` is at most the capacity and what refills in `t`. -/

namespace TokenBucket

variable {α : Type}

structure Bucket (α : Type) where
  tokens : α
  updated_at : α
  deriving DecidableEq, Repr

variable [Field α] [LinearOrder α]

/-- The bucket as it stands at `now`. -/
def Bucket.refilled (capacity rate now : α) (bucket : Bucket α) : Bucket α where
  tokens := min capacity (bucket.tokens + max 0 (now - bucket.updated_at) * rate)
  updated_at := now

/-- Takes a token, if there is one. -/
def Bucket.draw (bucket : Bucket α) : Bool × Bucket α :=
  if bucket.tokens ≥ 1 then (true, { bucket with tokens := bucket.tokens - 1 }) else (false, bucket)

@[simp] theorem Bucket.draw_updated_at (bucket : Bucket α) : bucket.draw.2.updated_at = bucket.updated_at := by
  unfold draw
  split <;> rfl

/-- The account of the draws in the window from `s` of length `t`: `taken` tokens so far, and a bucket that could not
    give more than the bound allows. -/
structure Account (capacity rate s t taken : α) (bucket : Bucket α) : Prop where
  stock : bucket.tokens ≤ max 0 capacity
  total : taken ≤ max 0 capacity + max 0 rate * t
  ledger : taken = 0 ∨
    s ≤ bucket.updated_at ∧ taken + bucket.tokens ≤ max 0 capacity + max 0 rate * (bucket.updated_at - s)

variable [IsStrictOrderedRing α] {capacity rate s t taken now : α} {bucket : Bucket α}

/-- A new bucket is full. -/
theorem Account.new (length : 0 ≤ t) : Account capacity rate s t 0 ⟨capacity, now⟩ where
  stock := le_max_right _ _
  total := add_nonneg (le_max_left _ _) (mul_nonneg (le_max_left _ _) length)
  ledger := .inl rfl

theorem Account.refilled (account : Account capacity rate s t taken bucket) (later : bucket.updated_at ≤ now) :
    Account capacity rate s t taken (bucket.refilled capacity rate now) := by
  obtain ⟨_, total, ledger⟩ := account
  have elapsed : max 0 (now - bucket.updated_at) = now - bucket.updated_at := max_eq_right (sub_nonneg.mpr later)
  refine ⟨le_trans (min_le_left _ _) (le_max_right _ _), total, ?_⟩
  rcases ledger with none_taken | ⟨started, spent⟩
  · exact .inl none_taken
  · refine .inr ⟨le_trans started later, ?_⟩
    have gained : (now - bucket.updated_at) * rate ≤ max 0 rate * (now - bucket.updated_at) := by
      rw [mul_comm]
      exact mul_le_mul_of_nonneg_right (le_max_right _ _) (sub_nonneg.mpr later)
    calc taken + (bucket.refilled capacity rate now).tokens
        ≤ taken + (bucket.tokens + (now - bucket.updated_at) * rate) := by
          rw [← elapsed]
          exact add_le_add_right (min_le_right _ _) _
      _ ≤ max 0 capacity + max 0 rate * (bucket.updated_at - s) + max 0 rate * (now - bucket.updated_at) := by
          linarith
      _ = max 0 capacity + max 0 rate * (now - s) := by ring

/-- A draw outside the window takes nothing from it. -/
theorem Account.draw_outside (account : Account capacity rate s t taken bucket)
    (outside : ¬(s ≤ bucket.updated_at ∧ bucket.updated_at ≤ s + t)) :
    Account capacity rate s t taken bucket.draw.2 := by
  obtain ⟨stock, total, ledger⟩ := account
  unfold Bucket.draw
  split
  · refine ⟨by dsimp only; linarith, total, ?_⟩
    rcases ledger with none_taken | ⟨started, spent⟩
    · exact .inl none_taken
    · exact .inr ⟨started, by dsimp only; linarith⟩
  · exact ⟨stock, total, ledger⟩

/-- A draw inside the window keeps the account, with the token it took. -/
theorem Account.draw_inside (account : Account capacity rate s t taken bucket) (started : s ≤ bucket.updated_at)
    (before_end : bucket.updated_at ≤ s + t) :
    Account capacity rate s t (taken + if bucket.draw.1 then 1 else 0) bucket.draw.2 := by
  obtain ⟨stock, total, ledger⟩ := account
  have within : max 0 rate * (bucket.updated_at - s) ≤ max 0 rate * t :=
    mul_le_mul_of_nonneg_left (by linarith) (le_max_left _ _)
  have refill_nonneg : 0 ≤ max 0 rate * (bucket.updated_at - s) :=
    mul_nonneg (le_max_left _ _) (sub_nonneg.mpr started)
  have spent : taken + bucket.tokens ≤ max 0 capacity + max 0 rate * (bucket.updated_at - s) := by
    rcases ledger with none_taken | ⟨_, spent⟩
    · linarith
    · exact spent
  unfold Bucket.draw
  split
  · rename_i token
    simp only [if_true]
    exact ⟨by dsimp only; linarith, by linarith, .inr ⟨started, by dsimp only; linarith⟩⟩
  · simp only [Bool.false_eq_true, if_false, add_zero]
    exact ⟨stock, total, ledger⟩

end TokenBucket
