import MootLoop.Planner
import Mathlib.Tactic.Linarith

/-! The slots of a run are apart: no two slots share a sequence number, in one request or across requests, and no
    two sequence numbers share a turn id. -/

namespace MootLoop

theorem pad4_toList (n : Nat) :
    (pad4 n).toList = List.replicate (4 - (toString n).length) '0' ++ Nat.toDigits 10 n := by
  simp [pad4, String.toList_append]

theorem pad4_injective {a b : Nat} (h : pad4 a = pad4 b) : a = b := by
  have value (n : Nat) : Nat.ofDigitChars 10 (pad4 n).toList 0 = n := by
    rw [pad4_toList, Nat.ofDigitChars_append, Nat.ofDigitChars_replicate_zero, Nat.mul_zero]
    exact Nat.ofDigitChars_toDigits (by omega) (by omega)
  rw [← value a, h, value b]

namespace SlotLayout
variable {l l' : SlotLayout}

theorem turn_id_injective {a b : Nat} (h : l.turn_id a = l.turn_id b) : a = b := by
  have chars := congrArg String.toList h
  simp only [turn_id, String.toList_append] at chars
  exact pad4_injective (String.toList_inj.mp (List.append_cancel_left chars))

end SlotLayout

namespace Slot
variable {l l' : SlotLayout} {a b : Slot}

/-- The sequence numbers of a request fill its block. -/
theorem Within.bounds (h : a.Within l) : l.base ≤ a.seq l ∧ a.seq l < l.base + l.block := by
  obtain ⟨pos, room⟩ := h
  cases a <;>
    simp only [number, Slot.room, seq, SlotLayout.draft, SlotLayout.critique, SlotLayout.oc_slot, SlotLayout.bolster_slot,
      SlotLayout.judge_slot, SlotLayout.rubric_base, SlotLayout.rubric_loop, SlotLayout.rubric_final,
      SlotLayout.restructure_slot, SlotLayout.jury_slot, SlotLayout.block] at * <;>
    omega

/-- The block a sequence number falls in is its request's. -/
theorem Within.index (h : a.Within l) : a.seq l / l.block = l.req_index := by
  obtain ⟨low, high⟩ := h.bounds
  simp only [SlotLayout.base] at low high
  have pos : 0 < l.block := by omega
  exact Nat.div_eq_of_lt_le (by omega) (by rw [Nat.succ_mul]; omega)

/-- Two slots of one request never share a sequence number. -/
theorem Within.seq_injective (ha : a.Within l) (hb : b.Within l) (h : a.seq l = b.seq l) : a = b := by
  obtain ⟨pos, room⟩ := ha
  obtain ⟨pos', room'⟩ := hb
  cases a <;> cases b <;>
    simp only [number, Slot.room, seq, SlotLayout.draft, SlotLayout.critique, SlotLayout.oc_slot, SlotLayout.bolster_slot,
      SlotLayout.judge_slot, SlotLayout.rubric_base, SlotLayout.rubric_loop, SlotLayout.rubric_final,
      SlotLayout.restructure_slot, SlotLayout.jury_slot, draft.injEq, critique.injEq, oc_attack.injEq, bolster.injEq,
      judge.injEq, rubric_loop.injEq, rubric_final.injEq, restructure.injEq, jury.injEq] at * <;>
    omega

/-- Every slot of a request lies in the request's own block, and two slots of any requests share a turn id only if they
    are one slot of one request. -/
theorem turns_apart {i j : Nat} (ha : a.Within { l with req_index := i }) (hb : b.Within { l with req_index := j }) :
    (i * l.block ≤ a.seq { l with req_index := i } ∧ a.seq { l with req_index := i } < (i + 1) * l.block) ∧
      ({ l with req_index := i }.turn_id (a.seq { l with req_index := i }) =
        { l with req_index := j }.turn_id (b.seq { l with req_index := j }) ↔ i = j ∧ a = b) := by
  have bounds := ha.bounds
  refine ⟨⟨bounds.1, by rw [Nat.succ_mul]; exact bounds.2⟩, fun same => ?_, ?_⟩
  · have seqs : a.seq { l with req_index := i } = b.seq { l with req_index := j } := SlotLayout.turn_id_injective same
    have index : i = j := ha.index.symm.trans ((congrArg (· / l.block) seqs).trans hb.index)
    subst index
    exact ⟨rfl, ha.seq_injective hb seqs⟩
  · rintro ⟨rfl, rfl⟩
    rfl

/-- The last juror of the first request and the first draft of the second. -/
theorem turns_apart_neighbours :
    let l : SlotLayout := ⟨"run-1", 0, 2, 1, 1, 3, 3, 1, 5⟩
    (0 * l.block ≤ (jury 5).seq { l with req_index := 0 } ∧ (jury 5).seq { l with req_index := 0 } < (0 + 1) * l.block) ∧
      ({ l with req_index := 0 }.turn_id ((jury 5).seq { l with req_index := 0 }) =
        { l with req_index := 1 }.turn_id ((draft 1).seq { l with req_index := 1 }) ↔ 0 = 1 ∧ jury 5 = draft 1) :=
  turns_apart ⟨by decide, by decide⟩ ⟨by decide, by decide⟩

end Slot
end MootLoop
