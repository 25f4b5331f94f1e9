import MootLoop.Panels
import MootLoop.Theorems.Runs

/-! The alignment of a judge's rulings with the objections of a draft: no ruling is used twice, as many objections as
    can be are matched on their own basis, and rulings in the objections' order are paired by position. -/

namespace MootLoop.Alignment

variable {x : Externals} {rulings : List ObjectionRuling} {basis basis' : String} {claimed : List Nat} {j : Nat}

/-! ### Unclaimed rulings -/

/-- The positions of the unclaimed rulings on a basis. -/
def unclaimed (x : Externals) (rulings : List ObjectionRuling) (basis : String) (claimed : List Nat) : List Nat :=
  (List.range rulings.length).filter fun j =>
    j ∉ claimed ∧ (rulings[j]?.any fun r => basis_key x r.objection_basis = basis)

theorem mem_unclaimed : j ∈ unclaimed x rulings basis claimed ↔
    j ∉ claimed ∧ ∃ r, rulings[j]? = some r ∧ basis_key x r.objection_basis = basis := by
  simp only [unclaimed, List.mem_filter, List.mem_range, decide_eq_true_eq, Option.any_eq_true]
  refine ⟨fun ⟨_, free, ruled⟩ => ⟨free, ruled⟩, fun ⟨free, r, at_j, ruled⟩ => ⟨?_, free, r, at_j, ruled⟩⟩
  obtain ⟨lt, _⟩ := List.getElem?_eq_some_iff.mp at_j
  exact lt

theorem unclaimed_claim : unclaimed x rulings basis (claimed ++ [j]) = (unclaimed x rulings basis claimed).erase j := by
  have nodup : (unclaimed x rulings basis claimed).Nodup := List.nodup_range.filter _
  rw [nodup.erase_eq_filter, unclaimed, unclaimed, List.filter_filter]
  refine List.filter_congr fun i _ => ?_
  simp only [List.mem_append, List.mem_singleton, not_or]
  by_cases same : i = j <;> simp [same]

theorem length_unclaimed_claim (mem : j ∈ unclaimed x rulings basis claimed) :
    (unclaimed x rulings basis (claimed ++ [j])).length + 1 = (unclaimed x rulings basis claimed).length := by
  rw [unclaimed_claim, List.length_erase_of_mem mem]
  have pos := List.length_pos_of_mem mem
  omega

/-- A claim on one basis leaves the rulings on the others. -/
theorem unclaimed_claim_other (mem : j ∈ unclaimed x rulings basis claimed) (other : basis ≠ basis') :
    unclaimed x rulings basis' (claimed ++ [j]) = unclaimed x rulings basis' claimed := by
  rw [unclaimed_claim, List.erase_of_not_mem]
  intro mem'
  obtain ⟨_, r, at_j, ruled⟩ := mem_unclaimed.mp mem
  obtain ⟨_, r', at_j', ruled'⟩ := mem_unclaimed.mp mem'
  cases at_j.symm.trans at_j'
  exact other (ruled.symm.trans ruled')

theorem length_unclaimed_nil :
    (unclaimed x rulings basis []).length = rulings.countP fun r => basis_key x r.objection_basis = basis := by
  unfold unclaimed
  induction rulings with
  | nil => rfl
  | cons r rulings ih =>
    rw [List.length_cons, List.range_succ_eq_map, List.filter_cons, List.filter_map, List.countP_cons, ← ih]
    simp only [Function.comp_def, List.getElem?_cons_succ, List.getElem?_cons_zero, Option.any_some, List.not_mem_nil,
      not_false_eq_true, true_and, decide_eq_true_eq]
    split <;> simp

/-! ### The basis pass -/

/-- An objection claims an unclaimed ruling on its basis, its own position first, unless there is none. -/
theorem align_by_basis_cons (index : Nat) (objection : Objection) (rest : List (Nat × Objection)) (claimed : List Nat) :
    (unclaimed x rulings (basis_key x objection.basis) claimed = [] ∧
        align_by_basis x rulings ((index, objection) :: rest) claimed = none :: align_by_basis x rulings rest claimed) ∨
      ∃ chosen ∈ unclaimed x rulings (basis_key x objection.basis) claimed,
        (index ∈ unclaimed x rulings (basis_key x objection.basis) claimed → chosen = index) ∧
          align_by_basis x rulings ((index, objection) :: rest) claimed =
            some chosen :: align_by_basis x rulings rest (claimed ++ [chosen]) := by
  cases candidates : unclaimed x rulings (basis_key x objection.basis) claimed with
  | nil =>
    refine .inl ⟨rfl, ?_⟩
    unfold unclaimed at candidates
    rw [align_by_basis, candidates]
  | cons first others =>
    refine .inr ⟨if index ∈ first :: others then index else first, ?_, fun mem => if_pos mem, ?_⟩
    · split
      · assumption
      · exact List.mem_cons_self
    · unfold unclaimed at candidates
      rw [align_by_basis, candidates]

theorem length_align_by_basis (indexed : List (Nat × Objection)) (claimed : List Nat) :
    (align_by_basis x rulings indexed claimed).length = indexed.length := by
  induction indexed generalizing claimed with
  | nil => rfl
  | cons entry rest ih =>
    obtain ⟨index, objection⟩ := entry
    rcases align_by_basis_cons index objection rest claimed with ⟨_, next⟩ | ⟨chosen, _, _, next⟩ <;>
      rw [next, List.length_cons, List.length_cons, ih]

/-- The rulings claimed on their basis are distinct, and were unclaimed. -/
theorem basis_claims (indexed : List (Nat × Objection)) (claimed : List Nat) :
    ((align_by_basis x rulings indexed claimed).filterMap id).Nodup ∧
      ∀ j ∈ (align_by_basis x rulings indexed claimed).filterMap id, j ∉ claimed ∧ j < rulings.length := by
  induction indexed generalizing claimed with
  | nil => exact ⟨List.nodup_nil, fun j mem => by cases mem⟩
  | cons entry rest ih =>
    obtain ⟨index, objection⟩ := entry
    rcases align_by_basis_cons index objection rest claimed with ⟨_, next⟩ | ⟨chosen, mem, _, next⟩
    · rw [next]
      exact ih claimed
    · obtain ⟨nodup, free⟩ := ih (claimed ++ [chosen])
      obtain ⟨unclaimed, r, at_chosen, _⟩ := mem_unclaimed.mp mem
      rw [next, List.filterMap_cons_some (b := chosen) (by rfl), List.nodup_cons]
      refine ⟨⟨fun again => (free chosen again).1 (by simp), nodup⟩, fun j j_mem => ?_⟩
      rcases List.mem_cons.mp j_mem with rfl | later
      · exact ⟨unclaimed, (List.getElem?_eq_some_iff.mp at_chosen).1⟩
      · exact ⟨fun j_claimed => (free j later).1 (List.mem_append_left _ j_claimed), (free j later).2⟩

/-- What an objection claims in the basis pass is a ruling on its basis. -/
theorem basis_match (indexed : List (Nat × Objection)) (claimed : List Nat) {i index : Nat} {objection : Objection}
    (at_i : indexed[i]? = some (index, objection)) (matched : (align_by_basis x rulings indexed claimed)[i]? = some (some j)) :
    ∃ r, rulings[j]? = some r ∧ basis_key x r.objection_basis = basis_key x objection.basis := by
  induction indexed generalizing claimed i with
  | nil => cases at_i
  | cons entry rest ih =>
    obtain ⟨index, objection'⟩ := entry
    rcases align_by_basis_cons index objection' rest claimed with ⟨_, next⟩ | ⟨chosen, mem, _, next⟩
    all_goals
      rw [next] at matched
      cases i with
      | succ i => exact ih _ at_i matched
      | zero => ?_
    · cases matched
    · cases at_i
      cases matched
      exact (mem_unclaimed.mp mem).2

/-- How many objections on the basis have a position. -/
def matched (x : Externals) (basis : String) (indexed : List (Nat × Objection)) (positions : List (Option Nat)) : Nat :=
  (indexed.zip positions).countP fun entry => basis_key x entry.1.2.basis = basis ∧ entry.2.isSome

/-- The basis pass matches all it can. -/
theorem matched_eq_min (indexed : List (Nat × Objection)) (claimed : List Nat) :
    matched x basis indexed (align_by_basis x rulings indexed claimed) =
      min (indexed.countP fun entry => basis_key x entry.2.basis = basis)
        (unclaimed x rulings basis claimed).length := by
  induction indexed generalizing claimed with
  | nil => simp [matched, align_by_basis]
  | cons entry rest ih =>
    obtain ⟨index, objection⟩ := entry
    rcases align_by_basis_cons index objection rest claimed with ⟨empty, next⟩ | ⟨chosen, mem, _, next⟩
    · have later := ih claimed
      unfold matched at later ⊢
      rw [next, List.zip_cons_cons, List.countP_cons, later, List.countP_cons]
      by_cases same : basis_key x objection.basis = basis
      · rw [same] at empty
        simp [empty]
      · simp [same]
    · have later := ih (claimed ++ [chosen])
      unfold matched at later ⊢
      rw [next, List.zip_cons_cons, List.countP_cons, later, List.countP_cons]
      by_cases same : basis_key x objection.basis = basis
      · rw [same] at mem
        have one_less := length_unclaimed_claim mem
        simp only [same, Option.isSome_some, and_self, decide_true, if_true]
        omega
      · rw [unclaimed_claim_other mem same]
        simp [same]

/-! ### The position pass -/

/-- The position pass keeps what was claimed, and claims each position once. -/
theorem position_claims (count : Nat) (entries : List (Nat × Option Nat)) (claimed : List Nat)
    (known : ∀ j ∈ entries.filterMap (·.2), j ∈ claimed) (nodup : (entries.filterMap (·.2)).Nodup) :
    ((align_by_position count entries claimed).filterMap id).Nodup ∧
      ∀ j ∈ (align_by_position count entries claimed).filterMap id,
        j ∈ entries.filterMap (·.2) ∨ j ∉ claimed ∧ j < count := by
  induction entries generalizing claimed with
  | nil => exact ⟨List.nodup_nil, fun j mem => by cases mem⟩
  | cons entry rest ih =>
    obtain ⟨index, position⟩ := entry
    cases position with
    | some j =>
      rw [List.filterMap_cons_some (b := j) (by rfl)] at known nodup
      rw [List.filterMap_cons_some (b := j) (by rfl)]
      obtain ⟨fresh, nodup⟩ := List.nodup_cons.mp nodup
      obtain ⟨later_nodup, later⟩ := ih claimed (fun i mem => known i (List.mem_cons_of_mem _ mem)) nodup
      rw [align_by_position, List.filterMap_cons_some (b := j) (by rfl), List.nodup_cons]
      refine ⟨⟨fun again => ?_, later_nodup⟩, fun i mem => ?_⟩
      · rcases later j again with old | ⟨unclaimed, _⟩
        · exact fresh old
        · exact unclaimed (known j List.mem_cons_self)
      · rcases List.mem_cons.mp mem with rfl | mem
        · exact .inl List.mem_cons_self
        · exact (later i mem).imp_left (List.mem_cons_of_mem _)
    | none =>
      rw [List.filterMap_cons_none (by rfl)] at known nodup
      rw [List.filterMap_cons_none (by rfl), align_by_position]
      split
      · rename_i free
        obtain ⟨later_nodup, later⟩ := ih (claimed ++ [index]) (fun i mem => List.mem_append_left _ (known i mem)) nodup
        rw [List.filterMap_cons_some (b := index) (by rfl), List.nodup_cons]
        refine ⟨⟨fun again => ?_, later_nodup⟩, fun i mem => ?_⟩
        · rcases later index again with old | ⟨unclaimed, _⟩
          · exact free.2 (known index old)
          · exact unclaimed (by simp)
        · rcases List.mem_cons.mp mem with rfl | mem
          · exact .inr ⟨free.2, free.1⟩
          · exact (later i mem).imp_right fun ⟨unclaimed, lt⟩ => ⟨fun old => unclaimed (List.mem_append_left _ old), lt⟩
      · exact ih claimed known nodup

theorem length_align_by_position (count : Nat) (entries : List (Nat × Option Nat)) (claimed : List Nat) :
    (align_by_position count entries claimed).length = entries.length := by
  induction entries generalizing claimed with
  | nil => rfl
  | cons entry rest ih =>
    obtain ⟨index, position⟩ := entry
    cases position with
    | some j => rw [align_by_position, List.length_cons, List.length_cons, ih]
    | none =>
      rw [align_by_position]
      split <;> rw [List.length_cons, List.length_cons, ih]

/-! ### Both passes -/

/-- The objections with their positions. -/
def indexed (objections : List Objection) : List (Nat × Objection) :=
  (List.range objections.length).zip objections

/-- What each objection claims in the basis pass. -/
def by_basis (x : Externals) (objections : List Objection) (rulings : List ObjectionRuling) : List (Option Nat) :=
  align_by_basis x rulings (indexed objections) []

/-- The position of the ruling each objection is given. -/
def positions (x : Externals) (objections : List Objection) (rulings : List ObjectionRuling) : List (Option Nat) :=
  align_by_position rulings.length
    ((List.range (by_basis x objections rulings).length).zip (by_basis x objections rulings))
    ((by_basis x objections rulings).filterMap id)

theorem align_rulings_eq (objections : List Objection) (judge_output : JudgeOutput) :
    align_rulings x objections judge_output =
      (positions x objections judge_output.rulings).map fun position => position.bind (judge_output.rulings[·]?) := rfl

theorem length_by_basis (objections : List Objection) : (by_basis x objections rulings).length = objections.length := by
  rw [by_basis, length_align_by_basis, indexed, List.length_zip, List.length_range, Nat.min_self]

theorem length_positions (objections : List Objection) : (positions x objections rulings).length = objections.length := by
  rw [positions, length_align_by_position, List.length_zip, List.length_range, Nat.min_self, length_by_basis]

theorem filterMap_zip_range (l : List (Option Nat)) : ((List.range l.length).zip l).filterMap (·.2) = l.filterMap id := by
  have snd : ((List.range l.length).zip l).map Prod.snd = l := List.map_snd_zip (by simp)
  conv_rhs => rw [← snd, List.filterMap_map]
  rfl

theorem positions_nodup (objections : List Objection) :
    ((positions x objections rulings).filterMap id).Nodup ∧
      ∀ j ∈ (positions x objections rulings).filterMap id, j < rulings.length := by
  obtain ⟨nodup, free⟩ : ((by_basis x objections rulings).filterMap id).Nodup ∧ _ := basis_claims (indexed objections) []
  obtain ⟨final_nodup, final⟩ := position_claims rulings.length _ ((by_basis x objections rulings).filterMap id)
    (fun j mem => by rwa [filterMap_zip_range] at mem) (by rwa [filterMap_zip_range])
  refine ⟨final_nodup, fun j mem => ?_⟩
  rcases final j mem with old | ⟨_, lt⟩
  · rw [filterMap_zip_range] at old
    exact (free j old).2
  · exact lt

theorem countP_indexed (objections : List Objection) (p : Objection → Bool) :
    (indexed objections).countP (fun entry => p entry.2) = objections.countP p := by
  have snd : (indexed objections).map Prod.snd = objections := List.map_snd_zip (by simp)
  conv_rhs => rw [← snd, List.countP_map]
  rfl

/-! ### Rulings in the objections' order -/

/-- The rulings' bases are the objections', as far as both go. -/
def Agree (x : Externals) (objections : List Objection) (rulings : List ObjectionRuling) : Prop :=
  ∀ (i : Nat) objection ruling, objections[i]? = some objection → rulings[i]? = some ruling →
    basis_key x ruling.objection_basis = basis_key x objection.basis

/-- Objections taken in order, with the rulings before them claimed, claim their own positions. -/
theorem align_by_basis_in_order (objections : List Objection) (k : Nat)
    (agree : ∀ (i : Nat) objection ruling, objections[i]? = some objection → rulings[k + i]? = some ruling →
      basis_key x ruling.objection_basis = basis_key x objection.basis) :
    align_by_basis x rulings ((List.range' k objections.length).zip objections)
        (List.range (min k rulings.length)) =
      (List.range' k objections.length).map fun i => if i < rulings.length then some i else none := by
  induction objections generalizing k with
  | nil => rfl
  | cons objection objections ih =>
    have later := ih (k + 1) fun i o r at_i at_r => agree (i + 1) o r at_i (by rwa [Nat.add_right_comm] at at_r)
    rw [List.length_cons, List.range'_succ, List.zip_cons_cons, List.map_cons]
    rcases @align_by_basis_cons x rulings k objection ((List.range' (k + 1) objections.length).zip objections)
      (List.range (min k rulings.length)) with ⟨empty, next⟩ | ⟨chosen, mem, own, next⟩
    · have past : ¬k < rulings.length := by
        intro lt
        have mem : k ∈ unclaimed x rulings (basis_key x objection.basis) (List.range (min k rulings.length)) :=
          mem_unclaimed.mpr ⟨by simp, rulings[k], List.getElem?_eq_getElem lt,
            agree 0 _ _ rfl (List.getElem?_eq_getElem lt)⟩
        rw [empty] at mem
        cases mem
      rw [show min (k + 1) rulings.length = min k rulings.length by omega] at later
      rw [next, later, if_neg past]
    · obtain ⟨unclaimed, r, at_chosen, ruled⟩ := mem_unclaimed.mp mem
      have in_rulings : chosen < rulings.length := (List.getElem?_eq_some_iff.mp at_chosen).1
      have lt : k < rulings.length := by
        have late : ¬chosen < min k rulings.length := fun early => unclaimed (List.mem_range.mpr early)
        omega
      have chosen_eq : chosen = k := own <| mem_unclaimed.mpr ⟨by simp, rulings[k], List.getElem?_eq_getElem lt,
        agree 0 _ _ rfl (List.getElem?_eq_getElem lt)⟩
      rw [show min (k + 1) rulings.length = min k rulings.length + 1 by omega, List.range_succ,
        show min k rulings.length = k by omega] at later
      rw [next, chosen_eq, show min k rulings.length = k by omega, later, if_pos lt]

theorem align_by_position_settled (count : Nat) (entries : List (Nat × Option Nat)) (claimed : List Nat)
    (settled : ∀ entry ∈ entries, entry.2 = none → count ≤ entry.1) :
    align_by_position count entries claimed = entries.map (·.2) := by
  induction entries generalizing claimed with
  | nil => rfl
  | cons entry rest ih =>
    have later := ih claimed fun entry mem => settled entry (List.mem_cons_of_mem _ mem)
    obtain ⟨index, position⟩ := entry
    cases position with
    | some j => rw [align_by_position, later, List.map_cons]
    | none =>
      have past : count ≤ index := settled _ List.mem_cons_self rfl
      rw [align_by_position, if_neg (by omega), later, List.map_cons]

/-- Rulings in the objections' order are paired by position. -/
theorem align_rulings_in_order {objections : List Objection} {judge_output : JudgeOutput}
    (agree : Agree x objections judge_output.rulings) :
    align_rulings x objections judge_output = (List.range objections.length).map (judge_output.rulings[·]?) := by
  have basis_pass : by_basis x objections judge_output.rulings =
      (List.range objections.length).map fun i => if i < judge_output.rulings.length then some i else none := by
    rw [by_basis, indexed, List.range_eq_range']
    exact align_by_basis_in_order objections 0 fun i o r at_i at_r => agree i o r at_i (by rwa [Nat.zero_add] at at_r)
  have position_pass : positions x objections judge_output.rulings = by_basis x objections judge_output.rulings := by
    rw [positions, align_by_position_settled]
    · exact List.map_snd_zip (by simp)
    · intro entry mem none_at
      obtain ⟨i, at_i⟩ := List.mem_iff_getElem?.mp mem
      rw [List.getElem?_zip_eq_some, basis_pass, none_at] at at_i
      obtain ⟨at_range, at_map⟩ := at_i
      obtain ⟨lt, entry_eq⟩ := List.getElem?_eq_some_iff.mp at_range
      rw [List.getElem_range] at entry_eq
      rw [List.getElem?_map] at at_map
      obtain ⟨i', at_i', past⟩ := Option.map_eq_some_iff.mp at_map
      obtain ⟨_, i'_eq⟩ := List.getElem?_eq_some_iff.mp at_i'
      rw [List.getElem_range] at i'_eq
      split at past
      · cases past
      · omega
  rw [align_rulings_eq, position_pass, basis_pass, List.map_map]
  refine List.map_congr_left fun i _ => ?_
  simp only [Function.comp_apply]
  split
  · rfl
  · rename_i past
    exact (List.getElem?_eq_none (Nat.le_of_not_lt past)).symm

/-! ### The votes -/

theorem votes_le {run_id : RunId} {request_id : RequestId} {objections : List Objection}
    {judge_outputs : List JudgeOutput} {result : PanelResult}
    (mem : result ∈ fold_objection_results x run_id request_id objections judge_outputs) :
    result.survive_votes ≤ result.total_votes ∧ result.total_votes ≤ judge_outputs.length := by
  obtain ⟨⟨index, objection⟩, _, rfl⟩ := List.mem_map.mp mem
  refine ⟨List.length_filter_le _ _, le_trans (List.length_filterMap_le _ _) ?_⟩
  rw [List.length_map]

/-- Each ruling is used at most once; the basis pass matches objections with rulings on their own basis, as many on
    each basis as there are of both; rulings that follow the objections' bases are paired by position; and the votes to
    survive are among the votes, of which a judge has one. -/
theorem alignment (x : Externals) (objections : List Objection) (judge_output : JudgeOutput) :
    ((align_rulings x objections judge_output =
          (positions x objections judge_output.rulings).map fun position => position.bind (judge_output.rulings[·]?)) ∧
        (positions x objections judge_output.rulings).length = objections.length ∧
        ((positions x objections judge_output.rulings).filterMap id).Nodup ∧
        ∀ j ∈ (positions x objections judge_output.rulings).filterMap id, j < judge_output.rulings.length) ∧
      (∀ (i j : Nat) objection, objections[i]? = some objection →
        (by_basis x objections judge_output.rulings)[i]? = some (some j) →
          ∃ r, judge_output.rulings[j]? = some r ∧ basis_key x r.objection_basis = basis_key x objection.basis) ∧
      (∀ basis, matched x basis (indexed objections) (by_basis x objections judge_output.rulings) =
        min (objections.countP fun o => basis_key x o.basis = basis)
          (judge_output.rulings.countP fun r => basis_key x r.objection_basis = basis)) ∧
      (Agree x objections judge_output.rulings →
        align_rulings x objections judge_output = (List.range objections.length).map (judge_output.rulings[·]?)) ∧
      ∀ run_id request_id judge_outputs, ∀ result ∈ fold_objection_results x run_id request_id objections judge_outputs,
        result.survive_votes ≤ result.total_votes ∧ result.total_votes ≤ judge_outputs.length := by
  refine ⟨⟨align_rulings_eq _ _, length_positions _, positions_nodup _⟩, fun i j objection at_i claims => ?_,
    fun basis => ?_, align_rulings_in_order, fun _ _ _ _ => votes_le⟩
  · obtain ⟨lt, _⟩ := List.getElem?_eq_some_iff.mp at_i
    have at_indexed : (indexed objections)[i]? = some (i, objection) :=
      List.getElem?_zip_eq_some.mpr ⟨List.getElem?_range lt, at_i⟩
    exact basis_match (indexed objections) [] at_indexed claims
  · rw [by_basis, matched_eq_min, length_unclaimed_nil]
    exact congrArg (min · _) (countP_indexed objections fun o => basis_key x o.basis = basis)

/-- Two objections on relevance and a judge who ruled on both, in their order. -/
theorem alignment_two_on_relevance :
    align_rulings Sample.externals [⟨"Relevance", "Not relevant."⟩, ⟨"relevance", "Nor is this."⟩]
        ⟨[⟨"relevance ", true, "Fair.", ""⟩, ⟨"RELEVANCE", false, "Waived.", ""⟩], "ok"⟩ =
      [some ⟨"relevance ", true, "Fair.", ""⟩, some ⟨"RELEVANCE", false, "Waived.", ""⟩] := by
  refine (alignment Sample.externals _ _).2.2.2.1 ?_
  intro i objection ruling at_objection at_ruling
  rcases i with _ | _ | i <;> cases at_objection <;> cases at_ruling <;> decide +kernel

end MootLoop.Alignment
