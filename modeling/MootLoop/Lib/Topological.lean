import Mathlib.Data.Fintype.Card
import Mathlib.Data.Finset.Dedup
import Mathlib.Data.Fintype.EquivFin
import Mathlib.Data.List.Nodup
import Mathlib.Data.List.Perm.Basic
import Mathlib.Logic.Relation
import Mathlib.Order.WellFounded

/-! Topological sorting in rounds: each round removes the nodes that depend on none left. The rounds end with all nodes
    in order exactly when no node depends on itself through the others. -/

namespace Topological

variable {α : Type} [DecidableEq α] (deps : α → List α)

/-- The pending nodes that depend on no pending one. -/
def ready (pending : List α) : List α := pending.filter fun a => ∀ b ∈ deps a, b ∉ pending

/-- The rounds, at most `fuel` of them; fails with the nodes left when none is ready. -/
def rounds (fuel : Nat) (pending ordered : List α) : Except (List α) (List α) :=
  if pending = [] then .ok ordered
  else
    match fuel with
    | 0 => .ok ordered
    | fuel + 1 =>
      if ready deps pending = [] then .error pending
      else rounds fuel (pending.filter (· ∉ ready deps pending)) (ordered ++ ready deps pending)

/-- A dependency of one of the nodes on another. -/
def Requires (nodes : List α) (a b : α) : Prop := a ∈ nodes ∧ b ∈ nodes ∧ b ∈ deps a

/-- Some node depends on itself, directly or through others of the nodes. -/
def Cyclic (nodes : List α) : Prop := ∃ a, Relation.TransGen (Requires deps nodes) a a

/-- No node depends on itself or on one after it. -/
def InOrder (order : List α) : Prop := (∀ a ∈ order, a ∉ deps a) ∧ order.Pairwise fun a b => b ∉ deps a

variable {deps} {pending ordered result nodes order left : List α} {fuel : Nat} {a b : α}

theorem mem_ready : a ∈ ready deps pending ↔ a ∈ pending ∧ ∀ b ∈ deps a, b ∉ pending := by simp [ready]

/-! ### What the rounds end with -/

theorem rounds_perm (deps : α → List α) (pending : List α) :
    (ready deps pending ++ pending.filter (· ∉ ready deps pending)).Perm pending := by
  have later : pending.filter (· ∉ ready deps pending) = pending.filter fun a => !decide (∀ b ∈ deps a, b ∉ pending) := by
    refine List.filter_congr fun a mem => ?_
    simp only [mem_ready, mem, true_and, decide_not]
  rw [later]
  exact List.filter_append_perm _ _

theorem length_later (some_ready : ready deps pending ≠ []) :
    (pending.filter (· ∉ ready deps pending)).length < pending.length := by
  have whole := (rounds_perm deps pending).length_eq
  rw [List.length_append] at whole
  have pos := List.length_pos_iff.mpr some_ready
  omega

/-- Rounds that end well have put the pending nodes in order. -/
theorem rounds_ok (enough : pending.length ≤ fuel) (nodup : pending.Nodup)
    (ok : rounds deps fuel pending ordered = .ok result) :
    ∃ new, result = ordered ++ new ∧ new.Perm pending ∧ InOrder deps new := by
  induction fuel generalizing pending ordered with
  | zero =>
    have empty : pending = [] := List.length_eq_zero_iff.mp (Nat.le_zero.mp enough)
    rw [rounds, if_pos empty] at ok
    cases ok
    exact ⟨[], by simp, by simp [empty], by simp [InOrder]⟩
  | succ fuel ih =>
    rw [rounds] at ok
    split at ok
    · rename_i empty
      cases ok
      exact ⟨[], by simp, by simp [empty], by simp [InOrder]⟩
    · split at ok
      · cases ok
      · rename_i some_ready
        have shorter := length_later some_ready
        obtain ⟨new, rfl, same, no_self, in_order⟩ := ih (by omega) (nodup.filter _) ok
        refine ⟨ready deps pending ++ new, by rw [List.append_assoc], (same.append_left _).trans (rounds_perm _ _), ?_, ?_⟩
        · intro a mem
          rcases List.mem_append.mp mem with first | later
          · obtain ⟨a_pending, free⟩ := mem_ready.mp first
            exact fun self => free a self a_pending
          · exact no_self a later
        · refine List.pairwise_append.mpr ⟨?_, in_order, fun a first b later => ?_⟩
          · refine (List.pairwise_iff_getElem.mpr fun i j _ j_lt _ => ?_)
            exact fun dep => (mem_ready.mp (List.getElem_mem _)).2 _ dep (mem_ready.mp (List.getElem_mem j_lt)).1
          · exact fun dep => (mem_ready.mp first).2 b dep (List.mem_filter.mp (same.mem_iff.mp later)).1

/-- Rounds that fail leave nodes each of which depends on one of them. -/
theorem rounds_error (failed : rounds deps fuel pending ordered = .error left) :
    left ≠ [] ∧ left ⊆ pending ∧ ∀ a ∈ left, ∃ b ∈ deps a, b ∈ left := by
  induction fuel generalizing pending ordered with
  | zero =>
    rw [rounds] at failed
    split at failed <;> cases failed
  | succ fuel ih =>
    rw [rounds] at failed
    split at failed
    · cases failed
    · rename_i some_pending
      split at failed
      · rename_i none_ready
        cases failed
        refine ⟨some_pending, List.Subset.refl _, fun a mem => ?_⟩
        by_contra free
        have a_ready : a ∈ ready deps left := mem_ready.mpr ⟨mem, fun b dep b_mem => free ⟨b, dep, b_mem⟩⟩
        rw [none_ready] at a_ready
        cases a_ready
      · obtain ⟨some_left, sub, every⟩ := ih failed
        exact ⟨some_left, fun a mem => (List.mem_filter.mp (sub mem)).1, every⟩

/-! ### Cycles -/

theorem Cyclic.mono {nodes' : List α} (sub : nodes ⊆ nodes') (cyclic : Cyclic deps nodes) : Cyclic deps nodes' := by
  obtain ⟨a, cycle⟩ := cyclic
  have le : Requires deps nodes ≤ Requires deps nodes' := fun _ _ ⟨a_mem, b_mem, dep⟩ => ⟨sub a_mem, sub b_mem, dep⟩
  exact ⟨a, Relation.TransGen.mono le _ _ cycle⟩

/-- Nodes each of which depends on one of them hold a cycle. -/
theorem cyclic_of_every (some_left : left ≠ []) (sub : left ⊆ nodes) (every : ∀ a ∈ left, ∃ b ∈ deps a, b ∈ left) :
    Cyclic deps nodes := by
  by_contra acyclic
  have finite : Finite { a // a ∈ left } :=
    Finite.of_equiv { a // a ∈ left.toFinset } (Equiv.subtypeEquivRight fun a => List.mem_toFinset)
  let Below : { a // a ∈ left } → { a // a ∈ left } → Prop := fun b a => Relation.TransGen (Requires deps nodes) a b
  have transitive : IsTrans _ Below := ⟨fun _ _ _ ab bc => bc.trans ab⟩
  have irreflexive : Std.Irrefl Below := ⟨fun a cycle => acyclic ⟨a, cycle⟩⟩
  obtain ⟨first, first_mem⟩ := List.exists_mem_of_ne_nil left some_left
  obtain ⟨least, _, minimal⟩ := (Finite.wellFounded_of_trans_of_irrefl Below).has_min Set.univ ⟨⟨first, first_mem⟩, trivial⟩
  obtain ⟨b, dep, b_mem⟩ := every least least.2
  exact minimal ⟨b, b_mem⟩ trivial (.single ⟨sub least.2, sub b_mem, dep⟩)

/-- Nodes in order hold no cycle: a dependency comes before what depends on it. -/
theorem not_cyclic_of_inOrder (same : order.Perm nodes) (in_order : InOrder deps order) : ¬Cyclic deps nodes := by
  rintro ⟨a, cycle⟩
  have before {a b : α} (dep : Requires deps nodes a b) : order.idxOf b < order.idxOf a := by
    obtain ⟨a_mem, b_mem, b_dep⟩ := dep
    have a_lt := List.idxOf_lt_length_iff.mpr (same.mem_iff.mpr a_mem)
    have b_lt := List.idxOf_lt_length_iff.mpr (same.mem_iff.mpr b_mem)
    have at_a := List.getElem_idxOf a_lt
    have at_b := List.getElem_idxOf b_lt
    rcases Nat.lt_trichotomy (order.idxOf a) (order.idxOf b) with lt | eq | gt
    · have pair := List.pairwise_iff_getElem.mp in_order.2 _ _ a_lt b_lt lt
      rw [at_a, at_b] at pair
      exact absurd b_dep pair
    · have self : a = b := by rw [← at_a, ← at_b]; simp only [eq]
      subst self
      exact absurd b_dep (in_order.1 a (same.mem_iff.mpr a_mem))
    · exact gt
  have descends {a b : α} (path : Relation.TransGen (Requires deps nodes) a b) : order.idxOf b < order.idxOf a := by
    induction path with
    | single dep => exact before dep
    | tail _ dep ih => exact (before dep).trans ih
  exact absurd (descends cycle) (Nat.lt_irrefl _)

/-- With a round for each node, the rounds end well exactly when there is no cycle. -/
theorem rounds_ok_iff (ordered : List α) (enough : pending.length ≤ fuel) (nodup : pending.Nodup) :
    (∃ result, rounds deps fuel pending ordered = .ok result) ↔ ¬Cyclic deps pending := by
  constructor
  · rintro ⟨result, ok⟩
    obtain ⟨new, _, same, in_order⟩ := rounds_ok enough nodup ok
    exact not_cyclic_of_inOrder same in_order
  · intro acyclic
    cases run : rounds deps fuel pending ordered with
    | ok result => exact ⟨result, rfl⟩
    | error left =>
      obtain ⟨some_left, sub, every⟩ := rounds_error run
      exact absurd (cyclic_of_every some_left sub every) acyclic

end Topological
