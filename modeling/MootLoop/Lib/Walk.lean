import Mathlib.Data.List.Forall2

/-! Walks of a list with a function that may raise: a walk returns exactly when each of its steps does. -/

namespace Walk

variable {ε α β : Type} {f g : α → Except ε β} {l : List α} {bs : List β}

theorem mapM_cons_ok {a : α} : (a :: l).mapM f = .ok bs ↔ ∃ b rest, f a = .ok b ∧ l.mapM f = .ok rest ∧ bs = b :: rest := by
  rw [List.mapM_cons]
  cases head : f a with
  | error e => simp [bind, Except.bind]
  | ok b =>
    cases tail : l.mapM f with
    | error e => simp [bind, Except.bind]
    | ok rest => simp [bind, Except.bind, pure, Except.pure, eq_comm]

/-- A walk that does not raise has a result for each item. -/
theorem mapM_ok_iff : l.mapM f = .ok bs ↔ List.Forall₂ (fun a b => f a = .ok b) l bs := by
  induction l generalizing bs with
  | nil =>
    rw [List.forall₂_nil_left_iff]
    constructor
    · intro walked
      cases walked
      rfl
    · rintro rfl
      rfl
  | cons a l ih =>
    rw [mapM_cons_ok]
    constructor
    · rintro ⟨b, rest, head, tail, rfl⟩
      exact .cons head (ih.mp tail)
    · intro each
      rcases each with _ | ⟨head, tail⟩
      exact ⟨_, _, head, ih.mpr tail, rfl⟩

theorem forall₂_of_mapM (walked : l.mapM f = .ok bs) : List.Forall₂ (fun a b => f a = .ok b) l bs := mapM_ok_iff.mp walked

theorem mem_of_mapM (walked : l.mapM f = .ok bs) {b : β} (mem : b ∈ bs) : ∃ a ∈ l, f a = .ok b := by
  obtain ⟨i, bound, rfl⟩ := List.mem_iff_getElem.mp mem
  have each := forall₂_of_mapM walked
  have room : i < l.length := each.length_eq ▸ bound
  exact ⟨l[i], List.getElem_mem room, each.get room bound⟩

theorem mapM_append_ok {l' : List α} :
    (l ++ l').mapM f = .ok bs ↔ ∃ xs ys, l.mapM f = .ok xs ∧ l'.mapM f = .ok ys ∧ bs = xs ++ ys := by
  induction l generalizing bs with
  | nil =>
    constructor
    · intro walked
      exact ⟨[], bs, rfl, walked, rfl⟩
    · rintro ⟨xs, ys, first, walked, rfl⟩
      cases first
      exact walked
  | cons a l ih =>
    rw [List.cons_append, mapM_cons_ok]
    constructor
    · rintro ⟨b, rest, head, tail, rfl⟩
      obtain ⟨xs, ys, first, second, rfl⟩ := ih.mp tail
      exact ⟨b :: xs, ys, mapM_cons_ok.mpr ⟨b, xs, head, first, rfl⟩, second, rfl⟩
    · rintro ⟨xs, ys, first, second, rfl⟩
      obtain ⟨b, rest, head, tail, rfl⟩ := mapM_cons_ok.mp first
      exact ⟨b, rest ++ ys, head, ih.mpr ⟨rest, ys, tail, second, rfl⟩, rfl⟩

/-- A walk that does not raise has met every item. -/
theorem exists_of_mapM (walked : l.mapM f = .ok bs) {a : α} (mem : a ∈ l) : ∃ b ∈ bs, f a = .ok b := by
  obtain ⟨i, bound, rfl⟩ := List.mem_iff_getElem.mp mem
  have each := forall₂_of_mapM walked
  have room : i < bs.length := each.length_eq ▸ bound
  exact ⟨bs[i], List.getElem_mem room, each.get bound room⟩

/-- A walk whose steps never raise does not raise. -/
theorem mapM_total (steps : ∀ a ∈ l, ∃ b, f a = .ok b) :
    ∃ bs, l.mapM f = .ok bs ∧ List.Forall₂ (fun a b => f a = .ok b) l bs := by
  induction l with
  | nil => exact ⟨[], rfl, .nil⟩
  | cons a l ih =>
    obtain ⟨b, head⟩ := steps a List.mem_cons_self
    obtain ⟨bs, tail, each⟩ := ih fun a mem => steps a (List.mem_cons_of_mem _ mem)
    exact ⟨b :: bs, mapM_cons_ok.mpr ⟨b, bs, head, tail, rfl⟩, .cons head each⟩

theorem mapM_map {h : α → β} (steps : ∀ a ∈ l, f a = .ok (h a)) : l.mapM f = .ok (l.map h) := by
  induction l with
  | nil => rfl
  | cons a l ih =>
    exact mapM_cons_ok.mpr
      ⟨h a, l.map h, steps a List.mem_cons_self, ih fun a mem => steps a (List.mem_cons_of_mem _ mem), rfl⟩

theorem mapM_mono (mono : ∀ a b, f a = .ok b → g a = .ok b) (walked : l.mapM f = .ok bs) : l.mapM g = .ok bs :=
  mapM_ok_iff.mpr ((forall₂_of_mapM walked).imp mono)

end Walk
