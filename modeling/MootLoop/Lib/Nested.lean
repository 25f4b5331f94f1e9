import Mathlib.Data.List.Induction
import MootLoop.Lib.Dict

/-! Nested mappings merged in layers: at each path a layer is silent, sets a value, or cuts off what the layers below
    it put there, and the last layer that is not silent decides. -/

/-- A value, or names mapped to such. -/
inductive Nested (κ α : Type) where
  | leaf (value : α)
  | mapping (entries : List (κ × Nested κ α))

namespace Nested

variable {κ α : Type}

/-! ### Values at paths -/

section Paths
variable [BEq κ]

def value_at : Nested κ α → List κ → Option (Nested κ α)
  | t, [] => some t
  | leaf _, _ :: _ => none
  | mapping entries, key :: path => (entries.lookup key).bind (value_at · path)

def leaf_at : Nested κ α → List κ → Option α
  | leaf v, [] => some v
  | leaf _, _ :: _ => none
  | mapping _, [] => none
  | mapping entries, key :: path => (entries.lookup key).bind (leaf_at · path)

/-- What a layer does at a path. -/
inductive Effect (α : Type) where
  | silent
  | cut
  | set (value : α)

def effect : Nested κ α → List κ → Effect α
  | leaf v, [] => .set v
  | leaf _, _ :: _ => .cut
  | mapping _, [] => .cut
  | mapping entries, key :: path =>
    match entries.lookup key with
    | none => .silent
    | some t => t.effect path

/-- What the value below becomes. -/
def Effect.onto : Effect α → Option α → Option α
  | silent, below => below
  | cut, _ => none
  | set v, _ => some v

theorem leaf_at_eq_onto (t : Nested κ α) (path : List κ) : t.leaf_at path = (t.effect path).onto none := by
  induction path generalizing t with
  | nil => cases t <;> rfl
  | cons key path ih =>
    cases t with
    | leaf v => rfl
    | mapping entries =>
      simp only [leaf_at, effect]
      cases entries.lookup key with
      | none => rfl
      | some t => exact ih t

theorem leaf_at_eq_some {t : Nested κ α} {path : List κ} {v : α} :
    t.leaf_at path = some v ↔ t.value_at path = some (leaf v) := by
  induction path generalizing t with
  | nil => cases t <;> simp [leaf_at, value_at]
  | cons key path ih =>
    cases t with
    | leaf w => simp [leaf_at, value_at]
    | mapping entries =>
      simp only [leaf_at, value_at]
      cases entries.lookup key with
      | none => simp
      | some t => exact ih

theorem effect_eq_set {t : Nested κ α} {path : List κ} {v : α} :
    t.effect path = .set v ↔ t.leaf_at path = some v := by
  rw [leaf_at_eq_onto]
  cases t.effect path <;> simp [Effect.onto]

end Paths

/-! ### Mappings with each name once -/

mutual

def Distinct : Nested κ α → Prop
  | leaf _ => True
  | mapping entries => (entries.map Prod.fst).Nodup ∧ AllDistinct entries

def AllDistinct : List (κ × Nested κ α) → Prop
  | [] => True
  | (_, t) :: rest => t.Distinct ∧ AllDistinct rest

end

theorem allDistinct_iff {entries : List (κ × Nested κ α)} :
    AllDistinct entries ↔ ∀ entry ∈ entries, entry.2.Distinct := by
  induction entries with
  | nil => simp [AllDistinct]
  | cons entry rest ih => simp [AllDistinct, ih]

/-! ### The paths of the values -/

mutual

def leaf_paths : Nested κ α → List (List κ)
  | leaf _ => [[]]
  | mapping entries => entry_paths entries

def entry_paths : List (κ × Nested κ α) → List (List κ)
  | [] => []
  | (key, t) :: rest => (t.leaf_paths.map fun path => key :: path) ++ entry_paths rest

end

section Keys
variable [DecidableEq κ]

theorem lookup_eq_none_of_not_mem {key : κ} {entries : List (κ × Nested κ α)} (fresh : key ∉ entries.map Prod.fst) :
    entries.lookup key = none := by
  refine List.lookup_eq_none_iff.mpr fun entry mem => ?_
  simpa using fun same : key = entry.1 => fresh (same ▸ List.mem_map_of_mem mem)

mutual

theorem mem_leaf_paths : ∀ {t : Nested κ α} {path : List κ}, t.Distinct →
    (path ∈ t.leaf_paths ↔ (t.leaf_at path).isSome)
  | leaf _, path, _ => by cases path <;> simp [leaf_paths, leaf_at]
  | mapping entries, [], _ => by
    simp only [leaf_paths, leaf_at, Option.isSome_none, Bool.false_eq_true, iff_false]
    exact nil_not_mem_entry_paths entries
  | mapping entries, key :: path, distinct => by
    simp only [leaf_paths, leaf_at]
    exact mem_entry_paths distinct.1 distinct.2

theorem nil_not_mem_entry_paths : ∀ entries : List (κ × Nested κ α), [] ∉ entry_paths entries
  | [] => by simp [entry_paths]
  | (key, t) :: rest => by
    have later := nil_not_mem_entry_paths rest
    simp [entry_paths, later]

theorem mem_entry_paths : ∀ {entries : List (κ × Nested κ α)} {key : κ} {path : List κ},
    (entries.map Prod.fst).Nodup → AllDistinct entries →
    (key :: path ∈ entry_paths entries ↔ ((entries.lookup key).bind (leaf_at · path)).isSome)
  | [], key, path, _, _ => by simp [entry_paths]
  | (name, t) :: rest, key, path, nodup, distinct => by
    obtain ⟨fresh, nodup⟩ := List.nodup_cons.mp nodup
    have here : path ∈ t.leaf_paths ↔ (t.leaf_at path).isSome := mem_leaf_paths distinct.1
    have later := @mem_entry_paths rest key path nodup distinct.2
    simp only [entry_paths, List.mem_append, List.mem_map, List.cons.injEq]
    by_cases same : key = name
    · subst same
      rw [lookup_eq_none_of_not_mem fresh] at later
      simp only [List.lookup_cons, beq_self_eq_true, Option.bind_some]
      rw [← here, later]
      simp
    · have other : (key == name) = false := by simpa using same
      simp only [List.lookup_cons, other]
      rw [← later]
      constructor
      · rintro (⟨_, -, named, -⟩ | mem)
        · exact absurd named.symm same
        · exact mem
      · exact .inr

end

/-! ### Merging -/

mutual

/-- What a name is mapped to once `value` is merged onto what it was. -/
def merge_value : Option (Nested κ α) → Nested κ α → Nested κ α
  | _, leaf v => leaf v
  | some (mapping base), mapping incoming => mapping (deep_merge base incoming)
  | some (leaf _), mapping incoming => mapping incoming
  | none, mapping incoming => mapping incoming

def deep_merge : List (κ × Nested κ α) → List (κ × Nested κ α) → List (κ × Nested κ α)
  | base, [] => base
  | base, (key, value) :: rest => deep_merge (Dict.assign key (merge_value (base.lookup key) value) base) rest

end

theorem leaf_at_fresh {entries : List (κ × Nested κ α)} {path : List κ} {below : Option (Nested κ α)}
    (bare : ∀ base, below ≠ some (mapping base)) :
    (mapping entries).leaf_at path = ((mapping entries).effect path).onto (below.bind (leaf_at · path)) := by
  rw [leaf_at_eq_onto]
  cases path with
  | nil => rfl
  | cons key path =>
    cases below with
    | none => rfl
    | some t =>
      cases t with
      | leaf v => rfl
      | mapping base => exact absurd rfl (bare base)

mutual

theorem leaf_at_merge_value : ∀ (below : Option (Nested κ α)) {incoming : Nested κ α} (path : List κ),
    incoming.Distinct →
    (merge_value below incoming).leaf_at path = (incoming.effect path).onto (below.bind (leaf_at · path))
  | below, leaf v, path, _ => by cases path <;> simp [merge_value, leaf_at, effect, Effect.onto]
  | none, mapping incoming, path, _ => leaf_at_fresh (by simp)
  | some (leaf v), mapping incoming, path, _ => leaf_at_fresh (by simp)
  | some (mapping base), mapping incoming, [], _ => rfl
  | some (mapping base), mapping incoming, key :: path, distinct => by
    simp only [merge_value, leaf_at, effect, Option.bind_some]
    exact lookup_deep_merge base path distinct.1 distinct.2

theorem lookup_deep_merge : ∀ (base : List (κ × Nested κ α)) {incoming : List (κ × Nested κ α)} {key : κ}
    (path : List κ), (incoming.map Prod.fst).Nodup → AllDistinct incoming →
    ((deep_merge base incoming).lookup key).bind (leaf_at · path) =
      ((mapping incoming).effect (key :: path)).onto ((base.lookup key).bind (leaf_at · path))
  | base, [], key, path, _, _ => by simp [deep_merge, effect, Effect.onto]
  | base, (name, value) :: rest, key, path, nodup, distinct => by
    obtain ⟨fresh, nodup⟩ := List.nodup_cons.mp nodup
    have later := @lookup_deep_merge (Dict.assign name (merge_value (base.lookup name) value) base) rest key path nodup
      distinct.2
    rw [deep_merge, later]
    by_cases same : key = name
    · subst same
      have here := leaf_at_merge_value (base.lookup key) path distinct.1
      rw [effect, lookup_eq_none_of_not_mem fresh, Dict.lookup_assign_self, Option.bind_some, here]
      simp [effect, Effect.onto]
    · have other : (key == name) = false := by simpa using same
      rw [Dict.lookup_assign_ne same]
      simp [effect, List.lookup_cons, other]

end

/-- Merging keeps what the incoming mapping is silent about, and only that. -/
theorem leaf_at_deep_merge (base : List (κ × Nested κ α)) {incoming : List (κ × Nested κ α)} (path : List κ)
    (distinct : (mapping incoming).Distinct) :
    (mapping (deep_merge base incoming)).leaf_at path =
      ((mapping incoming).effect path).onto ((mapping base).leaf_at path) :=
  leaf_at_merge_value (some (mapping base)) path distinct

/-- Layers that set nothing at a path leave its value or take it away. -/
theorem leaf_at_foldl_unset {start : List (κ × Nested κ α)} {layers : List (List (κ × Nested κ α))} {path : List κ}
    (distinct : ∀ layer ∈ layers, (mapping layer).Distinct)
    (unset : ∀ layer ∈ layers, (mapping layer).leaf_at path = none) :
    (mapping (layers.foldl deep_merge start)).leaf_at path = none ∨
      (mapping (layers.foldl deep_merge start)).leaf_at path = (mapping start).leaf_at path := by
  induction layers generalizing start with
  | nil => exact .inr rfl
  | cons layer rest ih =>
    obtain ⟨own, distinct⟩ := List.forall_mem_cons.mp distinct
    obtain ⟨none_here, unset⟩ := List.forall_mem_cons.mp unset
    have merged := leaf_at_deep_merge start path own
    rcases @ih (deep_merge start layer) distinct unset with gone | same
    · exact .inl gone
    · rw [leaf_at_eq_onto] at none_here
      rw [List.foldl_cons, same, merged]
      cases here : (mapping layer).effect path with
      | silent => exact .inr rfl
      | cut => exact .inl rfl
      | set v => simp [here, Effect.onto] at none_here

/-! ### Layers, the lowest first -/

/-- The value of the highest layer that sets one. -/
def highest (layers : List (List (κ × Nested κ α))) (path : List κ) : Option α :=
  layers.reverse.findSome? fun layer => (mapping layer).leaf_at path

def Cuts (layer : List (κ × Nested κ α)) (path : List κ) : Prop := (mapping layer).effect path = .cut

/-- Some layer cuts the path off and none above it sets it again. -/
def Erased (layers : List (List (κ × Nested κ α))) (path : List κ) : Prop :=
  ∃ lower layer upper, layers = lower ++ layer :: upper ∧ Cuts layer path ∧
    ∀ above ∈ upper, (mapping above).leaf_at path = none

theorem highest_append (layers : List (List (κ × Nested κ α))) (layer : List (κ × Nested κ α)) (path : List κ) :
    highest (layers ++ [layer]) path = ((mapping layer).leaf_at path).or (highest layers path) := by
  simp only [highest, List.reverse_append, List.reverse_cons, List.reverse_nil, List.nil_append, List.singleton_append,
    List.findSome?_cons]
  cases (mapping layer).leaf_at path <;> rfl

theorem highest_isSome {layers : List (List (κ × Nested κ α))} {layer : List (κ × Nested κ α)} {path : List κ} {v : α}
    (mem : layer ∈ layers) (set : (mapping layer).leaf_at path = some v) : ∃ w, highest layers path = some w := by
  rw [highest, ← Option.isSome_iff_exists, List.findSome?_isSome_iff]
  exact ⟨layer, List.mem_reverse.mpr mem, by rw [set]; rfl⟩

theorem erased_append (layers : List (List (κ × Nested κ α))) (layer : List (κ × Nested κ α)) (path : List κ) :
    Erased (layers ++ [layer]) path ↔
      Cuts layer path ∨ Erased layers path ∧ (mapping layer).leaf_at path = none := by
  constructor
  · rintro ⟨lower, cutting, upper, split, cuts, silent⟩
    rcases List.eq_nil_or_concat' upper with rfl | ⟨upper, last, rfl⟩
    · obtain ⟨rfl, last⟩ := List.append_inj' split rfl
      cases last
      exact .inl cuts
    · rw [← List.cons_append, ← List.append_assoc] at split
      obtain ⟨rfl, last⟩ := List.append_inj' split rfl
      cases last
      exact .inr ⟨⟨lower, cutting, upper, rfl, cuts, fun above mem => silent above (List.mem_append_left _ mem)⟩,
        silent layer (List.mem_append_right _ (List.mem_singleton_self layer))⟩
  · rintro (cuts | ⟨⟨lower, cutting, upper, rfl, cuts, silent⟩, last⟩)
    · exact ⟨layers, layer, [], rfl, cuts, by simp⟩
    · refine ⟨lower, cutting, upper ++ [layer], by simp, cuts, fun above mem => ?_⟩
      rcases List.mem_append.mp mem with mem | mem
      · exact silent above mem
      · rw [List.mem_singleton.mp mem]
        exact last

/-- One more layer on top. -/
theorem erased_or_highest_step {layers : List (List (κ × Nested κ α))} {merged layer : List (κ × Nested κ α)}
    {path : List κ} (distinct : (mapping layer).Distinct)
    (below : Erased layers path ∧ (mapping merged).leaf_at path = none ∨
      ¬Erased layers path ∧ (mapping merged).leaf_at path = highest layers path) :
    Erased (layers ++ [layer]) path ∧ (mapping (deep_merge merged layer)).leaf_at path = none ∨
      ¬Erased (layers ++ [layer]) path ∧
        (mapping (deep_merge merged layer)).leaf_at path = highest (layers ++ [layer]) path := by
  have own := (mapping layer).leaf_at_eq_onto path
  rw [erased_append, highest_append, leaf_at_deep_merge merged path distinct, own, Cuts]
  cases (mapping layer).effect path with
  | silent => simpa [Effect.onto] using below
  | cut => simp [Effect.onto]
  | set v => simp [Effect.onto]

/-- Where no layer cuts a path off for good, the merged layers hold the value of the highest one that sets it; else
    nothing. -/
theorem erased_or_highest {first : List (κ × Nested κ α)} {layers : List (List (κ × Nested κ α))} {path : List κ}
    (distinct : ∀ layer ∈ layers, (mapping layer).Distinct) :
    Erased (first :: layers) path ∧ (mapping (layers.foldl deep_merge first)).leaf_at path = none ∨
      ¬Erased (first :: layers) path ∧
        (mapping (layers.foldl deep_merge first)).leaf_at path = highest (first :: layers) path := by
  induction layers using List.reverseRecOn with
  | nil =>
    have own := (mapping first).leaf_at_eq_onto path
    have empty : ¬Erased ([] : List (List (κ × Nested κ α))) path := by
      rintro ⟨lower, layer, upper, split, -⟩
      simp at split
    rw [← List.nil_append [first], erased_append, highest_append, List.foldl_nil, own, Cuts]
    cases (mapping first).effect path <;> simp [Effect.onto, empty, highest]
  | append_singleton layers layer ih =>
    rw [List.foldl_append, ← List.cons_append]
    exact erased_or_highest_step (distinct layer (by simp)) (ih fun layer mem => distinct layer (by simp [mem]))

end Keys

end Nested
