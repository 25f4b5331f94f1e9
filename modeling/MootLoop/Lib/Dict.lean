import Mathlib.Algebra.BigOperators.Group.List.Basic
import Mathlib.Data.List.Nodup
import Mathlib.Algebra.Order.BigOperators.Group.List

/-! Insertion-ordered dictionaries: assigning an existing key keeps its place, a new key goes last,
    so the iteration order is the order of first assignment. -/

/-- An insertion-ordered dictionary, with no key twice. -/
structure Dict (κ α : Type) where
  entries : List (κ × α)
  nodup : (entries.map Prod.fst).Nodup

namespace Dict

variable {κ α : Type}

instance : Inhabited (Dict κ α) := ⟨⟨[], List.nodup_nil⟩⟩
instance : EmptyCollection (Dict κ α) := ⟨⟨[], List.nodup_nil⟩⟩

def keys (d : Dict κ α) : List κ := d.entries.map Prod.fst
def values (d : Dict κ α) : List α := d.entries.map Prod.snd

theorem ext {d d' : Dict κ α} (h : d.entries = d'.entries) : d = d' := by
  cases d; cases d'; cases h; rfl

@[simp] theorem entries_empty : (∅ : Dict κ α).entries = [] := rfl
@[simp] theorem values_empty : (∅ : Dict κ α).values = [] := rfl
@[simp] theorem keys_empty : (∅ : Dict κ α).keys = [] := rfl

theorem lookup_entry [BEq κ] (k : κ) (e : κ × α) (l : List (κ × α)) :
    (e :: l).lookup k = match k == e.1 with
      | true => some e.2
      | false => l.lookup k := rfl

variable [DecidableEq κ]

instance [DecidableEq α] : DecidableEq (Dict κ α) := fun d d' =>
  decidable_of_iff (d.entries = d'.entries) ⟨ext, fun h => h ▸ rfl⟩

/-- Assigns in place, or at the end. -/
def assign (k : κ) (a : α) : List (κ × α) → List (κ × α)
  | [] => [(k, a)]
  | e :: rest => if e.1 = k then (k, a) :: rest else e :: assign k a rest

theorem keys_assign (k : κ) (a : α) (l : List (κ × α)) :
    (assign k a l).map Prod.fst = if k ∈ l.map Prod.fst then l.map Prod.fst else l.map Prod.fst ++ [k] := by
  induction l with
  | nil => simp [assign]
  | cons e rest ih =>
    by_cases same : e.1 = k
    · simp [assign, same]
    · have other : k ≠ e.1 := fun h => same h.symm
      simp only [assign, same, if_false, List.map_cons, ih, List.mem_cons, other, false_or]
      split <;> simp

/-- The value at a key. -/
def get? (d : Dict κ α) (k : κ) : Option α := d.entries.lookup k

def contains (d : Dict κ α) (k : κ) : Bool := (d.get? k).isSome

/-- `d[k] = a`. -/
def insert (d : Dict κ α) (k : κ) (a : α) : Dict κ α where
  entries := assign k a d.entries
  nodup := by
    rw [keys_assign]
    split
    · exact d.nodup
    · rename_i fresh
      exact List.nodup_append.mpr ⟨d.nodup, by simp, fun x hx y hy => by
        rintro rfl; exact fresh (List.mem_singleton.mp hy ▸ hx)⟩

/-- `d.pop(k, None)`. -/
def erase (d : Dict κ α) (k : κ) : Dict κ α where
  entries := d.entries.filter (fun e => e.1 ≠ k)
  nodup := (d.nodup.sublist (List.filter_sublist.map Prod.fst))

/-- The entries whose key passes. -/
def keep (d : Dict κ α) (f : κ → Bool) : Dict κ α where
  entries := d.entries.filter (fun e => f e.1)
  nodup := (d.nodup.sublist (List.filter_sublist.map Prod.fst))

/-- The entries whose key has a new one. -/
def rekey {ν : Type} (d : Dict κ α) (f : κ → Option ν) (inj : ∀ a b, ∀ k ∈ f a, k ∈ f b → a = b) : Dict ν α where
  entries := d.entries.filterMap (fun e => (f e.1).map (·, e.2))
  nodup := by
    have keys : (d.entries.filterMap (fun e => (f e.1).map (·, e.2))).map Prod.fst =
        (d.entries.map Prod.fst).filterMap f := by
      rw [List.map_filterMap, List.filterMap_map]
      exact List.filterMap_congr fun e _ => by cases h : f e.1 <;> simp [h]
    rw [keys]
    exact List.Nodup.filterMap inj d.nodup

/-- `d.setdefault(k, a)`. -/
def setDefault (d : Dict κ α) (k : κ) (a : α) : Dict κ α := if d.contains k then d else d.insert k a

/-! ### Lookup -/

theorem lookup_assign_self (k : κ) (a : α) (l : List (κ × α)) : (assign k a l).lookup k = some a := by
  induction l with
  | nil => simp [assign]
  | cons e rest ih =>
    by_cases same : e.1 = k
    · simp [assign, same]
    · have other : (k == e.1) = false := by simpa using fun h => same h.symm
      simp [assign, same, lookup_entry, other, ih]

theorem lookup_assign_ne {k k' : κ} (ne : k' ≠ k) (a : α) (l : List (κ × α)) :
    (assign k a l).lookup k' = l.lookup k' := by
  induction l with
  | nil =>
    have other : (k' == k) = false := by simpa using ne
    simp [assign, lookup_entry, other]
  | cons e rest ih =>
    by_cases same : e.1 = k
    · have other : (k' == k) = false := by simpa using ne
      simp [assign, same, lookup_entry, other]
    · simp only [assign, same, if_false, lookup_entry, ih]

theorem lookup_filter_ne {k k' : κ} (l : List (κ × α)) :
    (l.filter (fun e => e.1 ≠ k)).lookup k' = if k' = k then none else l.lookup k' := by
  induction l with
  | nil => simp
  | cons e rest ih =>
    by_cases same : e.1 = k
    · rw [List.filter_cons_of_neg (by simp [same]), ih]
      split
      · rfl
      · rename_i ne
        have other : (k' == e.1) = false := by simpa [same] using ne
        simp [lookup_entry, other]
    · rw [List.filter_cons_of_pos (by simp [same])]
      by_cases here : k' = e.1
      · have ne : k' ≠ k := fun h => same (here ▸ h)
        subst here
        simp [lookup_entry, same]
      · have other : (k' == e.1) = false := by simpa using here
        simp only [lookup_entry, other, ih]

@[simp] theorem get?_empty (k : κ) : (∅ : Dict κ α).get? k = none := rfl
@[simp] theorem get?_insert_self (d : Dict κ α) (k : κ) (a : α) : (d.insert k a).get? k = some a :=
  lookup_assign_self k a d.entries
theorem get?_insert_ne (d : Dict κ α) {k k' : κ} (ne : k' ≠ k) (a : α) : (d.insert k a).get? k' = d.get? k' :=
  lookup_assign_ne ne a d.entries
theorem get?_insert (d : Dict κ α) (k k' : κ) (a : α) :
    (d.insert k a).get? k' = if k' = k then some a else d.get? k' := by
  split
  · next h => subst h; exact get?_insert_self d _ a
  · next h => exact get?_insert_ne d h a
theorem get?_erase (d : Dict κ α) (k k' : κ) : (d.erase k).get? k' = if k' = k then none else d.get? k' :=
  lookup_filter_ne d.entries
@[simp] theorem get?_erase_self (d : Dict κ α) (k : κ) : (d.erase k).get? k = none := by simp [get?_erase]

theorem lookup_eq_some [BEq κ] [LawfulBEq κ] {l : List (κ × α)} (nodup : (l.map Prod.fst).Nodup) {k : κ} {a : α} :
    l.lookup k = some a ↔ (k, a) ∈ l := by
  induction l with
  | nil => simp
  | cons e rest ih =>
    obtain ⟨k₀, a₀⟩ := e
    simp only [List.map_cons, List.nodup_cons] at nodup
    by_cases here : k = k₀
    · subst here
      simp only [lookup_entry, BEq.rfl, Option.some.injEq, List.mem_cons, Prod.mk.injEq, true_and]
      refine ⟨fun h => Or.inl h.symm, ?_⟩
      rintro (rfl | h)
      · rfl
      · exact absurd (List.mem_map.mpr ⟨(k, a), h, rfl⟩) nodup.1
    · have other : (k == k₀) = false := by simpa using here
      simp [lookup_entry, other, here, ih nodup.2]

theorem get?_eq_some {d : Dict κ α} {k : κ} {a : α} : d.get? k = some a ↔ (k, a) ∈ d.entries :=
  lookup_eq_some d.nodup

theorem get?_keep (d : Dict κ α) (f : κ → Bool) (k : κ) :
    (d.keep f).get? k = if f k then d.get? k else none := by
  refine Option.ext fun a => ?_
  rw [get?_eq_some, keep, List.mem_filter]
  split
  · next pass => rw [get?_eq_some]; exact ⟨fun h => h.1, fun h => ⟨h, pass⟩⟩
  · next fail => exact ⟨fun h => absurd h.2 fail, fun h => nomatch h⟩

theorem get?_rekey {ν : Type} [DecidableEq ν] (d : Dict κ α) (f : κ → Option ν) (inj) {k : κ} {k' : ν}
    (new : f k = some k') : (d.rekey f inj).get? k' = d.get? k := by
  refine Option.ext fun a => ?_
  rw [get?_eq_some, get?_eq_some, rekey, List.mem_filterMap]
  constructor
  · rintro ⟨⟨k₀, a₀⟩, mem, same⟩
    obtain ⟨k₁, new₀, same⟩ := Option.map_eq_some_iff.mp same
    cases same
    rw [inj k k₀ k' (Option.mem_def.mpr new) (Option.mem_def.mpr new₀)]
    exact mem
  · exact fun mem => ⟨(k, a), mem, by simp [new]⟩

theorem contains_iff {d : Dict κ α} {k : κ} : d.contains k = true ↔ ∃ a, d.get? k = some a := by
  simp [contains, Option.isSome_iff_exists]

@[simp] theorem contains_insert_self (d : Dict κ α) (k : κ) (a : α) : (d.insert k a).contains k = true := by
  simp [contains]

theorem contains_insert (d : Dict κ α) (k k' : κ) (a : α) :
    (d.insert k a).contains k' = (decide (k' = k) || d.contains k') := by
  simp only [contains, get?_insert]
  split <;> simp_all

theorem mem_values {d : Dict κ α} {a : α} : a ∈ d.values ↔ ∃ k, d.get? k = some a := by
  simp only [values, List.mem_map, Prod.exists, get?_eq_some]
  exact ⟨fun ⟨k, b, h, e⟩ => ⟨k, e ▸ h⟩, fun ⟨k, h⟩ => ⟨k, a, h, rfl⟩⟩

/-- Erasing forgets what was assigned there. -/
theorem erase_insert (d : Dict κ α) (k : κ) (a : α) : (d.insert k a).erase k = d.erase k := by
  refine ext ?_
  obtain ⟨l, nodup⟩ := d
  simp only [erase, insert]
  clear nodup
  induction l with
  | nil => simp [assign]
  | cons e rest ih =>
    by_cases same : e.1 = k
    · simp [assign, same]
    · simp only [assign, same, if_false, ne_eq, decide_not, List.filter_cons, decide_false,
        Bool.not_false, if_true]
      simpa using ih

theorem mem_keys {d : Dict κ α} {k : κ} : k ∈ d.keys ↔ ∃ a, d.get? k = some a := by
  simp only [keys, List.mem_map, Prod.exists, get?_eq_some, exists_and_right, exists_eq_right]

theorem get?_of_not_mem {d : Dict κ α} {k : κ} (out : k ∉ d.keys) : d.get? k = none := by
  cases held : d.get? k with
  | none => rfl
  | some a => exact absurd (mem_keys.mpr ⟨a, held⟩) out

/-- A new key goes last. -/
theorem entries_insert_fresh {d : Dict κ α} {k : κ} {a : α} (fresh : d.contains k = false) :
    (d.insert k a).entries = d.entries ++ [(k, a)] := by
  have out : k ∉ d.entries.map Prod.fst := by
    intro mem
    obtain ⟨a', held⟩ := mem_keys.mp mem
    simp [contains, held] at fresh
  change assign k a d.entries = _
  generalize d.entries = l at out
  induction l with
  | nil => rfl
  | cons e rest ih =>
    obtain ⟨ne, out⟩ := not_or.mp (by simpa only [List.map_cons, List.mem_cons] using out)
    rw [assign, if_neg (Ne.symm ne), ih out, List.cons_append]

theorem keys_insert (d : Dict κ α) (k : κ) (a : α) :
    (d.insert k a).keys = if k ∈ d.keys then d.keys else d.keys ++ [k] := keys_assign k a d.entries

/-- Dictionaries with the same keys in one order, and values that look the same at each key, look the same. -/
theorem map_entries {γ : Type} {d d' : Dict κ α} {g : α → γ} (keys : d.keys = d'.keys)
    (values : ∀ k, (d.get? k).map g = (d'.get? k).map g) :
    d.entries.map (fun e => (e.1, g e.2)) = d'.entries.map fun e => (e.1, g e.2) := by
  have written (d : Dict κ α) : d.entries.map (fun e => (e.1, some (g e.2))) =
      d.keys.map fun k => (k, (d.get? k).map g) := by
    rw [Dict.keys, List.map_map]
    refine List.map_congr_left fun e mem => ?_
    rw [Function.comp_apply, (get?_eq_some (k := e.1) (a := e.2)).mpr mem]
    rfl
  have same : d.entries.map (fun e => (e.1, some (g e.2))) = d'.entries.map fun e => (e.1, some (g e.2)) := by
    rw [written, written, keys]
    exact List.map_congr_left fun k _ => by rw [values k]
  have injective : Function.Injective fun e : κ × γ => (e.1, some e.2) := by
    rintro ⟨k, c⟩ ⟨k', c'⟩ h
    simpa using h
  refine List.map_injective_iff.mpr injective ?_
  rw [List.map_map, List.map_map]
  exact same

/-! ### Updates in turn -/

section
variable {β : Type} {key : β → κ} {value : β → Option α → α}

/-- Assigns each key in turn a value made from the one it has. -/
def update (key : β → κ) (value : β → Option α → α) (d : Dict κ α) (bs : List β) : Dict κ α :=
  bs.foldl (fun d b => d.insert (key b) (value b (d.get? (key b)))) d

/-- Only the updates of a key make its value. -/
theorem get?_update (d : Dict κ α) (bs : List β) (k : κ) : (update key value d bs).get? k =
    (bs.filter (key · = k)).foldl (fun prior b => some (value b prior)) (d.get? k) := by
  induction bs generalizing d with
  | nil => rfl
  | cons b bs ih =>
    refine (ih _).trans ?_
    by_cases here : key b = k
    · rw [List.filter_cons_of_pos (by simpa using here), ← here, get?_insert_self]
      rfl
    · rw [List.filter_cons_of_neg (by simpa using here), get?_insert_ne _ (Ne.symm here)]

theorem keys_update {d : Dict κ α} {bs : List β} (held : ∀ b ∈ bs, key b ∈ d.keys) :
    (update key value d bs).keys = d.keys := by
  induction bs generalizing d with
  | nil => rfl
  | cons b bs ih =>
    have same : (d.insert (key b) (value b (d.get? (key b)))).keys = d.keys := by
      rw [keys_insert, if_pos (held b List.mem_cons_self)]
    exact (ih fun b mem => same ▸ held b (List.mem_cons_of_mem _ mem)).trans same

theorem mem_keys_update {d : Dict κ α} {bs : List β} {b : β} (mem : b ∈ bs) : key b ∈ (update key value d bs).keys := by
  have some_value : ∀ (rest : List β) (prior : Option α), rest ≠ [] →
      ∃ a, rest.foldl (fun prior b => some (value b prior)) prior = some a := by
    intro rest
    induction rest with
    | nil => exact fun _ empty => absurd rfl empty
    | cons c rest ih =>
      intro prior _
      rcases rest with _ | ⟨c', rest⟩
      · exact ⟨_, rfl⟩
      · exact ih _ (List.cons_ne_nil _ _)
  rw [mem_keys, get?_update]
  exact some_value _ _ (List.ne_nil_of_mem (List.mem_filter.mpr ⟨mem, by simp⟩))

end

/-! ### Sums of values -/

section
variable [AddCommMonoid α]

/-- The sum of the values at the other keys. -/
def sumOther (d : Dict κ α) (k : κ) : α := (d.erase k).values.sum

theorem sum_erase (l : List (κ × α)) (nodup : (l.map Prod.fst).Nodup) (k : κ) :
    (l.map Prod.snd).sum = (l.lookup k).getD 0 + ((l.filter (fun e => e.1 ≠ k)).map Prod.snd).sum := by
  induction l with
  | nil => simp
  | cons e rest ih =>
    obtain ⟨k₀, a₀⟩ := e
    simp only [List.map_cons, List.nodup_cons] at nodup
    by_cases here : k₀ = k
    · subst here
      have same : rest.filter (fun e => e.1 ≠ k₀) = rest := by
        refine List.filter_eq_self.mpr fun e he => ?_
        simpa using fun h : e.1 = k₀ => nodup.1 (List.mem_map.mpr ⟨e, he, h⟩)
      rw [List.filter_cons_of_neg (by simp), same]
      simp [lookup_entry]
    · have other : (k == k₀) = false := by simpa using fun h => here h.symm
      rw [List.filter_cons_of_pos (by simpa using here)]
      simp only [List.map_cons, List.sum_cons, lookup_entry, other, ih nodup.2]
      exact add_left_comm _ _ _

theorem sum_values (d : Dict κ α) (k : κ) : d.values.sum = (d.get? k).getD 0 + d.sumOther k :=
  sum_erase d.entries d.nodup k

/-- Assigning a key leaves the sum over the other keys. -/
@[simp] theorem sumOther_insert_self (d : Dict κ α) (k : κ) (a : α) : (d.insert k a).sumOther k = d.sumOther k := by
  simp [sumOther, erase_insert]

theorem sum_insert (d : Dict κ α) (k : κ) (a : α) : (d.insert k a).values.sum = a + d.sumOther k := by
  rw [sum_values _ k, get?_insert_self, sumOther_insert_self]
  rfl

@[simp] theorem sum_erase_self (d : Dict κ α) (k : κ) : (d.erase k).values.sum = d.sumOther k := rfl

end

end Dict
