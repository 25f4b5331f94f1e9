import Mathlib.Data.List.Basic

/-! A disk that a power failure can set back. A change is made to what the processes see at once; until a part of
    the disk is synced, a failure may keep each change to it or lose it. The disk holds every image a failure could
    leave. -/

/-- What the processes see, and the images a power failure could leave. What they see is one of these. -/
structure Disk (α : Type) where
  live : α
  exposed : List α
  mem : live ∈ exposed

namespace Disk
variable {α : Type}

/-- A disk with nothing left to sync. -/
def settled (a : α) : Disk α := ⟨a, [a], List.mem_singleton_self a⟩

/-- A change: a failure keeps it or loses it. -/
def change (f : α → α) (d : Disk α) : Disk α :=
  ⟨f d.live, d.exposed ++ d.exposed.map f, List.mem_append_right _ (List.mem_map_of_mem d.mem)⟩

/-- A sync of a part of the disk: every image left has in it what the processes see there. -/
def sync {β : Type} [DecidableEq β] (part : α → β) (d : Disk α) : Disk α :=
  ⟨d.live, d.exposed.filter fun img => part img = part d.live, List.mem_filter.mpr ⟨d.mem, by simp⟩⟩

/-- Every image a failure could leave has the property. -/
def All (p : α → Prop) (d : Disk α) : Prop := ∀ img ∈ d.exposed, p img

variable {β : Type} [DecidableEq β] {p q : α → Prop} {f : α → α} {part : α → β} {d : Disk α}

theorem All.live (h : d.All p) : p d.live := h _ d.mem

theorem All.mono (h : d.All p) (le : ∀ img, p img → q img) : d.All q := fun img mem => le img (h img mem)

theorem All.and (h : d.All p) (h' : d.All q) : d.All fun img => p img ∧ q img := fun img mem => ⟨h img mem, h' img mem⟩

@[simp] theorem live_settled (a : α) : (settled a).live = a := rfl
@[simp] theorem live_change (f : α → α) (d : Disk α) : (d.change f).live = f d.live := rfl
@[simp] theorem live_sync (part : α → β) (d : Disk α) : (d.sync part).live = d.live := rfl

@[simp] theorem all_settled {a : α} : (settled a).All p ↔ p a := by simp [All, settled]

@[simp] theorem all_change : (d.change f).All p ↔ d.All p ∧ d.All fun img => p (f img) := by
  simp only [All, change, List.mem_append, List.mem_map]
  constructor
  · intro h
    exact ⟨fun img mem => h img (.inl mem), fun img mem => h (f img) (.inr ⟨img, mem, rfl⟩)⟩
  · rintro ⟨old, new⟩ img (mem | ⟨before, mem, rfl⟩)
    · exact old img mem
    · exact new before mem

/-- A change that keeps the property in each image keeps it on the disk. -/
theorem All.change (h : d.All p) (keeps : ∀ img, p img → p (f img)) : (d.change f).All p :=
  all_change.mpr ⟨h, h.mono keeps⟩

theorem All.sync (h : d.All p) : (d.sync part).All p := fun img mem => h img (List.mem_filter.mp mem).1

/-- After a sync, no failure changes the part. -/
theorem all_synced : (d.sync part).All fun img => part img = part d.live := by
  intro img mem
  simpa using (List.mem_filter.mp mem).2

end Disk
