import MootLoop.Fleet

/-! Lease exclusion over every run of the fleet. A lease that a worker was granted and that has not expired is in
    the queue file under the worker's name (`Sound.held`), and a claim takes only items whose lease has expired.
    The one operation that breaks this is the release of a stale worker's items: staleness is read off the
    heartbeat file, which a worker writes at the start of a tick only, however long the tick's drain is. -/

namespace MootLoop
open Transition

/-! ### Rewriting the first match -/

theorem rewrite_first_eq_some {α : Type} {p : α → Bool} {f : α → α} {l l' : List α}
    (h : rewrite_first p f l = some l') : ∃ front a back, l = front ++ a :: back ∧ p a ∧ l' = front ++ f a :: back := by
  induction l generalizing l' with
  | nil => cases h
  | cons b rest ih =>
    unfold rewrite_first at h
    by_cases hb : p b
    · rw [if_pos hb] at h
      exact ⟨[], b, rest, rfl, hb, (Option.some.inj h).symm⟩
    · rw [if_neg hb] at h
      obtain ⟨rest', hrest, rfl⟩ := Option.map_eq_some_iff.mp h
      obtain ⟨front, a, back, rfl, ha, rfl⟩ := ih hrest
      exact ⟨b :: front, a, back, rfl, ha, rfl⟩

section Rewrite
variable {α β : Type} {p : α → Bool} {f : α → α} {l l' : List α}

theorem map_rewrite_first {g : α → β} (keeps : ∀ a, g (f a) = g a) (h : rewrite_first p f l = some l') :
    l'.map g = l.map g := by
  obtain ⟨front, a, back, rfl, -, rfl⟩ := rewrite_first_eq_some h
  simp [keeps]

theorem mem_rewrite_first (h : rewrite_first p f l = some l') {b : α} (hb : b ∈ l') :
    b ∈ l ∨ ∃ a ∈ l, p a ∧ b = f a := by
  obtain ⟨front, a, back, rfl, ha, rfl⟩ := rewrite_first_eq_some h
  rcases List.mem_append.mp hb with hb | hb
  · exact .inl (List.mem_append_left _ hb)
  · rcases List.mem_cons.mp hb with rfl | hb
    · exact .inr ⟨a, by simp, ha, rfl⟩
    · exact .inl (by simp [hb])

theorem mem_rewrite_first_of_not (h : rewrite_first p f l = some l') {b : α} (hb : b ∈ l) (hp : ¬ p b) : b ∈ l' := by
  obtain ⟨front, a, back, rfl, ha, rfl⟩ := rewrite_first_eq_some h
  rcases List.mem_append.mp hb with hb | hb
  · exact List.mem_append_left _ hb
  · rcases List.mem_cons.mp hb with rfl | hb
    · exact absurd ha hp
    · simp [hb]

theorem exists_rewrite_first (h : rewrite_first p f l = some l') : ∃ a ∈ l, p a ∧ f a ∈ l' := by
  obtain ⟨front, a, back, rfl, ha, rfl⟩ := rewrite_first_eq_some h
  exact ⟨a, by simp, ha, by simp⟩

end Rewrite

/-! ### Leases in the queue file -/

/-- The queue file has the item leased to the worker until then. -/
def Queue.Holds (items : List QueueItem) (worker_id : WorkerId) (item_id : String) (lease : Time) : Prop :=
  ∃ item ∈ items, item.item_id = item_id ∧ item.claimed_by = some worker_id ∧ item.visible_at = lease

namespace Queue
variable {items items' : List QueueItem} {w v : WorkerId} {i j : String} {lease now timeout : Time}

theorem owned_iff {item : QueueItem} : owned i w item = true ↔ item.item_id = i ∧ item.claimed_by = some w := by
  simp [owned]

/-- Rewriting an item the worker owns leaves every other lease as it was. -/
theorem Holds.rewrite {f : QueueItem → QueueItem} (holds : Holds items v j lease) (other : ¬ (v = w ∧ j = i))
    (h : rewrite_first (owned i w) f items = some items') : Holds items' v j lease := by
  obtain ⟨item, hitem, hid, howner, hlease⟩ := holds
  refine ⟨item, mem_rewrite_first_of_not h hitem fun own => other ?_, hid, howner, hlease⟩
  obtain ⟨hi, hw⟩ := owned_iff.mp own
  exact ⟨Option.some.inj (howner.symm.trans hw), hid.symm.trans hi⟩

theorem holds_heartbeat (h : heartbeat items i w now timeout = some items') : Holds items' w i (now + timeout) := by
  obtain ⟨item, -, own, hitem⟩ := exists_rewrite_first h
  exact ⟨_, hitem, (owned_iff.mp own).1, (owned_iff.mp own).2, rfl⟩

theorem Holds.complete (holds : Holds items v j lease) (other : ¬ (v = w ∧ j = i))
    (h : complete items i w = some items') : Holds items' v j lease := by
  obtain ⟨item, hitem, hid, howner, hlease⟩ := holds
  have not_owned : owned i w item = false := by
    by_contra own
    obtain ⟨hi, hw⟩ := owned_iff.mp (by simpa using own)
    exact other ⟨Option.some.inj (howner.symm.trans hw), hid.symm.trans hi⟩
  simp only [Queue.complete] at h
  split at h
  · cases h
  · cases h
    exact ⟨item, List.mem_filter.mpr ⟨hitem, by simp [not_owned]⟩, hid, howner, hlease⟩

theorem Holds.release_all (holds : Holds items v j lease) (other : v ≠ w) :
    Holds (release_all_claimed_by items w).1 v j lease := by
  obtain ⟨item, hitem, hid, howner, hlease⟩ := holds
  have spared : item.claimed_by ≠ some w := fun h => other (Option.some.inj (howner.symm.trans h))
  exact ⟨item, List.mem_map.mpr ⟨item, hitem, if_neg spared⟩, hid, howner, hlease⟩

/-- What a claim takes: a visible item of the queue, rewritten in place. -/
theorem claim_eq_some {matter_id : Option MatterId} {item : QueueItem}
    (h : claim items w now timeout matter_id = some (item, items')) :
    ∃ chosen ∈ items, chosen.visible_at ≤ now ∧ item = leased w now timeout chosen ∧
      rewrite_first (· == chosen) (leased w now timeout) items = some items' := by
  unfold claim at h
  obtain ⟨chosen, hchosen, h⟩ := Option.bind_eq_some_iff.mp h
  obtain ⟨rewritten, hrewritten, h⟩ := Option.bind_eq_some_iff.mp h
  cases h
  obtain ⟨hmem, hvisible⟩ := List.mem_filter.mp (List.argmin_mem hchosen)
  have seen : chosen.visible_at ≤ now := by
    simp only [visible, Bool.and_eq_true, decide_eq_true_eq] at hvisible
    exact hvisible.2
  exact ⟨chosen, hmem, seen, rfl, hrewritten⟩

theorem holds_claim {matter_id : Option MatterId} {item : QueueItem}
    (h : claim items w now timeout matter_id = some (item, items')) : Holds items' w item.item_id item.visible_at := by
  obtain ⟨chosen, -, -, rfl, hrewrite⟩ := claim_eq_some h
  obtain ⟨a, -, same, ha⟩ := exists_rewrite_first hrewrite
  obtain rfl : a = chosen := by simpa using same
  exact ⟨_, ha, rfl, rfl, rfl⟩

/-- A claim leaves every lease that has not expired. -/
theorem Holds.claim {matter_id : Option MatterId} {item : QueueItem} (holds : Holds items v j lease)
    (unexpired : now < lease) (h : Queue.claim items w now timeout matter_id = some (item, items')) :
    Holds items' v j lease := by
  obtain ⟨chosen, -, seen, rfl, hrewrite⟩ := claim_eq_some h
  obtain ⟨held, hheld, hid, howner, hlease⟩ := holds
  refine ⟨held, mem_rewrite_first_of_not hrewrite hheld fun same => ?_, hid, howner, hlease⟩
  obtain rfl : held = chosen := by simpa using same
  exact absurd (hlease ▸ seen) (Nat.not_le.mpr unexpired)

/-- A claim takes no item that has an unexpired lease. -/
theorem Holds.not_claimed {matter_id : Option MatterId} {item : QueueItem}
    (nodup : (items.map (·.item_id)).Nodup) (holds : Holds items v item.item_id lease)
    (h : Queue.claim items w now timeout matter_id = some (item, items')) : lease ≤ now := by
  obtain ⟨chosen, hchosen, seen, rfl, -⟩ := claim_eq_some h
  obtain ⟨held, hheld, hid, -, hlease⟩ := holds
  obtain rfl : held = chosen := List.inj_on_of_nodup_map nodup hheld hchosen hid
  exact hlease ▸ seen

theorem ensure_enqueued_ok {item : QueueItem} (h : ensure_enqueued items item = .ok items') :
    items' = items ∨ items' = items ++ [item] ∧ item.item_id ∉ items.map (·.item_id) := by
  unfold ensure_enqueued at h
  split at h
  · rename_i fresh
    cases h
    refine .inr ⟨rfl, fun hmem => ?_⟩
    obtain ⟨existing, hexisting, hid⟩ := List.mem_map.mp hmem
    have found : existing ∈ items.filter (·.item_id == item.item_id) := List.mem_filter.mpr ⟨hexisting, by simp [hid]⟩
    rw [fresh] at found
    cases found
  · split at h
    · cases h
      exact .inl rfl
    · cases h
  · cases h

end Queue

/-! ### The parts of a state -/

namespace Fleet
variable {s s' : Fleet} {w v : WorkerId} {i j : String}

@[simp] theorem setWorker_self (worker : FleetWorker) : (s.setWorker w worker).workers w = worker :=
  Function.update_self ..

@[simp] theorem setWorker_ne (worker : FleetWorker) (other : v ≠ w) :
    (s.setWorker w worker).workers v = s.workers v :=
  Function.update_of_ne other ..

@[simp] theorem setPhase_leases (phase : FleetPhase) :
    ((s.setPhase w phase).workers v).leases = (s.workers v).leases := by
  by_cases same : v = w
  · subst same; simp [setPhase]
  · simp [setPhase, same]

@[simp] theorem setLease_phase (lease : Option Time) :
    ((s.setLease w i lease).workers v).phase = (s.workers v).phase := by
  by_cases same : v = w
  · subst same; simp [setLease]
  · simp [setLease, same]

@[simp] theorem markReclaimed_leases : ((s.markReclaimed w).workers v).leases = (s.workers v).leases := by
  by_cases same : v = w
  · subst same; simp [markReclaimed]
  · simp [markReclaimed, same]

@[simp] theorem markReclaimed_phase : ((s.markReclaimed w).workers v).phase = (s.workers v).phase := by
  by_cases same : v = w
  · subst same; simp [markReclaimed]
  · simp [markReclaimed, same]

theorem setPhase_phase (phase : FleetPhase) :
    ((s.setPhase w phase).workers v).phase = if v = w then phase else (s.workers v).phase := by
  by_cases same : v = w
  · subst same; simp [setPhase]
  · simp [setPhase, same]

theorem setLease_leases (lease : Option Time) :
    ((s.setLease w i lease).workers v).leases j = if v = w ∧ j = i then lease else (s.workers v).leases j := by
  by_cases same : v = w
  · subst same
    by_cases at_i : j = i
    · subst at_i; simp [setLease]
    · simp [setLease, at_i]
  · simp [setLease, same]

@[simp] theorem setPhase_queue (phase : FleetPhase) : (s.setPhase w phase).queue = s.queue := rfl
@[simp] theorem setPhase_clock (phase : FleetPhase) : (s.setPhase w phase).clock = s.clock := rfl
@[simp] theorem setLease_queue (lease : Option Time) : (s.setLease w i lease).queue = s.queue := rfl
@[simp] theorem setLease_clock (lease : Option Time) : (s.setLease w i lease).clock = s.clock := rfl
@[simp] theorem setQueue_queue (queue : List QueueItem) : (s.setQueue queue).queue = queue := rfl
@[simp] theorem setQueue_clock (queue : List QueueItem) : (s.setQueue queue).clock = s.clock := rfl
@[simp] theorem setQueue_workers (queue : List QueueItem) : (s.setQueue queue).workers = s.workers := rfl
@[simp] theorem setHeartbeat_queue (ts : Option Time) : (s.setHeartbeat w ts).queue = s.queue := rfl
@[simp] theorem setHeartbeat_clock (ts : Option Time) : (s.setHeartbeat w ts).clock = s.clock := rfl
@[simp] theorem setHeartbeat_workers (ts : Option Time) : (s.setHeartbeat w ts).workers = s.workers := rfl
@[simp] theorem setWorker_queue (worker : FleetWorker) : (s.setWorker w worker).queue = s.queue := rfl
@[simp] theorem setWorker_clock (worker : FleetWorker) : (s.setWorker w worker).clock = s.clock := rfl

end Fleet

/-! ### What an operation keeps of the items -/

/-- What an item keeps for as long as it is queued. -/
def QueueItem.ident (item : QueueItem) : String × ItemKind × MatterId × RunId :=
  (item.item_id, item.kind, item.matter_id, item.run_id)

/-- A run's item has the run's id for its own. -/
def QueueItem.Named (item : QueueItem) : Prop :=
  item.kind = .run_turn → item.item_id = (Work.run_turn item.matter_id item.run_id).item_id

theorem QueueItem.Named.of_ident {a b : QueueItem} (named : a.Named) (same : b.ident = a.ident) : b.Named := by
  simp only [ident, Prod.mk.injEq] at same
  obtain ⟨hid, hkind, hmatter, hrun⟩ := same
  intro kind
  rw [hid, hmatter, hrun]
  exact named (hkind ▸ kind)

theorem Work.create_named (work : Work) (now : Time) : (work.create now).Named := by
  intro kind
  cases work <;> first | rfl | cases kind

namespace Queue

/-- No item is new. -/
def Kept (items items' : List QueueItem) : Prop :=
  (items'.map QueueItem.ident).Sublist (items.map QueueItem.ident)

variable {items items' : List QueueItem} {w v : WorkerId} {i j : String} {now timeout : Time}

theorem Kept.nodup (kept : Kept items items') (nodup : (items.map (·.item_id)).Nodup) :
    (items'.map (·.item_id)).Nodup := by
  have ids (l : List QueueItem) : l.map (·.item_id) = (l.map QueueItem.ident).map Prod.fst := by
    simp [QueueItem.ident, Function.comp_def]
  rw [ids] at nodup ⊢
  exact nodup.sublist (kept.map _)

theorem Kept.named (kept : Kept items items') (named : ∀ item ∈ items, item.Named) : ∀ item ∈ items', item.Named := by
  intro item hitem
  obtain ⟨old, hold, same⟩ := List.mem_map.mp (kept.subset (List.mem_map_of_mem hitem))
  exact (named old hold).of_ident same.symm

theorem kept_rewrite {p : QueueItem → Bool} {f : QueueItem → QueueItem}
    (h : rewrite_first p f items = some items') (keeps : ∀ a, (f a).ident = a.ident) : Kept items items' := by
  unfold Kept
  rw [map_rewrite_first keeps h]

theorem kept_complete (h : complete items i w = some items') : Kept items items' := by
  simp only [complete] at h
  split at h
  · cases h
  · cases h
    exact List.filter_sublist.map _

theorem kept_release_all : Kept items (release_all_claimed_by items w).1 := by
  have same : ((release_all_claimed_by items w).1).map QueueItem.ident = items.map QueueItem.ident := by
    simp only [release_all_claimed_by, List.map_map]
    refine List.map_congr_left fun item _ => ?_
    simp only [Function.comp]
    split <;> rfl
  unfold Kept
  rw [same]

theorem kept_claim {matter_id : Option MatterId} {item : QueueItem}
    (h : claim items w now timeout matter_id = some (item, items')) :
    Kept items items' ∧ ∃ chosen ∈ items, item.ident = chosen.ident := by
  obtain ⟨chosen, hchosen, -, rfl, hrewrite⟩ := claim_eq_some h
  exact ⟨kept_rewrite hrewrite fun _ => rfl, chosen, hchosen, rfl⟩

/-- What the end of a drain does to the queue: the worker's item goes, or loses its owner. -/
theorem close_spec {config : WorkerConfig} {drain : Drain} {how : DrainEnd}
    (h : drain.close config w items how = some items') :
    Kept items items' ∧ ∀ v j lease, ¬ (v = w ∧ j = drain.item.item_id) → Holds items v j lease →
      Holds items' v j lease := by
  have released {visible_at : Option Time} {refund : Bool}
      (h : release items drain.item.item_id w visible_at refund = some items') :
      Kept items items' ∧ ∀ v j lease, ¬ (v = w ∧ j = drain.item.item_id) → Holds items v j lease →
        Holds items' v j lease :=
    ⟨kept_rewrite h fun _ => rfl, fun _ _ _ other holds => holds.rewrite other h⟩
  have removed (h : complete items drain.item.item_id w = some items') :
      Kept items items' ∧ ∀ v j lease, ¬ (v = w ∧ j = drain.item.item_id) → Holds items v j lease →
        Holds items' v j lease :=
    ⟨kept_complete h, fun _ _ _ other holds => holds.complete other h⟩
  cases how with
  | completed => exact removed h
  | shutdown => exact released h
  | capacity => exact released h
  | failed =>
    simp only [Drain.close] at h
    split at h
    · exact released h
    · exact removed h
  | left => cases h

end Queue

/-! ### The invariant -/

/-- The time of the tick a worker is in, up to its claim. -/
def FleetPhase.now? : FleetPhase → Option Time
  | .writing now | .reclaiming now _ | .releasing now _ _ | .claiming now => some now
  | .off | .idle | .draining _ => none

/-- One item an id, every unexpired lease in the queue file, no tick ahead of the clock, and run items named after
    their run, in the queue and in the drains. -/
structure Fleet.Sound (s : Fleet) : Prop where
  nodup : (s.queue.map (·.item_id)).Nodup
  held : ∀ w i lease, (s.workers w).leases i = some lease → s.clock < lease → Queue.Holds s.queue w i lease
  past : ∀ w now, (s.workers w).phase.now? = some now → now ≤ s.clock
  named : ∀ item ∈ s.queue, item.Named
  drained : ∀ w drain, (s.workers w).phase = .draining drain → drain.item.Named

/-- The worker judged stale, whose items go free, has no lease left that has not expired. -/
def Fleet.Spares (s : Fleet) (act : FleetAct) (_ : Fleet) : Prop :=
  ∀ w now other others, act = .release_all_claimed_by w → (s.workers w).phase = .releasing now other others →
    ∀ i lease, (s.workers other).leases i = some lease → lease ≤ s.clock

namespace Fleet.Sound
variable {s s' : Fleet} {w : WorkerId} {i : String}

theorem start (clock : Time) : (Fleet.start clock).Sound where
  nodup := List.nodup_nil
  held := by intro w i lease h; cases h
  past := by intro w now h; cases h
  named := by intro item h; cases h
  drained := by intro w drain h; cases h

theorem setPhase (sound : s.Sound) {phase : FleetPhase} (past : ∀ now, phase.now? = some now → now ≤ s.clock)
    (drained : ∀ drain, phase = .draining drain → drain.item.Named) : (s.setPhase w phase).Sound where
  nodup := sound.nodup
  held v j lease h := sound.held v j lease (by simpa using h)
  past v now h := by
    rw [setPhase_phase] at h
    split at h
    · exact past now h
    · exact sound.past v now h
  named := sound.named
  drained v drain h := by
    rw [setPhase_phase] at h
    split at h
    · exact drained drain h
    · exact sound.drained v drain h

/-- An operation on the queue that touches no lease but the worker's on the item, whose lease is then as recorded. -/
theorem grant (sound : s.Sound) {queue : List QueueItem} (lease : Option Time) (kept : Queue.Kept s.queue queue)
    (others : ∀ v j other, ¬ (v = w ∧ j = i) → s.clock < other → Queue.Holds s.queue v j other →
      Queue.Holds queue v j other)
    (own : ∀ until_, lease = some until_ → Queue.Holds queue w i until_) :
    ((s.setQueue queue).setLease w i lease).Sound where
  nodup := kept.nodup sound.nodup
  held v j other h unexpired := by
    rw [setLease_leases] at h
    split at h
    · rename_i same
      obtain ⟨rfl, rfl⟩ := same
      exact own other h
    · rename_i different
      exact others v j other different unexpired (sound.held v j other h unexpired)
  past v now h := sound.past v now (by simpa using h)
  named := kept.named sound.named
  drained v drain h := sound.drained v drain (by simpa using h)

theorem fresh (sound : s.Sound) {worker : FleetWorker} (leases : worker.leases = fun _ => none)
    (past : worker.phase.now? = none) (drained : ∀ drain, worker.phase ≠ .draining drain) :
    (s.setWorker w worker).Sound where
  nodup := sound.nodup
  held v j lease h := by
    by_cases same : v = w
    · subst same
      rw [setWorker_self, leases] at h
      cases h
    · rw [setWorker_ne _ same] at h
      exact sound.held v j lease h
  past v now h := by
    by_cases same : v = w
    · subst same
      rw [setWorker_self, past] at h
      cases h
    · rw [setWorker_ne _ same] at h
      exact sound.past v now h
  named := sound.named
  drained v drain h := by
    by_cases same : v = w
    · subst same
      rw [setWorker_self] at h
      exact absurd h (drained drain)
    · rw [setWorker_ne _ same] at h
      exact sound.drained v drain h

theorem setHeartbeat (sound : s.Sound) (ts : Option Time) : (s.setHeartbeat w ts).Sound :=
  ⟨sound.nodup, sound.held, sound.past, sound.named, sound.drained⟩

theorem tick (sound : s.Sound) (elapsed : Time) : ({ s with clock := s.clock + elapsed } : Fleet).Sound where
  nodup := sound.nodup
  held v j lease h unexpired := sound.held v j lease h (lt_of_le_of_lt (Nat.le_add_right ..) unexpired)
  past v now h := le_trans (sound.past v now h) (Nat.le_add_right ..)
  named := sound.named
  drained := sound.drained

theorem ensure_enqueued (sound : s.Sound) {work : Work} {now : Time} {queue : List QueueItem}
    (h : Queue.ensure_enqueued s.queue (work.create now) = .ok queue) : (s.setQueue queue).Sound := by
  rcases Queue.ensure_enqueued_ok h with rfl | ⟨rfl, fresh⟩
  · exact sound
  · refine ⟨?_, fun v j lease h unexpired => ?_, sound.past, fun item hitem => ?_, sound.drained⟩
    · simp only [setQueue_queue, List.map_append, List.map_cons, List.map_nil]
      exact List.nodup_append.mpr ⟨sound.nodup, by simp, fun a ha b hb => by
        rintro rfl; exact fresh (List.mem_singleton.mp hb ▸ ha)⟩
    · obtain ⟨item, hitem, holds⟩ := sound.held v j lease h unexpired
      exact ⟨item, List.mem_append_left _ hitem, holds⟩
    · rcases List.mem_append.mp hitem with hitem | hitem
      · exact sound.named item hitem
      · obtain rfl := List.mem_singleton.mp hitem
        exact work.create_named now


theorem markReclaimed (sound : s.Sound) : (s.markReclaimed w).Sound :=
  ⟨sound.nodup, fun v j lease h => sound.held v j lease (by simpa using h),
    fun v now h => sound.past v now (by simpa using h), sound.named,
    fun v drain h => sound.drained v drain (by simpa using h)⟩

section Steps
variable {config : WorkerId → WorkerConfig}

theorem inspect (sound : s.Sound) {now : Time} {others : List WorkerId} (past : now ≤ s.clock) :
    (s.inspected config w now others).Sound := by
  cases others with
  | nil => exact sound.markReclaimed.setPhase (fun _ h => Option.some.inj h ▸ past) (fun _ h => by cases h)
  | cons other others =>
    have goes_on : (s.setPhase w (.reclaiming now others)).Sound :=
      sound.setPhase (fun _ h => Option.some.inj h ▸ past) (fun _ h => by cases h)
    simp only [inspected]
    split
    · split
      · exact sound.setPhase (fun _ h => Option.some.inj h ▸ past) (fun _ h => by cases h)
      · exact goes_on
    · exact goes_on

theorem release_all (sound : s.Sound) {other : WorkerId}
    (spared : ∀ i lease, (s.workers other).leases i = some lease → lease ≤ s.clock) :
    (s.setQueue (Queue.release_all_claimed_by s.queue other).1).Sound where
  nodup := Queue.kept_release_all.nodup sound.nodup
  held v j lease h unexpired := by
    have not_other : v ≠ other := by
      rintro rfl
      exact absurd (spared j lease h) (Nat.not_le.mpr unexpired)
    exact (sound.held v j lease h unexpired).release_all not_other
  past := sound.past
  named := Queue.kept_release_all.named sound.named
  drained := sound.drained

theorem claim (sound : s.Sound) {now : Time} (phase : (s.workers w).phase = .claiming now) :
    (s.claimed config w now).Sound := by
  have past : now ≤ s.clock := sound.past w now (by rw [phase]; rfl)
  unfold claimed takes
  simp only [phase]
  split
  · exact sound.setPhase (fun _ h => by cases h) (fun _ h => by cases h)
  · rename_i item queue taken
    obtain ⟨kept, chosen, hchosen, same⟩ := Queue.kept_claim taken
    have granted := sound.grant (w := w) (i := item.item_id) (some item.visible_at) kept
      (fun v j other _ unexpired holds => holds.claim (lt_of_le_of_lt past unexpired) taken)
      (fun _ h => Option.some.inj h ▸ Queue.holds_claim taken)
    refine granted.setPhase (fun _ h => by cases h) fun drain h => ?_
    cases h
    exact (sound.named chosen hchosen).of_ident same

theorem renew (sound : s.Sound) {drain : Drain} {now : Time} (phase : (s.workers w).phase = .draining drain) :
    (s.renewed config w drain now).Sound := by
  have named := sound.drained w drain phase
  unfold renewed
  simp only
  split
  · exact sound.setPhase (fun _ h => by cases h) fun _ h => by cases h; exact named
  · rename_i queue beaten
    have granted := sound.grant (w := w) (i := drain.item.item_id)
      (some (now + (config w).visibility_timeout)) (Queue.kept_rewrite beaten fun _ => rfl)
      (fun v j other different _ holds => holds.rewrite different beaten)
      (fun _ h => Option.some.inj h ▸ Queue.holds_heartbeat beaten)
    exact granted.setPhase (fun _ h => by cases h) fun _ h => by cases h; exact named

theorem finish (sound : s.Sound) (drain : Drain) (how : DrainEnd) : (s.finished config w drain how).Sound := by
  unfold finished
  split
  · exact sound.setPhase (fun _ h => by cases h) (fun _ h => by cases h)
  · rename_i queue closed
    obtain ⟨kept, others⟩ := Queue.close_spec closed
    have given_back := sound.grant (w := w) (i := drain.item.item_id) none kept
      (fun v j other different _ holds => others v j other different holds) (fun _ h => by cases h)
    exact given_back.setPhase (fun _ h => by cases h) (fun _ h => by cases h)

/-- Every step that spares unexpired leases keeps the invariant. -/
theorem step (sound : s.Sound) {act : FleetAct} (next : Step config s act s') (spares : s.Spares act s') :
    s'.Sound := by
  unfold Step Fleet.step at next
  cases act with
  | tick elapsed =>
    cases next
    exact sound.tick elapsed
  | ensure_enqueued work now =>
    obtain ⟨queue, hqueue, rfl⟩ := Option.map_eq_some_iff.mp next
    cases enqueued : Queue.ensure_enqueued s.queue (work.create now) with
    | error _ => rw [enqueued] at hqueue; cases hqueue
    | ok _ =>
      rw [enqueued] at hqueue
      cases hqueue
      exact sound.ensure_enqueued enqueued
  | boot w =>
    simp only at next
    split at next
    · cases next
      exact sound.fresh rfl rfl (fun _ h => by cases h)
    · cases next
  | crash w =>
    cases next
    exact sound.fresh rfl rfl (fun _ h => by cases h)
  | run_once w =>
    simp only at next
    split at next
    · cases next
      exact (sound.setHeartbeat none).setPhase (fun _ h => Option.some.inj h ▸ le_refl _) (fun _ h => by cases h)
    · cases next
  | write_heartbeat w =>
    simp only at next
    split at next
    · rename_i now phase
      cases next
      have past : now ≤ s.clock := sound.past w now (by rw [phase]; rfl)
      refine (sound.setHeartbeat (some now)).setPhase (fun t h => ?_) (fun _ h => ?_)
      · split at h <;> exact Option.some.inj h ▸ past
      · split at h <;> cases h
    · cases next
  | inspect w =>
    simp only at next
    split at next
    · rename_i now others phase
      cases next
      exact sound.inspect (sound.past w now (by rw [phase]; rfl))
    · cases next
  | release_all_claimed_by w =>
    simp only at next
    split at next
    · rename_i now other others phase
      cases next
      have past : now ≤ s.clock := sound.past w now (by rw [phase]; rfl)
      exact (sound.release_all (spares w now other others rfl phase)).setPhase
        (fun _ h => Option.some.inj h ▸ past) (fun _ h => by cases h)
    · cases next
  | claim w =>
    simp only at next
    split at next
    · rename_i now phase
      cases next
      exact sound.claim phase
    · cases next
  | now_fn w =>
    simp only at next
    split at next
    · rename_i drain phase
      split at next
      · cases next
      · cases next
        exact sound.setPhase (fun _ h => by cases h) fun _ h => by cases h; exact sound.drained w drain phase
    · cases next
  | heartbeat w =>
    simp only at next
    split at next
    · rename_i drain phase
      obtain ⟨now, -, rfl⟩ := Option.map_eq_some_iff.mp next
      exact sound.renew phase
    · cases next
  | finish w how =>
    simp only at next
    split at next
    · rename_i drain phase
      split at next
      · cases next
        exact sound.finish drain how
      · cases next
    · cases next

theorem reachable {clock : Time} {trace : List FleetAct}
    (run : Run (Meeting (Step config) Spares) (Fleet.start clock) trace s) : s.Sound :=
  run.invariant (fun _ _ _ sound next => sound.step next.1 next.2) (start clock)

end Steps
end Fleet.Sound

/-! ### Lease exclusion -/

namespace Fleet

/-- The worker drives the run: it is in the drain of the run's item, under a lease that has not expired. -/
def Drives (s : Fleet) (w : WorkerId) (matter_id : MatterId) (run_id : RunId) : Prop :=
  ∃ drain lease, (s.workers w).phase = .draining drain ∧ drain.item.kind = .run_turn ∧
    drain.item.matter_id = matter_id ∧ drain.item.run_id = run_id ∧
    (s.workers w).leases drain.item.item_id = some lease ∧ s.clock < lease

/-- No claim takes an item that another worker holds under an unexpired lease, and no two workers drive one run. -/
structure Exclusive (config : WorkerId → WorkerConfig) (s : Fleet) : Prop where
  claims : ∀ w v item queue lease, s.takes config w = some (item, queue) → v ≠ w →
    (s.workers v).leases item.item_id = some lease → lease ≤ s.clock
  drives : ∀ v w matter_id run_id, s.Drives v matter_id run_id → s.Drives w matter_id run_id → v = w

variable {config : WorkerId → WorkerConfig} {s : Fleet}

theorem Sound.exclusive (sound : s.Sound) : s.Exclusive config where
  claims w v item queue lease taken _ leased := by
    by_contra unexpired
    have unexpired := Nat.lt_of_not_le unexpired
    have holds := sound.held v item.item_id lease leased unexpired
    unfold takes at taken
    split at taken
    · rename_i now phase
      have past : now ≤ s.clock := sound.past w now (by rw [phase]; rfl)
      exact absurd (le_trans (holds.not_claimed sound.nodup taken) past) (Nat.not_le.mpr unexpired)
    · cases taken
  drives v w matter_id run_id := by
    rintro ⟨drain, lease, phase, kind, rfl, rfl, leased, unexpired⟩
      ⟨drain', lease', phase', kind', matter, run, leased', unexpired'⟩
    have same_item : drain'.item.item_id = drain.item.item_id := by
      rw [sound.drained v drain phase kind, sound.drained w drain' phase' kind', matter, run]
    obtain ⟨item, hitem, hid, howner, -⟩ := sound.held v _ lease leased unexpired
    obtain ⟨item', hitem', hid', howner', -⟩ := sound.held w _ lease' leased' unexpired'
    obtain rfl : item = item' :=
      List.inj_on_of_nodup_map sound.nodup hitem hitem' (hid.trans (same_item.symm.trans hid'.symm))
    exact Option.some.inj (howner.symm.trans howner')

/-- Lease exclusion holds in every state of every run in which each worker whose items a reclaim frees has no
    unexpired lease. -/
theorem lease_exclusion {clock : Time} {trace : List FleetAct}
    (run : Run (Meeting (Step config) Spares) (Fleet.start clock) trace s) : s.Exclusive config :=
  (Sound.reachable run).exclusive

end Fleet

/-! ### Two workers on one run -/

namespace Fleet
variable {config : WorkerId → WorkerConfig} {s s' : Fleet}

/-- The state after a list of actions. -/
def play (config : WorkerId → WorkerConfig) (s : Fleet) : List FleetAct → Option Fleet
  | [] => some s
  | act :: rest => (s.step config act).bind (play config · rest)

/-- Actions that free no stale worker's items meet the condition of `lease_exclusion`. -/
theorem meeting_of_play {trace : List FleetAct} (played : s.play config trace = some s')
    (frees : ∀ act ∈ trace, ∀ w, act ≠ .release_all_claimed_by w) :
    Run (Meeting (Step config) Spares) s trace s' := by
  induction trace generalizing s with
  | nil =>
    cases played
    exact .start
  | cons act rest ih =>
    obtain ⟨mid, first, played⟩ := Option.bind_eq_some_iff.mp played
    have spares : s.Spares act mid := fun w _ _ _ h => absurd h (frees act List.mem_cons_self w)
    have rest := ih played fun a ha => frees a (List.mem_cons_of_mem _ ha)
    exact (Run.one ⟨first, spares⟩).trans rest

theorem run_of_play {trace : List FleetAct} (played : s.play config trace = some s') :
    Run (Step config) s trace s' := by
  induction trace generalizing s with
  | nil =>
    cases played
    exact .start
  | cons act rest ih =>
    obtain ⟨mid, first, played⟩ := Option.bind_eq_some_iff.mp played
    exact (Run.one first).trans (ih played)

end Fleet

namespace Sample
open Fleet

/-- A tick of a worker with nobody's heartbeat to look at, up to its claim. -/
def tickAlone (w : WorkerId) : List FleetAct := [.run_once w, .write_heartbeat w, .inspect w, .claim w]

/-- One renewal, four minutes on. -/
def renewal (w : WorkerId) : List FleetAct := [.tick (seconds 240), .now_fn w, .heartbeat w]

/-- Worker `a` takes the run and renews its lease. -/
def leasing : List FleetAct :=
  [.boot "a", .boot "b", .ensure_enqueued (.run_turn "m" "r") 0] ++ tickAlone "a" ++ renewal "a"

/-- Worker `b` wakes and looks at `a`'s heartbeat file. -/
def waking : List FleetAct := [.run_once "b", .write_heartbeat "b", .inspect "b"]

/-- The drain of `a` goes on for sixteen minutes, its lease renewed all along, when `b` starts. -/
def overrun : List FleetAct :=
  leasing ++ renewal "a" ++ renewal "a" ++ renewal "a" ++ waking ++ [.release_all_claimed_by "b", .inspect "b"]

def defaults (_ : WorkerId) : WorkerConfig := {}

def takes_from (s : Fleet) : Bool :=
  match s.takes defaults "b" with
  | some (item, _) =>
    match (s.workers "a").leases item.item_id with
    | some lease => decide (s.clock < lease)
    | none => false
  | none => false

def drives_run (s : Fleet) (w : WorkerId) : Bool :=
  match (s.workers w).phase with
  | .draining drain =>
    drain.item.kind == .run_turn && drain.item.matter_id == "m" && drain.item.run_id == "r" &&
      ((s.workers w).leases drain.item.item_id).any (s.clock < ·)
  | _ => false

theorem drives_of {s : Fleet} {w : WorkerId} (h : drives_run s w = true) : s.Drives w "m" "r" := by
  unfold drives_run at h
  split at h
  · rename_i drain phase
    simp only [Bool.and_eq_true, beq_iff_eq, Option.any_eq_true, decide_eq_true_eq] at h
    obtain ⟨⟨⟨kind, matter⟩, run⟩, lease, leased, unexpired⟩ := h
    exact ⟨drain, lease, phase, kind, matter, run, leased, unexpired⟩
  · cases h

theorem takes_of {s : Fleet} (h : takes_from s = true) : ∃ item queue lease,
    s.takes defaults "b" = some (item, queue) ∧ (s.workers "a").leases item.item_id = some lease ∧ s.clock < lease := by
  unfold takes_from at h
  split at h
  · rename_i item queue taken
    split at h
    · rename_i lease leased
      exact ⟨item, queue, lease, taken, leased, of_decide_eq_true h⟩
    · cases h
  · cases h

/-- While `a` drains, `b` starts in time to find its heartbeat fresh, and gets nothing. -/
def overlap : List FleetAct := leasing ++ waking ++ [.inspect "b", .claim "b"]

theorem played : (play defaults (start 0) overrun).any takes_from ∧
    (play defaults (start 0) (overrun ++ [.claim "b"])).any (fun s => drives_run s "a" && drives_run s "b") ∧
    (play defaults (start 0) overlap).isSome := by
  decide +kernel

/-- A drain outlasts the stale threshold while its lease is renewed: the next worker to start takes the item from
    under the lease, and both drive the run. -/
theorem overrun_not_exclusive :
    (∃ s, Reaches defaults 0 overrun s ∧ ∃ item queue lease, s.takes defaults "b" = some (item, queue) ∧
      (s.workers "a").leases item.item_id = some lease ∧ s.clock < lease) ∧
    ∃ s, Reaches defaults 0 (overrun ++ [.claim "b"]) s ∧ s.Drives "a" "m" "r" ∧ s.Drives "b" "m" "r" := by
  obtain ⟨s, reached, takes⟩ := Option.any_eq_true _ _ |>.mp played.1
  obtain ⟨s', reached', drives⟩ := Option.any_eq_true _ _ |>.mp played.2.1
  simp only [Bool.and_eq_true] at drives
  exact ⟨⟨s, run_of_play reached, takes_of takes⟩,
    ⟨s', run_of_play reached', drives_of drives.1, drives_of drives.2⟩⟩

theorem overlap_frees : ∀ act ∈ overlap, ∀ w, act ≠ .release_all_claimed_by w := by
  simp [overlap, leasing, tickAlone, renewal, waking]

theorem overlap_exclusive :
    ∃ s, Run (Meeting (Fleet.Step defaults) Spares) (start 0) overlap s ∧ s.Exclusive defaults := by
  obtain ⟨s, reached⟩ := Option.isSome_iff_exists.mp played.2.2
  have run := meeting_of_play reached overlap_frees
  exact ⟨s, run, lease_exclusion run⟩

end Sample
end MootLoop
