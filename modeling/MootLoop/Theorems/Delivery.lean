import MootLoop.Outbox
import MootLoop.Theorems.Leases

/-! The outbox delivers, over every schedule of launches, drains, workers and deaths in which no process goes on in its
    matter after its run lock was taken over: an acknowledgment follows the queue's item, there is one of them, and a
    drain that returns leaves the run's item in the queue. -/

namespace MootLoop

namespace Outbox
open Transition

/-! ### Journals -/

section
variable {canonical_json_sha256 : String → Digest} {entries entries' : List Entry} {run_id : RunId}
  {expected_matter_id : Option MatterId}

/-- What a drain reads of a journal. -/
structure Same (entries entries' : List Entry) : Prop where
  started : started_events entries' = started_events entries
  acknowledged : acknowledgments entries' = acknowledgments entries
  status : (fold (entries'.map Entry.journal_event)).status = (fold (entries.map Entry.journal_event)).status

theorem Same.refl (entries : List Entry) : Same entries entries := ⟨rfl, rfl, rfl⟩

theorem started_events_snoc (entries : List Entry) (entry : Entry) :
    started_events (entries ++ [entry]) = started_events entries ++ started_events [entry] := by
  rw [started_events, List.filterMap_append]
  rfl

theorem acknowledgments_snoc (entries : List Entry) (entry : Entry) :
    acknowledgments (entries ++ [entry]) = acknowledgments entries ++ acknowledgments [entry] := by
  rw [acknowledgments, List.filterMap_append]
  rfl

theorem fold_map_snoc (entries : List Entry) (entry : Entry) :
    fold ((entries ++ [entry]).map Entry.journal_event) =
      (fold (entries.map Entry.journal_event)).apply entry.journal_event := by
  rw [List.map_append, List.map_cons, List.map_nil, fold_snoc]

theorem own_event_events {event : JournalEvent} (other : own_event event = false) :
    started_events [.other event] = [] ∧ acknowledgments [.other event] = [] := by
  cases event <;> first | exact ⟨rfl, rfl⟩ | cases other

theorem apply_status {event : JournalEvent} (still : moves_status event = false) (state : RunState) :
    (state.apply event).status = state.status := by
  cases event <;> first | rfl | cases still

/-- An event of others that moves no status is nothing to a drain. -/
theorem Same.noted {event : JournalEvent} (other : own_event event = false) (still : moves_status event = false)
    (entries : List Entry) : Same entries (entries ++ [.other event]) := by
  obtain ⟨started, acknowledged⟩ := own_event_events other
  refine ⟨?_, ?_, ?_⟩
  · rw [started_events_snoc, started, List.append_nil]
  · rw [acknowledgments_snoc, acknowledged, List.append_nil]
  · rw [fold_map_snoc]
    exact apply_status still _

theorem delivery_of_same (same : Same entries entries') :
    delivery canonical_json_sha256 run_id expected_matter_id entries' =
      delivery canonical_json_sha256 run_id expected_matter_id entries := by
  unfold delivery started_event is_acknowledged
  rw [same.started, same.acknowledged, same.status]

/-- A run's deterministic item id. -/
def run_item_id (matter_id : MatterId) (run_id : RunId) : String := s!"run:{matter_id}:{run_id}"

theorem validate_ok {intent intent' : QueueIntent} {matter_id : MatterId}
    (valid : validate_run_queue_intent canonical_json_sha256 intent matter_id run_id = .ok intent') :
    intent' = intent ∧ intent.item_id = run_item_id matter_id run_id := by
  unfold validate_run_queue_intent at valid
  split at valid
  · cases valid
  · split at valid
    · cases valid
    · rename_i fits
      cases valid
      exact ⟨rfl, by_contra fun ne => fits (.inl ne)⟩

theorem is_acknowledged_ok {intent : QueueIntent} {acknowledged : Bool}
    (found : is_acknowledged run_id entries intent = .ok acknowledged) :
    acknowledged = !(acknowledgments entries).isEmpty := by
  unfold is_acknowledged at found
  split at found
  · cases found
  · cases found
    rfl

/-- What a drain that goes on, or has nothing to do, found in the journal. -/
theorem delivery_ok {found : Option Delivery}
    (decided : delivery canonical_json_sha256 run_id expected_matter_id entries = .ok found) :
    ∃ started matter_id queue_intent, started_events entries = [(started, matter_id, queue_intent)] ∧
      (queue_intent = none → found = none) ∧ ∀ intent, queue_intent = some intent → intent.item_id = run_item_id matter_id started.run_id ∧
        (∀ delivery, found = some delivery → delivery.item.item_id = intent.item_id ∧
          delivery.acknowledged = !(acknowledgments entries).isEmpty) ∧
        (found = none → acknowledgments entries ≠ [] ∧ (fold (entries.map Entry.journal_event)).status ≠ .running) := by
  unfold delivery at decided
  obtain ⟨⟨started, matter_id, queue_intent⟩, one, decided⟩ := bind_ok decided
  have single : started_events entries = [(started, matter_id, queue_intent)] := by
    unfold started_event at one
    split at one
    · rename_i listed
      cases one
      exact listed
    · cases one
  dsimp only at decided
  split at decided
  · obtain ⟨_, raised, -⟩ := bind_ok decided
    cases raised
  refine ⟨started, matter_id, queue_intent, single, ?_, ?_⟩
  · rintro rfl
    cases decided
    rfl
  rintro intent rfl
  obtain ⟨intent', valid, goes_on⟩ := bind_ok decided
  obtain ⟨acknowledged, acked, result⟩ := bind_ok goes_on
  have valid : validate_run_queue_intent canonical_json_sha256 intent matter_id started.run_id = .ok intent' := by
    cases checked : validate_run_queue_intent canonical_json_sha256 intent matter_id started.run_id with
    | error e => rw [checked] at valid; cases valid
    | ok => rw [checked] at valid; cases valid; rfl
  obtain ⟨rfl, item_id⟩ := validate_ok valid
  refine ⟨item_id, ?_⟩
  split at result
  · rename_i nothing
    cases result
    refine ⟨nofun, fun _ => ⟨fun none_yet => ?_, nothing.2⟩⟩
    have acknowledged_yet := (is_acknowledged_ok acked).symm.trans nothing.1
    rw [none_yet] at acknowledged_yet
    cases acknowledged_yet
  · cases result
    exact ⟨fun _ found => by cases found; exact ⟨rfl, is_acknowledged_ok acked⟩, nofun⟩

end

/-! ### Queue -/

theorem ensure_enqueued_keeps {items items' : List QueueItem} {item : QueueItem}
    (ensured : Queue.ensure_enqueued items item = .ok items') (nodup : (items.map (·.item_id)).Nodup) :
    (items'.map (·.item_id)).Nodup ∧ (∀ old ∈ items, old ∈ items') := by
  rcases Queue.ensure_enqueued_ok ensured with rfl | ⟨rfl, fresh⟩
  · exact ⟨nodup, fun _ mem => mem⟩
  · refine ⟨?_, fun old mem => List.mem_append_left _ mem⟩
    rw [List.map_append, List.map_cons, List.map_nil]
    refine List.nodup_append.mpr ⟨nodup, List.nodup_singleton _, fun a ha b hb => ?_⟩
    rintro rfl
    exact fresh (List.mem_singleton.mp hb ▸ ha)

/-- The ensured item is there, as it is or as it was before. -/
theorem ensure_enqueued_has {items items' : List QueueItem} {item : QueueItem}
    (ensured : Queue.ensure_enqueued items item = .ok items') : ∃ held ∈ items', held.item_id = item.item_id := by
  unfold Queue.ensure_enqueued at ensured
  split at ensured
  · cases ensured
    exact ⟨item, List.mem_append_right _ (List.mem_singleton_self _), rfl⟩
  · rename_i existing one
    have mem : existing ∈ items.filter (·.item_id == item.item_id) := by rw [one]; exact List.mem_singleton_self _
    obtain ⟨held, same⟩ := List.mem_filter.mp mem
    split at ensured
    · cases ensured
      exact ⟨existing, held, by simpa using same⟩
    · cases ensured
  · cases ensured

theorem perform_nodup {items : List QueueItem} (op : WorkerOp) (nodup : (items.map (·.item_id)).Nodup) :
    ((op.perform items).map (·.item_id)).Nodup := by
  cases op with
  | claim worker_id now visibility_timeout matter_id =>
    rw [WorkerOp.perform]
    cases taken : Queue.claim items worker_id now visibility_timeout matter_id with
    | none => exact nodup
    | some taken' => exact (Queue.kept_claim taken).1.nodup nodup
  | heartbeat item_id worker_id now visibility_timeout =>
    rw [WorkerOp.perform]
    cases kept : Queue.heartbeat items item_id worker_id now visibility_timeout with
    | none => exact nodup
    | some items' => exact (Queue.kept_rewrite kept fun _ => rfl).nodup nodup
  | complete item_id worker_id =>
    rw [WorkerOp.perform]
    cases kept : Queue.complete items item_id worker_id with
    | none => exact nodup
    | some items' => exact (Queue.kept_complete kept).nodup nodup
  | release item_id worker_id visible_at refund_attempt =>
    rw [WorkerOp.perform]
    cases kept : Queue.release items item_id worker_id visible_at refund_attempt with
    | none => exact nodup
    | some items' => exact (Queue.kept_rewrite kept fun _ => rfl).nodup nodup
  | release_all_claimed_by worker_id => exact Queue.kept_release_all.nodup nodup

/-! ### The invariant -/

section
variable {canonical_json_sha256 : String → Digest} {tasks : TaskId → Task} {start s s' : State} {trace : List Label}
  {l : Label} {id : TaskId}

/-- The journal of the task's run. -/
def State.journal (s : State) (task : Task) : List Entry := s.journals task.matter_id task.run_id

def In (queue : List QueueItem) (item_id : String) : Prop := ∃ item ∈ queue, item.item_id = item_id

def quiet_step (id : TaskId) (quiet : Bool) : Label → Bool
  | .entered other | .overtook other => other == id || quiet
  | .worked _ => false
  | _ => quiet

/-- No worker has done anything to the queue since the process got its run lock. -/
def quiet (id : TaskId) (trace : List Label) : Bool := trace.foldl (quiet_step id) false

/-- The queue had such an item at some time. -/
def Queued (canonical_json_sha256 : String → Digest) (tasks : TaskId → Task) (start : State) (trace : List Label)
    (item_id : String) : Prop :=
  ∃ front s, front <+: trace ∧ Run (Step canonical_json_sha256 tasks) start front s ∧ In s.queue item_id

/-- A delivery is that of the journal's intent. -/
def Fits (entries : List Entry) (delivery : Delivery) : Prop :=
  ∀ started matter_id intent, (started, matter_id, some intent) ∈ started_events entries →
    intent.item_id = run_item_id matter_id started.run_id ∧ delivery.item.item_id = intent.item_id

/-- A run that is unacknowledged or running has its item in the queue. -/
def Complete (entries : List Entry) (queue : List QueueItem) : Prop :=
  ∀ started matter_id intent, (started, matter_id, some intent) ∈ started_events entries →
    acknowledgments entries = [] ∨ (fold (entries.map Entry.journal_event)).status = .running →
    intent.item_id = run_item_id matter_id started.run_id ∧ In queue intent.item_id

/-- What the process that has the run lock knows. -/
def Learned (canonical_json_sha256 : String → Digest) (tasks : TaskId → Task) (start : State) (trace : List Label)
    (s : State) (id : TaskId) : Pc → Prop
  | .delivering delivery =>
    Fits (s.journal (tasks id)) delivery ∧ delivery.acknowledged = !(acknowledgments (s.journal (tasks id))).isEmpty
  | .acknowledging delivery =>
    Fits (s.journal (tasks id)) delivery ∧ acknowledgments (s.journal (tasks id)) = [] ∧
      Queued canonical_json_sha256 tasks start trace delivery.item.item_id ∧
      (quiet id trace = true → In s.queue delivery.item.item_id)
  | .leaving true => quiet id trace = true → Complete (s.journal (tasks id)) s.queue
  | _ => True

structure Sound (canonical_json_sha256 : String → Digest) (tasks : TaskId → Task) (start : State) (trace : List Label)
    (s : State) : Prop where
  nodup : (s.queue.map (·.item_id)).Nodup
  once : ∀ matter_id run_id, (acknowledgments (s.journals matter_id run_id)).length ≤ 1
  learned : ∀ id, s.locks (tasks id).matter_id = some id →
    Learned canonical_json_sha256 tasks start trace s id (s.pc id)

theorem Initial.sound (initial : Initial start) : Sound canonical_json_sha256 tasks start [] start where
  nodup := by
    rw [initial.queue]
    exact List.nodup_nil
  once matter_id run_id := by
    rw [initial.journals matter_id run_id]
    exact Nat.zero_le 1
  learned id _ := by
    rw [initial.pc id]
    trivial

theorem quiet_snoc (id : TaskId) (trace : List Label) (l : Label) : quiet id (trace ++ [l]) = quiet_step id (quiet id trace) l := by
  simp [quiet]

theorem Fits.same {entries entries' : List Entry} {delivery : Delivery} (fits : Fits entries delivery)
    (same : started_events entries' = started_events entries) : Fits entries' delivery := by
  intro started matter_id intent mem
  rw [same] at mem
  exact fits started matter_id intent mem

theorem Queued.snoc {item_id : String} (queued : Queued canonical_json_sha256 tasks start trace item_id) :
    Queued canonical_json_sha256 tasks start (trace ++ [l]) item_id := by
  obtain ⟨front, s, earlier, run, held⟩ := queued
  exact ⟨front, s, earlier.trans (List.prefix_append _ _), run, held⟩

/-- What a process knows stays true while the others write nothing to its journal that it reads, and no worker acts. -/
theorem Learned.frame {pc : Pc} (learned : Learned canonical_json_sha256 tasks start trace s id pc)
    (same : Same (s.journal (tasks id)) (s'.journal (tasks id)))
    (still : quiet id (trace ++ [l]) = true → quiet id trace = true ∧ ∀ item ∈ s.queue, item ∈ s'.queue) :
    Learned canonical_json_sha256 tasks start (trace ++ [l]) s' id pc := by
  have held : ∀ {item_id}, quiet id (trace ++ [l]) = true → In s.queue item_id → In s'.queue item_id :=
    fun calm ⟨item, mem, named⟩ => ⟨item, (still calm).2 item mem, named⟩
  cases pc with
  | delivering delivery => exact ⟨learned.1.same same.started, by rw [same.acknowledged]; exact learned.2⟩
  | acknowledging delivery =>
    obtain ⟨fits, none_yet, queued, there⟩ := learned
    exact ⟨fits.same same.started, same.acknowledged.trans none_yet, queued.snoc,
      fun calm => held calm (there (still calm).1)⟩
  | leaving returns =>
    cases returns with
    | true =>
      intro calm started matter_id intent mem due
      rw [same.started] at mem
      rw [same.acknowledged, same.status] at due
      obtain ⟨item_id, there⟩ := learned (still calm).1 started matter_id intent mem due
      exact ⟨item_id, held calm there⟩
    | false => trivial
  | waiting | locked | committing | working | finished => trivial

theorem learned_after_read :
    Learned canonical_json_sha256 tasks start trace s id
      (after_read canonical_json_sha256 (tasks id) (s.journal (tasks id))) := by
  unfold after_read
  split
  · split <;> trivial
  · rename_i expected_matter_id job
    split
    · rename_i delivery decided
      obtain ⟨started, matter_id, queue_intent, one, not_local, intent_ok⟩ := delivery_ok decided
      cases queue_intent with
      | none => cases not_local rfl
      | some intent =>
        obtain ⟨item_id, goes_on, -⟩ := intent_ok intent rfl
        obtain ⟨same_item, acknowledged⟩ := goes_on delivery rfl
        refine ⟨fun started' matter_id' intent' mem => ?_, acknowledged⟩
        rw [one] at mem
        cases List.mem_singleton.mp mem
        exact ⟨item_id, same_item⟩
    · rename_i decided
      obtain ⟨started, matter_id, queue_intent, one, -, intent_ok⟩ := delivery_ok decided
      intro _ started' matter_id' intent mem due
      rw [one] at mem
      cases List.mem_singleton.mp mem
      obtain ⟨-, -, nothing⟩ := intent_ok intent rfl
      obtain ⟨some_ack, not_running⟩ := nothing rfl
      rcases due with no_ack | running
      · exact absurd no_ack some_ack
      · exact absurd running not_running
    · trivial
  · trivial

/-- The condition: no process writes to its journal, or returns from a drain, after its run lock was taken over. -/
def KeepsLock (tasks : TaskId → Task) (s : State) : Label → Prop
  | .committed id | .recorded id _ | .acknowledged id => s.locks (tasks id).matter_id = some id
  | .left id => s.pc id = .leaving true → s.locks (tasks id).matter_id = some id
  | _ => True

@[simp] theorem append_journals {matter_id : MatterId} {run_id : RunId} {entry : Entry} (m : MatterId) (r : RunId) :
    (s.append matter_id run_id entry).journals m r =
      if m = matter_id ∧ r = run_id then s.journals m r ++ [entry] else s.journals m r := by
  unfold State.append
  by_cases matter : m = matter_id
  · subst matter
    by_cases run : r = run_id
    · subst run
      simp
    · simp [run]
  · simp [matter]

@[simp] theorem goto_journals {pc : Pc} : (s.goto id pc).journals = s.journals := rfl

/-- An entry for one journal leaves the other matters' alone. -/
theorem append_same {matter_id : MatterId} {run_id : RunId} {entry : Entry} {task : Task} (other : task.matter_id ≠ matter_id) :
    Same (s.journal task) ((s.append matter_id run_id entry).journal task) := by
  unfold State.journal
  rw [append_journals, if_neg fun same => other same.1]
  exact Same.refl _

theorem append_once {matter_id : MatterId} {run_id : RunId} {entry : Entry}
    (once : ∀ m r, (acknowledgments (s.journals m r)).length ≤ 1)
    (new : acknowledgments [entry] = [] ∨ acknowledgments (s.journals matter_id run_id) = []) (m : MatterId) (r : RunId) :
    (acknowledgments ((s.append matter_id run_id entry).journals m r)).length ≤ 1 := by
  rw [append_journals]
  split
  · rename_i here
    obtain ⟨rfl, rfl⟩ := here
    rw [acknowledgments_snoc, List.length_append]
    rcases new with none_new | none_old
    · rw [none_new]
      exact once m r
    · rw [none_old]
      show 0 + (List.filterMap _ [entry]).length ≤ 1
      exact (Nat.zero_add _).trans_le (List.length_filterMap_le _ _)
  · exact once m r

/-- Two processes have the run locks of two matters. -/
theorem matters_ne {other : TaskId} (ne : other ≠ id) (lock : s.locks (tasks other).matter_id = some other)
    (mine : s.locks (tasks id).matter_id = some id) : (tasks other).matter_id ≠ (tasks id).matter_id := by
  intro same
  rw [same, mine] at lock
  exact ne (Option.some_inj.mp lock).symm

theorem Sound.other (sound : Sound canonical_json_sha256 tasks start trace s) {other : TaskId}
    (lock : s.locks (tasks other).matter_id = some other) (pc : s'.pc other = s.pc other)
    (same : Same (s.journal (tasks other)) (s'.journal (tasks other)))
    (calm : ∀ q, quiet_step other q l = true → q = true) (kept : ∀ item ∈ s.queue, item ∈ s'.queue) :
    Learned canonical_json_sha256 tasks start (trace ++ [l]) s' other (s'.pc other) := by
  rw [pc]
  exact (sound.learned other lock).frame same fun now => ⟨calm _ (by rwa [quiet_snoc] at now), kept⟩

/-- A process gets a run lock. -/
theorem Sound.take (sound : Sound canonical_json_sha256 tasks start trace s) (l : Label)
    (calm : ∀ other, other ≠ id → ∀ q, quiet_step other q l = true → q = true) :
    Sound canonical_json_sha256 tasks start (trace ++ [l]) (s.take id (tasks id).matter_id) := by
  refine ⟨sound.nodup, sound.once, fun other lock => ?_⟩
  have lock : Function.update s.locks (tasks id).matter_id (some id) (tasks other).matter_id = some other := lock
  by_cases this : other = id
  · subst this
    show Learned _ _ _ _ _ other (Function.update s.pc other _ other)
    rw [Function.update_self]
    trivial
  · by_cases matter : (tasks other).matter_id = (tasks id).matter_id
    · rw [matter, Function.update_self] at lock
      exact absurd (Option.some_inj.mp lock).symm this
    · rw [Function.update_of_ne matter] at lock
      exact sound.other lock (Function.update_of_ne this ..) (Same.refl _) (calm other this) fun _ mem => mem

theorem Sound.step (sound : Sound canonical_json_sha256 tasks start trace s)
    (run : Run (Step canonical_json_sha256 tasks) start trace s) (step : Step canonical_json_sha256 tasks s l s')
    (keeps : KeepsLock tasks s l) : Sound canonical_json_sha256 tasks start (trace ++ [l]) s' := by
  have reached := run.snoc step
  cases step with
  | @entered id alive pc free =>
    refine sound.take _ fun other ne q calm => ?_
    simpa [quiet_step, Ne.symm ne] using calm
  | @overtook id alive pc =>
    refine sound.take _ fun other ne q calm => ?_
    simpa [quiet_step, Ne.symm ne] using calm
  | @read id alive pc =>
    refine ⟨sound.nodup, sound.once, fun other lock => ?_⟩
    by_cases this : other = id
    · subst this
      show Learned _ _ _ _ _ other (Function.update s.pc other _ other)
      rw [Function.update_self]
      exact learned_after_read
    · exact sound.other lock (Function.update_of_ne this ..) (Same.refl _) (fun _ calm => calm) fun _ mem => mem
  | @committed id event queue_intent alive pc job run_id valid =>
    refine ⟨sound.nodup, append_once sound.once (.inl rfl), fun other lock => ?_⟩
    by_cases this : other = id
    · subst this
      show Learned _ _ _ _ _ other (Function.update s.pc other _ other)
      rw [Function.update_self]
      trivial
    · exact sound.other lock (Function.update_of_ne this ..) (append_same (matters_ne this lock keeps)) (fun _ calm => calm)
        fun _ mem => mem
  | @recorded id event alive pc other =>
    refine ⟨sound.nodup, append_once sound.once (.inl (own_event_events other).2), fun other lock => ?_⟩
    by_cases this : other = id
    · subst this
      show Learned _ _ _ _ _ other (s.pc other)
      rw [pc]
      trivial
    · exact sound.other lock rfl (append_same (matters_ne this lock keeps)) (fun _ calm => calm) fun _ mem => mem
  | @delivered id delivery queue alive pc ensured =>
    obtain ⟨nodup, kept⟩ := ensure_enqueued_keeps ensured sound.nodup
    have there : In queue delivery.item.item_id := ensure_enqueued_has ensured
    refine ⟨nodup, sound.once, fun other lock => ?_⟩
    by_cases this : other = id
    · subst this
      show Learned _ _ _ _ _ other (Function.update s.pc other _ other)
      have learned := sound.learned other lock
      rw [pc] at learned
      obtain ⟨fits, acknowledged⟩ := learned
      rw [Function.update_self]
      by_cases acked : delivery.acknowledged = true
      · rw [if_pos acked]
        intro _ started matter_id intent mem _
        obtain ⟨item_id, same⟩ := fits started matter_id intent mem
        exact ⟨item_id, same ▸ there⟩
      · rw [if_neg acked]
        have none_yet : acknowledgments (s.journal (tasks other)) = [] := by
          rw [acknowledged] at acked
          simpa using acked
        exact ⟨fits, none_yet, ⟨_, _, List.prefix_rfl, reached, there⟩, fun _ => there⟩
    · exact sound.other lock (Function.update_of_ne this ..) (Same.refl _) (fun _ calm => calm) kept
  | @acknowledged id delivery alive pc =>
    have learned := sound.learned id keeps
    rw [pc] at learned
    obtain ⟨fits, none_yet, -, there⟩ := learned
    refine ⟨sound.nodup, append_once sound.once (.inr none_yet), fun other lock => ?_⟩
    by_cases this : other = id
    · subst this
      show Learned _ _ _ _ _ other (Function.update s.pc other _ other)
      rw [Function.update_self]
      intro calm started matter_id intent mem _
      have mem : (started, matter_id, some intent) ∈ started_events (s.journal (tasks other)) := by
        unfold State.journal at mem
        rwa [goto_journals, append_journals, if_pos ⟨rfl, rfl⟩, started_events_snoc,
          show started_events [.other (.run_enqueued _ _)] = [] from rfl, List.append_nil] at mem
      obtain ⟨item_id, same⟩ := fits started matter_id intent mem
      rw [quiet_snoc] at calm
      exact ⟨item_id, same ▸ there calm⟩
    · exact sound.other lock (Function.update_of_ne this ..) (append_same (matters_ne this lock keeps)) (fun _ calm => calm)
        fun _ mem => mem
  | @raised id alive inside =>
    refine ⟨sound.nodup, sound.once, fun other lock => ?_⟩
    by_cases this : other = id
    · subst this
      show Learned _ _ _ _ _ other (Function.update s.pc other _ other)
      rw [Function.update_self]
      trivial
    · exact sound.other lock (Function.update_of_ne this ..) (Same.refl _) (fun _ calm => calm) fun _ mem => mem
  | @left id alive pc =>
    refine ⟨sound.nodup, sound.once, fun other lock => ?_⟩
    by_cases this : other = id
    · subst this
      show Learned _ _ _ _ _ other (Function.update s.pc other _ other)
      rw [Function.update_self]
      trivial
    · have held : s.locks (tasks other).matter_id = some other := by
        dsimp only at lock
        split at lock
        · by_cases matter : (tasks other).matter_id = (tasks id).matter_id
          · rw [matter, Function.update_self] at lock
            cases lock
          · rwa [Function.update_of_ne matter] at lock
        · exact lock
      exact sound.other held (Function.update_of_ne this ..) (Same.refl _) (fun _ calm => calm) fun _ mem => mem
  | @died id alive =>
    exact ⟨sound.nodup, sound.once, fun other lock => sound.other lock rfl (Same.refl _) (fun _ calm => calm) fun _ mem => mem⟩
  | @noted matter_id run_id event other still =>
    refine ⟨sound.nodup, append_once sound.once (.inl (own_event_events other).2), fun other' lock => ?_⟩
    refine sound.other lock rfl ?_ (fun _ calm => calm) fun _ mem => mem
    unfold State.journal
    rw [append_journals]
    split
    · exact Same.noted other still _
    · exact Same.refl _
  | @produced work now queue ensured =>
    obtain ⟨nodup, kept⟩ := ensure_enqueued_keeps ensured sound.nodup
    exact ⟨nodup, sound.once, fun other lock => sound.other lock rfl (Same.refl _) (fun _ calm => calm) kept⟩
  | @worked op =>
    refine ⟨perform_nodup op sound.nodup, sound.once, fun other lock => ?_⟩
    exact (sound.learned other lock).frame (Same.refl _) fun calm => by
      rw [quiet_snoc] at calm
      cases calm

/-- Only the drain acknowledges. -/
theorem acknowledged_by_drain (step : Step canonical_json_sha256 tasks s l s') {matter_id : MatterId} {run_id : RunId}
    {a : String × Digest} (mem : a ∈ acknowledgments (s'.journals matter_id run_id)) :
    a ∈ acknowledgments (s.journals matter_id run_id) ∨
      ∃ id delivery, l = .acknowledged id ∧ s.pc id = .acknowledging delivery ∧ a.1 = delivery.item.item_id := by
  have appended : ∀ {m r entry}, a ∈ acknowledgments ((s.append m r entry).journals matter_id run_id) →
      a ∈ acknowledgments (s.journals matter_id run_id) ∨ a ∈ acknowledgments [entry] := by
    intro m r entry mem
    rw [append_journals] at mem
    split at mem
    · rw [acknowledgments_snoc] at mem
      exact List.mem_append.mp mem
    · exact .inl mem
  cases step with
  | committed =>
    rcases appended mem with old | new
    · exact .inl old
    · cases new
  | recorded alive pc other =>
    rcases appended mem with old | new
    · exact .inl old
    · rw [(own_event_events other).2] at new
      cases new
  | noted other still =>
    rcases appended mem with old | new
    · exact .inl old
    · rw [(own_event_events other).2] at new
      cases new
  | @acknowledged id delivery alive pc =>
    rcases appended mem with old | new
    · exact .inl old
    · obtain rfl := List.mem_singleton.mp new
      exact .inr ⟨id, delivery, rfl, pc, rfl⟩
  | entered | overtook | read | delivered | raised | left | died | produced | worked => exact .inl mem

/-- What holds along the runs that meet the condition. -/
structure Reached (canonical_json_sha256 : String → Digest) (tasks : TaskId → Task) (start : State) (trace : List Label)
    (s : State) : Prop where
  run : Run (Step canonical_json_sha256 tasks) start trace s
  sound : Sound canonical_json_sha256 tasks start trace s
  queued : ∀ matter_id run_id, ∀ a ∈ acknowledgments (s.journals matter_id run_id),
    Queued canonical_json_sha256 tasks start trace a.1

/-- An acknowledgment comes after the item. -/
theorem Reached.acknowledged (reached : Reached canonical_json_sha256 tasks start trace s)
    (step : Step canonical_json_sha256 tasks s l s') (keeps : KeepsLock tasks s l) {matter_id : MatterId} {run_id : RunId}
    {a : String × Digest} (mem : a ∈ acknowledgments (s'.journals matter_id run_id)) :
    Queued canonical_json_sha256 tasks start trace a.1 := by
  rcases acknowledged_by_drain step mem with old | ⟨id, delivery, rfl, pc, named⟩
  · exact reached.queued matter_id run_id a old
  · have learned := reached.sound.learned id keeps
    rw [pc] at learned
    rw [named]
    exact learned.2.2.1

theorem Reached.of_run (initial : Initial start)
    (run : Run (Meeting (Step canonical_json_sha256 tasks) fun s l _ => KeepsLock tasks s l) start trace s) :
    Reached canonical_json_sha256 tasks start trace s := by
  refine run.history (H := Reached canonical_json_sha256 tasks start) (fun _ _ _ _ _ reached step => ?_)
    ⟨.start, initial.sound, fun matter_id run_id a mem => ?_⟩
  · exact ⟨reached.run.snoc step.1, reached.sound.step reached.run step.1 step.2,
      fun _ _ _ mem => (reached.acknowledged step.1 step.2 mem).snoc⟩
  · rw [initial.journals matter_id run_id] at mem
    cases mem

end

/-! ### Every run -/

/-- What the outbox promises of a step after a run. -/
structure Delivers (canonical_json_sha256 : String → Digest) (tasks : TaskId → Task) (start : State) (trace : List Label)
    (s : State) (l : Label) (s' : State) : Prop where
  queued : ∀ matter_id run_id, ∀ a ∈ acknowledgments (s'.journals matter_id run_id),
    Queued canonical_json_sha256 tasks start trace a.1
  once : ∀ matter_id run_id, (acknowledgments (s'.journals matter_id run_id)).length ≤ 1
  /-- A drain that returns, and in which no worker acted. -/
  complete : ∀ id, l = .left id → s.pc id = .leaving true → quiet id trace = true →
    ∀ started matter_id intent, (started, matter_id, some intent) ∈ started_events (s'.journal (tasks id)) →
    acknowledgments (s'.journal (tasks id)) = [] ∨
      (fold ((s'.journal (tasks id)).map Entry.journal_event)).status = .running →
    intent.item_id = run_item_id matter_id started.run_id ∧ s'.queue.countP (·.item_id = intent.item_id) = 1

theorem count_of_nodup {items : List QueueItem} {item_id : String} (nodup : (items.map (·.item_id)).Nodup)
    (there : In items item_id) : items.countP (·.item_id = item_id) = 1 := by
  obtain ⟨item, mem, named⟩ := there
  have count := List.count_eq_one_of_mem nodup (List.mem_map_of_mem (f := (·.item_id)) mem)
  rw [named, List.count, List.countP_map] at count
  rw [← count]
  exact List.countP_congr fun item _ => by simp

/-- Delivery: along every run of launches, drains by any number of processes, workers and deaths in which no process goes
    on after its run lock was taken over. -/
theorem run_outbox_delivers {canonical_json_sha256 : String → Digest} {tasks : TaskId → Task} {start s s' : State}
    {trace : List Label} {l : Label} (initial : Initial start)
    (run : Run (Meeting (Step canonical_json_sha256 tasks) fun s l _ => KeepsLock tasks s l) start trace s)
    (step : Step canonical_json_sha256 tasks s l s') (keeps : KeepsLock tasks s l) :
    Delivers canonical_json_sha256 tasks start trace s l s' := by
  have reached := Reached.of_run initial run
  have sound := reached.sound.step reached.run step keeps
  refine ⟨fun _ _ _ mem => reached.acknowledged step keeps mem, sound.once, ?_⟩
  rintro id rfl pc calm started matter_id intent mem due
  have learned := reached.sound.learned id (keeps pc)
  rw [pc] at learned
  cases step with
  | left =>
    obtain ⟨item_id, there⟩ := learned calm started matter_id intent mem due
    exact ⟨item_id, count_of_nodup sound.nodup there⟩

end Outbox

namespace Sample
open Outbox Transition

def digest_of (_ : String) : Digest := "44136fa3"

def hosted_launch : RunStarted := { run_id := "r1", task := "rfp_response", rubric_version := "v1" }

def launch_intent : QueueIntent := ⟨run_item_id "acme" "r1", .run, .run_turn, 0, "\x7b\x7d", "44136fa3"⟩

/-- A hosted launch, then drains of its run. -/
def hosted : TaskId → Task
  | 0 => ⟨"acme", "r1", .start hosted_launch (some launch_intent)⟩
  | _ => ⟨"acme", "r1", .drain (some "acme")⟩

def nothing_launched : Outbox.State where
  queue := []
  journals _ _ := []
  locks _ := none
  pc _ := .waiting
  dead _ := false

theorem nothing_launched_initial : Outbox.Initial nothing_launched := ⟨rfl, fun _ _ => rfl, fun _ => rfl, fun _ => rfl⟩

theorem launch_intent_valid : ∀ intent, some launch_intent = some intent →
    validate_run_queue_intent digest_of intent "acme" "r1" = .ok intent := by
  rintro _ ⟨⟩
  decide

theorem free_lock {s : Outbox.State} {matter_id : MatterId} (free : s.locks matter_id = none) :
    ∀ owner, s.locks matter_id = some owner → s.dead owner = true := by
  intro owner held
  rw [free] at held
  cases held

def launch_delivery (acknowledged : Bool) : Delivery :=
  ⟨work_item hosted_launch "acme" launch_intent, "44136fa3", acknowledged⟩

theorem first_read : after_read digest_of ⟨"acme", "r1", .drain (some "acme")⟩
    [.run_started hosted_launch "acme" (some launch_intent)] = .delivering (launch_delivery false) := by
  decide

/-- The launch's own drain. -/
theorem launch_delivers : ∃ trace s s', Delivers digest_of hosted nothing_launched trace s (.left 1) s' ∧
    started_events (s'.journal (hosted 1)) = [(hosted_launch, "acme", some launch_intent)] := by
  have committed := ((((@Run.start _ _ (Meeting (Outbox.Step digest_of hosted) fun s l _ => KeepsLock hosted s l)
    nothing_launched).snoc ⟨@Outbox.Step.entered _ _ _ 0 rfl rfl (free_lock rfl), trivial⟩).snoc
    ⟨@Outbox.Step.read _ _ _ 0 rfl rfl, trivial⟩).snoc
    ⟨@Outbox.Step.committed _ _ _ 0 hosted_launch (some launch_intent) rfl rfl rfl rfl launch_intent_valid, rfl⟩).snoc
    ⟨@Outbox.Step.left _ _ _ 0 rfl (.inl rfl), nofun⟩
  have delivered := (((committed.snoc ⟨@Outbox.Step.entered _ _ _ 1 rfl rfl (free_lock rfl), trivial⟩).snoc
    ⟨@Outbox.Step.read _ _ _ 1 rfl rfl, trivial⟩).snoc
    ⟨@Outbox.Step.delivered _ _ _ 1 (launch_delivery false) _ rfl first_read rfl, trivial⟩).snoc
    ⟨@Outbox.Step.acknowledged _ _ _ 1 (launch_delivery false) rfl rfl, rfl⟩
  exact ⟨_, _, _, run_outbox_delivers nothing_launched_initial delivered
    (@Outbox.Step.left _ _ _ 1 rfl (.inr ⟨true, rfl⟩)) (fun _ => rfl), rfl⟩

/-- A drain stops before its acknowledgment until its lock is stale; another takes the lock over and acknowledges, and the
    first one goes on. -/
theorem overtaken_drain_acknowledges_twice :
    ¬ ∀ trace s l s', Run (Outbox.Step digest_of hosted) nothing_launched trace s → Outbox.Step digest_of hosted s l s' →
      Delivers digest_of hosted nothing_launched trace s l s' := by
  intro claimed
  have committed := ((((@Run.start _ _ (Outbox.Step digest_of hosted) nothing_launched).snoc
    (@Outbox.Step.entered _ _ _ 0 rfl rfl (free_lock rfl))).snoc (@Outbox.Step.read _ _ _ 0 rfl rfl)).snoc
    (@Outbox.Step.committed _ _ _ 0 hosted_launch (some launch_intent) rfl rfl rfl rfl launch_intent_valid)).snoc
    (@Outbox.Step.left _ _ _ 0 rfl (.inl rfl))
  have first := ((committed.snoc (@Outbox.Step.entered _ _ _ 1 rfl rfl (free_lock rfl))).snoc
    (@Outbox.Step.read _ _ _ 1 rfl rfl)).snoc (@Outbox.Step.delivered _ _ _ 1 (launch_delivery false) _ rfl first_read rfl)
  have second := ((first.snoc (@Outbox.Step.overtook _ _ _ 2 rfl rfl)).snoc (@Outbox.Step.read _ _ _ 2 rfl rfl)).snoc
    (@Outbox.Step.delivered _ _ _ 2 (launch_delivery false) _ rfl first_read rfl)
  have once := (claimed _ _ _ _ (second.snoc (@Outbox.Step.acknowledged _ _ _ 2 (launch_delivery false) rfl rfl))
    (@Outbox.Step.acknowledged _ _ _ 1 (launch_delivery false) rfl rfl)).once "acme" "r1"
  exact absurd once (by decide)

end Sample

end MootLoop
