import MootLoop.Queue
import MootLoop.Events
import MootLoop.Lib.Transition

/-! The run-start outbox: launches and drains of any number of processes, each at a point of its method, over the
    journals, the run lock of each matter, and the queue. A process may die between any two durable steps, and the lock
    of one that has not refreshed its heartbeat for too long is taken over. -/

namespace MootLoop

namespace Outbox

/-! ### Intents -/

/-- The work a launch commits with its `RunStarted`. -/
structure QueueIntent where
  item_id : String
  lane : Lane
  kind : ItemKind
  enqueued_at : Time
  payload : String
  payload_sha256 : Digest
  deriving DecidableEq, Repr

/-- An event as the journal has it; `RunStarted` with the fields that the outbox reads. -/
inductive Entry where
  | run_started (event : RunStarted) (matter_id : MatterId) (queue_intent : Option QueueIntent)
  | other (event : JournalEvent)
  deriving DecidableEq, Repr

def Entry.journal_event : Entry → JournalEvent
  | .run_started event _ _ => .run_started event
  | .other event => event

/-- The events that `start_run` and the drain alone write. -/
def own_event : JournalEvent → Bool
  | .run_started _ | .run_enqueued _ _ => true
  | _ => false

/-- The events that move a run's status. -/
def moves_status : JournalEvent → Bool
  | .run_finished _ | .cap_raised _ | .checkpoint_reached _ | .checkpoint_cleared _ | .run_paused _ | .run_resumed
  | .run_reopened _ _ _ => true
  | _ => false

variable (canonical_json_sha256 : String → Digest)

/-- `validate_run_queue_intent`. -/
def validate_run_queue_intent (intent : QueueIntent) (matter_id : MatterId) (run_id : RunId) : Except Error QueueIntent :=
  if intent.payload_sha256 ≠ canonical_json_sha256 intent.payload then
    throw (.value "payload_sha256 does not match queue intent payload")
  else if intent.item_id ≠ s!"run:{matter_id}:{run_id}" ∨ intent.lane ≠ .run ∨ intent.kind ≠ .run_turn ∨
      intent.payload ≠ "\x7b\x7d" then
    throw (.value "run queue intent must target its enclosing matter/run as empty run_turn work")
  else return intent

/-! ### The drain's decision -/

def started_events (entries : List Entry) : List (RunStarted × MatterId × Option QueueIntent) :=
  entries.filterMap fun
    | .run_started event matter_id queue_intent => some (event, matter_id, queue_intent)
    | .other _ => none

/-- The acknowledgments, as pairs of item id and digest. -/
def acknowledgments (entries : List Entry) : List (String × Digest) :=
  entries.filterMap fun
    | .other (.run_enqueued item_id payload_sha256) => some (item_id, payload_sha256)
    | _ => none

/-- `_started_event`. -/
def started_event (run_id : RunId) (entries : List Entry) : Except Error (RunStarted × MatterId × Option QueueIntent) :=
  match started_events entries with
  | [started] => return started
  | started => throw (.orchestrator
      s!"run '{run_id}' must have exactly one RunStarted event; found {started.length}")

/-- `_is_acknowledged`. -/
def is_acknowledged (run_id : RunId) (entries : List Entry) (intent : QueueIntent) : Except Error Bool :=
  if (acknowledgments entries).any (· ≠ (intent.item_id, intent.payload_sha256)) then
    throw (.orchestrator s!"run '{run_id}' has a RunEnqueued acknowledgment for conflicting work")
  else return !(acknowledgments entries).isEmpty

/-- `_work_item`. -/
def work_item (started : RunStarted) (matter_id : MatterId) (intent : QueueIntent) : QueueItem where
  item_id := intent.item_id
  kind := intent.kind
  attempts := 0
  lane := intent.lane
  matter_id := matter_id
  run_id := started.run_id
  enqueued_at := intent.enqueued_at
  visible_at := intent.enqueued_at
  claimed_by := none
  payload := intent.payload

/-- What a drain has still to do: the item it ensures, and whether that was acknowledged before. -/
structure Delivery where
  item : QueueItem
  payload_sha256 : Digest
  acknowledged : Bool
  deriving DecidableEq, Repr

/-- `drain_run_outbox`, up to the launch snapshot's check; nothing when the drain has nothing to do. -/
def delivery (run_id : RunId) (expected_matter_id : Option MatterId) (entries : List Entry) :
    Except Error (Option Delivery) := do
  let (started, matter_id, queue_intent) ← started_event run_id entries
  let expected := expected_matter_id.getD ""
  if expected_matter_id ≠ none ∧ expected_matter_id ≠ some matter_id then
    throw (.orchestrator s!"run '{run_id}' belongs to matter '{matter_id}', not recovery vault '{expected}'")
  match queue_intent with
  | none => return none
  | some intent =>
    let intent ← (validate_run_queue_intent canonical_json_sha256 intent matter_id started.run_id).mapError fun _ =>
      .orchestrator s!"run '{run_id}' has an invalid queue intent"
    let acknowledged ← is_acknowledged run_id entries intent
    if acknowledged ∧ (fold (entries.map Entry.journal_event)).status ≠ .running then return none
    return some ⟨work_item started matter_id intent, intent.payload_sha256, acknowledged⟩

/-! ### Processes -/

abbrev TaskId := Nat

/-- What a process has to do under the run lock. -/
inductive Job where
  /-- `start_run`, with the intent of a hosted launch. -/
  | start (event : RunStarted) (queue_intent : Option QueueIntent)
  | drain (expected_matter_id : Option MatterId)
  /-- Any other service that writes to the run's journal. -/
  | service
  deriving DecidableEq, Repr

structure Task where
  matter_id : MatterId
  run_id : RunId
  job : Job
  deriving DecidableEq, Repr

/-- Where a process is. -/
inductive Pc where
  | waiting
  | locked
  /-- `start_run` found no events. -/
  | committing
  /-- May write other events: a service, or `start_run` at its `_finalize`. -/
  | working
  | delivering (delivery : Delivery)
  | acknowledging (delivery : Delivery)
  /-- Returns, or raises. -/
  | leaving (returns : Bool)
  | finished
  deriving DecidableEq, Repr

structure State where
  queue : List QueueItem
  journals : MatterId → RunId → List Entry
  /-- Who published the lock file of the matter. -/
  locks : MatterId → Option TaskId
  pc : TaskId → Pc
  dead : TaskId → Bool

/-- Nothing was launched yet. -/
structure Initial (s : State) : Prop where
  queue : s.queue = []
  journals : ∀ matter_id run_id, s.journals matter_id run_id = []
  locks : ∀ matter_id, s.locks matter_id = none
  pc : ∀ id, s.pc id = .waiting

/-- What a worker does to the queue. -/
inductive WorkerOp where
  | claim (worker_id : WorkerId) (now visibility_timeout : Time) (matter_id : Option MatterId)
  | heartbeat (item_id : String) (worker_id : WorkerId) (now visibility_timeout : Time)
  | complete (item_id : String) (worker_id : WorkerId)
  | release (item_id : String) (worker_id : WorkerId) (visible_at : Option Time) (refund_attempt : Bool)
  | release_all_claimed_by (worker_id : WorkerId)
  deriving DecidableEq, Repr

/-- The queue after it. -/
def WorkerOp.perform (items : List QueueItem) : WorkerOp → List QueueItem
  | .claim worker_id now visibility_timeout matter_id =>
    ((Queue.claim items worker_id now visibility_timeout matter_id).map (·.2)).getD items
  | .heartbeat item_id worker_id now visibility_timeout =>
    (Queue.heartbeat items item_id worker_id now visibility_timeout).getD items
  | .complete item_id worker_id => (Queue.complete items item_id worker_id).getD items
  | .release item_id worker_id visible_at refund_attempt =>
    (Queue.release items item_id worker_id visible_at refund_attempt).getD items
  | .release_all_claimed_by worker_id => (Queue.release_all_claimed_by items worker_id).1

/-! ### Steps -/

inductive Label where
  /-- The run lock is free, or of a dead process. -/
  | entered (id : TaskId)
  /-- The run lock is taken over from a process that lives, as its heartbeat is too old. -/
  | overtook (id : TaskId)
  | read (id : TaskId)
  | committed (id : TaskId)
  | recorded (id : TaskId) (event : JournalEvent)
  | delivered (id : TaskId)
  | acknowledged (id : TaskId)
  | raised (id : TaskId)
  | left (id : TaskId)
  | died (id : TaskId)
  /-- An event that is written without the run lock, as that of `verify_run_citations`. -/
  | noted (matter_id : MatterId) (run_id : RunId) (event : JournalEvent)
  /-- Another producer's work. -/
  | produced (work : Work) (now : Time)
  | worked (op : WorkerOp)
  deriving DecidableEq, Repr

/-- The process that takes the step, out of those that run a task. -/
def Label.id : Label → Option TaskId
  | .entered id | .overtook id | .read id | .committed id | .recorded id _ | .delivered id | .acknowledged id | .raised id
  | .left id | .died id => some id
  | _ => none

def State.goto (s : State) (id : TaskId) (pc : Pc) : State := { s with pc := Function.update s.pc id pc }

def State.append (s : State) (matter_id : MatterId) (run_id : RunId) (entry : Entry) : State :=
  { s with
    journals := Function.update s.journals matter_id
      (Function.update (s.journals matter_id) run_id (s.journals matter_id run_id ++ [entry])) }

/-- The run lock becomes the task's. -/
def State.take (s : State) (id : TaskId) (matter_id : MatterId) : State :=
  { s.goto id .locked with locks := Function.update s.locks matter_id (some id) }

variable (tasks : TaskId → Task)

/-- Where reading the journal leads. -/
def after_read (task : Task) (entries : List Entry) : Pc :=
  match task.job with
  | .start _ _ => if entries = [] then .committing else .leaving false
  | .drain expected_matter_id =>
    match delivery canonical_json_sha256 task.run_id expected_matter_id entries with
    | .ok (some delivery) => .delivering delivery
    | .ok none => .leaving true
    | .error _ => .leaving false
  | .service => .working

inductive Step : State → Label → State → Prop
  | entered {s : State} {id : TaskId} (alive : s.dead id = false) (pc : s.pc id = .waiting)
      (free : ∀ owner, s.locks (tasks id).matter_id = some owner → s.dead owner = true) :
      Step s (.entered id) (s.take id (tasks id).matter_id)
  | overtook {s : State} {id : TaskId} (alive : s.dead id = false) (pc : s.pc id = .waiting) :
      Step s (.overtook id) (s.take id (tasks id).matter_id)
  | read {s : State} {id : TaskId} (alive : s.dead id = false) (pc : s.pc id = .locked) :
      Step s (.read id)
        (s.goto id (after_read canonical_json_sha256 (tasks id) (s.journals (tasks id).matter_id (tasks id).run_id)))
  | committed {s : State} {id : TaskId} {event : RunStarted} {queue_intent : Option QueueIntent} (alive : s.dead id = false)
      (pc : s.pc id = .committing) (job : (tasks id).job = .start event queue_intent) (run_id : event.run_id = (tasks id).run_id)
      (valid : ∀ intent, queue_intent = some intent →
        validate_run_queue_intent canonical_json_sha256 intent (tasks id).matter_id (tasks id).run_id = .ok intent) :
      Step s (.committed id)
        ((s.append (tasks id).matter_id (tasks id).run_id (.run_started event (tasks id).matter_id queue_intent)).goto id .working)
  | recorded {s : State} {id : TaskId} {event : JournalEvent} (alive : s.dead id = false) (pc : s.pc id = .working)
      (other : own_event event = false) :
      Step s (.recorded id event) (s.append (tasks id).matter_id (tasks id).run_id (.other event))
  -- the launch snapshot was loaded; where it does not load, the drain raises
  | delivered {s : State} {id : TaskId} {delivery : Delivery} {queue : List QueueItem} (alive : s.dead id = false)
      (pc : s.pc id = .delivering delivery) (ensured : Queue.ensure_enqueued s.queue delivery.item = .ok queue) :
      Step s (.delivered id)
        { s.goto id (if delivery.acknowledged then .leaving true else .acknowledging delivery) with queue }
  | acknowledged {s : State} {id : TaskId} {delivery : Delivery} (alive : s.dead id = false)
      (pc : s.pc id = .acknowledging delivery) :
      Step s (.acknowledged id)
        ((s.append (tasks id).matter_id (tasks id).run_id
          (.other (.run_enqueued delivery.item.item_id delivery.payload_sha256))).goto id (.leaving true))
  -- also where a call of the operating system fails
  | raised {s : State} {id : TaskId} (alive : s.dead id = false) (inside : s.pc id ≠ .waiting ∧ s.pc id ≠ .finished) :
      Step s (.raised id) (s.goto id (.leaving false))
  -- a service is done; the lock is removed only by its owner
  | left {s : State} {id : TaskId} (alive : s.dead id = false) (pc : s.pc id = .working ∨ ∃ returns, s.pc id = .leaving returns) :
      Step s (.left id)
        { s.goto id .finished with
          locks :=
            if s.locks (tasks id).matter_id = some id then Function.update s.locks (tasks id).matter_id none else s.locks }
  | died {s : State} {id : TaskId} (alive : s.dead id = false) :
      Step s (.died id) { s with dead := Function.update s.dead id true }
  | noted {s : State} {matter_id : MatterId} {run_id : RunId} {event : JournalEvent} (other : own_event event = false)
      (still : moves_status event = false) :
      Step s (.noted matter_id run_id event) (s.append matter_id run_id (.other event))
  | produced {s : State} {work : Work} {now : Time} {queue : List QueueItem}
      (ensured : Queue.ensure_enqueued s.queue (work.create now) = .ok queue) : Step s (.produced work now) { s with queue }
  | worked {s : State} {op : WorkerOp} : Step s (.worked op) { s with queue := op.perform s.queue }

end Outbox

end MootLoop
