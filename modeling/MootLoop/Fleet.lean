import MootLoop.Queue
import MootLoop.Lib.Dict
import MootLoop.Lib.Transition
import Mathlib.Logic.Function.Basic

/-! The workers that share one queue: `run_once` as steps that interleave with the other workers', each step one
    operation on the queue or on a heartbeat file. The clock is shared and never goes back; a worker acts on its
    last reading of it, which may be old. -/

namespace MootLoop
open Transition

/-- The constructor arguments of a worker that its ticks read. -/
structure WorkerConfig where
  visibility_timeout : Time := seconds 300
  resume_delay : Time := seconds 900
  backoff : Time := seconds 30
  stale_threshold : Time := seconds 900
  max_attempts : Nat := 5
  bound_matter_id : Option MatterId := none
  deriving DecidableEq, Repr

/-- A claimed item under way: the tick's frozen time, the last reading of `now_fn` that no heartbeat has used yet,
    and whether a heartbeat has found the lease gone. -/
structure Drain where
  item : QueueItem
  now : Time
  reading : Option Time
  lost : Bool
  deriving DecidableEq, Repr

/-- Where a worker process stands. -/
inductive FleetPhase where
  | off
  | idle
  | writing (now : Time)
  | reclaiming (now : Time) (others : List WorkerId)
  | releasing (now : Time) (other : WorkerId) (others : List WorkerId)
  | claiming (now : Time)
  | draining (drain : Drain)
  deriving DecidableEq, Repr

/-- A worker: whether it has reclaimed already, where it stands, and the leases it was granted and has not given
    back, which it knows but no step reads. -/
structure FleetWorker where
  reclaimed : Bool
  phase : FleetPhase
  leases : String → Option Time

/-- The queue, the heartbeat files (one without a value cannot be parsed), the workers and the clock. -/
structure Fleet where
  clock : Time
  queue : List QueueItem
  heartbeats : Dict WorkerId (Option Time)
  workers : WorkerId → FleetWorker

def FleetWorker.stopped : FleetWorker := ⟨false, .off, fun _ => none⟩

/-- No work queued and no process up. -/
def Fleet.start (clock : Time) : Fleet := ⟨clock, [], ∅, fun _ => .stopped⟩

namespace Fleet

def setWorker (s : Fleet) (worker_id : WorkerId) (worker : FleetWorker) : Fleet :=
  { s with workers := Function.update s.workers worker_id worker }

def setPhase (s : Fleet) (worker_id : WorkerId) (phase : FleetPhase) : Fleet :=
  s.setWorker worker_id { s.workers worker_id with phase }

def markReclaimed (s : Fleet) (worker_id : WorkerId) : Fleet :=
  s.setWorker worker_id { s.workers worker_id with reclaimed := true }

def setQueue (s : Fleet) (queue : List QueueItem) : Fleet := { s with queue }

def setHeartbeat (s : Fleet) (worker_id : WorkerId) (ts : Option Time) : Fleet :=
  { s with heartbeats := s.heartbeats.insert worker_id ts }

/-- The worker's lease on an item, from now on. -/
def setLease (s : Fleet) (worker_id : WorkerId) (item_id : String) (lease : Option Time) : Fleet :=
  s.setWorker worker_id
    { s.workers worker_id with leases := Function.update (s.workers worker_id).leases item_id lease }

end Fleet

/-- How `_process` ends: the work is done (or finished for good), a shutdown was asked for, the provider had no
    seat, the drain failed, or it returned without touching the queue. -/
inductive DrainEnd where
  | completed
  | shutdown
  | capacity
  | failed
  | left
  deriving DecidableEq, Repr

/-- What the worker does to the queue as its drain ends. -/
def Drain.close (config : WorkerConfig) (worker_id : WorkerId) (drain : Drain) (queue : List QueueItem) :
    DrainEnd → Option (List QueueItem)
  | .completed => Queue.complete queue drain.item.item_id worker_id
  | .shutdown => Queue.release queue drain.item.item_id worker_id none true
  | .capacity => Queue.release queue drain.item.item_id worker_id (some (drain.now + config.resume_delay)) true
  | .failed =>
    if drain.item.attempts < config.max_attempts then
      Queue.release queue drain.item.item_id worker_id (some (drain.now + config.backoff)) false
    else Queue.complete queue drain.item.item_id worker_id
  | .left => none

/-- A lost lease ends the drain without a word to the queue; a citation check also leaves that way when the run is
    locked. -/
def Drain.may_end (drain : Drain) : DrainEnd → Bool
  | .left => drain.lost || drain.item.kind == .citation_propositions
  | .shutdown | .capacity => !drain.lost && drain.item.kind == .run_turn
  | .completed | .failed => !drain.lost

/-- One step of the fleet: the clock, a producer of work, or a worker process. -/
inductive FleetAct where
  | tick (elapsed : Time)
  | ensure_enqueued (work : Work) (now : Time)
  | boot (worker_id : WorkerId)
  | crash (worker_id : WorkerId)
  | run_once (worker_id : WorkerId)
  | write_heartbeat (worker_id : WorkerId)
  | inspect (worker_id : WorkerId)
  | release_all_claimed_by (worker_id : WorkerId)
  | claim (worker_id : WorkerId)
  | now_fn (worker_id : WorkerId)
  | heartbeat (worker_id : WorkerId)
  | finish (worker_id : WorkerId) (how : DrainEnd)
  deriving DecidableEq, Repr

variable (config : WorkerId → WorkerConfig)

namespace Fleet

/-- The item the worker's next claim takes. -/
def takes (s : Fleet) (worker_id : WorkerId) : Option (QueueItem × List QueueItem) :=
  match (s.workers worker_id).phase with
  | .claiming now =>
    Queue.claim s.queue worker_id now (config worker_id).visibility_timeout (config worker_id).bound_matter_id
  | _ => none

/-- The reclaim pass reads the next heartbeat file; the worker's items are released next when it is stale. -/
def inspected (s : Fleet) (worker_id : WorkerId) (now : Time) : List WorkerId → Fleet
  | [] => (s.markReclaimed worker_id).setPhase worker_id (.claiming now)
  | other :: others =>
    match s.heartbeats.get? other with
    | some (some ts) =>
      if ts + (config worker_id).stale_threshold < now then s.setPhase worker_id (.releasing now other others)
      else s.setPhase worker_id (.reclaiming now others)
    | _ => s.setPhase worker_id (.reclaiming now others)

/-- The claim that opens a drain. -/
def claimed (s : Fleet) (worker_id : WorkerId) (now : Time) : Fleet :=
  match s.takes config worker_id with
  | none => s.setPhase worker_id .idle
  | some (item, queue) =>
    ((s.setQueue queue).setLease worker_id item.item_id (some item.visible_at)).setPhase worker_id
      (.draining ⟨item, now, none, false⟩)

/-- A heartbeat for the drained item with the time read last. -/
def renewed (s : Fleet) (worker_id : WorkerId) (drain : Drain) (now : Time) : Fleet :=
  let timeout := (config worker_id).visibility_timeout
  match Queue.heartbeat s.queue drain.item.item_id worker_id now timeout with
  | none => s.setPhase worker_id (.draining { drain with reading := none, lost := true })
  | some queue =>
    ((s.setQueue queue).setLease worker_id drain.item.item_id (some (now + timeout))).setPhase worker_id
      (.draining { drain with reading := none })

/-- The end of a drain; what it did not give back stays leased. -/
def finished (s : Fleet) (worker_id : WorkerId) (drain : Drain) (how : DrainEnd) : Fleet :=
  match drain.close (config worker_id) worker_id s.queue how with
  | none => s.setPhase worker_id .idle
  | some queue => ((s.setQueue queue).setLease worker_id drain.item.item_id none).setPhase worker_id .idle

/-- The state after an action, when it can be taken. -/
def step (s : Fleet) : FleetAct → Option Fleet
  | .tick elapsed => some { s with clock := s.clock + elapsed }
  | .ensure_enqueued work now => (Queue.ensure_enqueued s.queue (work.create now)).toOption.map s.setQueue
  | .boot w => if (s.workers w).phase = .off then some (s.setWorker w ⟨false, .idle, fun _ => none⟩) else none
  | .crash w => some (s.setWorker w .stopped)
  | .run_once w =>
    -- `write_text` opens the file anew: until the text is there the file cannot be parsed
    if (s.workers w).phase = .idle then some ((s.setHeartbeat w none).setPhase w (.writing s.clock)) else none
  | .write_heartbeat w =>
    match (s.workers w).phase with
    | .writing now =>
      some ((s.setHeartbeat w (some now)).setPhase w
        (if (s.workers w).reclaimed then .claiming now
         else .reclaiming now (s.heartbeats.keys.filter (· ≠ w))))
    | _ => none
  | .inspect w =>
    match (s.workers w).phase with
    | .reclaiming now others => some (s.inspected config w now others)
    | _ => none
  | .release_all_claimed_by w =>
    match (s.workers w).phase with
    | .releasing now other others =>
      some ((s.setQueue (Queue.release_all_claimed_by s.queue other).1).setPhase w (.reclaiming now others))
    | _ => none
  | .claim w =>
    match (s.workers w).phase with
    | .claiming now => some (s.claimed config w now)
    | _ => none
  | .now_fn w =>
    match (s.workers w).phase with
    | .draining drain =>
      if drain.lost then none else some (s.setPhase w (.draining { drain with reading := some s.clock }))
    | _ => none
  | .heartbeat w =>
    match (s.workers w).phase with
    | .draining drain => drain.reading.map (s.renewed config w drain)
    | _ => none
  | .finish w how =>
    match (s.workers w).phase with
    | .draining drain => if drain.may_end how then some (s.finished config w drain how) else none
    | _ => none

def Step (s : Fleet) (act : FleetAct) (s' : Fleet) : Prop := s.step config act = some s'

/-- A run of the fleet from an empty queue with every worker down. -/
def Reaches (clock : Time) (trace : List FleetAct) (s : Fleet) : Prop := Run (Step config) (start clock) trace s

end Fleet
end MootLoop
