import MootLoop.System
import Mathlib.Data.List.MinMax
import Mathlib.Data.Prod.Lex

/-! The file queue. Every operation is a read-modify-write of the whole state file under the queue's lock, so it
    is one step from one list of items to the next. Times are microseconds since the epoch. -/

namespace MootLoop

abbrev WorkerId := String
abbrev MatterId := String
abbrev Time := Nat

def seconds (n : Nat) : Time := n * 1000000

inductive Lane where
  | interactive
  | run
  deriving DecidableEq, Repr

/-- Lower drains first. -/
def Lane.priority : Lane → Nat
  | .interactive => 0
  | .run => 1

/-- One unit of driver work as the state file holds it: `visible_at` says from when it can be claimed,
    `claimed_by` who owns it. -/
structure QueueItem extends WorkItem where
  lane : Lane
  matter_id : MatterId
  run_id : RunId
  enqueued_at : Time
  visible_at : Time
  claimed_by : Option WorkerId
  payload : String
  deriving DecidableEq, Repr

def QueueItem.sort_key (item : QueueItem) : Nat ×ₗ Time := toLex (item.lane.priority, item.enqueued_at)

/-- The work its producers queue: a run to drive, a citation check, a judge profile, production suggestions. -/
inductive Work where
  | run_turn (matter_id : MatterId) (run_id : RunId)
  | citation_propositions (matter_id : MatterId) (run_id : RunId)
  | judge_profile (matter_id : MatterId)
  | production_suggestions (matter_id : MatterId) (run_id : RunId)
  deriving DecidableEq, Repr

/-- The deterministic id the producers of the work give its item. -/
def Work.item_id : Work → String
  | .run_turn matter_id run_id => s!"run:{matter_id}:{run_id}"
  | .citation_propositions matter_id run_id => s!"cite:{matter_id}:{run_id}"
  | .judge_profile matter_id => s!"judge-profile:{matter_id}"
  | .production_suggestions matter_id run_id => s!"production:{matter_id}:{run_id}"

/-- `WorkItem.create` as the work's producers call it. -/
def Work.create (now : Time) : Work → QueueItem
  | w@(.run_turn matter_id run_id) => ⟨⟨w.item_id, .run_turn, 0⟩, .run, matter_id, run_id, now, now, none, "{}"⟩
  | w@(.citation_propositions matter_id run_id) =>
    ⟨⟨w.item_id, .citation_propositions, 0⟩, .interactive, matter_id, run_id, now, now, none, "{}"⟩
  | w@(.judge_profile matter_id) =>
    ⟨⟨w.item_id, .judge_profile, 0⟩, .interactive, matter_id, "judge-profile", now, now, none, "{}"⟩
  | w@(.production_suggestions matter_id run_id) =>
    ⟨⟨w.item_id, .production_suggestions, 0⟩, .interactive, matter_id, run_id, now, now, none, "{}"⟩

/-- Rewrites the first element that passes; nothing when none does. -/
def rewrite_first {α : Type} (p : α → Bool) (f : α → α) : List α → Option (List α)
  | [] => none
  | a :: rest => if p a then some (f a :: rest) else (rewrite_first p f rest).map (a :: ·)

namespace Queue

def owned (item_id : String) (worker_id : WorkerId) (item : QueueItem) : Bool :=
  item.item_id == item_id && item.claimed_by == some worker_id

/-- What makes two items of one id the same work. -/
def same_work (a b : QueueItem) : Bool :=
  (a.lane, a.matter_id, a.run_id, a.kind, a.payload) == (b.lane, b.matter_id, b.run_id, b.kind, b.payload)

/-- Ensures exactly one live item with the id. -/
def ensure_enqueued (items : List QueueItem) (item : QueueItem) : Except String (List QueueItem) :=
  match items.filter (·.item_id == item.item_id) with
  | [] => .ok (items ++ [item])
  | [existing] =>
    if same_work existing item then .ok items
    else .error s!"queue item id '{item.item_id}' has conflicting work"
  | _ => .error s!"queue item id '{item.item_id}' is duplicated"

/-- Whether a claim at `now` may take the item. -/
def visible (now : Time) (matter_id : Option MatterId) (item : QueueItem) : Bool :=
  (matter_id.isNone || matter_id == some item.matter_id) && decide (item.visible_at ≤ now)

/-- The item as its claimer gets it. -/
def leased (worker_id : WorkerId) (now visibility_timeout : Time) (item : QueueItem) : QueueItem :=
  { item with
    claimed_by := some worker_id
    attempts := item.attempts + 1
    visible_at := now + visibility_timeout }

/-- Claims the first visible item of the best lane and age. -/
def claim (items : List QueueItem) (worker_id : WorkerId) (now visibility_timeout : Time)
    (matter_id : Option MatterId) : Option (QueueItem × List QueueItem) := do
  let chosen ← (items.filter (visible now matter_id)).argmin QueueItem.sort_key
  let items ← rewrite_first (· == chosen) (leased worker_id now visibility_timeout) items
  pure (leased worker_id now visibility_timeout chosen, items)

/-- Extends the lease of an item the worker still owns. -/
def heartbeat (items : List QueueItem) (item_id : String) (worker_id : WorkerId)
    (now visibility_timeout : Time) : Option (List QueueItem) :=
  rewrite_first (owned item_id worker_id) (fun item => { item with visible_at := now + visibility_timeout }) items

/-- Removes an item the worker owns. -/
def complete (items : List QueueItem) (item_id : String) (worker_id : WorkerId) : Option (List QueueItem) :=
  let kept := items.filter (fun item => !owned item_id worker_id item)
  if kept.length = items.length then none else some kept

/-- Returns an item the worker owns, claimable from `visible_at` on, or at once. -/
def release (items : List QueueItem) (item_id : String) (worker_id : WorkerId) (visible_at : Option Time)
    (refund_attempt : Bool) : Option (List QueueItem) :=
  rewrite_first (owned item_id worker_id)
    (fun item =>
      { item with
        claimed_by := none
        attempts := if refund_attempt then item.attempts - 1 else item.attempts
        visible_at := visible_at.getD 0 })
    items

/-- Frees every item claimed by the worker, and says how many. -/
def release_all_claimed_by (items : List QueueItem) (worker_id : WorkerId) : List QueueItem × Nat :=
  (items.map fun item =>
      if item.claimed_by = some worker_id then { item with claimed_by := none, visible_at := 0 } else item,
    items.countP (·.claimed_by == some worker_id))

end Queue
end MootLoop
