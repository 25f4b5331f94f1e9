import MootLoop.Splitlines
import MootLoop.Timestamps
import MootLoop.Queue

/-! The queue as its state file: one item a line, read with `str.splitlines` and rewritten whole by every operation
    under the queue's lock. Time stamps are text, and the order of claims compares them as text. -/

namespace MootLoop

namespace QueueFile

/-- A work item as its line holds it, with a payload of some type. -/
structure Item (π : Type) where
  item_id : String
  lane : Lane
  matter_id : MatterId
  run_id : RunId
  kind : String
  enqueued_at : String
  visible_at : String
  attempts : Int
  claimed_by : Option String
  payload : π
  deriving DecidableEq, Repr

/-- What the queue takes from outside the repository. -/
structure Format (π : Type) where
  model_dump_json : Item π → List Char
  /-- `WorkItem.model_validate_json`. -/
  validate_json : List Char → Except Error (Item π)
  /-- The strings in a payload. -/
  payload_strings : π → List String

/-- Work to enqueue, as its producers give it. -/
structure NewWork (π : Type) where
  item_id : String
  lane : Lane
  matter_id : MatterId
  run_id : RunId
  kind : String
  now : DateTime
  payload : π
  deriving DecidableEq, Repr

variable {π : Type} [DecidableEq π]

/-- `WorkItem.create`. -/
def NewWork.create (work : NewWork π) : Item π where
  item_id := work.item_id
  lane := work.lane
  matter_id := work.matter_id
  run_id := work.run_id
  kind := work.kind
  enqueued_at := work.now.isoformat
  visible_at := work.now.isoformat
  attempts := 0
  claimed_by := none
  payload := work.payload

def EPOCH_ISO : String := "1970-01-01T00:00:00+00:00"

/-- `_sort_key`. -/
def Item.sort_key (item : Item π) : Nat ×ₗ String := toLex (item.lane.priority, item.enqueued_at)

variable (format : Format π)

/-- `_read`; a file that is not there is empty. -/
def read (file : List Char) : Except Error (List (Item π)) :=
  ((splitlines (normalize_newlines file)).filter fun line => !line.all isSpace).mapM format.validate_json

/-- `_write`. -/
def write (items : List (Item π)) : List Char := items.flatMap fun item => format.model_dump_json item ++ ['\n']

/-! ### Operations

Each gives what it returns and the file it leaves; one that raises leaves the file as it was. A lease end is
`now + timedelta(seconds=visibility_timeout_s)`. -/

def enqueue (file : List Char) (item : Item π) : Except Error (Item π × List Char) := do
  let items ← read format file
  return (item, write format (items ++ [item]))

def same_work (a b : Item π) : Bool :=
  (a.lane, a.matter_id, a.run_id, a.kind, a.payload) = (b.lane, b.matter_id, b.run_id, b.kind, b.payload)

def ensure_enqueued (file : List Char) (item : Item π) : Except Error (Item π × List Char) := do
  let items ← read format file
  match items.filter (·.item_id = item.item_id) with
  | [] => return (item, write format (items ++ [item]))
  | [existing] =>
    if same_work existing item then return (existing, file)
    else throw (.value s!"queue item id '{item.item_id}' has conflicting work")
  | _ => throw (.value s!"queue item id '{item.item_id}' is duplicated")

/-- `datetime.fromisoformat`, of a stamp in the file. -/
def parse (stamp : String) : Except Error DateTime :=
  match fromisoformat stamp with
  | some t => .ok t
  | none => .error (.value s!"Invalid isoformat string: '{stamp}'")

/-- The items a claim may take. -/
def visible_items (now : DateTime) (matter_id : Option MatterId) : List (Item π) → Except Error (List (Item π))
  | [] => .ok []
  | item :: rest =>
    if matter_id = none ∨ matter_id = some item.matter_id then do
      let visible := (← parse item.visible_at) ≤ now
      let rest ← visible_items now matter_id rest
      return if visible then item :: rest else rest
    else visible_items now matter_id rest

/-- What a claim makes of the item it takes. -/
def leased (worker_id : String) (lease_end : DateTime) (item : Item π) : Item π :=
  { item with claimed_by := some worker_id, attempts := item.attempts + 1, visible_at := lease_end.isoformat }

def claim (file : List Char) (worker_id : String) (now lease_end : DateTime) (matter_id : Option MatterId) :
    Except Error (Option (Item π) × List Char) := do
  let items ← read format file
  let visible ← visible_items now matter_id items
  match visible.argmin Item.sort_key with
  | none => return (none, file)
  | some chosen =>
    return (some (leased worker_id lease_end chosen),
      write format ((rewrite_first (· = chosen) (leased worker_id lease_end) items).getD items))

/-- Whether the item is the worker's. -/
def owned (item_id worker_id : String) (item : Item π) : Bool :=
  item.item_id = item_id && item.claimed_by = some worker_id

def heartbeat (file : List Char) (item_id worker_id : String) (lease_end : DateTime) :
    Except Error (Bool × List Char) := do
  let items ← read format file
  match rewrite_first (owned item_id worker_id) (fun item => { item with visible_at := lease_end.isoformat }) items with
  | some items => return (true, write format items)
  | none => return (false, file)

def complete (file : List Char) (item_id worker_id : String) : Except Error (Bool × List Char) := do
  let items ← read format file
  let kept := items.filter fun item => !owned item_id worker_id item
  if kept.length = items.length then return (false, file) else return (true, write format kept)

/-- An owned item given back. -/
def released (visible_at : Option DateTime) (refund_attempt : Bool) (item : Item π) : Item π :=
  { item with
    claimed_by := none
    attempts := if refund_attempt then max 0 (item.attempts - 1) else item.attempts
    visible_at := (visible_at.map (·.isoformat)).getD EPOCH_ISO }

def release (file : List Char) (item_id worker_id : String) (visible_at : Option DateTime) (refund_attempt : Bool) :
    Except Error (Bool × List Char) := do
  let items ← read format file
  match rewrite_first (owned item_id worker_id) (released visible_at refund_attempt) items with
  | some items => return (true, write format items)
  | none => return (false, file)

def release_all_claimed_by (file : List Char) (worker_id : String) : Except Error (Nat × List Char) := do
  let items ← read format file
  let freed := items.countP (·.claimed_by = some worker_id)
  if freed = 0 then return (0, file)
  else
    return (freed, write format (items.map fun item =>
      if item.claimed_by = some worker_id then { item with claimed_by := none, visible_at := EPOCH_ISO } else item))

/-! ### Runs -/

inductive Op (π : Type) where
  | enqueue (work : NewWork π)
  | ensure_enqueued (work : NewWork π)
  | claim (worker_id : String) (now lease_end : DateTime) (matter_id : Option MatterId)
  | heartbeat (item_id worker_id : String) (lease_end : DateTime)
  | complete (item_id worker_id : String)
  | release (item_id worker_id : String) (visible_at : Option DateTime) (refund_attempt : Bool)
  | release_all_claimed_by (worker_id : String)
  deriving DecidableEq, Repr

/-- What an operation returns. -/
inductive Reply (π : Type) where
  | item (item : Option (Item π))
  | done (done : Bool)
  | freed (count : Nat)
  deriving DecidableEq, Repr

def perform (file : List Char) : Op π → Except Error (Reply π × List Char)
  | .enqueue work => (enqueue format file work.create).map fun r => (.item (some r.1), r.2)
  | .ensure_enqueued work => (ensure_enqueued format file work.create).map fun r => (.item (some r.1), r.2)
  | .claim worker_id now lease_end matter_id =>
    (claim format file worker_id now lease_end matter_id).map fun r => (.item r.1, r.2)
  | .heartbeat item_id worker_id lease_end =>
    (heartbeat format file item_id worker_id lease_end).map fun r => (.done r.1, r.2)
  | .complete item_id worker_id => (complete format file item_id worker_id).map fun r => (.done r.1, r.2)
  | .release item_id worker_id visible_at refund_attempt =>
    (release format file item_id worker_id visible_at refund_attempt).map fun r => (.done r.1, r.2)
  | .release_all_claimed_by worker_id => (release_all_claimed_by format file worker_id).map fun r => (.freed r.1, r.2)

/-- What an operation returns, unless it raises, and the file after it. -/
def outcome (file : List Char) (op : Op π) : Option (Reply π) × List Char :=
  match perform format file op with
  | .ok (reply, file) => (some reply, file)
  | .error _ => (none, file)

/-- An operation, with what it returned unless it raised. -/
abbrev Event (π : Type) := Op π × Option (Reply π)

/-- An enqueue uses an id that no live item has. -/
def Op.Fresh (file : List Char) : Op π → Prop
  | .enqueue work => ∀ items, read format file = .ok items → ∀ item ∈ items, item.item_id ≠ work.item_id
  | _ => True

/-- The files that the allowed operations by any workers leave, in whatever order, from the queue that was never
    used. -/
inductive Reaches (allowed : List Char → Op π → Prop) : List (Event π) → List Char → Prop
  | unused : Reaches allowed [] []
  | performed {trace : List (Event π)} {file : List Char} {op : Op π} (earlier : Reaches allowed trace file)
      (allows : allowed file op) :
      Reaches allowed (trace ++ [(op, (outcome format file op).1)]) (outcome format file op).2

/-- How often an item was claimed, and its attempt refunded, since it was enqueued. -/
structure Tally where
  claims : Nat := 0
  refunds : Nat := 0
  deriving DecidableEq, Repr

def Tally.count (item_id : String) (tally : Tally) : Event π → Tally
  | (.claim _ _ _ _, some (.item (some item))) =>
    if item.item_id = item_id then { tally with claims := tally.claims + 1 } else tally
  | (.release released_id _ _ refund_attempt, some (.done true)) =>
    if released_id = item_id ∧ refund_attempt then { tally with refunds := tally.refunds + 1 } else tally
  | (.complete completed_id _, some (.done true)) => if completed_id = item_id then {} else tally
  | _ => tally

def tally (item_id : String) (trace : List (Event π)) : Tally := trace.foldl (Tally.count item_id) {}

end QueueFile

end MootLoop
