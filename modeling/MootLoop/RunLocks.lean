import MootLoop.VaultFiles
import MootLoop.Lib.Transition

/-! The run lock under any number of processes: every `RunLock` object with the point its method is at, the lock file,
    and the `flock` on the runs directory. A process may die between any two steps, which frees its `flock`. -/

namespace MootLoop

namespace RunLocks

abbrev ProcessId := Nat
abbrev LockId := Nat

/-- A process of its host; its pid may be used again once it is dead. -/
structure Host where
  hostname : String
  pid : Int
  deriving DecidableEq, Repr

/-- What a `RunLock` is made with. -/
structure Config where
  process : ProcessId
  run_id : String
  heartbeat_threshold : Int := DEFAULT_HEARTBEAT_THRESHOLD
  override : Bool := false
  deriving DecidableEq, Repr

/-- The lock file as `_read` sees it. -/
inductive LockFile where
  | unreadable
  | record (existing : LockRecord)
  deriving DecidableEq, Repr

def LockFile.read : LockFile → Option LockRecord
  | .unreadable => none
  | .record existing => some existing

/-- A method at work, with the time `acquire` started at. -/
inductive Call where
  | acquire (started : Instant)
  | heartbeat
  | release
  deriving DecidableEq, Repr

/-- Where an object is in its method, with the method's local values. Between `locked` and `leaving` it has the
    `flock`. -/
inductive Pc where
  | idle
  | entering (call : Call)
  | locked (call : Call)
  /-- `acquire` found a lock file. -/
  | existing (started : Instant)
  | judging (started : Instant) (existing : LockRecord)
  /-- About to replace the lock file, with the `started_at` it writes. -/
  | writing (call : Call) (started_at : Instant)
  | unlinking
  /-- Done, or about to raise. -/
  | leaving (call : Call) (done : Bool)
  deriving DecidableEq, Repr

def Pc.inside : Pc → Bool
  | .idle | .entering _ => false
  | _ => true

def Pc.call : Pc → Option Call
  | .idle => none
  | .entering call | .locked call | .writing call _ | .leaving call _ => some call
  | .existing started | .judging started _ => some (.acquire started)
  | .unlinking => some .release

inductive Life where
  | unborn
  | alive
  | dead
  deriving DecidableEq, Repr

structure State where
  file : Option LockFile
  /-- Who has the `flock`. -/
  flock : Option LockId
  life : ProcessId → Life
  acquired : LockId → Bool
  token : LockId → Option String
  pc : LockId → Pc
  /-- The tokens drawn so far. -/
  drawn : List (LockId × String)

/-- No method was called yet, and the lock file, if there is one, is not readable. -/
structure Initial (s : State) : Prop where
  file : s.file = none ∨ s.file = some .unreadable
  flock : s.flock = none
  token : ∀ id, s.token id = none
  pc : ∀ id, s.pc id = .idle
  drawn : s.drawn = []

/-! ### Decisions -/

/-- `_heartbeat_stale`. -/
def heartbeat_stale (threshold : Int) (now : Instant) (existing : LockRecord) : Bool :=
  match existing.heartbeat_at with
  | none => true
  | some last => threshold < now.micros - last.micros

/-- `_check_takeover`, when `_pid_alive` says `alive`. -/
def check_takeover (hosts : ProcessId → Host) (config : Config) (alive : Bool) (now : Instant) (existing : LockRecord) :
    Except Error Unit :=
  let run := existing.run_id.getD "None"
  let host := existing.hostname.getD "None"
  if existing.hostname ≠ some (hosts config.process).hostname then
    if config.override then .ok ()
    else .error (.lockHeld s!"lock held by run {run} on host {host}; pass override=True to take over a cross-host lock")
  else if alive then
    if heartbeat_stale config.heartbeat_threshold now existing then .ok ()
    else .error (.lockHeld s!"lock held by live process pid {existing.pid} (run {run})")
  else .ok ()

/-- `_payload`. -/
def payload (hosts : ProcessId → Host) (config : Config) (token : Option String) (started_at now : Instant) : LockRecord where
  pid := (hosts config.process).pid
  hostname := some (hosts config.process).hostname
  run_id := some config.run_id
  token := token
  started_at := some started_at
  heartbeat_at := some now

/-! ### Steps -/

/-- The steps of processes and of the objects they have. -/
inductive Label where
  | started (process : ProcessId)
  | died (process : ProcessId)
  /-- A method is called; `acquire` draws a token. -/
  | called (id : LockId) (call : Call) (token : String)
  | entered (id : LockId)
  | linked (id : LockId) (now : Instant)
  | existed (id : LockId)
  | read (id : LockId)
  | judged (id : LockId) (alive : Bool) (now : Instant)
  | replaced (id : LockId) (now : Instant)
  | unlinked (id : LockId)
  /-- The operating system refused a call. -/
  | raised (id : LockId)
  | left (id : LockId)
  deriving DecidableEq, Repr

/-- The object whose method takes the step. -/
def Label.id : Label → Option LockId
  | .started _ | .died _ => none
  | .called id _ _ | .entered id | .linked id _ | .existed id | .read id | .judged id _ _ | .replaced id _ | .unlinked id
  | .raised id | .left id => some id

def State.goto (s : State) (id : LockId) (pc : Pc) : State := { s with pc := Function.update s.pc id pc }

/-- The object's fields as the method's return or exception leaves them. -/
def State.return (s : State) (id : LockId) : Call → Bool → State
  | .acquire _, true => { s with acquired := Function.update s.acquired id true }
  | .release, true => { s with acquired := Function.update s.acquired id false, token := Function.update s.token id none }
  | _, _ => s

/-- What a method makes of the lock file that it read. -/
def after_read (config : Config) (token : Option String) (file : Option LockFile) : Pc → Option Pc
  | .existing started =>
    match file.bind LockFile.read with
    | some existing => some (.judging started existing)
    | none => some (if config.override then .writing (.acquire started) started else .leaving (.acquire started) false)
  | .locked .heartbeat =>
    match file.bind LockFile.read with
    | some current =>
      if current.token ≠ token then some (.leaving .heartbeat false)
      else some ((current.started_at.map (.writing .heartbeat)).getD (.leaving .heartbeat false))
    | none => some (.leaving .heartbeat false)
  | .locked .release =>
    match file.bind LockFile.read with
    -- an empty object is no lock of anyone's
    | some current => some (if current ≠ {} ∧ current.token = token then .unlinking else .leaving .release true)
    | none => some (.leaving .release true)
  | _ => none

/-- Goes on after a decision; `acquire` gives up its token when it may not take the lock. -/
def State.proceed (s : State) (id : LockId) : Pc → State
  | .leaving (.acquire started) false =>
    { s.goto id (.leaving (.acquire started) false) with token := Function.update s.token id none }
  | pc => s.goto id pc

/-- An exception, on its way out of the method. -/
def State.raise (s : State) (id : LockId) (call : Call) : State :=
  match s.pc id with
  | .entering _ => s.goto id .idle
  | .judging _ _ => s.proceed id (.leaving call false)
  | _ => s.goto id (.leaving call false)

variable (hosts : ProcessId → Host) (configs : LockId → Config)

/-- `heartbeat` and `release` of an object that has not acquired the lock touch nothing, and are no steps. -/
inductive Step : State → Label → State → Prop
  | started {s : State} {process : ProcessId} (unborn : s.life process = .unborn) :
      Step s (.started process) { s with life := Function.update s.life process .alive }
  | died {s : State} {process : ProcessId} (alive : s.life process = .alive) :
      Step s (.died process)
        { s with
          life := Function.update s.life process .dead
          flock := s.flock.filter fun id => (configs id).process ≠ process }
  | acquire {s : State} {id : LockId} {started : Instant} {token : String} (alive : s.life (configs id).process = .alive)
      (idle : s.pc id = .idle) (fresh : ∀ drawn ∈ s.drawn, drawn.2 ≠ token) :
      Step s (.called id (.acquire started) token)
        { s.goto id (.entering (.acquire started)) with
          token := Function.update s.token id (some token), drawn := s.drawn ++ [(id, token)] }
  | called {s : State} {id : LockId} {call : Call} {token : String} (alive : s.life (configs id).process = .alive)
      (idle : s.pc id = .idle) (acquired : s.acquired id = true) (no_acquire : ∀ started, call ≠ .acquire started) :
      Step s (.called id call token) (s.goto id (.entering call))
  | entered {s : State} {id : LockId} {call : Call} (alive : s.life (configs id).process = .alive)
      (pc : s.pc id = .entering call) (free : s.flock = none) :
      Step s (.entered id) { s.goto id (.locked call) with flock := some id }
  | linked {s : State} {id : LockId} {started now : Instant} (alive : s.life (configs id).process = .alive)
      (pc : s.pc id = .locked (.acquire started)) (absent : s.file = none) :
      Step s (.linked id now)
        { s.goto id (.leaving (.acquire started) true) with
          file := some (.record (payload hosts (configs id) (s.token id) started now)) }
  | existed {s : State} {id : LockId} {started : Instant} {file : LockFile} (alive : s.life (configs id).process = .alive)
      (pc : s.pc id = .locked (.acquire started)) (present : s.file = some file) :
      Step s (.existed id) (s.goto id (.existing started))
  | read {s : State} {id : LockId} {pc : Pc} (alive : s.life (configs id).process = .alive)
      (next : after_read (configs id) (s.token id) s.file (s.pc id) = some pc) :
      Step s (.read id) (s.proceed id pc)
  | judged {s : State} {id : LockId} {started : Instant} {existing : LockRecord} {alive : Bool} {now : Instant}
      (living : s.life (configs id).process = .alive) (pc : s.pc id = .judging started existing)
      -- the system says that there is no such process only when there is none
      (known : alive = false → ∀ process, s.life process = .alive →
        hosts process ≠ ⟨(hosts (configs id).process).hostname, existing.pid⟩) :
      Step s (.judged id alive now) (s.proceed id
        (match check_takeover hosts (configs id) alive now existing with
          | .ok () => .writing (.acquire started) started
          | .error _ => .leaving (.acquire started) false))
  | replaced {s : State} {id : LockId} {call : Call} {started_at now : Instant}
      (alive : s.life (configs id).process = .alive) (pc : s.pc id = .writing call started_at) :
      Step s (.replaced id now)
        { s.goto id (.leaving call true) with
          file := some (.record (payload hosts (configs id) (s.token id) started_at now)) }
  | unlinked {s : State} {id : LockId} (alive : s.life (configs id).process = .alive) (pc : s.pc id = .unlinking) :
      Step s (.unlinked id) { s.goto id (.leaving .release true) with file := none }
  | raised {s : State} {id : LockId} {call : Call} (alive : s.life (configs id).process = .alive)
      (pc : (s.pc id).call = some call) :
      Step s (.raised id) (s.raise id call)
  | left {s : State} {id : LockId} {call : Call} {done : Bool} (alive : s.life (configs id).process = .alive)
      (pc : s.pc id = .leaving call done) :
      Step s (.left id) { (s.goto id .idle).return id call done with flock := none }

end RunLocks

end MootLoop
