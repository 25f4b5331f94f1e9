import MootLoop.JournalFile

/-! The server-sent events of a run: the journal polled by tails, one frame for each event, until a poll finds the run
    terminal or the stream has lasted long enough. -/

namespace MootLoop

/-- What the stream sends: an event, or a comment that keeps the connection open. -/
inductive Frame where
  | data (text : String)
  | keep_alive
  deriving DecidableEq, Repr

def KEEPALIVE_AFTER : Rat := 30

/-- One pass of the loop: the journal file as the tail finds it, the time after that, and the file as the state is
    loaded from it. -/
structure Poll where
  tailed : Option FileBytes
  now : Rat
  loaded : Option FileBytes

inductive StreamEnd where
  | polling
  | terminal (poll : Poll)
  | lapsed
  | failed (e : Error)

variable (format : JournalFormat) (serialize_outbound : JournalEvent → Except Error String)

/-- `_format_event`. -/
def format_event (event : JournalEvent) : Except Error String :=
  return "data: " ++ (← serialize_outbound event) ++ "\n\n"

/-- The frames of a batch, up to an event that may not leave. -/
def yield_events : List JournalEvent → List Frame × Option Error
  | [] => ([], none)
  | event :: events =>
    match format_event serialize_outbound event with
    | .error e => ([], some e)
    | .ok text =>
      let (frames, failed) := yield_events events
      (.data text :: frames, failed)

/-- `load_state`, from the bytes the journal has: its cached reader gives what a parse of the whole file does. -/
def load_file_state (file : Option FileBytes) : Except Error RunState :=
  return fold (← fresh_parse format (file.getD []))

/-- `sse_run_events` over the polls it makes: what it sends, and how it stands after them. -/
def sse_run_events (max_duration started : Rat) (offset : Nat) (last_emit : Rat) : List Poll → List Frame × StreamEnd
  | [] => ([], .polling)
  | poll :: polls =>
    match tail_events format poll.tailed offset with
    | .error e => ([], .failed e)
    | .ok (events, offset) =>
      match yield_events serialize_outbound events with
      | (frames, some e) => (frames, .failed e)
      | (frames, none) =>
        let last_emit := if events.isEmpty then last_emit else poll.now
        match load_file_state format poll.loaded with
        | .error e => (frames, .failed e)
        | .ok state =>
          if state.is_terminal then (frames, .terminal poll)
          else if max_duration ≤ poll.now - started then (frames, .lapsed)
          else if KEEPALIVE_AFTER ≤ poll.now - last_emit then
            let (later, ended) := sse_run_events max_duration started offset poll.now polls
            (frames ++ .keep_alive :: later, ended)
          else
            let (later, ended) := sse_run_events max_duration started offset last_emit polls
            (frames ++ later, ended)

end MootLoop
