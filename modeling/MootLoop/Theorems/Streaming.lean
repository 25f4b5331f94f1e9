import MootLoop.EventStream
import MootLoop.Theorems.Reads
import MootLoop.Theorems.Planned

/-! What a stream of a run's journal has sent when it ends because the run became terminal. -/

namespace MootLoop
open Lines

variable {format : JournalFormat} {serialize_outbound : JournalEvent → Except Error String} {max_duration started : Rat}
  {polls : List Poll} {poll : Poll} {frames : List Frame}

/-! ### One stream -/

/-- The data frames of a stream, in order. -/
def data_frames (frames : List Frame) : List String :=
  frames.filterMap fun frame => match frame with
    | .data text => some text
    | .keep_alive => none

theorem data_frames_append (a b : List Frame) : data_frames (a ++ b) = data_frames a ++ data_frames b :=
  List.filterMap_append

theorem yield_events_all {events : List JournalEvent} (h : yield_events serialize_outbound events = (frames, none)) :
    events.mapM (format_event serialize_outbound) = .ok (data_frames frames) := by
  induction events generalizing frames with
  | nil =>
    cases h
    rfl
  | cons event events ih =>
    rw [yield_events] at h
    cases text : format_event serialize_outbound event with
    | error e => simp [text] at h
    | ok text' =>
      rcases rest : yield_events serialize_outbound events with ⟨later, failed⟩
      simp only [text, rest, Prod.mk.injEq] at h
      obtain ⟨rfl, rfl⟩ := h
      rw [List.mapM_cons, text, ih rest]
      rfl

/-- A stream that ended on a terminal run sent the events of its tails, one after the other, and found the run
    terminal in the journal of its last poll. -/
theorem sse_sends {offset : Nat} {last_emit : Rat} (ended : sse_run_events format serialize_outbound max_duration started
    offset last_emit polls = (frames, .terminal poll)) :
    ∃ before after events state, polls = before ++ poll :: after ∧
      follow format offset ((before ++ [poll]).map (·.tailed)) = .ok events ∧
      events.mapM (format_event serialize_outbound) = .ok (data_frames frames) ∧
      load_file_state format poll.loaded = .ok state ∧ state.is_terminal = true := by
  induction polls generalizing offset last_emit frames with
  | nil => cases ended
  | cons head polls ih =>
    rw [sse_run_events] at ended
    cases tailed : tail_events format head.tailed offset with
    | error e => simp [tailed] at ended
    | ok read =>
      obtain ⟨events, next⟩ := read
      rcases yielded : yield_events serialize_outbound events with ⟨sent, failed⟩
      cases failed with
      | some e => simp [tailed, yielded] at ended
      | none =>
        cases loaded : load_file_state format head.loaded with
        | error e => simp [tailed, yielded, loaded] at ended
        | ok state =>
          simp only [tailed, yielded, loaded] at ended
          split at ended
          · next terminal =>
            obtain ⟨rfl, same⟩ := Prod.mk.inj ended
            obtain rfl := StreamEnd.terminal.inj same
            refine ⟨[], polls, events, state, rfl, ?_, yield_events_all yielded, loaded, terminal⟩
            simp [follow, tailed, bind, Except.bind, pure, Except.pure]
          · split at ended
            · cases ended
            · obtain ⟨later, last_emit', sends, rest⟩ : ∃ later last_emit',
                  data_frames frames = data_frames sent ++ data_frames later ∧
                  sse_run_events format serialize_outbound max_duration started next last_emit' polls =
                    (later, .terminal poll) := by
                by_cases keep : KEEPALIVE_AFTER ≤ head.now - if events.isEmpty = true then last_emit else head.now
                · simp only [keep, if_true, Prod.mk.injEq] at ended
                  obtain ⟨rfl, at_end⟩ := ended
                  refine ⟨(sse_run_events format serialize_outbound max_duration started next head.now polls).1, head.now,
                    data_frames_append _ _, ?_⟩
                  exact Prod.ext rfl at_end
                · simp only [keep, if_false, Prod.mk.injEq] at ended
                  obtain ⟨rfl, at_end⟩ := ended
                  exact ⟨_, _, data_frames_append _ _, Prod.ext rfl at_end⟩
              obtain ⟨before, after, more, state', rfl, followed, formatted, loaded', terminal⟩ := ih rest
              refine ⟨head :: before, after, events ++ more, state', rfl, ?_, ?_, loaded', terminal⟩
              · simp only [List.cons_append, List.map_cons, follow, tailed, followed, bind, Except.bind]
                rfl
              · rw [List.mapM_append, yield_events_all yielded, formatted, sends]
                rfl

/-! ### The journal under the stream -/

/-- A first tail reads the whole file. -/
theorem tail_whole (file : FileBytes) : tail_events format (some file) 0 = (do
    let events ← fresh_parse format file
    return (events, (committed NEWLINE file).length)) := by
  simpa using @tail_events_eq format [] file (.inl rfl)

/-- The journal file over the polls: each tail comes before the load of the state in the same poll. -/
def Poll.files (polls : List Poll) : List (Option FileBytes) := polls.flatMap fun poll => [poll.tailed, poll.loaded]

/-- An append-only file keeps every line it had at any earlier time. -/
theorem AppendOnly.pairwise {files : List (Option FileBytes)} (kept : AppendOnly files) :
    files.Pairwise fun file later => committed NEWLINE (file.getD []) <+: committed NEWLINE (later.getD []) := by
  have trans : ∀ a b c : Option FileBytes, committed NEWLINE (a.getD []) <+: committed NEWLINE (b.getD []) →
      committed NEWLINE (b.getD []) <+: committed NEWLINE (c.getD []) →
      committed NEWLINE (a.getD []) <+: committed NEWLINE (c.getD []) := fun _ _ _ h h' => h.trans h'
  have : IsTrans (Option FileBytes) fun file later =>
      committed NEWLINE (file.getD []) <+: committed NEWLINE (later.getD []) := ⟨trans⟩
  exact List.isChain_iff_pairwise.mp kept

theorem AppendOnly.sublist {files part : List (Option FileBytes)} (kept : AppendOnly files) (sub : part.Sublist files) :
    AppendOnly part :=
  (kept.pairwise.sublist sub).isChain

theorem tails_sublist (polls : List Poll) : (polls.map (·.tailed)).Sublist (Poll.files polls) := by
  induction polls with
  | nil => exact .slnil
  | cons poll polls ih => exact .cons_cons _ (.cons _ ih)

/-- What a longer file parses to extends what a shorter one does. -/
theorem fresh_parse_grows {file later : FileBytes} {read journal : List JournalEvent}
    (grows : committed NEWLINE file <+: committed NEWLINE later) (here : fresh_parse format file = .ok read)
    (there : fresh_parse format later = .ok journal) : read <+: journal := by
  obtain ⟨rest, grown⟩ := grows
  rw [← fresh_parse_committed, ← grown, fresh_parse_append (committed_terminated _), fresh_parse_committed, here] at there
  obtain ⟨_, same, there⟩ := bind_ok there
  cases same
  obtain ⟨more, -, there⟩ := bind_ok there
  cases there
  exact List.prefix_append read more

/-- The events up to and including the one that made the run terminal: it stays so until the end of the journal. -/
structure MadeTerminal (journal upto : List JournalEvent) : Prop where
  initial : upto <+: journal
  terminal : ∀ later, upto <+: later → later <+: journal → (fold later).is_terminal = true
  made : ∀ before event, upto = before ++ [event] → (fold before).is_terminal = false

/-- At most one event made a run terminal. -/
theorem MadeTerminal.unique {journal upto upto' : List JournalEvent} (h : MadeTerminal journal upto)
    (h' : MadeTerminal journal upto') (le : upto.length ≤ upto'.length) : upto = upto' := by
  obtain ⟨rest, rfl⟩ := List.prefix_of_prefix_length_le h.initial h'.initial le
  rcases List.eq_nil_or_concat' rest with rfl | ⟨front, event, rfl⟩
  · rw [List.append_nil]
  · have shorter : upto ++ front <+: journal := by
      refine List.IsPrefix.trans ?_ h'.initial
      exact ⟨[event], by simp⟩
    have still := h.terminal (upto ++ front) (List.prefix_append _ _) shorter
    have not_yet := h'.made (upto ++ front) event (by simp)
    rw [still] at not_yet
    cases not_yet

/-- The data frames are the journal's events, up to and including the event that made the run terminal. -/
def Complete (format : JournalFormat) (serialize_outbound : JournalEvent → Except Error String) (poll : Poll)
    (frames : List Frame) : Prop :=
  ∃ journal upto, fresh_parse format (poll.loaded.getD []) = .ok journal ∧ MadeTerminal journal upto ∧
    upto.mapM (format_event serialize_outbound) = .ok (data_frames frames)

/-- No append comes between: the tail of the last poll ends with the event that made the run terminal, and what was
    appended before the state was loaded left it terminal. -/
def NoAppendBetween (format : JournalFormat) (poll : Poll) : Prop :=
  ∃ before event between, fresh_parse format (poll.tailed.getD []) = .ok (before ++ [event]) ∧
    fresh_parse format (poll.loaded.getD []) = .ok (before ++ [event] ++ between) ∧
    (fold before).is_terminal = false ∧
    ∀ appended, appended <+: between → (fold (before ++ [event] ++ appended)).is_terminal = true

/-- A stream that ends because the run became terminal has sent the journal up to and including the event that made it
    so, each event once and in order, if and only if that event was the last one its last tail read, and what was
    appended between that tail and the load of the state left the run terminal. -/
theorem sse_complete_iff (kept : AppendOnly (Poll.files polls))
    (ended : sse_run_events format serialize_outbound max_duration started 0 started polls = (frames, .terminal poll)) :
    Complete format serialize_outbound poll frames ↔ NoAppendBetween format poll := by
  obtain ⟨before, after, read, state, rfl, followed, formatted, loaded, terminal⟩ := sse_sends ended
  have tails : AppendOnly ((before ++ [poll]).map (·.tailed)) := by
    refine kept.sublist ((List.Sublist.map _ ?_).trans (tails_sublist _))
    exact List.Sublist.append_left (.cons_cons _ (List.nil_sublist _)) before
  have tailed : fresh_parse format (poll.tailed.getD []) = .ok read := by
    rw [follow_whole tails] at followed
    simpa using followed
  have pair : AppendOnly [poll.tailed, poll.loaded] := by
    refine kept.sublist ?_
    simp only [Poll.files, List.flatMap_append, List.flatMap_cons]
    exact (List.sublist_append_left _ _).trans (List.sublist_append_right _ _)
  have grows : committed NEWLINE (poll.tailed.getD []) <+: committed NEWLINE (poll.loaded.getD []) :=
    (List.isChain_cons_cons.mp pair).1
  obtain ⟨journal, parsed, same⟩ := bind_ok loaded
  obtain rfl : fold journal = state := by injection same
  have extends_read : read <+: journal := fresh_parse_grows grows tailed parsed
  have sent : read.length = (data_frames frames).length := (Walk.forall₂_of_mapM formatted).length_eq
  constructor
  · rintro ⟨journal', upto, parsed', made, formatted'⟩
    obtain rfl : journal = journal' := by rw [parsed] at parsed'; injection parsed'
    have length : upto.length = read.length := (Walk.forall₂_of_mapM formatted').length_eq.trans sent.symm
    obtain rfl : upto = read := (List.prefix_of_prefix_length_le made.initial extends_read length.le).eq_of_length length
    obtain ⟨between, rfl⟩ := extends_read
    have nonempty : upto ≠ [] := by
      rintro rfl
      exact absurd (made.terminal [] List.prefix_rfl List.nil_prefix) (by decide)
    obtain ⟨front, event, rfl⟩ := (List.eq_nil_or_concat' upto).resolve_left nonempty
    refine ⟨front, event, between, tailed, parsed, made.made front event rfl, fun appended initial => ?_⟩
    exact made.terminal _ (List.prefix_append _ _) (List.prefix_append_right_inj _ |>.mpr initial)
  · rintro ⟨front, event, between, tailed', parsed', unfinished, terminal'⟩
    obtain rfl : read = front ++ [event] := by rw [tailed] at tailed'; injection tailed'
    obtain rfl : journal = front ++ [event] ++ between := by rw [parsed] at parsed'; injection parsed'
    refine ⟨_, front ++ [event], parsed, ⟨List.prefix_append _ _, ?_, ?_⟩, formatted⟩
    · rintro later ⟨appended, rfl⟩ initial
      exact terminal' appended ((List.prefix_append_right_inj _).mp initial)
    · intro before' event' split
      obtain ⟨rfl, -⟩ := List.append_inj' split rfl
      exact unfinished

namespace Sample

/-- A journal in which a line `a` is a resume and a line `b` the finish. -/
def short_format : JournalFormat where
  sha256 := latin1
  validate_json line :=
    if line = [97] then .ok .run_resumed
    else if line = [98] then .ok (.run_finished .finished)
    else .error (.validation "event")

def outbound : JournalEvent → Except Error String
  | .run_resumed => .ok "\x7b\"type\":\"run_resumed\"\x7d"
  | _ => .ok "\x7b\"type\":\"run_finished\"\x7d"

/-- A poll between whose two reads nothing is appended. -/
def quiet_poll : Poll := { tailed := some [97, 10, 98, 10], now := 0, loaded := some [97, 10, 98, 10] }

/-- A poll between whose two reads the run finishes. -/
def racing_poll : Poll := { tailed := some [97, 10], now := 0, loaded := some [97, 10, 98, 10] }

def resumed_frame : String := "data: \x7b\"type\":\"run_resumed\"\x7d\n\n"
def finished_frame : String := "data: \x7b\"type\":\"run_finished\"\x7d\n\n"

theorem one_line_parsed : fresh_parse short_format [97, 10] = .ok [.run_resumed] := rfl
theorem two_lines_parsed : fresh_parse short_format [97, 10, 98, 10] = .ok [.run_resumed, .run_finished .finished] := rfl

theorem two_lines_state :
    load_file_state short_format (some [97, 10, 98, 10]) = .ok (fold [.run_resumed, .run_finished .finished]) := by
  rw [load_file_state, Option.getD_some, two_lines_parsed]
  rfl

theorem finished_terminal : (fold [.run_resumed, .run_finished .finished]).is_terminal = true := by decide

theorem quiet_poll_ends : sse_run_events short_format outbound 30 0 0 0 [quiet_poll] =
    ([.data resumed_frame, .data finished_frame], .terminal quiet_poll) := by
  simp only [sse_run_events, quiet_poll, tail_whole, two_lines_parsed, two_lines_state, bind, Except.bind, pure,
    Except.pure, yield_events, format_event, outbound, finished_terminal, if_true]
  rfl

theorem racing_poll_ends : sse_run_events short_format outbound 30 0 0 0 [racing_poll] =
    ([.data resumed_frame], .terminal racing_poll) := by
  simp only [sse_run_events, racing_poll, tail_whole, one_line_parsed, two_lines_state, bind, Except.bind, pure,
    Except.pure, yield_events, format_event, outbound, finished_terminal, if_true]
  rfl

theorem quiet_poll_complete : Complete short_format outbound quiet_poll [.data resumed_frame, .data finished_frame] := by
  have kept : AppendOnly (Poll.files [quiet_poll]) := List.isChain_pair.mpr List.prefix_rfl
  refine (sse_complete_iff kept quiet_poll_ends).mpr ⟨[.run_resumed], .run_finished .finished, [], ?_, ?_, by decide, ?_⟩
  · exact two_lines_parsed
  · exact two_lines_parsed
  · intro appended initial
    obtain rfl := List.prefix_nil.mp initial
    exact finished_terminal

/-- A run that finishes between the two reads of a poll ends the stream before its last event is sent. -/
theorem finish_between_reads_unsent :
    ¬∀ polls frames poll, AppendOnly (Poll.files polls) →
      sse_run_events short_format outbound 30 0 0 0 polls = (frames, .terminal poll) →
      Complete short_format outbound poll frames := by
  intro claimed
  have kept : AppendOnly (Poll.files [racing_poll]) := List.isChain_pair.mpr (by decide)
  obtain ⟨journal, upto, parsed, made, formatted⟩ := claimed [racing_poll] _ racing_poll kept racing_poll_ends
  have whole : journal = [.run_resumed, .run_finished .finished] := by
    have both := two_lines_parsed.symm.trans parsed
    injection both with same
    exact same.symm
  have length : upto.length = 1 := (Walk.forall₂_of_mapM formatted).length_eq
  obtain ⟨rest, split⟩ := made.initial
  rw [whole] at split
  obtain ⟨event, rfl⟩ := List.length_eq_one_iff.mp length
  obtain ⟨rfl, -⟩ := List.cons.inj split
  exact absurd (made.terminal _ List.prefix_rfl made.initial) (by decide)

end Sample

end MootLoop
