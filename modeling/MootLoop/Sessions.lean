import MootLoop.Run
import MootLoop.Lib.Transition

/-! The headless Claude provider: the session key of a turn, the session files of a run, the call of the
    command-line client and the reading of what it prints. Around it stands the client's side, the sessions and
    the turns each of them holds, and the runs of the two together. -/

namespace MootLoop

def PersonaName.value : PersonaName → String
  | .associate => "associate"
  | .partner => "partner"
  | .oc_associate => "oc_associate"
  | .oc_partner => "oc_partner"
  | .judge => "judge"
  | .juror => "juror"
  | .rubric_judge => "rubric_judge"
  | .cite_checker => "cite_checker"

namespace Sessions

/-! ### The session key -/

/-- `_slug`, over `str.lower` and `str.isalnum`. -/
def slug (lower : String → String) (isalnum : Char → Bool) (value : String) : String :=
  let out := (lower value).toList.map fun ch => if isalnum ch then ch else '-'
  let stripped := ((out.dropWhile (· == '-')).reverse.dropWhile (· == '-')).reverse
  if stripped = [] then "none" else String.ofList stripped

/-- An event of the client's `stream-json` output. -/
structure StreamEvent where
  is_result : Bool := false
  is_error : Bool := false
  result : Option String := none
  session_id : Option String := none
  /-- The texts of the tool results inside it that are flagged as errors. -/
  error_tool_results : List String := []
  /-- The tool name of each reported denial. -/
  permission_denials : List String := []
  usage : Option TokenUsage := none
  deriving DecidableEq, Repr

/-- What the provider takes from outside: Python's strings, the secrets registry and the JSON reader. -/
structure Surface where
  lower : String → String
  isalnum : Char → Bool
  redact : String → String
  /-- The payload tripwire: the prompt as it may leave, or the refusal. -/
  scrub_outbound : String → Except String String
  json_events : String → List StreamEvent
  unfence : String → String

variable (x : Surface)

def Surface.slug (value : String) : String := Sessions.slug x.lower x.isalnum value

/-- The request a turn's key names; a missing or empty id is `none`. -/
def request_name (spec : TurnSpec) : String := (spec.request_id.filter (· ≠ "")).getD "none"

/-- `_session_key`. -/
def session_key (spec : TurnSpec) : String := x.slug spec.persona.value ++ "-" ++ x.slug (request_name spec)

/-! ### One call -/

/-- The session files of a run: the session id each key's file holds, if it can be read. -/
abbrev SessionFiles := String → Option String

def load_session_id (files : SessionFiles) (key : String) : Option String := files key

def persist_session_id (files : SessionFiles) (key session_id : String) : SessionFiles :=
  Function.update files key (some session_id)

inductive ProviderError where
  | egress (message : String)
  | seat_limit (message : String)
  | auth (message : String)
  | turn (message : String)
  deriving DecidableEq, Repr

/-- What a call hands the client: the prompt on stdin, the model and the session to resume. -/
structure Call where
  public_prompt : String
  model : Option String
  resume : Option String
  deriving DecidableEq, Repr

/-- How the client's process ended. -/
inductive Process where
  | not_started (detail : String)
  | timed_out
  | exited (returncode : Int) (stdout stderr : String)
  deriving DecidableEq, Repr

def SEAT_SIGNATURES : List String := ["rate limit", "rate_limit", "usage limit", "seat"]
def AUTH_SIGNATURES : List String :=
  ["authentication_failed", "authentication failed", "unauthorized", "invalid api key", "oauth"]
def DENIAL_MARKERS : List String := ["denied by your permission settings", "permission to read"]

def truncate (n : Nat) (text : String) : String := String.ofList (text.toList.take n)

/-- `" ".join(text.split())`. -/
def collapse (text : String) : String :=
  " ".intercalate (((text.toList.splitOnP isSpace).filter (· ≠ [])).map String.ofList)

/-- `_classify`, the failure class a text carries the signature of, else a failed turn. -/
def classify (haystack : String) (otherwise : String) : ProviderError :=
  if SEAT_SIGNATURES.any (isIn · haystack) then .seat_limit "headless Claude hit a seat/rate limit"
  else if AUTH_SIGNATURES.any (isIn · haystack) then .auth "headless Claude authentication failed"
  else .turn otherwise

/-- `_raise_classified`. -/
def raise_classified (stdout stderr : String) (returncode : Int) : ProviderError :=
  classify (x.lower (stdout ++ "\n" ++ stderr))
    s!"headless turn failed (exit {returncode}): {truncate 500 (strip (x.redact stderr))}"

/-- `_final_payload` of a non-empty stream. -/
def final_payload (events : List StreamEvent) : Option StreamEvent :=
  (events.reverse.find? (·.is_result)).or events.getLast?

/-- `_permission_denial`. -/
def permission_denial (events : List StreamEvent) (payload : StreamEvent) : Option String :=
  match (events.flatMap (·.error_tool_results)).find? fun text => DENIAL_MARKERS.any (isIn · (x.lower text)) with
  | some text => some (truncate 200 (x.redact (collapse text)))
  | none =>
    if payload.permission_denials = [] then none
    else some ("the CLI reported permission_denials for " ++
      ", ".intercalate (payload.permission_denials.dedup.mergeSort fun a b => a ≤ b))

/-- `_parse_result`: only an answer taken as work product persists the session it ran under. -/
def parse_result (call_id : String) (events : List StreamEvent) (key : String) (files : SessionFiles) :
    SessionFiles × Except ProviderError RawTurnResult :=
  match final_payload events with
  | none => (files, .error (.turn "headless turn returned unparseable JSON"))
  | some payload =>
    match permission_denial x events payload with
    | some denial => (files, .error (.turn s!"headless turn was denied filesystem access: {denial}"))
    | none =>
      if payload.is_error then
        let detail := (payload.result.map fun reported => truncate 500 (strip (x.redact reported))).getD ""
        (files, .error (classify (x.lower detail) s!"headless turn reported an error: {detail}"))
      else
        match payload.result with
        | none => (files, .error (.turn "headless turn JSON had no 'result' text"))
        | some text =>
          let files := match payload.session_id.filter (· ≠ "") with
            | some session_id => persist_session_id files key session_id
            | none => files
          (files, .ok { text := x.unfence text, usage := payload.usage, provider_call_id := some call_id })

/-- The session a turn's call resumes; an empty id is no `--resume` argument. -/
def resume_id (files : SessionFiles) (spec : TurnSpec) : Option String :=
  (load_session_id files (session_key x spec)).filter (· ≠ "")

/-- `run_turn`, over the subprocess it runs; `timeout_s` as it is shown. -/
def run_turn (timeout_s : String) (files : SessionFiles) (spec : TurnSpec) (prompt : String) (run : Call → Process)
    (call_id : String) : SessionFiles × Except ProviderError RawTurnResult :=
  match x.scrub_outbound prompt with
  | .error refusal => (files, .error (.egress refusal))
  | .ok public_prompt =>
    match run { public_prompt, model := spec.model, resume := resume_id x files spec } with
    | .not_started detail => (files, .error (.turn s!"headless turn could not start: {detail}"))
    | .timed_out => (files, .error (.turn s!"headless turn timed out after {timeout_s}s"))
    | .exited returncode stdout stderr =>
      if returncode ≠ 0 then (files, .error (raise_classified x stdout stderr returncode))
      else parse_result x call_id (x.json_events stdout) (session_key x spec) files

/-! ### The sessions of a run -/

/-- The session files of a run and the client's sessions: the turns run under each session id. -/
structure World where
  files : SessionFiles
  transcripts : String → List TurnSpec

def World.empty : World := ⟨fun _ => none, fun _ => []⟩

/-- The session a turn works in: the one it resumes, else a new one. -/
def World.Opens (w : World) (spec : TurnSpec) (session_id : String) : Prop :=
  match resume_id x w.files spec with
  | some resumed => session_id = resumed
  | none => w.transcripts session_id = []

/-- The turns in the session a turn resumes. -/
def World.resumes (w : World) (spec : TurnSpec) : List TurnSpec := (resume_id x w.files spec).elim [] w.transcripts

/-- A process that names no session but this one. -/
def Process.Names (session_id : String) : Process → Prop
  | .exited _ stdout _ => ∀ event ∈ x.json_events stdout, ∀ named ∈ event.session_id, named = "" ∨ named = session_id
  | _ => True

/-- One call: either the turn ran in a session, which then holds it, or the call failed and no session does. -/
inductive Step (timeout_s : String) (w : World) (spec : TurnSpec) : World → Prop
  | ran {session_id prompt call_id : String} {run : Call → Process} (opens : w.Opens x spec session_id)
      (names : ∀ call, (run call).Names x session_id) :
      Step timeout_s w spec ⟨(run_turn x timeout_s w.files spec prompt run call_id).1,
        Function.update w.transcripts session_id (w.transcripts session_id ++ [spec])⟩
  | unheard {prompt call_id : String} {run : Call → Process}
      (failed : ∀ result, (run_turn x timeout_s w.files spec prompt run call_id).2 ≠ .ok result) :
      Step timeout_s w spec ⟨(run_turn x timeout_s w.files spec prompt run call_id).1, w.transcripts⟩

/-! ### Independence -/

/-- The stages whose turns are the seats of one panel. -/
def PANEL_STAGES : List StageName := [.judge_panel, .narrative_assessment, .jury_panel, .rubric_gate]

/-- `u` is a turn of a request, which is not the request of `t`. -/
def OfAnotherRequest (u t : TurnSpec) : Prop := ∃ request_id ∈ u.request_id, t.request_id ≠ some request_id

/-- `u` and `t` are different seats of one panel. -/
def OtherSeat (u t : TurnSpec) : Prop :=
  t.stage ∈ PANEL_STAGES ∧ u.stage = t.stage ∧ u.request_id = t.request_id ∧ u.turn_id ≠ t.turn_id

/-- Whatever these turns do in this order, no turn resumes a session with a turn of another request or of
    another seat of its panel. -/
def Isolated (timeout_s : String) (turns : List TurnSpec) : Prop :=
  ∀ before spec, before ++ [spec] <+: turns →
    ∀ w, Transition.Run (Step x timeout_s) .empty before w →
      ∀ u ∈ w.resumes x spec, ¬OfAnotherRequest u spec ∧ ¬OtherSeat u spec

end Sessions
end MootLoop
