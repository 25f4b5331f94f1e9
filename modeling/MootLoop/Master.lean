import MootLoop.GateLedger

/-! The court master and the masters of the served sets, rendered from the operative drafts. -/

namespace MootLoop
open Durable

variable (x : Externals)

def REASONABLE_INQUIRY : String :=
  "Responding party has made reasonable inquiry and the information known or readily obtainable is insufficient to enable it to admit or deny."

def RFA_DISPOSITION_LABEL : RfaDisposition → String
  | .admits => "Admitted."
  | .deny => "Denied."
  | .qualify => "Admitted in part and denied in part."
  | .lack_of_knowledge => "Responding party can neither admit nor deny."

/-! ### Chrome -/

/-- Our side and the opposing side, title-cased. -/
def side_labels (matter : MatterConfig) : Except Error (String × String) :=
  match matter.caption, matter.our_side with
  | some _, some .defendant => .ok ("Defendant", "Plaintiff")
  | some _, some .plaintiff => .ok ("Plaintiff", "Defendant")
  | _, _ => .error (.value "discovery export requires a litigation matter")

/-- The names of the parties in a role, or a placeholder. -/
def party_line (matter : MatterConfig) (role : PartyRole) (placeholder : String) : String :=
  match (matter.parties.filter (·.role = role)).map (·.name) with
  | [] => placeholder
  | names => ", ".intercalate names

def caption_block (matter : MatterConfig) : Except Error (List String) :=
  match matter.caption with
  | none => .error (.value "court caption requires a litigation matter")
  | some cap => .ok (
    [s!"STATE OF {x.upper matter.state}", s!"COUNTY OF {x.upper cap.county}", "", cap.court_name, "",
     party_line matter .plaintiff "[Plaintiff]" ++ ",", "", "> Plaintiff,", "", "v.", "",
     party_line matter .defendant "[Defendant]" ++ ",", "", "> Defendant.", "",
     s!"Case No. {cap.case_number}"] ++
    match cap.judge_name with
    | none | some "" => []
    | some judge_name => [s!"Judge: {judge_name}"])

def document_title (matter : MatterConfig) (request_set : RequestSet) : Except Error String := do
  let (ours, _) ← side_labels matter
  return s!"{x.upper ours}'S RESPONSES AND OBJECTIONS TO {x.upper request_set.title}"

def signature_block (matter : MatterConfig) : Except Error (List String) := do
  let attorney := matter.attorney.getD { name := "[ATTORNEY NAME]" }
  let contact := " · ".intercalate ([attorney.phone, attorney.email].filter (· ≠ ""))
  let (ours, _) ← side_labels matter
  return ["## Signature", "", "Respectfully submitted,", "", attorney.name] ++
    (if attorney.bar_number = "" then [] else [s!"Attorney Registration No. {attorney.bar_number}"]) ++
    [attorney.firm, attorney.address].filter (· ≠ "") ++
    (if contact = "" then [] else [contact]) ++ ["", s!"Attorney for {ours}"]

def certificate_of_service (matter : MatterConfig) : Except Error (List String) := do
  let (_, theirs) ← side_labels matter
  return ["## Certificate of Service", "",
    s!"The undersigned certifies that a true and correct copy of the foregoing was served upon counsel for {theirs} by the method agreed among the parties on the date set forth below.",
    "", "Dated: ____________________", "", "_______________________________"]

/-! ### Response blocks -/

def objection_lines (draft : DraftOutput) : List String :=
  draft.objections.map fun objection => s!"OBJECTION ({objection.basis}): {objection.text}"

def response_opener (request_id : RequestId) : String := "::: \x7b#resp-" ++ request_id ++ "\x7d"

/-- One request with its response; the restatement comes first. -/
def response_block (request : RequestItem) (draft : Option DraftOutput) (request_type : RequestType) : List String :=
  [response_opener request.request_id,
   s!"**{marker_label request_type} NO. {request.number}:** {strip request.text}", ""] ++
  match draft with
  | none => ["**RESPONSE:** _no response drafted_", "", ":::"]
  | some draft =>
    (if request_type = .rfa then
      let narrative := strip draft.response_text
      let response :=
        match draft.rfa_disposition with
        | some disposition => RFA_DISPOSITION_LABEL disposition ++ "\n\n" ++ narrative
        | none => narrative
      [s!"**RESPONSE:** {response}"] ++
      (if draft.rfa_disposition = some .lack_of_knowledge then ["", REASONABLE_INQUIRY] else []) ++
      (objection_lines draft).flatMap fun line => ["", line]
    else
      ((objection_lines draft).flatMap fun line => [line, ""]) ++
      [s!"**RESPONSE:** {strip draft.response_text}"]) ++ ["", ":::"]

/-- The top-level requests of a set, by number. -/
def set_requests (request_set : RequestSet) : List RequestItem :=
  (request_set.items.filter (·.subpart = none)).insertionSort fun a b => a.number ≤ b.number

/-- The title and the response blocks of one served set. -/
def set_body (matter : MatterConfig) (request_set : RequestSet) (drafts : List (RequestId × Option DraftOutput))
    (review_warnings : List String) : Except Error (List String) := do
  let title ← document_title x matter request_set
  return [s!"# {title}", ""] ++ (review_warnings.flatMap fun warning => [warning, ""]) ++
    (set_requests request_set).flatMap fun item =>
      response_block item (drafts.lookup item.request_id).join request_set.request_type ++ [""]

def review_warnings (decisions : List Decision) (drafts : List (RequestId × Option DraftOutput)) : List String :=
  (decision_revision_requirements decisions drafts).map fun revision =>
    s!"**DRAFT — revised response required:** {revision.2}"

/-- The lines as a file: joined, with one final line feed. -/
def file_of (lines : List String) : String :=
  String.ofList (rstrip_by (· = '\n') ("\n".intercalate lines).toList ++ ['\n'])

/-! ### Masters -/

def set_label (request_set : RequestSet) : String := s!"{type_code request_set.request_type}-set{request_set.set_number}"

/-- The markdown master of one served set. -/
def set_master (v : Vault) (context : RunContext) (now : String) (request_set : RequestSet) : Except Error String := do
  let drafts ← drafts_by_request context v.state
  let warnings := review_warnings (folded_decisions v.decisions).values drafts
  let body ← set_body x context.matter request_set drafts warnings
  return file_of ((← caption_block x context.matter) ++ ["", s!"_Run `{context.run_id}` · generated {now}_", ""] ++
    body ++ (← signature_block context.matter) ++ [""] ++ (← certificate_of_service context.matter))

/-- The court-formatted master of every served set. -/
def court_master (v : Vault) (context : RunContext) (now : String) : Except Error String := do
  let drafts ← drafts_by_request context v.state
  let warnings := review_warnings (folded_decisions v.decisions).values drafts
  let bodies ← context.request_sets.mapM fun request_set => set_body x context.matter request_set drafts warnings
  return file_of ((← caption_block x context.matter) ++ ["", s!"_Generated {now} · run `{context.run_id}`_", ""] ++
    bodies.flatten ++ (← signature_block context.matter) ++ [""] ++ (← certificate_of_service context.matter) ++ [""])

/-- The master of a document task: every unit with its reviewed draft. -/
def document_master (v : Vault) (context : RunContext) (now : String) : Except Error String := do
  let drafts ← drafts_by_request context v.state
  let units := if context.config.input_family = .document then context.document_units else []
  let lines :=
    [s!"# {context.task} — draft work product", "",
     "**DRAFT — attorney review required. Not approved for filing or reliance.**", "",
     s!"_Generated {now} · run `{context.run_id}`_", ""] ++
    units.flatMap fun unit =>
      [response_opener unit.unit_id, s!"## {unit.title}", "",
       ((drafts.lookup unit.unit_id).join.map (·.response_text)).getD "_no document drafted_", "", ":::", ""]
  return String.ofList (rstrip_by isSpace ("\n".intercalate lines).toList ++ ['\n'])

/-- `build_court_master`: writes `master.md`. -/
def build_court_master (context : RunContext) (now : String) : VaultM Unit := do
  let v ← Prog.read
  let text ← Prog.lift (if context.config.input_family = .document then document_master v context now
    else court_master x v context now)
  Prog.write (.deliverable MASTER_PATH text)

def set_master_path (request_set : RequestSet) : String := "sets/" ++ set_label request_set ++ ".md"

/-- `build_set_masters`: writes one file per served set. -/
def build_set_masters (context : RunContext) (now : String) : VaultM Unit :=
  Prog.forEach context.request_sets fun request_set => do
    let text ← Prog.lift (set_master x (← Prog.read) context now request_set)
    Prog.write (.deliverable (set_master_path request_set) text)

end MootLoop
