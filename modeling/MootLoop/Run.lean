import MootLoop.Gates
import MootLoop.Lib.Dict

/-! Run vocabulary: personas, stages, the turn spec handed to a driver, the validated outputs, and
    the record a completed turn folds into. -/

namespace MootLoop

inductive PersonaName where
  | associate
  | partner
  | oc_associate
  | oc_partner
  | judge
  | juror
  | rubric_judge
  | cite_checker
  deriving DecidableEq, Repr, Inhabited

/-- Budget model-mix roles. -/
inductive Role where
  | personas
  | judges
  | rubric
  | cite
  deriving DecidableEq, Repr

def PersonaName.role : PersonaName → Role
  | .associate | .partner | .oc_associate | .oc_partner => .personas
  | .judge | .juror => .judges
  | .rubric_judge => .rubric
  | .cite_checker => .cite

/-- The stages a pipeline may name, and the stage of a citation check. -/
inductive StageName where
  | associate_draft
  | partner_loop
  | oc_attack
  | bolster
  | judge_panel
  | narrative_assessment
  | restructure
  | jury_panel
  | rubric_gate
  | assemble
  | citation_proposition
  deriving DecidableEq, Repr, Inhabited

def StageName.value : StageName → String
  | .associate_draft => "associate_draft"
  | .partner_loop => "partner_loop"
  | .oc_attack => "oc_attack"
  | .bolster => "bolster"
  | .judge_panel => "judge_panel"
  | .narrative_assessment => "narrative_assessment"
  | .restructure => "restructure"
  | .jury_panel => "jury_panel"
  | .rubric_gate => "rubric_gate"
  | .assemble => "assemble"
  | .citation_proposition => "citation_proposition"

inductive SchemaName where
  | draft
  | critique
  | judge
  | narrative_assessment
  | juror
  | rubric_score
  | cite_check
  deriving DecidableEq, Repr, Inhabited

def SchemaName.value : SchemaName → String
  | .draft => "draft"
  | .critique => "critique"
  | .judge => "judge"
  | .narrative_assessment => "narrative_assessment"
  | .juror => "juror"
  | .rubric_score => "rubric_score"
  | .cite_check => "cite_check"

/-! ### Persona outputs -/

structure Objection where
  basis : String
  text : String
  deriving DecidableEq, Repr, Inhabited

inductive RfaDisposition where
  | admits
  | deny
  | qualify
  | lack_of_knowledge
  deriving DecidableEq, Repr

def RfaDisposition.value : RfaDisposition → String
  | .admits => "admit"
  | .deny => "deny"
  | .qualify => "qualify"
  | .lack_of_knowledge => "lack_of_knowledge"

structure DraftOutput where
  response_text : String
  objections : List Objection := []
  candidate_citations : List String := []
  fact_ids_used : List FactId := []
  attorney_gate_items : List String := []
  rfa_disposition : Option RfaDisposition := none
  self_assessment : String
  deriving DecidableEq, Repr, Inhabited

inductive CritiqueVerdict where
  | approve
  | revise
  deriving DecidableEq, Repr

structure CritiqueOutput where
  verdict : CritiqueVerdict
  critiques : List String := []
  instructions : List String := []
  self_assessment : String
  deriving DecidableEq, Repr

structure ObjectionRuling where
  objection_basis : String
  would_objection_survive : Bool
  reasoning : String
  persuasion_notes : String
  deriving DecidableEq, Repr, Inhabited

structure JudgeOutput where
  rulings : List ObjectionRuling := []
  self_assessment : String
  deriving DecidableEq, Repr

inductive NarrativeDisposition where
  | supported
  | revise
  | not_supported
  deriving DecidableEq, Repr

structure NarrativeAssessment where
  disposition : NarrativeDisposition
  reasons : List String
  limitations : List String
  self_assessment : String
  deriving DecidableEq, Repr

structure JurorOutput where
  comprehension_score : Nat
  persuasion_score : Nat
  confusion_points : List String := []
  credibility_concerns : List String := []
  self_assessment : String
  deriving DecidableEq, Repr

structure CriterionScore where
  criterion_id : String
  score : Nat
  evidence : String
  deriving DecidableEq, Repr

structure RubricScoreOutput where
  scores : List CriterionScore := []
  overall_notes : String
  self_assessment : String
  deriving DecidableEq, Repr

inductive CiteCheckStatus where
  | supported
  | unsupported
  | ambiguous
  deriving DecidableEq, Repr

structure CiteCheckOutput where
  status : CiteCheckStatus
  evidence_passage_ids : List String := []
  reasoning : String
  self_assessment : String
  deriving DecidableEq, Repr

/-- A validated persona output, under the schema it was validated by. -/
inductive TurnOutput where
  | draft (output : DraftOutput)
  | critique (output : CritiqueOutput)
  | judge (output : JudgeOutput)
  | narrative (output : NarrativeAssessment)
  | juror (output : JurorOutput)
  | rubric (output : RubricScoreOutput)
  | cite_check (output : CiteCheckOutput)
  deriving DecidableEq, Repr

namespace TurnOutput

def self_assessment : TurnOutput → String
  | .draft o => o.self_assessment
  | .critique o => o.self_assessment
  | .judge o => o.self_assessment
  | .narrative o => o.self_assessment
  | .juror o => o.self_assessment
  | .rubric o => o.self_assessment
  | .cite_check o => o.self_assessment

/-- `DraftOutput.model_validate(record.output)`. -/
def as_draft : TurnOutput → Except Error DraftOutput
  | .draft o => .ok o
  | _ => .error (.validation "DraftOutput")

/-- `JudgeOutput.model_validate(record.output)`. -/
def as_judge : TurnOutput → Except Error JudgeOutput
  | .judge o => .ok o
  | _ => .error (.validation "JudgeOutput")

/-- `RubricScoreOutput.model_validate(record.output)`. -/
def as_rubric : TurnOutput → Except Error RubricScoreOutput
  | .rubric o => .ok o
  | _ => .error (.validation "RubricScoreOutput")

/-- The output read as a critique, for its `verdict` and `instructions` keys. -/
def as_critique : TurnOutput → Except Error CritiqueOutput
  | .critique o => .ok o
  | _ => .error (.validation "CritiqueOutput")

end TurnOutput

/-! ### Specs and records -/

inductive InputFamily where
  | discovery
  | document
  deriving DecidableEq, Repr

/-- One bounded prompt-data item, with the scopes it may be shown in. -/
structure AssembledContextItem where
  context_id : String
  text : String
  provenance_locator : String
  task_scope : List String := []
  persona_scope : List PersonaName := []
  deriving DecidableEq, Repr

/-- One objection's survival distribution across the judge panel. -/
structure PanelResult where
  run_id : RunId
  request_id : RequestId
  objection_index : Nat
  objection_basis : String
  survive_votes : Nat
  total_votes : Nat
  survival_rate : Rat
  reasoning_samples : List String := []
  deriving DecidableEq, Repr

structure CriterionPayload where
  id : String
  name : String
  description : String
  deriving DecidableEq, Repr

structure DraftProvenance where
  turn_id : TurnId
  sha256 : Digest
  deriving DecidableEq, Repr

/-- The proposition a citation check is about, the authority it is checked against and the passages
    shown. -/
structure CheckPayload where
  proposition_id : PropositionId
  authority_sha256 : Digest
  passage_ids : List String
  deriving DecidableEq, Repr

/-- The injected inputs of a turn. A key the stage does not set is absent. -/
structure PromptContext where
  request_id : Option RequestId := none
  request_text : Option String := none
  input_family : Option InputFamily := none
  required_sections : Option (List String) := none
  approved_context : Option (List AssembledContextItem) := none
  directive : String := "Complete your persona's task."
  fact_ids : Option (List FactId) := none
  round : Option Nat := none
  partner_instructions : Option (List String) := none
  previous_draft : Option TurnOutput := none
  draft : Option TurnOutput := none
  prior_critiques : Option (List TurnOutput) := none
  oc_attacks : Option (List TurnOutput) := none
  panel_seat : Option Nat := none
  lens : Option String := none
  panel_findings : Option (List PanelResult) := none
  rubric_id : Option String := none
  rubric_version : Option String := none
  criteria : Option (List CriterionPayload) := none
  draft_provenance : Option DraftProvenance := none
  directional_only : Option Bool := none
  check : Option CheckPayload := none
  previous_attempt_rejected_because : Option String := none
  deriving DecidableEq, Repr

/-- Everything a driver needs to run one persona turn. -/
structure TurnSpec where
  turn_id : TurnId
  run_id : RunId
  persona : PersonaName
  request_id : Option RequestId := none
  stage : StageName
  prompt_context : PromptContext
  output_schema_name : SchemaName
  attempt : Nat := 1
  model : Option String := none
  deriving DecidableEq, Repr

/-- A completed turn. -/
structure TurnRecord where
  spec : TurnSpec
  output : TurnOutput
  gate_results : List GateResult := []
  completed_at : String
  deriving DecidableEq, Repr

/-- A derailed turn: recorded, counted, never repaired. -/
structure DiscardedTurn where
  turn_id : TurnId
  reason : String
  attempt : Nat
  deriving DecidableEq, Repr

/-- Token counts one provider call reports. -/
structure TokenUsage where
  input_tokens : Nat
  cache_read : Nat
  cache_write : Nat
  output_tokens : Nat
  model : String
  deriving DecidableEq, Repr

/-- What a provider call returns. -/
structure RawTurnResult where
  text : String
  usage : Option TokenUsage := none
  provider_call_id : Option String := none
  deriving DecidableEq, Repr

end MootLoop
