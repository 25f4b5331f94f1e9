import MootLoop.Theorems.Coherence

/-! Runs of the system from its start, and the runs that one worker, the driver and commands make action
    by action. A sample matter serves as the input of the runs that show a law failing. -/

namespace MootLoop
open Durable Transition

variable (x : Externals) (t : Publishing) (max_attempts : Nat)

/-- A run of the system from an empty journal. -/
def Reachable (trace : List Label) (s : System) : Prop :=
  ∃ run_id matter, Run (Step x t max_attempts) (System.initial run_id matter) trace s

variable {x t max_attempts}

theorem initial_free (run_id : RunId) (matter : MatterConfig) : ¬(System.initial run_id matter).Locked := by
  rintro (h | ⟨w, h⟩) <;> cases h

theorem Reachable.coherent {trace : List Label} {s : System} (h : Reachable x t max_attempts trace s) : Coherent s := by
  obtain ⟨run_id, matter, run⟩ := h
  exact Coherent.reachable run

/-! ### One worker -/

/-- A system whose only workers are number zero and the driver. -/
structure Desk where
  vault : Vault
  worker : WorkerPhase := .idle
  driver : DriverPhase := .idle

inductive Act where
  | command (command : Command)
  | worker (action : WorkerAction)
  | driver (action : DriverAction)

namespace Desk
variable (x : Externals) (t : Publishing) (max_attempts : Nat)

def system (d : Desk) : System where
  vault := d.vault
  workers := Function.update (fun _ => .idle) 0 d.worker
  driver := d.driver

def locked (d : Desk) : Bool := d.driver.holds_lock || d.worker.holds_lock

/-- An action that belongs here, run to its end. -/
def act (d : Desk) : Act → Option (Label × Desk)
  | .command command =>
    if d.locked then none
    else some (.command true command false, { d with vault := (command_prog x t true command).final d.vault })
  | .worker action =>
    match worker_action x max_attempts d.worker action with
    | none => none
    | some p =>
      if action.free && d.locked then none
      else some (.worker 0 d.worker action false,
        { d with vault := p.final d.vault, worker := d.worker.after (p d.vault).2 })
  | .driver action =>
    match driver_action x d.driver action with
    | none => none
    | some p =>
      if action.free && d.locked then none
      else some (.driver d.driver action false,
        { d with vault := p.final d.vault, driver := DriverPhase.after (p d.vault).2 })

/-- Actions in turn, with their labels. -/
def acts (d : Desk) : List Act → Option (List Label × Desk)
  | [] => some ([], d)
  | a :: rest =>
    match d.act x t max_attempts a with
    | none => none
    | some (label, next) => (acts next rest).map fun r => (label :: r.1, r.2)

variable {x t max_attempts} {d d' : Desk}

theorem locked_of_system (h : d.system.Locked) : d.locked = true := by
  rcases h with h | ⟨w, h⟩
  · simp [locked, show d.driver.holds_lock = true from h]
  · by_cases zero : w = 0
    · subst zero
      simp only [system, Function.update_self] at h
      simp [locked, h]
    · simp only [system, Function.update_of_ne zero] at h
      cases h

theorem step_of_act {a : Act} {label : Label} (h : d.act x t max_attempts a = some (label, d')) :
    Step x t max_attempts d.system label d'.system := by
  have free {c : Bool} (entry : ¬(c && d.locked) = true) (needs : c = true) : ¬d.system.Locked := fun held =>
    entry (by simp [needs, locked_of_system held])
  cases a with
  | command command =>
    simp only [act] at h
    split at h
    · cases h
    · next open_ =>
      cases h
      exact .command (fun _ held => open_ (locked_of_system held)) rfl
  | worker action =>
    simp only [act] at h
    split at h
    · cases h
    · next p acts =>
      split at h
      · cases h
      · next entry =>
        cases h
        have step : Step x t max_attempts d.system (.worker 0 d.worker action false) _ := .worker acts (free entry) rfl
        simpa [system] using step
  | driver action =>
    simp only [act] at h
    split at h
    · cases h
    · next p acts =>
      split at h
      · cases h
      · next entry =>
        cases h
        exact .driver acts (free entry) rfl

theorem act_command {command : Command} {label : Label} (h : d.act x t max_attempts (.command command) = some (label, d')) :
    label = .command true command false ∧ d'.worker = d.worker ∧ d'.driver = d.driver := by
  simp only [act] at h
  split at h <;> cases h
  exact ⟨rfl, rfl, rfl⟩

theorem act_worker {action : WorkerAction} {label : Label} (h : d.act x t max_attempts (.worker action) = some (label, d')) :
    label = .worker 0 d.worker action false ∧ d'.driver = d.driver := by
  simp only [act] at h
  split at h
  · cases h
  · split at h <;> cases h
    exact ⟨rfl, rfl⟩

theorem act_driver {action : DriverAction} {label : Label} (h : d.act x t max_attempts (.driver action) = some (label, d')) :
    label = .driver d.driver action false ∧ d'.worker = d.worker := by
  simp only [act] at h
  split at h
  · cases h
  · split at h <;> cases h
    exact ⟨rfl, rfl⟩

/-- Actions in turn are a run. -/
theorem run_of_acts {as : List Act} {labels : List Label} (h : d.acts x t max_attempts as = some (labels, d')) :
    Run (Step x t max_attempts) d.system labels d'.system := by
  induction as generalizing d labels with
  | nil => cases h; exact .start
  | cons a rest ih =>
    simp only [acts] at h
    split at h
    · cases h
    · next label next first =>
      obtain ⟨⟨labels', _⟩, tail, same⟩ := Option.map_eq_some_iff.mp h
      cases same
      exact (Run.one (step_of_act first)).trans (ih tail)

/-- Actions in turn meet what each of them meets. -/
theorem meeting_of_acts {condition : System → Label → System → Prop} {I : Desk → Prop} {as : List Act}
    {labels : List Label} (h : d.acts x t max_attempts as = some (labels, d')) (start : I d)
    (meets : ∀ a ∈ as, ∀ d label d', I d → d.act x t max_attempts a = some (label, d') →
      condition d.system label d'.system ∧ I d') :
    Run (Meeting (Step x t max_attempts) condition) d.system labels d'.system := by
  induction as generalizing d labels with
  | nil => cases h; exact .start
  | cons a rest ih =>
    simp only [acts] at h
    split at h
    · cases h
    · next label next first =>
      obtain ⟨⟨labels', _⟩, tail, same⟩ := Option.map_eq_some_iff.mp h
      cases same
      obtain ⟨met, kept⟩ := meets a (by simp) d label next start first
      exact (Run.one ⟨step_of_act first, met⟩).trans (ih tail kept fun a mem => meets a (by simp [mem]))

section
variable (x t max_attempts) (condition : Vault → Label → Vault → Prop) [∀ v label v', Decidable (condition v label v')]

/-- Actions in turn whose steps all meet a condition on the vault. -/
def meeting_acts (d : Desk) : List Act → Option (List Label × Desk)
  | [] => some ([], d)
  | a :: rest =>
    match d.act x t max_attempts a with
    | none => none
    | some (label, next) =>
      if condition d.vault label next.vault then (meeting_acts next rest).map fun r => (label :: r.1, r.2) else none

end

theorem meeting_of_meeting_acts {condition : Vault → Label → Vault → Prop} [∀ v label v', Decidable (condition v label v')]
    {as : List Act} {labels : List Label} (h : d.meeting_acts x t max_attempts condition as = some (labels, d')) :
    Run (Meeting (Step x t max_attempts) fun s label s' => condition s.vault label s'.vault) d.system labels d'.system := by
  induction as generalizing d labels with
  | nil => cases h; exact .start
  | cons a rest ih =>
    simp only [meeting_acts] at h
    split at h
    · cases h
    · next label next first =>
      split at h
      · next met =>
        obtain ⟨⟨labels', _⟩, tail, same⟩ := Option.map_eq_some_iff.mp h
        cases same
        exact (Run.one ⟨step_of_act first, met⟩).trans (ih tail)
      · cases h

theorem system_initial (run_id : RunId) (matter : MatterConfig) :
    (Desk.mk { run_id, matter } .idle .idle).system = System.initial run_id matter := by
  simp [system, System.initial]

/-- Actions in turn over an empty journal reach their end. -/
theorem reachable_of_acts {run_id : RunId} {matter : MatterConfig} {as : List Act} {labels : List Label}
    (h : acts x t max_attempts { vault := { run_id, matter } } as = some (labels, d)) :
    Reachable x t max_attempts labels d.system :=
  ⟨run_id, matter, system_initial run_id matter ▸ run_of_acts h⟩

end Desk

/-! ### A sample matter -/

namespace Sample

def DRAFT : String := "\x7b\"response_text\":\"Denied.\",\"attorney_gate_items\":[\"dates\"],\"self_assessment\":\"ok\"\x7d"

def draft : DraftOutput where
  response_text := "Denied."
  attorney_gate_items := ["dates"]
  self_assessment := "ok"

/-- Only `DRAFT` is a valid draft, no text has a citation, and digests are the texts themselves. -/
def externals : Externals where
  model_validate_json schema raw :=
    if schema = .draft ∧ raw = DRAFT then .ok (.draft draft) else .error [("", "Invalid JSON")]
  json_dumps _ := ""
  fromisoformat text := if text = "2026-01-05" then some ⟨date 2026 1 5, 0⟩ else none
  sha256 text := text
  lower text := String.ofList (text.toList.map Char.toLower)
  upper text := String.ofList (text.toList.map Char.toUpper)
  findall _ _ := []
  hedge_search _ := false
  section_body _ _ := none
  sequence_similarity a b := if a = b then 1 else 0
  format_fixed3 _ := ""
  format_general _ := ""
  find_citations _ := []
  paragraph_breaks _ := []

/-- Digests of everything are the same, and renderings have no residue. -/
def publishing : Publishing where
  digest _ := "d"
  render_docx source _ := .ok source
  residue_findings _ := []
  page _ _ _ := ""

/-- An associate alone drafts each response. -/
def pipeline : ResolvedPipeline where
  strategy := .thin_full
  effective_config :=
    { task := "discovery-responses", stages := [.associate_draft, .jury_panel, .assemble],
      loop_caps := { oc := 0, bolster := 0, restructure := 0 }, panels := { jurors := 5 },
      gates := ["degeneracy", "completeness", "fabrication"], rubric_id := "discovery-responses-v1.0" }
  drafting_persona := .associate
  oc_personas := []
  active_personas := [.associate]
  owns := by constructor <;> decide

def matter : MatterConfig where
  caption := some { court_name := "District Court", case_number := "1", county := "Ramsey" }
  state := "Minnesota"
  our_side := some .defendant
  gates := [("unsupported_assertion", .policy_delegable), ("objection_posture", .policy_delegable)]
  attorney := some { name := "A. Jones" }

/-- Two interrogatories under a launch cap. -/
def context (hard_cap_usd : Option Rat) : RunContext where
  run_id := "r"
  task := "discovery-responses"
  rubric := { rubric_id := "discovery-responses-v1.0", version := "1", criteria := [] }
  adapter := { task := "discovery-responses", draft_directive := "Draft.", judge_question := "Rule." }
  pipeline
  request_sets := [{ request_type := .interrogatory, set_number := 1, title := "First Interrogatories",
                     items := [{ request_id := "ROG-1", number := 1, text := "Where?" },
                               { request_id := "ROG-2", number := 2, text := "When?" }] }]
  facts := []
  matter
  hard_cap_usd
  tier_models := [(.personas, "claude-sonnet-5")]
  persona_bodies := [(.associate, "You draft.")]
  request_identity := by constructor <;> decide
  document_identity := by decide

/-- The empty vault of the run. -/
def desk : Desk := { vault := { run_id := "r", matter } }

def item : WorkItem := { item_id := "i", kind := .run_turn, attempts := 1 }

def no_authority : AuthorityLookup := { fetch_case_authority := fun _ => none, select_passages := fun _ _ => [] }

def start (hard_cap_usd : Option Rat) : Act := .command (.start_run "d" (context hard_cap_usd))

/-- Hands a draft to `record_turn`. -/
def drafted (turn_id : TurnId) : Act := .command (.record_turn turn_id DRAFT none "2026-01-05" none)

def pause : Act := .command (.pause_run "manual")

/-- A worker brings a turn to its provider call. -/
def bring_to_call : List Act :=
  [.worker (.claim item), .worker (.dispatch true "2026-01-05" no_authority), .worker .plan,
   .worker (.reserve true (date 2026 1 5)), .worker .prompt, .worker .call]

end Sample

end MootLoop
