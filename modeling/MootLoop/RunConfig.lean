import MootLoop.Common
import MootLoop.Lib.Nested
import MootLoop.Task

/-! The run configuration resolved from its layers: the mappings the validated models dump, their merge under the
    structural policy, and the validation of what comes out. Floats are only carried and compared with their bounds. -/

namespace MootLoop.RunConfig

/-! ### Contents -/

/-- What a leaf of a mapping holds. -/
inductive Scalar (F : Type) where
  | null
  | bool (b : Bool)
  | int (n : Int)
  | float (x : F)
  | text (s : String)
  | texts (items : List String)
  deriving DecidableEq

/-- A dotted path, by its parts. -/
abbrev Path := List String

instance : LawfulBEq Path := inferInstanceAs (LawfulBEq (List String))

abbrev Tree (F : Type) := Nested String (Scalar F)
abbrev Content (F : Type) := List (String × Tree F)

def dotted (path : Path) : String := ".".intercalate path

def STRUCTURAL_LEAF_PATHS : List Path :=
  [["stages"], ["panels", "judges"], ["panels", "jury"], ["panels", "jurors"], ["panels", "rubric_judges"], ["gates"],
    ["deliverables"]]

def IMMUTABLE_IDENTITY_PATHS : List Path := [["schema_version"], ["task"], ["rubric_id"]]

inductive BudgetTier where
  | no_budget
  | moderate
  | low
  deriving DecidableEq, Repr

def BudgetTier.text : BudgetTier → String
  | no_budget => "no-budget"
  | moderate => "moderate"
  | low => "low"

def mode_text : RunMode → String
  | .autonomous => "autonomous"
  | .gated => "gated"
  | .observed => "observed"

inductive ConfigLayer where
  | defaults
  | task_adapter
  | firm_preferences
  | matter_overlay
  | invocation_flags
  deriving DecidableEq, Repr

def ConfigLayer.text : ConfigLayer → String
  | defaults => "defaults"
  | task_adapter => "task_adapter"
  | firm_preferences => "firm_preferences"
  | matter_overlay => "matter_overlay"
  | invocation_flags => "invocation_flags"

/-! ### Kinds of fields -/

variable {F : Type}

/-- The comparisons of a float with the bounds of its field. -/
structure Floats (F : Type) where
  below_zero : F → Bool
  above_one : F → Bool

/-- How a field's value is dumped, and how a validator reads one. -/
structure Kind (F α : Type) where
  write : α → Scalar F
  read : Tree F → Except String α
  read_ok : ∀ {t a}, read t = .ok a → t = .leaf (write a)

def Kind.text : Kind F String where
  write := .text
  read
    | .leaf (.text s) => .ok s
    | _ => .error "Input should be a valid string"
  read_ok {t a} h := by
    split at h <;> cases h
    rfl

def Kind.texts : Kind F (List String) where
  write := .texts
  read
    | .leaf (.texts items) => .ok items
    | _ => .error "Input should be a valid tuple"
  read_ok {t a} h := by
    split at h <;> cases h
    rfl

/-- `min_length=1`. -/
def Kind.some_texts : Kind F (List String) where
  write := .texts
  read
    | .leaf (.texts []) => .error "Tuple should have at least 1 item after validation, not 0"
    | .leaf (.texts items) => .ok items
    | _ => .error "Input should be a valid tuple"
  read_ok {t a} h := by
    split at h <;> cases h
    rfl

def Kind.flag : Kind F Bool where
  write := .bool
  read
    | .leaf (.bool b) => .ok b
    | _ => .error "Input should be a valid boolean"
  read_ok {t a} h := by
    split at h <;> cases h
    rfl

def Kind.integer (least : Int) : Kind F Int where
  write := .int
  read
    | .leaf (.int n) => if n < least then .error s!"Input should be greater than or equal to {least}" else .ok n
    | _ => .error "Input should be a valid integer"
  read_ok {t a} h := by
    split at h
    · split at h <;> cases h
      rfl
    · cases h

def Kind.floor (floats : Floats F) : Kind F F where
  write := .float
  read
    | .leaf (.float x) => if floats.below_zero x then .error "Input should be greater than or equal to 0" else .ok x
    | _ => .error "Input should be a valid number"
  read_ok {t a} h := by
    split at h
    · split at h <;> cases h
      rfl
    · cases h

def Kind.share (floats : Floats F) : Kind F F where
  write := .float
  read
    | .leaf (.float x) =>
      if floats.below_zero x then .error "Input should be greater than or equal to 0"
      else if floats.above_one x then .error "Input should be less than or equal to 1"
      else .ok x
    | _ => .error "Input should be a valid number"
  read_ok {t a} h := by
    split at h
    · split at h
      · cases h
      · split at h <;> cases h
        rfl
    · cases h

def Kind.optional {α : Type} (kind : Kind F α) : Kind F (Option α) where
  write a := a.elim .null kind.write
  read
    | .leaf .null => .ok none
    | t => (kind.read t).map some
  read_ok {t a} h := by
    split at h
    · cases h
      rfl
    · cases read : kind.read t with
      | error msg => rw [read] at h; cases h
      | ok b =>
        rw [read] at h
        cases h
        exact kind.read_ok read

def Kind.run_mode : Kind F RunMode where
  write mode := .text (mode_text mode)
  read
    | .leaf (.text s) =>
      if s = mode_text .autonomous then .ok .autonomous
      else if s = mode_text .gated then .ok .gated
      else if s = mode_text .observed then .ok .observed
      else .error "Input should be 'autonomous', 'gated' or 'observed'"
    | _ => .error "Input should be 'autonomous', 'gated' or 'observed'"
  read_ok {t a} h := by
    split at h
    · split_ifs at h with here here here <;> cases h <;> rw [here]
    · cases h

def Kind.tier : Kind F BudgetTier where
  write tier := .text tier.text
  read
    | .leaf (.text s) =>
      if s = BudgetTier.no_budget.text then .ok .no_budget
      else if s = BudgetTier.moderate.text then .ok .moderate
      else if s = BudgetTier.low.text then .ok .low
      else .error "Input should be 'no-budget', 'moderate' or 'low'"
    | _ => .error "Input should be 'no-budget', 'moderate' or 'low'"
  read_ok {t a} h := by
    split at h
    · split_ifs at h with here here here <;> cases h <;> rw [here]
    · cases h

/-! ### What a model dumps -/

def leaf {α : Type} (kind : Kind F α) (a : α) : Tree F := .leaf (kind.write a)

/-- The members a model sets, of all it has. -/
def present (members : List (String × Option (Tree F))) : Content F :=
  members.filterMap fun member => member.2.map fun t => (member.1, t)

/-- How a model holds a field, and what of it a dump shows. -/
structure Presence where
  Field : Type → Type
  dumped : {F α : Type} → (α → Tree F) → Field α → Option (Tree F)
  dumped_eq : ∀ {F α : Type} {write : α → Tree F} {a : Field α} {t : Tree F}, dumped write a = some t →
    t = .leaf .null ∨ ∃ b, t = write b

/-- Every field has its value. -/
@[reducible] def filled : Presence where
  Field α := α
  dumped write a := some (write a)
  dumped_eq h := .inr ⟨_, (Option.some.inj h).symm⟩

/-- `exclude_unset`: a field is set or not. -/
@[reducible] def authored : Presence where
  Field := Option
  dumped write a := a.map write
  dumped_eq h := by
    obtain ⟨b, -, rfl⟩ := Option.map_eq_some_iff.mp h
    exact .inr ⟨b, rfl⟩

/-- `exclude_unset` over `T | None`: a field is unset, set to null or set to a value. -/
@[reducible] def partly : Presence where
  Field α := Option (Option α)
  dumped write a := a.map fun a => a.elim (.leaf .null) write
  dumped_eq h := by
    obtain ⟨b, -, rfl⟩ := Option.map_eq_some_iff.mp h
    cases b with
    | none => exact .inl rfl
    | some b => exact .inr ⟨b, rfl⟩

structure LoopCaps (m : Presence) where
  associate_partner : m.Field Int
  oc : m.Field Int
  bolster : m.Field Int
  restructure : m.Field Int

structure Panels (m : Presence) where
  judges : m.Field Int
  jury : m.Field Bool
  jurors : m.Field Int
  rubric_judges : m.Field Int

structure Convergence (m : Presence) (F : Type) where
  score_delta_floor : m.Field F
  material_change_floor : m.Field F
  coverage_floor : m.Field F

structure BudgetOverlay (F : Type) where
  tier : Option (Option BudgetTier)
  hard_cap_usd : Option (Option F)

structure ResolvedBudget (F : Type) where
  tier : BudgetTier
  hard_cap_usd : Option F

variable (floats : Floats F)

def LoopCaps.model_dump {m : Presence} (caps : LoopCaps m) : Tree F :=
  .mapping (present [
    ("associate_partner", m.dumped (leaf (.integer 1)) caps.associate_partner),
    ("oc", m.dumped (leaf (.integer 0)) caps.oc),
    ("bolster", m.dumped (leaf (.integer 0)) caps.bolster),
    ("restructure", m.dumped (leaf (.integer 0)) caps.restructure)])

def Panels.model_dump {m : Presence} (panels : Panels m) : Tree F :=
  .mapping (present [
    ("judges", m.dumped (leaf (.integer 1)) panels.judges),
    ("jury", m.dumped (leaf .flag) panels.jury),
    ("jurors", m.dumped (leaf (.integer 0)) panels.jurors),
    ("rubric_judges", m.dumped (leaf (.integer 1)) panels.rubric_judges)])

def Convergence.model_dump {m : Presence} (convergence : Convergence m F) : Tree F :=
  .mapping (present [
    ("score_delta_floor", m.dumped (leaf (.floor floats)) convergence.score_delta_floor),
    ("material_change_floor", m.dumped (leaf (.floor floats)) convergence.material_change_floor),
    ("coverage_floor", m.dumped (leaf (.share floats)) convergence.coverage_floor)])

def BudgetOverlay.model_dump (budget : BudgetOverlay F) : Tree F :=
  .mapping (present [
    ("tier", partly.dumped (leaf .tier) budget.tier),
    ("hard_cap_usd", partly.dumped (leaf (.floor floats)) budget.hard_cap_usd)])

def ResolvedBudget.model_dump (budget : ResolvedBudget F) : Tree F :=
  .mapping (present [
    ("tier", filled.dumped (leaf .tier) budget.tier),
    ("hard_cap_usd", filled.dumped (leaf (Kind.floor floats).optional) budget.hard_cap_usd)])

/-! ### The layers -/

structure DefaultRunConfig (F : Type) where
  run_mode : RunMode
  max_attempts : Int
  budget : ResolvedBudget F
  loop_caps : LoopCaps filled
  panels : Panels filled
  convergence : Convergence filled F
  rubric_threshold : F
  restructure_threshold : F

/-- A validated adapter, by the fields its file sets; of the others only the allowlist is used here. -/
structure TaskAdapterConfig (F : Type) where
  task : String
  stages : List String
  loop_caps : Option (LoopCaps authored)
  panels : Option (Panels authored)
  convergence : Option (Convergence authored F)
  gates : Option (List String)
  rubric_id : String
  rubric_threshold : Option F
  restructure_threshold : Option F
  deliverables : Option (List String)
  overridable : List Path

structure RunConfigOverlay (F : Type) where
  stages : Option (Option (List String)) := none
  loop_caps : Option (Option (LoopCaps partly)) := none
  panels : Option (Option (Panels partly)) := none
  convergence : Option (Option (Convergence partly F)) := none
  gates : Option (Option (List String)) := none
  rubric_id : Option (Option String) := none
  rubric_threshold : Option (Option F) := none
  restructure_threshold : Option (Option F) := none
  deliverables : Option (Option (List String)) := none
  run_mode : Option (Option RunMode) := none
  max_attempts : Option (Option Int) := none
  budget : Option (Option (BudgetOverlay F)) := none

structure FirmPreferences (F : Type) where
  run_config : RunConfigOverlay F

/-- `_model_content(defaults_model, "schema_version")`. -/
def DefaultRunConfig.content (d : DefaultRunConfig F) : Content F :=
  present [
    ("run_mode", filled.dumped (leaf .run_mode) d.run_mode),
    ("max_attempts", filled.dumped (leaf (.integer 1)) d.max_attempts),
    ("budget", filled.dumped (·.model_dump floats) d.budget),
    ("loop_caps", filled.dumped (·.model_dump) d.loop_caps),
    ("panels", filled.dumped (·.model_dump) d.panels),
    ("convergence", filled.dumped (·.model_dump floats) d.convergence),
    ("rubric_threshold", filled.dumped (leaf (.share floats)) d.rubric_threshold),
    ("restructure_threshold", filled.dumped (leaf (.share floats)) d.restructure_threshold)]

/-- The adapter's dump, less `schema_version`, `overridable`, `pipeline_strategies` and `input_family`. -/
def TaskAdapterConfig.content (a : TaskAdapterConfig F) : Content F :=
  present [
    ("task", filled.dumped (leaf .text) a.task),
    ("stages", filled.dumped (leaf .texts) a.stages),
    ("loop_caps", authored.dumped (·.model_dump) a.loop_caps),
    ("panels", authored.dumped (·.model_dump) a.panels),
    ("convergence", authored.dumped (·.model_dump floats) a.convergence),
    ("gates", authored.dumped (leaf .texts) a.gates),
    ("rubric_id", filled.dumped (leaf .text) a.rubric_id),
    ("rubric_threshold", authored.dumped (leaf (.share floats)) a.rubric_threshold),
    ("restructure_threshold", authored.dumped (leaf (.share floats)) a.restructure_threshold),
    ("deliverables", authored.dumped (leaf .texts) a.deliverables)]

/-- `_overlay_content`. -/
def RunConfigOverlay.content (o : RunConfigOverlay F) : Content F :=
  present [
    ("stages", partly.dumped (leaf .texts) o.stages),
    ("loop_caps", partly.dumped (·.model_dump) o.loop_caps),
    ("panels", partly.dumped (·.model_dump) o.panels),
    ("convergence", partly.dumped (·.model_dump floats) o.convergence),
    ("gates", partly.dumped (leaf .texts) o.gates),
    ("rubric_id", partly.dumped (leaf .text) o.rubric_id),
    ("rubric_threshold", partly.dumped (leaf (.share floats)) o.rubric_threshold),
    ("restructure_threshold", partly.dumped (leaf (.share floats)) o.restructure_threshold),
    ("deliverables", partly.dumped (leaf .texts) o.deliverables),
    ("run_mode", partly.dumped (leaf .run_mode) o.run_mode),
    ("max_attempts", partly.dumped (leaf (.integer 1)) o.max_attempts),
    ("budget", partly.dumped (·.model_dump floats) o.budget)]

/-! ### The structural policy -/

/-- The message of a `ConfigResolutionError`. -/
structure ConfigResolutionError where
  message : String
  deriving DecidableEq, Repr

variable [DecidableEq F]

mutual

/-- Equal JSON with sorted keys. -/
def same_json : Tree F → Tree F → Bool
  | .leaf left, .leaf right => left == right
  | .mapping left, .mapping right => left.length == right.length && same_members left right
  | _, _ => false

def same_members : Content F → Content F → Bool
  | [], _ => true
  | (key, left) :: rest, members =>
    match members.lookup key with
    | none => false
    | some right => same_json left right && same_members rest members

end

def same_value : Option (Tree F) → Option (Tree F) → Bool
  | some left, some right => same_json left right
  | none, none => true
  | _, _ => false

/-- The check of one leaf path of an incoming layer. -/
def check_leaf (current incoming : Content F) (allowed : List Path) (layer : ConfigLayer) (path : Path) :
    Except ConfigResolutionError Unit :=
  if path ∈ IMMUTABLE_IDENTITY_PATHS then
    .error ⟨s!"{layer.text} source attempted immutable identity path '{dotted path}'"⟩
  else if path ∉ STRUCTURAL_LEAF_PATHS then .ok ()
  else if same_value ((Nested.mapping current).value_at path) ((Nested.mapping incoming).value_at path) then .ok ()
  else if path ∉ allowed then
    .error ⟨s!"{layer.text} source cannot change structural path '{dotted path}'; " ++
      "the task adapter did not allowlist that exact leaf"⟩
  else .ok ()

def enforce_structural_policy (current incoming : Content F) (allowed : List Path) (layer : ConfigLayer) :
    Except ConfigResolutionError Unit :=
  ((Nested.mapping incoming).leaf_paths).forM (check_leaf current incoming allowed layer)

/-! ### The resolved configuration -/

structure ConfigSource where
  layer : ConfigLayer
  locator : String
  sha256 : Digest
  present : Bool
  deriving DecidableEq, Repr

structure ResolvedRunConfig (F : Type) where
  task : String
  stages : List String
  loop_caps : LoopCaps filled
  panels : Panels filled
  convergence : Convergence filled F
  gates : List String
  rubric_id : String
  rubric_threshold : F
  restructure_threshold : F
  deliverables : List String
  run_mode : RunMode
  max_attempts : Int
  budget : ResolvedBudget F
  schema_version : String := "1.0"
  overridable_structural_paths : List Path
  sources : List ConfigSource

/-- What the layers decide of a resolved configuration. -/
def ResolvedRunConfig.content (c : ResolvedRunConfig F) : Content F :=
  present [
    ("task", filled.dumped (leaf .text) c.task),
    ("stages", filled.dumped (leaf .some_texts) c.stages),
    ("loop_caps", filled.dumped (·.model_dump) c.loop_caps),
    ("panels", filled.dumped (·.model_dump) c.panels),
    ("convergence", filled.dumped (·.model_dump floats) c.convergence),
    ("gates", filled.dumped (leaf .texts) c.gates),
    ("rubric_id", filled.dumped (leaf .text) c.rubric_id),
    ("rubric_threshold", filled.dumped (leaf (.share floats)) c.rubric_threshold),
    ("restructure_threshold", filled.dumped (leaf (.share floats)) c.restructure_threshold),
    ("deliverables", filled.dumped (leaf .texts) c.deliverables),
    ("run_mode", filled.dumped (leaf .run_mode) c.run_mode),
    ("max_attempts", filled.dumped (leaf (.integer 1)) c.max_attempts),
    ("budget", filled.dumped (·.model_dump floats) c.budget)]

/-- The first error of a validation: where it is and what it says. -/
structure Invalid where
  loc : Path
  msg : String

/-- `_validation_path`. -/
def Invalid.path (invalid : Invalid) : String := if invalid.loc = [] then "<root>" else dotted invalid.loc

/-- A field of the model at `loc`; one without a default is required. -/
def field {α : Type} (kind : Kind F α) (default : Option α) (loc : Path) (content : Content F) (name : String) :
    Except Invalid α :=
  match content.lookup name with
  | none =>
    match default with
    | none => .error ⟨loc ++ [name], "Field required"⟩
    | some a => .ok a
  | some t => (kind.read t).mapError fun msg => ⟨loc ++ [name], msg⟩

/-- A field that is a model of its own. -/
def submodel {α : Type} (model name : String) (validate : Content F → Except Invalid α) (content : Content F) :
    Except Invalid α :=
  match content.lookup name with
  | none => .error ⟨[name], "Field required"⟩
  | some (.leaf _) => .error ⟨[name], s!"Input should be a valid dictionary or instance of {model}"⟩
  | some (.mapping members) => validate members

def LoopCaps.model_validate (content : Content F) : Except Invalid (LoopCaps filled) := do
  let associate_partner ← field (.integer 1) none ["loop_caps"] content "associate_partner"
  let oc ← field (.integer 0) none ["loop_caps"] content "oc"
  let bolster ← field (.integer 0) none ["loop_caps"] content "bolster"
  let restructure ← field (.integer 0) none ["loop_caps"] content "restructure"
  .ok { associate_partner, oc, bolster, restructure }

def Panels.model_validate (content : Content F) : Except Invalid (Panels filled) := do
  let judges ← field (.integer 1) none ["panels"] content "judges"
  let jury ← field .flag none ["panels"] content "jury"
  let jurors ← field (.integer 0) (some 0) ["panels"] content "jurors"
  let rubric_judges ← field (.integer 1) none ["panels"] content "rubric_judges"
  if jury && jurors < 1 then
    .error ⟨["panels"], "Value error, panels.jurors must be at least 1 when jury is enabled"⟩
  else .ok { judges, jury, jurors, rubric_judges }

def Convergence.model_validate (content : Content F) : Except Invalid (Convergence filled F) := do
  let score_delta_floor ← field (.floor floats) none ["convergence"] content "score_delta_floor"
  let material_change_floor ← field (.floor floats) none ["convergence"] content "material_change_floor"
  let coverage_floor ← field (.share floats) none ["convergence"] content "coverage_floor"
  .ok { score_delta_floor, material_change_floor, coverage_floor }

def ResolvedBudget.model_validate (content : Content F) : Except Invalid (ResolvedBudget F) := do
  let tier ← field .tier none ["budget"] content "tier"
  let hard_cap_usd ← field (Kind.floor floats).optional (some none) ["budget"] content "hard_cap_usd"
  .ok { tier, hard_cap_usd }

def ResolvedRunConfig.model_validate (overridable_structural_paths : List Path) (sources : List ConfigSource)
    (merged : Content F) : Except Invalid (ResolvedRunConfig F) := do
  let task ← field .text none [] merged "task"
  let stages ← field .some_texts none [] merged "stages"
  let loop_caps ← submodel "ResolvedLoopCaps" "loop_caps" LoopCaps.model_validate merged
  let panels ← submodel "ResolvedPanels" "panels" Panels.model_validate merged
  let convergence ← submodel "ResolvedConvergence" "convergence" (Convergence.model_validate floats) merged
  let gates ← field .texts none [] merged "gates"
  let rubric_id ← field .text none [] merged "rubric_id"
  let rubric_threshold ← field (.share floats) none [] merged "rubric_threshold"
  let restructure_threshold ← field (.share floats) none [] merged "restructure_threshold"
  let deliverables ← field .texts none [] merged "deliverables"
  let run_mode ← field .run_mode none [] merged "run_mode"
  let max_attempts ← field (.integer 1) none [] merged "max_attempts"
  let budget ← submodel "ResolvedBudget" "budget" (ResolvedBudget.model_validate floats) merged
  .ok { task, stages, loop_caps, panels, convergence, gates, rubric_id, rubric_threshold, restructure_threshold,
        deliverables, run_mode, max_attempts, budget, overridable_structural_paths, sources }

/-! ### Resolution -/

/-- Immutable source bytes plus the locator those bytes came from. -/
structure ConfigLayerInput where
  locator : String
  content : List UInt8

/-- The YAML loader, the validators of the authored models, and the standard library around them. -/
structure Loaders (F : Type) where
  Raw : Type
  safe_load : List UInt8 → Except String (Option Raw)
  default_run_config : Raw → Except Invalid (DefaultRunConfig F)
  task_adapter_config : Raw → Except Invalid (TaskAdapterConfig F)
  firm_preferences : Raw → Except Invalid (FirmPreferences F)
  run_config_overlay : Raw → Except Invalid (RunConfigOverlay F)
  floats : Floats F
  sha256 : List UInt8 → Digest
  repr : String → String

variable (x : Loaders F)

/-- `none` of the loader is a document that is no mapping. -/
def parse_mapping (source : ConfigLayerInput) (layer : ConfigLayer) : Except ConfigResolutionError x.Raw :=
  match x.safe_load source.content with
  | .error exc => .error ⟨s!"{layer.text} source {x.repr source.locator} is not valid YAML: {exc}"⟩
  | .ok none => .error ⟨s!"{layer.text} source {x.repr source.locator} at <root> must be a mapping"⟩
  | .ok (some raw) => .ok raw

def validate_model {α : Type} (validate : x.Raw → Except Invalid α) (raw : x.Raw) (source : ConfigLayerInput)
    (layer : ConfigLayer) : Except ConfigResolutionError α :=
  (validate raw).mapError fun invalid =>
    ⟨s!"{layer.text} source {x.repr source.locator} invalid at {invalid.path}: {invalid.msg}"⟩

/-- Parsed and validated. -/
def load {α : Type} (validate : x.Raw → Except Invalid α) (source : ConfigLayerInput) (layer : ConfigLayer) :
    Except ConfigResolutionError α := do
  let raw ← parse_mapping x source layer
  validate_model x validate raw source layer

def source (layer : ConfigLayer) : Option ConfigLayerInput → ConfigSource
  | none => { layer, locator := s!"absent:{layer.text}", sha256 := x.sha256 [], present := false }
  | some value => { layer, locator := value.locator, sha256 := x.sha256 value.content, present := true }

/-- A layer above the adapter: its overlay is checked against what is merged so far, then merged. -/
def apply_overlay {α : Type} (validate : x.Raw → Except Invalid α) (overlay : α → RunConfigOverlay F)
    (allowed : List Path) (layer : ConfigLayer) (merged : Content F) :
    Option ConfigLayerInput → Except ConfigResolutionError (Content F)
  | none => .ok merged
  | some source => do
    let model ← load x validate source layer
    let content := (overlay model).content x.floats
    enforce_structural_policy merged content allowed layer
    .ok (Nested.deep_merge merged content)

/-- The arguments of a resolution. -/
structure Arguments (F : Type) where
  defaults : ConfigLayerInput
  adapter : ConfigLayerInput
  legacy_fallback : Option (RunConfigOverlay F) := none
  firm_preferences : Option ConfigLayerInput := none
  matter_overlay : Option ConfigLayerInput := none
  matter_provenance : Option ConfigLayerInput := none
  invocation_flags : Option ConfigLayerInput := none

def resolve_run_config (a : Arguments F) : Except ConfigResolutionError (ResolvedRunConfig F) := do
  let defaults_model ← load x x.default_run_config a.defaults .defaults
  let defaults_content := defaults_model.content x.floats
  -- Compatibility-only values live below every authored layer, and pass no policy.
  let fallback := match a.legacy_fallback with
    | none => defaults_content
    | some overlay => Nested.deep_merge defaults_content (overlay.content x.floats)
  let adapter_model ← load x x.task_adapter_config a.adapter .task_adapter
  -- Layer two owns the task shape and may always replace defaults.
  let adapted := Nested.deep_merge fallback (adapter_model.content x.floats)
  let allowed := adapter_model.overridable
  let firm ← apply_overlay x x.firm_preferences (·.run_config) allowed .firm_preferences adapted a.firm_preferences
  let matter ← apply_overlay x x.run_config_overlay id allowed .matter_overlay firm a.matter_overlay
  let merged ← apply_overlay x x.run_config_overlay id allowed .invocation_flags matter a.invocation_flags
  let sources := [source x .defaults (some a.defaults), source x .task_adapter (some a.adapter),
    source x .firm_preferences a.firm_preferences,
    source x .matter_overlay (a.matter_provenance.or a.matter_overlay),
    source x .invocation_flags a.invocation_flags]
  (ResolvedRunConfig.model_validate x.floats allowed sources merged).mapError fun invalid =>
    ⟨s!"resolved_config source invalid at {invalid.path}: {invalid.msg}"⟩

end MootLoop.RunConfig
