import MootLoop.Common

/-! Gate verdicts, and the catalog that validates a gate selection and orders it by dependency. -/

namespace MootLoop

inductive GateStatus where
  | pass
  | fail
  | pending
  deriving DecidableEq, Repr, Inhabited

/-- One reason a gate reached its verdict. -/
structure GateFinding where
  code : String
  message : String
  locator : Option String := none
  deriving DecidableEq, Repr, Inhabited

/-- A gate verdict. -/
structure GateResult where
  gate : String
  status : GateStatus
  findings : List GateFinding := []
  deriving DecidableEq, Repr, Inhabited

/-- The artifact boundary a gate is evaluated at. -/
inductive GateScope where
  | turn
  | draft
  | run
  | export
  deriving DecidableEq, Repr

structure GateDefinition where
  name : String
  scope : GateScope
  depends_on : List String := []
  halt_on_fail : Bool := false
  blocks_export : Bool := true
  deriving DecidableEq, Repr

/-- `GateDefinition.__post_init__`. -/
def GateDefinition.post_init (definition : GateDefinition) : Except Error Unit :=
  if definition.name = "" then .error (.gateConfiguration "gate definition name cannot be empty")
  else if definition.name ∈ definition.depends_on then
    .error (.gateConfiguration s!"gate '{definition.name}' has a dependency cycle")
  else if ¬definition.depends_on.Nodup then
    .error (.gateConfiguration s!"gate '{definition.name}' has duplicate dependencies")
  else .ok ()

/-- Gate definitions in the order they were declared. -/
structure GateCatalog where
  definitions : List GateDefinition
  deriving DecidableEq, Repr

namespace GateCatalog

def definition (catalog : GateCatalog) (name : String) : Except Error GateDefinition :=
  match catalog.definitions.find? (·.name = name) with
  | some found => .ok found
  | none => .error (.gateConfiguration s!"unknown gate '{name}'")

/-- Removes, round after round, the names whose remaining dependencies are empty. `fuel` bounds the
    rounds; each one that does not raise removes a name. -/
def topological_rounds (fuel : Nat) (selected : List String) (dependencies : List (String × List String))
    (ordered : List String) : Except Error (List String) :=
  if dependencies = [] then .ok ordered
  else
    let ready := selected.filter fun name => (dependencies.lookup name).any (· = [])
    match fuel with
    | 0 => .ok ordered
    | fuel + 1 =>
      if ready = [] then
        let cycle := selected.filter fun name => (dependencies.lookup name).isSome
        let listed := ", ".intercalate cycle
        .error (.gateConfiguration s!"gate dependency cycle: {listed}")
      else
        let remaining := dependencies.filter fun entry => entry.1 ∉ ready
        let discharged := remaining.map fun entry => (entry.1, entry.2.filter (· ∉ ready))
        topological_rounds fuel selected discharged (ordered ++ ready)

/-- `_topological_order`. -/
def topological_order (catalog : GateCatalog) (names : List String) : Except Error (List String) :=
  let dependencies := names.map fun name =>
    let declared := (catalog.definitions.find? (·.name = name)).elim [] (·.depends_on)
    (name, declared.filter (· ∈ names))
  topological_rounds names.length names dependencies []

/-- The first name declared twice. -/
def duplicate_definition : List GateDefinition → List String → Except Error Unit
  | [], _ => .ok ()
  | definition :: rest, declared =>
    if definition.name ∈ declared then
      .error (.gateConfiguration s!"duplicate gate definition '{definition.name}'")
    else duplicate_definition rest (declared ++ [definition.name])

/-- The first dependency on a gate that was not declared. -/
def unknown_dependency (catalog : GateCatalog) : List GateDefinition → Except Error Unit
  | [] => .ok ()
  | definition :: rest =>
    match definition.depends_on.find? (· ∉ catalog.definitions.map (·.name)) with
    | some name =>
      .error (.gateConfiguration s!"gate '{definition.name}' depends on unknown gate '{name}'")
    | none => unknown_dependency catalog rest

/-- `GateCatalog.__init__`. -/
def create (definitions : List GateDefinition) : Except Error GateCatalog := do
  duplicate_definition definitions []
  unknown_dependency ⟨definitions⟩ definitions
  let _ ← topological_order ⟨definitions⟩ (definitions.map (·.name))
  return ⟨definitions⟩

/-- The first dependency of a selected gate that was not selected. -/
def missing_dependency (catalog : GateCatalog) (selected : List String) : List String → Except Error Unit
  | [] => .ok ()
  | name :: rest => do
    let found ← catalog.definition name
    match found.depends_on.find? (· ∉ selected) with
    | some dependency =>
      .error (.gateConfiguration s!"gate '{name}' requires missing dependency '{dependency}'")
    | none => missing_dependency catalog selected rest

/-- Validates a selection and returns dependencies before dependents. -/
def order (catalog : GateCatalog) (names : List String) : Except Error (List GateDefinition) := do
  if names.Nodup then
    missing_dependency catalog names names
    let ordered ← catalog.topological_order names
    ordered.mapM catalog.definition
  else .error (.gateConfiguration "selected gate list contains duplicates")

end GateCatalog

def DEFAULT_GATE_CATALOG : GateCatalog where
  definitions := [
    { name := "degeneracy", scope := .turn, halt_on_fail := true, blocks_export := false },
    { name := "completeness", scope := .draft, depends_on := ["degeneracy"], blocks_export := false },
    { name := "fabrication", scope := .draft, depends_on := ["degeneracy"] },
    { name := "rubric", scope := .run, depends_on := ["completeness", "fabrication"] }]

/-- What a gate run produced, and the gate that halted it. -/
structure GateRun where
  results : List GateResult
  halted_by : Option String := none
  deriving DecidableEq, Repr

/-- A gate implementation over a context `γ`. -/
structure Gate (γ : Type) where
  definition : GateDefinition
  applies : γ → Bool
  evaluate : γ → Except Error GateResult

namespace Gate
variable {γ : Type}

/-- The loop of `GateRunner.run` over the ordered definitions. -/
def run_ordered (gates : List (Gate γ)) (context : γ) : List GateDefinition → List GateResult → Except Error GateRun
  | [], results => .ok { results }
  | definition :: rest, results =>
    match gates.find? (·.definition.name = definition.name) with
    | none => .error (.gateConfiguration s!"unknown gate '{definition.name}'")
    | some gate =>
      if gate.applies context then do
        let result ← gate.evaluate context
        if result.gate ≠ definition.name then
          .error (.gateConfiguration
            s!"gate '{definition.name}' returned result for '{result.gate}'")
        else if result.status = .fail ∧ definition.halt_on_fail then
          .ok { results := results ++ [result], halted_by := some definition.name }
        else run_ordered gates context rest (results ++ [result])
      else run_ordered gates context rest results

/-- `GateRunner.run`. -/
def run (gates : List (Gate γ)) (names : List String) (context : γ) : Except Error GateRun := do
  let ordered ← GateCatalog.order { definitions := gates.map (·.definition) } names
  run_ordered gates context ordered []

end Gate

end MootLoop
