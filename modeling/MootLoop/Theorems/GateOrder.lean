import MootLoop.Common
import MootLoop.Gates
import MootLoop.Lib.Topological

/-! The order of selected gates and the gates a runner evaluates. Ordering is topological sorting in rounds; it fails
    exactly on a selection with a duplicate, an unknown gate, a missing dependency or a cycle. -/

namespace MootLoop.GateCatalog

open Topological

variable {catalog : GateCatalog} {names selected pending ordered : List String} {name : String}

/-! ### Rounds -/

/-- What a gate of the catalog depends on. -/
def declared (catalog : GateCatalog) (name : String) : List String :=
  (catalog.definitions.find? (·.name = name)).elim [] (·.depends_on)

/-- The dependencies among the pending gates. -/
def table (deps : String → List String) (pending : List String) : List (String × List String) :=
  pending.map fun name => (name, (deps name).filter (· ∈ pending))

def cycle_error (left : List String) : Error :=
  let listed := ", ".intercalate left
  .gateConfiguration s!"gate dependency cycle: {listed}"

theorem lookup_table (deps : String → List String) :
    (table deps pending).lookup name = if name ∈ pending then some ((deps name).filter (· ∈ pending)) else none := by
  have lookup_map (f : String → List String) (l : List String) :
      (l.map fun name => (name, f name)).lookup name = if name ∈ l then some (f name) else none := by
    induction l with
    | nil => rfl
    | cons first rest ih =>
      rw [List.map_cons, List.lookup_cons, ih]
      by_cases same : name = first
      · simp [same]
      · simp [same, beq_eq_false_iff_ne.mpr same]
  exact lookup_map _ _

theorem ready_table (deps : String → List String) (sub : selected.filter (· ∈ pending) = pending) :
    (selected.filter fun name => ((table deps pending).lookup name).any (· = [])) = ready deps pending := by
  have among : ready deps pending = (selected.filter (· ∈ pending)).filter fun a => ∀ b ∈ deps a, b ∉ pending := by
    rw [sub]
    rfl
  rw [among, List.filter_filter]
  refine List.filter_congr fun name _ => ?_
  rw [lookup_table]
  by_cases mem : name ∈ pending
  · simp [mem, List.filter_eq_nil_iff]
  · simp [mem]

/-- The rounds over the table of dependencies are the rounds of a topological sort. -/
theorem topological_rounds_eq (deps : String → List String) (fuel : Nat) (sub : selected.filter (· ∈ pending) = pending) :
    topological_rounds fuel selected (table deps pending) ordered =
      (rounds deps fuel pending ordered).mapError cycle_error := by
  have empty_iff : table deps pending = [] ↔ pending = [] := List.map_eq_nil_iff
  induction fuel generalizing pending ordered with
  | zero =>
    rw [topological_rounds, rounds]
    by_cases empty : pending = []
    · rw [if_pos (empty_iff.mpr empty), if_pos empty]
      rfl
    · rw [if_neg (mt empty_iff.mp empty), if_neg empty]
      rfl
  | succ fuel ih =>
    rw [topological_rounds, rounds]
    by_cases empty : pending = []
    · rw [if_pos (empty_iff.mpr empty), if_pos empty]
      rfl
    · rw [if_neg (mt empty_iff.mp empty), if_neg empty]
      simp only [ready_table deps sub]
      by_cases none_ready : ready deps pending = []
      · have left : (selected.filter fun name => ((table deps pending).lookup name).isSome) = pending := by
          conv_rhs => rw [← sub]
          refine List.filter_congr fun name _ => ?_
          rw [lookup_table]
          split <;> simp [*]
        rw [if_pos none_ready, if_pos none_ready, left]
        rfl
      · have remaining : ((table deps pending).filter fun entry => entry.1 ∉ ready deps pending).map
            (fun entry => (entry.1, entry.2.filter (· ∉ ready deps pending))) =
            table deps (pending.filter (· ∉ ready deps pending)) := by
          simp only [table, List.filter_map, List.map_map, Function.comp_def, List.filter_filter]
          refine List.map_congr_left fun name _ => ?_
          simp only [List.mem_filter, decide_eq_true_eq, Bool.decide_and, Bool.and_comm]
        have later : selected.filter (· ∈ pending.filter (· ∉ ready deps pending)) =
            pending.filter (· ∉ ready deps pending) := by
          conv_rhs => rw [← sub, List.filter_filter]
          refine List.filter_congr fun name _ => ?_
          rw [sub]
          simp only [List.mem_filter, decide_eq_true_eq, Bool.decide_and, Bool.and_comm]
        rw [if_neg none_ready, if_neg none_ready, remaining]
        exact ih later List.map_eq_nil_iff

/-- Sorting a selection in rounds, with the declared dependencies. -/
theorem topological_order_eq (names : List String) :
    catalog.topological_order names = (rounds catalog.declared names.length names []).mapError cycle_error := by
  have whole : names.filter (· ∈ names) = names := List.filter_eq_self.mpr fun name mem => by simpa using mem
  exact topological_rounds_eq catalog.declared names.length whole

/-! ### Selections -/

theorem definition_ok {definition : GateDefinition} (found : catalog.definition name = .ok definition) :
    catalog.definitions.find? (·.name = name) = some definition := by
  unfold GateCatalog.definition at found
  split at found
  · rename_i at_name
    cases found
    exact at_name
  · cases found

theorem definition_name {definition : GateDefinition} (found : catalog.definition name = .ok definition) :
    definition.name = name := by simpa using List.find?_some (definition_ok found)

theorem declared_eq {definition : GateDefinition} (found : catalog.definition name = .ok definition) :
    catalog.declared name = definition.depends_on := by rw [declared, definition_ok found]; rfl

/-- Every gate named is in the catalog, with its dependencies among the selected. -/
def Complete (catalog : GateCatalog) (selected names : List String) : Prop :=
  ∀ name ∈ names, ∃ definition, catalog.definition name = .ok definition ∧ ∀ dependency ∈ definition.depends_on, dependency ∈ selected

theorem missing_dependency_ok_iff :
    catalog.missing_dependency selected names = .ok () ↔ catalog.Complete selected names := by
  induction names with
  | nil => simp [missing_dependency, Complete]
  | cons name rest ih =>
    unfold Complete at ih ⊢
    rw [List.forall_mem_cons, ← ih, missing_dependency]
    cases found : catalog.definition name with
    | error e => simp [Bind.bind, Except.bind]
    | ok definition =>
      simp only [bind, Except.bind]
      cases missing : definition.depends_on.find? (· ∉ selected) with
      | some dependency =>
        have out : dependency ∉ selected := by simpa using List.find?_some missing
        have mem := List.mem_of_find?_eq_some missing
        constructor
        · intro h
          cases h
        · rintro ⟨⟨_, found', all⟩, _⟩
          cases found'
          exact absurd (all dependency mem) out
      | none =>
        have all : ∀ dependency ∈ definition.depends_on, dependency ∈ selected := by
          simpa using List.find?_eq_none.mp missing
        exact ⟨fun h => ⟨⟨definition, rfl, all⟩, h⟩, And.right⟩

/-- The definitions of known names. -/
theorem mapM_definition (known : ∀ name ∈ names, ∃ definition, catalog.definition name = .ok definition) :
    ∃ ordered, names.mapM catalog.definition = .ok ordered ∧ ordered.map (·.name) = names ∧
      ∀ definition ∈ ordered, catalog.definition definition.name = .ok definition := by
  induction names with
  | nil => exact ⟨[], rfl, rfl, fun _ mem => by cases mem⟩
  | cons name rest ih =>
    obtain ⟨definition, found⟩ := known name List.mem_cons_self
    obtain ⟨ordered, later, names_eq, founds⟩ := ih fun name mem => known name (List.mem_cons_of_mem _ mem)
    refine ⟨definition :: ordered, ?_, ?_, ?_⟩
    · rw [List.mapM_cons, found, later]
      rfl
    · rw [List.map_cons, names_eq, definition_name found]
    · rintro d mem
      rcases List.mem_cons.mp mem with rfl | mem
      · rw [definition_name found, found]
      · exact founds d mem

/-- A gate of the selection depends on itself, directly or through other selected gates. -/
def Cyclic (catalog : GateCatalog) (names : List String) : Prop := Topological.Cyclic catalog.declared names

theorem bind_ok_iff {ε α β : Type} {m : Except ε α} {f : α → Except ε β} {b : β} :
    m >>= f = .ok b ↔ ∃ a, m = .ok a ∧ f a = .ok b :=
  ⟨bind_ok, by rintro ⟨a, rfl, next⟩; exact next⟩

/-- What an ordered selection passed, and the names in their order. -/
theorem order_eq_ok_iff {ordered : List GateDefinition} : catalog.order names = .ok ordered ↔
    names.Nodup ∧ catalog.Complete names names ∧
      ∃ sorted, rounds catalog.declared names.length names [] = .ok sorted ∧
        sorted.mapM catalog.definition = .ok ordered := by
  have checked : (∃ unit, catalog.missing_dependency names names = .ok unit) ↔ catalog.Complete names names :=
    Iff.trans ⟨fun ⟨_, ok⟩ => ok, fun ok => ⟨(), ok⟩⟩ missing_dependency_ok_iff
  unfold order
  by_cases nodup : names.Nodup
  · rw [if_pos nodup, bind_ok_iff, exists_and_right, checked, bind_ok_iff, topological_order_eq]
    cases rounds catalog.declared names.length names [] with
    | error left => simp [Except.mapError]
    | ok sorted => simp [Except.mapError, nodup]
  · rw [if_neg nodup]
    simp [nodup]

/-- A selection is ordered unless it has a duplicate, an unknown gate, a missing dependency or a cycle. -/
theorem order_ok_iff : (∃ ordered, catalog.order names = .ok ordered) ↔
    names.Nodup ∧ catalog.Complete names names ∧ ¬catalog.Cyclic names := by
  simp only [order_eq_ok_iff, Cyclic]
  constructor
  · rintro ⟨ordered, nodup, complete, sorted, ok, _⟩
    exact ⟨nodup, complete, (rounds_ok_iff [] (Nat.le_refl _) nodup).mp ⟨sorted, ok⟩⟩
  · rintro ⟨nodup, complete, acyclic⟩
    obtain ⟨sorted, ok⟩ := (rounds_ok_iff [] (Nat.le_refl _) nodup).mpr acyclic
    obtain ⟨new, rfl, same, _⟩ := rounds_ok (Nat.le_refl _) nodup ok
    obtain ⟨ordered, found, _⟩ := mapM_definition fun name mem =>
      (complete name (same.mem_iff.mp mem)).imp fun _ => And.left
    exact ⟨ordered, nodup, complete, _, ok, found⟩

/-- The order holds the selected gates, each after all it depends on. -/
theorem order_spec {ordered : List GateDefinition} (ok : catalog.order names = .ok ordered) :
    (ordered.map (·.name)).Perm names ∧
      (∀ definition ∈ ordered, catalog.definition definition.name = .ok definition) ∧
      ∀ before definition after, ordered = before ++ definition :: after →
        ∀ dependency ∈ definition.depends_on, dependency ∈ before.map (·.name) := by
  obtain ⟨nodup, complete, sorted, sorted_ok, found⟩ := order_eq_ok_iff.mp ok
  obtain ⟨new, rfl, same, no_self, in_order⟩ := rounds_ok (Nat.le_refl _) nodup sorted_ok
  obtain ⟨ordered', found', names_eq, founds⟩ := mapM_definition fun name mem =>
    (complete name (same.mem_iff.mp mem)).imp fun _ => And.left
  cases found.symm.trans found'
  refine ⟨names_eq ▸ same, founds, ?_⟩
  rintro before definition after rfl dependency mem
  have at_name := founds definition (by simp)
  have dep : dependency ∈ catalog.declared definition.name := declared_eq at_name ▸ mem
  rw [← names_eq, List.map_append, List.map_cons, List.pairwise_append, List.pairwise_cons] at in_order
  have selected : dependency ∈ sorted := by
    obtain ⟨d, found_d, all⟩ := complete definition.name (same.mem_iff.mp (by rw [← names_eq]; simp))
    cases found_d.symm.trans at_name
    exact same.mem_iff.mpr (all dependency mem)
  rw [← names_eq, List.map_append, List.map_cons] at selected
  rcases List.mem_append.mp selected with first | later
  · exact first
  · rcases List.mem_cons.mp later with rfl | later
    · exact absurd dep (no_self _ (by rw [← names_eq]; simp))
    · exact absurd dep (in_order.2.1.1 dependency later)

/-- In a catalog that was created no selection of its gates has a cycle. -/
theorem created_acyclic {definitions : List GateDefinition} (created : create definitions = .ok catalog)
    (known : names ⊆ catalog.definitions.map (·.name)) : ¬catalog.Cyclic names := by
  obtain ⟨_, no_duplicate, created⟩ := bind_ok created
  obtain ⟨_, _, created⟩ := bind_ok created
  obtain ⟨sorted, sorted_ok, created⟩ := bind_ok created
  cases created
  have distinct (l : List GateDefinition) (declared : List String) (ok : duplicate_definition l declared = .ok ()) :
      (l.map (·.name)).Nodup ∧ ∀ name ∈ l.map (·.name), name ∉ declared := by
    induction l generalizing declared with
    | nil => exact ⟨List.nodup_nil, fun _ mem => by cases mem⟩
    | cons definition rest ih =>
      rw [duplicate_definition] at ok
      split at ok
      · cases ok
      · rename_i fresh
        obtain ⟨nodup, apart⟩ := ih _ ok
        rw [List.map_cons, List.nodup_cons]
        refine ⟨⟨fun again => apart _ again (by simp), nodup⟩, fun name mem => ?_⟩
        rcases List.mem_cons.mp mem with rfl | mem
        · exact fresh
        · exact fun old => apart name mem (List.mem_append_left _ old)
  rw [topological_order_eq] at sorted_ok
  have whole : ¬Cyclic ⟨definitions⟩ (definitions.map (·.name)) := by
    refine (rounds_ok_iff [] (Nat.le_refl _) (distinct definitions [] no_duplicate).1).mp ?_
    cases run : rounds (declared ⟨definitions⟩) (definitions.map (·.name)).length (definitions.map (·.name)) [] with
    | ok sorted => exact ⟨sorted, rfl⟩
    | error left => rw [run] at sorted_ok; cases sorted_ok
  exact fun cyclic => whole (Topological.Cyclic.mono known cyclic)

end MootLoop.GateCatalog

namespace MootLoop.Gate

variable {γ : Type} {gates : List (Gate γ)} {context : γ} {ordered : List GateDefinition} {r : GateRun}

/-- The implementation of a gate. -/
def implementation (gates : List (Gate γ)) (definition : GateDefinition) : Option (Gate γ) :=
  gates.find? (·.definition.name = definition.name)

/-- The gates that apply, of those in order. -/
def applicable (gates : List (Gate γ)) (context : γ) (ordered : List GateDefinition) : List GateDefinition :=
  ordered.filter fun definition => (implementation gates definition).any (·.applies context)

/-- The gate's evaluation, under its own name. -/
def Evaluates (gates : List (Gate γ)) (context : γ) (definition : GateDefinition) (result : GateResult) : Prop :=
  ∃ gate, implementation gates definition = some gate ∧ gate.evaluate context = .ok result ∧ result.gate = definition.name

/-- The failure of a gate that halts on failure. -/
def Halts (definition : GateDefinition) (result : GateResult) : Prop :=
  result.status = .fail ∧ definition.halt_on_fail = true

/-- A run of the gates in order: the results are those of the applicable ones up to and including the first that
    halts, or of all of them when none does. -/
def Executed (gates : List (Gate γ)) (context : γ) (ordered : List GateDefinition) (r : GateRun) : Prop :=
  ∃ (evaluated : List (GateDefinition × GateResult)) (later : List GateDefinition),
    applicable gates context ordered = evaluated.map Prod.fst ++ later ∧ r.results = evaluated.map Prod.snd ∧
      (∀ e ∈ evaluated, Evaluates gates context e.1 e.2) ∧
      (later = [] ∧ r.halted_by = none ∧ (∀ e ∈ evaluated, ¬Halts e.1 e.2) ∨
        ∃ before last, evaluated = before ++ [last] ∧ (∀ e ∈ before, ¬Halts e.1 e.2) ∧ Halts last.1 last.2 ∧
          r.halted_by = some last.1.name)

theorem executed_nil : Executed gates context [] r ↔ r = { results := [] } := by
  constructor
  · rintro ⟨evaluated, later, split, results, _, ending⟩
    obtain ⟨none_evaluated, rfl⟩ := List.append_eq_nil_iff.mp split.symm
    cases List.map_eq_nil_iff.mp none_evaluated
    rcases ending with ⟨_, halted, _⟩ | ⟨before, last, split, _⟩
    · cases r
      cases results
      cases halted
      rfl
    · simp at split
  · rintro rfl
    exact ⟨[], [], rfl, rfl, by simp, .inl ⟨rfl, rfl, by simp⟩⟩

theorem executed_skip {definition : GateDefinition} {gate : Gate γ} (found : implementation gates definition = some gate)
    (inapplicable : gate.applies context = false) :
    Executed gates context (definition :: ordered) r ↔ Executed gates context ordered r := by
  have skipped : applicable gates context (definition :: ordered) = applicable gates context ordered :=
    List.filter_cons_of_neg (by simp [found, inapplicable])
  simp only [Executed, skipped]

theorem executed_apply {definition : GateDefinition} {gate : Gate γ} (found : implementation gates definition = some gate)
    (applies : gate.applies context = true) :
    Executed gates context (definition :: ordered) r ↔
      ∃ result, gate.evaluate context = .ok result ∧ result.gate = definition.name ∧
        (Halts definition result ∧ r = { results := [result], halted_by := some definition.name } ∨
          ¬Halts definition result ∧ ∃ r', Executed gates context ordered r' ∧
            r = { results := result :: r'.results, halted_by := r'.halted_by }) := by
  have first : applicable gates context (definition :: ordered) = definition :: applicable gates context ordered :=
    List.filter_cons_of_pos (by simp [found, applies])
  unfold Executed
  rw [first]
  constructor
  · rintro ⟨evaluated, later, split, results, evaluates, ending⟩
    cases evaluated with
    | nil =>
      rcases ending with ⟨rfl, _⟩ | ⟨before, last, eq, _⟩
      · cases split
      · simp at eq
    | cons e es =>
      obtain ⟨rfl, rest⟩ := List.cons.inj split
      obtain ⟨gate', found', ok, named⟩ := evaluates e List.mem_cons_self
      cases found.symm.trans found'
      have later_evaluates : ∀ e ∈ es, Evaluates gates context e.1 e.2 := fun e mem =>
        evaluates e (List.mem_cons_of_mem _ mem)
      refine ⟨e.2, ok, named, ?_⟩
      cases r
      cases results
      rcases ending with ⟨rfl, rfl, none_halts⟩ | ⟨before, last, eq, before_on, halts, rfl⟩
      · refine .inr ⟨none_halts e List.mem_cons_self, { results := es.map Prod.snd }, ?_, rfl⟩
        exact ⟨es, [], rest, rfl, later_evaluates,
          .inl ⟨rfl, rfl, fun e mem => none_halts e (List.mem_cons_of_mem _ mem)⟩⟩
      · cases before with
        | nil =>
          cases eq
          exact .inl ⟨halts, rfl⟩
        | cons b before =>
          cases eq
          refine .inr ⟨before_on _ List.mem_cons_self,
            { results := (before ++ [last]).map Prod.snd, halted_by := some last.1.name }, ?_, rfl⟩
          exact ⟨before ++ [last], later, rest, rfl, later_evaluates,
            .inr ⟨before, last, rfl, fun e mem => before_on e (List.mem_cons_of_mem _ mem), halts, rfl⟩⟩
  · rintro ⟨result, ok, named, ending⟩
    have evaluates : Evaluates gates context definition result := ⟨gate, found, ok, named⟩
    rcases ending with ⟨halts, rfl⟩ | ⟨goes_on, r', ⟨evaluated, later, split, results, all, ending⟩, rfl⟩
    · exact ⟨[(definition, result)], applicable gates context ordered, rfl, rfl, by simpa using evaluates,
        .inr ⟨[], (definition, result), rfl, by simp, halts, rfl⟩⟩
    · refine ⟨(definition, result) :: evaluated, later, by rw [split]; rfl, by rw [results]; rfl,
        List.forall_mem_cons.mpr ⟨evaluates, all⟩, ?_⟩
      rcases ending with ⟨rfl, halted, none_halts⟩ | ⟨before, last, rfl, before_on, halts, halted⟩
      · exact .inl ⟨rfl, halted, List.forall_mem_cons.mpr ⟨goes_on, none_halts⟩⟩
      · exact .inr ⟨(definition, result) :: before, last, rfl, List.forall_mem_cons.mpr ⟨goes_on, before_on⟩, halts, halted⟩

/-- The loop over the ordered gates appends what a run of them gives. -/
theorem run_ordered_iff (known : ∀ definition ∈ ordered, (implementation gates definition).isSome) (results : List GateResult) :
    run_ordered gates context ordered results = .ok r ↔
      ∃ r', Executed gates context ordered r' ∧ r = { results := results ++ r'.results, halted_by := r'.halted_by } := by
  induction ordered generalizing results with
  | nil =>
    simp only [executed_nil, exists_eq_left, List.append_nil, run_ordered, Except.ok.injEq]
    exact eq_comm
  | cons definition rest ih =>
    have later := fun results => ih (fun d mem => known d (List.mem_cons_of_mem _ mem)) results
    obtain ⟨gate, found⟩ := Option.isSome_iff_exists.mp (known definition List.mem_cons_self)
    have found' : gates.find? (·.definition.name = definition.name) = some gate := found
    rw [run_ordered, found']
    dsimp only
    cases applies : gate.applies context with
    | false =>
      simp only [executed_skip found applies]
      exact later results
    | true =>
      simp only [executed_apply found applies, if_true, GateCatalog.bind_ok_iff]
      constructor
      · rintro ⟨result, ok, next⟩
        split at next
        · cases next
        · rename_i named
          split at next
          · rename_i halts
            cases next
            exact ⟨_, ⟨result, ok, not_not.mp named, .inl ⟨halts, rfl⟩⟩, rfl⟩
          · rename_i goes_on
            obtain ⟨r', executed, rfl⟩ := (later _).mp next
            exact ⟨_, ⟨result, ok, not_not.mp named, .inr ⟨goes_on, r', executed, rfl⟩⟩, by simp⟩
      · rintro ⟨_, ⟨result, ok, named, ending⟩, rfl⟩
        refine ⟨result, ok, ?_⟩
        rw [if_neg (not_not.mpr named)]
        rcases ending with ⟨halts, rfl⟩ | ⟨goes_on, r', executed, rfl⟩
        · exact if_pos halts
        · exact (if_neg goes_on).trans ((later _).mpr ⟨r', executed, by simp⟩)

/-- The gates in order are implemented. -/
theorem order_implemented {names : List String}
    (ok : GateCatalog.order { definitions := gates.map (·.definition) } names = .ok ordered) :
    ∀ definition ∈ ordered, (implementation gates definition).isSome := by
  intro definition mem
  have found := GateCatalog.definition_ok ((GateCatalog.order_spec ok).2.1 definition mem)
  rw [List.find?_map] at found
  obtain ⟨gate, at_name, _⟩ := Option.map_eq_some_iff.mp found
  exact Option.isSome_iff_exists.mpr ⟨gate, at_name⟩

/-- A runner returns exactly the run of the selected gates in order. -/
theorem run_iff {names : List String} : run gates names context = .ok r ↔
    ∃ ordered, GateCatalog.order { definitions := gates.map (·.definition) } names = .ok ordered ∧
      Executed gates context ordered r := by
  rw [run, GateCatalog.bind_ok_iff]
  refine exists_congr fun ordered => and_congr_right fun ok => ?_
  simp only [run_ordered_iff (order_implemented ok), List.nil_append]
  exact ⟨fun ⟨r', executed, eq⟩ => eq ▸ executed, fun executed => ⟨r, executed, rfl⟩⟩

end MootLoop.Gate

namespace MootLoop.GateCatalog

/-- A selection is ordered exactly when it has no duplicate, no unknown gate, no missing dependency and no cycle; then
    its gates come each after all it depends on, and a runner gives the results of those that apply, in this order, up
    to and including the first halting failure. -/
theorem ordering_and_execution (catalog : GateCatalog) (names : List String) :
    ((∃ ordered, catalog.order names = .ok ordered) ↔
        names.Nodup ∧ (∀ name ∈ names, ∃ definition, catalog.definition name = .ok definition ∧
          ∀ dependency ∈ definition.depends_on, dependency ∈ names) ∧ ¬catalog.Cyclic names) ∧
      (∀ ordered, catalog.order names = .ok ordered →
        (ordered.map (·.name)).Perm names ∧
          (∀ definition ∈ ordered, catalog.definition definition.name = .ok definition) ∧
          ∀ before definition after, ordered = before ++ definition :: after →
            ∀ dependency ∈ definition.depends_on, dependency ∈ before.map (·.name)) ∧
      ∀ (γ : Type) (gates : List (Gate γ)) (context : γ) (r : GateRun),
        Gate.run gates names context = .ok r ↔
          ∃ ordered, order { definitions := gates.map (·.definition) } names = .ok ordered ∧
            Gate.Executed gates context ordered r :=
  ⟨order_ok_iff, fun _ => order_spec, fun _ _ _ _ => Gate.run_iff⟩

/-- The default catalog, its gates given in the reverse of their order. -/
theorem ordering_default_gates :
    DEFAULT_GATE_CATALOG.order ["rubric", "fabrication", "completeness", "degeneracy"] =
        .ok (["degeneracy", "fabrication", "completeness", "rubric"].map fun name =>
          (DEFAULT_GATE_CATALOG.definitions.find? (·.name = name)).getD ⟨name, .run, [], false, true⟩) ∧
      ¬DEFAULT_GATE_CATALOG.Cyclic ["rubric", "fabrication", "completeness", "degeneracy"] := by
  have ok : DEFAULT_GATE_CATALOG.order ["rubric", "fabrication", "completeness", "degeneracy"] =
      .ok (["degeneracy", "fabrication", "completeness", "rubric"].map fun name =>
        (DEFAULT_GATE_CATALOG.definitions.find? (·.name = name)).getD ⟨name, .run, [], false, true⟩) := by decide +kernel
  exact ⟨ok, ((ordering_and_execution _ _).1.mp ⟨_, ok⟩).2.2⟩

end MootLoop.GateCatalog
