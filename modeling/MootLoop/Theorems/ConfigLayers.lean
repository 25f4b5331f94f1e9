import MootLoop.RunConfig

/-! The layers of a run configuration: what each leaf of the resolved one is, which changes a layer above the adapter is
    refused, and the one way a value of the layers is lost. -/

namespace MootLoop.RunConfig
open Nested

variable {F : Type} {floats : Floats F}

/-! ### Dumped contents -/

theorem keys_present_sublist (members : List (String × Option (Tree F))) :
    ((present members).map Prod.fst).Sublist (members.map Prod.fst) := by
  induction members with
  | nil => exact .slnil
  | cons member rest ih =>
    obtain ⟨name, t⟩ := member
    cases t with
    | none => exact ih.cons name
    | some t => exact ih.cons₂ name

theorem lookup_present {members : List (String × Option (Tree F))} (nodup : (members.map Prod.fst).Nodup)
    (name : String) : (present members).lookup name = (members.lookup name).join := by
  induction members with
  | nil => rfl
  | cons member rest ih =>
    obtain ⟨key, t⟩ := member
    obtain ⟨fresh, nodup⟩ := List.nodup_cons.mp nodup
    have later := ih nodup
    by_cases same : name = key
    · subst same
      cases t with
      | some t => simp [present, List.lookup_cons]
      | none =>
        have gone : (present rest).lookup name = none :=
          lookup_eq_none_of_not_mem fun mem => fresh ((keys_present_sublist rest).subset mem)
        rw [List.lookup_cons, beq_self_eq_true]
        exact gone
    · have other : (name == key) = false := by simpa using same
      rw [List.lookup_cons, other, ← later]
      cases t with
      | none => rfl
      | some t => simp [present, List.lookup_cons, other]

theorem distinct_present {members : List (String × Option (Tree F))} (nodup : (members.map Prod.fst).Nodup)
    (each : ∀ member ∈ members, ∀ t, member.2 = some t → t.Distinct) : (mapping (present members)).Distinct := by
  refine ⟨nodup.sublist (keys_present_sublist members), allDistinct_iff.mpr fun entry mem => ?_⟩
  obtain ⟨member, authored, shown⟩ := List.mem_filterMap.mp mem
  obtain ⟨t, held, rfl⟩ := Option.map_eq_some_iff.mp shown
  exact each member authored t held

theorem Presence.distinct (m : Presence) {α : Type} {write : α → Tree F} (each : ∀ b, (write b).Distinct)
    (a : m.Field α) : ∀ t, m.dumped write a = some t → t.Distinct := by
  intro t shown
  rcases m.dumped_eq shown with rfl | ⟨b, rfl⟩
  · trivial
  · exact each b

theorem leaf_distinct {α : Type} (kind : Kind F α) (a : α) : (leaf kind a).Distinct := trivial

theorem LoopCaps.distinct {m : Presence} (caps : LoopCaps m) : (caps.model_dump (F := F)).Distinct := by
  refine distinct_present (by simp) ?_
  simp only [List.forall_mem_cons]
  exact ⟨m.distinct (leaf_distinct _) _, m.distinct (leaf_distinct _) _, m.distinct (leaf_distinct _) _,
    m.distinct (leaf_distinct _) _, by simp⟩

theorem Panels.distinct {m : Presence} (panels : Panels m) : (panels.model_dump (F := F)).Distinct := by
  refine distinct_present (by simp) ?_
  simp only [List.forall_mem_cons]
  exact ⟨m.distinct (leaf_distinct _) _, m.distinct (leaf_distinct _) _, m.distinct (leaf_distinct _) _,
    m.distinct (leaf_distinct _) _, by simp⟩

theorem Convergence.distinct {m : Presence} (convergence : Convergence m F) :
    (convergence.model_dump floats).Distinct := by
  refine distinct_present (by simp) ?_
  simp only [List.forall_mem_cons]
  exact ⟨m.distinct (leaf_distinct _) _, m.distinct (leaf_distinct _) _, m.distinct (leaf_distinct _) _, by simp⟩

theorem BudgetOverlay.distinct (budget : BudgetOverlay F) : (budget.model_dump floats).Distinct := by
  refine distinct_present (by simp) ?_
  simp only [List.forall_mem_cons]
  exact ⟨partly.distinct (leaf_distinct _) _, partly.distinct (leaf_distinct _) _, by simp⟩

theorem ResolvedBudget.distinct (budget : ResolvedBudget F) : (budget.model_dump floats).Distinct := by
  refine distinct_present (by simp) ?_
  simp only [List.forall_mem_cons]
  exact ⟨filled.distinct (leaf_distinct _) _, filled.distinct (leaf_distinct _) _, by simp⟩

theorem TaskAdapterConfig.distinct (a : TaskAdapterConfig F) : (mapping (a.content floats)).Distinct := by
  refine distinct_present (by simp) ?_
  simp only [List.forall_mem_cons]
  exact ⟨filled.distinct (leaf_distinct _) _, filled.distinct (leaf_distinct _) _, authored.distinct LoopCaps.distinct _,
    authored.distinct Panels.distinct _, authored.distinct Convergence.distinct _, authored.distinct (leaf_distinct _) _,
    filled.distinct (leaf_distinct _) _, authored.distinct (leaf_distinct _) _, authored.distinct (leaf_distinct _) _,
    authored.distinct (leaf_distinct _) _, by simp⟩

theorem RunConfigOverlay.distinct (o : RunConfigOverlay F) : (mapping (o.content floats)).Distinct := by
  refine distinct_present (by simp) ?_
  simp only [List.forall_mem_cons]
  exact ⟨partly.distinct (leaf_distinct _) _, partly.distinct LoopCaps.distinct _, partly.distinct Panels.distinct _,
    partly.distinct Convergence.distinct _, partly.distinct (leaf_distinct _) _, partly.distinct (leaf_distinct _) _,
    partly.distinct (leaf_distinct _) _, partly.distinct (leaf_distinct _) _, partly.distinct (leaf_distinct _) _,
    partly.distinct (leaf_distinct _) _, partly.distinct (leaf_distinct _) _, partly.distinct BudgetOverlay.distinct _,
    by simp⟩

theorem ResolvedRunConfig.distinct (c : ResolvedRunConfig F) : (mapping (c.content floats)).Distinct := by
  refine distinct_present (by simp) ?_
  simp only [List.forall_mem_cons]
  exact ⟨filled.distinct (leaf_distinct _) _, filled.distinct (leaf_distinct _) _, filled.distinct LoopCaps.distinct _,
    filled.distinct Panels.distinct _, filled.distinct Convergence.distinct _, filled.distinct (leaf_distinct _) _,
    filled.distinct (leaf_distinct _) _, filled.distinct (leaf_distinct _) _, filled.distinct (leaf_distinct _) _,
    filled.distinct (leaf_distinct _) _, filled.distinct (leaf_distinct _) _, filled.distinct (leaf_distinct _) _,
    filled.distinct ResolvedBudget.distinct _, by simp⟩

/-! ### What the last validation reads -/

/-- The defaults of the resolved model's fields. -/
def default_of (path : Path) : Option (Scalar F) :=
  if path = ["panels", "jurors"] then some (.int 0)
  else if path = ["budget", "hard_cap_usd"] then some .null
  else none

/-- Each value of `t` is the one `source` holds there, or the default for want of one. -/
def Reads (t : Tree F) (source : Option (Tree F)) (default : Path → Option (Scalar F)) : Prop :=
  ∀ path ∈ t.leaf_paths, t.leaf_at path = (source.bind (·.leaf_at path)).or (default path)

theorem field_reads {α : Type} {kind : Kind F α} {fallback : Option α} {loc : Path} {content : Content F} {name : String}
    {a : α} {default : Path → Option (Scalar F)} (ok : field kind fallback loc content name = .ok a)
    (same : default [] = fallback.map kind.write) : Reads (leaf kind a) (content.lookup name) default := by
  intro path mem
  rw [leaf, leaf_paths, List.mem_singleton] at mem
  subst mem
  unfold field at ok
  cases held : content.lookup name with
  | none =>
    rw [held] at ok
    cases fallback with
    | none => cases ok
    | some b =>
      cases ok
      exact same.symm
  | some t =>
    rw [held] at ok
    cases read : kind.read t with
    | error msg => simp [read, Except.mapError] at ok
    | ok b =>
      simp only [read, Except.mapError, Except.ok.injEq] at ok
      subst ok
      rw [kind.read_ok read]
      rfl

theorem submodel_reads {α : Type} {model name : String} {validate : Content F → Except Invalid α} {dump : α → Tree F}
    {content : Content F} {a : α} {default : Path → Option (Scalar F)}
    (ok : submodel model name validate content = .ok a)
    (each : ∀ members, validate members = .ok a → Reads (dump a) (some (mapping members)) default) :
    Reads (dump a) (content.lookup name) default := by
  unfold submodel at ok
  split at ok
  · cases ok
  · cases ok
  · next members held =>
    rw [held]
    exact each members ok

/-- A model whose members read theirs reads the mapping they are in. -/
theorem reads_present {members : List (String × Option (Tree F))} {content : Content F}
    {default : Path → Option (Scalar F)} (nodup : (members.map Prod.fst).Nodup)
    (each : ∀ member ∈ members, ∀ t, member.2 = some t →
      Reads t (content.lookup member.1) fun path => default (member.1 :: path)) :
    Reads (mapping (present members)) (some (mapping content)) default := by
  intro path mem
  cases path with
  | nil => exact absurd mem (nil_not_mem_entry_paths _)
  | cons name path =>
    have found (entries : Content F) (mem : name :: path ∈ entry_paths entries) :
        ∃ t, (name, t) ∈ entries ∧ path ∈ t.leaf_paths := by
      induction entries with
      | nil => cases mem
      | cons entry rest ih =>
        rcases List.mem_append.mp mem with here | later
        · obtain ⟨_, inside, same⟩ := List.mem_map.mp here
          cases same
          exact ⟨entry.2, List.mem_cons_self, inside⟩
        · obtain ⟨t, mem, inside⟩ := ih later
          exact ⟨t, List.mem_cons_of_mem _ mem, inside⟩
    obtain ⟨t, held, inside⟩ := found _ mem
    obtain ⟨member, authored, shown⟩ := List.mem_filterMap.mp held
    obtain ⟨t, set, same⟩ := Option.map_eq_some_iff.mp shown
    cases same
    have looked : (present members).lookup member.1 = some t := by
      rw [lookup_present nodup, Option.join_eq_some_iff, ← set]
      exact (Dict.lookup_eq_some nodup).mpr authored
    simp only [leaf_at, looked, Option.bind_some]
    exact each member authored t set path inside

theorem filled_reads {α : Type} {write : α → Tree F} {a : α} {source : Option (Tree F)}
    {default : Path → Option (Scalar F)} (reads : Reads (write a) source default) :
    ∀ t, filled.dumped write a = some t → Reads t source default := by
  rintro t ⟨⟩
  exact reads

theorem LoopCaps.reads {content : Content F} {caps : LoopCaps filled} (ok : LoopCaps.model_validate content = .ok caps) :
    Reads caps.model_dump (some (mapping content)) fun path => default_of ("loop_caps" :: path) := by
  obtain ⟨associate_partner, partner_ok, ok⟩ := bind_ok ok
  obtain ⟨oc, oc_ok, ok⟩ := bind_ok ok
  obtain ⟨bolster, bolster_ok, ok⟩ := bind_ok ok
  obtain ⟨restructure, restructure_ok, ok⟩ := bind_ok ok
  cases ok
  refine reads_present (by simp) ?_
  simp only [List.forall_mem_cons]
  exact ⟨filled_reads (field_reads partner_ok (by simp [default_of])),
    filled_reads (field_reads oc_ok (by simp [default_of])),
    filled_reads (field_reads bolster_ok (by simp [default_of])),
    filled_reads (field_reads restructure_ok (by simp [default_of])), by simp⟩

theorem Panels.reads {content : Content F} {panels : Panels filled} (ok : Panels.model_validate content = .ok panels) :
    Reads panels.model_dump (some (mapping content)) fun path => default_of ("panels" :: path) := by
  obtain ⟨judges, judges_ok, ok⟩ := bind_ok ok
  obtain ⟨jury, jury_ok, ok⟩ := bind_ok ok
  obtain ⟨jurors, jurors_ok, ok⟩ := bind_ok ok
  obtain ⟨rubric_judges, rubric_ok, ok⟩ := bind_ok ok
  split at ok <;> cases ok
  refine reads_present (by simp) ?_
  simp only [List.forall_mem_cons]
  exact ⟨filled_reads (field_reads judges_ok (by simp [default_of])),
    filled_reads (field_reads jury_ok (by simp [default_of])),
    filled_reads (field_reads jurors_ok (by simp [default_of, Kind.integer])),
    filled_reads (field_reads rubric_ok (by simp [default_of])), by simp⟩

theorem Convergence.reads {content : Content F} {convergence : Convergence filled F}
    (ok : Convergence.model_validate floats content = .ok convergence) :
    Reads (convergence.model_dump floats) (some (mapping content)) fun path => default_of ("convergence" :: path) := by
  obtain ⟨score_delta_floor, score_ok, ok⟩ := bind_ok ok
  obtain ⟨material_change_floor, material_ok, ok⟩ := bind_ok ok
  obtain ⟨coverage_floor, coverage_ok, ok⟩ := bind_ok ok
  cases ok
  refine reads_present (by simp) ?_
  simp only [List.forall_mem_cons]
  exact ⟨filled_reads (field_reads score_ok (by simp [default_of])),
    filled_reads (field_reads material_ok (by simp [default_of])),
    filled_reads (field_reads coverage_ok (by simp [default_of])), by simp⟩

theorem ResolvedBudget.reads {content : Content F} {budget : ResolvedBudget F}
    (ok : ResolvedBudget.model_validate floats content = .ok budget) :
    Reads (budget.model_dump floats) (some (mapping content)) fun path => default_of ("budget" :: path) := by
  obtain ⟨tier, tier_ok, ok⟩ := bind_ok ok
  obtain ⟨hard_cap_usd, cap_ok, ok⟩ := bind_ok ok
  cases ok
  refine reads_present (by simp) ?_
  simp only [List.forall_mem_cons]
  exact ⟨filled_reads (field_reads tier_ok (by simp [default_of])),
    filled_reads (field_reads cap_ok (by simp [default_of, Kind.optional])), by simp⟩

theorem ResolvedRunConfig.reads {overridable : List Path} {sources : List ConfigSource} {merged : Content F}
    {c : ResolvedRunConfig F} (ok : ResolvedRunConfig.model_validate floats overridable sources merged = .ok c) :
    Reads (mapping (c.content floats)) (some (mapping merged)) default_of ∧ c.schema_version = "1.0" := by
  obtain ⟨task, task_ok, ok⟩ := bind_ok ok
  obtain ⟨stages, stages_ok, ok⟩ := bind_ok ok
  obtain ⟨loop_caps, caps_ok, ok⟩ := bind_ok ok
  obtain ⟨panels, panels_ok, ok⟩ := bind_ok ok
  obtain ⟨convergence, convergence_ok, ok⟩ := bind_ok ok
  obtain ⟨gates, gates_ok, ok⟩ := bind_ok ok
  obtain ⟨rubric_id, rubric_ok, ok⟩ := bind_ok ok
  obtain ⟨rubric_threshold, threshold_ok, ok⟩ := bind_ok ok
  obtain ⟨restructure_threshold, restructure_ok, ok⟩ := bind_ok ok
  obtain ⟨deliverables, deliverables_ok, ok⟩ := bind_ok ok
  obtain ⟨run_mode, mode_ok, ok⟩ := bind_ok ok
  obtain ⟨max_attempts, attempts_ok, ok⟩ := bind_ok ok
  obtain ⟨budget, budget_ok, ok⟩ := bind_ok ok
  cases ok
  refine ⟨reads_present (by simp) ?_, rfl⟩
  simp only [List.forall_mem_cons]
  exact ⟨filled_reads (field_reads task_ok (by simp [default_of])),
    filled_reads (field_reads stages_ok (by simp [default_of])),
    filled_reads (submodel_reads caps_ok fun _ => LoopCaps.reads),
    filled_reads (submodel_reads panels_ok fun _ => Panels.reads),
    filled_reads (submodel_reads convergence_ok fun _ => Convergence.reads),
    filled_reads (field_reads gates_ok (by simp [default_of])),
    filled_reads (field_reads rubric_ok (by simp [default_of])),
    filled_reads (field_reads threshold_ok (by simp [default_of])),
    filled_reads (field_reads restructure_ok (by simp [default_of])),
    filled_reads (field_reads deliverables_ok (by simp [default_of])),
    filled_reads (field_reads mode_ok (by simp [default_of])),
    filled_reads (field_reads attempts_ok (by simp [default_of])),
    filled_reads (submodel_reads budget_ok fun _ => ResolvedBudget.reads), by simp⟩

/-! ### The layers above the adapter -/

section Policy
variable [DecidableEq F] {allowed : List Path} {path : Path}

/-- A structural leaf that no layer above the adapter may change. -/
def Owned (allowed : List Path) (path : Path) : Prop := path ∈ STRUCTURAL_LEAF_PATHS ∧ path ∉ allowed

theorem forM_ok {ε α : Type} {f : α → Except ε Unit} {items : List α} (ok : items.forM f = .ok ()) :
    ∀ a ∈ items, f a = .ok () := by
  induction items with
  | nil => simp
  | cons a rest ih =>
    change (f a >>= fun _ => rest.forM f) = .ok () at ok
    obtain ⟨⟨⟩, first, later⟩ := bind_ok ok
    exact List.forall_mem_cons.mpr ⟨first, ih later⟩

theorem same_value_leaf {t : Option (Tree F)} {v : Scalar F} (same : same_value t (some (.leaf v)) = true) :
    t = some (.leaf v) := by
  cases t with
  | none => cases same
  | some t =>
    cases t with
    | mapping members => cases same
    | leaf w =>
      have same : (w == v) = true := same
      rw [beq_iff_eq.mp same]

theorem enforced {current incoming : Content F} {layer : ConfigLayer} (distinct : (mapping incoming).Distinct)
    (ok : enforce_structural_policy current incoming allowed layer = .ok ()) {v : Scalar F}
    (sets : (mapping incoming).leaf_at path = some v) :
    path ∉ IMMUTABLE_IDENTITY_PATHS ∧ (Owned allowed path → (mapping current).leaf_at path = some v) := by
  have passed := forM_ok ok path ((mem_leaf_paths distinct).mpr (Option.isSome_iff_exists.mpr ⟨v, sets⟩))
  unfold check_leaf at passed
  split at passed
  · cases passed
  · next free =>
    refine ⟨free, fun owned => ?_⟩
    rw [if_neg (not_not_intro owned.1)] at passed
    split at passed
    · next same =>
      rw [leaf_at_eq_some.mp sets] at same
      exact leaf_at_eq_some.mpr (same_value_leaf same)
    · rw [if_pos owned.2] at passed
      cases passed

/-- The layers are checked and merged one after another. -/
def Accepted (allowed : List Path) : Content F → List (Content F) → Content F → Prop
  | merged, [], result => result = merged
  | merged, layer :: rest, result =>
    (∃ name, enforce_structural_policy merged layer allowed name = .ok ()) ∧
      Accepted allowed (deep_merge merged layer) rest result

theorem Accepted.append {start middle result : Content F} {layers later : List (Content F)}
    (first : Accepted allowed start layers middle) (second : Accepted allowed middle later result) :
    Accepted allowed start (layers ++ later) result := by
  induction layers generalizing start with
  | nil =>
    cases first
    exact second
  | cons layer rest ih => exact ⟨first.1, ih first.2⟩

theorem Accepted.merged {start result : Content F} {layers : List (Content F)}
    (accepted : Accepted allowed start layers result) : result = layers.foldl deep_merge start := by
  induction layers generalizing start with
  | nil => exact accepted
  | cons layer rest ih => exact ih accepted.2

theorem Accepted.identity {start result : Content F} {layers : List (Content F)}
    (accepted : Accepted allowed start layers result) (distinct : ∀ layer ∈ layers, (mapping layer).Distinct)
    (kept : path ∈ IMMUTABLE_IDENTITY_PATHS) : ∀ layer ∈ layers, (mapping layer).leaf_at path = none := by
  induction layers generalizing start with
  | nil => simp
  | cons layer rest ih =>
    obtain ⟨⟨name, ok⟩, later⟩ := accepted
    obtain ⟨own, distinct⟩ := List.forall_mem_cons.mp distinct
    refine List.forall_mem_cons.mpr ⟨?_, ih later distinct⟩
    by_contra sets
    obtain ⟨v, sets⟩ := Option.ne_none_iff_exists'.mp sets
    exact (enforced own ok sets).1 kept

/-- An owned leaf keeps its value through the accepted layers, unless one of them cuts it off: then it has none. -/
theorem Accepted.owned {start result : Content F} {layers : List (Content F)}
    (accepted : Accepted allowed start layers result) (distinct : ∀ layer ∈ layers, (mapping layer).Distinct)
    (owned : Owned allowed path) :
    (∀ layer ∈ layers, ∀ v, (mapping layer).leaf_at path = some v → (mapping start).leaf_at path = some v) ∧
    ((∃ layer ∈ layers, Cuts layer path) ∧ (mapping result).leaf_at path = none ∨
      (∀ layer ∈ layers, ¬Cuts layer path) ∧ (mapping result).leaf_at path = (mapping start).leaf_at path) := by
  induction layers generalizing start with
  | nil =>
    cases accepted
    simp
  | cons layer rest ih =>
    obtain ⟨⟨name, ok⟩, later⟩ := accepted
    obtain ⟨own, distinct⟩ := List.forall_mem_cons.mp distinct
    obtain ⟨sets, after⟩ := ih later distinct
    have merged := leaf_at_deep_merge start path own
    have first : ∀ v, (mapping layer).leaf_at path = some v → (mapping start).leaf_at path = some v :=
      fun v sets => (enforced own ok sets).2 owned
    by_cases cuts : Cuts layer path
    · have gone : (mapping (deep_merge start layer)).leaf_at path = none := by rw [merged, cuts]; rfl
      rw [gone] at sets after
      refine ⟨List.forall_mem_cons.mpr ⟨first, fun layer mem v holds => absurd (sets layer mem v holds) (by simp)⟩,
        .inl ⟨⟨layer, List.mem_cons_self, cuts⟩, ?_⟩⟩
      rcases after with ⟨-, gone⟩ | ⟨-, gone⟩ <;> exact gone
    · have same : (mapping (deep_merge start layer)).leaf_at path = (mapping start).leaf_at path := by
        cases here : (mapping layer).effect path with
        | silent => rw [merged, here]; rfl
        | cut => exact absurd here cuts
        | set v => rw [merged, here, first v (effect_eq_set.mp here)]; rfl
      rw [same] at sets after
      refine ⟨List.forall_mem_cons.mpr ⟨first, sets⟩, ?_⟩
      rcases after with ⟨⟨cutting, mem, later⟩, gone⟩ | ⟨uncut, same⟩
      · exact .inl ⟨⟨cutting, List.mem_cons_of_mem _ mem, later⟩, gone⟩
      · exact .inr ⟨List.forall_mem_cons.mpr ⟨cuts, uncut⟩, same⟩

end Policy

/-! ### The layers of a resolution -/

/-- The layers of a resolution, each of them valid, those above the adapter from the lowest. -/
structure Layers (F : Type) where
  defaults : DefaultRunConfig F
  fallback : Option (RunConfigOverlay F)
  adapter : TaskAdapterConfig F
  upper : List (RunConfigOverlay F)

section Resolution
variable [DecidableEq F] {x : Loaders F} {a : Arguments F} {layers : Layers F} {c : ResolvedRunConfig F}

def load_overlay {α : Type} (x : Loaders F) (validate : x.Raw → Except Invalid α) (overlay : α → RunConfigOverlay F)
    (layer : ConfigLayer) : Option ConfigLayerInput → Except ConfigResolutionError (List (RunConfigOverlay F))
  | none => .ok []
  | some source => do
    let model ← load x validate source layer
    .ok [overlay model]

/-- The layers given, each read on its own. -/
def load_layers (x : Loaders F) (a : Arguments F) : Except ConfigResolutionError (Layers F) := do
  let defaults ← load x x.default_run_config a.defaults .defaults
  let adapter ← load x x.task_adapter_config a.adapter .task_adapter
  let firm ← load_overlay x x.firm_preferences (·.run_config) .firm_preferences a.firm_preferences
  let matter ← load_overlay x x.run_config_overlay id .matter_overlay a.matter_overlay
  let flags ← load_overlay x x.run_config_overlay id .invocation_flags a.invocation_flags
  .ok { defaults, fallback := a.legacy_fallback, adapter, upper := firm ++ matter ++ flags }

namespace Layers

/-- What the layers between the defaults and those above the adapter hold. -/
def shape (floats : Floats F) (layers : Layers F) : List (Content F) :=
  layers.fallback.toList.map (·.content floats) ++ [layers.adapter.content floats]

def lower (floats : Floats F) (layers : Layers F) : List (Content F) :=
  layers.defaults.content floats :: layers.shape floats

def upper_contents (floats : Floats F) (layers : Layers F) : List (Content F) := layers.upper.map (·.content floats)

def contents (floats : Floats F) (layers : Layers F) : List (Content F) :=
  layers.lower floats ++ layers.upper_contents floats

/-- What is merged once the adapter's layer is. -/
def adapted (floats : Floats F) (layers : Layers F) : Content F :=
  (layers.shape floats).foldl deep_merge (layers.defaults.content floats)

/-- The value of a leaf after the adapter's layer. -/
def after_adapter (floats : Floats F) (layers : Layers F) (path : Path) : Option (Scalar F) :=
  ((mapping (layers.adapted floats)).leaf_at path).or (default_of path)

end Layers

theorem accepted_of_apply {α : Type} {validate : x.Raw → Except Invalid α} {overlay : α → RunConfigOverlay F}
    {allowed : List Path} {layer : ConfigLayer} {merged result : Content F} {source : Option ConfigLayerInput}
    {overlays : List (RunConfigOverlay F)}
    (applied : apply_overlay x validate overlay allowed layer merged source = .ok result)
    (loaded : load_overlay x validate overlay layer source = .ok overlays) :
    Accepted allowed merged (overlays.map (·.content x.floats)) result := by
  cases source with
  | none =>
    cases applied
    cases loaded
    rfl
  | some source =>
    obtain ⟨model, read, applied⟩ := bind_ok applied
    obtain ⟨⟨⟩, passed, applied⟩ := bind_ok applied
    obtain ⟨_, again, loaded⟩ := bind_ok loaded
    rw [read] at again
    cases again
    cases applied
    cases loaded
    exact ⟨⟨layer, passed⟩, rfl⟩

theorem mapError_ok {ε ε' α : Type} {f : ε → ε'} {m : Except ε α} {b : α} (ok : m.mapError f = .ok b) : m = .ok b := by
  cases m with
  | error e => cases ok
  | ok _ =>
    cases ok
    rfl

/-- A resolution accepts the layers above the adapter in turn, over what is merged up to it, and reads the outcome. -/
theorem resolved_accepted (loaded : load_layers x a = .ok layers) (resolved : resolve_run_config x a = .ok c) :
    ∃ merged, Accepted layers.adapter.overridable (layers.adapted x.floats) (layers.upper_contents x.floats) merged ∧
      Reads (mapping (c.content x.floats)) (some (mapping merged)) default_of ∧ c.schema_version = "1.0" := by
  obtain ⟨defaults, defaults_ok, loaded⟩ := bind_ok loaded
  obtain ⟨adapter, adapter_ok, loaded⟩ := bind_ok loaded
  obtain ⟨firm, firm_ok, loaded⟩ := bind_ok loaded
  obtain ⟨matter, matter_ok, loaded⟩ := bind_ok loaded
  obtain ⟨flags, flags_ok, loaded⟩ := bind_ok loaded
  cases loaded
  obtain ⟨_, defaults_again, resolved⟩ := bind_ok resolved
  obtain ⟨_, adapter_again, resolved⟩ := bind_ok resolved
  rw [defaults_ok] at defaults_again
  rw [adapter_ok] at adapter_again
  cases defaults_again
  cases adapter_again
  obtain ⟨after_firm, firm_applied, resolved⟩ := bind_ok resolved
  obtain ⟨after_matter, matter_applied, resolved⟩ := bind_ok resolved
  obtain ⟨merged, flags_applied, resolved⟩ := bind_ok resolved
  refine ⟨merged, ?_, ResolvedRunConfig.reads (mapError_ok resolved)⟩
  simp only [Layers.upper_contents, List.map_append]
  generalize a.legacy_fallback = fallback at firm_applied ⊢
  cases fallback <;> exact ((accepted_of_apply firm_applied firm_ok).append
    (accepted_of_apply matter_applied matter_ok)).append (accepted_of_apply flags_applied flags_ok)

/-! ### The policy, and the one way a value is lost -/

/-- The layer sets an identity path, or an owned leaf to something else than its value after the adapter's layer. -/
def Layers.Attempts (floats : Floats F) (layers : Layers F) (layer : Content F) : Prop :=
  ∃ path v, (mapping layer).leaf_at path = some v ∧
    (path ∈ IMMUTABLE_IDENTITY_PATHS ∨
      Owned layers.adapter.overridable path ∧ (mapping (layers.adapted floats)).leaf_at path ≠ some v)

/-- Identity paths and owned leaves are what the adapter's layer left, every other leaf is what the highest layer that
    sets it says. -/
structure Lawful (floats : Floats F) (layers : Layers F) (c : ResolvedRunConfig F) : Prop where
  version : c.schema_version = "1.0"
  identity : ∀ path ∈ (mapping (c.content floats)).leaf_paths, path ∈ IMMUTABLE_IDENTITY_PATHS →
    (mapping (c.content floats)).leaf_at path = layers.after_adapter floats path
  owned : ∀ path ∈ (mapping (c.content floats)).leaf_paths, Owned layers.adapter.overridable path →
    (mapping (c.content floats)).leaf_at path = layers.after_adapter floats path
  layered : ∀ path ∈ (mapping (c.content floats)).leaf_paths, ¬Owned layers.adapter.overridable path →
    (mapping (c.content floats)).leaf_at path = highest (layers.contents floats) path

/-- Where the resolved model has a default of its own, no value other than it is cut off for good. -/
def Layers.Kept (floats : Floats F) (layers : Layers F) : Prop :=
  ∀ path d, default_of path = some d →
    (Owned layers.adapter.overridable path →
      (∀ layer ∈ layers.upper_contents floats, ¬Cuts layer path) ∨
        Erased (layers.lower floats) path ∨ highest (layers.lower floats) path = some d) ∧
    (¬Owned layers.adapter.overridable path →
      ¬Erased (layers.contents floats) path ∨ highest (layers.contents floats) path = some d)

theorem default_of_eq_some {path : Path} {d : Scalar F} :
    default_of path = some d ↔
      path = ["panels", "jurors"] ∧ d = .int 0 ∨ path = ["budget", "hard_cap_usd"] ∧ d = .null := by
  unfold default_of
  split_ifs with jurors cap
  · simp [jurors, eq_comm]
  · simp [cap, eq_comm]
  · simp [jurors, cap]

theorem cuts_jurors {o : RunConfigOverlay F} : Cuts (o.content floats) ["panels", "jurors"] ↔ o.panels = some none := by
  rcases held : o.panels with _ | _ | panels
  · simp [Cuts, effect, lookup_present, List.lookup_cons, RunConfigOverlay.content, held]
  · simp [Cuts, effect, lookup_present, List.lookup_cons, RunConfigOverlay.content, held]
  · rcases set : panels.jurors with _ | _ | jurors <;>
      simp [Cuts, effect, lookup_present, List.lookup_cons, RunConfigOverlay.content, Panels.model_dump, leaf, held, set]

theorem cuts_hard_cap {o : RunConfigOverlay F} :
    Cuts (o.content floats) ["budget", "hard_cap_usd"] ↔ o.budget = some none := by
  rcases held : o.budget with _ | _ | budget
  · simp [Cuts, effect, lookup_present, List.lookup_cons, RunConfigOverlay.content, held]
  · simp [Cuts, effect, lookup_present, List.lookup_cons, RunConfigOverlay.content, held]
  · rcases set : budget.hard_cap_usd with _ | _ | cap <;>
      simp [Cuts, effect, lookup_present, List.lookup_cons, RunConfigOverlay.content, BudgetOverlay.model_dump, leaf, held,
        set]

theorem defaults_set (floats : Floats F) (d : DefaultRunConfig F) {path : Path} {v : Scalar F} (default : default_of path = some v) :
    ((mapping (d.content floats)).leaf_at path).isSome := by
  rcases default_of_eq_some.mp default with ⟨rfl, -⟩ | ⟨rfl, -⟩
  · simp [leaf_at, lookup_present, List.lookup_cons, DefaultRunConfig.content, Panels.model_dump, leaf]
  · simp [leaf_at, lookup_present, List.lookup_cons, DefaultRunConfig.content, ResolvedBudget.model_dump, leaf]

theorem resolved_set (floats : Floats F) (c : ResolvedRunConfig F) {path : Path} {v : Scalar F} (default : default_of path = some v) :
    path ∈ (mapping (c.content floats)).leaf_paths := by
  rw [mem_leaf_paths c.distinct]
  rcases default_of_eq_some.mp default with ⟨rfl, -⟩ | ⟨rfl, -⟩
  · simp [leaf_at, lookup_present, List.lookup_cons, ResolvedRunConfig.content, Panels.model_dump, leaf]
  · simp [leaf_at, lookup_present, List.lookup_cons, ResolvedRunConfig.content, ResolvedBudget.model_dump, leaf]

theorem upper_distinct : ∀ layer ∈ layers.upper_contents floats, (mapping layer).Distinct := by
  intro layer mem
  obtain ⟨o, -, rfl⟩ := List.mem_map.mp mem
  exact o.distinct

theorem shape_distinct : ∀ layer ∈ layers.shape floats, (mapping layer).Distinct := by
  intro layer mem
  rcases List.mem_append.mp mem with mem | mem
  · obtain ⟨o, -, rfl⟩ := List.mem_map.mp mem
    exact o.distinct
  · rw [List.mem_singleton.mp mem]
    exact layers.adapter.distinct

/-- What the adapter's layer leaves at a path. -/
theorem adapted_leaf (floats : Floats F) (layers : Layers F) (path : Path) :
    Erased (layers.lower floats) path ∧ (mapping (layers.adapted floats)).leaf_at path = none ∨
      ¬Erased (layers.lower floats) path ∧
        (mapping (layers.adapted floats)).leaf_at path = highest (layers.lower floats) path :=
  erased_or_highest shape_distinct

theorem highest_lower_set (floats : Floats F) (layers : Layers F) {path : Path} {d : Scalar F}
    (default : default_of path = some d) : ∃ v, highest (layers.lower floats) path = some v := by
  obtain ⟨v, set⟩ := Option.isSome_iff_exists.mp (defaults_set floats layers.defaults default)
  exact highest_isSome (List.mem_cons_self) set

section Resolved
variable {merged : Content F} {path : Path}
  (accepted : Accepted layers.adapter.overridable (layers.adapted floats) (layers.upper_contents floats) merged)
  (reads : Reads (mapping (c.content floats)) (some (mapping merged)) default_of)

include accepted in
theorem not_attempted {layer : Content F} (mem : layer ∈ layers.upper_contents floats) :
    ¬layers.Attempts floats layer := by
  rintro ⟨path, v, sets, kept | ⟨owned, changes⟩⟩
  · exact absurd (accepted.identity upper_distinct kept layer mem) (by simp [sets])
  · exact changes ((accepted.owned upper_distinct owned).1 layer mem v sets)

include reads in
theorem leaf_resolved (mem : path ∈ (mapping (c.content floats)).leaf_paths) :
    ∃ v, ((mapping merged).leaf_at path).or (default_of path) = some v ∧
      (mapping (c.content floats)).leaf_at path = some v := by
  obtain ⟨v, here⟩ := Option.isSome_iff_exists.mp ((mem_leaf_paths c.distinct).mp mem)
  exact ⟨v, (reads path mem).symm.trans here, here⟩

include accepted reads in
theorem identity_kept (mem : path ∈ (mapping (c.content floats)).leaf_paths) (kept : path ∈ IMMUTABLE_IDENTITY_PATHS) :
    (mapping (c.content floats)).leaf_at path = layers.after_adapter floats path := by
  obtain ⟨v, from_merged, here⟩ := leaf_resolved reads mem
  have plain : default_of (F := F) path = none := by
    simp only [IMMUTABLE_IDENTITY_PATHS, List.mem_cons, List.not_mem_nil, or_false] at kept
    rcases kept with rfl | rfl | rfl <;> simp [default_of]
  rw [here, ← from_merged, Layers.after_adapter, plain, Option.or_none, Option.or_none, accepted.merged]
  rw [plain, Option.or_none, accepted.merged] at from_merged
  rcases leaf_at_foldl_unset upper_distinct (accepted.identity upper_distinct kept) with gone | same
  · rw [gone] at from_merged
    cases from_merged
  · exact same

include accepted reads in
theorem owned_kept_iff (mem : path ∈ (mapping (c.content floats)).leaf_paths)
    (owned : Owned layers.adapter.overridable path) :
    (mapping (c.content floats)).leaf_at path = layers.after_adapter floats path ↔
      ∀ d, default_of path = some d → (∀ layer ∈ layers.upper_contents floats, ¬Cuts layer path) ∨
        Erased (layers.lower floats) path ∨ highest (layers.lower floats) path = some d := by
  rw [reads path mem, Option.bind_some, Layers.after_adapter]
  rcases (accepted.owned upper_distinct owned).2 with ⟨⟨layer, above, cuts⟩, gone⟩ | ⟨uncut, same⟩
  · obtain ⟨v, from_merged, here⟩ := leaf_resolved reads mem
    rw [gone, Option.none_or] at from_merged ⊢
    rw [from_merged]
    have cut_off : ¬∀ layer ∈ layers.upper_contents floats, ¬Cuts layer path := fun uncut => uncut layer above cuts
    rcases adapted_leaf floats layers path with ⟨erased, after⟩ | ⟨kept, after⟩
    · simp [after, erased]
    · obtain ⟨w, set⟩ := highest_lower_set floats layers from_merged
      simp [after, set, kept, cut_off, eq_comm]
  · rw [same]
    exact ⟨fun _ d _ => .inl uncut, fun _ => rfl⟩

include accepted reads in
theorem layered_iff (mem : path ∈ (mapping (c.content floats)).leaf_paths) :
    (mapping (c.content floats)).leaf_at path = highest (layers.contents floats) path ↔
      ∀ d, default_of path = some d →
        ¬Erased (layers.contents floats) path ∨ highest (layers.contents floats) path = some d := by
  have all : ∀ layer ∈ layers.shape floats ++ layers.upper_contents floats, (mapping layer).Distinct := by
    intro layer mem
    rcases List.mem_append.mp mem with mem | mem
    · exact shape_distinct layer mem
    · exact upper_distinct layer mem
  have stacked := @erased_or_highest String (Scalar F) _ (layers.defaults.content floats) _ path all
  rw [List.foldl_append] at stacked
  change Erased (layers.contents floats) path ∧ (mapping (List.foldl deep_merge (layers.adapted floats) _)).leaf_at path = _ ∨
    ¬Erased (layers.contents floats) path ∧ (mapping (List.foldl deep_merge (layers.adapted floats) _)).leaf_at path =
      highest (layers.contents floats) path at stacked
  rw [← accepted.merged] at stacked
  obtain ⟨v, from_merged, here⟩ := leaf_resolved reads mem
  rw [here]
  rcases stacked with ⟨erased, gone⟩ | ⟨kept, same⟩
  · rw [gone, Option.none_or] at from_merged
    simp [from_merged, erased, eq_comm]
  · simp only [kept, not_false_eq_true, true_or, implies_true, iff_true]
    rw [same] at from_merged
    cases default : default_of (F := F) path with
    | none => rw [← from_merged, default, Option.or_none]
    | some d =>
      obtain ⟨w, set⟩ := Option.isSome_iff_exists.mp (defaults_set floats layers.defaults default)
      obtain ⟨w, found⟩ := @highest_isSome _ _ _ (layers.contents floats) _ _ _ List.mem_cons_self set
      rw [found, Option.some_or] at from_merged
      rw [found, from_merged]

end Resolved

/-- Layered configuration: a layer above the adapter that sets an identity path, or an owned leaf to another value, is
    refused; and a resolved configuration is what its layers say exactly when none of them cuts off for good a value for
    which the resolved model has a default of its own. -/
theorem layers_iff (loaded : load_layers x a = .ok layers) :
    (∀ layer ∈ layers.upper_contents x.floats, layers.Attempts x.floats layer →
      ∃ e, resolve_run_config x a = .error e) ∧
    ∀ c, resolve_run_config x a = .ok c → (Lawful x.floats layers c ↔ layers.Kept x.floats) := by
  constructor
  · intro layer mem attempts
    cases resolved : resolve_run_config x a with
    | error e => exact ⟨e, rfl⟩
    | ok c =>
      obtain ⟨merged, accepted, -⟩ := resolved_accepted loaded resolved
      exact absurd attempts (not_attempted accepted mem)
  · intro c resolved
    obtain ⟨merged, accepted, reads, version⟩ := resolved_accepted loaded resolved
    constructor
    · intro lawful path d default
      have mem := resolved_set x.floats c default
      exact ⟨fun owned => (owned_kept_iff accepted reads mem owned).mp (lawful.owned path mem owned) d default,
        fun free => (layered_iff accepted reads mem).mp (lawful.layered path mem free) d default⟩
    · intro kept
      exact {
        version
        identity := fun path mem => identity_kept accepted reads mem
        owned := fun path mem owned => (owned_kept_iff accepted reads mem owned).mpr fun d default =>
          (kept path d default).1 owned
        layered := fun path mem free => (layered_iff accepted reads mem).mpr fun d default =>
          (kept path d default).2 free }

end Resolution

/-! ### Two resolutions -/

namespace Sample

def defaults : DefaultRunConfig Nat :=
  { run_mode := .autonomous, max_attempts := 3, budget := { tier := .no_budget, hard_cap_usd := none },
    loop_caps := { associate_partner := 2, oc := 1, bolster := 1, restructure := 1 },
    panels := { judges := 3, jury := false, jurors := 0, rubric_judges := 3 },
    convergence := { score_delta_floor := 20, material_change_floor := 100, coverage_floor := 800 },
    rubric_threshold := 750, restructure_threshold := 500 }

def adapter : TaskAdapterConfig Nat :=
  { task := "rog-responses", stages := ["associate_draft", "judge_panel"], loop_caps := none,
    panels := some { judges := some 3, jury := some true, jurors := some 5, rubric_judges := some 3 },
    convergence := none, gates := some ["rubric"], rubric_id := "rog-v1", rubric_threshold := none,
    restructure_threshold := none, deliverables := some [],
    overridable := [["panels", "judges"], ["panels", "jury"], ["panels", "rubric_judges"]] }

def no_panels : RunConfigOverlay Nat := { panels := some none }

def bench : RunConfigOverlay Nat :=
  { panels := some (some { judges := some (some 5), jury := some (some false), jurors := none,
                           rubric_judges := some (some 3) }) }

inductive Document where
  | defaults
  | adapter
  | firm
  | matter

def loaders : Loaders Nat where
  Raw := Document
  safe_load
    | [0] => .ok (some .defaults)
    | [1] => .ok (some .adapter)
    | [2] => .ok (some .firm)
    | [3] => .ok (some .matter)
    | _ => .ok none
  default_run_config
    | .defaults => .ok defaults
    | _ => .error ⟨["run_mode"], "Field required"⟩
  task_adapter_config
    | .adapter => .ok adapter
    | _ => .error ⟨["task"], "Field required"⟩
  firm_preferences
    | .firm => .ok { run_config := no_panels }
    | _ => .error ⟨["task"], "Extra inputs are not permitted"⟩
  run_config_overlay
    | .matter => .ok bench
    | _ => .error ⟨["task"], "Extra inputs are not permitted"⟩
  -- Floats in thousandths.
  floats := { below_zero := fun _ => false, above_one := fun x => decide (1000 < x) }
  sha256 _ := "e3b0c442"
  repr s := s

/-- The matter's overlay alone above the adapter. -/
def overridden : Arguments Nat :=
  { defaults := ⟨"defaults.yaml", [0]⟩, adapter := ⟨"rog-responses.yaml", [1]⟩,
    matter_overlay := some ⟨"matter.yaml#run_config", [3]⟩ }

/-- The firm's preferences null the panels, the matter's overlay sets those it may. -/
def nulled : Arguments Nat := { overridden with firm_preferences := some ⟨"firm.yaml", [2]⟩ }

def layers (upper : List (RunConfigOverlay Nat)) : Layers Nat := { defaults, fallback := none, adapter, upper }

def resolved (jurors : Int) (firm : Option ConfigLayerInput) : ResolvedRunConfig Nat :=
  { task := "rog-responses", stages := ["associate_draft", "judge_panel"], loop_caps := defaults.loop_caps,
    panels := { judges := 5, jury := false, jurors, rubric_judges := 3 }, convergence := defaults.convergence,
    gates := ["rubric"], rubric_id := "rog-v1", rubric_threshold := 750, restructure_threshold := 500,
    deliverables := [], run_mode := .autonomous, max_attempts := 3, budget := defaults.budget,
    overridable_structural_paths := adapter.overridable,
    sources := [source loaders .defaults (some overridden.defaults), source loaders .task_adapter (some overridden.adapter),
      source loaders .firm_preferences firm, source loaders .matter_overlay overridden.matter_overlay,
      source loaders .invocation_flags none] }

end Sample

open Sample

theorem overridden_resolved : resolve_run_config loaders overridden = .ok (resolved 5 none) := by rfl

theorem overridden_layers : load_layers loaders overridden = .ok (layers [bench]) := by rfl

theorem nulled_resolved : resolve_run_config loaders nulled = .ok (resolved 0 nulled.firm_preferences) := by rfl

theorem nulled_layers : load_layers loaders nulled = .ok (layers [no_panels, bench]) := by rfl

theorem overridden_kept : (layers [bench]).Kept loaders.floats := by
  intro path d default
  rcases default_of_eq_some.mp default with ⟨rfl, rfl⟩ | ⟨rfl, rfl⟩
  · refine ⟨fun _ => .inl fun layer mem => ?_, fun free => absurd ⟨by decide, by decide⟩ free⟩
    rw [List.mem_singleton.mp mem, cuts_jurors]
    simp [bench]
  · exact ⟨fun owned => absurd owned.1 (by decide), fun _ => .inr rfl⟩

/-- An overlay that sets only leaves it may. -/
theorem overridden_lawful : Lawful loaders.floats (layers [bench]) (resolved 5 none) :=
  ((layers_iff overridden_layers).2 _ overridden_resolved).mpr overridden_kept

/-- A firm's null over the panels, and a matter's overlay over that, leave no juror of the adapter's five. -/
theorem nulled_jurors_dropped : load_layers loaders nulled = .ok (layers [no_panels, bench]) ∧
    resolve_run_config loaders nulled = .ok (resolved 0 nulled.firm_preferences) ∧
    ¬Lawful loaders.floats (layers [no_panels, bench]) (resolved 0 nulled.firm_preferences) := by
  refine ⟨nulled_layers, nulled_resolved, fun lawful => ?_⟩
  have kept := lawful.owned ["panels", "jurors"] (by decide) ⟨by decide, by decide⟩
  exact absurd kept (by decide)

end MootLoop.RunConfig
