import MootLoop.Sessions
import MootLoop.Pipeline
import MootLoop.Theorems.Slots
import Mathlib.Data.List.Infix

/-! Which turns can find each other in a resumed provider session: exactly those with one persona whose requests
    slug alike. The seats of one panel are among them. -/

namespace MootLoop.Sessions
open Transition

/-! ### Keys -/

/-- A character of the ASCII range. -/
def isAscii (c : Char) : Bool := c.toNat < 128

/-- The slug of a text that `str.lower` keeps within ASCII. -/
def ascii_slug (value : String) : String :=
  slug (fun s => String.ofList (s.toList.map Char.toLower)) Char.isAlphanum value

/-- What the provider relies on outside the repository: Python's strings over ASCII, a tripwire some prompt
    passes, and a client that can print an answer. -/
structure Surface.Documented (x : Surface) : Prop where
  lower_ascii : ∀ value : String, value.toList.all isAscii → x.lower value = String.ofList (value.toList.map Char.toLower)
  isalnum_ascii : ∀ c, isAscii c → x.isalnum c = c.isAlphanum
  passes : ∃ prompt public_prompt, x.scrub_outbound prompt = .ok public_prompt
  answers : ∃ stdout text session_id, session_id ≠ "" ∧
    x.json_events stdout = [{ is_result := true, result := some text, session_id := some session_id }]

variable {x : Surface} {timeout_s : String} {w w' : World} {turns before : List TurnSpec} {u t spec : TurnSpec}
  {files : SessionFiles} {prompt call_id session_id : String} {run : Call → Process}

theorem slug_congr {lower lower' : String → String} {isalnum isalnum' : Char → Bool} {value : String}
    (lowers : lower value = lower' value) (agree : ∀ c ∈ (lower' value).toList, isalnum c = isalnum' c) :
    slug lower isalnum value = slug lower' isalnum' value := by
  have out : (lower' value).toList.map (fun ch => if isalnum ch then ch else '-') =
      (lower' value).toList.map fun ch => if isalnum' ch then ch else '-' :=
    List.map_congr_left fun c mem => by rw [agree c mem]
  simp only [slug, lowers, out]

theorem slug_ascii (doc : x.Documented) {value : String} (ascii : value.toList.all isAscii)
    (lowered : (value.toList.map Char.toLower).all isAscii) : x.slug value = ascii_slug value := by
  refine slug_congr (doc.lower_ascii value ascii) fun c mem => doc.isalnum_ascii c ?_
  rw [String.toList_ofList] at mem
  exact List.all_eq_true.mp lowered c mem

/-- The first part of a key, with the dash that ends it. -/
def dashed (persona : PersonaName) : List Char := (ascii_slug persona.value).toList ++ ['-']

def personas : List PersonaName :=
  [.associate, .partner, .oc_associate, .oc_partner, .judge, .juror, .rubric_judge, .cite_checker]

theorem mem_personas (p : PersonaName) : p ∈ personas := by cases p <;> decide

/-- The names of the personas are ASCII, and none starts another. -/
theorem persona_names : ∀ p ∈ personas, p.value.toList.all isAscii = true ∧
    (p.value.toList.map Char.toLower).all isAscii = true ∧ ∀ q ∈ personas, dashed p <+: dashed q → p = q := by
  unfold dashed
  decide +kernel

theorem slug_persona (doc : x.Documented) (persona : PersonaName) : x.slug persona.value = ascii_slug persona.value := by
  obtain ⟨ascii, lowered, -⟩ := persona_names persona (mem_personas persona)
  exact slug_ascii doc ascii lowered

theorem dashed_persona (doc : x.Documented) (persona : PersonaName) :
    (x.slug persona.value).toList ++ ['-'] = dashed persona :=
  congrArg (fun slug : String => slug.toList ++ ['-']) (slug_persona doc persona)

theorem prefix_of_append_eq {a b rest rest' : List Char} (h : a ++ rest = b ++ rest') : a <+: b ∨ b <+: a :=
  List.prefix_or_prefix_of_prefix (List.prefix_append a rest) (h ▸ List.prefix_append b rest')

theorem same_dashed {p q : PersonaName} (h : dashed p <+: dashed q) : p = q :=
  (persona_names p (mem_personas p)).2.2 q (mem_personas q) h

theorem joined_toList (a b : String) : (a ++ "-" ++ b).toList = a.toList ++ ['-'] ++ b.toList := by
  simp [String.toList_append]

theorem session_key_congr (persona : u.persona = t.persona) (request : u.request_id = t.request_id) :
    session_key x u = session_key x t := by
  rw [session_key, session_key, request_name, request_name, persona, request]

/-- A session key tells its persona and its request's slug. -/
theorem session_key_eq (doc : x.Documented) :
    session_key x u = session_key x t ↔
      u.persona = t.persona ∧ x.slug (request_name u) = x.slug (request_name t) := by
  constructor
  · intro same
    have shape : ∀ spec : TurnSpec, (session_key x spec).toList =
        dashed spec.persona ++ (x.slug (request_name spec)).toList := fun spec => by
      rw [session_key, joined_toList, dashed_persona doc]
    have chars : dashed u.persona ++ (x.slug (request_name u)).toList =
        dashed t.persona ++ (x.slug (request_name t)).toList := by rw [← shape, ← shape, same]
    have persona : u.persona = t.persona := by
      rcases prefix_of_append_eq chars with h | h
      · exact same_dashed h
      · exact (same_dashed h).symm
    rw [persona] at chars
    exact ⟨persona, String.toList_inj.mp (List.append_cancel_left chars)⟩
  · rintro ⟨persona, request⟩
    rw [session_key, session_key, persona, request]

/-! ### One call -/

/-- What a call does to the session files: nothing when it fails, and otherwise at most to keep, under the turn's
    key, the session id that the process named. -/
theorem run_turn_files (x : Surface) (timeout_s : String) (files : SessionFiles) (spec : TurnSpec) (prompt : String)
    (run : Call → Process) (call_id : String) :
    (run_turn x timeout_s files spec prompt run call_id).1 = files ∨
    ∃ session_id result, (run_turn x timeout_s files spec prompt run call_id).2 = .ok result ∧ session_id ≠ "" ∧
      (∀ other, (∀ call, (run call).Names x other) → session_id = other) ∧
      (run_turn x timeout_s files spec prompt run call_id).1 =
        persist_session_id files (session_key x spec) session_id := by
  rw [run_turn]
  cases scrubbed : x.scrub_outbound prompt with
  | error refusal => exact .inl rfl
  | ok public_prompt =>
    simp only
    generalize ended : run { public_prompt, model := spec.model, resume := resume_id x files spec } = process
    cases process with
    | not_started detail => exact .inl rfl
    | timed_out => exact .inl rfl
    | exited returncode stdout stderr =>
      simp only
      by_cases failed : returncode ≠ 0
      · rw [if_pos failed]
        exact .inl rfl
      · rw [if_neg failed, parse_result]
        cases final : final_payload (x.json_events stdout) with
        | none => exact .inl rfl
        | some payload =>
          simp only
          have mem : payload ∈ x.json_events stdout := by
            rw [final_payload, Option.or_eq_some_iff] at final
            rcases final with found | ⟨-, last⟩
            · exact List.mem_reverse.mp (List.mem_of_find?_eq_some found)
            · exact List.mem_of_getLast? last
          cases permission_denial x (x.json_events stdout) payload with
          | some denial => exact .inl rfl
          | none =>
            simp only
            by_cases reported : payload.is_error = true
            · rw [if_pos reported]
              exact .inl rfl
            · rw [if_neg reported]
              cases payload.result with
              | none => exact .inl rfl
              | some text =>
                simp only
                cases named : payload.session_id.filter (· ≠ "") with
                | none => exact .inl rfl
                | some session_id =>
                  obtain ⟨some_id, kept⟩ := Option.filter_eq_some_iff.mp named
                  have nonempty : session_id ≠ "" := by simpa using kept
                  refine .inr ⟨session_id, _, rfl, nonempty, fun other names => ?_, rfl⟩
                  have only := names { public_prompt, model := spec.model, resume := resume_id x files spec }
                  rw [ended] at only
                  exact (only payload mem session_id some_id).resolve_left nonempty

theorem run_turn_failed (failed : ∀ result, (run_turn x timeout_s files spec prompt run call_id).2 ≠ .ok result) :
    (run_turn x timeout_s files spec prompt run call_id).1 = files := by
  rcases run_turn_files x timeout_s files spec prompt run call_id with kept | ⟨_, result, ok, -⟩
  · exact kept
  · exact absurd ok (failed result)

/-! ### Runs -/

/-- What the turns run so far leave behind: the sessions hold only them, and a session that a file names holds a
    turn and only turns of the file's key. -/
structure Kept (x : Surface) (before : List TurnSpec) (w : World) : Prop where
  ran : ∀ session_id, ∀ u ∈ w.transcripts session_id, u ∈ before
  named : ∀ key session_id, w.files key = some session_id →
    w.transcripts session_id ≠ [] ∧ ∀ u ∈ w.transcripts session_id, session_key x u = key

theorem resume_id_eq (h : resume_id x files spec = some session_id) : files (session_key x spec) = some session_id :=
  (Option.filter_eq_some_iff.mp h).1

/-- The turns in the session a turn works in have the turn's key. -/
theorem Kept.opens (kept : Kept x before w) (opens : w.Opens x spec session_id) :
    ∀ u ∈ w.transcripts session_id, session_key x u = session_key x spec := by
  rw [World.Opens] at opens
  cases resumed : resume_id x w.files spec with
  | some id =>
    simp only [resumed] at opens
    rw [opens]
    exact (kept.named _ id (resume_id_eq resumed)).2
  | none =>
    simp only [resumed] at opens
    rw [opens]
    exact fun _ mem => absurd mem List.not_mem_nil

/-- A file that names the session a turn works in is the file of the turn's key. -/
theorem Kept.opens_key (kept : Kept x before w) (opens : w.Opens x spec session_id) {key : String}
    (names : w.files key = some session_id) : key = session_key x spec := by
  obtain ⟨some_turn, keys⟩ := kept.named key session_id names
  obtain ⟨u, mem⟩ := List.exists_mem_of_ne_nil _ some_turn
  rw [← keys u mem, kept.opens opens u mem]

/-- Every call keeps the sessions of different keys apart. -/
theorem Step.kept (kept : Kept x before w) (step : Step x timeout_s w spec w') : Kept x (before ++ [spec]) w' := by
  cases step with
  | @unheard prompt call_id run failed =>
    rw [run_turn_failed failed]
    exact ⟨fun id u mem => List.mem_append_left _ (kept.ran id u mem), kept.named⟩
  | @ran session_id prompt call_id run opens names =>
    have turns : ∀ u ∈ w.transcripts session_id ++ [spec], session_key x u = session_key x spec := by
      intro u mem
      rcases List.mem_append.mp mem with mem | mem
      · exact kept.opens opens u mem
      · rw [List.mem_singleton.mp mem]
    refine ⟨fun id u mem => ?_, fun key id holds => ?_⟩
    · by_cases same : id = session_id
      · subst same
        simp only [Function.update_self] at mem
        rcases List.mem_append.mp mem with mem | mem
        · exact List.mem_append_left _ (kept.ran _ u mem)
        · exact List.mem_append_right _ mem
      · simp only [Function.update_of_ne same] at mem
        exact List.mem_append_left _ (kept.ran id u mem)
    · have before_call : w.files key = some id ∨ (key = session_key x spec ∧ id = session_id) := by
        rcases run_turn_files x timeout_s w.files spec prompt run call_id with same | ⟨named, -, -, -, only, files⟩
        · exact .inl (same ▸ holds)
        · simp only [files, persist_session_id] at holds
          by_cases own : key = session_key x spec
          · rw [own, Function.update_self] at holds
            exact .inr ⟨own, by rw [← Option.some.inj holds, only session_id names]⟩
          · rw [Function.update_of_ne own] at holds
            exact .inl holds
      by_cases same : id = session_id
      · subst same
        have own : key = session_key x spec := before_call.elim (kept.opens_key opens) And.left
        simp only [Function.update_self]
        exact ⟨by simp, own ▸ turns⟩
      · simp only [Function.update_of_ne same]
        exact kept.named key id (before_call.resolve_right fun h => same h.2)

theorem run_kept (run : Run (Step x timeout_s) .empty before w) : Kept x before w :=
  @Run.history _ _ (Step x timeout_s) .empty w before (Kept x) (fun _ _ _ _ _ kept step => step.kept kept) run
    ⟨fun _ _ mem => absurd mem List.not_mem_nil, fun _ _ holds => nomatch holds⟩

/-- What a turn resumes ran before it in the run, under its own key. -/
theorem Kept.resumes (kept : Kept x before w) (mem : u ∈ w.resumes x spec) :
    u ∈ before ∧ session_key x u = session_key x spec := by
  rw [World.resumes] at mem
  cases resumed : resume_id x w.files spec with
  | none => simp [resumed] at mem
  | some id =>
    rw [resumed] at mem
    exact ⟨kept.ran id u mem, (kept.named _ id (resume_id_eq resumed)).2 u mem⟩

/-! ### Two turns of one key meet -/

/-- A call refused by the client changes nothing. -/
theorem unheard_step (x : Surface) (timeout_s : String) (w : World) (spec : TurnSpec) : Step x timeout_s w spec w := by
  have failed : ∀ result, (run_turn x timeout_s w.files spec "" (fun _ => .timed_out) "").2 ≠ .ok result := by
    intro result
    rw [run_turn]
    cases x.scrub_outbound "" <;> exact fun h => nomatch h
  have step := Step.unheard failed
  rwa [run_turn_failed failed] at step

theorem unheard_run (x : Surface) (timeout_s : String) (w : World) (turns : List TurnSpec) :
    Run (Step x timeout_s) w turns w := by
  induction turns using List.reverseRecOn with
  | nil => exact .start
  | append_singleton turns spec ih => exact ih.snoc (unheard_step x timeout_s w spec)

/-- A first turn that is answered leaves its session under its key. -/
theorem answered_step (doc : x.Documented) (timeout_s : String) (spec : TurnSpec) :
    ∃ w session_id, Step x timeout_s .empty spec w ∧ session_id ≠ "" ∧
      w.files (session_key x spec) = some session_id ∧ w.transcripts session_id = [spec] := by
  obtain ⟨prompt, public_prompt, passes⟩ := doc.passes
  obtain ⟨stdout, text, session_id, nonempty, prints⟩ := doc.answers
  have names : ∀ call : Call, ((fun _ => .exited 0 stdout "" : Call → Process) call).Names x session_id := by
    intro _ event mem named is_named
    rw [prints] at mem
    obtain rfl := List.mem_singleton.mp mem
    exact .inr (Option.some.inj is_named).symm
  have named : Option.filter (fun id => !decide (id = "")) (some session_id) = some session_id := by simp [nonempty]
  have files : (run_turn x timeout_s World.empty.files spec prompt (fun _ => .exited 0 stdout "") "").1 =
      persist_session_id World.empty.files (session_key x spec) session_id := by
    simp [run_turn, passes, prints, parse_result, final_payload, permission_denial, named]
  have step := @Step.ran x timeout_s .empty spec session_id prompt "" _ rfl names
  rw [files] at step
  refine ⟨_, session_id, step, nonempty, ?_, ?_⟩
  · simp only [persist_session_id, Function.update_self]
  · simp only [Function.update_self, World.empty, List.nil_append]

/-- Of two turns with one key, the later can resume the session of the earlier. -/
theorem met (doc : x.Documented) (timeout_s : String) (first between : List TurnSpec)
    (same : session_key x u = session_key x t) :
    ∃ w, Run (Step x timeout_s) .empty (first ++ u :: between) w ∧ u ∈ w.resumes x t := by
  obtain ⟨w, session_id, answered, nonempty, file, transcript⟩ := answered_step doc timeout_s u
  have run : Run (Step x timeout_s) .empty (first ++ [u] ++ between) w :=
    ((unheard_run x timeout_s .empty first).snoc answered).trans (unheard_run x timeout_s w between)
  have resumed : resume_id x w.files t = some session_id := by
    simp [resume_id, load_session_id, ← same, file, nonempty]
  refine ⟨w, by simpa using run, ?_⟩
  simp [World.resumes, resumed, transcript]

theorem not_isolated (doc : x.Documented) (timeout_s : String) (first between rest : List TurnSpec)
    (same : session_key x u = session_key x t) (meets : OfAnotherRequest u t ∨ OtherSeat u t) :
    ¬Isolated x timeout_s (first ++ u :: between ++ t :: rest) := by
  intro isolated
  obtain ⟨w, run, resumed⟩ := met doc timeout_s first between same
  have apart := isolated (first ++ u :: between) t ⟨rest, by simp⟩ w run u resumed
  exact meets.elim apart.1 apart.2

/-- Two seats that a stage plans for one panel share a session, whatever else runs. -/
theorem seats_not_isolated (doc : x.Documented) (timeout_s : String) (ctx : StageContext) {seat seat' : Nat}
    (other : seat ≠ seat') {persona : PersonaName} {stage : StageName} (panel : stage ∈ PANEL_STAGES)
    {schema : SchemaName} {extra extra' : PromptContext → PromptContext} (first between rest : List TurnSpec) :
    ¬Isolated x timeout_s (first ++ ctx.spec seat persona stage schema extra :: between ++
      ctx.spec seat' persona stage schema extra' :: rest) := by
  refine not_isolated doc timeout_s first between rest (session_key_congr rfl rfl) (.inr ⟨panel, rfl, rfl, ?_⟩)
  intro same
  exact other (SlotLayout.turn_id_injective (l := ctx.layout) same)

/-- In every run over these turns in this order the session each turn resumes is independent of other requests and
    of the other seats of the turn's panel, if and only if no two of the turns that share a persona and a request
    slug belong to different requests or to different seats of one panel. -/
theorem isolated_iff (doc : x.Documented) (timeout_s : String) (turns : List TurnSpec) :
    Isolated x timeout_s turns ↔
      turns.Pairwise fun u t => u.persona = t.persona → x.slug (request_name u) = x.slug (request_name t) →
        ¬OfAnotherRequest u t ∧ ¬OtherSeat u t := by
  constructor
  · intro isolated
    refine List.pairwise_iff_getElem.mpr fun i j hi hj lt persona request => ?_
    have same := (session_key_eq doc).mpr ⟨persona, request⟩
    obtain ⟨w, run, resumed⟩ := met doc timeout_s (turns.take i) ((turns.take j).drop (i + 1)) same
    have shape : turns.take i ++ turns[i] :: (turns.take j).drop (i + 1) = turns.take j := by
      have short : i < (turns.take j).length := by
        simp
        omega
      have here : (turns.take j)[i] = turns[i] := by simp
      have front : turns.take i = (turns.take j).take i := by rw [List.take_take, Nat.min_eq_left lt.le]
      rw [front, ← here, List.cons_getElem_drop_succ, List.take_append_drop]
    rw [shape] at run
    refine isolated (turns.take j) turns[j] ?_ w run _ resumed
    rw [List.take_append_getElem]
    exact List.take_prefix _ _
  · rintro apart before spec ⟨rest, rfl⟩ w run u resumed
    obtain ⟨ran, same⟩ := (run_kept run).resumes resumed
    obtain ⟨persona, request⟩ := (session_key_eq doc).mp same
    have pairs := (List.pairwise_append.mp (List.pairwise_append.mp apart).1).2.2
    exact pairs u ran spec (List.mem_singleton_self _) persona request

end MootLoop.Sessions

namespace MootLoop.Sample
open Sessions

def surface : Surface where
  lower s := String.ofList (s.toList.map Char.toLower)
  isalnum := Char.isAlphanum
  redact := id
  scrub_outbound := .ok
  json_events stdout :=
    if stdout = "answer" then [{ is_result := true, result := some "", session_id := some "sess-1" }] else []
  unfence := id

theorem surface_documented : surface.Documented where
  lower_ascii _ _ := rfl
  isalnum_ascii _ _ := rfl
  passes := ⟨"", "", rfl⟩
  answers := ⟨"answer", "", "sess-1", by decide, rfl⟩

def judge_seat (turn_id : TurnId) (request_id : RequestId) (seat : Nat) : TurnSpec :=
  { turn_id, run_id := "run-1", persona := .judge, request_id := some request_id, stage := .judge_panel,
    prompt_context := { panel_seat := some seat }, output_schema_name := .judge }

theorem seat_keys :
    session_key surface (judge_seat "run-1-t0004" "unit.1" 1) = session_key surface (judge_seat "run-1-t0014" "unit-1" 1) ∧
    surface.slug (request_name (judge_seat "run-1-t0004" "ROG-3" 1)) ≠
      surface.slug (request_name (judge_seat "run-1-t0014" "ROG-4" 1)) := by
  decide +kernel

/-- Two seats of one panel, and one seat for each of two document units. -/
theorem panel_and_units_not_isolated :
    ¬Isolated surface "600.0" [judge_seat "run-1-t0004" "ROG-3" 1, judge_seat "run-1-t0005" "ROG-3" 2] ∧
    ¬Isolated surface "600.0" [judge_seat "run-1-t0004" "unit.1" 1, judge_seat "run-1-t0014" "unit-1" 1] := by
  constructor
  · exact not_isolated surface_documented "600.0" [] [] [] (session_key_congr rfl rfl)
      (.inr ⟨by decide, rfl, rfl, by decide⟩)
  · exact not_isolated surface_documented "600.0" [] [] [] seat_keys.1 (.inl ⟨"unit.1", rfl, by decide⟩)

theorem one_seat_each_isolated :
    Isolated surface "600.0" [judge_seat "run-1-t0004" "ROG-3" 1, judge_seat "run-1-t0014" "ROG-4" 1] := by
  refine (isolated_iff surface_documented "600.0" _).mpr (List.pairwise_pair.mpr fun _ request => ?_)
  exact absurd request seat_keys.2

end MootLoop.Sample
