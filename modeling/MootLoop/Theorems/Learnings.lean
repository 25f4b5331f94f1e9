import MootLoop.Learnings
import MootLoop.Theorems.Contributions
import MootLoop.Lib.Walk

/-! Human review of learnings: in every interleaving of the calls on a firm's matters, and wherever they die, what a
    reviewer was told stays in force. -/

namespace MootLoop.Learnings

open ContextAssembly

variable {S : Type} {x : Outside S} {s s' : System x}

/-! ### What a step can do -/

/-- The proposals in the vault of a matter, those in temporary files among them. -/
def System.Proposed (s : System x) (m : String) (proposal : LearningProposal) : Prop :=
  ∃ file bundle, (s.vaults m).imports.get? file = some (some bundle) ∧ proposal ∈ bundle.proposals

/-- What a step comes to. -/
inductive Moves (s : System x) : System x → Prop
  | supplied {m : String} {f : Vault S x.sha256_text → Vault S x.sha256_text}
      (reviews : (f (s.vaults m)).reviews = (s.vaults m).reviews)
      (contributions : (f (s.vaults m)).contributions = (s.vaults m).contributions)
      (kept : ∀ file bundle, (s.vaults m).imports.get? file = some (some bundle) →
        ∃ file', (f (s.vaults m)).imports.get? file' = some (some bundle))
      (added : ∀ file bundle, (f (s.vaults m)).imports.get? file = some (some bundle) →
        (∃ file', (s.vaults m).imports.get? file' = some (some bundle)) ∨
          ∃ args : ImportArgs, args.matter_id = m ∧ args.bundle x = .ok bundle) : Moves s (s.in_vault m f)
  | idle : Moves s s
  | entered {m : String} {id : Nat} {args : ReviewArgs} {call : Call} (free : s.calls.get? id = none)
      (passes : preflight x (s.vaults m) m args = .ok call) : Moves s (s.goes_on id call)
  | refused {m : String} {args : ReviewArgs} {e : LearningError} :
      Moves s { s with answers := s.answers ++ [⟨m, args, .error e⟩] }
  | raised {id : Nat} {call : Call} {e : LearningError} (running : s.calls.get? id = some call) :
      Moves s (s.ends id call (.error e))
  | acquired {id : Nat} {call : Call} (running : s.calls.get? id = some call) (waiting : call.phase = .waiting)
      (free : s.run_held call.matter_id call.current.proposal.run_id = false) :
      Moves s (s.goes_on id { call with phase := .locked })
  | checked {id : Nat} {call call' : Call} (running : s.calls.get? id = some call) (locked : call.phase = .locked)
      (passes : locked_check x (s.vaults call.matter_id) call = .ok call') : Moves s (s.goes_on id call')
  | published {id : Nat} {call : Call} {event : FirmLearningEvent x.sha256_text} {profile : Profile x.sha256_text}
      (running : s.calls.get? id = some call) (checked : call.phase = .checked) (built : call.event = .ok event)
      (put : s.profile.put (call.args.target_tier.getD .matter) event = .ok profile) :
      Moves s ({ s with profile }.goes_on id
        { call with phase := if call.args.target_tier.getD .matter = LearningTier.area then .filed else .published })
  | refreshed {id : Nat} {call : Call} {events : List (FirmLearningEvent x.sha256_text)}
      (running : s.calls.get? id = some call) (published : call.phase = .published)
      (listed : read_events s.profile.learnings = .ok events) :
      Moves s ({ s with profile := { s.profile with preferences := some (preferences_of events) } }.goes_on id
        { call with phase := .filed })
  | looked {id : Nat} {call : Call} {there : Bool} (running : s.calls.get? id = some call) (filed : call.phase = .filed)
      (found : recorded_already (s.vaults call.matter_id).reviews call.review = .ok there) :
      Moves s (s.goes_on id { call with phase := if there then .recorded else .unrecorded })
  | appended {id : Nat} {call : Call} (running : s.calls.get? id = some call) (unrecorded : call.phase = .unrecorded) :
      Moves s ((s.in_vault call.matter_id fun vault =>
        { vault with reviews := vault.reviews ++ [call.review] }).goes_on id { call with phase := .recorded })
  | contributed {id : Nat} {call : Call} {contribution : ContextContribution x.sha256_text}
      {contributions : Directory (ContextContribution x.sha256_text)} (running : s.calls.get? id = some call)
      (recorded : call.phase = .recorded) (accepts : call.args.action = .accept)
      (built : accepted_contribution call.current call.review = .ok contribution)
      (put : put_contribution (s.vaults call.matter_id).contributions contribution = .ok contributions) :
      Moves s ((s.in_vault call.matter_id fun vault => { vault with contributions }).goes_on id
        { call with phase := .answering })
  | released {id : Nat} {call : Call} (running : s.calls.get? id = some call) (recorded : call.phase = .recorded)
      (other : call.args.action ≠ .accept) : Moves s (s.goes_on id { call with phase := .answering })
  | answered {id : Nat} {call : Call} {view : LearningProposalView} (running : s.calls.get? id = some call)
      (answering : call.phase = .answering)
      (found : (s.vaults call.matter_id).get call.args.proposal_id = .ok (some view)) :
      Moves s (s.ends id call (.ok view))
  | died {id : Nat} {call : Call} (running : s.calls.get? id = some call) :
      Moves s { s with calls := s.calls.erase id }
  | dropped_event {id : Nat} {call : Call} {event : FirmLearningEvent x.sha256_text} {profile : Profile x.sha256_text}
      {debris : Debris} (running : s.calls.get? id = some call)
      (at_put : call.phase = .published ∨ call.phase = .checked) (built : call.event = .ok event)
      (left : s.profile.leave (call.args.target_tier.getD .matter) event debris = some profile) :
      Moves s { s with calls := s.calls.erase id, profile }
  | dropped_contribution {id : Nat} {call : Call} {contribution : ContextContribution x.sha256_text}
      {contributions : Directory (ContextContribution x.sha256_text)} {debris : Debris}
      (running : s.calls.get? id = some call) (recorded : call.phase = .recorded) (accepts : call.args.action = .accept)
      (built : accepted_contribution call.current call.review = .ok contribution)
      (left : leave (s.vaults call.matter_id).contributions (json_file contribution.contribution_id) contribution
        debris = some contributions) :
      Moves s ({ s with calls := s.calls.erase id }.in_vault call.matter_id fun vault => { vault with contributions })

variable {m : String}

@[simp] theorem in_vault_self (s : System x) (m : String) (f : Vault S x.sha256_text → Vault S x.sha256_text) :
    (s.in_vault m f).vaults m = f (s.vaults m) := if_pos rfl

@[simp] theorem goes_on_vaults (s : System x) (id : Nat) (call : Call) : (s.goes_on id call).vaults = s.vaults := rfl

theorem in_vault_ne {m' : String} (other : m' ≠ m) (f : Vault S x.sha256_text → Vault S x.sha256_text) :
    (s.in_vault m f).vaults m' = s.vaults m' := if_neg other

theorem in_vault_twice (f g : Vault S x.sha256_text → Vault S x.sha256_text) :
    (s.in_vault m f).in_vault m g = s.in_vault m (g ∘ f) := by
  simp only [System.in_vault, System.mk.injEq, and_self, and_true]
  funext m'
  split <;> rfl

theorem of_call_some {id : Nat} {phase : Phase} {f : Call → Option (System x)} (h : s.of_call id phase f = some s') :
    ∃ call, s.calls.get? id = some call ∧ call.phase = phase ∧ f call = some s' := by
  rw [System.of_call] at h
  split at h
  · next call running =>
    split at h
    · next at_phase => exact ⟨call, running, at_phase, h⟩
    · cases h
  · cases h

theorem import_ok {vault : Vault S x.sha256_text} {args : ImportArgs} {copies : Dict String Digest}
    {bundle : LearningImportBundle} (h : import_docx_learning x vault args = .ok (copies, bundle)) :
    vault.imports.get? (json_file (args.import_id x)) = some (some bundle) ∨
      (vault.imports.get? (json_file (args.import_id x)) = none ∧ args.bundle x = .ok bundle) := by
  rw [import_docx_learning] at h
  split at h
  · cases h
  split at h
  · cases h
  · next existing found =>
    split at h
    · obtain ⟨copies', -, h⟩ := bind_ok h
      cases h
      exact .inl found
    · cases h
  · next none_there =>
    obtain ⟨bundle', built, h⟩ := bind_ok h
    obtain ⟨copies', -, h⟩ := bind_ok h
    cases h
    exact .inr ⟨none_there, built⟩

theorem leave_some {α : Type} {files files' : Directory α} {file : String} {body : α} {debris : Debris}
    (h : leave files file body debris = some files') :
    files.get? (temp_name debris.random file) = none ∧
      files' = files.insert (temp_name debris.random file) (if debris.whole then some body else none) := by
  rw [leave] at h
  split at h
  · cases h
  · next fresh =>
    cases h
    exact ⟨by simpa [Dict.contains] using fresh, rfl⟩

theorem Moves.of_import {args : ImportArgs} {ending : ImportEnd} (h : step s (.import_learning args ending) = some s') :
    Moves s s' := by
  rw [step] at h
  split at h
  · cases h
  split at h
  · cases h
    exact .idle
  · next copies bundle imported =>
    have known : (∃ file, (s.vaults args.matter_id).imports.get? file = some (some bundle)) ∨
        ∃ args' : ImportArgs, args'.matter_id = args.matter_id ∧ args'.bundle x = .ok bundle := by
      rcases import_ok imported with old | ⟨-, built⟩
      · exact .inl ⟨_, old⟩
      · exact .inr ⟨args, rfl, built⟩
    cases ending with
    | after_source =>
      cases h
      exact .supplied rfl rfl (fun file bundle at_file => ⟨file, at_file⟩)
        fun file bundle at_file => .inl ⟨file, at_file⟩
    | returned =>
      cases h
      rw [in_vault_twice]
      refine .supplied rfl rfl ?_ ?_
      · intro file other at_file
        rcases import_ok imported with old | ⟨fresh, -⟩
        · refine ⟨file, ?_⟩
          simp only [Function.comp_apply, Dict.get?_insert]
          split
          · next same => rw [same, old] at at_file; exact at_file
          · exact at_file
        · refine ⟨file, ?_⟩
          simp only [Function.comp_apply, Dict.get?_insert]
          split
          · next same => rw [same, fresh] at at_file; cases at_file
          · exact at_file
      · intro file other at_file
        simp only [Function.comp_apply, Dict.get?_insert] at at_file
        split at at_file
        · cases at_file
          exact known
        · exact .inl ⟨file, at_file⟩
    | dropped debris =>
      obtain ⟨imports, left, rfl⟩ := Option.map_eq_some_iff.mp h
      obtain ⟨fresh, rfl⟩ := leave_some left
      rw [in_vault_twice]
      refine .supplied rfl rfl ?_ ?_
      · intro file other at_file
        refine ⟨file, ?_⟩
        simp only [Function.comp_apply, Dict.get?_insert]
        split
        · next same => rw [same, fresh] at at_file; cases at_file
        · exact at_file
      · intro file other at_file
        simp only [Function.comp_apply, Dict.get?_insert] at at_file
        split at at_file
        · split at at_file
          · cases at_file
            exact known
          · cases at_file
        · exact .inl ⟨file, at_file⟩

/-- What a computation of a call comes to. -/
theorem attempt_moves {α : Type} {id : Nat} {call : Call} {r : Except LearningError α} {f : α → System x}
    (running : s.calls.get? id = some call) (returns : ∀ a, r = .ok a → Moves s (f a)) :
    Moves s (s.attempt id call r f) := by
  cases r with
  | ok a => exact returns a rfl
  | error e => exact .raised running

theorem Moves.of_step {act : Act S} (h : step s act = some s') : Moves s s' := by
  cases act with
  | import_learning args ending => exact .of_import h
  | change_sources m sources =>
    cases h
    exact .supplied rfl rfl (fun file bundle at_file => ⟨file, at_file⟩)
      fun file bundle at_file => .inl ⟨file, at_file⟩
  | enter id m args =>
    rw [step] at h
    split at h
    · cases h
    · next free =>
      split at h
      · next passes =>
        cases h
        exact .entered (by simpa [Dict.contains] using free) passes
      · cases h
        exact .refused
  | acquire id =>
    obtain ⟨call, running, waiting, h⟩ := of_call_some h
    split at h
    · cases h
      exact .raised running
    · next free =>
      cases h
      exact .acquired running waiting (by simpa using free)
  | check id =>
    obtain ⟨call, running, locked, h⟩ := of_call_some h
    cases h
    exact attempt_moves running fun call' passes => .checked running locked passes
  | publish id =>
    obtain ⟨call, running, checked, h⟩ := of_call_some h
    split at h
    · cases h
    · cases h
      exact attempt_moves running fun event built => attempt_moves running fun profile put =>
        .published running checked built put
  | refresh id =>
    obtain ⟨call, running, published, h⟩ := of_call_some h
    cases h
    exact attempt_moves running fun events listed => .refreshed running published listed
  | look id =>
    obtain ⟨call, running, filed, h⟩ := of_call_some h
    cases h
    exact attempt_moves running fun there found => .looked running filed found
  | append id =>
    obtain ⟨call, running, unrecorded, h⟩ := of_call_some h
    cases h
    exact .appended running unrecorded
  | contribute id =>
    obtain ⟨call, running, recorded, h⟩ := of_call_some h
    split at h
    · next accepts =>
      cases h
      exact attempt_moves running fun contribution built => attempt_moves running fun contributions put =>
        .contributed running recorded accepts built put
    · next other =>
      cases h
      exact .released running recorded other
  | answer id =>
    obtain ⟨call, running, answering, h⟩ := of_call_some h
    cases h
    refine attempt_moves running fun updated found => ?_
    cases updated with
    | none => exact .raised running
    | some view => exact .answered running answering found
  | die id debris =>
    rw [step] at h
    split at h
    · cases h
    · next call running =>
      cases debris with
      | none =>
        cases h
        exact .died running
      | some debris =>
        dsimp only at h
        split at h
        · next at_put =>
          split at h
          · cases h
          · next event built =>
            obtain ⟨profile, left, rfl⟩ := Option.map_eq_some_iff.mp h
            exact .dropped_event running (at_put.imp_right And.left) built left
        · split at h
          · next recorded =>
            split at h
            · cases h
            · next contribution built =>
              obtain ⟨contributions, left, rfl⟩ := Option.map_eq_some_iff.mp h
              exact .dropped_contribution running recorded.1 recorded.2 built left
          · cases h

/-! ### Views -/

variable {vault : Vault S x.sha256_text} {args : ReviewArgs} {call call' : Call} {view : LearningProposalView}

theorem fold_proposal (events : List LearningReview) (view : LearningProposalView) :
    (events.foldl .fold view).proposal = view.proposal ∧
      (events.foldl .fold view).review_history = view.review_history := by
  induction events generalizing view with
  | nil => exact ⟨rfl, rfl⟩
  | cons event events ih =>
    rw [List.foldl_cons, (ih _).1, (ih _).2, LearningProposalView.fold]
    repeat' split
    all_goals exact ⟨rfl, rfl⟩

/-- A proposal that shows as accepted was accepted, and shows the text of an acceptance. -/
theorem fold_accepted {events : List LearningReview} {start : LearningProposalView}
    (open_yet : start.status ≠ .accepted) (accepted : (events.foldl .fold start).status = .accepted) :
    ∃ a ∈ events, a.action = .accept ∧ (events.foldl .fold start).accepted_text = some a.reviewed_text := by
  induction events using List.reverseRecOn with
  | nil => exact absurd accepted open_yet
  | append_singleton events event ih =>
    rw [List.foldl_concat] at accepted ⊢
    rw [LearningProposalView.fold] at accepted ⊢
    cases action : event.action with
    | accept => exact ⟨event, by simp, action, rfl⟩
    | reject =>
      rw [action] at accepted
      cases accepted
    | promote =>
      rw [action] at accepted
      have before : (events.foldl .fold start).status = .accepted := by
        dsimp only at accepted
        repeat' split at accepted
        all_goals exact accepted
      obtain ⟨a, mem, accepts, text⟩ := ih before
      refine ⟨a, List.mem_append_left _ mem, accepts, ?_⟩
      dsimp only
      repeat' split
      all_goals exact text

theorem list_bundles_mem {bundles : List LearningImportBundle} (read : vault.list_bundles = .ok bundles)
    {bundle : LearningImportBundle} (mem : bundle ∈ bundles) :
    ∃ file, vault.imports.get? file = some (some bundle) := by
  obtain ⟨⟨file, body⟩, listed, parsed⟩ := Walk.mem_of_mapM read mem
  cases body with
  | none => cases parsed
  | some found =>
    cases parsed
    exact ⟨file, Dict.get?_eq_some.mpr (List.mem_sortBy.mp listed)⟩

theorem get_some {proposal_id : String} (h : vault.get proposal_id = .ok (some view)) :
    ∃ file bundle proposal, vault.imports.get? file = some (some bundle) ∧ proposal ∈ bundle.proposals ∧
      proposal.proposal_id = proposal_id ∧ view = vault.view proposal := by
  obtain ⟨views, listed, found⟩ := bind_ok h
  obtain ⟨bundles, read, listed⟩ := bind_ok listed
  have mem := List.mem_of_find?_eq_some (Except.ok.inj found)
  have named := List.find?_some (Except.ok.inj found)
  rw [← Except.ok.inj listed, List.mem_sortBy, List.mem_map] at mem
  obtain ⟨proposal, mem, rfl⟩ := mem
  obtain ⟨bundle, in_bundles, mem⟩ := List.mem_flatMap.mp mem
  obtain ⟨file, at_file⟩ := list_bundles_mem read in_bundles
  refine ⟨file, bundle, proposal, at_file, mem, ?_, rfl⟩
  have shown := (fold_proposal (vault.history proposal.proposal_id)
    ⟨proposal, .needs_review, none, [], vault.history proposal.proposal_id⟩).1
  simpa [Vault.view, shown] using named

theorem view_history (vault : Vault S x.sha256_text) (proposal : LearningProposal) :
    (vault.view proposal).proposal = proposal ∧
      (vault.view proposal).review_history = vault.history proposal.proposal_id := fold_proposal _ _

theorem mem_history {review : LearningReview} {proposal_id : String} :
    review ∈ vault.history proposal_id ↔ review ∈ vault.reviews ∧ review.proposal_id = proposal_id := by
  simp [Vault.history]

/-! ### What the checks of a review establish -/

theorem mapError_ok {α ε ε' : Type} {r : Except ε α} {f : ε → ε'} {a : α} (h : r.mapError f = .ok a) : r = .ok a := by
  cases r with
  | ok a' => exact congrArg Except.ok (Except.ok.inj h)
  | error e => cases h

/-- A valid acceptance has a text. -/
theorem valid_accept {review : LearningReview} (valid : review.validate = .ok ()) (accepts : review.action = .accept) :
    review.reviewed_text ≠ "" := by
  rintro empty
  obtain ⟨⟨⟩, -, valid⟩ := bind_ok valid
  rw [LearningReview.validate_action] at valid
  have blank : isBlank review.reviewed_text = true := by rw [empty]; rfl
  split at valid
  · cases valid
  · rw [if_pos ⟨accepts, blank⟩] at valid
    cases valid

/-- A valid promotion is to the firm or to an area, and binds the digest of a diff. -/
theorem valid_promotion {review : LearningReview} (valid : review.validate = .ok ())
    (promotes : review.action = .promote) :
    review.target_tier = some .firm ∨ review.target_tier = some .area := by
  obtain ⟨⟨⟩, -, valid⟩ := bind_ok valid
  rw [LearningReview.validate_action] at valid
  by_contra neither
  iterate 3
    split at valid
    · cases valid
  rw [if_pos (not_or.mp neither)] at valid
  cases valid

/-- The reviewer of a promotion was shown what it makes of a text that was accepted. -/
def Confirmed (x : Outside S) (reviews : List LearningReview) (proposal_id : String) (digest : Option Digest)
    (text : String) : Prop :=
  ∃ a ∈ reviews, a.action = .accept ∧ a.proposal_id = proposal_id ∧
    digest = some (x.sha256_text (x.critic_markup a.reviewed_text text).1)

/-- What the sharing scrub made of a reviewed text, with what it read at that time. -/
def Scrubbed (x : Outside S) (text : String) : Prop :=
  ∃ sources reviewed, x.sharing_scrub sources reviewed = .ok text

theorem promotion_text_ok {current : LearningProposalView} {text : Option String}
    (h : promotion_text x vault m args current = .ok text) (promotes : args.action = .promote) :
    ∃ scrubbed, text = some scrubbed ∧ Scrubbed x scrubbed ∧
      args.scrub_diff_sha256 = some (rendered_diff_sha256 x current scrubbed) := by
  rw [promotion_text, if_pos promotes] at h
  obtain ⟨scrubbed, confirmed, h⟩ := bind_ok h
  obtain ⟨-, -, h⟩ := bind_ok h
  cases h
  refine ⟨scrubbed, rfl, ?_⟩
  rw [scrub_confirmed] at confirmed
  obtain ⟨scrubbed', scrub, confirmed⟩ := bind_ok confirmed
  split at confirmed
  · cases confirmed
  · next same =>
    split at confirmed
    · cases confirmed
    · cases confirmed
      exact ⟨⟨_, _, mapError_ok scrub⟩, not_not.mp same⟩

theorem preflight_ok (h : preflight x vault m args = .ok call) :
    ∃ current scrubbed_text, vault.get args.proposal_id = .ok (some current) ∧
      call = ⟨m, args, current, current, scrubbed_text, args.review x current, .waiting⟩ ∧
      (args.review x current).validate = .ok () ∧ promotion_text x vault m args current = .ok scrubbed_text ∧
      (args.action = .promote → current.status = .accepted) := by
  rw [preflight] at h
  split at h
  · cases h
  obtain ⟨found, got, h⟩ := bind_ok h
  cases found with
  | none => cases h
  | some current =>
    dsimp only at h
    split at h
    · cases h
    · next allowed =>
      obtain ⟨scrubbed_text, shared, h⟩ := bind_ok h
      split at h
      · cases h
      · obtain ⟨⟨⟩, valid, h⟩ := bind_ok h
        cases h
        refine ⟨current, scrubbed_text, got, rfl, mapError_ok valid, shared, ?_⟩
        intro promotes
        by_contra other
        exact allowed ⟨promotes, other⟩

theorem settled_review_ok {locked_current : LearningProposalView} {review : LearningReview}
    (h : settled_review call locked_current = .ok review) :
    review = call.review ∧ (call.args.action = .promote → locked_current.status = .accepted) ∧
        (call.args.action ≠ .promote → locked_current.status = .needs_review) ∨
      call.args.action ≠ .promote ∧ review ∈ locked_current.review_history ∧
        review.retry_form = call.review.retry_form := by
  rw [settled_review] at h
  split at h
  · next promotes =>
    split at h
    · next accepted =>
      cases h
      exact .inl ⟨rfl, fun _ => accepted, fun other => absurd promotes other⟩
    · cases h
  · next decides =>
    split at h
    · next waiting =>
      cases h
      exact .inl ⟨rfl, fun promotes => absurd promotes decides, fun _ => waiting⟩
    · split at h
      · cases h
      · next original found =>
        split at h
        · next same =>
          cases h
          exact .inr ⟨decides, List.mem_of_find?_eq_some found, same⟩
        · cases h

theorem locked_check_ok (h : locked_check x vault call = .ok call') :
    ∃ locked_current review, vault.get call.args.proposal_id = .ok (some locked_current) ∧
      settled_review call locked_current = .ok review ∧
      call' = { call with
        locked_current, review, phase := if call.args.action = .promote then .checked else .filed } := by
  obtain ⟨found, got, h⟩ := bind_ok h
  cases found with
  | none => cases h
  | some locked_current =>
    obtain ⟨review, settled, h⟩ := bind_ok h
    cases h
    exact ⟨locked_current, review, got, settled, rfl⟩

theorem confirmed_of_view {proposal : LearningProposal} {text : String} {digest : Option Digest}
    (valid : ∀ r ∈ vault.reviews, r.validate = .ok ()) (accepted : (vault.view proposal).status = .accepted)
    (same : digest = some (rendered_diff_sha256 x (vault.view proposal) text)) :
    Confirmed x vault.reviews proposal.proposal_id digest text := by
  obtain ⟨a, mem, accepts, shown⟩ := fold_accepted (by nofun) accepted
  obtain ⟨recorded, named⟩ := mem_history.mp mem
  refine ⟨a, recorded, accepts, named, ?_⟩
  have some_text := valid_accept (valid a recorded) accepts
  rw [same, rendered_diff_sha256]
  change (vault.view proposal).accepted_text = some a.reviewed_text at shown
  rw [shown]
  simp only [some_text, if_false]

/-! ### Files that are added -/

/-- The directory gained at most files with one record. -/
structure Adds {α : Type} (files files' : Directory α) (record : α) : Prop where
  kept : ∀ file body, files.get? file = some body → files'.get? file = some body
  added : ∀ file found, files'.get? file = some (some found) → files.get? file = some (some found) ∨ found = record

section
variable {α : Type} {files files' : Directory α} {record : α}

theorem Adds.refl (files : Directory α) (record : α) : Adds files files record := ⟨fun _ _ h => h, fun _ _ h => .inl h⟩

theorem Adds.insert {file : String} {body : Option α} (fresh : files.get? file = none)
    (of_record : ∀ found, body = some found → found = record) : Adds files (files.insert file body) record where
  kept := by
    intro file' body' at_file
    rw [Dict.get?_insert]
    split
    · next same => rw [same, fresh] at at_file; cases at_file
    · exact at_file
  added := by
    intro file' found at_file
    rw [Dict.get?_insert] at at_file
    split at at_file
    · exact .inr (of_record found (Option.some.inj at_file))
    · exact .inl at_file

theorem leave_adds {file : String} {debris : Debris} (h : leave files file record debris = some files') :
    Adds files files' record := by
  obtain ⟨fresh, rfl⟩ := leave_some h
  refine .insert fresh ?_
  intro found whole
  split at whole
  · exact (Option.some.inj whole).symm
  · cases whole

end

section
variable {hash : String → Digest}

theorem put_contribution_ok {files files' : Directory (ContextContribution hash)} {record : ContextContribution hash}
    (h : put_contribution files record = .ok files') :
    Adds files files' record ∧ files'.get? (json_file record.contribution_id) = some (some record) := by
  rw [put_contribution] at h
  split at h
  · next fresh =>
    cases h
    exact ⟨.insert fresh fun found same => (Option.some.inj same).symm, Dict.get?_insert_self ..⟩
  · next stored there =>
    split at h
    · next same =>
      cases h
      exact ⟨.refl .., by rw [there, same]⟩
    · cases h

theorem put_event_ok {files files' : Directory (FirmLearningEvent hash)} {event : FirmLearningEvent hash}
    (h : put_event files event = .ok files') :
    Adds files files' event ∧ files'.get? (json_file event.contribution.contribution_id) = some (some event) := by
  rw [put_event] at h
  split at h
  · next fresh =>
    cases h
    exact ⟨.insert fresh fun found same => (Option.some.inj same).symm, Dict.get?_insert_self ..⟩
  · next stored there =>
    split at h
    · next same =>
      cases h
      exact ⟨.refl .., by rw [there, same]⟩
    · cases h

/-- Where a tier is kept in the profile. -/
def Profile.directory (profile : Profile hash) (tier : LearningTier) : Directory (FirmLearningEvent hash) :=
  if tier = .area then profile.public_candidates else profile.learnings

/-- The profile gained at most files of one event. -/
structure ProfileAdds (profile profile' : Profile hash) (event : FirmLearningEvent hash) : Prop where
  learnings : Adds profile.learnings profile'.learnings event
  public_candidates : Adds profile.public_candidates profile'.public_candidates event
  preferences : profile'.preferences = profile.preferences

theorem ProfileAdds.directory {profile profile' : Profile hash} {event : FirmLearningEvent hash}
    (adds : ProfileAdds profile profile' event) (tier : LearningTier) :
    Adds (profile.directory tier) (profile'.directory tier) event := by
  rw [Profile.directory, Profile.directory]
  split
  · exact adds.public_candidates
  · exact adds.learnings

end

theorem put_ok {profile profile' : Profile x.sha256_text} {tier : LearningTier}
    {event : FirmLearningEvent x.sha256_text} (h : profile.put tier event = .ok profile') :
    ProfileAdds profile profile' event ∧
      (profile'.directory tier).get? (json_file event.contribution.contribution_id) = some (some event) := by
  rw [Profile.put] at h
  split at h
  · next area =>
    obtain ⟨files, put, h⟩ := bind_ok h
    cases h
    rw [Profile.directory, if_pos area]
    exact ⟨⟨.refl .., (put_event_ok put).1, rfl⟩, (put_event_ok put).2⟩
  · next other =>
    obtain ⟨files, put, h⟩ := bind_ok h
    cases h
    rw [Profile.directory, if_neg other]
    exact ⟨⟨(put_event_ok put).1, .refl .., rfl⟩, (put_event_ok put).2⟩

theorem profile_leave_adds {profile profile' : Profile x.sha256_text} {tier : LearningTier}
    {event : FirmLearningEvent x.sha256_text} {debris : Debris} (h : profile.leave tier event debris = some profile') :
    ProfileAdds profile profile' event := by
  rw [Profile.leave] at h
  split at h
  · obtain ⟨files, left, rfl⟩ := Option.map_eq_some_iff.mp h
    exact ⟨.refl .., leave_adds left, rfl⟩
  · obtain ⟨files, left, rfl⟩ := Option.map_eq_some_iff.mp h
    exact ⟨leave_adds left, .refl .., rfl⟩

theorem contribution?_ok {hash : String → Digest} {id text locator source : String} {tasks : List String}
    {approval : ContextApprovalState} {scope : ContextSharingScope} {excluded : List String}
    {c : ContextContribution hash} (h : contribution? id text locator source tasks approval scope excluded = .ok c) :
    c.contribution_id = id ∧ c.kind = .learning ∧ c.text = text ∧ c.provenance_locator = locator ∧
      c.source_matter_id = source ∧ c.task_scope = tasks ∧ c.approval_state = approval ∧ c.sharing_scope = scope ∧
      c.excluded_matter_ids = excluded := by
  rw [contribution?] at h
  iterate 8
    split at h
    · cases h
  cases h
  exact ⟨rfl, rfl, rfl, rfl, rfl, rfl, rfl, rfl, rfl⟩

/-- The event of a call. -/
theorem event_ok {event : FirmLearningEvent x.sha256_text} (h : call.event = .ok event) :
    ∃ tier text, call.args.target_tier = some tier ∧ call.scrubbed_text = some text ∧
      shared_contribution call.locked_current call.review tier text = .ok event.contribution ∧
      event.review = { call.review with reviewed_text := text } ∧ event.contribution.text = text ∧ event.binds = true ∧
      event.source_matter_id = call.review.source_matter_id := by
  rw [Call.event] at h
  split at h
  · next tier text tiered scrubbed =>
    obtain ⟨contribution, shared, h⟩ := bind_ok h
    dsimp only at h
    split at h
    · next binds =>
      cases h
      have same_text := (contribution?_ok shared).2.2.1
      exact ⟨tier, text, tiered, scrubbed, shared, by rw [same_text], same_text, binds, rfl⟩
    · cases h
  · cases h

/-! ### What a step adds -/

theorem in_vault_keeps {β : Type} (g : Vault S x.sha256_text → β) {f : Vault S x.sha256_text → Vault S x.sha256_text}
    (same : g (f (s.vaults m)) = g (s.vaults m)) (m' : String) : g ((s.in_vault m f).vaults m') = g (s.vaults m') := by
  by_cases here : m' = m
  · rw [here, in_vault_self, same]
  · rw [in_vault_ne here]

/-- A preference of the firm that is on file. -/
def System.Listed (s : System x) (event : FirmLearningEvent x.sha256_text) : Prop :=
  ∃ preferences, s.profile.preferences = some preferences ∧ event.preference ∈ preferences.preferences

theorem read_events_mem {hash : String → Digest} {files : Directory (FirmLearningEvent hash)}
    {events : List (FirmLearningEvent hash)} (read : read_events files = .ok events) {event : FirmLearningEvent hash} :
    event ∈ events ↔ ∃ file, files.get? file = some (some event) := by
  constructor
  · intro mem
    obtain ⟨⟨file, body⟩, listed, parsed⟩ := Walk.mem_of_mapM read mem
    refine ⟨file, Dict.get?_eq_some.mpr ?_⟩
    rw [List.mem_sortBy] at listed
    cases body with
    | none => cases parsed
    | some found =>
      dsimp only at parsed
      repeat' split at parsed
      all_goals cases parsed
      exact listed
  · rintro ⟨file, there⟩
    obtain ⟨event', mem, parsed⟩ := Walk.exists_of_mapM read (List.mem_sortBy.mpr (Dict.get?_eq_some.mp there))
    dsimp only at parsed
    repeat' split at parsed
    all_goals cases parsed
    exact mem

/-- What no step takes back. -/
structure Grows (s s' : System x) : Prop where
  reviews : ∀ m, (s.vaults m).reviews ⊆ (s'.vaults m).reviews
  proposed : ∀ m proposal, s.Proposed m proposal → s'.Proposed m proposal
  events : ∀ tier file event, (s.profile.directory tier).get? file = some (some event) →
    (s'.profile.directory tier).get? file = some (some event)
  contributions : ∀ m file record, (s.vaults m).contributions.get? file = some (some record) →
    (s'.vaults m).contributions.get? file = some (some record)
  listed : ∀ file event, s.profile.learnings.get? file = some (some event) → s.Listed event → s'.Listed event

theorem Grows.of_same {s' : System x} (vaults : s'.vaults = s.vaults) (profile : s'.profile = s.profile) :
    Grows s s' where
  reviews m := by rw [vaults]; exact List.Subset.refl _
  proposed m proposal there := by rwa [System.Proposed, vaults]
  events tier file event there := by rwa [profile]
  contributions m file record there := by rwa [vaults]
  listed file event there listed := by rwa [System.Listed, profile]

theorem Grows.of_profile {s' : System x} {event : FirmLearningEvent x.sha256_text} (vaults : s'.vaults = s.vaults)
    (adds : ProfileAdds s.profile s'.profile event) : Grows s s' where
  reviews m := by rw [vaults]; exact List.Subset.refl _
  proposed m proposal there := by rwa [System.Proposed, vaults]
  events tier file event there := (adds.directory tier).kept file _ there
  contributions m file record there := by rwa [vaults]
  listed file event there listed := by rwa [System.Listed, adds.preferences]

theorem Grows.of_contributions {s' : System x} {record : ContextContribution x.sha256_text}
    {contributions : Directory (ContextContribution x.sha256_text)} (profile : s'.profile = s.profile)
    (vaults : s'.vaults = (s.in_vault m fun vault => { vault with contributions }).vaults)
    (adds : Adds (s.vaults m).contributions contributions record) : Grows s s' where
  reviews m' := by rw [vaults, in_vault_keeps (·.reviews) rfl]; exact List.Subset.refl _
  proposed m' proposal there := by rwa [System.Proposed, vaults, in_vault_keeps (·.imports) rfl]
  events tier file event there := by rwa [profile]
  contributions m' file found there := by
    rw [vaults]
    by_cases here : m' = m
    · subst here
      rw [in_vault_self]
      exact adds.kept file _ there
    · rwa [in_vault_ne here]
  listed file event there listed := by rwa [System.Listed, profile]

theorem Moves.grows (moves : Moves s s') : Grows s s' := by
  cases moves with
  | @supplied m f reviews contributions kept added =>
    refine ⟨fun m' => ?_, fun m' proposal there => ?_, fun _ _ _ h => h, fun m' file record there => ?_,
      fun _ _ _ h => h⟩
    · rw [in_vault_keeps (·.reviews) reviews]
      exact List.Subset.refl _
    · obtain ⟨file, bundle, at_file, mem⟩ := there
      by_cases here : m' = m
      · subst here
        obtain ⟨file', at_file'⟩ := kept file bundle at_file
        exact ⟨file', bundle, by rwa [in_vault_self], mem⟩
      · exact ⟨file, bundle, by rwa [in_vault_ne here], mem⟩
    · rwa [in_vault_keeps (·.contributions) contributions]
  | published running checked built put => exact .of_profile rfl (put_ok put).1
  | refreshed running published listed =>
    refine ⟨fun m' => List.Subset.refl _, fun _ _ h => h, fun tier file event there => ?_, fun _ _ _ h => h, ?_⟩
    · rw [Profile.directory] at there ⊢
      exact there
    · intro file event there _
      exact ⟨_, rfl, List.mem_map.mpr ⟨event, (read_events_mem listed).mpr ⟨file, there⟩, rfl⟩⟩
  | @appended id call running unrecorded =>
    refine ⟨fun m' => ?_, fun m' proposal there => ?_, fun _ _ _ h => h, fun m' file record there => ?_,
      fun _ _ _ h => h⟩
    · rw [goes_on_vaults]
      by_cases here : m' = call.matter_id
      · rw [here, in_vault_self]
        exact List.subset_append_left _ _
      · rw [in_vault_ne here]
        exact List.Subset.refl _
    · rwa [System.Proposed, goes_on_vaults, in_vault_keeps (·.imports) rfl]
    · rwa [goes_on_vaults, in_vault_keeps (·.contributions) rfl]
  | contributed running recorded accepts built put => exact .of_contributions rfl rfl (put_contribution_ok put).1
  | dropped_event running at_put built left => exact .of_profile rfl (profile_leave_adds left)
  | dropped_contribution running recorded accepts built left => exact .of_contributions rfl rfl (leave_adds left)
  | _ => exact .of_same rfl rfl

theorem Moves.reviews_back (moves : Moves s s') {review : LearningReview} (mem : review ∈ (s'.vaults m).reviews) :
    review ∈ (s.vaults m).reviews ∨
      ∃ id call, s.calls.get? id = some call ∧ call.phase = .unrecorded ∧ call.matter_id = m ∧
        call.review = review := by
  cases moves with
  | supplied reviews contributions kept added =>
    rw [in_vault_keeps (·.reviews) reviews] at mem
    exact .inl mem
  | @appended id call running unrecorded =>
    rw [goes_on_vaults] at mem
    by_cases here : m = call.matter_id
    · rw [here, in_vault_self] at mem
      rcases List.mem_append.mp mem with old | new
      · exact .inl (here ▸ old)
      · exact .inr ⟨id, call, running, unrecorded, here.symm, (List.mem_singleton.mp new).symm⟩
    · rw [in_vault_ne here] at mem
      exact .inl mem
  | contributed running recorded accepts built put =>
    rw [goes_on_vaults] at mem
    rw [in_vault_keeps (·.reviews) rfl] at mem
    exact .inl mem
  | dropped_contribution running recorded accepts built left =>
    rw [in_vault_keeps (·.reviews) rfl] at mem
    exact .inl mem
  | _ => exact .inl mem

theorem Moves.events_back (moves : Moves s s') {tier : LearningTier} {file : String}
    {event : FirmLearningEvent x.sha256_text} (there : (s'.profile.directory tier).get? file = some (some event)) :
    (s.profile.directory tier).get? file = some (some event) ∨
      ∃ id call, s.calls.get? id = some call ∧ (call.phase = .published ∨ call.phase = .checked) ∧
        call.event = .ok event := by
  cases moves with
  | published running checked built put =>
    rcases ((put_ok put).1.directory tier).added file event there with old | rfl
    · exact .inl old
    · exact .inr ⟨_, _, running, .inr checked, built⟩
  | dropped_event running at_put built left =>
    rcases ((profile_leave_adds left).directory tier).added file event there with old | rfl
    · exact .inl old
    · exact .inr ⟨_, _, running, at_put, built⟩
  | _ => exact .inl there

theorem Moves.contributions_back (moves : Moves s s') {file : String} {record : ContextContribution x.sha256_text}
    (there : (s'.vaults m).contributions.get? file = some (some record)) :
    (s.vaults m).contributions.get? file = some (some record) ∨
      ∃ id call, s.calls.get? id = some call ∧ call.phase = .recorded ∧ call.args.action = .accept ∧
        call.matter_id = m ∧ accepted_contribution call.current call.review = .ok record := by
  cases moves with
  | supplied reviews contributions kept added =>
    rw [in_vault_keeps (·.contributions) contributions] at there
    exact .inl there
  | appended running unrecorded =>
    rw [goes_on_vaults] at there
    rw [in_vault_keeps (·.contributions) rfl] at there
    exact .inl there
  | @contributed id call contribution contributions running recorded accepts built put =>
    rw [goes_on_vaults] at there
    by_cases here : m = call.matter_id
    · rw [here, in_vault_self] at there
      rcases (put_contribution_ok put).1.added file record there with old | rfl
      · exact .inl (here ▸ old)
      · exact .inr ⟨id, call, running, recorded, accepts, here.symm, built⟩
    · rw [in_vault_ne here] at there
      exact .inl there
  | @dropped_contribution id call contribution contributions debris running recorded accepts built left =>
    by_cases here : m = call.matter_id
    · rw [here, in_vault_self] at there
      rcases (leave_adds left).added file record there with old | rfl
      · exact .inl (here ▸ old)
      · exact .inr ⟨id, call, running, recorded, accepts, here.symm, built⟩
    · rw [in_vault_ne here] at there
      exact .inl there
  | _ => exact .inl there

theorem Moves.proposed_back (moves : Moves s s') {proposal : LearningProposal} (there : s'.Proposed m proposal) :
    s.Proposed m proposal ∨ ∃ (args : ImportArgs) (bundle : _), args.matter_id = m ∧ args.bundle x = .ok bundle ∧
      proposal ∈ bundle.proposals := by
  obtain ⟨file, bundle, at_file, mem⟩ := there
  cases moves with
  | @supplied m' f reviews contributions kept added =>
    by_cases here : m = m'
    · subst here
      rw [in_vault_self] at at_file
      rcases added file bundle at_file with ⟨file', old⟩ | ⟨args, same, built⟩
      · exact .inl ⟨file', bundle, old, mem⟩
      · exact .inr ⟨args, bundle, same, built, mem⟩
    · rw [in_vault_ne here] at at_file
      exact .inl ⟨file, bundle, at_file, mem⟩
  | appended running unrecorded =>
    rw [goes_on_vaults] at at_file
    rw [in_vault_keeps (·.imports) rfl] at at_file
    exact .inl ⟨file, bundle, at_file, mem⟩
  | contributed running recorded accepts built put =>
    rw [goes_on_vaults] at at_file
    rw [in_vault_keeps (·.imports) rfl] at at_file
    exact .inl ⟨file, bundle, at_file, mem⟩
  | dropped_contribution running recorded accepts built left =>
    rw [in_vault_keeps (·.imports) rfl] at at_file
    exact .inl ⟨file, bundle, at_file, mem⟩
  | _ => exact .inl ⟨file, bundle, at_file, mem⟩

/-! ### What a review stands for -/

/-- The content of the record a review leaves: all but its id and its time. -/
def ReviewArgs.content (args : ReviewArgs) (m : String) : LearningReview where
  review_id := ""
  source_matter_id := m
  proposal_id := args.proposal_id
  action := args.action
  actor := args.actor
  channel := args.channel
  recorded_at := ""
  reviewed_text := args.reviewed_text
  target_tier := args.target_tier
  reason := args.reason
  confirm_scrub_diff := args.confirm_scrub_diff
  scrub_diff_sha256 := args.scrub_diff_sha256
  excluded_matter_ids := args.excluded_matter_ids

/-- The promotion on record is in the profile, and the firm's preferences list it where it is the firm's. -/
def System.Promoted (s : System x) (review : LearningReview) : Prop :=
  ∃ tier event, review.target_tier = some tier ∧
    event.contribution.contribution_id = s!"{tier.value}-learning-{review.proposal_id}" ∧
    (s.profile.directory tier).get? (json_file event.contribution.contribution_id) = some (some event) ∧
    event.review = { review with reviewed_text := event.contribution.text } ∧
    (tier = .firm → s.Listed event)

/-- A contribution of a matter is the text of an acceptance, for the task of its proposal. -/
structure System.Accepted (s : System x) (m : String) (record : ContextContribution x.sha256_text)
    (a : LearningReview) : Prop where
  recorded : a ∈ (s.vaults m).reviews
  accepts : a.action = .accept
  named : record.contribution_id = s!"learning:{a.proposal_id}"
  kind : record.kind = .learning
  text : record.text = a.reviewed_text
  locator : record.provenance_locator = s!"learnings/reviews.jsonl#{a.review_id}"
  source : record.source_matter_id = m
  scope : record.sharing_scope = .matter
  task : ∃ proposal, s.Proposed m proposal ∧ proposal.proposal_id = a.proposal_id ∧ record.task_scope = [proposal.task]

/-- An event of the profile is of a confirmed promotion. -/
structure System.Reviewed (s : System x) (event : FirmLearningEvent x.sha256_text) : Prop where
  promotes : event.review.action = .promote
  binds : event.binds = true
  kind : event.contribution.kind = .learning
  firm : event.contribution.approval_state = .accepted → event.review.target_tier = some .firm
  scope : event.contribution.sharing_scope ≠ .matter
  walls : event.contribution.excluded_matter_ids = event.review.excluded_matter_ids
  scrubbed : Scrubbed x event.contribution.text
  confirmed : Confirmed x (s.vaults event.review.source_matter_id).reviews event.review.proposal_id
    event.review.scrub_diff_sha256 event.contribution.text
  task : ∃ proposal, s.Proposed event.review.source_matter_id proposal ∧
    proposal.proposal_id = event.review.proposal_id ∧ event.contribution.task_scope = [proposal.task]

/-- What the answer to a call rests on: its review is on record, and what it publishes is published. -/
structure System.InForce (s : System x) (m : String) (args : ReviewArgs) (review : LearningReview) : Prop where
  recorded : review ∈ (s.vaults m).reviews
  content : review.retry_form = args.content m
  accepted : args.action = .accept → ∃ record, s.Accepted m record review ∧
    (s.vaults m).contributions.get? (json_file record.contribution_id) = some (some record)
  promoted : args.action = .promote → s.Promoted review

def Phase.past_put : Phase → Bool
  | .waiting | .locked | .checked => false
  | _ => true

/-- What holds of a call under way. -/
structure System.CallSound (s : System x) (call : Call) : Prop where
  proposed : s.Proposed call.matter_id call.current.proposal
  named : call.current.proposal.proposal_id = call.args.proposal_id
  locked_proposed : s.Proposed call.matter_id call.locked_current.proposal
  locked_named : call.locked_current.proposal.proposal_id = call.args.proposal_id
  valid : call.review.validate = .ok ()
  content : call.review.retry_form = call.args.content call.matter_id
  promotion : call.args.action = .promote → ∃ text, call.scrubbed_text = some text ∧ Scrubbed x text ∧
    Confirmed x (s.vaults call.matter_id).reviews call.args.proposal_id call.args.scrub_diff_sha256 text
  shared : call.args.action = .promote → call.phase.past_put = true → ∃ tier event,
    call.args.target_tier = some tier ∧ call.event = .ok event ∧
    (s.profile.directory tier).get? (json_file event.contribution.contribution_id) = some (some event) ∧
    (tier = .firm → call.phase ≠ .published → s.Listed event)
  recorded : call.phase = .recorded ∨ call.phase = .answering → call.review ∈ (s.vaults call.matter_id).reviews
  contributed : call.phase = .answering → call.args.action = .accept → ∃ record,
    accepted_contribution call.current call.review = .ok record ∧
      (s.vaults call.matter_id).contributions.get? (json_file record.contribution_id) = some (some record)

/-- What holds of every reachable system. -/
structure System.Sound (s : System x) : Prop where
  sourced : ∀ m proposal, s.Proposed m proposal → proposal.source_matter_id = m
  reviews : ∀ m, ∀ review ∈ (s.vaults m).reviews, review.validate = .ok () ∧ review.source_matter_id = m
  promoted : ∀ m, ∀ review ∈ (s.vaults m).reviews, review.action = .promote → s.Promoted review
  contributions : ∀ m file record, (s.vaults m).contributions.get? file = some (some record) →
    ∃ a, s.Accepted m record a
  events : ∀ tier file event, (s.profile.directory tier).get? file = some (some event) → s.Reviewed event
  calls : ∀ id call, s.calls.get? id = some call → s.CallSound call
  answers : ∀ answer ∈ s.answers, ∀ view, answer.result = .ok view →
    ∃ review, s.InForce answer.matter_id answer.args review

section
variable {review : LearningReview} {record : ContextContribution x.sha256_text}
  {event : FirmLearningEvent x.sha256_text}

theorem Confirmed.grows {text proposal_id : String} {digest : Option Digest} {reviews reviews' : List LearningReview}
    (confirmed : Confirmed x reviews proposal_id digest text) (sub : reviews ⊆ reviews') :
    Confirmed x reviews' proposal_id digest text := by
  obtain ⟨a, mem, rest⟩ := confirmed
  exact ⟨a, sub mem, rest⟩

theorem Grows.promoted (grows : Grows s s') (promoted : s.Promoted review) : s'.Promoted review := by
  obtain ⟨tier, event, tiered, named, there, same, listed⟩ := promoted
  refine ⟨tier, event, tiered, named, grows.events tier _ event there, same, fun firm => ?_⟩
  subst firm
  exact grows.listed _ event there (listed rfl)

theorem Grows.accepted (grows : Grows s s') (accepted : s.Accepted m record review) : s'.Accepted m record review where
  recorded := grows.reviews m accepted.recorded
  accepts := accepted.accepts
  named := accepted.named
  kind := accepted.kind
  text := accepted.text
  locator := accepted.locator
  source := accepted.source
  scope := accepted.scope
  task := by
    obtain ⟨proposal, there, rest⟩ := accepted.task
    exact ⟨proposal, grows.proposed m proposal there, rest⟩

theorem Grows.reviewed (grows : Grows s s') (reviewed : s.Reviewed event) : s'.Reviewed event where
  promotes := reviewed.promotes
  binds := reviewed.binds
  kind := reviewed.kind
  firm := reviewed.firm
  scope := reviewed.scope
  walls := reviewed.walls
  scrubbed := reviewed.scrubbed
  confirmed := reviewed.confirmed.grows (grows.reviews _)
  task := by
    obtain ⟨proposal, there, rest⟩ := reviewed.task
    exact ⟨proposal, grows.proposed _ proposal there, rest⟩

theorem Grows.in_force (grows : Grows s s') (force : s.InForce m args review) : s'.InForce m args review where
  recorded := grows.reviews m force.recorded
  content := force.content
  accepted accepts := by
    obtain ⟨record, accepted, there⟩ := force.accepted accepts
    exact ⟨record, grows.accepted accepted, grows.contributions m _ record there⟩
  promoted promotes := grows.promoted (force.promoted promotes)

theorem Grows.call_sound (grows : Grows s s') (sound : s.CallSound call) : s'.CallSound call where
  proposed := grows.proposed _ _ sound.proposed
  named := sound.named
  locked_proposed := grows.proposed _ _ sound.locked_proposed
  locked_named := sound.locked_named
  valid := sound.valid
  content := sound.content
  promotion promotes := by
    obtain ⟨text, scrubbed, of_scrub, confirmed⟩ := sound.promotion promotes
    exact ⟨text, scrubbed, of_scrub, confirmed.grows (grows.reviews _)⟩
  shared promotes past := by
    obtain ⟨tier, event, tiered, built, there, listed⟩ := sound.shared promotes past
    refine ⟨tier, event, tiered, built, grows.events tier _ event there, fun firm later => ?_⟩
    subst firm
    exact grows.listed _ event there (listed rfl later)
  recorded at_end := grows.reviews _ (sound.recorded at_end)
  contributed at_end accepts := by
    obtain ⟨record, built, there⟩ := sound.contributed at_end accepts
    exact ⟨record, built, grows.contributions _ _ record there⟩

end

/-! ### Every step keeps it -/

theorem content_of_current {current : LearningProposalView} (source : current.proposal.source_matter_id = m) :
    (args.review x current).retry_form = args.content m := by
  rw [← source]
  rfl

/-- A call that goes on to another phase. -/
theorem System.CallSound.goes_on (sound : s.CallSound call) {phase : Phase}
    (shared : call.args.action = .promote → phase.past_put = true → ∃ tier event,
      call.args.target_tier = some tier ∧ call.event = .ok event ∧
      (s.profile.directory tier).get? (json_file event.contribution.contribution_id) = some (some event) ∧
      (tier = .firm → phase ≠ .published → s.Listed event))
    (recorded : phase = .recorded ∨ phase = .answering → call.review ∈ (s.vaults call.matter_id).reviews)
    (contributed : phase = .answering → call.args.action = .accept → ∃ record,
      accepted_contribution call.current call.review = .ok record ∧
        (s.vaults call.matter_id).contributions.get? (json_file record.contribution_id) = some (some record)) :
    s.CallSound { call with phase } :=
  ⟨sound.proposed, sound.named, sound.locked_proposed, sound.locked_named, sound.valid, sound.content, sound.promotion,
    shared, recorded, contributed⟩

theorem System.Sound.entered (sound : s.Sound) (passes : preflight x (s.vaults m) m args = .ok call) :
    s.CallSound call := by
  obtain ⟨current, text, got, rfl, valid, shared, accepted⟩ := preflight_ok passes
  obtain ⟨file, bundle, proposal, at_file, mem, named, rfl⟩ := get_some got
  have proposed : s.Proposed m proposal := ⟨file, bundle, at_file, mem⟩
  have shown : ((s.vaults m).view proposal).proposal = proposal := (view_history _ _).1
  refine ⟨by rwa [shown], by rwa [shown], by rwa [shown], by rwa [shown], valid, ?_, ?_, nofun, nofun, nofun⟩
  · exact content_of_current (by rw [shown]; exact sound.sourced m proposal proposed)
  · intro promotes
    obtain ⟨scrubbed, rfl, of_scrub, digest⟩ := promotion_text_ok shared promotes
    refine ⟨scrubbed, rfl, of_scrub, ?_⟩
    rw [← named]
    exact confirmed_of_view (fun r mem => (sound.reviews m r mem).1) (accepted promotes) digest

theorem System.Sound.checked (sound : s.Sound) (before : s.CallSound call)
    (passes : locked_check x (s.vaults call.matter_id) call = .ok call') : s.CallSound call' := by
  obtain ⟨locked_current, review, got, settled, rfl⟩ := locked_check_ok passes
  obtain ⟨file, bundle, proposal, at_file, mem, named, rfl⟩ := get_some got
  have proposed : s.Proposed call.matter_id proposal := ⟨file, bundle, at_file, mem⟩
  obtain ⟨shown, history⟩ := view_history (s.vaults call.matter_id) proposal
  have no_put : (call.args.action = .promote → ∀ phase : Phase,
      phase = (if call.args.action = .promote then .checked else .filed) → phase.past_put = false) := by
    rintro promotes phase rfl
    rw [if_pos promotes]
    rfl
  have early : ∀ phase : Phase, phase = (if call.args.action = .promote then .checked else .filed) →
      ¬(phase = .recorded ∨ phase = .answering) := by
    rintro phase rfl
    split <;> nofun
  refine ⟨before.proposed, before.named, by rwa [shown], by rwa [shown], ?_, ?_, before.promotion, ?_, ?_, ?_⟩
  · rcases settled_review_ok settled with ⟨rfl, -, -⟩ | ⟨-, mem, -⟩
    · exact before.valid
    · rw [history] at mem
      exact (sound.reviews _ review (mem_history.mp mem).1).1
  · rcases settled_review_ok settled with ⟨rfl, -, -⟩ | ⟨-, -, same⟩
    · exact before.content
    · exact same.trans before.content
  · intro promotes past
    rw [no_put promotes _ rfl] at past
    cases past
  · intro at_end
    exact absurd at_end (early _ rfl)
  · intro at_end
    exact absurd (Or.inr at_end) (early _ rfl)

theorem accepted_contribution_ok {current : LearningProposalView} {review : LearningReview}
    {record : ContextContribution x.sha256_text} (h : accepted_contribution current review = .ok record) :
    record.contribution_id = s!"learning:{current.proposal.proposal_id}" ∧ record.kind = .learning ∧
      record.text = review.reviewed_text ∧
      record.provenance_locator = s!"learnings/reviews.jsonl#{review.review_id}" ∧
      record.source_matter_id = current.proposal.source_matter_id ∧ record.task_scope = [current.proposal.task] ∧
      record.sharing_scope = .matter := by
  obtain ⟨named, kind, text, locator, source, task, -, scope, -⟩ := contribution?_ok h
  exact ⟨named, kind, text, locator, source, task, scope⟩

/-- The contribution of a call whose acceptance is on record. -/
theorem System.Sound.accepted (sound : s.Sound) (before : s.CallSound call)
    (recorded : call.review ∈ (s.vaults call.matter_id).reviews) (accepts : call.args.action = .accept)
    {record : ContextContribution x.sha256_text} (built : accepted_contribution call.current call.review = .ok record) :
    s.Accepted call.matter_id record call.review := by
  obtain ⟨named, kind, text, locator, source, task, scope⟩ := accepted_contribution_ok built
  have id : call.review.proposal_id = call.args.proposal_id := congrArg LearningReview.proposal_id before.content
  refine ⟨recorded, ?_, ?_, kind, text, locator, ?_, scope, call.current.proposal, before.proposed, ?_, task⟩
  · exact (congrArg LearningReview.action before.content).trans accepts
  · rw [named, before.named, id]
  · exact source.trans (sound.sourced _ _ before.proposed)
  · rw [before.named, id]

/-- The event of a promotion under way. -/
theorem System.CallSound.reviewed (before : s.CallSound call)
    {event : FirmLearningEvent x.sha256_text} (built : call.event = .ok event) : s.Reviewed event := by
  obtain ⟨tier, text, tiered, scrubbed, shared, same, same_text, binds, -⟩ := event_ok built
  obtain ⟨-, kind, -, -, -, task, approval, scope, walls⟩ := contribution?_ok shared
  have promotes : event.review.action = .promote := by
    simp only [FirmLearningEvent.binds, Bool.and_eq_true, decide_eq_true_eq] at binds
    exact binds.1.1.1
  have promotes' : call.args.action = .promote := by
    rw [← promotes, same]
    exact (congrArg LearningReview.action before.content).symm
  obtain ⟨text', scrubbed', of_scrub, confirmed⟩ := before.promotion promotes'
  rw [scrubbed] at scrubbed'
  cases scrubbed'
  have source : event.review.source_matter_id = call.matter_id := by
    rw [same]
    exact congrArg LearningReview.source_matter_id before.content
  have named : event.review.proposal_id = call.args.proposal_id := by
    rw [same]
    exact congrArg LearningReview.proposal_id before.content
  have digest : event.review.scrub_diff_sha256 = call.args.scrub_diff_sha256 := by
    rw [same]
    exact congrArg LearningReview.scrub_diff_sha256 before.content
  have tier_of : event.review.target_tier = some tier := by
    rw [same, ← tiered]
    exact congrArg LearningReview.target_tier before.content
  refine ⟨promotes, binds, kind, fun accepted => ?_, ?_, ?_, by rwa [same_text], ?_, ?_⟩
  · rw [approval] at accepted
    split at accepted
    · next firm => rw [tier_of, firm]
    · cases accepted
  · rw [scope]
    split <;> nofun
  · rw [walls, same]
  · rw [source, named, digest, same_text]
    exact confirmed
  · rw [source, named]
    exact ⟨call.locked_current.proposal, before.locked_proposed, before.locked_named, task⟩

theorem recorded_already_ok {reviews : List LearningReview} {review : LearningReview} {there : Bool}
    (h : recorded_already reviews review = .ok there) :
    (there = true → review ∈ reviews) ∧ (there = false → ∀ r ∈ reviews, r.review_id ≠ review.review_id) := by
  rw [recorded_already] at h
  split at h
  · next absent =>
    cases h
    refine ⟨nofun, fun _ r mem same => ?_⟩
    have other := List.find?_eq_none.mp absent r (List.mem_reverse.mpr mem)
    exact other (decide_eq_true same)
  · next prior found =>
    split at h
    · next same =>
      cases h
      subst same
      exact ⟨fun _ => List.mem_reverse.mp (List.mem_of_find?_eq_some found), nofun⟩
    · cases h

theorem System.Sound.calls_step (sound : s.Sound) (moves : Moves s s') {id : Nat}
    (running : s'.calls.get? id = some call) : s'.CallSound call := by
  have grows := moves.grows
  have kept : ∀ {id' : Nat} {call : Call}, s.calls.get? id' = some call → s'.CallSound call := fun was =>
    grows.call_sound (sound.calls _ _ was)
  have erased : ∀ {id' : Nat}, (s.calls.erase id').get? id = some call → s'.CallSound call := fun was => by
    rw [Dict.get?_erase] at was
    split at was
    · cases was
    · exact kept was
  have inserted : ∀ {id' : Nat} {call' : Call}, (s.calls.insert id' call').get? id = some call → s'.CallSound call' →
      s'.CallSound call := fun was new => by
    rw [Dict.get?_insert] at was
    split at was
    · cases was
      exact new
    · exact kept was
  cases moves with
  | supplied reviews contributions _ added => exact kept running
  | idle => exact kept running
  | entered free passes => exact inserted running (grows.call_sound (sound.entered passes))
  | refused => exact kept running
  | raised was => exact erased running
  | acquired was waiting free => exact inserted running ((kept was).goes_on nofun nofun nofun)
  | checked was locked passes => exact inserted running (grows.call_sound (sound.checked (sound.calls _ _ was) passes))
  | @published id' call' event profile was checked built put =>
    refine inserted running ((kept was).goes_on ?_ ?_ ?_)
    · intro promotes _
      obtain ⟨tier, text, tiered, -⟩ := event_ok built
      rw [tiered, Option.getD_some] at put ⊢
      refine ⟨tier, event, rfl, built, (put_ok put).2, ?_⟩
      rintro rfl later
      exact absurd rfl later
    · split <;> nofun
    · split <;> nofun
  | @refreshed id' call' events was published listed =>
    refine inserted running ((kept was).goes_on ?_ nofun nofun)
    intro promotes _
    obtain ⟨tier, event, tiered, built, there, -⟩ := (sound.calls _ _ was).shared promotes (by rw [published]; rfl)
    refine ⟨tier, event, tiered, built, grows.events tier _ event there, ?_⟩
    rintro rfl -
    exact ⟨_, rfl, List.mem_map.mpr ⟨event, (read_events_mem listed).mpr ⟨_, there⟩, rfl⟩⟩
  | @looked id' call' there was filed found =>
    have before := kept was
    refine inserted running (before.goes_on (fun promotes _ => ?_) ?_ ?_)
    · obtain ⟨tier, event, tiered, built, at_key, listed⟩ := before.shared promotes (by rw [filed]; rfl)
      exact ⟨tier, event, tiered, built, at_key, fun firm _ => listed firm (by rw [filed]; nofun)⟩
    · cases there with
      | true => exact fun _ => grows.reviews _ ((recorded_already_ok found).1 rfl)
      | false => nofun
    · cases there <;> nofun
  | @appended id' call' was unrecorded =>
    have before := kept was
    refine inserted running (before.goes_on (fun promotes _ => ?_) (fun _ => ?_) nofun)
    · obtain ⟨tier, event, tiered, built, at_key, listed⟩ := before.shared promotes (by rw [unrecorded]; rfl)
      exact ⟨tier, event, tiered, built, at_key, fun firm _ => listed firm (by rw [unrecorded]; nofun)⟩
    · rw [goes_on_vaults, in_vault_self]
      exact List.mem_append_right _ (List.mem_singleton_self _)
  | @contributed id' call' contribution contributions was recorded accepts built put =>
    have before := kept was
    refine inserted running (before.goes_on (fun promotes _ => ?_) (fun _ => before.recorded (.inl recorded)) ?_)
    · rw [accepts] at promotes
      cases promotes
    · intro _ _
      refine ⟨contribution, built, ?_⟩
      rw [goes_on_vaults, in_vault_self]
      exact (put_contribution_ok put).2
  | released was recorded other =>
    have before := kept was
    refine inserted running (before.goes_on (fun promotes _ => ?_) (fun _ => before.recorded (.inl recorded)) ?_)
    · obtain ⟨tier, event, tiered, built, at_key, listed⟩ := before.shared promotes (by rw [recorded]; rfl)
      exact ⟨tier, event, tiered, built, at_key, fun firm _ => listed firm (by rw [recorded]; nofun)⟩
    · intro _ accepts
      exact absurd accepts other
  | answered was answering found => exact erased running
  | died was => exact erased running
  | dropped_event was at_put built left => exact erased running
  | dropped_contribution was recorded accepts built left => exact erased running

/-- The record of a promotion that is put in the profile. -/
theorem System.CallSound.promoted (sound : s.CallSound call) (promotes : call.args.action = .promote)
    (past : call.phase.past_put = true) (later : call.phase ≠ .published) : s.Promoted call.review := by
  obtain ⟨tier, event, tiered, built, there, listed⟩ := sound.shared promotes past
  obtain ⟨tier', text, tiered', -, -, same, same_text, binds, -⟩ := event_ok built
  rw [tiered] at tiered'
  cases tiered'
  have tier_of : call.review.target_tier = some tier :=
    (congrArg LearningReview.target_tier sound.content).trans tiered
  refine ⟨tier, event, tier_of, ?_, there, by rw [same, same_text], fun firm => listed firm later⟩
  simp only [FirmLearningEvent.binds, Bool.and_eq_true, decide_eq_true_eq] at binds
  rw [binds.1.1.2, same]
  simp only [tier_of, Option.elim]

/-- What an import writes about itself into its proposals. -/
theorem bundle_proposals {request : ImportArgs} {bundle : LearningImportBundle} (built : request.bundle x = .ok bundle)
    {proposal : LearningProposal} (mem : proposal ∈ bundle.proposals) :
    proposal.source_matter_id = request.matter_id ∧ proposal.run_id = request.run_id ∧
      ∃ anchor_id before after, proposal.proposal_id =
        "learning-" ++ x.proposal_digest (request.import_id x) anchor_id before after := by
  rw [ImportArgs.bundle] at built
  split at built
  · cases built
  obtain ⟨proposals, proposed, built⟩ := bind_ok built
  cases built
  rw [ImportArgs.proposals] at proposed
  split at proposed
  · obtain ⟨each, walked, proposed⟩ := bind_ok proposed
    cases proposed
    simp only [List.mem_filterMap, id_eq, exists_eq_right] at mem
    obtain ⟨recovered, -, made⟩ := Walk.mem_of_mapM walked mem
    rw [propose_anchored_learning] at made
    split at made
    · cases made
    dsimp only at made
    iterate 3
      split at made
      · cases made
    cases made
    exact ⟨rfl, rfl, recovered.anchor_id, _, _, rfl⟩
  · cases proposed
    cases mem

theorem Moves.answers_back (moves : Moves s s') {answer : Answer} (mem : answer ∈ s'.answers)
    {view : LearningProposalView} (returned : answer.result = .ok view) :
    answer ∈ s.answers ∨ ∃ id call, s.calls.get? id = some call ∧ call.phase = .answering ∧
      answer.matter_id = call.matter_id ∧ answer.args = call.args := by
  cases moves with
  | refused =>
    rcases List.mem_append.mp mem with old | new
    · exact .inl old
    · rw [List.mem_singleton.mp new] at returned
      cases returned
  | raised running =>
    rcases List.mem_append.mp mem with old | new
    · exact .inl old
    · rw [List.mem_singleton.mp new] at returned
      cases returned
  | answered running answering found =>
    rcases List.mem_append.mp mem with old | new
    · exact .inl old
    · rw [List.mem_singleton.mp new]
      exact .inr ⟨_, _, running, answering, rfl, rfl⟩
  | _ => exact .inl mem

theorem System.Sound.step (sound : s.Sound) (moves : Moves s s') : s'.Sound := by
  have grows := moves.grows
  refine ⟨?_, ?_, ?_, ?_, ?_, fun id call running => sound.calls_step moves running, ?_⟩
  · intro m proposal there
    rcases moves.proposed_back there with old | ⟨request, bundle, rfl, built, mem⟩
    · exact sound.sourced m proposal old
    · exact (bundle_proposals built mem).1
  · intro m review mem
    rcases moves.reviews_back mem with old | ⟨id, call, running, -, rfl, rfl⟩
    · exact sound.reviews m review old
    · have before := sound.calls id call running
      exact ⟨before.valid, congrArg LearningReview.source_matter_id before.content⟩
  · intro m review mem promotes
    rcases moves.reviews_back mem with old | ⟨id, call, running, unrecorded, rfl, rfl⟩
    · exact grows.promoted (sound.promoted m review old promotes)
    · have before := sound.calls id call running
      have promotes' := (congrArg LearningReview.action before.content).symm.trans promotes
      exact grows.promoted (before.promoted promotes' (by rw [unrecorded]; rfl) (by rw [unrecorded]; nofun))
  · intro m file record there
    rcases moves.contributions_back there with old | ⟨id, call, running, recorded, accepts, rfl, built⟩
    · obtain ⟨a, accepted⟩ := sound.contributions m file record old
      exact ⟨a, grows.accepted accepted⟩
    · have before := sound.calls id call running
      exact ⟨call.review, grows.accepted (sound.accepted before (before.recorded (.inl recorded)) accepts built)⟩
  · intro tier file event there
    rcases moves.events_back there with old | ⟨id, call, running, -, built⟩
    · exact grows.reviewed (sound.events tier file event old)
    · exact grows.reviewed ((sound.calls id call running).reviewed built)
  · intro answer mem view returned
    rcases moves.answers_back mem returned with old | ⟨id, call, running, answering, at_matter, with_args⟩
    · obtain ⟨review, force⟩ := sound.answers answer old view returned
      exact ⟨review, grows.in_force force⟩
    · have before := sound.calls id call running
      rw [at_matter, with_args]
      refine ⟨call.review, grows.in_force ⟨before.recorded (.inr answering), before.content, ?_, ?_⟩⟩
      · intro accepts
        obtain ⟨record, built, there⟩ := before.contributed answering accepts
        exact ⟨record, sound.accepted before (before.recorded (.inr answering)) accepts built, there⟩
      · intro promotes
        exact before.promoted promotes (by rw [answering]; rfl) (by rw [answering]; nofun)

theorem System.initial_sound (sources : String → S) : (@System.initial S x sources).Sound where
  sourced := by
    rintro m proposal ⟨file, bundle, there, -⟩
    cases there
  reviews m review mem := absurd mem List.not_mem_nil
  promoted m review mem := absurd mem List.not_mem_nil
  contributions m file record there := by cases there
  events tier file event there := by
    rw [Profile.directory] at there
    split at there <;> cases there
  calls id call running := by cases running
  answers answer mem := absurd mem List.not_mem_nil

theorem Reachable.sound (reachable : Reachable s) : s.Sound := by
  obtain ⟨sources, trace, run⟩ := reachable
  exact run.invariant (fun s act s' sound next => sound.step (.of_step next)) (System.initial_sound sources)

/-! ### A learning that is accepted and promoted -/

namespace Sample

/-- Digests and texts small enough to compute with. -/
def outside : Outside Unit where
  sha256_text _ := "0000000000000000000000000000000000000000000000000000000000000000"
  import_digest matter_id run_id _ := matter_id ++ run_id
  proposal_digest import_id _ _ _ := import_id
  review_digest args := if args.action = .accept then "00000000000000aa" else "00000000000000bb"
  critic_markup _ after := (after, 1)
  sharing_scrub _ text := .ok text
  firm_root := true
  separated _ := .ok ()

def edited : ImportArgs where
  matter_id := "a"
  run_id := "r"
  task := "motion"
  expected := ["x"]
  recovery := ⟨"s", [⟨"x", .exact, "old", "new", []⟩], true, []⟩
  source_name := "e.docx"
  imported_at := "1"
  baseline := ⟨[("x", "old")], by simp⟩

def proposal_id : String := "learning-learning-import-ar"

def accepts : ReviewArgs where
  proposal_id := proposal_id
  action := .accept
  actor := "p"
  channel := .cli
  recorded_at := "2"
  reviewed_text := "say new"

/-- The promotion walls off a matter. -/
def promotes : ReviewArgs where
  proposal_id := proposal_id
  action := .promote
  actor := "p"
  channel := .cli
  recorded_at := "3"
  reviewed_text := "say new"
  target_tier := some .firm
  scrub_diff_sha256 := some "0000000000000000000000000000000000000000000000000000000000000000"
  excluded_matter_ids := ["c"]

def acts : List (Act Unit) :=
  [.import_learning edited .returned, .enter 0 "a" accepts, .acquire 0, .check 0, .look 0, .append 0, .contribute 0,
    .answer 0, .enter 1 "a" promotes, .acquire 1, .check 1, .publish 1, .refresh 1, .look 1, .append 1, .contribute 1,
    .answer 1]

def run (s : System outside) : List (Act Unit) → Option (System outside)
  | [] => some s
  | act :: acts => (step s act).bind fun s' => run s' acts

theorem run_of_run {s s' : System outside} {acts : List (Act Unit)} (runs : run s acts = some s') :
    Transition.Run Step s acts s' := by
  induction acts generalizing s with
  | nil =>
    cases runs
    exact .start
  | cons act acts ih =>
    obtain ⟨next, taken, later⟩ := Option.bind_eq_some_iff.mp runs
    exact (Transition.Run.one taken).trans (ih later)

/-- Both reviews return, and a launch of another matter selects one learning. -/
theorem runs : ((run (System.initial fun _ => ()) acts).map fun s => (s.answers.map (·.result.isOk),
    (s.launch "b" "motion" []).toOption.map (·.1.length))) = some ([true, true], some 1) := by decide +kernel

theorem runs_isSome : (run (System.initial fun _ => ()) acts).isSome = true := by
  rw [← Option.isSome_map, runs]
  rfl

/-- The system after both reviews. -/
def final : System outside := (run (System.initial fun _ => ()) acts).get runs_isSome

theorem reachable : Reachable final := ⟨fun _ => (), acts, run_of_run (Option.some_get runs_isSome).symm⟩

theorem final_answers : final.answers.map (·.result.isOk) = [true, true] ∧
    (final.launch "b" "motion" []).toOption.map (·.1.length) = some 1 := by
  have both := runs
  rw [← Option.some_get runs_isSome, Option.map_some, Option.some_inj, Prod.mk.injEq, ← final] at both
  exact both

theorem told_last : 1 < final.answers.length := by
  rw [← List.length_map (·.result.isOk), final_answers.1]
  exact Nat.one_lt_two

/-- The answer to the promotion. -/
def told : Answer := final.answers.get ⟨1, told_last⟩

theorem told_mem : told ∈ final.answers := List.get_mem final.answers ⟨1, told_last⟩

theorem returned : ∃ view, told.result = .ok view := by
  have all : ∀ b ∈ final.answers.map (·.result.isOk), b = true := by
    rw [final_answers.1]
    simp
  have ok : told.result.isOk = true := all _ (List.mem_map_of_mem told_mem)
  cases result : told.result with
  | ok view => exact ⟨view, rfl⟩
  | error e =>
    rw [result] at ok
    cases ok

end Sample

/-- What a caller was told stays in force: whenever a review returned, its record is in the log of its matter from then
    on, an accepted text is among the contributions of the matter, and a promotion is in the profile, where the firm's
    preferences list it. No step of any other call, and no call that dies, undoes this. -/
theorem answers_in_force (reachable : Reachable s) {answer : Answer} (told : answer ∈ s.answers)
    {view : LearningProposalView} (returned : answer.result = .ok view) :
    ∃ review, s.InForce answer.matter_id answer.args review :=
  reachable.sound.answers answer told view returned

theorem answers_in_force_promoted : ∃ review, Sample.final.InForce Sample.told.matter_id Sample.told.args review := by
  obtain ⟨view, returned⟩ := Sample.returned
  exact answers_in_force Sample.reachable Sample.told_mem returned

end MootLoop.Learnings
