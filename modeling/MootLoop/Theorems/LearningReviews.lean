import MootLoop.Theorems.Learnings

/-! Learnings that reach a launch: in every interleaving a proposal is decided once and promoted at most once to each
    tier, and a launch is given only what a reviewer accepted and confirmed. -/

namespace MootLoop.Learnings

open ContextAssembly

variable {S : Type} {x : Outside S} {s s' : System x} {m : String} {call' : Call}

/-! ### One decision and one promotion to each tier -/

/-- The reviews of a proposal: none, a rejection, or an acceptance and promotions to different tiers. -/
inductive Decided : List LearningReview → Prop
  | undecided : Decided []
  | rejected {review : LearningReview} (rejects : review.action = .reject) : Decided [review]
  | accepted {review : LearningReview} {promotions : List LearningReview} (accepts : review.action = .accept)
      (promotes : ∀ r ∈ promotions, r.action = .promote) (tiers : (promotions.map (·.target_tier)).Nodup) :
      Decided (review :: promotions)

/-- Proposals of different runs have different ids in every vault: no two of the truncated digests that name them have
    collided. -/
def System.Apart (s : System x) : Prop :=
  ∀ m p q, s.Proposed m p → s.Proposed m q → p.proposal_id = q.proposal_id → p.run_id = q.run_id

/-- What the log says of the decision or the promotion a call is about to record. -/
structure CallSettled (reviews : List LearningReview) (call : Call) : Prop where
  promotes : call.phase = .checked ∨ call.phase = .published → call.args.action = .promote
  open_yet : call.phase = .filed ∨ call.phase = .unrecorded → call.args.action ≠ .promote →
    call.review ∈ reviews ∨ ∀ r ∈ reviews, r.proposal_id ≠ call.args.proposal_id
  fresh : call.phase = .unrecorded → ∀ r ∈ reviews, r.proposal_id = call.args.proposal_id →
    r.review_id ≠ call.review.review_id

/-- Elsewhere a call is not about to record anything. -/
theorem CallSettled.elsewhere {reviews : List LearningReview} {call : Call}
    (outside : call.phase ∉ [.checked, .published, .filed, .unrecorded]) : CallSettled reviews call := by
  simp only [List.mem_cons, List.not_mem_nil, or_false, not_or] at outside
  obtain ⟨not_checked, not_published, not_filed, not_unrecorded⟩ := outside
  exact ⟨fun at_put => (at_put.elim not_checked not_published).elim,
    fun at_end => (at_end.elim not_filed not_unrecorded).elim, fun at_end => absurd at_end not_unrecorded⟩

structure System.Settled (s : System x) : Prop where
  decided : ∀ m proposal_id, Decided ((s.vaults m).history proposal_id)
  exclusive : ∀ id id' call call', s.calls.get? id = some call → s.calls.get? id' = some call' →
    call.holds_run = true → call'.holds_run = true → call.matter_id = call'.matter_id →
    call.current.proposal.run_id = call'.current.proposal.run_id → id = id'
  calls : ∀ id call, s.calls.get? id = some call → CallSettled (s.vaults call.matter_id).reviews call

theorem Decided.nil_of_open {history : List LearningReview} (decided : Decided history) {start : LearningProposalView}
    (still : (history.foldl .fold start).status = .needs_review) : history = [] := by
  have stays : ∀ (events : List LearningReview) (view : LearningProposalView), view.status ≠ .needs_review →
      (events.foldl .fold view).status ≠ .needs_review := by
    intro events
    induction events with
    | nil => exact fun view closed => closed
    | cons event events ih =>
      intro view closed
      refine ih _ ?_
      rw [LearningProposalView.fold]
      repeat' split
      all_goals first
        | exact closed
        | intro reviewed; cases reviewed
  cases decided with
  | undecided => rfl
  | rejected rejects =>
    rw [List.foldl_cons, LearningProposalView.fold, rejects] at still
    cases still
  | accepted accepts promotes tiers =>
    rw [List.foldl_cons] at still
    refine absurd still (stays _ _ ?_)
    rw [LearningProposalView.fold, accepts]
    intro reviewed
    cases reviewed

theorem Decided.of_accept {history : List LearningReview} (decided : Decided history) {a : LearningReview}
    (mem : a ∈ history) (accepts : a.action = .accept) :
    ∃ promotions, history = a :: promotions ∧ (∀ r ∈ promotions, r.action = .promote) ∧
      (promotions.map (·.target_tier)).Nodup := by
  cases decided with
  | undecided => cases mem
  | rejected rejects =>
    cases List.mem_singleton.mp mem
    rw [rejects] at accepts
    cases accepts
  | accepted accepts' promotes tiers =>
    rcases List.mem_cons.mp mem with rfl | later
    · exact ⟨_, rfl, promotes, tiers⟩
    · rw [promotes a later] at accepts
      cases accepts

theorem Moves.reviews_or (moves : Moves s s') : (∀ m, (s'.vaults m).reviews = (s.vaults m).reviews) ∨
    ∃ id call, s.calls.get? id = some call ∧ call.phase = .unrecorded ∧
      (s'.vaults call.matter_id).reviews = (s.vaults call.matter_id).reviews ++ [call.review] ∧
      (∀ m, m ≠ call.matter_id → (s'.vaults m).reviews = (s.vaults m).reviews) ∧
      s'.calls = s.calls.insert id { call with phase := .recorded } := by
  cases moves with
  | supplied reviews contributions kept added => exact .inl fun m => in_vault_keeps (·.reviews) reviews m
  | @appended id call running unrecorded =>
    refine .inr ⟨id, call, running, unrecorded, ?_, fun m other => ?_, rfl⟩
    · rw [goes_on_vaults, in_vault_self]
    · rw [goes_on_vaults, in_vault_ne other]
  | contributed running recorded accepts built put =>
    refine .inl fun m => ?_
    rw [goes_on_vaults, in_vault_keeps (·.reviews) rfl]
  | dropped_contribution running recorded accepts built left => exact .inl fun m => in_vault_keeps (·.reviews) rfl m
  | _ => exact .inl fun m => rfl

/-- How a call goes on. -/
inductive CallTurn (s : System x) (call : Call) : Call → Prop
  | acquired (waiting : call.phase = .waiting)
      (free : s.run_held call.matter_id call.current.proposal.run_id = false) :
      CallTurn s call { call with phase := .locked }
  | checked {call' : Call} (locked : call.phase = .locked)
      (passes : locked_check x (s.vaults call.matter_id) call = .ok call') : CallTurn s call call'
  | put {phase : Phase} (at_put : call.phase = .checked ∨ call.phase = .published)
      (later : phase = .published ∨ phase = .filed) : CallTurn s call { call with phase }
  | looked {there : Bool} (filed : call.phase = .filed)
      (found : recorded_already (s.vaults call.matter_id).reviews call.review = .ok there) :
      CallTurn s call { call with phase := if there then .recorded else .unrecorded }
  | appended (unrecorded : call.phase = .unrecorded) : CallTurn s call { call with phase := .recorded }
  | finished : CallTurn s call { call with phase := .answering }

theorem Moves.calls_back (moves : Moves s s') {id : Nat} (running : s'.calls.get? id = some call') :
    s.calls.get? id = some call' ∨ call'.phase = .waiting ∨
      ∃ call, s.calls.get? id = some call ∧ CallTurn s call call' := by
  have erased : ∀ {id' : Nat}, (s.calls.erase id').get? id = some call' → s.calls.get? id = some call' := fun was => by
    rw [Dict.get?_erase] at was
    split at was
    · cases was
    · exact was
  have inserted : ∀ {id' : Nat} {call call'' : Call}, (s.calls.insert id' call'').get? id = some call' →
      s.calls.get? id' = some call → CallTurn s call call'' → s.calls.get? id = some call' ∨ call'.phase = .waiting ∨
        ∃ call, s.calls.get? id = some call ∧ CallTurn s call call' := fun was before turn => by
    rw [Dict.get?_insert] at was
    split at was
    · next same =>
      cases was
      subst same
      exact .inr (.inr ⟨_, before, turn⟩)
    · exact .inl was
  cases moves with
  | supplied _ _ _ _ => exact .inl running
  | idle => exact .inl running
  | entered free passes =>
    obtain ⟨current, text, -, rfl, -⟩ := preflight_ok passes
    change (s.calls.insert _ _).get? id = some call' at running
    rw [Dict.get?_insert] at running
    split at running
    · cases running
      exact .inr (.inl rfl)
    · exact .inl running
  | refused => exact .inl running
  | raised _ => exact .inl (erased running)
  | acquired was waiting free => exact inserted running was (.acquired waiting free)
  | checked was locked passes => exact inserted running was (.checked locked passes)
  | published was checked built put =>
    refine inserted running was (.put (.inl checked) ?_)
    split
    · exact .inr rfl
    · exact .inl rfl
  | refreshed was published listed => exact inserted running was (.put (.inr published) (.inr rfl))
  | looked was filed found => exact inserted running was (.looked filed found)
  | appended was unrecorded => exact inserted running was (.appended unrecorded)
  | contributed was recorded accepts built put => exact inserted running was .finished
  | released was recorded other => exact inserted running was .finished
  | answered _ _ _ => exact .inl (erased running)
  | died _ => exact .inl (erased running)
  | dropped_event _ _ _ _ => exact .inl (erased running)
  | dropped_contribution _ _ _ _ _ => exact .inl (erased running)

theorem CallTurn.same {call : Call} (turn : CallTurn s call call') :
    call'.matter_id = call.matter_id ∧ call'.current = call.current ∧ call'.args = call.args := by
  cases turn with
  | checked locked passes =>
    obtain ⟨locked_current, review, -, -, rfl⟩ := locked_check_ok passes
    exact ⟨rfl, rfl, rfl⟩
  | _ => exact ⟨rfl, rfl, rfl⟩

/-- A call holds its run's lock only where it held it before or found it free. -/
theorem CallTurn.holds {call : Call} (turn : CallTurn s call call') (holds : call'.holds_run = true) :
    call.holds_run = true ∨ s.run_held call.matter_id call.current.proposal.run_id = false := by
  have of_phase : call.phase ≠ .waiting → call.phase ≠ .answering → call.holds_run = true := fun early late => by
    simp [Call.holds_run, early, late]
  cases turn with
  | acquired waiting free => exact .inr free
  | checked locked passes => exact .inl (of_phase (by rw [locked]; nofun) (by rw [locked]; nofun))
  | put at_put later =>
    rcases at_put with at_put | at_put
    · exact .inl (of_phase (by rw [at_put]; nofun) (by rw [at_put]; nofun))
    · exact .inl (of_phase (by rw [at_put]; nofun) (by rw [at_put]; nofun))
  | looked filed found => exact .inl (of_phase (by rw [filed]; nofun) (by rw [filed]; nofun))
  | appended unrecorded => exact .inl (of_phase (by rw [unrecorded]; nofun) (by rw [unrecorded]; nofun))
  | finished => cases holds

theorem run_held_of {id : Nat} {call : Call} (running : s.calls.get? id = some call) (holds : call.holds_run = true) :
    s.run_held call.matter_id call.current.proposal.run_id = true := by
  have mem : call ∈ s.calls.values := Dict.mem_values.mpr ⟨id, running⟩
  exact List.any_eq_true.mpr ⟨call, mem, by simp [holds]⟩

/-- A step changes one call. -/
theorem Moves.one_turns (moves : Moves s s') :
    ∃ actor, ∀ id, id ≠ actor → ∀ call, s'.calls.get? id = some call → s.calls.get? id = some call := by
  have inserted : ∀ (actor : Nat) (call' : Call), ∀ id, id ≠ actor → ∀ call,
      (s.calls.insert actor call').get? id = some call → s.calls.get? id = some call := by
    intro actor call' id other call was
    rwa [Dict.get?_insert_ne _ other] at was
  have erased : ∀ actor : Nat, ∀ id, id ≠ actor → ∀ call,
      (s.calls.erase actor).get? id = some call → s.calls.get? id = some call := fun actor id other call was => by
    rwa [Dict.get?_erase, if_neg other] at was
  cases moves with
  | supplied _ _ _ _ => exact ⟨0, fun _ _ _ h => h⟩
  | idle => exact ⟨0, fun _ _ _ h => h⟩
  | refused => exact ⟨0, fun _ _ _ h => h⟩
  | entered _ _ => exact ⟨_, inserted _ _⟩
  | raised _ => exact ⟨_, erased _⟩
  | acquired _ _ _ => exact ⟨_, inserted _ _⟩
  | checked _ _ _ => exact ⟨_, inserted _ _⟩
  | published _ _ _ _ => exact ⟨_, inserted _ _⟩
  | refreshed _ _ _ => exact ⟨_, inserted _ _⟩
  | looked _ _ _ => exact ⟨_, inserted _ _⟩
  | appended _ _ => exact ⟨_, inserted _ _⟩
  | contributed _ _ _ _ _ => exact ⟨_, inserted _ _⟩
  | released _ _ _ => exact ⟨_, inserted _ _⟩
  | answered _ _ _ => exact ⟨_, erased _⟩
  | died _ => exact ⟨_, erased _⟩
  | dropped_event _ _ _ _ => exact ⟨_, erased _⟩
  | dropped_contribution _ _ _ _ _ => exact ⟨_, erased _⟩

/-- Two calls never hold the lock of one run. -/
theorem System.Settled.exclusive_step (settled : s.Settled) (moves : Moves s s') :
    ∀ id id' call call', s'.calls.get? id = some call → s'.calls.get? id' = some call' →
      call.holds_run = true → call'.holds_run = true → call.matter_id = call'.matter_id →
      call.current.proposal.run_id = call'.current.proposal.run_id → id = id' := by
  obtain ⟨actor, others⟩ := moves.one_turns
  -- the call that moves against one that does not
  have apart : ∀ id' call call', id' ≠ actor → s'.calls.get? actor = some call → s'.calls.get? id' = some call' →
      call.holds_run = true → call'.holds_run = true → call.matter_id = call'.matter_id →
      call.current.proposal.run_id = call'.current.proposal.run_id → actor = id' := by
    intro id' call call' other running running' holds holds' matter run
    have old' := others id' other call' running'
    rcases moves.calls_back running with old | waiting | ⟨before, was, turn⟩
    · exact settled.exclusive _ _ _ _ old old' holds holds' matter run
    · simp [Call.holds_run, waiting] at holds
    · obtain ⟨same_matter, current, -⟩ := turn.same
      rw [same_matter] at matter
      rw [current] at run
      rcases turn.holds holds with held | free
      · exact settled.exclusive _ _ _ _ was old' held holds' matter run
      · rw [matter, run, run_held_of old' holds'] at free
        cases free
  intro id id' call call' running running' holds holds' matter run
  by_cases here : id = actor
  · by_cases here' : id' = actor
    · rw [here, here']
    · subst here
      exact apart id' call call' here' running running' holds holds' matter run
  · by_cases here' : id' = actor
    · subst here'
      exact (apart id call' call here running' running holds' holds matter.symm run.symm).symm
    · exact settled.exclusive _ _ _ _ (others id here call running) (others id' here' call' running') holds holds'
        matter run

/-- The checks under the lock leave a call with nothing decided, or with the decision that is on record. -/
theorem checked_settled {call : Call} (decided : Decided ((s.vaults call.matter_id).history call.args.proposal_id))
    (passes : locked_check x (s.vaults call.matter_id) call = .ok call') :
    CallSettled (s.vaults call'.matter_id).reviews call' := by
  obtain ⟨locked_current, review, got, settled, rfl⟩ := locked_check_ok passes
  obtain ⟨file, bundle, proposal, at_file, mem, named, rfl⟩ := get_some got
  refine ⟨fun at_put => ?_, fun filed decides => ?_, fun unrecorded => ?_⟩
  · by_contra decides
    rw [if_neg decides] at at_put
    rcases at_put with h | h <;> cases h
  · rcases settled_review_ok settled with ⟨-, -, still⟩ | ⟨-, mem, -⟩
    · refine .inr fun r mem same => ?_
      have status := still decides
      rw [Vault.view, named] at status
      have none_yet := decided.nil_of_open status
      have listed : r ∈ (s.vaults call.matter_id).history call.args.proposal_id := mem_history.mpr ⟨mem, same⟩
      rw [none_yet] at listed
      cases listed
    · rw [(view_history _ _).2] at mem
      exact .inl (mem_history.mp mem).1
  · split at unrecorded <;> cases unrecorded

theorem CallTurn.settled {call : Call} (turn : CallTurn s call call')
    (settled : CallSettled (s.vaults call.matter_id).reviews call)
    (decided : Decided ((s.vaults call.matter_id).history call.args.proposal_id)) :
    CallSettled (s.vaults call'.matter_id).reviews call' := by
  cases turn with
  | acquired waiting free => exact .elsewhere (by simp)
  | checked locked passes => exact checked_settled decided passes
  | put at_put later =>
    have promotes := settled.promotes at_put
    exact ⟨fun _ => promotes, fun _ decides => absurd promotes decides, fun unrecorded => by
      rcases later with rfl | rfl <;> cases unrecorded⟩
  | @looked there filed found =>
    refine ⟨fun at_put => ?_, fun _ decides => settled.open_yet (.inl filed) decides, fun unrecorded r mem _ => ?_⟩
    · cases there <;> rcases at_put with h | h <;> cases h
    · cases there with
      | true => cases unrecorded
      | false => exact (recorded_already_ok found).2 rfl r mem
  | appended unrecorded => exact .elsewhere (by simp)
  | finished => exact .elsewhere (by simp)

/-- The history of a proposal with the record of a call that is about to append it. -/
theorem System.Settled.appended (sound : s.Sound) (settled : s.Settled) {id : Nat} {call : Call}
    (running : s.calls.get? id = some call) (unrecorded : call.phase = .unrecorded) :
    Decided ((s.vaults call.matter_id).history call.args.proposal_id ++ [call.review]) := by
  have before := sound.calls id call running
  have fresh := (settled.calls id call running).fresh unrecorded
  have action : call.review.action = call.args.action := congrArg LearningReview.action before.content
  have named : call.review.proposal_id = call.args.proposal_id := congrArg LearningReview.proposal_id before.content
  have decided := settled.decided call.matter_id call.args.proposal_id
  by_cases promotes : call.args.action = .promote
  · obtain ⟨text, -, -, a, mem, accepts, of_proposal, -⟩ := before.promotion promotes
    obtain ⟨promotions, shape, all, tiers⟩ := decided.of_accept (mem_history.mpr ⟨mem, of_proposal⟩) accepts
    rw [shape, List.cons_append]
    refine .accepted accepts ?_ ?_
    · intro r mem
      rcases List.mem_append.mp mem with old | new
      · exact all r old
      · rw [List.mem_singleton.mp new, action, promotes]
    · rw [List.map_append, List.map_singleton, List.nodup_append]
      refine ⟨tiers, List.nodup_singleton _, ?_⟩
      rintro tier in_tiers _ new same
      obtain ⟨prior, mem, rfl⟩ := List.mem_map.mp in_tiers
      cases List.mem_singleton.mp new
      -- an event of this tier is there for the prior promotion, and the call's own is in its place
      have in_history : prior ∈ (s.vaults call.matter_id).history call.args.proposal_id := by
        rw [shape]
        exact List.mem_cons_of_mem _ mem
      obtain ⟨recorded, of_proposal⟩ := mem_history.mp in_history
      obtain ⟨tier, event, tiered, id, there, prior_review, -⟩ := sound.promoted _ prior recorded (all prior mem)
      obtain ⟨tier', event', tiered', id', there', own_review, -⟩ :=
        before.promoted promotes (by rw [unrecorded]; rfl) (by rw [unrecorded]; nofun)
      rw [← same, tiered] at tiered'
      cases tiered'
      rw [id, of_proposal] at there
      rw [id', named, there] at there'
      cases there'
      have ids : prior.review_id = call.review.review_id := by
        have both := congrArg LearningReview.review_id (prior_review.symm.trans own_review)
        exact both
      exact fresh prior recorded of_proposal ids
  · rcases (settled.calls id call running).open_yet (.inr unrecorded) promotes with recorded | none_yet
    · exact absurd rfl (fresh call.review recorded named)
    · have empty : (s.vaults call.matter_id).history call.args.proposal_id = [] := by
        rw [Vault.history, List.filter_eq_nil_iff]
        intro r mem of_proposal
        exact none_yet r mem (of_decide_eq_true of_proposal)
      rw [empty, List.nil_append]
      rw [← action] at promotes
      cases kind : call.review.action with
      | accept => exact .accepted kind (fun _ h => absurd h List.not_mem_nil) List.nodup_nil
      | reject => exact .rejected kind
      | promote => exact absurd kind promotes

theorem Grows.apart (grows : Grows s s') (apart : s'.Apart) : s.Apart := fun m p q in_p in_q same =>
  apart m p q (grows.proposed m p in_p) (grows.proposed m q in_q) same

/-- Two calls on one proposal do not both hold the lock of its run. -/
theorem System.Settled.one_holder (sound : s.Sound) (settled : s.Settled) (apart : s.Apart) {id id' : Nat}
    {call call' : Call} (running : s.calls.get? id = some call) (running' : s.calls.get? id' = some call')
    (holds : call.holds_run = true) (holds' : call'.holds_run = true) (matter : call.matter_id = call'.matter_id)
    (same : call.args.proposal_id = call'.args.proposal_id) : id = id' := by
  have before := sound.calls id call running
  have before' := sound.calls id' call' running'
  refine settled.exclusive id id' call call' running running' holds holds' matter ?_
  refine apart _ _ _ before.proposed ?_ (by rw [before.named, before'.named, same])
  rw [matter]
  exact before'.proposed

theorem Call.holds_at_end {call : Call} (at_end : call.phase = .filed ∨ call.phase = .unrecorded) :
    call.holds_run = true := by
  rcases at_end with h | h <;> simp [Call.holds_run, h]

theorem System.Settled.step (sound : s.Sound) (settled : s.Settled) (apart : s.Apart) (moves : Moves s s') :
    s'.Settled := by
  refine ⟨?_, settled.exclusive_step moves, ?_⟩
  · intro m proposal_id
    rcases moves.reviews_or with same | ⟨id, call, running, unrecorded, grown, others, -⟩
    · rw [Vault.history, same]
      exact settled.decided m proposal_id
    · by_cases here : m = call.matter_id
      · have named : call.review.proposal_id = call.args.proposal_id :=
          congrArg LearningReview.proposal_id (sound.calls id call running).content
        rw [here, Vault.history, grown, List.filter_append]
        by_cases of_proposal : call.args.proposal_id = proposal_id
        · subst of_proposal
          rw [List.filter_singleton, named, decide_eq_true rfl]
          exact settled.appended sound running unrecorded
        · rw [List.filter_singleton, named, decide_eq_false of_proposal]
          rw [cond_false, List.append_nil]
          exact settled.decided call.matter_id proposal_id
      · rw [Vault.history, others m here]
        exact settled.decided m proposal_id
  · intro id call running
    rcases moves.reviews_or with same | ⟨actor, call', running', unrecorded, grown, others, calls⟩
    · rw [same]
      rcases moves.calls_back running with old | waiting | ⟨before, was, turn⟩
      · exact settled.calls id call old
      · exact .elsewhere (by rw [waiting]; simp)
      · exact turn.settled (settled.calls id before was) (settled.decided _ _)
    · rw [calls, Dict.get?_insert] at running
      split at running
      · cases running
        exact .elsewhere (by simp)
      · next other =>
        have old := settled.calls id call running
        by_cases here : call.matter_id = call'.matter_id
        · have named : call'.review.proposal_id = call'.args.proposal_id :=
            congrArg LearningReview.proposal_id (sound.calls actor call' running').content
          have distinct : call.phase = .filed ∨ call.phase = .unrecorded →
              call'.review.proposal_id ≠ call.args.proposal_id := by
            intro at_end same
            exact other (settled.one_holder sound apart running running' (Call.holds_at_end at_end)
              (Call.holds_at_end (.inr unrecorded)) here (same.symm.trans named))
          rw [here, grown]
          rw [here] at old
          refine ⟨old.promotes, fun at_end decides => ?_, fun at_end r mem of_proposal => ?_⟩
          · rcases old.open_yet at_end decides with recorded | none_yet
            · exact .inl (List.mem_append_left _ recorded)
            · refine .inr fun r mem => ?_
              rcases List.mem_append.mp mem with before | new
              · exact none_yet r before
              · rw [List.mem_singleton.mp new]
                exact distinct at_end
          · rcases List.mem_append.mp mem with before | new
            · exact old.fresh at_end r before of_proposal
            · rw [List.mem_singleton.mp new] at of_proposal
              exact absurd of_proposal (distinct (.inr at_end))
        · rw [others _ here]
          exact old

theorem System.initial_settled (sources : String → S) : (@System.initial S x sources).Settled where
  decided m proposal_id := .undecided
  exclusive id id' call call' running := by cases running
  calls id call running := by cases running

theorem Reachable.settled (reachable : Reachable s) (apart : s.Apart) : s.Settled := by
  obtain ⟨sources, trace, run⟩ := reachable
  have both : s.Sound ∧ (s.Apart → s.Settled) :=
    run.invariant (I := fun s => s.Sound ∧ (s.Apart → s.Settled))
      (fun s act s' inv next =>
        have moves := Moves.of_step next
        ⟨inv.1.step moves, fun apart =>
          (inv.2 (moves.grows.apart apart)).step inv.1 (moves.grows.apart apart) moves⟩)
      ⟨System.initial_sound sources, fun _ => System.initial_settled sources⟩
  exact both.2 apart

/-- The proposal is named after its import, and that after its run. -/
def Named (x : Outside S) (m : String) (proposal : LearningProposal) : Prop :=
  ∃ source anchor before after, proposal.proposal_id = "learning-" ++
    x.proposal_digest ("learning-import-" ++ x.import_digest m proposal.run_id source) anchor before after

/-- Where the digests that name imports and proposals do not collide, proposals of different runs have different ids. -/
theorem Reachable.apart (reachable : Reachable s)
    (imports : ∀ m run run' source source', x.import_digest m run source = x.import_digest m run' source' → run = run')
    (proposals : ∀ id id' anchor anchor' before before' after after',
      x.proposal_digest id anchor before after = x.proposal_digest id' anchor' before' after' → id = id') :
    s.Apart := by
  have named : ∀ m proposal, s.Proposed m proposal → Named x m proposal := by
    obtain ⟨sources, trace, run⟩ := reachable
    refine run.invariant (I := fun s => ∀ m proposal, s.Proposed m proposal → Named x m proposal)
      (fun s act s' inv next m proposal there => ?_) ?_
    · rcases (Moves.of_step next).proposed_back there with old | ⟨request, bundle, rfl, built, mem⟩
      · exact inv m proposal old
      · obtain ⟨-, of_run, anchor, before, after, id⟩ := bundle_proposals built mem
        rw [Named, of_run]
        exact ⟨request.recovery.source_sha256, anchor, before, after, id⟩
    · rintro m proposal ⟨file, bundle, there, -⟩
      cases there
  intro m p q in_p in_q same
  obtain ⟨source, anchor, before, after, id⟩ := named m p in_p
  obtain ⟨source', anchor', before', after', id'⟩ := named m q in_q
  rw [id, id', String.append_right_inj] at same
  have ids := proposals _ _ _ _ _ _ _ _ same
  rw [String.append_right_inj] at ids
  exact imports m _ _ _ _ ids

theorem Sample.apart : Sample.final.Apart :=
  Sample.reachable.apart (fun m run run' _ _ same => (String.append_right_inj m).mp same)
    fun _ _ _ _ _ _ _ _ same => same

/-- Whatever calls interleave and wherever they die, a proposal is decided at most once, it is promoted only after it
    was accepted, and at most once to each tier. -/
theorem decided_once (reachable : Reachable s) (apart : s.Apart) (m proposal_id : String) :
    Decided ((s.vaults m).history proposal_id) := (reachable.settled apart).decided m proposal_id

theorem decided_once_promoted : Decided ((Sample.final.vaults "a").history Sample.proposal_id) :=
  decided_once Sample.reachable Sample.apart "a" Sample.proposal_id

theorem list_contributions_mem {hash : String → Digest} {files : Directory (ContextContribution hash)}
    {records : List (ContextContribution hash)} (read : list_contributions files = .ok records)
    {record : ContextContribution hash} (mem : record ∈ records) : ∃ file, files.get? file = some (some record) := by
  obtain ⟨⟨file, body⟩, listed, parsed⟩ := Walk.mem_of_mapM read mem
  refine ⟨file, Dict.get?_eq_some.mpr ?_⟩
  rw [List.mem_sortBy] at listed
  cases body with
  | none => cases parsed
  | some found =>
    dsimp only at parsed
    split at parsed
    · cases parsed
      exact listed
    · cases parsed

/-- The learnings a launch is offered come from the files of the matter and from those of the firm. -/
theorem learnings_back {learnings : List (ContextContribution x.sha256_text)} (read : s.learnings m = .ok learnings)
    {c : ContextContribution x.sha256_text} (mem : c ∈ learnings) :
    (∃ file, (s.vaults m).contributions.get? file = some (some c)) ∨
      ∃ file event, s.profile.learnings.get? file = some (some event) ∧ event.contribution = c := by
  obtain ⟨own, listed, read⟩ := bind_ok read
  have of_own : c ∈ own → ∃ file, (s.vaults m).contributions.get? file = some (some c) := fun mem =>
    list_contributions_mem (mapError_ok listed) mem
  split at read
  · obtain ⟨events, shared, read⟩ := bind_ok read
    cases read
    rcases List.mem_append.mp mem with in_own | in_firm
    · exact .inl (of_own in_own)
    · obtain ⟨event, in_events, rfl⟩ := List.mem_map.mp in_firm
      obtain ⟨file, there⟩ := (read_events_mem shared).mp in_events
      exact .inr ⟨file, event, there, rfl⟩
  · cases read
    exact .inl (of_own mem)

theorem eligible_learning {hash : String → Digest} {c : ContextContribution hash} {task : String}
    (selected : eligible m task c = true) (kind : c.kind = .learning) :
    (c.sharing_scope = .matter → c.source_matter_id = m) ∧ m ∉ c.excluded_matter_ids ∧
      (∀ only, c.task_scope = [only] → only = task) ∧ c.approval_state = .accepted := by
  rw [eligible, Option.isNone_iff_eq_none, exclusion_reason] at selected
  split at selected
  · cases selected
  next local_only =>
  split at selected
  · cases selected
  next unwalled =>
  split at selected
  · cases selected
  next in_scope =>
  split at selected
  · cases selected
  next approved =>
  refine ⟨fun scope => ?_, unwalled, fun only is_only => ?_, ?_⟩
  · by_contra other
    exact local_only ⟨scope, other⟩
  · by_contra other
    refine in_scope ⟨by rw [is_only]; exact List.cons_ne_nil _ _, ?_⟩
    rw [is_only, List.mem_singleton]
    exact fun same => other same.symm
  · rw [is_approved, if_pos kind] at approved
    simpa using approved

/-- A learning a launch of the matter may be given. It was accepted by a reviewer and rejected by none, and is for the
    task of the launch. It is the accepted text itself, in its own matter; or a promotion to the firm shares it, which
    does not wall off the matter, and whose reviewer confirmed the diff that turns the accepted text into just this
    one. -/
def System.Vetted (s : System x) (m task : String) (c : ContextContribution x.sha256_text) : Prop :=
  ∃ a ∈ (s.vaults c.source_matter_id).reviews, a.action = .accept ∧
    (∀ r ∈ (s.vaults c.source_matter_id).reviews, r.proposal_id = a.proposal_id → r.action ≠ .reject) ∧
    (∃ proposal, s.Proposed c.source_matter_id proposal ∧ proposal.proposal_id = a.proposal_id ∧
      proposal.task = task) ∧
    ((c.source_matter_id = m ∧ c.text = a.reviewed_text) ∨
      ∃ promotion : LearningReview, promotion.action = .promote ∧ promotion.target_tier = some .firm ∧
        promotion.proposal_id = a.proposal_id ∧ m ∉ promotion.excluded_matter_ids ∧
        promotion.scrub_diff_sha256 = some (x.sha256_text (x.critic_markup a.reviewed_text c.text).1) ∧
        Scrubbed x c.text)

end MootLoop.Learnings
