import MootLoop.Theorems.Runs

/-! Spend on the journal. A completed turn and an accepted turn book a call unless the turn has it
    already, a discarded turn books it always, and a turn that cannot be recorded books nothing. -/

namespace MootLoop
open Durable Transition

variable {x : Externals} {t : Publishing} {max_attempts : Nat} {s s' : System} {label : Label} {v v' : Vault}

/-! ### Calls on the journal -/

def spends_of (events : List JournalEvent) : List SpendRecorded :=
  events.filterMap fun
    | .spend_recorded e => some e
    | _ => none

def Vault.spends (v : Vault) : List SpendRecorded := spends_of v.journal

/-- How often a provider call is on the journal. -/
def Vault.charged (v : Vault) (id : String) : Nat := v.spends.countP (·.provider_call_id = some id)

def Write.Unspent (w : Write) : Prop := ∀ e, w ≠ .journal (.spend_recorded e)

theorem spends_commit_other (v : Vault) {w : Write} (other : w.Unspent) : (v.commit w).spends = v.spends := by
  cases w with
  | journal event =>
    simp only [Vault.spends, spends_of, Vault.commit, List.filterMap_append]
    cases event with
    | spend_recorded e => exact absurd rfl (other e)
    | _ => simp
  | _ => rfl

theorem spends_commit_spend (v : Vault) (e : SpendRecorded) :
    (v.commit (.journal (.spend_recorded e))).spends = v.spends ++ [e] := by
  simp [Vault.spends, spends_of, Vault.commit]

theorem charged_le_commit (v : Vault) (w : Write) (id : String) : v.charged id ≤ (v.commit w).charged id := by
  by_cases spend : ∃ e, w = .journal (.spend_recorded e)
  · obtain ⟨e, rfl⟩ := spend
    simp [Vault.charged, spends_commit_spend]
  · rw [Vault.charged, Vault.charged, spends_commit_other v fun e h => spend ⟨e, h⟩]

theorem charged_le_commits (v : Vault) (ws : List Write) (id : String) : v.charged id ≤ (commits v ws).charged id := by
  have path : Path (fun _ _ => True) v ws := path_of_only (C := fun _ => True) fun _ _ => trivial
  exact path.keeps (I := fun v' => v.charged id ≤ v'.charged id)
    (fun s w le _ => le.trans (charged_le_commit s w id)) le_rfl

/-- The write books no call that is on the journal. -/
def FirstCharge (v : Vault) (w : Write) : Prop :=
  ∀ e, w = .journal (.spend_recorded e) → ∀ id, e.provider_call_id = some id → v.charged id = 0

theorem FirstCharge.keeps {w : Write} (h : FirstCharge v w) (once : ∀ id, v.charged id ≤ 1) (id : String) :
    (v.commit w).charged id ≤ 1 := by
  by_cases spend : ∃ e, w = .journal (.spend_recorded e)
  · obtain ⟨e, rfl⟩ := spend
    rw [Vault.charged, spends_commit_spend, List.countP_append]
    by_cases this : e.provider_call_id = some id
    · have fresh := h e rfl id this
      rw [Vault.charged] at fresh
      simp [fresh, this]
    · simpa [this, Vault.charged] using once id
  · rw [Vault.charged, spends_commit_other v fun e h => spend ⟨e, h⟩]
    exact once id

/-- A program that books nothing. -/
theorem wp_unspent {α : Type} {p : VaultM α} {Q : Except Error α → Vault → Prop}
    (h : wp (fun _ w => w.Unspent) p (fun _ _ => True) v) (post : ∀ r v', v'.spends = v.spends → Q r v') :
    wp FirstCharge p Q v := by
  have kept := h.keeps (I := fun v' => v'.spends = v.spends)
    (fun s _ same unspent => (spends_commit_other s unspent).trans same) rfl
  refine kept.mono (fun s w unspent e booked => absurd booked (unspent e)) ?_
  rintro r v' ⟨-, same⟩
  exact post r v' same

theorem Guarded.unspent {verbs : Verb → Prop} (unbooked : ¬verbs .book) {w : Write} (h : Guarded verbs v w) :
    w.Unspent := by
  rintro e rfl
  exact unbooked h

theorem unspent_of_guarded {α : Type} {p : VaultM α} {Q : Except Error α → Vault → Prop}
    (h : wp (Guarded fun _ => False) p Q v) : wp (fun _ w => w.Unspent) p (fun _ _ => True) v :=
  h.mono (fun _ _ guarded => guarded.unspent id) fun _ _ _ => trivial

theorem unspent_of_only {α : Type} {p : VaultM α} (h : Only Write.Unspent p) :
    wp (fun _ w => w.Unspent) p (fun _ _ => True) v := (h.wp fun _ _ unspent => unspent).post fun _ _ _ => trivial

theorem unspent_of_calm {α : Type} {p : VaultM α} (h : Only Write.Calm p) :
    wp (fun _ w => w.Unspent) p (fun _ _ => True) v := unspent_of_guarded (calm_guarded h)

/-! ### Booking -/

/-- Every booking of the call is of this turn. -/
def Vault.owns (v : Vault) (turn_id : TurnId) (provider_call_id : Option String) : Prop :=
  ∀ id, provider_call_id = some id → ∀ e ∈ v.spends, e.provider_call_id = some id → e.turn_id = turn_id

theorem prior_spend_some (events : List JournalEvent) (turn_id : TurnId) (id : String) :
    prior_spend events turn_id (some id) = (spends_of events).filter (·.turn_id = turn_id) := by
  induction events using List.reverseRecOn with
  | nil => rfl
  | append_singleton events event ih =>
    simp only [prior_spend, List.foldl_append, List.foldl_cons, List.foldl_nil] at ih ⊢
    rw [ih]
    cases event with
    | spend_recorded e => by_cases this : e.turn_id = turn_id <;> simp [spends_of, this]
    | _ => simp [spends_of]

/-- The journal has the call, if the turn has it or could have it only there. -/
theorem already_booked_iff {turn_id : TurnId} {usage : TokenUsage} {id : String} (owns : v.owns turn_id (some id)) :
    already_booked v.journal turn_id usage (some id) = true ↔ 0 < v.charged id := by
  rw [already_booked, prior_spend_some, Vault.charged, List.countP_pos_iff]
  simp only [List.any_filter, List.any_eq_true, Bool.and_eq_true, decide_eq_true_eq]
  exact ⟨fun ⟨e, mem, _, same⟩ => ⟨e, mem, same⟩, fun ⟨e, mem, same⟩ => ⟨e, mem, owns id rfl e mem same, same⟩⟩

/-- What a booking of a metered call appends: nothing when it is found, or its event. -/
theorem booking_cases {turn_id : TurnId} {usage : TokenUsage} {model : Option String} {now : String} {dedupe : Bool}
    {provider_call_id : Option String} {spend : Option SpendRecorded}
    (h : booking x v turn_id (some usage) model now dedupe provider_call_id = .ok spend) :
    spend = none ∧ already_booked v.journal turn_id usage provider_call_id = true ∨
      (∃ e, spend = some e ∧ e.provider_call_id = provider_call_id) ∧
        (dedupe = true → already_booked v.journal turn_id usage provider_call_id = false) := by
  simp only [booking] at h
  split at h
  · next found =>
    cases h
    exact .inl ⟨rfl, (Bool.and_eq_true _ _ ▸ found).2⟩
  · next fresh =>
    cases on : date_of x now with
    | error e => rw [on] at h; cases h
    | ok on' =>
      rw [on] at h
      cases h
      exact .inr ⟨⟨_, rfl, rfl⟩, fun dedupe => by simpa [dedupe] using fresh⟩

/-- A booking is the first of its call, and puts the call on the journal unless the date is unreadable. -/
theorem book_spend_first {turn_id : TurnId} {usage : Option TokenUsage} {model : Option String} {now : String}
    {dedupe : Bool} {provider_call_id : Option String} (owns : v.owns turn_id provider_call_id)
    (new : ∀ id, provider_call_id = some id → dedupe = true ∨ v.charged id = 0) :
    wp FirstCharge (book_spend x turn_id usage model now dedupe provider_call_id)
      (fun _ v' => (date_of x now).isOk → usage.isSome → ∀ id, provider_call_id = some id → 0 < v'.charged id) v := by
  rw [wp_book_spend]
  cases usage with
  | none => simp [booking]
  | some usage =>
    split
    · next e unreadable =>
      intro dated
      have error : date_of x now = .error e := by
        simp only [booking] at unreadable
        split at unreadable
        · cases unreadable
        · cases on : date_of x now <;> rw [on] at unreadable <;> cases unreadable
          rfl
      simp [error, Except.isOk, Except.toBool] at dated
    · next spend booked =>
      refine ⟨?_, fun _ _ id named => ?_⟩
      · rintro e rfl e' same id this
        cases same
        rcases booking_cases booked with ⟨none, _⟩ | ⟨⟨_, same, named⟩, fresh⟩
        · cases none
        · cases same
          rw [this] at named
          rcases new id named.symm with dedupe | unbooked
          · have fresh := fresh dedupe
            rw [← named] at fresh owns
            rw [← Bool.not_eq_true, already_booked_iff owns] at fresh
            exact Nat.eq_zero_of_not_pos fresh
          · exact unbooked
      · rcases booking_cases booked with ⟨rfl, found⟩ | ⟨⟨e, rfl, same⟩, _⟩
        · rw [named] at found owns
          exact (already_booked_iff owns).mp found
        · simp [Vault.booked, Vault.charged, spends_commit_spend, same, named]

/-! ### Recording -/

/-- The call of a metered result is on the journal, unless the date is unreadable. -/
def Charged (x : Externals) (usage : Option TokenUsage) (now : String) (provider_call_id : Option String)
    (v : Vault) : Prop :=
  (date_of x now).isOk → usage.isSome → ∀ id, provider_call_id = some id → 0 < v.charged id

theorem Charged.of_spends {usage : Option TokenUsage} {now : String} {provider_call_id : Option String}
    (h : Charged x usage now provider_call_id v) (same : v'.spends = v.spends) :
    Charged x usage now provider_call_id v' := by
  intro dated metered id named
  rw [Vault.charged, same]
  exact h dated metered id named

section
variable {context : RunContext} {spec : TurnSpec} {usage : Option TokenUsage} {now : String}
  {provider_call_id : Option String}

theorem Vault.owns.of_spends {turn_id : TurnId} (h : v.owns turn_id provider_call_id) (same : v'.spends = v.spends) :
    v'.owns turn_id provider_call_id := by
  rw [Vault.owns, same]
  exact h

/-- A discard books its call whether the journal has it or not. -/
theorem discard_first {reason detail : String} (owns : v.owns spec.turn_id provider_call_id)
    (unbooked : ∀ id, provider_call_id = some id → v.charged id = 0) :
    wp FirstCharge (discard x context spec reason detail usage now provider_call_id)
      (fun _ v' => Charged x usage now provider_call_id v') v := by
  unfold discard
  rw [wp_bind]
  refine (book_spend_first owns fun id named => .inr (unbooked id named)).post ?_
  rintro (e | _) v' charged
  · exact charged
  · have unspent (attempt : Nat) (state : RunState) : Only Write.Unspent (do
        append (.turn_discarded spec.turn_id reason attempt detail)
        Prog.when (attempt ≥ effective_max_attempts state context.max_attempts) (append (.run_finished .needs_attention))
        return ({ turn_id := spec.turn_id, reason, attempt } : DiscardedTurn)) :=
      .bind (.write (by simp [Write.Unspent])) fun _ =>
        .bind (.when (.write (by simp [Write.Unspent]))) fun _ => .pure _
    refine wp_unspent (unspent_of_only (.bind only_load_state fun state => unspent _ state)) fun _ _ same => ?_
    exact Charged.of_spends charged same

/-- A body already there differs from the record in nothing but the time of completion. -/
def Vault.admits_body (v : Vault) (record : TurnRecord) : Bool :=
  (v.turn_bodies.get? record.spec.turn_id).all fun existing =>
    existing = { record with completed_at := existing.completed_at }

theorem write_turn_body_ok {record : TurnRecord} (admits : v.admits_body record = true) :
    ∃ written, (write_turn_body record v).2 = .ok written := by
  suffices h : wp (fun _ _ => True) (write_turn_body record) (fun r _ => ∃ written, r = .ok written) v from h.2
  simp only [write_turn_body, wp_bind, wp_read]
  cases body : v.turn_bodies.get? record.spec.turn_id with
  | none => simp
  | some existing =>
    simp only [Vault.admits_body, body, Option.all_some, decide_eq_true_eq] at admits
    simp [← admits]

theorem write_turn_body_first {record : TurnRecord} :
    wp FirstCharge (write_turn_body record)
      (fun r v' => v'.spends = v.spends ∧ (v.admits_body record = true → ∃ written, r = .ok written)) v := by
  have wrote : wp FirstCharge (write_turn_body record) (fun _ v' => v'.spends = v.spends) v :=
    wp_unspent (unspent_of_calm (write_turn_body_calm record)) fun _ _ same => same
  exact ⟨wrote.1, wrote.2, write_turn_body_ok⟩

theorem derive_decisions_of_first {record : TurnRecord} :
    wp FirstCharge (derive_decisions_of context record) (fun r v' => v'.spends = v.spends ∧ r = .ok ()) v := by
  have derived : wp FirstCharge (derive_decisions_of context record) (fun _ v' => v'.spends = v.spends) v :=
    wp_unspent (unspent_of_calm (derive_decisions_of_calm context record)) fun _ _ same => same
  refine ⟨derived.1, derived.2, ?_⟩
  suffices h : wp (fun _ _ => True) (derive_decisions_of context record) (fun r _ => r = .ok ()) v from h.2
  unfold derive_decisions_of
  split
  · simp only [derive_drafts_and_store, wp_bind, wp_read]
    exact (wp_forEach_write _).mpr
      ⟨(path_of_only (C := fun _ => True) fun _ _ => trivial).mono fun _ _ _ => trivial, rfl⟩
  · exact (wp_pure _).mpr rfl

theorem settled_unspent (record : TurnRecord) : wp (fun _ w => w.Unspent)
    (do append (.turn_completed record)
        maybe_emit_rubric_gate x context spec
        settle x context
        return record) (fun _ _ => True) v := by
  refine unspent_of_guarded (Q := fun _ _ => True) ?_
  refine (wp_bind _ _).mpr (wp_of_calm (turn_completed_calm _) ?_)
  rintro (e | _) v₁ _
  · trivial
  refine (wp_bind _ _).mpr (wp_of_calm (maybe_emit_rubric_gate_calm _ _) ?_)
  rintro (e | _) v₂ _
  · trivial
  refine (wp_bind _ _).mpr ((settle_guarded context).post ?_)
  rintro (e | _) v₃ _ <;> trivial

/-- An accepted turn books its call unless the turn has it, or a body in its way has other contents. -/
theorem accept_turn_first {output : TurnOutput} {gate_results : List GateResult} {state : RunState}
    (owns : v.owns spec.turn_id provider_call_id) :
    wp FirstCharge (accept_turn x context spec output gate_results state usage now provider_call_id)
      (fun _ v' => v.admits_body { spec, output, gate_results, completed_at := now } = true →
        Charged x usage now provider_call_id v') v := by
  have follows (v₁ : Vault) (spends : v₁.spends = v.spends) (bodies : v₁.turn_bodies = v.turn_bodies) :
      wp FirstCharge
        (do let record ← write_turn_body { spec, output, gate_results, completed_at := now }
            derive_decisions_of context record
            book_spend x spec.turn_id usage spec.model now provider_call_id.isSome provider_call_id
            append (.turn_completed record)
            maybe_emit_rubric_gate x context spec
            settle x context
            return record)
        (fun _ v' => v.admits_body { spec, output, gate_results, completed_at := now } = true →
          Charged x usage now provider_call_id v') v₁ := by
    refine (wp_bind _ _).mpr (write_turn_body_first.post ?_)
    rintro (e | record) v₂ ⟨wrote, ok⟩
    · intro admits
      obtain ⟨_, raised⟩ := ok (by rwa [Vault.admits_body, bodies])
      cases raised
    refine (wp_bind _ _).mpr (derive_decisions_of_first.post ?_)
    rintro (e | _) v₃ ⟨derived, ok⟩
    · cases ok
    have owns₃ := owns.of_spends (derived.trans (wrote.trans spends))
    refine (wp_bind _ _).mpr ((book_spend_first owns₃ fun id named => .inl (by simp [named])).post ?_)
    rintro (e | _) v₄ charged
    · exact fun _ => charged
    · exact wp_unspent (settled_unspent record) fun _ _ same _ => Charged.of_spends charged same
  unfold accept_turn
  rw [wp_bind, wp_when]
  refine ⟨fun _ => (wp_append _).mpr ⟨by simp [FirstCharge], follows _ ?_ rfl⟩, fun _ => follows v rfl rfl⟩
  exact spends_commit_other v (by simp [Write.Unspent])

theorem spends_gated (turn_id : TurnId) (results : List GateResult) : (v.gated turn_id results).spends = v.spends := by
  induction results generalizing v with
  | nil => rfl
  | cons result rest ih => exact ih.trans (spends_commit_other v (by simp [Write.Unspent]))

theorem turn_bodies_gated (turn_id : TurnId) (results : List GateResult) :
    (v.gated turn_id results).turn_bodies = v.turn_bodies := by
  induction results generalizing v with
  | nil => rfl
  | cons result rest ih => exact ih

/-- The gates of the turn do not raise, and an accepted output finds no other body in its way. -/
def Vault.takes (x : Externals) (v : Vault) (context : RunContext) (spec : TurnSpec) (raw_text : String) : Bool :=
  match judge x context spec raw_text with
  | .ok (.accepted output gate_results) => v.admits_body { spec, output, gate_results, completed_at := "" }
  | .ok _ => true
  | .error _ => false

theorem record_spec_first {raw_text : String} {state : RunState} (owns : v.owns spec.turn_id provider_call_id)
    (unbooked : discards x context spec raw_text = true → ∀ id, provider_call_id = some id → v.charged id = 0) :
    wp FirstCharge (record_spec x context spec raw_text usage now state provider_call_id)
      (fun _ v' => v.takes x context spec raw_text = true → Charged x usage now provider_call_id v') v := by
  refine wp_record_spec (fun _ _ => by simp [FirstCharge]) (fun discarded results reason detail => ?_)
    (fun output results judged => ?_) (fun e raised takes => ?_)
  · have spends : (v.gated spec.turn_id results).spends = v.spends := spends_gated _ _
    refine (discard_first (owns.of_spends spends) fun id named => ?_).post fun _ _ charged _ => charged
    rw [Vault.charged, spends]
    exact unbooked discarded id named
  · refine (accept_turn_first (owns.of_spends (spends_gated _ _))).post fun _ _ charged takes => charged ?_
    rw [Vault.takes, judged] at takes
    rwa [Vault.admits_body, turn_bodies_gated]
  · simp [Vault.takes, raised] at takes

/-- The turn `record_turn` finds to record. -/
def schedulable (x : Externals) (context : RunContext) (state : RunState) (turn_id : TurnId) : Except Error TurnSpec := do
  find_spec_in (← plan_run x context state) turn_id

/-- `record_turn` discards the turn. -/
def Vault.refuses (x : Externals) (v : Vault) (turn_id : TurnId) (raw_text : String) : Bool :=
  match v.run_context with
  | .error _ => false
  | .ok context => !v.state.is_completed turn_id &&
    match schedulable x context v.state turn_id with
    | .ok spec => discards x context spec raw_text
    | .error _ => false

/-- `record_turn` has a turn to book the call under: a completed one, or one it can schedule and take. -/
def Vault.records (x : Externals) (v : Vault) (turn_id : TurnId) (raw_text : String) : Bool :=
  match v.run_context with
  | .error _ => false
  | .ok context => v.state.is_completed turn_id ||
    match schedulable x context v.state turn_id with
    | .ok spec => v.takes x context spec raw_text
    | .error _ => false

theorem record_turn_first {free : Bool} {turn_id : TurnId} {raw_text : String}
    (owns : v.owns turn_id provider_call_id)
    (unbooked : v.refuses x turn_id raw_text = true → ∀ id, provider_call_id = some id → v.charged id = 0) :
    wp FirstCharge (record_turn x free turn_id raw_text usage now provider_call_id)
      (fun _ v' => free = true → v.records x turn_id raw_text = true → Charged x usage now provider_call_id v') v := by
  refine wp_with_lock.mpr ⟨fun _ => ?_, fun busy free => by simp [busy] at free⟩
  simp only [wp_bind, wp_load_run_context, wp_load_state]
  cases loaded : v.run_context with
  | error e => simp [Vault.records, loaded]
  | ok context =>
    dsimp only
    cases completed : v.state.completed_turns.get? turn_id with
    | some record =>
      refine (wp_bind _ _).mpr ((book_spend_first owns fun _ _ => .inl rfl).post ?_)
      rintro (e | _) v₁ charged
      · exact fun _ _ => charged
      · refine wp_unspent (unspent_of_guarded (Q := fun _ _ => True) ?_) fun _ _ same _ _ =>
          Charged.of_spends charged same
        refine (wp_bind _ _).mpr ((finalize_guarded context).post ?_)
        rintro (e | _) _ _ <;> trivial
    | none =>
      have open_ : v.state.is_completed turn_id = false := by simp [RunState.is_completed, Dict.contains, completed]
      simp only [wp_bind, wp_lift]
      cases planned : plan_run x context v.state with
      | error e => simp [Vault.records, loaded, open_, schedulable, planned, bind, Except.bind]
      | ok specs =>
        dsimp only
        cases found : find_spec_in specs turn_id with
        | error e => simp [Vault.records, loaded, open_, schedulable, planned, found, bind, Except.bind]
        | ok spec =>
          have scheduled : schedulable x context v.state turn_id = .ok spec := by
            simp [schedulable, planned, found, bind, Except.bind]
          have same : spec.turn_id = turn_id := (find_spec_in_mem found).2
          refine (record_spec_first (same ▸ owns) fun discarded => unbooked ?_).post fun _ _ charged _ records =>
            charged ?_
          · simp [Vault.refuses, loaded, open_, scheduled, discarded]
          · simpa [Vault.records, loaded, open_, scheduled] using records

/-- A completed check books its call once. -/
theorem record_completed_check_first {bundle : PropositionEvidenceBundle} {result : RawTurnResult}
    (owns : v.owns (build_check_spec context bundle).turn_id result.provider_call_id) :
    wp FirstCharge (record_completed_check x context bundle result now) (fun _ _ => True) v := by
  simp only [record_completed_check, wp_bind, wp_lift]
  cases validate_check_result x bundle result.text now with
  | error e => trivial
  | ok validated =>
    simp only [wp_load_state, wp_when, wp_bind]
    have verdict (v' : Vault) : wp FirstCharge (append_verdict validated.2) (fun _ _ => True) v' :=
      wp_unspent (unspent_of_calm (append_verdict_calm _)) fun _ _ _ => trivial
    refine ⟨fun _ => write_turn_body_first.post ?_, fun _ => verdict _⟩
    rintro (e | record) v₁ ⟨same, -⟩
    · trivial
    refine (book_spend_first (owns.of_spends same) fun _ _ => .inl rfl).post ?_
    rintro (e | _) v₂ _
    · trivial
    · exact (wp_append _).mpr ⟨by simp [FirstCharge], verdict _⟩

end

/-! ### Runs -/

/-- A delivery to `record_turn` under an id of its own turn, and a first one if it is discarded. -/
def Vault.first_delivery (x : Externals) (v : Vault) (turn_id : TurnId) (raw_text : String)
    (provider_call_id : Option String) : Prop :=
  v.owns turn_id provider_call_id ∧
    (v.refuses x turn_id raw_text = true → ∀ id, provider_call_id = some id → v.charged id = 0)

/-- A worker hands the metered result of a provider call with this id to `record_turn`. -/
def Label.handed : Label → Option String
  | .worker _ (.returned _ _ result) (.record _ _) _ => if result.usage.isSome then result.provider_call_id else none
  | _ => none

/-- What has a call booked once. Every delivery of an id is for one turn, and a discarded one is the
    first. A worker finds the lock free, a readable date, and a turn to book the call under, and does not
    die before the booking. -/
def Delivered (x : Externals) (s : System) (label : Label) (s' : System) : Prop :=
  match label with
  | .command _ (.record_turn turn_id raw_text _ _ provider_call_id) _ =>
    s.vault.first_delivery x turn_id raw_text provider_call_id
  | .worker _ (.returned _ spec result) (.record free now) dies =>
    s.vault.first_delivery x spec.turn_id result.text result.provider_call_id ∧
      (result.usage.isSome → ∀ id, result.provider_call_id = some id →
        free = true ∧ s.vault.records x spec.turn_id result.text = true ∧ (date_of x now).isOk ∧
          (dies = true → 0 < s'.vault.charged id))
  | .worker _ (.cite_returned _ _ bundle _ result _ _) (.record _ _) _ =>
    ∀ context, s.vault.run_context = .ok context →
      s.vault.owns (build_check_spec context bundle).turn_id result.provider_call_id
  | .driver (.returned spec _ _ result) (.record _) _ =>
    ∀ context, s.vault.run_context = .ok context → s.vault.owns spec.turn_id result.provider_call_id ∧
      (discards x context spec result.text = true → ∀ id, result.provider_call_id = some id → s.vault.charged id = 0)
  | _ => True

theorem hand_over_first {α : Type} {free : Bool} {turn_id : TurnId} {raw_text now : String} {usage : Option TokenUsage}
    {provider_call_id : Option String} (first : v.first_delivery x turn_id raw_text provider_call_id) (a : α) :
    wp FirstCharge (do let _ ← record_turn x free turn_id raw_text usage now provider_call_id; return a)
      (fun _ v' => free = true → v.records x turn_id raw_text = true → Charged x usage now provider_call_id v') v := by
  refine (wp_bind _ _).mpr ((record_turn_first first.1 first.2).post ?_)
  rintro (e | _) v' charged
  · exact charged
  · exact (wp_pure a).mpr charged

/-- Every booking of the step is the first of its call. -/
theorem Step.first_charges (coherent : Coherent s) (step : Step x t max_attempts s label s')
    (delivered : Delivered x s label s') : ∃ ws, Path FirstCharge s.vault ws ∧ s'.vault = commits s.vault ws := by
  by_cases books : label.verbs .book
  · cases step with
    | @command free command dies v lock leaves =>
      cases command with
      | record_turn turn_id raw_text usage now id =>
        exact leaves.path (hand_over_first delivered ())
      | _ => simp [Label.verbs, Command.verbs] at books
    | @worker w action p dies v acts lock leaves =>
      cases action with
      | record free now =>
        cases phase : s.workers w with
        | returned item spec result =>
          rw [phase] at acts delivered
          cases acts
          exact leaves.path (hand_over_first delivered.1 (WorkerPhase.recorded item))
        | cite_returned item prepared bundle spec result rest unresolved =>
          rw [phase] at acts delivered
          cases acts
          refine leaves.path (Q := fun _ _ => True) ?_
          refine (wp_bind _ _).mpr (wp_load_run_context.mpr ?_)
          cases loaded : s.vault.run_context with
          | error e => trivial
          | ok context =>
            refine (wp_bind _ _).mpr ((record_completed_check_first (delivered context loaded)).post ?_)
            rintro (e | _) _ _ <;> trivial
        | _ => rw [phase] at acts; cases acts
      | _ => simp [Label.verbs, WorkerAction.verbs] at books
    | @driver action p dies v acts lock leaves =>
      cases action with
      | record now =>
        cases phase : s.driver with
        | returned spec fresh rest result =>
          rw [phase] at acts delivered
          cases acts
          refine leaves.path (Q := fun _ _ => True) ?_
          refine (wp_bind _ _).mpr (wp_load_run_context.mpr ?_)
          cases loaded : s.vault.run_context with
          | error e => trivial
          | ok context =>
            obtain ⟨owns, unbooked⟩ := delivered context loaded
            refine (wp_bind _ _).mpr ((record_spec_first owns unbooked).post ?_)
            rintro (e | _) _ _ <;> trivial
        | _ => rw [phase] at acts; cases acts
      | _ => simp [Label.verbs, DriverAction.verbs] at books
  · obtain ⟨ws, path, reached⟩ := step.guarded coherent
    exact ⟨ws, path.mono fun _ _ guarded e booked => absurd booked (guarded.unspent books e), reached⟩

/-- A result that a worker hands over is on the journal after the step. -/
theorem Step.charges_handed (step : Step x t max_attempts s label s') (delivered : Delivered x s label s')
    {id : String} (handed : label.handed = some id) : 0 < s'.vault.charged id := by
  cases step with
  | command lock leaves => cases handed
  | driver acts lock leaves => cases handed
  | @worker w action p dies v acts lock leaves =>
    cases action with
    | record free now =>
      cases phase : s.workers w with
      | returned item spec result =>
        rw [phase] at acts delivered handed
        cases acts
        simp only [Label.handed] at handed
        split at handed
        · next metered =>
          obtain ⟨entry, records, dated, survives⟩ := delivered.2 metered id handed
          cases dies with
          | true => exact survives rfl
          | false =>
            cases leaves
            exact (hand_over_first delivered.1 (WorkerPhase.recorded item)).2 entry records dated metered id handed
        · cases handed
      | _ => rw [phase] at handed; cases handed
    | _ => cases phase : s.workers w <;> rw [phase] at handed <;> cases handed

/-- Along every run whose deliveries book, each metered result that a worker handed to `record_turn` is on
    the journal exactly once. -/
theorem spend_booked_once {run_id : RunId} {matter : MatterConfig} {trace : List Label}
    (run : Run (Meeting (Step x t max_attempts) (Delivered x)) (System.initial run_id matter) trace s)
    {id : String} (mem : label ∈ trace) (handed : label.handed = some id) : s.vault.charged id = 1 := by
  have booked : Coherent s ∧ (∀ id, s.vault.charged id ≤ 1) ∧
      ∀ label ∈ trace, ∀ id, label.handed = some id → 0 < s.vault.charged id := by
    refine run.history
      (H := fun trace s => Coherent s ∧ (∀ id, s.vault.charged id ≤ 1) ∧
        ∀ label ∈ trace, ∀ id, label.handed = some id → 0 < s.vault.charged id) ?_
      ⟨.initial run_id matter, fun _ => Nat.zero_le _, by simp⟩
    rintro trace s l s' - ⟨coherent, once, handed⟩ ⟨step, delivered⟩
    obtain ⟨ws, path, reached⟩ := step.first_charges coherent delivered
    refine ⟨coherent.step step, ?_, fun label mem id named => ?_⟩
    · rw [reached]
      exact path.keeps (I := fun v => ∀ id, v.charged id ≤ 1) (fun _ _ once first => first.keeps once) once
    · rcases List.mem_append.mp mem with mem | mem
      · rw [reached]
        exact (handed label mem id named).trans_le (charged_le_commits _ ws id)
      · rw [List.mem_singleton] at mem
        subst mem
        exact step.charges_handed delivered named
  exact le_antisymm (booked.2.1 id) (booked.2.2 label mem id handed)

namespace Sample

/-- A result that cost a dollar. -/
def metered (text : String) : RawTurnResult where
  text
  usage := some { input_tokens := 0, cache_read := 0, cache_write := 0, output_tokens := 100000, model := "claude-sonnet-5" }
  provider_call_id := some "call-1"

def answered (text : String) : Act := .worker (.answer (.result (metered text)))

def hand_over : Act := .worker (.record true "2026-01-05")

/-- The same result, delivered again. -/
def deliver_again (text : String) : Act :=
  .command (.record_turn "r-t0000" text (metered text).usage "2026-01-05" (metered text).provider_call_id)

/-- Whether the draft that the worker was given is on record. -/
def answer_recorded (desk : Desk) : Bool :=
  match desk.worker with
  | .returned _ spec result => desk.vault.records externals spec.turn_id result.text
  | _ => false

theorem spend_booked_once_drafted : ∃ trace s label,
    Run (Meeting (Step externals publishing 3) (Delivered externals)) (System.initial "r" matter) trace s ∧
      label ∈ trace ∧ label.handed = some "call-1" ∧ s.vault.charged "call-1" = 1 := by
  have h : ((desk.acts externals publishing 3 (start none :: bring_to_call ++ [answered DRAFT])).bind fun r =>
      (r.2.act externals publishing 3 hand_over).map fun r' => (r'.1.handed, decide (r.2.vault.spends = []) &&
        answer_recorded r.2)) = some (some "call-1", true) := by decide +kernel
  obtain ⟨⟨labels, d⟩, ran, h⟩ := Option.bind_eq_some_iff.mp h
  obtain ⟨⟨label, d'⟩, next, h⟩ := Option.map_eq_some_iff.mp h
  simp only [Prod.mk.injEq, Bool.and_eq_true, decide_eq_true_eq] at h
  obtain ⟨handed, unspent, records⟩ := h
  have before : Run (Meeting (Step externals publishing 3) (Delivered externals)) (System.initial "r" matter) labels
      d.system := by
    rw [← Desk.system_initial]
    refine Desk.meeting_of_acts (I := fun _ => True) ran trivial fun a mem d label d' _ acted => ⟨?_, trivial⟩
    simp only [start, bring_to_call, answered, List.mem_append, List.mem_cons, List.not_mem_nil, or_false] at mem
    rcases mem with (rfl | rfl | rfl | rfl | rfl | rfl | rfl) | rfl
    · rw [(Desk.act_command acted).1]
      exact True.intro
    all_goals
      rw [(Desk.act_worker acted).1]
      cases d.worker <;> exact True.intro
  have delivered : Delivered externals d.system label d'.system := by
    rw [(Desk.act_worker next).1] at handed ⊢
    rw [answer_recorded] at records
    cases phase : d.worker with
    | cite_returned =>
      rw [phase] at handed
      cases handed
    | returned item spec result =>
      rw [phase] at records
      refine ⟨⟨fun id _ e mem => ?_, fun _ id _ => ?_⟩, fun _ id _ => ⟨rfl, records, by decide +kernel, by simp⟩⟩
      · rw [show d.system.vault.spends = [] from unspent] at mem
        cases mem
      · simp [Vault.charged, show d.system.vault.spends = [] from unspent]
    | _ => exact True.intro
  have run := before.snoc ⟨Desk.step_of_act next, delivered⟩
  exact ⟨_, _, label, run, by simp, handed, spend_booked_once run (by simp) handed⟩

theorem charged_of_acts (as : List Act) (n : Nat)
    (h : (desk.acts externals publishing 3 as).map
      (fun r => (r.1.any (·.handed = some "call-1"), r.2.vault.charged "call-1")) = some (true, n)) :
    ∃ trace s, Reachable externals publishing 3 trace s ∧ (∃ label ∈ trace, label.handed = some "call-1") ∧
      s.vault.charged "call-1" = n := by
  obtain ⟨⟨labels, d⟩, ran, h⟩ := Option.map_eq_some_iff.mp h
  simp only [Prod.mk.injEq, List.any_eq_true, decide_eq_true_eq] at h
  exact ⟨_, _, Desk.reachable_of_acts ran, h.1, h.2⟩

/-- A pause during the call drops its spend, and a refused result delivered twice is booked twice. -/
theorem spend_dropped_and_doubled :
    (∃ trace s, Reachable externals publishing 3 trace s ∧ (∃ label ∈ trace, label.handed = some "call-1") ∧
      s.vault.charged "call-1" = 0) ∧
    ∃ trace s, Reachable externals publishing 3 trace s ∧ (∃ label ∈ trace, label.handed = some "call-1") ∧
      s.vault.charged "call-1" = 2 := by
  have dropped := charged_of_acts (start none :: bring_to_call ++ [pause, answered DRAFT, hand_over]) 0
    (by decide +kernel)
  have doubled := charged_of_acts
    (start none :: bring_to_call ++ [answered "I cannot.", hand_over, deliver_again "I cannot."]) 2
    (by decide +kernel)
  exact ⟨dropped, doubled⟩

end Sample

end MootLoop
