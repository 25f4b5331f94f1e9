import MootLoop.Theorems.Recording
import MootLoop.Theorems.Served

/-! The two readings of a run's citations: the gate ledger folds the last verdict on the journal, the export gate
    judges the ledgers and the operative drafts as they are. What a passing verdict says when it is journaled,
    and how long it stays true. -/

namespace MootLoop
open Durable Transition

variable {x : Externals} {t : Publishing} {v v' : Vault} {context : RunContext} {max_attempts : Nat}

/-! ### What fails the export gate -/

/-- An operative citation's latest record is a failing one. -/
def FailingCitation (x : Externals) (context : RunContext) (v : Vault) : Prop :=
  ∃ citations, operative_citations x context v.state = .ok citations ∧ ∃ c ∈ citations,
    ∃ record, (latest_records v.verifications).get? c.citation_id = some record ∧ record.status.fails = true

/-- The latest check of an operative proposition about a verified case found no support. -/
def AdverseProposition (x : Externals) (context : RunContext) (v : Vault) : Prop :=
  ∃ propositions, operative_citation_propositions x context v.state = .ok propositions ∧ ∃ p ∈ propositions,
    (∃ record, (latest_records v.verifications).get? p.citation_id = some record ∧
      (record.status = .verified ∧ record.source = .courtlistener)) ∧
    (proposition_status v.propositions context.run_id p = .unsupported ∨
      proposition_status v.propositions context.run_id p = .ambiguous)

/-- Only a failing record folds to a failing status. -/
theorem fails_of_folded {records : List VerificationRecord} {now : Instant} {days : Nat} {id : CitationId}
    (h : (citation_status x records now days id).fails = true) :
    ∃ record, (latest_records records).get? id = some record ∧ record.status.fails = true := by
  unfold citation_status folded_record at h
  cases latest : (latest_records records).get? id with
  | none =>
    rw [latest] at h
    cases h
  | some record =>
    rw [latest] at h
    refine ⟨record, rfl, ?_⟩
    simp only [Option.map_some, Option.getD_some, fold_record] at h
    split at h
    · cases h
    · exact h

/-- A citation folds to verified only if its latest record says so. -/
theorem verified_of_folded {records : List VerificationRecord} {now : Instant} {days : Nat} {id : CitationId}
    (h : citation_status x records now days id = .verified) :
    ∃ record, (latest_records records).get? id = some record ∧ record.status = .verified ∧
      fold_record x now days record = record := by
  unfold citation_status folded_record at h
  cases latest : (latest_records records).get? id with
  | none =>
    rw [latest] at h
    cases h
  | some record =>
    rw [latest] at h
    refine ⟨record, rfl, ?_⟩
    simp only [Option.map_some, Option.getD_some, fold_record] at h ⊢
    split at h
    · cases h
    · next fresh => exact ⟨h, if_neg fresh⟩

theorem gate_of_findings_fail {gate : String} {failures pending : List GateFinding} :
    (gate_of_findings gate failures pending).status = .fail ↔ failures ≠ [] := by
  unfold gate_of_findings
  split
  · next some_fail => simp [some_fail]
  · next no_fail =>
    split
    · simpa using no_fail
    · simpa using no_fail

theorem citation_gate_fail {records : List VerificationRecord} {citations : List Citation} {now : Instant} {days : Nat}
    (h : (citation_gate x records citations now days).status = .fail) :
    ∃ c ∈ citations, (citation_status x records now days c.citation_id).fails = true := by
  unfold citation_gate at h
  rw [gate_of_findings_fail] at h
  obtain ⟨finding, mem⟩ := List.exists_mem_of_ne_nil _ h
  obtain ⟨entry, mem, -⟩ := List.mem_map.mp mem
  obtain ⟨mem, fails⟩ := List.mem_filter.mp mem
  obtain ⟨c, cited, rfl⟩ := List.mem_map.mp (List.mem_filter.mp mem).1
  exact ⟨c, cited, fails⟩

theorem proposition_findings_failures {checked : List (CitationProposition × PropositionVerificationStatus)} :
    (proposition_findings checked).1 ≠ [] ↔ ∃ entry ∈ checked, entry.2 = .unsupported ∨ entry.2 = .ambiguous := by
  simp only [proposition_findings, ne_eq, List.map_eq_nil_iff, List.filter_eq_nil_iff, List.mem_filter, decide_eq_true_eq,
    not_forall, not_not]
  constructor
  · rintro ⟨entry, ⟨mem, -⟩, adverse⟩
    exact ⟨entry, mem, adverse⟩
  · rintro ⟨entry, mem, adverse⟩
    exact ⟨entry, ⟨mem, by rcases adverse with h | h <;> simp [h]⟩, adverse⟩

theorem proposition_export_gate_fail {records : List PropositionVerificationRecord} {run_id : RunId}
    {propositions : List CitationProposition} :
    (proposition_export_gate records run_id propositions).status = .fail ↔ ∃ p ∈ propositions,
      proposition_status records run_id p = .unsupported ∨ proposition_status records run_id p = .ambiguous := by
  unfold proposition_export_gate
  refine gate_of_findings_fail.trans (proposition_findings_failures.trans ?_)
  simp

/-- What the export gate reads, when it returns. -/
theorem export_gate_reads {now : String} {days : Nat} {result : GateResult}
    (gated : citation_export_gate x v now days = .ok result) : ∃ context instant citations propositions,
      v.run_context = .ok context ∧ operative_citations x context v.state = .ok citations ∧
      operative_citation_propositions x context v.state = .ok propositions ∧
      result = combine_citation_gates (citation_gate x v.verifications citations instant days)
        (proposition_export_gate v.propositions context.run_id
          (propositions.filter fun p => verified_case x v.verifications instant days p.citation_id)) := by
  simp only [citation_export_gate, citation_export_verdict, bind, Except.bind, pure, Except.pure] at gated
  cases loaded : v.run_context with
  | error e => simp [loaded] at gated
  | ok context =>
    simp only [loaded] at gated
    cases at_now : instant_of x now with
    | error e => simp [at_now] at gated
    | ok instant =>
      simp only [at_now] at gated
      cases cited : operative_citations x context v.state with
      | error e => simp [cited] at gated
      | ok citations =>
        simp only [cited] at gated
        cases proposed : operative_citation_propositions x context v.state with
        | error e => simp [proposed] at gated
        | ok propositions =>
          simp only [proposed, Except.ok.injEq] at gated
          exact ⟨context, instant, citations, propositions, rfl, cited, proposed, gated.symm⟩

theorem verified_case_record {records : List VerificationRecord} {now : Instant} {days : Nat} {id : CitationId}
    (h : verified_case x records now days id = true) :
    ∃ record, (latest_records records).get? id = some record ∧ (record.status = .verified ∧ record.source = .courtlistener) := by
  unfold verified_case folded_record at h
  obtain ⟨folded, held, found⟩ := (Option.any_eq_true _ _).mp h
  obtain ⟨record, latest, rfl⟩ := Option.map_eq_some_iff.mp held
  have case_ := of_decide_eq_true found
  refine ⟨record, latest, ?_⟩
  unfold fold_record at case_
  split at case_
  · cases case_.1
  · exact case_

/-- A failing export gate has a failing citation or an adverse proposition, whatever the time. -/
theorem gate_fails {now : String} {days : Nat} {result : GateResult}
    (gated : citation_export_gate x v now days = .ok result) (fails : result.status = .fail) :
    ∃ context, v.run_context = .ok context ∧ (FailingCitation x context v ∨ AdverseProposition x context v) := by
  obtain ⟨context, instant, citations, propositions, loaded, cited, proposed, rfl⟩ := export_gate_reads gated
  refine ⟨context, loaded, ?_⟩
  by_cases existence : (citation_gate x v.verifications citations instant days).status = .fail
  · obtain ⟨c, mem, failing⟩ := citation_gate_fail existence
    exact .inl ⟨citations, cited, c, mem, fails_of_folded failing⟩
  · have support : (proposition_export_gate v.propositions context.run_id
        (propositions.filter fun p => verified_case x v.verifications instant days p.citation_id)).status = .fail := by
      by_contra sound
      simp only [combine_citation_gates, existence, sound, or_self, if_false] at fails
      split at fails <;> cases fails
    obtain ⟨p, mem, adverse⟩ := proposition_export_gate_fail.mp support
    obtain ⟨proposed_, case_⟩ := List.mem_filter.mp mem
    exact .inr ⟨propositions, proposed, p, proposed_, verified_case_record case_, adverse⟩

/-! ### What a passing verdict says -/

/-- A passing existence verdict rules out failing citations. -/
theorem existence_pass {citations : List Citation} {instant : Instant} {days : Nat}
    (cited : operative_citations x context v.state = .ok citations)
    (passes : (citation_gate x v.verifications citations instant days).status = .pass) : ¬FailingCitation x context v := by
  rintro ⟨citations', cited', c, mem, record, latest, fails⟩
  rw [cited] at cited'
  cases cited'
  obtain ⟨record', latest', verified, -⟩ := verified_of_folded (citation_gate_pass.mp passes c mem)
  rw [latest] at latest'
  cases latest'
  rw [verified] at fails
  cases fails

/-- The identity of an occurrence is a digest of its normal form. -/
theorem occurrence_id {text : String} {source : Option TurnId} {occurrence : Citation × Nat × Nat}
    (h : occurrence ∈ extract_citation_occurrences x text source) :
    occurrence.1.citation_id = make_citation_id x occurrence.1.normalized := by
  obtain ⟨first, mem, rfl⟩ := mem_first h
  obtain ⟨found, -, rfl⟩ := List.mem_map.mp mem
  rfl

/-- Every occurrence has a citation of its identity among those extracted. -/
theorem extract_covers {text : String} {source : Option TurnId} {occurrence : Citation × Nat × Nat}
    (h : occurrence ∈ extract_citation_occurrences x text source) :
    ∃ c ∈ extract_citations x text source, c.citation_id = occurrence.1.citation_id := by
  obtain ⟨first, mem, same, kept⟩ := first_covers (fun o : Citation × Nat × Nat => o.1.normalized)
    (fun o => o.1) h
  exact ⟨first.1, kept, by rw [occurrence_id mem, occurrence_id h, same]⟩

/-- Every operative proposition is about an operative citation. -/
theorem proposition_cited {citations : List Citation} {propositions : List CitationProposition} {state : RunState}
    (cited : operative_citations x context state = .ok citations)
    (proposed : operative_citation_propositions x context state = .ok propositions) {p : CitationProposition}
    (mem : p ∈ propositions) : ∃ c ∈ citations, c.citation_id = p.citation_id := by
  simp only [operative_citations, operative_citation_propositions, bind, Except.bind, pure, Except.pure] at cited proposed
  cases drafted : operative_drafts context state with
  | error e => simp [drafted] at cited
  | ok drafts =>
    simp only [drafted, Except.ok.injEq] at cited proposed
    subst cited proposed
    obtain ⟨q, found, rfl⟩ := mem_first mem
    obtain ⟨⟨unit, _ | ⟨turn_id, draft⟩⟩, drafted_, extracted⟩ := List.mem_flatMap.mp found
    · cases extracted
    · obtain ⟨occurrence, occurs, rfl⟩ := List.mem_map.mp extracted
      obtain ⟨c, extracted, same⟩ := extract_covers occurs
      have scanned : c ∈ scanned_citations x drafts :=
        mem_citations_of.mpr ⟨unit, turn_id, draft, drafted_, draft.response_text, List.mem_cons_self, extracted⟩
      obtain ⟨first, kept, same'⟩ := first_by_covers Citation.citation_id scanned
      exact ⟨first, kept, same'.trans same⟩

/-- A passing verdict of the export gate rules out failing citations and adverse propositions. -/
theorem export_pass {now : String} {days : Nat} {result : GateResult} (loaded : v.run_context = .ok context)
    (gated : citation_export_gate x v now days = .ok result) (passes : result.status = .pass) :
    ¬FailingCitation x context v ∧ ¬AdverseProposition x context v := by
  obtain ⟨context', instant, citations, propositions, loaded', cited, proposed, rfl⟩ := export_gate_reads gated
  rw [loaded] at loaded'
  cases loaded'
  obtain ⟨existence, support⟩ := combine_pass.mp passes
  refine ⟨existence_pass cited existence, ?_⟩
  rintro ⟨propositions', proposed', p, mem, ⟨record, latest, verified, case_⟩, adverse⟩
  rw [proposed] at proposed'
  cases proposed'
  obtain ⟨c, cited_, same⟩ := proposition_cited cited proposed mem
  obtain ⟨record', latest', -, fresh⟩ := verified_of_folded (citation_gate_pass.mp existence c cited_)
  rw [same, latest] at latest'
  cases latest'
  have considered : p ∈ propositions.filter fun p => verified_case x v.verifications instant days p.citation_id := by
    refine List.mem_filter.mpr ⟨mem, ?_⟩
    simp [verified_case, folded_record, latest, fresh, verified, case_]
  have failing := proposition_export_gate_fail.mpr ⟨p, considered, adverse⟩
  rw [support] at failing
  cases failing

/-! ### The last verdict -/

/-- The last citation verdict on the journal is a pass. -/
def Passing (v : Vault) : Prop := (citation_verdicts v.journal).getLast? = some .pass

theorem Passing.started (h : Passing v) : v.journal ≠ [] := by
  intro empty
  rw [Passing, empty] at h
  cases h

def Write.Uncited : Write → Prop
  | .journal event => citation_verdict event = none
  | _ => True

theorem quiet_uncited : Quiet Write.Uncited where
  plain w h := by
    cases w with
    | journal event => cases event <;> first | rfl | exact absurd trivial h
    | _ => trivial
  rubric turn_id result named := by simp [Write.Uncited, citation_verdict, named]

theorem verdicts_commit {w : Write} (h : w.Uncited) :
    citation_verdicts (v.commit w).journal = citation_verdicts v.journal := by
  cases w with
  | journal event =>
    have uncited : citation_verdict event = none := h
    simp [Vault.commit, citation_verdicts, uncited]
  | _ => rfl

/-- Only the two verifiers journal a verdict on citations. -/
theorem Step.verdicts {s s' : System} {label : Label} (step : Step x t max_attempts s label s') (coherent : Coherent s)
    (other : label.verifies = false) : citation_verdicts s'.vault.journal = citation_verdicts s.vault.journal := by
  have turn_verdict (turn_id : TurnId) (result : GateResult) (named : result.gate ∈ TURN_GATE_NAMES) :
      (Write.journal (.gate_evaluated turn_id result)).Uncited := by
    have other : result.gate ≠ "citation" := by
      rintro same
      rw [same] at named
      simp [TURN_GATE_NAMES] at named
    simp [Write.Uncited, citation_verdict, other]
  obtain ⟨ws, path, reached⟩ := step.only coherent quiet_uncited
    (fun _ spec _ _ => ⟨turn_verdict spec.turn_id, fun _ _ _ _ => rfl⟩)
    (fun _ _ _ _ _ _ _ _ _ _ => rfl) (fun verifies => by simp [other] at verifies)
  rw [reached]
  exact path.keeps (I := fun v => citation_verdicts v.journal = citation_verdicts s.vault.journal)
    (fun v w same permitted => (verdicts_commit permitted.2).trans same) rfl

/-- The same journal, launch context and records. -/
theorem after_verifications {ws : List Write} (h : ∀ w ∈ ws, ∃ record, w = Write.verification record) :
    (commits v ws).journal = v.journal ∧ (commits v ws).run_context = v.run_context := by
  refine (path_of_only h).keeps (I := fun v' : Vault => v'.journal = v.journal ∧ v'.run_context = v.run_context) ?_ ⟨rfl, rfl⟩
  rintro v' _ same ⟨record, rfl⟩
  exact same

/-- A verification that journals its verdict judges the citations as it leaves them. -/
theorem verify_run_citations_leaves {now : String} {outcome : Citation → VerificationRecord} {days : Nat}
    (crash : Prog.Crash (verify_run_citations x now outcome days) v v') :
    citation_verdicts v'.journal = citation_verdicts v.journal ∨
    ∃ context citations instant, v.run_context = .ok context ∧ operative_citations x context v'.state = .ok citations ∧
      (citation_verdicts v'.journal).getLast? = some (citation_gate x v'.verifications citations instant days).status := by
  unfold verify_run_citations at crash
  rcases crash.skip rfl with rfl | ⟨context, loaded, crash⟩
  · exact .inl rfl
  rcases crash.skip rfl with rfl | ⟨state, read, crash⟩
  · exact .inl rfl
  cases read
  rcases crash.skip rfl with rfl | ⟨citations, cited, crash⟩
  · exact .inl rfl
  rcases crash.skip rfl with rfl | ⟨instant, _, crash⟩
  · exact .inl rfl
  have only : Only (fun w => ∃ record, w = Write.verification record) (verify_all x citations instant days outcome) :=
    .bind .read fun _ => .forEach fun _ _ => .write ⟨_, rfl⟩
  rcases crash.bind with early | ⟨_, _, crash⟩
  · obtain ⟨ws, verifications, rfl⟩ := only.crash early
    exact .inl (by rw [(after_verifications verifications).1])
  obtain ⟨journal, -⟩ := after_verifications (v := v) (only v)
  have state : ((verify_all x citations instant days outcome).final v).state = v.state := congrArg fold journal
  rcases crash.skip rfl with rfl | ⟨v₁, read, crash⟩
  · exact .inl (by rw [Prog.final, journal])
  cases read
  rcases crash.write with rfl | rfl
  · exact .inl (by rw [Prog.final, journal])
  · refine .inr ⟨context, citations, instant, loaded, ?_, ?_⟩
    · rw [commit_eq, state_commit_journal, RunState.apply, state]
      exact cited
    · have named : (citation_gate x ((verify_all x citations instant days outcome).final v).verifications citations instant
          days).gate = "citation" := by
        simp only [citation_gate, gate_of_findings]
        split
        · rfl
        · split <;> rfl
      simp [Vault.commit, citation_verdicts, citation_verdict, named]

/-- A verdict changes nothing the export gate reads. -/
theorem export_gate_commit (v : Vault) (turn_id : TurnId) (result : GateResult) (now : String) (days : Nat) :
    citation_export_gate x (v.commit (.journal (.gate_evaluated turn_id result))) now days =
      citation_export_gate x v now days := by
  unfold citation_export_gate citation_export_verdict
  rw [run_context_journal v _ (by simp), state_commit_journal]
  rfl

/-- A closing of checks that journals its verdict judges the evidence as it leaves it. -/
theorem close_checks_leaves {prepared : PreparedPropositionChecks} {unresolved : List CitationProposition} {now : String}
    (crash : Prog.Crash (close_checks x prepared unresolved now) v v') :
    citation_verdicts v'.journal = citation_verdicts v.journal ∨
    ∃ result, citation_export_gate x v' now DEFAULT_MAX_CACHE_AGE_DAYS = .ok result ∧
      (citation_verdicts v'.journal).getLast? = some result.status := by
  unfold close_checks at crash
  rcases crash.skip rfl with rfl | ⟨context, loaded, crash⟩
  · exact .inl rfl
  rcases crash.skip rfl with rfl | ⟨_, read, crash⟩
  · exact .inl rfl
  cases read
  have support (s : Vault) (turn_id : TurnId) : citation_verdicts (s.commit (.journal (.gate_evaluated turn_id
      (proposition_gate s.propositions prepared.bundles unresolved)))).journal = citation_verdicts s.journal := by
    refine verdicts_commit ?_
    have named : (proposition_gate s.propositions prepared.bundles unresolved).gate = "citation_propositions" := by
      simp only [proposition_gate, gate_of_findings]
      split
      · rfl
      · split <;> rfl
    simp [Write.Uncited, citation_verdict, named]
  rcases crash.bind with early | ⟨_, _, crash⟩
  · rcases early.write with rfl | rfl
    · exact .inl rfl
    · exact .inl (support _ _)
  rcases crash.skip rfl with rfl | ⟨_, read, crash⟩
  · exact .inl (support _ _)
  cases read
  rcases crash.skip rfl with rfl | ⟨combined, gated, crash⟩
  · exact .inl (support _ _)
  rcases crash.write with rfl | rfl
  · exact .inl (support _ _)
  · refine .inr ⟨combined, (export_gate_commit _ _ _ _ _).trans gated, ?_⟩
    simp [Vault.commit, citation_verdicts, citation_verdict, citation_export_gate_named gated]

/-! ### Runs -/

/-- The step verifies citations without checking propositions. -/
def Label.verifies_existence : Label → Bool
  | .command _ (.verify_citations _ _ _) _ => true
  | _ => false

/-- The step turns up nothing adverse under a passing verdict: where it leaves the last verdict a pass, it has
    not newly put an operative citation under a failing record or an operative proposition under an adverse
    check without journaling a verdict, and journals no verdict on existence alone over an adverse check. -/
structure KeepsFaith (x : Externals) (v : Vault) (label : Label) (v' : Vault) : Prop where
  evidence : Passing v' → citation_verdicts v'.journal = citation_verdicts v.journal →
    ∀ context, v.run_context = .ok context →
      (FailingCitation x context v' → FailingCitation x context v) ∧
      (AdverseProposition x context v' → AdverseProposition x context v)
  support : Passing v' → label.verifies_existence = true → ∀ context, v.run_context = .ok context →
    ¬AdverseProposition x context v'

/-- What a passing verdict says is so. -/
def Faithful (x : Externals) (v : Vault) : Prop :=
  Passing v → ∀ context, v.run_context = .ok context → ¬FailingCitation x context v ∧ ¬AdverseProposition x context v

theorem Step.faithful {s s' : System} {label : Label} (step : Step x t max_attempts s label s') (coherent : Coherent s)
    (keeps : KeepsFaith x s.vault label s'.vault) (faithful : Faithful x s.vault) : Faithful x s'.vault := by
  intro passing context loaded
  by_cases same : citation_verdicts s'.vault.journal = citation_verdicts s.vault.journal
  · have before : Passing s.vault := by rwa [Passing, ← same]
    rw [(step.keeps_context coherent before.started).1] at loaded
    obtain ⟨citations, propositions⟩ := faithful before context loaded
    obtain ⟨evidence, checks⟩ := keeps.evidence passing same context loaded
    exact ⟨fun h => citations (evidence h), fun h => propositions (checks h)⟩
  · have verifies : label.verifies = true := by
      by_contra other
      exact same (step.verdicts coherent (by simpa using other))
    cases step with
    | @command free command dies v lock leaves =>
      cases command with
      | verify_citations now outcome days =>
        rcases verify_run_citations_leaves leaves.crash with unchanged | ⟨context', citations, instant, started, cited, last⟩
        · exact absurd unchanged same
        · have kept : v.run_context = s.vault.run_context := by
            obtain ⟨ws, calm, rfl⟩ := (verify_run_citations_calm now outcome days).crash leaves.crash
            exact (kept_of_calm calm).context
          rw [kept] at loaded
          rw [loaded] at started
          cases started
          have passes : (citation_gate x v.verifications citations instant days).status = .pass := by
            have last_pass : (citation_verdicts v.journal).getLast? = some .pass := passing
            rw [last] at last_pass
            exact Option.some.inj last_pass
          exact ⟨existence_pass cited passes, keeps.support passing rfl context loaded⟩
      | _ => cases verifies
    | @worker w action p dies v acts lock leaves =>
      cases phase : s.workers w <;> cases action <;> simp only [phase, Label.verifies] at acts verifies <;> try cases verifies
      rename_i item prepared bundles unresolved free now
      cases bundles with
      | cons bundle rest => cases verifies
      | nil =>
        cases acts
        have closed : citation_verdicts v.journal = citation_verdicts s.vault.journal ∨
            ∃ result, citation_export_gate x v now DEFAULT_MAX_CACHE_AGE_DAYS = .ok result ∧
              (citation_verdicts v.journal).getLast? = some result.status := by
          have crash := leaves.crash
          unfold check_bundle at crash
          rcases crash.bind with early | ⟨_, ends, crash⟩
          · exact close_checks_leaves early
          · obtain ⟨ws, pre, rfl⟩ := crash
            rw [List.prefix_nil.mp pre]
            exact close_checks_leaves (Prog.Crash.final _ _)
        rcases closed with unchanged | ⟨result, gated, last⟩
        · exact absurd unchanged same
        · refine export_pass loaded gated ?_
          have last_pass : (citation_verdicts v.journal).getLast? = some .pass := passing
          rw [last] at last_pass
          exact Option.some.inj last_pass
    | driver => cases verifies

instance decidable_forall_ok {ε α : Type} {P : α → Prop} [DecidablePred P] :
    (r : Except ε α) → Decidable (∀ a, r = .ok a → P a)
  | .error _ => isTrue (by simp)
  | .ok a => decidable_of_iff (P a) (by simp)

instance : Decidable (FailingCitation x context v) := by unfold FailingCitation; infer_instance
instance : Decidable (AdverseProposition x context v) := by unfold AdverseProposition; infer_instance
instance : Decidable (Passing v) := by unfold Passing; infer_instance

instance {label : Label} : Decidable (KeepsFaith x v label v') :=
  decidable_of_iff (_ ∧ _) ⟨fun ⟨a, b⟩ => ⟨a, b⟩, fun ⟨a, b⟩ => ⟨a, b⟩⟩

namespace Sample

/-- An answer that cites is verified, decided, reviewed and attested. -/
def answer_reviewed : List Act := record_single ANSWERING ++ [verify] ++ settle_decisions ++ review

/-- The same, with the citation found invalid before the review. -/
def answer_refuted : List Act :=
  record_single ANSWERING ++ [verify] ++ settle_decisions ++
    [.command (.curate { citation_id := make_citation_id citing_externals CITE, status := .invalid, source := .manual,
                         verified_at := "2026-01-05" })] ++ review

/-- The ledger is green and the gate has this status. -/
def Reads (v : Vault) (status : GateStatus) : Prop :=
  (∃ doc, build_ledger hashing v = .ok doc ∧ doc.export_ready = true) ∧
    ∃ result, citation_export_gate citing_externals v "2026-01-05" 30 = .ok result ∧ result.status = status

instance {v : Vault} {status : GateStatus} : Decidable (Reads v status) := by unfold Reads; infer_instance

theorem answers_read :
    (desk.meeting_acts citing_externals hashing 3 (KeepsFaith citing_externals) answer_reviewed).any
      (fun r => decide (Reads r.2.vault .pass)) = true ∧
    (desk.acts citing_externals hashing 3 answer_refuted).any (fun r => decide (Reads r.2.vault .fail)) = true := by
  decide +kernel

end Sample

end MootLoop
