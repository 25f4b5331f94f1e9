import MootLoop.Facts
import MootLoop.Lib.Transition
import Mathlib.Logic.Relation

/-! One accepted version for each lineage of the fact ledger. The fold reads every accepted back-pointer of the log, so
    an accepted version always retires the version it supersedes. It retires the versions before that one only where
    that one was itself accepted, which is what the condition on the calls asks for. -/

namespace MootLoop

namespace Facts
open Durable Transition
open Durable.Prog (Crash)

/-! ### The fold -/

section
variable {records : List Fact} {id : FactId} {r f : Fact}

@[simp] theorem latest_append (records : List Fact) (r : Fact) :
    latest (records ++ [r]) = (latest records).insert r.fact_id r := by
  simp [latest]

theorem fact_id_of_latest (h : (latest records).get? id = some f) : f.fact_id = id := by
  induction records using List.reverseRecOn with
  | nil => cases h
  | append_singleton records r ih =>
    rw [latest_append, Dict.get?_insert] at h
    split at h
    · next same => rw [same, ← Option.some.inj h]
    · exact ih h

theorem mem_of_latest (h : (latest records).get? id = some f) : f ∈ records := by
  induction records using List.reverseRecOn with
  | nil => cases h
  | append_singleton records r ih =>
    rw [latest_append, Dict.get?_insert] at h
    split at h
    · rw [← Option.some.inj h]; simp
    · exact List.mem_append_left _ (ih h)

/-- The record is accepted and supersedes the version; an empty id names none. -/
def Fact.Replaces (r : Fact) (id : FactId) : Prop := r.review_status = .accepted ∧ r.supersedes = some id ∧ id ≠ ""

instance (r : Fact) (id : FactId) : Decidable (r.Replaces id) := inferInstanceAs (Decidable (_ ∧ _))

/-- The first accepted record that supersedes the version. -/
def first_successor (records : List Fact) (id : FactId) : Option FactId :=
  (records.find? fun r => r.Replaces id).map (·.fact_id)

theorem first_successor_eq_none : first_successor records id = none ↔ ∀ r ∈ records, ¬r.Replaces id := by
  simp [first_successor]

theorem first_successor_cons (r : Fact) (records : List Fact) (id : FactId) :
    first_successor (r :: records) id = if r.Replaces id then some r.fact_id else first_successor records id := by
  by_cases replaces : r.Replaces id <;> simp [first_successor, replaces]

/-- Closing a transition changes one version at most: it sets a missing pointer to the successor. -/
theorem get?_close_transition {state : Dict FactId Fact} (ids : ∀ id f, state.get? id = some f → f.fact_id = id)
    (r : Fact) (id : FactId) : (close_transition state r).get? id = (state.get? id).map fun f =>
      { f with superseded_by := f.superseded_by <|> if r.Replaces id then some r.fact_id else none } := by
  by_cases replaces : r.Replaces id
  · obtain ⟨accepted, edge, named⟩ := replaces
    cases found : state.get? id with
    | none => simp [close_transition, accepted, edge, named, found]
    | some f =>
      have same := ids id f found
      cases pointer : f.superseded_by with
      | none => simp [close_transition, Fact.Replaces, accepted, edge, named, found, pointer, same]
      | some s =>
        have unchanged : close_transition state r = state := by
          simp [close_transition, accepted, edge, named, found, pointer]
        rw [unchanged, found]
        cases f
        cases pointer
        rfl
  · have kept : (close_transition state r).get? id = state.get? id := by
      unfold close_transition
      split
      · rfl
      rename_i accepted
      split
      · rfl
      rename_i k edge
      split
      · rfl
      rename_i named
      split
      · rfl
      rename_i p found
      have elsewhere : id ≠ p.fact_id := by
        rintro rfl
        exact replaces ⟨by simpa using accepted, by rw [edge, ids k p found], by rwa [ids k p found]⟩
      split
      · exact Dict.get?_insert_ne _ elsewhere _
      · rfl
    rw [kept]
    cases state.get? id <;> simp [replaces]

theorem close_transition_ids {state : Dict FactId Fact} (ids : ∀ id f, state.get? id = some f → f.fact_id = id)
    (r : Fact) {id : FactId} {f : Fact} (h : (close_transition state r).get? id = some f) : f.fact_id = id := by
  unfold close_transition at h
  split at h
  · exact ids _ _ h
  split at h
  · exact ids _ _ h
  split at h
  · exact ids _ _ h
  split at h
  · exact ids _ _ h
  split at h
  · rw [Dict.get?_insert] at h
    split at h
    · next same => rw [same, ← Option.some.inj h]
    · exact ids _ _ h
  · exact ids _ _ h

theorem get?_close_transitions {state : Dict FactId Fact} (ids : ∀ id f, state.get? id = some f → f.fact_id = id)
    (records : List Fact) (id : FactId) : (records.foldl close_transition state).get? id =
      (state.get? id).map fun f => { f with superseded_by := f.superseded_by <|> first_successor records id } := by
  induction records generalizing state with
  | nil => cases h : state.get? id <;> simp [first_successor, h]
  | cons r rest ih =>
    rw [List.foldl_cons, ih fun id f h => close_transition_ids ids r h, get?_close_transition ids]
    cases state.get? id with
    | none => rfl
    | some f => rw [first_successor_cons]; cases f.superseded_by <;> split <;> simp

/-- The folded record of a version: its last record, with the first accepted successor where it has no pointer. -/
theorem get?_fold (records : List Fact) (id : FactId) : (fold records).get? id = ((latest records).get? id).map fun f =>
    { f with superseded_by := f.superseded_by <|> first_successor records id } :=
  get?_close_transitions (fun _ _ => fact_id_of_latest) records id

/-- The last record of a version has what its folded record has, but for the pointer to its successor. -/
theorem latest_of_get (h : FactStore.get records id = some f) : ∃ g ∈ records, (latest records).get? id = some g ∧
    g.fact_id = f.fact_id ∧ f.fact_id = id ∧ g.review_status = f.review_status ∧ g.supersedes = f.supersedes := by
  rw [FactStore.get, get?_fold] at h
  obtain ⟨g, last, rfl⟩ := Option.map_eq_some_iff.mp h
  exact ⟨g, mem_of_latest last, last, rfl, (fact_id_of_latest last : g.fact_id = id), rfl, rfl⟩

/-- A version with no successor was replaced by no record. -/
theorem not_replaced (h : FactStore.get records id = some f) (current : f.superseded_by = none) : ∀ r ∈ records, ¬r.Replaces id := by
  rw [FactStore.get, get?_fold] at h
  obtain ⟨g, -, rfl⟩ := Option.map_eq_some_iff.mp h
  simp only [Option.orElse_eq_orElse, Option.orElse_eq_or, Option.or_eq_none_iff] at current
  exact first_successor_eq_none.mp current.2

end

/-! ### Appends that keep lineages -/

/-- The version is accepted, or supersedes nothing. -/
def Fact.Settled (f : Fact) : Prop := f.review_status = .accepted ∨ f.supersedes = none

instance (f : Fact) : Decidable f.Settled := inferInstanceAs (Decidable (_ ∨ _))

/-- The ids of the log name versions; what an accepted record supersedes is settled, and superseded by it alone. -/
structure Sound (records : List Fact) : Prop where
  named : ∀ r ∈ records, r.fact_id ≠ "" ∧ r.supersedes ≠ some ""
  settled : ∀ r ∈ records, ∀ id, r.Replaces id → ∃ f, (latest records).get? id = some f ∧ f.Settled
  unique : ∀ r ∈ records, ∀ r' ∈ records, ∀ id, r.Replaces id → r'.Replaces id → r.fact_id = r'.fact_id

/-- A record that may follow the log: a replaced version stays settled, and an accepted one supersedes a settled
    version that no other accepted one superseded. -/
structure Fits (records : List Fact) (r : Fact) : Prop where
  named : r.fact_id ≠ "" ∧ r.supersedes ≠ some ""
  settled : r.Settled ∨ ∀ s ∈ records, ¬s.Replaces r.fact_id
  grounded : ∀ id, r.Replaces id → ∃ f, (latest records).get? id = some f ∧ f.Settled
  unique : ∀ id, r.Replaces id → ∀ s ∈ records, s.Replaces id → s.fact_id = r.fact_id

section
variable {records : List Fact} {r f : Fact} {id : FactId}

theorem Sound.nil : Sound [] := ⟨nofun, nofun, nofun⟩

theorem Sound.append (sound : Sound records) (fits : Fits records r) : Sound (records ++ [r]) := by
  -- a version stays settled: the new record is, or no accepted record supersedes its version
  have kept : ∀ s ∈ records ++ [r], ∀ id, s.Replaces id → (∃ f, (latest records).get? id = some f ∧ f.Settled) →
      ∃ f, (latest (records ++ [r])).get? id = some f ∧ f.Settled := by
    rintro s mem id replaces ⟨f, last, settled⟩
    rw [latest_append, Dict.get?_insert]
    split
    · next same =>
      subst same
      refine ⟨r, rfl, ?_⟩
      rcases fits.settled with done | none
      · exact done
      · rcases List.mem_append.mp mem with old | new
        · exact absurd replaces (none s old)
        · rw [List.mem_singleton.mp new] at replaces
          exact .inl replaces.1
    · exact ⟨f, last, settled⟩
  refine ⟨?_, ?_, ?_⟩
  · intro s mem
    rcases List.mem_append.mp mem with old | new
    · exact sound.named s old
    · exact List.mem_singleton.mp new ▸ fits.named
  · intro s mem id replaces
    refine kept s mem id replaces ?_
    rcases List.mem_append.mp mem with old | new
    · exact sound.settled s old id replaces
    · rw [List.mem_singleton.mp new] at replaces
      exact fits.grounded id replaces
  · intro s mem s' mem' id replaces replaces'
    rcases List.mem_append.mp mem with old | new <;> rcases List.mem_append.mp mem' with old' | new'
    · exact sound.unique s old s' old' id replaces replaces'
    · rw [List.mem_singleton.mp new'] at replaces' ⊢
      exact fits.unique id replaces' s old replaces
    · rw [List.mem_singleton.mp new] at replaces ⊢
      exact (fits.unique id replaces s' old' replaces').symm
    · rw [List.mem_singleton.mp new, List.mem_singleton.mp new']

/-- A settled version may be appended again, with the same edge and the same review. -/
theorem Fits.reemit (sound : Sound records) (mem : f ∈ records) (settled : r.Settled) (same : r.fact_id = f.fact_id)
    (status : r.review_status = f.review_status) (edge : r.supersedes = f.supersedes) : Fits records r := by
  have replaces : ∀ id, r.Replaces id → f.Replaces id := fun id h => ⟨status ▸ h.1, edge ▸ h.2.1, h.2.2⟩
  refine ⟨?_, .inl settled, fun id h => sound.settled f mem id (replaces id h), fun id h s old other => ?_⟩
  · rw [same, edge]
    exact sound.named f mem
  · rw [same]
    exact sound.unique s old f mem id other (replaces id h)

theorem Fits.first (named : r.fact_id ≠ "") (edge : r.supersedes = none) : Fits records r := by
  have none : ∀ id, ¬r.Replaces id := fun id h => by rw [Fact.Replaces, edge] at h; exact nomatch h.2.1
  exact ⟨⟨named, by simp [edge]⟩, .inl (.inr edge), fun id h => absurd h (none id), fun id h => absurd h (none id)⟩

end

/-! ### The calls -/

section
variable {sha256 : String → String} {records : List Fact} {f : Fact}

theorem new_fact_spec {statement : String} {provenance : List Provenance} {confidence : Rat} {version : Nat}
    {supersedes : Option FactId} {status : FactReviewStatus}
    (h : FactStore.new_fact sha256 statement provenance confidence version supersedes status = .ok f) :
    f.fact_id ≠ "" ∧ f.supersedes = supersedes ∧ f.review_status = status := by
  unfold FactStore.new_fact at h
  split at h
  · cases h
    refine ⟨fun empty => ?_, rfl, rfl⟩
    have := congrArg String.length empty
    simp [FactStore.fact_id] at this
  · cases h

/-- A predecessor that may be revised, as the log has it. -/
theorem current_predecessor_spec {id : FactId} (h : FactStore.current_predecessor records id = .ok f) :
    FactStore.get records id = some f ∧ f.superseded_by = none := by
  unfold FactStore.current_predecessor at h
  split at h
  · cases h
  · next found =>
    split at h
    · cases h
    · next current => cases h; exact ⟨found, current⟩

/-- What an accepted version with this predecessor must be to fit. -/
theorem Fits.successor (sound : Sound records) {predecessor : Fact} {r : Fact} {id : FactId}
    (found : FactStore.get records id = some predecessor) (current : predecessor.superseded_by = none)
    (settled : predecessor.Settled) (named : r.fact_id ≠ "") (edge : r.supersedes = some predecessor.fact_id)
    (accepted : r.review_status = .accepted) : Fits records r := by
  obtain ⟨g, mem, last, same, here, status, before⟩ := latest_of_get found
  have g_settled : g.Settled := by rwa [Fact.Settled, status, before]
  have target : ∀ k, r.Replaces k → k = id := fun k h => by
    have := h.2.1
    rw [edge, here] at this
    exact (Option.some.inj this).symm
  refine ⟨⟨named, ?_⟩, .inl (.inl accepted), fun k h => ?_, fun k h s old other => ?_⟩
  · rw [edge, ← same]
    simpa using (sound.named g mem).1
  · exact ⟨g, target k h ▸ last, g_settled⟩
  · exact absurd (target k h ▸ other) (not_replaced found current s old)

/-- The re-emission of a settled predecessor fits, whatever was appended in between. -/
theorem Fits.retired {predecessor : Fact} {r : Fact} {id successor : FactId} (sound : Sound (records ++ [r]))
    (found : FactStore.get records id = some predecessor) (settled : predecessor.Settled) :
    Fits (records ++ [r]) { predecessor with superseded_by := some successor } := by
  obtain ⟨g, mem, -, same, -, status, before⟩ := latest_of_get found
  exact .reemit sound (List.mem_append_left _ mem) settled same.symm status.symm before.symm

theorem add_fact_fits (statement : String) (provenance : List Provenance) (confidence : Rat) :
    wp Fits (FactStore.add_fact sha256 statement provenance confidence) (fun _ _ => True) records := by
  simp only [FactStore.add_fact, wp_bind, wp_lift]
  split
  · next fact new =>
    obtain ⟨named, edge, -⟩ := new_fact_spec new
    simpa using Fits.first named edge
  · trivial

theorem append_candidate_fits (sound : Sound records) (named : f.fact_id ≠ "") (target : f.supersedes ≠ some "")
    (pending : f.review_status = .pending) :
    wp Fits (FactStore.append_candidate records f) (fun _ _ => True) records := by
  have idle : ∀ id, ¬f.Replaces id := fun id h => by rw [Fact.Replaces, pending] at h; exact nomatch h.1
  simp only [FactStore.append_candidate, wp_ite, wp_throw, wp_bind, wp_write, wp_pure, implies_true, true_and, and_true]
  intro fresh
  refine ⟨⟨named, target⟩, .inr fun s mem replaces => fresh ?_, fun id h => absurd h (idle id), fun id h => absurd h (idle id)⟩
  obtain ⟨g, last, -⟩ := sound.settled s mem _ replaces
  rw [FactStore.get, get?_fold, last]
  rfl

theorem propose_fact_fits (sound : Sound records) (statement : String) (provenance : List Provenance) (confidence : Rat) :
    wp Fits (FactStore.propose_fact sha256 statement provenance confidence) (fun _ _ => True) records := by
  simp only [FactStore.propose_fact, wp_bind, wp_lift, wp_read]
  split
  · next fact new =>
    obtain ⟨named, edge, pending⟩ := new_fact_spec new
    exact append_candidate_fits sound named (by simp [edge]) pending
  · trivial

theorem propose_revision_fits (sound : Sound records) (predecessor_id : FactId) (statement : String)
    (provenance : List Provenance) (confidence : Rat) :
    wp Fits (FactStore.propose_revision sha256 predecessor_id statement provenance confidence) (fun _ _ => True)
      records := by
  simp only [FactStore.propose_revision, wp_bind, wp_lift, wp_read]
  split
  · next predecessor checked =>
    split
    · next candidate new =>
      obtain ⟨named, edge, pending⟩ := new_fact_spec new
      obtain ⟨g, mem, -, same, -⟩ := latest_of_get (current_predecessor_spec checked).1
      refine append_candidate_fits sound named ?_ pending
      rw [edge, ← same]
      simpa using (sound.named g mem).1
    · trivial
  · trivial

/-- A revision of a settled predecessor keeps lineages. -/
theorem revise_fact_fits (sound : Sound records) {predecessor_id : FactId}
    (settled : ∀ p, FactStore.get records predecessor_id = some p → p.Settled) (statement : String)
    (provenance : List Provenance) (confidence : Rat) :
    wp Fits (FactStore.revise_fact sha256 predecessor_id statement provenance confidence) (fun _ _ => True) records := by
  simp only [FactStore.revise_fact, wp_bind, wp_lift, wp_read]
  split
  · next predecessor checked =>
    obtain ⟨found, current⟩ := current_predecessor_spec checked
    split
    · next successor new =>
      obtain ⟨named, edge, accepted⟩ := new_fact_spec new
      have fits := Fits.successor sound found current (settled _ found) named edge accepted
      simp only [wp_write, wp_pure, and_true]
      exact ⟨fits, .retired (sound.append fits) found (settled _ found)⟩
    · trivial
  · trivial

theorem review_checks_spec {corpus : Corpus} {id : FactId} {action : FactReviewAction} {reviewer reviewed_at : String}
    {predecessor : Option Fact}
    (h : FactStore.review_checks corpus records id action reviewer reviewed_at = .ok (f, predecessor)) :
    FactStore.get records id = some f ∧ f.review_status = .pending ∧
      FactStore.retired_predecessor records f action = .ok predecessor := by
  unfold FactStore.review_checks at h
  split at h
  · cases h
  next fact found =>
    split at h
    · cases h
    next pending =>
      split at h
      · cases h
      obtain ⟨problems, -, h⟩ := bind_ok h
      split at h
      · cases h
      obtain ⟨retired, checked, ends⟩ := bind_ok h
      cases ends
      exact ⟨found, by simpa using pending, checked⟩

theorem retired_predecessor_spec {action : FactReviewAction} {predecessor : Option Fact}
    (h : FactStore.retired_predecessor records f action = .ok predecessor) :
    (action = .reject ∧ predecessor = none) ∨ (action = .accept ∧ f.supersedes = none ∧ predecessor = none) ∨
      ∃ id p, action = .accept ∧ f.supersedes = some id ∧ FactStore.get records id = some p ∧ p.superseded_by = none ∧
        predecessor = some p := by
  unfold FactStore.retired_predecessor at h
  split at h
  · cases h; exact .inl ⟨rfl, rfl⟩
  · next edge => cases h; exact .inr (.inl ⟨rfl, edge, rfl⟩)
  · next id edge =>
    split at h
    · cases h
    · next p found =>
      split at h
      · cases h
      · next current => cases h; exact .inr (.inr ⟨id, p, rfl, edge, found, current, rfl⟩)

/-- A rejected candidate fits: nothing accepted supersedes a candidate that supersedes something. -/
theorem Fits.rejected (sound : Sound records) {id : FactId} {r : Fact} (found : FactStore.get records id = some f)
    (pending : f.review_status = .pending) (same : r.fact_id = f.fact_id) (edge : r.supersedes = f.supersedes)
    (rejected : r.review_status = .rejected) : Fits records r := by
  obtain ⟨g, mem, last, here, id_eq, status, before⟩ := latest_of_get found
  have idle : ∀ id, ¬r.Replaces id := fun id h => by rw [Fact.Replaces, rejected] at h; exact nomatch h.1
  refine ⟨?_, ?_, fun id h => absurd h (idle id), fun id h => absurd h (idle id)⟩
  · rw [same, edge, ← here, ← before]
    exact sound.named g mem
  · by_cases first : r.supersedes = none
    · exact .inl (.inr first)
    · refine .inr fun s old replaces => ?_
      rw [same, id_eq] at replaces
      obtain ⟨g', last', settled⟩ := sound.settled s old id replaces
      cases last.symm.trans last'
      rcases settled with accepted | none
      · rw [status, pending] at accepted
        cases accepted
      · exact first (edge.trans (before.symm.trans none))

/-- A review keeps lineages, where an accepted candidate has a settled predecessor. -/
theorem review_fact_fits (sound : Sound records) (corpus : Corpus) {id : FactId} (action : FactReviewAction)
    (settled : action = .accept → ∀ f, FactStore.get records id = some f → ∀ before, f.supersedes = some before →
      ∀ p, FactStore.get records before = some p → p.Settled)
    (reviewer reviewed_at : String) (note : Option String) :
    wp Fits (FactStore.review_fact corpus id action reviewer reviewed_at note) (fun _ _ => True) records := by
  simp only [FactStore.review_fact, wp_bind, wp_lift, wp_read]
  split
  swap
  · trivial
  next checked passed =>
    obtain ⟨found, pending, retired⟩ := review_checks_spec passed
    obtain ⟨g, mem, -, same, -⟩ := latest_of_get found
    have named : checked.1.fact_id ≠ "" := same ▸ (sound.named g mem).1
    simp only [wp_write]
    rcases retired_predecessor_spec retired with ⟨rfl, none⟩ | ⟨rfl, first, none⟩ | ⟨before, p, rfl, edge, at_p, current, some⟩
    · rw [none]
      exact ⟨.rejected sound found pending rfl rfl rfl, (wp_pure _).mpr trivial⟩
    · rw [none]
      exact ⟨.first named first, (wp_pure _).mpr trivial⟩
    · rw [some]
      have p_settled := settled rfl _ found _ edge _ at_p
      obtain ⟨-, -, -, -, here, -⟩ := latest_of_get at_p
      have fits := Fits.successor (r := { checked.1 with
          review_status := .accepted, reviewed_by := reviewer, reviewed_at := reviewed_at, review_note := note })
        sound at_p current p_settled named (here ▸ edge) rfl
      simp only [wp_bind, wp_write, wp_pure, and_true]
      exact ⟨fits, .retired (sound.append fits) at_p p_settled⟩

/-- The call makes an accepted version only where the version it supersedes is accepted, or supersedes nothing. -/
def FactOp.Settles (records : List Fact) : FactOp → Prop
  | .revise_fact predecessor_id .. => ∀ p ∈ FactStore.get records predecessor_id, p.Settled
  | .review_fact _ fact_id .accept .. => ∀ f ∈ FactStore.get records fact_id, ∀ before ∈ f.supersedes,
    ∀ p ∈ FactStore.get records before, p.Settled
  | _ => True

instance (records : List Fact) : (op : FactOp) → Decidable (op.Settles records)
  | .revise_fact .. => inferInstanceAs (Decidable (∀ _ ∈ _, _))
  | .review_fact _ _ .accept .. => inferInstanceAs (Decidable (∀ _ ∈ _, _))
  | .add_fact .. | .propose_fact .. | .propose_revision .. | .review_fact _ _ .reject .. => inferInstanceAs (Decidable True)

theorem FactOp.fits (sound : Sound records) {op : FactOp} (settles : op.Settles records) :
    wp Fits (op.run sha256) (fun _ _ => True) records := by
  cases op with
  | add_fact statement provenance confidence => exact add_fact_fits statement provenance confidence
  | propose_fact statement provenance confidence => exact propose_fact_fits sound statement provenance confidence
  | propose_revision before statement provenance confidence =>
    exact propose_revision_fits sound before statement provenance confidence
  | review_fact corpus id action reviewer reviewed_at note =>
    exact review_fact_fits sound corpus action (by rintro rfl; exact settles) reviewer reviewed_at note
  | revise_fact before statement provenance confidence =>
    exact revise_fact_fits sound settles statement provenance confidence

/-- A call keeps the log sound, wherever it dies. -/
theorem FactStep.sound {op : FactOp} {records' : List Fact} (step : FactStep sha256 records op records')
    (settles : op.Settles records) (sound : Sound records) : Sound records' :=
  (FactOp.fits sound settles).crash (fun _ _ sound fits => sound.append fits) sound step

end

/-! ### Lineages -/

/-- One version supersedes another, as the folded log has it. -/
def Supersedes (records : List Fact) (id before : FactId) : Prop :=
  ∃ f, FactStore.get records id = some f ∧ f.supersedes = some before

/-- An accepted version supersedes another. -/
def Retires (records : List Fact) (id before : FactId) : Prop :=
  ∃ f, FactStore.get records id = some f ∧ f.review_status = .accepted ∧ f.supersedes = some before

section
variable {records : List Fact} {f x y : Fact} {id before : FactId}

open Relation

theorem get_run_visible_iff : f ∈ FactStore.get_run_visible records ↔
    FactStore.get records f.fact_id = some f ∧ f.superseded_by = none ∧ f.review_status = .accepted := by
  have folded : f ∈ FactStore.all_folded records ↔ FactStore.get records f.fact_id = some f := by
    rw [FactStore.all_folded, Dict.mem_values]
    constructor
    · rintro ⟨k, h⟩
      obtain ⟨-, -, -, -, here, -⟩ := latest_of_get h
      rwa [here]
    · exact fun h => ⟨_, h⟩
  simp [FactStore.get_run_visible, FactStore.get_current, folded, and_comm]

/-- An accepted version is the only one that retires its predecessor, which is settled and has a successor. -/
theorem Retires.spec (sound : Sound records) (h : Retires records id before) :
    (∃ p, FactStore.get records before = some p ∧ p.superseded_by ≠ none ∧ p.Settled) ∧
      ∀ other, Retires records other before → other = id := by
  obtain ⟨f, found, accepted, edge⟩ := h
  obtain ⟨g, mem, last, same, here, status, back⟩ := latest_of_get found
  have named : before ≠ "" := by
    rintro rfl
    exact (sound.named g mem).2 (back.trans edge)
  have replaces : g.Replaces before := ⟨status.trans accepted, back.trans edge, named⟩
  refine ⟨?_, ?_⟩
  · obtain ⟨p, last_p, settled⟩ := sound.settled g mem before replaces
    have found_p := get?_fold records before
    rw [last_p, Option.map_some] at found_p
    refine ⟨_, found_p, ?_, settled⟩
    intro current
    exact not_replaced found_p current g mem replaces
  · rintro other ⟨f', found', accepted', edge'⟩
    obtain ⟨g', mem', -, same', here', status', back'⟩ := latest_of_get found'
    have := sound.unique g' mem' g mem before ⟨status'.trans accepted', back'.trans edge', named⟩ replaces
    rw [← here, ← here', ← same, ← same', this]

/-- Below an accepted version of a sound log every edge is an accepted one. -/
theorem Supersedes.retires (sound : Sound records) {top : FactId}
    (accepted : ∃ f, FactStore.get records top = some f ∧ f.review_status = .accepted)
    (path : ReflTransGen (Retires records) top id) (edge : Supersedes records id before) : Retires records id before := by
  have settled : ∃ f, FactStore.get records id = some f ∧ f.Settled := by
    rcases path.cases_tail with rfl | ⟨_, -, last⟩
    · obtain ⟨f, found, accepted⟩ := accepted
      exact ⟨f, found, .inl accepted⟩
    · obtain ⟨⟨p, found, -, settled⟩, -⟩ := last.spec sound
      exact ⟨p, found, settled⟩
  obtain ⟨f, found, back⟩ := edge
  obtain ⟨f', found', accepted | first⟩ := settled
  · cases found.symm.trans found'
    exact ⟨f, found, accepted, back⟩
  · cases found.symm.trans found'
    rw [first] at back
    cases back

theorem retires_of_supersedes (sound : Sound records) {top bottom : FactId}
    (accepted : ∃ f, FactStore.get records top = some f ∧ f.review_status = .accepted)
    (path : ReflTransGen (Supersedes records) top bottom) : ReflTransGen (Retires records) top bottom := by
  induction path with
  | refl => exact .refl
  | tail _ edge ih => exact ih.tail (edge.retires sound accepted ih)

/-- Two versions of one lineage have a version in common that both come from. -/
theorem common_ancestor {a b : FactId} (h : EqvGen (Supersedes records) a b) :
    ∃ c, ReflTransGen (Supersedes records) a c ∧ ReflTransGen (Supersedes records) b c := by
  have functional : ∀ a b c, Supersedes records a b → Supersedes records a c →
      ∃ d, ReflGen (Supersedes records) b d ∧ ReflTransGen (Supersedes records) c d := by
    rintro a b c ⟨f, found, edge⟩ ⟨f', found', edge'⟩
    cases found.symm.trans found'
    cases edge.symm.trans edge'
    exact ⟨b, .refl, .refl⟩
  have equivalence := equivalence_join_reflTransGen functional
  exact equivalence.eqvGen_iff.mp (h.mono fun a b edge => ⟨b, .single edge, .refl⟩)

/-- Below an accepted version of a sound log every version has a successor. -/
theorem superseded_below (sound : Sound records) {top bottom : FactId} (path : TransGen (Retires records) top bottom) :
    ∃ p, FactStore.get records bottom = some p ∧ p.superseded_by ≠ none := by
  obtain ⟨id, -, last⟩ := TransGen.tail'_iff.mp path
  obtain ⟨⟨p, found, retired, -⟩, -⟩ := last.spec sound
  exact ⟨p, found, retired⟩

/-- No visible version of a sound log is below an accepted one. -/
theorem not_below_of_visible (sound : Sound records) (hx : x ∈ FactStore.get_run_visible records) :
    ¬TransGen (Retires records) id x.fact_id := by
  intro path
  obtain ⟨found, current, -⟩ := get_run_visible_iff.mp hx
  obtain ⟨p, found', retired⟩ := superseded_below sound path
  cases found.symm.trans found'
  exact retired current

/-- Visible versions of one lineage of a sound log are the same. -/
theorem visible_unique (sound : Sound records) (hx : x ∈ FactStore.get_run_visible records)
    (hy : y ∈ FactStore.get_run_visible records) (lineage : EqvGen (Supersedes records) x.fact_id y.fact_id) : x = y := by
  obtain ⟨found_x, -, accepted_x⟩ := get_run_visible_iff.mp hx
  obtain ⟨found_y, -, accepted_y⟩ := get_run_visible_iff.mp hy
  obtain ⟨c, from_x, from_y⟩ := common_ancestor lineage
  have down_x := reflTransGen_swap.mpr (retires_of_supersedes sound ⟨x, found_x, accepted_x⟩ from_x)
  have down_y := reflTransGen_swap.mpr (retires_of_supersedes sound ⟨y, found_y, accepted_y⟩ from_y)
  -- upwards from the common ancestor there is one accepted successor at most
  have upwards : Relator.RightUnique (Function.swap (Retires records)) := fun a b c hb hc => (hc.spec sound).2 b hb
  have same : x.fact_id = y.fact_id := by
    rcases ReflTransGen.total_of_right_unique upwards down_x down_y with up | up
    · rcases reflTransGen_iff_eq_or_transGen.mp (reflTransGen_swap.mp up) with same | below
      · exact same
      · exact absurd below (not_below_of_visible sound hx)
    · rcases reflTransGen_iff_eq_or_transGen.mp (reflTransGen_swap.mp up) with same | below
      · exact same.symm
      · exact absurd below (not_below_of_visible sound hy)
  rw [same] at found_x
  exact Option.some.inj (found_x.symm.trans found_y)

/-- No visible version of a sound log supersedes a visible one. -/
theorem visible_not_superseded (sound : Sound records) (hx : x ∈ FactStore.get_run_visible records)
    (hy : y ∈ FactStore.get_run_visible records) : ¬TransGen (Supersedes records) x.fact_id y.fact_id := by
  intro path
  obtain ⟨found, -, accepted⟩ := get_run_visible_iff.mp hx
  obtain ⟨id, above, edge⟩ := TransGen.tail'_iff.mp path
  have above := retires_of_supersedes sound ⟨x, found, accepted⟩ above
  exact not_below_of_visible sound hy (.tail' above (edge.retires sound ⟨x, found, accepted⟩ above))

end

/-- Along every sequence of calls, completed, refused or dying between two appends, in which an accepted version is made
    only over a version that is accepted or supersedes nothing, no visible version supersedes a visible one, and the
    visible versions of one lineage are the same. -/
theorem one_visible_version {sha256 : String → String} {ops : List FactOp} {records : List Fact}
    (run : Run (Meeting (FactStep sha256) fun records op _ => op.Settles records) [] ops records) {x y : Fact}
    (hx : x ∈ FactStore.get_run_visible records) (hy : y ∈ FactStore.get_run_visible records) :
    ¬Relation.TransGen (Supersedes records) x.fact_id y.fact_id ∧
      (Relation.EqvGen (Supersedes records) x.fact_id y.fact_id → x = y) := by
  have sound := run.invariant (I := Sound) (fun _ _ _ sound next => next.1.sound next.2 sound) .nil
  exact ⟨visible_not_superseded sound hx hy, visible_unique sound hx hy⟩

end Facts

namespace Sample
open Facts Durable Transition

/-- The digests of the versions below. -/
def ledger_sha256 (content : String) : String :=
  if content = "The fence was installed in 2003.\x001\x00" then
    "0c79603c29366f3538bc77dd844ed10430bb23d22f2f5bacc71661551fe0bf60"
  else if content = "The fence was installed in 2004.\x002\x00" then
    "e244f262a838981d94325b314d149d6f6dad61b3baa0e38e7c35258e81517bb8"
  else if content = "The fence was installed in 2005.\x003\x00" then
    "571cb9c14e8fa1190f186181e76db48bce88e2ea67752581970fdb7fb6a4f9e0"
  else "123bfa28e1f63fda1df2de56bcd1e2e9ddba98235f70b21d53239bd529003bcd"

/-- The ledger after a call that died when `n` of its appends were done. -/
def cut (records : List Facts.Fact) (op : FactOp) (n : Nat) : List Facts.Fact :=
  commits records ((op.run ledger_sha256 records).1.take n)

theorem cut_step (records : List Facts.Fact) (op : FactOp) (n : Nat) : FactStep ledger_sha256 records op (cut records op n) :=
  ⟨_, List.take_prefix _ _, rfl⟩

def fence_2003 : FactOp := .add_fact "The fence was installed in 2003." [] 1
def fence_2004 : FactOp := .revise_fact "fact-0c79603c29366f35" "The fence was installed in 2004." [] 1
def gate_locked : FactOp := .add_fact "The gate was locked." [] 1

/-- A revision that dies between its two appends, with another fact beside it. -/
def half_revised : List Facts.Fact := cut (cut (cut [] gate_locked 1) fence_2003 1) fence_2004 1

def fence_2004_proposed : FactOp := .propose_revision "fact-0c79603c29366f35" "The fence was installed in 2004." [] 1
def fence_2005 : FactOp := .revise_fact "fact-e244f262a838981d" "The fence was installed in 2005." [] 1

/-- A revision of a pending revision. -/
def twice_revised : List Facts.Fact := cut (cut (cut [] fence_2003 1) fence_2004_proposed 1) fence_2005 2

theorem visible_versions :
    (∃ x ∈ FactStore.get_run_visible half_revised, ∃ y ∈ FactStore.get_run_visible half_revised,
      x.fact_id = "fact-e244f262a838981d" ∧ y.fact_id = "fact-123bfa28e1f63fda") ∧
    fence_2004.Settles (cut (cut [] gate_locked 1) fence_2003 1) ∧
    (∃ x ∈ FactStore.get_run_visible twice_revised, ∃ y ∈ FactStore.get_run_visible twice_revised,
      x.fact_id = "fact-571cb9c14e8fa119" ∧ y.fact_id = "fact-0c79603c29366f35") ∧
    ((FactStore.get twice_revised "fact-571cb9c14e8fa119").bind (·.supersedes) = some "fact-e244f262a838981d") ∧
    ((FactStore.get twice_revised "fact-e244f262a838981d").bind (·.supersedes) = some "fact-0c79603c29366f35") := by
  decide +kernel

theorem half_revised_one_version : ∃ x ∈ FactStore.get_run_visible half_revised, ∃ y ∈ FactStore.get_run_visible half_revised,
    ¬Relation.TransGen (Supersedes half_revised) x.fact_id y.fact_id ∧
      (Relation.EqvGen (Supersedes half_revised) x.fact_id y.fact_id → x = y) := by
  obtain ⟨⟨x, hx, y, hy, -⟩, settles, -⟩ := visible_versions
  have run : Run (Meeting (FactStep ledger_sha256) fun records op _ => op.Settles records) []
      ([gate_locked] ++ [fence_2003] ++ [fence_2004]) half_revised :=
    ((Run.one ⟨cut_step [] gate_locked 1, trivial⟩).snoc ⟨cut_step _ fence_2003 1, trivial⟩).snoc
      ⟨cut_step _ fence_2004 1, settles⟩
  exact ⟨x, hx, y, hy, one_visible_version run hx hy⟩

/-- The first version and the third are both visible. -/
theorem revised_proposal_leaves_two : ¬∀ ops records, Run (FactStep ledger_sha256) [] ops records →
    ∀ x ∈ FactStore.get_run_visible records, ∀ y ∈ FactStore.get_run_visible records,
      ¬Relation.TransGen (Supersedes records) x.fact_id y.fact_id := by
  intro claimed
  have run : Run (FactStep ledger_sha256) [] ([fence_2003] ++ [fence_2004_proposed] ++ [fence_2005]) twice_revised :=
    ((Run.one (cut_step [] fence_2003 1)).snoc (cut_step _ fence_2004_proposed 1)).snoc (cut_step _ fence_2005 2)
  obtain ⟨-, -, ⟨x, hx, y, hy, top, bottom⟩, edges⟩ := visible_versions
  refine claimed _ _ run x hx y hy ?_
  rw [top, bottom]
  have edge : ∀ {id before}, (FactStore.get twice_revised id).bind (·.supersedes) = some before →
      Supersedes twice_revised id before := fun h => Option.bind_eq_some_iff.mp h
  exact .tail (.single (edge edges.1)) (edge edges.2)

end Sample

end MootLoop
