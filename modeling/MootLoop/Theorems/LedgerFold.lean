import MootLoop.LedgerFold
import Mathlib.Data.List.Induction

/-! When the fold of the verification ledger returns, and that what it returns is the last record of each citation,
    pending exactly if it has expired. -/

namespace MootLoop.LedgerFold

variable {fromisoformat : String → Option DateTime} {records : List VerificationRecord} {now : DateTime} {days : Int}

/-! ### The last record of a citation -/

theorem latest_records_get? (records : List VerificationRecord) (citation_id : CitationId) :
    (latest_records records).get? citation_id = last_record records citation_id := by
  induction records using List.reverseRecOn with
  | nil => rfl
  | append_singleton records record ih =>
    have step : latest_records (records ++ [record]) = (latest_records records).insert record.citation_id record := by
      rw [latest_records, List.foldl_append]
      rfl
    rw [step, Dict.get?_insert, ih, last_record, last_record, List.filter_append]
    by_cases same : citation_id = record.citation_id
    · subst same
      simp
    · have other : ¬record.citation_id = citation_id := fun h => same h.symm
      simp [same, other]

theorem mem_latest_records {entry : CitationId × VerificationRecord} :
    entry ∈ (latest_records records).entries ↔ last_record records entry.1 = some entry.2 := by
  rw [← latest_records_get?, Dict.get?_eq_some]

/-! ### One record -/

/-- The record is a verification whose age is defined and can be compared, or none whose age matters. -/
def Dated (fromisoformat : String → Option DateTime) (now : DateTime) (days : Int) (record : VerificationRecord) : Prop :=
  record.status = .verified → ∀ verified_at, fromisoformat record.verified_at = some verified_at →
    now.utcoffset.isSome = verified_at.utcoffset.isSome ∧ days.natAbs ≤ MAX_DAYS

theorem sub_of_age {a b : DateTime} {elapsed : Int} (aged : age a b = some elapsed) : a.sub b = .ok elapsed := by
  obtain ⟨clock, _ | i⟩ := a <;> obtain ⟨clock', _ | j⟩ := b <;> simp_all [DateTime.sub, age]

theorem age_of_sub {a b : DateTime} {elapsed : Int} (sub : a.sub b = .ok elapsed) :
    a.utcoffset.isSome = b.utcoffset.isSome := by
  obtain ⟨clock, _ | i⟩ := a <;> obtain ⟨clock', _ | j⟩ := b <;> first | rfl | cases sub

theorem dated_of_ok {record folded : VerificationRecord} (ok : fold_record fromisoformat now days record = .ok folded) :
    Dated fromisoformat now days record := by
  intro verified verified_at parsed
  rw [fold_record, if_pos verified] at ok
  obtain ⟨stale, decided, -⟩ := bind_ok ok
  simp only [is_stale, parsed] at decided
  obtain ⟨elapsed, subtracted, decided⟩ := bind_ok decided
  obtain ⟨limit, ranged, -⟩ := bind_ok decided
  refine ⟨age_of_sub subtracted, ?_⟩
  rw [timedelta] at ranged
  split at ranged
  · next within => exact within
  · cases ranged

theorem is_stale_dated {record : VerificationRecord} (dated : Dated fromisoformat now days record)
    (verified : record.status = .verified) :
    ∃ stale, is_stale fromisoformat record now days = .ok stale ∧ (stale = true ↔ Expired fromisoformat now days record) := by
  rw [is_stale]
  cases parsed : fromisoformat record.verified_at with
  | none =>
    refine ⟨true, rfl, fun _ => ⟨verified, fun verified_at some_parsed => ?_⟩, fun _ => rfl⟩
    rw [parsed] at some_parsed
    cases some_parsed
  | some verified_at =>
    obtain ⟨same, within⟩ := dated verified verified_at parsed
    have aged : ∃ elapsed, age now verified_at = some elapsed := ⟨_, if_pos same⟩
    obtain ⟨elapsed, aged⟩ := aged
    refine ⟨decide (elapsed > days * DAY), ?_, ?_⟩
    · simp only [sub_of_age aged, timedelta, if_pos within, bind, Except.bind]
      rfl
    · rw [decide_eq_true_iff]
      constructor
      · intro older
        refine ⟨verified, fun other some_parsed => ?_⟩
        rw [parsed] at some_parsed
        cases some_parsed
        exact ⟨elapsed, aged, older⟩
      · rintro ⟨-, expired⟩
        obtain ⟨elapsed', aged', older⟩ := expired verified_at parsed
        rw [aged] at aged'
        cases aged'
        exact older

/-- A dated record folds to itself, or to its stale copy exactly when it has expired. -/
theorem fold_record_dated {record : VerificationRecord} (dated : Dated fromisoformat now days record) :
    (Expired fromisoformat now days record → fold_record fromisoformat now days record = .ok (stale_copy record)) ∧
    (¬Expired fromisoformat now days record → fold_record fromisoformat now days record = .ok record) := by
  rw [fold_record]
  split
  · next verified =>
    obtain ⟨stale, decided, iff⟩ := is_stale_dated dated verified
    simp only [decided, bind, Except.bind]
    constructor
    · intro expired
      rw [if_pos (iff.mpr expired)]
      rfl
    · intro fresh
      rw [if_neg fun is_true => fresh (iff.mp is_true)]
      rfl
  · next other => exact ⟨fun expired => absurd expired.1 other, fun _ => rfl⟩

/-! ### The whole ledger -/

section
variable {κ α ε : Type} [DecidableEq κ] {f : α → Except ε α}

/-- Entries rewritten one by one into a dictionary: if none raises, each key has its rewritten value. -/
theorem foldlM_insert {entries : List (κ × α)} (nodup : (entries.map Prod.fst).Nodup) {start folded : Dict κ α}
    (ok : entries.foldlM (fun d entry => do return d.insert entry.1 (← f entry.2)) start = .ok folded) :
    (∀ entry ∈ entries, ∃ a, f entry.2 = .ok a ∧ folded.get? entry.1 = some a) ∧
    ∀ k, k ∉ entries.map Prod.fst → folded.get? k = start.get? k := by
  induction entries generalizing start with
  | nil =>
    cases ok
    exact ⟨fun _ mem => absurd mem List.not_mem_nil, fun _ _ => rfl⟩
  | cons entry rest ih =>
    rw [List.foldlM_cons] at ok
    obtain ⟨next, first, ok⟩ := bind_ok ok
    obtain ⟨a, rewritten, first⟩ := bind_ok first
    cases first
    obtain ⟨fresh, nodup⟩ := List.nodup_cons.mp nodup
    obtain ⟨each, kept⟩ := ih nodup ok
    refine ⟨List.forall_mem_cons.mpr ⟨⟨a, rewritten, ?_⟩, each⟩, fun k out => ?_⟩
    · rw [kept entry.1 fresh, Dict.get?_insert_self]
    · obtain ⟨other, later⟩ := not_or.mp (List.mem_cons.not.mp out)
      rw [kept k later, Dict.get?_insert, if_neg other]

theorem foldlM_insert_ok {entries : List (κ × α)} (each : ∀ entry ∈ entries, ∃ a, f entry.2 = .ok a) (start : Dict κ α) :
    ∃ folded, entries.foldlM (fun d entry => do return d.insert entry.1 (← f entry.2)) start = .ok folded := by
  induction entries generalizing start with
  | nil => exact ⟨start, rfl⟩
  | cons entry rest ih =>
    obtain ⟨⟨a, rewritten⟩, later⟩ := List.forall_mem_cons.mp each
    obtain ⟨folded, ok⟩ := ih later (start.insert entry.1 a)
    exact ⟨folded, by rw [List.foldlM_cons, rewritten]; exact ok⟩

end

theorem comparable_iff : Comparable fromisoformat records now days ↔
    ∀ entry ∈ (latest_records records).entries, Dated fromisoformat now days entry.2 := by
  constructor
  · intro comparable entry mem verified verified_at parsed
    exact comparable entry.1 entry.2 verified_at (mem_latest_records.mp mem) verified parsed
  · intro dated citation_id record verified_at last verified parsed
    exact dated (citation_id, record) (mem_latest_records.mpr last) verified verified_at parsed

/-- Whatever the fold returns is right. -/
theorem folds_right {folded : Dict CitationId VerificationRecord}
    (ok : fold_ledger fromisoformat records now days = .ok folded) : FoldsRight fromisoformat records now days folded := by
  obtain ⟨each, kept⟩ := foldlM_insert (latest_records records).nodup ok
  intro citation_id
  refine ⟨fun none_last => ?_, fun record last => ?_⟩
  · rw [kept citation_id]
    · rfl
    · intro mem
      obtain ⟨entry, listed, rfl⟩ := List.mem_map.mp mem
      rw [mem_latest_records.mp listed] at none_last
      cases none_last
  · obtain ⟨shown, rewritten, found⟩ := each (citation_id, record) (mem_latest_records.mpr last)
    obtain ⟨expires, stays⟩ := fold_record_dated (dated_of_ok rewritten)
    refine ⟨fun expired => ?_, fun fresh => ?_⟩
    · rw [expires expired] at rewritten
      cases rewritten
      exact found
    · rw [stays fresh] at rewritten
      cases rewritten
      exact found

/-- The fold returns, and returns what it is for, exactly when the timestamps of the last verifications are of the shape
    of `now`, aware or naive, and the maximum age is within the range of a `timedelta`. -/
theorem fold_ledger_total_iff : (∃ folded, fold_ledger fromisoformat records now days = .ok folded ∧
    FoldsRight fromisoformat records now days folded) ↔ Comparable fromisoformat records now days := by
  rw [comparable_iff]
  constructor
  · rintro ⟨folded, ok, -⟩ entry mem
    obtain ⟨shown, rewritten, -⟩ := (foldlM_insert (latest_records records).nodup ok).1 entry mem
    exact dated_of_ok rewritten
  · intro dated
    obtain ⟨folded, ok⟩ := foldlM_insert_ok (f := fold_record fromisoformat now days) (fun entry mem => by
      obtain ⟨expires, stays⟩ := fold_record_dated (dated entry mem)
      by_cases expired : Expired fromisoformat now days entry.2
      · exact ⟨_, expires expired⟩
      · exact ⟨_, stays expired⟩) ∅
    exact ⟨folded, ok, folds_right ok⟩

/-! ### A ledger of a naive date -/

/-- Reads one date without an offset and one with an offset. -/
def sample_format (text : String) : Option DateTime :=
  if text = "2026-01-05" then some ⟨63903168000000000, none⟩
  else if text = "2026-01-06T00:00:00+00:00" then some ⟨63903254400000000, some 0⟩ else none

def naive_record : VerificationRecord :=
  { citation_id := "c1", status := .verified, source := .courtlistener, verified_at := "2026-01-05" }

theorem naive_record_raises :
    ¬∀ records now days, ∃ folded, fold_ledger sample_format records now days = .ok folded ∧
      FoldsRight sample_format records now days folded := by
  intro total
  obtain ⟨folded, ok, -⟩ := total [naive_record] ⟨63903254400000000, some 0⟩ 30
  cases ok

end MootLoop.LedgerFold
