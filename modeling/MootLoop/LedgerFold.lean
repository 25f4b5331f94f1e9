import MootLoop.Citations

/-! The fold of the verification ledger over timestamps as they are written: with an offset from UTC or without one. -/

namespace MootLoop.LedgerFold

/-- The exceptions of the date arithmetic. -/
inductive Failure where
  | type (message : String)
  | overflow (message : String)
  deriving DecidableEq, Repr

/-- A `datetime`: its wall clock in microseconds, and its offset from UTC when it is aware. -/
structure DateTime where
  clock : Int
  utcoffset : Option Int
  deriving DecidableEq, Repr

/-- `a - b`. -/
def DateTime.sub (a b : DateTime) : Except Failure Int :=
  match a.utcoffset, b.utcoffset with
  | none, none => .ok (a.clock - b.clock)
  | some i, some j => .ok ((a.clock - i) - (b.clock - j))
  | _, _ => .error (.type "can't subtract offset-naive and offset-aware datetimes")

def DAY : Int := 86400000000
def MAX_DAYS : Nat := 999999999

/-- `timedelta(days=days)`. -/
def timedelta (days : Int) : Except Failure Int :=
  if days.natAbs ≤ MAX_DAYS then .ok (days * DAY)
  else .error (.overflow s!"days={days}; must have magnitude <= 999999999")

variable (fromisoformat : String → Option DateTime)

/-- `_is_stale`. -/
def is_stale (record : VerificationRecord) (now : DateTime) (max_cache_age_days : Int) : Except Failure Bool :=
  match fromisoformat record.verified_at with
  | none => .ok true
  | some verified_at => do return (← now.sub verified_at) > (← timedelta max_cache_age_days)

def STALE_REASON : String := "stale"

/-- The copy an expired record folds to. -/
def stale_copy (record : VerificationRecord) : VerificationRecord :=
  { record with status := .pending, notes := s!"{STALE_REASON}: verified_at exceeds max_cache_age; re-verify" }

/-- The record a citation folds to. -/
def fold_record (now : DateTime) (max_cache_age_days : Int) (record : VerificationRecord) :
    Except Failure VerificationRecord := do
  if record.status = .verified then
    if ← is_stale fromisoformat record now max_cache_age_days then return stale_copy record else return record
  else return record

/-- `fold_ledger`: the latest record of each citation, last write wins, with expired verifications pending. -/
def fold_ledger (records : List VerificationRecord) (now : DateTime) (max_cache_age_days : Int) :
    Except Failure (Dict CitationId VerificationRecord) :=
  (latest_records records).entries.foldlM (fun folded entry => do
    return folded.insert entry.1 (← fold_record fromisoformat now max_cache_age_days entry.2)) ∅

/-! ### What the fold is for -/

/-- The last record of a citation in the ledger. -/
def last_record (records : List VerificationRecord) (citation_id : CitationId) : Option VerificationRecord :=
  (records.filter (·.citation_id = citation_id)).getLast?

/-- The time from one `datetime` to another, when both are aware or both are naive. -/
def age (now verified_at : DateTime) : Option Int :=
  if now.utcoffset.isSome = verified_at.utcoffset.isSome then
    some ((now.clock - now.utcoffset.getD 0) - (verified_at.clock - verified_at.utcoffset.getD 0))
  else none

/-- A verification whose timestamp cannot be parsed, or whose age is more than so many days. -/
def Expired (now : DateTime) (max_cache_age_days : Int) (record : VerificationRecord) : Prop :=
  record.status = .verified ∧ ∀ verified_at, fromisoformat record.verified_at = some verified_at →
    ∃ elapsed, age now verified_at = some elapsed ∧ max_cache_age_days * DAY < elapsed

/-- Each citation has its last record, which is pending if it has expired. -/
def FoldsRight (records : List VerificationRecord) (now : DateTime) (max_cache_age_days : Int)
    (folded : Dict CitationId VerificationRecord) : Prop :=
  ∀ citation_id,
    (last_record records citation_id = none → folded.get? citation_id = none) ∧
    ∀ record, last_record records citation_id = some record →
      (Expired fromisoformat now max_cache_age_days record → folded.get? citation_id = some (stale_copy record)) ∧
      (¬Expired fromisoformat now max_cache_age_days record → folded.get? citation_id = some record)

/-- The last verification of a citation with a timestamp that parses is aware exactly when `now` is, and the maximum age
    is one a `timedelta` can have. -/
def Comparable (records : List VerificationRecord) (now : DateTime) (max_cache_age_days : Int) : Prop :=
  ∀ citation_id record verified_at, last_record records citation_id = some record → record.status = .verified →
    fromisoformat record.verified_at = some verified_at →
      now.utcoffset.isSome = verified_at.utcoffset.isSome ∧ max_cache_age_days.natAbs ≤ MAX_DAYS

end MootLoop.LedgerFold
