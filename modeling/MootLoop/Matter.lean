import MootLoop.Common
import Mathlib.Data.List.Sort

/-! The matter: its caption, parties and signing attorney, its attorney gates, and the served requests
    and document units a run answers. -/

namespace MootLoop

/-! ### Matter configuration -/

inductive PartyRole where
  | plaintiff
  | defendant
  | third_party
  deriving DecidableEq, Repr

inductive Side where
  | plaintiff
  | defendant
  deriving DecidableEq, Repr

structure Caption where
  court_name : String
  case_number : String
  county : String
  judge_name : Option String := none
  deriving DecidableEq, Repr

structure Party where
  name : String
  role : PartyRole
  deriving DecidableEq, Repr

/-- The signing attorney's block. -/
structure Attorney where
  name : String
  firm : String := ""
  address : String := ""
  email : String := ""
  phone : String := ""
  bar_number : String := ""
  deriving DecidableEq, Repr

inductive GateMode where
  | hard_human
  | policy_delegable
  deriving DecidableEq, Repr

/-- The `matter.yaml` settings that a run and its export read. -/
structure MatterConfig where
  caption : Option Caption := none
  state : String := ""
  parties : List Party := []
  our_side : Option Side := none
  gates : List (String × GateMode) := []
  attorney : Option Attorney := none
  deriving DecidableEq, Repr

/-! ### Served requests -/

inductive RequestType where
  | interrogatory
  | rfp
  | rfa
  deriving DecidableEq, Repr

/-- Short filename code. -/
def type_code : RequestType → String
  | .interrogatory => "rog"
  | .rfp => "rfp"
  | .rfa => "rfa"

/-- Verbose per-request marker label. -/
def marker_label : RequestType → String
  | .interrogatory => "INTERROGATORY"
  | .rfp => "REQUEST FOR PRODUCTION"
  | .rfa => "REQUEST FOR ADMISSION"

/-- The type code implied by a request id's prefix (`ROG-3` gives `rog`). -/
def code_from_request_id (request_id : RequestId) : String :=
  let head := String.ofList ((request_id.toList.takeWhile (· ≠ '-')).takeWhile (· ≠ '('))
  if head = "ROG" then "rog"
  else if head = "RFP" then "rfp"
  else if head = "RFA" then "rfa"
  else "all"

/-- One served request, or a lettered subpart of one. -/
structure RequestItem where
  request_id : RequestId
  set_number : Nat := 1
  number : Nat
  subpart : Option String := none
  text : String
  deriving DecidableEq, Repr

/-- The served requests of one type from one served document. -/
structure RequestSet where
  request_type : RequestType
  set_number : Nat
  title : String
  items : List RequestItem := []
  deriving DecidableEq, Repr

/-- What `validate_request_identity` checks. -/
structure RequestIdentity (request_sets : List RequestSet) : Prop where
  labels_nodup : (request_sets.map fun s => (s.request_type, s.set_number)).Nodup
  ids_nodup : ((request_sets.flatMap (·.items)).map (·.request_id)).Nodup
  set_numbers : ∀ s ∈ request_sets, ∀ item ∈ s.items, item.set_number = s.set_number

/-- One unit of a document task. -/
structure DocumentUnit where
  unit_id : String
  title : String
  instructions : String
  deriving DecidableEq, Repr

/-- A unit of work of a run. -/
inductive TaskUnit where
  | request (item : RequestItem)
  | document (unit : DocumentUnit)
  deriving DecidableEq, Repr

namespace TaskUnit

def request_id : TaskUnit → RequestId
  | .request item => item.request_id
  | .document unit => unit.unit_id

def text : TaskUnit → String
  | .request item => item.text
  | .document unit => unit.instructions

end TaskUnit

/-- The top-level requests of the served sets, by set and number. -/
def units_of (request_sets : List RequestSet) : List RequestItem :=
  ((request_sets.flatMap (·.items)).filter (·.subpart = none)).insertionSort fun a b =>
    a.set_number < b.set_number ∨ (a.set_number = b.set_number ∧ a.number ≤ b.number)

theorem units_of_perm (request_sets : List RequestSet) :
    (units_of request_sets).Perm ((request_sets.flatMap (·.items)).filter (·.subpart = none)) :=
  List.perm_insertionSort _ _

/-- Served requests keep their identities as units. -/
theorem RequestIdentity.units_nodup {request_sets : List RequestSet} (valid : RequestIdentity request_sets) :
    ((units_of request_sets).map (·.request_id)).Nodup := by
  refine (((units_of_perm request_sets).map _).nodup_iff).mpr ?_
  exact valid.ids_nodup.sublist (List.filter_sublist.map _)

end MootLoop
