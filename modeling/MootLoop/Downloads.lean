import MootLoop.Links
import MootLoop.Lib.Transition

/-! The downloads of the service: links are minted, requests come back with tokens and are checked, logged and served, and
    between any two of these steps the other commands write to the vaults. -/

namespace MootLoop.Links

open Durable

/-- The vault of a matter as each of its runs sees it. Files of the matter itself are in the view of every run. -/
structure Matter where
  run : RunId → Vault
  named : ∀ run_id, (run run_id).run_id = run_id

/-- Writes to files of the matter, not of one run. -/
def of_matter : Write → Bool
  | .verification _ | .proposition _ | .matter _ | .access_audit _ => true
  | _ => false

/-- Writes to the deliverables. -/
def of_deliverables : Write → Bool
  | .deliverable _ _ | .unlink _ => true
  | _ => false

theorem commit_run_id (v : Vault) (w : Write) : (v.commit w).run_id = v.run_id := by cases w <;> rfl

/-- A program writes to the files of its own run. -/
theorem final_run_id {α : Type} (p : VaultM α) (v : Vault) : (p.final v).run_id = v.run_id := by
  rw [Prog.final, commits]
  generalize (p v).1 = writes
  induction writes generalizing v with
  | nil => rfl
  | cons w writes ih => exact (ih (v.commit w)).trans (commit_run_id v w)

def Matter.commit (matter : Matter) (run_id : RunId) (w : Write) : Matter where
  run r := if r = run_id ∨ of_matter w = true then (matter.run r).commit w else matter.run r
  named r := by
    split
    · rw [commit_run_id, matter.named]
    · exact matter.named r

section
variable (t : Publishing)

/-- The download in the access audit of the matter. -/
def Matter.record_download_audit (matter : Matter) (ts actor matter_id resource : String) : Matter where
  run r := (record_access t ts actor "download" matter_id resource).final (matter.run r)
  named r := (final_run_id _ _).trans (matter.named r)

/-! ### Requests -/

inductive RequestPhase where
  | checked
  | recorded
  | served (text : String)
  | ended
  deriving DecidableEq, Repr

/-- A request whose token was valid: whom it is for, when it came, the run's files when it was checked, the text the check
    found, and whether no deliverable of the run was written since. -/
structure Request (φ : Type) where
  actor : String
  claims : TokenClaims φ
  opened : Int
  vault : Vault
  found : String
  fresh : Bool := true
  phase : RequestPhase := .checked

variable {φ : Type}

/-- A write beside a request that is not served yet. -/
def Request.beside (request : Request φ) (matter_id : String) (run_id : RunId) (w : Write) : Request φ :=
  if request.claims.matter_id = matter_id ∧ request.claims.run_id = run_id ∧ of_deliverables w = true ∧
      (request.phase = .checked ∨ request.phase = .recorded) then
    { request with fresh := false }
  else request

/-- A link with the run's files when it was minted, the time and the life it was asked for. -/
structure Minted where
  vault : Vault
  now : Int
  ttl : Int
  link : SignedLink

structure Service (φ : Type) where
  matters : String → Option Matter
  minted : List Minted := []
  requests : List (Request φ) := []

inductive Act where
  | write (matter_id : String) (run_id : RunId) (w : Write)
  | mint (matter_id : String) (run_id : RunId) (doc : String) (now ttl : Int)
  | request (actor : String) (token : List Char) (now : Int)
  | record (id : Nat) (ts : String)
  | serve (id : Nat)
  | drop (id : Nat)

variable (f : LinkFormat φ)

def Service.set_matter (s : Service φ) (matter_id : String) (matter : Matter) : Service φ :=
  { s with matters := fun m => if m = matter_id then some matter else s.matters m }

def Service.set_phase (s : Service φ) (id : Nat) (request : Request φ) (phase : RequestPhase) : Service φ :=
  { s with requests := s.requests.set id { request with phase } }

/-- One step. A link that is refused, a token that is not valid and a request for a matter that is not there leave
    everything as it was. -/
def step (s : Service φ) : Act → Option (Service φ)
  | .write matter_id run_id w =>
    (s.matters matter_id).map fun matter =>
      { s.set_matter matter_id (matter.commit run_id w) with
        requests := s.requests.map fun request => request.beside matter_id run_id w }
  | .mint matter_id run_id doc now ttl =>
    (s.matters matter_id).map fun matter =>
      match mint_link f t (matter.run run_id) matter_id doc now ttl with
      | .error _ => s
      | .ok link => { s with minted := s.minted ++ [{ vault := matter.run run_id, now, ttl, link }] }
  | .request actor token now =>
    match validate_token f token now with
    | .error _ => some s
    | .ok claims =>
      match s.matters claims.matter_id with
      | none => some s
      | some matter =>
        match resolve_for_download t (matter.run claims.run_id) claims.doc with
        | .error _ => some s
        | .ok found =>
          some { s with requests := s.requests ++
            [{ actor, claims, opened := now, vault := matter.run claims.run_id, found }] }
  | .record id ts =>
    match s.requests[id]? with
    | none => none
    | some request =>
      match s.matters request.claims.matter_id with
      | none => none
      | some matter =>
        if request.phase = .checked then
          some ((s.set_matter request.claims.matter_id (matter.record_download_audit t ts request.actor
            request.claims.matter_id request.claims.doc)).set_phase id request .recorded)
        else none
  | .serve id =>
    match s.requests[id]? with
    | none => none
    | some request =>
      match s.matters request.claims.matter_id with
      | none => none
      | some matter =>
        if request.phase = .recorded then
          match (matter.run request.claims.run_id).deliverables.get? request.claims.doc with
          | none => some (s.set_phase id request .ended)
          | some text => some (s.set_phase id request (.served text))
        else none
  | .drop id =>
    match s.requests[id]? with
    | none => none
    | some request =>
      if request.phase = .checked ∨ request.phase = .recorded then some (s.set_phase id request .ended) else none

def Step (s : Service φ) (act : Act) (s' : Service φ) : Prop := step t f s act = some s'

/-- Nobody but the service computes its codes: a presented token whose code verifies has the body of a token it
    signed. -/
def Unforged (s : Service φ) : Act → Service φ → Prop
  | .request _ token _, _ => ∀ body presented, split_token token = some (body, presented) →
      mac f body = .ok presented → ∃ minted ∈ s.minted, split_token minted.link.token = some (body, presented)
  | _, _ => True

/-- The service before the first link. -/
def Service.start (matters : String → Option Matter) : Service φ := { matters }

/-- The runs of the service in which no token is forged. -/
def Reaches (matters : String → Option Matter) (trace : List Act) (s : Service φ) : Prop :=
  Transition.Run (Transition.Meeting (Step t f) (Unforged f)) (Service.start matters) trace s

end

end MootLoop.Links
