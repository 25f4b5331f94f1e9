import MootLoop.Downloads
import MootLoop.Theorems.Export
import MootLoop.Theorems.Links

/-! Downloads in every interleaving: what is served was asked for with a link of the service, is in the access audit, and
    is the sealed file if the gate looked at it. -/

namespace MootLoop.Links

open Durable

variable {t : Publishing} {φ : Type} {f : LinkFormat φ} {s s' : Service φ} {act : Act}

/-! ### One step -/

/-- What a step can do. -/
inductive Moves (t : Publishing) (f : LinkFormat φ) (s : Service φ) : Act → Service φ → Prop
  | unmoved (act : Act) : Moves t f s act s
  | write {matter_id : String} {run_id : RunId} {w : Write} {matter : Matter}
      (known : s.matters matter_id = some matter) :
      Moves t f s (.write matter_id run_id w)
        { s.set_matter matter_id (matter.commit run_id w) with
          requests := s.requests.map fun request => request.beside matter_id run_id w }
  | mint {matter_id : String} {run_id : RunId} {doc : String} {now ttl : Int} {v : Vault} {link : SignedLink}
      (minted : mint_link f t v matter_id doc now ttl = .ok link) :
      Moves t f s (.mint matter_id run_id doc now ttl) { s with minted := s.minted ++ [⟨v, now, ttl, link⟩] }
  | request {actor : String} {token : List Char} {now : Int} {claims : TokenClaims φ} {matter : Matter} {found : String}
      (valid : validate_token f token now = .ok claims) (known : s.matters claims.matter_id = some matter)
      (resolved : resolve_for_download t (matter.run claims.run_id) claims.doc = .ok found) :
      Moves t f s (.request actor token now)
        { s with requests := s.requests ++
            [{ actor, claims, opened := now, vault := matter.run claims.run_id, found }] }
  | record {id : Nat} {ts : String} {request : Request φ} {matter : Matter} (here : s.requests[id]? = some request)
      (known : s.matters request.claims.matter_id = some matter) (checked : request.phase = .checked) :
      Moves t f s (.record id ts)
        ((s.set_matter request.claims.matter_id (matter.record_download_audit t ts request.actor
          request.claims.matter_id request.claims.doc)).set_phase id request .recorded)
  | serve {id : Nat} {request : Request φ} {matter : Matter} {text : String} (here : s.requests[id]? = some request)
      (known : s.matters request.claims.matter_id = some matter) (recorded : request.phase = .recorded)
      (there : (matter.run request.claims.run_id).deliverables.get? request.claims.doc = some text) :
      Moves t f s (.serve id) (s.set_phase id request (.served text))
  | ended {id : Nat} {request : Request φ} (act : Act) (here : s.requests[id]? = some request)
      (under_way : request.phase = .checked ∨ request.phase = .recorded) :
      Moves t f s act (s.set_phase id request .ended)

theorem Moves.of_step (next : Step t f s act s') : Moves t f s act s' := by
  unfold Step step at next
  cases act with
  | write matter_id run_id w =>
    dsimp only at next
    cases known : s.matters matter_id with
    | none =>
      rw [known] at next
      cases next
    | some matter =>
      rw [known] at next
      cases next
      exact .write known
  | mint matter_id run_id doc now ttl =>
    dsimp only at next
    cases known : s.matters matter_id with
    | none =>
      rw [known] at next
      cases next
    | some matter =>
      rw [known, Option.map_some, Option.some.injEq] at next
      subst next
      cases minted : mint_link f t (matter.run run_id) matter_id doc now ttl with
      | error e => exact .unmoved _
      | ok link => exact .mint minted
  | request actor token now =>
    dsimp only at next
    cases valid : validate_token f token now with
    | error e =>
      rw [valid] at next
      cases next
      exact .unmoved _
    | ok claims =>
      rw [valid] at next
      dsimp only at next
      cases known : s.matters claims.matter_id with
      | none =>
        rw [known] at next
        cases next
        exact .unmoved _
      | some matter =>
        rw [known] at next
        dsimp only at next
        cases resolved : resolve_for_download t (matter.run claims.run_id) claims.doc with
        | error e =>
          rw [resolved] at next
          cases next
          exact .unmoved _
        | ok found =>
          rw [resolved] at next
          cases next
          exact .request valid known resolved
  | record id ts =>
    dsimp only at next
    cases here : s.requests[id]? with
    | none =>
      rw [here] at next
      cases next
    | some request =>
      rw [here] at next
      dsimp only at next
      cases known : s.matters request.claims.matter_id with
      | none =>
        rw [known] at next
        cases next
      | some matter =>
        rw [known] at next
        dsimp only at next
        split at next
        · next checked =>
          cases next
          exact .record here known checked
        · cases next
  | serve id =>
    dsimp only at next
    cases here : s.requests[id]? with
    | none =>
      rw [here] at next
      cases next
    | some request =>
      rw [here] at next
      dsimp only at next
      cases known : s.matters request.claims.matter_id with
      | none =>
        rw [known] at next
        cases next
      | some matter =>
        rw [known] at next
        dsimp only at next
        split at next
        · next recorded =>
          cases there : (matter.run request.claims.run_id).deliverables.get? request.claims.doc with
          | none =>
            rw [there] at next
            cases next
            exact .ended _ here (.inr recorded)
          | some text =>
            rw [there] at next
            cases next
            exact .serve here known recorded there
        · cases next
  | drop id =>
    dsimp only at next
    cases here : s.requests[id]? with
    | none =>
      rw [here] at next
      cases next
    | some request =>
      rw [here] at next
      dsimp only at next
      split at next
      · next under_way =>
        cases next
        exact .ended _ here under_way
      · cases next

/-! ### Links -/

/-- What a request came with: a link for its own audience, not expired when it came. -/
def Request.OfLink (f : LinkFormat φ) (request : Request φ) (minted : Minted) : Prop :=
  minted.link.matter_id = request.claims.matter_id ∧ minted.link.run_id = request.claims.run_id ∧
    minted.link.doc = request.claims.doc ∧
    f.past (f.timestamp request.opened) (f.timestamp minted.link.expires_at) = false

structure Vouched (t : Publishing) (f : LinkFormat φ) (s : Service φ) : Prop where
  minted : ∀ m ∈ s.minted, mint_link f t m.vault m.link.matter_id m.link.doc m.now m.ttl = .ok m.link
  linked : ∀ r ∈ s.requests, ∃ m ∈ s.minted, r.OfLink f m
  checked : ∀ r ∈ s.requests, resolve_for_download t r.vault r.claims.doc = .ok r.found ∧
    r.vault.run_id = r.claims.run_id

theorem Request.beside_eq (r : Request φ) (matter_id : String) (run_id : RunId) (w : Write) :
    (r.beside matter_id run_id w).actor = r.actor ∧ (r.beside matter_id run_id w).claims = r.claims ∧
      (r.beside matter_id run_id w).opened = r.opened ∧ (r.beside matter_id run_id w).vault = r.vault ∧
      (r.beside matter_id run_id w).found = r.found ∧ (r.beside matter_id run_id w).phase = r.phase := by
  rw [beside]
  split <;> exact ⟨rfl, rfl, rfl, rfl, rfl, rfl⟩

/-- The request a step leaves was there before with the same check, or its check is the step. -/
theorem Moves.request_back (moves : Moves t f s act s') {r : Request φ} (mem : r ∈ s'.requests) :
    (∃ was ∈ s.requests, r.actor = was.actor ∧ r.claims = was.claims ∧ r.opened = was.opened ∧ r.vault = was.vault ∧
      r.found = was.found) ∨
    ∃ actor token matter, act = .request actor token r.opened ∧ s'.minted = s.minted ∧
      validate_token f token r.opened = .ok r.claims ∧ s.matters r.claims.matter_id = some matter ∧
      r.vault = matter.run r.claims.run_id ∧
      resolve_for_download t r.vault r.claims.doc = .ok r.found := by
  have of_set {id : Nat} {old : Request φ} (here : s.requests[id]? = some old) {phase : RequestPhase}
      (mem : r ∈ s.requests.set id { old with phase }) : ∃ was ∈ s.requests, r.actor = was.actor ∧
        r.claims = was.claims ∧ r.opened = was.opened ∧ r.vault = was.vault ∧ r.found = was.found := by
    rcases List.mem_or_eq_of_mem_set mem with before | rfl
    · exact ⟨r, before, rfl, rfl, rfl, rfl, rfl⟩
    · exact ⟨old, List.mem_of_getElem? here, rfl, rfl, rfl, rfl, rfl⟩
  cases moves with
  | unmoved => exact .inl ⟨r, mem, rfl, rfl, rfl, rfl, rfl⟩
  | write known =>
    obtain ⟨was, before, rfl⟩ := List.mem_map.mp mem
    obtain ⟨actor, claims, opened, vault, found, -⟩ := was.beside_eq _ _ _
    exact .inl ⟨was, before, actor, claims, opened, vault, found⟩
  | mint minted => exact .inl ⟨r, mem, rfl, rfl, rfl, rfl, rfl⟩
  | request valid known resolved =>
    rcases List.mem_append.mp mem with before | new
    · exact .inl ⟨r, before, rfl, rfl, rfl, rfl, rfl⟩
    · rw [List.mem_singleton.mp new]
      exact .inr ⟨_, _, _, rfl, rfl, valid, known, rfl, resolved⟩
  | record here known checked => exact .inl (of_set here mem)
  | serve here known recorded there => exact .inl (of_set here mem)
  | ended _ here under_way => exact .inl (of_set here mem)

theorem Moves.minted_mono (moves : Moves t f s act s') : ∀ m ∈ s.minted, m ∈ s'.minted := by
  cases moves with
  | mint minted => exact fun m mem => List.mem_append_left _ mem
  | _ => exact fun m mem => mem

theorem Vouched.step (documented : f.Documented) (vouched : Vouched t f s) (moves : Moves t f s act s')
    (unforged : Unforged f s act s') : Vouched t f s' := by
  refine ⟨fun m mem => ?_, fun r mem => ?_, fun r mem => ?_⟩
  · cases moves with
    | mint minted =>
      rcases List.mem_append.mp mem with before | new
      · exact vouched.minted m before
      · obtain ⟨-, matter_id, -, doc, -⟩ := mint_link_ok minted
        rw [List.mem_singleton.mp new]
        dsimp only
        rw [matter_id, doc]
        exact minted
    | _ => exact vouched.minted m mem
  · rcases moves.request_back mem with ⟨was, before, -, claims, opened, -⟩ | ⟨actor, token, matter, rfl, same, valid, -⟩
    · obtain ⟨m, in_minted, of_link⟩ := vouched.linked was before
      refine ⟨m, moves.minted_mono m in_minted, ?_⟩
      rw [Request.OfLink, claims, opened]
      exact of_link
    · obtain ⟨body, presented, parts, code⟩ := validate_mac valid
      obtain ⟨m, in_minted, signed⟩ := unforged body presented parts code
      refine ⟨m, same ▸ in_minted, ?_⟩
      obtain ⟨-, -, run_id, -, -, -⟩ := mint_link_ok (vouched.minted m in_minted)
      have known := validate_minted documented (vouched.minted m in_minted) r.opened
      rw [validate_congr (signed.trans parts.symm), valid] at known
      split at known
      · cases known
      · next live =>
        have claims := Except.ok.inj known
        rw [Request.OfLink, claims]
        exact ⟨rfl, run_id, rfl, Bool.eq_false_iff.mpr live⟩
  · rcases moves.request_back mem with ⟨was, before, -, claims, -, vault, found⟩ | ⟨_, _, matter, -, -, -, -, vault, resolved⟩
    · rw [claims, vault, found]
      exact vouched.checked was before
    · exact ⟨resolved, by rw [vault, matter.named]⟩

theorem Vouched.reached (documented : f.Documented) {matters : String → Option Matter} {trace : List Act}
    (run : Reaches t f matters trace s) : Vouched t f s := by
  refine Transition.Run.invariant (fun s act s' vouched next => ?_) run ?_
  · exact vouched.step documented (.of_step next.1) next.2
  · exact ⟨fun _ mem => absurd mem List.not_mem_nil, fun _ mem => absurd mem List.not_mem_nil,
      fun _ mem => absurd mem List.not_mem_nil⟩

namespace Sample

open MootLoop.Sample (hashing ready_with_clean CLEAN)

/-- The clean DOCX of a reviewed run, sealed. -/
def ready_sealed : Vault := (record_export_seal_locked hashing "2026-01-05").final ready_with_clean

def matters (matter_id : String) : Option Matter :=
  if matter_id = "acme" then some { run := fun r => { ready_sealed with run_id := r }, named := fun _ => rfl } else none

def NOW : Int := 1783728000000000

def mint_clean : Act := .mint "acme" "r" CLEAN NOW MAX_TTL

def clean_token : List Char := token_of format ⟨"acme", "r", CLEAN, repr (NOW + MAX_TTL)⟩

def play : List Act → Service Json.Literal → Option (Service Json.Literal)
  | [], s => some s
  | act :: acts, s => (step hashing format s act).bind (play acts)

/-- The link comes back a minute later. -/
def ask : List Act := [.request "counsel" clean_token (NOW + 60000000), .record 0 "2026-07-11", .serve 0]

theorem plays : ((step hashing format (.start matters) mint_clean).any fun s =>
    s.minted.any (fun m => m.link.token = clean_token) &&
      (play ask s).any fun s => (s.matters "acme").isSome && s.requests.any fun r =>
        r.phase = .served "PK" && r.fresh && (gating r.claims.doc).requires_export_ready &&
          r.actor = "counsel" && r.claims.matter_id = "acme" && r.claims.doc = CLEAN) = true := by
  decide +kernel

/-- A clean DOCX is asked for and served. -/
theorem serves_clean : ∃ trace s matter, Reaches hashing format matters trace s ∧ s.matters "acme" = some matter ∧
    ∃ r ∈ s.requests, r.phase = .served "PK" ∧ r.fresh = true ∧
      (gating r.claims.doc).requires_export_ready = true ∧ r.actor = "counsel" ∧ r.claims.matter_id = "acme" ∧
      r.claims.doc = CLEAN := by
  obtain ⟨s₁, minted, facts⟩ := (Option.any_eq_true _ _).mp plays
  rw [Bool.and_eq_true] at facts
  obtain ⟨m, in_minted, signed⟩ := List.any_eq_true.mp facts.1
  obtain ⟨s, played, facts⟩ := (Option.any_eq_true _ _).mp facts.2
  simp only [ask, play, Option.bind_eq_some_iff, Option.some.injEq] at played
  obtain ⟨s₂, asked, s₃, recorded, s₄, served, rfl⟩ := played
  have unforged : Unforged format s₁ (.request "counsel" clean_token (NOW + 60000000)) s₂ := by
    intro body presented parts _
    exact ⟨m, in_minted, by rw [of_decide_eq_true signed]; exact parts⟩
  have run : Reaches hashing format matters _ s₄ :=
    (((Transition.Run.start.snoc ⟨minted, trivial⟩).snoc ⟨asked, unforged⟩).snoc ⟨recorded, trivial⟩).snoc
      ⟨served, trivial⟩
  rw [Bool.and_eq_true] at facts
  obtain ⟨matter, known⟩ := Option.isSome_iff_exists.mp facts.1
  obtain ⟨r, mem, facts⟩ := List.any_eq_true.mp facts.2
  simp only [Bool.and_eq_true, decide_eq_true_eq] at facts
  obtain ⟨⟨⟨⟨⟨phase, fresh⟩, requires⟩, actor⟩, of_matter⟩, doc⟩ := facts
  exact ⟨_, s₄, matter, run, known, r, mem, phase, fresh, requires, actor, of_matter, doc⟩

end Sample

/-- Every request that is let through came with a link that the service had minted for the same matter, run and
    deliverable while its gate was open, and that had not expired. The life of a link is at most ten minutes. -/
theorem request_linked (documented : f.Documented) {matters : String → Option Matter} {trace : List Act}
    (run : Reaches t f matters trace s) : ∀ r ∈ s.requests, ∃ m ∈ s.minted, r.OfLink f m ∧
      require_downloadable t m.vault r.claims.doc = .ok () ∧ m.vault.run_id = r.claims.run_id ∧
      m.now ≤ m.link.expires_at ∧ m.link.expires_at ≤ m.now + MAX_TTL := by
  have vouched := Vouched.reached documented run
  intro r mem
  obtain ⟨m, in_minted, of_link⟩ := vouched.linked r mem
  have minted := vouched.minted m in_minted
  obtain ⟨open_, -, run_id, -⟩ := mint_link_ok minted
  obtain ⟨issued, bounded⟩ := minted_bounds minted
  exact ⟨m, in_minted, of_link, of_link.2.2.1 ▸ open_, run_id.symm.trans of_link.2.1, issued, bounded⟩

namespace Sample

open MootLoop.Sample (hashing CLEAN)

/-- The link of the clean DOCX. -/
theorem request_linked_clean : ∃ trace s, Reaches hashing format matters trace s ∧ ∃ r ∈ s.requests,
    r.phase = .served "PK" ∧ ∃ m ∈ s.minted, r.OfLink format m ∧ m.link.expires_at ≤ m.now + MAX_TTL := by
  obtain ⟨trace, s, -, run, -, r, mem, served, -⟩ := serves_clean
  obtain ⟨m, in_minted, of_link, -, -, -, bounded⟩ := request_linked documented run r mem
  exact ⟨trace, s, run, r, mem, served, m, in_minted, of_link, bounded⟩

end Sample

/-! ### The access audit -/

/-- The downloads of a deliverable of a matter by an actor that have been recorded, served or not. -/
def Request.logs (actor matter_id doc : String) (r : Request φ) : Bool :=
  r.actor = actor && r.claims.matter_id = matter_id && r.claims.doc = doc &&
    match r.phase with
    | .recorded | .served _ => true
    | .checked | .ended => false

def Request.is_served (actor matter_id doc : String) (r : Request φ) : Bool :=
  r.actor = actor && r.claims.matter_id = matter_id && r.claims.doc = doc &&
    match r.phase with
    | .served _ => true
    | .checked | .recorded | .ended => false

/-- The entries of the access audit for such downloads. -/
def is_entry (actor matter_id doc : String) (entry : AccessAuditEntry) : Bool :=
  entry.actor = actor && entry.action = "download" && entry.matter_id = matter_id && entry.resource = doc

/-- No more downloads are recorded than the audit has entries of. -/
def Service.Logged (s : Service φ) : Prop :=
  ∀ matter_id matter, s.matters matter_id = some matter → ∀ run_id actor doc,
    s.requests.countP (·.logs actor matter_id doc) ≤
      (matter.run run_id).access_audit.countP (is_entry actor matter_id doc)

theorem commit_access_audit (v : Vault) (w : Write) : v.access_audit <+: (v.commit w).access_audit := by
  cases w
  case access_audit entry => exact List.prefix_append _ _
  all_goals exact List.prefix_rfl

theorem audit_mono {matter : Matter} {run_id : RunId} {w : Write} (p : AccessAuditEntry → Bool) (r : RunId) :
    (matter.run r).access_audit.countP p ≤ ((matter.commit run_id w).run r).access_audit.countP p := by
  have longer : (matter.run r).access_audit <+: ((matter.commit run_id w).run r).access_audit := by
    rw [Matter.commit]
    dsimp only
    split
    · exact commit_access_audit _ _
    · exact List.prefix_rfl
  exact longer.sublist.countP_le

/-- A record adds just its own entry. -/
theorem record_audit (matter : Matter) (ts by_actor of_matter resource actor matter_id doc : String) (r : RunId) :
    ((matter.record_download_audit t ts by_actor of_matter resource).run r).access_audit.countP
        (is_entry actor matter_id doc) =
      (matter.run r).access_audit.countP (is_entry actor matter_id doc) +
        if by_actor = actor ∧ of_matter = matter_id ∧ resource = doc then 1 else 0 := by
  have appended : ∃ entry : AccessAuditEntry, entry.actor = by_actor ∧ entry.action = "download" ∧
      entry.matter_id = of_matter ∧ entry.resource = resource ∧
      ((matter.record_download_audit t ts by_actor of_matter resource).run r).access_audit =
        (matter.run r).access_audit ++ [entry] := ⟨_, rfl, rfl, rfl, rfl, rfl⟩
  obtain ⟨entry, of_actor, of_action, of_id, of_resource, same⟩ := appended
  rw [same, List.countP_append, List.countP_singleton, is_entry, of_actor, of_action, of_id, of_resource]
  simp only [Bool.and_eq_true, decide_eq_true_eq, and_true, and_assoc]

theorem countP_set_le {α : Type} {p : α → Bool} {l : List α} {i : Nat} {old new : α} (here : l[i]? = some old)
    (le : p new = true → p old = true) : (l.set i new).countP p ≤ l.countP p := by
  obtain ⟨bound, there⟩ := List.getElem?_eq_some_iff.mp here
  have positive : p l[i] = true → 1 ≤ l.countP p := fun holds =>
    List.countP_pos_iff.mpr ⟨l[i], List.getElem_mem bound, holds⟩
  rw [List.countP_set bound]
  rw [← there] at le
  by_cases holds : p new = true
  · have one := positive (le holds)
    rw [if_pos holds, if_pos (le holds)]
    omega
  · rw [if_neg holds]
    exact Nat.sub_le _ _

theorem countP_set_add {α : Type} (p : α → Bool) (new : α) {l : List α} {i : Nat} {old : α} (here : l[i]? = some old) :
    (l.set i new).countP p ≤ l.countP p + if p new = true then 1 else 0 := by
  obtain ⟨bound, -⟩ := List.getElem?_eq_some_iff.mp here
  rw [List.countP_set bound]
  omega

theorem Service.Logged.step (logged : s.Logged) (moves : Moves t f s act s') : s'.Logged := by
  intro matter_id matter known run_id actor doc
  cases moves with
  | unmoved => exact logged matter_id matter known run_id actor doc
  | @write written run w old here =>
    have same : (s.requests.map fun request => request.beside written run w).countP (·.logs actor matter_id doc) =
        s.requests.countP (·.logs actor matter_id doc) := by
      rw [List.countP_map]
      refine List.countP_congr fun r _ => ?_
      obtain ⟨same_actor, same_claims, -, -, -, same_phase⟩ := r.beside_eq written run w
      simp only [Function.comp, Request.logs, same_actor, same_claims, same_phase]
    dsimp only [Service.set_matter] at known ⊢
    rw [same]
    split at known
    · next is_matter =>
      cases known
      subst is_matter
      exact (logged _ old here run_id actor doc).trans (audit_mono _ _)
    · exact logged matter_id matter known run_id actor doc
  | mint minted => exact logged matter_id matter known run_id actor doc
  | request valid here resolved =>
    rw [List.countP_append, List.countP_singleton]
    simp only [Request.logs, Bool.and_false, Bool.false_eq_true, if_false, Nat.add_zero]
    exact logged matter_id matter known run_id actor doc
  | @record id ts request old here at_matter checked =>
    have grown := countP_set_add (·.logs actor matter_id doc) { request with phase := .recorded } here
    dsimp only [Service.set_matter, Service.set_phase] at known ⊢
    split at known
    · next is_matter =>
      cases known
      subst is_matter
      rw [record_audit]
      have before := logged _ old at_matter run_id actor doc
      refine grown.trans (Nat.add_le_add before ?_)
      simp only [Request.logs, Bool.and_true, Bool.and_eq_true, decide_eq_true_eq, true_and, and_true]
      exact le_refl _
    · next other =>
      have unlogged : ¬ Request.logs actor matter_id doc { request with phase := .recorded } = true := by
        intro logs
        simp only [Request.logs, Bool.and_true, Bool.and_eq_true, decide_eq_true_eq] at logs
        exact other logs.1.2.symm
      rw [if_neg unlogged] at grown
      exact grown.trans (logged matter_id matter known run_id actor doc)
  | @serve id request old text here at_matter recorded there =>
    refine (countP_set_le here fun logs => ?_).trans (logged matter_id matter known run_id actor doc)
    rw [Request.logs] at logs ⊢
    rw [recorded]
    exact logs
  | ended _ here under_way =>
    refine (countP_set_le here fun logs => ?_).trans (logged matter_id matter known run_id actor doc)
    rw [Request.logs, Bool.and_false] at logs
    cases logs

/-- A served download has been recorded. -/
theorem Request.logs_of_served {r : Request φ} {actor matter_id doc : String}
    (served : r.is_served actor matter_id doc = true) : r.logs actor matter_id doc = true := by
  rw [is_served, Bool.and_eq_true] at served
  rw [logs, Bool.and_eq_true]
  refine ⟨served.1, ?_⟩
  cases phase : r.phase with
  | recorded | served text => rfl
  | checked | ended =>
    rw [phase] at served
    cases served.2

/-- Whatever else goes on, the access audit of a matter has an entry of its own for each download that was served. -/
theorem served_logged {matters : String → Option Matter} {trace : List Act} (run : Reaches t f matters trace s)
    {matter_id : String} {matter : Matter} (known : s.matters matter_id = some matter) (run_id : RunId)
    (actor doc : String) : s.requests.countP (·.is_served actor matter_id doc) ≤
      (matter.run run_id).access_audit.countP (is_entry actor matter_id doc) := by
  have logged : s.Logged := by
    refine Transition.Run.invariant (fun s act s' logged next => ?_) run ?_
    · exact logged.step (.of_step next.1)
    · exact fun _ _ _ _ _ _ => Nat.zero_le _
  exact (List.countP_mono_left fun _ _ => Request.logs_of_served).trans (logged matter_id matter known run_id actor doc)

namespace Sample

open MootLoop.Sample (hashing CLEAN)

/-- The entry of the served DOCX. -/
theorem served_logged_clean : ∃ trace s matter, Reaches hashing format matters trace s ∧ s.matters "acme" = some matter ∧
    0 < (matter.run "r").access_audit.countP (is_entry "counsel" "acme" CLEAN) := by
  obtain ⟨trace, s, matter, run, known, r, mem, served, -, -, actor, of_matter, doc⟩ := serves_clean
  have is_served : r.is_served "counsel" "acme" CLEAN = true := by
    rw [Request.is_served, actor, of_matter, doc, served]
    rfl
  exact ⟨trace, s, matter, run, known,
    (List.countP_pos_iff.mpr ⟨r, mem, is_served⟩).trans_le (served_logged run known "r" "counsel" CLEAN)⟩

end Sample

/-! ### Sealed files -/

/-- The file of a request is the one its check found, unless a deliverable of the run was written since. -/
def Service.Current (s : Service φ) : Prop :=
  ∀ r ∈ s.requests, r.fresh = true →
    (r.phase = .checked ∨ r.phase = .recorded → ∀ matter, s.matters r.claims.matter_id = some matter →
      (matter.run r.claims.run_id).deliverables.get? r.claims.doc = some r.found) ∧
    ∀ text, r.phase = .served text → text = r.found

theorem commit_deliverables {w : Write} (other : of_deliverables w = false) (v : Vault) :
    (v.commit w).deliverables = v.deliverables := by
  cases w <;> first | rfl | cases other

theorem matter_deliverables {matter : Matter} {run_id r : RunId} {w : Write}
    (other : r = run_id → of_deliverables w = false) :
    ((matter.commit run_id w).run r).deliverables = (matter.run r).deliverables := by
  rw [Matter.commit]
  dsimp only
  split
  · next writes =>
    refine commit_deliverables ?_ _
    rcases writes with same | shared
    · exact other same
    · cases w <;> first | rfl | cases shared
  · rfl

theorem Service.Current.step (current : s.Current) (moves : Moves t f s act s') : s'.Current := by
  intro r mem fresh
  cases moves with
  | unmoved => exact current r mem fresh
  | @write matter_id run_id w old known =>
    obtain ⟨was, before, rfl⟩ := List.mem_map.mp mem
    obtain ⟨-, claims, -, -, found, phase⟩ := was.beside_eq matter_id run_id w
    have was_fresh : was.fresh = true := by
      rw [Request.beside] at fresh
      split at fresh
      · cases fresh
      · exact fresh
    obtain ⟨there, shown⟩ := current was before was_fresh
    rw [claims, found, phase]
    refine ⟨fun under_way matter at_matter => ?_, shown⟩
    dsimp only [Service.set_matter] at at_matter
    split at at_matter
    · next is_matter =>
      cases at_matter
      rw [matter_deliverables]
      · exact there under_way old (is_matter ▸ known)
      · intro same_run
        by_contra touches
        rw [Request.beside, if_pos ⟨is_matter, same_run, Bool.not_eq_false _ ▸ touches, under_way⟩] at fresh
        cases fresh
    · exact there under_way matter at_matter
  | mint minted => exact current r mem fresh
  | request valid known resolved =>
    rcases List.mem_append.mp mem with before | new
    · exact current r before fresh
    · rw [List.mem_singleton.mp new]
      refine ⟨fun _ matter at_matter => ?_, fun text served => by cases served⟩
      rw [known] at at_matter
      cases at_matter
      exact (download_ok resolved).2
  | @record id ts request old here known checked =>
    have kept : ∀ was ∈ s.requests, was.fresh = true → (was.phase = .checked ∨ was.phase = .recorded) →
        ∀ matter, (s.set_matter request.claims.matter_id (old.record_download_audit t ts request.actor
          request.claims.matter_id request.claims.doc)).matters was.claims.matter_id = some matter →
        (matter.run was.claims.run_id).deliverables.get? was.claims.doc = some was.found := by
      intro was before was_fresh under_way matter at_matter
      dsimp only [Service.set_matter] at at_matter
      split at at_matter
      · next is_matter =>
        cases at_matter
        exact (current was before was_fresh).1 under_way old (is_matter ▸ known)
      · exact (current was before was_fresh).1 under_way matter at_matter
    rcases List.mem_or_eq_of_mem_set mem with before | rfl
    · exact ⟨kept r before fresh, (current r before fresh).2⟩
    · exact ⟨fun _ => kept request (List.mem_of_getElem? here) fresh (.inl checked), fun text served => by cases served⟩
  | @serve id request matter text here known recorded there =>
    rcases List.mem_or_eq_of_mem_set mem with before | rfl
    · exact current r before fresh
    · refine ⟨fun under_way => ?_, fun shown served => ?_⟩
      · rcases under_way with h | h <;> cases h
      have found := (current request (List.mem_of_getElem? here) fresh).1 (.inr recorded) matter known
      rw [there] at found
      cases served
      exact Option.some.inj found
  | ended _ here under_way =>
    rcases List.mem_or_eq_of_mem_set mem with before | rfl
    · exact current r before fresh
    · refine ⟨fun under_way => ?_, fun text served => ?_⟩
      · rcases under_way with h | h <;> cases h
      · cases served

/-- A clean DOCX, or a file that the latest seal claimed when its download was checked, is served as it was sealed under a
    valid attestation, unless a deliverable of the run was written between the check and the serving. For a clean DOCX the
    run was fit to be exported. -/
theorem served_sealed (documented : f.Documented) {matters : String → Option Matter} {trace : List Act}
    (run : Reaches t f matters trace s) {r : Request φ} (mem : r ∈ s.requests) {text : String}
    (served : r.phase = .served text) (fresh : r.fresh = true)
    (gated : (gating r.claims.doc).requires_export_ready = true ∨ latest_seal_contains r.vault r.claims.doc = true) :
    (∃ sealed, Sealed t r.vault sealed ∧ ∃ artifact ∈ sealed.artifacts,
      artifact.path = s!"deliverables/{r.claims.run_id}/{r.claims.doc}" ∧
      artifact.sha256 = t.digest (.bytes text) ∧ artifact.size_bytes = text.utf8ByteSize) ∧
    ((gating r.claims.doc).requires_export_ready = true →
      ∃ context, r.vault.run_context = .ok context ∧ Exportable t r.vault context) := by
  have current : s.Current := by
    refine Transition.Run.invariant (fun s act s' current next => ?_) run ?_
    · exact current.step (.of_step next.1)
    · exact fun _ mem => absurd mem List.not_mem_nil
  obtain ⟨downloaded, of_run⟩ := (Vouched.reached documented run).checked r mem
  have found := (current r mem fresh).2 text served
  subst found
  exact ⟨of_run ▸ download_sealed downloaded gated, download_exportable downloaded⟩

namespace Sample

open MootLoop.Sample (hashing CLEAN)

/-- The seal of the served DOCX. -/
theorem served_sealed_clean : ∃ trace s, Reaches hashing format matters trace s ∧ ∃ r ∈ s.requests,
    r.phase = .served "PK" ∧ r.claims.doc = CLEAN ∧ ∃ sealed, Sealed hashing r.vault sealed ∧
      ∃ artifact ∈ sealed.artifacts, artifact.sha256 = hashing.digest (.bytes "PK") ∧
      ∃ context, r.vault.run_context = .ok context ∧ Exportable hashing r.vault context := by
  obtain ⟨trace, s, -, run, -, r, mem, served, fresh, requires, -, -, doc⟩ := serves_clean
  obtain ⟨⟨sealed, intact, artifact, claimed, -, digest, -⟩, exportable⟩ :=
    served_sealed documented run mem served fresh (.inl requires)
  exact ⟨trace, s, run, r, mem, served, doc, sealed, intact, artifact, claimed, digest, exportable requires⟩

end Sample

end MootLoop.Links
