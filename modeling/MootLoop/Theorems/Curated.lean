import MootLoop.Research
import MootLoop.Theorems.Runs
import MootLoop.Theorems.Served

/-! What a curated verification rests on. A call that verifies reads the curated file under the slug of a
    citation, and a call that fulfils writes the one under the slug of a request, so a result belongs to its own
    normalized form as long as no two forms that meet there share a slug. -/

namespace MootLoop.Research
open Transition

variable {x : Externals} {vault_root : String} {s s' : LawStore}

/-! ### The fold of the ledger -/

theorem latest_mem (records : List VerificationRecord) {citation_id : CitationId} {record : VerificationRecord}
    (latest : (latest_records records).get? citation_id = some record) :
    record ∈ records ∧ record.citation_id = citation_id := by
  induction records using List.reverseRecOn with
  | nil => simp [latest_records] at latest
  | append_singleton rest last ih =>
    unfold latest_records at latest ih
    rw [List.foldl_append] at latest
    simp only [List.foldl_cons, List.foldl_nil, Dict.get?_insert] at latest
    split at latest
    · next same =>
      cases latest
      exact ⟨by simp, same.symm⟩
    · obtain ⟨mem, named⟩ := ih latest
      exact ⟨List.mem_append_left _ mem, named⟩

/-- A curated answer is a curated record of the ledger. -/
theorem Curated.recorded {now : Instant} {days : Nat} {citation : Citation} (curated : Curated x s now days citation) :
    ∃ record ∈ s.records, record.source = .curated ∧ record.citation_id = citation.citation_id := by
  obtain ⟨shown, folds, -, source⟩ := curated
  unfold folded_record at folds
  obtain ⟨record, latest, rfl⟩ := Option.map_eq_some_iff.mp (Option.mem_def.mp folds)
  obtain ⟨mem, named⟩ := latest_mem s.records latest
  refine ⟨record, mem, ?_, named⟩
  unfold fold_record at source
  split at source <;> exact source

/-! ### What the queue folds to -/

theorem folded_mem (queue : List ResearchRequest) {request_id : String} {request : ResearchRequest}
    (latest : (folded queue).get? request_id = some request) : request ∈ queue := by
  induction queue using List.reverseRecOn with
  | nil => simp [folded] at latest
  | append_singleton rest last ih =>
    unfold folded at latest ih
    rw [List.foldl_append] at latest
    simp only [List.foldl_cons, List.foldl_nil, Dict.get?_insert] at latest
    split at latest
    · cases latest
      simp
    · exact List.mem_append_left _ (ih latest)

/-! ### One pass -/

/-- What a pass over some citations has gathered: its curated records are of citations whose file is there, and
    it queues open requests of its own citations only. -/
structure Gathered (x : Externals) (s : LawStore) (citations : List Citation) (pass : Pass) : Prop where
  curated : ∀ record ∈ pass.records, record.source = .curated → ∃ c ∈ citations,
    record.citation_id = c.citation_id ∧ s.curated.contains (curated_slug x c.normalized) = true
  queued : ∀ request ∈ pass.queue, request ∈ s.queue ∨
    request.status = .open ∧ ∃ c ∈ citations, request.normalized = c.normalized
  kept : ∀ request ∈ s.queue, request ∈ pass.queue

theorem Gathered.route {citations : List Citation} {pass : Pass} {sources : Sources} {now : String}
    (h : Gathered x s citations pass) {c : Citation} (mem : c ∈ citations) :
    Gathered x s citations (route x vault_root s.curated sources now pass c) := by
  have other (record : VerificationRecord) (plain : record.source ≠ .curated) : ∀ r ∈ pass.records ++ [record],
      r.source = .curated → ∃ c ∈ citations,
        r.citation_id = c.citation_id ∧ s.curated.contains (curated_slug x c.normalized) = true := by
    intro r mem_r source
    rcases List.mem_append.mp mem_r with old | new
    · exact h.curated r old source
    · exact absurd (List.mem_singleton.mp new ▸ source) plain
  unfold Research.route
  split
  · next text found =>
    refine ⟨fun r mem_r source => ?_, h.queued, h.kept⟩
    rcases List.mem_append.mp mem_r with old | new
    · exact h.curated r old source
    · cases List.mem_singleton.mp new
      exact ⟨c, mem, rfl, Dict.contains_iff.mpr ⟨text, found⟩⟩
  · split
    · exact ⟨h.curated, h.queued, h.kept⟩
    · split
      · exact ⟨other _ (by simp [Answer.record]), h.queued, h.kept⟩
      · dsimp only
        split
        · exact ⟨other _ (by simp [needs_research_record]), h.queued, h.kept⟩
        · refine ⟨other _ (by simp [needs_research_record]), fun request mem_q => ?_, fun request mem_q =>
            List.mem_append_left _ (h.kept request mem_q)⟩
          rcases List.mem_append.mp mem_q with old | new
          · exact h.queued request old
          · cases List.mem_singleton.mp new
            exact Or.inr ⟨rfl, c, mem, rfl⟩

theorem Gathered.foldl {citations : List Citation} (vault_root : String) (sources : Sources) (now : String) (rest : List Citation)
    (within : ∀ c ∈ rest, c ∈ citations) {pass : Pass} (h : Gathered x s citations pass) :
    Gathered x s citations (rest.foldl (Research.route x vault_root s.curated sources now) pass) := by
  induction rest generalizing pass with
  | nil => exact h
  | cons c rest ih =>
    exact ih (fun d mem => within d (List.mem_cons_of_mem _ mem)) (h.route (within c List.mem_cons_self))

/-! ### The step -/

/-- No fulfilled request shares its curated file with a citation this call is about and has another form. -/
def Apart (x : Externals) (s : LawStore) : Call → Prop
  | .verify_all _ citations now days => ∀ instant, instant_of x now = .ok instant →
      ∀ c ∈ unsettled x s citations instant days, ∀ normalized, Fulfilled s normalized →
        curated_slug x normalized = curated_slug x c.normalized → normalized = c.normalized
  | .fulfill_research_request request_id _ _ _ => ∀ request, (folded s.queue).get? request_id = some request →
      ∀ normalized, Fulfilled s normalized →
        curated_slug x normalized = curated_slug x request.normalized → normalized = request.normalized

/-- The citations of a call are as extraction makes them, of the forms at hand. -/
def Of (x : Externals) (forms : String → Prop) : Call → Prop
  | .verify_all _ citations _ _ => ∀ c ∈ citations, Addressed x c ∧ forms c.normalized
  | .fulfill_research_request .. => True

/-- Curated results stand for fulfilled requests of their own form, and no two forms share a file. -/
def Sound (x : Externals) (forms : String → Prop) (s : LawStore) : Prop :=
  ∀ now days a, Addressed x a → forms a.normalized → Curated x s now days a →
    Fulfilled s a.normalized ∧
    ∀ b, Addressed x b → forms b.normalized → Curated x s now days b → a.normalized ≠ b.normalized →
      curated_slug x a.normalized ≠ curated_slug x b.normalized

/-- No file, no record, and a queue of open requests. -/
def Fresh (forms : String → Prop) (s : LawStore) : Prop :=
  s.curated = ∅ ∧ s.records = [] ∧ ∀ request ∈ s.queue, request.status = .open ∧ forms request.normalized

/-- What the calls keep. -/
structure Founded (x : Externals) (forms : String → Prop) (s : LawStore) : Prop where
  files : ∀ slug, s.curated.contains slug = true → ∃ normalized, Fulfilled s normalized ∧ curated_slug x normalized = slug
  records : ∀ record ∈ s.records, record.source = .curated →
    ∃ normalized, Fulfilled s normalized ∧ record.citation_id = make_citation_id x normalized
  requests : ∀ request ∈ s.queue, forms request.normalized
  apart : ∀ a b, Fulfilled s a → Fulfilled s b → curated_slug x a = curated_slug x b → a = b

section
variable {forms : String → Prop}

theorem Fresh.founded (fresh : Fresh forms s) : Founded x forms s := by
  obtain ⟨files, records, requests⟩ := fresh
  have unfulfilled : ∀ normalized, ¬Fulfilled s normalized := by
    rintro normalized ⟨request, mem, fulfilled, -⟩
    rw [(requests request mem).1] at fulfilled
    cases fulfilled
  refine ⟨fun slug contains => ?_, fun record mem => ?_, fun request mem => (requests request mem).2, fun a _ had =>
    absurd had (unfulfilled a)⟩
  · rw [files] at contains
    cases contains
  · rw [records] at mem
    cases mem

/-- A store whose queue holds what it held, and more requests that are open, has fulfilled the same ones. -/
theorem fulfilled_iff (kept : ∀ request ∈ s.queue, request ∈ s'.queue)
    (queued : ∀ request ∈ s'.queue, request ∈ s.queue ∨ request.status = .open) (normalized : String) :
    Fulfilled s' normalized ↔ Fulfilled s normalized := by
  constructor
  · rintro ⟨request, mem, fulfilled, named⟩
    rcases queued request mem with old | opened
    · exact ⟨request, old, fulfilled, named⟩
    · rw [opened] at fulfilled
      cases fulfilled
  · rintro ⟨request, mem, rest⟩
    exact ⟨request, kept request mem, rest⟩

theorem verify_all_founded {sources : Sources} {citations : List Citation} {now : String} {days : Nat}
    (h : Founded x forms s) (of : Of x forms (.verify_all sources citations now days))
    (apart : Apart x s (.verify_all sources citations now days))
    (verified : verify_all x vault_root sources s citations now days = .ok s') : Founded x forms s' := by
  obtain ⟨instant, parsed, rest⟩ := bind_ok verified
  cases rest
  have from_call : ∀ c ∈ unsettled x s citations instant days, c ∈ citations := fun c mem => by
    obtain ⟨_, found, rfl⟩ := mem_first (List.mem_of_mem_filter mem)
    exact found
  have nothing : Gathered x s (unsettled x s citations instant days)
      { queue := s.queue, open_ids := (open_requests s.queue).map (·.request_id) } :=
    ⟨fun _ mem => (nomatch mem), fun _ mem => Or.inl mem, fun _ mem => mem⟩
  have gathered := nothing.foldl vault_root sources now _ fun _ mem => mem
  have same : ∀ form, Fulfilled { s with queue := _ } form ↔ Fulfilled s form := fulfilled_iff gathered.kept fun request mem =>
    (gathered.queued request mem).imp_right And.left
  refine ⟨fun slug contains => ?_, fun record mem curated => ?_, fun request mem => ?_, fun a b had_a had_b =>
    h.apart a b ((same a).mp had_a) ((same b).mp had_b)⟩
  · obtain ⟨normalized, fulfilled, slugged⟩ := h.files slug contains
    exact ⟨normalized, (same normalized).mpr fulfilled, slugged⟩
  · rcases List.mem_append.mp mem with mem | looked_up
    · rcases List.mem_append.mp mem with old | new
      · obtain ⟨normalized, fulfilled, named⟩ := h.records record old curated
        exact ⟨normalized, (same normalized).mpr fulfilled, named⟩
      · obtain ⟨c, asked, named, file⟩ := gathered.curated record new curated
        obtain ⟨normalized, fulfilled, slugged⟩ := h.files _ file
        have own : normalized = c.normalized := apart instant parsed c asked normalized fulfilled slugged
        refine ⟨normalized, (same normalized).mpr fulfilled, ?_⟩
        rw [named, own]
        exact (of c (from_call c asked)).1
    · obtain ⟨c, -, rfl⟩ := List.mem_map.mp looked_up
      cases curated
  · rcases gathered.queued request mem with old | ⟨-, c, asked, named⟩
    · exact h.requests request old
    · rw [named]
      exact (of c (from_call c asked)).2

theorem fulfill_founded {request_id : String} {file : Option String} {now : String} {url : Option String}
    (h : Founded x forms s) (apart : Apart x s (.fulfill_research_request request_id file now url))
    (done : fulfill_research_request x vault_root s request_id file now url = .ok s') : Founded x forms s' := by
  unfold fulfill_research_request at done
  split at done
  · cases done
  · next request queued =>
    split at done
    · cases done
    · next text =>
      cases done
      have grown (normalized : String) : Fulfilled { s with queue := s.queue ++ [{ request with status := .fulfilled }] }
          normalized ↔ Fulfilled s normalized ∨ normalized = request.normalized := by
        simp only [Fulfilled, List.mem_append, List.mem_singleton]
        constructor
        · rintro ⟨r, mem | rfl, fulfilled, rfl⟩
          · exact Or.inl ⟨r, mem, fulfilled, rfl⟩
          · exact Or.inr rfl
        · rintro (⟨r, mem, fulfilled, rfl⟩ | rfl)
          · exact ⟨r, Or.inl mem, fulfilled, rfl⟩
          · exact ⟨_, Or.inr rfl, rfl, rfl⟩
      have own := apart request queued
      refine ⟨fun slug contains => ?_, fun record mem curated => ?_, fun r mem => ?_, fun a b had_a had_b slugs => ?_⟩
      · rw [Dict.contains_insert, Bool.or_eq_true, decide_eq_true_iff] at contains
        rcases contains with rfl | old
        · exact ⟨request.normalized, (grown _).mpr (Or.inr rfl), rfl⟩
        · obtain ⟨normalized, fulfilled, slugged⟩ := h.files slug old
          exact ⟨normalized, (grown _).mpr (Or.inl fulfilled), slugged⟩
      · rcases List.mem_append.mp mem with old | new
        · obtain ⟨normalized, fulfilled, named⟩ := h.records record old curated
          exact ⟨normalized, (grown _).mpr (Or.inl fulfilled), named⟩
        · cases List.mem_singleton.mp new
          exact ⟨request.normalized, (grown _).mpr (Or.inr rfl), rfl⟩
      · rcases List.mem_append.mp mem with old | new
        · exact h.requests r old
        · cases List.mem_singleton.mp new
          exact h.requests request (folded_mem s.queue queued)
      · rcases (grown a).mp had_a with had_a | rfl <;> rcases (grown b).mp had_b with had_b | rfl
        · exact h.apart a b had_a had_b slugs
        · exact own a had_a slugs
        · exact (own b had_b slugs.symm).symm
        · rfl

theorem Step.founded {call : Call} (step : Step x vault_root s call s') (of : Of x forms call) (apart : Apart x s call)
    (h : Founded x forms s) : Founded x forms s' := by
  rcases step with done | ⟨-, rfl⟩
  · cases call with
    | verify_all sources citations now days => exact verify_all_founded h of apart done
    | fulfill_research_request request_id file now url => exact fulfill_founded h apart done
  · exact h

theorem Founded.sound (distinct : ∀ a b, forms a → forms b → make_citation_id x a = make_citation_id x b → a = b)
    (h : Founded x forms s) : Sound x forms s := by
  have own : ∀ now days a, Addressed x a → forms a.normalized → Curated x s now days a → Fulfilled s a.normalized := by
    intro now days a addressed formed curated
    obtain ⟨record, mem, source, named⟩ := curated.recorded
    obtain ⟨normalized, fulfilled, made⟩ := h.records record mem source
    obtain ⟨request, queued, -, rfl⟩ := id fulfilled
    have same : a.normalized = request.normalized :=
      distinct _ _ formed (h.requests request queued) (addressed.symm.trans (named.symm.trans made))
    rwa [same]
  intro now days a addressed formed curated
  have mine := own now days a addressed formed curated
  refine ⟨mine, fun b addressed_b formed_b curated_b different slugs => different ?_⟩
  exact h.apart _ _ mine (own now days b addressed_b formed_b curated_b) slugs

/-- Where no two forms that meet in the curated tier share a slug, every sequence of calls leaves curated
    results to the citations whose own requests were fulfilled. -/
theorem curated_results_are_own {trace : List Call} {start : LawStore}
    (distinct : ∀ a b, forms a → forms b → make_citation_id x a = make_citation_id x b → a = b)
    (fresh : Fresh forms start)
    (run : Run (Meeting (Step x vault_root) fun s call _ => Of x forms call ∧ Apart x s call) start trace s) :
    Sound x forms s := by
  have founded : Founded x forms s := run.invariant
    (fun _ _ _ h meeting => Step.founded meeting.1 meeting.2.1 meeting.2.2 h) fresh.founded
  exact founded.sound distinct

end

/-! ### A request fulfilled, and another citation -/

namespace Sample
open MootLoop.Sample

/-- A section and a subsection whose names differ in punctuation only. -/
def forms (normalized : String) : Prop := normalized = "29 CFR 1.2" ∨ normalized = "29 CFR 1(2)"

def regulation (normalized : String) : Citation where
  citation_id := make_citation_id externals normalized
  raw_text := normalized
  normalized
  authority_type := .regulation

/-- Sources that know nothing. -/
def silent : Sources where
  can_verify _ := false
  mn_revisor _ := { status := .pending }
  courtlistener _ := { status := .pending }

def verify (normalized : String) : Call := .verify_all silent [regulation normalized] "2026-01-05" 30

def supply (normalized : String) : Call :=
  .fulfill_research_request (research_request_id externals normalized) (some "text") "2026-01-05" none

def perform (s : LawStore) (call : Call) : LawStore :=
  match Research.perform externals "" s call with
  | .ok s' => s'
  | .error _ => s

/-- The store after some calls on an empty one. -/
def after (calls : List Call) : LawStore := calls.foldl perform {}

theorem performed (s : LawStore) (call : Call) : Step externals "" s call (perform s call) := by
  unfold perform Step
  split
  · next s' done => exact Or.inl done
  · next e refused => exact Or.inr ⟨⟨e, refused⟩, rfl⟩

theorem distinct_forms : ∀ a b, forms a → forms b →
    make_citation_id externals a = make_citation_id externals b → a = b := by
  have apart : make_citation_id externals "29 CFR 1.2" ≠ make_citation_id externals "29 CFR 1(2)" := by decide
  rintro a b (rfl | rfl) (rfl | rfl) same
  · rfl
  · exact absurd same apart
  · exact absurd same.symm apart
  · rfl

theorem of_forms {normalized : String} (formed : forms normalized) : Of externals forms (verify normalized) := by
  intro c mem
  cases List.mem_singleton.mp mem
  exact ⟨rfl, formed⟩

/-- The store once the first regulation is queued, once its authority is there, and once the second is verified. -/
def queued : LawStore := after [verify "29 CFR 1.2"]
def supplied : LawStore := after [verify "29 CFR 1.2", supply "29 CFR 1.2"]
def borrowed : LawStore := after [verify "29 CFR 1.2", supply "29 CFR 1.2", verify "29 CFR 1(2)"]

theorem sample_facts :
    (∀ request ∈ queued.queue, request.status = .open) ∧
    Curated externals supplied ⟨date 2026 1 5, 0⟩ 30 (regulation "29 CFR 1.2") ∧
    Curated externals borrowed ⟨date 2026 1 5, 0⟩ 30 (regulation "29 CFR 1(2)") ∧
    ¬Fulfilled borrowed "29 CFR 1(2)" := by
  decide +kernel

theorem apart_of_open {s : LawStore} (opened : ∀ request ∈ s.queue, request.status = .open) (call : Call) :
    Apart externals s call := by
  have unfulfilled : ∀ normalized, ¬Fulfilled s normalized := by
    rintro normalized ⟨request, mem, fulfilled, -⟩
    rw [opened request mem] at fulfilled
    cases fulfilled
  cases call with
  | verify_all => exact fun _ _ _ _ normalized had => absurd had (unfulfilled normalized)
  | fulfill_research_request => exact fun _ _ normalized had => absurd had (unfulfilled normalized)

theorem empty_fresh : Fresh forms {} := ⟨rfl, rfl, fun _ mem => absurd mem List.not_mem_nil⟩

/-- A regulation whose authority was supplied is verified, and by its own request. -/
theorem supplied_regulation_own :
    Curated externals supplied ⟨date 2026 1 5, 0⟩ 30 (regulation "29 CFR 1.2") ∧ Sound externals forms supplied := by
  refine ⟨sample_facts.2.1, ?_⟩
  refine @curated_results_are_own externals "" supplied forms [verify "29 CFR 1.2", supply "29 CFR 1.2"] {}
    distinct_forms empty_fresh ?_
  have first : Run (Meeting (Step externals "") fun s call _ => Of externals forms call ∧ Apart externals s call) {}
      [verify "29 CFR 1.2"] queued :=
    .one ⟨performed _ _, of_forms (Or.inl rfl), apart_of_open (fun _ mem => absurd mem List.not_mem_nil) _⟩
  exact first.snoc ⟨performed _ _, trivial, apart_of_open sample_facts.1 _⟩

/-- A citation nobody researched is verified by the authority of another one. -/
theorem unresearched_citation_curated : ¬∀ (trace : List Call) (s : LawStore),
    Run (Step externals "") {} trace s → (∀ call ∈ trace, Of externals forms call) → Sound externals forms s := by
  intro sound
  have run : Run (Step externals "") {} [verify "29 CFR 1.2", supply "29 CFR 1.2", verify "29 CFR 1(2)"] borrowed :=
    .snoc (.snoc (.one (performed _ _)) (performed _ _)) (performed _ _)
  have of : ∀ call ∈ [verify "29 CFR 1.2", supply "29 CFR 1.2", verify "29 CFR 1(2)"], Of externals forms call := by
    intro call mem
    rcases List.mem_cons.mp mem with rfl | mem
    · exact of_forms (Or.inl rfl)
    · rcases List.mem_cons.mp mem with rfl | mem
      · trivial
      · cases List.mem_singleton.mp mem
        exact of_forms (Or.inr rfl)
  obtain ⟨-, -, curated, unfulfilled⟩ := sample_facts
  exact unfulfilled (sound _ _ run of _ _ (regulation "29 CFR 1(2)") rfl (Or.inr rfl) curated).1

end Sample

end MootLoop.Research
