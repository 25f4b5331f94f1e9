import MootLoop.Publication

/-! What the public pointer names. A release directory appears at once and complete, is never changed, and is the
    only thing the pointer is moved to; a demo revision keeps its content as long as nothing an earlier release had
    comes back changed. -/

namespace MootLoop.Publication
open Durable Transition

variable {x : Readers} {s s' : PublicStore}

/-! ### Checks -/

theorem each_ok {α : Type} {check : α → Except PublicationError Unit} {items : List α}
    (passed : each check items = .ok ()) : ∀ a ∈ items, check a = .ok () := by
  induction items with
  | nil => simp
  | cons a rest ih =>
    obtain ⟨⟨⟩, here, later⟩ := bind_ok passed
    intro b mem
    rcases List.mem_cons.mp mem with rfl | mem
    · exact here
    · exact ih later b mem

theorem validate_release_spec {tree : Tree} {catalog : DemoCatalog} (valid : validate_release x tree = .ok catalog) :
    release_catalog x tree = .ok catalog ∧ ∀ entry ∈ catalog.entries, check_entry x tree entry = .ok () := by
  obtain ⟨read, named, rest⟩ := bind_ok valid
  obtain ⟨⟨⟩, -, rest⟩ := bind_ok rest
  obtain ⟨⟨⟩, entries, rest⟩ := bind_ok rest
  obtain ⟨⟨⟩, -, rest⟩ := bind_ok rest
  cases rest
  exact ⟨named, each_ok entries⟩

theorem decode_digest {M : Type} {model : String → Option M} {raw : String} {digest : Digest} {value : M}
    (decoded : decode x model raw (some digest) = .ok value) : x.sha256 raw = digest := by
  unfold decode at decoded
  split at decoded
  · cases decoded
  · next same =>
    simpa using Eq.symm (by simpa using same)

/-- The bytes of an entry: what its three files hold. -/
def content (tree : Tree) (entry : CatalogEntry) : List (Except PublicationError String) :=
  FILENAMES.map fun filename => read_regular tree (entry.path filename)

/-- The files of an entry that checks have its digests. -/
theorem check_entry_spec {tree : Tree} {entry : CatalogEntry} (checked : check_entry x tree entry = .ok ()) :
    ∃ snapshot inputs review, content tree entry = [.ok snapshot, .ok inputs, .ok review] ∧
      x.sha256 snapshot = entry.snapshot_sha256 ∧ x.sha256 inputs = entry.bundle_sha256 ∧
      x.sha256 review = entry.review_sha256 := by
  obtain ⟨snapshot, read_snapshot, rest⟩ := bind_ok checked
  obtain ⟨_, decoded_snapshot, rest⟩ := bind_ok rest
  obtain ⟨inputs, read_inputs, rest⟩ := bind_ok rest
  obtain ⟨_, decoded_inputs, rest⟩ := bind_ok rest
  obtain ⟨review, read_review, rest⟩ := bind_ok rest
  obtain ⟨_, decoded_review, -⟩ := bind_ok rest
  refine ⟨snapshot, inputs, review, ?_, decode_digest decoded_snapshot, decode_digest decoded_inputs,
    decode_digest decoded_review⟩
  simp [content, FILENAMES, read_snapshot, read_inputs, read_review]

/-! ### The store -/

/-- Two catalogs have the same entry wherever they have the same revision of a demo. -/
def Agree (a b : DemoCatalog) : Prop :=
  ∀ e ∈ a.entries, ∀ f ∈ b.entries, e.descriptor.demo_id = f.descriptor.demo_id → e.revision = f.revision → e = f

/-- A release of the store and its catalog. -/
def Released (x : Readers) (s : PublicStore) (release_id : String) (catalog : DemoCatalog) : Prop :=
  ∃ tree, s.releases.get? release_id = some tree ∧ validate_release x tree = .ok catalog

/-- What the writes of the publisher keep: whatever the pointer has held is a release that validates, and all of
    these agree. -/
structure Sound (x : Readers) (s : PublicStore) : Prop where
  valid : ∀ release_id tree, s.releases.get? release_id = some tree → ∃ catalog, validate_release x tree = .ok catalog
  named : ∀ release_id ∈ s.pointed, is_identity release_id = true ∧ ∃ tree, s.releases.get? release_id = some tree
  settled : ∀ r ∈ s.pointed, ∀ r' ∈ s.pointed, ∀ a b, Released x s r a → Released x s r' b → Agree a b

/-- The writes a publication may make. -/
def Permitted (x : Readers) (s : PublicStore) : Write → Prop
  | .promote name release_id => s.releases.get? release_id = none ∧
      ∃ tree catalog, s.stages.get? name = some tree ∧ validate_release x tree = .ok catalog
  | .point release_id => is_identity release_id = true ∧ ∃ catalog, Released x s release_id catalog ∧
      ∀ r ∈ s.pointed, ∀ earlier, Released x s r earlier → Agree earlier catalog
  | _ => True

theorem Released.det {release_id : String} {a b : DemoCatalog} (h : Released x s release_id a)
    (h' : Released x s release_id b) : a = b := by
  obtain ⟨tree, held, valid⟩ := h
  obtain ⟨tree', held', valid'⟩ := h'
  rw [held] at held'
  cases held'
  rw [valid] at valid'
  cases valid'
  rfl

theorem Agree.refl (a : DemoCatalog) : Agree a a :=
  fun _ mem _ mem' demo _ => List.inj_on_of_nodup_map a.unique_demos mem mem' demo

theorem Agree.symm {a b : DemoCatalog} (h : Agree a b) : Agree b a :=
  fun e mem f mem' demo revision => (h f mem' e mem demo.symm revision.symm).symm

/-- Releases are only added, and the pointer's past is kept. -/
def Extends (s s' : PublicStore) : Prop :=
  (∀ release_id tree, s.releases.get? release_id = some tree → s'.releases.get? release_id = some tree) ∧
  s.pointed <+: s'.pointed

theorem Extends.refl (s : PublicStore) : Extends s s := ⟨fun _ _ held => held, List.prefix_rfl⟩

theorem Extends.trans {s'' : PublicStore} (h : Extends s s') (h' : Extends s' s'') : Extends s s'' :=
  ⟨fun r tree held => h'.1 r tree (h.1 r tree held), h.2.trans h'.2⟩

theorem commit_extends {w : Write} (permitted : Permitted x s w) : Extends s (Durable.commit s w) := by
  cases w with
  | stage name => exact .refl s
  | put name path text => exact .refl s
  | drop name => exact .refl s
  | point release_id => exact ⟨fun _ _ held => held, List.prefix_append ..⟩
  | promote name release_id =>
    obtain ⟨absent, tree, catalog, staged, -⟩ := permitted
    have after : Durable.commit s (.promote name release_id) =
        { s with stages := s.stages.erase name, releases := s.releases.insert release_id tree } := by
      simp only [Durable.commit, staged]
    rw [after]
    refine ⟨fun r other held => ?_, List.prefix_rfl⟩
    have ne : r ≠ release_id := by
      rintro rfl
      rw [absent] at held
      cases held
    exact (Dict.get?_insert_ne _ ne _).trans held

theorem Sound.released (sound : Sound x s) {r : String} (mem : r ∈ s.pointed) : ∃ catalog, Released x s r catalog := by
  obtain ⟨-, tree, held⟩ := sound.named r mem
  obtain ⟨catalog, valid⟩ := sound.valid r tree held
  exact ⟨catalog, tree, held, valid⟩

/-- A release of the earlier store is the same release of the later one. -/
theorem Extends.released (grows : Extends s s') (sound : Sound x s) {r : String} (mem : r ∈ s.pointed)
    {catalog : DemoCatalog} (h : Released x s' r catalog) : Released x s r catalog := by
  obtain ⟨-, tree, held⟩ := sound.named r mem
  obtain ⟨tree', held', valid⟩ := h
  rw [grows.1 r tree held] at held'
  cases held'
  exact ⟨tree, held, valid⟩

theorem Sound.commit {w : Write} (sound : Sound x s) (permitted : Permitted x s w) :
    Sound x (Durable.commit s w) := by
  have grows := commit_extends permitted
  cases w with
  | stage name => exact ⟨sound.valid, sound.named, sound.settled⟩
  | put name path text => exact ⟨sound.valid, sound.named, sound.settled⟩
  | drop name => exact ⟨sound.valid, sound.named, sound.settled⟩
  | point release_id =>
    obtain ⟨identified, catalog, released, agrees⟩ := permitted
    have known {r : String} (mem : r ∈ s.pointed ++ [release_id]) : r ∈ s.pointed ∨ r = release_id := by
      simpa using mem
    refine ⟨sound.valid, fun r mem => ?_, fun r mem r' mem' a b ra rb => ?_⟩
    · rcases known mem with old | rfl
      · exact sound.named r old
      · exact ⟨identified, released.choose, released.choose_spec.1⟩
    · rcases known mem with old | rfl <;> rcases known mem' with old' | rfl
      · exact sound.settled r old r' old' a b ra rb
      · cases Released.det rb released
        exact agrees r old a ra
      · cases Released.det ra released
        exact (agrees r' old' b rb).symm
      · cases Released.det ra rb
        exact .refl a
  | promote name release_id =>
    obtain ⟨absent, tree, catalog, staged, valid⟩ := permitted
    have after : Durable.commit s (.promote name release_id) =
        { s with stages := s.stages.erase name, releases := s.releases.insert release_id tree } := by
      simp only [Durable.commit, staged]
    rw [after] at grows ⊢
    refine ⟨fun r other held => ?_, fun r mem => ?_, fun r mem r' mem' a b ra rb => ?_⟩
    · rw [Dict.get?_insert] at held
      split at held
      · cases held
        exact ⟨catalog, valid⟩
      · exact sound.valid r other held
    · obtain ⟨identified, held, there⟩ := sound.named r mem
      exact ⟨identified, held, grows.1 r held there⟩
    · exact sound.settled r mem r' mem' a b (grows.released sound mem ra) (grows.released sound mem' rb)

/-! ### The publisher -/

/-- What the source brings agrees with every release the pointer held before the present one. -/
def Respects (x : Readers) (s : PublicStore) (call : Publish) : Prop :=
  ∀ catalog, release_catalog x call.source = .ok catalog →
    ∀ r ∈ s.pointed.dropLast, ∀ earlier, Released x s r earlier → Agree earlier catalog

/-- The present release agrees with what passes the publisher's own check. -/
theorem check_previous_agrees {catalog : DemoCatalog} (checked : check_previous x s catalog = .ok ()) {r : String}
    (current : s.current = some r) {earlier : DemoCatalog} (released : Released x s r earlier) :
    Agree earlier catalog := by
  unfold check_previous at checked
  rw [current] at checked
  obtain ⟨previous, read, rest⟩ := bind_ok checked
  have same : previous = earlier := by
    obtain ⟨tree, held, valid⟩ := released
    unfold ready at read
    rw [current] at read
    obtain ⟨⟨⟩, -, read⟩ := bind_ok read
    rw [held] at read
    dsimp only at read
    rw [valid] at read
    cases read
    rfl
  subst same
  intro e mem f mem' demo revision
  have checked := each_ok rest f mem'
  unfold check_revision at checked
  split at checked
  · cases checked
  · next prior found =>
    have prior_mem := List.mem_of_find?_eq_some found
    have prior_demo : prior.descriptor.demo_id = f.descriptor.demo_id := by simpa using List.find?_some found
    have prior_e : prior = e := List.inj_on_of_nodup_map previous.unique_demos prior_mem mem (prior_demo.trans demo.symm)
    subst prior_e
    split at checked
    · cases checked
    · next kept => exact not_not.mp fun different => kept ⟨revision, different⟩

theorem prepare_spec {call : Publish} {catalog : DemoCatalog} {captured : List (List String × String)}
    (prepared : prepare x call s = .ok (catalog, captured)) :
    validate_release x call.source = .ok catalog ∧ payloads call.source catalog = .ok captured ∧
      check_previous x s catalog = .ok () := by
  unfold prepare at prepared
  split at prepared
  · cases prepared
  · obtain ⟨read, valid, rest⟩ := bind_ok prepared
    obtain ⟨⟨⟩, -, rest⟩ := bind_ok rest
    obtain ⟨taken, read_payloads, rest⟩ := bind_ok rest
    obtain ⟨⟨⟩, -, rest⟩ := bind_ok rest
    obtain ⟨⟨⟩, -, rest⟩ := bind_ok rest
    split at rest
    · cases rest
    · obtain ⟨⟨⟩, previous, rest⟩ := bind_ok rest
      cases rest
      exact ⟨valid, read_payloads, previous⟩

/-! ### The stage -/

theorem read_catalog_iff {tree : Tree} {text : String} : read_regular tree ["catalog.json"] = .ok text ↔
    tree.get? ["catalog.json"] = some (.file text) ∧ text.utf8ByteSize ≤ MAX_PUBLIC_FILE := by
  have named : identity "catalog.json" = .ok () := by
    unfold identity
    rw [if_pos (by decide)]
  unfold read_regular read_from
  rw [named]
  change (if tree.get? ["catalog.json"] = some .symlink then _ else read_from tree ["catalog.json"] []) = _ ↔ _
  split
  · next linked => simp [linked]
  · unfold read_from
    split
    · next found held =>
      rw [held, Option.some.injEq, Node.file.injEq]
      split
      · next small => exact ⟨fun h => ⟨Except.ok.inj h, Except.ok.inj h ▸ small⟩, fun h => congrArg _ h.1⟩
      · next large => exact ⟨fun h => (nomatch h), fun h => absurd (h.1 ▸ h.2) large⟩
    · next other held => simp_all
    · next held => simp_all

/-- Two trees with one catalog text have one catalog. -/
theorem same_catalog {tree tree' : Tree} {text : String} {a b : DemoCatalog}
    (read : read_regular tree ["catalog.json"] = .ok text) (read' : read_regular tree' ["catalog.json"] = .ok text)
    (named : release_catalog x tree = .ok a) (named' : release_catalog x tree' = .ok b) : a = b := by
  unfold release_catalog at named named'
  rw [read] at named
  rw [read'] at named'
  exact Except.ok.inj (named.symm.trans named')

theorem put_keeps {tree : Tree} {path other : List String} {text : String} {node : Node} (ne : other ≠ path)
    (held : tree.get? other = some node) : (tree.put path text).get? other = some node := by
  have above (parents : List (List String)) (tree : Tree) (held : tree.get? other = some node) :
      (parents.foldl (fun tree parent => Dict.setDefault tree parent .dir) tree).get? other = some node := by
    induction parents generalizing tree with
    | nil => exact held
    | cons parent rest ih =>
      refine ih _ ?_
      dsimp only [Dict.setDefault]
      split
      · exact held
      · next absent =>
        refine (Dict.get?_insert_ne _ ?_ _).trans held
        rintro rfl
        exact absent (Dict.contains_iff.mpr ⟨node, held⟩)
  exact (Dict.get?_insert_ne _ ne _).trans (above _ tree held)

theorem put_self (tree : Tree) (path : List String) (text : String) :
    (tree.put path text).get? path = some (.file text) := Dict.get?_insert_self ..

/-- The captured files are the catalog and others. -/
theorem payloads_spec {source : Tree} {catalog : DemoCatalog} {captured : List (List String × String)}
    (taken : payloads source catalog = .ok captured) : ∃ text rest, captured = (["catalog.json"], text) :: rest ∧
      read_regular source ["catalog.json"] = .ok text ∧ ∀ payload ∈ rest, payload.1 ≠ ["catalog.json"] := by
  have paths : ∀ (names : List (List String)) (read : List (List String × String)),
      (names.mapM fun path => return (path, ← read_regular source path)) = .ok read → read.map (·.1) = names := by
    intro names
    induction names with
    | nil =>
      intro read taken
      cases taken
      rfl
    | cons name rest ih =>
      intro read taken
      rw [List.mapM_cons] at taken
      obtain ⟨first, here, taken⟩ := bind_ok taken
      obtain ⟨text, -, here⟩ := bind_ok here
      obtain ⟨others, later, taken⟩ := bind_ok taken
      cases here
      cases taken
      simp [ih others later]
  unfold payloads expected_files at taken
  rw [List.cons_append, List.mapM_cons] at taken
  obtain ⟨first, here, taken⟩ := bind_ok taken
  obtain ⟨text, read, here⟩ := bind_ok here
  obtain ⟨rest, later, taken⟩ := bind_ok taken
  cases here
  cases taken
  refine ⟨text, rest, rfl, read, fun payload mem => ?_⟩
  have named : payload.1 ∈ rest.map (·.1) := List.mem_map_of_mem mem
  rw [paths _ rest later] at named
  rcases List.mem_append.mp named with legacy | file
  · split at legacy
    · rw [List.mem_singleton.mp legacy]
      decide
    · cases legacy
  · obtain ⟨entry, -, file⟩ := List.mem_flatMap.mp file
    obtain ⟨filename, -, same⟩ := List.mem_map.mp file
    rw [← same]
    simp [CatalogEntry.path]

/-- The puts of a stage leave the rest of the store, and build its tree. -/
theorem commits_puts (name : String) (captured : List (List String × String)) {s : PublicStore} {tree : Tree}
    (staged : s.stages.get? name = some tree) :
    let after := commits s (captured.map fun payload => Write.put name payload.1 payload.2)
    after.releases = s.releases ∧ after.pointed = s.pointed ∧
      after.stages.get? name = some (captured.foldl (fun tree payload => tree.put payload.1 payload.2) tree) := by
  induction captured generalizing s tree with
  | nil => exact ⟨rfl, rfl, staged⟩
  | cons payload rest ih =>
    have put : (Durable.commit s (Write.put name payload.1 payload.2)).stages.get? name =
        some (tree.put payload.1 payload.2) := by
      simp only [Durable.commit, staged, Option.getD_some, Dict.get?_insert_self]
    exact ih put

theorem foldl_put_keeps {other : List String} {node : Node} (captured : List (List String × String))
    (others : ∀ payload ∈ captured, payload.1 ≠ other) {tree : Tree} (held : tree.get? other = some node) :
    (captured.foldl (fun tree payload => Tree.put tree payload.1 payload.2) tree).get? other = some node := by
  induction captured generalizing tree with
  | nil => exact held
  | cons payload rest ih =>
    exact ih (fun p mem => others p (List.mem_cons_of_mem _ mem))
      (put_keeps (others payload List.mem_cons_self).symm held)

/-! ### The writes of a publication -/

/-- With the publisher's own check, the source agrees with every release the pointer has held. -/
theorem agrees_with_all {call : Publish} {catalog : DemoCatalog} (valid : validate_release x call.source = .ok catalog)
    (respects : Respects x s call) (checked : check_previous x s catalog = .ok ()) :
    ∀ r ∈ s.pointed, ∀ earlier, Released x s r earlier → Agree earlier catalog := by
  intro r mem earlier released
  rcases List.eq_nil_or_concat' s.pointed with none_ | ⟨before, last, pointed⟩
  · rw [none_] at mem
    cases mem
  · rw [pointed] at mem
    rcases List.mem_append.mp mem with past | present
    · refine respects catalog (validate_release_spec valid).1 r ?_ earlier released
      rw [pointed, List.dropLast_concat]
      exact past
    · have current : s.current = some r := by
        rw [List.mem_singleton.mp present, PublicStore.current, pointed, List.getLast?_concat]
      exact check_previous_agrees checked current released

theorem promote_permitted {call : Publish} {catalog : DemoCatalog} {captured : List (List String × String)}
    (sound : Sound x s) (staged : s.stages.get? call.stage = some ∅)
    (valid : validate_release x call.source = .ok catalog) (taken : payloads call.source catalog = .ok captured)
    (agrees : ∀ r ∈ s.pointed, ∀ earlier, Released x s r earlier → Agree earlier catalog) :
    wp (Permitted x) (promote x call catalog captured) (fun _ _ => True) s := by
  unfold promote
  rw [wp_bind, wp_forEach_write]
  refine ⟨(path_of_only (C := fun w => ∃ path text, w = .put call.stage path text) ?_).mono ?_, ?_⟩
  · intro w mem
    obtain ⟨payload, -, rfl⟩ := List.mem_map.mp mem
    exact ⟨_, _, rfl⟩
  · rintro s w ⟨path, text, rfl⟩
    trivial
  obtain ⟨releases, pointed, built⟩ := commits_puts call.stage captured staged
  generalize commits s (captured.map fun payload => Write.put call.stage payload.1 payload.2) = s₂ at *
  dsimp only
  rw [wp_bind, wp_read]
  dsimp only
  rw [wp_bind, wp_lift]
  obtain ⟨text, others, rfl, read, apart⟩ := payloads_spec taken
  have catalog_read := (read_catalog_iff.mp read).2
  have named := (validate_release_spec valid).1
  -- Sound and agreement survive the puts, which touch no release
  have sound₂ : Sound x s₂ := by
    refine ⟨fun r tree held => sound.valid r tree (releases ▸ held), fun r mem => ?_, fun r mem r' mem' a b ra rb => ?_⟩
    · obtain ⟨identified, tree, held⟩ := sound.named r (pointed ▸ mem)
      exact ⟨identified, tree, releases ▸ held⟩
    · unfold Released at ra rb
      rw [releases] at ra rb
      exact sound.settled r (pointed ▸ mem) r' (pointed ▸ mem') a b ra rb
  have agrees₂ : ∀ r ∈ s₂.pointed, ∀ earlier, Released x s₂ r earlier → Agree earlier catalog := by
    intro r mem earlier released
    unfold Released at released
    rw [releases] at released
    exact agrees r (pointed ▸ mem) earlier released
  obtain ⟨tree, built, tree_read⟩ : ∃ tree, s₂.stages.get? call.stage = some tree ∧
      read_regular tree ["catalog.json"] = .ok text :=
    ⟨_, built, read_catalog_iff.mpr ⟨foldl_put_keeps others apart (put_self ∅ ["catalog.json"] text), catalog_read⟩⟩
  rw [built, Option.getD_some]
  rcases checked : validate_release x tree with e | staged_catalog
  · trivial
  have same := same_catalog read tree_read named (validate_release_spec checked).1
  subst same
  dsimp only
  split
  · next destination held =>
    rw [wp_bind, wp_lift]
    rcases destined : validate_release x destination with e | there
    · trivial
    dsimp only
    rw [wp_bind, wp_lift]
    rcases compared : each (check_same destination) ((["catalog.json"], text) :: others) with e | ⟨⟩
    · trivial
    dsimp only
    rw [wp_write]
    have first := each_ok compared _ List.mem_cons_self
    have destination_read : read_regular destination ["catalog.json"] = .ok text := by
      obtain ⟨found, here, same⟩ := bind_ok first
      split at same
      · cases same
      · next equal => rw [here, not_not.mp equal]
    have same := same_catalog read destination_read named (validate_release_spec destined).1
    subst same
    exact ⟨⟨catalog.identified, catalog, ⟨destination, held, destined⟩, agrees₂⟩, trivial⟩
  · next absent =>
    have promotes : Permitted x s₂ (.promote call.stage catalog.release_id) := ⟨absent, _, _, built, checked⟩
    rw [wp_bind, wp_write]
    refine ⟨promotes, ?_⟩
    dsimp only
    rw [wp_write]
    have grows := commit_extends promotes
    have after : Durable.commit s₂ (.promote call.stage catalog.release_id) =
        { s₂ with stages := s₂.stages.erase call.stage, releases := s₂.releases.insert catalog.release_id tree } := by
      simp only [Durable.commit, built]
    refine ⟨⟨catalog.identified, catalog, ⟨_, ?_, checked⟩, fun r mem earlier released => ?_⟩, trivial⟩
    · rw [after]
      exact Dict.get?_insert_self ..
    · have mem : r ∈ s₂.pointed := by rwa [after] at mem
      exact agrees₂ r mem earlier (grows.released sound₂ mem released)

/-- Every write of a publication that respects the past is permitted. -/
theorem publish_permitted {call : Publish} (sound : Sound x s) (respects : Respects x s call) :
    wp (Permitted x) (publish_release x call) (fun _ _ => True) s := by
  unfold publish_release
  rw [wp_bind, wp_read]
  dsimp only
  rw [wp_bind, wp_lift]
  rcases prepared : prepare x call s with e | ⟨catalog, captured⟩
  · trivial
  obtain ⟨valid, taken, checked⟩ := prepare_spec prepared
  dsimp only
  rw [wp_bind, wp_write]
  refine ⟨trivial, ?_⟩
  dsimp only
  rw [wp_bind, wp_attempt]
  have sound₁ : Sound x (Durable.commit s (Write.stage call.stage)) := sound.commit (w := .stage call.stage) trivial
  have staged : (Durable.commit s (Write.stage call.stage)).stages.get? call.stage = some ∅ := Dict.get?_insert_self ..
  have promoted := promote_permitted sound₁ staged valid taken (agrees_with_all valid respects checked)
  refine promoted.post ?_
  rintro (e | ⟨⟩) s₃ -
  all_goals
    simp only [wp_bind, wp_read, wp_when, wp_write, wp_lift, wp_pure]
    exact ⟨fun _ => ⟨trivial, trivial⟩, fun _ => trivial⟩

/-! ### Runs -/

/-- The pointer, once there is one, names a release that validates. -/
def Complete (x : Readers) (s : PublicStore) : Prop := s.current.isSome = true → ∃ catalog, ready x s = .ok catalog

/-- A demo revision that was current at one moment and is at another has the same content at both. -/
def SameContent (x : Readers) (s s' : PublicStore) : Prop :=
  ∀ r ∈ s.pointed, ∀ r' ∈ s'.pointed, ∀ tree tree', s.releases.get? r = some tree → s'.releases.get? r' = some tree' →
    ∀ a b, release_catalog x tree = .ok a → release_catalog x tree' = .ok b → ∀ e ∈ a.entries, ∀ f ∈ b.entries,
      e.descriptor.demo_id = f.descriptor.demo_id → e.revision = f.revision → content tree e = content tree' f

theorem Sound.complete (sound : Sound x s) : Complete x s := by
  intro some_current
  obtain ⟨r, current⟩ := Option.isSome_iff_exists.mp some_current
  obtain ⟨identified, tree, held⟩ := sound.named r (List.mem_of_getLast? current)
  obtain ⟨catalog, valid⟩ := sound.valid r tree held
  refine ⟨catalog, ?_⟩
  have passes : identity r = .ok () := if_pos identified
  unfold ready
  rw [current]
  dsimp only
  rw [passes, held]
  exact valid

theorem Sound.same_content (injective : Function.Injective x.sha256) (sound : Sound x s) (sound' : Sound x s')
    (grows : Extends s s') : SameContent x s s' := by
  intro r mem r' mem' tree tree' held held' a b named named' e mem_e f mem_f demo revision
  obtain ⟨a', valid⟩ := sound.valid r tree held
  obtain ⟨b', valid'⟩ := sound'.valid r' tree' held'
  cases Except.ok.inj (named.symm.trans (validate_release_spec valid).1)
  cases Except.ok.inj (named'.symm.trans (validate_release_spec valid').1)
  have same : e = f := sound'.settled r (grows.2.subset mem) r' mem' a b ⟨tree, grows.1 r tree held, valid⟩
    ⟨tree', held', valid'⟩ e mem_e f mem_f demo revision
  subst same
  obtain ⟨snapshot, inputs, review, read, d₁, d₂, d₃⟩ := check_entry_spec ((validate_release_spec valid).2 e mem_e)
  obtain ⟨snapshot', inputs', review', read', d₁', d₂', d₃'⟩ :=
    check_entry_spec ((validate_release_spec valid').2 e mem_f)
  rw [read, read', injective (d₁.trans d₁'.symm), injective (d₂.trans d₂'.symm), injective (d₃.trans d₃'.symm)]

theorem Step.keeps {call : Publish} (sound : Sound x s) (step : Step x s call s') (respects : Respects x s call) :
    Sound x s' ∧ Extends s s' := by
  refine (publish_permitted sound respects).crash (I := fun t => Sound x t ∧ Extends s t) ?_ ⟨sound, .refl s⟩ step.2
  rintro t w ⟨sound_t, grows⟩ permitted
  exact ⟨sound_t.commit permitted, grows.trans (commit_extends permitted)⟩

theorem empty_sound : Sound x {} :=
  ⟨fun _ _ held => (nomatch held), fun _ mem => absurd mem List.not_mem_nil, fun _ mem => absurd mem List.not_mem_nil⟩

/-- Where nothing an earlier release had comes back changed, publications, finished or crashed, leave the pointer
    on a complete release and every demo revision with one content. -/
theorem revisions_immutable (injective : Function.Injective x.sha256) {trace trace' : List Publish}
    (run : Run (Meeting (Step x) fun s call _ => Respects x s call) {} trace s)
    (later : Run (Meeting (Step x) fun s call _ => Respects x s call) s trace' s') :
    Complete x s' ∧ SameContent x s s' := by
  have sound : Sound x s := run.invariant (fun _ _ _ h meeting => (Step.keeps h meeting.1 meeting.2).1) empty_sound
  obtain ⟨sound', grows⟩ : Sound x s' ∧ Extends s s' := later.invariant (I := fun t => Sound x t ∧ Extends s t)
    (fun _ _ _ h meeting => (Step.keeps h.1 meeting.1 meeting.2).imp_right h.2.trans) ⟨sound, .refl s⟩
  exact ⟨sound'.complete, sound.same_content injective sound' grows⟩

/-! ### Three releases -/

namespace Sample

def descriptor (demo_id : String) : DemoDescriptor := { demo_id, introduction := "", task := "complaint", rest := "" }

/-- An entry whose digests are its texts. -/
def entry (demo_id revision text : String) : CatalogEntry where
  descriptor := descriptor demo_id
  revision
  snapshot_sha256 := s!"{demo_id} {revision}{text} s"
  bundle_sha256 := s!"{demo_id} {revision}{text} i"
  review_sha256 := s!"{demo_id} {revision}{text} r"

/-- The other nineteen demos. -/
def others : List CatalogEntry := DEMO_IDS.tail.map fun demo_id => entry demo_id "r1" "A"

/-- A release whose first demo has this revision and text. -/
def release (release_id : String) (identified : is_identity release_id = true) (revision text : String) :
    DemoCatalog where
  release_id
  legacy_sha256 := none
  entries := entry "supplier-discovery" revision text :: others
  identified
  unique_demos := by
    have ids : (entry "supplier-discovery" revision text :: others).map (·.descriptor.demo_id) = DEMO_IDS := rfl
    rw [ids]
    decide

def first : DemoCatalog := release "rel-1" (by decide) "r1" "A"
def second : DemoCatalog := release "rel-2" (by decide) "r2" "B"
def third : DemoCatalog := release "rel-3" (by decide) "r1" "C"

def known : List CatalogEntry := first.entries ++ [entry "supplier-discovery" "r2" "B", entry "supplier-discovery" "r1" "C"]

def readers : Readers where
  sha256 text := text
  catalog text := [("one", first), ("two", second), ("three", third)].lookup text
  snapshot text := (known.find? (·.snapshot_sha256 = text)).map fun e => ⟨e.descriptor, e.revision, e.bundle_sha256⟩
  bundle text := (known.find? (·.bundle_sha256 = text)).map fun e =>
    ⟨e.descriptor.demo_id, e.revision, e.descriptor.task⟩
  review text := (known.find? (·.review_sha256 = text)).map fun e =>
    ⟨e.descriptor.demo_id, e.revision, e.snapshot_sha256, e.bundle_sha256⟩
  legacy _ := none
  validate_bundle _ := true
  credential _ := false

/-- The files of a release under a catalog text. -/
def source (text : String) (catalog : DemoCatalog) : Tree :=
  (catalog.entries.flatMap fun e => [(e.path "snapshot.json", e.snapshot_sha256), (e.path "inputs.json", e.bundle_sha256),
    (e.path "review.json", e.review_sha256)]).foldl (fun tree file => tree.put file.1 file.2)
    (Tree.put ∅ ["catalog.json"] text)

def call (text : String) (catalog : DemoCatalog) : Publish where
  source := source text catalog
  approved := DEMO_IDS.map descriptor
  stage := ".stage-" ++ text

def published (s : PublicStore) (call : Publish) : PublicStore := (publish_release readers call).final s

def once : PublicStore := published {} (call "one" first)
def twice : PublicStore := published once (call "two" second)
def thrice : PublicStore := published twice (call "three" third)

/-- The revision and the snapshot text a release of the store has for the first demo. -/
def shows (s : PublicStore) (release_id : String) : Option (String × String) := do
  let tree ← s.releases.get? release_id
  let catalog ← (release_catalog readers tree).toOption
  let entry ← catalog.entries.find? (·.descriptor.demo_id = "supplier-discovery")
  let text ← (read_regular tree (entry.path "snapshot.json")).toOption
  return (entry.revision, text)

theorem facts :
    once.pointed = ["rel-1"] ∧ once.stages.contains ".stage-two" = false ∧ twice.pointed = ["rel-1", "rel-2"] ∧
    twice.stages.contains ".stage-three" = false ∧ thrice.pointed = ["rel-1", "rel-2", "rel-3"] ∧
    shows once "rel-1" = some ("r1", "supplier-discovery r1A s") ∧
    shows thrice "rel-3" = some ("r1", "supplier-discovery r1C s") := by
  decide +kernel

theorem step (s : PublicStore) (c : Publish) (free : s.stages.contains c.stage = false) :
    Step readers s c (published s c) := ⟨free, Prog.Crash.final _ s⟩

/-- A release of new content under a new revision leaves the pointer complete and the first revision as it was. -/
theorem second_release_immutable : twice.pointed = ["rel-1", "rel-2"] ∧ Complete readers twice ∧
    SameContent readers once twice := by
  obtain ⟨pointed, free, pointed', -⟩ := facts
  have begun : Run (Meeting (Step readers) fun s call _ => Respects readers s call) {} [call "one" first] once :=
    .one ⟨step {} (call "one" first) rfl, fun _ _ r mem => absurd mem List.not_mem_nil⟩
  have continued : Run (Meeting (Step readers) fun s call _ => Respects readers s call) once [call "two" second] twice := by
    refine .one ⟨step once (call "two" second) free, fun _ _ r mem => ?_⟩
    rw [pointed] at mem
    exact absurd mem List.not_mem_nil
  exact ⟨pointed', revisions_immutable Function.injective_id begun continued⟩

theorem ok_of_toOption {α : Type} {r : Except PublicationError α} {a : α} (h : r.toOption = some a) : r = .ok a := by
  cases r with
  | error e => cases h
  | ok b =>
    cases h
    rfl

theorem shows_spec {s : PublicStore} {release_id revision text : String}
    (shown : shows s release_id = some (revision, text)) : ∃ tree catalog, s.releases.get? release_id = some tree ∧
      release_catalog readers tree = .ok catalog ∧ ∃ e ∈ catalog.entries,
        e.descriptor.demo_id = "supplier-discovery" ∧ e.revision = revision ∧
        read_regular tree (e.path "snapshot.json") = .ok text := by
  obtain ⟨tree, held, shown⟩ := Option.bind_eq_some_iff.mp shown
  obtain ⟨catalog, named, shown⟩ := Option.bind_eq_some_iff.mp shown
  obtain ⟨e, found, shown⟩ := Option.bind_eq_some_iff.mp shown
  obtain ⟨text, read, shown⟩ := Option.bind_eq_some_iff.mp shown
  cases shown
  exact ⟨tree, catalog, held, ok_of_toOption named, e, List.mem_of_find?_eq_some found,
    by simpa using List.find?_some found, rfl, ok_of_toOption read⟩

/-- A revision that a release dropped comes back with other content. -/
theorem revision_returns_changed : ¬∀ (trace trace' : List Publish) (s s' : PublicStore),
    Run (Step readers) {} trace s → Run (Step readers) s trace' s' → Complete readers s' ∧ SameContent readers s s' := by
  intro immutable
  obtain ⟨pointed, free, -, free', pointed', shown, shown'⟩ := facts
  obtain ⟨tree, a, held, named, e, mem, demo, revision, read⟩ := shows_spec shown
  obtain ⟨tree', b, held', named', f, mem', demo', revision', read'⟩ := shows_spec shown'
  have later : Run (Step readers) once [call "two" second, call "three" third] thrice :=
    .snoc (.one (step once (call "two" second) free)) (step twice (call "three" third) free')
  have first_mem : "rel-1" ∈ once.pointed := pointed ▸ List.mem_cons_self
  have third_mem : "rel-3" ∈ thrice.pointed := by
    rw [pointed']
    decide
  have same := (immutable _ _ _ _ (.one (step {} (call "one" first) rfl)) later).2 "rel-1" first_mem "rel-3" third_mem tree tree' held held' a b named named' e mem f mem' (demo.trans demo'.symm)
    (revision.trans revision'.symm)
  have snapshots : read_regular tree (e.path "snapshot.json") = read_regular tree' (f.path "snapshot.json") := by
    unfold content FILENAMES at same
    simpa using (List.cons.inj same).1
  rw [read, read'] at snapshots
  exact absurd (Except.ok.inj snapshots) (by decide)

end Sample

end MootLoop.Publication
