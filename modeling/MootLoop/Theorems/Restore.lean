import MootLoop.Backup

/-! A restore either puts the archive's vault at the target or leaves the target alone, except that an
    overwriting restore removes the old vault before the new one is in its place. -/

namespace MootLoop

open Files

/-! ### The property -/

/-- The two trees hold the same files. -/
def Same (t t' : Tree) : Prop := ∀ p, t.get? p = t'.get? p

def SameTarget : Option Tree → Option Tree → Prop
  | some t, some t' => Same t t'
  | none, none => True
  | _, _ => False

/-- The vault an archive holds, up to its canary file, which a restore registers and writes again. -/
def ArchiveVault (codec : Codec) (call : RestoreCall) (staging : Path) (vault : Tree) : Prop :=
  ∃ archive plain members matter_id tree, call.archive = some archive ∧
    archive_bytes codec archive call.key = .ok plain ∧ codec.getmembers plain = some members ∧
    archive_matter_id members = .ok matter_id ∧ extractall staging members = some tree ∧
    ∀ p ≠ [CANARY_FILE], vault.get? p = (below matter_id tree).get? p

/-- The call returned with the archive's vault at the target, or raised and left an existing vault alone. -/
def Atomic (codec : Codec) (call : RestoreCall) (host : Destination)
    (result : Except BackupFailure String × Destination) : Prop :=
  match result.1 with
  | .ok _ => ∃ vault, result.2.target = some vault ∧ ArchiveVault codec call host.staging vault
  | .error _ => occupied host.target = true → SameTarget host.target result.2.target

/-! ### The condition -/

/-- The archive passed every check, and its vault lies in the staging directory, ready to be published. -/
def Prepared (codec : Codec) (faults : Faults) (call : RestoreCall) (host : Destination) (extracted : Tree) : Prop :=
  ∃ members matter_id vault registry, opened codec call host = .ok (members, matter_id) ∧
    staged_vault codec faults host members matter_id = .ok vault ∧
    seed_canary faults vault matter_id call.random host.registry = (.ok extracted, registry)

/-- The move to the target fails: by itself, or since something at the target cannot be removed. -/
def Blocked (faults : Faults) (target : Tree) : Prop :=
  faults.replace = true ∨ target.get? [] ≠ some .dir ∨ ∃ p ∈ target.keys, p ≠ [] ∧ faults.undeletable p = true

/-- Nothing at the target can be removed. -/
def Immovable (faults : Faults) (target : Tree) : Prop :=
  target.get? [] ≠ some .dir ∨ ∀ p ∈ target.keys, ∃ q ∈ target.keys, p <+: q ∧ faults.undeletable q = true

/-- No call that gets as far as an existing vault fails once part of it is gone. -/
def Spared (codec : Codec) (faults : Faults) (call : RestoreCall) (host : Destination) : Prop :=
  ∀ extracted target, Prepared codec faults call host extracted → host.target = some target →
    occupied host.target = true →
      (Blocked faults target → Immovable faults target) ∧
      (¬Blocked faults target → faults.fsync = true → Same target extracted)

/-! ### Removing the old vault -/

/-- What `rmtree` leaves of a directory. -/
def leftover (undeletable : Path → Bool) (tree : Tree) : Tree :=
  tree.keep fun p => tree.keys.any fun q => p.isPrefixOf q && undeletable q

theorem get?_leftover (undeletable : Path → Bool) (tree : Tree) (p : Path) :
    (leftover undeletable tree).get? p =
      if (∃ q ∈ tree.keys, p <+: q ∧ undeletable q = true) then tree.get? p else none := by
  rw [leftover, Dict.get?_keep]
  simp only [List.any_eq_true, Bool.and_eq_true, List.isPrefixOf_iff_prefix]

theorem rmtree_file {undeletable : Path → Bool} {tree : Tree} (file : tree.get? [] ≠ some .dir) :
    rmtree undeletable (some tree) = some tree := by simp [rmtree, file]

theorem rmtree_dir {undeletable : Path → Bool} {tree : Tree} (dir : tree.get? [] = some .dir) :
    rmtree undeletable (some tree) =
      if (leftover undeletable tree).keys = [] then none else some (leftover undeletable tree) := by
  simp only [rmtree, dir, ne_eq, not_true_eq_false, if_false, leftover]
  rfl

theorem rmtree_same (faults : Faults) (tree : Tree) :
    SameTarget (some tree) (rmtree faults.undeletable (some tree)) ↔ Immovable faults tree := by
  by_cases root : tree.get? [] = some .dir
  · rw [rmtree_dir root]
    constructor
    · intro same
      refine Or.inr fun p mem => ?_
      obtain ⟨n, held⟩ := Dict.mem_keys.mp mem
      split at same
      · exact same.elim
      · have kept := same p
        rw [get?_leftover, held] at kept
        split at kept
        · assumption
        · cases kept
    · rintro (file | stuck)
      · exact absurd root file
      · have kept : ∀ p, (leftover faults.undeletable tree).get? p = tree.get? p := by
          intro p
          rw [get?_leftover]
          split
          · rfl
          · next free => exact (Dict.get?_of_not_mem fun mem => free (stuck p mem)).symm
        rw [if_neg]
        · exact fun p => (kept p).symm
        · intro gone
          have mem : ([] : Path) ∈ (leftover faults.undeletable tree).keys :=
            Dict.mem_keys.mpr ⟨.dir, by rw [kept]; exact root⟩
          rw [gone] at mem
          cases mem
  · rw [rmtree_file root]
    exact ⟨fun _ => Or.inl root, fun _ p => rfl⟩

theorem occupied_file {tree : Tree} (file : tree.get? [] ≠ some .dir) : occupied (some tree) = true := by
  simp [occupied, file]

theorem occupied_dir {tree : Tree} (dir : tree.get? [] = some .dir) :
    occupied (some tree) = true ↔ ∃ p ∈ tree.keys, p ≠ [] := by simp [occupied, dir]

theorem occupied_rmtree (faults : Faults) (tree : Tree) :
    occupied (rmtree faults.undeletable (some tree)) = true ↔
      tree.get? [] ≠ some .dir ∨ ∃ p ∈ tree.keys, p ≠ [] ∧ faults.undeletable p = true := by
  by_cases root : tree.get? [] = some .dir
  · simp only [root, ne_eq, not_true_eq_false, false_or]
    rw [rmtree_dir root]
    have inside : ∀ p ∈ (leftover faults.undeletable tree).keys,
        ∃ q ∈ tree.keys, p <+: q ∧ faults.undeletable q = true := by
      intro p mem
      obtain ⟨n, held⟩ := Dict.mem_keys.mp mem
      rw [get?_leftover] at held
      split at held
      · assumption
      · cases held
    have stays : ∀ p ∈ tree.keys, faults.undeletable p = true → p ∈ (leftover faults.undeletable tree).keys := by
      intro p mem stuck
      obtain ⟨n, held⟩ := Dict.mem_keys.mp mem
      exact Dict.mem_keys.mpr ⟨n, by rw [get?_leftover, if_pos ⟨p, mem, List.prefix_rfl, stuck⟩]; exact held⟩
    split
    · next gone =>
      refine ⟨fun h => absurd h (by simp [occupied]), fun found => ?_⟩
      obtain ⟨p, mem, -, stuck⟩ := found
      have held := stays p mem stuck
      rw [gone] at held
      cases held
    · next more =>
      obtain ⟨p₀, mem₀⟩ := List.exists_mem_of_ne_nil _ more
      obtain ⟨q₀, qmem₀, -, stuck₀⟩ := inside p₀ mem₀
      have top : (leftover faults.undeletable tree).get? [] = some .dir := by
        rw [get?_leftover, if_pos ⟨q₀, qmem₀, List.nil_prefix, stuck₀⟩]
        exact root
      rw [occupied_dir top]
      constructor
      · rintro ⟨p, mem, deep⟩
        obtain ⟨q, qmem, above, stuck⟩ := inside p mem
        exact ⟨q, qmem, fun shallow => deep (List.prefix_nil.mp (shallow ▸ above)), stuck⟩
      · rintro ⟨p, mem, deep, stuck⟩
        exact ⟨p, stays p mem stuck, deep⟩
  · rw [rmtree_file root]
    exact ⟨fun _ => Or.inl root, fun _ => occupied_file root⟩

/-! ### What a restore does step by step -/

section
variable {codec : Codec} {faults : Faults} {call : RestoreCall} {host : Destination}

theorem opened_ok {members : List TarInfo} {matter_id : String}
    (h : opened codec call host = .ok (members, matter_id)) :
    ∃ archive plain, call.archive = some archive ∧ archive_bytes codec archive call.key = .ok plain ∧
      codec.getmembers plain = some members ∧ archive_matter_id members = .ok matter_id ∧
      host.root_refused = false ∧ host.target_refused = false ∧
      (occupied host.target = true → call.overwrite = true) := by
  unfold opened at h
  cases found : call.archive with
  | none => rw [found] at h; cases h
  | some archive =>
    rw [found] at h
    cases bytes : archive_bytes codec archive call.key with
    | error e => simp [bytes, bind, Except.bind] at h
    | ok plain =>
      cases listed : codec.getmembers plain with
      | none =>
        cases root : host.root_refused <;>
          simp [bytes, listed, root, getmembers, bind, Except.bind, throw, throwThe, MonadExceptOf.throw] at h
      | some ms =>
        cases named : archive_matter_id ms with
        | error e =>
          cases root : host.root_refused <;>
            simp [bytes, listed, named, root, getmembers, bind, Except.bind, throw, throwThe,
              MonadExceptOf.throw] at h
        | ok id =>
          cases root : host.root_refused <;> cases inside : host.target_refused <;>
            cases full : occupied host.target <;> cases allowed : call.overwrite <;>
            simp [bytes, listed, named, root, inside, full, allowed, getmembers, bind, Except.bind, pure,
              Except.pure, throw, throwThe, MonadExceptOf.throw] at h
          all_goals
            obtain ⟨rfl, rfl⟩ := h
            exact ⟨archive, plain, rfl, bytes, listed, named, rfl, rfl, by simp⟩

theorem staged_vault_ok {members : List TarInfo} {matter_id : String} {vault : Tree}
    (h : staged_vault codec faults host members matter_id = .ok vault) :
    ∃ tree, extractall host.staging members = some tree ∧ vault = below matter_id tree := by
  unfold staged_vault at h
  cases made : faults.mkdtemp with
  | true => simp [made, bind, Except.bind, throw, throwThe, MonadExceptOf.throw] at h
  | false =>
    simp only [made, bind, Except.bind, Bool.false_eq_true, if_false, pure, Except.pure] at h
    cases got : safe_extract faults host.staging members with
    | error e => rw [got] at h; cases h
    | ok tree =>
      simp only [got] at h
      have all : extractall host.staging members = some tree := by
        unfold safe_extract at got
        split at got
        · cases got
        · split at got
          · cases got
          · next whole =>
            split at got
            · cases got
            · cases got; exact whole
      split at h
      · cases h
      · cases h; exact ⟨tree, all, rfl⟩

theorem seed_canary_ok {vault extracted : Tree} {matter_id random : String} {registry registry' : Registry}
    (h : seed_canary faults vault matter_id random registry = (.ok extracted, registry')) :
    ∀ p ≠ [CANARY_FILE], extracted.get? p = vault.get? p := by
  intro p other
  unfold seed_canary at h
  split at h
  · cases h
  · split at h
    · cases h
    · split at h
      · cases h
      · cases h
        exact Dict.get?_insert_ne _ other _

theorem Prepared.archive {extracted : Tree} (ready : Prepared codec faults call host extracted) :
    ArchiveVault codec call host.staging extracted := by
  obtain ⟨members, matter_id, vault, registry, opens, stages, seeds⟩ := ready
  obtain ⟨archive, plain, held, bytes, listed, named, -⟩ := opened_ok opens
  obtain ⟨tree, all, rfl⟩ := staged_vault_ok stages
  exact ⟨archive, plain, members, matter_id, tree, held, bytes, listed, named, all, seed_canary_ok seeds⟩

theorem Prepared.overwrites {extracted : Tree} (ready : Prepared codec faults call host extracted)
    (full : occupied host.target = true) : call.overwrite = true := by
  obtain ⟨members, matter_id, vault, registry, opens, -⟩ := ready
  obtain ⟨-, -, -, -, -, -, -, -, allowed⟩ := opened_ok opens
  exact allowed full

/-- A call that raises before it publishes leaves the target as it was; one that is prepared publishes. -/
theorem restore_matter_cases (codec : Codec) (faults : Faults) (call : RestoreCall) (host : Destination) :
    (∃ e registry, restore_matter codec faults call host = (.error e, { host with registry := registry }) ∧
      ∀ extracted, ¬Prepared codec faults call host extracted) ∨
    ∃ extracted matter_id registry, Prepared codec faults call host extracted ∧
      (∀ other, Prepared codec faults call host other → other = extracted) ∧
      restore_matter codec faults call host =
        ((publish_restored faults call.overwrite extracted host.target).1.map fun _ => matter_id,
          { host with
            registry := registry
            target := (publish_restored faults call.overwrite extracted host.target).2 }) := by
  unfold restore_matter
  cases opens : opened codec call host with
  | error e =>
    refine Or.inl ⟨e, host.registry, rfl, ?_⟩
    rintro extracted ⟨members, matter_id, vault, registry, opens', -⟩
    rw [opens] at opens'
    cases opens'
  | ok r =>
    obtain ⟨members, matter_id⟩ := r
    cases stages : staged_vault codec faults host members matter_id with
    | error e =>
      refine Or.inl ⟨e, host.registry, by simp only [stages], ?_⟩
      rintro extracted ⟨ms, id, vault, registry, opens', stages', -⟩
      rw [opens] at opens'
      cases opens'
      rw [stages] at stages'
      cases stages'
    | ok vault =>
      obtain ⟨result, registry, seeds⟩ : ∃ result registry,
          seed_canary faults vault matter_id call.random host.registry = (result, registry) := ⟨_, _, rfl⟩
      cases result with
      | error e =>
        refine Or.inl ⟨e, registry, by simp only [stages, seeds], ?_⟩
        rintro extracted ⟨ms, id, vault', registry', opens', stages', seeds'⟩
        rw [opens] at opens'
        cases opens'
        rw [stages] at stages'
        cases stages'
        rw [seeds] at seeds'
        cases seeds'
      | ok extracted =>
        refine Or.inr ⟨extracted, matter_id, registry, ⟨members, matter_id, vault, registry, opens, stages, seeds⟩,
          ?_, ?_⟩
        · rintro other ⟨ms, id, vault', registry', opens', stages', seeds'⟩
          rw [opens] at opens'
          cases opens'
          rw [stages] at stages'
          cases stages'
          rw [seeds] at seeds'
          cases seeds'
          rfl
        · simp only [stages, seeds]
          obtain ⟨published, target⟩ := publish_restored faults call.overwrite extracted host.target
          cases published <;> rfl

end

/-! ### Atomic restore -/

theorem blocked_iff {faults : Faults} {target : Tree} : Blocked faults target ↔
    (faults.replace || occupied (rmtree faults.undeletable (some target))) = true := by
  rw [Bool.or_eq_true, occupied_rmtree, Blocked]

theorem publish_blocked {faults : Faults} {extracted target : Tree} (blocked : Blocked faults target) :
    publish_restored faults true extracted (some target) =
      (.error (.backup "could not publish restored vault"), rmtree faults.undeletable (some target)) := by
  simp only [publish_restored, if_true, blocked_iff.mp blocked]

theorem publish_moved {faults : Faults} {extracted target : Tree} (free : ¬Blocked faults target) :
    publish_restored faults true extracted (some target) =
      (if faults.fsync then .error (.os "fsync") else .ok (), some extracted) := by
  rw [blocked_iff, Bool.not_eq_true] at free
  simp only [publish_restored, if_true, free, Bool.false_eq_true, if_false]
  split <;> rfl

theorem publish_ok {faults : Faults} {overwrite : Bool} {extracted : Tree} {target : Option Tree} {done : Unit}
    (published : (publish_restored faults overwrite extracted target).1 = .ok done) :
    (publish_restored faults overwrite extracted target).2 = some extracted := by
  unfold publish_restored at published ⊢
  generalize (if overwrite then rmtree faults.undeletable target else target) = cleared at published ⊢
  cases moved : faults.replace || occupied cleared with
  | true => simp only [moved, if_true] at published; cases published
  | false =>
    cases synced : faults.fsync with
    | true => simp only [moved, synced, Bool.false_eq_true, if_false, if_true] at published; cases published
    | false => simp only [moved, Bool.false_eq_true, if_false]

/-- A restore is atomic exactly when no call that gets as far as an existing vault fails once part of it is
    gone: the removal, the move and the sync that follow are the only steps that leave it changed. -/
theorem restore_atomic (codec : Codec) (faults : Faults) (call : RestoreCall) (host : Destination) :
    Atomic codec call host (restore_matter codec faults call host) ↔ Spared codec faults call host := by
  obtain ⟨e, registry, result, unprepared⟩ | ⟨extracted, id, registry, ready, only, result⟩ :=
    restore_matter_cases codec faults call host
  · rw [result]
    refine iff_of_true (fun _ => ?_) fun extracted target ready => absurd ready (unprepared extracted)
    cases host.target with
    | none => trivial
    | some target => exact fun p => rfl
  · rw [result]
    -- an unoccupied target has nothing to lose, and what is published is the archive's vault
    by_cases full : occupied host.target = true
    · obtain ⟨target, held⟩ : ∃ target, host.target = some target :=
        Option.ne_none_iff_exists'.mp fun gone => by rw [gone] at full; cases full
      have spared : Spared codec faults call host ↔
          (Blocked faults target → Immovable faults target) ∧
            (¬Blocked faults target → faults.fsync = true → Same target extracted) := by
        refine ⟨fun h => h extracted target ready held full, fun h other target' ready' held' _ => ?_⟩
        rw [held] at held'
        cases held'
        rw [only other ready']
        exact h
      rw [spared, ready.overwrites full, held]
      rw [held] at full
      by_cases blocked : Blocked faults target
      · rw [publish_blocked blocked]
        simp only [Atomic, Except.map, held, full, true_implies, blocked, not_true_eq_false, false_implies,
          and_true]
        exact rmtree_same faults target
      · rw [publish_moved blocked]
        by_cases unsynced : faults.fsync = true
        · simp only [unsynced, if_true, Atomic, Except.map, held, full, true_implies, blocked, false_implies,
            not_false_eq_true, true_and, SameTarget]
        · simp only [unsynced, Bool.false_eq_true, if_false, Atomic, Except.map, blocked, false_implies,
            implies_true, and_self, iff_true, Option.some.injEq, exists_eq_left']
          exact ready.archive
    · have spared : Spared codec faults call host := fun _ _ _ _ full' => absurd full' full
      refine iff_of_true ?_ spared
      simp only [Atomic]
      split
      · next returned =>
        cases published : (publish_restored faults call.overwrite extracted host.target).1 with
        | error e => rw [published] at returned; cases returned
        | ok done => exact ⟨extracted, publish_ok published, ready.archive⟩
      · exact fun full' => absurd full' full

/-! ### A vault lost to a failed removal -/

namespace Sample

def restored_id : String := "acme"

/-- An archive of a one-file vault. -/
def members : List TarInfo :=
  [⟨[restored_id], .directory, [], ""⟩, ⟨[restored_id, MATTER_YAML], .regular, [], "matter_id: acme\n"⟩]

/-- The archive holds `members`; `matter.yaml` names the matter. -/
def codec : Codec where
  encrypt _ _ plain := plain ++ List.replicate GCM_TAG_LEN 0
  decrypt _ _ blob := some (blob.take (blob.length - GCM_TAG_LEN))
  write _ := [1]
  getmembers blob := if blob = [1] then some members else none
  load_matter text := if text = "matter_id: acme\n" then .ok restored_id else .error "invalid"
  lock := ⟨fun _ => "{}", fun _ => none⟩

theorem token_hex : is_token_hex "0123456789abcdef0123456789abcdef" = true := by decide +kernel

def overwriting : RestoreCall where
  archive := some ⟨"acme-1.tar.gz", [1]⟩
  key := []
  overwrite := true
  random := "0123456789abcdef0123456789abcdef"
  hex := token_hex

/-- A host whose target holds a vault with two files. -/
def occupied_host : Destination where
  staging := ["matters", ".restore-acme-1"]
  target := some (((((∅ : Tree).insert [] .dir).insert ["corpus"] .dir).insert ["corpus", "a.pdf"] (.file "%PDF")).insert
    [MATTER_YAML] (.file "matter_id: acme\n"))
  registry := some ∅

/-- One file of the old vault cannot be removed. -/
def stuck : Faults where
  undeletable p := p == ["corpus", "a.pdf"]

theorem restore_stuck : (restore_matter codec stuck overwriting occupied_host).1 =
      .error (.backup "could not publish restored vault") ∧
    ((restore_matter codec stuck overwriting occupied_host).2.target.bind (·.get? [MATTER_YAML])) = none ∧
    (occupied_host.target.bind (·.get? [MATTER_YAML])) = some (.file "matter_id: acme\n") := by decide +kernel

/-- A restore over a vault with an undeletable file raises, and the vault has lost its `matter.yaml`. -/
theorem failed_overwrite_loses_vault :
    ¬Atomic codec overwriting occupied_host (restore_matter codec stuck overwriting occupied_host) := by
  intro atomic
  obtain ⟨failed, lost, had⟩ := restore_stuck
  unfold Atomic at atomic
  rw [failed] at atomic
  have kept := atomic (by decide +kernel)
  cases after : (restore_matter codec stuck overwriting occupied_host).2.target with
  | none => rw [after] at kept; exact kept
  | some target =>
    rw [after] at lost kept
    have same := kept [MATTER_YAML]
    rw [show target.get? [MATTER_YAML] = none from lost] at same
    exact absurd (same.symm.trans had) (by simp)

end Sample

end MootLoop
