import MootLoop.Closing

/-! Closing a matter across kills, power failures and vaults created under the old name: only a vault that a durable,
    detached intent names is purged, a record is returned only when every vault purged so far is gone for good, and a
    pending close is finished by the next call. -/

namespace MootLoop.Closing
open Durable

variable {x : Setting} {s s' : State} {img : Image}

/-! ### What every image holds -/

/-- A quarantined vault is the one the pending intent names. -/
def Named (img : Image) : Prop :=
  img.pending_vaults = [] ∨ ∃ intent dir, img.intent = some intent ∧
    img.pending_vaults = [(intent.quarantine_id, dir)] ∧ dir.identity = intent.identity

/-- The records are of this matter. -/
def Owned (x : Setting) (img : Image) : Prop :=
  (∀ intent, img.intent = some intent → intent.record.source_matter_id = x.matter_id) ∧
    ∀ record, img.record = some record → record.source_matter_id = x.matter_id

/-- The directories that are there are older than `next`, and none is in two places. -/
def Placed (next : Nat) (img : Image) : Prop :=
  (∀ dir, img.vault = some dir → dir.serial < next) ∧
    ∀ entry ∈ img.pending_vaults, entry.2.serial < next ∧ img.vault ≠ some entry.2

/-- A detached intent with no quarantine left belongs to the last purge, and there is no record before the first. -/
def Purged (purged : List (CloseIntent × Dir)) (img : Image) : Prop :=
  (∀ intent, img.intent = some intent → intent.detached = true → img.pending_vaults = [] →
    ∃ dir, purged.getLast? = some (intent, dir)) ∧ (img.record ≠ none → purged ≠ [])

/-- The last purge is still pending, or on record. -/
def Accounted (purged : List (CloseIntent × Dir)) (img : Image) : Prop :=
  ∀ entry, purged.getLast? = some entry → img.intent = some entry.1 ∨ img.record = some entry.1.record

def Gone (purged : List (CloseIntent × Dir)) (img : Image) : Prop := ∀ entry ∈ purged, img.vault ≠ some entry.2

def marks (img : Image) : List Digest := img.tombstones.map (·.entry_hash)

/-- No vault has been detached. -/
def Idle (img : Image) : Prop :=
  img.pending_vaults = [] ∧ ∀ intent, img.intent = some intent → intent.detached = false

/-- The invariant of the disk. -/
structure Sound (x : Setting) (s : State) : Prop where
  owned : s.disk.All (Owned x)
  named : s.disk.All Named
  placed : s.disk.All (Placed s.next)
  finished : s.disk.All (Purged s.purged)
  accounted : s.disk.All (Accounted s.purged)
  gone : s.disk.All (Gone s.purged)
  tombstones : s.disk.All fun img => (marks img).Nodup ∧ (marks img).Sublist (marks s.disk.live)
  calm : Idle s.disk.live → s.disk.All fun img => img.pending_vaults = [] ∧ img.record = s.disk.live.record
  detached : ∀ entry ∈ s.purged, entry.1.detached = true
  older : ∀ entry ∈ s.purged, entry.2.serial < s.next

/-- The vault the quarantine holds is the one a durable, detached intent names, and it is nowhere else. -/
def Doomed (s : State) (quarantine_id : String) : Prop :=
  ∃ intent dir, intent.detached = true ∧ intent.quarantine_id = quarantine_id ∧ dir.identity = intent.identity ∧
    s.disk.All fun img => img.intent = some intent ∧ img.pending_vaults = [(quarantine_id, dir)] ∧ img.vault ≠ some dir

/-- What a write of a close relies on. -/
def Permits (x : Setting) (s : State) : Write → Prop
  | .fsync _ => True
  | .intent intent => intent.record.source_matter_id = x.matter_id ∧
      (intent.detached = false ∧ Idle s.disk.live ∨ intent.detached = true ∧ s.disk.All fun img =>
        img.pending_vaults ≠ [] ∧ ∃ before : CloseIntent, img.intent = some before ∧ before.marked = intent)
  | .unlink_intent => ∃ intent, s.disk.live.intent = some intent ∧ intent.detached = true ∧
      s.disk.All fun img => img.pending_vaults = [] ∧ img.record = some intent.record
  | .replace dir quarantine_id => s.disk.live.vault = some dir ∧ s.disk.All fun img => img.pending_vaults = [] ∧
      ∃ intent : CloseIntent, img.intent = some intent ∧ intent.quarantine_id = quarantine_id ∧
        dir.identity = intent.identity
  | .rmtree quarantine_id => Doomed s quarantine_id
  | .tombstone entry => entry.entry_hash ∉ marks s.disk.live
  | .record record => ∃ intent, s.disk.live.intent = some intent ∧ intent.detached = true ∧ record = intent.record ∧
      s.disk.live.pending_vaults = []

/-! ### Each write keeps the invariant -/

theorem sound_fsync (sound : Sound x s) (place : Place) : Sound x (commit s (Write.fsync place)) where
  owned := sound.owned.sync
  named := sound.named.sync
  placed := sound.placed.sync
  finished := sound.finished.sync
  accounted := sound.accounted.sync
  gone := sound.gone.sync
  tombstones := sound.tombstones.sync
  calm idle := (sound.calm idle).sync
  detached := sound.detached
  older := sound.older

theorem sound_intent (sound : Sound x s) {intent : CloseIntent} (permits : Permits x s (.intent intent)) :
    Sound x (commit s (Write.intent intent)) := by
  obtain ⟨own, kind⟩ := permits
  refine ⟨sound.owned.change ?_, ?_, sound.placed.change fun _ h => h, ?_, ?_, sound.gone.change fun _ h => h,
    sound.tombstones.change fun _ h => h, ?_, sound.detached, sound.older⟩
  · rintro img ⟨-, records⟩
    refine ⟨?_, records⟩
    rintro _ ⟨⟩
    exact own
  · rcases kind with ⟨-, idle⟩ | ⟨-, marks⟩
    · exact Disk.all_change.mpr ⟨sound.named, (sound.calm idle).mono fun img h => .inl h.1⟩
    · refine Disk.all_change.mpr ⟨sound.named, ?_⟩
      intro img mem
      obtain ⟨held, before, found, rfl⟩ := marks img mem
      rcases sound.named img mem with none | ⟨intent, dir, found', pending, same⟩
      · exact absurd none held
      · cases found.symm.trans found'
        exact .inr ⟨_, dir, rfl, pending, same⟩
  · refine Disk.all_change.mpr ⟨sound.finished, ?_⟩
    intro img mem
    refine ⟨?_, (sound.finished img mem).2⟩
    rintro _ ⟨⟩ marked none
    rcases kind with ⟨plain, -⟩ | ⟨-, marks⟩
    · rw [plain] at marked
      cases marked
    · exact absurd none (marks img mem).1
  · refine Disk.all_change.mpr ⟨sound.accounted, ?_⟩
    intro img mem entry last
    rcases kind with ⟨-, idle⟩ | ⟨-, marks⟩
    · refine .inr ?_
      rcases sound.accounted.live entry last with pending | record
      · have plain := idle.2 _ pending
        rw [sound.detached entry (List.mem_of_getLast? last)] at plain
        cases plain
      · exact ((sound.calm idle) img mem).2.trans record
    · obtain ⟨-, before, found, rfl⟩ := marks img mem
      rcases sound.accounted img mem entry last with pending | record
      · cases found.symm.trans pending
        refine .inl (congrArg some ?_)
        have marked := sound.detached entry (List.mem_of_getLast? last)
        rw [CloseIntent.marked, ← marked]
      · exact .inr record
  · rintro ⟨none, plain⟩
    rcases kind with ⟨-, idle⟩ | ⟨marked, -⟩
    · exact (sound.calm idle).change fun _ h => h
    · have := plain intent rfl
      rw [marked] at this
      cases this

theorem sound_unlink (sound : Sound x s) (permits : Permits x s .unlink_intent) :
    Sound x (commit s Write.unlink_intent) := by
  obtain ⟨intent, found, marked, clear⟩ := permits
  refine ⟨sound.owned.change ?_, ?_, sound.placed.change fun _ h => h, sound.finished.change ?_, ?_,
    sound.gone.change fun _ h => h, sound.tombstones.change fun _ h => h, ?_, sound.detached, sound.older⟩
  · rintro img ⟨-, records⟩
    exact ⟨nofun, records⟩
  · exact Disk.all_change.mpr ⟨sound.named, clear.mono fun img h => .inl h.1⟩
  · rintro img ⟨-, started⟩
    exact ⟨nofun, started⟩
  · refine Disk.all_change.mpr ⟨sound.accounted, ?_⟩
    intro img mem entry last
    obtain ⟨dir, ended⟩ := sound.finished.live.1 intent found marked clear.live.1
    cases last.symm.trans ended
    exact .inr (clear img mem).2
  · intro
    refine Disk.all_change.mpr ⟨?_, ?_⟩ <;>
    · intro img mem
      exact ⟨(clear img mem).1, (clear img mem).2.trans clear.live.2.symm⟩

theorem sound_replace (sound : Sound x s) {dir : Dir} {quarantine_id : String}
    (permits : Permits x s (.replace dir quarantine_id)) : Sound x (commit s (Write.replace dir quarantine_id)) := by
  obtain ⟨there, ready⟩ := permits
  have replaced : ∀ img, Image.replace dir quarantine_id img = img ∨ img.vault = some dir ∧
      Image.replace dir quarantine_id img =
        { img with vault := none, pending_vaults := (quarantine_id, dir) :: img.pending_vaults } := by
    intro img
    by_cases at_path : img.vault = some dir
    · exact .inr ⟨at_path, if_pos at_path⟩
    · exact .inl (if_neg at_path)
  have intents : ∀ img, (Image.replace dir quarantine_id img).intent = img.intent ∧
      (Image.replace dir quarantine_id img).record = img.record ∧
      (Image.replace dir quarantine_id img).tombstones = img.tombstones := by
    intro img
    rcases replaced img with same | ⟨-, moved⟩
    · simp [same]
    · simp [moved]
  refine ⟨sound.owned.change ?_, ?_, ?_, sound.finished.change ?_, sound.accounted.change ?_, sound.gone.change ?_, ?_,
    ?_, sound.detached, sound.older⟩
  · intro img own
    rw [Owned, (intents img).1, (intents img).2.1]
    exact own
  · refine Disk.all_change.mpr ⟨sound.named, ?_⟩
    intro img mem
    obtain ⟨none, intent, found, rfl, same⟩ := ready img mem
    rcases replaced img with kept | ⟨-, moved⟩
    · rw [kept]
      exact sound.named img mem
    · rw [moved]
      exact .inr ⟨intent, dir, found, by rw [none], same⟩
  · refine Disk.all_change.mpr ⟨sound.placed, ?_⟩
    intro img mem
    obtain ⟨young, -⟩ := sound.placed img mem
    rcases replaced img with kept | ⟨at_path, moved⟩
    · rw [kept]
      exact sound.placed img mem
    · rw [moved, (ready img mem).1]
      refine ⟨nofun, ?_⟩
      intro entry held
      cases List.mem_singleton.mp held
      exact ⟨young dir at_path, nofun⟩
  · rintro img ⟨finished, started⟩
    rcases replaced img with kept | ⟨-, moved⟩
    · rw [kept]
      exact ⟨finished, started⟩
    · rw [moved]
      exact ⟨nofun, started⟩
  · intro img accounted entry last
    rw [(intents img).1, (intents img).2.1]
    exact accounted entry last
  · intro img gone entry mem
    rcases replaced img with kept | ⟨-, moved⟩
    · rw [kept]
      exact gone entry mem
    · rw [moved]
      nofun
  · refine Disk.all_change.mpr ⟨?_, ?_⟩ <;>
    · intro img mem
      simp only [marks, commit, State.commit, Disk.live_change, (intents _).2.2]
      exact sound.tombstones img mem
  · rintro ⟨cleared, -⟩
    have moved : Image.replace dir quarantine_id s.disk.live =
        { s.disk.live with vault := none, pending_vaults := (quarantine_id, dir) :: s.disk.live.pending_vaults } :=
      if_pos there
    simp only [commit, State.commit, Disk.live_change, moved] at cleared
    cases cleared

theorem sound_rmtree (sound : Sound x s) {quarantine_id : String} (permits : Permits x s (.rmtree quarantine_id)) :
    Sound x (commit s (Write.rmtree quarantine_id)) := by
  obtain ⟨intent, dir, marked, rfl, same, doomed⟩ := permits
  have purged : (commit s (Write.rmtree intent.quarantine_id)).purged = s.purged ++ [(intent, dir)] := by
    simp [commit, State.commit, State.quarantined, doomed.live.1, doomed.live.2.1]
  have emptied : ∀ img ∈ s.disk.exposed, Image.rmtree intent.quarantine_id img = { img with pending_vaults := [] } := by
    intro img mem
    simp [Image.rmtree, (doomed img mem).2.1]
  have last : (s.purged ++ [(intent, dir)]).getLast? = some (intent, dir) := by simp
  refine ⟨sound.owned.change fun _ h => h, ?_, ?_, ?_, ?_, ?_, sound.tombstones.change fun _ h => h, ?_, ?_, ?_⟩
  · refine Disk.all_change.mpr ⟨sound.named, ?_⟩
    intro img mem
    exact emptied img mem ▸ .inl rfl
  · refine Disk.all_change.mpr ⟨sound.placed, ?_⟩
    intro img mem
    rw [emptied img mem]
    exact ⟨(sound.placed img mem).1, nofun⟩
  · rw [purged]
    refine Disk.all_change.mpr ⟨?_, ?_⟩ <;>
    · intro img mem
      refine ⟨?_, fun _ => by simp⟩
      intro pending found _ _
      cases found.symm.trans (doomed img mem).1
      exact ⟨dir, last⟩
  · rw [purged]
    refine Disk.all_change.mpr ⟨?_, ?_⟩ <;>
    · intro img mem entry ended
      cases last.symm.trans ended
      exact .inl (doomed img mem).1
  · rw [purged]
    refine Disk.all_change.mpr ⟨?_, ?_⟩ <;>
    · intro img mem entry listed
      rcases List.mem_append.mp listed with before | new
      · exact sound.gone img mem entry before
      · cases List.mem_singleton.mp new
        exact (doomed img mem).2.2
  · rintro ⟨-, plain⟩
    have := plain intent doomed.live.1
    rw [marked] at this
    cases this
  · intro entry listed
    rw [purged] at listed
    rcases List.mem_append.mp listed with before | new
    · exact sound.detached entry before
    · cases List.mem_singleton.mp new
      exact marked
  · intro entry listed
    rw [purged] at listed
    rcases List.mem_append.mp listed with before | new
    · exact sound.older entry before
    · cases List.mem_singleton.mp new
      exact ((sound.placed.live).2 (intent.quarantine_id, dir) (by simp [doomed.live.2.1])).1

theorem sound_tombstone (sound : Sound x s) {entry : AccessAuditEntry} (permits : Permits x s (.tombstone entry)) :
    Sound x (commit s (Write.tombstone entry)) := by
  refine ⟨sound.owned.change fun _ h => h, sound.named.change fun _ h => h, sound.placed.change fun _ h => h,
    sound.finished.change fun _ h => h, sound.accounted.change fun _ h => h, sound.gone.change fun _ h => h, ?_, ?_,
    sound.detached, sound.older⟩
  · have snoc : ∀ img : Image,
        marks { img with tombstones := img.tombstones ++ [entry] } = marks img ++ [entry.entry_hash] := by
      intro img
      simp [marks]
    refine Disk.all_change.mpr ⟨?_, ?_⟩ <;> intro img mem <;> obtain ⟨once, part⟩ := sound.tombstones img mem
    · refine ⟨once, ?_⟩
      simp only [commit, State.commit, Disk.live_change, snoc]
      exact part.trans (List.sublist_append_left _ _)
    · simp only [commit, State.commit, Disk.live_change, snoc]
      refine ⟨?_, part.append_right _⟩
      rw [List.nodup_append]
      refine ⟨once, by simp, ?_⟩
      rintro mark old _ new rfl
      cases List.mem_singleton.mp new
      exact permits (part.subset old)
  · intro idle
    exact (sound.calm idle).change fun _ h => h

theorem sound_record (sound : Sound x s) {record : CloseRecord} (permits : Permits x s (.record record)) :
    Sound x (commit s (Write.record record)) := by
  obtain ⟨intent, found, marked, rfl, none⟩ := permits
  obtain ⟨dir, last⟩ := sound.finished.live.1 intent found marked none
  refine ⟨sound.owned.change ?_, sound.named.change fun _ h => h, sound.placed.change fun _ h => h,
    sound.finished.change ?_, sound.accounted.change ?_, sound.gone.change fun _ h => h,
    sound.tombstones.change fun _ h => h, ?_, sound.detached, sound.older⟩
  · rintro img ⟨intents, -⟩
    refine ⟨intents, ?_⟩
    rintro _ ⟨⟩
    exact sound.owned.live.1 intent found
  · rintro img ⟨finished, -⟩
    refine ⟨finished, ?_⟩
    rintro - unstarted
    rw [unstarted] at last
    cases last
  · intro img _ entry ended
    cases last.symm.trans ended
    exact .inr rfl
  · rintro ⟨-, plain⟩
    have := plain intent found
    rw [marked] at this
    cases this

/-- Every write a close relies on keeps the invariant. -/
theorem sound_commit (s : State) (w : Write) (sound : Sound x s) (permits : Permits x s w) : Sound x (commit s w) := by
  cases w with
  | fsync place => exact sound_fsync sound place
  | intent intent => exact sound_intent sound permits
  | unlink_intent => exact sound_unlink sound permits
  | replace dir quarantine_id => exact sound_replace sound permits
  | rmtree quarantine_id => exact sound_rmtree sound permits
  | tombstone entry => exact sound_tombstone sound permits
  | record record => exact sound_record sound permits

/-! ### What a close does -/

theorem wp_live {α : Type} {P : State → Write → Prop} {f : Image → CloseM α} {Q : Except CloseError α → State → Prop} :
    wp P (live >>= f) Q s ↔ wp P (f s.disk.live) Q s :=
  (wp_bind _ _).trans ((wp_bind _ _).trans (wp_read.trans (wp_pure _)))

/-- A sync changes nothing but what a failure could leave. -/
structure Synced (x : Setting) (s : State) (places : List Place) (s' : State) : Prop where
  sound : Sound x s'
  live : s'.disk.live = s.disk.live
  purged : s'.purged = s.purged
  keeps : ∀ p, s.disk.All p → s'.disk.All p
  agree : ∀ place ∈ places, s'.disk.All fun img => place.part img = place.part s.disk.live

theorem wp_fsync (sound : Sound x s) (places : List Place) :
    wp (Permits x) (fsync places) (fun r s' => r = .ok () ∧ Synced x s places s') s := by
  induction places generalizing s with
  | nil => exact (wp_pure _).mpr ⟨rfl, sound, rfl, rfl, fun _ h => h, nofun⟩
  | cons place places ih =>
    refine (wp_bind _ _).mpr ((wp_write _).mpr ⟨trivial, (ih (sound_fsync sound place)).post ?_⟩)
    rintro r s' ⟨rfl, rest⟩
    refine ⟨rfl, rest.sound, rest.live, rest.purged, fun p h => rest.keeps p h.sync, ?_⟩
    intro other listed
    rcases List.mem_cons.mp listed with rfl | later
    · exact rest.keeps _ Disk.all_synced
    · exact rest.agree other later

theorem Synced.closed {places : List Place} (synced : Synced x s places s') (listed : Place.closed ∈ places) :
    s'.disk.All fun img => img.intent = s.disk.live.intent ∧ img.record = s.disk.live.record := by
  intro img mem
  have same : Place.closed.part img = Place.closed.part s.disk.live := synced.agree .closed listed img mem
  exact ⟨(congrArg Image.intent same :), (congrArg Image.record same :)⟩

theorem Synced.pending_vaults {places : List Place} (synced : Synced x s places s')
    (listed : Place.pending_vaults ∈ places) : s'.disk.All fun img => img.pending_vaults = s.disk.live.pending_vaults := by
  intro img mem
  have same : Place.pending_vaults.part img = Place.pending_vaults.part s.disk.live :=
    synced.agree .pending_vaults listed img mem
  exact (congrArg Image.pending_vaults same :)

theorem Synced.root {places : List Place} (synced : Synced x s places s') (listed : Place.root ∈ places) :
    s'.disk.All fun img => img.vault = s.disk.live.vault := by
  intro img mem
  have same : Place.root.part img = Place.root.part s.disk.live := synced.agree .root listed img mem
  exact (congrArg Image.vault same :)

/-- What every image has in `pending_vaults` it still has. -/
def KeepsPending (s s' : State) : Prop :=
  ∀ p : List (String × Dir) → Prop, s.disk.All (fun img => p img.pending_vaults) → s'.disk.All fun img => p img.pending_vaults

/-- A written intent is durable. -/
structure Declared (x : Setting) (s : State) (intent : CloseIntent) (s' : State) : Prop where
  sound : Sound x s'
  live : s'.disk.live = { s.disk.live with intent := some intent }
  purged : s'.purged = s.purged
  durable : s'.disk.All fun img => img.intent = some intent
  pending_vaults : KeepsPending s s'
  vault : ∀ p : Option Dir → Prop, s.disk.All (fun img => p img.vault) → s'.disk.All fun img => p img.vault

theorem wp_write_close_intent (sound : Sound x s) {intent : CloseIntent} (permits : Permits x s (.intent intent)) :
    wp (Permits x) (_write_close_intent intent) (fun r s' => r = .ok () ∧ Declared x s intent s') s := by
  refine (wp_bind _ _).mpr ((wp_write _).mpr ⟨permits, (wp_fsync (sound_intent sound permits) _).post ?_⟩)
  rintro r s' ⟨rfl, synced⟩
  refine ⟨rfl, synced.sound, synced.live, synced.purged, (synced.closed (by simp)).mono fun img h => h.1, ?_, ?_⟩
  · intro p h
    exact synced.keeps _ (Disk.all_change.mpr ⟨h, h⟩)
  · intro p h
    exact synced.keeps _ (Disk.all_change.mpr ⟨h, h⟩)

/-- A close is over for good: its record is on file, its intent is gone, and nothing purged is left. -/
structure Closed (s : State) (record : CloseRecord) : Prop where
  last : ∃ intent dir, s.purged.getLast? = some (intent, dir) ∧ intent.record = record
  settled : s.disk.live.intent = none
  durable : s.disk.All fun img =>
    img.pending_vaults = [] ∧ img.record = some record ∧ ∀ entry ∈ s.purged, img.vault ≠ some entry.2

theorem wp_append_tombstone (sound : Sound x s) (tombstone : AccessAuditEntry) :
    wp (Permits x) (_append_tombstone tombstone) (fun r s' => r = .ok () ∧ Sound x s' ∧ s'.purged = s.purged ∧
      s'.disk.live.intent = s.disk.live.intent ∧ s'.disk.live.vault = s.disk.live.vault ∧
      s'.disk.live.pending_vaults = s.disk.live.pending_vaults ∧
      KeepsPending s s' ∧ tombstone.entry_hash ∈ marks s'.disk.live) s := by
  refine wp_live.mpr ((wp_when _ _).mpr ?_)
  constructor
  · intro fresh
    have permits : Permits x s (.tombstone tombstone) := by
      rintro listed
      obtain ⟨entry, mem, same⟩ := List.mem_map.mp listed
      exact fresh (List.any_eq_true.mpr ⟨entry, mem, by simpa using same⟩)
    refine (wp_bind _ _).mpr ((wp_write _).mpr ⟨permits, (wp_fsync (sound_tombstone sound permits) _).post ?_⟩)
    rintro r s' ⟨rfl, synced⟩
    refine ⟨rfl, synced.sound, synced.purged, ?_, ?_, ?_, ?_, ?_⟩
    · rw [synced.live]
      rfl
    · rw [synced.live]
      rfl
    · rw [synced.live]
      rfl
    · intro p h
      exact synced.keeps _ (Disk.all_change.mpr ⟨h, h⟩)
    · rw [synced.live]
      simp [marks, commit, State.commit]
  · intro known
    obtain ⟨entry, mem, same⟩ := List.any_eq_true.mp (Classical.not_not.mp known)
    exact ⟨rfl, sound, rfl, rfl, rfl, rfl, fun _ h => h, List.mem_map.mpr ⟨entry, mem, by simpa using same⟩⟩

/-- How a close that comes to its end leaves the disk. -/
structure Ends (x : Setting) (s : State) (record : CloseRecord) (s' : State) : Prop where
  sound : Sound x s'
  closed : Closed s' record
  purged : s'.purged = s.purged
  vault : s'.disk.live.vault = s.disk.live.vault
  tombstone : record.tombstone.entry_hash ∈ marks s'.disk.live

theorem wp_finish_close (sound : Sound x s) {intent : CloseIntent} (found : s.disk.live.intent = some intent)
    (marked : intent.detached = true) (cleared : s.disk.live.pending_vaults = []) :
    wp (Permits x) (_finish_close intent) (fun r s' => r = .ok intent.record ∧ Ends x s intent.record s') s := by
  obtain ⟨dir, last⟩ := sound.finished.live.1 intent found marked cleared
  refine wp_live.mpr ((wp_ite _ _ _).mpr ⟨?_, fun _ => ?_⟩)
  · rintro (plain | residue)
    · rw [marked] at plain
      cases plain
    · rw [cleared] at residue
      cases residue
  refine (wp_bind _ _).mpr ((wp_fsync sound _).post ?_)
  rintro r s₁ ⟨rfl, synced⟩
  have empty₁ : s₁.disk.All fun img => img.pending_vaults = [] := cleared ▸ synced.pending_vaults (by simp)
  refine (wp_bind _ _).mpr ((wp_append_tombstone synced.sound _).post ?_)
  rintro r s₂ ⟨rfl, sound₂, purged₂, intent₂, vault₂, -, empties, listed⟩
  have empty₂ : s₂.disk.All fun img => img.pending_vaults = [] := empties (· = []) empty₁
  have found₂ : s₂.disk.live.intent = some intent := by rw [intent₂, synced.live, found]
  have permits : Permits x s₂ (.record intent.record) := ⟨intent, found₂, marked, rfl, empty₂.live⟩
  refine (wp_bind _ _).mpr ((wp_bind _ _).mpr ((wp_write _).mpr ⟨permits, ?_⟩))
  refine (wp_fsync (sound_record sound₂ permits) _).post ?_
  rintro r s₃ ⟨rfl, synced₃⟩
  have files : s₃.disk.All fun img => img.intent = some intent ∧ img.record = some intent.record :=
    (synced₃.closed (by simp)).mono fun img h => ⟨h.1.trans found₂, h.2⟩
  have empty₃ : s₃.disk.All fun img => img.pending_vaults = [] := synced₃.keeps _ (Disk.all_change.mpr ⟨empty₂, empty₂⟩)
  have unlinks : Permits x s₃ .unlink_intent :=
    ⟨intent, files.live.1, marked, empty₃.and (files.mono fun img h => h.2)⟩
  refine (wp_bind _ _).mpr ((wp_write _).mpr ⟨unlinks, ?_⟩)
  refine (wp_bind _ _).mpr ((wp_fsync (sound_unlink synced₃.sound unlinks) _).post ?_)
  rintro r s₄ ⟨rfl, synced₄⟩
  have purged : s₄.purged = s.purged := by
    rw [synced₄.purged, show (commit s₃ Write.unlink_intent).purged = s₃.purged from rfl, synced₃.purged,
      show (commit s₂ (Write.record intent.record)).purged = s₂.purged from rfl, purged₂, synced.purged]
  refine (wp_pure _).mpr ⟨rfl, synced₄.sound, ⟨⟨intent, dir, purged ▸ last, rfl⟩, ?_, ?_⟩, purged, ?_, ?_⟩
  · rw [synced₄.live]
    rfl
  · have durable : s₄.disk.All fun img => img.pending_vaults = [] ∧ img.record = some intent.record :=
      synced₄.keeps _ ((empty₃.and (files.mono fun img h => h.2)).change fun _ h => h)
    exact (durable.and synced₄.sound.gone).mono fun img h => ⟨h.1.1, h.1.2, h.2⟩
  · rw [synced₄.live, show (commit s₃ Write.unlink_intent).disk.live.vault = s₃.disk.live.vault from rfl, synced₃.live,
      show (commit s₂ (Write.record intent.record)).disk.live.vault = s₂.disk.live.vault from rfl, vault₂, synced.live]
  · rw [synced₄.live, show marks (commit s₃ Write.unlink_intent).disk.live = marks s₃.disk.live from rfl, synced₃.live]
    exact listed

/-- A vault in a quarantine that a durable intent names is purged, and its close comes to its end. -/
theorem wp_purge_detached (sound : Sound x s) {intent : CloseIntent} {dir : Dir}
    (declared : s.disk.All fun img => img.intent = some intent)
    (moved : s.disk.live.pending_vaults = [(intent.quarantine_id, dir)]) :
    wp (Permits x) (purge_detached intent) (fun r s' => r = .ok intent.record ∧ ∃ s₁,
      s₁.purged = s.purged ++ [(intent.marked, dir)] ∧ s₁.disk.live.vault = s.disk.live.vault ∧
      Ends x s₁ intent.record s') s := by
  refine (wp_bind _ _).mpr ((wp_fsync sound _).post ?_)
  rintro r s₁ ⟨rfl, synced⟩
  have declared₁ : s₁.disk.All fun img => img.intent = some intent := synced.keeps _ declared
  have pending₁ : s₁.disk.All fun img => img.pending_vaults = [(intent.quarantine_id, dir)] :=
    moved ▸ synced.pending_vaults (by simp)
  have apart : s₁.disk.All fun img => img.vault ≠ some dir := by
    intro img mem
    exact ((synced.sound.placed img mem).2 _ (by rw [pending₁ img mem]; exact List.mem_singleton_self _)).2
  have same : dir.identity = intent.identity := by
    rcases synced.sound.named.live with none | ⟨named, dir', found, pending, same⟩
    · rw [pending₁.live] at none
      cases none
    · cases found.symm.trans declared₁.live
      rw [pending₁.live] at pending
      cases pending
      exact same
  have permits : Permits x s₁ (.intent intent.marked) := by
    refine ⟨synced.sound.owned.live.1 intent declared₁.live, .inr ⟨rfl, ?_⟩⟩
    intro img mem
    refine ⟨?_, intent, declared₁ img mem, rfl⟩
    rw [pending₁ img mem]
    exact List.cons_ne_nil _ _
  refine (wp_bind _ _).mpr ((wp_write_close_intent synced.sound permits).post ?_)
  rintro r s₂ ⟨rfl, named⟩
  have pending₂ : s₂.disk.All fun img => img.pending_vaults = [(intent.quarantine_id, dir)] :=
    named.pending_vaults (· = [(intent.quarantine_id, dir)]) pending₁
  have dooms : Permits x s₂ (.rmtree intent.quarantine_id) := by
    refine ⟨intent.marked, dir, rfl, rfl, same, ?_⟩
    exact (named.durable.and (pending₂.and (named.vault (· ≠ some dir) apart))).mono fun img h => h
  have purged : (commit s₂ (Write.rmtree intent.quarantine_id)).purged = s.purged ++ [(intent.marked, dir)] := by
    simp [commit, State.commit, State.quarantined, named.durable.live, pending₂.live, named.purged, synced.purged]
  have emptied : (commit s₂ (Write.rmtree intent.quarantine_id)).disk.live.pending_vaults = [] := by
    simp [commit, State.commit, Image.rmtree, pending₂.live]
  have vault : (commit s₂ (Write.rmtree intent.quarantine_id)).disk.live.vault = s.disk.live.vault := by
    simp [commit, State.commit, Image.rmtree, named.live, synced.live]
  refine (wp_bind _ _).mpr (wp_live.mpr ((wp_when _ _).mpr ⟨fun _ => ?_, ?_⟩))
  · refine (wp_write _).mpr ⟨dooms, ?_⟩
    refine (wp_finish_close (sound_rmtree named.sound dooms) named.durable.live rfl emptied).post ?_
    rintro r s' ⟨rfl, ends⟩
    exact ⟨rfl, _, purged, vault, ends⟩
  · intro absent
    simp [pending₂.live] at absent

theorem source_matter_id_prepared {call : Call} {record : CloseRecord} (ready : prepared_record x call = .ok record) :
    record.source_matter_id = x.matter_id := by
  obtain ⟨found, -, ready⟩ := bind_ok ready
  by_cases other : found.1 ≠ x.matter_id
  · rw [if_pos other] at ready
    cases ready
  rw [if_neg other] at ready
  rcases held : call.held with _ | detail
  · rw [held] at ready
    obtain ⟨destruction_date, -, ready⟩ := bind_ok ready
    obtain ⟨backup_ref, -, ready⟩ := bind_ok ready
    obtain ⟨prev_hash, -, ready⟩ := bind_ok ready
    cases ready
    rfl
  · rw [held] at ready
    cases ready

/-- A close that a call has to finish. -/
def Pending (img : Image) (intent : CloseIntent) : Prop :=
  img.intent = some intent ∧ (intent.detached = true ∨ img.pending_vaults ≠ [])

/-- A record returned for the vault at the path: the call prepared it and purged that vault. -/
def ClosesVault (x : Setting) (call : Call) (s : State) (record : CloseRecord) (s' : State) : Prop :=
  ∃ dir intent, s.disk.live.vault = some dir ∧ prepared_record x call = .ok record ∧
    s'.purged = s.purged ++ [(intent, dir)] ∧ s'.disk.live.vault = none ∧
    record.tombstone.entry_hash ∈ marks s'.disk.live

/-- A record returned for a pending close: it is the intent's, and what is at the vault's path stays there. -/
def Finishes (s : State) (record : CloseRecord) (s' : State) : Prop :=
  ∃ intent, Pending s.disk.live intent ∧ record = intent.record ∧ s'.disk.live.vault = s.disk.live.vault ∧
    record.tombstone.entry_hash ∈ marks s'.disk.live

/-- A record returned for a close that was over. -/
def Reports (s : State) (record : CloseRecord) (s' : State) : Prop :=
  s.disk.live.vault = none ∧ s.disk.live.record = some record ∧ s'.disk.live = s.disk.live

/-- What a call comes to. -/
def Outcome (x : Setting) (call : Call) (s s' : State) : Except CloseError CloseRecord → Prop
  | .error _ => (s'.disk.live = s.disk.live ∧ s'.purged = s.purged) ∧ ∀ intent, ¬Pending s.disk.live intent
  | .ok record => Closed s' record ∧ (Finishes s record s' ∨
      (∀ intent, ¬Pending s.disk.live intent) ∧ (ClosesVault x call s record s' ∨ Reports s record s'))

theorem idle_not_pending (idle : Idle img) (intent : CloseIntent) : ¬Pending img intent := by
  rintro ⟨found, marked | held⟩
  · rw [idle.2 intent found] at marked
    cases marked
  · exact held idle.1

theorem wp_close_matter_locked (sound : Sound x s) (idle : Idle s.disk.live) (call : Call) :
    wp (Permits x) (_close_matter_locked x call) (fun r s' => Sound x s' ∧ Outcome x call s s' r) s := by
  refine wp_live.mpr ?_
  cases at_path : s.disk.live.vault with
  | none => exact (wp_throw _).mpr ⟨sound, ⟨rfl, rfl⟩, idle_not_pending idle⟩
  | some vault =>
    refine (wp_bind _ _).mpr ((wp_lift _).mpr ?_)
    cases ready : prepared_record x call with
    | error e => exact ⟨sound, ⟨rfl, rfl⟩, idle_not_pending idle⟩
    | ok record =>
      let intent : CloseIntent :=
        { record, vault_device := vault.st_dev, vault_inode := vault.st_ino, quarantine_id := call.quarantine_id }
      have permits : Permits x s (.intent intent) := ⟨source_matter_id_prepared ready, .inl ⟨rfl, idle⟩⟩
      refine (wp_bind _ _).mpr ((wp_write_close_intent sound permits).post ?_)
      rintro r s₁ ⟨rfl, declared⟩
      have empty : s₁.disk.All fun img => img.pending_vaults = [] :=
        declared.pending_vaults (· = []) ((sound.calm idle).mono fun img h => h.1)
      have moves : Permits x s₁ (.replace vault intent.quarantine_id) := by
        refine ⟨by rw [declared.live]; exact at_path, ?_⟩
        exact (empty.and declared.durable).mono fun img h => ⟨h.1, intent, h.2, rfl, rfl⟩
      have moved : (commit s₁ (Write.replace vault intent.quarantine_id)).disk.live =
          { s₁.disk.live with vault := none, pending_vaults := [(intent.quarantine_id, vault)] } := by
        rw [show (commit s₁ (Write.replace vault intent.quarantine_id)).disk.live =
          Image.replace vault intent.quarantine_id s₁.disk.live from rfl, Image.replace, if_pos moves.1, empty.live]
      have still : (commit s₁ (Write.replace vault intent.quarantine_id)).disk.All fun img =>
          img.intent = some intent := by
        refine declared.durable.change ?_
        intro img found
        rw [Image.replace]
        split <;> exact found
      refine (wp_bind _ _).mpr ((wp_write _).mpr ⟨moves, ?_⟩)
      refine (wp_purge_detached (sound_replace declared.sound moves) still (by rw [moved])).post ?_
      rintro r s' ⟨rfl, s₂, purged, vault₂, ends⟩
      refine ⟨ends.sound, ends.closed, .inr ⟨idle_not_pending idle, .inl ?_⟩⟩
      refine ⟨vault, intent.marked, at_path, ready, ?_, ?_, ends.tombstone⟩
      · rw [ends.purged, purged]
        exact congrArg (· ++ _) declared.purged
      · rw [ends.vault, vault₂, moved]

theorem wp_close_or_record (sound : Sound x s) (idle : Idle s.disk.live) (call : Call)
    (known : s.disk.live.vault = none → s.disk.live.intent = none) :
    wp (Permits x) (close_or_record x call) (fun r s' => Sound x s' ∧ Outcome x call s s' r) s := by
  refine wp_live.mpr ?_
  rcases at_path : s.disk.live.vault with _ | vault
  · rcases on_file : s.disk.live.record with _ | record
    · exact wp_close_matter_locked sound idle call
    · refine (wp_ite _ _ _).mpr ⟨fun foreign => ?_, fun _ => (wp_pure _).mpr ?_⟩
      · exact absurd (sound.owned.live.2 record on_file) foreign
      · have unpending := known at_path
        have started : s.purged ≠ [] := sound.finished.live.2 (by rw [on_file]; exact Option.some_ne_none _)
        obtain ⟨entry, last⟩ : ∃ entry, s.purged.getLast? = some entry := ⟨_, List.getLast?_eq_some_getLast started⟩
        have same : entry.1.record = record := by
          rcases sound.accounted.live entry last with pending | filed
          · cases unpending.symm.trans pending
          · exact Option.some.inj (filed.symm.trans on_file)
        refine ⟨sound, ⟨⟨entry.1, entry.2, last, same⟩, unpending, ?_⟩,
          .inr ⟨idle_not_pending idle, .inr ⟨at_path, on_file, rfl⟩⟩⟩
        exact ((sound.calm idle).and sound.gone).mono fun img h => ⟨h.1.1, h.1.2.trans on_file, h.2⟩
  · rcases s.disk.live.record with _ | record <;> exact wp_close_matter_locked sound idle call

theorem wp_close_matter (sound : Sound x s) (call : Call) :
    wp (Permits x) (close_matter x call) (fun r s' => Sound x s' ∧ Outcome x call s s' r) s := by
  refine wp_live.mpr ?_
  cases found : s.disk.live.intent with
  | none =>
    have cleared : s.disk.live.pending_vaults = [] := by
      rcases sound.named.live with none | ⟨intent, dir, found', -⟩
      · exact none
      · cases found.symm.trans found'
    exact wp_close_or_record sound ⟨cleared, fun intent found' => by cases found.symm.trans found'⟩ call fun _ => found
  | some intent =>
    refine (wp_ite _ _ _).mpr ⟨fun foreign => absurd (sound.owned.live.1 intent found) foreign, fun _ => ?_⟩
    refine (wp_bind _ _).mpr ((wp_fsync sound _).post ?_)
    rintro r s₁ ⟨rfl, synced⟩
    have declared : s₁.disk.All fun img => img.intent = some intent :=
      (synced.closed (by simp)).mono fun img h => h.1.trans found
    have carried : ∀ r s', Outcome x call s₁ s' r → Outcome x call s s' r := by
      intro r s'
      simp only [Outcome, Finishes, ClosesVault, Reports, synced.live, synced.purged]
      exact id
    refine wp_live.mpr ?_
    rcases sound.named.live with cleared | ⟨named, dir, found', moved, same⟩
    · have cleared₁ : s₁.disk.live.pending_vaults = [] := by rw [synced.live, cleared]
      rw [cleared₁]
      refine (wp_ite _ _ _).mpr ⟨fun marked => ?_, fun plain => ?_⟩
      · refine (wp_finish_close synced.sound declared.live marked cleared₁).post ?_
        rintro r s' ⟨rfl, ends⟩
        refine ⟨ends.sound, ends.closed, .inl ⟨intent, ⟨found, .inl marked⟩, rfl, ?_, ends.tombstone⟩⟩
        rw [ends.vault, synced.live]
      · have idle : Idle s₁.disk.live := by
          refine ⟨cleared₁, ?_⟩
          intro other found'
          cases declared.live.symm.trans found'
          exact Bool.eq_false_iff.mpr plain
        have refused : Sound x s₁ ∧ Outcome x call s₁ s₁ (.error (.close "")) :=
          ⟨synced.sound, ⟨rfl, rfl⟩, idle_not_pending idle⟩
        rcases at_path : s₁.disk.live.vault with _ | vault
        · exact (wp_throw _).mpr ⟨refused.1, carried (.error _) s₁ refused.2⟩
        · refine (wp_ite _ _ _).mpr ⟨fun _ => ?_, fun _ => ?_⟩
          · exact (wp_throw _).mpr ⟨refused.1, carried (.error _) s₁ refused.2⟩
          refine (wp_close_or_record synced.sound idle call ?_).post fun r s' h => ⟨h.1, carried r s' h.2⟩
          intro gone
          cases gone.symm.trans at_path
    · cases found.symm.trans found'
      have moved₁ : s₁.disk.live.pending_vaults = [(intent.quarantine_id, dir)] := by rw [synced.live, moved]
      simp only [moved₁, List.lookup_cons_self]
      refine (wp_ite _ _ _).mpr ⟨fun replaced => absurd same replaced, fun _ => ?_⟩
      refine (wp_purge_detached synced.sound declared moved₁).post ?_
      rintro r s' ⟨rfl, s₂, -, vault₂, ends⟩
      refine ⟨ends.sound, ends.closed, .inl ⟨intent, ⟨found, .inr ?_⟩, rfl, ?_, ends.tombstone⟩⟩
      · rw [moved]
        exact List.cons_ne_nil _ _
      · rw [ends.vault, vault₂, synced.live]

/-! ### Runs -/

theorem sound_start : Sound x { disk := Disk.settled {} } where
  owned := Disk.all_settled.mpr ⟨nofun, nofun⟩
  named := Disk.all_settled.mpr (.inl rfl)
  placed := Disk.all_settled.mpr ⟨nofun, nofun⟩
  finished := Disk.all_settled.mpr ⟨nofun, fun filed => absurd rfl filed⟩
  accounted := Disk.all_settled.mpr nofun
  gone := Disk.all_settled.mpr nofun
  tombstones := Disk.all_settled.mpr ⟨List.nodup_nil, List.Sublist.refl _⟩
  calm _ := Disk.all_settled.mpr ⟨rfl, rfl⟩
  detached := nofun
  older := nofun

/-- A power failure leaves one of the images, and the invariant holds of each. -/
theorem sound_failed (sound : Sound x s) (exposed : img ∈ s.disk.exposed) :
    Sound x { s with disk := Disk.settled img } where
  owned := Disk.all_settled.mpr (sound.owned img exposed)
  named := Disk.all_settled.mpr (sound.named img exposed)
  placed := Disk.all_settled.mpr (sound.placed img exposed)
  finished := Disk.all_settled.mpr (sound.finished img exposed)
  accounted := Disk.all_settled.mpr (sound.accounted img exposed)
  gone := Disk.all_settled.mpr (sound.gone img exposed)
  tombstones := Disk.all_settled.mpr ⟨(sound.tombstones img exposed).1, List.Sublist.refl _⟩
  calm idle := Disk.all_settled.mpr ⟨idle.1, rfl⟩
  detached := sound.detached
  older := sound.older

/-- A new directory is younger than every one that was ever there. -/
theorem sound_created (sound : Sound x s) (st_dev st_ino : Nat) :
    Sound x { s with disk := s.disk.change (Image.create ⟨s.next, st_dev, st_ino⟩), next := s.next + 1 } := by
  have rest : ∀ img, (Image.create ⟨s.next, st_dev, st_ino⟩ img).pending_vaults = img.pending_vaults ∧
      (Image.create ⟨s.next, st_dev, st_ino⟩ img).intent = img.intent ∧
      (Image.create ⟨s.next, st_dev, st_ino⟩ img).tombstones = img.tombstones ∧
      (Image.create ⟨s.next, st_dev, st_ino⟩ img).record = img.record := by
    intro img
    rw [Image.create]
    split <;> exact ⟨rfl, rfl, rfl, rfl⟩
  have vaults : ∀ img dir, (Image.create ⟨s.next, st_dev, st_ino⟩ img).vault = some dir →
      img.vault = some dir ∨ dir.serial = s.next := by
    intro img dir found
    rw [Image.create] at found
    split at found
    · cases found
      exact .inr rfl
    · exact .inl found
  have tombs : ∀ img, marks (Image.create ⟨s.next, st_dev, st_ino⟩ img) = marks img :=
    fun img => congrArg (List.map _) (rest img).2.2.1
  refine ⟨sound.owned.change ?_, sound.named.change ?_, ?_, sound.finished.change ?_, sound.accounted.change ?_, ?_, ?_,
    ?_, sound.detached, fun entry mem => Nat.lt_succ_of_lt (sound.older entry mem)⟩
  · intro img own
    rw [Owned, (rest img).2.1, (rest img).2.2.2]
    exact own
  · intro img named
    rw [Named, (rest img).1, (rest img).2.1]
    exact named
  · refine Disk.all_change.mpr ⟨?_, ?_⟩
    · intro img mem
      obtain ⟨at_path, pending⟩ := sound.placed img mem
      exact ⟨fun dir found => Nat.lt_succ_of_lt (at_path dir found),
        fun entry held => ⟨Nat.lt_succ_of_lt (pending entry held).1, (pending entry held).2⟩⟩
    · intro img mem
      obtain ⟨at_path, pending⟩ := sound.placed img mem
      refine ⟨?_, ?_⟩
      · intro dir found
        rcases vaults img dir found with old | new
        · exact Nat.lt_succ_of_lt (at_path dir old)
        · exact new ▸ Nat.lt_succ_self s.next
      · intro entry held
        rw [(rest img).1] at held
        refine ⟨Nat.lt_succ_of_lt (pending entry held).1, ?_⟩
        intro found
        rcases vaults img _ found with old | new
        · exact (pending entry held).2 old
        · exact Nat.ne_of_lt (pending entry held).1 new
  · intro img finished
    rw [Purged, (rest img).1, (rest img).2.1, (rest img).2.2.2]
    exact finished
  · intro img accounted
    rw [Accounted, (rest img).2.1, (rest img).2.2.2]
    exact accounted
  · refine Disk.all_change.mpr ⟨sound.gone, ?_⟩
    intro img mem entry listed found
    rcases vaults img _ found with old | new
    · exact sound.gone img mem entry listed old
    · exact Nat.ne_of_lt (sound.older entry listed) new
  · refine Disk.all_change.mpr ⟨?_, ?_⟩ <;>
    · intro img mem
      simp only [Disk.live_change, tombs]
      exact sound.tombstones img mem
  · rintro ⟨cleared, plain⟩
    simp only [Disk.live_change, rest] at cleared plain ⊢
    refine Disk.all_change.mpr ⟨sound.calm ⟨cleared, plain⟩, ?_⟩
    simp only [rest]
    exact sound.calm ⟨cleared, plain⟩

theorem reachable_sound (reached : Reachable x s) : Sound x s := by
  induction reached with
  | start => exact sound_start
  | step _ next ih =>
    cases next with
    | called _ call cut => exact (wp_close_matter ih call).crash sound_commit ih cut
    | failed img exposed => exact sound_failed ih exposed
    | created st_dev st_ino free => exact sound_created ih st_dev st_ino

namespace Sample

def setting : Setting where
  matters_root := "/m"
  matter_id := "acme"
  format :=
    { sha256 := fun bytes => String.ofList [Char.ofNat (97 + bytes.length % 26)]
      validate_json := fun _ => .error (.validation "entry") }
  isoformat _ := "2026-01-01"
  MATTER_SCOPED_STORES := [⟨"facts", "facts/facts.jsonl", "Append-only fact repository."⟩]

def call : Call where
  actor := "ada"
  now := "2026-01-02"
  backup_dir := some "/b"
  matter := .ok ("acme", { retention_class := "std", destruction_date := some 20260101 })
  close_date := some 20260102
  backup := .ok "/b/acme.tar"
  audit_head := .ok GENESIS_PREV_HASH
  files _ := 3
  quarantine_id := "close-1"

/-- The first vault of the matter. -/
def opened : State :=
  { disk := (Disk.settled ({} : Image)).change (Image.create ⟨0, 1, 7⟩), next := 1 }

theorem opened_reachable : Reachable setting opened := .step .start (.created _ 1 7 rfl)

def record : CloseRecord :=
  { source_matter_id := "acme", closed_at := "2026-01-02", closed_by := "ada", backup_ref := some "/b/acme.tar",
    retention_class := "std", destruction_date := 20260101, limitations := DESTRUCTION_LIMITATIONS,
    stores := [⟨"facts", "facts/facts.jsonl", "Append-only fact repository.", 3⟩], removed_counts := [("facts", 3)],
    tombstone := Audit.create setting.format ⟨"2026-01-02", "ada", "matter-closed", "acme", ""⟩ GENESIS_PREV_HASH }

/-- The call killed after it moved the vault. -/
def moved : State := commits opened ((close_matter setting call opened).1.take 5)

theorem moved_reachable : Reachable setting moved :=
  .step opened_reachable (.called _ _ call ⟨_, List.take_prefix _ _, rfl⟩)

/-- A vault created then. -/
def replaced : State :=
  { moved with disk := moved.disk.change (Image.create ⟨moved.next, 1, 8⟩), next := moved.next + 1 }

theorem replaced_reachable : Reachable setting replaced := .step moved_reachable (.created _ 1 8 rfl)

def intent : CloseIntent := { record, vault_device := 1, vault_inode := 7, quarantine_id := "close-1" }

end Sample

/-- Whatever a kill or a power failure leaves, a vault in quarantine is the one the pending intent names, no purged
    vault is back at its path, and no tombstone is there twice; and a call purges only the vault that a detached intent,
    which no failure can lose, names. -/
theorem purges_named (reached : Reachable x s) :
    (s.disk.All fun img => Named img ∧ (∀ entry ∈ s.purged, img.vault ≠ some entry.2) ∧ (marks img).Nodup) ∧
    ∀ call, Path (fun s w => ∀ quarantine_id, w = .rmtree quarantine_id → Doomed s quarantine_id) s
      (close_matter x call s).1 := by
  have sound := reachable_sound reached
  refine ⟨?_, ?_⟩
  · exact (sound.named.and (sound.gone.and sound.tombstones)).mono fun img h => ⟨h.1, h.2.1, h.2.2.1⟩
  · intro call
    refine (wp_close_matter sound call).1.mono ?_
    rintro s w permits quarantine_id rfl
    exact permits

theorem purges_named_moved :
    (Sample.moved.disk.All fun img =>
      Named img ∧ (∀ entry ∈ Sample.moved.purged, img.vault ≠ some entry.2) ∧ (marks img).Nodup) ∧
    ∀ call, Path (fun s w => ∀ quarantine_id, w = .rmtree quarantine_id → Doomed s quarantine_id) Sample.moved
      (close_matter Sample.setting call Sample.moved).1 :=
  purges_named Sample.moved_reachable

/-- A call returns a record only when the close it records is over for good: the record is on file and every vault
    purged so far is gone in every image a power failure could leave, the last of them under the intent with this record.
    Unless the call finishes a pending close, a vault at the path is the one it purged. -/
theorem returned_closed (reached : Reachable x s) {call : Call} {record : CloseRecord}
    (returned : (close_matter x call s).2 = .ok record) :
    Closed ((close_matter x call).final s) record ∧
    ∀ vault, s.disk.live.vault = some vault → (∀ intent, ¬Pending s.disk.live intent) →
      prepared_record x call = .ok record ∧ ((close_matter x call).final s).disk.live.vault = none ∧
        ∃ intent, ((close_matter x call).final s).purged = s.purged ++ [(intent, vault)] := by
  obtain ⟨-, -, outcome⟩ := wp_close_matter (reachable_sound reached) call
  rw [returned] at outcome
  obtain ⟨closed, finishes | ⟨-, closes | reports⟩⟩ := outcome
  · refine ⟨closed, ?_⟩
    intro vault _ unpending
    obtain ⟨intent, pending, -⟩ := finishes
    exact absurd pending (unpending intent)
  · refine ⟨closed, ?_⟩
    intro vault at_path _
    obtain ⟨dir, intent, found, ready, purged, left, -⟩ := closes
    cases at_path.symm.trans found
    exact ⟨ready, left, intent, purged⟩
  · refine ⟨closed, ?_⟩
    intro vault at_path _
    cases reports.1.symm.trans at_path

theorem returned_closed_opened : Closed ((close_matter Sample.setting Sample.call).final Sample.opened) Sample.record :=
  (returned_closed Sample.opened_reachable rfl).1

/-- A close that an earlier call left pending is finished by the next call, whatever that call asks for and finds: it
    returns the pending record, the tombstone is on file, and what is at the vault's path by now is left alone. -/
theorem pending_finished (reached : Reachable x s) {intent : CloseIntent} (pending : Pending s.disk.live intent)
    (call : Call) :
    (close_matter x call s).2 = .ok intent.record ∧ Closed ((close_matter x call).final s) intent.record ∧
    ((close_matter x call).final s).disk.live.vault = s.disk.live.vault ∧
    intent.record.tombstone.entry_hash ∈ marks ((close_matter x call).final s).disk.live := by
  obtain ⟨-, -, outcome⟩ := wp_close_matter (reachable_sound reached) call
  rcases ended : (close_matter x call s).2 with e | record <;> rw [ended] at outcome
  · exact absurd pending (outcome.2 intent)
  · obtain ⟨closed, ⟨found, pending', rfl, vault, listed⟩ | ⟨unpending, -⟩⟩ := outcome
    · cases pending.1.symm.trans pending'.1
      exact ⟨rfl, closed, vault, listed⟩
    · exact absurd pending (unpending intent)

theorem pending_finished_replaced :
    (close_matter Sample.setting { Sample.call with held := some "pid 7" } Sample.replaced).2 = .ok Sample.record :=
  (@pending_finished _ _ Sample.replaced_reachable Sample.intent ⟨rfl, .inr nofun⟩ _).1

end MootLoop.Closing
