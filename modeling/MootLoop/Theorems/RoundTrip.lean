import MootLoop.Theorems.Restore
import Mathlib.Data.List.Pairwise
import Mathlib.Data.List.Dedup
import Mathlib.Logic.Equiv.List

/-! A backup restored: which archives the restorer takes back, what the restored vault holds, and who can
    lock it. -/

namespace MootLoop

open Files

/-! ### What a snapshot holds -/

/-- A file of a vault as its reader sees it. -/
def node? (bytes : Nat → String) : Entry → Option Node
  | .dir => some .dir
  | .file i => some (.file (bytes i))
  | _ => none

def seen (vault : Disk) (p : Path) : Option Node := (vault.get? p).bind (node? vault.bytes)

/-- Directories and files only, and no file under two names, outside the staging directory. -/
structure Plain (vault : Disk) : Prop where
  kinds : ∀ p e, vault.get? p = some e → staged p = false → e = .dir ∨ ∃ i, e = .file i
  single : ∀ p q i, staged p = false → staged q = false → vault.get? p = some (.file i) →
    vault.get? q = some (.file i) → p = q

theorem mem_walked {vault : Disk} {p : Path} {e : Entry} :
    (p, e) ∈ walked vault ↔ vault.get? p = some e ∧ staged p = false := by
  rw [walked, List.mem_insertionSort, List.mem_filter, Disk.get?, Dict.get?_eq_some]
  simp

theorem walked_nodup (vault : Disk) : ((walked vault).map Prod.fst).Nodup :=
  (((List.perm_insertionSort _ _).map Prod.fst).nodup_iff).mpr
    (vault.entries.nodup.sublist (List.filter_sublist.map Prod.fst))

theorem walked_sorted (vault : Disk) : (walked vault).Pairwise listed :=
  haveI : Std.Total listed := ⟨fun a b => le_total a.1 b.1⟩
  haveI : IsTrans _ listed := ⟨fun a b c => le_trans (a := a.1) (b := b.1) (c := c.1)⟩
  List.pairwise_insertionSort listed _

/-! ### The members of an archive -/

/-- A regular or directory member. -/
def Accepted (m : TarInfo) : Prop := m.type = .directory ∨ m.type = .regular

instance (m : TarInfo) : Decidable (Accepted m) := inferInstanceAs (Decidable (_ ∨ _))

@[simp] theorem accepted_mk (name : Path) (type : MemberType) (linkname : Path) (data : String) :
    Accepted ⟨name, type, linkname, data⟩ ↔ type = .directory ∨ type = .regular := Iff.rfl

/-- The member of an entry that is archived under its first name. -/
def plain_member (matter_id : String) (bytes : Nat → String) (e : Path × Entry) : TarInfo :=
  match e.2 with
  | .file i => ⟨matter_id :: e.1, .regular, [], bytes i⟩
  | _ => ⟨matter_id :: e.1, .directory, [], ""⟩

/-- No member is a link, or of a kind that is not restored, exactly when no inode comes twice. -/
theorem accepted_iff (matter_id : String) (bytes : Nat → String) (l : List (Path × Entry)) :
    ∀ inodes : Dict Nat Path, (∀ m ∈ tar_members matter_id bytes inodes l, Accepted m) ↔
      (∀ e ∈ l, e.2 = .dir ∨ ∃ i, e.2 = .file i ∧ inodes.get? i = none) ∧
        l.Pairwise fun a b => ∀ i, a.2 = .file i → b.2 ≠ .file i := by
  induction l with
  | nil => simp [tar_members]
  | cons e rest ih =>
    intro inodes
    obtain ⟨p, e⟩ := e
    cases e with
    | dir =>
      simp only [tar_members, List.forall_mem_cons, ih inodes, List.pairwise_cons, accepted_mk, reduceCtorEq,
        true_and, false_and, exists_false, or_false, false_implies, implies_true]
    | symlink => simp [tar_members]
    | special => simp [tar_members]
    | file i =>
      simp only [tar_members]
      cases held : inodes.get? i with
      | some first => simp [held]
      | none =>
        simp only [List.forall_mem_cons, ih, List.pairwise_cons, accepted_mk, reduceCtorEq, true_and, or_true,
          Entry.file.injEq, exists_eq_left', held]
        constructor
        · rintro ⟨kinds, apart⟩
          refine ⟨fun e mem => ?_, fun e mem j same other => ?_, apart⟩
          · obtain dir | ⟨j, file, free⟩ := kinds e mem
            · exact Or.inl dir
            · rw [Dict.get?_insert] at free
              split at free
              · cases free
              · exact Or.inr ⟨j, file, free⟩
          · cases same
            obtain dir | ⟨j, file, free⟩ := kinds e mem
            · rw [dir] at other; cases other
            · rw [other] at file
              cases file
              rw [Dict.get?_insert_self] at free
              cases free
        · rintro ⟨kinds, here, apart⟩
          refine ⟨fun e mem => ?_, apart⟩
          obtain dir | ⟨j, file, free⟩ := kinds e mem
          · exact Or.inl dir
          · refine Or.inr ⟨j, file, ?_⟩
            have ne : j ≠ i := fun same => here e mem i rfl (by rw [file, same])
            rw [Dict.get?_insert_ne _ ne]
            exact free

theorem tar_members_plain (matter_id : String) (bytes : Nat → String) (l : List (Path × Entry)) :
    ∀ inodes : Dict Nat Path, (∀ m ∈ tar_members matter_id bytes inodes l, Accepted m) →
      tar_members matter_id bytes inodes l = l.map (plain_member matter_id bytes) := by
  induction l with
  | nil => simp [tar_members]
  | cons e rest ih =>
    intro inodes accepted
    obtain ⟨p, e⟩ := e
    cases e with
    | dir =>
      simp only [tar_members, List.map_cons] at accepted ⊢
      rw [ih inodes fun m mem => accepted m (List.mem_cons_of_mem _ mem)]
      rfl
    | symlink => simp [tar_members] at accepted
    | special => simp [tar_members] at accepted
    | file i =>
      cases held : inodes.get? i with
      | some first => simp [tar_members, held] at accepted
      | none =>
        simp only [tar_members, held, List.map_cons] at accepted ⊢
        rw [ih _ fun m mem => accepted m (List.mem_cons_of_mem _ mem)]
        rfl

/-- The restorer accepts every member of a snapshot exactly when the vault is plain. -/
theorem plain_iff (matter_id : String) (vault : Disk) :
    Plain vault ↔ ∀ m ∈ snapshot_tar matter_id vault, Accepted m := by
  rw [snapshot_tar, accepted_iff]
  constructor
  · intro plain
    refine ⟨fun e mem => ?_, (walked_nodup vault).of_map _ |>.pairwise_of_forall_ne fun a amem b bmem ne i fa fb => ?_⟩
    · obtain ⟨held, out⟩ := mem_walked.mp mem
      obtain dir | ⟨i, file⟩ := plain.kinds _ _ held out
      · exact Or.inl dir
      · exact Or.inr ⟨i, file, rfl⟩
    · obtain ⟨p, ea⟩ := a
      obtain ⟨q, eb⟩ := b
      cases fa
      cases fb
      obtain ⟨heldp, outp⟩ := mem_walked.mp amem
      obtain ⟨heldq, outq⟩ := mem_walked.mp bmem
      exact ne (by rw [plain.single p q i outp outq heldp heldq])
  · rintro ⟨kinds, apart⟩
    refine ⟨fun p e held out => ?_, fun p q i outp outq heldp heldq => ?_⟩
    · obtain dir | ⟨i, file, -⟩ := kinds _ (mem_walked.mpr ⟨held, out⟩)
      · exact Or.inl dir
      · exact Or.inr ⟨i, file⟩
    · by_contra ne
      have : Std.Symm fun a b : Path × Entry => ∀ i, a.2 = .file i → b.2 ≠ .file i :=
        ⟨fun a b h i fb fa => h i fa fb⟩
      exact apart.forall (mem_walked.mpr ⟨heldp, outp⟩) (mem_walked.mpr ⟨heldq, outq⟩)
        (fun same => ne (congrArg Prod.fst same)) i rfl rfl

/-! ### Extraction of a plain archive -/

theorem realpath_valid (base names : Path) (valid : ∀ n ∈ names, ValidName n) :
    realpath base names = base ++ names := by
  have fold : ∀ (names : Path), (∀ n ∈ names, ValidName n) → ∀ acc : Path,
      names.foldl (fun acc part =>
        if part = "" ∨ part = "." then acc else if part = ".." then acc.dropLast else acc ++ [part]) acc =
        acc ++ names := by
    intro names
    induction names with
    | nil => simp
    | cons n rest ih =>
      intro valid acc
      obtain ⟨empty, dot, dots⟩ := valid n (List.mem_cons_self ..)
      rw [List.foldl_cons, if_neg (by simp [empty, dot]), if_neg dots, ih fun m mem => valid m (List.mem_cons_of_mem _ mem)]
      simp
  have absolute : names.head? ≠ some "" := by
    intro top
    exact (valid "" (List.mem_of_mem_head? top)).1 rfl
  rw [realpath, if_neg absolute]
  exact fold names valid base

/-- Directories that are there need no making. -/
theorem make_dirs_there (rest : Path) : ∀ (above : Path) (tree : Tree),
    (∀ a n b, rest = a ++ n :: b → tree.get? (above ++ a ++ [n]) = some .dir) → make_dirs above rest tree = some tree := by
  induction rest with
  | nil => intro above tree _; rfl
  | cons name rest ih =>
    intro above tree there
    have here := there [] name rest rfl
    rw [List.append_nil] at here
    rw [make_dirs, here]
    refine ih _ _ fun a n b split => ?_
    have deep := there (name :: a) n b (by rw [split]; rfl)
    simpa using deep

/-- One directory is missing, the last. -/
theorem make_dirs_last (rest : Path) (last : String) : ∀ (above : Path) (tree : Tree),
    (∀ a n b, rest = a ++ n :: b → tree.get? (above ++ a ++ [n]) = some .dir) →
      tree.get? (above ++ rest ++ [last]) = none →
      make_dirs above (rest ++ [last]) tree = some (tree.insert (above ++ rest ++ [last]) .dir) := by
  induction rest with
  | nil =>
    intro above tree _ free
    rw [List.append_nil] at free ⊢
    rw [List.nil_append, make_dirs, free]
    rfl
  | cons name rest ih =>
    intro above tree there free
    have here := there [] name rest rfl
    rw [List.append_nil] at here
    rw [List.cons_append, make_dirs, here]
    have deep := ih (above ++ [name]) tree (fun a n b split => by
      have deep := there (name :: a) n b (by rw [split]; rfl)
      simpa using deep) (by simpa using free)
    simpa using deep

/-- The staging directory once the entries of `done` are extracted. -/
def Extracted (matter_id : String) (bytes : Nat → String) (done : List (Path × Entry)) (tree : Tree) : Prop :=
  tree.get? [] = some .dir ∧
    ∀ head p, tree.get? (head :: p) = if head = matter_id then (done.lookup p).bind (node? bytes) else none

theorem extracted_nil (matter_id : String) (bytes : Nat → String) :
    Extracted matter_id bytes [] ((∅ : Tree).insert [] .dir) := by
  refine ⟨by simp, fun head p => ?_⟩
  rw [Dict.get?_insert_ne _ (by simp)]
  simp

theorem lookup_snoc (done : List (Path × Entry)) (p q : Path) (e : Entry) (new : p ∉ done.map Prod.fst) :
    (done ++ [(p, e)]).lookup q = if q = p then some e else done.lookup q := by
  induction done with
  | nil =>
    by_cases same : q = p
    · simp [same]
    · have other : (q == p) = false := by simpa using same
      simp [Dict.lookup_entry, same, other]
  | cons d rest ih =>
    simp only [List.map_cons, List.mem_cons, not_or] at new
    by_cases here : q = d.1
    · have ne : q ≠ p := fun same => new.1 (same ▸ here)
      rw [if_neg ne]
      simp [Dict.lookup_entry, here]
    · have other : (q == d.1) = false := by simpa using here
      rw [List.cons_append, Dict.lookup_entry, other, ih new.2]
      simp only [Dict.lookup_entry, other]

theorem extract_step {matter_id : String} {bytes : Nat → String} {done : List (Path × Entry)} {tree : Tree} {p : Path}
    {e : Entry} (ready : Extracted matter_id bytes done tree) (new : p ∉ done.map Prod.fst)
    (above : ∀ a b, p = a ++ b → b ≠ [] → done.lookup a = some .dir) (root : p = [] → e = .dir)
    (kind : e = .dir ∨ ∃ i, e = .file i) :
    ∃ tree', extract_member tree (matter_id :: p) (plain_member matter_id bytes (p, e)) = some tree' ∧
      Extracted matter_id bytes (done ++ [(p, e)]) tree' := by
  have free : tree.get? (matter_id :: p) = none := by
    rw [ready.2, if_pos rfl]
    have absent : done.lookup p = none := by
      rw [List.lookup_eq_none_iff]
      intro d mem
      simpa using fun same : p = d.1 => new (same ▸ List.mem_map_of_mem mem)
    rw [absent]
    rfl
  -- the directories of the entry are all there
  have folders : ∀ a n, p = a ++ [n] → ∀ b m c, matter_id :: a = b ++ m :: c →
      tree.get? ([] ++ b ++ [m]) = some .dir := by
    intro a n at_end b m c split
    have held : ∀ b c, p = b ++ c → c ≠ [] → tree.get? (matter_id :: b) = some .dir := by
      intro b c cut more
      rw [ready.2, if_pos rfl, above b c cut more]
      rfl
    cases b with
    | nil => cases split; exact held [] p rfl (by simp [at_end])
    | cons top b =>
      cases split
      exact held (b ++ [m]) (c ++ [n]) (by simp [at_end]) (by simp)
  have grown : ∀ node, node? bytes e = some node →
      Extracted matter_id bytes (done ++ [(p, e)]) (tree.insert (matter_id :: p) node) := by
    intro node is
    refine ⟨by rw [Dict.get?_insert_ne _ (by simp)]; exact ready.1, fun head q => ?_⟩
    rw [Dict.get?_insert, lookup_snoc _ _ _ _ new]
    by_cases own : head = matter_id
    · subst own
      by_cases same : q = p
      · simp [same, is]
      · simp [same, ready.2]
    · simp [own, ready.2]
  obtain rfl | ⟨i, rfl⟩ := kind
  · refine ⟨tree.insert (matter_id :: p) .dir, ?_, grown _ rfl⟩
    simp only [extract_member, plain_member, if_true]
    obtain rfl | ⟨a, n, rfl⟩ := List.eq_nil_or_concat' p
    · exact make_dirs_last [] matter_id [] tree (by simp) free
    · exact make_dirs_last (matter_id :: a) n [] tree (folders a n rfl) free
  · obtain rfl | ⟨a, n, rfl⟩ := List.eq_nil_or_concat' p
    · cases root rfl
    · refine ⟨tree.insert (matter_id :: (a ++ [n])) (.file (bytes i)), ?_, grown _ rfl⟩
      have made : make_dirs [] (matter_id :: a) tree = some tree := make_dirs_there _ _ _ (folders a n rfl)
      have parent : (matter_id :: (a ++ [n])).dropLast = matter_id :: a := by
        rw [← List.cons_append, List.dropLast_concat]
      simp [extract_member, plain_member, parent, made, free]

/-- Members in an order that names a directory before what is in it extract to what they were made of. -/
theorem extract_plain (matter_id : String) (bytes : Nat → String) (staging : Path) (l : List (Path × Entry))
    (valid : ∀ e ∈ l, ∀ n ∈ matter_id :: e.1, ValidName n) (nodup : (l.map Prod.fst).Nodup)
    (above : ∀ done p e rest, l = done ++ (p, e) :: rest → ∀ a b, p = a ++ b → b ≠ [] → done.lookup a = some .dir)
    (root : ∀ e, ([], e) ∈ l → e = .dir) (kinds : ∀ e ∈ l, e.2 = .dir ∨ ∃ i, e.2 = .file i) :
    ∃ tree, extractall staging (l.map (plain_member matter_id bytes)) = some tree ∧
      Extracted matter_id bytes l tree := by
  have run : ∀ rest done tree, l = done ++ rest → Extracted matter_id bytes done tree →
      ∃ tree', (rest.map (plain_member matter_id bytes)).foldlM
        (fun tree m => extract_member tree ((realpath staging m.name).drop staging.length) m) tree = some tree' ∧
        Extracted matter_id bytes l tree' := by
    intro rest
    induction rest with
    | nil =>
      intro done tree split ready
      rw [List.append_nil] at split
      exact ⟨tree, rfl, split ▸ ready⟩
    | cons e rest ih =>
      intro done tree split ready
      obtain ⟨p, e⟩ := e
      have mem : (p, e) ∈ l := split ▸ List.mem_append_right _ (List.mem_cons_self ..)
      have new : p ∉ done.map Prod.fst := by
        intro old
        rw [split, List.map_append, List.nodup_append] at nodup
        exact nodup.2.2 p old p (by simp) rfl
      obtain ⟨tree', step, ready'⟩ := extract_step ready new (above done p e rest split)
        (fun top => root e (top ▸ mem)) (kinds (p, e) mem)
      obtain ⟨final, steps, done'⟩ := ih (done ++ [(p, e)]) tree' (by rw [split]; simp) ready'
      refine ⟨final, ?_, done'⟩
      have name : (plain_member matter_id bytes (p, e)).name = matter_id :: p := by
        unfold plain_member
        split <;> rfl
      have path : (realpath staging (plain_member matter_id bytes (p, e)).name).drop staging.length = matter_id :: p := by
        rw [name, realpath_valid _ _ (valid (p, e) mem), List.drop_left]
      rw [List.map_cons, List.foldlM_cons, path, step]
      exact steps
  exact run l [] _ rfl (extracted_nil matter_id bytes)

theorem valid_id_name {id : String} (valid : valid_id id = true) : ValidName id := by
  simp only [valid_id, Bool.and_eq_true, bne_iff_ne, ne_eq] at valid
  refine ⟨fun empty => ?_, valid.1.1.1.1, valid.1.1.1.2⟩
  have shape := valid.2
  rw [empty] at shape
  exact absurd shape (by decide)

theorem staged_above {a b : Path} (more : a ≠ []) : staged (a ++ b) = staged a := by
  cases a with
  | nil => exact absurd rfl more
  | cons => rfl

theorem lookup_walked (vault : Disk) (p : Path) :
    (walked vault).lookup p = if staged p then none else vault.get? p := by
  refine Option.ext fun e => ?_
  rw [Dict.lookup_eq_some (walked_nodup vault), mem_walked]
  cases staged p <;> simp

/-- The snapshot of a plain vault extracts to the vault without its staging directory. -/
theorem snapshot_extracts {matter_id : String} {vault : Disk} (staging : Path) (plain : Plain vault)
    (valid : valid_id matter_id = true) :
    ∃ tree, extractall staging (snapshot_tar matter_id vault) = some tree ∧
      ∀ p, (below matter_id tree).get? p = if staged p then none else seen vault p := by
  have members := tar_members_plain matter_id vault.bytes (walked vault) ∅ ((plain_iff matter_id vault).mp plain)
  obtain ⟨tree, all, -, held⟩ := extract_plain matter_id vault.bytes staging
    (walked vault) (fun e mem n here => by
      obtain rfl | here := List.mem_cons.mp here
      · exact valid_id_name valid
      · exact vault.valid_names e.1 e.2 (mem_walked.mp mem).1 n here)
    (walked_nodup vault) (fun done p e rest split a b cut more => by
      subst cut
      obtain ⟨there, out⟩ := mem_walked.mp (split ▸ List.mem_append_right done (List.mem_cons_self ..) :
        (a ++ b, e) ∈ walked vault)
      have dir := vault.above a b e there more
      have out' : staged a = false := by
        by_cases top : a = []
        · rw [top]; rfl
        · rw [← staged_above (b := b) top]; exact out
      have mem : (a, Entry.dir) ∈ done ++ (a ++ b, e) :: rest := split ▸ mem_walked.mpr ⟨dir, out'⟩
      have nodup := walked_nodup vault
      have sorted := walked_sorted vault
      rw [split] at nodup sorted
      obtain mem | mem := List.mem_append.mp mem
      · rw [List.map_append, List.nodup_append] at nodup
        exact (Dict.lookup_eq_some nodup.1).mpr mem
      · -- what comes later does not lie above
        obtain here | later := List.mem_cons.mp mem
        · exact absurd (Prod.mk.inj here).1 (by simpa using Ne.symm more)
        · have order : a ++ b ≤ a := (List.pairwise_append.mp sorted).2.1 |> fun h =>
            (List.pairwise_cons.mp h).1 _ later
          have prefixed : a ≤ a ++ b := not_lt.mp (show ¬a ++ b < a from (List.prefix_append a b).le)
          exact absurd (le_antisymm prefixed order) (by simpa using Ne.symm more))
    (fun e mem => by
      obtain ⟨top, -⟩ := mem_walked.mp mem
      have root := vault.root
      rw [Disk.get?, root] at top
      cases top
      rfl)
    (fun e mem => plain.kinds e.1 e.2 (mem_walked.mp mem).1 (mem_walked.mp mem).2)
  refine ⟨tree, by rw [snapshot_tar, members]; exact all, fun p => ?_⟩
  rw [below, Dict.get?_rekey _ _ _ (k := matter_id :: p) (by simp), held, if_pos rfl, lookup_walked, seen]
  split <;> rfl

/-! ### The archive file -/

/-- What the code relies on: decryption undoes encryption under the same key and nonce and the sealed text
    carries a tag, an archive lists the members written to it, and a validated matter has a valid id. -/
structure Codec.Lawful (codec : Codec) : Prop where
  decrypt_encrypt : ∀ key nonce plain, codec.decrypt key nonce (codec.encrypt key nonce plain) = some plain
  tag : ∀ key nonce plain, GCM_TAG_LEN ≤ (codec.encrypt key nonce plain).length
  getmembers_write : ∀ members, codec.getmembers (codec.write members) = some members
  valid_matter : ∀ text matter_id, codec.load_matter text = .ok matter_id → valid_id matter_id = true

theorem sealed_name (matter_id ts : String) : is_sealed s!"{matter_id}-{ts}.tar.gz.enc" = true := by
  simp only [is_sealed, List.isSuffixOf_iff_suffix, toString, String.toList_append]
  exact ⟨matter_id.toList ++ "-".toList ++ ts.toList ++ ".tar.gz".toList, by simp⟩

theorem plain_name (matter_id ts : String) : is_sealed s!"{matter_id}-{ts}.tar.gz" = false := by
  rw [← Bool.not_eq_true, is_sealed, List.isSuffixOf_iff_suffix]
  intro suffix
  have last := List.reverse_prefix.mpr suffix
  simp [toString, String.toList_append] at last

theorem archive_plain {codec : Codec} (lawful : codec.Lawful) (call : BackupCall) (matter_id : String)
    (tar : Bytes) :
    archive_bytes codec
      (if call.encrypt then
        ⟨s!"{matter_id}-{call.ts}.tar.gz.enc", call.nonce ++ codec.encrypt call.key call.nonce tar⟩
      else ⟨s!"{matter_id}-{call.ts}.tar.gz", tar⟩) call.key = .ok tar := by
  cases call.encrypt with
  | false => simp only [Bool.false_eq_true, if_false, archive_bytes, plain_name]
  | true =>
    have long : ¬(call.nonce ++ codec.encrypt call.key call.nonce tar).length < NONCE_LEN + GCM_TAG_LEN := by
      rw [List.length_append, call.nonce_length]
      exact not_lt.mpr (Nat.add_le_add_left (lawful.tag ..) _)
    simp only [if_true, archive_bytes, sealed_name, decrypt_archive, long, if_false]
    rw [List.take_left' call.nonce_length, List.drop_left' call.nonce_length, lawful.decrypt_encrypt]

/-- What a returned archive holds: the vault under the lock, and its matter's id. -/
theorem backup_matter_holds {codec : Codec} (lawful : codec.Lawful) {self : Process} {call : BackupCall}
    {vault : Disk} {archive : Archive} (returned : backup_matter codec self call vault = .ok archive) :
    ∃ config matter_id snapshot, vault.read? [MATTER_YAML] = some config ∧ codec.load_matter config = .ok matter_id ∧
      snapshot_point codec self call vault = .ok snapshot ∧
      archive_bytes codec archive call.key = .ok (codec.write (snapshot_tar matter_id snapshot)) := by
  unfold backup_matter at returned
  cases sync : call.sync_folder with
  | some marker => simp [sync, bind, Except.bind, throw, throwThe, MonadExceptOf.throw] at returned
  | none =>
    cases repo : call.git_repo with
    | some path => simp [sync, repo, bind, Except.bind, throw, throwThe, MonadExceptOf.throw] at returned
    | none =>
      simp only [sync, repo, bind, Except.bind, pure, Except.pure] at returned
      cases read : vault.read? [MATTER_YAML] with
      | none => rw [read] at returned; cases returned
      | some config =>
        cases loaded : codec.load_matter config with
        | error e => simp [read, load_matter, loaded, Except.mapError] at returned
        | ok matter_id =>
          simp only [read, load_matter, loaded, Except.mapError] at returned
          cases point : snapshot_point codec self call vault with
          | error e => rw [point] at returned; cases returned
          | ok snapshot =>
            simp only [point, archive_plain lawful] at returned
            refine ⟨config, matter_id, snapshot, rfl, loaded, rfl, ?_⟩
            rw [getmembers, lawful.getmembers_write] at returned
            simp only at returned
            split at returned
            · cases returned
              exact archive_plain lawful call matter_id _
            · cases returned

/-! ### The vault under its lock -/

/-- The vault with the lock file of the text, and a `runs` directory to hold it. -/
structure Locked (vault : Disk) (text : String) (vault' : Disk) : Prop where
  lock : vault'.read? LOCK_PATH = some text
  runs : vault'.get? RUNS = some .dir
  others : ∀ p, p ≠ RUNS → p ≠ LOCK_PATH → vault'.read? p = vault.read? p

theorem mkdirs_runs {vault : Disk} (free : vault.get? RUNS = none ∨ vault.get? RUNS = some .dir) :
    (runOps (mkdirs RUNS) vault).get? RUNS = some .dir ∧
      (∀ p ≠ RUNS, (runOps (mkdirs RUNS) vault).get? p = vault.get? p) ∧
      (runOps (mkdirs RUNS) vault).bytes = vault.bytes := by
  have root : vault.Holds [] "runs" := ⟨vault.root, by decide⟩
  have made : runOps (mkdirs RUNS) vault = (Op.mkdir [] "runs").apply vault := rfl
  obtain absent | there := free
  · have added : (Op.mkdir [] "runs").apply vault = vault.addDir [] "runs" root := by
      rw [Op.apply, dif_pos root]
      exact if_pos absent
    rw [made, added]
    refine ⟨by rw [Disk.get?_addDir]; rfl, fun p other => ?_, rfl⟩
    rw [Disk.get?_addDir]
    exact if_neg other
  · have kept : (Op.mkdir [] "runs").apply vault = vault := by
      rw [Op.apply, dif_pos root]
      exact if_neg (by rw [show ([] ++ ["runs"] : Path) = RUNS from rfl, there]; simp)
    rw [made, kept]
    exact ⟨there, fun _ _ => rfl, rfl⟩

theorem locked_of_published {vault dir : Disk} {text : String} {vault' : Disk}
    (runs : dir.get? RUNS = some .dir) (names : ∀ p ≠ RUNS, dir.get? p = vault.get? p) (bytes : dir.bytes = vault.bytes)
    (done : Published dir RUNS LOCK_FILE text vault') : Locked vault text vault' where
  lock := done.read?_self
  runs := by rw [done.names, if_neg (by decide)]; exact runs
  others p outside other := by
    rw [done.read?_ne other, Disk.read?, names p outside, bytes]
    rfl

theorem valid_prefixed {pre random : String} (long : 3 ≤ pre.toList.length) : ValidName (pre ++ random) := by
  have size : 3 ≤ (pre ++ random).toList.length := by
    rw [String.toList_append, List.length_append]
    exact le_add_right long
  refine ⟨?_, ?_, ?_⟩ <;>
    · intro short
      rw [short] at size
      exact absurd size (by decide)

theorem valid_temp (random name : String) : ValidName (temp_name random name) := by
  rw [temp_name, String.append_assoc]
  exact valid_prefixed (by decide)

theorem lock_file_ne (random : String) : ".lock-" ++ random ≠ LOCK_FILE := by
  intro same
  have size := congrArg (fun s => s.toList.length) same
  simp [String.toList_append, LOCK_FILE] at size

/-- A write of the lock file over another. -/
theorem write_locked {vault : Disk} (text : String) {random : String} (free : vault.get? (RUNS ++ [temp_name random LOCK_FILE]) = none)
    (runs : vault.get? RUNS = none ∨ vault.get? RUNS = some .dir) (leaf : vault.get? LOCK_PATH ≠ some .dir)
    (ne : temp_name random LOCK_FILE ≠ LOCK_FILE) :
    Locked vault text (runOps (atomic_write_text RUNS LOCK_FILE text random) vault) := by
  obtain ⟨dir, names, bytes⟩ := mkdirs_runs runs
  rw [atomic_write_text, runOps_append]
  refine locked_of_published dir names bytes (replace_published ⟨dir, valid_temp _ _⟩ (by decide) ?_ ?_ ne)
  · rw [names _ (by simp [RUNS])]; exact free
  · rw [names _ (by simp [RUNS])]; exact leaf

theorem acquire_locked {format : LockFormat} {self : Process} {run_id token random : String} {override : Bool}
    {vault : Disk} {calls : List Op} (taken : acquire format self run_id token random override vault = .ok calls) :
    Locked vault (format.dumps (lock_payload self run_id token)) (runOps calls vault) := by
  simp only [acquire, bind, Except.bind] at taken
  split at taken
  · cases taken
  · next may =>
    have runs : vault.get? RUNS = none ∨ vault.get? RUNS = some .dir := by
      by_contra blocked
      simp [may_acquire, blocked] at may
    by_cases present : vault.get? LOCK_PATH = none
    · simp only [present, ne_eq, not_true_eq_false, if_false] at taken
      split at taken
      · cases taken
      · next free =>
        cases taken
        obtain ⟨dir, names, bytes⟩ := mkdirs_runs runs
        rw [runOps_append]
        refine locked_of_published dir names bytes
          (link_published ⟨dir, valid_prefixed (by decide)⟩ (by decide) ?_ ?_ (lock_file_ne random))
        · rw [names _ (by simp [RUNS])]; exact not_not.mp free
        · rw [names _ (by simp [RUNS])]; exact present
    · simp only [present, ne_eq, not_false_eq_true, if_true] at taken
      split at taken
      · cases taken
      · next free =>
        split at taken
        · cases taken
        · next leaf =>
          cases taken
          refine write_locked _ (not_not.mp free) runs leaf fun same => ?_
          rw [same] at free
          exact free present

/-- The lock file a backup archives is its own, with its host and pid; `matter.yaml` is as it was. -/
theorem snapshot_point_locked {codec : Codec} {self : Process} {call : BackupCall} {vault snapshot : Disk}
    (taken : snapshot_point codec self call vault = .ok snapshot) :
    (call.held_lock = false → ∃ heartbeat, snapshot.read? LOCK_PATH =
      some (codec.lock.dumps { lock_payload self BACKUP_LOCK_RUN_ID call.token with heartbeat_at := some heartbeat })) ∧
    snapshot.read? [MATTER_YAML] = vault.read? [MATTER_YAML] := by
  unfold snapshot_point at taken
  cases held : call.held_lock with
  | true =>
    simp only [held, if_true, pure, Except.pure] at taken
    cases taken
    exact ⟨fun own => absurd own (by simp), rfl⟩
  | false =>
    simp only [held, Bool.false_eq_true, if_false, bind, Except.bind] at taken
    cases locks : acquire codec.lock self BACKUP_LOCK_RUN_ID call.token call.random false vault with
    | error e => rw [locks] at taken; cases taken
    | ok calls =>
      rw [locks] at taken
      cases taken
      have first := acquire_locked locks
      have yaml := first.others [MATTER_YAML] (by decide) (by decide)
      unfold heartbeat_lock
      split
      · exact ⟨fun _ => ⟨self.now, first.lock⟩, yaml⟩
      · next now random _ =>
        split
        · exact ⟨fun _ => ⟨self.now, first.lock⟩, yaml⟩
        · next free =>
          have file : (runOps calls vault).get? LOCK_PATH ≠ none ∧ (runOps calls vault).get? LOCK_PATH ≠ some .dir := by
            have read := first.lock
            unfold Disk.read? at read
            split at read
            · next there => rw [there]; simp
            · cases read
          have second := write_locked (codec.lock.dumps
            { lock_payload self BACKUP_LOCK_RUN_ID call.token with heartbeat_at := some now }) (not_not.mp free)
            (Or.inr first.runs) file.2 fun same => free (by rw [same]; exact file.1)
          exact ⟨fun _ => ⟨now, second.lock⟩, (second.others [MATTER_YAML] (by decide) (by decide)).trans yaml⟩

/-! ### The round trip -/

/-- `RunLock.acquire` without an override, on a restored vault. -/
def acquires (format : LockFormat) (self : Process) (vault : Tree) : Except Error Unit :=
  may_acquire format self false (vault.get? RUNS = none ∨ vault.get? RUNS = some .dir) (vault.get? LOCK_PATH ≠ none)
    ((vault.get? LOCK_PATH).bind Node.text?)

/-- The archive is restored without a fault, to the files of the snapshot, and a process can lock them. -/
def RoundTrip (codec : Codec) (snapshot : Disk) (call : RestoreCall) (host : Destination) (self : Process) : Prop :=
  ∃ matter_id host' restored, restore_matter codec {} call host = (.ok matter_id, host') ∧
    host'.target = some restored ∧
    (∀ p ≠ [CANARY_FILE], restored.get? p = if staged p then none else seen snapshot p) ∧
    acquires codec.lock self restored = .ok ()

/-- The host's location checks pass, and nothing but an old vault that may go is at the target. -/
structure Welcoming (call : RestoreCall) (host : Destination) : Prop where
  root : host.root_refused = false
  target : host.target_refused = false
  vacant : ∀ tree, host.target = some tree → occupied (some tree) = true →
    call.overwrite = true ∧ tree.get? [] = some .dir

/-- The canary file names the matter, and the host's registry is readable and does not bind it elsewhere. -/
def Registered (snapshot : Disk) (matter_id : String) (call : RestoreCall) (host : Destination) : Prop :=
  ∃ token canaries, canary_of (seen snapshot [CANARY_FILE]) matter_id call.random = .ok token ∧
    canary_token matter_id token = true ∧ host.registry = some canaries ∧
    ∀ owner ∈ canaries.get? token, owner = matter_id

/-- The archived lock is of this host, and its process is dead here or its heartbeat has expired. -/
def LockFree (codec : Codec) (self : Process) (snapshot : Disk) : Prop :=
  (snapshot.get? RUNS = none ∨ snapshot.get? RUNS = some .dir) ∧
    (snapshot.get? LOCK_PATH = none ∨ ∃ record, (snapshot.read? LOCK_PATH).bind codec.lock.loads = some record ∧
      record.hostname = some self.hostname ∧ (self.alive record.pid = true → heartbeat_stale self record = true))

theorem check_takeover_ok {self : Process} {record : LockRecord} : check_takeover self false record = .ok () ↔
    record.hostname = some self.hostname ∧ (self.alive record.pid = true → heartbeat_stale self record = true) := by
  unfold check_takeover
  by_cases host : record.hostname = some self.hostname
  · cases alive : self.alive record.pid <;> cases stale : heartbeat_stale self record <;> simp [host]
  · simp [host]

theorem seen_eq_none {vault : Disk} (plain : Plain vault) {p : Path} (out : staged p = false) :
    seen vault p = none ↔ vault.get? p = none := by
  cases held : vault.get? p with
  | none => simp [seen, held]
  | some e =>
    obtain rfl | ⟨i, rfl⟩ := plain.kinds p e held out <;> simp [seen, held, node?]

theorem seen_eq_dir {vault : Disk} {p : Path} : seen vault p = some .dir ↔ vault.get? p = some .dir := by
  cases held : vault.get? p with
  | none => simp [seen, held]
  | some e => cases e <;> simp [seen, held, node?]

theorem seen_text {vault : Disk} {p : Path} : (seen vault p).bind Node.text? = vault.read? p := by
  cases held : vault.get? p with
  | none => simp [seen, Disk.read?, held]
  | some e => cases e <;> simp [seen, Disk.read?, held, node?, Node.text?]

theorem acquires_iff {codec : Codec} {self : Process} {snapshot : Disk} {restored : Tree} (plain : Plain snapshot)
    (same : ∀ p ≠ [CANARY_FILE], restored.get? p = if staged p then none else seen snapshot p) :
    acquires codec.lock self restored = .ok () ↔ LockFree codec self snapshot := by
  have runs : restored.get? RUNS = seen snapshot RUNS := same RUNS (by decide)
  have lock : restored.get? LOCK_PATH = seen snapshot LOCK_PATH := same LOCK_PATH (by decide)
  have out : staged RUNS = false := rfl
  have out' : staged LOCK_PATH = false := rfl
  simp only [acquires, runs, lock, seen_text, seen_eq_dir, ne_eq, seen_eq_none plain out, seen_eq_none plain out']
  unfold may_acquire LockFree
  by_cases ok : snapshot.get? RUNS = none ∨ snapshot.get? RUNS = some .dir
  · by_cases absent : snapshot.get? LOCK_PATH = none
    · simp [ok, absent]
    · cases read : (snapshot.read? LOCK_PATH).bind codec.lock.loads with
      | none => simp [ok, absent]
      | some record => simp [ok, absent, check_takeover_ok]
  · simp [ok]

theorem tar_names (matter_id : String) (bytes : Nat → String) (l : List (Path × Entry)) :
    ∀ inodes : Dict Nat Path, (tar_members matter_id bytes inodes l).map (·.name) = l.map (matter_id :: ·.1) := by
  induction l with
  | nil => simp [tar_members]
  | cons e rest ih =>
    intro inodes
    obtain ⟨p, e⟩ := e
    cases e with
    | file i => cases held : inodes.get? i <;> simp [tar_members, held, ih]
    | _ => simp [tar_members, ih]

theorem archive_matter_id_snapshot {matter_id : String} {vault : Disk} (valid : valid_id matter_id = true) :
    archive_matter_id (snapshot_tar matter_id vault) = .ok matter_id := by
  have heads : (snapshot_tar matter_id vault).filterMap (·.name.head?) =
      (walked vault).map fun _ => matter_id := by
    have names := congrArg (List.filterMap List.head?) (tar_names matter_id vault.bytes (walked vault) ∅)
    simpa [List.filterMap_map, Function.comp_def, snapshot_tar] using names
  have dot : matter_id ≠ "." := (valid_id_name valid).2.1
  have walks : ([], Entry.dir) ∈ walked vault := mem_walked.mpr ⟨vault.root, rfl⟩
  have only : ((walked vault).map fun _ => matter_id).dedup = [matter_id] := by
    have mem : matter_id ∈ ((walked vault).map fun _ => matter_id).dedup :=
      List.mem_dedup.mpr (List.mem_map.mpr ⟨_, walks, rfl⟩)
    have all : ∀ x ∈ ((walked vault).map fun _ => matter_id).dedup, x = matter_id := by
      intro x here
      obtain ⟨-, -, rfl⟩ := List.mem_map.mp (List.mem_dedup.mp here)
      rfl
    match dedup : ((walked vault).map fun _ => matter_id).dedup, List.nodup_dedup ((walked vault).map fun _ => matter_id) with
    | [], _ => rw [dedup] at mem; cases mem
    | [x], _ => rw [dedup] at all; rw [all x (by simp)]
    | x :: y :: rest, nodup =>
      rw [dedup] at all
      rw [all x (by simp), all y (by simp)] at nodup
      exact absurd nodup (by simp)
  rw [archive_matter_id, heads, List.filter_eq_self.mpr (by simp [dot]), only]
  simp only [valid, if_true]

section
variable {codec : Codec} {call : RestoreCall} {host : Destination} {snapshot : Disk} {matter_id : String}

/-- What a restore opens is the snapshot. -/
theorem opened_snapshot (host : Destination) (lawful : codec.Lawful) (valid : valid_id matter_id = true) {archive : Archive}
    (held : call.archive = some archive)
    (bytes : archive_bytes codec archive call.key = .ok (codec.write (snapshot_tar matter_id snapshot))) :
    opened codec call host = .ok (snapshot_tar matter_id snapshot, matter_id) ↔
      host.root_refused = false ∧ host.target_refused = false ∧
        (occupied host.target = true → call.overwrite = true) := by
  unfold opened
  simp only [held, bytes, getmembers, lawful.getmembers_write, archive_matter_id_snapshot valid, bind, Except.bind]
  cases root : host.root_refused <;> cases inside : host.target_refused <;> cases full : occupied host.target <;>
    cases allowed : call.overwrite <;>
    simp [pure, Except.pure, throw, throwThe, MonadExceptOf.throw]

theorem opened_only (lawful : codec.Lawful) (valid : valid_id matter_id = true) {archive : Archive}
    (held : call.archive = some archive)
    (bytes : archive_bytes codec archive call.key = .ok (codec.write (snapshot_tar matter_id snapshot)))
    {members : List TarInfo} {id : String} (opens : opened codec call host = .ok (members, id)) :
    members = snapshot_tar matter_id snapshot ∧ id = matter_id := by
  obtain ⟨archive', plain, held', bytes', listed, named, -⟩ := opened_ok opens
  rw [held] at held'
  cases held'
  rw [bytes] at bytes'
  cases bytes'
  rw [lawful.getmembers_write] at listed
  cases listed
  rw [archive_matter_id_snapshot valid] at named
  cases named
  exact ⟨rfl, rfl⟩

theorem refused_accepted {dest : Path} {m : TarInfo} (passes : refused dest m = none) : Accepted m := by
  unfold refused at passes
  simp only at passes
  split at passes
  · cases passes
  · split at passes
    · cases passes
    · next other => exact (by tauto : m.type = .directory ∨ m.type = .regular)

/-- The staged vault is the snapshot without its staging directory. -/
theorem staged_vault_snapshot (host : Destination) (valid : valid_id matter_id = true) {config : String}
    (read : snapshot.read? [MATTER_YAML] = some config) (loaded : codec.load_matter config = .ok matter_id) :
    (∃ vault, staged_vault codec {} host (snapshot_tar matter_id snapshot) matter_id = .ok vault) ↔ Plain snapshot := by
  constructor
  · rintro ⟨vault, made⟩
    refine (plain_iff matter_id snapshot).mpr fun m mem => ?_
    simp only [staged_vault, bind, Except.bind, Bool.false_eq_true, if_false, pure, Except.pure] at made
    cases got : safe_extract {} host.staging (snapshot_tar matter_id snapshot) with
    | error e => rw [got] at made; cases made
    | ok tree =>
      unfold safe_extract at got
      split at got
      · cases got
      · next pass => exact refused_accepted (List.findSome?_eq_none_iff.mp pass m mem)
  · intro plain
    obtain ⟨tree, all, held⟩ := snapshot_extracts host.staging plain valid
    have accepted := (plain_iff matter_id snapshot).mp plain
    have pass : (snapshot_tar matter_id snapshot).findSome? (refused host.staging) = none := by
      rw [List.findSome?_eq_none_iff]
      intro m mem
      have names : m.name ∈ (snapshot_tar matter_id snapshot).map (·.name) := List.mem_map_of_mem mem
      rw [snapshot_tar, tar_names] at names
      obtain ⟨e, emem, name⟩ := List.mem_map.mp names
      have inside : host.staging <+: realpath host.staging m.name := by
        rw [← name, realpath_valid]
        · exact List.prefix_append _ _
        · intro n here
          obtain rfl | here := List.mem_cons.mp here
          · exact valid_id_name valid
          · exact snapshot.valid_names e.1 e.2 (mem_walked.mp emem).1 n here
      obtain dir | file := accepted m mem
      · simp [refused, dir, inside]
      · simp [refused, file, inside]
    have top : (below matter_id tree).get? [] = some .dir := by
      rw [held, seen_eq_dir.mpr snapshot.root]
      rfl
    have yaml : ((below matter_id tree).get? [MATTER_YAML]).bind Node.text? = some config := by
      rw [held, ← read, ← seen_text]
      rfl
    refine ⟨below matter_id tree, ?_⟩
    simp [staged_vault, safe_extract, pass, all, assert_restored_vault, top, yaml, loaded, bind, Except.bind, pure,
      Except.pure]

theorem seed_canary_registers (valid : valid_id matter_id = true) {vault : Tree}
    (same : vault.get? [CANARY_FILE] = seen snapshot [CANARY_FILE]) :
    (∃ extracted registry, seed_canary {} vault matter_id call.random host.registry = (.ok extracted, registry)) ↔
      Registered snapshot matter_id call host := by
  unfold seed_canary Registered
  rw [same]
  cases canary : canary_of (seen snapshot [CANARY_FILE]) matter_id call.random with
  | error e => simp
  | ok token =>
    unfold register_canary
    cases registry : host.registry with
    | none => cases shape : canary_token matter_id token <;> simp [valid, shape]
    | some canaries =>
      cases shape : canary_token matter_id token with
      | false => simp [valid, shape]
      | true =>
        cases owner : canaries.get? token with
        | none => simp [valid, shape, owner]
        | some owner' => by_cases own : owner' = matter_id <;> simp [valid, shape, owner, own]

theorem publish_vacant (extracted : Tree) (allowed : occupied host.target = true → call.overwrite = true) :
    (publish_restored {} call.overwrite extracted host.target).1 = .ok () ↔
      ∀ tree, host.target = some tree → occupied (some tree) = true → call.overwrite = true ∧ tree.get? [] = some .dir := by
  cases target : host.target with
  | none => cases call.overwrite <;> simp [publish_restored, rmtree, occupied]
  | some tree =>
    rw [target] at allowed
    by_cases full : occupied (some tree) = true
    · rw [allowed full]
      by_cases blocked : Blocked {} tree
      · rw [publish_blocked blocked]
        have file : tree.get? [] ≠ some .dir := by simpa [Blocked] using blocked
        simp [file, full]
      · rw [publish_moved blocked]
        have dir : tree.get? [] = some .dir := by simpa [Blocked] using blocked
        simp [dir]
    · have cleared : occupied (if call.overwrite then rmtree (fun _ => false) (some tree) else some tree) = false := by
        cases call.overwrite with
        | false => simpa using full
        | true =>
          have dir : tree.get? [] = some .dir := by
            by_contra file
            exact full (occupied_file file)
          have gone := (occupied_rmtree {} tree).not.mpr (by simp [dir])
          simpa using gone
      unfold publish_restored
      simp [cleared, full]

/-- A restore of the archive is a round trip exactly under these conditions. -/
theorem round_trip_iff (lawful : codec.Lawful) (valid : valid_id matter_id = true) {archive : Archive}
    (held : call.archive = some archive)
    (bytes : archive_bytes codec archive call.key = .ok (codec.write (snapshot_tar matter_id snapshot)))
    {config : String} (read : snapshot.read? [MATTER_YAML] = some config)
    (loaded : codec.load_matter config = .ok matter_id) (self : Process) :
    RoundTrip codec snapshot call host self ↔
      Plain snapshot ∧ Welcoming call host ∧ Registered snapshot matter_id call host ∧ LockFree codec self snapshot := by
  have files : ∀ vault, staged_vault codec {} host (snapshot_tar matter_id snapshot) matter_id = .ok vault →
      ∀ p, vault.get? p = if staged p then none else seen snapshot p := by
    intro vault made
    have plain := (staged_vault_snapshot host valid read loaded).mp ⟨vault, made⟩
    obtain ⟨tree, all, held⟩ := snapshot_extracts host.staging plain valid
    obtain ⟨tree', all', rfl⟩ := staged_vault_ok made
    rw [all] at all'
    cases all'
    exact held
  constructor
  · rintro ⟨id, host', restored, result, target, same, locks⟩
    obtain ⟨e, registry, failed, -⟩ | ⟨extracted, id', registry, ready, -, result'⟩ :=
      restore_matter_cases codec {} call host
    · rw [result] at failed; cases failed
    · rw [result'] at result
      obtain ⟨members, id'', vault, registry', opens, stages, seeds⟩ := ready
      obtain ⟨rfl, rfl⟩ := opened_only lawful valid held bytes opens
      have plain := (staged_vault_snapshot host valid read loaded).mp ⟨vault, stages⟩
      obtain ⟨root, inside, allowed⟩ := (opened_snapshot host lawful valid held bytes).mp opens
      have published : (publish_restored {} call.overwrite extracted host.target).1 = .ok () := by
        cases done : (publish_restored {} call.overwrite extracted host.target).1 with
        | error e => rw [done] at result; cases result
        | ok u => rfl
      exact ⟨plain, ⟨root, inside, (publish_vacant extracted allowed).mp published⟩,
        (seed_canary_registers valid (files vault stages _)).mp ⟨extracted, registry', seeds⟩,
        (acquires_iff plain same).mp locks⟩
  · rintro ⟨plain, welcome, registered, free⟩
    have allowed : occupied host.target = true → call.overwrite = true := by
      intro full
      cases target : host.target with
      | none => rw [target] at full; cases full
      | some tree => rw [target] at full; exact (welcome.vacant tree target full).1
    have opens := (opened_snapshot host lawful valid held bytes).mpr
      ⟨welcome.root, welcome.target, allowed⟩
    obtain ⟨vault, stages⟩ := (staged_vault_snapshot host valid read loaded).mpr plain
    obtain ⟨extracted, registry, seeds⟩ := (seed_canary_registers valid (files vault stages _)).mpr registered
    have ready : Prepared codec {} call host extracted := ⟨_, _, vault, registry, opens, stages, seeds⟩
    obtain ⟨e, registry', failed, unprepared⟩ | ⟨extracted', id, registry', ready', only, result⟩ :=
      restore_matter_cases codec {} call host
    · exact absurd ready (unprepared extracted)
    · have published := (publish_vacant extracted' allowed).mpr welcome.vacant
      have same : ∀ p ≠ [CANARY_FILE], extracted'.get? p = if staged p then none else seen snapshot p := by
        intro p other
        rw [← only extracted ready, seed_canary_ok seeds p other, files vault stages]
      refine ⟨id, { host with registry := registry', target := some extracted' }, extracted', ?_, rfl, same,
        (acquires_iff plain same).mpr free⟩
      rw [result, published, publish_ok published]
      rfl

end

/-! ### The vaults the services leave -/

/-- The service was done, or died before it gave a temporary file its second name. -/
def Uncut (_ : Disk) (work : Working) (_ : Disk) : Prop :=
  work.service.calls.length ≤ work.made ∨ ∀ op ∈ work.calls, ¬op.Links

/-- Calls after `mkdir -p`. -/
theorem mkdirs_then_single (dir : Path) {ops : List Op} (single : ∀ op ∈ ops, ¬op.Links) :
    ∀ op ∈ mkdirs dir ++ ops, ¬op.Links := by
  intro op mem
  obtain mem | mem := List.mem_append.mp mem
  · exact mkdirs_single _ _ op mem
  · exact single op mem

theorem atomic_write_single (dir : Path) (name text random : String) :
    ∀ op ∈ atomic_write_text dir name text random, ¬op.Links :=
  mkdirs_then_single dir (by simp [Op.Links])

/-- A file published through a link, from a tree where no file has two names. -/
theorem link_run_unshared {vault : Disk} (dir : Path) (tmp name text : String) (apart : vault.Unshared) :
    (runOps (mkdirs dir ++ [.create dir tmp, .write dir tmp text, .link dir tmp name, .unlink dir tmp]) vault).Unshared := by
  have split : mkdirs dir ++ [.create dir tmp, .write dir tmp text, .link dir tmp name, .unlink dir tmp] =
      (mkdirs dir ++ [.create dir tmp, .write dir tmp text]) ++ [.link dir tmp name, .unlink dir tmp] := by simp
  rw [split, runOps_append]
  exact link_unlink_unshared _ _ _ (runOps_unshared (mkdirs_then_single dir (by simp [Op.Links])) apart)

theorem service_unshared {vault : Disk} (service : Service) (apart : vault.Unshared) :
    (runOps service.calls vault).Unshared := by
  cases service with
  | mkdir dir => exact runOps_unshared (mkdirs_single _ _) apart
  | write dir name text random => exact runOps_unshared (atomic_write_single _ _ _ _) apart
  | write_once dir name text random => exact link_run_unshared dir _ name text apart
  | append dir name text => exact runOps_unshared (mkdirs_then_single dir (by simp [Op.Links])) apart
  | unlink dir name => exact runOps_unshared (by simp [Service.calls, Op.Links]) apart
  | lock text random => exact link_run_unshared RUNS _ LOCK_FILE text apart

theorem serves_unshared {vault vault' : Disk} {work : Working} (apart : vault.Unshared)
    (step : Transition.Meeting Serves Uncut vault work vault') : vault'.Unshared := by
  obtain ⟨⟨-, rfl⟩, done | early⟩ := step
  · rw [Working.calls, List.take_of_length_le done]
    exact service_unshared work.service apart
  · exact runOps_unshared early apart

theorem acquire_unshared {format : LockFormat} {self : Process} {run_id token random : String} {override : Bool}
    {vault : Disk} {calls : List Op} (taken : acquire format self run_id token random override vault = .ok calls)
    (apart : vault.Unshared) : (runOps calls vault).Unshared := by
  simp only [acquire, bind, Except.bind] at taken
  split at taken
  · cases taken
  · by_cases present : vault.get? LOCK_PATH = none
    · simp only [present, ne_eq, not_true_eq_false, if_false] at taken
      split at taken
      · cases taken
      · cases taken
        exact link_run_unshared RUNS _ LOCK_FILE _ apart
    · simp only [present, ne_eq, not_false_eq_true, if_true] at taken
      split at taken
      · cases taken
      · split at taken
        · cases taken
        · cases taken
          exact runOps_unshared (atomic_write_single _ _ _ _) apart

theorem snapshot_plain {codec : Codec} {self : Process} {call : BackupCall} {vault snapshot : Disk}
    (apart : vault.Unshared) (ordinary : vault.Ordinary) (taken : snapshot_point codec self call vault = .ok snapshot) :
    Plain snapshot := by
  have both : snapshot.Unshared ∧ snapshot.Ordinary := by
    unfold snapshot_point at taken
    cases held : call.held_lock with
    | true =>
      simp only [held, if_true, pure, Except.pure] at taken
      cases taken
      exact ⟨apart, ordinary⟩
    | false =>
      simp only [held, Bool.false_eq_true, if_false, bind, Except.bind] at taken
      cases locks : acquire codec.lock self BACKUP_LOCK_RUN_ID call.token call.random false vault with
      | error e => rw [locks] at taken; cases taken
      | ok calls =>
        rw [locks] at taken
        cases taken
        have apart' := acquire_unshared locks apart
        have ordinary' : (runOps calls vault).Ordinary := runOps_ordinary ordinary
        unfold heartbeat_lock
        split
        · exact ⟨apart', ordinary'⟩
        · split
          · exact ⟨apart', ordinary'⟩
          · exact ⟨runOps_unshared (atomic_write_single _ _ _ _) apart', runOps_ordinary ordinary'⟩
  exact ⟨fun p e held _ => both.2 p e held, fun p q i _ _ heldp heldq => both.1 p q i heldp heldq⟩

theorem create_vault_sound (config canary random random' : String) :
    (create_vault config canary random random').Unshared ∧ (create_vault config canary random random').Ordinary := by
  have start : ∀ p e, Disk.empty.get? p = some e → e = .dir := by
    intro p e held
    rw [Disk.get?, Disk.empty, Dict.get?_insert] at held
    split at held
    · cases held; rfl
    · cases held
  refine ⟨runOps_unshared (fun op mem => ?_) (fun p q i held _ => nomatch start p _ held),
    runOps_ordinary fun p e held => Or.inl (start p e held)⟩
  obtain mem | mem := List.mem_append.mp mem
  · obtain mem | mem := List.mem_append.mp mem
    · obtain ⟨dir, -, mem⟩ := List.mem_flatMap.mp mem
      exact mkdirs_single _ _ op mem
    · exact atomic_write_single _ _ _ _ op mem
  · exact atomic_write_single _ _ _ _ op mem

/-- Which archives survive the round trip. An archive that is returned holds the vault with the backup's own
    lock file; restoring it gives the vault back, free to lock, exactly when no archived file has a second
    name, the host takes the vault and its canary, and the archived lock is one this host may take over. A
    run in which no crash falls between the link and the unlink of a write-once file leaves no second name. -/
theorem backup_round_trip (codec : Codec) (lawful : codec.Lawful) :
    (∀ self call vault archive, backup_matter codec self call vault = .ok archive →
      ∃ config matter_id snapshot, vault.read? [MATTER_YAML] = some config ∧
        codec.load_matter config = .ok matter_id ∧ snapshot_point codec self call vault = .ok snapshot ∧
        (call.held_lock = false → ∃ heartbeat, snapshot.read? LOCK_PATH = some (codec.lock.dumps
          { lock_payload self BACKUP_LOCK_RUN_ID call.token with heartbeat_at := some heartbeat })) ∧
        ∀ restore host self', restore.archive = some archive → restore.key = call.key →
          (RoundTrip codec snapshot restore host self' ↔ Plain snapshot ∧ Welcoming restore host ∧
            Registered snapshot matter_id restore host ∧ LockFree codec self' snapshot)) ∧
    ∀ config canary random random' trace vault,
      Transition.Run (Transition.Meeting Serves Uncut) (create_vault config canary random random') trace vault →
        ∀ self call snapshot, snapshot_point codec self call vault = .ok snapshot → Plain snapshot := by
  refine ⟨fun self call vault archive returned => ?_, fun config canary random random' trace vault run => ?_⟩
  · obtain ⟨config, matter_id, snapshot, read, loaded, point, bytes⟩ := backup_matter_holds lawful returned
    obtain ⟨lock, yaml⟩ := snapshot_point_locked point
    refine ⟨config, matter_id, snapshot, read, loaded, point, lock, fun restore host self' held key => ?_⟩
    rw [← key] at bytes
    exact round_trip_iff lawful (lawful.valid_matter _ _ loaded) held bytes (yaml.trans read) loaded self'
  · obtain ⟨apart, ordinary⟩ := create_vault_sound config canary random random'
    have sound : vault.Unshared ∧ vault.Ordinary :=
      run.invariant (I := fun v => v.Unshared ∧ v.Ordinary)
        (fun _ work v' held step => ⟨serves_unshared held.1 step, by
          rw [step.1.2]; exact runOps_ordinary held.2⟩) ⟨apart, ordinary⟩
    exact fun self call snapshot point => snapshot_plain sound.1 sound.2 point

/-- A backup of a vault with a valid `matter.yaml` returns an archive. -/
theorem backup_matter_returns {codec : Codec} (lawful : codec.Lawful) {self : Process} {call : BackupCall}
    {vault snapshot : Disk} {config matter_id : String} (point : snapshot_point codec self call vault = .ok snapshot)
    (sync : call.sync_folder = none) (repo : call.git_repo = none) (read : vault.read? [MATTER_YAML] = some config)
    (loaded : codec.load_matter config = .ok matter_id) :
    ∃ archive, backup_matter codec self call vault = .ok archive := by
  have listed : expected_members matter_id (snapshot_tar matter_id snapshot) = true := by
    have yaml : snapshot.get? [MATTER_YAML] ≠ none := by
      intro gone
      have same := (snapshot_point_locked point).2.trans read
      rw [Disk.read?, gone] at same
      cases same
    obtain ⟨e, held⟩ := Option.ne_none_iff_exists'.mp yaml
    have name : [matter_id, MATTER_YAML] ∈ (snapshot_tar matter_id snapshot).map (·.name) := by
      rw [snapshot_tar, tar_names]
      exact List.mem_map.mpr ⟨_, mem_walked.mpr ⟨held, rfl⟩, rfl⟩
    obtain ⟨m, mem, same⟩ := List.mem_map.mp name
    exact List.any_eq_true.mpr ⟨m, mem, by rw [same]; exact beq_self_eq_true _⟩
  unfold backup_matter
  simp only [sync, repo, read, load_matter, loaded, Except.mapError, point, bind, Except.bind, pure, Except.pure,
    archive_plain lawful, getmembers, lawful.getmembers_write, listed, if_true]
  exact ⟨_, rfl⟩

/-! ### A crashed write and a foreign host -/

namespace Sample

def text_code (text : String) : List Nat := text.toList.map Char.toNat
def text_of (code : List Nat) : String := String.ofList (code.map Char.ofNat)

theorem text_of_code (text : String) : text_of (text_code text) = text := by
  simp [text_of, text_code, Function.comp_def, Char.ofNat_toNat]

def type_code : MemberType → Nat
  | .directory => 0
  | .regular => 1
  | .link => 2
  | .symlink => 3
  | .other => 4

def type_of : Nat → MemberType
  | 0 => .directory
  | 1 => .regular
  | 2 => .link
  | 3 => .symlink
  | _ => .other

abbrev MemberCode := List (List Nat) × Nat × List (List Nat) × List Nat

def member_code (m : TarInfo) : MemberCode :=
  (m.name.map text_code, type_code m.type, m.linkname.map text_code, text_code m.data)

def member_of (code : MemberCode) : TarInfo :=
  ⟨code.1.map text_of, type_of code.2.1, code.2.2.1.map text_of, text_of code.2.2.2⟩

theorem member_of_code (m : TarInfo) : member_of (member_code m) = m := by
  obtain ⟨name, type, linkname, data⟩ := m
  cases type <;> simp [member_of, member_code, text_of_code, Function.comp_def, type_code, type_of]

/-- The lock file the backup process writes. -/
def backup_lock : LockRecord where
  pid := 7
  hostname := some "alpha"
  heartbeat_at := some ⟨20260105, 0⟩

/-- A tar stream is the number of its members' code, in unary; sealing appends a tag of sixteen bytes. -/
def archiver : Codec where
  encrypt _ _ plain := plain ++ List.replicate GCM_TAG_LEN 0
  decrypt _ _ blob := some (blob.take (blob.length - GCM_TAG_LEN))
  write members := List.replicate (Encodable.encode (members.map member_code)) 0
  getmembers blob := (Encodable.decode (α := List MemberCode) blob.length).map (·.map member_of)
  load_matter text := if text = "matter_id: acme\n" then .ok restored_id else .error "invalid"
  lock := ⟨fun _ => "lock", fun text => if text = "lock" then some backup_lock else none⟩

theorem archiver_lawful : archiver.Lawful where
  decrypt_encrypt key nonce plain := by simp [archiver]
  tag key nonce plain := by simp [archiver]
  getmembers_write members := by
    simp [archiver, Function.comp_def, member_of_code]
  valid_matter text matter_id loaded := by
    simp only [archiver] at loaded
    split at loaded
    · cases loaded; decide
    · cases loaded

def canary : String := "MOOTLOOP-CANARY-acme-0123456789abcdef0123456789abcdef"

def fresh_vault : Disk := create_vault "matter_id: acme\n" canary "a" "b"

/-- A write-once turn body whose writer is killed after the link. -/
def killed : Working where
  service := .write_once ["runs", "r1"] "t.json" "turn" "c"
  made := 5

def crashed_vault : Disk := runOps killed.calls fresh_vault

/-- The process that backs the vault up. -/
def backing : Process where
  hostname := "alpha"
  pid := 7
  alive _ := true
  now := ⟨20260105, 0⟩

def backup_call : BackupCall where
  ts := "20260105"
  key := []
  nonce := List.replicate 12 0
  nonce_length := rfl
  token := "token"
  random := "d"

def restoring (archive : Archive) : RestoreCall where
  archive := some archive
  key := []
  random := "0123456789abcdef0123456789abcdef"
  hex := token_hex

/-- A new host with an empty canary registry. -/
def fresh_host : Destination where
  staging := ["matters", ".restore-acme-1"]
  target := none
  registry := some ∅

/-- A process on the host of the backup, after that one died. -/
def later : Process where
  hostname := "alpha"
  pid := 9
  alive _ := false
  now := ⟨20260106, 0⟩

def elsewhere : Process := { later with hostname := "beta" }

/-- What a check of the snapshot finds. -/
def snapshot_all (vault : Disk) (check : Disk → Bool) : Bool :=
  match snapshot_point archiver backing backup_call vault with
  | .ok snapshot => check snapshot
  | .error _ => false

theorem snapshot_all_holds {vault : Disk} {check : Disk → Bool} (h : snapshot_all vault check = true) :
    ∃ snapshot, snapshot_point archiver backing backup_call vault = .ok snapshot ∧ check snapshot = true := by
  unfold snapshot_all at h
  split at h
  · next snapshot point => exact ⟨snapshot, point, h⟩
  · cases h

def members_accepted (snapshot : Disk) : Bool := (snapshot_tar restored_id snapshot).all fun m => decide (Accepted m)

theorem members_accepted_iff (snapshot : Disk) : members_accepted snapshot = true ↔ Plain snapshot := by
  rw [plain_iff restored_id, members_accepted, List.all_eq_true]
  simp only [decide_eq_true_eq]

/-- What the fixed vaults hold, evaluated. -/
theorem evaluated :
    (snapshot_all fresh_vault (fun snapshot => members_accepted snapshot &&
        seen snapshot [CANARY_FILE] == some (.file (canary ++ "\n"))) = true ∧
      fresh_vault.read? [MATTER_YAML] = some "matter_id: acme\n") ∧
    (snapshot_all crashed_vault (fun snapshot => !members_accepted snapshot) = true ∧
      crashed_vault.read? [MATTER_YAML] = some "matter_id: acme\n") ∧
    strip (canary ++ "\n") = canary ∧ canary_token restored_id canary = true := by
  decide +kernel

theorem fresh_yaml : fresh_vault.read? [MATTER_YAML] = some "matter_id: acme\n" := evaluated.1.2
theorem crashed_yaml : crashed_vault.read? [MATTER_YAML] = some "matter_id: acme\n" := evaluated.2.1.2

theorem loads_acme : archiver.load_matter "matter_id: acme\n" = .ok restored_id := by simp [archiver]

theorem welcoming (archive : Archive) : Welcoming (restoring archive) fresh_host :=
  ⟨rfl, rfl, fun _ held => by cases held⟩

/-- A fresh vault comes back on its own host once the backup process is gone. -/
theorem backup_round_trip_fresh : ∃ archive snapshot,
    backup_matter archiver backing backup_call fresh_vault = .ok archive ∧
      snapshot_point archiver backing backup_call fresh_vault = .ok snapshot ∧
      RoundTrip archiver snapshot (restoring archive) fresh_host later := by
  obtain ⟨snapshot, point, checked⟩ := snapshot_all_holds evaluated.1.1
  rw [Bool.and_eq_true, members_accepted_iff, beq_iff_eq] at checked
  obtain ⟨archive, returned⟩ := backup_matter_returns archiver_lawful point rfl rfl fresh_yaml loads_acme
  obtain ⟨config, id, snapshot', read, loaded, point', lock, trip⟩ :=
    (backup_round_trip archiver archiver_lawful).1 backing backup_call fresh_vault archive returned
  rw [point] at point'
  cases point'
  rw [fresh_yaml] at read
  cases read
  rw [loads_acme] at loaded
  cases loaded
  obtain ⟨heartbeat, text⟩ := lock rfl
  refine ⟨archive, snapshot, returned, point, (trip (restoring archive) fresh_host later rfl rfl).mpr
    ⟨checked.1, welcoming archive, ⟨canary, ∅, ?_, evaluated.2.2.2, rfl, by simp⟩, ?_⟩⟩
  · rw [checked.2]
    exact congrArg Except.ok evaluated.2.2.1
  · have lock_there : snapshot.get? LOCK_PATH ≠ none := by
      intro gone
      rw [Disk.read?, gone] at text
      cases text
    have runs := snapshot.above RUNS [LOCK_FILE] _ (Option.ne_none_iff_exists'.mp lock_there).choose_spec (by simp)
    refine ⟨Or.inr runs, Or.inr ⟨backup_lock, ?_, rfl, fun alive => by cases alive⟩⟩
    rw [text]
    rfl

/-- An archive of a vault with a half-published file is refused, and one of a fresh vault cannot be locked on
    another host. -/
theorem crashed_backup_not_restorable :
    (∃ archive snapshot, Transition.Run Serves fresh_vault [killed] crashed_vault ∧
      backup_matter archiver backing backup_call crashed_vault = .ok archive ∧
      snapshot_point archiver backing backup_call crashed_vault = .ok snapshot ∧
      ¬RoundTrip archiver snapshot (restoring archive) fresh_host later) ∧
    ∃ archive snapshot, backup_matter archiver backing backup_call fresh_vault = .ok archive ∧
      snapshot_point archiver backing backup_call fresh_vault = .ok snapshot ∧
      ¬RoundTrip archiver snapshot (restoring archive) fresh_host elsewhere := by
  have trip : ∀ vault archive snapshot, vault.read? [MATTER_YAML] = some "matter_id: acme\n" →
      backup_matter archiver backing backup_call vault = .ok archive →
      snapshot_point archiver backing backup_call vault = .ok snapshot → ∀ self,
        RoundTrip archiver snapshot (restoring archive) fresh_host self →
          Plain snapshot ∧ LockFree archiver self snapshot := by
    intro vault archive snapshot yaml returned point self trip
    obtain ⟨config, id, snapshot', read, loaded, point', bytes⟩ := backup_matter_holds archiver_lawful returned
    rw [point] at point'
    cases point'
    have valid := archiver_lawful.valid_matter _ _ loaded
    have kept := (snapshot_point_locked point).2.trans read
    have held : (restoring archive).archive = some archive := rfl
    obtain ⟨plain, -, -, free⟩ := (round_trip_iff archiver_lawful valid held bytes kept loaded self).mp trip
    exact ⟨plain, free⟩
  constructor
  · obtain ⟨snapshot, point, linked⟩ := snapshot_all_holds evaluated.2.1.1
    obtain ⟨archive, returned⟩ := backup_matter_returns archiver_lawful point rfl rfl crashed_yaml loads_acme
    refine ⟨archive, snapshot, .one ⟨?_, rfl⟩, returned, point, fun back => ?_⟩
    · decide +kernel
    · have plain := (trip _ _ _ crashed_yaml returned point later back).1
      rw [(members_accepted_iff snapshot).mpr plain] at linked
      cases linked
  · obtain ⟨snapshot, point, -⟩ := snapshot_all_holds evaluated.1.1
    obtain ⟨archive, returned⟩ := backup_matter_returns archiver_lawful point rfl rfl fresh_yaml loads_acme
    refine ⟨archive, snapshot, returned, point, fun back => ?_⟩
    obtain ⟨-, -, absent | ⟨record, held, host, -⟩⟩ := trip _ _ _ fresh_yaml returned point elsewhere back
    · obtain ⟨heartbeat, text⟩ := (snapshot_point_locked point).1 rfl
      rw [Disk.read?, absent] at text
      cases text
    · obtain ⟨heartbeat, text⟩ := (snapshot_point_locked point).1 rfl
      rw [text] at held
      cases held
      exact absurd host (by decide)

end Sample

end MootLoop
