import Mathlib.Data.List.Induction
import MootLoop.Lib.Dict
import MootLoop.Lib.Transition

/-! Directory trees with hard links: names lie in directories and point at inodes, an inode may have
    several names. Programs over a tree are lists of operations, and a crash leaves what a prefix did. -/

namespace Files

/-- The components of a path below the root. -/
abbrev Path := List String

inductive Entry where
  | dir
  | file (inode : Nat)
  | symlink (target : String)
  | special
  deriving DecidableEq, Repr

/-- The names a directory can list. -/
def ValidName (name : String) : Prop := name ≠ "" ∧ name ≠ "." ∧ name ≠ ".."

instance (name : String) : Decidable (ValidName name) := inferInstanceAs (Decidable (_ ∧ _ ∧ _))

/-- A tree: whatever has a name lies in a directory, and every inode is one already handed out. -/
structure Disk where
  entries : Dict Path Entry
  bytes : Nat → String
  next : Nat
  root : entries.get? [] = some .dir
  rooted : ∀ p name, entries.contains (p ++ [name]) = true → entries.get? p = some .dir ∧ ValidName name
  fresh : ∀ p i, entries.get? p = some (.file i) → i < next

namespace Disk

def get? (d : Disk) (p : Path) : Option Entry := d.entries.get? p

/-- The bytes of the file at a path. -/
def read? (d : Disk) (p : Path) : Option String :=
  match d.get? p with
  | some (.file i) => some (d.bytes i)
  | _ => none

/-- No two names have one inode. -/
def Unshared (d : Disk) : Prop :=
  ∀ p q i, d.get? p = some (.file i) → d.get? q = some (.file i) → p = q

theorem ne_snoc (p : Path) (name : String) : p ≠ p ++ [name] := by simp

theorem nil_ne_snoc (p : Path) (name : String) : ([] : Path) ≠ p ++ [name] := by simp

/-- What is above a name is a directory. -/
theorem above (d : Disk) (a b : Path) : ∀ e, d.get? (a ++ b) = some e → b ≠ [] → d.get? a = some .dir := by
  induction b using List.reverseRecOn with
  | nil => exact fun _ _ more => absurd rfl more
  | append_singleton b n ih =>
    intro e held _
    rw [← List.append_assoc] at held
    have up := (d.rooted (a ++ b) n (Dict.contains_iff.mpr ⟨e, held⟩)).1
    by_cases more : b = []
    · rw [more, List.append_nil] at up; exact up
    · exact ih _ up more

theorem valid_names (d : Disk) (p : Path) : ∀ e, d.get? p = some e → ∀ n ∈ p, ValidName n := by
  induction p using List.reverseRecOn with
  | nil => simp
  | append_singleton p n ih =>
    intro e held m mem
    obtain ⟨up, valid⟩ := d.rooted p n (Dict.contains_iff.mpr ⟨e, held⟩)
    obtain mem | mem := List.mem_append.mp mem
    · exact ih _ up m mem
    · exact List.mem_singleton.mp mem ▸ valid

/-- The tree with an empty root directory. -/
def empty : Disk where
  entries := (∅ : Dict Path Entry).insert [] .dir
  bytes := fun _ => ""
  next := 0
  root := by simp
  rooted := fun p name held => by
    rw [Dict.contains_insert] at held
    simp [Dict.contains] at held
  fresh := fun p i held => by
    rw [Dict.get?_insert] at held
    split at held <;> simp at held

/-- A directory that can hold the name. -/
def Holds (d : Disk) (dir : Path) (name : String) : Prop := d.get? dir = some .dir ∧ ValidName name

instance (d : Disk) (dir : Path) (name : String) : Decidable (d.Holds dir name) :=
  inferInstanceAs (Decidable (_ ∧ _))

/-- Gives `dir/name` the inode `i`, in place of what was there. -/
def put (d : Disk) (dir : Path) (name : String) (i : Nat) (parent : d.Holds dir name)
    (free : d.get? (dir ++ [name]) ≠ some .dir) (old : i < d.next) : Disk :=
  { d with
    entries := d.entries.insert (dir ++ [name]) (.file i)
    root := by rw [Dict.get?_insert_ne _ (nil_ne_snoc _ _)]; exact d.root
    rooted := fun p n held => by
      rw [Dict.contains_insert, Bool.or_eq_true, decide_eq_true_eq] at held
      obtain here | held := held
      · obtain ⟨rfl, same⟩ := List.append_inj' here rfl
        cases same
        rw [Dict.get?_insert_ne _ (ne_snoc _ _)]
        exact parent
      · have above := d.rooted p n held
        have ne : p ≠ dir ++ [name] := fun here => free (here ▸ above.1)
        rw [Dict.get?_insert_ne _ ne]
        exact above
    fresh := fun p j held => by
      rw [Dict.get?_insert] at held
      split at held
      · cases held; exact old
      · exact d.fresh p j held }

/-- Takes the name `dir/name` away. -/
def drop (d : Disk) (dir : Path) (name : String) (leaf : d.get? (dir ++ [name]) ≠ some .dir) : Disk :=
  { d with
    entries := d.entries.erase (dir ++ [name])
    root := by rw [Dict.get?_erase, if_neg (nil_ne_snoc _ _)]; exact d.root
    rooted := fun p n held => by
      obtain ⟨e, held⟩ := Dict.contains_iff.mp held
      rw [Dict.get?_erase] at held
      split at held
      · cases held
      · have above := d.rooted p n (Dict.contains_iff.mpr ⟨e, held⟩)
        have ne : p ≠ dir ++ [name] := fun here => leaf (here ▸ above.1)
        rw [Dict.get?_erase, if_neg ne]
        exact above
    fresh := fun p j held => by
      rw [Dict.get?_erase] at held
      split at held
      · cases held
      · exact d.fresh p j held }

/-- Gives `dir/name` an empty directory. -/
def addDir (d : Disk) (dir : Path) (name : String) (parent : d.Holds dir name) : Disk :=
  { d with
    entries := d.entries.insert (dir ++ [name]) .dir
    root := by rw [Dict.get?_insert_ne _ (nil_ne_snoc _ _)]; exact d.root
    rooted := fun p n held => by
      rw [Dict.contains_insert, Bool.or_eq_true, decide_eq_true_eq] at held
      obtain here | held := held
      · obtain ⟨rfl, same⟩ := List.append_inj' here rfl
        cases same
        rw [Dict.get?_insert_ne _ (ne_snoc _ _)]
        exact parent
      · rw [Dict.get?_insert]
        split
        · exact ⟨rfl, (d.rooted p n held).2⟩
        · exact d.rooted p n held
    fresh := fun p j held => by
      rw [Dict.get?_insert] at held
      split at held
      · cases held
      · exact d.fresh p j held }

def setBytes (d : Disk) (i : Nat) (text : String) : Disk :=
  { d with bytes := Function.update d.bytes i text }

/-- Hands out an inode with no bytes in it. -/
def grow (d : Disk) : Disk :=
  { d with bytes := Function.update d.bytes d.next "", next := d.next + 1
           fresh := fun p i held => Nat.lt_succ_of_lt (d.fresh p i held) }

/-- Gives `dir/name` a new empty file. -/
def make (d : Disk) (dir : Path) (name : String) (parent : d.Holds dir name)
    (free : d.get? (dir ++ [name]) = none) : Disk :=
  put d.grow dir name d.next parent (fun held => nomatch (show none = some Entry.dir from free ▸ held))
    (Nat.lt_succ_self _)

section
variable (d : Disk) (dir : Path) (name : String) (i : Nat)

theorem get?_put (parent free old) (p : Path) :
    (d.put dir name i parent free old).get? p = if p = dir ++ [name] then some (.file i) else d.get? p :=
  Dict.get?_insert ..

theorem get?_drop (leaf) (p : Path) :
    (d.drop dir name leaf).get? p = if p = dir ++ [name] then none else d.get? p :=
  Dict.get?_erase ..

theorem get?_addDir (parent) (p : Path) :
    (d.addDir dir name parent).get? p = if p = dir ++ [name] then some .dir else d.get? p :=
  Dict.get?_insert ..

theorem get?_make (parent free) (p : Path) :
    (d.make dir name parent free).get? p = if p = dir ++ [name] then some (.file d.next) else d.get? p :=
  Dict.get?_insert ..

@[simp] theorem bytes_put (parent free old) : (d.put dir name i parent free old).bytes = d.bytes := rfl
@[simp] theorem bytes_drop (leaf) : (d.drop dir name leaf).bytes = d.bytes := rfl
@[simp] theorem get?_setBytes (text : String) (p : Path) : (d.setBytes i text).get? p = d.get? p := rfl
@[simp] theorem get?_grow (p : Path) : d.grow.get? p = d.get? p := rfl

end

end Disk

/-! ### Operations -/

/-- One system call on the tree. -/
inductive Op where
  | mkdir (dir : Path) (name : String)
  | create (dir : Path) (name : String)
  | write (dir : Path) (name : String) (text : String)
  | append (dir : Path) (name : String) (text : String)
  | link (dir : Path) (source target : String)
  | replace (dir : Path) (source target : String)
  | unlink (dir : Path) (name : String)
  deriving DecidableEq, Repr

/-- What the call leaves; a call that fails leaves the tree alone. -/
def Op.apply : Op → Disk → Disk
  | .mkdir dir name, d =>
    if parent : d.Holds dir name then
      if d.get? (dir ++ [name]) = none then d.addDir dir name parent else d
    else d
  | .create dir name, d =>
    if parent : d.Holds dir name then
      if free : d.get? (dir ++ [name]) = none then
        d.make dir name parent free
      else d
    else d
  | .write dir name text, d =>
    match d.get? (dir ++ [name]) with
    | some (.file i) => d.setBytes i text
    | _ => d
  | .append dir name text, d =>
    match d.get? (dir ++ [name]) with
    | some (.file i) => d.setBytes i (d.bytes i ++ text)
    | _ => d
  | .link dir source target, d =>
    if parent : d.Holds dir target then
      if free : d.get? (dir ++ [target]) = none then
        match held : d.get? (dir ++ [source]) with
        | some (.file i) => d.put dir target i parent (by simp [free]) (d.fresh _ _ held)
        | _ => d
      else d
    else d
  | .replace dir source target, d =>
    if parent : d.Holds dir target then
      if free : d.get? (dir ++ [target]) ≠ some .dir then
        match held : d.get? (dir ++ [source]) with
        | some (.file i) =>
          if source = target then d
          else
            (d.put dir target i parent free (d.fresh _ _ held)).drop dir source (by
              rw [Disk.get?, Disk.put, Dict.get?_insert]; split
              · simp
              · rw [← Disk.get?, held]; simp)
        | _ => d
      else d
    else d
  | .unlink dir name, d =>
    if leaf : d.get? (dir ++ [name]) ≠ some .dir then d.drop dir name leaf else d

theorem Op.apply_unlink {d : Disk} {dir : Path} {name : String} (leaf : d.get? (dir ++ [name]) ≠ some .dir) :
    (Op.unlink dir name).apply d = d.drop dir name leaf := dif_pos leaf

/-- What a list of calls leaves. -/
def runOps (ops : List Op) (d : Disk) : Disk := ops.foldl (fun d op => op.apply d) d

/-- `mkdir -p`. -/
def mkdirsFrom : Path → Path → List Op
  | _, [] => []
  | above, name :: rest => .mkdir above name :: mkdirsFrom (above ++ [name]) rest

def mkdirs (p : Path) : List Op := mkdirsFrom [] p

@[simp] theorem runOps_nil (d : Disk) : runOps [] d = d := rfl
@[simp] theorem runOps_cons (op : Op) (ops : List Op) (d : Disk) :
    runOps (op :: ops) d = runOps ops (op.apply d) := rfl
@[simp] theorem runOps_append (ops ops' : List Op) (d : Disk) :
    runOps (ops ++ ops') d = runOps ops' (runOps ops d) := List.foldl_append

/-! ### Inodes with one name -/

namespace Disk
variable {d : Disk} {dir : Path} {name : String}

theorem Unshared.drop (apart : d.Unshared) (leaf) : (d.drop dir name leaf).Unshared := by
  intro p q i hp hq
  rw [get?_drop] at hp hq
  split at hp
  · cases hp
  · split at hq
    · cases hq
    · exact apart p q i hp hq

theorem Unshared.addDir (apart : d.Unshared) (parent) : (d.addDir dir name parent).Unshared := by
  intro p q i hp hq
  rw [get?_addDir] at hp hq
  split at hp
  · cases hp
  · split at hq
    · cases hq
    · exact apart p q i hp hq

/-- A name for an inode that has no other. -/
theorem Unshared.put (apart : d.Unshared) {i : Nat} (parent free old)
    (only : ∀ p, d.get? p = some (.file i) → p = dir ++ [name]) : (d.put dir name i parent free old).Unshared := by
  intro p q j hp hq
  rw [get?_put] at hp hq
  split at hp
  · next here =>
    cases hp
    split at hq
    · next there => exact here.trans there.symm
    · exact here.trans (only q hq).symm
  · split at hq
    · next there => cases hq; exact (only p hp).trans there.symm
    · exact apart p q j hp hq

theorem Unshared.make (apart : d.Unshared) (parent free) : (d.make dir name parent free).Unshared :=
  Unshared.put (d := d.grow) apart _ _ _ fun p held => absurd (d.fresh p _ held) (lt_irrefl _)

/-- A second name that takes the place of the first. -/
theorem Unshared.rename (apart : d.Unshared) {source target : String} {i : Nat} (parent free old)
    (held : d.get? (dir ++ [source]) = some (.file i)) (leaf) :
    ((d.put dir target i parent free old).drop dir source leaf).Unshared := by
  intro p q j hp hq
  rw [get?_drop, get?_put] at hp hq
  split at hp
  · cases hp
  next pne =>
    split at hq
    · cases hq
    next qne =>
      split at hp
      · next here =>
        cases hp
        split at hq
        · next there => exact here.trans there.symm
        · exact absurd (apart _ _ _ hq held) qne
      · split at hq
        · cases hq; exact absurd (apart _ _ _ hp held) pne
        · exact apart p q j hp hq

end Disk

/-- The calls that give an inode a second name. -/
def Op.Links : Op → Prop
  | .link .. => True
  | _ => False

instance (op : Op) : Decidable op.Links := by cases op <;> unfold Op.Links <;> infer_instance

theorem Op.unshared {op : Op} {d : Disk} (single : ¬op.Links) (apart : d.Unshared) : (op.apply d).Unshared := by
  cases op with
  | link => exact absurd trivial single
  | mkdir dir name =>
    simp only [Op.apply]
    split
    · split
      · exact apart.addDir _
      · exact apart
    · exact apart
  | create dir name =>
    simp only [Op.apply]
    split
    · split
      · exact apart.make _ _
      · exact apart
    · exact apart
  | write dir name text =>
    simp only [Op.apply]
    split
    · exact apart
    · exact apart
  | append dir name text =>
    simp only [Op.apply]
    split
    · exact apart
    · exact apart
  | replace dir source target =>
    simp only [Op.apply]
    split
    · split
      · split
        · next held =>
          split
          · exact apart
          · exact apart.rename _ _ _ held _
        · exact apart
      · exact apart
    · exact apart
  | unlink dir name =>
    simp only [Op.apply]
    split
    · exact apart.drop _
    · exact apart

/-- The calls make directories and regular files only. -/
theorem Op.made {op : Op} {d : Disk} {p : Path} {e : Entry} (held : (op.apply d).get? p = some e) :
    e = .dir ∨ (∃ i, e = .file i) ∨ ∃ q, d.get? q = some e := by
  have named : ∀ {here : Prop} [Decidable here] {i : Nat}, (if here then some (.file i) else d.get? p) = some e →
      e = .dir ∨ (∃ i, e = .file i) ∨ ∃ q, d.get? q = some e := by
    intro here _ i held
    split at held
    · cases held; exact Or.inr (Or.inl ⟨i, rfl⟩)
    · exact Or.inr (Or.inr ⟨p, held⟩)
  have old : d.get? p = some e → e = .dir ∨ (∃ i, e = .file i) ∨ ∃ q, d.get? q = some e :=
    fun held => Or.inr (Or.inr ⟨p, held⟩)
  cases op with
  | mkdir dir name =>
    simp only [Op.apply] at held
    split at held
    · split at held
      · rw [Disk.get?_addDir] at held
        split at held
        · cases held; exact Or.inl rfl
        · exact old held
      · exact old held
    · exact old held
  | create dir name =>
    simp only [Op.apply] at held
    split at held
    · split at held
      · rw [Disk.get?_make] at held
        exact named held
      · exact old held
    · exact old held
  | write dir name text =>
    simp only [Op.apply] at held
    split at held <;> exact old held
  | append dir name text =>
    simp only [Op.apply] at held
    split at held <;> exact old held
  | link dir source target =>
    simp only [Op.apply] at held
    split at held
    · split at held
      · split at held
        · rw [Disk.get?_put] at held
          exact named held
        · exact old held
      · exact old held
    · exact old held
  | replace dir source target =>
    simp only [Op.apply] at held
    split at held
    · split at held
      · split at held
        · split at held
          · exact old held
          · rw [Disk.get?_drop] at held
            split at held
            · cases held
            · rw [Disk.get?_put] at held
              exact named held
        · exact old held
      · exact old held
    · exact old held
  | unlink dir name =>
    simp only [Op.apply] at held
    split at held
    · rw [Disk.get?_drop] at held
      split at held
      · cases held
      · exact old held
    · exact old held

/-- Directories and regular files. -/
def Disk.Ordinary (d : Disk) : Prop := ∀ p e, d.get? p = some e → e = .dir ∨ ∃ i, e = .file i

theorem runOps_ordinary {ops : List Op} {d : Disk} (ordinary : d.Ordinary) : (runOps ops d).Ordinary := by
  induction ops generalizing d with
  | nil => exact ordinary
  | cons op ops ih =>
    refine ih fun p e held => ?_
    obtain dir | file | ⟨q, held⟩ := Op.made held
    · exact Or.inl dir
    · exact Or.inr file
    · exact ordinary q e held

theorem runOps_unshared {ops : List Op} {d : Disk} (single : ∀ op ∈ ops, ¬op.Links) (apart : d.Unshared) :
    (runOps ops d).Unshared := by
  induction ops generalizing d with
  | nil => exact apart
  | cons op ops ih =>
    exact ih (fun op' mem => single op' (List.mem_cons_of_mem _ mem))
      (Op.unshared (single op (List.mem_cons_self ..)) apart)

/-- A link whose source is then taken away. -/
theorem link_unlink_unshared {d : Disk} (dir : Path) (source target : String) (apart : d.Unshared) :
    (runOps [.link dir source target, .unlink dir source] d).Unshared := by
  have kept : (Op.apply (.unlink dir source) d).Unshared := Op.unshared (fun h => h) apart
  simp only [runOps_cons, runOps_nil]
  by_cases parent : d.Holds dir target
  · by_cases free : d.get? (dir ++ [target]) = none
    · cases held : d.get? (dir ++ [source]) with
      | none => simpa [Op.apply, parent, free, held] using kept
      | some e =>
        cases e with
        | file i =>
          have linked : Op.apply (.link dir source target) d =
              d.put dir target i parent (by simp [free]) (d.fresh _ _ held) := by
            simp only [Op.apply, parent, free, dif_pos]
            split
            · next j held' => rw [held] at held'; cases held'; rfl
            · next other => exact absurd held (other i)
          rw [linked]
          simp only [Op.apply]
          split
          · exact apart.rename _ _ _ held _
          · next leaf =>
            rw [not_not, Disk.get?_put] at leaf
            split at leaf
            · cases leaf
            · rw [held] at leaf; cases leaf
        | _ => simpa [Op.apply, parent, free, held] using kept
    · simpa [Op.apply, parent, free] using kept
  · simpa [Op.apply, parent] using kept

theorem mkdirs_single (above p : Path) : ∀ op ∈ mkdirsFrom above p, ¬op.Links := by
  induction p generalizing above with
  | nil => simp [mkdirsFrom]
  | cons name rest ih =>
    intro op mem
    obtain rfl | mem := List.mem_cons.mp mem
    · exact fun h => h
    · exact ih _ op mem

/-! ### Publishing a file through a temporary one -/

/-- The tree got the file `dir/name` with the text, in a new inode, and nothing else changed. -/
structure Published (d : Disk) (dir : Path) (name text : String) (d' : Disk) : Prop where
  names : ∀ p, d'.get? p = if p = dir ++ [name] then some (.file d.next) else d.get? p
  text : d'.bytes d.next = text
  others : ∀ i < d.next, d'.bytes i = d.bytes i

namespace Published
variable {d d' : Disk} {dir : Path} {name text : String}

theorem read?_self (done : Published d dir name text d') : d'.read? (dir ++ [name]) = some text := by
  simp [Disk.read?, done.names, done.text]

theorem read?_ne (done : Published d dir name text d') {p : Path} (other : p ≠ dir ++ [name]) :
    d'.read? p = d.read? p := by
  unfold Disk.read?
  rw [done.names, if_neg other]
  cases held : d.get? p with
  | none => rfl
  | some e =>
    cases e with
    | file i => simp only [done.others i (d.fresh p i held)]
    | _ => rfl

end Published

/-- The temporary file, complete. -/
theorem create_write {d : Disk} {dir : Path} {tmp : String} (text : String) (parent : d.Holds dir tmp)
    (free : d.get? (dir ++ [tmp]) = none) :
    ∃ d', runOps [.create dir tmp, .write dir tmp text] d = d' ∧ d'.next = d.next + 1 ∧ d'.bytes d.next = text ∧
      (∀ i < d.next, d'.bytes i = d.bytes i) ∧
      ∀ p, d'.get? p = if p = dir ++ [tmp] then some (.file d.next) else d.get? p := by
  refine ⟨_, rfl, ?_⟩
  have created : (Op.create dir tmp).apply d = d.make dir tmp parent free := by
    simp only [Op.apply, parent, free, dif_pos]
  have held : ((Op.create dir tmp).apply d).get? (dir ++ [tmp]) = some (.file d.next) := by
    rw [created, Disk.get?_make, if_pos rfl]
  have written : (Op.write dir tmp text).apply ((Op.create dir tmp).apply d) =
      ((Op.create dir tmp).apply d).setBytes d.next text := by
    generalize (Op.create dir tmp).apply d = d' at held
    rw [Op.apply, held]
  rw [runOps_cons, runOps_cons, runOps_nil, written, created]
  refine ⟨rfl, Function.update_self .., fun i old => ?_, fun p => ?_⟩
  · have ne : i ≠ d.next := Nat.ne_of_lt old
    exact (Function.update_of_ne ne ..).trans (Function.update_of_ne ne ..)
  · rw [Disk.get?_setBytes, Disk.get?_make]

/-- The temporary file becomes `dir/name` by a link and the removal of its own name. -/
theorem link_published {d : Disk} {dir : Path} {tmp name text : String} (parent : d.Holds dir tmp)
    (valid : ValidName name) (free : d.get? (dir ++ [tmp]) = none) (new : d.get? (dir ++ [name]) = none)
    (ne : tmp ≠ name) :
    Published d dir name text
      (runOps [.create dir tmp, .write dir tmp text, .link dir tmp name, .unlink dir tmp] d) := by
  obtain ⟨d', made, next, held, others, names⟩ := create_write text parent free
  have split : runOps [.create dir tmp, .write dir tmp text, .link dir tmp name, .unlink dir tmp] d =
      runOps [.link dir tmp name, .unlink dir tmp] d' := by rw [← made]; rfl
  have apart : dir ++ [name] ≠ dir ++ [tmp] := fun same => ne (List.cons.inj (List.append_cancel_left same)).1.symm
  have holds : d'.Holds dir name := ⟨by rw [names, if_neg (Disk.ne_snoc _ _)]; exact parent.1, valid⟩
  have new' : d'.get? (dir ++ [name]) = none := by rw [names, if_neg apart]; exact new
  have source : d'.get? (dir ++ [tmp]) = some (.file d.next) := by rw [names, if_pos rfl]
  have linked : (Op.link dir tmp name).apply d' =
      d'.put dir name d.next holds (by simp [new']) (by rw [next]; exact Nat.lt_succ_self _) := by
    simp only [Op.apply, holds, new', dif_pos]
    split
    · next j held' => rw [source] at held'; cases held'; rfl
    · next other => exact absurd source (other _)
  have leaf : ((Op.link dir tmp name).apply d').get? (dir ++ [tmp]) ≠ some .dir := by
    rw [linked, Disk.get?_put, if_neg apart.symm, source]
    simp
  rw [split, runOps_cons, runOps_cons, runOps_nil, Op.apply_unlink leaf]
  refine ⟨fun p => ?_, ?_, fun i old => ?_⟩
  · rw [Disk.get?_drop, linked, Disk.get?_put, names]
    by_cases here : p = dir ++ [tmp]
    · rw [if_pos here, if_neg (here ▸ apart.symm), here, free]
    · rw [if_neg here, if_neg here]
  · rw [Disk.bytes_drop, linked]; exact held
  · rw [Disk.bytes_drop, linked]; exact others i old

/-- The temporary file becomes `dir/name` by a rename over what is there. -/
theorem replace_published {d : Disk} {dir : Path} {tmp name text : String} (parent : d.Holds dir tmp)
    (valid : ValidName name) (free : d.get? (dir ++ [tmp]) = none) (leaf : d.get? (dir ++ [name]) ≠ some .dir)
    (ne : tmp ≠ name) :
    Published d dir name text
      (runOps [.create dir tmp, .write dir tmp text, .replace dir tmp name, .unlink dir tmp] d) := by
  obtain ⟨d', made, next, held, others, names⟩ := create_write text parent free
  have split : runOps [.create dir tmp, .write dir tmp text, .replace dir tmp name, .unlink dir tmp] d =
      runOps [.replace dir tmp name, .unlink dir tmp] d' := by rw [← made]; rfl
  have apart : dir ++ [name] ≠ dir ++ [tmp] := fun same => ne (List.cons.inj (List.append_cancel_left same)).1.symm
  have holds : d'.Holds dir name := ⟨by rw [names, if_neg (Disk.ne_snoc _ _)]; exact parent.1, valid⟩
  have leaf' : d'.get? (dir ++ [name]) ≠ some .dir := by rw [names, if_neg apart]; exact leaf
  have source : d'.get? (dir ++ [tmp]) = some (.file d.next) := by rw [names, if_pos rfl]
  have old : d.next < d'.next := by rw [next]; exact Nat.lt_succ_self _
  have gone : (d'.put dir name d.next holds leaf' old).get? (dir ++ [tmp]) ≠ some .dir := by
    rw [Disk.get?_put, if_neg apart.symm, source]
    simp
  have moved : (Op.replace dir tmp name).apply d' = (d'.put dir name d.next holds leaf' old).drop dir tmp gone := by
    simp only [Op.apply, holds, leaf', dif_pos, ne_eq, not_false_eq_true]
    split
    · next j held' => rw [source] at held'; cases held'; rw [if_neg ne]
    · next other => exact absurd source (other _)
  have final : ∀ p, ((Op.replace dir tmp name).apply d').get? p =
      if p = dir ++ [name] then some (.file d.next) else d.get? p := by
    intro p
    rw [moved, Disk.get?_drop, Disk.get?_put, names]
    by_cases here : p = dir ++ [tmp]
    · rw [if_pos here, if_neg (here ▸ apart.symm), here, free]
    · rw [if_neg here, if_neg here]
  have absent : ((Op.replace dir tmp name).apply d').get? (dir ++ [tmp]) ≠ some .dir := by
    rw [final, if_neg apart.symm, free]
    simp
  rw [split, runOps_cons, runOps_cons, runOps_nil, Op.apply_unlink absent]
  refine ⟨fun p => ?_, ?_, fun i old => ?_⟩
  · rw [Disk.get?_drop, final]
    by_cases here : p = dir ++ [tmp]
    · rw [if_pos here, if_neg (here ▸ apart.symm), here, free]
    · rw [if_neg here]
  · rw [Disk.bytes_drop, moved]; exact held
  · rw [Disk.bytes_drop, moved]; exact others i old

end Files
