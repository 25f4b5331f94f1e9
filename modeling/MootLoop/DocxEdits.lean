import MootLoop.Common
import MootLoop.Lib.Dict
import MootLoop.Lib.Spacing

/-! Recovery of an attorney's edits from the body of a DOCX: the walk of its elements, which keeps a current and an
    original text for each bookmark, and the views of an edited body that accept or reject its tracked changes. -/

namespace MootLoop.DocxEdits

/-! ### Elements -/

/-- The names of the WordprocessingML vocabulary that matter here. -/
inductive Tag where
  | bookmarkStart | bookmarkEnd | ins | del | moveFrom | moveTo | t | delText | r | rPr | pPr | vanish | p
  | other (name : String)
  deriving DecidableEq, Repr

structure Attributes where
  id : Option String := none
  name : Option String := none
  author : Option String := none
  date : Option String := none
  deriving DecidableEq, Repr

/-- An element with the text before its first child. -/
inductive Element where
  | node (tag : Tag) (attributes : Attributes) (text : Option String) (children : List Element)

def Element.tag : Element → Tag
  | .node tag _ _ _ => tag

def Element.attributes : Element → Attributes
  | .node _ attributes _ _ => attributes

def Element.text : Element → Option String
  | .node _ _ text _ => text

def Element.children : Element → List Element
  | .node _ _ _ children => children

def Element.find (element : Element) (tag : Tag) : Option Element := element.children.find? (·.tag = tag)

mutual

/-- The element and all below it, in document order. -/
def Element.iter : Element → List Element
  | .node tag attributes text children => .node tag attributes text children :: iter_all children

def iter_all : List Element → List Element
  | [] => []
  | child :: children => child.iter ++ iter_all children

end

/-! ### Texts -/

/-- `_SPACE_RE.sub(" ", "".join(parts)).strip()`. -/
def normalize (parts : List String) : String :=
  String.ofList (Spacing.normalize isSpace ' ' (parts.flatMap String.toList))

/-- Whether a name has the form of an anchor's. -/
def isAnchor : List Char → Bool
  | [] => false
  | first :: rest => first.isAlphanum && decide (rest.length ≤ 127) &&
      rest.all fun c => c.isAlphanum || c = '.' || c = '_' || c = ':' || c = '-'

def start_sentinel (anchor_id : String) : String := s!"MLA1[{anchor_id}]:START"

def end_sentinel (anchor_id : String) : String := s!"MLA1[{anchor_id}]:END"

/-- `_SENTINEL_RE.fullmatch(text)`. -/
def is_sentinel (text : String) : Bool :=
  let anchor := (text.toList.drop 5).takeWhile (· ≠ ']')
  isAnchor anchor &&
    (text = start_sentinel (String.ofList anchor) || text = end_sentinel (String.ofList anchor))

/-! ### The walk -/

inductive RevisionKind where
  | insertion
  | deletion
  deriving DecidableEq, Repr

structure DocxRevision where
  kind : RevisionKind
  text : String
  author : Option String
  date : Option String
  deriving DecidableEq, Repr

/-- A bookmark that was started. -/
structure Occurrence where
  current : List String := []
  original : List String := []
  revisions : List DocxRevision := []
  closed : Bool := false
  deriving DecidableEq, Repr

structure TextEvent where
  text : String
  hidden : Bool
  deriving DecidableEq, Repr

/-- What the walk has collected: the occurrences in the order they were started, each under its name, the places of
    those that are active by bookmark id, and the texts of the whole body. -/
structure Collected where
  occurrences : List (String × Occurrence) := []
  active : Dict String Nat := ∅
  global_current : List TextEvent := []
  global_original : List TextEvent := []

/-- `for occurrence in active.values()`. -/
def Collected.each_active (s : Collected) (change : Occurrence → Occurrence) : List (String × Occurrence) :=
  s.occurrences.mapIdx fun i entry => if i ∈ s.active.values then (entry.1, change entry.2) else entry

def append_regular (text : String) (hidden : Bool) (s : Collected) : Collected :=
  let event : TextEvent := ⟨text, hidden⟩
  let s := { s with global_current := s.global_current ++ [event], global_original := s.global_original ++ [event] }
  if hidden && is_sentinel text then s
  else
    { s with occurrences := s.each_active fun occurrence =>
        { occurrence with current := occurrence.current ++ [text], original := occurrence.original ++ [text] } }

def revision_text (element : Element) (deletion : Bool) : String :=
  let wanted := if deletion then Tag.delText else Tag.t
  normalize ((element.iter.filter (·.tag = wanted)).map fun child => child.text.getD "")

def append_revision (element : Element) (deletion : Bool) (s : Collected) : Collected :=
  let text := revision_text element deletion
  if text = "" then s
  else
    let event : TextEvent := ⟨text, false⟩
    let s :=
      if deletion then { s with global_original := s.global_original ++ [event] }
      else { s with global_current := s.global_current ++ [event] }
    let revision : DocxRevision :=
      ⟨if deletion then .deletion else .insertion, text, element.attributes.author, element.attributes.date⟩
    { s with occurrences := s.each_active fun occurrence =>
        if deletion then
          { occurrence with original := occurrence.original ++ [text], revisions := occurrence.revisions ++ [revision] }
        else
          { occurrence with current := occurrence.current ++ [text], revisions := occurrence.revisions ++ [revision] } }

def start_bookmark (attributes : Attributes) (s : Collected) : Collected :=
  match attributes.id, attributes.name with
  | some id, some name =>
    if name.startsWith "_" then s
    else { s with occurrences := s.occurrences ++ [(name, {})], active := s.active.insert id s.occurrences.length }
  | _, _ => s

def end_bookmark (attributes : Attributes) (s : Collected) : Collected :=
  match attributes.id.bind fun id => (s.active.get? id).map fun place => (id, place) with
  | some (id, place) =>
    { s with
      occurrences := s.occurrences.modify place fun entry => (entry.1, { entry.2 with closed := true })
      active := s.active.erase id }
  | none => s

/-- Whether the children of an element are hidden. -/
def child_hidden (element : Element) (hidden : Bool) : Bool :=
  if element.tag = .r then ((element.find .rPr).bind (·.find .vanish)).isSome else hidden

mutual

def walk : Element → Bool → Collected → Collected
  | .node tag attributes text children, hidden, s =>
    match tag with
    | .bookmarkStart => start_bookmark attributes s
    | .bookmarkEnd => end_bookmark attributes s
    | .ins => append_revision (.node tag attributes text children) false s
    | .del => append_revision (.node tag attributes text children) true s
    | .t => append_regular (text.getD "") hidden s
    | _ =>
      let s := walk_all children (child_hidden (.node tag attributes text children) hidden) s
      if tag = .p then append_regular "\n" false s else s

def walk_all : List Element → Bool → Collected → Collected
  | [], _, s => s
  | child :: children, hidden, s => walk_all children hidden (walk child hidden s)

end

def collect (root : Element) : Collected := walk root false {}

/-! ### Anchors -/

inductive AnchorRecoveryStatus where
  | exact
  | sentinel
  | ambiguous
  | missing
  deriving DecidableEq, Repr

structure RecoveredAnchor where
  anchor_id : String
  status : AnchorRecoveryStatus
  original_text : String := ""
  current_text : String := ""
  revisions : List DocxRevision := []
  deriving DecidableEq, Repr

/-- The texts between the start and the end sentinels of an anchor, and whether the sentinels are unbalanced. -/
def sentinel_loop (start stop : String) : List TextEvent → List String → Option (List String) → Bool → List String × Bool
  | [], found, current, unbalanced => (found, unbalanced || current.isSome)
  | event :: events, found, current, unbalanced =>
    if event.hidden ∧ event.text = start then sentinel_loop start stop events found (some []) (unbalanced || current.isSome)
    else if event.hidden ∧ event.text = stop then
      match current with
      | none => sentinel_loop start stop events found none true
      | some texts => sentinel_loop start stop events (found ++ [normalize texts]) none unbalanced
    else sentinel_loop start stop events found (current.map (· ++ [event.text])) unbalanced

def sentinel_matches (events : List TextEvent) (anchor_id : String) : List String × Bool :=
  sentinel_loop (start_sentinel anchor_id) (end_sentinel anchor_id) events [] none false

/-- The anchor as it was recovered, with what blocks its routing. -/
def recover_anchor (anchor_id : String) (s : Collected) : RecoveredAnchor × Option String :=
  match (s.occurrences.filter (·.1 = anchor_id)).map (·.2) with
  | [occurrence] =>
    if occurrence.closed then
      ({ anchor_id, status := .exact, original_text := normalize occurrence.original,
         current_text := normalize occurrence.current, revisions := occurrence.revisions }, none)
    else ({ anchor_id, status := .ambiguous }, some s!"anchor '{anchor_id}' has an incomplete bookmark boundary")
  | _ :: _ :: _ => ({ anchor_id, status := .ambiguous }, some s!"anchor '{anchor_id}' occurs more than once")
  | [] =>
    let (current, current_unbalanced) := sentinel_matches s.global_current anchor_id
    let (original, original_unbalanced) := sentinel_matches s.global_original anchor_id
    match current, original, current_unbalanced || original_unbalanced with
    | [current_text], [original_text], false =>
      ({ anchor_id, status := .sentinel, original_text, current_text }, none)
    | [], [], false => ({ anchor_id, status := .missing }, some s!"anchor '{anchor_id}' is missing")
    | _, _, _ => ({ anchor_id, status := .ambiguous }, some s!"anchor '{anchor_id}' occurs more than once")

/-! ### Accepting and rejecting every change

What the text of a body is after accepting, or rejecting, each of its tracked changes. An insertion and the target of a
move are only in the text that accepts, a deletion and the source of a move only in the one that rejects, a paragraph ends
in a line break unless its mark is left out, and the hidden sentinels are no text. -/

inductive View where
  | accepted
  | rejected
  deriving DecidableEq, Repr

/-- A character of a body, with the kind of element it is in and the views it belongs to. -/
structure Letter where
  char : Char
  tag : Tag
  accepted : Bool
  rejected : Bool
  deriving DecidableEq, Repr

def Letter.shown (view : View) (letter : Letter) : Bool :=
  match view with
  | .accepted => letter.accepted
  | .rejected => letter.rejected

def letters_of (text : String) (tag : Tag) (accepted rejected : Bool) : List Letter :=
  text.toList.map fun c => ⟨c, tag, accepted, rejected⟩

/-- Whether the mark of a paragraph has one of some tracked changes. -/
def marked (element : Element) (changes : List Tag) : Bool :=
  match (element.find .pPr).bind (·.find .rPr) with
  | some properties => properties.children.any fun child => child.tag ∈ changes
  | none => false

/-- The end of a paragraph. -/
def mark_of (element : Element) (accepted rejected : Bool) : Letter :=
  ⟨'\n', .p, accepted && !marked element [.del, .moveFrom], rejected && !marked element [.ins, .moveTo]⟩

mutual

def letters (accepted rejected hidden : Bool) : Element → List Letter
  | .node tag attributes text children =>
    let element := Element.node tag attributes text children
    match tag with
    | .bookmarkStart | .bookmarkEnd => []
    | .t =>
      let visible := !(hidden && is_sentinel (text.getD ""))
      letters_of (text.getD "") .t (accepted && visible) (rejected && visible)
    | .delText => letters_of (text.getD "") .delText accepted rejected
    | .ins | .moveTo => letters_all accepted false hidden children
    | .del | .moveFrom => letters_all false rejected hidden children
    | _ =>
      letters_all accepted rejected (child_hidden element hidden) children ++
        if tag = .p then [mark_of element accepted rejected] else []

def letters_all (accepted rejected hidden : Bool) : List Element → List Letter
  | [] => []
  | child :: children => letters accepted rejected hidden child ++ letters_all accepted rejected hidden children

end

/-- The text of some letters in a view, white space normalized. -/
def text_in (view : View) (ls : List Letter) : String :=
  String.ofList (Spacing.normalize isSpace ' ' (Spacing.shown Letter.char (Letter.shown view) ls))

mutual

/-- A body as the schema has it: bookmarks and texts have nothing below them, and deleted text, and only it, is in
    `delText` elements. -/
def well_formed (deleted : Bool) : Element → Bool
  | .node tag _ _ children =>
    match tag with
    | .bookmarkStart | .bookmarkEnd => children.isEmpty
    | .t => children.isEmpty && !deleted
    | .delText => children.isEmpty && deleted
    | .del => well_formed_all true children
    | _ => well_formed_all deleted children

def well_formed_all (deleted : Bool) : List Element → Bool
  | [] => true
  | child :: children => well_formed deleted child && well_formed_all deleted children

end

/-! ### The body in document order -/

/-- What a body consists of outside of its tracked insertions and deletions, which stay whole. -/
inductive Token where
  | start (attributes : Attributes)
  | stop (attributes : Attributes)
  | text (content : String) (hidden accepted rejected : Bool)
  | mark (letter : Letter)
  | revision (element : Element) (deletion accepted rejected hidden : Bool)

mutual

def tokens (accepted rejected hidden : Bool) : Element → List Token
  | .node tag attributes text children =>
    let element := Element.node tag attributes text children
    match tag with
    | .bookmarkStart => [.start attributes]
    | .bookmarkEnd => [.stop attributes]
    | .ins => [.revision element false accepted rejected hidden]
    | .del => [.revision element true accepted rejected hidden]
    | .t => [.text (text.getD "") hidden accepted rejected]
    | .moveTo => tokens_all accepted false hidden children
    | .moveFrom => tokens_all false rejected hidden children
    | _ =>
      tokens_all accepted rejected (child_hidden element hidden) children ++
        if tag = .p then [.mark (mark_of element accepted rejected)] else []

def tokens_all (accepted rejected hidden : Bool) : List Element → List Token
  | [] => []
  | child :: children => tokens accepted rejected hidden child ++ tokens_all accepted rejected hidden children

end

def Token.letters : Token → List Letter
  | .start _ | .stop _ => []
  | .text content hidden accepted rejected =>
    let visible := !(hidden && is_sentinel content)
    letters_of content .t (accepted && visible) (rejected && visible)
  | .mark letter => [letter]
  | .revision element _ accepted rejected hidden => DocxEdits.letters accepted rejected hidden element

/-- The bookmark of an anchor bounds a region: it is the only one of its name, and no other start or end with its id stands
    in the region. Bookmarks inside of a tracked insertion or deletion are not looked at. -/
structure Bounded (body : List Token) (anchor_id : String) (region : List Token) : Prop where
  name : (anchor_id.startsWith "_") = false
  bounds : ∃ before after start stop id, body = before ++ .start start :: (region ++ .stop stop :: after) ∧
    start.id = some id ∧ start.name = some anchor_id ∧ stop.id = some id ∧
    (∀ other, .start other ∈ before ++ region ++ after → other.name = some anchor_id → other.id = none) ∧
    ∀ other, .start other ∈ region ∨ .stop other ∈ region → other.id ≠ some id

/-- A letter of a region, and whether the walk keeps it for a view. -/
structure Seen where
  letter : Letter
  kept : Bool

/-- The letters of a tracked change: the walk keeps the wanted ones from the first that is no white space to the last. -/
def edged (wanted : Letter → Bool) (ls : List Letter) : List Seen :=
  let blank := fun letter : Letter => !(wanted letter && !isSpace letter.char)
  let rest := ls.dropWhile blank
  (ls.takeWhile blank).map (⟨·, false⟩) ++ (rest.rdropWhile blank).map (fun letter => ⟨letter, wanted letter⟩) ++
    (rest.rtakeWhile blank).map (⟨·, false⟩)

def Token.seen (view : View) : Token → List Seen
  | .start _ | .stop _ => []
  | .text content hidden accepted rejected =>
    (Token.text content hidden accepted rejected).letters.map (⟨·, !(hidden && is_sentinel content)⟩)
  | .mark letter => [⟨letter, true⟩]
  | .revision element deletion accepted rejected hidden =>
    let ls := DocxEdits.letters accepted rejected hidden element
    if deletion = decide (view = .rejected) then edged (·.tag = if deletion then .delText else .t) ls
    else ls.map (⟨·, false⟩)

/-- The walk does justice to a view of a region: every character it keeps that is no white space belongs to the view, and
    between two neighbouring characters of the view it keeps white space where the view has some, and only there. -/
structure Faithful (view : View) (region : List Token) : Prop where
  kept : ∀ seen ∈ region.flatMap (Token.seen view), isSpace seen.letter.char = false → seen.kept = true →
    seen.letter.shown view = true
  gaps : Spacing.SameGaps (fun seen : Seen => seen.letter.char) isSpace (fun seen => seen.letter.shown view) Seen.kept
    (region.flatMap (Token.seen view))

end MootLoop.DocxEdits
