import MootLoop.DocxEdits

/-! What the walk recovers of a bookmarked region, against the text of the region after accepting or rejecting its tracked
    changes. -/

namespace MootLoop.DocxEdits
open Spacing

/-! ### The walk over the body in order -/

/-- What the walk does at a token. -/
def Token.apply (s : Collected) : Token → Collected
  | .start attributes => start_bookmark attributes s
  | .stop attributes => end_bookmark attributes s
  | .text content hidden _ _ => append_regular content hidden s
  | .mark _ => append_regular "\n" false s
  | .revision element deletion _ _ _ => append_revision element deletion s

mutual

theorem walk_eq : ∀ (element : Element) (accepted rejected hidden : Bool) (s : Collected),
    walk element hidden s = (tokens accepted rejected hidden element).foldl Token.apply s
  | .node tag attributes text children, accepted, rejected, hidden, s => by
    have below := fun accepted rejected hidden => walk_all_eq children accepted rejected hidden s
    cases tag with
    | p =>
      simp only [walk, tokens, if_true, List.foldl_append, ← below, List.foldl_cons, List.foldl_nil, Token.apply]
    | bookmarkStart | bookmarkEnd | ins | del | t =>
      simp only [walk, tokens, List.foldl_cons, List.foldl_nil, Token.apply]
    | moveFrom =>
      simp only [walk, tokens, reduceCtorEq, if_false]
      exact below false rejected hidden
    | moveTo =>
      simp only [walk, tokens, reduceCtorEq, if_false]
      exact below accepted false hidden
    | delText | r | rPr | pPr | vanish | other =>
      simp only [walk, tokens, reduceCtorEq, if_false, List.append_nil]
      exact below accepted rejected _

theorem walk_all_eq : ∀ (children : List Element) (accepted rejected hidden : Bool) (s : Collected),
    walk_all children hidden s = (tokens_all accepted rejected hidden children).foldl Token.apply s
  | [], accepted, rejected, hidden, s => rfl
  | child :: children, accepted, rejected, hidden, s => by
    rw [walk_all, tokens_all, List.foldl_append, ← walk_eq child, ← walk_all_eq children]

end

/-! ### What a token adds to an active bookmark -/

def Token.parts (view : View) : Token → List String
  | .start _ | .stop _ => []
  | .text content hidden _ _ => if hidden && is_sentinel content then [] else [content]
  | .mark _ => ["\n"]
  | .revision element deletion _ _ _ =>
    if deletion = decide (view = .rejected) ∧ revision_text element deletion ≠ "" then [revision_text element deletion] else []

def Token.revisions : Token → List DocxRevision
  | .revision element deletion _ _ _ =>
    if revision_text element deletion = "" then []
    else [⟨if deletion then .deletion else .insertion, revision_text element deletion, element.attributes.author,
      element.attributes.date⟩]
  | _ => []

def Occurrence.add (occurrence : Occurrence) (token : Token) : Occurrence :=
  { occurrence with
    current := occurrence.current ++ token.parts .accepted
    original := occurrence.original ++ token.parts .rejected
    revisions := occurrence.revisions ++ token.revisions }

/-- The name under which a token starts an occurrence. -/
def Token.started : Token → Option String
  | .start attributes =>
    match attributes.id, attributes.name with
    | some _, some name => if name.startsWith "_" then none else some name
    | _, _ => none
  | _ => none

theorem getElem?_each_active (s : Collected) (change : Occurrence → Occurrence) (i : Nat) :
    (s.each_active change)[i]? =
      s.occurrences[i]?.map fun entry => if i ∈ s.active.values then (entry.1, change entry.2) else entry :=
  List.getElem?_mapIdx

theorem each_active_self {s : Collected} {change : Occurrence → Occurrence} (same : ∀ occurrence, change occurrence = occurrence) :
    s.each_active change = s.occurrences := by
  refine List.ext_getElem? fun i => ?_
  rw [getElem?_each_active]
  simp [same]

/-- A token that neither starts nor ends a bookmark adds to the active occurrences and to nothing else. -/
theorem apply_content {s : Collected} {token : Token} (content : ∀ attributes, token ≠ .start attributes)
    (content' : ∀ attributes, token ≠ .stop attributes) :
    (token.apply s).active = s.active ∧ (token.apply s).occurrences = s.each_active fun occurrence => occurrence.add token := by
  cases token with
  | start attributes => exact absurd rfl (content attributes)
  | stop attributes => exact absurd rfl (content' attributes)
  | mark letter =>
    refine ⟨rfl, ?_⟩
    simp [Token.apply, append_regular, Occurrence.add, Token.parts, Token.revisions, Collected.each_active]
  | text chars hidden accepted rejected =>
    by_cases sentinel : (hidden && is_sentinel chars) = true
    · simp only [Token.apply, append_regular, sentinel, if_true]
      refine ⟨trivial, (each_active_self fun occurrence => ?_).symm⟩
      simp [Occurrence.add, Token.parts, Token.revisions, sentinel]
    · simp only [Token.apply, append_regular, sentinel]
      refine ⟨rfl, ?_⟩
      simp [Occurrence.add, Token.parts, Token.revisions, sentinel, Collected.each_active]
  | revision element deletion accepted rejected hidden =>
    by_cases empty : revision_text element deletion = ""
    · simp only [Token.apply, append_revision, empty, if_true]
      refine ⟨trivial, (each_active_self fun occurrence => ?_).symm⟩
      simp [Occurrence.add, Token.parts, Token.revisions, empty]
    · simp only [Token.apply, append_revision, empty, if_false]
      cases deletion <;> exact ⟨rfl, by
        simp [Occurrence.add, Token.parts, Token.revisions, empty, Collected.each_active]⟩

theorem start_cases (attributes : Attributes) (s : Collected) :
    (start_bookmark attributes s = s ∧ (Token.start attributes).started = none) ∨
      ∃ id name, attributes.id = some id ∧ attributes.name = some name ∧ (Token.start attributes).started = some name ∧
        start_bookmark attributes s = { s with
          occurrences := s.occurrences ++ [(name, {})], active := s.active.insert id s.occurrences.length } := by
  obtain ⟨id, name, author, date⟩ := attributes
  cases id with
  | none => exact .inl ⟨rfl, rfl⟩
  | some id =>
    cases name with
    | none => exact .inl ⟨rfl, rfl⟩
    | some name =>
      by_cases hidden_name : name.startsWith "_" = true
      · refine .inl ⟨?_, ?_⟩ <;> simp only [start_bookmark, Token.started, if_pos hidden_name]
      · refine .inr ⟨id, name, rfl, rfl, ?_, ?_⟩ <;> simp only [start_bookmark, Token.started, if_neg hidden_name]

theorem stop_cases (attributes : Attributes) (s : Collected) :
    end_bookmark attributes s = s ∨
      ∃ id place, attributes.id = some id ∧ s.active.get? id = some place ∧
        end_bookmark attributes s = { s with
          occurrences := s.occurrences.modify place fun entry => (entry.1, { entry.2 with closed := true })
          active := s.active.erase id } := by
  obtain ⟨id, name, author, date⟩ := attributes
  cases id with
  | none => exact .inl rfl
  | some id =>
    cases found : s.active.get? id with
    | none =>
      left
      simp only [end_bookmark, Option.bind_some, found, Option.map_none]
    | some place =>
      refine .inr ⟨id, place, rfl, found, ?_⟩
      simp only [end_bookmark, Option.bind_some, found, Option.map_some]

theorem map_fst_each_active (s : Collected) (change : Occurrence → Occurrence) :
    (s.each_active change).map Prod.fst = s.occurrences.map Prod.fst := by
  refine List.ext_getElem? fun i => ?_
  rw [List.getElem?_map, getElem?_each_active, List.getElem?_map, Option.map_map]
  refine congrFun (congrArg Option.map (funext fun entry => ?_)) _
  rw [Function.comp_apply]
  split <;> rfl

theorem started_eq_none {token : Token} (content : ∀ attributes, token ≠ .start attributes) : token.started = none := by
  cases token with
  | start attributes => exact absurd rfl (content attributes)
  | stop | text | mark | revision => rfl

theorem apply_names (s : Collected) (token : Token) :
    (token.apply s).occurrences.map Prod.fst = s.occurrences.map Prod.fst ++ token.started.toList := by
  have adds (content : ∀ attributes, token ≠ .start attributes) (content' : ∀ attributes, token ≠ .stop attributes) :
      (token.apply s).occurrences.map Prod.fst = s.occurrences.map Prod.fst ++ token.started.toList := by
    rw [(apply_content content content').2, map_fst_each_active, started_eq_none content, Option.toList_none,
      List.append_nil]
  cases token with
  | start attributes =>
    rcases start_cases attributes s with ⟨same, unnamed⟩ | ⟨id, name, -, -, named, started⟩
    · rw [unnamed, Token.apply, same, Option.toList_none, List.append_nil]
    · rw [named, Token.apply, started, List.map_append]
      rfl
  | stop attributes =>
    rw [started_eq_none (by simp), Option.toList_none, List.append_nil]
    rcases stop_cases attributes s with same | ⟨id, place, -, -, stopped⟩
    · rw [Token.apply, same]
    · rw [Token.apply, stopped]
      refine List.ext_getElem? fun i => ?_
      simp only [List.getElem?_map, List.getElem?_modify, Option.map_eq_map, Option.map_map]
      refine congrFun (congrArg Option.map (funext fun entry => ?_)) _
      rw [Function.comp_apply]
      split <;> rfl
  | text | mark | revision => exact adds (by simp) (by simp)

theorem names_of_fold (body : List Token) (s : Collected) :
    (body.foldl Token.apply s).occurrences.map Prod.fst = s.occurrences.map Prod.fst ++ body.filterMap Token.started := by
  induction body generalizing s with
  | nil => rw [List.foldl_nil, List.filterMap_nil, List.append_nil]
  | cons token body ih =>
    rw [List.foldl_cons, ih, apply_names, List.append_assoc, List.filterMap_cons]
    cases token.started <;> rfl

/-! ### The occurrence of one bookmark -/

/-- The active bookmarks have occurrences. -/
def Placed (s : Collected) : Prop := ∀ id place, s.active.get? id = some place → place < s.occurrences.length

/-- While its bookmark is active, an occurrence is at its place and no other bookmark has that place. -/
structure Watched (s : Collected) (id : String) (place : Nat) (name : String) (occurrence : Occurrence) : Prop where
  active : s.active.get? id = some place
  only : ∀ other, s.active.get? other = some place → other = id
  held : s.occurrences[place]? = some (name, occurrence)

/-- An occurrence that no active bookmark has. -/
structure Settled (s : Collected) (place : Nat) (name : String) (occurrence : Occurrence) : Prop where
  inactive : ∀ id, s.active.get? id ≠ some place
  held : s.occurrences[place]? = some (name, occurrence)

theorem mem_active {s : Collected} {place : Nat} : place ∈ s.active.values ↔ ∃ id, s.active.get? id = some place :=
  Dict.mem_values

theorem get?_started {s : Collected} {id other : String} {place : Nat}
    (found : (s.active.insert id s.occurrences.length).get? other = some place) :
    (other = id ∧ place = s.occurrences.length) ∨ s.active.get? other = some place := by
  rw [Dict.get?_insert] at found
  split at found
  · exact .inl ⟨‹_›, (Option.some.inj found).symm⟩
  · exact .inr found

theorem get?_stopped {s : Collected} {id other : String} {place : Nat} (found : (s.active.erase id).get? other = some place) :
    other ≠ id ∧ s.active.get? other = some place := by
  rw [Dict.get?_erase] at found
  split at found
  · cases found
  · exact ⟨‹_›, found⟩

theorem Placed.step {s : Collected} (placed : Placed s) (token : Token) : Placed (token.apply s) := by
  have adds (content : ∀ attributes, token ≠ .start attributes) (content' : ∀ attributes, token ≠ .stop attributes) :
      Placed (token.apply s) := by
    intro id place found
    obtain ⟨active, occurrences⟩ := @apply_content s token content content'
    rw [active] at found
    rw [occurrences, Collected.each_active, List.length_mapIdx]
    exact placed id place found
  cases token with
  | start attributes =>
    rcases start_cases attributes s with ⟨same, -⟩ | ⟨id, name, -, -, -, started⟩
    · rw [Token.apply, same]
      exact placed
    · rw [Token.apply, started]
      intro other place found
      rw [List.length_append]
      rcases get?_started found with ⟨-, rfl⟩ | earlier
      · exact Nat.lt_succ_self _
      · exact Nat.lt_succ_of_lt (placed other place earlier)
  | stop attributes =>
    rcases stop_cases attributes s with same | ⟨id, at_place, -, -, stopped⟩
    · rw [Token.apply, same]
      exact placed
    · rw [Token.apply, stopped]
      intro other place found
      rw [List.length_modify]
      exact placed other place (get?_stopped found).2
  | text | mark | revision => exact adds (by simp) (by simp)

theorem Placed.run {s : Collected} (placed : Placed s) (body : List Token) : Placed (body.foldl Token.apply s) := by
  induction body generalizing s with
  | nil => exact placed
  | cons token body ih => exact ih (placed.step token)

theorem placed_initial : Placed {} := fun id place found => by cases found

theorem add_start (occurrence : Occurrence) (attributes : Attributes) : occurrence.add (.start attributes) = occurrence := by
  simp [Occurrence.add, Token.parts, Token.revisions]

theorem add_stop (occurrence : Occurrence) (attributes : Attributes) : occurrence.add (.stop attributes) = occurrence := by
  simp [Occurrence.add, Token.parts, Token.revisions]

/-- A token other than a start or an end of its bookmark adds to a watched occurrence. -/
theorem Watched.step {s : Collected} {id name : String} {place : Nat} {occurrence : Occurrence}
    (watched : Watched s id place name occurrence) {token : Token}
    (apart : ∀ other, token = .start other ∨ token = .stop other → other.id ≠ some id) :
    Watched (token.apply s) id place name (occurrence.add token) := by
  have adds (content : ∀ attributes, token ≠ .start attributes) (content' : ∀ attributes, token ≠ .stop attributes) :
      Watched (token.apply s) id place name (occurrence.add token) := by
    obtain ⟨active, occurrences⟩ := @apply_content s token content content'
    refine ⟨active ▸ watched.active, active ▸ watched.only, ?_⟩
    rw [occurrences, getElem?_each_active, watched.held, Option.map_some, if_pos (mem_active.mpr ⟨id, watched.active⟩)]
  cases token with
  | start attributes =>
    rw [add_start]
    rcases start_cases attributes s with ⟨same, -⟩ | ⟨started_id, started_name, with_id, -, -, started⟩
    · rw [Token.apply, same]
      exact watched
    · have other : started_id ≠ id := fun same => apart attributes (.inl rfl) (same ▸ with_id)
      obtain ⟨within, -⟩ := List.getElem?_eq_some_iff.mp watched.held
      rw [Token.apply, started]
      refine ⟨?_, fun key found => ?_, ?_⟩
      · exact (Dict.get?_insert_ne _ other.symm _).trans watched.active
      · rcases get?_started found with ⟨-, rfl⟩ | earlier
        · exact absurd within (Nat.lt_irrefl _)
        · exact watched.only key earlier
      · exact (List.getElem?_append_left within).trans watched.held
  | stop attributes =>
    rw [add_stop]
    rcases stop_cases attributes s with same | ⟨stopped_id, stopped_place, with_id, found, stopped⟩
    · rw [Token.apply, same]
      exact watched
    · have other : stopped_id ≠ id := fun same => apart attributes (.inr rfl) (same ▸ with_id)
      have elsewhere : stopped_place ≠ place := fun same => other (watched.only stopped_id (same ▸ found))
      rw [Token.apply, stopped]
      refine ⟨?_, fun key found => watched.only key (get?_stopped found).2, ?_⟩
      · rw [Dict.get?_erase, if_neg other.symm]
        exact watched.active
      · exact (List.getElem?_modify_ne _ _ elsewhere).trans watched.held
  | text | mark | revision => exact adds (by simp) (by simp)

theorem Watched.run {s : Collected} {id name : String} {place : Nat} {occurrence : Occurrence}
    (watched : Watched s id place name occurrence) {region : List Token}
    (apart : ∀ other, .start other ∈ region ∨ .stop other ∈ region → other.id ≠ some id) :
    Watched (region.foldl Token.apply s) id place name (region.foldl Occurrence.add occurrence) := by
  induction region generalizing s occurrence with
  | nil => exact watched
  | cons token region ih =>
    refine ih (watched.step fun other here => apart other ?_) fun other later => apart other ?_
    · rcases here with rfl | rfl
      · exact .inl List.mem_cons_self
      · exact .inr List.mem_cons_self
    · exact later.imp (List.mem_cons_of_mem token) (List.mem_cons_of_mem token)

/-- Nothing changes an occurrence that no active bookmark has. -/
theorem Settled.step {s : Collected} {name : String} {place : Nat} {occurrence : Occurrence}
    (settled : Settled s place name occurrence) (token : Token) : Settled (token.apply s) place name occurrence := by
  obtain ⟨within, -⟩ := List.getElem?_eq_some_iff.mp settled.held
  have adds (content : ∀ attributes, token ≠ .start attributes) (content' : ∀ attributes, token ≠ .stop attributes) :
      Settled (token.apply s) place name occurrence := by
    obtain ⟨active, occurrences⟩ := @apply_content s token content content'
    refine ⟨active ▸ settled.inactive, ?_⟩
    rw [occurrences, getElem?_each_active, settled.held, Option.map_some, if_neg]
    intro here
    obtain ⟨id, found⟩ := mem_active.mp here
    exact settled.inactive id found
  cases token with
  | start attributes =>
    rcases start_cases attributes s with ⟨same, -⟩ | ⟨started_id, started_name, -, -, -, started⟩
    · rw [Token.apply, same]
      exact settled
    · rw [Token.apply, started]
      refine ⟨fun key found => ?_, (List.getElem?_append_left within).trans settled.held⟩
      rcases get?_started found with ⟨-, rfl⟩ | earlier
      · exact absurd within (Nat.lt_irrefl _)
      · exact settled.inactive key earlier
  | stop attributes =>
    rcases stop_cases attributes s with same | ⟨stopped_id, stopped_place, -, found, stopped⟩
    · rw [Token.apply, same]
      exact settled
    · have elsewhere : stopped_place ≠ place := fun same => settled.inactive stopped_id (same ▸ found)
      rw [Token.apply, stopped]
      refine ⟨fun key found => settled.inactive key (get?_stopped found).2, ?_⟩
      exact (List.getElem?_modify_ne _ _ elsewhere).trans settled.held
  | text | mark | revision => exact adds (by simp) (by simp)

theorem Settled.run {s : Collected} {name : String} {place : Nat} {occurrence : Occurrence}
    (settled : Settled s place name occurrence) (body : List Token) :
    Settled (body.foldl Token.apply s) place name occurrence := by
  induction body generalizing s with
  | nil => exact settled
  | cons token body ih => exact ih (settled.step token)

theorem foldl_add (region : List Token) (occurrence : Occurrence) :
    region.foldl Occurrence.add occurrence = { occurrence with
      current := occurrence.current ++ region.flatMap (Token.parts .accepted)
      original := occurrence.original ++ region.flatMap (Token.parts .rejected)
      revisions := occurrence.revisions ++ region.flatMap Token.revisions } := by
  induction region generalizing occurrence with
  | nil => simp
  | cons token region ih => simp [ih, Occurrence.add]

theorem not_started {part : List Token} {anchor_id : String}
    (alone : ∀ other, .start other ∈ part → other.name = some anchor_id → other.id = none) :
    (part.filterMap Token.started).filter (· = anchor_id) = [] := by
  refine List.filter_eq_nil_iff.mpr fun name mem same => ?_
  rw [decide_eq_true_eq] at same
  obtain ⟨token, listed, started⟩ := List.mem_filterMap.mp mem
  cases token with
  | start attributes =>
    rcases start_cases attributes {} with ⟨-, unnamed⟩ | ⟨id, name', with_id, with_name, named, -⟩
    · rw [unnamed] at started
      cases started
    · rw [named] at started
      have unset := alone attributes listed (by rw [with_name, Option.some.inj started, same])
      rw [with_id] at unset
      cases unset
  | stop | text | mark | revision => cases started

/-- The only entry of a list that satisfies a predicate is what filtering leaves. -/
theorem filter_eq_singleton {α : Type} {p : α → Bool} {l : List α} {i : Nat} {a : α} (held : l[i]? = some a)
    (holds : p a = true) (single : (l.filter p).length = 1) : l.filter p = [a] := by
  obtain ⟨b, only⟩ := List.length_eq_one_iff.mp single
  have mem : a ∈ l.filter p := List.mem_filter.mpr ⟨List.mem_of_getElem? held, holds⟩
  rw [only, List.mem_singleton] at mem
  rw [only, mem]

/-- A bounded anchor is recovered exactly, with what the tokens of its region add. -/
theorem recovered_region {body region : List Token} {anchor_id : String} (bounded : Bounded body anchor_id region) :
    recover_anchor anchor_id (body.foldl Token.apply {}) =
      ({ anchor_id, status := .exact
         original_text := normalize (region.flatMap (Token.parts .rejected))
         current_text := normalize (region.flatMap (Token.parts .accepted))
         revisions := region.flatMap Token.revisions }, none) := by
  obtain ⟨visible, before, after, start, stop, id, rfl, start_id, start_name, stop_id, alone, apart⟩ := bounded
  have named : (Token.start start).started = some anchor_id := by
    simp only [Token.started, start_id, start_name, visible, if_neg Bool.false_ne_true]
  have single : (((before ++ .start start :: (region ++ .stop stop :: after)).filterMap Token.started).filter
      (· = anchor_id)).length = 1 := by
    rw [List.filterMap_append, List.filterMap_cons_some named, List.filterMap_append,
      List.filterMap_cons_none (started_eq_none (by simp)), List.filter_append, List.filter_cons_of_pos (by simp),
      List.filter_append, not_started fun other mem => alone other (by simp [mem]),
      not_started fun other mem => alone other (by simp [mem]), not_started fun other mem => alone other (by simp [mem])]
    rfl
  -- up to the end of the region
  obtain ⟨s, here⟩ : ∃ s, s = before.foldl Token.apply {} := ⟨_, rfl⟩
  have placed : Placed s := here ▸ placed_initial.run before
  have started : start_bookmark start s = { s with
      occurrences := s.occurrences ++ [(anchor_id, {})], active := s.active.insert id s.occurrences.length } := by
    simp only [start_bookmark, start_id, start_name, visible, if_neg Bool.false_ne_true]
  have watched : Watched (start_bookmark start s) id s.occurrences.length anchor_id {} := by
    rw [started]
    refine ⟨Dict.get?_insert_self _ _ _, fun other found => ?_, List.getElem?_concat_length⟩
    rcases get?_started found with ⟨same, -⟩ | earlier
    · exact same
    · exact absurd (placed other _ earlier) (Nat.lt_irrefl _)
  have walked := watched.run apart
  obtain ⟨r, reached⟩ : ∃ r, r = region.foldl Token.apply (start_bookmark start s) := ⟨_, rfl⟩
  rw [← reached, foldl_add] at walked
  -- its end, and what follows
  have stopped : end_bookmark stop r = { r with
      occurrences := r.occurrences.modify s.occurrences.length fun entry => (entry.1, { entry.2 with closed := true })
      active := r.active.erase id } := by
    simp only [end_bookmark, stop_id, Option.bind_some, walked.active, Option.map_some]
  have settled : Settled (end_bookmark stop r) s.occurrences.length anchor_id
      ⟨region.flatMap (Token.parts .accepted), region.flatMap (Token.parts .rejected), region.flatMap Token.revisions, true⟩ := by
    rw [stopped]
    refine ⟨fun other found => (get?_stopped found).1 (walked.only other (get?_stopped found).2), ?_⟩
    rw [List.getElem?_modify_eq, walked.held]
    rfl
  have body : (before ++ .start start :: (region ++ .stop stop :: after)).foldl Token.apply {} =
      after.foldl Token.apply (end_bookmark stop r) := by
    rw [List.foldl_append, List.foldl_cons, List.foldl_append, List.foldl_cons, ← here, reached]
    rfl
  have kept := settled.run after
  have names := names_of_fold (before ++ .start start :: (region ++ .stop stop :: after)) {}
  rw [body] at names ⊢
  have found : ((after.foldl Token.apply (end_bookmark stop r)).occurrences.filter (·.1 = anchor_id)).length = 1 := by
    rw [← single, ← List.nil_append (List.filterMap _ _)]
    rw [← List.map_nil, ← names, List.filter_map, List.length_map]
    rfl
  rw [recover_anchor, filter_eq_singleton kept.held (by simp) found]
  rfl

/-! ### Letters -/

theorem filter_letters_of (content : String) (tag wanted : Tag) (accepted rejected : Bool) :
    ((letters_of content tag accepted rejected).filter (·.tag = wanted)).map Letter.char =
      if tag = wanted then content.toList else [] := by
  split
  · rename_i same
    have all : (letters_of content tag accepted rejected).filter (·.tag = wanted) = letters_of content tag accepted rejected :=
      List.filter_eq_self.mpr fun letter mem => by
        obtain ⟨c, -, rfl⟩ := List.mem_map.mp mem
        exact decide_eq_true same
    rw [all, letters_of, List.map_map]
    exact List.map_id _
  · rename_i apart
    have none_wanted : (letters_of content tag accepted rejected).filter (·.tag = wanted) = [] :=
      List.filter_eq_nil_iff.mpr fun letter mem => by
        obtain ⟨c, -, rfl⟩ := List.mem_map.mp mem
        simpa using apart
    rw [none_wanted, List.map_nil]

theorem filter_iter_node {tag wanted : Tag} (attributes : Attributes) (text : Option String) (children : List Element)
    (apart : tag ≠ wanted) :
    (Element.node tag attributes text children).iter.filter (·.tag = wanted) =
      (iter_all children).filter (·.tag = wanted) := by
  have skipped : ¬decide ((Element.node tag attributes text children).tag = wanted) = true := by
    rw [decide_eq_true_eq]
    exact apart
  rw [Element.iter]
  exact List.filter_cons_of_neg skipped

mutual

/-- The texts of an element that a revision counts are its letters in elements of that name. -/
theorem iter_letters {wanted : Tag} (counted : wanted = .t ∨ wanted = .delText) :
    ∀ (element : Element) {deleted : Bool} (accepted rejected hidden : Bool), well_formed deleted element = true →
      ((element.iter.filter (·.tag = wanted)).flatMap fun child => (child.text.getD "").toList) =
        ((letters accepted rejected hidden element).filter (·.tag = wanted)).map Letter.char
  | .node tag attributes text children, deleted, accepted, rejected, hidden, schema => by
    have below := fun accepted rejected hidden =>
      @iter_all_letters wanted counted children deleted accepted rejected hidden
    have apart {other : Tag} (ne : other ≠ .t ∧ other ≠ .delText) : other ≠ wanted := by
      rcases counted with rfl | rfl
      · exact ne.1
      · exact ne.2
    cases tag with
    | bookmarkStart | bookmarkEnd =>
      rw [well_formed, List.isEmpty_iff] at schema
      subst schema
      rw [filter_iter_node _ _ _ (apart (by simp)), letters]
      rfl
    | t | delText =>
      rw [well_formed, Bool.and_eq_true, List.isEmpty_iff] at schema
      obtain ⟨rfl, -⟩ := schema
      rw [letters, filter_letters_of, Element.iter, iter_all, List.filter_singleton]
      split
      · rename_i same
        rw [Element.tag, decide_eq_true same]
        exact List.append_nil _
      · rename_i other
        rw [Element.tag, decide_eq_false other]
        rfl
    | ins | moveTo =>
      rw [filter_iter_node _ _ _ (apart (by simp)), letters]
      exact below accepted false hidden schema
    | del =>
      rw [filter_iter_node _ _ _ (apart (by simp)), letters]
      exact @iter_all_letters wanted counted children true false rejected hidden schema
    | moveFrom =>
      rw [filter_iter_node _ _ _ (apart (by simp)), letters]
      exact below false rejected hidden schema
    | p =>
      have mark : (mark_of (.node .p attributes text children) accepted rejected).tag ≠ wanted :=
        apart ⟨Tag.noConfusion, Tag.noConfusion⟩
      rw [filter_iter_node _ _ _ (apart (by simp))]
      simp only [letters, if_true, List.filter_append, List.filter_singleton, decide_eq_false mark, cond_false,
        List.append_nil]
      exact below accepted rejected _ schema
    | r | rPr | pPr | vanish | other =>
      rw [filter_iter_node _ _ _ (apart (by simp))]
      simp only [letters, reduceCtorEq, if_false, List.append_nil]
      exact below accepted rejected _ schema

theorem iter_all_letters {wanted : Tag} (counted : wanted = .t ∨ wanted = .delText) :
    ∀ (children : List Element) {deleted : Bool} (accepted rejected hidden : Bool),
      well_formed_all deleted children = true →
      (((iter_all children).filter (·.tag = wanted)).flatMap fun child => (child.text.getD "").toList) =
        ((letters_all accepted rejected hidden children).filter (·.tag = wanted)).map Letter.char
  | [], _, _, _, _, _ => rfl
  | child :: children, deleted, accepted, rejected, hidden, schema => by
    rw [well_formed_all, Bool.and_eq_true] at schema
    rw [iter_all, letters_all, List.filter_append, List.flatMap_append, List.filter_append, List.map_append,
      iter_letters counted child accepted rejected hidden schema.1,
      iter_all_letters counted children accepted rejected hidden schema.2]

end

/-- What a letter of a part of the body has of the views the part belongs to, and which element its text is in. -/
structure Lettered (deleted accepted rejected : Bool) (letter : Letter) : Prop where
  accepted : letter.accepted = true → accepted = true
  rejected : letter.rejected = true → rejected = true
  inserted : isSpace letter.char = false → letter.accepted = true → letter.tag = .t
  deleted : isSpace letter.char = false → deleted = true → letter.tag = .delText

theorem Lettered.of {deleted accepted rejected accepted' rejected' deleted' : Bool} {letter : Letter}
    (lettered : Lettered deleted accepted rejected letter) (a : accepted = true → accepted' = true)
    (r : rejected = true → rejected' = true) (d : deleted' = true → deleted = true) :
    Lettered deleted' accepted' rejected' letter :=
  ⟨a ∘ lettered.accepted, r ∘ lettered.rejected, lettered.inserted, fun solid h => lettered.deleted solid (d h)⟩

mutual

theorem lettered : ∀ (element : Element) {deleted accepted rejected : Bool} (hidden : Bool),
    well_formed deleted element = true → (deleted = true → accepted = false) →
      ∀ letter ∈ letters accepted rejected hidden element, Lettered deleted accepted rejected letter
  | .node tag attributes text children, deleted, accepted, rejected, hidden, schema, out => by
    have below := fun hidden => @lettered_all children deleted accepted rejected hidden
    cases tag with
    | bookmarkStart | bookmarkEnd =>
      rw [letters]
      exact fun letter mem => absurd mem List.not_mem_nil
    | t =>
      rw [well_formed, Bool.and_eq_true, Bool.not_eq_true'] at schema
      rw [letters, letters_of]
      intro letter mem
      obtain ⟨c, -, rfl⟩ := List.mem_map.mp mem
      exact ⟨fun h => (Bool.and_eq_true_iff.mp h).1, fun h => (Bool.and_eq_true_iff.mp h).1, fun _ _ => rfl,
        fun _ h => absurd (schema.2.symm.trans h) Bool.false_ne_true⟩
    | delText =>
      rw [well_formed, Bool.and_eq_true] at schema
      rw [letters, letters_of]
      intro letter mem
      obtain ⟨c, -, rfl⟩ := List.mem_map.mp mem
      exact ⟨id, id, fun _ h => absurd ((out schema.2).symm.trans h) Bool.false_ne_true, fun _ _ => rfl⟩
    | ins | moveTo =>
      rw [letters]
      intro letter mem
      exact (lettered_all children hidden schema out letter mem).of id (fun h => absurd h Bool.false_ne_true) id
    | del =>
      rw [letters]
      intro letter mem
      exact (lettered_all children hidden schema (fun _ => rfl) letter mem).of (fun h => absurd h Bool.false_ne_true) id
        fun _ => rfl
    | moveFrom =>
      rw [letters]
      intro letter mem
      exact (lettered_all children hidden schema (fun _ => rfl) letter mem).of (fun h => absurd h Bool.false_ne_true) id id
    | p =>
      simp only [letters, if_true]
      intro letter mem
      rcases List.mem_append.mp mem with mem | mem
      · exact below _ schema out letter mem
      · obtain rfl := List.mem_singleton.mp mem
        have space : isSpace '\n' = true := by decide
        exact ⟨fun h => (Bool.and_eq_true_iff.mp h).1, fun h => (Bool.and_eq_true_iff.mp h).1,
          fun solid => absurd (space.symm.trans solid) (by decide), fun solid => absurd (space.symm.trans solid) (by decide)⟩
    | r | rPr | pPr | vanish | other =>
      simp only [letters, reduceCtorEq, if_false, List.append_nil]
      exact below _ schema out

theorem lettered_all : ∀ (children : List Element) {deleted accepted rejected : Bool} (hidden : Bool),
    well_formed_all deleted children = true → (deleted = true → accepted = false) →
      ∀ letter ∈ letters_all accepted rejected hidden children, Lettered deleted accepted rejected letter
  | [], _, _, _, _, _, _ => fun letter mem => absurd mem List.not_mem_nil
  | child :: children, deleted, accepted, rejected, hidden, schema, out => by
    rw [well_formed_all, Bool.and_eq_true] at schema
    rw [letters_all]
    intro letter mem
    rcases List.mem_append.mp mem with mem | mem
    · exact lettered child hidden schema.1 out letter mem
    · exact lettered_all children hidden schema.2 out letter mem

end

/-- A token of a body the schema allows. -/
def Token.Wellformed : Token → Prop
  | .mark letter => letter.char = '\n'
  | .revision element deletion _ _ _ => well_formed false element = true ∧ element.tag = if deletion then .del else .ins
  | _ => True

mutual

theorem tokens_wellformed : ∀ (element : Element) (accepted rejected hidden : Bool), well_formed false element = true →
    ∀ token ∈ tokens accepted rejected hidden element, token.Wellformed
  | .node tag attributes text children, accepted, rejected, hidden, schema => by
    have below := fun accepted rejected hidden => tokens_all_wellformed children accepted rejected hidden
    cases tag with
    | bookmarkStart | bookmarkEnd | t =>
      rw [tokens]
      exact fun token mem => by rw [List.mem_singleton.mp mem]; trivial
    | ins | del =>
      rw [tokens]
      exact fun token mem => by rw [List.mem_singleton.mp mem]; exact ⟨schema, rfl⟩
    | moveTo =>
      rw [tokens]
      exact below accepted false hidden schema
    | moveFrom =>
      rw [tokens]
      exact below false rejected hidden schema
    | p =>
      simp only [tokens, if_true]
      intro token mem
      rcases List.mem_append.mp mem with mem | mem
      · exact below _ _ _ schema token mem
      · rw [List.mem_singleton.mp mem]
        rfl
    | delText =>
      rw [well_formed, Bool.and_eq_true] at schema
      exact absurd schema.2 Bool.false_ne_true
    | r | rPr | pPr | vanish | other =>
      simp only [tokens, reduceCtorEq, if_false, List.append_nil]
      exact below _ _ _ schema

theorem tokens_all_wellformed : ∀ (children : List Element) (accepted rejected hidden : Bool),
    well_formed_all false children = true → ∀ token ∈ tokens_all accepted rejected hidden children, token.Wellformed
  | [], _, _, _, _ => fun token mem => absurd mem List.not_mem_nil
  | child :: children, accepted, rejected, hidden, schema => by
    rw [well_formed_all, Bool.and_eq_true] at schema
    rw [tokens_all]
    intro token mem
    rcases List.mem_append.mp mem with mem | mem
    · exact tokens_wellformed child accepted rejected hidden schema.1 token mem
    · exact tokens_all_wellformed children accepted rejected hidden schema.2 token mem

end

mutual

/-- The letters of a body are those of its tokens in order. -/
theorem letters_tokens : ∀ (element : Element) (accepted rejected hidden : Bool), well_formed false element = true →
    letters accepted rejected hidden element = (tokens accepted rejected hidden element).flatMap Token.letters
  | .node tag attributes text children, accepted, rejected, hidden, schema => by
    have below := fun accepted rejected hidden => letters_all_tokens children accepted rejected hidden
    cases tag with
    | bookmarkStart | bookmarkEnd => rw [letters, tokens, List.flatMap_singleton, Token.letters]
    | t => rw [letters, tokens, List.flatMap_singleton, Token.letters]
    | ins | del => rw [tokens, List.flatMap_singleton, Token.letters]
    | moveTo =>
      rw [letters, tokens]
      exact below accepted false hidden schema
    | moveFrom =>
      rw [letters, tokens]
      exact below false rejected hidden schema
    | p =>
      simp only [letters, tokens, if_true, List.flatMap_append, List.flatMap_singleton, Token.letters]
      rw [below accepted rejected _ schema]
    | delText =>
      rw [well_formed, Bool.and_eq_true] at schema
      exact absurd schema.2 Bool.false_ne_true
    | r | rPr | pPr | vanish | other =>
      simp only [letters, tokens, reduceCtorEq, if_false, List.append_nil]
      exact below accepted rejected _ schema

theorem letters_all_tokens : ∀ (children : List Element) (accepted rejected hidden : Bool),
    well_formed_all false children = true →
      letters_all accepted rejected hidden children = (tokens_all accepted rejected hidden children).flatMap Token.letters
  | [], _, _, _, _ => rfl
  | child :: children, accepted, rejected, hidden, schema => by
    rw [well_formed_all, Bool.and_eq_true] at schema
    rw [letters_all, tokens_all, List.flatMap_append, letters_tokens child accepted rejected hidden schema.1,
      letters_all_tokens children accepted rejected hidden schema.2]

end

/-! ### What the walk keeps of a region -/

theorem dropWhile_wanted (wanted : Letter → Bool) (ls : List Letter) :
    ((ls.filter wanted).map Letter.char).dropWhile isSpace =
      ((ls.dropWhile fun letter => !(wanted letter && !isSpace letter.char)).filter wanted).map Letter.char := by
  induction ls with
  | nil => rfl
  | cons letter ls ih =>
    rw [List.filter_cons, List.dropWhile_cons]
    cases counted : wanted letter with
    | false => exact ih
    | true =>
      rw [if_pos rfl, List.map_cons, List.dropWhile_cons]
      cases white : isSpace letter.char with
      | true => exact ih
      | false => simp [counted]

theorem rdropWhile_wanted (wanted : Letter → Bool) (ls : List Letter) :
    ((ls.filter wanted).map Letter.char).rdropWhile isSpace =
      ((ls.rdropWhile fun letter => !(wanted letter && !isSpace letter.char)).filter wanted).map Letter.char := by
  rw [List.rdropWhile, List.rdropWhile, ← List.map_reverse, ← List.filter_reverse, dropWhile_wanted, List.filter_reverse,
    List.map_reverse]

theorem letters_edged (wanted : Letter → Bool) (ls : List Letter) : (edged wanted ls).map Seen.letter = ls := by
  simp only [edged, List.map_append, List.map_map, Function.comp_def, List.map_id', List.append_assoc,
    List.rdropWhile_append_rtakeWhile, List.takeWhile_append_dropWhile]

theorem shown_unkept (ls : List Letter) :
    shown (fun seen : Seen => seen.letter.char) Seen.kept (ls.map (⟨·, false⟩)) = [] := by
  rw [shown, List.filter_eq_nil_iff.mpr, List.map_nil]
  intro seen mem
  obtain ⟨letter, -, rfl⟩ := List.mem_map.mp mem
  exact Bool.false_ne_true

theorem shown_append {ι α : Type} (char : ι → α) (p : ι → Bool) (items items' : List ι) :
    shown char p (items ++ items') = shown char p items ++ shown char p items' := by
  rw [shown, List.filter_append, List.map_append]
  rfl

/-- The walk keeps the wanted text of a tracked change without the white space at its ends. -/
theorem shown_edged (wanted : Letter → Bool) (ls : List Letter) :
    shown (fun seen : Seen => seen.letter.char) Seen.kept (edged wanted ls) =
      trim isSpace ((ls.filter wanted).map Letter.char) := by
  have middle (ls : List Letter) : shown (fun seen : Seen => seen.letter.char) Seen.kept
      (ls.map fun letter => ⟨letter, wanted letter⟩) = (ls.filter wanted).map Letter.char := by
    rw [shown, List.filter_map, List.map_map]
    rfl
  rw [edged, shown_append, shown_append, shown_unkept, shown_unkept, middle, List.nil_append, List.append_nil, trim,
    dropWhile_wanted, rdropWhile_wanted]

theorem letters_seen (view : View) (token : Token) : (token.seen view).map Seen.letter = token.letters := by
  cases token with
  | start | stop | mark => rfl
  | text content hidden accepted rejected =>
    rw [Token.seen, List.map_map]
    exact List.map_id _
  | revision element deletion accepted rejected hidden =>
    rw [Token.seen]
    split
    · exact letters_edged _ _
    · rw [List.map_map]
      exact List.map_id _

theorem space_blank : isSpace ' ' = true := by decide

/-- Inside a longer text, what the walk adds for a token has the gaps of what it keeps of the token's letters. -/
theorem gapped_parts {token : Token} (formed : token.Wellformed) (view : View) (gap : Bool) (more : List Char) :
    gapped isSpace gap ((token.parts view).flatMap String.toList ++ more) =
      gapped isSpace gap (shown (fun seen : Seen => seen.letter.char) Seen.kept (token.seen view) ++ more) := by
  cases token with
  | start | stop => rfl
  | mark letter =>
    have char : letter.char = '\n' := formed
    have kept : shown (fun seen : Seen => seen.letter.char) Seen.kept [⟨letter, true⟩] = [letter.char] := rfl
    rw [Token.seen, kept, char]
    rfl
  | text content hidden accepted rejected =>
    rw [Token.seen, Token.parts]
    cases sentinel : hidden && is_sentinel content with
    | true =>
      rw [Bool.not_true, shown_unkept]
      rfl
    | false =>
      have kept : shown (fun seen : Seen => seen.letter.char) Seen.kept
          ((Token.text content hidden accepted rejected).letters.map (⟨·, true⟩)) = content.toList := by
        have all : ((Token.text content hidden accepted rejected).letters.map (⟨·, true⟩)).filter Seen.kept =
            (Token.text content hidden accepted rejected).letters.map (⟨·, true⟩) :=
          List.filter_eq_self.mpr fun seen mem => by
            obtain ⟨letter, -, rfl⟩ := List.mem_map.mp mem
            rfl
        rw [shown, all, Token.letters, letters_of, List.map_map, List.map_map]
        exact List.map_id _
      rw [Bool.not_false, kept]
      simp
  | revision element deletion accepted rejected hidden =>
    rw [Token.seen, Token.parts]
    by_cases this : deletion = decide (view = .rejected)
    · have counted : (if deletion then Tag.delText else Tag.t) = .t ∨ (if deletion then Tag.delText else Tag.t) = .delText := by
        cases deletion
        · exact .inl rfl
        · exact .inr rfl
      rw [if_pos this, shown_edged, ← iter_letters counted element accepted rejected hidden formed.1,
        ← gapped_normalize space_blank]
      have text : (if deletion = decide (view = .rejected) ∧ revision_text element deletion ≠ "" then
          [revision_text element deletion] else []).flatMap String.toList = (revision_text element deletion).toList := by
        by_cases empty : revision_text element deletion = ""
        · rw [if_neg fun h => h.2 empty, empty]
          rfl
        · rw [if_pos ⟨this, empty⟩, List.flatMap_singleton]
      rw [text, revision_text, normalize, String.toList_ofList, List.flatMap_map]
    · rw [if_neg this, if_neg fun h => this h.1, shown_unkept]
      rfl

theorem gapped_region {region : List Token} (formed : ∀ token ∈ region, token.Wellformed) (view : View) (gap : Bool) :
    gapped isSpace gap ((region.flatMap (Token.parts view)).flatMap String.toList) =
      gapped isSpace gap (shown (fun seen : Seen => seen.letter.char) Seen.kept (region.flatMap (Token.seen view))) := by
  induction region generalizing gap with
  | nil => rfl
  | cons token region ih =>
    have here := List.forall_mem_cons.mp formed
    rw [List.flatMap_cons, List.flatMap_append, List.flatMap_cons, shown_append, gapped_parts here.1, gapped_append,
      ih here.2, ← gapped_append]

/-! ### Views of a region -/

/-- A deletion has nothing of the accepted view and deleted text only, an insertion nothing of the rejected view. -/
theorem revision_letters {element : Element} {deletion accepted rejected hidden : Bool}
    (formed : (Token.revision element deletion accepted rejected hidden).Wellformed) :
    ∀ letter ∈ letters accepted rejected hidden element,
      (letter.shown (if deletion then .accepted else .rejected) = false) ∧
        (isSpace letter.char = false → letter.shown (if deletion then .rejected else .accepted) = true →
          letter.tag = if deletion then .delText else .t) := by
  obtain ⟨tag, attributes, text, children⟩ := element
  obtain ⟨schema, tagged⟩ := formed
  intro letter mem
  cases deletion with
  | false =>
    obtain rfl : tag = .ins := tagged
    rw [letters] at mem
    have here := lettered_all children hidden schema (fun h => absurd h Bool.false_ne_true) letter mem
    exact ⟨Bool.eq_false_iff.mpr fun h => absurd (here.rejected h) Bool.false_ne_true, here.inserted⟩
  | true =>
    obtain rfl : tag = .del := tagged
    rw [letters] at mem
    have here := lettered_all children hidden schema (fun _ => rfl) letter mem
    exact ⟨Bool.eq_false_iff.mpr fun h => absurd (here.accepted h) Bool.false_ne_true, fun solid _ => here.deleted solid rfl⟩

theorem kept_of_edged {wanted : Letter → Bool} {ls : List Letter} {seen : Seen} (mem : seen ∈ edged wanted ls)
    (solid : isSpace seen.letter.char = false) (counted : wanted seen.letter = true) : seen.kept = true := by
  have whole : ¬(!(wanted seen.letter && !isSpace seen.letter.char)) = true := by simp [solid, counted]
  rw [edged, List.mem_append, List.mem_append] at mem
  rcases mem with (mem | mem) | mem
  · obtain ⟨letter, lead, rfl⟩ := List.mem_map.mp mem
    exact absurd (List.mem_takeWhile_imp lead) whole
  · obtain ⟨letter, -, rfl⟩ := List.mem_map.mp mem
    exact counted
  · obtain ⟨letter, tail, rfl⟩ := List.mem_map.mp mem
    exact absurd (List.mem_rtakeWhile_imp tail) whole

theorem letter_of_seen {view : View} {token : Token} {seen : Seen} (mem : seen ∈ token.seen view) :
    seen.letter ∈ token.letters := by
  rw [← letters_seen view token]
  exact List.mem_map_of_mem mem

/-- The walk keeps every character of a view that is no white space. -/
theorem solid_kept {token : Token} (formed : token.Wellformed) (view : View) :
    ∀ seen ∈ token.seen view, isSpace seen.letter.char = false → seen.letter.shown view = true → seen.kept = true := by
  cases token with
  | start | stop => exact fun seen mem => absurd mem List.not_mem_nil
  | mark letter =>
    intro seen mem
    rw [List.mem_singleton.mp mem]
    exact fun _ _ => rfl
  | text content hidden accepted rejected =>
    rintro seen mem - shows
    obtain ⟨letter, listed, rfl⟩ := List.mem_map.mp mem
    obtain ⟨c, -, rfl⟩ := List.mem_map.mp listed
    cases view <;> exact (Bool.and_eq_true_iff.mp shows).2
  | revision element deletion accepted rejected hidden =>
    intro seen mem solid shows
    obtain ⟨out, tagged⟩ := revision_letters formed seen.letter (letter_of_seen mem)
    rw [Token.seen] at mem
    split at mem
    · rename_i this
      refine kept_of_edged mem solid (decide_eq_true (tagged solid ?_))
      cases view <;> subst this <;> exact shows
    · rename_i other
      cases view <;> cases deletion <;> first | exact absurd rfl other | exact absurd (out.symm.trans shows) Bool.false_ne_true

/-- What is recovered of a region is one of its views exactly when the walk does justice to that view. -/
theorem region_text_iff {region : List Token} (formed : ∀ token ∈ region, token.Wellformed) (view : View) :
    normalize (region.flatMap (Token.parts view)) = text_in view (region.flatMap Token.letters) ↔ Faithful view region := by
  have letters : (region.flatMap (Token.seen view)).map Seen.letter = region.flatMap Token.letters := by
    rw [List.map_flatMap]
    exact List.flatMap_congr fun token _ => letters_seen view token
  have text : shown Letter.char (Letter.shown view) (region.flatMap Token.letters) =
      shown (fun seen : Seen => seen.letter.char) (fun seen => seen.letter.shown view) (region.flatMap (Token.seen view)) := by
    rw [shown, ← letters, List.filter_map, List.map_map]
    rfl
  have within : ∀ seen ∈ region.flatMap (Token.seen view),
      Solid (fun seen : Seen => seen.letter.char) isSpace (fun seen => seen.letter.shown view) seen → seen.kept = true := by
    intro seen mem solid
    obtain ⟨token, listed, mem⟩ := List.mem_flatMap.mp mem
    exact solid_kept (formed token listed) view seen mem solid.1 solid.2
  rw [normalize, text_in, String.ofList_inj, normalize_eq_iff space_blank, text,
    parted_congr (gapped_region formed view false), eq_comm, parted_shown_iff within]
  constructor
  · rintro ⟨kept, gaps⟩
    exact ⟨fun seen mem solid keeps => kept seen mem ⟨solid, keeps⟩, gaps⟩
  · rintro ⟨kept, gaps⟩
    exact ⟨fun seen mem solid => kept seen mem solid.1 solid.2, gaps⟩

namespace Sample

def run (content : String) : Element := .node .r {} none [.node .t {} (some content) []]

def inserted : Element := .node .ins {} none [run " b"]

def edited : Element :=
  .node .p {} none [.node .bookmarkStart { id := some "1", name := some "A" } none [], run "a", inserted,
    .node .bookmarkEnd { id := some "1" } none []]

def region : List Token := [.text "a" false true true, .revision inserted false true true false]

theorem edited_schema : well_formed false edited = true := by decide

theorem edited_bounded : Bounded (tokens true true false edited) "A" region := by
  refine ⟨by decide +kernel, [], [.mark ⟨'\n', .p, true, true⟩], { id := some "1", name := some "A" }, { id := some "1" }, "1",
    rfl, rfl, rfl, rfl, ?_, ?_⟩
  · intro other mem
    simp [region] at mem
  · rintro other (mem | mem) <;> simp [region] at mem

end Sample

open Sample

end MootLoop.DocxEdits
