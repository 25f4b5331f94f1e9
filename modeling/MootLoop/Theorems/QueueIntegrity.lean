import MootLoop.Lib.Json
import MootLoop.QueueFile
import MootLoop.Theorems.Leases

/-! Integrity of the queue over every run of its operations: while no string that reaches the file has a character
    that ends a line for `str.splitlines` alone, the file reads back as the items written, ids are unique, attempts
    count the claims that were not refunded, only its owner moves an item, and a claim takes the first one. -/

namespace MootLoop

theorem isoformat_ascii (t : DateTime) : ∀ c ∈ t.isoformat.toList, c.toNat < 127 := by
  have digits : ∀ width n, ∀ c ∈ Decimal.digits width n, c.toNat < 127 := by
    intro width n c mem
    have digit := List.all_eq_true.mp (Decimal.digits_all width n) c mem
    simp only [Char.isDigit, Bool.and_eq_true, decide_eq_true_eq] at digit
    have bound : c.toNat ≤ 57 := digit.2
    omega
  have zone : ∀ c ∈ "+00:00".toList, c.toNat < 127 := by decide
  intro c mem
  rw [DateTime.isoformat, String.toList_ofList, DateTime.iso_chars, DateTime.suffix] at mem
  simp only [List.mem_append, List.mem_cons] at mem
  rcases mem with mem | rfl | mem | rfl | mem | rfl | mem | rfl | mem | rfl | mem | mem
  any_goals decide
  any_goals exact digits _ _ c mem
  split at mem
  · exact zone c mem
  · simp only [List.mem_append, List.mem_cons] at mem
    rcases mem with rfl | mem | mem
    · decide
    · exact digits _ _ c mem
    · exact zone c mem

namespace QueueFile

variable {π : Type} {format : Format π}

theorem rewrite_first_of_mem {α : Type} {p : α → Bool} (f : α → α) {l : List α} {a : α} (mem : a ∈ l) (holds : p a = true) :
    ∃ l', rewrite_first p f l = some l' := by
  induction l with
  | nil => cases mem
  | cons b l ih =>
    rw [rewrite_first]
    split
    · exact ⟨_, rfl⟩
    · rename_i skipped
      rcases List.mem_cons.mp mem with rfl | mem
      · exact absurd holds skipped
      · obtain ⟨l', found⟩ := ih mem
        exact ⟨b :: l', by rw [found]; rfl⟩

theorem rewrite_first_eq_none {α : Type} {p : α → Bool} {f : α → α} {l : List α} :
    rewrite_first p f l = none ↔ ∀ a ∈ l, p a = false := by
  constructor
  · intro nothing a mem
    by_contra holds
    obtain ⟨l', found⟩ := rewrite_first_of_mem f mem (by simpa using holds)
    rw [nothing] at found
    cases found
  · intro nothing
    cases found : rewrite_first p f l with
    | none => rfl
    | some l' =>
      obtain ⟨front, a, back, rfl, holds, -⟩ := rewrite_first_eq_some found
      rw [nothing a (by simp)] at holds
      cases holds

/-! ### The file -/

/-- The strings that an item's line holds. -/
def Item.strings (format : Format π) (item : Item π) : List String :=
  [item.item_id, item.matter_id, item.run_id, item.kind, item.enqueued_at, item.visible_at] ++ item.claimed_by.toList ++
    format.payload_strings item.payload

/-- What the queue relies on of its serializer: an item reads back, and is one line but for what JSON leaves raw in its
    strings. -/
structure Documented (format : Format π) : Prop where
  reads_back : ∀ item, format.validate_json (format.model_dump_json item) = .ok item
  one_line : ∀ item, ∀ c ∈ format.model_dump_json item, isLineBreak c = true →
    isSeparator c = true ∧ ∃ text ∈ item.strings format, c ∈ text.toList
  visible : ∀ item, ∃ c ∈ format.model_dump_json item, isSpace c = false

/-- A text that is one line for `str.splitlines`, apart from the characters JSON escapes. -/
def unbroken (text : String) : Bool := !text.toList.any isSeparator

/-- An item whose strings have no separator and whose stamps are ISO ones. -/
structure Item.Clean (format : Format π) (item : Item π) : Prop where
  unbroken : ∀ text ∈ item.strings format, QueueFile.unbroken text = true
  enqueued : ∃ t : DateTime, item.enqueued_at = t.isoformat
  visible : ∃ t : DateTime, item.visible_at = t.isoformat

def NewWork.unbroken (format : Format π) (work : NewWork π) : Bool :=
  ([work.item_id, work.matter_id, work.run_id, work.kind] ++ format.payload_strings work.payload).all QueueFile.unbroken

theorem unbroken_isoformat (t : DateTime) : unbroken t.isoformat = true := by
  rw [unbroken, Bool.not_eq_true', List.any_eq_false]
  intro c mem separator
  have := isoformat_ascii t c mem
  have := isSeparator_high separator
  omega

theorem epoch_isoformat : EPOCH_ISO = (⟨1970, 1, 1, 0, 0, 0, 0, by decide⟩ : DateTime).isoformat := by decide

theorem Item.Clean.one_line {item : Item π} (documented : Documented format) (clean : item.Clean format) :
    ∀ c ∈ format.model_dump_json item, isLineBreak c = false := by
  intro c mem
  by_contra ends
  obtain ⟨separator, text, held, here⟩ := documented.one_line item c mem (by simpa using ends)
  have none_in := clean.unbroken text held
  rw [QueueFile.unbroken, Bool.not_eq_true', List.any_eq_false] at none_in
  exact none_in c here separator

/-- What was written reads back. -/
theorem read_write (documented : Documented format) {items : List (Item π)} (clean : ∀ item ∈ items, item.Clean format) :
    read format (write format items) = .ok items := by
  have text : write format items = (items.map format.model_dump_json).flatMap (· ++ ['\n']) := by
    rw [write, List.flatMap_map]
  have no_cr : '\r' ∉ write format items := by
    intro mem
    obtain ⟨item, -, here⟩ := List.mem_flatMap.mp mem
    rcases List.mem_append.mp here with here | here
    · exact absurd (documented.one_line item _ here (by decide)).1 (by decide)
    · exact absurd here (by decide)
  have lines : splitlines (write format items) = items.map format.model_dump_json := by
    rw [text, splitlines_lines]
    intro line mem
    obtain ⟨item, held, rfl⟩ := List.mem_map.mp mem
    exact (clean item held).one_line documented
  rw [read, normalize_newlines_of_no_cr no_cr, lines]
  clear text no_cr lines clean
  induction items with
  | nil => rfl
  | cons item items ih =>
    obtain ⟨c, mem, not_space⟩ := documented.visible item
    have not_blank : (!(format.model_dump_json item).all isSpace) = true := by
      rw [Bool.not_eq_true', List.all_eq_false]
      exact ⟨c, mem, by simp [not_space]⟩
    rw [List.map_cons, List.filter_cons, if_pos not_blank, List.mapM_cons, documented.reads_back, ih]
    rfl

/-! ### What an operation does -/

/-- A claim at `now` may take the item. -/
def Item.Visible (now : DateTime) (matter_id : Option MatterId) (item : Item π) : Prop :=
  (matter_id = none ∨ matter_id = some item.matter_id) ∧ ∃ t, fromisoformat item.visible_at = some t ∧ t ≤ now

/-- Lower lane, or the same one and enqueued no later. -/
def Item.First (item other : Item π) : Prop :=
  item.lane.priority < other.lane.priority ∨ item.lane.priority = other.lane.priority ∧
    ∃ t t', fromisoformat item.enqueued_at = some t ∧ fromisoformat other.enqueued_at = some t' ∧ t ≤ t'

/-- No string that an operation writes to a file with these items has a separator. -/
def Op.writes_unbroken (format : Format π) (items : List (Item π)) : Op π → Prop
  | .enqueue work => work.unbroken format = true
  | .ensure_enqueued work => (∀ item ∈ items, item.item_id ≠ work.item_id) → work.unbroken format = true
  | .claim worker_id now _ matter_id => (∃ item ∈ items, item.Visible now matter_id) → unbroken worker_id = true
  | _ => True

def Op.Unbroken (format : Format π) (file : List Char) (op : Op π) : Prop :=
  ∀ items, read format file = .ok items → op.writes_unbroken format items

/-- The worker an operation on owned items is for, and the items it is on. -/
def Op.acts_on : Op π → Option (Item π → Bool)
  | .heartbeat item_id worker_id _ | .complete item_id worker_id | .release item_id worker_id _ _ =>
    some (owned item_id worker_id)
  | .release_all_claimed_by worker_id => some fun item => item.claimed_by = some worker_id
  | _ => none

/-- What an operation makes of an owned item that it keeps. -/
def Op.rewrites : Op π → Option (Item π → Item π)
  | .heartbeat _ _ lease_end => some fun item => { item with visible_at := lease_end.isoformat }
  | .release _ _ visible_at refund_attempt => some (released visible_at refund_attempt)
  | _ => none

/-- The cases of an operation on the items of a clean file. -/
inductive Does : List (Item π) → Op π → Option (Reply π) → List (Item π) → Prop
  | enqueued {items : List (Item π)} {work : NewWork π} (fresh : ∀ item ∈ items, item.item_id ≠ work.item_id) :
      Does items (.enqueue work) (some (.item (some work.create))) (items ++ [work.create])
  | ensured {items : List (Item π)} {work : NewWork π} (fresh : ∀ item ∈ items, item.item_id ≠ work.item_id) :
      Does items (.ensure_enqueued work) (some (.item (some work.create))) (items ++ [work.create])
  | present {items : List (Item π)} {work : NewWork π} {reply : Option (Reply π)} :
      Does items (.ensure_enqueued work) reply items
  | idle {items : List (Item π)} {worker_id : String} {now lease_end : DateTime} {matter_id : Option MatterId}
      (none_visible : ∀ item ∈ items, ¬ item.Visible now matter_id) :
      Does items (.claim worker_id now lease_end matter_id) (some (.item none)) items
  | claimed {front back : List (Item π)} {chosen : Item π} {worker_id : String} {now lease_end : DateTime}
      {matter_id : Option MatterId} (visible : chosen.Visible now matter_id)
      (first : ∀ other ∈ front ++ chosen :: back, other.Visible now matter_id → chosen.First other) :
      Does (front ++ chosen :: back) (.claim worker_id now lease_end matter_id)
        (some (.item (some (leased worker_id lease_end chosen)))) (front ++ leased worker_id lease_end chosen :: back)
  | not_owner {items : List (Item π)} {op : Op π} {mine : Item π → Bool} {reply : Reply π} (acts : op.acts_on = some mine)
      (none_owned : ∀ item ∈ items, mine item = false) (nothing : reply = .done false ∨ reply = .freed 0) :
      Does items op (some reply) items
  | rewritten {front back : List (Item π)} {item : Item π} {op : Op π} {mine : Item π → Bool} {rewrite : Item π → Item π}
      (acts : op.acts_on = some mine) (rewrites : op.rewrites = some rewrite) (own : mine item = true) :
      Does (front ++ item :: back) op (some (.done true)) (front ++ rewrite item :: back)
  | completed {front back : List (Item π)} {item : Item π} {item_id worker_id : String} (own : owned item_id worker_id item = true) :
      Does (front ++ item :: back) (.complete item_id worker_id) (some (.done true)) (front ++ back)
  | freed {items : List (Item π)} {worker_id : String} {count : Nat}
      (any : ∃ item ∈ items, item.claimed_by = some worker_id) :
      Does items (.release_all_claimed_by worker_id) (some (.freed count)) (items.map fun item =>
        if item.claimed_by = some worker_id then { item with claimed_by := none, visible_at := EPOCH_ISO } else item)

/-! Each operation, on a file that reads as `items`. -/

section
variable {items : List (Item π)}

theorem visible_items_eq (clean : ∀ item ∈ items, item.Clean format) (now : DateTime) (matter_id : Option MatterId) :
    ∃ visible, visible_items now matter_id items = .ok visible ∧
      ∀ item, item ∈ visible ↔ item ∈ items ∧ item.Visible now matter_id := by
  induction items with
  | nil => exact ⟨[], rfl, by simp⟩
  | cons item items ih =>
    obtain ⟨visible, found, mem_iff⟩ := ih fun item mem => clean item (List.mem_cons_of_mem _ mem)
    obtain ⟨t, stamp⟩ := (clean item List.mem_cons_self).visible
    have parsed : parse item.visible_at = .ok t := by rw [parse, stamp, fromisoformat_isoformat]
    have visible_iff : item.Visible now matter_id ↔ (matter_id = none ∨ matter_id = some item.matter_id) ∧ t ≤ now := by
      rw [Item.Visible, stamp, fromisoformat_isoformat]
      simp
    rw [visible_items]
    by_cases matter : matter_id = none ∨ matter_id = some item.matter_id
    · rw [if_pos matter, parsed, found]
      by_cases due : t ≤ now
      · refine ⟨item :: visible, by simp [bind, Except.bind, pure, Except.pure, due], fun other => ?_⟩
        rw [List.mem_cons, List.mem_cons, mem_iff]
        constructor
        · rintro (rfl | ⟨mem, here⟩)
          · exact ⟨.inl rfl, visible_iff.mpr ⟨matter, due⟩⟩
          · exact ⟨.inr mem, here⟩
        · rintro ⟨rfl | mem, here⟩
          · exact .inl rfl
          · exact .inr ⟨mem, here⟩
      · refine ⟨visible, by simp [bind, Except.bind, pure, Except.pure, due], fun other => ?_⟩
        rw [List.mem_cons, mem_iff]
        constructor
        · rintro ⟨mem, here⟩
          exact ⟨.inr mem, here⟩
        · rintro ⟨rfl | mem, here⟩
          · exact absurd (visible_iff.mp here).2 due
          · exact ⟨mem, here⟩
    · rw [if_neg matter]
      refine ⟨visible, found, fun other => ?_⟩
      rw [List.mem_cons, mem_iff]
      constructor
      · rintro ⟨mem, here⟩
        exact ⟨.inr mem, here⟩
      · rintro ⟨rfl | mem, here⟩
        · exact absurd here.1 matter
        · exact ⟨mem, here⟩

/-- The order of the text keys is the order of lanes and instants. -/
theorem first_of_sort_key {item other : Item π} (clean : item.Clean format) (clean' : other.Clean format)
    (le : item.sort_key ≤ other.sort_key) : item.First other := by
  obtain ⟨t, stamp⟩ := clean.enqueued
  obtain ⟨t', stamp'⟩ := clean'.enqueued
  rw [Item.sort_key, Item.sort_key, Prod.Lex.toLex_le_toLex] at le
  rcases le with less | ⟨same, le⟩
  · exact .inl less
  · refine .inr ⟨same, t, t', by rw [stamp, fromisoformat_isoformat], by rw [stamp', fromisoformat_isoformat], ?_⟩
    have not_later : ¬ t' < t := fun later => by
      rw [← isoformat_lt_iff, ← stamp, ← stamp'] at later
      exact absurd le (not_le.mpr later)
    show t.order ≤ t'.order
    exact Nat.le_of_not_lt not_later

theorem claim_does [DecidableEq π] (documented : Documented format) (clean : ∀ item ∈ items, item.Clean format) (worker_id : String)
    (now lease_end : DateTime) (matter_id : Option MatterId) :
    ∃ found items', claim format (write format items) worker_id now lease_end matter_id = .ok (found, write format items') ∧
      Does items (.claim worker_id now lease_end matter_id) (some (.item found)) items' := by
  obtain ⟨visible, listed, mem_iff⟩ := visible_items_eq clean now matter_id
  rw [claim, read_write documented clean]
  cases best : visible.argmin Item.sort_key with
  | none =>
    refine ⟨none, items, by simp [bind, Except.bind, listed, best, pure, Except.pure], .idle fun item mem here => ?_⟩
    have held := (mem_iff item).mpr ⟨mem, here⟩
    rw [List.argmin_eq_none.mp best] at held
    cases held
  | some chosen =>
    have in_visible := List.argmin_mem best
    obtain ⟨mem, here⟩ := (mem_iff chosen).mp in_visible
    obtain ⟨rest, rewritten⟩ := rewrite_first_of_mem (p := (decide <| · = chosen)) (leased worker_id lease_end) mem (by simp)
    obtain ⟨front, same, back, rfl, is_chosen, rfl⟩ := rewrite_first_eq_some rewritten
    obtain rfl : same = chosen := by simpa using is_chosen
    refine ⟨_, _, by simp [bind, Except.bind, listed, best, pure, Except.pure, rewritten], .claimed here ?_⟩
    intro other mem' here'
    exact first_of_sort_key (clean same mem) (clean other mem')
      (List.le_of_mem_argmin ((mem_iff other).mpr ⟨mem', here'⟩) best)

/-- A rewrite of the owned item, if there is one. -/
theorem rewrite_does (items : List (Item π)) (op : Op π) {item_id worker_id : String} {rewrite : Item π → Item π}
    (acts : op.acts_on = some (owned item_id worker_id)) (rewrites : op.rewrites = some rewrite) :
    (∃ items', rewrite_first (owned item_id worker_id) rewrite items = some items' ∧ Does items op (some (.done true)) items') ∨
    rewrite_first (owned item_id worker_id) rewrite items = none ∧ Does items op (some (.done false)) items := by
  cases found : rewrite_first (owned item_id worker_id) rewrite items with
  | some items' =>
    obtain ⟨front, item, back, rfl, own, rfl⟩ := rewrite_first_eq_some found
    exact .inl ⟨_, rfl, .rewritten acts rewrites own⟩
  | none => exact .inr ⟨rfl, .not_owner acts (rewrite_first_eq_none.mp found) (.inl rfl)⟩

theorem complete_does (unique : (items.map (·.item_id)).Nodup) (item_id worker_id : String) :
    let kept := items.filter fun item => !owned item_id worker_id item
    kept.length = items.length ∧ Does items (.complete item_id worker_id) (some (.done false)) items ∨
    kept.length ≠ items.length ∧ Does items (.complete item_id worker_id) (some (.done true)) kept := by
  intro kept
  by_cases any : ∃ item ∈ items, owned item_id worker_id item = true
  · right
    obtain ⟨item, mem, own⟩ := any
    obtain ⟨front, back, rfl⟩ := List.append_of_mem mem
    have id := (by simpa [owned] using own : item.item_id = item_id ∧ item.claimed_by = some worker_id).1
    rw [List.map_append, List.map_cons, List.nodup_append, List.nodup_cons] at unique
    have others : ∀ other ∈ front ++ back, (!owned item_id worker_id other) = true := by
      intro other mem
      rw [Bool.not_eq_true', owned, Bool.and_eq_false_iff, decide_eq_false_iff_not]
      refine .inl fun same => ?_
      rcases List.mem_append.mp mem with mem | mem
      · exact unique.2.2 _ (List.mem_map_of_mem mem) _ List.mem_cons_self (same.trans id.symm)
      · exact unique.2.1.1 (by rw [id, ← same]; exact List.mem_map_of_mem mem)
    have kept_eq : kept = front ++ back := by
      show (front ++ item :: back).filter _ = _
      rw [List.filter_append, List.filter_cons, own]
      simp only [Bool.not_true, Bool.false_eq_true, if_false]
      rw [← List.filter_append, List.filter_eq_self.mpr others]
    rw [kept_eq]
    exact ⟨by simp, .completed own⟩
  · left
    have none_owned : ∀ item ∈ items, owned item_id worker_id item = false := by
      intro item mem
      by_contra own
      exact any ⟨item, mem, by simpa using own⟩
    have kept_eq : kept = items := List.filter_eq_self.mpr fun item mem => by simp [none_owned item mem]
    exact ⟨by rw [kept_eq], .not_owner rfl none_owned (.inl rfl)⟩

/-- On a clean file an operation does one of the cases above, and the file is what the items after it are written as. -/
theorem outcome_does [DecidableEq π] (documented : Documented format) (clean : ∀ item ∈ items, item.Clean format)
    (unique : (items.map (·.item_id)).Nodup) {op : Op π} (fresh : op.Fresh format (write format items)) :
    ∃ reply items', outcome format (write format items) op = (reply, write format items') ∧ Does items op reply items' := by
  have reads := read_write documented clean
  cases op with
  | enqueue work =>
    refine ⟨_, _, ?_, .enqueued (fresh items reads)⟩
    simp [outcome, perform, enqueue, reads, bind, Except.bind, pure, Except.pure, Except.map]
  | ensure_enqueued work =>
    cases matching : items.filter (·.item_id = work.create.item_id) with
    | nil =>
      refine ⟨_, _, ?_, .ensured fun item mem same => ?_⟩
      · simp [outcome, perform, ensure_enqueued, reads, matching, bind, Except.bind, pure, Except.pure, Except.map]
      · have held : item ∈ items.filter (·.item_id = work.create.item_id) :=
          List.mem_filter.mpr ⟨mem, decide_eq_true same⟩
        rw [matching] at held
        cases held
    | cons existing more =>
      have unchanged : ∃ reply, outcome format (write format items) (.ensure_enqueued work) = (reply, write format items) := by
        cases more with
        | nil =>
          by_cases same : same_work existing work.create = true
          · refine ⟨some (.item (some existing)), ?_⟩
            simp [outcome, perform, ensure_enqueued, reads, matching, same, bind, Except.bind, pure, Except.pure, Except.map]
          · refine ⟨none, ?_⟩
            simp [outcome, perform, ensure_enqueued, reads, matching, same, bind, Except.bind, throw, throwThe,
              MonadExceptOf.throw, Except.map]
        | cons other more =>
          refine ⟨none, ?_⟩
          simp [outcome, perform, ensure_enqueued, reads, matching, bind, Except.bind, throw, throwThe,
            MonadExceptOf.throw, Except.map]
      obtain ⟨reply, unchanged⟩ := unchanged
      exact ⟨reply, items, unchanged, .present⟩
  | claim worker_id now lease_end matter_id =>
    obtain ⟨found, items', result, does⟩ := claim_does documented clean worker_id now lease_end matter_id
    exact ⟨_, items', by simp [outcome, perform, result, Except.map], does⟩
  | heartbeat item_id worker_id lease_end =>
    rcases rewrite_does items (.heartbeat item_id worker_id lease_end) rfl rfl with
      ⟨items', found, does⟩ | ⟨found, does⟩
    · exact ⟨_, _, by simp [outcome, perform, heartbeat, reads, found, bind, Except.bind, pure, Except.pure, Except.map], does⟩
    · exact ⟨_, _, by simp [outcome, perform, heartbeat, reads, found, bind, Except.bind, pure, Except.pure, Except.map], does⟩
  | complete item_id worker_id =>
    rcases complete_does unique item_id worker_id with ⟨same, does⟩ | ⟨fewer, does⟩
    · exact ⟨_, _, by simp [outcome, perform, complete, reads, same, bind, Except.bind, pure, Except.pure, Except.map], does⟩
    · exact ⟨_, _, by simp [outcome, perform, complete, reads, fewer, bind, Except.bind, pure, Except.pure, Except.map], does⟩
  | release item_id worker_id visible_at refund_attempt =>
    rcases rewrite_does items (.release item_id worker_id visible_at refund_attempt) rfl rfl with
      ⟨items', found, does⟩ | ⟨found, does⟩
    · exact ⟨_, _, by simp [outcome, perform, release, reads, found, bind, Except.bind, pure, Except.pure, Except.map], does⟩
    · exact ⟨_, _, by simp [outcome, perform, release, reads, found, bind, Except.bind, pure, Except.pure, Except.map], does⟩
  | release_all_claimed_by worker_id =>
    by_cases freed : items.countP (·.claimed_by = some worker_id) = 0
    · refine ⟨_, items, ?_, .not_owner rfl (fun item mem => ?_) (.inr rfl)⟩
      · simp [outcome, perform, release_all_claimed_by, reads, freed, bind, Except.bind, pure, Except.pure, Except.map]
      · simpa using List.countP_eq_zero.mp freed item mem
    · refine ⟨some (.freed (items.countP (·.claimed_by = some worker_id))), _, ?_, .freed (by simpa using freed)⟩
      simp [outcome, perform, release_all_claimed_by, reads, freed, bind, Except.bind, pure, Except.pure, Except.map]

end

/-! ### The invariant -/

/-- The attempts of a live item are its claims less its refunds, and an item that is claimed has one. -/
structure Counted (trace : List (Event π)) (item : Item π) : Prop where
  attempts : item.attempts = (tally item.item_id trace).claims - (tally item.item_id trace).refunds
  nonneg : 0 ≤ item.attempts
  claimed : item.claimed_by ≠ none → 1 ≤ item.attempts

structure Sound (format : Format π) (trace : List (Event π)) (items : List (Item π)) : Prop where
  clean : ∀ item ∈ items, item.Clean format
  unique : (items.map (·.item_id)).Nodup
  counted : ∀ item ∈ items, Counted trace item
  gone : ∀ item_id, (∀ item ∈ items, item.item_id ≠ item_id) → tally item_id trace = {}

section
variable {trace : List (Event π)} {event : Event π} {items items' front back : List (Item π)} {item item' : Item π} {op : Op π}
  {reply : Option (Reply π)}

theorem tally_snoc (item_id : String) (trace : List (Event π)) (event : Event π) :
    tally item_id (trace ++ [event]) = (tally item_id trace).count item_id event := by
  simp [tally]

theorem Counted.snoc (counted : Counted trace item) (same : (tally item.item_id trace).count item.item_id event =
    tally item.item_id trace) : Counted (trace ++ [event]) item where
  attempts := by rw [tally_snoc, same]; exact counted.attempts
  nonneg := counted.nonneg
  claimed := counted.claimed

theorem others_of_unique (unique : ((front ++ item :: back).map (·.item_id)).Nodup) :
    ∀ other ∈ front ++ back, other.item_id ≠ item.item_id := by
  rw [List.map_append, List.map_cons, List.nodup_append, List.nodup_cons] at unique
  intro other mem same
  rcases List.mem_append.mp mem with mem | mem
  · exact unique.2.2 _ (List.mem_map_of_mem mem) _ List.mem_cons_self same
  · exact unique.2.1.1 (by rw [← same]; exact List.mem_map_of_mem mem)

/-- An event that leaves the items as they are. -/
theorem Sound.keep (sound : Sound format trace items)
    (same : ∀ item_id, (tally item_id trace).count item_id event = tally item_id trace) :
    Sound format (trace ++ [event]) items where
  clean := sound.clean
  unique := sound.unique
  counted item mem := (sound.counted item mem).snoc (same _)
  gone item_id absent := by rw [tally_snoc, same, sound.gone item_id absent]

/-- An event that changes one item. -/
theorem Sound.replace (sound : Sound format trace (front ++ item :: back)) (id : item'.item_id = item.item_id)
    (clean : item'.Clean format) (counted : Counted (trace ++ [event]) item')
    (same : ∀ item_id ≠ item.item_id, (tally item_id trace).count item_id event = tally item_id trace) :
    Sound format (trace ++ [event]) (front ++ item' :: back) := by
  have others := others_of_unique sound.unique
  have old : ∀ x ∈ front ++ item' :: back, x = item' ∨ x ∈ front ++ back := by
    intro x mem
    simp only [List.mem_append, List.mem_cons] at mem ⊢
    tauto
  have still : ∀ x ∈ front ++ back, x ∈ front ++ item :: back := by
    intro x mem
    simp only [List.mem_append, List.mem_cons] at mem ⊢
    tauto
  refine ⟨fun x mem => ?_, ?_, fun x mem => ?_, fun item_id absent => ?_⟩
  · rcases old x mem with rfl | mem
    · exact clean
    · exact sound.clean x (still x mem)
  · have ids : (front ++ item' :: back).map (·.item_id) = (front ++ item :: back).map (·.item_id) := by simp [id]
    rw [ids]
    exact sound.unique
  · rcases old x mem with rfl | mem
    · exact counted
    · exact (sound.counted x (still x mem)).snoc (same _ (others x mem))
  · have not_this : item_id ≠ item.item_id := fun this => absent item' (by simp) (id.trans this.symm)
    rw [tally_snoc, same item_id not_this]
    refine sound.gone item_id fun x mem => ?_
    rcases List.mem_append.mp mem with mem | mem
    · exact absent x (List.mem_append_left _ mem)
    · rcases List.mem_cons.mp mem with rfl | mem
      · exact not_this.symm
      · exact absent x (by simp [mem])

theorem Sound.add (sound : Sound format trace items) {work : NewWork π} (fresh : ∀ item ∈ items, item.item_id ≠ work.item_id)
    (clean : work.create.Clean format)
    (same : ∀ item_id, (tally item_id trace).count item_id event = tally item_id trace) :
    Sound format (trace ++ [event]) (items ++ [work.create]) where
  clean item mem := by
    rcases List.mem_append.mp mem with mem | mem
    · exact sound.clean item mem
    · obtain rfl := List.mem_singleton.mp mem
      exact clean
  unique := by
    rw [List.map_append, List.nodup_append]
    refine ⟨sound.unique, List.nodup_singleton _, fun a ha b hb => ?_⟩
    obtain ⟨item, mem, rfl⟩ := List.mem_map.mp ha
    obtain rfl := List.mem_singleton.mp hb
    exact fresh item mem
  counted item mem := by
    rcases List.mem_append.mp mem with mem | mem
    · exact (sound.counted item mem).snoc (same _)
    · obtain rfl := List.mem_singleton.mp mem
      have none_yet : tally work.create.item_id (trace ++ [event]) = {} := by
        rw [tally_snoc, same, sound.gone work.create.item_id fresh]
      exact ⟨by rw [none_yet]; rfl, le_refl _, fun claimed => absurd rfl claimed⟩
  gone item_id absent := by
    rw [tally_snoc, same]
    exact sound.gone item_id fun item mem => absent item (List.mem_append_left _ mem)

theorem Item.unbroken_strings {item : Item π} : (∀ text ∈ item.strings format, unbroken text = true) ↔
    (unbroken item.item_id = true ∧ unbroken item.matter_id = true ∧ unbroken item.run_id = true ∧
      unbroken item.kind = true ∧ unbroken item.enqueued_at = true ∧ unbroken item.visible_at = true) ∧
    (∀ worker_id, item.claimed_by = some worker_id → unbroken worker_id = true) ∧
    ∀ text ∈ format.payload_strings item.payload, unbroken text = true := by
  simp only [Item.strings, List.forall_mem_append, List.forall_mem_cons, Option.mem_toList, and_assoc, List.not_mem_nil,
    false_imp_iff, implies_true, true_and]

theorem NewWork.create_clean {work : NewWork π} (clean : work.unbroken format = true) : work.create.Clean format where
  unbroken := by
    simp only [NewWork.unbroken, List.all_append, List.all_cons, List.all_nil, Bool.and_eq_true, Bool.and_true,
      List.all_eq_true] at clean
    obtain ⟨⟨item_id, matter_id, run_id, kind⟩, payload⟩ := clean
    have stamp := unbroken_isoformat work.now
    exact Item.unbroken_strings.mpr ⟨⟨item_id, matter_id, run_id, kind, stamp, stamp⟩, nofun, payload⟩
  enqueued := ⟨work.now, rfl⟩
  visible := ⟨work.now, rfl⟩

/-- An item whose claim and visibility are rewritten with clean ones. -/
theorem Item.Clean.rewrite (clean : item.Clean format) {item' : Item π} {t : DateTime}
    (unbroken : ∀ worker_id, item'.claimed_by = some worker_id → QueueFile.unbroken worker_id = true)
    (rewritten : item' = { item with claimed_by := item'.claimed_by, attempts := item'.attempts, visible_at := t.isoformat }) :
    item'.Clean format := by
  obtain ⟨⟨item_id, matter_id, run_id, kind, enqueued, -⟩, -, payload⟩ := Item.unbroken_strings.mp clean.unbroken
  rw [rewritten]
  exact ⟨Item.unbroken_strings.mpr ⟨⟨item_id, matter_id, run_id, kind, enqueued, unbroken_isoformat t⟩, unbroken, payload⟩,
    clean.enqueued, t, rfl⟩

/-- A completed item leaves with its tally. -/
theorem Sound.drop (sound : Sound format trace (front ++ item :: back)) (reset : (tally item.item_id trace).count item.item_id
      event = {})
    (same : ∀ item_id ≠ item.item_id, (tally item_id trace).count item_id event = tally item_id trace) :
    Sound format (trace ++ [event]) (front ++ back) := by
  have still : (front ++ back).Sublist (front ++ item :: back) := (List.sublist_cons_self _ _).append_left _
  refine ⟨fun x mem => sound.clean x (still.subset mem), sound.unique.sublist (still.map _), fun x mem => ?_,
    fun item_id absent => ?_⟩
  · exact (sound.counted x (still.subset mem)).snoc (same _ (others_of_unique sound.unique x mem))
  · rw [tally_snoc]
    by_cases this : item_id = item.item_id
    · rw [this, reset]
    · rw [same item_id this]
      refine sound.gone item_id fun x mem => ?_
      simp only [List.mem_append, List.mem_cons] at mem
      rcases mem with mem | rfl | mem
      · exact absent x (by simp [mem])
      · exact fun other => this other.symm
      · exact absent x (by simp [mem])

/-- The claims of a worker are freed, and no item is counted anew. -/
theorem Sound.freed (sound : Sound format trace items) {worker_id : String}
    (same : ∀ item_id, (tally item_id trace).count item_id event = tally item_id trace) :
    Sound format (trace ++ [event]) (items.map fun item =>
      if item.claimed_by = some worker_id then { item with claimed_by := none, visible_at := EPOCH_ISO } else item) := by
  refine ⟨fun x mem => ?_, ?_, fun x mem => ?_, fun item_id absent => ?_⟩
  · obtain ⟨item, held, rfl⟩ := List.mem_map.mp mem
    split
    · exact (sound.clean item held).rewrite nofun (by rw [epoch_isoformat])
    · exact sound.clean item held
  · have ids : ∀ items : List (Item π), (items.map fun item =>
        if item.claimed_by = some worker_id then { item with claimed_by := none, visible_at := EPOCH_ISO }
        else item).map (·.item_id) = items.map (·.item_id) := by
      intro items
      rw [List.map_map]
      refine List.map_congr_left fun item _ => ?_
      rw [Function.comp_apply]
      split <;> rfl
    rw [ids]
    exact sound.unique
  · obtain ⟨item, held, rfl⟩ := List.mem_map.mp mem
    have counted : Counted (trace ++ [event]) item := (sound.counted item held).snoc (same _)
    split
    · exact ⟨counted.attempts, counted.nonneg, fun claimed => absurd rfl claimed⟩
    · exact counted
  · rw [tally_snoc, same]
    refine sound.gone item_id fun item held => ?_
    have kept := absent _ (List.mem_map_of_mem held)
    split at kept
    · exact kept
    · exact kept

/-- The step keeps the invariant while what it writes has no separator. -/
theorem Does.sound (does : Does items op reply items') (sound : Sound format trace items)
    (unbroken : op.writes_unbroken format items) : Sound format (trace ++ [(op, reply)]) items' := by
  cases does with
  | enqueued fresh => exact sound.add fresh (NewWork.create_clean unbroken) fun _ => rfl
  | ensured fresh => exact sound.add fresh (NewWork.create_clean (unbroken fresh)) fun _ => rfl
  | present => exact sound.keep fun _ => rfl
  | idle none_visible => exact sound.keep fun _ => rfl
  | @claimed front back chosen worker_id now lease_end matter_id visible first =>
    have mem : chosen ∈ front ++ chosen :: back := by simp
    have counted := sound.counted chosen mem
    have one_more : (tally chosen.item_id trace).count chosen.item_id
        (.claim worker_id now lease_end matter_id, some (.item (some (leased worker_id lease_end chosen)))) =
          { tally chosen.item_id trace with claims := (tally chosen.item_id trace).claims + 1 } := if_pos rfl
    refine sound.replace rfl ((sound.clean chosen mem).rewrite ?_ rfl) ⟨?_, ?_, fun _ => ?_⟩ fun item_id other => ?_
    · rintro _ ⟨⟩
      exact unbroken ⟨chosen, mem, visible⟩
    · show chosen.attempts + 1 = _
      rw [tally_snoc, show (leased worker_id lease_end chosen).item_id = chosen.item_id from rfl, one_more, counted.attempts]
      push_cast
      ring
    · show 0 ≤ chosen.attempts + 1
      have := counted.nonneg
      omega
    · show 1 ≤ chosen.attempts + 1
      have := counted.nonneg
      omega
    · exact if_neg fun this => other this.symm
  | not_owner acts none_owned nothing =>
    refine sound.keep fun _ => ?_
    rcases nothing with rfl | rfl
    · cases op <;> rfl
    · cases op <;> rfl
  | @rewritten front back item op mine rewrite acts rewrites own =>
    have mem : item ∈ front ++ item :: back := by simp
    have clean := sound.clean item mem
    have counted := sound.counted item mem
    cases op with
    | heartbeat item_id worker_id lease_end =>
      cases acts
      cases rewrites
      exact sound.replace rfl (clean.rewrite (fun _ => (Item.unbroken_strings.mp clean.unbroken).2.1 _) rfl)
        ⟨(counted.snoc rfl).attempts, counted.nonneg, counted.claimed⟩ fun _ _ => rfl
    | release item_id worker_id visible_at refund_attempt =>
      cases acts
      cases rewrites
      obtain ⟨same, claimed⟩ : item.item_id = item_id ∧ item.claimed_by = some worker_id := by simpa [owned] using own
      have attempted := counted.claimed (by simp [claimed])
      obtain ⟨t, stamp⟩ : ∃ t : DateTime, (released visible_at refund_attempt item).visible_at = t.isoformat := by
        cases visible_at with
        | none => exact ⟨_, epoch_isoformat⟩
        | some t => exact ⟨t, rfl⟩
      refine sound.replace rfl (clean.rewrite (t := t) nofun (by rw [← stamp]; rfl)) ⟨?_, ?_, fun claimed => absurd rfl claimed⟩
        fun other_id other => if_neg fun this => other (this.1.symm.trans same.symm)
      · rw [tally_snoc, show (released visible_at refund_attempt item).item_id = item.item_id from rfl]
        cases refund_attempt with
        | false =>
          have not_counted : (tally item.item_id trace).count item.item_id
              ((.release item_id worker_id visible_at false, some (.done true)) : Event π) = tally item.item_id trace :=
            if_neg fun this => absurd this.2 (by simp)
          rw [not_counted]
          exact counted.attempts
        | true =>
          have one_more : (tally item.item_id trace).count item.item_id
              ((.release item_id worker_id visible_at true, some (.done true)) : Event π) =
                { tally item.item_id trace with refunds := (tally item.item_id trace).refunds + 1 } :=
            if_pos ⟨same.symm, rfl⟩
          have attempts := counted.attempts
          rw [one_more]
          show max 0 (item.attempts - 1) = _
          push_cast
          omega
      · show 0 ≤ if refund_attempt then max 0 (item.attempts - 1) else item.attempts
        split
        · exact le_max_left _ _
        · exact counted.nonneg
    | enqueue | ensure_enqueued | claim | complete | release_all_claimed_by => cases rewrites
  | @completed front back item item_id worker_id own =>
    obtain ⟨same, -⟩ : item.item_id = item_id ∧ item.claimed_by = some worker_id := by simpa [owned] using own
    exact sound.drop (if_pos same.symm) fun other_id other => if_neg fun this => other (this.symm.trans same.symm)
  | freed any => exact sound.freed fun _ => rfl

end

/-! ### Runs -/

/-- What the queue promises of an operation that finds `items` and leaves `items'`. -/
structure Op.Integrity (items items' : List (Item π)) (op : Op π) (reply : Option (Reply π)) : Prop where
  non_owner : ∀ mine, op.acts_on = some mine → (∀ item ∈ items, mine item = false) →
    items' = items ∧ (reply = some (.done false) ∨ reply = some (.freed 0))
  others : ∀ mine, op.acts_on = some mine → ∀ item ∈ items, mine item = false → item ∈ items'
  leaves : ∀ item ∈ items, (∀ item' ∈ items', item'.item_id ≠ item.item_id) →
    ∃ worker_id, op = .complete item.item_id worker_id ∧ item.claimed_by = some worker_id
  claims : ∀ worker_id now lease_end matter_id, op = .claim worker_id now lease_end matter_id →
    (∀ item ∈ items, ¬ item.Visible now matter_id) ∧ reply = some (.item none) ∨
    ∃ chosen ∈ items, reply = some (.item (some (leased worker_id lease_end chosen))) ∧ chosen.Visible now matter_id ∧
      ∀ other ∈ items, other.Visible now matter_id → chosen.First other

section
variable {items items' : List (Item π)} {op : Op π} {reply : Option (Reply π)}

/-- An operation that is on no owned items and keeps every id. -/
theorem Op.Integrity.of_kept (nobody : op.acts_on = none) (kept : ∀ item ∈ items, ∃ item' ∈ items', item'.item_id = item.item_id)
    (claims : ∀ worker_id now lease_end matter_id, op = .claim worker_id now lease_end matter_id →
      (∀ item ∈ items, ¬ item.Visible now matter_id) ∧ reply = some (.item none) ∨
      ∃ chosen ∈ items, reply = some (.item (some (leased worker_id lease_end chosen))) ∧ chosen.Visible now matter_id ∧
        ∀ other ∈ items, other.Visible now matter_id → chosen.First other) : op.Integrity items items' reply where
  non_owner mine acts := by rw [nobody] at acts; cases acts
  others mine acts := by rw [nobody] at acts; cases acts
  leaves item mem absent := by
    obtain ⟨item', mem', same⟩ := kept item mem
    exact absurd same (absent item' mem')
  claims := claims

/-- An operation on owned items that has some to act on. -/
theorem Op.Integrity.of_owned {mine : Item π → Bool} (acts : op.acts_on = some mine) (any : ∃ item ∈ items, mine item = true)
    (others : ∀ item ∈ items, mine item = false → item ∈ items')
    (leaves : ∀ item ∈ items, mine item = true → (∀ item' ∈ items', item'.item_id ≠ item.item_id) →
      ∃ worker_id, op = .complete item.item_id worker_id ∧ item.claimed_by = some worker_id) :
    op.Integrity items items' reply where
  non_owner mine' acts' none_owned := by
    obtain ⟨item, mem, own⟩ := any
    obtain rfl : mine' = mine := Option.some_inj.mp (acts'.symm.trans acts)
    rw [none_owned item mem] at own
    cases own
  others mine' acts' := by
    obtain rfl : mine' = mine := Option.some_inj.mp (acts'.symm.trans acts)
    exact others
  leaves item mem absent := by
    cases own : mine item with
    | true => exact leaves item mem own absent
    | false => exact absurd rfl (absent item (others item mem own))
  claims worker_id now lease_end matter_id is_claim := by
    rw [is_claim] at acts
    cases acts

theorem Does.integrity (does : Does items op reply items') : op.Integrity items items' reply := by
  cases does with
  | enqueued | ensured =>
    exact .of_kept rfl (fun item mem => ⟨item, List.mem_append_left _ mem, rfl⟩) nofun
  | present => exact .of_kept rfl (fun item mem => ⟨item, mem, rfl⟩) nofun
  | idle none_visible =>
    refine .of_kept rfl (fun item mem => ⟨item, mem, rfl⟩) ?_
    rintro _ _ _ _ ⟨⟩
    exact .inl ⟨none_visible, rfl⟩
  | @claimed front back chosen worker_id now lease_end matter_id visible first =>
    refine .of_kept rfl (fun item mem => ?_) ?_
    · simp only [List.mem_append, List.mem_cons] at mem
      rcases mem with mem | rfl | mem
      · exact ⟨item, by simp [mem], rfl⟩
      · exact ⟨leased worker_id lease_end item, by simp, rfl⟩
      · exact ⟨item, by simp [mem], rfl⟩
    · rintro _ _ _ _ ⟨⟩
      exact .inr ⟨chosen, by simp, rfl, visible, first⟩
  | not_owner acts none_owned nothing =>
    refine ⟨fun mine acts' _ => ⟨rfl, ?_⟩, fun _ _ item mem _ => mem, fun item mem absent => absurd rfl (absent item mem), ?_⟩
    · rcases nothing with rfl | rfl
      · exact .inl rfl
      · exact .inr rfl
    · rintro _ _ _ _ rfl
      cases acts
  | @rewritten front back item op mine rewrite acts rewrites own =>
    have kept : ∀ other ∈ front ++ item :: back, other = item ∨ other ∈ front ++ rewrite item :: back := by
      intro other mem
      simp only [List.mem_append, List.mem_cons] at mem ⊢
      tauto
    have same_id : (rewrite item).item_id = item.item_id := by
      cases op <;> cases rewrites <;> rfl
    refine .of_owned acts ⟨item, by simp, own⟩ (fun other mem not_mine => ?_) fun other mem _ absent => ?_
    · rcases kept other mem with rfl | still
      · rw [own] at not_mine
        cases not_mine
      · exact still
    · rcases kept other mem with rfl | still
      · exact absurd same_id (absent (rewrite other) (by simp))
      · exact absurd rfl (absent other still)
  | @completed front back item item_id worker_id own =>
    have kept : ∀ other ∈ front ++ item :: back, other = item ∨ other ∈ front ++ back := by
      intro other mem
      simp only [List.mem_append, List.mem_cons] at mem ⊢
      tauto
    refine .of_owned rfl ⟨item, by simp, own⟩ (fun other mem not_mine => ?_) fun other mem mine absent => ?_
    · rcases kept other mem with rfl | still
      · rw [own] at not_mine
        cases not_mine
      · exact still
    · obtain ⟨rfl, claimed⟩ : other.item_id = item_id ∧ other.claimed_by = some worker_id := by simpa [owned] using mine
      exact ⟨worker_id, rfl, claimed⟩
  | @freed items worker_id count any =>
    obtain ⟨item, mem, claimed⟩ := any
    refine .of_owned rfl ⟨item, mem, by simpa using claimed⟩ (fun other held not_mine => ?_) fun other held _ absent => ?_
    · have not_claimed : other.claimed_by ≠ some worker_id := by simpa using not_mine
      exact List.mem_map.mpr ⟨other, held, if_neg not_claimed⟩
    · have gone := absent _ (List.mem_map_of_mem held)
      split at gone
      · exact absurd rfl gone
      · exact absurd rfl gone

end

variable [DecidableEq π]

/-- What a run whose operations write no separator leaves. -/
theorem reaches_sound (documented : Documented format) {trace : List (Event π)} {file : List Char}
    (reached : Reaches format (fun file op => op.Fresh format file ∧ op.Unbroken format file) trace file) :
    ∃ items, file = write format items ∧ Sound format trace items := by
  induction reached with
  | unused => exact ⟨[], rfl, nofun, List.nodup_nil, nofun, fun _ _ => rfl⟩
  | performed earlier allows ih =>
    obtain ⟨items, rfl, sound⟩ := ih
    obtain ⟨reply, items', result, does⟩ := outcome_does documented sound.clean sound.unique allows.1
    rw [result]
    exact ⟨items', rfl, does.sound sound (allows.2 items (read_write documented sound.clean))⟩

/-- The queue's integrity after a run: the file reads back, with one item an id and attempts that count the claims not
    refunded; and from there an allowed operation leaves a file that reads back and keeps its promise. -/
def Intact (format : Format π) (allowed : List Char → Op π → Prop) (trace : List (Event π)) (file : List Char) : Prop :=
  ∃ items, read format file = .ok items ∧ (items.map (·.item_id)).Nodup ∧
    (∀ item ∈ items, item.attempts = (tally item.item_id trace).claims - (tally item.item_id trace).refunds ∧
      0 ≤ item.attempts) ∧
    ∀ op, allowed file op → ∃ items', read format (outcome format file op).2 = .ok items' ∧
      op.Integrity items items' (outcome format file op).1

/-- Every run whose operations write no character that ends a line for `str.splitlines` alone keeps the queue intact. -/
theorem queue_integrity (documented : Documented format) {trace : List (Event π)} {file : List Char}
    (reached : Reaches format (fun file op => op.Fresh format file ∧ op.Unbroken format file) trace file) :
    Intact format (fun file op => op.Fresh format file ∧ op.Unbroken format file) trace file := by
  obtain ⟨items, rfl, sound⟩ := reaches_sound documented reached
  have reads := read_write documented sound.clean
  refine ⟨items, reads, sound.unique, fun item mem => ⟨(sound.counted item mem).attempts, (sound.counted item mem).nonneg⟩,
    fun op allows => ?_⟩
  obtain ⟨reply, items', result, does⟩ := outcome_does documented sound.clean sound.unique allows.1
  rw [result]
  exact ⟨items', read_write documented (does.sound sound (allows.2 items reads)).clean, does.integrity⟩

end QueueFile

namespace Sample
open QueueFile

def lane_text : Lane → List Char
  | .interactive => "interactive".toList
  | .run => "run".toList

/-- What follows a member's value, up to the next one's. -/
def next (name : String) : List Char := ',' :: '"' :: (name.toList ++ ['"', ':'])

/-- `WorkItem.model_dump_json`, of an item without a payload. -/
def item_json (item : Item Unit) : List Char :=
  "\x7b\"item_id\":".toList ++ (Json.quote item.item_id.toList ++ (next "lane" ++ (Json.quote (lane_text item.lane) ++
    (next "matter_id" ++ (Json.quote item.matter_id.toList ++ (next "run_id" ++ (Json.quote item.run_id.toList ++
    (next "kind" ++ (Json.quote item.kind.toList ++ (next "enqueued_at" ++ (Json.quote item.enqueued_at.toList ++
    (next "visible_at" ++ (Json.quote item.visible_at.toList ++ (next "attempts" ++ (Json.integer item.attempts ++
    (next "claimed_by" ++ ((match item.claimed_by with
      | none => "null".toList
      | some worker_id => Json.quote worker_id.toList) ++ (next "payload" ++ "\x7b\x7d\x7d".toList))))))))))))))))))

def read_quoted (text : List Char) : Option (String × List Char) := do
  let (value, rest) ← Json.read_string (← Json.after ['"'] text)
  return (.ofList value, rest)

def read_lane (text : List Char) : Option (Lane × List Char) := do
  let (value, rest) ← read_quoted text
  if value = "interactive" then some (.interactive, rest) else if value = "run" then some (.run, rest) else none

def read_claimant (text : List Char) : Option (Option String × List Char) :=
  match Json.after "null".toList text with
  | some rest => some (none, rest)
  | none => (read_quoted text).map fun read => (some read.1, read.2)

def read_item (text : List Char) : Option (Item Unit) := do
  let (item_id, rest) ← read_quoted (← Json.after "\x7b\"item_id\":".toList text)
  let (lane, rest) ← read_lane (← Json.after (next "lane") rest)
  let (matter_id, rest) ← read_quoted (← Json.after (next "matter_id") rest)
  let (run_id, rest) ← read_quoted (← Json.after (next "run_id") rest)
  let (kind, rest) ← read_quoted (← Json.after (next "kind") rest)
  let (enqueued_at, rest) ← read_quoted (← Json.after (next "enqueued_at") rest)
  let (visible_at, rest) ← read_quoted (← Json.after (next "visible_at") rest)
  let (attempts, rest) ← Json.read_integer (← Json.after (next "attempts") rest)
  let (claimed_by, rest) ← read_claimant (← Json.after (next "claimed_by") rest)
  let rest ← Json.after (next "payload") rest
  if rest = "\x7b\x7d\x7d".toList then
    some ⟨item_id, lane, matter_id, run_id, kind, enqueued_at, visible_at, attempts, claimed_by, ()⟩
  else none

def queue_format : Format Unit where
  model_dump_json := item_json
  validate_json text := match read_item text with
    | some item => .ok item
    | none => .error (.validation "item")
  payload_strings _ := []

theorem read_quoted_quote (value : String) (rest : List Char) :
    read_quoted (Json.quote value.toList ++ rest) = some (value, rest) := by
  have opened : Json.after ['"'] (Json.quote value.toList ++ rest) = some (Json.escapes value.toList ++ '"' :: rest) := by
    rw [← Json.after_append ['"']]
    simp [Json.quote]
  refine (bind_of opened _).trans ((bind_of (Json.read_string_escapes _ _) _).trans ?_)
  simp

theorem read_lane_quote (lane : Lane) (rest : List Char) :
    read_lane (Json.quote (lane_text lane) ++ rest) = some (lane, rest) := by
  cases lane
  · exact (bind_of (read_quoted_quote "interactive" rest) _).trans rfl
  · exact (bind_of (read_quoted_quote "run" rest) _).trans (by simp)

theorem read_claimant_quote (claimed_by : Option String) (rest : List Char) :
    read_claimant ((match claimed_by with
      | none => "null".toList
      | some worker_id => Json.quote worker_id.toList) ++ rest) = some (claimed_by, rest) := by
  cases claimed_by with
  | none => simp only [read_claimant, Json.after_append]
  | some worker_id =>
    have not_null : Json.after "null".toList (Json.quote worker_id.toList ++ rest) = none := by
      rw [Json.after, if_neg]
      rintro ⟨more, same⟩
      cases same
    simp only [read_claimant, not_null, read_quoted_quote, Option.map_some]

/-- A member's value, past its name, goes on to what reads the rest. -/
theorem read_member {α β : Type} {read : List Char → Option (α × List Char)} {text : List Char} {value : α} {rest : List Char}
    (reads : read text = some (value, rest)) (name : List Char) (more : α × List Char → Option β) :
    (Json.after name (name ++ text) >>= fun text => read text >>= more) = more (value, rest) :=
  (bind_of (Json.after_append name text) _).trans (bind_of reads more)

theorem read_attempts (n : Int) (name : String) (rest : List Char) :
    Json.read_integer (Json.integer n ++ (next name ++ rest)) = some (n, next name ++ rest) :=
  Json.read_integer_integer n (by decide)

theorem read_item_json (item : Item Unit) : read_item (item_json item) = some item := by
  unfold read_item item_json
  refine (read_member (read_quoted_quote _ _) _ _).trans ?_
  refine (read_member (read_lane_quote _ _) _ _).trans ?_
  refine (read_member (read_quoted_quote _ _) _ _).trans ?_
  refine (read_member (read_quoted_quote _ _) _ _).trans ?_
  refine (read_member (read_quoted_quote _ _) _ _).trans ?_
  refine (read_member (read_quoted_quote _ _) _ _).trans ?_
  refine (read_member (read_quoted_quote _ _) _ _).trans ?_
  refine (read_member (read_attempts _ _ _) _ _).trans ?_
  refine (read_member (read_claimant_quote _ _) _ _).trans ?_
  exact (bind_of (Json.after_append _ _) _).trans (if_pos rfl)

/-- No line ends in an item's text but at a character of its strings. -/
theorem item_json_one_line (item : Item Unit) : ∀ c ∈ item_json item, isLineBreak c = true →
    isSeparator c = true ∧ ∃ text ∈ item.strings queue_format, c ∈ text.toList := by
  have printable : ∀ c : Char, 32 ≤ c.toNat → c.toNat < 127 → isLineBreak c = true → False := by
    intro c visible low ends
    have := isSeparator_high ((isLineBreak_high visible).symm.trans ends)
    omega
  have quoted : ∀ text ∈ item.strings queue_format, ∀ c ∈ Json.quote text.toList, isLineBreak c = true →
      isSeparator c = true ∧ ∃ text ∈ item.strings queue_format, c ∈ text.toList := by
    intro text held c mem ends
    obtain ⟨visible, low | here⟩ := Json.mem_quote mem
    · exact (printable c visible low ends).elim
    · exact ⟨(isLineBreak_high visible).symm.trans ends, text, held, here⟩
  have plain : ∀ text : List Char, (∀ c ∈ text, isLineBreak c = false) → ∀ c ∈ text, isLineBreak c = true →
      isSeparator c = true ∧ ∃ text ∈ item.strings queue_format, c ∈ text.toList := by
    intro text unbroken c mem ends
    rw [unbroken c mem] at ends
    cases ends
  have attempts : ∀ c ∈ Json.integer item.attempts, isLineBreak c = false := by
    intro c mem
    obtain ⟨visible, low⟩ := Json.mem_integer mem
    by_contra ends
    exact printable c visible low (by simpa using ends)
  have lane : ∀ c ∈ Json.quote (lane_text item.lane), isLineBreak c = false := by
    cases item.lane <;> decide
  have claimed : ∀ c ∈ (match item.claimed_by with
      | none => "null".toList
      | some worker_id => Json.quote worker_id.toList), isLineBreak c = true →
      isSeparator c = true ∧ ∃ text ∈ item.strings queue_format, c ∈ text.toList := by
    cases claimed : item.claimed_by with
    | none => exact plain _ (by decide)
    | some worker_id => exact quoted worker_id (by simp [Item.strings, claimed])
  unfold item_json
  simp only [List.forall_mem_append]
  refine ⟨plain _ (by decide), quoted _ (by simp [Item.strings]), plain _ (by decide), plain _ lane, plain _ (by decide),
    quoted _ (by simp [Item.strings]), plain _ (by decide), quoted _ (by simp [Item.strings]), plain _ (by decide),
    quoted _ (by simp [Item.strings]), plain _ (by decide), quoted _ (by simp [Item.strings]), plain _ (by decide),
    quoted _ (by simp [Item.strings]), plain _ (by decide), plain _ attempts, plain _ (by decide), claimed,
    plain _ (by decide), plain _ (by decide)⟩

theorem documented_queue_format : Documented queue_format where
  reads_back item := by simp only [queue_format, read_item_json]
  one_line := item_json_one_line
  visible item := ⟨'\x7b', List.mem_append_left _ (by decide), by decide⟩

def noon : DateTime := ⟨2026, 7, 12, 12, 0, 0, 0, by decide⟩
def lease_end : DateTime := ⟨2026, 7, 12, 12, 10, 0, 0, by decide⟩
def turn : NewWork Unit := ⟨"run:acme:r1", .run, "acme", "r1", "run_turn", noon, ()⟩

theorem enqueued_turn_intact :
    Intact queue_format (fun file op => op.Fresh queue_format file ∧ op.Unbroken queue_format file)
      [(.enqueue turn, (outcome queue_format [] (.enqueue turn)).1)] (outcome queue_format [] (.enqueue turn)).2 := by
  refine queue_integrity documented_queue_format (.performed .unused ⟨?_, fun _ _ => show turn.unbroken queue_format = true by decide⟩)
  rintro items ⟨⟩ item mem
  cases mem

/-- The worker id a claim was asked with has a line separator: the item it took is on two lines from then on. -/
theorem separated_worker_breaks :
    ¬ ∀ trace file, Reaches queue_format (fun file op => op.Fresh queue_format file) trace file →
      Intact queue_format (fun file op => op.Fresh queue_format file) trace file := by
  intro claimed
  have enqueued : Reaches queue_format (fun file op => op.Fresh queue_format file) _ _ :=
    @Reaches.performed _ _ _ _ _ _ (.enqueue turn) .unused (by rintro items ⟨⟩ item mem; cases mem)
  obtain ⟨items, reads, -⟩ := claimed _ _ (@Reaches.performed _ _ _ _ _ _ (.claim "w\u2028x" noon lease_end none)
    enqueued trivial)
  have unread : (read queue_format (outcome queue_format (outcome queue_format [] (.enqueue turn)).2
      (.claim "w\u2028x" noon lease_end none)).2).toOption = none := by decide +kernel
  rw [reads] at unread
  cases unread

end Sample

end MootLoop
