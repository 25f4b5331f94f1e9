import MootLoop.Persistence
import MootLoop.Events

/-! Reading journals from their files: the incremental reader with its cache of parsed prefixes, and the tail
    reader. -/

namespace MootLoop

/-- What reading a journal takes from outside the repository. -/
structure JournalFormat where
  sha256 : FileBytes → Digest
  /-- `_EVENT_ADAPTER.validate_json`. -/
  validate_json : FileBytes → Except Error JournalEvent

def isAsciiSpace (byte : UInt8) : Bool := byte = 32 || (9 ≤ byte && byte ≤ 13)

/-- `bytes.strip`. -/
def strip_bytes (line : FileBytes) : FileBytes :=
  ((line.dropWhile isAsciiSpace).reverse.dropWhile isAsciiSpace).reverse

variable (format : JournalFormat)

/-- The event of a line, none for a blank one. -/
def line_event (line : FileBytes) : Except Error (List JournalEvent) :=
  let stripped := strip_bytes line
  if stripped = [] then .ok [] else do return [← format.validate_json stripped]

/-- The loop both readers run over a chunk: `rest` is what is left of it, `consumed` how much of it the complete lines
    before took. -/
def read_lines (events : List JournalEvent) (consumed : Nat) (rest : FileBytes) :
    Except Error (List JournalEvent × Nat) :=
  match found : rest.findIdx? (· = NEWLINE) with
  | none => .ok (events, consumed)
  | some newline => do
    let here ← line_event format (rest.take (newline + 1))
    read_lines (events ++ here) (consumed + (newline + 1)) (rest.drop (newline + 1))
termination_by rest.length
decreasing_by
  have bound := (List.findIdx?_eq_some_iff_findIdx_eq.mp found).1
  simp only [List.length_drop]
  omega

/-- A parse of a whole file: the events of its newline-terminated lines, in order. -/
def fresh_parse (file : FileBytes) : Except Error (List JournalEvent) := do
  return (← (Lines.complete NEWLINE file).mapM fun line => line_event format (line ++ [NEWLINE])).flatten

/-! ### The incremental reader -/

/-- Journals held in the cache. -/
def MAX_CACHED : Nat := 4

/-- The parsed, newline-terminated prefix of one journal file. -/
structure ParsedPrefix where
  offset : Nat
  events : List JournalEvent
  digest : Digest

/-- `_CACHE`, least recently used first. -/
abbrev JournalCache := List (String × ParsedPrefix)

def JournalCache.pop (cache : JournalCache) (key : String) : JournalCache := cache.filter (·.1 ≠ key)

/-- `_store`. -/
def JournalCache.store (cache : JournalCache) (key : String) (entry : ParsedPrefix) : JournalCache :=
  let moved := cache.pop key ++ [(key, entry)]
  moved.drop (moved.length - MAX_CACHED)

/-- `_prefix_intact`: whether the file still begins with the bytes the prefix was parsed from. -/
def prefix_intact (snapshot : FileBytes) (entry : ParsedPrefix) : Bool :=
  if entry.offset = 0 then true
  else if snapshot.length < entry.offset then false
  else format.sha256 (snapshot.take entry.offset) = entry.digest

/-- `read_events` of the journal at a path, from the bytes the file has now. -/
def read_journal (cache : JournalCache) (key : String) :
    Option FileBytes → Except Error (List JournalEvent) × JournalCache
  | none => (.ok [], cache.pop key)
  | some snapshot =>
    let cached := (cache.lookup key).filter (prefix_intact format snapshot)
    let start := (cached.map (·.offset)).getD 0
    let events := (cached.map (·.events)).getD []
    match read_lines format events 0 (snapshot.drop start) with
    | .error e => (.error e, cache)
    | .ok (events, consumed) =>
      let offset := start + consumed
      (.ok events, cache.store key { offset, events, digest := format.sha256 (snapshot.take offset) })

/-- A sequence of reads, each of some journal with the bytes its file has by then. -/
def read_journals (cache : JournalCache) : List (String × Option FileBytes) → List (Except Error (List JournalEvent))
  | [] => []
  | (key, file) :: calls =>
    let (events, cache) := read_journal format cache key file
    events :: read_journals cache calls

/-! ### The tail reader -/

/-- `tail_events`: the events of the lines completed since an offset, and the offset after them. -/
def tail_events (file : Option FileBytes) (after_offset : Nat) : Except Error (List JournalEvent × Nat) :=
  match file with
  | none => .ok ([], after_offset)
  | some bytes => do
    let (events, consumed) ← read_lines format [] 0 (bytes.drop after_offset)
    return (events, after_offset + consumed)

/-- Tails of a file as it grows, each from the offset the one before returned; their events, one after the other. -/
def follow (after_offset : Nat) : List (Option FileBytes) → Except Error (List JournalEvent)
  | [] => .ok []
  | file :: rest => do
    let (events, offset) ← tail_events format file after_offset
    return events ++ (← follow offset rest)

end MootLoop
