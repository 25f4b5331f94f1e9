import MootLoop.Lib.Lines

/-! Durable JSONL files as bytes: the append that first repairs a torn tail, and what a crash inside it leaves. -/

namespace MootLoop

abbrev FileBytes := List UInt8

def NEWLINE : UInt8 := 10

/-- How much the repair reads at a time. -/
def REPAIR_CHUNK : Nat := 64 * 1024

/-- `bytes.rfind` of one byte. -/
def rfind (byte : UInt8) (chunk : FileBytes) : Option Nat :=
  (chunk.reverse.findIdx? (· = byte)).map fun back => chunk.length - 1 - back

/-- The backward scan of the repair: where the file is truncated, seen from `position`. -/
def truncate_at (file : FileBytes) (position : Nat) : Nat :=
  if h : position = 0 then 0
  else
    let chunk_size := min position REPAIR_CHUNK
    let start := position - chunk_size
    match rfind NEWLINE ((file.drop start).take chunk_size) with
    | some newline => start + newline + 1
    | none => truncate_at file start
termination_by position
decreasing_by
  simp only [REPAIR_CHUNK]
  omega

/-- `_repair_torn_tail`. -/
def repair_torn_tail (file : FileBytes) : FileBytes :=
  if file.getLast? = none ∨ file.getLast? = some NEWLINE then file else file.take (truncate_at file file.length)

/-- `append_fsync_line`, under its exclusive lock on the file; a file that does not exist is created empty. -/
def append_fsync_line (file line : FileBytes) : FileBytes := repair_torn_tail file ++ (line ++ [NEWLINE])

/-- What an append leaves of the file, and whether it returned. A crash leaves the file as it was, or repaired with
    any prefix of what was being written. -/
inductive AppendLeaves (file line : FileBytes) : Bool → FileBytes → Prop
  | returned : AppendLeaves file line true (append_fsync_line file line)
  | untouched : AppendLeaves file line false file
  | torn (written : Nat) : AppendLeaves file line false (repair_torn_tail file ++ (line ++ [NEWLINE]).take written)

/-- A file that a sequence of appends leaves, with which of them returned. -/
inductive Appended {ρ : Type} (encode : ρ → FileBytes) : List (ρ × Bool) → FileBytes → Prop
  | created : Appended encode [] []
  | append {history : List (ρ × Bool)} {file file' : FileBytes} {record : ρ} {returned : Bool}
      (earlier : Appended encode history file) (leaves : AppendLeaves file (encode record) returned file') :
      Appended encode (history ++ [(record, returned)]) file'

end MootLoop
