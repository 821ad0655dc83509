import Turnstile.Log
import Turnstile.Text.Utf8

/-!
# Bounded lines

A stream of bytes arrives in chunks and is read line by line.  A line ends at a
line feed or at the end of the stream.  At most a given number of bytes of it is
kept; the rest is read and dropped.
-/

namespace Turnstile.Output

open Text (Bytes)

def lineFeed : UInt8 := 10

def carriageReturn : UInt8 := 13

/-- The bytes before the first line feed. -/
def content (bytes : Bytes) : Bytes :=
  bytes.takeWhile (· != lineFeed)

/-- The bytes after the first line feed, if there is one. -/
def after? (bytes : Bytes) : Option Bytes :=
  match bytes.dropWhile (· != lineFeed) with
  | [] => none
  | _ :: rest => some rest

theorem length_after?_lt {bytes rest : Bytes} (found : after? bytes = some rest) :
    rest.length < bytes.length := by
  have shorter := (List.dropWhile_sublist (· != lineFeed) (l := bytes)).length_le
  unfold after? at found
  split at found
  · simp at found
  · rename_i split
    rw [split, List.length_cons] at shorter
    injection found with same
    rw [← same]
    omega

/-- A line being collected: the bytes kept so far, and whether any had to be left out. -/
structure Draft where
  kept : Bytes := []
  truncated : Bool := false
  deriving DecidableEq, Repr

namespace Draft

/-- The draft with more bytes of its line, of which only those that fit under `cap` are kept. -/
def add (cap : Nat) (bytes : Bytes) (draft : Draft) : Draft :=
  let room := cap - draft.kept.length
  ⟨draft.kept ++ bytes.take room, draft.truncated || decide (room < bytes.length)⟩

end Draft

/-! ## Reading from chunks -/

/-- The chunks with `bytes` in front, if there are any. -/
def push (bytes : Bytes) (chunks : List Bytes) : List Bytes :=
  if bytes.isEmpty then chunks else bytes :: chunks

/-- Adds one line from the front of the chunks to a draft, and returns the chunks left. -/
def collect (cap : Nat) (draft : Draft) : List Bytes → Draft × List Bytes
  | [] => (draft, [])
  | chunk :: rest =>
    match after? chunk with
    | some after => (draft.add cap (content chunk), push after rest)
    | none => collect cap (draft.add cap chunk) rest

/-- One line from the front of the chunks, collected after bytes already kept; none at the end. -/
def readLine? (cap : Nat) (kept : Bytes) (chunks : List Bytes) : Option (Draft × List Bytes) :=
  if chunks.isEmpty then none else some (collect cap { kept } chunks)

/-- Bytes and chunks still to read. -/
def extent (chunks : List Bytes) : Nat :=
  chunks.flatten.length + chunks.length

@[simp] theorem extent_nil : extent [] = 0 := rfl

@[simp] theorem extent_cons (chunk : Bytes) (rest : List Bytes) :
    extent (chunk :: rest) = chunk.length + extent rest + 1 := by
  simp [extent]
  omega

theorem extent_push_le (bytes : Bytes) (chunks : List Bytes) :
    extent (push bytes chunks) ≤ bytes.length + extent chunks + 1 := by
  unfold push
  split
  · omega
  · simp

theorem extent_collect_lt (cap : Nat) (draft : Draft) {chunks : List Bytes}
    (some : chunks ≠ []) : extent (collect cap draft chunks).2 < extent chunks := by
  induction chunks generalizing draft with
  | nil => exact absurd rfl some
  | cons chunk rest ih =>
    unfold collect
    split
    · rename_i after found
      have shorter := length_after?_lt found
      have bound := extent_push_le after rest
      simp only [extent_cons]
      omega
    · by_cases last : rest = []
      · subst last
        simp [collect]
      · have smaller := ih (draft.add cap chunk) last
        simp only [extent_cons]
        omega

/-- The drafts of all lines, each collected after the same bytes already kept. -/
def readAll (cap : Nat) (kept : Bytes) (chunks : List Bytes) : List Draft :=
  if none : chunks = [] then []
  else
    let line := collect cap { kept } chunks
    have := extent_collect_lt cap { kept } none
    line.1 :: readAll cap kept line.2
termination_by extent chunks

/-- The bytes cut into chunks of `size`, the last of which may be shorter. -/
def cut (size : Nat) (bytes : Bytes) : List Bytes :=
  if bytes.isEmpty then []
  else bytes.take (size - 1 + 1) :: cut size (bytes.drop (size - 1 + 1))
termination_by bytes.length
decreasing_by
  have := List.length_pos_iff.2 (fun none => by simp_all : bytes ≠ [])
  simp only [List.length_drop]
  omega

/-! ## Finished lines -/

/-- The bytes without one carriage return at their end. -/
def dropReturn (bytes : Bytes) : Bytes :=
  if bytes.getLast? = some carriageReturn then bytes.dropLast else bytes

/-- A line as it is passed on. -/
structure Line where
  text : String
  truncated : Bool
  deriving DecidableEq, Repr

namespace Line

/-- A finished draft as text: one carriage return at its end is not part of the line. -/
def ofDraft (draft : Draft) : Line :=
  ⟨Text.decodeLossy (dropReturn draft.kept), draft.truncated⟩

def truncatedWarning : LogLine :=
  .warn "Output line exceeded limit and was truncated"

/-- What is logged when the line arrives. -/
def log (live : Bool) (line : Line) : List LogLine :=
  (if line.truncated then [truncatedWarning] else []) ++
    (if live then [.info line.text] else [])

end Line

end Turnstile.Output
