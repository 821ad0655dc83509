import Turnstile.Output.Line

/-!
# Drains

A drain empties one output pipe of a process.  It reads a line, gives it to a
sink, and then stores it, one small step at a time, so that it can be cut off
between any two of them.  Lines stored before it was cut off remain.
-/

namespace Turnstile.Output

open Text (Bytes)

/-- How far a drain has come. -/
inductive DrainStatus where
  | reading
  /-- The end of the stream was reached. -/
  | finished
  /-- Reading failed, or the sink did. -/
  | lost
  /-- Told to stop. -/
  | aborted
  deriving DecidableEq, Repr

structure Drain where
  cap : Nat
  /-- Chunks that have arrived and are not read. -/
  unread : List Bytes := []
  /-- Nothing more will arrive. -/
  ended : Bool := false
  /-- The line that has been begun. -/
  draft : Option Draft := none
  /-- Lines given to the sink, in order. -/
  given : Array Line := #[]
  /-- The line given to the sink last, while it is not stored. -/
  pending : Option String := none
  /-- Texts of the lines stored, in order. -/
  stored : Array String := #[]
  status : DrainStatus := .reading
  deriving DecidableEq, Repr

namespace Drain

/-- A chunk arrives.  It is lost on a drain that reads no more. -/
def feed (bytes : Bytes) (drain : Drain) : Drain :=
  if drain.status = .reading then { drain with unread := drain.unread ++ push bytes [] } else drain

/-- The stream ends. -/
def close (drain : Drain) : Drain :=
  { drain with ended := true }

/-- Tells the drain to stop. -/
def abort (drain : Drain) : Drain :=
  if drain.status = .reading then { drain with status := .aborted } else drain

/-- Reading fails, or the sink does, and the drain ends. -/
def lose (drain : Drain) : Drain :=
  if drain.status = .reading then { drain with status := .lost } else drain

/-- The line begun, or a new one. -/
def begun (drain : Drain) : Draft :=
  drain.draft.getD {}

/-- Gives a finished line to the sink. -/
def give (draft : Draft) (drain : Drain) : Drain :=
  let line := Line.ofDraft draft
  { drain with
    draft := none
    given := drain.given.push line
    pending := some line.text }

/-- The next step of a drain that is reading: none if it has to wait. -/
def next? (drain : Drain) : Option Drain :=
  match drain.pending with
  | some text => some { drain with pending := none, stored := drain.stored.push text }
  | none =>
    match drain.unread with
    | chunk :: rest =>
      match after? chunk with
      | some after =>
        some ({ drain with unread := push after rest }.give (drain.begun.add drain.cap (content chunk)))
      | none =>
        some { drain with unread := rest, draft := some (drain.begun.add drain.cap chunk) }
    | [] =>
      if drain.ended then
        match drain.draft with
        | some draft => some (drain.give draft)
        | none => some { drain with status := .finished }
      else none

/-- One step: none if the drain has to wait or is over. -/
def step? (drain : Drain) : Option Drain :=
  if drain.status = .reading then drain.next? else none

/-- Bounds the steps that a drain can take before it has to wait. -/
def weight (drain : Drain) : Nat :=
  3 * extent drain.unread + (if drain.draft.isSome then 2 else 0) +
    (if drain.pending.isSome then 1 else 0) + (if drain.status = .reading then 1 else 0)

theorem weight_step?_lt {drain next : Drain} (stepped : drain.step? = some next) :
    next.weight < drain.weight := by
  unfold step? at stepped
  split at stepped
  case isFalse => simp at stepped
  case isTrue reading =>
    unfold next? at stepped
    split at stepped
    · rename_i text pending
      injection stepped with stepped
      subst stepped
      simp [weight, pending]
    · rename_i pending
      split at stepped
      · rename_i chunk rest unread
        split at stepped
        · rename_i after found
          injection stepped with stepped
          subst stepped
          have shorter := length_after?_lt found
          have bound := extent_push_le after rest
          simp only [weight, give, pending, unread, extent_cons, reading]
          simp
          omega
        · injection stepped with stepped
          subst stepped
          simp only [weight, pending, unread, extent_cons, reading]
          simp
          omega
      · rename_i unread
        split at stepped
        · split at stepped
          · rename_i draft begun
            injection stepped with stepped
            subst stepped
            simp [weight, give, pending, begun, unread]
          · rename_i none
            injection stepped with stepped
            subst stepped
            simp [weight, pending, none, reading]
        · simp at stepped

/-- Steps until the drain has to wait or is over. -/
def settle (drain : Drain) : Drain :=
  match _taken : drain.step? with
  | none => drain
  | some next => settle next
termination_by drain.weight
decreasing_by exact weight_step?_lt _taken

/-- Whether the drain has come to an end, in whatever way. -/
def isOver (drain : Drain) : Bool :=
  drain.status != .reading

/-- A drain before anything has arrived. -/
def start (cap : Nat) : Drain where
  cap := cap

/-- A drain after the whole of a stream that arrives in chunks. -/
def ofChunks (cap : Nat) (chunks : List Bytes) : Drain :=
  (chunks.foldl (fun drain chunk => (drain.feed chunk).settle) (start cap)).close.settle

end Drain

end Turnstile.Output
