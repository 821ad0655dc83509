import Turnstile.Proofs.Output.Capture

/-!
# Drains of whole streams

A drain that nothing disturbs runs on until it has to wait.  Once the pipe has
ended it runs to the end of its stream, and has made a line of each piece.
-/

namespace Turnstile.Output.Drain

open Text (Bytes)

variable {cap : Nat} {bytes : Bytes} {drain : Drain} {closed : Prop}

/-! ## Running on -/

/-- What every step keeps holds once the drain has run on. -/
theorem settle_keeps (holds : Drain → Prop)
    (keeps : ∀ {drain next : Drain}, holds drain → drain.step? = some next → holds next)
    {drain : Drain} (start : holds drain) : holds drain.settle := by
  induction drain using settle.induct with
  | case1 drain waits =>
      rw [settle]
      split
      · exact start
      · rename_i next stepped
        rw [waits] at stepped
        cases stepped
  | case2 drain next stepped ih =>
      rw [settle]
      split
      · exact start
      · rename_i other same
        rw [stepped] at same
        cases same
        exact ih (keeps start stepped)

theorem step?_settle (drain : Drain) : drain.settle.step? = none := by
  induction drain using settle.induct with
  | case1 drain waits =>
      rw [settle]
      split
      · assumption
      · rename_i next stepped
        rw [waits] at stepped
        cases stepped
  | case2 drain next stepped ih =>
      rw [settle]
      split
      · assumption
      · rename_i other same
        rw [stepped] at same
        cases same
        exact ih

/-! ## A drain that nothing disturbs -/

/-- The drain has captured `bytes`, was not cut off, and knows whether its pipe has ended. -/
structure Attends (closed : Prop) (cap : Nat) (bytes : Bytes) (drain : Drain) : Prop where
  captures : drain.Captures cap bytes
  intact : drain.IsIntact
  hears : drain.Hears closed

namespace Attends

theorem settle (attends : Attends closed cap bytes drain) :
    Attends closed cap bytes drain.settle :=
  settle_keeps (Attends closed cap bytes)
    (fun attends stepped => ⟨attends.captures.step? stepped, isIntact_of_step? stepped,
      attends.hears.step? stepped⟩) attends

theorem feed (attends : Attends False cap bytes drain) (chunk : Bytes) :
    Attends False cap (bytes ++ chunk) (drain.feed chunk) where
  captures := attends.captures.feed fun ended => (attends.hears.ended_iff.mp ended).elim
  intact := attends.intact.feed chunk
  hears := attends.hears.feed chunk

theorem feedAll (attends : Attends False cap bytes drain) (chunks : List Bytes) :
    Attends False cap (bytes ++ chunks.flatten)
      (chunks.foldl (fun drain chunk => (drain.feed chunk).settle) drain) := by
  induction chunks generalizing bytes drain with
  | nil => exact (List.append_nil bytes).symm ▸ attends
  | cons chunk chunks ih =>
      have rest := ih (attends.feed chunk).settle
      rwa [List.append_assoc, ← List.flatten_cons] at rest

theorem close (attends : Attends False cap bytes drain) : Attends True cap bytes drain.close where
  captures := attends.captures.close
  intact := attends.intact
  hears := .close drain

theorem finished (attends : Attends True cap bytes drain) (rests : drain.step? = none) :
    drain.status = .finished :=
  attends.intact.finished attends.hears trivial rests

end Attends

theorem attends_ofChunks (cap : Nat) (chunks : List Bytes) :
    Attends True cap chunks.flatten (ofChunks cap chunks) :=
  have start : Attends False cap [] (start cap) := ⟨.start cap, .inl rfl, .start cap⟩
  (start.feedAll chunks).close.settle

theorem status_ofChunks (cap : Nat) (chunks : List Bytes) :
    (ofChunks cap chunks).status = .finished :=
  (attends_ofChunks cap chunks).finished (step?_settle _)

theorem given_ofChunks (cap : Nat) (chunks : List Bytes) :
    (ofChunks cap chunks).given.toList = (pieces chunks.flatten).map (Line.ofPiece cap) :=
  (attends_ofChunks cap chunks).captures.given_of_finished (status_ofChunks cap chunks)

theorem stored_ofChunks (cap : Nat) (chunks : List Bytes) :
    (ofChunks cap chunks).stored.toList = lines cap chunks.flatten :=
  ((attends_ofChunks cap chunks).captures.lines_of_finished (status_ofChunks cap chunks)).2

end Turnstile.Output.Drain
