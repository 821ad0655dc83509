import Turnstile.Output.Drain

/-!
# What a drain does in one step

A drain stores the line it gave away last, reads a chunk, gives a line away, or
ends.  A drain that nothing disturbs ends once it has been told of the end of its
pipe and has taken the steps that are left, and it never ends before.
-/

namespace Turnstile.Output.Drain

open Text (Bytes)

variable {drain next : Drain} {closed : Prop}

/-- What a drain that is reading does in one step. -/
inductive Takes (drain : Drain) : Drain → Prop where
  | stores {text : String} (pending : drain.pending = some text) :
      Takes drain { drain with pending := none, stored := drain.stored.push text }
  | endsLine {chunk after : Bytes} {rest : List Bytes} (clear : drain.pending = none)
      (unread : drain.unread = chunk :: rest) (found : after? chunk = some after) :
      Takes drain
        ({ drain with unread := push after rest }.give
          (drain.begun.add drain.cap (content chunk)))
  | readsOn {chunk : Bytes} {rest : List Bytes} (clear : drain.pending = none)
      (unread : drain.unread = chunk :: rest) (absent : after? chunk = none) :
      Takes drain { drain with unread := rest, draft := some (drain.begun.add drain.cap chunk) }
  | endsLast {draft : Draft} (clear : drain.pending = none) (unread : drain.unread = [])
      (ended : drain.ended = true) (begun : drain.draft = some draft) :
      Takes drain (drain.give draft)
  | finishes (clear : drain.pending = none) (unread : drain.unread = [])
      (ended : drain.ended = true) (begun : drain.draft = none) :
      Takes drain { drain with status := .finished }

theorem reading_of_step? (stepped : drain.step? = some next) : drain.status = .reading := by
  unfold step? at stepped
  split at stepped
  · assumption
  · cases stepped

theorem takes_of_step? (stepped : drain.step? = some next) : drain.Takes next := by
  rw [step?, if_pos (reading_of_step? stepped)] at stepped
  unfold next? at stepped
  split at stepped
  · rename_i text pending
    cases stepped
    exact .stores pending
  · rename_i clear
    split at stepped
    · rename_i chunk rest unread
      split at stepped
      · rename_i after found
        cases stepped
        exact .endsLine clear unread found
      · rename_i absent
        cases stepped
        exact .readsOn clear unread absent
    · rename_i unread
      split at stepped
      · rename_i ended
        split at stepped
        · rename_i draft begun
          cases stepped
          exact .endsLast clear unread ended begun
        · rename_i begun
          cases stepped
          exact .finishes clear unread ended begun
      · cases stepped

/-- What has been given away is not taken back. -/
theorem given_of_step? (stepped : drain.step? = some next) :
    ∃ new : List Line, next.given.toList = drain.given.toList ++ new := by
  cases takes_of_step? stepped with
  | endsLine clear unread found => exact ⟨[_], Array.toList_push⟩
  | endsLast clear unread ended begun => exact ⟨[_], Array.toList_push⟩
  | _ => exact ⟨[], (List.append_nil _).symm⟩

/-! ## What a drain is told -/

/-- What a drain is told takes nothing from what it has captured. -/
structure Told (drain later : Drain) : Prop where
  given : later.given = drain.given
  stored : later.stored = drain.stored
  isOver : drain.isOver = true → later.isOver = true

theorem Told.refl (drain : Drain) : Told drain drain :=
  ⟨rfl, rfl, id⟩

theorem told_feed (drain : Drain) (bytes : Bytes) : Told drain (drain.feed bytes) := by
  unfold feed
  split
  · exact ⟨rfl, rfl, id⟩
  · exact .refl drain

theorem told_close (drain : Drain) : Told drain drain.close :=
  ⟨rfl, rfl, id⟩

theorem told_abort (drain : Drain) : Told drain drain.abort := by
  unfold abort
  split
  · exact ⟨rfl, rfl, fun _ => rfl⟩
  · exact .refl drain

theorem told_lose (drain : Drain) : Told drain drain.lose := by
  unfold lose
  split
  · exact ⟨rfl, rfl, fun _ => rfl⟩
  · exact .refl drain

theorem isOver_abort (drain : Drain) : drain.abort.isOver = true := by
  unfold abort
  split
  · rfl
  · rename_i stopped
    simpa [isOver] using stopped

theorem isOver_lose (drain : Drain) : drain.lose.isOver = true := by
  unfold lose
  split
  · rfl
  · rename_i stopped
    simpa [isOver] using stopped

@[simp] theorem ended_feed (drain : Drain) (bytes : Bytes) :
    (drain.feed bytes).ended = drain.ended := by
  unfold feed
  split <;> rfl

@[simp] theorem ended_abort (drain : Drain) : drain.abort.ended = drain.ended := by
  unfold abort
  split <;> rfl

@[simp] theorem ended_lose (drain : Drain) : drain.lose.ended = drain.ended := by
  unfold lose
  split <;> rfl

/-! ## The end of a drain -/

/-- A drain knows of the end of its pipe what there is to know, and is not over without it. -/
structure Hears (closed : Prop) (drain : Drain) : Prop where
  ended_iff : drain.ended = true ↔ closed
  ended_of_isOver : drain.isOver = true → drain.ended = true

theorem Hears.start (cap : Nat) : Hears False (start cap) :=
  ⟨by simp [Drain.start], nofun⟩

theorem Hears.feed (hears : Hears closed drain) (bytes : Bytes) : Hears closed
    (drain.feed bytes) := by
  unfold Drain.feed
  split
  · exact ⟨hears.ended_iff, hears.ended_of_isOver⟩
  · exact hears

theorem Hears.close (drain : Drain) : Hears True drain.close :=
  ⟨by simp [Drain.close], fun _ => rfl⟩

@[simp] theorem isOver_feed (drain : Drain) (bytes : Bytes) :
    (drain.feed bytes).isOver = drain.isOver := by
  unfold Drain.feed
  split <;> rfl

@[simp] theorem isOver_close (drain : Drain) : drain.close.isOver = drain.isOver :=
  rfl

theorem isOver_of_step? (stepped : drain.step? = some next) : drain.isOver = false := by
  simp [isOver, reading_of_step? stepped]

theorem step?_eq_none_of_isOver (stopped : drain.isOver = true) : drain.step? = none := by
  cases stepped : drain.step? with
  | none => rfl
  | some next =>
      rw [isOver_of_step? stepped] at stopped
      cases stopped

/-- A step hears nothing of the pipe, and is the last only if the pipe has ended. -/
theorem ended_of_step? (stepped : drain.step? = some next) :
    next.ended = drain.ended ∧ (next.isOver = true → drain.ended = true) := by
  have reading := reading_of_step? stepped
  cases takes_of_step? stepped with
  | stores pending => exact ⟨rfl, by simp [isOver, reading]⟩
  | endsLine clear unread found => exact ⟨rfl, by simp [isOver, give, reading]⟩
  | readsOn clear unread absent => exact ⟨rfl, by simp [isOver, reading]⟩
  | endsLast clear unread ended begun => exact ⟨rfl, fun _ => ended⟩
  | finishes clear unread ended begun => exact ⟨rfl, fun _ => ended⟩

theorem Hears.step? (hears : Hears closed drain) (stepped : drain.step? = some next) :
    Hears closed next := by
  obtain ⟨ended, last⟩ := ended_of_step? stepped
  exact ⟨by rw [ended, hears.ended_iff], fun finished => ended.trans (last finished)⟩

/-- A drain that can take no step is over exactly if its pipe has ended. -/
theorem Hears.isOver_iff (hears : Hears closed drain) (rests : drain.step? = none) :
    drain.isOver = true ↔ closed := by
  refine ⟨fun finished => hears.ended_iff.mp (hears.ended_of_isOver finished), ?_⟩
  intro ends
  have ended := hears.ended_iff.mpr ends
  unfold Drain.step? at rests
  split at rests
  · unfold next? at rests
    split at rests
    · cases rests
    · split at rests
      · split at rests <;> cases rests
      · rw [if_pos ended] at rests
        split at rests <;> cases rests
  · rename_i stopped
    simpa [isOver] using stopped

end Turnstile.Output.Drain
