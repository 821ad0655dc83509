import Turnstile.Proofs.Output.Drain
import Turnstile.Proofs.Output.Lines

/-!
# What a drain has captured

At every moment the lines that a drain has given away and the lines that it is
still to make are all the lines of its stream.  The lines stored are the lines
given away, but for the last one while it is on its way.  A drain that is told to
stop, or fails, keeps what it has.
-/

namespace Turnstile.Output.Drain

open Text (Bytes)

variable {cap : Nat} {bytes : Bytes} {drain next : Drain}

/-! ## A stream and its drain -/

/-- A drain that is reading or has read all, and was not cut off. -/
def IsIntact (drain : Drain) : Prop :=
  drain.status = .reading ∨ drain.status = .finished

theorem IsIntact.feed (intact : drain.IsIntact) (bytes : Bytes) : (drain.feed bytes).IsIntact := by
  unfold Drain.feed
  split <;> exact intact

theorem isIntact_of_step? (stepped : drain.step? = some next) : next.IsIntact := by
  have reading := reading_of_step? stepped
  cases takes_of_step? stepped with
  | finishes clear unread ended begun => exact .inr rfl
  | _ => exact .inl reading

/-- A drain that was not cut off has read all once its pipe has ended and it can take no step. -/
theorem IsIntact.finished {closed : Prop} (intact : drain.IsIntact) (hears : drain.Hears closed)
    (ends : closed) (rests : drain.step? = none) : drain.status = .finished := by
  have stopped := (hears.isOver_iff rests).mpr ends
  refine intact.resolve_left fun reading => ?_
  simp [isOver, reading] at stopped

/-- The lines that a drain makes of `bytes` after the line that it has begun. -/
def toCome (bytes : Bytes) (drain : Drain) : List Line :=
  (drafts drain.cap drain.draft bytes).map Line.ofDraft

/-- What a drain has captured of a stream of which `bytes` have been written so far. -/
structure Captures (cap : Nat) (bytes : Bytes) (drain : Drain) : Prop where
  cap_eq : drain.cap = cap
  full : [] ∉ drain.unread
  stored : drain.given.toList.map Line.text = drain.stored.toList ++ drain.pending.toList
  /-- With whatever is written yet, the lines given away and those to come are all the lines. -/
  reads : ∀ more : Bytes, (drain.ended = true → more = []) →
    ∃ rest, (drafts cap none (bytes ++ more)).map Line.ofDraft = drain.given.toList ++ rest ∧
      (drain.IsIntact → rest = drain.toCome (drain.unread.flatten ++ more))
  finished : drain.status = .finished →
    drain.ended = true ∧ drain.unread = [] ∧ drain.draft = none ∧ drain.pending = none

theorem Captures.start (cap : Nat) : Captures cap [] (start cap) where
  cap_eq := rfl
  full := List.not_mem_nil
  stored := rfl
  reads _ _ := ⟨_, rfl, fun _ => rfl⟩
  finished := nofun

namespace Captures

theorem feed (captures : Captures cap bytes drain) {chunk : Bytes}
    (opened : drain.ended = true → chunk = []) :
    Captures cap (bytes ++ chunk) (drain.feed chunk) := by
  have reads (more : Bytes) (ends : drain.ended = true → more = []) :=
    captures.reads (chunk ++ more) fun ended => by rw [opened ended, ends ended, List.append_nil]
  unfold Drain.feed
  -- A drain that reads no more loses the bytes, and what it gave away stays a prefix.
  split
  case isTrue reading =>
    refine ⟨captures.cap_eq, ?_, captures.stored, fun more ends => ?_, ?_⟩
    · rw [List.mem_append, not_or]
      exact ⟨captures.full, nil_not_mem_push List.not_mem_nil⟩
    · obtain ⟨rest, whole, intact⟩ := reads more ends
      refine ⟨rest, by rwa [List.append_assoc], fun still => ?_⟩
      rw [intact still]
      simp [toCome]
    · intro finished
      rw [reading] at finished
      cases finished
  case isFalse stopped =>
    refine ⟨captures.cap_eq, captures.full, captures.stored, fun more ends => ?_,
      captures.finished⟩
    obtain ⟨rest, whole, intact⟩ := reads more ends
    refine ⟨rest, by rwa [List.append_assoc], fun still => ?_⟩
    obtain ⟨ended, _⟩ := captures.finished (still.resolve_left stopped)
    rw [intact still, opened ended, List.nil_append]

theorem close (captures : Captures cap bytes drain) : Captures cap bytes drain.close where
  cap_eq := captures.cap_eq
  full := captures.full
  stored := captures.stored
  reads more ends := captures.reads more fun _ => ends rfl
  finished done := ⟨rfl, (captures.finished done).2⟩

/-- A drain that stops keeps what it has. -/
theorem stop (captures : Captures cap bytes drain) {status : DrainStatus}
    (cutOff : status = .aborted ∨ status = .lost) :
    Captures cap bytes { drain with status } where
  cap_eq := captures.cap_eq
  full := captures.full
  stored := captures.stored
  reads more ends := by
    obtain ⟨rest, whole, _⟩ := captures.reads more ends
    refine ⟨rest, whole, fun intact => ?_⟩
    rcases cutOff with rfl | rfl <;> rcases intact with still | still <;> cases still
  finished done := by
    subst done
    rcases cutOff with cut | cut <;> cases cut

theorem abort (captures : Captures cap bytes drain) : Captures cap bytes drain.abort := by
  unfold Drain.abort
  split
  · exact captures.stop (.inl rfl)
  · exact captures

theorem lose (captures : Captures cap bytes drain) : Captures cap bytes drain.lose := by
  unfold Drain.lose
  split
  · exact captures.stop (.inr rfl)
  · exact captures

/-- A drain that gives a line away has that line less to make. -/
theorem give (captures : Captures cap bytes drain) (reading : drain.status = .reading)
    (clear : drain.pending = none) {draft : Draft} {unread : List Bytes} (full : [] ∉ unread)
    (made : ∀ more : Bytes, (drain.ended = true → more = []) →
      drain.toCome (drain.unread.flatten ++ more) =
        Line.ofDraft draft :: (drafts drain.cap none (unread.flatten ++ more)).map Line.ofDraft) :
    Captures cap bytes ({ drain with unread }.give draft) where
  cap_eq := captures.cap_eq
  full := full
  stored := by
    have stored := captures.stored
    rw [clear] at stored
    simp only [Drain.give, Array.toList_push, List.map_append, stored]
    simp
  reads more ends := by
    obtain ⟨rest, whole, intact⟩ := captures.reads more ends
    rw [intact (.inl reading), made more ends] at whole
    refine ⟨_, ?_, fun _ => rfl⟩
    rw [whole]
    simp [Drain.give, toCome]
  finished done := by
    change drain.status = .finished at done
    rw [reading] at done
    cases done

theorem step? (captures : Captures cap bytes drain) (stepped : drain.step? = some next) :
    Captures cap bytes next := by
  have reading := reading_of_step? stepped
  have takes := takes_of_step? stepped
  have busy : drain.status ≠ .finished := by simp [reading]
  have chunk_full {chunk : Bytes} {rest : List Bytes} (unread : drain.unread = chunk :: rest) :
      chunk ≠ [] ∧ [] ∉ rest := by
    have full := captures.full
    rw [unread, List.mem_cons, not_or] at full
    exact ⟨Ne.symm full.1, full.2⟩
  cases takes with
  | @stores text pending =>
      refine ⟨captures.cap_eq, captures.full, ?_, captures.reads, fun done => absurd done busy⟩
      have stored := captures.stored
      rw [pending] at stored
      simpa using stored
  | @endsLine chunk after rest clear unread found =>
      refine captures.give reading clear (nil_not_mem_push (chunk_full unread).2) fun more _ => ?_
      have cut := congrArg (· ++ (rest.flatten ++ more)) (after?_eq_some found)
      simp only [List.append_assoc, List.cons_append] at cut
      rw [unread, List.flatten_cons, List.append_assoc, toCome, cut,
        drafts_line _ _ (lineFeed_not_mem_content chunk)]
      simp [begun]
  | @readsOn chunk rest clear unread absent =>
      refine ⟨captures.cap_eq, (chunk_full unread).2, captures.stored, fun more ends => ?_,
        fun done => absurd done busy⟩
      obtain ⟨later, whole, intact⟩ := captures.reads more ends
      refine ⟨later, whole, fun still => ?_⟩
      rw [intact still, unread, List.flatten_cons, List.append_assoc, toCome,
        drafts_append _ _ (lineFeed_not_mem_of_after? absent) (chunk_full unread).1]
      rfl
  | @endsLast draft clear unread ended begun =>
      refine captures.give reading clear captures.full fun more ends => ?_
      rw [unread, ends ended]
      simp [toCome, begun, drafts_nil]
  | finishes clear unread ended begun =>
      refine ⟨captures.cap_eq, captures.full, captures.stored, fun more ends => ?_,
        fun _ => ⟨ended, unread, begun, clear⟩⟩
      obtain ⟨rest, whole, intact⟩ := captures.reads more ends
      exact ⟨rest, whole, fun _ => intact (.inl reading)⟩

/-! ## What has been captured -/

theorem stored_isPrefix (captures : Captures cap bytes drain) :
    drain.stored.toList <+: drain.given.toList.map Line.text :=
  ⟨_, captures.stored.symm⟩

theorem length_given_le (captures : Captures cap bytes drain) :
    drain.given.size ≤ drain.stored.size + 1 := by
  have lengths := congrArg List.length captures.stored
  have pending := Option.length_toList_le (o := drain.pending)
  simp at lengths
  omega

theorem given_isPrefix (captures : Captures cap bytes drain) {more : Bytes}
    (ends : drain.ended = true → more = []) :
    drain.given.toList.map Line.text <+: lines cap (bytes ++ more) := by
  obtain ⟨rest, whole, _⟩ := captures.reads more ends
  rw [← map_text_drafts, whole, List.map_append]
  exact List.prefix_append _ _

/-- A drain that has read all of its stream has given away a line for each piece. -/
theorem given_of_finished (captures : Captures cap bytes drain)
    (finished : drain.status = .finished) :
    drain.given.toList = (pieces bytes).map (Line.ofPiece cap) := by
  obtain ⟨ended, unread, begun, _⟩ := captures.finished finished
  obtain ⟨rest, whole, intact⟩ := captures.reads [] fun _ => rfl
  have none : rest = [] := by
    rw [intact (.inr finished), unread]
    simp [toCome, begun, drafts_nil]
  rw [none, List.append_nil, List.append_nil, map_ofDraft_drafts] at whole
  exact whole.symm

/-- It has given away and stored all of the lines. -/
theorem lines_of_finished (captures : Captures cap bytes drain)
    (finished : drain.status = .finished) :
    drain.given.toList.map Line.text = lines cap bytes ∧
      drain.stored.toList = lines cap bytes := by
  have given : drain.given.toList.map Line.text = lines cap bytes := by
    rw [captures.given_of_finished finished, List.map_map]
    rfl
  have stored := captures.stored
  rw [(captures.finished finished).2.2.2, Option.toList_none, List.append_nil] at stored
  exact ⟨given, stored ▸ given⟩

end Captures

end Turnstile.Output.Drain
