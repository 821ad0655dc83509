import Turnstile.Output.Sink
import Turnstile.Proofs.Output.Reading
import Turnstile.Proofs.Output.Whole

/-!
# Lines that end in a carriage return

A stream is read twice, once as it is and once with a carriage return before each
line feed.  The lines are the same, for one carriage return at the end of a line is
not part of it.  It counts as one of its bytes, though: a line that just fits
without it is one byte too long with it, and is reported as truncated.
-/

namespace Turnstile.Output

open Text (Bytes)

/-- The bytes with a carriage return put before each line feed. -/
def withReturns (bytes : Bytes) : Bytes :=
  bytes.flatMap fun byte => if byte = lineFeed then [carriageReturn, lineFeed] else [byte]

/-- The pieces that a line feed ends. -/
def endedPieces (bytes : Bytes) : List Bytes :=
  (bytes.splitOn lineFeed).dropLast

variable {piece bytes : Bytes} {cap : Nat}

/-! ## The pieces of both streams -/

theorem endedPieces_line (clear : lineFeed ∉ piece) (rest : Bytes) :
    endedPieces (piece ++ lineFeed :: rest) = piece :: endedPieces rest := by
  rw [endedPieces, List.splitOn_append_cons_self_of_not_mem clear,
    List.dropLast_cons_of_ne_nil (List.splitOn_ne_nil lineFeed rest), endedPieces]

theorem endedPieces_of_clear (clear : lineFeed ∉ piece) : endedPieces piece = [] := by
  rw [endedPieces, List.splitOn_eq_singleton clear, List.dropLast_singleton]

theorem withReturns_of_clear (clear : lineFeed ∉ piece) : withReturns piece = piece := by
  induction piece with
  | nil => rfl
  | cons byte piece ih =>
      obtain ⟨other, clear⟩ := not_or.mp (mt List.mem_cons.mpr clear)
      have rest := ih clear
      rw [withReturns] at rest ⊢
      rw [List.flatMap_cons, if_neg (Ne.symm other), rest, List.singleton_append]

theorem withReturns_line (clear : lineFeed ∉ piece) (rest : Bytes) :
    withReturns (piece ++ lineFeed :: rest) =
      (piece ++ [carriageReturn]) ++ lineFeed :: withReturns rest := by
  have same := withReturns_of_clear clear
  rw [withReturns] at same ⊢
  rw [List.flatMap_append, same, List.flatMap_cons, if_pos rfl, List.append_assoc]
  rfl

/-- Each piece that is ended gains a return, and what follows the last one stays as it is. -/
theorem exists_pieces_withReturns (bytes : Bytes) :
    ∃ rest, pieces bytes = endedPieces bytes ++ rest ∧
      pieces (withReturns bytes) = (endedPieces bytes).map (· ++ [carriageReturn]) ++ rest := by
  -- By induction on what comes after the first piece.
  by_cases empty : bytes = []
  · subst empty
    exact ⟨[], by simp [pieces_nil, endedPieces], by simp [withReturns, pieces_nil, endedPieces]⟩
  · obtain ⟨piece, tail, starts⟩ := exists_startsWith empty
    have shorter := starts.length_lt
    obtain ⟨rest, plain, marked⟩ := exists_pieces_withReturns tail
    cases starts with
    | line clear =>
        have closed : lineFeed ∉ piece ++ [carriageReturn] := by
          rw [List.mem_append, not_or]
          exact ⟨clear, by decide⟩
        refine ⟨rest, ?_, ?_⟩
        · rw [pieces_line clear, endedPieces_line clear, plain, List.cons_append]
        · rw [withReturns_line clear, pieces_line closed, endedPieces_line clear, marked,
            List.map_cons, List.cons_append]
    | last clear some =>
        refine ⟨pieces bytes, ?_, ?_⟩
        · rw [endedPieces_of_clear clear, List.nil_append]
        · rw [withReturns_of_clear clear, endedPieces_of_clear clear, List.map_nil,
            List.nil_append]
termination_by bytes.length
decreasing_by exact shorter

theorem endedPieces_subset_pieces (bytes : Bytes) : endedPieces bytes ⊆ pieces bytes := by
  obtain ⟨rest, plain, _⟩ := exists_pieces_withReturns bytes
  exact plain ▸ List.subset_append_left _ rest

/-- The bytes of a piece are bytes of the stream. -/
theorem subset_of_mem_pieces {piece bytes : Bytes} (member : piece ∈ pieces bytes) :
    piece ⊆ bytes := by
  by_cases empty : bytes = []
  · subst empty
    rw [pieces_nil] at member
    exact absurd member List.not_mem_nil
  · obtain ⟨first, tail, starts⟩ := exists_startsWith empty
    have shorter := starts.length_lt
    have ih (member : piece ∈ pieces tail) : piece ⊆ tail := subset_of_mem_pieces member
    rw [pieces_of_startsWith starts] at member
    cases starts with
    | line clear =>
        rcases List.mem_cons.mp member with rfl | member
        · exact List.subset_append_left _ _
        · exact List.subset_append_of_subset_right _
            (List.subset_cons_of_subset _ (ih member))
    | last clear some =>
        rcases List.mem_cons.mp member with rfl | member
        · exact List.Subset.refl _
        · rw [pieces_nil] at member
          exact absurd member List.not_mem_nil
termination_by bytes.length
decreasing_by exact shorter

/-! ## The lines of both streams -/

theorem dropReturn_of_clear (clear : carriageReturn ∉ piece) : dropReturn piece = piece := by
  unfold dropReturn
  split
  · rename_i last
    exact absurd (List.mem_of_getLast? last) clear
  · rfl

/-- A return at the end of a piece is left out of its line, or does not fit in it. -/
theorem lineText_return (cap : Nat) (clear : carriageReturn ∉ piece) :
    lineText cap (piece ++ [carriageReturn]) = lineText cap piece := by
  rcases Nat.lt_or_ge piece.length cap with shorter | full
  · have fits : (piece ++ [carriageReturn]).length ≤ cap := by
      simpa using Nat.succ_le_of_lt shorter
    have marked : dropReturn (piece ++ [carriageReturn]) = piece := by simp [dropReturn]
    rw [lineText, lineText, List.take_of_length_le fits,
      List.take_of_length_le (Nat.le_of_lt shorter), marked, dropReturn_of_clear clear]
  · rw [lineText, lineText, List.take_append_of_le_length full]

/-- The streams have the same lines. -/
theorem lines_withReturns (cap : Nat) (clear : carriageReturn ∉ bytes) :
    lines cap (withReturns bytes) = lines cap bytes := by
  obtain ⟨rest, plain, marked⟩ := exists_pieces_withReturns bytes
  rw [lines, lines, plain, marked, List.map_append, List.map_append, List.map_map]
  congr 1
  refine List.map_congr_left fun piece ended => lineText_return cap fun inside => clear ?_
  exact subset_of_mem_pieces (endedPieces_subset_pieces bytes ended) inside

/-! ## What is warned of -/

/-- How many lines a drain has reported as truncated. -/
def Drain.warnings (live : Bool) (drain : Drain) : Nat :=
  (drain.given.toList.flatMap (Line.log live)).count Line.truncatedWarning

/-- There is one warning for each piece that does not fit. -/
theorem Drain.warnings_eq {drain : Drain} (live : Bool)
    (given : drain.given.toList = (pieces bytes).map (Line.ofPiece cap)) :
    drain.warnings live = (pieces bytes).countP fun piece => cap < piece.length := by
  rw [Drain.warnings, given]
  generalize pieces bytes = all
  induction all with
  | nil => rfl
  | cons piece all ih =>
      have own : (Line.log live (Line.ofPiece cap piece)).count Line.truncatedWarning =
          if cap < piece.length then 1 else 0 := by
        cases live <;> by_cases long : cap < piece.length <;>
          simp [Line.log, Line.ofPiece, long, Line.truncatedWarning, LogLine.warn, LogLine.info]
      rw [List.map_cons, List.flatMap_cons, List.count_append, ih, own, List.countP_cons]
      simp [Nat.add_comm]

/-- With the returns a piece is one byte longer, which shows if it just fitted. -/
theorem countP_long_return (cap : Nat) (all : List Bytes) :
    ((all.map (· ++ [carriageReturn])).countP fun piece => cap < piece.length) =
      (all.countP fun piece => cap < piece.length) + all.countP fun piece => piece.length = cap := by
  induction all with
  | nil => rfl
  | cons piece all ih =>
      simp only [List.map_cons, List.countP_cons, ih, List.length_append, List.length_singleton,
        decide_eq_true_eq]
      split <;> split <;> split <;> omega

/-- What two drains make of a stream, one of which sees it with the returns. -/
structure ReadAlike (cap : Nat) (bytes : Bytes) (plain marked : Drain) : Prop where
  finished : plain.status = .finished ∧ marked.status = .finished
  lines : plain.stored.toList = lines cap bytes ∧ marked.stored.toList = lines cap bytes
  sink : ∀ (program : String) (channel : Channel),
    marked.given.toList.map (SinkLine.ofLine program channel) =
      plain.given.toList.map (SinkLine.ofLine program channel)
  /-- There is one more warning for each line of exactly `cap` bytes that a line feed ends. -/
  warnings : ∀ live : Bool, marked.warnings live =
    plain.warnings live + (endedPieces bytes).countP fun piece => piece.length = cap
  warnings_eq_iff : ∀ live : Bool, marked.warnings live = plain.warnings live ↔
    ∀ piece ∈ endedPieces bytes, piece.length ≠ cap

/--
However a stream without carriage returns is cut, and however it is cut once it has
one before each line feed, its lines are the same and reach the sink alike.
-/
theorem readAlike_ofChunks (cap : Nat) {chunks others : List Bytes}
    (clear : carriageReturn ∉ chunks.flatten) (same : others.flatten = withReturns chunks.flatten) :
    ReadAlike cap chunks.flatten (.ofChunks cap chunks) (.ofChunks cap others) := by
  have given := Drain.given_ofChunks cap chunks
  have marked := Drain.given_ofChunks cap others
  have alike := lines_withReturns cap clear
  rw [same] at marked
  have warnings (live : Bool) : (Drain.ofChunks cap others).warnings live =
      (Drain.ofChunks cap chunks).warnings live +
        (endedPieces chunks.flatten).countP fun piece => piece.length = cap := by
    obtain ⟨rest, plain_pieces, marked_pieces⟩ := exists_pieces_withReturns chunks.flatten
    rw [Drain.warnings_eq live given, Drain.warnings_eq live marked, plain_pieces, marked_pieces,
      List.countP_append, List.countP_append, countP_long_return]
    omega
  constructor
  case finished => exact ⟨Drain.status_ofChunks cap chunks, Drain.status_ofChunks cap others⟩
  case lines =>
    refine ⟨Drain.stored_ofChunks cap chunks, ?_⟩
    rw [Drain.stored_ofChunks, same, alike]
  case sink =>
    intro program channel
    have texts := congrArg (List.map (SinkLine.mk program channel)) alike
    rw [given, marked, List.map_map, List.map_map]
    rwa [lines, lines, List.map_map, List.map_map] at texts
  case warnings => exact warnings
  case warnings_eq_iff =>
    intro live
    rw [warnings live, Nat.add_eq_left, List.countP_eq_zero]
    simp

/-- A return that does not fit, one that is cut from its line feed, and a last line. -/
theorem readAlike_ofChunks_threeLines :
    carriageReturn ∉ ([[97, 98, 10], [99, 10, 100]] : List Bytes).flatten ∧
      ([[97, 98, 13], [10, 99, 13], [10, 100]] : List Bytes).flatten =
        withReturns ([[97, 98, 10], [99, 10, 100]] : List Bytes).flatten ∧
      ReadAlike 2 [97, 98, 10, 99, 10, 100] (.ofChunks 2 [[97, 98, 10], [99, 10, 100]])
        (.ofChunks 2 [[97, 98, 13], [10, 99, 13], [10, 100]]) :=
  have clear : carriageReturn ∉ ([[97, 98, 10], [99, 10, 100]] : List Bytes).flatten := by decide
  have same : ([[97, 98, 13], [10, 99, 13], [10, 100]] : List Bytes).flatten =
    withReturns ([[97, 98, 10], [99, 10, 100]] : List Bytes).flatten := by decide
  ⟨clear, same, readAlike_ofChunks 2 clear same⟩

/-- A line that just fits is reported as truncated once a return stands at its end. -/
theorem fullLine_warned : ∃ (cap : Nat) (bytes : Bytes), carriageReturn ∉ bytes ∧
    (Drain.ofChunks cap [withReturns bytes]).warnings false ≠
      (Drain.ofChunks cap [bytes]).warnings false := by
  refine ⟨4, [97, 98, 99, 100, 10], by decide, ?_⟩
  rw [Drain.warnings_eq false (Drain.given_ofChunks 4 _),
    Drain.warnings_eq false (Drain.given_ofChunks 4 _)]
  decide

end Turnstile.Output
