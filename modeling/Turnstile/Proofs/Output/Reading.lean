import Turnstile.Proofs.Output.Lines

/-!
# Reading line by line

One call of the reader takes the first piece of what is left, however the bytes
have been cut into chunks, and keeps as much of it as there is room for.  Called
again and again it takes every piece in turn.
-/

namespace Turnstile.Output

open Text (Bytes)

/-- Some bytes start with a piece, and `rest` comes after it and its line feed. -/
inductive StartsWith (piece : Bytes) : Bytes → Bytes → Prop where
  | line (clear : lineFeed ∉ piece) (rest : Bytes) :
      StartsWith piece (piece ++ lineFeed :: rest) rest
  | last (clear : lineFeed ∉ piece) (some : piece ≠ []) : StartsWith piece piece []

variable {piece rest bytes chunk : Bytes} {cap : Nat} {kept : Bytes} {chunks : List Bytes}

/-! ## The first piece -/

theorem content_append (clear : lineFeed ∉ chunk) (tail : Bytes) :
    content (chunk ++ tail) = chunk ++ content tail := by
  refine List.takeWhile_append_of_pos fun byte member => ?_
  rw [bne_iff_ne]
  rintro rfl
  exact clear member

theorem after?_append (clear : lineFeed ∉ chunk) (tail : Bytes) :
    after? (chunk ++ tail) = after? tail := by
  have dropped : (chunk ++ tail).dropWhile (· != lineFeed) = tail.dropWhile (· != lineFeed) := by
    refine List.dropWhile_append_of_pos fun byte member => ?_
    rw [bne_iff_ne]
    rintro rfl
    exact clear member
  rw [after?, after?, dropped]

theorem StartsWith.content_eq (starts : StartsWith piece bytes rest) : content bytes = piece := by
  cases starts with
  | line clear =>
      rw [content_append clear]
      simp [content]
  | last clear => simpa [content] using content_append clear []

theorem StartsWith.after?_eq (starts : StartsWith piece bytes rest) :
    (after? bytes).getD [] = rest := by
  cases starts with
  | line clear =>
      rw [after?_append clear]
      simp [after?]
  | last clear => simpa [after?] using congrArg (·.getD []) (after?_append clear [])

/-- All bytes but none start with a piece. -/
theorem exists_startsWith (some : bytes ≠ []) : ∃ piece rest, StartsWith piece bytes rest := by
  cases found : after? bytes with
  | some after =>
      refine ⟨content bytes, after, ?_⟩
      have line := StartsWith.line (lineFeed_not_mem_content bytes) after
      rwa [← after?_eq_some found] at line
  | none => exact ⟨bytes, [], .last (lineFeed_not_mem_of_after? found) some⟩

theorem pieces_of_startsWith (starts : StartsWith piece bytes rest) :
    pieces bytes = piece :: pieces rest := by
  cases starts with
  | line clear => exact pieces_line clear rest
  | last clear some => simpa [pieces_nil] using pieces_append clear some []

theorem StartsWith.length_lt (starts : StartsWith piece bytes rest) :
    rest.length < bytes.length := by
  cases starts with
  | line clear =>
      rw [List.length_append, List.length_cons]
      omega
  | last clear some => exact List.length_pos_iff.mpr some

/-- Whether something follows the last line feed. -/
def endsOpen (bytes : Bytes) : Bool :=
  bytes.getLast?.any (· ≠ lineFeed)

/-- There is one piece for each line feed, and one more for what follows the last of them. -/
theorem length_pieces (bytes : Bytes) :
    (pieces bytes).length = bytes.count lineFeed + if endsOpen bytes then 1 else 0 := by
  by_cases empty : bytes = []
  · simp [empty, pieces_nil, endsOpen]
  · obtain ⟨piece, rest, starts⟩ := exists_startsWith empty
    have shorter := starts.length_lt
    rw [pieces_of_startsWith starts, List.length_cons, length_pieces rest]
    cases starts with
    | line clear =>
        have same : endsOpen (piece ++ lineFeed :: rest) = endsOpen rest := by
          cases rest with
          | nil => simp [endsOpen]
          | cons byte rest =>
              rw [endsOpen, endsOpen, List.getLast?_append, List.getLast?_cons_cons,
                List.getLast?_eq_some_getLast (List.cons_ne_nil byte rest), Option.some_or]
        rw [List.count_append, List.count_cons_self, List.count_eq_zero_of_not_mem clear, same]
        omega
    | last clear =>
        have other : bytes.getLast empty ≠ lineFeed := fun same =>
          clear (same ▸ List.getLast_mem empty)
        simp [endsOpen, List.count_eq_zero_of_not_mem clear,
          List.getLast?_eq_some_getLast empty, other]
termination_by bytes.length
decreasing_by exact shorter

/-! ## One call -/

/-- A reader that goes on with a line takes the first piece of what is left. -/
theorem collect_spec (cap : Nat) (full : [] ∉ chunks) (draft : Draft) :
    (collect cap draft chunks).1 = draft.add cap (content chunks.flatten) ∧
      (collect cap draft chunks).2.flatten = (after? chunks.flatten).getD [] ∧
      [] ∉ (collect cap draft chunks).2 := by
  induction chunks generalizing draft with
  | nil => simp [collect, content, after?, Draft.add]
  | cons chunk chunks ih =>
      obtain ⟨some, full⟩ := not_or.mp (mt List.mem_cons.mpr full)
      unfold collect
      split
      · rename_i after found
        have starts : StartsWith (content chunk) (chunk :: chunks).flatten
            (after ++ chunks.flatten) := by
          have line := StartsWith.line (lineFeed_not_mem_content chunk) (after ++ chunks.flatten)
          rwa [← List.cons_append, ← List.append_assoc, ← after?_eq_some found] at line
        refine ⟨?_, ?_, nil_not_mem_push full⟩
        · rw [starts.content_eq]
        · rw [starts.after?_eq, flatten_push]
      · rename_i absent
        have clear := lineFeed_not_mem_of_after? absent
        obtain ⟨line, left, full⟩ := ih full (draft.add cap chunk)
        refine ⟨?_, ?_, full⟩
        · rw [line, Draft.add_add, List.flatten_cons, content_append clear]
        · rw [left, List.flatten_cons, after?_append clear]

theorem flatten_eq_nil_iff (full : [] ∉ chunks) : chunks.flatten = [] ↔ chunks = [] := by
  rw [List.flatten_eq_nil_iff]
  constructor
  · intro empty
    refine List.eq_nil_iff_forall_not_mem.mpr fun chunk member => full ?_
    rwa [empty chunk member] at member
  · rintro rfl
    exact List.forall_mem_nil _

/-- A line of which as much is kept as there is room for behind the bytes already kept. -/
def bounded (cap : Nat) (kept piece : Bytes) : Draft :=
  ⟨kept ++ piece.take (cap - kept.length), decide (cap - kept.length < piece.length)⟩

/-- One call takes the first piece and its line feed. -/
theorem readLine?_of_startsWith (cap : Nat) (kept : Bytes) (full : [] ∉ chunks)
    (starts : StartsWith piece chunks.flatten rest) :
    ∃ left, readLine? cap kept chunks = some (bounded cap kept piece, left) ∧
      left.flatten = rest ∧ [] ∉ left := by
  have some : chunks ≠ [] := by
    rintro rfl
    exact absurd starts.length_lt (Nat.not_lt_zero _)
  obtain ⟨line, left, full⟩ := collect_spec cap full { kept }
  have kept_line : (collect cap { kept } chunks).1 = bounded cap kept piece := by
    rw [line, starts.content_eq]
    simp [Draft.add, bounded]
  refine ⟨(collect cap { kept } chunks).2, ?_, by rw [left, starts.after?_eq], full⟩
  rw [readLine?, if_neg (by simpa using some), ← kept_line]

/-! ## All calls -/

/-- Reading all lines is reading one line again and again. -/
theorem readAll_eq (cap : Nat) (kept : Bytes) (chunks : List Bytes) :
    readAll cap kept chunks =
      match readLine? cap kept chunks with
      | none => []
      | some (line, left) => line :: readAll cap kept left := by
  rw [readAll]
  by_cases none : chunks = [] <;> simp [readLine?, none]

theorem readAll_eq_map (cap : Nat) (kept : Bytes) {chunks : List Bytes} (full : [] ∉ chunks) :
    readAll cap kept chunks = (pieces chunks.flatten).map (bounded cap kept) := by
  rw [readAll_eq]
  by_cases none : chunks = []
  · simp [readLine?, none, pieces_nil]
  · obtain ⟨piece, rest, starts⟩ := exists_startsWith (mt (flatten_eq_nil_iff full).mp none)
    obtain ⟨left, taken, same, full⟩ := readLine?_of_startsWith cap kept full starts
    have shorter := starts.length_lt
    simp only [taken, pieces_of_startsWith starts, List.map_cons, readAll_eq_map cap kept full,
      same]
termination_by chunks.flatten.length
decreasing_by rwa [same]

/-- What reading some chunks line by line comes to, behind some bytes already kept. -/
structure ReadsLines (cap : Nat) (kept : Bytes) (chunks : List Bytes) : Prop where
  /-- A call finds no line exactly if no byte is left. -/
  none_iff : readLine? cap kept chunks = none ↔ chunks.flatten = []
  /-- Otherwise there is a first piece, and the call takes it and its line feed, no more. -/
  takes : chunks.flatten ≠ [] → ∃ piece rest left, StartsWith piece chunks.flatten rest ∧
    readLine? cap kept chunks = some (bounded cap kept piece, left) ∧ left.flatten = rest ∧
      [] ∉ left
  /-- All lines are read by one call after another. -/
  again : readAll cap kept chunks =
    match readLine? cap kept chunks with
    | none => []
    | some (line, left) => line :: readAll cap kept left
  /-- Every piece becomes a line, in order. -/
  all : readAll cap kept chunks = (pieces chunks.flatten).map (bounded cap kept)
  /-- The bytes may have been cut in any other way. -/
  anyCut : ∀ other : List Bytes, [] ∉ other → other.flatten = chunks.flatten →
    readAll cap kept other = readAll cap kept chunks
  /-- There is a line for each line feed, and one more for what follows the last of them. -/
  length : (readAll cap kept chunks).length =
    chunks.flatten.count lineFeed + if endsOpen chunks.flatten then 1 else 0

theorem readsLines (cap : Nat) (kept : Bytes) (full : [] ∉ chunks) :
    ReadsLines cap kept chunks where
  none_iff := by
    rw [flatten_eq_nil_iff full]
    by_cases none : chunks = [] <;> simp [readLine?, none]
  takes some := by
    obtain ⟨piece, rest, starts⟩ := exists_startsWith some
    obtain ⟨left, taken, same, full⟩ := readLine?_of_startsWith cap kept full starts
    exact ⟨piece, rest, left, starts, taken, same, full⟩
  again := readAll_eq cap kept chunks
  all := readAll_eq_map cap kept full
  anyCut other filled same := by
    rw [readAll_eq_map cap kept filled, readAll_eq_map cap kept full, same]
  length := by rw [readAll_eq_map cap kept full, List.length_map, length_pieces]

/-- A line feed at the end of one chunk, and the room used up at the end of another. -/
theorem readsLines_threeChunks : [] ∉ ([[97, 10], [98, 99], [100, 13, 10]] : List Bytes) ∧
    ReadsLines 3 [120] [[97, 10], [98, 99], [100, 13, 10]] :=
  have full : [] ∉ ([[97, 10], [98, 99], [100, 13, 10]] : List Bytes) := by decide
  ⟨full, readsLines 3 [120] full⟩

end Turnstile.Output
