import Turnstile.Output.Line
import Turnstile.Proofs.Text.Utf8

/-!
# The lines of a stream

What the lines of a stream are is said of all its bytes at once: they are the
pieces between line feeds.  A reader that has begun a line and reads on makes the
same lines, wherever the bytes were cut.
-/

namespace Turnstile.Output

open Text (Bytes)

/-- The parts of some bytes between line feeds.  An empty part after the last one is no piece. -/
def pieces (bytes : Bytes) : List Bytes :=
  let parts := bytes.splitOn lineFeed
  if parts.getLast? = some [] then parts.dropLast else parts

/-- What is passed on of a piece: its first `cap` bytes, less one carriage return, as text. -/
def lineText (cap : Nat) (piece : Bytes) : String :=
  Text.decodeLossy (dropReturn (piece.take cap))

/-- The lines of a stream. -/
def lines (cap : Nat) (bytes : Bytes) : List String :=
  (pieces bytes).map (lineText cap)

/-! ## Pieces -/

variable {line chunk after : Bytes}

theorem pieces_nil : pieces [] = [] := by
  simp [pieces]

theorem pieces_line (clear : lineFeed ∉ line) (tail : Bytes) :
    pieces (line ++ lineFeed :: tail) = line :: pieces tail := by
  obtain ⟨first, rest, parts⟩ := List.exists_cons_of_ne_nil (List.splitOn_ne_nil lineFeed tail)
  rw [pieces, List.splitOn_append_cons_self_of_not_mem clear, pieces, parts]
  simp only [List.getLast?_cons_cons, List.dropLast_cons_cons]
  split <;> rfl

theorem splitOn_append (clear : lineFeed ∉ chunk) (tail : Bytes) :
    (chunk ++ tail).splitOn lineFeed = (tail.splitOn lineFeed).modifyHead (chunk ++ ·) := by
  induction chunk with
  | nil => exact (congrFun List.modifyHead_id _).symm
  | cons byte chunk ih =>
      obtain ⟨other, clear⟩ := not_or.mp (mt List.mem_cons.mpr clear)
      rw [List.cons_append, List.splitOn_cons_eq_if_modifyHead, ih clear]
      simp [Ne.symm other, Function.comp_def]

theorem pieces_append (clear : lineFeed ∉ chunk) (full : chunk ≠ []) (tail : Bytes) :
    pieces (chunk ++ tail) = (chunk ++ (pieces tail).headD []) :: (pieces tail).tail := by
  obtain ⟨first, rest, parts⟩ := List.exists_cons_of_ne_nil (List.splitOn_ne_nil lineFeed tail)
  rw [pieces, pieces, splitOn_append clear, parts]
  cases rest with
  | nil => by_cases empty : first = [] <;> simp [full, empty]
  | cons second rest =>
      simp only [List.modifyHead_cons, List.getLast?_cons_cons, List.dropLast_cons_cons]
      split <;> rfl

example : pieces [97, 10, 10, 98, 10] = [[97], [], [98]] := by decide

theorem lineFeed_not_mem_of_mem_splitOn {bytes part : Bytes}
    (member : part ∈ bytes.splitOn lineFeed) : lineFeed ∉ part := by
  induction bytes generalizing part with
  | nil =>
      rw [List.splitOn_nil, List.mem_singleton] at member
      simp [member]
  | cons byte bytes ih =>
      obtain ⟨first, rest, parts⟩ := List.exists_cons_of_ne_nil (List.splitOn_ne_nil lineFeed bytes)
      rw [List.splitOn_cons_eq_if_modifyHead, parts] at member
      rw [parts] at ih
      split at member
      · rcases List.mem_cons.mp member with rfl | member
        · exact List.not_mem_nil
        · exact ih member
      · rename_i other
        rcases List.mem_cons.mp member with rfl | member
        · have different : lineFeed ≠ byte := fun same => other (beq_iff_eq.mpr same.symm)
          exact mt List.mem_cons.mp (not_or.mpr ⟨different, ih List.mem_cons_self⟩)
        · exact ih (List.mem_cons_of_mem _ member)

theorem lineFeed_not_mem_of_mem_pieces {bytes piece : Bytes} (member : piece ∈ pieces bytes) :
    lineFeed ∉ piece := by
  simp only [pieces] at member
  split at member
  · exact lineFeed_not_mem_of_mem_splitOn ((List.dropLast_sublist _).subset member)
  · exact lineFeed_not_mem_of_mem_splitOn member

/-! ## Lines -/

theorem dropReturn_sublist (bytes : Bytes) : (dropReturn bytes).Sublist bytes := by
  unfold dropReturn
  split
  · exact List.dropLast_sublist bytes
  · exact .refl bytes

theorem lineFeed_not_mem_of_mem_lines {cap : Nat} {bytes : Bytes} {text : String}
    (member : text ∈ lines cap bytes) : '\n' ∉ text.toList := by
  obtain ⟨piece, piece_mem, rfl⟩ := List.mem_map.mp member
  intro found
  have kept : lineFeed ∈ dropReturn (piece.take cap) :=
    Text.ofNat_mem_of_mem_decodeLossy (by decide) found
  have taken := (dropReturn_sublist (piece.take cap)).subset kept
  exact lineFeed_not_mem_of_mem_pieces piece_mem (List.mem_of_mem_take taken)

/-- A text cut at its line feeds. -/
def splitLines (text : String) : List String :=
  (text.split '\n').toList.map String.Slice.copy

/-- Lines that are joined can be told apart again. -/
theorem splitLines_intercalate {texts : List String}
    (clear : ∀ text ∈ texts, '\n' ∉ text.toList) (full : texts ≠ []) :
    splitLines ("\n".intercalate texts) = texts := by
  have split := String.toList_split_intercalate clear
  rwa [if_neg full] at split

/-! ## Where a chunk is cut -/

theorem after?_eq_some (found : after? chunk = some after) :
    chunk = content chunk ++ lineFeed :: after := by
  have whole := List.takeWhile_append_dropWhile (p := (· != lineFeed)) (l := chunk)
  unfold after? at found
  split at found
  · cases found
  · rename_i byte rest dropped
    cases found
    have head := List.head_dropWhile_not (· != lineFeed) (l := chunk) (by simp [dropped])
    simp only [dropped, List.head_cons, bne_eq_false_iff_eq] at head
    rw [dropped, head] at whole
    exact whole.symm

theorem lineFeed_not_mem_content (chunk : Bytes) : lineFeed ∉ content chunk := by
  intro member
  have kept := List.all_eq_true.mp List.all_takeWhile lineFeed member
  simp at kept

theorem lineFeed_not_mem_of_after? (absent : after? chunk = none) : lineFeed ∉ chunk := by
  have whole := List.takeWhile_append_dropWhile (p := (· != lineFeed)) (l := chunk)
  unfold after? at absent
  split at absent
  · rename_i dropped
    rw [dropped, List.append_nil] at whole
    exact whole ▸ lineFeed_not_mem_content chunk
  · cases absent

@[simp] theorem flatten_push (chunk : Bytes) (chunks : List Bytes) :
    (push chunk chunks).flatten = chunk ++ chunks.flatten := by
  unfold push
  split <;> simp_all

theorem nil_not_mem_push {chunk : Bytes} {chunks : List Bytes} (full : [] ∉ chunks) :
    [] ∉ push chunk chunks := by
  unfold push
  split
  · exact full
  · rename_i filled
    exact List.not_mem_cons_of_ne_of_not_mem
      (fun same => filled (List.isEmpty_iff.mpr same.symm)) full

/-! ## Drafts -/

namespace Draft

/-- A draft takes two parts of its line as it takes both at once. -/
theorem add_add (cap : Nat) (first second : Bytes) (draft : Draft) :
    (draft.add cap first).add cap second = draft.add cap (first ++ second) := by
  simp only [add, mk.injEq, List.append_assoc, List.length_append, List.length_take,
    List.take_append, Bool.or_assoc]
  constructor
  · congr 3
    omega
  · congr 1
    rw [Bool.eq_iff_iff]
    simp only [Bool.or_eq_true, decide_eq_true_eq]
    omega

end Draft

/-- The drafts of the lines of some bytes, the first of which may have been begun. -/
def drafts (cap : Nat) (begun : Option Draft) (bytes : Bytes) : List Draft :=
  match pieces bytes with
  | [] => begun.toList
  | first :: rest =>
    (begun.getD {}).add cap first :: rest.map fun piece => Draft.add cap piece {}

variable (cap : Nat) (begun : Option Draft)

theorem drafts_nil : drafts cap begun [] = begun.toList := by
  simp [drafts, pieces_nil]

theorem drafts_none (bytes : Bytes) :
    drafts cap none bytes = (pieces bytes).map fun piece => Draft.add cap piece {} := by
  unfold drafts
  split <;> simp [*]

theorem drafts_line (clear : lineFeed ∉ line) (tail : Bytes) :
    drafts cap begun (line ++ lineFeed :: tail) =
      (begun.getD {}).add cap line :: drafts cap none tail := by
  rw [drafts_none]
  simp [drafts, pieces_line clear]

theorem drafts_append (clear : lineFeed ∉ chunk) (full : chunk ≠ []) (tail : Bytes) :
    drafts cap begun (chunk ++ tail) =
      drafts cap (.some ((begun.getD {}).add cap chunk)) tail := by
  unfold drafts
  rw [pieces_append clear full]
  cases pieces tail with
  | nil => simp
  | cons first rest => simp [Draft.add_add]

/-- A piece as it is passed on. -/
def Line.ofPiece (cap : Nat) (piece : Bytes) : Line :=
  ⟨lineText cap piece, decide (cap < piece.length)⟩

/-- A reader that has begun nothing makes a line of each piece. -/
theorem map_ofDraft_drafts (bytes : Bytes) :
    (drafts cap none bytes).map Line.ofDraft = (pieces bytes).map (Line.ofPiece cap) := by
  rw [drafts_none, List.map_map]
  refine List.map_congr_left fun piece _ => ?_
  simp [Line.ofDraft, Line.ofPiece, Draft.add, lineText]

/-- A reader that has begun nothing makes the lines of the stream. -/
theorem map_text_drafts (bytes : Bytes) :
    ((drafts cap none bytes).map Line.ofDraft).map Line.text = lines cap bytes := by
  rw [map_ofDraft_drafts, List.map_map]
  rfl

end Turnstile.Output
