import Mathlib.Data.List.DropRight
import Turnstile.Text.Blank

/-!
# What trimming keeps

A text loses the blanks at both ends and nothing else: a character is kept if it is no
blank, or stands between two that are none.  What is left is trimmed already, and nothing
is left of a text of blanks alone.
-/

namespace Turnstile.Text

section DropWhile

variable {α : Type} {drops : α → Bool} {c : α}

/-- What stands behind something that is kept is kept. -/
theorem dropWhile_append_cons {before : List α}
    (kept : drops c = false ∨ ∃ x ∈ before, drops x = false) (after : List α) :
    (before ++ c :: after).dropWhile drops = before.dropWhile drops ++ c :: after := by
  induction before with
  | nil =>
      rcases kept with kept | ⟨x, member, _⟩
      · simp [kept]
      · cases member
  | cons x rest ih =>
      cases dropped : drops x with
      | false => simp [dropped]
      | true =>
          have kept : drops c = false ∨ ∃ x ∈ rest, drops x = false := by
            refine kept.imp_right ?_
            rintro ⟨y, member, stays⟩
            rcases List.mem_cons.mp member with rfl | later
            · rw [dropped] at stays
              cases stays
            · exact ⟨y, later, stays⟩
          simpa [dropped] using ih kept

/-- Something is kept for itself, or because of what stands before it. -/
theorem exists_of_mem_dropWhile {cs : List α} {before after : List α}
    (split : cs.dropWhile drops = before ++ c :: after) :
    ∃ ahead, cs = ahead ++ before ++ c :: after ∧
      (drops c = false ∨ ∃ x ∈ before, drops x = false) := by
  refine ⟨cs.takeWhile drops, ?_, ?_⟩
  · rw [List.append_assoc, ← split, List.takeWhile_append_dropWhile]
  · have first := List.head_dropWhile_not drops (l := cs) (by simp [split])
    cases before with
    | nil => exact .inl (by simpa [split] using first)
    | cons x rest => exact .inr ⟨x, List.mem_cons_self, by simpa [split] using first⟩

end DropWhile

theorem mem_trimChars_iff {cs : List Char} {c : Char} :
    c ∈ trimChars cs ↔ ∃ before after, cs = before ++ c :: after ∧ (isBlank c = false ∨
      (∃ x ∈ before, isBlank x = false) ∧ ∃ x ∈ after, isBlank x = false) := by
  rw [trimChars, List.mem_reverse]
  constructor
  · intro member
    obtain ⟨behind, ahead, split⟩ := List.append_of_mem member
    obtain ⟨tail, whole, last⟩ := exists_of_mem_dropWhile split
    have turned := congrArg List.reverse whole
    rw [List.reverse_reverse, List.reverse_append, List.reverse_cons, List.append_assoc,
      List.singleton_append] at turned
    obtain ⟨blanks, whole, first⟩ := exists_of_mem_dropWhile turned
    refine ⟨blanks ++ ahead.reverse, (tail ++ behind).reverse, whole, ?_⟩
    rcases first with kept | ⟨x, member, kept⟩
    · exact .inl kept
    · refine last.imp_right fun ⟨y, inside, stays⟩ =>
        ⟨⟨x, List.mem_append_right _ member, kept⟩, y, ?_, stays⟩
      exact List.mem_reverse.mpr (List.mem_append_right _ inside)
  · rintro ⟨before, after, rfl, kept⟩
    rw [dropWhile_append_cons (kept.imp_right And.left), List.reverse_append, List.reverse_cons,
      List.append_assoc, List.singleton_append, dropWhile_append_cons]
    · simp
    · refine kept.imp_right fun ⟨_, x, member, stays⟩ => ⟨x, List.mem_reverse.mpr member, stays⟩

/-! ## Trimmed text -/

theorem trimChars_eq_rdropWhile (cs : List Char) :
    trimChars cs = (cs.dropWhile isBlank).rdropWhile isBlank :=
  rfl

/-- A trimmed text starts with no blank, for what was cut off at its end is not its start. -/
theorem dropWhile_trimChars (cs : List Char) :
    (trimChars cs).dropWhile isBlank = trimChars cs := by
  have start : trimChars cs <+: cs.dropWhile isBlank := List.rdropWhile_prefix _ _
  refine List.dropWhile_eq_self_iff.mpr fun some => ?_
  rw [start.getElem some]
  exact List.dropWhile_get_zero_not _ _ (Nat.lt_of_lt_of_le some start.length_le)

theorem trimChars_trimChars (cs : List Char) : trimChars (trimChars cs) = trimChars cs := by
  rw [trimChars_eq_rdropWhile (trimChars cs), dropWhile_trimChars, trimChars_eq_rdropWhile,
    List.rdropWhile_idempotent]

theorem trimChars_eq_nil_iff {cs : List Char} :
    trimChars cs = [] ↔ ∀ c ∈ cs, isBlank c = true := by
  rw [trimChars_eq_rdropWhile, List.rdropWhile_eq_nil_iff]
  constructor
  · intro blank c member
    rw [← List.takeWhile_append_dropWhile (p := isBlank) (l := cs)] at member
    rcases List.mem_append.mp member with ahead | behind
    · exact List.mem_takeWhile_imp ahead
    · exact blank c behind
  · intro blank c member
    exact blank c ((List.dropWhile_sublist _).subset member)

@[simp] theorem trim_trim (text : String) : trim (trim text) = trim text := by
  simp only [trim, String.toList_ofList, trimChars_trimChars]

theorem trim_eq_empty_iff {text : String} : trim text = "" ↔ isBlankText text = true := by
  rw [trim, String.ofList_eq_empty_iff, trimChars_eq_nil_iff, isBlankText, List.all_eq_true]

end Turnstile.Text
