/-!
# Allowlists

The executable names that may be started, kept sorted and without repetition.
-/

namespace Turnstile

/-- Inserts a text into a sorted list that holds each text at most once. -/
def insertText (text : String) : List String → List String
  | [] => [text]
  | head :: rest =>
    if text < head then text :: head :: rest
    else if text = head then head :: rest
    else head :: insertText text rest

theorem mem_insertText {text other : String} {texts : List String} :
    other ∈ insertText text texts ↔ other = text ∨ other ∈ texts := by
  induction texts with
  | nil => simp [insertText]
  | cons head rest ih =>
    unfold insertText
    split
    · simp
    · split
      · rename_i equal
        subst equal
        simp
      · simp only [List.mem_cons, ih]
        grind

/-- A set of executable names. -/
structure Allowlist where
  names : List String
  deriving DecidableEq, Repr

namespace Allowlist

/-- The allowlist with some more names. -/
def insertAll (allowed : Allowlist) (names : List String) : Allowlist :=
  ⟨names.foldl (fun sorted name => insertText name sorted) allowed.names⟩

/-- Exactly these names. -/
def ofNames (names : List String) : Allowlist :=
  insertAll ⟨[]⟩ names

def contains (allowed : Allowlist) (name : String) : Bool :=
  allowed.names.contains name

@[simp] theorem contains_insertAll {allowed : Allowlist} {names : List String} {name : String} :
    (allowed.insertAll names).contains name = true ↔
      name ∈ names ∨ allowed.contains name = true := by
  simp only [contains, insertAll, List.contains_iff_mem]
  induction names generalizing allowed with
  | nil => simp
  | cons head rest ih =>
    have step := @ih ⟨insertText head allowed.names⟩
    simp only [List.foldl_cons, List.mem_cons, mem_insertText] at step ⊢
    grind

/-- The document tools that may be started unless told otherwise. -/
def standard : Allowlist :=
  ofNames ["unoconvert", "soffice", "weasyprint", "ocrmypdf", "qpdf", "tesseract", "gs",
    "ghostscript", "pdftohtml", "python3", "python", "java", "ebook-convert", "ffmpeg",
    "magick", "convert"]

end Allowlist

end Turnstile
