import Turnstile.Category
import Turnstile.Time

/-!
# Admission limits

How many processes of a category may run at once, and how long each may run.
-/

namespace Turnstile

/-- Limits of one category.  At least one process is always admitted. -/
structure Limits where
  maxConcurrency : Nat
  timeout : Time
  positive : 0 < maxConcurrency

/-- Sixty seconds for each minute, if a word can hold them. -/
def seconds? (minutes : UInt64) : Option UInt64 :=
  if minutes.toNat * 60 < UInt64.size then some (minutes * 60) else none

namespace Limits

@[ext] theorem ext {first second : Limits}
    (concurrency : first.maxConcurrency = second.maxConcurrency)
    (timeout : first.timeout = second.timeout) : first = second := by
  cases first
  cases second
  simp_all

/-- Limits with a concurrency of nothing raised to one. -/
def of (maxConcurrency : Nat) (timeout : Time) : Limits where
  maxConcurrency := max maxConcurrency 1
  timeout := timeout
  positive := by omega

/--
Limits whose time budget is given in minutes.  None stand for minutes whose seconds are too
many for a word: the multiplication panics.
-/
def ofMinutes? (maxConcurrency : Nat) (minutes : UInt64) : Option Limits :=
  (seconds? minutes).map fun seconds => of maxConcurrency (.ofSeconds seconds.toNat)

end Limits

namespace Category

/-- Concurrency and minutes in force when settings leave them unset. -/
def builtIn : Category → Nat × UInt64
  | .libreOffice => (1, 30)
  | .pdfToHtml => (1, 20)
  | .pythonOpencv => (8, 30)
  | .weasyprint => (16, 30)
  | .installApp => (1, 60)
  | .calibre => (1, 30)
  | .imagemagick => (4, 30)
  | .tesseract => (1, 30)
  | .qpdf => (2, 30)
  | .ghostscript => (8, 30)
  | .ocrmypdf => (2, 30)
  | .cffConverter => (1, 5)
  | .ffmpeg => (2, 30)

/-- None of the built-in budgets is too long for the seconds of a word. -/
theorem isSome_ofMinutes?_builtIn (category : Category) :
    (Limits.ofMinutes? category.builtIn.1 category.builtIn.2).isSome := by
  cases category <;> rfl

/-- The built-in limits of a category. -/
def defaultLimits (category : Category) : Limits :=
  (Limits.ofMinutes? category.builtIn.1 category.builtIn.2).get category.isSome_ofMinutes?_builtIn

end Category

end Turnstile
