import Turnstile.Text.Blank

/-!
# Tool categories

The closed set of tool kinds that are admitted under limits of their own.  Each
has a stable hyphenated name; names are read leniently.
-/

namespace Turnstile

/-- A kind of external tool.  Every category owns one admission gate. -/
inductive Category where
  | libreOffice
  | pdfToHtml
  | pythonOpencv
  | weasyprint
  | installApp
  | calibre
  | imagemagick
  | tesseract
  | qpdf
  | ghostscript
  | ocrmypdf
  | cffConverter
  | ffmpeg
  deriving DecidableEq, Repr

namespace Category

/-- Every category, in the order used for listings. -/
def all : List Category :=
  [.libreOffice, .pdfToHtml, .pythonOpencv, .weasyprint, .installApp, .calibre,
    .imagemagick, .tesseract, .qpdf, .ghostscript, .ocrmypdf, .cffConverter, .ffmpeg]

theorem mem_all (category : Category) : category ∈ all := by
  cases category <;> decide

/-- Position in `all`. -/
def index (category : Category) : Nat :=
  all.idxOf category

/-- The stable name used in settings, listings and messages. -/
def name : Category → String
  | .libreOffice => "libre-office"
  | .pdfToHtml => "pdf-to-html"
  | .pythonOpencv => "python-opencv"
  | .weasyprint => "weasyprint"
  | .installApp => "install-app"
  | .calibre => "calibre"
  | .imagemagick => "imagemagick"
  | .tesseract => "tesseract"
  | .qpdf => "qpdf"
  | .ghostscript => "ghostscript"
  | .ocrmypdf => "ocrmypdf"
  | .cffConverter => "cff-converter"
  | .ffmpeg => "ffmpeg"

/-- Whether settings may replace the built-in limits. -/
def isConfigurable : Category → Bool
  | .cffConverter => false
  | _ => true

/-- The category with exactly this name. -/
def ofName? (text : String) : Option Category :=
  all.find? (fun category => category.name == text)

theorem ofName?_name (category : Category) : ofName? category.name = some category := by
  cases category <;> decide

/-- A written name in its stable spelling: trimmed, lower-case, hyphens for underscores. -/
def normalName (text : String) : String :=
  String.ofList ((Text.trimChars text.toList).map fun c =>
    if c = '_' then '-' else c.toLower)

/-- Reads a category name in any letter case, with hyphens or underscores. -/
def read? (text : String) : Option Category :=
  ofName? (normalName text)

/-- What is said of a text that names no category. -/
def unknownMessage (text : String) : String :=
  "Unknown tool category: " ++ text

end Category

end Turnstile
