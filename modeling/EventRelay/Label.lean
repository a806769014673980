import EventRelay.EventError
import EventRelay.Text.Utf8
import EventRelay.Json.Decode

/-!
# Labels

A label is a short token without blanks: one to 128 characters, each an ASCII letter, an ASCII
digit or one of `- _ . : /`. A label carries that its text obeys this grammar, so there is no other
way to one than through the check. A text that is refused is quoted in the error by its first 32
characters only, so prose does not reach logs whole.
-/

namespace EventRelay

namespace Label

/-- The greatest length of a label. -/
def maxLength : Nat := 128

/-- How much of a refused text an error shows. -/
def previewLength : Nat := 32

/-- The alphabet of labels. -/
def allowed (c : Char) : Bool :=
  c.isAlphanum || c = '-' || c = '_' || c = '.' || c = ':' || c = '/'

/-- The grammar of labels. -/
def Valid (s : String) : Prop :=
  1 ≤ s.toList.length ∧ s.toList.length ≤ maxLength ∧ ∀ c ∈ s.toList, allowed c

instance (s : String) : Decidable (Valid s) :=
  -- The characters of the text are tried, and not all characters.
  letI : Decidable (∀ c ∈ s.toList, allowed c) := List.decidableBAll _ _
  inferInstanceAs (Decidable (_ ∧ _ ∧ _))

/-- A text with some characters, not too many bytes and no foreign character obeys the grammar. -/
theorem valid_of_checks {s : String} (nonempty : s.toList ≠ [])
    (fits : ¬maxLength < Text.byteLength s.toList) (letters : s.toList.all allowed = true) :
    Valid s :=
  ⟨List.length_pos_iff.mpr nonempty,
    Nat.le_trans (Text.length_le_byteLength s.toList) (Nat.le_of_not_lt fits),
    List.all_eq_true.mp letters⟩

end Label

/-- A classification token. -/
@[ext] structure Label where
  /-- The characters of the token. -/
  text : String
  /-- They obey the grammar. -/
  valid : Label.Valid text
  deriving DecidableEq, Repr

namespace Label

/-- The beginning of a text, as errors show it. -/
def preview (s : String) : String := String.ofList (s.toList.take previewLength)

/-- Checks a text. The length is measured in bytes, and the first failing check is reported. -/
def ofText (s : String) : Except EventError Label :=
  if empty : s.toList = [] then .error (.invalidLabel "" "label cannot be empty")
  else if long : maxLength < Text.byteLength s.toList then
    .error (.invalidLabel (preview s) "label length must be <= 128")
  else if letters : s.toList.all allowed = true then .ok ⟨s, valid_of_checks empty long letters⟩
  else
    .error (.invalidLabel (preview s)
      "label must contain ASCII alphanumeric, dash, underscore, dot, colon, or slash")

/-- The text of a label as a JSON value. -/
def toJson (l : Label) : Json := .ofString l.text

/-- A JSON string whose text is a label. -/
def ofJson? (j : Json) : Option Label := j.toText?.bind fun s => (ofText s).toOption

/-- Labels are ordered by their bytes, which for their alphabet is the order of characters. -/
def atMost (a b : Label) : Bool := !(b.text < a.text)

/-- Labels in order, each once. -/
def sort (ls : List Label) : List Label := (ls.mergeSort atMost).eraseDups

end Label

end EventRelay
