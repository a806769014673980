import EventRelay.Text.Utf8

/-!
# Header values

A header value is a line of bytes: no control byte but the tab may stand in it. It is sent as it is;
whoever reads the line drops the blanks around it.
-/

namespace EventRelay.Text

/-- Bytes that a header value may hold. -/
def isHeaderByte (b : UInt8) : Bool := b == 9 || (32 ≤ b && b != 127)

/-- Whether a text can be sent as a header value. -/
def isHeaderValue (s : String) : Bool := (utf8Bytes s).all isHeaderByte

/-- Blanks that are dropped around a header value that is read. -/
def isHeaderBlank (c : Char) : Bool := c = ' ' || c = '\t'

/-- A header value as it is read, without the blanks around it. -/
def trimHeader (s : String) : String :=
  String.ofList (((s.toList.dropWhile isHeaderBlank).reverse.dropWhile isHeaderBlank).reverse)

end EventRelay.Text
