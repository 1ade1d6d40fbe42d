import Emu80535.Core.State

/-! The bounded text that JSON is written into. -/

namespace Emu80535

/-- The bytes of a text of the source. -/
def asciiText (s : String) : List Byte := s.toByteArray.data.toList.map UInt8.toBitVec

/-- `%u` and `PRIu64`. -/
def decimal (n : Nat) : List Byte := asciiText (toString n)

/-- `MAX_RECORD_BYTES`. -/
def maxRecordBytes : Nat := 65536

/-- `struct output`: what has been written, unless it has failed. -/
abbrev Output := Option (List Byte)

namespace Output

/-- `output_raw`, and `output_format` with its directives replaced. -/
def raw (text : List Byte) (o : Output) : Output :=
  o.bind fun data =>
    -- Past its limit the output fails, and stays so.
    if maxRecordBytes < data.length + text.length then none else some (data ++ text)

/-- The digit that `output_string` writes for half a byte. -/
def hexDigit (n : Nat) : Byte := BitVec.ofNat 8 (if n < 10 then 0x30 + n else 0x57 + n)

/-- What `output_string` writes for a byte. -/
def escaped (c : Byte) : List Byte :=
  if c = 0x22#8 then [0x5C#8, 0x22#8]
  else if c = 0x5C#8 then [0x5C#8, 0x5C#8]
  else if c = 0x08#8 then asciiText "\\b"
  else if c = 0x0C#8 then asciiText "\\f"
  else if c = 0x0A#8 then asciiText "\\n"
  else if c = 0x0D#8 then asciiText "\\r"
  else if c = 0x09#8 then asciiText "\\t"
  -- The other control characters are written as a code point.
  else if c < 0x20#8 then
    asciiText "\\u00" ++ [hexDigit (c.toNat / 16), hexDigit (c.toNat % 16)]
  else [c]

/-- A text in quotes, up to its terminator. -/
def quoted (text : List Byte) : List Byte :=
  0x22#8 :: ((text.takeWhile (· != 0#8)).flatMap escaped ++ [0x22#8])

/-- `output_string`: its calls of `output_raw` all fit if what they write together fits. -/
def string (text : List Byte) (o : Output) : Output := raw (quoted text) o

end Output

end Emu80535
