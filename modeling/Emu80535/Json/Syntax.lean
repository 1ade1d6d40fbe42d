import Emu80535.Core.State
import Emu80535.Lib.JsonGrammar

/-! The syntax check of the JSON parser, with every read of the text checked against its length. -/

namespace Emu80535

open JsonGrammar Recogniser

/-- `strchr`, which also finds the terminator of the string it searches. -/
def strchr (chars : List Byte) (c : Byte) : Bool := c == 0#8 || chars.contains c

/-! ### Primitives -/

/-- The three names `json_primitive_valid` compares with. -/
def literals : List (List Byte) :=
  [asciis ['t', 'r', 'u', 'e'], asciis ['f', 'a', 'l', 's', 'e'], asciis ['n', 'u', 'l', 'l']]

section Number

variable (text : List Byte)

/-- At least one digit, and all that follow. -/
def numberDigits : Recogniser := (next text isDigit).andThen (skip text isDigit)

/-- The integer part: a zero, or digits that begin with another one. -/
def numberInteger : Recogniser :=
  byNext text fun c =>
    -- A zero stands alone.
    if c == ascii '0' then next text fun _ => true
    else if c < ascii '1' || ascii '9' < c then fail
    else (next text fun _ => true).andThen (skip text isDigit)

/-- The exponent behind its letter. -/
def numberExponent : Recogniser :=
  (whenNext text (fun c => c == ascii '+' || c == ascii '-') pass).andThen (numberDigits text)

/-- The stages of `json_number`, each of which may stop it. -/
def numberStages : Recogniser :=
  -- The sign, the integer part, the fraction and the exponent.
  (whenNext text (· == ascii '-') pass).andThen
    ((numberInteger text).andThen
      ((whenNext text (· == ascii '.') (numberDigits text)).andThen
        (whenNext text (fun c => c == ascii 'e' || c == ascii 'E') (numberExponent text))))

/-- `json_number`. -/
def jsonNumber : Option Bool :=
  (numberStages text 0).map fun done => done.1 && done.2 == text.length

/-- `json_primitive_valid`. -/
def jsonPrimitiveValid : Option Bool := if text ∈ literals then some true else jsonNumber text

end Number

/-! ### Values -/

section Value

variable (text : List Byte)

/-- `syntax_space`. -/
def syntaxSpace : Recogniser := skip text (strchr (asciis [' ', '\t', '\r', '\n']))

/-- What has to follow a character of a string that is not its end. -/
def syntaxCharacter (value : Byte) : Recogniser :=
  -- Control characters must be escaped.
  if value < 0x20#8 then fail
  else if value == backslash then
    byNext text fun c =>
      if c == ascii 'u' then
        -- Four digits behind `u`.
        (next text fun _ => true).andThen ((next text isHex).times 4)
      else
        next text (strchr (quote :: backslash :: asciis ['/', 'b', 'f', 'n', 'r', 't']))
  else pass

/-- `syntax_string`. -/
def syntaxString : Recogniser :=
  (next text (· == quote)).andThen
    (units text (· == quote) (syntaxCharacter text) (text.length + 1))

/-- The shape `syntax_array` and `syntax_object` share, behind the bracket that opens them. -/
def syntaxItems (close : Byte) (item : Recogniser) : Recogniser :=
  (next text fun _ => true).andThen
    ((syntaxSpace text).andThen
      (unlessNext text (· == close)
        (items text (· == close) (· == ascii ',') (item.andThen (syntaxSpace text))
          (syntaxSpace text) (text.length + 1))))

/-- `syntax_array`, over what checks its elements. -/
def syntaxArray (value : Recogniser) : Recogniser := syntaxItems text arrayClose value

/-- `syntax_object`, over what checks the values of its members. -/
def syntaxObject (value : Recogniser) : Recogniser :=
  syntaxItems text objectClose
    ((syntaxString text).andThen
      ((syntaxSpace text).andThen
        ((next text (· == ascii ':')).andThen ((syntaxSpace text).andThen value))))

/-- The last branch of `syntax_value`: everything up to a delimiter has to be a primitive. -/
def syntaxPrimitive : Recogniser := fun start =>
  (skip text (fun c => !strchr (asciis [' ', '\t', '\r', '\n', ',', ']'] ++ [objectClose]) c)
    start).bind fun done =>
      -- There must be something before the delimiter.
      if done.2 = start then some (false, done.2)
      else
        (jsonPrimitiveValid ((text.drop start).take (done.2 - start))).map fun valid =>
          (valid, done.2)

/--
`syntax_value`, over the levels that the depth counter leaves below 64.

The source counts up on entry and down on the way out.
-/
def syntaxValue : Nat → Recogniser
  | 0 => fail
  | levels + 1 => byNext text fun c =>
    -- The first byte decides what the value is.
    if c == objectOpen then syntaxObject text (syntaxValue levels)
    else if c == arrayOpen then syntaxArray text (syntaxValue levels)
    else if c == quote then syntaxString text
    else syntaxPrimitive text

/-- `json_syntax_valid`, with no answer where it reads past the end or loops for too long. -/
def jsonSyntaxValid : Option Bool :=
  ((syntaxSpace text).andThen ((syntaxValue text 64).andThen (syntaxSpace text)) 0).map
    fun done => done.1 && done.2 == text.length

end Value

end Emu80535
