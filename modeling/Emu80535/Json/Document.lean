import Emu80535.Json.Syntax
import Emu80535.Json.Utf8
import Emu80535.Json.Output

/-! JSON documents: the tokens of a text, and what is read from them. -/

namespace Emu80535

open JsonGrammar Recogniser

/-- `enum json_type`. -/
inductive JsonType
  | undefined
  | object
  | array
  | string
  | primitive
  deriving DecidableEq, Repr

/-- `struct json_token`, with `stop` for its `end`. -/
structure JsonToken where
  type : JsonType
  start : Int
  stop : Int
  size : Int
  parent : Int
  deriving DecidableEq, Repr

/-- `struct json_parser`, with the tokens that have been allocated. -/
structure JsonParser where
  position : Nat
  tokens : List JsonToken
  parent : Int

/-- The two ways for `json_parse` to fail, which returns -1 or -2. -/
inductive JsonFault
  | malformed
  | full
  deriving DecidableEq, Repr

/-! ### Tokens -/

section Parse

variable (text : List Byte) (capacity : Nat)

/-- `json_allocate`, with the token as its caller fills it in. -/
def jsonAllocate (token : JsonToken) (tokens : List JsonToken) : Option (List JsonToken) :=
  if capacity ≤ tokens.length then none else some (tokens ++ [token])

/-- One more child for the container that is open, if one is. -/
def jsonAddChild (parent : Int) (tokens : List JsonToken) : Option (List JsonToken) :=
  -- A token at the top has no container to count it.
  if 0 ≤ parent then
    tokens[parent.toNat]?.map fun token =>
      tokens.set parent.toNat { token with size := token.size + 1 }
  else some tokens

/-- A token of a parser, allocated and counted as a child. -/
def jsonAppend (token : JsonToken) (parser : JsonParser) :
    Option (Except JsonFault JsonParser) :=
  -- Without room the parser stops with a fault of its own.
  match jsonAllocate capacity token parser.tokens with
  | none => some (.error .full)
  | some tokens =>
    (jsonAddChild parser.parent tokens).map fun tokens => .ok { parser with tokens }

/-- The four digits behind `\u`, from the position in front of them to the last of them. -/
def jsonHexDigits : Nat → Nat → Option (Except JsonFault Nat)
  | 0, i => some (.ok i)
  -- A digit may be missing, or be no digit.
  | hex + 1, i =>
    if text.length ≤ i + 1 then some (.error .malformed)
    else
      text[i + 1]?.bind fun digit =>
        if isHex digit then jsonHexDigits hex (i + 1) else some (.error .malformed)

/-- The loop of `json_parse_string` up to the closing quotation mark, in so many rounds. -/
def jsonStringEnd : Nat → Nat → Option (Except JsonFault Nat)
  | 0, _ => none
  | fuel + 1, i =>
    if text.length ≤ i then some (.error .malformed)
    else
      text[i]?.bind fun value =>
        -- The closing quotation mark ends the string in front of it.
        if value = quote then some (.ok i)
        else if value < 0x20#8 then some (.error .malformed)
        -- A backslash is checked together with what follows it.
        else if value = backslash then
          if text.length ≤ i + 1 then some (.error .malformed)
          else
            text[i + 1]?.bind fun value =>
              if value = ascii 'u' then
                (jsonHexDigits text 4 (i + 1)).bind fun
                  | .error fault => some (.error fault)
                  | .ok i => jsonStringEnd fuel (i + 1)
              else if strchr (quote :: backslash :: asciis ['/', 'b', 'f', 'n', 'r', 't']) value
              then jsonStringEnd fuel (i + 2)
              else some (.error .malformed)
        -- Any other byte stands for itself.
        else jsonStringEnd fuel (i + 1)

/-- `json_parse_string`. -/
def jsonParseString (parser : JsonParser) : Option (Except JsonFault JsonParser) :=
  let start := parser.position + 1
  (jsonStringEnd text (text.length + 1) start).bind fun
    | .error fault => some (.error fault)
    | .ok i =>
      jsonAppend capacity ⟨.string, start, i, 0, parser.parent⟩ { parser with position := i }

/-- The branch of `json_parse` for a bracket that opens. -/
def jsonOpen (value : Byte) (parser : JsonParser) : Option (Except JsonFault JsonParser) :=
  (jsonAppend capacity
    ⟨if value = objectOpen then .object else .array, parser.position, -1, 0, parser.parent⟩
    -- The new token is the container that is open.
    parser).map fun appended => appended.map fun parser =>
      { parser with parent := parser.tokens.length - 1 }

/-- The branch of `json_parse` for a bracket that closes. -/
def jsonClose (value : Byte) (parser : JsonParser) : Option (Except JsonFault JsonParser) :=
  let expected : JsonType := if value = objectClose then .object else .array
  -- There is nothing to close.
  if parser.parent < 0 then some (.error .malformed)
  else
    -- The bracket must fit the container it closes.
    parser.tokens[parser.parent.toNat]?.map fun token =>
      if token.type ≠ expected then .error .malformed
      else
        .ok { parser with
          tokens := parser.tokens.set parser.parent.toNat
            { token with stop := parser.position + 1 }
          parent := token.parent }

/-- What a primitive goes up to. -/
def jsonPrimitiveStop (c : Byte) : Bool :=
  strchr (asciis [' ', '\t', '\r', '\n', ',', ']'] ++ [objectClose, ascii ':']) c

/-- The branch of `json_parse` for everything else. -/
def jsonPrimitive (parser : JsonParser) : Option (Except JsonFault JsonParser) :=
  let start := parser.position
  (skip text (fun c => !jsonPrimitiveStop c) start).bind fun done =>
    -- An empty run is no primitive.
    if done.2 = start then some (.error .malformed)
    else
      (jsonPrimitiveValid ((text.drop start).take (done.2 - start))).bind fun valid =>
        if valid then
          -- The loop steps over the last byte itself.
          jsonAppend capacity ⟨.primitive, start, done.2, 0, parser.parent⟩
            { parser with position := done.2 - 1 }
        else some (.error .malformed)

/-- The body of the loop of `json_parse`. -/
def jsonRound (parser : JsonParser) : Option (Except JsonFault JsonParser) :=
  text[parser.position]?.bind fun value =>
    if value = objectOpen ∨ value = arrayOpen then jsonOpen capacity value parser
    else if value = objectClose ∨ value = arrayClose then jsonClose value parser
    else if value = quote then jsonParseString text capacity parser
    -- Separators are left to the syntax check.
    else if value = ascii ':' ∨ value = ascii ',' then some (.ok parser)
    else if isBlank value then some (.ok parser)
    else jsonPrimitive text capacity parser

/-- The loop of `json_parse`, in so many rounds. -/
def jsonLoop : Nat → JsonParser → Option (Except JsonFault JsonParser)
  | 0, _ => none
  | fuel + 1, parser =>
    -- The end of the text ends the loop.
    if text.length ≤ parser.position then some (.ok parser)
    else
      (jsonRound text capacity parser).bind fun
        | .error fault => some (.error fault)
        | .ok parser => jsonLoop fuel { parser with position := parser.position + 1 }

/-- `json_parse`, with the tokens it has counted, and no answer where it loops for too long. -/
def jsonParse : Option (Except JsonFault (List JsonToken)) :=
  (jsonLoop text capacity (text.length + 1) ⟨0, [], -1⟩).map fun
    | .error fault => .error fault
    | .ok parser =>
      -- Every container must have been closed, and there must be a token.
      if parser.parent ≠ -1 ∨ parser.tokens.length = 0 then .error .malformed
      else .ok parser.tokens

end Parse

/-- `struct json_document`, with `count` tokens. -/
structure JsonDocument where
  text : List Byte
  tokens : List JsonToken
  deriving DecidableEq

namespace JsonDocument

variable (d : JsonDocument)

/-- A token by its number, unless that is out of range. -/
def token (t : Int) : Option JsonToken := if t < 0 then none else d.tokens[t.toNat]?

/-- `json_next`, of a token within range. -/
def next (t : Nat) : Option Nat :=
  d.tokens[t]?.map fun token =>
    -- The tokens behind it that begin inside it belong to it.
    t + 1 + ((d.tokens.drop (t + 1)).takeWhile fun later => later.start < token.stop).length

end JsonDocument

/-! ### Numbers -/

/-- What `isspace` accepts. -/
def isSpace (c : Byte) : Bool := c == 0x20#8 || (decide (0x09#8 ≤ c) && decide (c ≤ 0x0D#8))

/-- The number some digits make. -/
def digitsValue (digits : List Byte) : Nat :=
  digits.foldl (fun n c => 10 * n + (c.toNat - 0x30)) 0

/-- `strtoll` to the base 10: the value, whether it is out of range, and what it has not read. -/
def strtoll (text : List Byte) : Int × Bool × List Byte :=
  -- Spaces and one sign come before the digits.
  let unspaced := text.dropWhile isSpace
  let minus := unspaced.head? == some (ascii '-')
  let unsigned :=
    if minus || unspaced.head? == some (ascii '+') then unspaced.tail else unspaced
  let digits := unsigned.takeWhile isDigit
  -- Without digits nothing has been read.
  if digits.isEmpty then (0, false, text)
  else
    let value : Int := if minus then -digitsValue digits else digitsValue digits
    let rest := unsigned.dropWhile isDigit
    -- What is out of range is cut off at the bounds.
    if value < -2 ^ 63 then (-2 ^ 63, true, rest)
    else if 2 ^ 63 ≤ value then (2 ^ 63 - 1, true, rest)
    else (value, false, rest)

/-- The text between the ends of a token. -/
def JsonDocument.slice (d : JsonDocument) (token : JsonToken) : List Byte :=
  (d.text.drop token.start.toNat).take (token.stop - token.start).toNat

/-- `json_integer`. -/
def jsonInteger (d : JsonDocument) (t : Int) (minimum : Int) (maximum : Nat) : Option Int :=
  (d.token t).bind fun token =>
    let raw := d.slice token
    -- The raw text must look like an integer and fit the buffer.
    if token.type ≠ .primitive ∨ raw.length = 0 ∨ 32 ≤ raw.length ∨ ascii '.' ∈ raw ∨
        ascii 'e' ∈ raw ∨ ascii 'E' ∈ raw then none
    else
      -- `strtoll` must have read it to the end.
      let (value, range, rest) := strtoll raw
      if range ∨ rest ≠ [] ∨ value < minimum ∨ (0 ≤ value ∧ maximum < value.toNat) then none
      else some value

/-! ### Strings -/

/-- `hex_value`, as the unsigned number its callers make of it. -/
def hexValue (digit : Byte) : BitVec 32 :=
  if ascii '0' ≤ digit ∧ digit ≤ ascii '9' then (digit - ascii '0').setWidth 32
  else if ascii 'a' ≤ digit ∧ digit ≤ ascii 'f' then (digit - ascii 'a').setWidth 32 + 10#32
  else if ascii 'A' ≤ digit ∧ digit ≤ ascii 'F' then (digit - ascii 'A').setWidth 32 + 10#32
  else -1#32

/-- The bytes `append_utf8` encodes a code point to, unless it is out of range. -/
def encodedUtf8 (codepoint : BitVec 32) : Option (List Byte) :=
  -- One byte.
  if codepoint ≤ 0x7f#32 then some [codepoint.setWidth 8]
  else if codepoint ≤ 0x7ff#32 then
    some [(0xc0#32 ||| codepoint >>> 6).setWidth 8, (0x80#32 ||| codepoint &&& 0x3f#32).setWidth 8]
  else if codepoint ≤ 0xffff#32 then
    some [(0xe0#32 ||| codepoint >>> 12).setWidth 8,
      (0x80#32 ||| codepoint >>> 6 &&& 0x3f#32).setWidth 8,
      (0x80#32 ||| codepoint &&& 0x3f#32).setWidth 8]
  else if codepoint ≤ 0x10ffff#32 then
    some [(0xf0#32 ||| codepoint >>> 18).setWidth 8,
      (0x80#32 ||| codepoint >>> 12 &&& 0x3f#32).setWidth 8,
      (0x80#32 ||| codepoint >>> 6 &&& 0x3f#32).setWidth 8,
      (0x80#32 ||| codepoint &&& 0x3f#32).setWidth 8]
  else none

/-- `append_utf8`. -/
def appendUtf8 (capacity : Nat) (used : List Byte) (codepoint : BitVec 32) : Option (List Byte) :=
  (encodedUtf8 codepoint).bind fun encoded =>
    -- The terminator needs a byte as well.
    if capacity ≤ used.length + encoded.length then none else some (used ++ encoded)

/-- The character a backslash and one more character stand for. -/
def shortEscape (value : Byte) : Option Byte :=
  if value = quote then some quote
  else if value = backslash then some backslash
  else if value = ascii '/' then some (ascii '/')
  else if value = ascii 'b' then some 0x08#8
  else if value = ascii 'f' then some 0x0C#8
  else if value = ascii 'n' then some 0x0A#8
  else if value = ascii 'r' then some 0x0D#8
  else if value = ascii 't' then some 0x09#8
  else none

section Decode

variable (text : List Byte) (stop capacity : Nat) (allowNull : Bool)

/-- The loop over the digits behind `\u`, from the first of them. -/
def hexCodepoint : Nat → Nat → BitVec 32 → Option (BitVec 32)
  | 0, _, codepoint => some codepoint
  | digit + 1, i, codepoint =>
    text[i]?.bind fun c => hexCodepoint digit (i + 1) (codepoint <<< 4 ||| hexValue c)

/--
The code point of an escape whose first digit lies at a position, and the position behind the
escape, unless a half of a surrogate pair is missing.
-/
def escapedCodepoint (i : Nat) : Option (Option (BitVec 32 × Nat)) :=
  -- The four digits of the first code unit.
  (hexCodepoint text 4 i 0#32).bind fun codepoint =>
    -- The first half of a pair calls for the second one behind it.
    if 0xd800#32 ≤ codepoint ∧ codepoint ≤ 0xdbff#32 then
      if stop ≤ i + 9 then some none
      else
        text[i + 4]?.bind fun c =>
          if c ≠ backslash then some none
          else
            text[i + 5]?.bind fun c =>
              if c ≠ ascii 'u' then some none
              else
                (hexCodepoint text 4 (i + 6) 0#32).map fun low =>
                  if low < 0xdc00#32 ∨ 0xdfff#32 < low then none
                  else
                    some (0x10000#32 + (codepoint - 0xd800#32) <<< 10 + (low - 0xdc00#32), i + 10)
    -- The second half alone is refused.
    else if 0xdc00#32 ≤ codepoint ∧ codepoint ≤ 0xdfff#32 then some none
    else some (some (codepoint, i + 4))

/-- The loop of `json_string_decode`, in so many rounds. -/
def decodeLoop : Nat → Nat → List Byte → Option (Option (List Byte))
  | 0, _, _ => none
  | fuel + 1, i, used =>
    -- The string ends in front of its quotation mark.
    if stop ≤ i then some (some used)
    else
      text[i]?.bind fun value =>
        -- A byte for itself.
        if value ≠ backslash then
          if capacity ≤ used.length + 1 then some none
          else decodeLoop fuel (i + 1) (used ++ [value])
        else
          text[i + 1]?.bind fun value =>
            -- An escape of a code point.
            if value = ascii 'u' then
              (escapedCodepoint text stop (i + 2)).bind fun
                | none => some none
                | some (codepoint, behind) =>
                  if codepoint = 0#32 ∧ allowNull = false then some none
                  else
                    match appendUtf8 capacity used codepoint with
                    | none => some none
                    | some used => decodeLoop fuel behind used
            else
              -- An escape of one letter.
              match shortEscape value with
              | none => some none
              | some decoded =>
                if capacity ≤ used.length + 1 then some none
                else decodeLoop fuel (i + 2) (used ++ [decoded])

end Decode

/--
`json_string_decode`, by the text it writes in front of a terminator, with no answer where it
reads past the end of the text or loops for too long.
-/
def jsonStringDecode (d : JsonDocument) (t : Int) (capacity : Nat) (allowNull : Bool) :
    Option (Option (List Byte)) :=
  -- Not even a terminator would fit.
  if capacity = 0 then some none
  else
    match d.token t with
    | none => some none
    | some token =>
      if token.type ≠ .string then some none
      else
        decodeLoop d.text token.stop.toNat capacity allowNull (d.text.length + 1)
          token.start.toNat []

/-- `json_string`. -/
def jsonString (d : JsonDocument) (t : Int) (capacity : Nat) : Option (Option (List Byte)) :=
  jsonStringDecode d t capacity false

/-- The loop of `json_u64`, over the characters of its text. -/
def u64Loop : List Byte → BitVec 64 → Option (BitVec 64)
  | [], n => some n
  | c :: rest, n =>
    let digit := c.signExtend 32 - 0x30#32
    -- Another character, or more than 64 bits hold.
    if 9#32 < digit ∨ (-1#64 - digit.setWidth 64) / 10#64 < n then none
    else u64Loop rest (n * 10#64 + digit.setWidth 64)

/-- `json_u64`. -/
def jsonU64 (d : JsonDocument) (t : Int) : Option (Option (BitVec 64)) :=
  (jsonString d t 21).map fun decoded =>
    decoded.bind fun text =>
      -- Leading zeros are refused.
      if text = [] ∨ (text.head? = some (ascii '0') ∧ 1 < text.length) then none
      else u64Loop text 0#64

/-! ### Members -/

/-- The loop of `json_member`, in so many rounds: the value found before it, or a failure. -/
def memberLoop (d : JsonDocument) (stop : Int) (name : List Byte) :
    Nat → Nat → Int → Option Int
  | 0, _, _ => none
  | fuel + 1, cursor, found =>
    -- The tokens are at their end.
    match d.tokens[cursor]? with
    | none => some found
    | some key =>
      -- The object ends where the next token begins behind it.
      if stop ≤ key.start then some found
      else
        match d.tokens[cursor + 1]? with
        | none => some (-2)
        | some value =>
          -- A key must be a string with a value in the same object.
          if key.type ≠ .string ∨ stop ≤ value.start then some (-2)
          else
            (jsonStringDecode d cursor ((key.stop - key.start).toNat + 1) true).bind fun
              | none => some (-2)
              | some decoded =>
                -- The same key twice is refused.
                if decoded = name ∧ 0 ≤ found then some (-2)
                else
                  -- The next key comes behind the value.
                  (d.next (cursor + 1)).bind fun behind =>
                    memberLoop d stop name fuel behind
                      (if decoded = name then (cursor + 1 : Nat) else found)

/-- `json_member`, where memory does not run out. -/
def jsonMember (d : JsonDocument) (object : Int) (name : List Byte) : Option Int :=
  match d.token object with
  | none => some (-1)
  | some token =>
    if token.type ≠ .object then some (-1)
    else memberLoop d token.stop name (d.tokens.length + 1) (object.toNat + 1) (-1)

/-! ### Compaction -/

section Strict

variable (d : JsonDocument)

/-- The loop that counts the ancestors of a token, in so many rounds. -/
def depthLoop : Nat → Int → Nat → Option Nat
  | 0, _, _ => none
  | fuel + 1, parent, depth =>
    -- The root has no parent.
    if parent < 0 then some depth
    else d.tokens[parent.toNat]?.bind fun token => depthLoop fuel token.parent (depth + 1)

/-- The loop over the keys in front of a key, in so many rounds: whether they all differ. -/
def priorLoop (key : Nat) (decoded : List Byte) : Nat → Nat → Option Bool
  | 0, _ => none
  | fuel + 1, prior =>
    -- All keys in front have been compared.
    if key ≤ prior then some true
    else
      -- A key in front that does not decode is refused.
      (jsonStringDecode d prior (d.text.length + 1) true).bind fun
        | none => some false
        | some other =>
          if decoded = other then some false
          else (d.next (prior + 1)).bind fun prior => priorLoop key decoded fuel prior

/-- The loop over the keys of an object, in so many rounds. -/
def keyLoop (object : Nat) (stop : Int) : Nat → Nat → Option Bool
  | 0, _ => none
  | fuel + 1, key =>
    match d.tokens[key]? with
    | none => some true
    | some token =>
      -- The object has no more keys.
      if stop ≤ token.start then some true
      else
        -- A key that does not decode is refused.
        (jsonStringDecode d key (d.text.length + 1) true).bind fun
          | none => some false
          | some decoded =>
            (priorLoop d key decoded (d.tokens.length + 1) (object + 1)).bind fun distinct =>
              if distinct then (d.next (key + 1)).bind fun key => keyLoop object stop fuel key
              else some false

/-- What the strict parser checks of one token. -/
def strictToken (i : Nat) (token : JsonToken) : Option Bool :=
  (depthLoop d (d.tokens.length + 1) token.parent 1).bind fun depth =>
    -- The limits of depth and size come first.
    if 16 < depth ∨ (token.type = .array ∧ 1024 < token.size) ∨
        (token.type = .object ∧ 512 < token.size) then some false
    else
      -- A string must decode.
      (if token.type = .string then
        (jsonStringDecode d i (d.text.length + 1) true).map Option.isSome
      else some true).bind fun decodes =>
        if !decodes then some false
        -- An object must have keys that decode and differ.
        else if token.type = .object then keyLoop d i token.stop (d.tokens.length + 1) (i + 1)
        else some true

/-- The loop of the strict parser over the tokens, with the values counted down. -/
def strictLoop : Nat → List JsonToken → BitVec 32 → Option Bool
  -- What is left are the values without the keys.
  | _, [], values => some (!decide (8192#32 < values))
  | i, token :: rest, values =>
    (strictToken d i token).bind fun valid =>
      if valid then
        strictLoop (i + 1) rest
          (if token.type = .object then values - BitVec.ofInt 32 token.size / 2#32 else values)
      else some false

end Strict

/-- `parse_document`, where memory does not run out. -/
def parseDocument (text : List Byte) (strict multiline : Bool) : Option (Option JsonDocument) :=
  -- The length, and no terminator inside the text.
  if text.length = 0 ∨ 65535 < text.length ∨ 0#8 ∈ text then some none
  else
    (utf8Valid text).bind fun valid =>
      if !valid then some none
      else
        (jsonSyntaxValid text).bind fun valid =>
          if !valid then some none
          else
            -- The lenient parser has room for fewer tokens.
            (jsonParse text (if strict then 16384 else 4096)).bind fun
              | .error _ => some none
              | .ok tokens =>
                -- The document is an object.
                if (tokens.head?.map JsonToken.type) ≠ some .object then some none
                else if !strict then some (some ⟨text, tokens⟩)
                -- A frame of one line holds no line break.
                else if multiline = false ∧ (ascii '\r' ∈ text ∨ ascii '\n' ∈ text) then some none
                else
                  (strictLoop ⟨text, tokens⟩ 0 tokens (BitVec.ofNat 32 tokens.length)).map
                    fun valid => if valid then some ⟨text, tokens⟩ else none

/-- `json_document_parse`. -/
def jsonDocumentParse (text : List Byte) (strict : Bool) : Option (Option JsonDocument) :=
  parseDocument text strict false

/-- `json_document_parse_multiline`. -/
def jsonDocumentParseMultiline (text : List Byte) : Option (Option JsonDocument) :=
  parseDocument text true true

end Emu80535
