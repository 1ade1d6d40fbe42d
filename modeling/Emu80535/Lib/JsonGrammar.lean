import Emu80535.Lib.Recogniser

/-! The grammar of JSON texts over bytes, with values told apart by how deep they nest. -/

open Computability

namespace JsonGrammar

open Recogniser

/-- The byte of an ASCII character. -/
def ascii (c : Char) : BitVec 8 := BitVec.ofNat 8 c.toNat

/-- The bytes of some ASCII characters. -/
def asciis (cs : List Char) : List (BitVec 8) := cs.map ascii

/-! ### Characters -/

/-- The quotation mark around strings. -/
def quote : BitVec 8 := 0x22#8

/-- The backslash that begins an escape. -/
def backslash : BitVec 8 := 0x5C#8

/-- The brackets around an array. -/
def arrayOpen : BitVec 8 := 0x5B#8

/-- The end of an array. -/
def arrayClose : BitVec 8 := 0x5D#8

/-- The braces around an object. -/
def objectOpen : BitVec 8 := 0x7B#8

/-- The end of an object. -/
def objectClose : BitVec 8 := 0x7D#8

/-- Space, tab, carriage return and line feed. -/
def isBlank (c : BitVec 8) : Bool := (asciis [' ', '\t', '\r', '\n']).contains c

/-- A decimal digit. -/
def isDigit (c : BitVec 8) : Bool := decide (ascii '0' ≤ c) && decide (c ≤ ascii '9')

/-- A hexadecimal digit of either case. -/
def isHex (c : BitVec 8) : Bool :=
  isDigit c || (decide (ascii 'a' ≤ c) && decide (c ≤ ascii 'f')) ||
    (decide (ascii 'A' ≤ c) && decide (c ≤ ascii 'F'))

/-- What may follow a backslash alone. -/
def isShortEscape (c : BitVec 8) : Bool :=
  c == quote || c == backslash || (asciis ['/', 'b', 'f', 'n', 'r', 't']).contains c

/-- What stands for itself in a string. -/
def isPlain (c : BitVec 8) : Bool := decide (0x20#8 ≤ c) && c != quote && c != backslash

/-! ### Ranges -/

/-- The decimal digits, by number. -/
theorem isDigit_iff {c : BitVec 8} : isDigit c = true ↔ 0x30 ≤ c.toNat ∧ c.toNat ≤ 0x39 := by
  simp [isDigit, ascii, BitVec.le_def]

/-- The hexadecimal digits, by number. -/
theorem isHex_iff {c : BitVec 8} : isHex c = true ↔ (0x30 ≤ c.toNat ∧ c.toNat ≤ 0x39) ∨
    (0x61 ≤ c.toNat ∧ c.toNat ≤ 0x66) ∨ (0x41 ≤ c.toNat ∧ c.toNat ≤ 0x46) := by
  simp [isHex, isDigit_iff, ascii, BitVec.le_def, or_assoc]

/-- One given byte. -/
def char (c : BitVec 8) : Language (BitVec 8) := symbols fun d => d == c

/-- Insignificant whitespace. -/
def ws : Language (BitVec 8) := (symbols isBlank)∗

/-- One digit or more. -/
def digits : Language (BitVec 8) := symbols isDigit * (symbols isDigit)∗

/-- The integer part of a number, without leading zeros. -/
def int : Language (BitVec 8) :=
  char (ascii '0') + symbols (fun c => isDigit c && c != ascii '0') * (symbols isDigit)∗

/-- A fraction. -/
def frac : Language (BitVec 8) := char (ascii '.') * digits

/-- An exponent. -/
def exp : Language (BitVec 8) :=
  symbols (fun c => c == ascii 'e' || c == ascii 'E') *
    ((1 + symbols fun c => c == ascii '+' || c == ascii '-') * digits)

/-- A number. -/
def number : Language (BitVec 8) := (1 + char (ascii '-')) * (int * ((1 + frac) * (1 + exp)))

/-- The three literal names. -/
def literal : Language (BitVec 8) :=
  {s | s = asciis ['t', 'r', 'u', 'e'] ∨ s = asciis ['f', 'a', 'l', 's', 'e'] ∨
    s = asciis ['n', 'u', 'l', 'l']}

/-- What follows the backslash of an escape. -/
def escaped : Language (BitVec 8) := symbols isShortEscape + char (ascii 'u') * symbols isHex ^ 4

/-- A string. -/
def string : Language (BitVec 8) :=
  char quote * ((symbols isPlain + char backslash * escaped)∗ * char quote)

/-- Items between brackets, with a comma between any two. -/
def bracketed (opening closing : BitVec 8) (item : Language (BitVec 8)) : Language (BitVec 8) :=
  char opening * (ws * (char closing +
    item * ws * (char (ascii ',') * ws * (item * ws))∗ * char closing))

/-- A member of an object: its name and its value. -/
def member (value : Language (BitVec 8)) : Language (BitVec 8) :=
  string * (ws * (char (ascii ':') * (ws * value)))

/-- The values in which nothing lies at a nesting level above a bound, the value itself at 1. -/
def value : Nat → Language (BitVec 8)
  | 0 => 0
  | levels + 1 =>
    literal + number + string + bracketed arrayOpen arrayClose (value levels) +
      bracketed objectOpen objectClose (member (value levels))

/-- A whole text: one value and whitespace around it. -/
def text (levels : Nat) : Language (BitVec 8) := ws * (value levels * ws)

end JsonGrammar
