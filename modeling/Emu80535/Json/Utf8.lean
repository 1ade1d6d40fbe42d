import Emu80535.Core.State

/-! The UTF-8 check of the JSON parser, with every read of the text checked against its length. -/

namespace Emu80535

/-- The code point bits of a lead byte that is not ASCII, and how many bytes it needs after it. -/
def utf8Lead (first : Byte) : Option (BitVec 32 × Nat) :=
  if 0xc2#8 ≤ first ∧ first ≤ 0xdf#8 then some ((first &&& 0x1f#8).setWidth 32, 1)
  else if 0xe0#8 ≤ first ∧ first ≤ 0xef#8 then some ((first &&& 0x0f#8).setWidth 32, 2)
  else if 0xf0#8 ≤ first ∧ first ≤ 0xf4#8 then some ((first &&& 0x07#8).setWidth 32, 3)
  else none

/-- The code points `utf8_valid` refuses once it has put them together. -/
def utf8Refused (first : Byte) (codepoint : BitVec 32) : Prop :=
  codepoint < 0x80#32 ∨ (codepoint < 0x800#32 ∧ 0xe0#8 ≤ first) ∨
    (codepoint < 0x10000#32 ∧ 0xf0#8 ≤ first) ∨
    (0xd800#32 ≤ codepoint ∧ codepoint ≤ 0xdfff#32) ∨ 0x10ffff#32 < codepoint

instance (first : Byte) (codepoint : BitVec 32) : Decidable (utf8Refused first codepoint) :=
  inferInstanceAs (Decidable (_ ∨ _))

section Text

variable (text : List Byte)

/-- The inner loop: the code point and the position behind so many continuation bytes. -/
def utf8Tail : Nat → Nat → BitVec 32 → Option (Option (BitVec 32 × Nat))
  | 0, i, codepoint => some (some (codepoint, i))
  | need + 1, i, codepoint =>
    text[i]?.bind fun continuation =>
      -- Each continuation byte brings six bits.
      if continuation &&& 0xc0#8 ≠ 0x80#8 then some none
      else utf8Tail need (i + 1) (codepoint <<< 6 ||| (continuation &&& 0x3f#8).setWidth 32)

/-- A round of the outer loop: the position behind the character, unless it is refused. -/
def utf8Round (i : Nat) : Option (Option Nat) :=
  text[i]?.bind fun first =>
    -- ASCII stands for itself.
    if first < 0x80#8 then some (some (i + 1))
    else
      match utf8Lead first with
      | none => some none
      | some (codepoint, need) =>
        -- The text must be long enough for the bytes that are called for.
        if text.length < i + 1 + need then some none
        else
          (utf8Tail text need (i + 1) codepoint).map fun
            | none => none
            | some (codepoint, behind) => if utf8Refused first codepoint then none else some behind

/-- The outer loop, in so many rounds. -/
def utf8Loop : Nat → Nat → Option Bool
  | 0, _ => none
  | fuel + 1, i =>
    if text.length ≤ i then some true
    else
      (utf8Round text i).bind fun
        | none => some false
        | some behind => utf8Loop fuel behind

/-- `utf8_valid`, with no answer where it reads past the end or loops for too long. -/
def utf8Valid : Option Bool := utf8Loop text (text.length + 1) 0

end Text

end Emu80535
