import Emu80535.Core.State

/-! The bitmap of code breakpoints that the debuggers share. -/

namespace Emu80535

/-- One bit for every code address, eight to a byte. -/
abbrev Bitmap : Type := BitVec 13 → Byte

/-- A bitmap without breakpoints. -/
def Bitmap.empty : Bitmap := fun _ => 0#8

/-- Byte of the bitmap that an address falls in. -/
def bitmapByte (address : Word) : BitVec 13 := (address >>> 3).setWidth 13

/-- Bit of that byte. -/
def bitmapMask (address : Word) : Byte := 1#8 <<< (address &&& 7#16)

/-- `emu_breakpoint_at`. -/
def breakpointAt (bitmap : Bitmap) (address : Word) : Bool :=
  has (bitmap (bitmapByte address)) (bitmapMask address)

/-- Set the bit of one address. -/
def Bitmap.set (bitmap : Bitmap) (address : Word) : Bitmap :=
  Function.update bitmap (bitmapByte address)
    (bitmap (bitmapByte address) ||| bitmapMask address)

/-- The loop of `emu_breakpoint_replace`, which refuses an address it has already set. -/
def breakpointFill : List Word → Bitmap → Option Bitmap
  | [], bitmap => some bitmap
  | address :: rest, bitmap =>
    if breakpointAt bitmap address then none else breakpointFill rest (bitmap.set address)

/-- `emu_breakpoint_replace`, with no answer where it leaves the bitmap alone. -/
def breakpointReplace (addresses : List Word) : Option Bitmap :=
  breakpointFill addresses Bitmap.empty

end Emu80535
