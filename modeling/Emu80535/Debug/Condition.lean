import Emu80535.Debug.Event

/-! Watch conditions as a client states them, and as the watch table takes them. -/

namespace Emu80535.Debug

/-- `struct emuif_trace_condition`. -/
structure TraceCondition where
  present : BitVec 32
  operand : BitVec 32
  comparison : BitVec 32
  width : BitVec 32
  isSigned : BitVec 32
  reserved : BitVec 32
  constant : BitVec 64
  deriving DecidableEq, Repr

namespace TraceCondition

/-- `condition_valid`. -/
def conditionValid (c : TraceCondition) : Bool :=
  -- Every field is within its range, whether the condition is there or not.
  if c.reserved ≠ 0#32 ∨ 1#32 < c.present ∨ 1#32 < c.operand ∨ 5#32 < c.comparison ∨
      1#32 < c.isSigned ∨ ¬(c.width = 1#32 ∨ c.width = 8#32 ∨ c.width = 16#32 ∨ c.width = 32#32 ∨
        c.width = 64#32) then false
  -- The constant fits its width as an unsigned number.
  else if c.width < 64#32 ∧ c.constant >>> c.width.toNat ≠ 0#64 then false
  else
    c.present != 0#32 ||
      -- A condition that is not there has the defaults in all its fields.
      (c.operand == 0#32 && c.comparison == 0#32 && c.width == 8#32 && c.isSigned == 0#32 &&
        c.constant == 0#64)

/-- The condition that `adapt` hands to the watch table, with its constant sign-extended. -/
def adapted (c : TraceCondition) : Condition :=
  let width := c.width.setWidth 8
  let isSigned := c.isSigned.setWidth 8
  { constant :=
      -- A negative constant gets its upper bits.
      if isSigned ≠ 0#8 ∧ width < 64#8 ∧ c.constant &&& 1#64 <<< (width.toNat - 1) ≠ 0#64 then
        c.constant ||| BitVec.allOnes 64 <<< width.toNat
      else c.constant
    present := c.present.setWidth 8
    operand := c.operand.setWidth 8
    comparison := c.comparison.setWidth 8
    width
    isSigned }

end TraceCondition

end Emu80535.Debug
