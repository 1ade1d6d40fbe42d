import Emu80535.Core.State

/-! The set of request identities that the debug server has answered. -/

namespace Emu80535

/-- `REQUEST_ID_SLOTS`. -/
abbrev requestIdSlots : Nat := 16384

/-- `MAX_REQUEST_IDS`. -/
abbrev maxRequestIds : Nat := 8192

/-- The fields of `struct server` that remember requests. An empty slot holds zero. -/
structure RequestIds where
  requestIds : Nat → BitVec 64
  requestIdCount : Nat

namespace RequestIds

/-- The state of a server that has just been cleared. -/
def empty : RequestIds where
  requestIds := fun _ => 0#64
  requestIdCount := 0

/-- The slot `id_insert` looks at first. -/
def home (id : BitVec 64) : Nat := ((id * 11400714819323198485#64) >>> 50).toNat

/-- The loop of `id_insert`, for a number of probes still to make and the next of them. -/
def probe (s : RequestIds) (id : BitVec 64) : Nat → Nat → Bool × RequestIds
  | 0, _ => (false, s)
  | left + 1, at_ =>
    let entry := (home id + at_) &&& (requestIdSlots - 1)
    -- An identity that is there is refused.
    if s.requestIds entry = id then (false, s)
    else if s.requestIds entry = 0#64 then
      -- The set is full before the table is.
      if maxRequestIds ≤ s.requestIdCount then (false, s)
      else
        (true,
          { requestIds := Function.update s.requestIds entry id
            requestIdCount := s.requestIdCount + 1 })
    -- Another identity has the slot, so the next one is tried.
    else probe s id left (at_ + 1)

/-- `id_insert`. -/
def idInsert (s : RequestIds) (id : BitVec 64) : Bool × RequestIds := s.probe id requestIdSlots 0

/-- A sequence of calls, with the identities that have been accepted in their order. -/
def insertAll (ids : List (BitVec 64)) : RequestIds × List (BitVec 64) :=
  ids.foldl
    (fun run id =>
      let answer := run.1.idInsert id
      (answer.2, if answer.1 then run.2 ++ [id] else run.2))
    (empty, [])

end RequestIds

end Emu80535
