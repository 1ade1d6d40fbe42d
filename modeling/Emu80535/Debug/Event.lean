import Emu80535.Trace.Record

/-! Debugger events, the bus that numbers them and the watches that match them. -/

namespace Emu80535.Debug

/-! ### Events -/

/-- `em8051_debug_event_status`. -/
inductive EventStatus where
  | ok
  | invalidArgument
  | limit
  | busy
  | duplicateId
  deriving DecidableEq, Repr

namespace EventKind

/-- `EM8051_DEBUG_EVENT_*`, as far as the code tells one kind from another. -/
abbrev interruptEnter : Byte := 9#8
abbrev interruptExit : Byte := 10#8
abbrev reset : Byte := 15#8
abbrev load : Byte := 16#8
abbrev debuggerMutation : Byte := 17#8
abbrev watchMatch : Byte := 18#8

end EventKind

namespace AddressSpace

/-- `EM8051_DEBUG_SPACE_*`. -/
abbrev none : Byte := 0#8
abbrev code : Byte := 1#8
abbrev xdata : Byte := 5#8

end AddressSpace

/-- The bits of `EM8051_DEBUG_ACCESS_*`. -/
def allAccess : Byte := 15#8

/-- `struct em8051_debug_value`. -/
structure Value where
  value : BitVec 64 := 0#64
  width : Byte := 0#8
  known : Byte := 0#8
  isSigned : Byte := 0#8
  deriving DecidableEq, Repr

/-- `struct em8051_debug_event`. -/
structure Event where
  sequence : Nat := 0
  instructionCount : Nat := 0
  machineCycleCount : Nat := 0
  generation : Nat := 0
  pc : Word := 0#16
  address : Word := 0#16
  phase : Byte := 0#8
  kind : Byte := 0#8
  addressSpace : Byte := 0#8
  access : Byte := 0#8
  oldValue : Value := {}
  newValue : Value := {}
  /-- Its kind is `none` for an event that carries no canonical facts. -/
  observation : Observation := {}
  deriving DecidableEq, Repr

/-- An event the machine's start marks: RESET or LOAD. -/
def Event.isLifecycle (e : Event) : Bool :=
  e.kind == EventKind.reset || e.kind == EventKind.load

/-- The event carries canonical facts. -/
def Event.isCanonical (e : Event) : Bool := e.observation.kind != .none

/-! ### The bus -/

/-- `em8051_debug_event_bus`, without its observers: a runtime subscribes the only one. -/
structure EventBus where
  nextSequence : Nat
  dispatching : Bool
  deriving DecidableEq, Repr

/-- `em8051_debug_event_bus_init`. -/
def EventBus.init : EventBus where
  nextSequence := 1
  dispatching := false

/-- The event an emission hands to the observer. -/
def EventBus.numbered (bus : EventBus) (e : Event) : Event :=
  let o := e.observation
  { e with
    sequence := bus.nextSequence
    observation :=
      -- The observation of a canonical event carries the number and the generation too.
      if e.isCanonical then { o with sequence := bus.nextSequence, generation := e.generation }
      else o }

/-- What `em8051_debug_event_bus_emit` checks before it takes a number. -/
def EventBus.accepts (bus : EventBus) (e : Event) : EventStatus :=
  if bus.dispatching then .busy
  -- An event that has a number was emitted before.
  else if bus.nextSequence = 0 ∨ e.sequence ≠ 0 then .invalidArgument
  else .ok

/-- The number is taken; the one after the largest is zero. -/
def EventBus.advanced (bus : EventBus) : EventBus :=
  { bus with nextSequence := u64 (bus.nextSequence + 1) }

/-! ### Watches -/

namespace WatchCompare

/-- `EM8051_DEBUG_WATCH_EQ` and the comparisons after it. -/
abbrev eq : Byte := 0#8
abbrev ne : Byte := 1#8
abbrev lt : Byte := 2#8
abbrev le : Byte := 3#8
abbrev gt : Byte := 4#8
abbrev ge : Byte := 5#8

end WatchCompare

namespace WatchOperand

/-- `em8051_debug_watch_operand`. -/
abbrev old : Byte := 0#8
abbrev new : Byte := 1#8

end WatchOperand

namespace WatchAction

/-- `em8051_debug_watch_action_kind`. -/
abbrev stop : Byte := 0#8
abbrev console : Byte := 1#8
abbrev quiet : Byte := 2#8
abbrev route : Byte := 3#8

end WatchAction

/-- `EM8051_DEBUG_WATCH_MAX_WATCHES`. -/
def maxWatches : Nat := 64

/-- `EM8051_DEBUG_WATCH_MAX_ACTIONS`. -/
def maxActions : Nat := 8

/-- `EM8051_DEBUG_WATCH_MAX_ROUTES`, which is `EM8051_DEBUG_TRACE_MAX_ROUTES` too. -/
def maxRoutes : Nat := 16

/-- `struct em8051_debug_watch_condition`. -/
structure Condition where
  constant : BitVec 64 := 0#64
  present : Byte := 0#8
  operand : Byte := 0#8
  comparison : Byte := 0#8
  width : Byte := 0#8
  isSigned : Byte := 0#8
  deriving DecidableEq, Repr

/-- `struct em8051_debug_watch_action`. -/
structure Action where
  condition : Condition := {}
  traceIds : List Nat := []
  kind : Byte
  canonical : Byte := 0#8
  deriving DecidableEq, Repr

/-- `struct em8051_debug_watch`. -/
structure Watch where
  actions : List Action
  id : Nat
  addressFirst : Word
  addressLast : Word
  enabled : Byte
  addressSpace : Byte
  accessMask : Byte
  /-- The canonical space plus one; zero keeps the matching by address space. -/
  canonicalSpace : Byte := 0#8
  deriving DecidableEq, Repr

/-- `struct em8051_debug_watch_result`. -/
structure WatchResult where
  traceIds : List Nat := []
  watchId : Nat := 0
  firedActionMask : BitVec 32 := 0#32
  sourceEventSequence : Nat := 0
  stop : Bool := false
  console : Bool := false
  quiet : Bool := false
  deriving DecidableEq, Repr

/-- `value_width_valid`. -/
def valueWidthValid (width : Byte) : Bool :=
  width == 1#8 || width == 8#8 || width == 16#8 || width == 32#8 || width == 64#8

/-- `width_mask`. -/
def widthMask (width : Byte) : BitVec 64 :=
  if width = 64#8 then BitVec.allOnes 64 else (1#64 <<< width.toNat) - 1#64

/-- `constant_valid`. -/
def Condition.constantValid (c : Condition) : Bool :=
  let mask := widthMask c.width
  let sign := 1#64 <<< (c.width.toNat - 1)
  if !valueWidthValid c.width then false
  -- A negative constant is written with all its upper bits.
  else if c.isSigned ≠ 0#8 then
    if c.width = 64#8 then true
    else if c.constant &&& sign ≠ 0#64 then c.constant ||| mask == BitVec.allOnes 64
    else c.constant &&& ~~~mask == 0#64
  else c.constant &&& ~~~mask == 0#64

/-- The order of two values of a width: `ordering` of `compare_value`. -/
def compareBits (isSigned : Bool) (width : Byte) (left right : BitVec 64) : Ordering :=
  let sign := 1#64 <<< (width.toNat - 1)
  let leftNegative := decide (left &&& sign ≠ 0#64)
  let rightNegative := decide (right &&& sign ≠ 0#64)
  -- Numbers of different sign compare by their signs.
  if isSigned && leftNegative != rightNegative then
    if leftNegative then .lt else .gt
  else compare left.toNat right.toNat

/-- `compare_value`. -/
def Condition.compareValue (c : Condition) (v : Value) : Bool :=
  -- A value that is unknown or of another shape satisfies no condition.
  if v.known = 0#8 ∨ v.width ≠ c.width ∨ v.isSigned ≠ c.isSigned then false
  else
    let left := v.value &&& widthMask v.width
    let right := c.constant &&& widthMask v.width
    let ordering := compareBits (c.isSigned != 0#8) v.width left right
    if c.comparison = WatchCompare.eq then ordering == .eq
    else if c.comparison = WatchCompare.ne then ordering != .eq
    else if c.comparison = WatchCompare.lt then ordering == .lt
    else if c.comparison = WatchCompare.le then ordering != .gt
    else if c.comparison = WatchCompare.gt then ordering == .gt
    else if c.comparison = WatchCompare.ge then ordering != .lt
    else false

/-- `condition_matches`. -/
def Condition.matches (c : Condition) (e : Event) : Bool :=
  -- A condition that is not there always holds.
  if c.present = 0#8 then true
  else if c.operand = WatchOperand.old then c.compareValue e.oldValue
  else c.compareValue e.newValue

/-- Identities stand in strictly ascending order, and none is zero. -/
def idsAscending (ids : List Nat) : Bool :=
  ids.all (· != 0) && decide (ids.Pairwise (· < ·))

/-- `action_valid`. -/
def Action.valid (a : Action) : Bool :=
  let c := a.condition
  decide (a.canonical ≤ 1#8) && decide (a.kind ≤ WatchAction.route) && decide (c.present ≤ 1#8) &&
    (c.present == 0#8 ||
      -- What a condition compares is checked only where there is one.
      (decide (c.operand ≤ WatchOperand.new) && decide (c.comparison ≤ WatchCompare.ge) &&
        decide (c.isSigned ≤ 1#8) && c.constantValid)) &&
    -- Only a routing action has routes, and a canonical one may do without.
    (if a.kind ≠ WatchAction.route then a.traceIds.isEmpty
    else !(a.canonical == 0#8 && a.traceIds.isEmpty) && decide (a.traceIds.length ≤ maxRoutes) &&
      idsAscending a.traceIds)

/-- The routes the loop of `watch_valid` has collected, or none once there are too many. -/
def collectRoute (routes : Option (List Nat)) (id : Nat) : Option (List Nat) :=
  routes.bind fun found =>
    -- A route that is there already takes no room.
    if id ∈ found then some found
    else if found.length = maxRoutes then none
    else some (found ++ [id])

/-- The routes of all actions, each once. -/
def Watch.routes (w : Watch) : Option (List Nat) :=
  (w.actions.filter (·.kind == WatchAction.route)).foldl
    (fun routes a => a.traceIds.foldl collectRoute routes) (some [])

/-- `watch_valid`. -/
def Watch.valid (w : Watch) : Bool :=
  w.id != 0 && decide (w.enabled ≤ 1#8) && decide (w.canonicalSpace ≤ 4#8) &&
    w.addressSpace != AddressSpace.none && decide (w.addressSpace ≤ AddressSpace.xdata) &&
    decide (w.addressFirst ≤ w.addressLast) && w.accessMask != 0#8 &&
    w.accessMask &&& ~~~allAccess == 0#8 && !w.actions.isEmpty &&
    decide (w.actions.length ≤ maxActions) && w.actions.all Action.valid && w.routes.isSome

/-- `insert_route`: an identity joins an ascending list once. -/
def insertRoute (id : Nat) : List Nat → List Nat
  | [] => [id]
  | first :: rest =>
    if first < id then first :: insertRoute id rest
    else if first = id then first :: rest
    else id :: first :: rest

/-- A watch goes behind those of the same or a smaller identity. -/
def insertWatch (w : Watch) : List Watch → List Watch
  | [] => [w]
  | first :: rest => if first.id ≤ w.id then first :: insertWatch w rest else w :: first :: rest

/-- `em8051_debug_watch_table_replace`: the new table, or the error that leaves the old one. -/
def watchTableReplace (watches : List Watch) : Except EventStatus (List Watch) :=
  -- Each check that fails leaves the old table in place.
  let sorted := watches.foldl (fun sorted w => insertWatch w sorted) []
  if maxWatches < watches.length then .error .limit
  else if ¬watches.all Watch.valid then .error .invalidArgument
  else if ¬(sorted.map Watch.id).Nodup then .error .duplicateId
  else .ok sorted

/-- A canonical space as its number: `EMUIF_SPACE_*`. -/
def spaceNumber : Space → Nat
  | .code => 0
  | .iram => 1
  | .sfr => 2
  | .xdata => 3

/-- The event lies in the canonical space that a selector or a watch gives plus one. -/
def Event.inCanonicalSpace (e : Event) (space : Byte) : Bool :=
  e.isCanonical && spaceNumber e.observation.space + 1 == space.toNat

/-- An event the watches are asked about. -/
def Event.watchable (e : Event) : Bool :=
  !(e.kind == EventKind.watchMatch ||
    -- Of canonical events only the results of accesses are looked at.
    (e.isCanonical &&
      (e.observation.kind != .accessResult || e.observation.status != .ok)))

/-- The watch looks at the place and the access of an event. -/
def Watch.covers (w : Watch) (e : Event) : Bool :=
  w.enabled != 0#8 &&
    (if w.canonicalSpace ≠ 0#8 then e.inCanonicalSpace w.canonicalSpace
    else w.addressSpace == e.addressSpace) &&
    decide (w.addressFirst ≤ e.address) && decide (e.address ≤ w.addressLast) &&
    w.accessMask &&& e.access != 0#8

/-- The effect of the action at an index on the result of its watch. -/
def WatchResult.fire (e : Event) (result : WatchResult) (indexed : Action × Nat) : WatchResult :=
  let (a, index) := indexed
  if !a.condition.matches e then result
  else
    -- The bit of an action is its place in the list.
    let fired := { result with firedActionMask := result.firedActionMask ||| 1#32 <<< index }
    if a.kind = WatchAction.stop then { fired with stop := true }
    else if a.kind = WatchAction.console then { fired with console := true }
    else if a.kind = WatchAction.quiet then { fired with quiet := true }
    else { fired with
      -- The routes of all actions are collected in order, each once.
      traceIds := a.traceIds.foldl (fun ids id => insertRoute id ids) fired.traceIds }

/-- What a watch makes of an event it covers, when one of its actions fires. -/
def Watch.result (w : Watch) (e : Event) : Option WatchResult :=
  let result := w.actions.zipIdx.foldl (WatchResult.fire e)
    { watchId := w.id, sourceEventSequence := e.sequence }
  -- A watch without an action that fires has no result.
  if result.firedActionMask = 0#32 then none
  -- A quiet action silences the console.
  else some { result with console := result.console && !result.quiet }

/-- `em8051_debug_watch_table_match`: every result, of which the caller has room for some. -/
def watchTableMatch (watches : List Watch) (e : Event) : List WatchResult :=
  if e.watchable then (watches.filter (·.covers e)).filterMap (·.result e) else []

end Emu80535.Debug
