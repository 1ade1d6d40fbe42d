import Emu80535.Debug.Event
import Mathlib.Logic.Function.Basic

/-! The router of debugger events: traces, points, gates, interrupt policies and suppression. -/

namespace Emu80535.Debug

/-! ### Configuration -/

namespace InterruptPolicy

/-- `em8051_debug_trace_interrupt_policy`. -/
abbrev included : Byte := 0#8
abbrev suppressDuringInterrupt : Byte := 1#8
abbrev interruptOnly : Byte := 2#8

end InterruptPolicy

namespace GateAction

/-- `em8051_debug_trace_gate_action`. -/
abbrev on : Byte := 0#8
abbrev off : Byte := 1#8

end GateAction

namespace GateTiming

/-- `em8051_debug_trace_gate_timing`. -/
abbrev before : Byte := 0#8
abbrev after : Byte := 1#8

end GateTiming

/-- `EM8051_DEBUG_TRACE_MAX_TRACES`. -/
def maxTraces : Nat := 16

/-- `EM8051_DEBUG_TRACE_MAX_DESTINATIONS`. -/
def maxDestinations : Nat := 8

/-- `EM8051_DEBUG_TRACE_MAX_POINTS`. -/
def maxPoints : Nat := 32

/-- `EM8051_DEBUG_TRACE_MAX_GATES`. -/
def maxGates : Nat := 32

/-- `EM8051_DEBUG_TRACE_MAX_SEEN_IDS`. -/
def maxSeenIds : Nat := 64

/-- `EM8051_DEBUG_TRACE_RING_CAPACITY`. -/
def ringCapacity : Nat := 128

/-- `struct em8051_debug_trace_selector`. -/
structure Selector where
  pcFirst : Word := 0#16
  pcLast : Word := 0#16
  addressFirst : Word := 0#16
  addressLast : Word := 0#16
  kind : Byte := 0#8
  matchKind : Byte := 0#8
  matchPc : Byte := 0#8
  matchAddress : Byte := 0#8
  addressSpace : Byte := 0#8
  matchAddressSpace : Byte := 0#8
  observationKind : Byte := 0#8
  matchObservationKind : Byte := 0#8
  accessMask : Byte := 0#8
  matchAccess : Byte := 0#8
  canonicalSpace : Byte := 0#8
  canonical : Byte := 0#8
  deriving DecidableEq, Repr

/-- `struct em8051_debug_trace_session`; the texts are the bytes of their buffers. -/
structure TraceSession where
  traceId : Nat
  destinationId : Nat
  tag : List Byte := [0#8]
  comment : List Byte := [0#8]
  enabled : Byte
  interruptPolicy : Byte
  deriving DecidableEq, Repr

/-- `struct em8051_debug_trace_point`. -/
structure TracePoint where
  selector : Selector
  traceIds : List Nat
  pointId : Nat
  enabled : Byte
  deriving DecidableEq, Repr

/-- `struct em8051_debug_trace_gate`. -/
structure TraceGate where
  selector : Selector
  traceIds : List Nat
  gateId : Nat
  enabled : Byte
  action : Byte
  timing : Byte
  deriving DecidableEq, Repr

/-- `struct em8051_debug_trace_config`; a destination is its identity. -/
structure TraceConfig where
  traces : List TraceSession := []
  destinations : List Nat := []
  points : List TracePoint := []
  gates : List TraceGate := []
  deriving DecidableEq, Repr

/-- A continuation byte of UTF-8. -/
def isTail (b : Byte) : Bool := decide (0x80#8 ≤ b ∧ b ≤ 0xbf#8)

/-- `utf8_terminated`: the buffer holds UTF-8 up to a zero byte. -/
def utf8Terminated : List Byte → Bool
  | [] => false
  | lead :: rest =>
    -- The terminator may be the first byte.
    if lead = 0#8 then true
    else if lead ≤ 0x7f#8 then utf8Terminated rest
    -- No two-byte form begins with C0h or C1h.
    else if 0xc2#8 ≤ lead ∧ lead ≤ 0xdf#8 then
      match rest with
      | second :: rest => isTail second && utf8Terminated rest
      | _ => false
    else if 0xe0#8 ≤ lead ∧ lead ≤ 0xef#8 then
      match rest with
      | second :: third :: rest =>
        -- Short forms and surrogates are refused by the second byte.
        !(!isTail third || lead == 0xe0#8 && decide (second < 0xa0#8) ||
          lead == 0xed#8 && decide (0x9f#8 < second) || !isTail second) && utf8Terminated rest
      | _ => false
    else if 0xf0#8 ≤ lead ∧ lead ≤ 0xf4#8 then
      match rest with
      | second :: third :: fourth :: rest =>
        -- So are short forms and what lies above 10FFFFh.
        !(!isTail third || !isTail fourth || lead == 0xf0#8 && decide (second < 0x90#8) ||
          lead == 0xf4#8 && decide (0x8f#8 < second) || !isTail second) && utf8Terminated rest
      | _ => false
    else false

/-- `selector_valid`. -/
def Selector.valid (s : Selector) : Bool :=
  -- Every flag is zero or one, and the fields behind it are checked only when it is set.
  decide (s.canonical ≤ 1#8) && decide (s.canonicalSpace ≤ 4#8) &&
    decide (s.matchObservationKind ≤ 1#8) && decide (s.matchAccess ≤ 1#8) &&
    (s.matchObservationKind == 0#8 ||
      (decide (1#8 ≤ s.observationKind) && decide (s.observationKind ≤ 28#8))) &&
    (s.matchAccess == 0#8 || (s.accessMask != 0#8 && s.accessMask &&& ~~~15#8 == 0#8)) &&
    decide (s.matchKind ≤ 1#8) && decide (s.matchPc ≤ 1#8) && decide (s.matchAddress ≤ 1#8) &&
    decide (s.matchAddressSpace ≤ 1#8) &&
    (s.matchKind == 0#8 || decide (s.kind ≤ EventKind.watchMatch)) &&
    (s.matchAddressSpace == 0#8 ||
      -- The spaces from code to XDATA.
      (decide (AddressSpace.code ≤ s.addressSpace) &&
        decide (s.addressSpace ≤ AddressSpace.xdata))) &&
    (s.matchPc == 0#8 || decide (s.pcFirst ≤ s.pcLast)) &&
    (s.matchAddress == 0#8 || decide (s.addressFirst ≤ s.addressLast))

/-- The number of an observation's kind: the constructors stand in the order of `EMUIF_OBS_*`. -/
def obsNumber (kind : ObsKind) : Nat := kind.ctorIdx

/-- `selector_match`. -/
def Selector.matches (s : Selector) (e : Event) : Bool :=
  let o := e.observation
  -- Each line is a condition that holds when its flag is clear.
  (s.canonicalSpace == 0#8 || e.inCanonicalSpace s.canonicalSpace) &&
    (s.matchObservationKind == 0#8 || s.observationKind.toNat == obsNumber o.kind) &&
    (s.matchAccess == 0#8 || s.accessMask &&& e.access != 0#8) &&
    -- A canonical event is matched by its PC only where the PC is known.
    (!e.isCanonical || s.matchPc == 0#8 || o.known &&& ObsKnown.pc != 0#8) &&
    (!e.isCanonical ||
      -- Addresses, spaces and accesses are those of accesses.
      !(s.matchAddress != 0#8 || s.matchAddressSpace != 0#8 || s.canonicalSpace != 0#8 ||
        s.matchAccess != 0#8) ||
      o.kind == .accessAttempt || o.kind == .accessResult) &&
    (s.matchKind == 0#8 || s.kind == e.kind) &&
    (s.matchAddressSpace == 0#8 || s.addressSpace == e.addressSpace) &&
    -- The numeric ranges include both ends.
    (s.matchPc == 0#8 || (decide (s.pcFirst ≤ e.pc) && decide (e.pc ≤ s.pcLast))) &&
    (s.matchAddress == 0#8 ||
      (decide (s.addressFirst ≤ e.address) && decide (e.address ≤ s.addressLast)))

/-- `trace_index`. -/
def TraceConfig.traceIndex (c : TraceConfig) (id : Nat) : Option (Fin c.traces.length) :=
  c.traces.findFinIdx? (·.traceId == id)

/-- `destination_index`. -/
def TraceConfig.destinationIndex (c : TraceConfig) (id : Nat) : Option (Fin c.destinations.length) :=
  c.destinations.findFinIdx? (· == id)

/-- `ids_valid`. -/
def TraceConfig.idsValid (c : TraceConfig) (ids : List Nat) : Bool :=
  !ids.isEmpty && decide (ids.length ≤ maxRoutes) && ids.all (fun id => (c.traceIndex id).isSome) &&
    decide (ids.Pairwise (· < ·))

/-- The routes of a point or a gate: only a canonical selector may do without any. -/
def TraceConfig.routesValid (c : TraceConfig) (s : Selector) (ids : List Nat) : Bool :=
  (s.canonical != 0#8 && ids.isEmpty) || c.idsValid ids

/-- `config_valid`. -/
def TraceConfig.valid (c : TraceConfig) : Bool :=
  -- The tables are within their limits and sorted by identity.
  decide (c.traces.length ≤ maxTraces) && decide (c.destinations.length ≤ maxDestinations) &&
    decide (c.points.length ≤ maxPoints) && decide (c.gates.length ≤ maxGates) &&
    c.destinations.all (· != 0) && decide (c.destinations.Pairwise (· < ·)) &&
    -- A trace has its destination in the same configuration.
    c.traces.all (fun t =>
      t.traceId != 0 && decide (t.enabled ≤ 1#8) &&
        decide (t.interruptPolicy ≤ InterruptPolicy.interruptOnly) && utf8Terminated t.tag &&
        utf8Terminated t.comment && (c.destinationIndex t.destinationId).isSome) &&
    decide ((c.traces.map TraceSession.traceId).Pairwise (· < ·)) &&
    -- A point routes to traces of the same configuration.
    c.points.all (fun p =>
      p.pointId != 0 && decide (p.enabled ≤ 1#8) && p.selector.valid &&
        c.routesValid p.selector p.traceIds) &&
    decide ((c.points.map TracePoint.pointId).Pairwise (· < ·)) &&
    -- So does a gate.
    c.gates.all (fun g =>
      g.gateId != 0 && decide (g.enabled ≤ 1#8) && decide (g.action ≤ GateAction.off) &&
        decide (g.timing ≤ GateTiming.after) && g.selector.valid &&
        c.routesValid g.selector g.traceIds) &&
    decide ((c.gates.map TraceGate.gateId).Pairwise (· < ·))

/-! ### Records -/

/-- `em8051_debug_trace_record_kind`. -/
inductive RecordKind where
  | event
  | suppression
  deriving DecidableEq, Repr

/-- `struct em8051_debug_trace_suppression`. -/
structure Suppression where
  firstSequence : Nat := 0
  lastSequence : Nat := 0
  count : Nat := 0
  traceId : Nat := 0
  entryDepth : Nat := 0
  maximumDepth : Nat := 0
  interruptPolicy : Byte := 0#8
  deriving DecidableEq, Repr

/-- `struct em8051_debug_trace_record`. -/
structure RoutedRecord where
  event : Event := {}
  watchResult : WatchResult := {}
  suppression : Suppression := {}
  traceIds : List Nat := []
  destinationId : Nat
  kind : RecordKind
  deriving DecidableEq, Repr

/-- `struct em8051_debug_trace_ring`, its records from the oldest on. -/
structure EventRing where
  records : List RoutedRecord := []
  overwritten : Nat := 0
  deriving DecidableEq, Repr

/-- `ring_push`. -/
def EventRing.push (r : EventRing) (record : RoutedRecord) : EventRing :=
  -- The oldest record makes room for the new one.
  if r.records.length = ringCapacity then
    { records := r.records.tail ++ [record], overwritten := saturate r.overwritten 1 }
  else { r with records := r.records ++ [record] }

/-! ### The router -/

/-- `struct em8051_debug_trace_router`; an inactive suppression state is `none`. -/
structure Router where
  config : TraceConfig := {}
  rings : Nat → EventRing := fun _ => {}
  suppression : Nat → Option Suppression := fun _ => none
  seenTraceIds : List Nat := []
  lastSequence : Nat := 0
  interruptDepth : Nat := 0
  openSourceEvent : Event := {}
  sourceOpen : Bool := false

/-- The callbacks of a router over their context; a missing one does nothing and answers yes. -/
structure Delivery (ω : Type) where
  deliver : ω → RoutedRecord → ω
  eligible : ω → Nat → Event → Bool × ω

/-- What the router does with the traces it routes to, in the order it happens. -/
inductive Act where
  /-- An enabled trace is asked whether it is eligible for an event. -/
  | asked (traceId : Nat) (event : Event) (answer : Bool)
  /-- `suppression_add` holds the event back. -/
  | suppressed (traceId : Nat) (event : Event)
  /-- A record goes to its ring and is delivered. -/
  | emitted (record : RoutedRecord)
  deriving DecidableEq, Repr

/-- A router with the context of its callbacks and the history of what it did. -/
structure Routing (ω : Type) where
  router : Router
  context : ω
  history : List Act

variable {ω : Type}

/-- `em8051_debug_trace_router_init`. -/
def Routing.initial (context : ω) : Routing ω where
  router := {}
  context := context
  history := []

/-- A gate sets the enable flag of a trace. -/
def TraceConfig.setEnabled (c : TraceConfig) (enabled : Byte) (id : Nat) : TraceConfig :=
  match c.traceIndex id with
  -- Gates may name traces that are not there.
  | none => c
  | some ti => { c with traces := c.traces.modify ti fun t => { t with enabled := enabled } }

/-- A gate that takes part: it is enabled, of the timing, and its selector matches. -/
def TraceGate.fires (g : TraceGate) (e : Event) (timing : Byte) : Bool :=
  g.enabled != 0#8 && g.timing == timing && g.selector.matches e

/-- One pass of the loop of `apply_gates`. -/
def TraceConfig.applyGate (c : TraceConfig) (g : TraceGate) : TraceConfig :=
  g.traceIds.foldl (fun c => c.setEnabled (if g.action = GateAction.on then 1#8 else 0#8)) c

/-- `apply_gates`. -/
def TraceConfig.applyGates (c : TraceConfig) (e : Event) (timing : Byte) : TraceConfig :=
  -- The gates run in the order of the table, the later ones over the earlier.
  (c.gates.filter (·.fires e timing)).foldl TraceConfig.applyGate c

/-- `policy_accepts`. -/
def policyAccepts (policy kind : Byte) (depth : Nat) : Bool :=
  let outerEnter := kind == EventKind.interruptEnter && depth == 0
  let outerExit := kind == EventKind.interruptExit && depth == 1
  -- RESET and LOAD pass every policy.
  if kind = EventKind.reset ∨ kind = EventKind.load then true
  else if policy = InterruptPolicy.included then true
  else if policy = InterruptPolicy.suppressDuringInterrupt then
    -- The outermost entry and exit of an interrupt pass as well.
    depth == 0 || outerEnter || outerExit
  -- The trace follows interrupts, with the entry that begins them.
  else depth != 0 || outerEnter

/-- The suppression state after one more event. -/
def Suppression.grow (v : Suppression) (e : Event) (depth : Nat) : Suppression :=
  { v with
    lastSequence := e.sequence
    -- The number of events saturates.
    count := saturate v.count 1
    maximumDepth := max v.maximumDepth depth }

/-- The state a trace begins a suppression with. -/
def TraceSession.suppression (t : TraceSession) (e : Event) (depth : Nat) : Suppression where
  firstSequence := e.sequence
  traceId := t.traceId
  entryDepth := depth
  interruptPolicy := t.interruptPolicy

/-- `suppression_add`. -/
def Routing.suppressionAdd (s : Routing ω) (ti : Fin s.router.config.traces.length) (e : Event) :
    Routing ω :=
  let r := s.router
  let t := r.config.traces.get ti
  -- The first event held back opens the suppression.
  let v := (r.suppression ti).getD (t.suppression e r.interruptDepth)
  { s with
    router := { r with
      suppression := Function.update r.suppression ti (some (v.grow e r.interruptDepth)) }
    history := s.history ++ [.suppressed t.traceId e] }

/-- `ring_push` and the callback: a record of the destination at an index. -/
def Routing.emit (hooks : Delivery ω) (s : Routing ω) (di : Nat) (record : RoutedRecord) :
    Routing ω where
  -- The ring takes the record before it is delivered.
  router :=
    let r := s.router
    { r with rings := Function.update r.rings di ((r.rings di).push record) }
  context := hooks.deliver s.context record
  history := s.history ++ [.emitted record]

/-- The summary of a suppression. -/
def TraceSession.summary (t : TraceSession) (v : Suppression) : RoutedRecord where
  kind := .suppression
  destinationId := t.destinationId
  traceIds := [t.traceId]
  suppression := v

/-- `suppression_emit`. -/
def Routing.suppressionEmit (hooks : Delivery ω) (s : Routing ω)
    (ti : Fin s.router.config.traces.length) : Routing ω :=
  let t := s.router.config.traces.get ti
  match s.router.suppression ti, s.router.config.destinationIndex t.destinationId with
  | some v, some di =>
    let s := s.emit hooks di (t.summary v)
    { s with router := { s.router with
      suppression := Function.update s.router.suppression ti none } }
  -- Every trace of a valid configuration has its destination.
  | _, _ => s

/-- What the `eligible` callback answers. -/
def Routing.answer (hooks : Delivery ω) (s : Routing ω) (id : Nat) (e : Event) : Bool :=
  (hooks.eligible s.context id e).1

/-- The state the `eligible` callback leaves. -/
def Routing.asked (hooks : Delivery ω) (s : Routing ω) (id : Nat) (e : Event) : Routing ω where
  router := s.router
  context := (hooks.eligible s.context id e).2
  history := s.history ++ [.asked id e (s.answer hooks id e)]

/-- The records an event has so far, by the index of their destination. -/
abbrev Records := Nat → Option RoutedRecord

/-- A trace joins the record of its destination. -/
def Records.join (records : Records) (t : TraceSession) (di : Nat) (e : Event)
    (result : Option WatchResult) : Records :=
  -- The first trace opens the record; the others only join it.
  let record := (records di).getD
    { kind := .event, destinationId := t.destinationId, event := e, watchResult := result.getD {} }
  Function.update records di (some { record with traceIds := record.traceIds ++ [t.traceId] })

/-- The enable flag of the trace at an index: the snapshot has it, or else the trace. -/
def TraceConfig.enabledAt (c : TraceConfig) (snapshot : Option (List Byte))
    (ti : Fin c.traces.length) : Bool :=
  match snapshot with
  | some flags => flags.getD ti 0#8 != 0#8
  | none => (c.traces.get ti).enabled != 0#8

/-- What `route_ids` does for an enabled trace that is eligible. -/
def Routing.pass (hooks : Delivery ω) (e : Event) (result : Option WatchResult) (s : Routing ω)
    (records : Records) (ti : Fin s.router.config.traces.length) : Routing ω × Records :=
  let t := s.router.config.traces.get ti
  -- The policy of the trace decides between suppression and emission.
  if !policyAccepts t.interruptPolicy e.kind s.router.interruptDepth then
    (s.suppressionAdd ti e, records)
  else
    match s.router.config.destinationIndex t.destinationId with
    -- No destination: neither suppressed nor recorded.
    | none => (s, records)
    -- A pending suppression is reported before the event.
    | some di => (s.suppressionEmit hooks ti, records.join t di e result)

/-- One pass of the routing loop of `route_ids`. -/
def Routing.routeId (hooks : Delivery ω) (e : Event) (result : Option WatchResult)
    (snapshot : Option (List Byte)) (loop : Routing ω × Records) (id : Nat) : Routing ω × Records :=
  let (s, records) := loop
  match s.router.config.traceIndex id with
  -- An identity without a trace is passed over.
  | none => loop
  | some ti =>
    -- A disabled trace is not asked.
    if !s.router.config.enabledAt snapshot ti then loop
    else
      let id := (s.router.config.traces.get ti).traceId
      -- A trace that is not eligible changes nothing but the context of the callback.
      if !s.answer hooks id e then (s.asked hooks id e, records)
      else (s.asked hooks id e).pass hooks e result records ti

/-- The record of the destination at an index goes out, when there is one. -/
def Routing.emitAt (hooks : Delivery ω) (records : Records) (s : Routing ω) (di : Nat) :
    Routing ω :=
  match records di with
  | none => s
  | some record => s.emit hooks di record

/-- The check `route_ids` begins with. -/
def TraceConfig.routable (c : TraceConfig) (ids : List Nat) : Bool :=
  -- The identities are those of traces, in increasing order.
  ids.all (fun id => id != 0 && (c.traceIndex id).isSome) && decide (ids.Pairwise (· < ·))

/-- `route_ids`. -/
def Routing.routeIds (hooks : Delivery ω) (s : Routing ω) (e : Event) (ids : List Nat)
    (result : Option WatchResult) (snapshot : Option (List Byte)) : EventStatus × Routing ω :=
  if !s.router.config.routable ids then (.invalidArgument, s)
  else
    -- The records go out by destination once all traces have been seen.
    let (routed, records) := ids.foldl (Routing.routeId hooks e result snapshot) (s, fun _ => none)
    (.ok, (List.range s.router.config.destinations.length).foldl
      (Routing.emitAt hooks records) routed)

/-! ### Operations -/

/-- A suppression stays with a trace whose destination and policy stay. -/
def TraceConfig.keepsSuppression (c : TraceConfig) (t : TraceSession) : Bool :=
  match c.traceIndex t.traceId with
  -- A trace that is gone cannot keep its suppression.
  | none => false
  | some ti =>
    (c.traces.get ti).destinationId == t.destinationId &&
      (c.traces.get ti).interruptPolicy == t.interruptPolicy

/-- An active suppression would get lost. -/
def Router.losesSuppression (r : Router) (c : TraceConfig) : Bool :=
  (List.finRange r.config.traces.length).any fun ti =>
    (r.suppression ti).isSome && !c.keepsSuppression (r.config.traces.get ti)

/-- The identities of the traces that were not there before. -/
def Router.newIds (r : Router) (c : TraceConfig) : List Nat :=
  (c.traces.map TraceSession.traceId).filter fun id => (r.config.traceIndex id).isNone

/-- The rings of a new configuration: those of kept destinations stay. -/
def Router.carriedRings (r : Router) (c : TraceConfig) (di : Nat) : EventRing :=
  match c.destinations[di]? with
  | none => {}
  -- A destination that is new begins with an empty ring.
  | some id =>
    match r.config.destinationIndex id with
    | none => {}
    | some old => r.rings old

/-- The suppressions of a new configuration: those of kept traces stay. -/
def Router.carriedSuppression (r : Router) (c : TraceConfig) (ti : Nat) : Option Suppression :=
  match c.traces[ti]? with
  | none => none
  | some t =>
    match r.config.traceIndex t.traceId with
    | none => none
    | some old =>
      -- Destination and policy are the same, so the suppression goes on.
      if (r.config.traces.get old).destinationId = t.destinationId ∧
          (r.config.traces.get old).interruptPolicy = t.interruptPolicy then
        r.suppression old
      else none

/-- `em8051_debug_trace_router_replace`. -/
def Router.replace (r : Router) (c : TraceConfig) : EventStatus × Router :=
  -- The checks come in the order of the source; the router changes only after the last one.
  if !c.valid then (.invalidArgument, r)
  else if r.sourceOpen then (.busy, r)
  else if r.losesSuppression c then (.busy, r)
  -- An identity that was used before is never used again.
  else if (r.newIds c).any (· ∈ r.seenTraceIds) then (.duplicateId, r)
  else if maxSeenIds - r.seenTraceIds.length < (r.newIds c).length then (.limit, r)
  else
    (.ok, { r with
      config := c
      rings := r.carriedRings c
      suppression := r.carriedSuppression c
      -- The identities of traces that are gone stay in the list.
      seenTraceIds := r.seenTraceIds ++ r.newIds c })

/-- What `em8051_debug_trace_router_source_begin` refuses. -/
def Router.refusesSource (r : Router) (e : Event) : Bool :=
  -- One source event at a time, with numbers that increase.
  r.sourceOpen || e.sequence == 0 || decide (e.sequence ≤ r.lastSequence) ||
    e.kind == EventKind.watchMatch ||
    -- An exit needs an interrupt to leave, and the depth has 32 bits.
    (e.kind == EventKind.interruptExit && r.interruptDepth == 0) ||
    (e.kind == EventKind.interruptEnter && r.interruptDepth == 2 ^ 32 - 1)

/-- A point that selects an event. -/
def TracePoint.selects (p : TracePoint) (e : Event) : Bool :=
  p.enabled != 0#8 && p.selector.matches e

/-- The identities the points of a configuration route an event to. -/
def TraceConfig.pointIds (c : TraceConfig) (e : Event) : List Nat :=
  (c.points.filter (·.selects e)).foldl
    (fun ids p => p.traceIds.foldl (fun ids id => insertRoute id ids) ids) []

/-- The router after the gates of a timing. -/
def Routing.gated (s : Routing ω) (e : Event) (timing : Byte) : Routing ω :=
  { s with router := { s.router with config := s.router.config.applyGates e timing } }

/-- The interrupt depth behind an event. -/
def depthAfter (e : Event) (depth : Nat) : Nat :=
  -- The depth counts open interrupts.
  if e.kind = EventKind.interruptEnter then depth + 1
  else if e.kind = EventKind.interruptExit then depth - 1
  else depth

/-- `em8051_debug_trace_router_source_begin`. -/
def Routing.sourceBegin (hooks : Delivery ω) (s : Routing ω) (e : Event) :
    EventStatus × Routing ω :=
  if s.router.refusesSource e then (.invalidArgument, s)
  else
    let c := s.router.config
    -- The gates before an event act before it is routed.
    let gated := s.gated e GateTiming.before
    let (status, routed) :=
      -- RESET and LOAD go to every trace, by the flags from before the gates.
      if e.isLifecycle then
        gated.routeIds hooks e (c.traces.map TraceSession.traceId) none
          (some (c.traces.map TraceSession.enabled))
      -- Other events go where the points that select them say.
      else gated.routeIds hooks e (gated.router.config.pointIds e) none none
    if status ≠ .ok then (status, routed)
    else
      (.ok, { routed with router := { routed.router with
        -- The depth changes once the event has been routed.
        interruptDepth := depthAfter e routed.router.interruptDepth
        lastSequence := e.sequence
        openSourceEvent := e
        sourceOpen := true } })

/-- `em8051_debug_trace_router_source_end`. -/
def Routing.sourceEnd (s : Routing ω) : EventStatus × Routing ω :=
  if !s.router.sourceOpen then (.invalidArgument, s)
  else
    -- The gates behind the event act when it ends.
    let gated := s.gated s.router.openSourceEvent GateTiming.after
    (.ok, { gated with router := { gated.router with openSourceEvent := {}, sourceOpen := false } })

/-- What `em8051_debug_trace_router_watch` refuses. -/
def Router.refusesWatch (r : Router) (e : Event) (result : WatchResult) : Bool :=
  -- A watch match is an event of its own.
  e.kind != EventKind.watchMatch || e.sequence == 0 || decide (e.sequence ≤ r.lastSequence) ||
    -- Within an open source event it belongs to that event.
    decide (maxRoutes < result.traceIds.length) ||
    (r.sourceOpen &&
      (result.sourceEventSequence != r.openSourceEvent.sequence ||
        e.generation != r.openSourceEvent.generation))

/-- `em8051_debug_trace_router_watch`. -/
def Routing.watch (hooks : Delivery ω) (s : Routing ω) (e : Event) (result : WatchResult) :
    EventStatus × Routing ω :=
  if s.router.refusesWatch e result then (.invalidArgument, s)
  else
    let (status, routed) := s.routeIds hooks e result.traceIds (some result) none
    -- Only a match that was routed takes up its number.
    if status = .ok then
      (status, { routed with router := { routed.router with lastSequence := e.sequence } })
    else (status, routed)

/-- The trace at an index has its suppression emitted when it is one of those to flush. -/
def Routing.flushAt (hooks : Delivery ω) (chosen : TraceSession → Bool) (s : Routing ω) (ti : Nat) :
    Routing ω :=
  -- The number of traces is that of the configuration.
  if within : ti < s.router.config.traces.length then
    if chosen s.router.config.traces[ti] then s.suppressionEmit hooks ⟨ti, within⟩ else s
  else s

/-- The loop of the flushing functions. -/
def Routing.flushTraces (hooks : Delivery ω) (chosen : TraceSession → Bool) (s : Routing ω) :
    EventStatus × Routing ω :=
  -- A suppression is not cut while a source event is open.
  if s.router.sourceOpen then (.busy, s)
  else
    (.ok, (List.range s.router.config.traces.length).foldl (Routing.flushAt hooks chosen) s)

/-- `em8051_debug_trace_router_flush`. -/
def Routing.flush (hooks : Delivery ω) (s : Routing ω) : EventStatus × Routing ω :=
  s.flushTraces hooks fun _ => true

/-- `emu_debug_trace_flush_selected`; zero stands for any identity. -/
def Routing.flushSelected (hooks : Delivery ω) (s : Routing ω) (destinationId traceId : Nat) :
    EventStatus × Routing ω :=
  s.flushTraces hooks fun t =>
    (destinationId == 0 || t.destinationId == destinationId) &&
      (traceId == 0 || t.traceId == traceId)

/-! ### Runs -/

/-- What a router is asked to do. -/
inductive Call where
  | replace (c : TraceConfig)
  | sourceBegin (e : Event)
  | sourceEnd
  | watch (e : Event) (result : WatchResult)
  | flush
  | flushSelected (destinationId traceId : Nat)

/-- The status of a call and the state it leaves. -/
def Call.perform (hooks : Delivery ω) (s : Routing ω) : Call → EventStatus × Routing ω
  | .replace c => ((s.router.replace c).1, { s with router := (s.router.replace c).2 })
  | .sourceBegin e => s.sourceBegin hooks e
  | .sourceEnd => s.sourceEnd
  | .watch e result => s.watch hooks e result
  | .flush => s.flush hooks
  | .flushSelected destinationId traceId => s.flushSelected hooks destinationId traceId

/-- The sequence number of an event has 64 bits. -/
def Call.Fits : Call → Prop
  | .sourceBegin e => e.sequence < 2 ^ 64
  | .watch e _ => e.sequence < 2 ^ 64
  | _ => True

/-- A call between the states it finds and leaves. -/
structure Turn (ω : Type) where
  call : Call
  before : Routing ω
  status : EventStatus
  after : Routing ω

/-- The turns of a router since its initialisation; its callbacks may change from call to call. -/
inductive Run : List (Turn ω) → Routing ω → Prop
  | start (context : ω) : Run [] (.initial context)
  | turn {turns : List (Turn ω)} {s : Routing ω} (run : Run turns s) (hooks : Delivery ω)
    (call : Call) (fits : call.Fits) :
    Run (turns ++ [⟨call, s, (call.perform hooks s).1, (call.perform hooks s).2⟩])
      (call.perform hooks s).2

end Emu80535.Debug
