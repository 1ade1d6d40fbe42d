import Emu80535.Debug.Trace

/-! The debug runtime: one bus, one watch table and one router behind a common interface. -/

namespace Emu80535.Debug

variable {ω : Type}

/-! ### State -/

/-- `enum dispatch_phase`. -/
inductive DispatchPhase where
  | idle
  | source
  | derived
  deriving DecidableEq, Repr

/-- `struct em8051_debug_runtime_stop`. -/
structure RuntimeStop where
  sourceEventSequence : Nat := 0
  matchingWatchCount : Nat := 0
  watchId : Nat := 0
  pending : Bool := false
  deriving DecidableEq, Repr

/-- `EM8051_DEBUG_RUNTIME_PENDING_CAPACITY`. -/
def pendingCapacity : Nat := 32

/-- The callbacks of a runtime, over one context. -/
structure Callbacks (ω : Type) extends Delivery ω where
  /-- `observation_fn`. -/
  observe : ω → Observation → ω

/-- `struct em8051_debug_runtime`. -/
structure Runtime (ω : Type) where
  bus : EventBus
  watches : List Watch
  /-- The router, with the context of the callbacks. -/
  routing : Routing ω
  pending : List WatchResult := []
  sourceEvent : Event := {}
  stop : RuntimeStop := {}
  acceptedSourceEvents : Nat := 0
  rejectedSourceEvents : Nat := 0
  derivedEvents : Nat := 0
  pendingOverflows : Nat := 0
  consoleMatches : Nat := 0
  derivedIndex : Nat := 0
  generation : Nat
  dispatchStatus : EventStatus := .ok
  phase : DispatchPhase := .idle
  busy : Bool := false
  /-- The events the bus has handed out, in order. -/
  emitted : List Event := []

/-- `runtime_initialize`. -/
def Runtime.initial (context : ω) : Runtime ω where
  bus := .init
  watches := []
  routing := .initial context
  generation := 1

/-- `watch_routes_valid`. -/
def watchRoutesValid (watches : List Watch) (c : TraceConfig) : Bool :=
  watches.all fun w =>
    w.actions.all fun a =>
      a.kind != WatchAction.route || a.traceIds.all fun id => (c.traceIndex id).isSome

/-- `sequence_room`. -/
def EventBus.room (bus : EventBus) (additional : Nat) : Bool :=
  additional == 0 ||
    (bus.nextSequence != 0 && decide (additional - 1 ≤ 2 ^ 64 - 1 - bus.nextSequence))

/-- `event_value_valid`. -/
def Value.valid (v : Value) : Bool :=
  -- A known value has a width.
  decide (v.known ≤ 1#8) && decide (v.isSigned ≤ 1#8) &&
    (v.width == 0#8 || valueWidthValid v.width) && (v.known == 0#8 || v.width != 0#8)

/-- `source_event_valid`. -/
def Event.sourceValid (e : Event) : Bool :=
  -- Watch matches are made by the runtime, never by its sources.
  decide (e.kind ≤ EventKind.debuggerMutation) && decide (e.addressSpace ≤ AddressSpace.xdata) &&
    e.access &&& ~~~allAccess == 0#8 && e.oldValue.valid && e.newValue.valid

/-- `update_stop_candidate`. -/
def RuntimeStop.update (stop : RuntimeStop) (watchId sourceSequence : Nat) : RuntimeStop :=
  let counted :=
    { stop with matchingWatchCount := saturate stop.matchingWatchCount 1, pending := true }
  -- The smallest watch is kept, and of the same watch the earliest event.
  if stop.pending = false ∨ watchId < stop.watchId ∨
      (watchId = stop.watchId ∧ sourceSequence < stop.sourceEventSequence) then
    { counted with watchId := watchId, sourceEventSequence := sourceSequence }
  else counted

/-! ### Dispatch -/

/-- The observation callback, for an event with canonical facts. -/
def Routing.observed (hooks : Callbacks ω) (s : Routing ω) (e : Event) : Routing ω :=
  if e.isCanonical then { s with context := hooks.observe s.context e.observation } else s

/-- The results an event may have at most. -/
def Event.pendingRoom (e : Event) : Nat := if e.isCanonical then maxWatches else pendingCapacity

/-- `runtime_observer` while a source event is dispatched. -/
def Runtime.observeSource (hooks : Callbacks ω) (r : Runtime ω) (e : Event) : Runtime ω :=
  let results := watchTableMatch r.watches e
  -- No source may claim to be a watch match.
  if e.kind = EventKind.watchMatch then { r with dispatchStatus := .invalidArgument }
  -- All results of an event are kept, or none.
  else if e.pendingRoom < results.length then
    { r with
      pending := []
      pendingOverflows := saturate r.pendingOverflows 1
      dispatchStatus := .limit }
  -- Every result needs a number of its own.
  else if !r.bus.room results.length then { r with pending := [], dispatchStatus := .limit }
  else
    -- The router sees the event once its results fit.
    let (status, routing) := r.routing.sourceBegin hooks.toDelivery e
    { r with
      pending := results
      sourceEvent := e
      dispatchStatus := status
      routing := routing }

/-- `runtime_observer` while derived events are dispatched. -/
def Runtime.observeDerived (hooks : Callbacks ω) (r : Runtime ω) (e : Event) : Runtime ω :=
  -- The result is the one the loop has come to.
  match r.pending[r.derivedIndex]? with
  | none => { r with dispatchStatus := .invalidArgument }
  | some result =>
    if e.kind ≠ EventKind.watchMatch then { r with dispatchStatus := .invalidArgument }
    else
      let (status, routing) := r.routing.watch hooks.toDelivery e result
      { r with dispatchStatus := status, routing := routing }

/-- `runtime_observer`. -/
def Runtime.observer (hooks : Callbacks ω) (r : Runtime ω) (e : Event) : Runtime ω :=
  if r.dispatchStatus ≠ .ok then r
  -- The observation is handed over in every phase.
  else
    let observed := { r with routing := r.routing.observed hooks e }
    match r.phase with
    | .source => observed.observeSource hooks e
    | .derived => observed.observeDerived hooks e
    -- Nothing is dispatched between the operations.
    | .idle => { observed with dispatchStatus := .busy }

/-- `em8051_debug_event_bus_emit`, to the observer of the runtime. -/
def Runtime.emit (hooks : Callbacks ω) (r : Runtime ω) (e : Event) : EventStatus × Runtime ω :=
  if r.bus.accepts e ≠ .ok then (r.bus.accepts e, r)
  -- The event is numbered before the observer sees it.
  else
    let event := r.bus.numbered e
    let dispatching := { r with
      bus := { r.bus.advanced with dispatching := true }
      emitted := r.emitted ++ [event] }
    let after := dispatching.observer hooks event
    -- The bus is free again, whatever the observer has said.
    (.ok, { after with bus := { after.bus with dispatching := false } })

/-- An emission with the status the observer left. -/
def Runtime.dispatch (hooks : Callbacks ω) (r : Runtime ω) (e : Event) : EventStatus × Runtime ω :=
  let (status, after) := r.emit hooks e
  (if status = .ok then after.dispatchStatus else status, after)

/-- The event derived from a source event for a watch. -/
def Event.derived (e : Event) (result : WatchResult) : Event :=
  let o := e.observation
  { e with
    -- The bus numbers the derived event itself.
    sequence := 0
    kind := EventKind.watchMatch
    observation :=
      if e.isCanonical then
        { o with
          kind := .watch
          phase := .boundary
          sourceEventSequence := result.sourceEventSequence
          watchId := result.watchId
          firedActions := result.firedActionMask }
      else o }

/-- The loop of `runtime_ingest` over the pending results; it stops at the first failure. -/
def Runtime.derive (hooks : Callbacks ω) :
    List (WatchResult × Nat) → Runtime ω → EventStatus × Runtime ω
  | [], r => (.ok, r)
  | (result, index) :: rest, r =>
    let (status, after) :=
      { r with derivedIndex := index, dispatchStatus := .ok }.dispatch hooks
        (r.sourceEvent.derived result)
    if status = .ok then derive hooks rest after else (status, after)

/-- The result of one watch goes into the stop candidate and the counters. -/
def Runtime.mergeResult (r : Runtime ω) (result : WatchResult) : Runtime ω :=
  { r with
    stop :=
      if result.stop then r.stop.update result.watchId result.sourceEventSequence else r.stop
    consoleMatches := if result.console then saturate r.consoleMatches 1 else r.consoleMatches }

/-- `merge_stops_and_counts`. -/
def Runtime.mergeStopsAndCounts (r : Runtime ω) : Runtime ω :=
  let merged := r.pending.foldl Runtime.mergeResult r
  { merged with derivedEvents := saturate merged.derivedEvents r.pending.length }

/-- The end of `runtime_ingest`. -/
def Runtime.settle (r : Runtime ω) (status : EventStatus) : EventStatus × Runtime ω :=
  let counted :=
    -- A rejected source event is counted, but its stops are not.
    if status = .ok then
      let merged := r.mergeStopsAndCounts
      { merged with acceptedSourceEvents := saturate merged.acceptedSourceEvents 1 }
    else { r with rejectedSourceEvents := saturate r.rejectedSourceEvents 1 }
  (status, { counted with phase := .idle, busy := false })

/-- The source event ends when it is open; the first failure counts. -/
def Runtime.close (r : Runtime ω) (status : EventStatus) : EventStatus × Runtime ω :=
  if r.routing.router.sourceOpen then
    let (ended, routing) := r.routing.sourceEnd
    (if status = .ok then ended else status, { r with routing := routing })
  else (status, r)

/-- A runtime about to dispatch a source event. -/
def Runtime.opened (r : Runtime ω) : Runtime ω :=
  { r with busy := true, phase := .source, dispatchStatus := .ok, pending := [], derivedIndex := 0 }

/-- What `runtime_ingest` does when the source event has been dispatched. -/
def Runtime.ingestRest (hooks : Callbacks ω) (answer : EventStatus × Runtime ω) :
    EventStatus × Runtime ω :=
  let (status, dispatched) := answer
  -- A source event that was refused has nothing to derive and nothing to close.
  if status ≠ .ok then dispatched.settle status
  else
    let (status, derived) := Runtime.derive hooks dispatched.pending.zipIdx
      { dispatched with phase := .derived }
    let (status, closed) := derived.close status
    closed.settle status

/-- `runtime_ingest`. -/
def Runtime.ingestAny (hooks : Callbacks ω) (r : Runtime ω) (e : Event) (allowLifecycle : Bool) :
    EventStatus × Runtime ω :=
  -- The checks of the caller's event come before the one for an operation in progress.
  if e.sequence ≠ 0 ∨ (allowLifecycle = false ∧ e.isLifecycle = true) ∨ e.sourceValid = false then
    (.invalidArgument, r)
  else if r.busy then (.busy, r)
  else
    Runtime.ingestRest hooks (r.opened.dispatch hooks { e with generation := r.generation })

/-! ### Operations -/

/-- `em8051_debug_runtime_ingest`. -/
def Runtime.ingest (hooks : Callbacks ω) (r : Runtime ω) (e : Event) : EventStatus × Runtime ω :=
  r.ingestAny hooks e false

/-- `replace_config`. -/
def Runtime.replaceConfig (r : Runtime ω) (candidate : TraceConfig) : EventStatus × Runtime ω :=
  -- Watches must route to traces that remain.
  if !watchRoutesValid r.watches candidate then (.invalidArgument, r)
  else
    let (status, router) := r.routing.router.replace candidate
    (status, { r with routing := { r.routing with router := router } })

/-- `em8051_debug_runtime_replace_watches`. -/
def Runtime.replaceWatches (r : Runtime ω) (watches : List Watch) : EventStatus × Runtime ω :=
  if r.busy then (.busy, r)
  else
    match watchTableReplace watches with
    | .error status => (status, r)
    | .ok candidate =>
      if !watchRoutesValid candidate r.routing.router.config then (.invalidArgument, r)
      else (.ok, { r with watches := candidate })

/-- The replacement of one member of the configuration, with so many values of at most so many. -/
def Runtime.replaceMember (r : Runtime ω) (count maximum : Nat) (candidate : TraceConfig) :
    EventStatus × Runtime ω :=
  if r.busy then (.busy, r)
  else if maximum < count then (.limit, r)
  else r.replaceConfig candidate

/-- `em8051_debug_runtime_replace_traces`. -/
def Runtime.replaceTraces (r : Runtime ω) (traces : List TraceSession) : EventStatus × Runtime ω :=
  r.replaceMember traces.length maxTraces { r.routing.router.config with traces := traces }

/-- `em8051_debug_runtime_replace_destinations`. -/
def Runtime.replaceDestinations (r : Runtime ω) (destinations : List Nat) :
    EventStatus × Runtime ω :=
  r.replaceMember destinations.length maxDestinations
    { r.routing.router.config with destinations := destinations }

/-- `em8051_debug_runtime_replace_points`. -/
def Runtime.replacePoints (r : Runtime ω) (points : List TracePoint) : EventStatus × Runtime ω :=
  r.replaceMember points.length maxPoints { r.routing.router.config with points := points }

/-- `em8051_debug_runtime_replace_gates`. -/
def Runtime.replaceGates (r : Runtime ω) (gates : List TraceGate) : EventStatus × Runtime ω :=
  r.replaceMember gates.length maxGates { r.routing.router.config with gates := gates }

/-- `em8051_debug_runtime_set_trace_enabled`. -/
def Runtime.setTraceEnabled (r : Runtime ω) (ids : List Nat) (enabled : Bool) :
    EventStatus × Runtime ω :=
  let c := r.routing.router.config
  -- The identities are checked before anything is enabled.
  if ids.isEmpty then (.invalidArgument, r)
  else if r.busy then (.busy, r)
  else if maxRoutes < ids.length then (.limit, r)
  else if ¬(idsAscending ids = true ∧ ∀ id ∈ ids, (c.traceIndex id).isSome) then
    (.invalidArgument, r)
  else r.replaceConfig (ids.foldl (fun c => c.setEnabled (if enabled then 1#8 else 0#8)) c)

/-- The event `lifecycle_event` makes. -/
def lifecycleEvent (kind : Byte) (instructionCount machineCycleCount : Nat) (pc : Word) : Event where
  kind := kind
  instructionCount := instructionCount
  machineCycleCount := machineCycleCount
  pc := pc

/-- The generations or the sequence numbers do not suffice for a lifecycle event. -/
def Runtime.spent (r : Runtime ω) : Bool := r.generation == 2 ^ 64 - 1 || !r.bus.room 1

/-- A runtime with another interrupt depth. -/
def Runtime.withDepth (r : Runtime ω) (depth : Nat) : Runtime ω :=
  { r with routing := { r.routing with router := { r.routing.router with interruptDepth := depth } } }

/-- `lifecycle_event`. -/
def Runtime.lifecycle (hooks : Callbacks ω) (r : Runtime ω) (e : Event) : EventStatus × Runtime ω :=
  if r.busy then (.busy, r)
  else if r.spent then (.limit, r)
  else
    -- The depth begins again with the machine.
    let (status, after) := ({ r with generation := r.generation + 1 }.withDepth 0).ingestAny hooks e
      true
    -- A refused event takes back the generation and the depth.
    if status ≠ .ok then
      (status, { after with generation := r.generation }.withDepth r.routing.router.interruptDepth)
    else (status, after)

/-- `em8051_debug_runtime_reset`. -/
def Runtime.reset (hooks : Callbacks ω) (r : Runtime ω) (instructionCount machineCycleCount : Nat)
    (pc : Word) : EventStatus × Runtime ω :=
  r.lifecycle hooks (lifecycleEvent EventKind.reset instructionCount machineCycleCount pc)

/-- `code_selector`. -/
def Selector.selectsCode (s : Selector) : Bool :=
  s.matchPc != 0#8 ||
    (s.matchAddress != 0#8 &&
      (s.matchAddressSpace == 0#8 || s.addressSpace == AddressSpace.code)) ||
    (s.matchAddressSpace != 0#8 && s.addressSpace == AddressSpace.code)

/-- A point of another image is disabled. -/
def TracePoint.unloaded (p : TracePoint) : TracePoint :=
  if p.selector.selectsCode then { p with enabled := 0#8 } else p

/-- A gate of another image is disabled. -/
def TraceGate.unloaded (g : TraceGate) : TraceGate :=
  if g.selector.selectsCode then { g with enabled := 0#8 } else g

/-- A watch of another image is disabled. -/
def Watch.unloaded (w : Watch) : Watch :=
  if w.addressSpace = AddressSpace.code then { w with enabled := 0#8 } else w

/-- The configuration for another image. -/
def TraceConfig.unloaded (c : TraceConfig) : TraceConfig :=
  { c with points := c.points.map TracePoint.unloaded, gates := c.gates.map TraceGate.unloaded }

/-- `em8051_debug_runtime_load`. -/
def Runtime.load (hooks : Callbacks ω) (r : Runtime ω) (instructionCount machineCycleCount : Nat)
    (pc : Word) : EventStatus × Runtime ω :=
  if r.busy then (.busy, r)
  else if r.spent then (.limit, r)
  else
    -- Points and gates on code are disabled for the new image.
    let (status, replaced) := r.replaceConfig r.routing.router.config.unloaded
    if status ≠ .ok then (status, replaced)
    else
      { replaced with watches := r.watches.map Watch.unloaded }.lifecycle hooks
        (lifecycleEvent EventKind.load instructionCount machineCycleCount pc)

/-- `emu_debug_runtime_flush`. -/
def Runtime.flush (hooks : Callbacks ω) (r : Runtime ω) : EventStatus × Runtime ω :=
  if r.busy then (.busy, r)
  else
    let (status, routing) := r.routing.flush hooks.toDelivery
    (status, { r with routing := routing })

/-- `emu_debug_runtime_configure`, given whether there is memory for its candidate. -/
def Runtime.configure (hooks : Callbacks ω) (r : Runtime ω) (allocated : Bool) (c : TraceConfig)
    (watches : List Watch) : EventStatus × Runtime ω :=
  if r.busy then (.busy, r)
  else
    -- The table is made before the configuration is looked at.
    match watchTableReplace watches with
    | .error status => (status, r)
    | .ok table =>
      if !watchRoutesValid table c then (.invalidArgument, r)
      else if !allocated then (.limit, r)
      else
        -- The configuration is tried as if nothing were suppressed.
        let tried := ({ r.routing.router with suppression := fun _ => none }.replace c).1
        if tried ≠ .ok then (tried, r)
        else
          -- The suppressions are reported before they are given up.
          let (flushed, routing) := r.routing.flush hooks.toDelivery
          if flushed ≠ .ok then (flushed, { r with routing := routing })
          else
            let (status, router) := routing.router.replace c
            let after := { r with routing := { routing with router := router } }
            if status = .ok then (status, { after with watches := table }) else (status, after)

/-! ### Runs -/

/-- What a runtime is asked to do. -/
inductive Operation where
  | replaceWatches (watches : List Watch)
  | replaceTraces (traces : List TraceSession)
  | replaceDestinations (destinations : List Nat)
  | replacePoints (points : List TracePoint)
  | replaceGates (gates : List TraceGate)
  | setTraceEnabled (ids : List Nat) (enabled : Bool)
  | configure (allocated : Bool) (c : TraceConfig) (watches : List Watch)
  | ingest (e : Event)
  | reset (instructionCount machineCycleCount : Nat) (pc : Word)
  | load (instructionCount machineCycleCount : Nat) (pc : Word)
  | flush

/-- The status of an operation and the runtime it leaves. -/
def Operation.perform (hooks : Callbacks ω) (r : Runtime ω) :
    Operation → EventStatus × Runtime ω
  | .replaceWatches watches => r.replaceWatches watches
  | .replaceTraces traces => r.replaceTraces traces
  | .replaceDestinations destinations => r.replaceDestinations destinations
  | .replacePoints points => r.replacePoints points
  | .replaceGates gates => r.replaceGates gates
  | .setTraceEnabled ids enabled => r.setTraceEnabled ids enabled
  | .configure allocated c watches => r.configure hooks allocated c watches
  | .ingest e => r.ingest hooks e
  | .reset instructionCount machineCycleCount pc =>
    r.reset hooks instructionCount machineCycleCount pc
  | .load instructionCount machineCycleCount pc =>
    r.load hooks instructionCount machineCycleCount pc
  | .flush => r.flush hooks

/-- A runtime that can be reached; its callbacks may change from operation to operation. -/
inductive Reached : Runtime ω → Prop
  | initial (context : ω) : Reached (.initial context)
  | operation {r : Runtime ω} (reached : Reached r) (hooks : Callbacks ω) (op : Operation) :
    Reached (op.perform hooks r).2

end Emu80535.Debug
