import Emu80535.Proofs.Dispatch

/-! The debug runtime over any sequence of its operations. -/

namespace Emu80535.Debug

variable {ω : Type} {hooks : Callbacks ω} {r r' : Runtime ω} {e : Event}

/-! ### Configuration -/

/-- A router takes a configuration or stays as it is. -/
theorem replace_cases (router : Router) (c : TraceConfig) :
    ((router.replace c).1 = .ok ∧ (router.replace c).2.config = c ∧
      (router.replace c).2.sourceOpen = router.sourceOpen ∧
      (router.replace c).2.lastSequence = router.lastSequence ∧
      (router.replace c).2.interruptDepth = router.interruptDepth) ∨
    ((router.replace c).1 ≠ .ok ∧ (router.replace c).2 = router) := by
  -- Five checks come before the assignment, and each of them returns the router unchanged.
  unfold Router.replace
  split
  next => exact .inr ⟨show EventStatus.invalidArgument ≠ .ok by decide, rfl⟩
  next =>
    split
    next => exact .inr ⟨show EventStatus.busy ≠ .ok by decide, rfl⟩
    next =>
      split
      next => exact .inr ⟨show EventStatus.busy ≠ .ok by decide, rfl⟩
      next =>
        split
        next => exact .inr ⟨show EventStatus.duplicateId ≠ .ok by decide, rfl⟩
        next =>
          split
          next => exact .inr ⟨show EventStatus.limit ≠ .ok by decide, rfl⟩
          next => exact .inl ⟨rfl, rfl, rfl, rfl, rfl⟩

/-- A runtime with a router that took a configuration the watches may route to. -/
theorem Consistent.replaced (consistent : Consistent r) {c : TraceConfig}
    (routes : RoutesKnown r.watches c.traceIds) :
    Consistent { r with routing := { r.routing with
      router := (r.routing.router.replace c).2 } } := by
  have performed := replace_performed consistent.routing c
  -- Only the configuration changes when the router takes it.
  rcases replace_cases r.routing.router c with ⟨-, config, open_, last, -⟩ | ⟨-, same⟩
  · refine ⟨⟨performed.sound, consistent.bus, consistent.watches, ?_, ?_⟩, ?_, consistent.idle⟩
    · change RoutesKnown r.watches (r.routing.router.replace c).2.config.traceIds
      rw [config]
      exact routes
    · change Numbers r.bus (r.routing.router.replace c).2.lastSequence r.emitted
      rw [last]
      exact consistent.numbers
    · exact open_.trans consistent.closed
  · rw [same]
    exact consistent

/-- `replace_config` takes a configuration the watches may route to. -/
theorem Consistent.replaceConfig (consistent : Consistent r) (c : TraceConfig) :
    Consistent (r.replaceConfig c).2 := by
  unfold Runtime.replaceConfig
  split
  next => exact consistent
  next valid =>
    exact consistent.replaced (watchRoutesValid_iff.mp (by simpa using valid))

/-- The replacement of a member. -/
theorem Consistent.replaceMember (consistent : Consistent r) (count maximum : Nat)
    (c : TraceConfig) : Consistent (r.replaceMember count maximum c).2 := by
  unfold Runtime.replaceMember
  split
  next => exact consistent
  next =>
    split
    next => exact consistent
    next => exact consistent.replaceConfig c

/-- The replacement of the watches. -/
theorem Consistent.replaceWatches (consistent : Consistent r) (watches : List Watch) :
    Consistent (r.replaceWatches watches).2 := by
  unfold Runtime.replaceWatches
  -- Busy, refused by the table and refused by the routes leave everything as it was.
  split
  next => exact consistent
  next =>
    split
    next => exact consistent
    next candidate accepted =>
      split
      next => exact consistent
      next valid =>
        exact ⟨⟨consistent.routing, consistent.bus, watchTableReplace_valid accepted,
          watchRoutesValid_iff.mp (by simpa using valid), consistent.numbers⟩, consistent.closed,
          consistent.idle⟩

/-- Setting the flags of some traces. -/
theorem Consistent.setTraceEnabled (consistent : Consistent r) (ids : List Nat) (enabled : Bool) :
    Consistent (r.setTraceEnabled ids enabled).2 := by
  unfold Runtime.setTraceEnabled
  dsimp only
  -- Four refusals, and after them the flags go through the replacement of a configuration.
  split
  next => exact consistent
  next =>
    split
    next => exact consistent
    next =>
      split
      next => exact consistent
      next =>
        split
        next => exact consistent
        next => exact consistent.replaceConfig _

/-! ### Flushing -/

/-- A runtime whose router was flushed. -/
theorem Consistent.flushed (consistent : Consistent r) (hooks : Callbacks ω) :
    Consistent { r with routing := (r.routing.flush hooks.toDelivery).2 } ∧
      (r.routing.flush hooks.toDelivery).1 = .ok ∧
      r.routing.router.AlikeBut (r.routing.flush hooks.toDelivery).2.router := by
  unfold Routing.flush Routing.flushTraces
  rw [if_neg (by rw [consistent.closed]; exact Bool.false_ne_true)]
  -- Every trace is flushed, which emits and clears suppressions but keeps the configuration.
  obtain ⟨final, acts, -, after⟩ := @Sound.flushAll _ hooks.toDelivery r.routing (fun _ => true)
    (List.range r.routing.router.config.traces.length) consistent.routing
  obtain ⟨_, _, shape⟩ := after.router
  refine ⟨⟨⟨final, consistent.bus, consistent.watches, ?_, ?_⟩, ?_, consistent.idle⟩, rfl,
    after.router⟩
  · change RoutesKnown r.watches (Router.config _).traceIds
    rw [shape]
    exact consistent.routes
  · change Numbers r.bus (Router.lastSequence _) r.emitted
    rw [shape]
    exact consistent.numbers
  · rw [shape]
    exact consistent.closed

/-- `emu_debug_runtime_flush`. -/
theorem Consistent.flush (consistent : Consistent r) (hooks : Callbacks ω) :
    Consistent (r.flush hooks).2 := by
  unfold Runtime.flush
  split
  next => exact consistent
  next => exact (consistent.flushed hooks).1

/-- `emu_debug_runtime_configure`. -/
theorem Consistent.configure (consistent : Consistent r) (hooks : Callbacks ω) (allocated : Bool)
    (c : TraceConfig) (watches : List Watch) :
    Consistent (r.configure hooks allocated c watches).2 := by
  unfold Runtime.configure
  split
  next => exact consistent
  next =>
    split
    next => exact consistent
    next table accepted =>
      split
      next => exact consistent
      next valid =>
        split
        next => exact consistent
        next =>
          dsimp only
          split
          next => exact consistent
          next =>
            obtain ⟨flushed, ok, -⟩ := consistent.flushed hooks
            rw [if_neg (not_not.mpr ok)]
            -- Watches and configuration change together or, with an error, not at all.
            have known : RoutesKnown table c.traceIds :=
              watchRoutesValid_iff.mp (by simpa using valid)
            have performed := replace_performed flushed.routing c
            rcases replace_cases (r.routing.flush hooks.toDelivery).2.router c with
              ⟨done, config, open_, last, -⟩ | ⟨failed, same⟩
            · rw [if_pos done]
              refine ⟨⟨performed.sound, consistent.bus, watchTableReplace_valid accepted, ?_, ?_⟩,
                ?_, consistent.idle⟩
              · change RoutesKnown table (Router.config _).traceIds
                rw [config]
                exact known
              · change Numbers r.bus (Router.lastSequence _) r.emitted
                rw [last]
                exact flushed.numbers
              · exact open_.trans flushed.closed
            · rw [if_neg failed, same]
              exact flushed

/-! ### Lifecycle -/

/-- Generation and depth are not part of what has to be consistent. -/
theorem Consistent.shifted (consistent : Consistent r) (generation depth : Nat) :
    Consistent ({ r with generation := generation }.withDepth depth) :=
  ⟨⟨⟨consistent.routing.valid, consistent.routing.kept, consistent.routing.bounded,
    consistent.routing.last⟩, consistent.bus, consistent.watches, consistent.routes,
    consistent.numbers⟩, consistent.closed, consistent.idle⟩

/-- A runtime in the next generation, outside of any interrupt. -/
def Runtime.renewed (r : Runtime ω) : Runtime ω :=
  { r with generation := r.generation + 1 }.withDepth 0

/-- What a lifecycle event may come to. -/
structure Renewed (hooks : Callbacks ω) (r : Runtime ω) (e : Event)
    (answer : EventStatus × Runtime ω) : Prop where
  consistent : Consistent answer.2
  failed : answer.1 ≠ .ok → Untouched r answer.2
  passed : answer.1 = .ok → answer.2.watches = r.watches ∧
    answer.2.generation = r.generation + 1 ∧ ∃ steps, Dispatched hooks r.renewed answer.2
      (r.bus.numbered { e with generation := r.generation + 1 }) steps

/-- `lifecycle_event` goes through or leaves everything as it was. -/
theorem lifecycle_renewed (consistent : Consistent r) (hooks : Callbacks ω) (e : Event) :
    Renewed hooks r e (r.lifecycle hooks e) := by
  unfold Runtime.lifecycle
  rw [if_neg (by rw [consistent.idle]; exact Bool.false_ne_true)]
  split
  next =>
    exact ⟨consistent, fun _ => ⟨rfl, rfl, rfl, rfl⟩,
      fun ok => absurd ok (show EventStatus.limit ≠ .ok by decide)⟩
  next =>
    have ingested := ingestAny_ingested (consistent.shifted (r.generation + 1) 0) hooks e true
    dsimp only
    generalize Runtime.ingestAny hooks _ e true = answer at ingested ⊢
    obtain ⟨status, after⟩ := answer
    by_cases failed : status ≠ .ok
    · simp only [if_pos failed]
      have untouched := ingested.failed failed
      refine ⟨ingested.consistent.shifted _ _, fun _ => ⟨?_, untouched.history,
        untouched.watches, rfl⟩, fun ok => absurd ok failed⟩
      -- The depth is put back, and nothing else had changed.
      change { after.routing.router with interruptDepth := r.routing.router.interruptDepth } =
        r.routing.router
      rw [untouched.router]
      rfl
    · simp only [if_neg failed]
      exact ⟨ingested.consistent, fun not => absurd not failed, fun ok =>
        ⟨ingested.watches, ingested.generation, ingested.passed ok⟩⟩

/-! ### Loading -/

/-- An event without a place that the router does not refuse goes through. -/
theorem ingestAny_ok (consistent : Consistent r) (hooks : Callbacks ω)
    (fresh : e.sequence = 0) (valid : e.sourceValid = true) (lifecycle : e.isLifecycle = true)
    (legacy : e.isCanonical = false) (nowhere : e.addressSpace = AddressSpace.none)
    (some : r.bus.nextSequence ≠ 0) : (r.ingestAny hooks e true).1 = .ok := by
  -- The entry checks pass: no sequence of its own, and a lifecycle event may come from the host.
  have checks : ¬(e.sequence ≠ 0 ∨ (true = false ∧ e.isLifecycle = true) ∨
      e.sourceValid = false) := by
    simp [fresh, valid]
  have kinds : e.kind = EventKind.reset ∨ e.kind = EventKind.load := by
    simpa [Event.isLifecycle] using lifecycle
  have kind : e.kind ≠ EventKind.watchMatch := by
    rcases kinds with reset | load
    · rw [reset]
      decide
    · rw [load]
      decide
  -- Without an address space no watch matches, so nothing is derived from it.
  have unmatched : watchTableMatch r.opened.watches
      (r.opened.bus.numbered { e with generation := r.generation }) = [] := by
    refine watchTableMatch_nowhere consistent.watches ?_ nowhere
    unfold EventBus.numbered
    have plain : Event.isCanonical { e with generation := r.generation } = false := legacy
    simp only [plain, Bool.false_eq_true, if_false]
    exact legacy
  have later := consistent.numbers.ahead.resolve_left some
  -- The router accepts it: the source is closed and its number is above the last one.
  have accepted : r.opened.routing.router.refusesSource
      (r.opened.bus.numbered { e with generation := r.generation }) = false := by
    have number : (r.opened.bus.numbered { e with generation := r.generation }).sequence =
        r.bus.nextSequence := rfl
    have same : (r.opened.bus.numbered { e with generation := r.generation }).kind = e.kind := rfl
    have above : ¬r.bus.nextSequence ≤ r.routing.router.lastSequence := by omega
    have open_ : r.opened.routing.router.sourceOpen = false := consistent.closed
    have last : r.opened.routing.router.lastSequence = r.routing.router.lastSequence := rfl
    unfold Router.refusesSource
    rw [number, same, open_, last]
    rcases kinds with reset | load
    · simp [reset, some, above, show EventKind.reset ≠ EventKind.watchMatch by decide,
        show EventKind.reset ≠ EventKind.interruptExit by decide,
        show EventKind.reset ≠ EventKind.interruptEnter by decide]
    · simp [load, some, above, show EventKind.load ≠ EventKind.watchMatch by decide,
        show EventKind.load ≠ EventKind.interruptExit by decide,
        show EventKind.load ≠ EventKind.interruptEnter by decide]
  -- The numbers suffice for the event alone.
  have room : r.opened.bus.advanced.room (watchTableMatch r.opened.watches
      (r.opened.bus.numbered { e with generation := r.generation })).length = true := by
    rw [unmatched]
    rfl
  obtain ⟨r', steps, derived, closed, -⟩ := @ingest_begun _ hooks _
    { e with generation := r.generation } consistent some room accepted
  unfold Runtime.ingestAny
  rw [if_neg checks, if_neg (by rw [consistent.idle]; exact Bool.false_ne_true),
    @dispatch_begun _ hooks r.opened { e with generation := r.generation }
      consistent.toReady.opened rfl rfl fresh some kind
      (by rw [unmatched]; exact Nat.zero_le _) room accepted]
  unfold Runtime.ingestRest
  simp only [ne_eq, not_true_eq_false, if_false, derived, closed]
  exact (settle_settled _ _).1

/-- A watch that is disabled is as valid as before. -/
theorem Watch.valid_unloaded {w : Watch} (valid : w.valid = true) : w.unloaded.valid = true := by
  unfold Watch.unloaded
  -- Only the flag of the watch changes, to the one value that is always allowed.
  split
  next =>
    simp only [Watch.valid, Bool.and_eq_true, decide_eq_true_eq] at valid ⊢
    obtain ⟨⟨⟨⟨⟨⟨⟨⟨⟨⟨⟨id, -⟩, rest⟩, space⟩, last⟩, range⟩, mask⟩, bits⟩, some⟩, few⟩, actions⟩,
      routes⟩ := valid
    exact ⟨⟨⟨⟨⟨⟨⟨⟨⟨⟨⟨id, by decide⟩, rest⟩, space⟩, last⟩, range⟩, mask⟩, bits⟩, some⟩, few⟩, actions⟩,
      routes⟩
  next => exact valid

/-- The configuration for another image is as valid as before. -/
theorem TraceConfig.Valid.unloaded {c : TraceConfig} (valid : c.Valid) : c.unloaded.Valid := by
  -- Unloading clears flags and keeps the ids, so the orders stay strict.
  have pointIds : c.unloaded.points.map TracePoint.pointId = c.points.map TracePoint.pointId := by
    unfold TraceConfig.unloaded
    rw [List.map_map]
    refine List.map_congr_left fun p _ => ?_
    simp only [Function.comp_apply, TracePoint.unloaded]
    split <;> rfl
  have gateIds : c.unloaded.gates.map TraceGate.gateId = c.gates.map TraceGate.gateId := by
    unfold TraceConfig.unloaded
    rw [List.map_map]
    refine List.map_congr_left fun g _ => ?_
    simp only [Function.comp_apply, TraceGate.unloaded]
    split <;> rfl
  refine ⟨valid.fewTraces, valid.fewDestinations, ?_, ?_, valid.destinationIds,
    valid.destinationsAscend, valid.traces, valid.tracesAscend, ?_, ?_, ?_, ?_⟩
  · simpa [TraceConfig.unloaded] using valid.fewPoints
  · simpa [TraceConfig.unloaded] using valid.fewGates
  · intro p member
    obtain ⟨q, origin, rfl⟩ := List.mem_map.mp member
    have sound := valid.points q origin
    unfold TracePoint.unloaded
    split
    · exact ⟨sound.id, show 0#8 ≤ 1#8 by decide, sound.selector, sound.routes⟩
    · exact sound
  · rw [pointIds]
    exact valid.pointsAscend
  · intro g member
    obtain ⟨q, origin, rfl⟩ := List.mem_map.mp member
    have sound := valid.gates q origin
    unfold TraceGate.unloaded
    split
    · exact ⟨sound.id, show 0#8 ≤ 1#8 by decide, sound.action, sound.timing, sound.selector,
        sound.routes⟩
    · exact sound
  · rw [gateIds]
    exact valid.gatesAscend

/-- A router takes a configuration with the traces and destinations it has. -/
theorem replace_alike {router : Router} {c : TraceConfig} (after : c.Valid) (closed : router.sourceOpen = false)
    (traces : c.traces = router.config.traces) : (router.replace c).1 = .ok := by
  have ids : c.traceIds = router.config.traceIds := congrArg (List.map _) traces
  have known : ∀ id, id ∈ c.traceIds → ((router.config.traceIndex id).isNone = false) := by
    intro id member
    rw [ids, ← traceIndex_isSome] at member
    cases lookup : router.config.traceIndex id with
    | none =>
      rw [lookup] at member
      exact Bool.noConfusion member
    | some ti => rfl
  -- No trace is new and none that holds a suppression goes.
  have fresh : router.newIds c = [] := by
    refine List.filter_eq_nil_iff.mpr fun id member => ?_
    rw [known id member]
    exact Bool.false_ne_true
  have keeps : router.losesSuppression c = false := by
    refine List.any_eq_false.mpr fun ti _ => ?_
    have keep : c.keepsSuppression (router.config.traces.get ti) = true := by
      obtain ⟨cTraces, destinations, points, gates⟩ := c
      subst traces
      unfold TraceConfig.keepsSuppression
      have found := after.traceIndex_self ti
      change TraceConfig.traceIndex _ (router.config.traces.get ti).traceId = _ at found
      rw [found]
      simp
    simpa using fun _ => keep
  unfold Router.replace
  rw [if_neg (by rw [TraceConfig.valid_iff.mpr after]; exact Bool.false_ne_true),
    if_neg (by rw [closed]; exact Bool.false_ne_true),
    if_neg (by rw [keeps]; exact Bool.false_ne_true), fresh,
    if_neg (show ¬List.any [] _ = true from Bool.false_ne_true)]
  exact congrArg Prod.fst (if_neg (Nat.not_lt_zero _))

/-- A lifecycle event goes through when there are numbers left for it. -/
theorem lifecycle_ok (consistent : Consistent r) (hooks : Callbacks ω) {kind : Byte}
    (known : kind = EventKind.reset ∨ kind = EventKind.load)
    (instructionCount machineCycleCount : Nat) (pc : Word) (left : r.spent = false) :
    (r.lifecycle hooks (lifecycleEvent kind instructionCount machineCycleCount pc)).1 = .ok := by
  -- A bus that is spent has no next number.
  have some : r.bus.nextSequence ≠ 0 := by
    intro zero
    simp [Runtime.spent, EventBus.room, zero] at left
  -- The event goes out under the next generation, with the depth at zero.
  have passed : (({ r with generation := r.generation + 1 }.withDepth 0).ingestAny hooks
      (lifecycleEvent kind instructionCount machineCycleCount pc) true).1 = .ok := by
    refine ingestAny_ok (consistent.shifted _ _) hooks rfl ?_ ?_ rfl rfl some
    · have kinds : kind ≤ EventKind.debuggerMutation := by
        rcases known with reset | load
        · rw [reset]
          decide
        · rw [load]
          decide
      have values : Value.valid {} = true := by decide
      have space : AddressSpace.none ≤ AddressSpace.xdata := by decide
      simp [Event.sourceValid, lifecycleEvent, kinds, values, space]
    · rcases known with reset | load
      · rw [reset]
        rfl
      · rw [load]
        rfl
  unfold Runtime.lifecycle
  rw [if_neg (by rw [consistent.idle]; exact Bool.false_ne_true),
    if_neg (by rw [left]; exact Bool.false_ne_true)]
  simp only [passed, ne_eq, not_true_eq_false, if_false]

/-- What a LOAD event leaves behind: the CODE-selecting parts are disabled, nothing else. -/
structure Loaded (hooks : Callbacks ω) (r : Runtime ω) (e : Event) (r' : Runtime ω) : Prop where
  watches : r'.watches = r.watches.map Watch.unloaded
  points : r'.routing.router.config.points =
    r.routing.router.config.points.map TracePoint.unloaded
  gates : r'.routing.router.config.gates = r.routing.router.config.gates.map TraceGate.unloaded
  destinations : r'.routing.router.config.destinations = r.routing.router.config.destinations
  traceIds : r'.routing.router.config.traceIds = r.routing.router.config.traceIds
  /-- The flags of the traces are those the gates give them for this event. -/
  config : r'.routing.router.config =
    (r.routing.router.config.unloaded.gatedBy e GateTiming.before).gatedBy e GateTiming.after
  generation : r'.generation = r.generation + 1
  depth : r'.routing.router.interruptDepth = 0
  emitted : r'.emitted = r.emitted ++ [e]
  kind : e.kind = EventKind.load
  sequence : e.sequence = r.bus.nextSequence
  mine : e.generation = r.generation + 1

/-- What `em8051_debug_runtime_load` may come to. -/
structure LoadLaw (hooks : Callbacks ω) (r : Runtime ω) (answer : EventStatus × Runtime ω) :
    Prop where
  consistent : Consistent answer.2
  /-- It fails for want of numbers only, before anything is replaced. -/
  status : answer.1 = .ok ↔ r.spent = false
  failed : answer.1 ≠ .ok → answer.2 = r
  passed : answer.1 = .ok → ∃ e, Loaded hooks r e answer.2

/-- A runtime that has disabled what selects code of an earlier image. -/
def Runtime.disabled (r : Runtime ω) : Runtime ω :=
  { r with
    routing := { r.routing with
      router := (r.routing.router.replace r.routing.router.config.unloaded).2 }
    watches := r.watches.map Watch.unloaded }

/-- The router takes the configuration for another image. -/
theorem replace_unloaded (consistent : Consistent r) :
    (r.routing.router.replace r.routing.router.config.unloaded).1 = .ok :=
  replace_alike consistent.routing.valid.unloaded consistent.closed rfl

/-- What is disabled stays consistent: no route names another trace than before. -/
theorem Consistent.disabled (consistent : Consistent r) : Consistent r.disabled := by
  have replaced := consistent.replaced (c := r.routing.router.config.unloaded) consistent.routes
  have routes := replaced.routes
  refine ⟨⟨replaced.routing, replaced.bus, ?_, ?_, replaced.numbers⟩, replaced.closed,
    -- Unloading touches the flag of a watch and keeps its routes.
    replaced.idle⟩
  · intro w member
    obtain ⟨old, origin, rfl⟩ := List.mem_map.mp member
    exact Watch.valid_unloaded (consistent.watches old origin)
  · intro w member
    obtain ⟨old, origin, rfl⟩ := List.mem_map.mp member
    have known := routes old origin
    unfold Watch.unloaded
    split
    next => exact known
    next => exact known

/-- A lifecycle event that went through derived nothing. -/
theorem Dispatched.alone {source : Event} {steps : List (Event × WatchResult)}
    (consistent : Consistent r) (dispatched : Dispatched hooks r r' source steps)
    (fits : source.sequence < 2 ^ 64)
    (legacy : source.isCanonical = false) (nowhere : source.addressSpace = AddressSpace.none) :
    steps = [] ∧ r'.routing.router.config =
        (r.routing.router.config.gatedBy source GateTiming.before).gatedBy source
          GateTiming.after ∧
      r'.routing.router.interruptDepth =
        depthAfter source r.routing.router.interruptDepth := by
  have none := dispatched.results
  rw [watchTableMatch_nowhere consistent.watches legacy nowhere] at none
  -- No watch matches, so the dispatch has no derived step.
  obtain rfl := List.map_eq_nil_iff.mp none
  obtain ⟨s, derived, ended⟩ := dispatched.derived
  cases derived
  have sound := @Sound.observed _ hooks _ source consistent.routing
  have held := held_begun dispatched.begun
  have accepted : (r.routing.observed hooks source).router.refusesSource source = false := by
    by_contra refuses
    have status := dispatched.begun
    unfold Routing.sourceBegin at status
    rw [if_pos (by simpa using refuses)] at status
    exact absurd status (show EventStatus.invalidArgument ≠ .ok by decide)
  obtain ⟨-, config, -, depth⟩ := sourceBegin_ok sound accepted hooks.toDelivery
  have begun := (@sourceBegin_performed _ hooks.toDelivery _ source sound fits).sound
  have after := congrArg Prod.snd ended
  dsimp only at after
  refine ⟨rfl, ?_, ?_⟩
  · rw [← after, sourceEnd_config begun held.opened, held.event, config, observed_router]
  · rw [← after, (sourceEnd_ok held.opened).2.2.2, depth, observed_router]

/-- A LOAD event neither enters nor leaves an interrupt. -/
theorem depthAfter_load (kind : e.kind = EventKind.load) (depth : Nat) :
    depthAfter e depth = depth := by
  unfold depthAfter
  rw [kind, if_neg (by decide), if_neg (by decide)]

/-- What was disabled takes the event that tells of the new image. -/
theorem loaded (consistent : Consistent r) (hooks : Callbacks ω) {r' : Runtime ω} {e : Event}
    (known : e.kind = EventKind.load) (legacy : e.isCanonical = false)
    (nowhere : e.addressSpace = AddressSpace.none)
    (renewed : Renewed hooks r.disabled e (.ok, r')) :
    Loaded hooks r (r.bus.numbered { e with generation := r.generation + 1 }) r' := by
  obtain ⟨watches, generation, steps, dispatched⟩ := renewed.passed rfl
  have started : Consistent r.disabled.renewed := consistent.disabled.shifted _ _
  have unplaced : (r.bus.numbered { e with generation := r.generation + 1 }).addressSpace =
      AddressSpace.none := nowhere
  have plain : (r.bus.numbered { e with generation := r.generation + 1 }).isCanonical = false := by
    have same : Event.isCanonical { e with generation := r.generation + 1 } = false := legacy
    unfold EventBus.numbered
    simp only [same, Bool.false_eq_true, if_false]
    exact legacy
  -- The dispatch is the event alone: what follows it is the gates it passed.
  obtain ⟨rfl, config, depth⟩ := dispatched.alone started consistent.numbers.bounded plain unplaced
  have taken : r.disabled.renewed.routing.router.config = r.routing.router.config.unloaded := by
    rcases replace_cases r.routing.router r.routing.router.config.unloaded with
      ⟨-, config, -⟩ | ⟨failed, -⟩
    · exact config
    · exact absurd (replace_unloaded consistent) failed
  have kind : (r.bus.numbered { e with generation := r.generation + 1 }).kind = EventKind.load :=
    known
  rw [taken] at config
  refine ⟨watches, ?_, ?_, ?_, ?_, config, generation, ?_, dispatched.emitted, kind, rfl, rfl⟩
  · rw [config]
    rfl
  · rw [config]
    rfl
  · rw [config]
    rfl
  · rw [config]
    exact (traceIds_withFlags _).trans (traceIds_withFlags _)
  · exact depth.trans (depthAfter_load kind _)

/-- A load fails with nothing changed, or the event goes out. -/
theorem load_law (consistent : Consistent r) (hooks : Callbacks ω)
    (instructionCount machineCycleCount : Nat) (pc : Word) :
    LoadLaw hooks r (r.load hooks instructionCount machineCycleCount pc) := by
  unfold Runtime.load
  rw [if_neg (by rw [consistent.idle]; exact Bool.false_ne_true)]
  -- Busy is excluded, a spent bus refuses before anything is done, and else all of it goes
  -- through.
  split
  next spent =>
    have limit : EventStatus.limit ≠ .ok := by decide
    exact ⟨consistent, ⟨fun ok => absurd ok limit, fun left => by simp [spent] at left⟩,
      fun _ => rfl, fun ok => absurd ok limit⟩
  next left =>
    have unspent : r.spent = false := by simpa using left
    have routes : watchRoutesValid r.watches r.routing.router.config.unloaded = true :=
      watchRoutesValid_iff.mpr consistent.routes
    -- The image is unloaded first, which the router accepts.
    have replaced : r.replaceConfig r.routing.router.config.unloaded = (.ok, { r with
        routing := { r.routing with
          router := (r.routing.router.replace r.routing.router.config.unloaded).2 } }) := by
      unfold Runtime.replaceConfig
      simp only [routes, Bool.not_true, Bool.false_eq_true, if_false, replace_unloaded consistent]
    simp only [replaced, ne_eq, not_true_eq_false, if_false]
    change LoadLaw hooks r (r.disabled.lifecycle hooks
      (lifecycleEvent EventKind.load instructionCount machineCycleCount pc))
    have ok := lifecycle_ok consistent.disabled hooks (.inr rfl) instructionCount
      machineCycleCount pc (show r.disabled.spent = false from unspent)
    have renewed := lifecycle_renewed consistent.disabled hooks
      (lifecycleEvent EventKind.load instructionCount machineCycleCount pc)
    generalize r.disabled.lifecycle hooks _ = answer at ok renewed ⊢
    obtain ⟨status, after⟩ := answer
    obtain rfl : status = .ok := ok
    exact ⟨renewed.consistent, iff_of_true rfl unspent, fun not => absurd rfl not,
      fun _ => ⟨_, loaded consistent hooks rfl rfl rfl renewed⟩⟩

/-! ### Any sequence of operations -/

/-- Every operation keeps a runtime consistent. -/
theorem Consistent.perform (consistent : Consistent r) (hooks : Callbacks ω) (op : Operation) :
    Consistent (op.perform hooks r).2 := by
  -- One law of its own for each operation of the interface.
  cases op with
  | replaceWatches watches => exact consistent.replaceWatches watches
  | replaceTraces traces => exact consistent.replaceMember _ _ _
  | replaceDestinations destinations => exact consistent.replaceMember _ _ _
  | replacePoints points => exact consistent.replaceMember _ _ _
  | replaceGates gates => exact consistent.replaceMember _ _ _
  | setTraceEnabled ids enabled => exact consistent.setTraceEnabled ids enabled
  | configure allocated c watches => exact consistent.configure hooks allocated c watches
  | ingest e => exact (ingestAny_ingested consistent hooks e false).consistent
  | reset instructionCount machineCycleCount pc =>
    exact (lifecycle_renewed consistent hooks _).consistent
  | load instructionCount machineCycleCount pc =>
    exact (load_law consistent hooks instructionCount machineCycleCount pc).consistent
  | flush => exact consistent.flush hooks

/-- Whatever can be reached is consistent. -/
theorem Reached.consistent (reached : Reached r) : Consistent r := by
  induction reached with
  | initial context => exact .initial context
  | operation _ hooks op ih => exact ih.perform hooks op

/-- Callbacks that take every record and look at no observation. -/
def Callbacks.plain : Callbacks Unit where
  toDelivery := .plain
  observe context _ := context

end Emu80535.Debug
