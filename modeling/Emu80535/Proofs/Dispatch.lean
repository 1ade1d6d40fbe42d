import Emu80535.Proofs.Router
import Emu80535.Proofs.Watches

/-! Dispatch of events by the debug runtime: a source event and all it derives, or nothing. -/

namespace Emu80535.Debug

variable {ω : Type} {hooks : Callbacks ω} {r r' : Runtime ω} {s : Routing ω} {e : Event}

/-! ### Sequence numbers -/

/-- The numbers a bus has given out ascend, and the next one is above them unless none is left. -/
structure Numbers (bus : EventBus) (last : Nat) (emitted : List Event) : Prop where
  bounded : bus.nextSequence < 2 ^ 64
  ahead : bus.nextSequence = 0 ∨ last < bus.nextSequence
  used : ∀ e ∈ emitted, bus.nextSequence = 0 ∨ e.sequence < bus.nextSequence
  ascending : (emitted.map Event.sequence).Pairwise (· < ·)

/-- The number after one that is given out. -/
theorem advanced_cases {bus : EventBus} (bounded : bus.nextSequence < 2 ^ 64) :
    bus.advanced.nextSequence = 0 ∨ bus.advanced.nextSequence = bus.nextSequence + 1 := by
  have next : bus.advanced.nextSequence = (bus.nextSequence + 1) % 2 ^ 64 := rfl
  omega

/-- One more event takes the next number. -/
theorem Numbers.emit {bus : EventBus} {last last' : Nat} {emitted : List Event}
    (numbers : Numbers bus last emitted) (some : bus.nextSequence ≠ 0)
    (mine : e.sequence = bus.nextSequence) (below : last' ≤ bus.nextSequence) (flag : Bool) :
    Numbers { bus.advanced with dispatching := flag } last' (emitted ++ [e]) := by
  -- The number after the largest one is zero, which stands for an exhausted bus.
  have after := advanced_cases numbers.bounded
  refine ⟨Nat.mod_lt _ (Nat.two_pow_pos 64), ?_, ?_, ?_⟩
  · change bus.advanced.nextSequence = 0 ∨ last' < bus.advanced.nextSequence
    omega
  · intro event member
    change bus.advanced.nextSequence = 0 ∨ event.sequence < bus.advanced.nextSequence
    rcases List.mem_append.mp member with earlier | new
    · have before := numbers.used event earlier
      omega
    · obtain rfl := List.mem_singleton.mp new
      omega
  · rw [List.map_append, List.pairwise_append]
    refine ⟨numbers.ascending, List.pairwise_singleton _ _, fun x isX y isY => ?_⟩
    obtain ⟨event, member, rfl⟩ := List.mem_map.mp isX
    obtain rfl := List.mem_singleton.mp isY
    have before := (numbers.used event member).resolve_left some
    omega

/-! ### The invariant -/

/-- What holds of a runtime while it dispatches, too. -/
structure Ready (r : Runtime ω) : Prop where
  routing : Sound r.routing
  bus : r.bus.dispatching = false
  watches : ∀ w ∈ r.watches, w.valid = true
  routes : RoutesKnown r.watches r.routing.router.config.traceIds
  numbers : Numbers r.bus r.routing.router.lastSequence r.emitted

/-- What holds of a runtime between operations. -/
structure Consistent (r : Runtime ω) : Prop extends Ready r where
  closed : r.routing.router.sourceOpen = false
  idle : r.busy = false

/-- A new runtime. -/
theorem Consistent.initial (context : ω) : Consistent (Runtime.initial context) where
  routing := .initial context
  bus := rfl
  watches := fun _ member => absurd member List.not_mem_nil
  routes := fun _ member => absurd member List.not_mem_nil
  numbers := ⟨show 1 < 2 ^ 64 by decide, .inr Nat.zero_lt_one, fun _ member => absurd member List.not_mem_nil,
    List.Pairwise.nil⟩
  closed := rfl
  idle := rfl

/-- Observation changes the context only. -/
@[simp] theorem observed_router : (s.observed hooks e).router = s.router := by
  unfold Routing.observed
  split <;> rfl

/-- Observation is not an act of the router. -/
@[simp] theorem observed_history : (s.observed hooks e).history = s.history := by
  unfold Routing.observed
  split <;> rfl

/-- The accounts stay in order. -/
theorem Sound.observed (sound : Sound s) : Sound (s.observed hooks e) := by
  -- The accounts are of the router and its history, and observing touches neither.
  refine ⟨?_, ?_, ?_, ?_⟩
  · rw [observed_router]
    exact sound.valid
  · rw [observed_router, observed_history]
    exact sound.kept
  · rw [observed_router]
    exact sound.bounded
  · rw [observed_router]
    exact sound.last

/-- Nothing of an event reached the router. -/
structure Untouched (r r' : Runtime ω) : Prop where
  router : r'.routing.router = r.routing.router
  history : r'.routing.history = r.routing.history
  watches : r'.watches = r.watches
  generation : r'.generation = r.generation

/-! ### The router's part -/

/-- A source event the router does not refuse begins. -/
theorem sourceBegin_ok (sound : Sound s) (accepted : s.router.refusesSource e = false)
    (hooks : Delivery ω) :
    (s.sourceBegin hooks e).1 = .ok ∧
      (s.sourceBegin hooks e).2.router.config = s.router.config.gatedBy e GateTiming.before ∧
      (s.sourceBegin hooks e).2.router.lastSequence = e.sequence ∧
      (s.sourceBegin hooks e).2.router.interruptDepth = depthAfter e s.router.interruptDepth := by
  -- The gates come first, then the event is routed, by its flags or through the gates.
  obtain ⟨gated, config⟩ := sound.gated e GateTiming.before
  obtain ⟨ids, flag, acts, status, routed, -⟩ := @begin_routed _ hooks _ sound e
  unfold Routing.sourceBegin
  rw [if_neg (Bool.eq_false_iff.mp accepted)]
  dsimp only
  obtain ⟨_, _, shape⟩ := routed.after.router
  -- A lifecycle event and an ordinary one are routed in different ways and answer alike.
  generalize (if e.isLifecycle then _ else _ : EventStatus × Routing ω) = answer
    at status shape ⊢
  obtain ⟨code, final⟩ := answer
  obtain rfl : code = .ok := status
  simp only [ne_eq, not_true_eq_false, if_false]
  refine ⟨trivial, (congrArg Router.config shape).trans config, trivial, ?_⟩
  have depth := congrArg Router.interruptDepth shape
  exact congrArg (depthAfter e) depth

/-- A watch event with known routes that the router does not refuse is routed. -/
theorem watch_ok (sound : Sound s) {result : WatchResult}
    (accepted : s.router.refusesWatch e result = false)
    (routable : s.router.config.routable result.traceIds = true) (hooks : Delivery ω) :
    (s.watch hooks e result).1 = .ok ∧
      (s.watch hooks e result).2.router.lastSequence = e.sequence := by
  -- Every identity of the watch is a trace of the configuration, so the routing cannot fail.
  obtain ⟨acts, status, routed⟩ := @routeIds_routed _ hooks s e sound.valid _ _ (some result)
    sound.valid.flags_present _ routable
  unfold Routing.watch
  rw [if_neg (Bool.eq_false_iff.mp accepted)]
  dsimp only
  generalize s.routeIds hooks e result.traceIds (some result) none = answer at status ⊢
  obtain ⟨code, final⟩ := answer
  obtain rfl : code = .ok := status
  simp only [if_true]
  trivial

/-- A source event that is open ends. -/
theorem sourceEnd_ok (opened : s.router.sourceOpen = true) :
    s.sourceEnd.1 = .ok ∧ s.sourceEnd.2.router.sourceOpen = false ∧
      s.sourceEnd.2.router.lastSequence = s.router.lastSequence ∧
      s.sourceEnd.2.router.interruptDepth = s.router.interruptDepth := by
  unfold Routing.sourceEnd
  rw [if_neg (by rw [opened]; exact Bool.false_ne_true)]
  exact ⟨rfl, rfl, rfl, rfl⟩

/-- The flags of the traces when a source event ends. -/
theorem sourceEnd_config (sound : Sound s) (opened : s.router.sourceOpen = true) :
    s.sourceEnd.2.router.config =
      s.router.config.gatedBy s.router.openSourceEvent GateTiming.after := by
  unfold Routing.sourceEnd
  rw [if_neg (by rw [opened]; exact Bool.false_ne_true)]
  exact (sound.gated _ _).2

/-! ### The source event -/

/-- A runtime whose source event has begun. -/
def Runtime.begun (hooks : Callbacks ω) (r : Runtime ω) (e : Event) : Runtime ω :=
  { r with
    bus := r.bus.advanced
    emitted := r.emitted ++ [r.bus.numbered e]
    pending := watchTableMatch r.watches (r.bus.numbered e)
    sourceEvent := r.bus.numbered e
    dispatchStatus := .ok
    routing := ((r.routing.observed hooks (r.bus.numbered e)).sourceBegin hooks.toDelivery
      (r.bus.numbered e)).2 }

/-- What becomes of a source event on the bus. -/
inductive SourceOutcome (hooks : Callbacks ω) (r : Runtime ω) (e : Event) :
    EventStatus × Runtime ω → Prop where
  | refused {status : EventStatus} {after : Runtime ω} (not : status ≠ .ok)
    (untouched : Untouched r after) (bus : after.bus.dispatching = false)
    (numbers : Numbers after.bus r.routing.router.lastSequence after.emitted)
    (emitted : after.emitted = r.emitted ∨ after.emitted = r.emitted ++ [r.bus.numbered e]) :
    SourceOutcome hooks r e (status, after)
  | begun (some : r.bus.nextSequence ≠ 0)
    (room : r.bus.advanced.room (watchTableMatch r.watches (r.bus.numbered e)).length = true)
    (accepted : r.routing.router.refusesSource (r.bus.numbered e) = false) :
    SourceOutcome hooks r e (.ok, r.begun hooks e)

/-- A source event begins when there is room for it and the router does not refuse it. -/
theorem dispatch_begun (ready : Ready r) (phase : r.phase = .source)
    (status : r.dispatchStatus = .ok) (fresh : e.sequence = 0) (some : r.bus.nextSequence ≠ 0)
    (kind : e.kind ≠ EventKind.watchMatch)
    (few : (watchTableMatch r.watches (r.bus.numbered e)).length ≤ (r.bus.numbered e).pendingRoom)
    (room : r.bus.advanced.room (watchTableMatch r.watches (r.bus.numbered e)).length = true)
    (accepted : r.routing.router.refusesSource (r.bus.numbered e) = false) :
    r.dispatch hooks e = (.ok, r.begun hooks e) := by
  -- The checks of the bus, of the observer and of the router, in the order they are made.
  have accepts : r.bus.accepts e = .ok := by simp [EventBus.accepts, ready.bus, some, fresh]
  have same : { r.bus.advanced with dispatching := false } = r.bus.advanced := by
    unfold EventBus.advanced
    rw [ready.bus]
  have roomy : EventBus.room { r.bus.advanced with dispatching := true }
      (watchTableMatch r.watches (r.bus.numbered e)).length = true := room
  have unrefused : (r.routing.observed hooks (r.bus.numbered e)).router.refusesSource
      (r.bus.numbered e) = false := by
    rw [observed_router]
    exact accepted
  have begun := (sourceBegin_ok ready.routing.observed unrefused hooks.toDelivery).1
  have other : (r.bus.numbered e).kind ≠ EventKind.watchMatch := kind
  unfold Runtime.dispatch Runtime.emit Runtime.begun
  rw [accepts]
  simp only [ne_eq, not_true_eq_false, if_false, if_true]
  unfold Runtime.observer
  simp only [status, phase, ne_eq, not_true_eq_false, if_false]
  unfold Runtime.observeSource
  simp only [if_neg other, if_neg (Nat.not_lt.mpr few), roomy, Bool.not_true, Bool.false_eq_true,
    if_false, begun, same]

/-- A source event is refused and leaves the router alone, or it begins. -/
theorem dispatch_source (ready : Ready r) (phase : r.phase = .source)
    (status : r.dispatchStatus = .ok) (fresh : e.sequence = 0) :
    SourceOutcome hooks r e (r.dispatch hooks e) := by
  have invalid : EventStatus.invalidArgument ≠ .ok := by decide
  have limit : EventStatus.limit ≠ .ok := by decide
  by_cases none : r.bus.nextSequence = 0
  · -- The bus has no number left.
    have refused : r.bus.accepts e = .invalidArgument := by
      simp [EventBus.accepts, ready.bus, none]
    unfold Runtime.dispatch Runtime.emit
    rw [refused]
    exact .refused invalid ⟨rfl, rfl, rfl, rfl⟩ ready.bus ready.numbers (.inl rfl)
  have accepted : r.bus.accepts e = .ok := by simp [EventBus.accepts, ready.bus, none, fresh]
  have numbers : Numbers { r.bus.advanced with dispatching := false }
      r.routing.router.lastSequence (r.emitted ++ [r.bus.numbered e]) :=
    ready.numbers.emit none rfl (Nat.le_of_lt (ready.numbers.ahead.resolve_left none)) false
  by_cases begins : e.kind ≠ EventKind.watchMatch ∧
      (watchTableMatch r.watches (r.bus.numbered e)).length ≤ (r.bus.numbered e).pendingRoom ∧
      r.bus.advanced.room (watchTableMatch r.watches (r.bus.numbered e)).length = true ∧
      r.routing.router.refusesSource (r.bus.numbered e) = false
  · obtain ⟨kind, few, room, accepts⟩ := begins
    rw [dispatch_begun ready phase status fresh none kind few room accepts]
    exact .begun none room accepts
  · -- Whatever is wrong with it, the observer does not touch the router.
    unfold Runtime.dispatch Runtime.emit
    rw [accepted]
    simp only [ne_eq, not_true_eq_false, if_false, if_true]
    unfold Runtime.observer
    simp only [status, phase, ne_eq, not_true_eq_false, if_false]
    unfold Runtime.observeSource
    dsimp only
    split
    next =>
      exact .refused invalid ⟨observed_router, observed_history, rfl, rfl⟩ rfl numbers (.inr rfl)
    next kind =>
      split
      next =>
        exact .refused limit ⟨observed_router, observed_history, rfl, rfl⟩ rfl numbers (.inr rfl)
      next few =>
        split
        next =>
          exact .refused limit ⟨observed_router, observed_history, rfl, rfl⟩ rfl numbers (.inr rfl)
        next room =>
          have accepts : r.routing.router.refusesSource (r.bus.numbered e) = true := by
            by_contra unrefused
            simp only [Bool.not_eq_true', Bool.not_eq_false] at room
            exact begins ⟨kind, Nat.not_lt.mp few, room, Bool.eq_false_iff.mpr unrefused⟩
          have refused : (r.routing.observed hooks (r.bus.numbered e)).sourceBegin
              hooks.toDelivery (r.bus.numbered e) =
                (.invalidArgument, r.routing.observed hooks (r.bus.numbered e)) := by
            unfold Routing.sourceBegin
            rw [observed_router, if_pos accepts]
          rw [refused]
          exact .refused invalid ⟨observed_router, observed_history, rfl, rfl⟩ rfl numbers
            (.inr rfl)

/-! ### Derived events -/

/-- Derived events are routed one after the other, each accepted. -/
inductive Derived (hooks : Callbacks ω) :
    Routing ω → List (Event × WatchResult) → Routing ω → Prop where
  | done (s : Routing ω) : Derived hooks s [] s
  | next {s s' : Routing ω} {e : Event} {result : WatchResult} {rest : List (Event × WatchResult)}
    (kind : e.kind = EventKind.watchMatch)
    (routed : ((s.observed hooks e).watch hooks.toDelivery e result).1 = .ok)
    (later : Derived hooks ((s.observed hooks e).watch hooks.toDelivery e result).2 rest s') :
    Derived hooks s ((e, result) :: rest) s'

/-- What holds of a runtime while so many derived events are left. -/
structure Deriving (c : TraceConfig) (source : Event) (results : List WatchResult) (left : Nat)
    (r : Runtime ω) : Prop extends Ready r where
  held : Held c source r.routing
  pending : r.pending = results
  source : r.sourceEvent = source
  phase : r.phase = .derived
  room : r.bus.room left = true

variable {c : TraceConfig} {source : Event} {results : List WatchResult} {left : Nat}

/-- Room for one event is room for those after it. -/
theorem room_advanced {bus : EventBus} (bounded : bus.nextSequence < 2 ^ 64)
    (room : bus.room (left + 1) = true) :
    bus.nextSequence ≠ 0 ∧ bus.advanced.room left = true := by
  simp only [EventBus.room, Bool.or_eq_true, Bool.and_eq_true, beq_iff_eq, bne_iff_ne,
    decide_eq_true_eq] at room ⊢
  have after : bus.advanced.nextSequence = (bus.nextSequence + 1) % 2 ^ 64 := rfl
  rw [after]
  omega

/-- The router does not refuse a derived event. -/
theorem refusesWatch_derived {router : Router} {result : WatchResult} {next : Nat}
    (later : router.lastSequence < next) (open_ : router.openSourceEvent = source)
    (mine : result.sourceEventSequence = source.sequence) (few : result.traceIds.length ≤ maxRoutes)
    (kind : e.kind = EventKind.watchMatch) (number : e.sequence = next)
    (generation : e.generation = source.generation) : router.refusesWatch e result = false := by
  have some : ¬next = 0 := by omega
  have above : ¬next ≤ router.lastSequence := by omega
  have fits : ¬maxRoutes < result.traceIds.length := by omega
  simp [Router.refusesWatch, kind, number, generation, open_, mine, some, above, fits]

/-- A derived event is emitted, observed and routed. -/
theorem dispatch_derived (deriving_ : Deriving c source results (left + 1) r) {index : Nat}
    {result : WatchResult} (here : results[index]? = some result)
    (routable : ResultRoutable c source result) :
    ∃ event : Event, event.kind = EventKind.watchMatch ∧
      ((r.routing.observed hooks event).watch hooks.toDelivery event result).1 = .ok ∧
      { r with derivedIndex := index, dispatchStatus := .ok }.dispatch hooks
          (r.sourceEvent.derived result) = (.ok, { r with
        bus := r.bus.advanced
        emitted := r.emitted ++ [event]
        derivedIndex := index
        dispatchStatus := .ok
        routing := ((r.routing.observed hooks event).watch hooks.toDelivery event result).2 }) ∧
      Deriving c source results left { r with
        bus := r.bus.advanced
        emitted := r.emitted ++ [event]
        derivedIndex := index
        dispatchStatus := .ok
        routing := ((r.routing.observed hooks event).watch hooks.toDelivery event result).2 } := by
  -- The room reserved for the source covers this event and those still to come.
  obtain ⟨some, room⟩ := room_advanced deriving_.numbers.bounded deriving_.room
  have later := deriving_.numbers.ahead.resolve_left some
  have same : { r.bus.advanced with dispatching := false } = r.bus.advanced := by
    unfold EventBus.advanced
    rw [deriving_.bus]
  have sound := @Sound.observed _ hooks _ (r.bus.numbered (r.sourceEvent.derived result))
    deriving_.routing
  -- The configuration and the event held by the router are those of the open source.
  have held : Held c source
      (r.routing.observed hooks (r.bus.numbered (r.sourceEvent.derived result))) := by
    refine ⟨?_, ?_, ?_⟩
    · rw [observed_router]
      exact deriving_.held.config
    · rw [observed_router]
      exact deriving_.held.event
    · rw [observed_router]
      exact deriving_.held.opened
  -- Its number is above the last one and its sequence is that of the open source.
  have accepted : (r.routing.observed hooks
      (r.bus.numbered (r.sourceEvent.derived result))).router.refusesWatch
        (r.bus.numbered (r.sourceEvent.derived result)) result = false := by
    rw [observed_router]
    have generation : r.sourceEvent.generation = source.generation :=
      congrArg Event.generation deriving_.source
    exact refusesWatch_derived later deriving_.held.event routable.source routable.few rfl rfl
      generation
  have known : (r.routing.observed hooks
      (r.bus.numbered (r.sourceEvent.derived result))).router.config.routable result.traceIds =
        true := by
    rw [observed_router]
    refine deriving_.routing.valid.routable (fun id member => ?_) routable.ascending
    rw [deriving_.held.config]
    exact routable.known id member
  -- So the router takes it, and what is left to derive has one number less.
  obtain ⟨status, last⟩ := watch_ok sound accepted known hooks.toDelivery
  have fits : (r.bus.numbered (r.sourceEvent.derived result)).sequence < 2 ^ 64 :=
    deriving_.numbers.bounded
  have performed := @watch_performed _ hooks.toDelivery _ _ sound result fits
  have kept : Held c source ((r.routing.observed hooks
      (r.bus.numbered (r.sourceEvent.derived result))).watch hooks.toDelivery
        (r.bus.numbered (r.sourceEvent.derived result)) result).2 :=
    @Held.perform _ hooks.toDelivery _ _ _ sound held
      (.watch (r.bus.numbered (r.sourceEvent.derived result)) result) (by intro same; cases same)
  refine ⟨r.bus.numbered (r.sourceEvent.derived result), rfl, status, ?_, ?_⟩
  · unfold Runtime.dispatch Runtime.emit
    have accepts : r.bus.accepts (r.sourceEvent.derived result) = .ok := by
      simp [EventBus.accepts, deriving_.bus, some, Event.derived]
    rw [accepts]
    simp only [ne_eq, not_true_eq_false, if_false, if_true]
    unfold Runtime.observer
    simp only [deriving_.phase, ne_eq, not_true_eq_false, if_false]
    unfold Runtime.observeDerived
    have found : r.pending[index]? = Option.some result := by
      rw [deriving_.pending]
      exact here
    have kind : (r.bus.numbered (r.sourceEvent.derived result)).kind = EventKind.watchMatch := rfl
    simp only [found, kind, ne_eq, not_true_eq_false, if_false, status, same]
  · refine ⟨⟨performed.sound, deriving_.bus, deriving_.watches, ?_, ?_⟩, kept, deriving_.pending,
      deriving_.source, deriving_.phase, room⟩
    · exact (kept.config.trans deriving_.held.config.symm).symm ▸ deriving_.routes
    · rw [← same]
      refine deriving_.numbers.emit some rfl ?_ false
      exact Nat.le_of_eq last

/-- All derived events are routed: none of them can fail. -/
theorem derive_all {pairs : List (WatchResult × Nat)}
    (deriving_ : Deriving c source results pairs.length r)
    (here : ∀ p ∈ pairs, results[p.2]? = some p.1)
    (routable : ∀ result ∈ results, ResultRoutable c source result) :
    ∃ (r' : Runtime ω) (steps : List (Event × WatchResult)),
      r.derive hooks pairs = (.ok, r') ∧ Deriving c source results 0 r' ∧
      Derived hooks r.routing steps r'.routing ∧ steps.map Prod.snd = pairs.map Prod.fst ∧
      r'.emitted = r.emitted ++ steps.map Prod.fst ∧ r'.watches = r.watches ∧
      r'.generation = r.generation := by
  -- By induction on the results still to derive, the reserved numbers going down with them.
  induction pairs generalizing r with
  | nil =>
    exact ⟨r, [], rfl, deriving_, .done _, rfl, (List.append_nil _).symm, rfl, rfl⟩
  | cons p rest ih =>
    obtain ⟨result, index⟩ := p
    have found := here _ List.mem_cons_self
    obtain ⟨event, kind, routed, dispatched, next⟩ := @dispatch_derived _ hooks _ _ _ _ _ deriving_ _
      _ found (routable result (List.mem_of_getElem? found))
    obtain ⟨r', steps, derived, final, course, names, emitted, watches, generation⟩ :=
      ih next fun q member => here q (List.mem_cons_of_mem _ member)
    refine ⟨r', (event, result) :: steps, ?_, final, .next kind routed course, ?_, ?_, watches,
      generation⟩
    · unfold Runtime.derive
      rw [dispatched]
      exact derived
    · rw [List.map_cons, List.map_cons, names]
    · rw [emitted, List.map_cons]
      exact List.append_assoc ..

/-! ### Ingestion -/

/-- The accounts depend on the router and its history only. -/
theorem Sound.of_same {s s' : Routing ω} (sound : Sound s) (router : s'.router = s.router)
    (history : s'.history = s.history) : Sound s' := by
  -- Each part of the accounts, read at the same router and history.
  refine ⟨?_, ?_, ?_, ?_⟩
  · rw [router]
    exact sound.valid
  · rw [router, history]
    exact sound.kept
  · rw [router]
    exact sound.bounded
  · rw [router]
    exact sound.last

/-- The end of an ingestion counts and nothing else. -/
structure Settled (r r' : Runtime ω) : Prop where
  routing : r'.routing = r.routing
  bus : r'.bus = r.bus
  watches : r'.watches = r.watches
  generation : r'.generation = r.generation
  emitted : r'.emitted = r.emitted

/-- The results go into the counters. -/
theorem mergeResults_settled (results : List WatchResult) (r : Runtime ω) :
    Settled r (results.foldl Runtime.mergeResult r) := by
  induction results generalizing r with
  | nil => exact ⟨rfl, rfl, rfl, rfl, rfl⟩
  | cons result rest ih =>
    have rest := ih (r.mergeResult result)
    exact ⟨rest.routing, rest.bus, rest.watches, rest.generation, rest.emitted⟩

/-- The runtime is idle after it. -/
theorem settle_settled (r : Runtime ω) (status : EventStatus) :
    (r.settle status).1 = status ∧ Settled r (r.settle status).2 ∧
      (r.settle status).2.busy = false := by
  unfold Runtime.settle
  refine ⟨rfl, ?_, rfl⟩
  have merged := mergeResults_settled r.pending r
  -- The results are merged only when the ingestion went through.
  by_cases ok : status = .ok
  · simp only [if_pos ok]
    exact ⟨merged.routing, merged.bus, merged.watches, merged.generation, merged.emitted⟩
  · simp only [if_neg ok]
    exact ⟨rfl, rfl, rfl, rfl, rfl⟩

/-- A source event and all the events derived from it have gone through the router. -/
structure Dispatched (hooks : Callbacks ω) (r r' : Runtime ω) (source : Event)
    (steps : List (Event × WatchResult)) : Prop where
  begun : ((r.routing.observed hooks source).sourceBegin hooks.toDelivery source).1 = .ok
  /-- One event is derived for each result, and each is routed. -/
  derived : ∃ s, Derived hooks
    ((r.routing.observed hooks source).sourceBegin hooks.toDelivery source).2 steps s ∧
      s.sourceEnd = (.ok, r'.routing)
  results : steps.map Prod.snd = watchTableMatch r.watches source
  emitted : r'.emitted = r.emitted ++ source :: steps.map Prod.fst

/-- What an ingestion may come to: nothing reaches the router, or all of the event does. -/
structure Ingested (hooks : Callbacks ω) (r : Runtime ω) (e : Event)
    (answer : EventStatus × Runtime ω) : Prop where
  consistent : Consistent answer.2
  watches : answer.2.watches = r.watches
  generation : answer.2.generation = r.generation
  failed : answer.1 ≠ .ok → Untouched r answer.2
  passed : answer.1 = .ok → ∃ steps,
    Dispatched hooks r answer.2 (r.bus.numbered { e with generation := r.generation }) steps

/-- A runtime about to dispatch is ready for it. -/
theorem Ready.opened (ready : Ready r) : Ready r.opened :=
  ⟨ready.routing, ready.bus, ready.watches, ready.routes, ready.numbers⟩

/-- What follows a source event that has begun: it cannot be left half dispatched. -/
theorem ingest_begun (consistent : Consistent r) (some : r.bus.nextSequence ≠ 0)
    (room : r.bus.advanced.room (watchTableMatch r.watches (r.bus.numbered e)).length = true)
    (accepted : r.routing.router.refusesSource (r.bus.numbered e) = false) :
    ∃ (r' : Runtime ω) (steps : List (Event × WatchResult)),
      Runtime.derive hooks (r.opened.begun hooks e).pending.zipIdx
        { r.opened.begun hooks e with phase := .derived } = (.ok, r') ∧
      r'.close .ok = (.ok, { r' with routing := r'.routing.sourceEnd.2 }) ∧
      Dispatched hooks r { r' with routing := r'.routing.sourceEnd.2 } (r.bus.numbered e) steps ∧
      Ready { r' with routing := r'.routing.sourceEnd.2 } ∧
      r'.routing.sourceEnd.2.router.sourceOpen = false ∧ r'.watches = r.watches ∧
      r'.generation = r.generation := by
  -- The source is accepted, so it begins with the gates in front of it passed.
  have sound := @Sound.observed _ hooks _ (r.bus.numbered e) consistent.routing
  have unrefused : (r.routing.observed hooks (r.bus.numbered e)).router.refusesSource
      (r.bus.numbered e) = false := by
    rw [observed_router]
    exact accepted
  obtain ⟨status, config, last, -⟩ := sourceBegin_ok sound unrefused hooks.toDelivery
  have fits : (r.bus.numbered e).sequence < 2 ^ 64 := consistent.numbers.bounded
  have performed := @sourceBegin_performed _ hooks.toDelivery _ _ sound fits
  have held := held_begun status
  rw [observed_router] at config
  have ids : ((r.routing.observed hooks (r.bus.numbered e)).sourceBegin hooks.toDelivery
      (r.bus.numbered e)).2.router.config.traceIds = r.routing.router.config.traceIds := by
    rw [config]
    exact traceIds_withFlags _
  have routes : RoutesKnown r.watches ((r.routing.observed hooks
      (r.bus.numbered e)).sourceBegin hooks.toDelivery (r.bus.numbered e)).2.router.config.traceIds := by
    rw [ids]
    exact consistent.routes
  have numbers : Numbers r.bus.advanced ((r.routing.observed hooks (r.bus.numbered e)).sourceBegin
      hooks.toDelivery (r.bus.numbered e)).2.router.lastSequence
        (r.emitted ++ [r.bus.numbered e]) :=
    consistent.numbers.emit some rfl (Nat.le_of_eq last) r.bus.dispatching
  -- What is left to derive is the list of results, each at its own index.
  have ready : Deriving ((r.routing.observed hooks (r.bus.numbered e)).sourceBegin hooks.toDelivery
      (r.bus.numbered e)).2.router.config (r.bus.numbered e)
      (watchTableMatch r.watches (r.bus.numbered e))
      (watchTableMatch r.watches (r.bus.numbered e)).zipIdx.length
      { r.opened.begun hooks e with phase := .derived } :=
    ⟨⟨performed.sound, consistent.bus, consistent.watches, routes, numbers⟩, held, rfl, rfl, rfl,
      by rw [List.length_zipIdx]; exact room⟩
  -- None of them fails, and the source is still open after the last one.
  obtain ⟨r', steps, derived, final, course, names, emitted, watches, generation⟩ :=
    @derive_all _ hooks _ _ _ _ _ ready
      (fun p member => List.mem_zipIdx_iff_getElem?.mp member)
      (watchTableMatch_routable consistent.watches routes)
  have opened := final.held.opened
  obtain ⟨ended, shut, lasts, -⟩ := sourceEnd_ok opened
  have endPerformed := sourceEnd_performed final.routing
  have closing := sourceEnd_config final.routing opened
  refine ⟨r', steps, derived, ?_, ⟨status, ⟨r'.routing, course, ?_⟩, ?_, ?_⟩, ?_, shut, watches,
    generation⟩
  · unfold Runtime.close
    rw [if_pos opened]
    simp only [ended, if_true]
  · exact Prod.ext ended rfl
  · rw [names, List.zipIdx_map_fst]
  · rw [emitted]
    exact List.append_assoc ..
  · refine ⟨endPerformed.sound, final.bus, final.watches, ?_, ?_⟩
    · change RoutesKnown r'.watches r'.routing.sourceEnd.2.router.config.traceIds
      rw [closing]
      exact (traceIds_withFlags _).symm ▸ final.routes
    · change Numbers r'.bus r'.routing.sourceEnd.2.router.lastSequence r'.emitted
      rw [lasts]
      exact final.numbers

/-- An ingestion is all or nothing. -/
theorem ingestAny_ingested (consistent : Consistent r) (hooks : Callbacks ω) (e : Event)
    (allowLifecycle : Bool) : Ingested hooks r e (r.ingestAny hooks e allowLifecycle) := by
  unfold Runtime.ingestAny
  -- The entry checks refuse before anything is touched.
  split
  next =>
    exact ⟨consistent, rfl, rfl, fun _ => ⟨rfl, rfl, rfl, rfl⟩, fun ok => absurd ok
      (show EventStatus.invalidArgument ≠ .ok by decide)⟩
  next checks =>
    rw [if_neg (by rw [consistent.idle]; exact Bool.false_ne_true)]
    have fresh : e.sequence = 0 := by
      by_contra used
      exact checks (.inl used)
    have outcome := @dispatch_source _ hooks r.opened { e with generation := r.generation }
      consistent.opened rfl rfl fresh
    generalize r.opened.dispatch hooks { e with generation := r.generation } = answer at outcome ⊢
    cases outcome with
    -- A refusal of the source leaves the router and its history as they were.
    | @refused status after not untouched bus numbers emitted =>
      unfold Runtime.ingestRest
      simp only [if_pos not]
      obtain ⟨same, settled, idle⟩ := settle_settled after status
      have router : (after.settle status).2.routing.router = r.routing.router :=
        (congrArg Routing.router settled.routing).trans untouched.router
      have history : (after.settle status).2.routing.history = r.routing.history :=
        (congrArg Routing.history settled.routing).trans untouched.history
      have watches : (after.settle status).2.watches = r.watches :=
        settled.watches.trans untouched.watches
      have generation : (after.settle status).2.generation = r.generation :=
        settled.generation.trans untouched.generation
      refine ⟨⟨⟨consistent.routing.of_same router history, ?_, ?_, ?_, ?_⟩, ?_, idle⟩, watches,
        generation, fun _ => ⟨router, history, watches, generation⟩, fun ok => ?_⟩
      · rw [settled.bus]
        exact bus
      · rw [watches]
        exact consistent.watches
      · rw [watches, router]
        exact consistent.routes
      · rw [settled.bus, settled.emitted, router]
        exact numbers
      · rw [router]
        exact consistent.closed
      · exact absurd (same.symm.trans ok) not
    -- A source that has begun is carried through, and closed with the same status.
    | begun some room accepted =>
      obtain ⟨r', steps, derived, closed, dispatched, ready, shut, watches, generation⟩ :=
        @ingest_begun _ hooks _ { e with generation := r.generation } consistent some room accepted
      have rest : Runtime.ingestRest hooks
          (.ok, r.opened.begun hooks { e with generation := r.generation }) =
            Runtime.settle { r' with routing := r'.routing.sourceEnd.2 } .ok := by
        unfold Runtime.ingestRest
        simp only [ne_eq, not_true_eq_false, if_false, derived, closed]
      rw [rest]
      obtain ⟨same, settled, idle⟩ :=
        settle_settled { r' with routing := r'.routing.sourceEnd.2 } .ok
      refine ⟨⟨⟨?_, ?_, ?_, ?_, ?_⟩, ?_, idle⟩, settled.watches.trans watches,
        settled.generation.trans generation, fun not => absurd same not, fun _ => ⟨steps, ?_⟩⟩
      · rw [settled.routing]
        exact ready.routing
      · rw [settled.bus]
        exact ready.bus
      · rw [settled.watches]
        exact ready.watches
      · rw [settled.watches, settled.routing]
        exact ready.routes
      · rw [settled.bus, settled.emitted, settled.routing]
        exact ready.numbers
      · rw [settled.routing]
        exact shut
      · refine ⟨dispatched.begun, ?_, dispatched.results, settled.emitted.trans dispatched.emitted⟩
        rw [settled.routing]
        exact dispatched.derived

end Emu80535.Debug
