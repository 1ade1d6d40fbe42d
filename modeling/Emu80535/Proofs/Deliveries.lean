import Emu80535.Debug.Trace
import Emu80535.Lib.Fold

/-! The history of a router is what its callbacks have been called for. -/

namespace Emu80535.Debug

variable {ω : Type} {hooks : Delivery ω} {s s' s'' : Routing ω}

/-- The context of the callbacks after what an act calls them for. -/
def Act.tell (hooks : Delivery ω) (context : ω) : Act → ω
  | .asked traceId event _ => (hooks.eligible context traceId event).2
  | .suppressed _ _ => context
  | .emitted record => hooks.deliver context record

/-- The record an act hands over. -/
def Act.record : Act → Option RoutedRecord
  | .emitted record => some record
  | .asked .. | .suppressed .. => none

/-- The callbacks have been called for every new act, in the order of the history. -/
def Told (hooks : Delivery ω) (s s' : Routing ω) : Prop :=
  ∃ acts, s'.history = s.history ++ acts ∧ s'.context = acts.foldl (Act.tell hooks) s.context

/-- A recorder, whose context keeps the records delivered to it and nothing of what it is asked. -/
structure Delivery.Records (hooks : Delivery ω) (read : ω → List RoutedRecord) : Prop where
  deliver : ∀ context record, read (hooks.deliver context record) = read context ++ [record]
  eligible : ∀ context traceId event, read (hooks.eligible context traceId event).2 = read context

/-- It has the records of the acts. -/
theorem Delivery.Records.tell {read : ω → List RoutedRecord} (records : hooks.Records read)
    (acts : List Act) (context : ω) :
    read (acts.foldl (Act.tell hooks) context) = read context ++ acts.filterMap Act.record := by
  -- An act is a record or none, and the induction is on the acts.
  induction acts generalizing context with
  | nil => simp
  | cons act acts ih =>
    rw [List.foldl_cons, ih]
    cases act with
    | asked traceId event answer => rw [Act.tell, records.eligible, List.filterMap_cons, Act.record]
    | suppressed traceId event => rw [Act.tell, List.filterMap_cons, Act.record]
    | emitted record =>
      rw [Act.tell, records.deliver, List.filterMap_cons, Act.record, List.append_assoc]
      rfl

namespace Told

/-- Doing nothing tells nothing. -/
theorem refl (s : Routing ω) : Told hooks s s := ⟨[], by simp, rfl⟩

/-- What is told in turn is told as a whole. -/
theorem trans (first : Told hooks s s') (second : Told hooks s' s'') : Told hooks s s'' := by
  obtain ⟨early, listed, heard⟩ := first
  obtain ⟨late, listed', heard'⟩ := second
  refine ⟨early ++ late, ?_, ?_⟩
  · rw [listed', listed, List.append_assoc]
  · rw [heard', heard, List.foldl_append]

/-- What neither calls back nor is listed. -/
theorem still (told : Told hooks s s') (history : s''.history = s'.history)
    (context : s''.context = s'.context) : Told hooks s s'' := by
  obtain ⟨acts, listed, heard⟩ := told
  exact ⟨acts, history.trans listed, context.trans heard⟩

/-! ### One rule for each function -/

section Rules

variable (told : Told hooks s s')

include told

/-- Emitting a record tells of it. -/
theorem emit (di : Nat) (record : RoutedRecord) : Told hooks s (s'.emit hooks di record) :=
  told.trans ⟨[.emitted record], rfl, rfl⟩

/-- So does asking whether a trace is eligible. -/
theorem asked (id : Nat) (e : Event) : Told hooks s (s'.asked hooks id e) :=
  told.trans ⟨[.asked id e (s'.answer hooks id e)], rfl, rfl⟩

/-- So does adding to a suppression. -/
theorem suppressionAdd (ti : Fin s'.router.config.traces.length) (e : Event) :
    Told hooks s (s'.suppressionAdd ti e) :=
  told.trans ⟨[.suppressed (s'.router.config.traces.get ti).traceId e], rfl, rfl⟩

/-- So does emitting one. -/
theorem suppressionEmit (ti : Fin s'.router.config.traces.length) :
    Told hooks s (s'.suppressionEmit hooks ti) := by
  simp only [Routing.suppressionEmit]
  split
  · rename_i v di _ _
    exact (told.emit di _).still rfl rfl
  · exact told

/-- So does passing an event on. -/
theorem pass (e : Event) (result : Option WatchResult) (records : Records)
    (ti : Fin s'.router.config.traces.length) :
    Told hooks s (Routing.pass hooks e result s' records ti).1 := by
  simp only [Routing.pass]
  split
  · exact told.suppressionAdd ti e
  · split
    · exact told
    · exact told.suppressionEmit ti

/-- So does routing it to one identity. -/
theorem routeId (e : Event) (result : Option WatchResult) (snapshot : Option (List Byte))
    (records : Records) (id : Nat) :
    Told hooks s (Routing.routeId hooks e result snapshot (s', records) id).1 := by
  simp only [Routing.routeId]
  -- A trace that is unknown or disabled is not asked.
  split
  · exact told
  · split
    · exact told
    · split
      · exact told.asked _ e
      · exact (told.asked _ e).pass e result records _

/-- So does emitting at one destination. -/
theorem emitAt (records : Records) (di : Nat) : Told hooks s (s'.emitAt hooks records di) := by
  simp only [Routing.emitAt]
  split
  · exact told
  · exact told.emit di _

/-- So does routing it to all of them. -/
theorem routeIds (e : Event) (ids : List Nat) (result : Option WatchResult)
    (snapshot : Option (List Byte)) :
    Told hooks s (s'.routeIds hooks e ids result snapshot).2 := by
  simp only [Routing.routeIds]
  -- The loop over the traces, and then the one over the records.
  split
  · exact told
  · refine Fold.foldl_keeps (I := fun k => Told hooks s k)
      (fun di _ k before => before.emitAt _ di) ?_
    exact Fold.foldl_keeps (I := fun loop : Routing ω × Records => Told hooks s loop.1)
      (fun id _ loop before => before.routeId e result snapshot loop.2 id) told

/-- So does the beginning of an event. -/
theorem sourceBegin (e : Event) : Told hooks s (s'.sourceBegin hooks e).2 := by
  have gated : Told hooks s (s'.gated e GateTiming.before) := told.still rfl rfl
  simp only [Routing.sourceBegin]
  split
  · exact told
  · -- What is set behind the routing is no part of the history.
    have routed : ∀ answer : EventStatus × Routing ω, Told hooks s answer.2 →
        Told hooks s (if answer.1 ≠ .ok then (answer.1, answer.2)
          else (.ok, { answer.2 with router := { answer.2.router with
            interruptDepth := depthAfter e answer.2.router.interruptDepth
            lastSequence := e.sequence
            openSourceEvent := e
            sourceOpen := true } })).2 := by
      intro answer before
      split
      · exact before
      · exact before.still rfl rfl
    refine routed _ ?_
    split
    · exact gated.routeIds e _ none _
    · exact gated.routeIds e _ none none

/-- So does its end. -/
theorem sourceEnd : Told hooks s s'.sourceEnd.2 := by
  simp only [Routing.sourceEnd]
  split
  · exact told
  · exact told.still rfl rfl

/-- So does a watch event. -/
theorem watch (e : Event) (result : WatchResult) : Told hooks s (s'.watch hooks e result).2 := by
  simp only [Routing.watch]
  split
  · exact told
  · have routed := told.routeIds e result.traceIds (some result) none
    split
    · exact routed.still rfl rfl
    · exact routed

/-- So does flushing. -/
theorem flushTraces (chosen : TraceSession → Bool) :
    Told hooks s (s'.flushTraces hooks chosen).2 := by
  simp only [Routing.flushTraces]
  split
  · exact told
  · -- One trace after the other.
    refine Fold.foldl_keeps (I := fun k => Told hooks s k) (fun ti _ k before => ?_) told
    simp only [Routing.flushAt]
    split
    · split
      · exact before.suppressionEmit _
      · exact before
    · exact before

/-- Every call tells its callbacks of what it adds to the history, and of nothing else. -/
theorem perform (call : Call) : Told hooks s (call.perform hooks s').2 := by
  cases call with
  | replace c => exact told.still rfl rfl
  | sourceBegin e => exact told.sourceBegin e
  | sourceEnd => exact told.sourceEnd
  | watch e result => exact told.watch e result
  | flush => exact told.flushTraces _
  | flushSelected destinationId traceId => exact told.flushTraces _

end Rules

end Told

/-- A turn with the callbacks it was made with: a recorder gets the records it adds to the history. -/
structure Recorded (hooks : Delivery ω) (turn : Turn ω) : Prop where
  performed : turn.call.perform hooks turn.before = (turn.status, turn.after)
  told : Told hooks turn.before turn.after
  records : ∀ read, hooks.Records read → ∃ acts,
    turn.after.history = turn.before.history ++ acts ∧
      read turn.after.context = read turn.before.context ++ acts.filterMap Act.record

/-- So it is in every turn of a run. -/
theorem Run.recorded {turns : List (Turn ω)} (run : Run turns s) :
    ∀ turn ∈ turns, ∃ hooks, Recorded hooks turn := by
  induction run with
  | start context => exact fun turn member => absurd member List.not_mem_nil
  -- The hooks are those of the turn, and what it tells is what they hear.
  | @turn turns s run hooks call fits ih =>
    intro turn member
    rcases List.mem_append.mp member with earlier | last
    · exact ih turn earlier
    · -- The last turn is the one just performed.
      rw [List.mem_singleton.mp last]
      have told : Told hooks s (call.perform hooks s).2 := (Told.refl s).perform call
      refine ⟨hooks, rfl, told, fun read records => ?_⟩
      obtain ⟨acts, listed, heard⟩ := told
      refine ⟨acts, listed, ?_⟩
      show read (call.perform hooks s).2.context = _
      rw [heard, records.tell]

end Emu80535.Debug
