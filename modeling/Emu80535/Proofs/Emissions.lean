import Emu80535.Facade.Cpu

/-! What each function of the facade's observer hands to the sink, by kind. -/

namespace Emu80535

variable {β : Type}

/-! ### Emissions -/

/-- A stretch of the observer that hands the sink observations of given kinds only. -/
structure Emits (K : ObsKind → Prop) (f g : Facade β) : Prop where
  bound : g.observation.bound = f.observation.bound
  faulted : f.fault ≠ .ok → g.fault ≠ .ok
  emitted : ∃ es, g.emitted = f.emitted ++ es ∧ ∀ e ∈ es, K e.kind

/-- A failure stays until a reset. -/
theorem Facade.fail_faulted {f : Facade β} (status : Status) (faulted : f.fault ≠ .ok) :
    (f.fail status).fault ≠ .ok := by
  simp only [Facade.fail]
  split
  · rename_i failing
    exact absurd failing.2 faulted
  · exact faulted

/-- Failing with anything but success is a fault. -/
theorem Facade.fail_fault (f : Facade β) {status : Status} (failing : status ≠ .ok) :
    (f.fail status).fault ≠ .ok := by
  by_cases healthy : f.fault = .ok
  · simp only [Facade.fail, if_pos (And.intro failing healthy)]
    exact failing
  · exact fail_faulted status healthy

/-- An observation reaches a bound sink, or the sink's numbers are exhausted. -/
theorem obsEmit_emitted {e : Observation} {f : Facade β} (bound : f.observation.bound = true)
    (healthy : (obsEmit e f).fault = .ok) :
    f.fault = .ok ∧ (obsEmit e f).emitted =
      f.emitted ++ [{ e with sequence := f.observation.sequence + 1 }] := by
  have attached : ¬f.observation.bound = false := by rw [bound]; exact Bool.noConfusion
  simp only [obsEmit, if_neg attached] at healthy ⊢
  -- Numbers run up to the largest one, and past it the facade fails instead.
  by_cases exhausted : f.observation.sequence = u64Max
  · rw [if_pos exhausted] at healthy
    exact absurd healthy (f.fail_fault (by decide))
  · rw [if_neg exhausted] at healthy ⊢
    exact ⟨healthy, rfl⟩

namespace Emits

variable {K : ObsKind → Prop} {f g h : Facade β}

/-- Doing nothing hands over nothing. -/
theorem refl (f : Facade β) : Emits K f f where
  bound := rfl
  faulted := id
  emitted := ⟨[], by simp, by simp⟩

/-- One stretch after another hands over what both do. -/
theorem trans (first : Emits K f g) (second : Emits K g h) : Emits K f h where
  bound := second.bound.trans first.bound
  faulted := second.faulted ∘ first.faulted
  emitted := by
    obtain ⟨early, same, known⟩ := first.emitted
    obtain ⟨late, later, still⟩ := second.emitted
    refine ⟨early ++ late, by rw [later, same, List.append_assoc], fun e member => ?_⟩
    exact (List.mem_append.mp member).elim (known e) (still e)

/-- Fewer kinds are some of more kinds. -/
theorem mono {L : ObsKind → Prop} (emits : Emits K f g) (wider : ∀ k, K k → L k) :
    Emits L f g where
  bound := emits.bound
  faulted := emits.faulted
  emitted := by
    obtain ⟨es, same, known⟩ := emits.emitted
    exact ⟨es, same, fun e member => wider _ (known e member)⟩

/-- Either branch hands over observations of the kinds. -/
theorem ite {p : Prop} [Decidable p] {x y : Facade β} (yes : p → Emits K f x)
    (no : ¬p → Emits K f y) : Emits K f (if p then x else y) := by
  split
  · exact yes ‹_›
  · exact no ‹_›

section Rules

variable (emits : Emits K f g)

include emits

/-- Whatever leaves the sink, the fault and the binding alone. -/
theorem quiet (bound : h.observation.bound = g.observation.bound) (fault : h.fault = g.fault)
    (emitted : h.emitted = g.emitted) : Emits K f h where
  bound := bound.trans emits.bound
  faulted faulted := by
    rw [fault]
    exact emits.faulted faulted
  emitted := by
    rw [emitted]
    exact emits.emitted

/-- Failing hands over its own kinds only. -/
theorem fail (status : Status) : Emits K f (g.fail status) where
  bound := by
    refine Eq.trans ?_ emits.bound
    simp only [Facade.fail]
    split <;> rfl
  faulted faulted := Facade.fail_faulted status (emits.faulted faulted)
  emitted := by
    -- A failure sets the latch and leaves what was handed over.
    have same : (g.fail status).emitted = g.emitted := by
      simp only [Facade.fail]
      split <;> rfl
    rw [same]
    exact emits.emitted

/-- A change of the counters hands over its own kinds only. -/
theorem mapObs {update : ObservationState → ObservationState}
    (bound : (update g.observation).bound = g.observation.bound) :
    Emits K f (g.mapObs update) := emits.quiet bound rfl rfl

/-- Handing over one observation hands over its own kinds only. -/
theorem obsEmit {e : Observation} (known : K e.kind) : Emits K f (obsEmit e g) := by
  simp only [Emu80535.obsEmit]
  refine ite (fun _ => emits) fun _ => ite (fun _ => emits.fail _) fun _ => ?_
  refine emits.trans ⟨rfl, id, _, rfl, fun e member => ?_⟩
  rw [List.mem_singleton.mp member]
  exact known

/-- Handing over an event of the serial port hands over its own kinds only. -/
theorem obsUartEvent (c : Cpu) (u : ObservedUart) {event : ObsKind} (reason : ObsReason)
    (cycle displaced : Nat) (known : K event) :
    Emits K f (obsUartEvent c u event reason cycle displaced g) := by
  simp only [Emu80535.obsUartEvent]
  exact ite (fun _ => emits) fun _ => emits.obsEmit known

/-- Opening a frame hands over its own kinds only. -/
theorem obsUartNew (value : Word) : Emits K f (obsUartNew value g).2 := by
  simp only [Emu80535.obsUartNew]
  split
  · exact emits.fail _
  · exact emits.quiet rfl rfl rfl

end Rules

/-! ### One rule for each fact -/

section Facts

variable (f)

/-- Opening an instruction hands over its own kinds only. -/
theorem obsBegin (c : Cpu) (cycle : Nat) (pc : Word) (opcode : Byte) :
    Emits (· = .instructionBegin) f (obsBegin c cycle pc opcode f) := by
  simp only [Emu80535.obsBegin]
  refine ite (fun _ => (refl f).fail _) fun _ => obsEmit ((refl f).mapObs ?_) ?_
  all_goals rfl

/-- Reporting an operand hands over its own kinds only. -/
theorem obsOperand (offset : Nat) (value : Byte) : Emits K f (obsOperand offset value f) := by
  simp only [Emu80535.obsOperand]
  refine ite (fun _ => (refl f).mapObs ?_) fun _ => refl f
  rfl

/-- Reporting the end of an opcode hands over its own kinds only. -/
theorem obsOpcodeEnd (pc : Word) : Emits K f (obsOpcodeEnd pc f) := by
  simp only [Emu80535.obsOpcodeEnd]
  refine ite (fun _ => (refl f).mapObs ?_) fun _ => refl f
  rfl

/-- Asking for a context hands over its own kinds only. -/
theorem obsPreflight : Emits K f (obsPreflight f).2 := by
  simp only [Emu80535.obsPreflight]
  split
  · exact (refl f).fail _
  · exact refl f

/-- Nothing is made where there is no answer. -/
theorem none_made {P : Observation → Prop} : ∀ made, none = some made → P made :=
  fun _ found => absurd found.symm (Option.some_ne_none _)

/-- What holds of an observation holds of the one that was made from it. -/
theorem some_made {P : Observation → Prop} {e : Observation} (holds : P e) :
    ∀ made, some e = some made → P made := fun _ found => Option.some.inj found ▸ holds

/-- Pushing a context hands the sink nothing and keeps the kind of the observation. -/
theorem obsContextPush (entry : Entry) (e : Observation) :
    Emits K f (obsContextPush entry e f).2 ∧
      ∀ made, (obsContextPush entry e f).1 = some made → made.kind = e.kind := by
  simp only [Emu80535.obsContextPush]
  have lost : Emits K f
      (f.mapObs fun o => { o with unknownBase := true, frames := [] }) := (refl f).mapObs rfl
  -- A full stack of frames is lost or refused, and a frame that fits is put on it.
  split
  · split
    · exact ⟨lost.fail _, none_made⟩
    · exact ⟨lost.quiet rfl rfl rfl, some_made rfl⟩
  · split
    · exact ⟨(refl f).fail _, none_made⟩
    · exact ⟨(refl f).quiet rfl rfl rfl, some_made rfl⟩

/-- Reporting a call hands over its own kinds only. -/
theorem obsCall (c : Cpu) (cycle : Nat) (target returnPc : Word) (spBefore spAfter : Byte) :
    Emits (· = .call) f (obsCall c cycle target returnPc spBefore spAfter f) := by
  simp only [Emu80535.obsCall]
  obtain ⟨pushed, same⟩ := obsContextPush (K := (· = .call)) f
    ⟨.call, target, returnPc, spBefore, spAfter, 0⟩ (obsInit c f.observation .call .effect cycle)
  split
  · exact pushed
  · rename_i made found
    exact pushed.obsEmit (same made found)

/-- Reporting an interrupt entry hands over its own kinds only. -/
theorem obsIrqEnter (c : Cpu) (cycle : Nat) (source : IrqSource) (returnPc : Word)
    (spBefore spAfter : Byte) :
    Emits (· = .irqEnter) f (obsIrqEnter c cycle source returnPc spBefore spAfter f) := by
  simp only [Emu80535.obsIrqEnter]
  obtain ⟨pushed, same⟩ := obsContextPush (K := (· = .irqEnter)) f
    ⟨.irq, c.pc, returnPc, spBefore, spAfter, source.toNat⟩
    (obsInit c f.observation .irqEnter .boundary cycle)
  -- Nothing was made, or what was made is of the kind that was asked for.
  split
  · exact pushed
  · rename_i made found
    refine mapObs (pushed.obsEmit ?_) rfl
    exact same made found

/-- Leaving a frame hands the sink nothing and keeps the kind of the observation. -/
theorem obsLeaveFrame (leave : Leave) (target : Word) (spBefore spAfter : Byte)
    (e : Observation) :
    Emits K f (obsLeaveFrame leave target spBefore spAfter e f).2 ∧
      ∀ made, (obsLeaveFrame leave target spBefore spAfter e f).1 = some made →
        made.kind = e.kind := by
  simp only [Emu80535.obsLeaveFrame]
  have unknown : Emits K f
      (f.mapObs fun o => { o with unknownBase := true, frames := [] }) := (refl f).mapObs rfl
  -- Without frames, with an unmatched one, or with the frame that is left.
  split
  · split
    · exact ⟨(refl f).fail _, none_made⟩
    · exact ⟨unknown.quiet rfl rfl rfl, some_made rfl⟩
  · split
    · exact ⟨(refl f).quiet rfl rfl rfl, some_made rfl⟩
    · split
      · exact ⟨unknown.fail _, none_made⟩
      · exact ⟨unknown.quiet rfl rfl rfl, some_made rfl⟩

/-- Reporting a return hands over its own kinds only. -/
theorem obsLeave (c : Cpu) (leave : Leave) (cycle : Nat) (target : Word)
    (spBefore spAfter : Byte) :
    Emits (· = leave.event) f (obsLeave c leave cycle target spBefore spAfter f) := by
  simp only [Emu80535.obsLeave]
  obtain ⟨left, same⟩ := obsLeaveFrame (K := (· = leave.event)) f leave target spBefore spAfter
    (obsInit c f.observation leave.event .effect cycle)
  -- Nothing was made, or what was made is of the kind that was asked for.
  split
  · exact left
  · rename_i made found
    have told := left.obsEmit (same made found)
    refine ite (fun _ => told.mapObs ?_) fun _ => told
    rfl

/-- Reporting a held byte hands over its own kinds only. -/
theorem obsTxHold (c : Cpu) (cycle : Nat) (value : Word) :
    Emits (fun k => k = .txHold ∨ k = .txReplace) f (obsTxHold c cycle value f) := by
  simp only [Emu80535.obsTxHold]
  have fresh := (refl f).obsUartNew (K := fun k => k = .txHold ∨ k = .txReplace) value
  split
  · exact fresh.mapObs rfl
  · refine ite (fun _ => obsUartEvent (fresh.mapObs ?_) _ _ _ _ _ (Or.inl rfl)) fun _ =>
      obsUartEvent (fresh.mapObs ?_) _ _ _ _ _ (Or.inr rfl)
    all_goals rfl

/-- Reporting the start of a transmission hands over its own kinds only. -/
theorem obsTxStart (c : Cpu) (cycle : Nat) : Emits (· = .txStart) f (obsTxStart c cycle f) := by
  simp only [Emu80535.obsTxStart]
  exact ((refl f).mapObs rfl).obsUartEvent _ _ _ _ _ rfl

/-- Reporting an event of the transmitter hands over its own kinds only. -/
theorem obsTxEvent (c : Cpu) (event : ObsKind) (cycle : Nat) :
    Emits (· = event) f (obsTxEvent c event cycle f) := (refl f).obsUartEvent _ _ _ _ _ rfl

/-- Reporting the end of a transmission hands over its own kinds only. -/
theorem obsTxEnd (c : Cpu) (cycle : Nat) : Emits (· = .txEnd) f (obsTxEnd c cycle f) :=
  (obsTxEvent f c .txEnd cycle).mapObs rfl

/-- Reporting the start of a reception hands over its own kinds only. -/
theorem obsRxStart (c : Cpu) (cycle : Nat) (value : Word) :
    Emits (· = .rxStart) f (obsRxStart c cycle value f) := by
  simp only [Emu80535.obsRxStart]
  have fresh := (refl f).obsUartNew (K := (· = .rxStart)) value
  split
  · exact fresh.mapObs rfl
  · exact (fresh.mapObs rfl).obsUartEvent _ _ _ _ _ rfl

/-- Reporting an event of the receiver hands over its own kinds only. -/
theorem obsRxEvent (c : Cpu) (event : ObsKind) (reason : ObsReason) (cycle : Nat) :
    Emits (· = event) f (obsRxEvent c event reason cycle f) :=
  (refl f).obsUartEvent _ _ _ _ _ rfl

/-- Reporting the end of a reception hands over its own kinds only. -/
theorem obsRxEnd (c : Cpu) (cycle : Nat) : Emits (· = .rxEnd) f (obsRxEnd c cycle f) :=
  (obsRxEvent f c .rxEnd .none cycle).mapObs rfl

/-- Opening an access hands over its own kinds only. -/
theorem obsAccessBegin (c : Cpu) (cycle : Nat) (address : Word) (space : Space)
    (access value : Byte) :
    Emits (· = .accessAttempt) f (obsAccessBegin c cycle address space access value f).2 := by
  simp only [Emu80535.obsAccessBegin]
  -- Busy, not watched, nested, exhausted: only past all of them is the attempt handed over.
  split
  · exact (refl f).fail _
  · split
    · exact refl f
    · split
      · exact refl f
      · split
        · exact (refl f).fail _
        · refine obsEmit ((refl f).mapObs ?_) ?_
          all_goals rfl

/-- Reporting the old value of an access hands over its own kinds only. -/
theorem obsAccessOld (access : Nat) (value : Byte) :
    Emits K f (obsAccessOld access value f) := by
  simp only [Emu80535.obsAccessOld]
  refine ite (fun _ => (refl f).mapObs ?_) fun _ => refl f
  rfl

/-- Closing an access hands over its own kinds only. -/
theorem obsAccessEnd (c : Cpu) (cycle access : Nat) (address : Word) (space : Space)
    (form value : Byte) :
    Emits (· = .accessResult) f (obsAccessEnd c cycle access address space form value f) := by
  simp only [Emu80535.obsAccessEnd]
  refine ite (fun _ => refl f) fun _ => mapObs (obsEmit (refl f) ?_) ?_
  all_goals rfl

end Facts

end Emits

/-! ### The raw observer and the board -/

/-- The kinds a raw fact may be reported as. -/
def RawFact.reports : RawFact → ObsKind → Prop
  | .begin .. => (· = .instructionBegin)
  | .operand .. | .opcodeEnd .. | .cycleBegin .. | .contextPreflight .. | .accessOld .. =>
    fun _ => False
  | .call .. => (· = .call)
  | .ret .. => (· = .ret)
  | .reti .. => (· = .reti)
  | .irqEnter .. => (· = .irqEnter)
  | .irqRequest .. => (· = .irqRequest)
  | .txHold .. => fun k => k = .txHold ∨ k = .txReplace
  | .txStart .. => (· = .txStart)
  | .txStop .. => (· = .txStop)
  | .txTi .. => (· = .txTi)
  | .txEnd .. => (· = .txEnd)
  | .rxStart .. => (· = .rxStart)
  | .rxAccept .. => (· = .rxAccept)
  | .rxDrop .. => (· = .rxDrop)
  | .rxEnd .. => (· = .rxEnd)
  | .accessBegin .. => (· = .accessAttempt)
  | .accessEnd .. => (· = .accessResult)

namespace Emits

variable (f : Facade β)

/-- A raw fact is reported as one of its kinds, if at all. -/
theorem obsRawFact (c : Cpu) (fact : RawFact) :
    Emits fact.reports f (obsRawFact c fact f).2 := by
  simp only [Emu80535.obsRawFact]
  split
  · exact refl f
  · -- One routine for each kind of fact, and the fact is handed over by that routine.
    cases fact with
    | begin cycle pc opcode => exact obsBegin f c cycle pc opcode
    | operand cycle offset value => exact obsOperand f offset value
    | opcodeEnd cycle pc => exact obsOpcodeEnd f pc
    | cycleBegin cycle => exact (refl f).quiet rfl rfl rfl
    | contextPreflight cycle => exact obsPreflight f
    | call cycle target returnPc before after => exact obsCall f c cycle target returnPc before after
    | ret cycle target before after => exact obsLeave f c .ret cycle target before after
    | reti cycle target before after => exact obsLeave f c .reti cycle target before after
    | irqEnter cycle source returnPc before after =>
      exact obsIrqEnter f c cycle source returnPc before after
    | irqRequest cycle source =>
      refine (refl f).obsEmit ?_
      rfl
    | txHold cycle data ninth => exact obsTxHold f c cycle _
    | txStart cycle data ninth => exact obsTxStart f c cycle
    | txStop cycle => exact obsTxEvent f c _ cycle
    | txTi cycle => exact obsTxEvent f c _ cycle
    | txEnd cycle => exact obsTxEnd f c cycle
    | rxStart cycle data ninth => exact obsRxStart f c cycle _
    | rxAccept cycle data ninth => exact obsRxEvent f c _ _ cycle
    | rxDrop cycle reason => exact obsRxEvent f c _ _ cycle
    | rxEnd cycle => exact obsRxEnd f c cycle
    | accessBegin cycle address rmw value => exact obsAccessBegin f c cycle _ _ _ value
    | accessOld cycle access value => exact obsAccessOld f access value
    | accessEnd cycle access address value => exact obsAccessEnd f c cycle access _ _ _ value

/-- The numbering of board calls hands the sink nothing. -/
theorem nextSequence {K : ObsKind → Prop} : Emits K f f.nextSequence.2 := by
  simp only [Facade.nextSequence]
  split
  · exact (refl f).fail _
  · exact (refl f).quiet rfl rfl rfl

/-- Recording a call of the bus hands over its own kinds only. -/
theorem busCall {K : ObsKind → Prop} (board : Board β) (c : Cpu) (address : Word)
    (direction : Direction) (value : Byte) :
    Emits K f (busCall board c address direction value f).2 := by
  simp only [Emu80535.busCall]
  have numbered := nextSequence (K := K) f
  -- The call itself goes to the board; a failure of it is latched and hands nothing over.
  split
  · exact numbered
  · have called := fun answer : β => numbered.quiet (h := { f.nextSequence.2 with board := answer })
      rfl rfl rfl
    split
    · exact (called _).fail _
    · split
      · exact (called _).fail _
      · exact called _

/-- A bus access is reported as an attempt and a result. -/
theorem bus (board : Board β) (c : Cpu) (address : Word) (direction : Direction) (value : Byte) :
    Emits (fun k => k = .accessAttempt ∨ k = .accessResult) f
      (bus board c address direction value f).2 := by
  simp only [Emu80535.bus]
  have begun : Emits (fun k => k = .accessAttempt ∨ k = .accessResult) f
      (Emu80535.obsAccessBegin c c.machineCycleCount address .xdata direction.observed value f).2 :=
    (obsAccessBegin f c _ address _ _ value).mono fun _ => Or.inl
  -- Watched, the attempt and the result stand around the call; unwatched, only the call is made.
  by_cases watched : c.observed = true ∧ f.observation.bound = true
  · simp only [if_pos watched]
    split
    · exact refl f
    · split
      · exact begun
      · exact (begun.trans (busCall _ board c address direction value)).trans
          ((obsAccessEnd _ c _ _ address _ _ _).mono fun _ => Or.inr)
  · simp only [if_neg watched]
    split
    · exact refl f
    · exact busCall f board c address direction value

/-- Recording a write of a port hands over its own kinds only. -/
theorem portWrite {K : ObsKind → Prop} (board : Board β) (port : Fin 6) (c : Cpu) :
    Emits K f (portWrite board port c f) := by
  simp only [Emu80535.portWrite]
  split
  · exact refl f
  · -- Exhausted numbers and a failing call hand nothing over.
    have numbered := nextSequence (K := K) f
    split
    · exact numbered
    · refine fail (numbered.quiet ?_ ?_ ?_) _
      all_goals rfl

/-- Recording an event of the serial line hands over its own kinds only. -/
theorem uartTrace {K : ObsKind → Prop} (board : Board β) (record : Record) :
    Emits K f (uartTrace board record f) := by
  simp only [Emu80535.uartTrace]
  split
  · exact refl f
  · -- The start is kept and the end goes to the board; neither is an observation.
    split
    · exact (refl f).quiet rfl rfl rfl
    · have numbered := nextSequence (K := K) f
      split
      · exact numbered
      · refine fail (numbered.quiet ?_ ?_ ?_) _
        all_goals rfl
    · exact refl f

/-- Closing an instruction hands over its own kinds only. -/
theorem obsFinishInstruction (c : Cpu) :
    Emits (fun k => k = .instructionRetire ∨ k = .instructionAbort) f
      (obsFinishInstruction c f) := by
  simp only [Emu80535.obsFinishInstruction]
  split
  · refine mapObs ?_ ?_
    · -- An exhausted count is a fault, so the instruction is reported as aborted.
      have failed : Emits (fun k => k = .instructionRetire ∨ k = .instructionAbort) f
          (if f.fault = .ok ∧ f.observation.retired = u64Max then f.fail .exhausted else f) :=
        ite (fun _ => (refl f).fail _) fun _ => refl f
      have retired := ite (p := (if f.fault = .ok ∧ f.observation.retired = u64Max then
          f.fail .exhausted else f).fault = .ok)
        (fun _ => @Emits.mapObs _ _ _ _ failed (fun o => { o with retired := o.retired + 1 }) rfl)
        fun _ => failed
      have told := fun (e : Observation)
        (known : e.kind = .instructionRetire ∨ e.kind = .instructionAbort) => retired.obsEmit known
      have known : ∀ p : Prop, [Decidable p] →
          (if p then ObsKind.instructionRetire else .instructionAbort) = .instructionRetire ∨
          (if p then ObsKind.instructionRetire else .instructionAbort) = .instructionAbort := by
        intro p _
        split
        · exact Or.inl rfl
        · exact Or.inr rfl
      refine ite (fun _ => mapObs (told _ (known _)) ?_) fun _ => told _ (known _)
      rfl
    · rfl
  · exact refl f

/-- Closing an instruction with a fault hands over its own kinds only. -/
theorem obsFinishFault (c : Cpu) : Emits (· = .fault) f (obsFinishFault c f) := by
  simp only [Emu80535.obsFinishFault]
  refine ite (fun _ => obsEmit ((refl f).mapObs ?_) ?_) fun _ => refl f
  all_goals rfl

/-- A refused injection is reported as a drop and an end. -/
theorem obsRxRejected (c : Cpu) (input : Input) (reason : ObsReason) :
    Emits (fun k => k = .rxDrop ∨ k = .rxEnd) f (obsRxRejected c input reason f) := by
  simp only [Emu80535.obsRxRejected]
  refine ite (fun _ => refl f) fun _ => ?_
  have fresh := (refl f).obsUartNew (K := fun k => k = .rxDrop ∨ k = .rxEnd)
    (BitVec.ofNat 16 input.value)
  split
  · exact fresh
  · exact (fresh.obsUartEvent _ _ _ _ _ (Or.inl rfl)).obsUartEvent _ _ _ _ _ (Or.inr rfl)

/-- The kinds that end an instruction or report a fault. -/
def ends (k : ObsKind) : Prop :=
  (k = .instructionRetire ∨ k = .instructionAbort) ∨ k = .fault

/-- Closing what is open hands over its own kinds only. -/
theorem obsFinish (c : Cpu) : Emits ends f (obsFinish c f) := by
  simp only [Emu80535.obsFinish]
  refine ite (fun _ => refl f) fun _ => ?_
  exact ((obsFinishInstruction f c).mono fun _ => Or.inl).trans
    ((obsFinishFault _ c).mono fun _ => Or.inr)

/-- The kinds a reset reports of what it interrupts. -/
def interrupts (k : ObsKind) : Prop := k = .instructionAbort ∨ k = .rxEnd ∨ k = .txEnd

/-- Reporting an interruption hands over its own kinds only. -/
theorem obsInterrupted (c : Cpu) : Emits interrupts f (obsInterrupted c f) := by
  simp only [Emu80535.obsInterrupted]
  refine obsUartEvent (obsUartEvent (obsUartEvent ?_ _ _ _ _ _ ?_) _ _ _ _ _ ?_) _ _ _ _ _ ?_
  · refine ite (fun _ => mapObs (obsEmit (refl f) ?_) ?_) fun _ => refl f
    · exact Or.inl rfl
    · rfl
  · exact Or.inr (Or.inl rfl)
  · exact Or.inr (Or.inr rfl)
  · exact Or.inr (Or.inr rfl)

/-- Reporting a reset hands over its own kinds only. -/
theorem obsReset (c : Cpu) : Emits interrupts f (obsReset c f) := by
  simp only [Emu80535.obsReset]
  refine mapObs ?_ rfl
  exact ite (fun _ => obsInterrupted f c) fun _ => refl f

end Emits

end Emu80535
