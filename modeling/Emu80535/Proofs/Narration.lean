import Emu80535.Lib.History
import Emu80535.Proofs.Calls
import Emu80535.Proofs.Emissions

/-! The reported interrupt requests as the rises of the canonical request bits, in order. -/

namespace Emu80535

variable {β : Type}

open Machine

/-! ### What is compared -/

/-- The sources whose requests the sink has been told of, oldest first. -/
def Facade.requests (f : Facade β) : List Nat :=
  (f.emitted.filter fun e => e.kind == .irqRequest).map (·.irqSource)

/-- The sources whose aggregated request goes from 0 to 1 in a store. -/
def FlagStore.rises (store : FlagStore) : List IrqSource :=
  IrqSource.all.filter fun s => decide (store.index = s.requestReg ∧
    has store.old s.requestMask = false ∧ has store.new s.requestMask = true)

/-- What happens to the request flags: a store, or a reset. -/
inductive FlagEvent where
  | store (written : FlagStore)
  | reset

namespace FlagEvent

/-- The store an event is. -/
def stored : FlagEvent → Option FlagStore
  | store written => some written
  | reset => none

/-- The requests that rise in an event; in a reset none does. -/
def rises : FlagEvent → List IrqSource
  | store written => written.rises
  | reset => []

end FlagEvent

/-- The registers that hold request flags, with the others blanked out. -/
def Cpu.flags (c : Cpu) : SfrIndex → Byte := fun index => if isRequestReg index then c.sfr index else 0#8

/-- How events change the flags; a store names what its register held before. -/
def flagMonitor : Monitor (SfrIndex → Byte) FlagEvent where
  next flags
    | .store written => Function.update flags written.index written.new
    | .reset => fun _ => 0#8
  permits flags
    | .store written => isRequestReg written.index = true ∧ written.old = flags written.index
    | .reset => True

/-- A Siemens CPU whose observer hands on what it is told. -/
structure Watched (m : FacadeMachine β) : Prop where
  sab : m.cpu.variant = .sab80535
  observed : m.cpu.observed = true
  bound : m.host.observation.bound = true

/-- The facts that are requests. -/
def RawFact.asks : RawFact → Prop
  | .irqRequest .. => True
  | _ => False

/-- Whatever reports no request itself. -/
def unasking : Deed (Facade β) → Prop
  | .fact f => ¬f.asks
  | .enter | .leave | .external => True
  | .own f g => Emits (· ≠ .irqRequest) f g

/-! ### The account of a stretch -/

/-- Between two unfaulted states the sink has been told of exactly the given requests. -/
structure Accounts (told : List IrqSource) (a b : FacadeMachine β) : Prop where
  watched : Watched a → Watched b
  told : Watched a → b.host.fault = .ok →
    a.host.fault = .ok ∧ b.host.requests = a.host.requests ++ told.map IrqSource.toNat

namespace Accounts

variable {B : Board β} {a b c : FacadeMachine β} {early late : List IrqSource}

/-- Doing nothing accounts for nothing. -/
theorem refl (a : FacadeMachine β) : Accounts [] a a where
  watched := id
  told _ healthy := ⟨healthy, by simp⟩

/-- Accounts of stretches that follow each other add up. -/
theorem trans (first : Accounts early a b) (second : Accounts late b c) :
    Accounts (early ++ late) a c where
  watched := second.watched ∘ first.watched
  told watched healthy := by
    obtain ⟨between, later⟩ := second.told (first.watched watched) healthy
    obtain ⟨before, sooner⟩ := first.told watched between
    exact ⟨before, by rw [later, sooner, List.map_append, List.append_assoc]⟩

/-- What hands the sink no request accounts for none. -/
theorem of_emits (variant : b.cpu.variant = a.cpu.variant)
    (observed : b.cpu.observed = a.cpu.observed) (emits : Emits (· ≠ .irqRequest) a.host b.host) :
    Accounts [] a b where
  watched before :=
    ⟨variant.trans before.sab, observed.trans before.observed, emits.bound.trans before.bound⟩
  -- The host has reported something else at most, and a fault that is new would be seen.
  told _ healthy := by
    refine ⟨Decidable.not_not.mp fun faulted => emits.faulted faulted healthy, ?_⟩
    obtain ⟨es, same, others⟩ := emits.emitted
    -- None of what was reported is a request.
    have none : es.filter (fun e => e.kind == .irqRequest) = [] := by
      rw [List.filter_eq_nil_iff]
      exact fun e member => by simpa using others e member
    simp [Facade.requests, same, List.filter_append, none]

/-- A request that is reported. -/
theorem request (a : FacadeMachine β) (cycle : Nat) (s : IrqSource) :
    Accounts [s] a (a.raw (facadeHooks B) (.irqRequest cycle s)) where
  watched before := by
    -- The observer passes the fact on to the facade.
    simp only [Machine.raw, before.observed, if_true]
    exact ⟨before.sab, before.observed, (Emits.obsRawFact _ _ _).bound.trans before.bound⟩
  told before healthy := by
    -- The facade is bound and records the request.
    have unfold : a.raw (facadeHooks B) (.irqRequest cycle s) =
        { a with host := obsEmit { obsInit a.cpu a.host.observation .irqRequest .peripheral cycle
            with irqSource := s.toNat } a.host } := by
      simp only [Machine.raw, before.observed, if_true, facadeHooks, obsRawFact, before.bound,
        Bool.true_eq_false, if_false]
    rw [unfold] at healthy ⊢
    -- A sink that is healthy behind the report has taken it.
    obtain ⟨unfaulted, emitted⟩ := obsEmit_emitted before.bound healthy
    refine ⟨unfaulted, ?_⟩
    simp only [Facade.requests, emitted, List.filter_append, List.map_append, List.map_cons,
      List.map_nil]
    rfl

/-- Reporting the members of a list that qualify, by induction on the list. -/
theorem requestsOf (a : FacadeMachine β) (cycle : Nat) (qualifies : IrqSource → Prop)
    [DecidablePred qualifies] (sources : List IrqSource) :
    Accounts (sources.filter fun s => decide (qualifies s)) a
      (sources.foldl (fun m s =>
        if qualifies s then m.raw (facadeHooks B) (.irqRequest cycle s) else m) a) := by
  -- A member that does not qualify is not reported.
  induction sources generalizing a with
  | nil => exact refl a
  | cons s sources ih =>
    rw [List.foldl_cons]
    by_cases rising : qualifies s
    · rw [if_pos rising, List.filter_cons_of_pos (by simpa using rising)]
      exact (request a cycle s).trans (ih _)
    · rw [if_neg rising, List.filter_cons_of_neg (by simpa using rising)]
      exact ih a

end Accounts

/-! ### Exactness -/

/-- A stretch in which the flags go through a history, and just its rises are reported. -/
structure Told (history : List FlagEvent) (a b : FacadeMachine β) : Prop where
  stored : b.stores = a.stores ++ history.filterMap FlagEvent.stored
  chained : flagMonitor.Accepts a.cpu.flags history
  flags : b.cpu.flags = flagMonitor.after a.cpu.flags history
  accounts : Accounts (history.flatMap FlagEvent.rises) a b

/-- A stretch that reports the rises of some history of its flags. -/
def Exact (a b : FacadeMachine β) : Prop := ∃ history, Told history a b

/-- Flags are compared register by register. -/
theorem Cpu.flags_congr {c d : Cpu} (same : ∀ index, isRequestReg index = true →
    d.sfr index = c.sfr index) : d.flags = c.flags := by
  funext index
  simp only [Cpu.flags]
  split
  · rename_i known
    exact same index known
  · rfl

/-- Storing flags is one event of their history. -/
theorem Cpu.flags_update (c : Cpu) {index : SfrIndex} (known : isRequestReg index = true)
    (value : Byte) : ({ c with sfr := Function.update c.sfr index value } : Cpu).flags =
      Function.update c.flags index value := by
  funext i
  simp only [Cpu.flags]
  -- The register that was stored, or one that was not.
  by_cases here : i = index
  · subst here
    rw [Function.update_self, Function.update_self, if_pos known]
  · rw [Function.update_of_ne here, Function.update_of_ne here]
    rfl

namespace Exact

variable {B : Board β} {a b c : FacadeMachine β}

/-- Doing nothing is exact. -/
theorem refl (a : FacadeMachine β) : Exact a a :=
  ⟨[], (List.append_nil _).symm, trivial, rfl, .refl a⟩

/-- Exact stretches compose: their histories follow each other. -/
theorem trans (first : Exact a b) (second : Exact b c) : Exact a c := by
  obtain ⟨early, before⟩ := first
  obtain ⟨late, behind⟩ := second
  -- Stores and reports of the two histories are joined, and the flags go from one to the other.
  refine ⟨early ++ late, ?_, ?_, ?_, ?_⟩
  · rw [behind.stored, before.stored, List.filterMap_append, List.append_assoc]
  · refine (flagMonitor.accepts_append _ early late).mpr ⟨before.chained, ?_⟩
    rw [← before.flags]
    exact behind.chained
  · rw [flagMonitor.after_append, ← before.flags]
    exact behind.flags
  · rw [List.flatMap_append]
    exact before.accounts.trans behind.accounts

/-- Nothing happens to the flags, and nothing is reported about them. -/
theorem calm (stored : b.stores = a.stores)
    (same : ∀ index, isRequestReg index = true → b.cpu.sfr index = a.cpu.sfr index)
    (accounts : Accounts [] a b) : Exact a b :=
  ⟨[], by rw [stored]; exact (List.append_nil _).symm, trivial, Cpu.flags_congr same, accounts⟩

/-- Both branches are exact, whichever is taken. -/
theorem ite {p : Prop} [Decidable p] {x y : FacadeMachine β} (yes : Exact a x) (no : Exact a y) :
    Exact a (if p then x else y) := by
  split
  · exact yes
  · exact no

section Rules

variable (exact : Exact a b)

include exact

/-- A change of the CPU outside the request registers. -/
theorem mapCpu {f : Cpu → Cpu} (variant : (f b.cpu).variant = b.cpu.variant)
    (observed : (f b.cpu).observed = b.cpu.observed)
    (same : ∀ index, isRequestReg index = true → (f b.cpu).sfr index = b.cpu.sfr index) :
    Exact a (b.mapCpu f) :=
  exact.trans (.calm rfl same (.of_emits variant observed (.refl _)))

/-- A change of the facade beside its core that reports no request. -/
theorem host {g : Facade β} (emits : Emits (· ≠ .irqRequest) b.host g) :
    Exact a { b with host := g } :=
  exact.trans (.calm rfl (fun _ _ => rfl) (.of_emits rfl rfl emits))

/-- A change of the serial port's state is exact. -/
theorem mapUart (f : UartState → UartState) : Exact a (b.mapUart f) :=
  exact.mapCpu rfl rfl fun _ _ => rfl

/-- Every fact but a request. -/
theorem raw {f : RawFact} (other : ¬f.asks) : Exact a (b.raw (facadeHooks B) f) := by
  simp only [Machine.raw]
  -- The kinds of report are disjoint, so none of the others is a request.
  refine ite (exact.host ?_) exact
  refine (Emits.obsRawFact _ _ _).mono fun k reported => ?_
  rintro rfl
  cases f <;> first
    | exact other trivial
    | exact ObsKind.noConfusion reported
    | exact reported.elim ObsKind.noConfusion ObsKind.noConfusion
    | exact reported

/-- So is a trace record. -/
theorem emit (record : Record) : Exact a (b.emit (facadeHooks B) record) :=
  exact.host (Emits.uartTrace _ B record)

/-- A register without request flags. -/
theorem setOther (index : SfrIndex) (value : Byte) (other : isRequestReg index = false) :
    Exact a (b.setSfr index value) := by
  rw [setSfr_other _ _ other]
  refine exact.mapCpu rfl rfl fun i known => Function.update_of_ne ?_ _ _
  rintro rfl
  exact Bool.false_ne_true (other.symm.trans known)

/-- A store in which no request rises is reported by nothing. -/
theorem setSfr {index : SfrIndex} {value : Byte} (known : isRequestReg index = true)
    (falls : ∀ s : IrqSource, s.requestReg = index → has value s.requestMask = true →
      has (b.cpu.sfr index) s.requestMask = true) :
    Exact a (b.setSfr index value) := by
  -- Every bit that is set behind the store was set before it.
  have none : FlagStore.rises ⟨index, b.cpu.sfr index, value⟩ = [] := by
    simp only [FlagStore.rises, List.filter_eq_nil_iff, decide_eq_true_eq]
    rintro s _ ⟨here, clear, set⟩
    exact Bool.false_ne_true (clear.symm.trans (falls s here.symm set))
  -- The history is the store alone.
  refine exact.trans ⟨[.store ⟨index, b.cpu.sfr index, value⟩], ?_, ⟨⟨known, ?_⟩, trivial⟩, ?_, ?_⟩
  · simp only [Machine.setSfr, known, cond_true]
    rfl
  · exact (if_pos known).symm
  · exact Cpu.flags_update b.cpu known value
  · -- It tells of no request, and none has risen.
    simp only [List.flatMap_cons, List.flatMap_nil, FlagEvent.rises, none]
    exact .of_emits rfl rfl (.refl _)

/-- Clearing flags makes none rise. -/
theorem clearFlags {index : SfrIndex} (mask : Byte) (known : isRequestReg index = true) :
    Exact a (b.clearFlags index mask) :=
  exact.setSfr known fun _ _ set => has_of_and set

end Rules

end Exact

/-! ### The observing writer -/

/-- The observing writer reports the rises of its store. -/
theorem irqWrite_exact {B : Board β} (a : FacadeMachine β) (sab : a.cpu.variant = .sab80535)
    (index : SfrIndex) (value : Byte) (cycle : Nat) :
    Exact a (a.irqWrite (facadeHooks B) index value cycle) := by
  have stored : Accounts [] a (a.setSfr index value) := .of_emits rfl rfl (.refl _)
  have reported := stored.trans (Accounts.requestsOf (B := B) (a.setSfr index value) cycle
    (fun s => index = s.requestReg ∧ has (a.cpu.sfr index) s.requestMask = false ∧
      has value s.requestMask = true) IrqSource.all)
  have written : a.irqWrite (facadeHooks B) index value cycle = IrqSource.all.foldl
      (fun m s => if index = s.requestReg ∧ has (a.cpu.sfr index) s.requestMask = false ∧
        has value s.requestMask = true then m.raw (facadeHooks B) (.irqRequest cycle s) else m)
      (a.setSfr index value) := by
    exact if_pos sab
  rw [← written, List.nil_append] at reported
  cases known : isRequestReg index with
  | true =>
    refine ⟨[.store ⟨index, a.cpu.sfr index, value⟩], ?_, ⟨⟨known, (if_pos known).symm⟩, trivial⟩,
      ?_, ?_⟩
    · rw [irqWrite_stores]
      simp only [Machine.setSfr, known, cond_true]
      rfl
    · rw [irqWrite_cpu]
      exact Cpu.flags_update a.cpu known value
    · simpa [FlagEvent.rises, FlagStore.rises] using reported
  | false =>
    -- No source has its flags in another register.
    have none : (IrqSource.all.filter fun s => decide (index = s.requestReg ∧
        has (a.cpu.sfr index) s.requestMask = false ∧ has value s.requestMask = true)) = [] := by
      simp only [List.filter_eq_nil_iff, decide_eq_true_eq]
      rintro s _ ⟨rfl, -⟩
      exact Bool.false_ne_true (known.symm.trans (requestReg_known s))
    rw [none] at reported
    refine .calm ?_ (fun i flags => ?_) reported
    · rw [irqWrite_stores, setSfr_other _ _ known]
      rfl
    · rw [irqWrite_cpu]
      refine Function.update_of_ne ?_ _ _
      rintro rfl
      exact Bool.false_ne_true (known.symm.trans flags)

/-! ### One act of the core -/

namespace Exact

variable {B : Board β} {a b : FacadeMachine β}

/-- The observing writer after an exact stretch. -/
theorem write (exact : Exact a b) (sab : b.cpu.variant = .sab80535) (index : SfrIndex)
    (value : Byte) (cycle : Nat) : Exact a (b.irqWrite (facadeHooks B) index value cycle) :=
  exact.trans (irqWrite_exact b sab index value cycle)

/-- A start of the transmitter is exact. -/
theorem uartTxStart (cycle : Nat) : Exact a (uartTxStart (facadeHooks B) cycle a) := by
  simp only [Emu80535.uartTxStart]
  exact (((refl a).mapUart _).raw id).emit _

/-- So is the end of a frame. -/
theorem uartTxEnd (cycle : Nat) : Exact a (uartTxEnd (facadeHooks B) cycle a) := by
  simp only [Emu80535.uartTxEnd]
  have ended := ((refl a).raw (B := B) (f := .txEnd cycle) id).emit (B := B)
    (.uart .txEnd cycle (a.raw (facadeHooks B) (.txEnd cycle)).cpu.pc
      (a.raw (facadeHooks B) (.txEnd cycle)).cpu.uart.txData
      (a.raw (facadeHooks B) (.txEnd cycle)).cpu.uart.txNinth 10 true)
  refine .ite ended (.ite ?_ (ended.mapUart _))
  exact (ended.mapUart _).trans (uartTxStart cycle)

/-- So is a stop bit, whose request is written like any other. -/
theorem uartTxStop (sab : a.cpu.variant = .sab80535) (cycle : Nat) :
    Exact a (uartTxStop (facadeHooks B) cycle a) := by
  simp only [Emu80535.uartTxStop]
  have raised := write (B := B) ((refl a).mapUart fun u => { u with txBitIndex := 10 }) sab
    Reg.scon (a.cpu.sfr Reg.scon ||| Scon.ti) cycle
  refine .emit (.ite (.raw (.raw raised ?_) ?_) (.raw raised ?_)) _
  all_goals exact id

/-- So is a boundary of the transmitter. -/
theorem uartTxBoundary (sab : a.cpu.variant = .sab80535) (cycle : Nat) :
    Exact a (uartTxBoundary (facadeHooks B) cycle a) := by
  simp only [Emu80535.uartTxBoundary]
  split
  · -- An idle transmitter starts a frame; a busy one sends a bit, the stop bit, or ends the frame.
    exact .ite (uartTxStart cycle) (.refl a)
  · split
    · exact ((refl a).mapUart _).emit _
    · split
      · exact uartTxStop sab cycle
      · exact uartTxEnd cycle

/-- So is an accepted byte. -/
theorem uartRxAccept (sab : a.cpu.variant = .sab80535) (cycle : Nat) :
    Exact a (uartRxAccept (facadeHooks B) cycle a) := by
  -- Only the serial source has its flags in SCON, and RB8 is none of them.
  have ninth : ∀ (value : Byte) (s : IrqSource), s.requestReg = Reg.scon →
      (has (value &&& ~~~Scon.rb8) s.requestMask = true → has value s.requestMask = true) ∧
        (has (value ||| Scon.rb8) s.requestMask = true → has value s.requestMask = true) := by
    intro value s here
    have uart : s = .uart := by cases s <;> first | rfl | exact absurd here (by decide)
    subst uart
    revert value
    decide
  simp only [Emu80535.uartRxAccept]
  have filled := ((refl a).mapUart fun u => { u with rxData := u.rxPendingData }).setOther
    Reg.sbuf a.cpu.uart.rxPendingData rfl
  have cleared := @setSfr _ _ _ filled Reg.scon _ rfl fun s here => (ninth _ s here).1
  refine .emit (.raw (write (.ite (@setSfr _ _ _ cleared Reg.scon _ rfl ?_) cleared) ?_ _ _ _)
    id) _
  · exact fun s here => (ninth _ s here).2
  · split <;> exact sab

/-- So is a dropped one. -/
theorem uartRxDrop (cycle : Nat) : Exact a (uartRxDrop (facadeHooks B) cycle a) := by
  simp only [Emu80535.uartRxDrop]
  refine .emit (.raw (.refl a) ?_) _
  exact id

/-- So is a boundary of the receiver. -/
theorem uartRxBoundary (sab : a.cpu.variant = .sab80535) (cycle : Nat) :
    Exact a (uartRxBoundary (facadeHooks B) cycle a) := by
  have shifted := (refl a).mapUart fun u => { u with rxBitIndex := u.rxBitIndex + 1 }
  have sab' : (a.mapUart fun u => { u with rxBitIndex := u.rxBitIndex + 1 }).cpu.variant =
      .sab80535 := sab
  -- Behind the last bit the byte is accepted or dropped.
  simp only [Emu80535.uartRxBoundary]
  split
  · split
    · exact shifted.trans (uartRxAccept sab' cycle)
    · exact shifted.trans (uartRxDrop cycle)
  · -- A bit that breaks the frame is told, any other one is only counted.
    split
    · refine .emit (.raw (shifted.mapUart _) ?_) _
      exact id
    · exact shifted

/-- So is a byte that is held for the transmitter. -/
theorem uartSbufWrite (value : Byte) : Exact a (uartSbufWrite (facadeHooks B) value a) := by
  simp only [Emu80535.uartSbufWrite]
  exact .ite (((refl a).mapUart _).raw id) (.refl a)

/-- So is one that is injected. -/
theorem injectRxFrame (data : Byte) (ninth : Bool) :
    Exact a (injectRxFrame (facadeHooks B) data ninth a).2 := by
  simp only [Emu80535.injectRxFrame]
  split
  · exact (((refl a).mapUart _).raw id).emit _
  · exact .refl a

/-- So is clearing the flag of a source, in which nothing rises. -/
theorem autoClear (source : IrqSource) : Exact a (autoClear source a) := by
  cases source with
  | int0 | int1 =>
    simp only [Emu80535.autoClear]
    split
    · exact (refl a).clearFlags _ rfl
    · exact .refl a
  | uart | timer2 | adc => exact .refl a
  | timer0 | timer1 | int2 | int3 | int4 | int5 | int6 => exact (refl a).clearFlags _ rfl

/-- Every act of a watched core reports exactly the requests it makes rise. -/
theorem of_act (act : Act (facadeHooks B) unasking a b) (watched : Watched a) : Exact a b := by
  -- Each act has been shown exact on its own.
  cases act with
  -- What happens apart keeps the three registers with flags.
  | apart c same =>
    refine (refl a).mapCpu (f := fun _ => c) same.variant same.observed fun index known => ?_
    rcases isRequestReg_cases known with rfl | rfl | rfl
    · exact same.tcon
    · exact same.scon
    · exact same.ircon
  | foreign c stores other same observed => exact absurd watched.sab other
  | withdraw source level asserted =>
    exact (refl a).clearFlags _ (requestReg_known source.irqSource)
  -- Clearing a flag is a store in which nothing rises.
  | acknowledge source allowed => exact autoClear source
  | cancel source => exact (refl a).clearFlags _ (requestReg_known source)
  -- A request is a store that is told of what rises in it.
  | raise index mask cycle => exact irqWrite_exact a watched.sab _ _ cycle
  | store index value cycle => exact irqWrite_exact a watched.sab _ _ cycle
  | txBoundary cycle => exact uartTxBoundary watched.sab cycle
  | rxBoundary cycle => exact uartRxBoundary watched.sab cycle
  | hold value => exact uartSbufWrite value
  | inject data ninth => exact injectRxFrame data ninth
  -- An entry moves the program counter and the service stack.
  | enter source priority returnPc spBefore allowed =>
    exact ((refl a).mapCpu (f := fun c => { c with
      pc := source.vector
      tickDelay := 1
      service := c.service.push source priority c }) rfl rfl fun _ _ => rfl).raw id
  | leave allowed => exact (refl a).mapCpu rfl rfl fun _ _ => rfl
  | fact f allowed => exact (refl a).raw allowed
  | except code => exact (refl a).host ((Emits.refl _).fail _)
  | sfrread installed => exact absurd installed.symm (Option.some_ne_none _)
  -- The bus reports its access and nothing else.
  | xread address installed allowed =>
    refine (refl a).host ?_
    rw [← Option.some.inj installed]
    refine (Emits.bus _ B a.cpu address .read 0#8).mono fun k reported => ?_
    rcases reported with rfl | rfl <;> exact ObsKind.noConfusion
  | xwrite address value installed allowed =>
    refine (refl a).host ?_
    rw [← Option.some.inj installed]
    refine (Emits.bus _ B a.cpu address .write value).mono fun k reported => ?_
    rcases reported with rfl | rfl <;> exact ObsKind.noConfusion
  | emit record => exact (refl a).emit record
  | own h allowed => exact (refl a).host allowed

/-- And so does every sequence of acts. -/
theorem of_acts (acts : Acts (facadeHooks B) unasking a b) (watched : Watched a) : Exact a b := by
  induction acts with
  | refl => exact .refl a
  | tail _ last ih =>
    have still : Watched _ := ih.elim fun _ before => before.accounts.watched watched
    exact ih.trans (of_act last still)

end Exact

/-! ### Calls of the facade -/

/-- What the facade does beside its core reports no request. -/
theorem unasking_free : Free (unasking (β := β)) := by
  -- The moves of the facade, each with what it reports.
  intro f g move
  cases move with
  | beside observation fault emitted =>
    exact (Emits.refl f).quiet (congrArg _ observation) fault emitted
  | port board port c => exact Emits.portWrite f board port c
  | fail status => exact (Emits.refl f).fail status
  | finish c =>
    refine (Emits.obsFinish f c).mono fun k reported => ?_
    rcases reported with (rfl | rfl) | rfl <;> exact ObsKind.noConfusion
  | deliver parent order cycle => exact (Emits.refl f).mapObs rfl
  | rejected c input reason =>
    refine (Emits.obsRxRejected f c input reason).mono fun k reported => ?_
    rcases reported with rfl | rfl <;> exact ObsKind.noConfusion
  -- The lifecycle events are power, reset and load.
  | lifecycle c e known emitted =>
    refine ((Emits.refl f).mapObs ?_).obsEmit ?_
    · rfl
    · rcases known with known | known | known <;> rw [known] <;> exact ObsKind.noConfusion

/-- Plain facts are no requests. -/
theorem RawFact.not_asks_of_plain {f : RawFact} (plain : f.plain = true) : ¬f.asks := by
  cases f <;> first | exact id | exact absurd plain Bool.false_ne_true

/-- A tick of a watched core consists of acts that ask for nothing. -/
theorem unasking_tick {board : Board β} {m n : FacadeMachine β} (sab : n.cpu.variant = .sab80535)
    (acts : Acts (facadeHooks board) unasking m n) :
    Acts (facadeHooks board) unasking m (tick (facadeHooks board) n).2 :=
  acts.tick (facade_acting unasking_free) sab (fun _ => RawFact.not_asks_of_plain) trivial trivial
    trivial

/-! ### Resets -/

/-- A reset leaves no request flag set. -/
theorem reset_flags (c : Cpu) (wipe : Bool) (rand : Byte) :
    (c.reset wipe rand).flags = fun _ => 0#8 := by
  funext index
  simp only [Cpu.flags]
  -- The three registers are not among those a reset sets to something else.
  split
  · rename_i known
    simp only [Cpu.reset]
    rcases isRequestReg_cases known with rfl | rfl | rfl <;>
      · rw [Function.update_of_ne (by decide)]
        simp [resetSfr, Reg.tcon, Reg.scon, Reg.ircon, Reg.sp, Reg.p0, Reg.p1, Reg.p2, Reg.p3,
          Reg.p4, Reg.p5, Reg.p6, Reg.pcon]
  · rfl

/-- A reset keeps the variant and the observer. -/
theorem reset_kept (c : Cpu) (wipe : Bool) (rand : Byte) :
    (c.reset wipe rand).variant = c.variant ∧ (c.reset wipe rand).observed = c.observed := by
  simp only [Cpu.reset, Cpu.wipeMemory]
  cases wipe <;> simp only [Bool.false_eq_true, if_false, if_true] <;> split <;> exact ⟨rfl, rfl⟩

/-- A reset is one event of the flags, and reports no request. -/
theorem Exact.of_reset {a b : FacadeMachine β} (stored : b.stores = a.stores)
    (cleared : b.cpu.flags = fun _ => 0#8) (accounts : Accounts [] a b) : Exact a b :=
  ⟨[.reset], by rw [stored]; exact (List.append_nil _).symm, ⟨trivial, trivial⟩, cleared, accounts⟩

/-- A reset is exact: it clears every request and reports none. -/
theorem resetCpu_exact {a : FacadeMachine β} (healthy : a.host.fault = .ok) (seed : BitVec 32)
    (entry : Word) : Exact a (resetCpu seed entry a) := by
  have emits := (Emits.obsReset a.host a.cpu).mono (L := (· ≠ .irqRequest)) (by
    rintro k (rfl | rfl | rfl) <;> exact ObsKind.noConfusion)
  -- The fault a reset may run into while it reports is dropped with the rest.
  have cleared : Emits (· ≠ .irqRequest) a.host (resetCpu seed entry a).host :=
    { bound := emits.bound
      faulted := fun faulted => absurd healthy faulted
      emitted := emits.emitted }
  have kept := reset_kept { a.cpu with resetSeed := seed, resetSeedConfigured := true } true 0#8
  exact .of_reset rfl (reset_flags _ true 0#8) (.of_emits kept.1 kept.2 cleared)

/-! ### Runs -/

/-- What can happen to a watched CPU: a bare tick, a call of the core or a call of the facade. -/
inductive WatchedAction (β : Type) where
  | tick
  | core (call : HostCall)
  | facade (call : FacadeCall)
  /-- The board changes state of its own. -/
  | board (update : β → β)

/-- The machine after one of these. -/
def WatchedAction.run (board : Board β) : WatchedAction β → FacadeMachine β → FacadeMachine β
  | tick, m => (Emu80535.tick (facadeHooks board) m).2
  | core call, m => (call.run (facadeHooks board) m).2
  | facade call, m => (call.run board m).2
  | .board update, m => m.mapHost fun f => { f with board := update f.board }

/-- A run that keeps its sink and never faults. -/
inductive WatchedRun (board : Board β) (m : FacadeMachine β) : FacadeMachine β → Prop
  | start : WatchedRun board m m
  | step {n : FacadeMachine β} (before : WatchedRun board m n) (action : WatchedAction β)
      (stays : action ≠ .facade .unbind) (healthy : (action.run board n).host.fault = .ok) :
      WatchedRun board m (action.run board n)

/-- An action of a watched machine reports exactly the requests that rise in it. -/
theorem WatchedAction.exact {board : Board β} {n : FacadeMachine β} (watched : Watched n)
    (healthy : n.host.fault = .ok) (action : WatchedAction β) (stays : action ≠ .facade .unbind) :
    Exact n (action.run board n) := by
  have still : Acts (facadeHooks board) unasking n n := .refl n
  -- Ticks and calls consist of acts; a reset is told apart.
  cases action with
  | tick => exact .of_acts (unasking_tick watched.sab still) watched
  | board update => exact .of_acts (still.beside unasking_free rfl rfl rfl) watched
  | core call =>
    by_cases other : ∀ wipe rand, call ≠ .reset wipe rand
    · exact .of_acts (still.hostCall (facade_acting unasking_free)
        (fun f brackets => RawFact.not_asks_of_plain brackets.plain) call other) watched
    · -- A reset clears the flags without a report.
      simp only [not_forall, not_not] at other
      obtain ⟨wipe, rand, rfl⟩ := other
      have kept := reset_kept n.cpu wipe rand
      exact .of_reset rfl (reset_flags n.cpu wipe rand) (.of_emits kept.1 kept.2 (.refl _))
  | facade call =>
    by_cases other : ∀ seed entry, call ≠ .reset seed entry
    · have cycled := still.cycleCpu unasking_free fun k same acts =>
        unasking_tick (same ▸ watched.sab) acts
      exact .of_acts (still.facadeCall unasking_free call (fun _ => cycled) other
        (fun same => stays (same ▸ rfl)) fun _ _ => watched.bound) watched
    · -- The facade's own reset also begins the observation anew.
      simp only [not_forall, not_not] at other
      obtain ⟨seed, entry, rfl⟩ := other
      exact resetCpu_exact healthy seed entry

/-- A run reports exactly the requests that rise in it, by induction on its actions. -/
theorem WatchedRun.exact {board : Board β} {m n : FacadeMachine β}
    (run : WatchedRun board m n) (watched : Watched m) (healthy : m.host.fault = .ok) :
    Exact m n ∧ n.host.fault = .ok := by
  induction run with
  | start => exact ⟨.refl m, healthy⟩
  | step _ action stays unfaulted ih =>
    obtain ⟨before, fine⟩ := ih
    have still : Watched _ := before.elim fun _ told => told.accounts.watched watched
    exact ⟨before.trans (action.exact still fine stays), unfaulted⟩

/--
The reported requests are exactly the rises of the canonical request bits.

In every unfaulted run of a watched CPU the request flags go through a history of stores and resets.
Its stores are those the run made, in their order; each found the flags as the events before it had
left them, and the flags end as the last leaves them. The sink has been handed one request for every
rise of an aggregate in it, in order, and no other.
-/
theorem requests_exact {board : Board β} {m n : FacadeMachine β} (watched : Watched m)
    (healthy : m.host.fault = .ok) (run : WatchedRun board m n) :
    ∃ history : List FlagEvent,
      n.stores = m.stores ++ history.filterMap FlagEvent.stored ∧
        flagMonitor.Accepts m.cpu.flags history ∧
        n.cpu.flags = flagMonitor.after m.cpu.flags history ∧
        n.host.requests =
          m.host.requests ++ (history.flatMap FlagEvent.rises).map IrqSource.toNat := by
  obtain ⟨⟨history, told⟩, unfaulted⟩ := run.exact watched healthy
  exact ⟨history, told.stored, told.chained, told.flags,
    (told.accounts.told watched unfaulted).2⟩

/-- Timer 1 overflows in a tick; its request is set once more, cancelled, and set again. -/
def timerRequests : List (WatchedAction Unit) :=
  [.core (.sfrWrite 0x89#8 0x20#8), .core (.sfrWrite 0x8B#8 0xFF#8), .core (.sfrWrite 0x88#8 0x40#8),
    .tick, .core (.setPending 3 true), .core (.setPending 3 false), .core (.setPending 3 true)]

/-- A CPU fresh from its reset, bound to a sink. -/
def freshlyBound : FacadeMachine Unit := (bindObservation 1 (createCpu ())).2

/-- The overflow and the second assertion are reported, and what leaves the request set is not. -/
theorem requests_exact_asserted :
    let n := timerRequests.foldl (fun m action => action.run Board.bare m) freshlyBound
    n.host.requests = [3, 3] ∧ n.stores.length = 5 ∧
      ∃ history : List FlagEvent, n.stores = history.filterMap FlagEvent.stored ∧
        n.host.requests = (history.flatMap FlagEvent.rises).map IrqSource.toNat := by
  refine ⟨by decide, by decide, ?_⟩
  -- The run is given action by action, and none of them unbinds the observer.
  have run : WatchedRun Board.bare freshlyBound
      (timerRequests.foldl (fun m action => action.run Board.bare m) freshlyBound) := by
    simp only [timerRequests, List.foldl_cons, List.foldl_nil]
    -- Each action is a step, as it leaves no fault behind.
    refine .step (.step (.step (.step (.step (.step (.step .start _ ?_ ?_) _ ?_ ?_) _ ?_ ?_) _ ?_ ?_)
      _ ?_ ?_) _ ?_ ?_) _ ?_ ?_
    all_goals first | rfl | simp
  obtain ⟨history, stored, -, -, told⟩ :=
    requests_exact ⟨by decide, by decide, by decide⟩ (by decide) run
  exact ⟨history, stored, told⟩

end Emu80535
