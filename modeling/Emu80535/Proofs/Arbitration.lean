import Emu80535.Proofs.Nesting
import Emu80535.Proofs.Requests

/-! Which source a tick enters, and what the entry does. -/

namespace Emu80535

variable {ω : Type} {hooks : Hooks ω}

open Machine

/-! ### Eligible sources -/

/-- Whether a source is enabled, where each Timer 2 flag has an enable of its own. -/
def Cpu.enables (c : Cpu) : IrqSource → Bool
  | .timer2 => c.timer2Enabled
  | source => c.enabledIn source

/-- What makes a source eligible for entry. -/
structure Cpu.Eligible (c : Cpu) (source : IrqSource) : Prop where
  requested : c.requested source = true
  enabled : c.enables source = true
  unserved : c.service.inService.getLsbD source.toNat = false
  above : ∀ p, c.service.current = some p → p < c.irqPriority source

/-- The eligible source of greatest priority, and of lowest number among equals. -/
structure Cpu.Winner (c : Cpu) (source : IrqSource) : Prop where
  eligible : c.Eligible source
  best : ∀ other, c.Eligible other →
    c.irqPriority other < c.irqPriority source ∨
      (c.irqPriority other = c.irqPriority source ∧ source.toNat ≤ other.toNat)

/-- A cached mask has exactly the bits of the sources it was built from. -/
theorem sourceMask_bit (select : IrqSource → Bool) (source : IrqSource) :
    (sourceMask select &&& source.bit != 0#16) = select source := by
  have narrow : source.toNat < 16 := by cases source <;> decide
  have bit : (sourceMask select).getLsbD source.toNat = select source := by
    simp only [sourceMask, IrqSource.bit]
    rw [Bits.getLsbD_foldl_or select IrqSource.toNat IrqSource.all 0#16 narrow]
    -- The source is in the list once, and no other has its number.
    cases source <;>
      simp [IrqSource.all, IrqSource.toNat]
  cases chosen : select source with
  | false =>
    rw [chosen] at bit
    rw [IrqSource.bit, (Bits.and_one_shiftLeft_eq_zero_iff narrow).mpr bit]
    rfl
  | true =>
    rw [chosen] at bit
    rw [bne_iff_ne, ne_eq, IrqSource.bit, Bits.and_one_shiftLeft_eq_zero_iff narrow, bit]
    decide

/-- Once level requests are refreshed, the candidates of the arbiter are the eligible sources. -/
theorem candidate_iff (m : Machine ω) (source : IrqSource) :
    (irqSync hooks m).cpu.candidate source = true ↔
      (maintainLevelRequests hooks m).cpu.Eligible source := by
  have narrow : source.toNat < 16 := by cases source <;> decide
  generalize refreshed : (maintainLevelRequests hooks m).cpu = c
  have synced : (irqSync hooks m).cpu =
      { c with irqPending := sourceMask c.requested, irqEnabled := sourceMask c.enabledIn } := by
    rw [← refreshed]
    rfl
  have served : (c.service.inService &&& source.bit == 0#16) = true ↔
      c.service.inService.getLsbD source.toNat = false := by
    rw [beq_iff_eq, IrqSource.bit, Bits.and_one_shiftLeft_eq_zero_iff narrow]
  have enabled : (c.enabledIn source = true ∧ (source != .timer2 || c.timer2Enabled) = true) ↔
      c.enables source = true := by
    cases source with
    | timer2 =>
      -- Either enable admits the source to the cache; the flag decides which one counts.
      simp only [Cpu.enables, Cpu.enabledIn, Cpu.timer2Enabled]
      cases has (c.sfr Reg.ien0) Ie.et2 <;> cases has (c.sfr Reg.ien1) Ie.exen2 <;> simp
    | _ => simp [Cpu.enables]
  rw [synced]
  simp only [Cpu.candidate, sourceMask_bit]
  show (c.requested source && c.enabledIn source && (c.service.inService &&& source.bit == 0#16) &&
    (source != .timer2 || c.timer2Enabled) &&
    c.service.current.all fun p => decide (p < c.irqPriority source)) = true ↔ _
  simp only [Bool.and_eq_true, served]
  constructor
  · rintro ⟨⟨⟨⟨requested, cached⟩, unserved⟩, paired⟩, above⟩
    refine ⟨requested, enabled.mp ⟨cached, paired⟩, unserved, fun p top => ?_⟩
    simpa [top] using above
  · rintro ⟨requested, enables, unserved, above⟩
    obtain ⟨cached, paired⟩ := enabled.mpr enables
    refine ⟨⟨⟨⟨requested, cached⟩, unserved⟩, paired⟩, ?_⟩
    cases top : c.service.current with
    | none => rfl
    | some p => simpa using above p top

/-- The arbiter selects exactly the winner. -/
theorem arbitrate_iff (m : Machine ω) (source : IrqSource) :
    (irqSync hooks m).cpu.arbitrate = some source ↔
      (maintainLevelRequests hooks m).cpu.Winner source := by
  -- Refreshing the caches changes no priority.
  have priority : ∀ s, (irqSync hooks m).cpu.irqPriority s =
      (maintainLevelRequests hooks m).cpu.irqPriority s := fun _ => rfl
  rw [arbitrate_eq_some_iff]
  constructor
  · -- The arbiter's choice is the best of the candidates.
    rintro ⟨-, fits, best⟩
    refine ⟨(candidate_iff m source).mp fits, fun other eligible => ?_⟩
    simpa only [priority] using
      best other (irqSource_mem_all other) ((candidate_iff m other).mpr eligible)
  · -- The other way the winner is a candidate itself.
    rintro ⟨eligible, best⟩
    refine ⟨irqSource_mem_all source, (candidate_iff m source).mpr eligible, fun other _ fits => ?_⟩
    simpa only [priority] using best other ((candidate_iff m other).mp fits)

/-- It selects nothing exactly when no source is eligible. -/
theorem arbitrate_none_iff (m : Machine ω) :
    (irqSync hooks m).cpu.arbitrate = none ↔
      ∀ source, ¬(maintainLevelRequests hooks m).cpu.Eligible source := by
  rw [arbitrate_eq_none_iff]
  refine forall_congr' fun source => ?_
  rw [← candidate_iff, Bool.not_eq_true]

/-! ### Entries that have room -/

/-- The CPU after its program counter has been pushed, low byte first. -/
def Cpu.pushPc (c : Cpu) : Cpu :=
  (c.push (c.pc.setWidth 8)).push ((c.pc >>> 8).setWidth 8)

/-- The stack has room for a return address. -/
def Cpu.hasRoom (c : Cpu) : Bool := c.canPush && (c.push (c.pc.setWidth 8)).canPush

/--
An attached observer lets the next entry pass.

The observer of the repository refuses one only when it faults, which aborts the CPU.
-/
def Machine.Admits (hooks : Hooks ω) (m : Machine ω) : Prop :=
  m.cpu.observed = true →
    (irqSync hooks m).rawAnswer hooks (.contextPreflight m.cpu.machineCycleCount) ≠ 0

section Entries

variable {m : Machine ω} {source : IrqSource}

/-- Pushing keeps the program counter. -/
theorem push_pc (c : Cpu) (value : Byte) : (c.push value).pc = c.pc := by
  simp only [Cpu.push]
  split <;> rfl

/-- Room is a matter of the pointer, the memory behind it and the program counter. -/
theorem hasRoom_eq {a b : Cpu} (same : a.stable = b.stable) (sab : b.variant = .sab80535) :
    a.hasRoom = b.hasRoom := by
  have pointer : a.sfr Reg.sp = b.sfr Reg.sp := Stable.sfr_eq_sab same sab rfl
  have upper : a.upperData = b.upperData := congrArg Stable.upperData same
  -- A push changes neither what backs the stack nor anything but the pointer.
  have backed : ∀ (c : Cpu) (v : Byte), (c.push v).upperData.isNone = c.upperData.isNone ∧
      (c.push v).sfr Reg.sp = c.sfr Reg.sp + 1#8 := by
    intro c v
    simp only [Cpu.push]
    split <;> simp
  simp only [Cpu.hasRoom, Cpu.canPush, Cpu.stackBacked, (backed _ _).1, (backed _ _).2, pointer,
    upper]

/-- With room and no refusal an entry commits. -/
theorem enterInterrupt_of_room (room : m.cpu.hasRoom = true)
    (admits : m.cpu.observed = true →
      m.rawAnswer hooks (.contextPreflight m.cpu.machineCycleCount) ≠ 0) :
    ∃ pushed : Machine ω, pushed.cpu = m.cpu.pushPc ∧
      enterInterrupt hooks source m =
        (true, acceptInterrupt hooks source (m.cpu.irqPriority source) m.cpu.pc
          (m.cpu.sfr Reg.sp) m.cpu.irqPending pushed) := by
  -- An observer that admits the entry does not stop it.
  have open_ : (m.cpu.observed &&
      m.rawAnswer hooks (.contextPreflight m.cpu.machineCycleCount) == 0) = false := by
    cases watched : m.cpu.observed with
    | false => rfl
    | true => simpa using admits watched
  simp only [Cpu.hasRoom, Bool.and_eq_true] at room
  generalize asked : m.raw hooks (.contextPreflight m.cpu.machineCycleCount) = n
  have same : n.cpu = m.cpu := by rw [← asked, raw_cpu]
  -- Both pushes have room, the second one behind the first.
  have low := @pushToStack_run ω hooks (n.cpu.pc.setWidth 8) n (by rw [same]; exact room.1)
  have high := @pushToStack_run ω hooks ((n.cpu.pc >>> 8).setWidth 8)
    (n.mapCpu fun c => c.push (n.cpu.pc.setWidth 8)) (by
      simp only [mapCpu_cpu, same]
      exact room.2)
  refine ⟨(n.mapCpu fun c => c.push (n.cpu.pc.setWidth 8)).mapCpu fun c =>
    c.push ((n.cpu.pc >>> 8).setWidth 8), ?_, ?_⟩
  · simp only [mapCpu_cpu, same, Cpu.pushPc]
  · simp only [enterInterrupt, open_, asked, Bool.false_eq_true, if_false]
    rw [low]
    simp only [if_true, mapCpu_cpu, push_pc]
    rw [high]
    simp only [if_true, same]

/-- With a winner, room and no hold-off the controller enters it. -/
theorem handleInterrupts_of_winner (sab : m.cpu.variant = .sab80535) (wf : m.cpu.service.Wf)
    (room : m.cpu.hasRoom = true) (admits : m.Admits hooks)
    (enabled : has (m.cpu.sfr Reg.ien0) Ie.ea = true) (free : m.cpu.irqInhibit = 0)
    (winner : (maintainLevelRequests hooks m).cpu.Winner source) :
    ∃ pushed : Machine ω, pushed.cpu = (irqSync hooks m).cpu.pushPc ∧
      handleInterrupts hooks m =
        (true, acceptInterrupt hooks source ((irqSync hooks m).cpu.irqPriority source)
          (irqSync hooks m).cpu.pc ((irqSync hooks m).cpu.sfr Reg.sp)
          (irqSync hooks m).cpu.irqPending pushed) := by
  have same := irqSync_stable hooks m
  have inhibit : (irqSync hooks m).cpu.irqInhibit = 0 :=
    (congrArg Stable.irqInhibit same).trans free
  have open_ : has ((irqSync hooks m).cpu.sfr Reg.ien0) Ie.ea = true := by
    rw [Stable.sfr_eq_sab same sab rfl]
    exact enabled
  have found := (arbitrate_iff m source).mpr winner
  have service : (irqSync hooks m).cpu.service = m.cpu.service := congrArg Stable.service same
  rw [handleInterrupts, if_pos sab]
  rcases handleSabInterrupts_cases hooks m with ⟨-, why⟩ | ⟨other, -, -, chosen, -, entry⟩
  · -- None of the reasons to stay applies.
    rcases why with held | disabled | none | full
    · exact absurd inhibit held
    · exact absurd (open_.symm.trans disabled) (by decide)
    · exact absurd (found.symm.trans none) (by simp)
    · have none := arbitrate_of_full (c := (irqSync hooks m).cpu) (service ▸ wf) full
      exact absurd (found.symm.trans none) (by simp)
  · obtain rfl : source = other := Option.some.inj (found.symm.trans chosen)
    have fixed := Stable.fixed_eq same
    have watched : (irqSync hooks m).cpu.observed = m.cpu.observed := congrArg Fixed.observed fixed
    have cycle : (irqSync hooks m).cpu.machineCycleCount = m.cpu.machineCycleCount :=
      congrArg Fixed.machineCycleCount fixed
    rw [entry]
    refine enterInterrupt_of_room ((hasRoom_eq same sab).trans room) ?_
    rw [watched, cycle]
    exact admits

/-- Otherwise it only refreshes its view. -/
theorem handleInterrupts_of_none (sab : m.cpu.variant = .sab80535)
    (none : ¬(has (m.cpu.sfr Reg.ien0) Ie.ea = true ∧ m.cpu.irqInhibit = 0 ∧
      ∃ source, (maintainLevelRequests hooks m).cpu.Winner source)) :
    handleInterrupts hooks m = (true, irqSync hooks m) := by
  have same := irqSync_stable hooks m
  rw [handleInterrupts, if_pos sab]
  -- If an entry had begun there would be a winner.
  rcases handleSabInterrupts_cases hooks m with ⟨stays, -⟩ | ⟨other, free, enabled, chosen, -, -⟩
  · exact stays
  · refine absurd ⟨?_, ?_, other, (arbitrate_iff m other).mp chosen⟩ none
    · rw [← Stable.sfr_eq_sab same sab rfl]
      exact enabled
    · exact (congrArg Stable.irqInhibit same).symm.trans free

/-- Where something is eligible, something wins. -/
theorem winner_of_eligible (eligible : (maintainLevelRequests hooks m).cpu.Eligible source) :
    ∃ winner, (maintainLevelRequests hooks m).cpu.Winner winner := by
  cases found : (irqSync hooks m).cpu.arbitrate with
  | none => exact absurd eligible ((arbitrate_none_iff m).mp found source)
  | some winner => exact ⟨winner, (arbitrate_iff m winner).mp found⟩

end Entries

/-! ### Request flags at an entry -/

/-- The flag an entry clears: none for a level-mode input, and none for UART, Timer 2 and ADC. -/
def Cpu.autoCleared (c : Cpu) : IrqSource → Option RequestFlag
  | .int0 => if c.levelMode .int0 then none else some .ie0
  | .timer0 => some .tf0
  | .int1 => if c.levelMode .int1 then none else some .ie1
  | .timer1 => some .tf1
  | .int2 => some .iex2
  | .int3 => some .iex3
  | .int4 => some .iex4
  | .int5 => some .iex5
  | .int6 => some .iex6
  | .uart | .timer2 | .adc => none

section EntryFlags

variable {m : Machine ω} {source : IrqSource}

/-- Clearing one flag shows in that flag alone. -/
theorem clearFlags_flag (g f : RequestFlag) (m : Machine ω) :
    (m.clearFlags g.reg g.mask).cpu.flag f = (m.cpu.flag f && f != g) := by
  show (m.cpu.store g.reg (m.cpu.sfr g.reg &&& ~~~g.mask)).flag f = _
  -- The flag itself is cleared, a flag of the same register kept.
  by_cases own : f = g
  · rw [own, Cpu.store_flag_self _ _ rfl, has_andNot_self]
    simp
  · have other : (f != g) = true := bne_iff_ne.mpr own
    rw [other, Bool.and_true]
    by_cases here : f.reg = g.reg
    · rw [Cpu.store_flag_self _ _ here,
        has_andNot_of_disjoint (Move.mask_apart here.symm (Ne.symm own)), Cpu.flag, here]
    · exact Cpu.store_flag_ne _ _ here

/-- The automatic clear is a clear of the one flag it is about. -/
theorem autoClear_eq (source : IrqSource) (m : Machine ω) :
    autoClear source m =
      match m.cpu.autoCleared source with
      | some f => m.clearFlags f.reg f.mask
      | none => m := by
  -- The two pins are cleared in edge mode only.
  cases source with
  | int0 =>
    simp only [autoClear, Cpu.autoCleared, Cpu.levelMode, ExternalSource.port,
      ExternalSource.edgeModeMask, beq_self_eq_true, Bool.true_and]
    cases has (m.cpu.sfr Reg.tcon) Tcon.it0 <;> rfl
  | int1 =>
    simp only [autoClear, Cpu.autoCleared, Cpu.levelMode, ExternalSource.port,
      ExternalSource.edgeModeMask, beq_self_eq_true, Bool.true_and]
    cases has (m.cpu.sfr Reg.tcon) Tcon.it1 <;> rfl
  | _ => rfl

/-- An automatic clear shows in its own flag alone. -/
theorem autoClear_flag (source : IrqSource) (m : Machine ω) (f : RequestFlag) :
    (autoClear source m).cpu.flag f =
      (m.cpu.flag f && m.cpu.autoCleared source != some f) := by
  rw [autoClear_eq]
  -- The source clears its own flag or none at all.
  cases cleared : m.cpu.autoCleared source with
  | none => simp
  | some g =>
    have test : (some g != some f) = (f != g) := by cases g <;> cases f <;> rfl
    rw [test]
    exact clearFlags_flag g f m

/-- A clear of a flag that follows no level leaves settled inputs settled. -/
theorem autoClear_settled {input : ExternalSource} (settled : m.cpu.Settled input) :
    (autoClear source m).cpu.Settled input := by
  rw [autoClear_eq]
  cases cleared : m.cpu.autoCleared source with
  | none => exact settled
  | some g =>
    have mode : ∀ i : ExternalSource,
        (m.clearFlags g.reg g.mask).cpu.levelMode i = m.cpu.levelMode i :=
      fun i => store_levelMode m.cpu _ (Or.inr rfl)
    have pin : (m.clearFlags g.reg g.mask).cpu.pinLevel input = m.cpu.pinLevel input :=
      m.cpu.store_pinLevel _ input (by cases g <;> cases input <;> decide)
    refine ⟨fun level low => ?_, fun set => ?_⟩
    · -- The cleared flag belongs to an input in edge mode, or to none.
      rw [mode] at level
      have other : (input.flag != g) = true := by
        rw [bne_iff_ne]
        rintro rfl
        revert cleared level
        cases source <;> cases input <;>
          simp [Cpu.autoCleared, ExternalSource.flag, Cpu.levelMode, ExternalSource.port]
      rw [clearFlags_flag, other, Bool.and_true]
      exact settled.requests level (pin.symm.trans low)
    · rw [mode, pin]
      exact settled.asserted set

/-- A push touches only internal RAM and the pointer. -/
theorem push_sameButStack (c : Cpu) (value : Byte) : SameButStack c (c.push value) := by
  have pointer : ∀ (v : Byte) index, index ≠ Reg.sp →
      Function.update c.sfr Reg.sp v index = c.sfr index :=
    fun v index other => Function.update_of_ne other _ _
  simp only [Cpu.push]
  split
  · exact ⟨rfl, rfl, rfl, rfl, rfl, rfl, rfl, pointer _, rfl, rfl, rfl⟩
  · exact ⟨rfl, rfl, rfl, rfl, rfl, rfl, rfl, pointer _, rfl, rfl, rfl⟩

/-- Both pushes together change the stack alone. -/
theorem pushPc_sameButStack (c : Cpu) : SameButStack c c.pushPc :=
  SameButStack.trans _ _ _ (push_sameButStack c _) (push_sameButStack _ _)

namespace SameButStack

variable {a b : Cpu} (same : SameButStack a b)

include same

/-- The request flags lie outside the stack. -/
theorem flag (f : RequestFlag) : b.flag f = a.flag f := by
  simp only [Cpu.flag, same.sfr f.reg (by cases f <;> decide)]

/-- So does the mode of an input. -/
theorem levelMode (input : ExternalSource) : b.levelMode input = a.levelMode input := by
  simp only [Cpu.levelMode, same.sfr Reg.tcon (by decide)]

/-- So does the flag an entry clears. -/
theorem autoCleared : b.autoCleared source = a.autoCleared source := by
  cases source <;> simp only [Cpu.autoCleared, same.levelMode]

/-- And so does what keeps a level request settled. -/
theorem settled {input : ExternalSource} (settled : a.Settled input) : b.Settled input := by
  -- The pin of a level is its latch and what drives it, both of which stay.
  have pin : b.pinLevel input = a.pinLevel input := by
    simp only [Cpu.pinLevel, Cpu.getPins, same.levelAsserted,
      same.sfr input.port.reg (by cases input <;> decide)]
  refine ⟨fun level low => ?_, fun set => ?_⟩
  · rw [same.flag]
    exact settled.requests ((same.levelMode _).symm.trans level) (pin.symm.trans low)
  · rw [same.levelMode, pin]
    rw [same.levelAsserted] at set
    exact settled.asserted set

end SameButStack

/-- The CPU of a committed entry, before its request is cleared. -/
def Cpu.committed (c : Cpu) (source : IrqSource) (priority : Nat) : Cpu :=
  { c.store Reg.pcon (c.sfr Reg.pcon &&& ~~~Pcon.idle) with
    pc := source.vector
    tickDelay := 1
    service := c.service.push source priority
      (c.store Reg.pcon (c.sfr Reg.pcon &&& ~~~Pcon.idle)) }

/-- A commit clears its request and refreshes the controller's view. -/
theorem acceptInterrupt_cpu (priority : Nat) (returnPc : Word) (spBefore : Byte) (pending : Word) :
    ∃ n : Machine ω, n.cpu = m.cpu.committed source priority ∧
      (acceptInterrupt hooks source priority returnPc spBefore pending m).cpu =
        (irqSync hooks (autoClear source n)).cpu :=
  ⟨_, by rw [raw_cpu]; rfl, rfl⟩

/-- Leaving IDLE asserts and withdraws no request. -/
theorem committed_flag (c : Cpu) (priority : Nat) (f : RequestFlag) :
    (c.committed source priority).flag f = c.flag f := by
  have other : f.reg ≠ Reg.pcon := by cases f <;> decide
  exact c.store_flag_ne _ other

/-- It changes no mode. -/
theorem committed_levelMode (c : Cpu) (priority : Nat) (input : ExternalSource) :
    (c.committed source priority).levelMode input = c.levelMode input := by
  simp only [Cpu.levelMode, Cpu.committed, Cpu.store,
    Function.update_of_ne (show Reg.tcon ≠ Reg.pcon by decide)]

/-- It keeps the level requests settled. -/
theorem committed_settled {c : Cpu} {input : ExternalSource} (priority : Nat)
    (settled : c.Settled input) : (c.committed source priority).Settled input := by
  -- PCON is no latch of a port, so the pins stay.
  have pin : (c.committed source priority).pinLevel input = c.pinLevel input :=
    c.store_pinLevel _ input (by cases input <;> decide)
  refine ⟨fun level low => ?_, fun set => ?_⟩
  · rw [committed_flag]
    exact settled.requests ((committed_levelMode c priority input).symm.trans level)
      (pin.symm.trans low)
  · rw [committed_levelMode, pin]
    exact settled.asserted set

/-- Committing an entry clears the one flag it is to clear, and no other. -/
theorem acceptInterrupt_flag (priority : Nat) (returnPc : Word) (spBefore : Byte) (pending : Word)
    (settled : ∀ input : ExternalSource, input.port = .p3 → m.cpu.Settled input)
    (f : RequestFlag) :
    (acceptInterrupt hooks source priority returnPc spBefore pending m).cpu.flag f =
      (m.cpu.flag f && m.cpu.autoCleared source != some f) := by
  obtain ⟨n, same, final⟩ :=
    @acceptInterrupt_cpu ω hooks m source priority returnPc spBefore pending
  -- Everything is settled, so the second refresh of the level requests stores nothing.
  have refreshed : (maintainLevelRequests hooks (autoClear source n)).cpu.sfr =
      (autoClear source n).cpu.sfr := by
    refine maintainLevelRequests_sfr fun input wired => autoClear_settled ?_
    rw [same]
    exact committed_settled priority (settled input wired)
  have cleared : (m.cpu.committed source priority).autoCleared source =
      m.cpu.autoCleared source := by
    cases source <;> simp only [Cpu.autoCleared, committed_levelMode]
  have view : (irqSync hooks (autoClear source n)).cpu.flag f = (autoClear source n).cpu.flag f :=
    congrArg (fun sfr : SfrIndex → Byte => has (sfr f.reg) f.mask) refreshed
  rw [final, view, autoClear_flag, same, committed_flag, cleared]

/-- Committing an entry selects no mode. -/
theorem acceptInterrupt_levelMode (sab : m.cpu.variant = .sab80535) (priority : Nat)
    (returnPc : Word) (spBefore : Byte) (pending : Word) (input : ExternalSource) :
    (acceptInterrupt hooks source priority returnPc spBefore pending m).cpu.levelMode input =
      m.cpu.levelMode input := by
  obtain ⟨n, same, final⟩ :=
    @acceptInterrupt_cpu ω hooks m source priority returnPc spBefore pending
  -- The variant comes through the automatic clear, and the mode with it.
  have variant : (autoClear source n).cpu.variant = .sab80535 := by
    rw [(autoClear_view source n).2.1, same]
    exact sab
  have mode : (autoClear source n).cpu.levelMode input = n.cpu.levelMode input := by
    rw [autoClear_eq]
    cases n.cpu.autoCleared source with
    | none => rfl
    | some f => exact store_levelMode n.cpu _ (Or.inr rfl)
  rw [final, (Moves.refl _).irqSync.levelMode variant, mode, same, committed_levelMode]

end EntryFlags

/-! ### Ticks that enter -/

section Ticks

variable {m : Machine ω} {source : IrqSource}

/-- A tick whose controller commits an entry spends the rest of it on a machine cycle. -/
theorem tick_of_entry (ready : m.Ready hooks) {e : Machine ω}
    (handled : handleInterrupts hooks m = (true, e)) (delayed : e.cpu.tickDelay = 1) :
    (tick hooks m).2 = e ∨ (tick hooks m).2 = advanceMachineCycle hooks e := by
  have entry : (handleInterrupts hooks m).2 = e := by rw [handled]
  have busy : (handleInterrupts hooks m).2.cpu.tickDelay ≠ 0 := by
    rw [entry, delayed]
    decide
  -- The tick has one of the shapes of `tick_cases`; only two of them have an entry.
  have shape := tick_cases hooks m
  generalize tick hooks m = answer at shape
  cases shape with
  | stopped why =>
    rcases why with aborted | ⟨-, down⟩
    · exact absurd (ready.unaborted.symm.trans aborted) (by decide)
    · exact absurd (ready.powered.symm.trans down) (by decide)
  | pending _ waiting => exact absurd ready.settled waiting
  | failed _ refused =>
    rw [handled] at refused
    exact absurd refused Bool.noConfusion
  | cut _ _ _ => exact Or.inl entry
  | entered _ _ _ _ => exact Or.inr (congrArg (advanceMachineCycle hooks) entry)
  | idle _ _ _ settled _ => exact absurd settled busy
  | unbegun _ fetches _ => exact absurd fetches.settled busy
  | interrupted begins _ => exact absurd begins.fetches.settled busy
  | completed begins _ => exact absurd begins.fetches.settled busy

/-- A tick whose controller stays puts nothing in service. -/
theorem tick_of_stay (passive : hooks.Passive)
    (stays : handleInterrupts hooks m = (true, irqSync hooks m)) :
    (tick hooks m).2.cpu.service.depth ≤ m.cpu.service.depth := by
  -- The controller's part of the tick leaves the service alone.
  have handled : (handleInterrupts hooks m).2.cpu.service = m.cpu.service := by
    rw [stays]
    exact congrArg Stable.service (irqSync_stable hooks m)
  have advanced : ∀ n : Machine ω, (advanceMachineCycle hooks n).cpu.service = n.cpu.service :=
    fun n => congrArg Stable.service (advanceMachineCycle_steady hooks n)
  have start : (opcodeStart hooks m).cpu.service = m.cpu.service := by
    rw [opcodeStart, beginInstruction_cpu]
    exact handled
  -- An opcode can release the innermost interrupt and nothing more.
  have ran : (opcodeDone hooks m).cpu.service.depth ≤ m.cpu.service.depth := by
    rw [opcodeDone, runInstruction_cpu]
    refine Op.run_held (I := fun h => h.service.depth ≤ m.cpu.service.depth) passive
      (fun h before => ?_) _ _ (Nat.le_of_eq (congrArg IrqService.depth start))
    simp only [IrqService.pop]
    split
    · exact before
    · exact Nat.le_trans (Nat.sub_le _ _) before
  -- Whatever shape the tick has, one of the facts above covers it.
  have shape := tick_cases hooks m
  generalize tick hooks m = answer at shape
  cases shape with
  | stopped _ => exact Nat.le_refl _
  | pending _ _ => exact Nat.le_of_eq (congrArg IrqService.depth (advanced _))
  | failed _ _ | entered _ _ _ _ =>
    exact Nat.le_of_eq (congrArg IrqService.depth ((advanced _).trans handled))
  | cut _ _ _ => exact Nat.le_of_eq (congrArg IrqService.depth handled)
  | idle _ _ _ _ _ =>
    exact Nat.le_of_eq (congrArg IrqService.depth ((advanced _).trans handled))
  | unbegun _ _ _ => exact Nat.le_of_eq (congrArg IrqService.depth start)
  | interrupted _ _ => exact ran
  | completed _ _ => exact Nat.le_trans (Nat.le_of_eq (congrArg IrqService.depth (advanced _))) ran

/-- The tick enters the handler of a source. -/
structure Machine.Enters (hooks : Hooks ω) (m : Machine ω) (source : IrqSource) : Prop where
  depth : (tick hooks m).2.cpu.service.depth = m.cpu.service.depth + 1
  source : (tick hooks m).2.cpu.service.sourceStack m.cpu.service.depth = source.toNat

/-- What a tick that enters a source does beside. -/
structure Machine.EntryEffect (hooks : Hooks ω) (m : Machine ω) (source : IrqSource) : Prop where
  pc : (tick hooks m).2.cpu.pc = source.vector
  /-- The return address has been pushed, low byte first. -/
  pointer : (tick hooks m).2.cpu.sfr Reg.sp = m.cpu.pushPc.sfr Reg.sp
  lower : (tick hooks m).2.cpu.lowerData = m.cpu.pushPc.lowerData
  upper : (tick hooks m).2.cpu.upperData = m.cpu.pushPc.upperData
  /-- IDLE is cleared and no other bit of PCON. -/
  pcon : (tick hooks m).2.cpu.sfr Reg.pcon = m.cpu.sfr Reg.pcon &&& ~~~Pcon.idle
  /-- Where the entry commits, one flag at most has been cleared. -/
  flags : ∀ f, (handleInterrupts hooks m).2.cpu.flag f =
    ((maintainLevelRequests hooks m).cpu.flag f &&
      (maintainLevelRequests hooks m).cpu.autoCleared source != some f)
  /-- The machine cycle of the tick clears none that does not follow the level of its pin. -/
  kept : ∀ f, (maintainLevelRequests hooks m).cpu.levelled f = false →
    (maintainLevelRequests hooks m).cpu.autoCleared source ≠ some f →
    (maintainLevelRequests hooks m).cpu.flag f = true → (tick hooks m).2.cpu.flag f = true

/-- Pushes of equal program states leave equal program states. -/
theorem pushPc_eq {a b : Cpu} (same : a.stable = b.stable) (sab : b.variant = .sab80535) :
    a.pushPc.sfr Reg.sp = b.pushPc.sfr Reg.sp ∧ a.pushPc.lowerData = b.pushPc.lowerData ∧
      a.pushPc.upperData = b.pushPc.upperData := by
  -- Equal pointers, memories and program counters are all a push looks at.
  have pointer : a.sfr Reg.sp = b.sfr Reg.sp := Stable.sfr_eq_sab same sab rfl
  have pc : a.pc = b.pc := congrArg Stable.pc same
  have lower : a.lowerData = b.lowerData := congrArg Stable.lowerData same
  have upper : a.upperData = b.upperData := congrArg Stable.upperData same
  have one : ∀ (x y : Cpu) (v : Byte), x.sfr Reg.sp = y.sfr Reg.sp → x.lowerData = y.lowerData →
      x.upperData = y.upperData → (x.push v).sfr Reg.sp = (y.push v).sfr Reg.sp ∧
        (x.push v).lowerData = (y.push v).lowerData ∧
        (x.push v).upperData = (y.push v).upperData := by
    intro x y v samePointer sameLower sameUpper
    simp only [Cpu.push, samePointer]
    split
    · simp [sameLower, sameUpper]
    · simp [sameLower, sameUpper]
  simp only [Cpu.pushPc, pc]
  obtain ⟨first, second, third⟩ := one a b (b.pc.setWidth 8) pointer lower upper
  exact one _ _ _ first second third

/-- A committed entry has all its effects. -/
theorem tick_enters (sab : m.cpu.variant = .sab80535) (ready : m.Ready hooks)
    (wf : m.cpu.service.Wf) (room : m.cpu.hasRoom = true) (admits : m.Admits hooks)
    (enabled : has (m.cpu.sfr Reg.ien0) Ie.ea = true) (free : m.cpu.irqInhibit = 0)
    (winner : (maintainLevelRequests hooks m).cpu.Winner source) :
    m.Enters hooks source ∧ m.EntryEffect hooks source := by
  obtain ⟨pushed, stack, handled⟩ :=
    handleInterrupts_of_winner sab wf room admits enabled free winner
  generalize entry : acceptInterrupt hooks source ((irqSync hooks m).cpu.irqPriority source)
    (irqSync hooks m).cpu.pc ((irqSync hooks m).cpu.sfr Reg.sp)
    (irqSync hooks m).cpu.irqPending pushed = e at handled
  have synced := irqSync_stable hooks m
  have frame := pushPc_sameButStack (irqSync hooks m).cpu
  have variant : pushed.cpu.variant = .sab80535 := by
    rw [stack]
    exact (congrArg Fixed.variant frame.fixed).trans
      ((congrArg Fixed.variant (Stable.fixed_eq synced)).trans sab)
  have service : pushed.cpu.service = m.cpu.service := by
    rw [stack, frame.service]
    exact congrArg Stable.service synced
  have pcon : pushed.cpu.sfr Reg.pcon = m.cpu.sfr Reg.pcon := by
    rw [stack, frame.sfr Reg.pcon (by decide)]
    exact Stable.sfr_eq_sab synced sab rfl
  have stable : e.cpu.stable = pushed.cpu.afterEntry source
      ((irqSync hooks m).cpu.irqPriority source) := by
    rw [← entry]
    exact acceptInterrupt_stable _ _ _ _ _ _
  have fixed : e.cpu.fixed = { pushed.cpu.fixed with tickDelay := 1 } :=
    congrArg Stable.fixed stable
  have eVariant : e.cpu.variant = .sab80535 := (congrArg Fixed.variant fixed).trans variant
  -- Whether or not the cycle follows, the program state is that of the commit.
  have steady : (tick hooks m).2.cpu.steady = e.cpu.steady := by
    rcases tick_of_entry ready handled (congrArg Fixed.tickDelay fixed) with same | same
    · rw [same]
    · rw [same, advanceMachineCycle_steady]
  have served : (tick hooks m).2.cpu.service =
      m.cpu.service.push source ((irqSync hooks m).cpu.irqPriority source) pushed.cpu := by
    refine (congrArg Stable.service steady).trans ((congrArg Stable.service stable).trans ?_)
    rw [← service]
    rfl
  have register : ∀ {i : SfrIndex}, isVolatile .sab80535 i = false →
      (tick hooks m).2.cpu.sfr i = e.cpu.sfr i := by
    intro i quiet
    exact steady_sfr_eq steady (by rw [eVariant]; exact quiet)
  have stored : ∀ {i : SfrIndex}, isVolatile .sab80535 i = false → e.cpu.sfr i =
      Function.update pushed.cpu.sfr Reg.pcon (pushed.cpu.sfr Reg.pcon &&& ~~~Pcon.idle) i :=
    fun quiet => sfr_of_afterEntry stable variant quiet
  obtain ⟨pointer, lower, upper⟩ := pushPc_eq synced sab
  -- The refresh before arbitration settles the level inputs, and nothing since has moved a pin.
  have settled : ∀ input : ExternalSource, input.port = .p3 → pushed.cpu.Settled input := by
    intro input wired
    rw [stack]
    exact frame.settled (irqSync_settled sab wired)
  have flags : ∀ f, e.cpu.flag f = ((maintainLevelRequests hooks m).cpu.flag f &&
      (maintainLevelRequests hooks m).cpu.autoCleared source != some f) := by
    intro f
    rw [← entry, acceptInterrupt_flag _ _ _ _ settled, stack, frame.flag, frame.autoCleared]
    rfl
  refine ⟨⟨?_, ?_⟩, ⟨?_, ?_, ?_, ?_, ?_, fun f => ?_, fun f edge other set => ?_⟩⟩
  · rw [served]
    rfl
  · rw [served]
    exact Function.update_self _ _ _
  · exact (congrArg Stable.pc steady).trans (congrArg Stable.pc stable)
  · rw [register rfl, stored rfl, Function.update_of_ne (by decide), stack, pointer]
  · rw [← lower, ← stack]
    exact (congrArg Stable.lowerData steady).trans (congrArg Stable.lowerData stable)
  · rw [← upper, ← stack]
    exact (congrArg Stable.upperData steady).trans (congrArg Stable.upperData stable)
  · rw [register rfl, stored rfl, Function.update_self, pcon]
  · rw [handled]
    exact flags f
  · have start : e.cpu.flag f = true := by
      rw [flags, set, Bool.true_and, bne_iff_ne]
      exact other
    have mode : ∀ input, e.cpu.levelMode input =
        (maintainLevelRequests hooks m).cpu.levelMode input := by
      intro input
      rw [← entry, acceptInterrupt_levelMode variant, stack, frame.levelMode]
      rfl
    have level : e.cpu.levelled f = false := by
      rw [← edge]
      cases f <;> simp only [Cpu.levelled, mode]
    rcases tick_of_entry ready handled (congrArg Fixed.tickDelay fixed) with same | same
    · rw [same]
      exact start
    · rw [same]
      exact advanceMachineCycle_flag_kept eVariant level start

/-- A ready machine with an eligible source, and nothing to hold it off, enters the winner. -/
theorem enters_of_eligible (passive : hooks.Passive) (reach : Reachable hooks m)
    (ready : m.Ready hooks) (room : m.cpu.hasRoom = true) (admits : m.Admits hooks)
    (enabled : has (m.cpu.sfr Reg.ien0) Ie.ea = true) (free : m.cpu.irqInhibit = 0)
    (eligible : ∃ source, (maintainLevelRequests hooks m).cpu.Eligible source) :
    ∃ source, (maintainLevelRequests hooks m).cpu.Winner source ∧ m.Enters hooks source ∧
      m.EntryEffect hooks source := by
  obtain ⟨_, fits⟩ := eligible
  obtain ⟨winner, wins⟩ := winner_of_eligible fits
  -- The eligible sources have a winner, and nothing keeps it from being entered.
  exact ⟨winner, wins, tick_enters (reach.atRest passive).sab ready
    (reachable_service_wf passive reach) room admits enabled free wins⟩

/-- A machine that is disabled, held off or without an eligible source enters nothing. -/
theorem not_enters (passive : hooks.Passive) (reach : Reachable hooks m)
    (barred : ¬(has (m.cpu.sfr Reg.ien0) Ie.ea = true ∧ m.cpu.irqInhibit = 0 ∧
      ∃ source, (maintainLevelRequests hooks m).cpu.Eligible source)) (source : IrqSource) :
    ¬m.Enters hooks source := by
  -- An entry would have deepened the stack of services.
  intro entered
  have stays := @handleInterrupts_of_none ω hooks m (reach.atRest passive).sab
    fun ⟨enabled, free, winner, wins⟩ => barred ⟨enabled, free, winner, wins.eligible⟩
  have depth := tick_of_stay passive stays
  have entry := entered.depth
  omega

/--
Arbitration in every reachable state whose next tick reaches the controller with room for a return
address: the tick enters a source exactly when interrupts are enabled, none is held off and a
source is eligible; it is the eligible source of greatest priority and lowest number; and an entry
has exactly the effects of one.
-/
theorem arbitration_winner (passive : hooks.Passive) (reach : Reachable hooks m)
    (ready : m.Ready hooks) (room : m.cpu.hasRoom = true) (admits : m.Admits hooks) :
    ((∃ source, m.Enters hooks source) ↔
        has (m.cpu.sfr Reg.ien0) Ie.ea = true ∧ m.cpu.irqInhibit = 0 ∧
          ∃ source, (maintainLevelRequests hooks m).cpu.Eligible source) ∧
      ∀ source, m.Enters hooks source →
        (maintainLevelRequests hooks m).cpu.Winner source ∧ m.EntryEffect hooks source := by
  by_cases enters : has (m.cpu.sfr Reg.ien0) Ie.ea = true ∧ m.cpu.irqInhibit = 0 ∧
      ∃ source, (maintainLevelRequests hooks m).cpu.Eligible source
  · obtain ⟨enabled, free, eligible⟩ := enters
    obtain ⟨winner, wins, entry, effect⟩ :=
      enters_of_eligible passive reach ready room admits enabled free eligible
    refine ⟨⟨fun _ => ⟨enabled, free, eligible⟩, fun _ => ⟨winner, entry⟩⟩,
      fun source other => ?_⟩
    -- The stack has one new entry, so the source entered is the winner.
    have same : winner = source := irqSource_toNat_inj (entry.source.symm.trans other.source)
    exact same ▸ ⟨wins, effect⟩
  · have never : ∀ source, ¬m.Enters hooks source := not_enters passive reach enters
    exact ⟨⟨fun ⟨source, entered⟩ => absurd entered (never source),
      fun eligible => absurd eligible enters⟩,
      fun source entered => absurd entered (never source)⟩

end Ticks

/-- INT0 and Timer 0 both requesting, with Timer 0 of higher priority and no hold-off left. -/
def twoRequests : Machine Unit :=
  runActions Hooks.none
    [.call (.sfrWrite 0xA8#8 0x83#8), .call (.sfrWrite 0xA9#8 0x02#8), .call (.setPending 0 true),
      .call (.setPending 1 true), .tick]
    (Machine.boot fun _ => 0#8)

/-- The next tick enters one of them. -/
theorem arbitration_winner_twoRequests :
    ∃ source, twoRequests.Enters Hooks.none source ∧
      (maintainLevelRequests Hooks.none twoRequests).cpu.Winner source ∧
      twoRequests.EntryEffect Hooks.none source := by
  -- Two requests of different sources, both enabled.
  have law := arbitration_winner Hooks.none_passive
    (⟨_, _, Machine.boot_isReset _, rfl⟩ : Reachable Hooks.none twoRequests)
    ⟨rfl, by decide, by decide⟩ (by decide) (fun watched => absurd watched (by decide))
  have empty : (maintainLevelRequests Hooks.none twoRequests).cpu.service.current = none := by
    decide
  -- The law gives the entry, since one of them is eligible.
  obtain ⟨source, enters⟩ := law.1.mpr ⟨by decide, by decide, .timer0,
    ⟨by decide, by decide, by decide, fun p top => absurd (empty.symm.trans top) nofun⟩⟩
  exact ⟨source, enters, law.2 source enters⟩

end Emu80535
