import Emu80535.Proofs.Clock

/-! Bounded runs: where they stop, and why cutting one in two changes nothing. -/

namespace Emu80535

variable {ω : Type} {hooks : Hooks ω} {m : Machine ω}

open Machine

/-! ### Pending cycles -/

/-- A tick of a pending cycle only takes one of them. -/
theorem tick_pending (unaborted : m.aborted hooks = false) (delayed : m.cpu.tickDelay ≠ 0) :
    tick hooks m =
      (false, advanceMachineCycle hooks
        (m.mapCpu fun c => { c with tickDelay := c.tickDelay - 1 })) := by
  simp only [tick, unaborted, Bool.false_eq_true, if_false, ne_eq, delayed, not_false_eq_true,
    if_true]

/-- Such a tick lowers their number by one. -/
theorem tick_pending_tickDelay (unaborted : m.aborted hooks = false)
    (delayed : m.cpu.tickDelay ≠ 0) :
    (tick hooks m).2.cpu.tickDelay = m.cpu.tickDelay - 1 := by
  rw [tick_pending unaborted delayed]
  exact congrArg (fun s : Stable => s.fixed.tickDelay)
    (advanceMachineCycle_steady hooks
      (m.mapCpu fun c => { c with tickDelay := c.tickDelay - 1 }))

/-- Nothing is drained from a machine without pending cycles. -/
theorem drainTicks_of_settled (fuel : Nat) (settled : m.cpu.tickDelay = 0) :
    drainTicks hooks fuel m = m := by
  cases fuel with
  | zero => rfl
  | succ fuel => exact if_neg fun busy => busy.1 settled

/-- The inner loop of a run ends with no cycle pending, unless it was aborted. -/
theorem drainTicks_settles (fuel : Nat) (m : Machine ω) (enough : m.cpu.tickDelay ≤ fuel) :
    (drainTicks hooks fuel m).cpu.tickDelay = 0 ∨
      (drainTicks hooks fuel m).aborted hooks = true := by
  -- Every round takes one pending cycle, so the induction is on their number.
  induction fuel generalizing m with
  | zero => exact Or.inl (Nat.le_zero.mp enough)
  | succ fuel ih =>
    simp only [drainTicks]
    split
    · rename_i busy
      refine ih _ ?_
      rw [tick_pending_tickDelay busy.2 busy.1]
      omega
    · rename_i idle
      by_cases settled : m.cpu.tickDelay = 0
      · exact Or.inl settled
      · right
        by_contra unaborted
        exact idle ⟨settled, by simpa using unaborted⟩

/-- What every tick of a pending cycle keeps, the inner loop keeps. -/
theorem drainTicks_keeps {I : Machine ω → Prop}
    (step : ∀ n : Machine ω, n.cpu.tickDelay ≠ 0 → n.aborted hooks = false → I n →
      I (tick hooks n).2) (fuel : Nat) (m : Machine ω) (before : I m) :
    I (drainTicks hooks fuel m) := by
  -- By induction on the cycles left; the loop ends when none is pending or the run is aborted.
  induction fuel generalizing m with
  | zero => exact before
  | succ fuel ih =>
    simp only [drainTicks]
    split
    · rename_i busy
      exact ih _ (step m busy.1 busy.2 before)
    · exact before

/-! ### The stop tests -/

/-- What holds where a run reaches its instruction limit. -/
structure AtLimit (hooks : Hooks ω) (start limit : Nat) (m : Machine ω) : Prop where
  unaborted : m.aborted hooks = false
  unraised : m.cpu.exceptionRaised = false
  reached : limit ≤ m.cpu.instructionCount - start

/-- The limit is the last of the stop tests. -/
theorem stopAt_limit {start limit : Nat}
    (stopped : stopAt hooks none start limit m = some .instructionLimit) :
    AtLimit hooks start limit m := by
  -- The splits follow the tests in the order they are made.
  simp only [stopAt] at stopped
  split at stopped
  · exact absurd stopped (by simp)
  · rename_i unaborted
    split at stopped
    · exact absurd stopped (by simp)
    · rename_i unraised
      refine ⟨by simpa using unaborted, by simpa using unraised, ?_⟩
      split at stopped
      · exact absurd stopped (by simp)
      · split at stopped
        · exact absurd stopped (by simp)
        · split at stopped
          · exact absurd stopped (by simp)
          · split at stopped
            · assumption
            · exact absurd stopped (by simp)

/-- A run that goes on has not reached its limit. -/
theorem stopAt_none {target : Option Word} {start limit : Nat}
    (goes : stopAt hooks target start limit m = none) :
    m.cpu.instructionCount - start < limit := by
  simp only [stopAt] at goes
  repeat' split at goes
  all_goals first | omega | exact absurd goes (by simp)

/-- The limit enters the stop tests through one comparison. -/
theorem stopAt_congr {start start' limit limit' : Nat}
    (same : limit ≤ m.cpu.instructionCount - start ↔ limit' ≤ m.cpu.instructionCount - start') :
    stopAt hooks none start limit m = stopAt hooks none start' limit' m := by
  simp only [stopAt, same]

/-- With a larger limit a run that goes on still goes on, and one at its limit may too. -/
theorem stopAt_wider {start limit extra : Nat} (goes : stopAt hooks none start limit m = none) :
    stopAt hooks none start (limit + extra) m = none := by
  have short := stopAt_none goes
  rw [← goes]
  exact stopAt_congr (by omega)

/-! ### The loop -/

/-- More fuel finds the same answer. -/
theorem runLoop_mono {target : Option Word} {start limit fuel : Nat}
    {answer : StopReason × Machine ω}
    (found : runLoop hooks target start limit fuel m = some answer) (extra : Nat) :
    runLoop hooks target start limit (extra + fuel) m = some answer := by
  -- The induction is on the iterations the shorter run makes.
  induction fuel generalizing m with
  | zero => exact absurd found (by simp [runLoop])
  | succ fuel ih =>
    rw [← Nat.add_assoc]
    simp only [runLoop] at found ⊢
    split at found
    · exact found
    · exact ih found

/-- A run continues from a boundary as it would from the state it was drained from. -/
theorem runLoop_drained {target : Option Word} {start limit fuel : Nat}
    (settled : (drainTicks hooks m.cpu.tickDelay m).cpu.tickDelay = 0) :
    runLoop hooks target start limit fuel m =
      runLoop hooks target start limit fuel (drainTicks hooks m.cpu.tickDelay m) := by
  cases fuel with
  | zero => rfl
  | succ fuel =>
    have again := @drainTicks_of_settled ω hooks _
      -- Draining a machine without pending cycles does nothing.
      (drainTicks hooks m.cpu.tickDelay m).cpu.tickDelay settled
    simp only [runLoop, again]

/-- What the ticks of a run keep holds where it stops. -/
theorem runLoop_keeps {I : Machine ω → Prop} {target : Option Word} {start limit : Nat}
    (drain : ∀ n : Machine ω, n.cpu.tickDelay ≠ 0 → n.aborted hooks = false → I n →
      I (tick hooks n).2)
    (step : ∀ n : Machine ω, stopAt hooks target start limit n = none → I n → I (tick hooks n).2)
    {fuel : Nat} {reason : StopReason} {s : Machine ω} (before : I m)
    (found : runLoop hooks target start limit fuel m = some (reason, s)) : I s := by
  -- By induction on the fuel: the inner loop, the test, and one tick of the pass.
  induction fuel generalizing m with
  | zero => exact absurd found (by simp [runLoop])
  | succ fuel ih =>
    have drained := drainTicks_keeps drain m.cpu.tickDelay m before
    simp only [runLoop] at found
    split at found
    · simp only [Option.some.injEq, Prod.mk.injEq] at found
      rw [← found.2]
      exact drained
    · rename_i goes
      exact ih (step _ goes drained) found

/-- A run stops where its tests say so, with no cycle pending unless it was aborted. -/
theorem runLoop_stops {target : Option Word} {start limit fuel : Nat} {reason : StopReason}
    {s : Machine ω} (found : runLoop hooks target start limit fuel m = some (reason, s)) :
    stopAt hooks target start limit s = some reason ∧
      (s.cpu.tickDelay = 0 ∨ s.aborted hooks = true) := by
  -- By induction on the fuel; the last test made is the one that stopped.
  induction fuel generalizing m with
  | zero => exact absurd found (by simp [runLoop])
  | succ fuel ih =>
    have settles := @drainTicks_settles ω hooks m.cpu.tickDelay m (Nat.le_refl _)
    simp only [runLoop] at found
    split at found
    · rename_i why stops
      simp only [Option.some.injEq, Prod.mk.injEq] at found
      rw [← found.1, ← found.2]
      exact ⟨stops, settles⟩
    · exact ih found

/-- A run with a larger limit passes through the boundary where the smaller one stops. -/
theorem runLoop_passes {start limit fuel : Nat} {s : Machine ω} (extra : Nat)
    (found : runLoop hooks none start limit fuel m = some (.instructionLimit, s)) :
    ∃ passed, ∀ more, runLoop hooks none start (limit + extra) (passed + more) m =
      runLoop hooks none start (limit + extra) more s := by
  -- Until the smaller run stops, both make the same ticks.
  induction fuel generalizing m with
  | zero => exact absurd found (by simp [runLoop])
  | succ fuel ih =>
    have settles := @drainTicks_settles ω hooks m.cpu.tickDelay m (Nat.le_refl _)
    simp only [runLoop] at found
    split at found
    · rename_i why stops
      simp only [Option.some.injEq, Prod.mk.injEq] at found
      obtain ⟨rfl, rfl⟩ := found
      refine ⟨0, fun more => ?_⟩
      rw [Nat.zero_add]
      refine runLoop_drained (settles.resolve_right fun aborted => ?_)
      exact absurd ((stopAt_limit stops).unaborted.symm.trans aborted) (by decide)
    · rename_i goes
      obtain ⟨passed, same⟩ := ih found
      refine ⟨passed + 1, fun more => ?_⟩
      rw [Nat.add_right_comm, ← same more]
      simp only [runLoop, stopAt_wider goes]

/-! ### Cutting a run in two -/

section Counting

variable (unticking : hooks.Unticking)

include unticking

/-- A pending cycle executes no instruction. -/
theorem tick_pending_count {n : Machine ω} (delayed : n.cpu.tickDelay ≠ 0)
    (unaborted : n.aborted hooks = false) :
    (tick hooks n).2.cpu.instructionCount = n.cpu.instructionCount := by
  have counted := (tick_ticked unticking n).instructions
  rw [tick_pending unaborted delayed] at counted ⊢
  simpa using counted

/-- A run never executes more instructions than its limit allows. -/
theorem runLoop_bounded {target : Option Word} {start limit fuel : Nat} {reason : StopReason}
    {s : Machine ω} (found : runLoop hooks target start limit fuel m = some (reason, s))
    (fresh : m.cpu.instructionCount = start) :
    start ≤ s.cpu.instructionCount ∧ s.cpu.instructionCount ≤ start + limit := by
  -- The count never passes the limit, because every tick that goes on found it short of it.
  refine runLoop_keeps
    (I := fun n => start ≤ n.cpu.instructionCount ∧ n.cpu.instructionCount ≤ start + limit)
    (fun n delayed unaborted before => ?_) (fun n goes before => ?_) ?_ found
  · rw [tick_pending_count unticking delayed unaborted]
    exact before
  · have counted := (tick_ticked unticking n).instructions
    have short := stopAt_none goes
    have one : (tick hooks n).1.toNat ≤ 1 := Bool.toNat_le _
    omega
  · omega

/-- A run that reaches its limit has executed exactly as many instructions. -/
theorem runLoop_exact {start limit fuel : Nat} {s : Machine ω}
    (found : runLoop hooks none start limit fuel m = some (.instructionLimit, s))
    (fresh : m.cpu.instructionCount = start) : s.cpu.instructionCount = start + limit := by
  have bounded := runLoop_bounded unticking found fresh
  have reached := (stopAt_limit (runLoop_stops found).1).reached
  omega

/-- Past a boundary where the count has reached the first limit, the rest can start afresh. -/
theorem runLoop_restart {start limit extra fuel : Nat} {s : Machine ω}
    (reached : start + limit ≤ s.cpu.instructionCount) :
    runLoop hooks none start (limit + extra) fuel s =
      runLoop hooks none (start + limit) extra fuel s := by
  -- By induction on the fuel, with the count past the first limit in every pass.
  induction fuel generalizing s with
  | zero => rfl
  | succ fuel ih =>
    have drained : start + limit ≤
        (drainTicks hooks s.cpu.tickDelay s).cpu.instructionCount := by
      refine drainTicks_keeps (I := fun n => start + limit ≤ n.cpu.instructionCount)
        (fun n delayed unaborted before => ?_) _ s reached
      rw [tick_pending_count unticking delayed unaborted]
      exact before
    -- The two tests compare the same count with the same bound.
    have tests : stopAt hooks none start (limit + extra)
          (drainTicks hooks s.cpu.tickDelay s) =
        stopAt hooks none (start + limit) extra (drainTicks hooks s.cpu.tickDelay s) :=
      stopAt_congr (by omega)
    simp only [runLoop, tests]
    split
    · rfl
    · refine ih ?_
      have counted :=
        (tick_ticked unticking (drainTicks hooks s.cpu.tickDelay s)).instructions
      omega

/-- The counters only grow in a run. -/
theorem runLoop_grows {target : Option Word} {start limit fuel : Nat} {reason : StopReason}
    {s : Machine ω} (found : runLoop hooks target start limit fuel m = some (reason, s)) :
    m.cpu.instructionCount ≤ s.cpu.instructionCount ∧
      m.cpu.machineCycleCount ≤ s.cpu.machineCycleCount := by
  -- Every tick counts one instruction or none, and one machine cycle or none.
  have step : ∀ n : Machine ω, m.cpu.instructionCount ≤ n.cpu.instructionCount ∧
      m.cpu.machineCycleCount ≤ n.cpu.machineCycleCount →
      m.cpu.instructionCount ≤ (tick hooks n).2.cpu.instructionCount ∧
        m.cpu.machineCycleCount ≤ (tick hooks n).2.cpu.machineCycleCount := by
    intro n before
    have ticked := tick_ticked unticking n
    have counted := ticked.instructions
    rcases ticked.cycles with same | moved
    · omega
    · omega
  exact runLoop_keeps (I := fun n => m.cpu.instructionCount ≤ n.cpu.instructionCount ∧
    m.cpu.machineCycleCount ≤ n.cpu.machineCycleCount) (fun n _ _ => step n) (fun n _ => step n)
    ⟨Nat.le_refl _, Nat.le_refl _⟩ found

/-- Every run ends with a coherent latch, because it starts by clearing it. -/
theorem runLoop_latched {start limit fuel : Nat} {reason : StopReason} {s : Machine ω}
    (latched : m.cpu.Latched)
    (found : runLoop hooks none start limit fuel m = some (reason, s)) : s.cpu.Latched :=
  runLoop_keeps (I := fun n => n.cpu.Latched) (fun n _ _ => tick_latched unticking n)
    (fun n _ => tick_latched unticking n) latched found

end Counting

/-- The machine a run starts its loop from. -/
def Machine.unlatched (m : Machine ω) : Machine ω :=
  m.mapCpu fun c => { c with exceptionRaised := false, lastException := none }

/-- Clearing the latch of a coherent CPU that raised nothing changes nothing. -/
theorem unlatched_eq (latched : m.cpu.Latched) (unraised : m.cpu.exceptionRaised = false) :
    m.unlatched = m := by
  have code : m.cpu.lastException = none := by
    rw [Cpu.Latched, unraised] at latched
    simpa using latched.symm
  obtain ⟨c, host, stores⟩ := m
  simp only at unraised code
  simp only [Machine.unlatched, mapCpu]
  rw [← unraised, ← code]

/-- A call of `em8051_run` returns with a result and leaves a machine behind. -/
def Returns (hooks : Hooks ω) (limit : Nat) (m : Machine ω) (result : RunResult)
    (s : Machine ω) : Prop :=
  ∃ fuel, em8051Run hooks limit fuel m = some (result, s)

/-- In terms of the loop. -/
theorem returns_iff {limit : Nat} {result : RunResult} {s : Machine ω} :
    Returns hooks limit m result s ↔
      (∃ fuel, runLoop hooks none m.cpu.instructionCount limit fuel m.unlatched =
          some (result.reason, s)) ∧
        result = fillRunResult result.reason m.cpu s.cpu := by
  -- The result is filled from the reason and the two machines, and has no other source.
  constructor
  · rintro ⟨fuel, found⟩
    simp only [em8051Run, runControl, Option.map_eq_some_iff, Prod.mk.injEq] at found
    obtain ⟨⟨reason, n⟩, loop, rfl, rfl⟩ := found
    exact ⟨⟨fuel, loop⟩, rfl⟩
  · rintro ⟨⟨fuel, loop⟩, filled⟩
    refine ⟨fuel, ?_⟩
    simp only [em8051Run, runControl, Option.map_eq_some_iff, Prod.mk.injEq]
    exact ⟨(result.reason, s), loop, filled.symm, rfl⟩

/-- Two results in sequence: the counts add up, and the rest is that of the second. -/
def RunResult.plus (first second : RunResult) : RunResult :=
  { second with
    instructions := first.instructions + second.instructions
    machineCycles := first.machineCycles + second.machineCycles }

/-- Where the counters only grow, filling in a result can be split at any point on the way. -/
theorem fillRunResult_plus {first second : StopReason} {a b c : Cpu}
    (early : a.instructionCount ≤ b.instructionCount ∧
      a.machineCycleCount ≤ b.machineCycleCount)
    (late : b.instructionCount ≤ c.instructionCount ∧
      b.machineCycleCount ≤ c.machineCycleCount) :
    (fillRunResult first a b).plus (fillRunResult second b c) = fillRunResult second a c := by
  simp only [RunResult.plus, fillRunResult, RunResult.mk.injEq, true_and, and_true]
  omega

/--
Run chunking: after a run that stopped at its instruction limit, a second run returns exactly when
a single run over both limits does, with the same machine, the same stop reason and counts that
add up.
-/
theorem run_chunked (unticking : hooks.Unticking) {a b : Nat} {first : RunResult}
    {s : Machine ω} (ran : Returns hooks a m first s)
    (limited : first.reason = .instructionLimit) :
    (∀ second n, Returns hooks b s second n → Returns hooks (a + b) m (first.plus second) n) ∧
      ∀ whole n, Returns hooks (a + b) m whole n →
        ∃ second, Returns hooks b s second n ∧ whole = first.plus second := by
  obtain ⟨⟨fuel, loop⟩, filled⟩ := returns_iff.mp ran
  rw [limited] at loop filled
  -- The first run ends exactly at its limit, with nothing raised and nothing to clear.
  have exact' := runLoop_exact unticking loop rfl
  have limit := stopAt_limit (runLoop_stops loop).1
  have cleared : s.unlatched = s :=
    unlatched_eq (runLoop_latched unticking (by rfl : m.unlatched.cpu.Latched) loop) limit.unraised
  have early := runLoop_grows unticking loop
  -- So the loop of the second run is the loop of the single one, some iterations later.
  obtain ⟨passed, same⟩ := runLoop_passes b loop
  have joined : ∀ more, runLoop hooks none m.cpu.instructionCount (a + b) (passed + more)
        m.unlatched = runLoop hooks none s.cpu.instructionCount b more s.unlatched := by
    intro more
    rw [same more, cleared, exact']
    exact runLoop_restart unticking (Nat.le_of_eq exact'.symm)
  constructor
  · intro second n later
    obtain ⟨⟨more, found⟩, rest⟩ := returns_iff.mp later
    refine returns_iff.mpr ⟨⟨passed + more, (joined more).trans found⟩, ?_⟩
    rw [cleared] at found
    rw [filled, rest]
    exact fillRunResult_plus early (runLoop_grows unticking found)
  · intro whole n once
    obtain ⟨⟨total, found⟩, rest⟩ := returns_iff.mp once
    have later := (joined total).symm.trans (runLoop_mono found passed)
    refine ⟨fillRunResult whole.reason s.cpu n.cpu, returns_iff.mpr ⟨⟨total, later⟩, rfl⟩, ?_⟩
    rw [cleared] at later
    rw [rest, filled]
    exact (fillRunResult_plus early (runLoop_grows unticking later)).symm

/-- Firmware of NOPs: one instruction and then two more are three instructions in one run. -/
theorem run_chunked_nops :
    ∃ first s, Returns Hooks.none 1 (Machine.boot fun _ => 0#8) first s ∧
      first.reason = .instructionLimit ∧
      ∃ second n, Returns Hooks.none 2 s second n ∧
        Returns Hooks.none (1 + 2) (Machine.boot fun _ => 0#8) (first.plus second) n := by
  have one : ((em8051Run Hooks.none 1 2 (Machine.boot fun _ => 0#8)).map fun r => r.1.reason) =
      some .instructionLimit := by decide
  obtain ⟨⟨first, s⟩, ran, limited⟩ := Option.map_eq_some_iff.mp one
  have rest : ((em8051Run Hooks.none 1 2 (Machine.boot fun _ => 0#8)).bind fun r =>
      em8051Run Hooks.none 2 3 r.2).isSome = true := by decide
  rw [ran] at rest
  obtain ⟨⟨second, n⟩, later⟩ := Option.isSome_iff_exists.mp rest
  have split := run_chunked Hooks.none_unticking (b := 2) ⟨2, ran⟩ limited
  exact ⟨first, s, ⟨2, ran⟩, limited, second, n, ⟨3, later⟩, split.1 second n ⟨3, later⟩⟩

end Emu80535
