import Emu80535.Proofs.Acts
import Emu80535.Facade.Cpu

/-! The calls of the facade as acts of its core and moves of the facade beside it. -/

namespace Emu80535

variable {β : Type}

open Machine

/-- What the facade's functions do beside the core. -/
inductive HostMove : Facade β → Facade β → Prop
  /-- Input bookkeeping, latches and the board's own state. -/
  | beside {f g : Facade β} (observation : g.observation = f.observation) (fault : g.fault = f.fault)
      (emitted : g.emitted = f.emitted) : HostMove f g
  | port {f : Facade β} (board : Board β) (port : Fin 6) (c : Cpu) :
      HostMove f (portWrite board port c f)
  | fail {f : Facade β} (status : Status) : HostMove f (f.fail status)
  | finish {f : Facade β} (c : Cpu) : HostMove f (obsFinish c f)
  /-- The stimulus an input is delivered for. -/
  | deliver {f : Facade β} (parent order cycle : Nat) :
      HostMove f (f.mapObs fun o =>
        { o with deliveryParent := parent, deliveryOrder := order, deliveryCycle := cycle })
  | rejected {f : Facade β} (c : Cpu) (input : Input) (reason : ObsReason) :
      HostMove f (obsRxRejected c input reason f)
  | lifecycle {f : Facade β} (c : Cpu) (e : Observation)
      (known : e.kind = .reset ∨ e.kind = .load ∨ e.kind = .fault) (emitted : Bool) :
      HostMove f (obsEmit e (f.mapObs fun o => { o with faultEmitted := emitted }))

/-- Whatever the facade does beside its core is permitted. -/
def Free (permits : Deed (Facade β) → Prop) : Prop :=
  ∀ f g : Facade β, HostMove f g → permits (.own f g)

/-- The register callbacks of the facade only tell the board of a port. -/
theorem facade_acting {board : Board β} {permits : Deed (Facade β) → Prop} (free : Free permits) :
    (facadeHooks board).Acting permits := by
  intro index callback installed m
  obtain ⟨port, _, same⟩ := Option.map_eq_some_iff.mp installed
  rw [← same]
  exact (Acts.refl m).act (.own _ (free _ _ (.port board port m.cpu)))

namespace Acts

variable {board : Board β} {permits : Deed (Facade β) → Prop} {m n : FacadeMachine β}

section Rules

variable (free : Free permits) (acts : Acts (facadeHooks board) permits m n)

include free acts

/-- A move of the facade beside its core. -/
theorem host {g : Facade β} (move : HostMove n.host g) :
    Acts (facadeHooks board) permits m { n with host := g } :=
  acts.act (.own _ (free _ _ move))

/-- Other fields of the facade may change as well. -/
theorem beside {g : Facade β} (observation : g.observation = n.host.observation)
    (fault : g.fault = n.host.fault) (emitted : g.emitted = n.host.emitted) :
    Acts (facadeHooks board) permits m { n with host := g } :=
  acts.host free (.beside observation fault emitted)

/-- A tick between the capture of the latches and the end of the observation. -/
theorem cycleTick (tick : ∀ k : FacadeMachine β, k.cpu = n.cpu →
      Acts (facadeHooks board) permits m k →
      Acts (facadeHooks board) permits m (Emu80535.tick (facadeHooks board) k).2) :
    Acts (facadeHooks board) permits m (cycleTick board n) := by
  simp only [Emu80535.cycleTick]
  refine host free (tick _ ?_ ?_) (.finish _)
  · rfl
  · exact acts.beside free rfl rfl rfl

/-- A cycle consists of its tick and what surrounds it. -/
theorem cycleCpu (tick : ∀ k : FacadeMachine β, k.cpu = n.cpu →
      Acts (facadeHooks board) permits m k →
      Acts (facadeHooks board) permits m (Emu80535.tick (facadeHooks board) k).2) :
    Acts (facadeHooks board) permits m (cycleCpu board n).2.2 := by
  have cycled := acts.cycleTick free tick
  -- Nothing is done, the count is exhausted, or the tick runs with what surrounds it.
  simp only [Emu80535.cycleCpu]
  split
  · exact acts
  · split
    · exact acts
    · split
      · exact (acts.host free (.fail .exhausted)).host free (.finish n.cpu)
      · split <;> exact cycled

/-- Loading code stores the image alone. -/
theorem loadCode (image : Word → Byte) : Acts (facadeHooks board) permits m (loadCode image n).2 := by
  simp only [Emu80535.loadCode]
  have filled : Acts (facadeHooks board) permits m
      (n.mapCpu fun c => { c with codeMem := image }) :=
    acts.mapCpu ⟨rfl, rfl, rfl, rfl, rfl, rfl, rfl⟩
  exact ite_snd acts (filled.beside free rfl rfl rfl)

/-- A frame that is turned away is only reported. -/
theorem rejected (input : Input) (reason : ObsReason) :
    Acts (facadeHooks board) permits m (n.mapHost (obsRxRejected n.cpu input reason)) :=
  acts.host free (.rejected n.cpu input reason)

/-- A frame to be received is an injection, under the input's own name. -/
theorem applyUart (input : Input) :
    Acts (facadeHooks board) permits m (applyUart board input n).2 := by
  simp only [Emu80535.applyUart]
  split
  · have named := acts.host free
      (.deliver n.host.observation.deliveryParent input.order input.cycle)
    have injected := named.act (.inject input.data input.ninth)
    exact injected.host free (.deliver _ 0 0)
  · exact acts.act (.inject _ _)

/-- Every kind of input is one of the host's calls. -/
theorem applyKind (input : Input) :
    Acts (facadeHooks board) permits m (applyKind board input n).2 := by
  simp only [Emu80535.applyKind]
  -- Ports, pins, analog channels, frames and releases, in the order of the switch.
  refine ite_snd (ite_snd acts (ite_snd acts (acts.portDrive _ _ _))) ?_
  refine ite_snd (ite_snd acts (acts.externalDrive _ _)) ?_
  refine ite_snd (ite_snd acts (acts.adcSetInput _ _)) ?_
  refine ite_snd (ite_snd acts (ite_snd acts (ite_snd acts (ite_snd (acts.rejected free _ _)
    (ite_snd (acts.rejected free _ _) (acts.applyUart free _)))))) ?_
  refine ite_snd acts (ite_snd (ite_snd acts ?_) ?_)
  · exact ite_snd acts (acts.portRelease _ _)
  · split
    · dsimp only
      exact acts.externalRelease (input.index - 256)
    · exact acts

/-- An input is refused or applied. -/
theorem applyInput (input : Input) :
    Acts (facadeHooks board) permits m (applyInput board input n).2 := by
  have applied := acts.applyKind free input
  simp only [Emu80535.applyInput]
  refine ite_snd acts (ite_snd acts (ite_snd acts (ite_snd acts (ite_snd acts (ite_snd acts ?_)))))
  split
  · exact applied
  · exact applied
  · exact applied.beside free rfl rfl rfl

/-- A delivered input carries its stimulus. -/
theorem deliverObservation (parent : Nat) (input : Input) :
    Acts (facadeHooks board) permits m (deliverObservation board parent input n).2 := by
  simp only [Emu80535.deliverObservation]
  have named := acts.host free (.deliver parent input.order input.cycle)
  exact ite_snd acts ((named.applyInput free input).host free (.deliver 0 0 0))

omit free in
/-- A bound facade is not bound again. -/
theorem bindObservation (bound : n.host.observation.bound = true) (generation : Nat) :
    Acts (facadeHooks board) permits m (bindObservation generation n).2 := by
  simp only [Emu80535.bindObservation, bound, if_true]
  exact ite_snd acts (ite_snd acts acts)

/-- An event of the owner is a report of the facade. -/
theorem observationLifecycle (kind : ObsKind) (status : Status) :
    Acts (facadeHooks board) permits m (observationLifecycle kind status n).2 := by
  simp only [Emu80535.observationLifecycle]
  refine ite_snd acts ?_
  -- Events of other kinds are refused.
  by_cases unknown : (kind ≠ .reset ∧ kind ≠ .load ∧ kind ≠ .fault) ∨
      (if kind = .fault then status = .ok else status ≠ .ok)
  · rw [if_pos unknown]
    exact acts
  · rw [if_neg unknown]
    have known : kind = .reset ∨ kind = .load ∨ kind = .fault := by
      by_contra other
      simp only [not_or] at other
      exact unknown (Or.inl other)
    -- The mark of a reported fault is set only by a fault.
    have marked : ∀ p : Prop, [Decidable p] →
        (if p then n.host.mapObs fun o => { o with faultEmitted := true } else n.host) =
          n.host.mapObs fun o =>
            { o with faultEmitted := if p then true else n.host.observation.faultEmitted } := by
      intro p _
      split <;> rfl
    refine ite_snd acts ?_
    simp only [Machine.mapHost, marked]
    exact acts.host free (.lifecycle n.cpu _ known _)

/-- Every call but a reset, a cycle and what binds or unbinds the sink. -/
theorem facadeCall (call : FacadeCall)
    (cycle : call = .cycle → Acts (facadeHooks board) permits m (Emu80535.cycleCpu board n).2.2)
    (reset : ∀ seed entry, call ≠ .reset seed entry) (stays : call ≠ .unbind)
    (bound : ∀ generation, call = .bind generation → n.host.observation.bound = true) :
    Acts (facadeHooks board) permits m (call.run board n).2 := by
  -- Three calls are excluded by the hypotheses.
  cases call with
  | reset seed entry => exact absurd rfl (reset seed entry)
  | loadCode image => exact acts.loadCode free image
  | applyInput input => exact acts.applyInput free input
  | deliver parent input => exact acts.deliverObservation free parent input
  | cycle => exact cycle rfl
  | bind generation => exact acts.bindObservation (bound generation rfl) generation
  | unbind => exact absurd rfl stays
  | lifecycle kind status => exact acts.observationLifecycle free kind status

end Rules

end Acts

end Emu80535
