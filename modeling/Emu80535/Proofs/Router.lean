import Emu80535.Proofs.Deliveries
import Emu80535.Proofs.Routing
import Mathlib

/-! Runs of the trace router: what it emits and suppresses adds up to what it was offered. -/

namespace Emu80535.Debug

open Batches

variable {ω : Type} {hooks : Delivery ω} {s s' : Routing ω} {e : Event} {u : Nat}

/-! ### The invariant -/

/-- A router keeps the account of every trace. -/
structure Sound (s : Routing ω) : Prop where
  valid : s.router.config.Valid
  kept : ∀ u, Kept ((s.router.suppressionOf u).map Suppression.batch) (account u s.history)
  /-- A count never passes the sequence numbers it counts. -/
  bounded : ∀ u v, s.router.suppressionOf u = some v →
    v.count ≤ v.lastSequence ∧ v.lastSequence ≤ s.router.lastSequence
  last : s.router.lastSequence < 2 ^ 64

/-- A new router. -/
theorem Sound.initial (context : ω) : Sound (Routing.initial context) where
  valid := TraceConfig.valid_empty
  kept := fun _ => .start
  bounded := fun _ _ active => absurd active (Option.some_ne_none _).symm
  last := Nat.two_pow_pos 64

/-- The batch of a suppression that grows: its counter has room for one more event. -/
theorem grow_batch {t : TraceSession} {v : Option Suppression} {depth last : Nat}
    (bounded : ∀ w, v = some w → w.count ≤ w.lastSequence ∧ w.lastSequence ≤ last)
    (later : last < e.sequence) (fits : e.sequence < 2 ^ 64) :
    ((v.getD (t.suppression e depth)).grow e depth).batch =
        grown (v.map Suppression.batch) e.sequence ∧
      ((v.getD (t.suppression e depth)).grow e depth).count ≤ e.sequence := by
  -- A suppression either begins with the event or grows by it.
  cases v with
  | none =>
    refine ⟨rfl, ?_⟩
    change saturate 0 1 ≤ e.sequence
    unfold saturate
    omega
  | some w =>
    obtain ⟨counted, below⟩ := bounded w rfl
    -- The count is at most the last number, so it is far from saturating.
    have count : saturate w.count 1 = w.count + 1 := by
      unfold saturate
      omega
    constructor
    · change Batch.mk w.firstSequence e.sequence (saturate w.count 1) = _
      rw [count]
      rfl
    · change saturate w.count 1 ≤ e.sequence
      omega

/-- An event that is routed leaves the accounts in order. -/
theorem Routed.sound {flag : Nat → Bool} {ids : List Nat} {acts : List Act} (sound : Sound s)
    (routed : Routed s e flag ids acts s') (later : s.router.lastSequence < e.sequence)
    (fits : e.sequence < 2 ^ 64) :
    (∀ u, Kept ((s'.router.suppressionOf u).map Suppression.batch) (account u s'.history)) ∧
    ∀ u v, s'.router.suppressionOf u = some v →
      v.count ≤ v.lastSequence ∧ v.lastSequence ≤ e.sequence := by
  -- Each identity is looked at on its own.
  have each : ∀ u, Kept ((s'.router.suppressionOf u).map Suppression.batch)
      (account u s'.history) ∧ ∀ v, s'.router.suppressionOf u = some v →
        v.count ≤ v.lastSequence ∧ v.lastSequence ≤ e.sequence := by
    intro u
    have kept := sound.kept u
    have bounded := sound.bounded u
    rw [routed.after.history, account_append]
    -- Only configured traces can be touched by the event.
    by_cases known : u ∈ s.router.config.traceIds
    · obtain ⟨t, here, rfl⟩ := List.mem_map.mp known
      have outcome := routed.outcomes t here
      generalize s'.router.suppressionOf t.traceId = after at outcome ⊢
      generalize account t.traceId acts = entries at outcome ⊢
      -- The trace is not asked, holds the event back, or lets it pass.
      cases outcome with
      | untouched =>
        rw [List.append_nil]
        refine ⟨kept, fun v active => ?_⟩
        obtain ⟨counted, below⟩ := bounded v active
        exact ⟨counted, Nat.le_of_lt (Nat.lt_of_le_of_lt below later)⟩
      -- Held back, the event joins the batch.
      | held rejects =>
        obtain ⟨batch, count⟩ := @grow_batch e t _ s.router.interruptDepth _ bounded later fits
        refine ⟨?_, fun v active => ?_⟩
        · rw [Option.map_some, batch]
          exact kept.hold e.sequence
        · obtain rfl := Option.some.inj active
          exact ⟨count, Nat.le_refl e.sequence⟩
      -- Passed, the event follows what was suppressed before it.
      | passed accepts =>
        exact ⟨kept.pass e.sequence, fun v active => absurd active (Option.some_ne_none v).symm⟩
    · -- Of any other identity nothing is told.
      obtain ⟨silent, same⟩ := routed.others u known
      rw [silent, same, List.append_nil]
      refine ⟨kept, fun v active => ?_⟩
      obtain ⟨counted, below⟩ := bounded v active
      exact ⟨counted, Nat.le_of_lt (Nat.lt_of_le_of_lt below later)⟩
  exact ⟨fun u => (each u).1, fun u => (each u).2⟩

/-! ### Gates -/

/-- The trace is enabled. -/
def TraceConfig.Enables (c : TraceConfig) (u : Nat) : Prop :=
  ∃ t ∈ c.traces, t.traceId = u ∧ t.enabled ≠ 0#8

/-- Whether it is. -/
def TraceConfig.enables (c : TraceConfig) (u : Nat) : Bool :=
  c.traces.any fun t => t.traceId == u && t.enabled != 0#8

/-- A flag that is on, as a proposition. -/
theorem enables_iff {c : TraceConfig} : c.enables u = true ↔ c.Enables u := by
  simp [TraceConfig.enables, TraceConfig.Enables]

/-- The flag of the trace at an index. -/
theorem TraceConfig.Valid.enables_index {c : TraceConfig} (valid : c.Valid)
    (ti : Fin c.traces.length) :
    c.enables (c.traces.get ti).traceId = ((c.traces.get ti).enabled != 0#8) := by
  rw [Bool.eq_iff_iff, enables_iff, bne_iff_ne]
  -- Identities are unique, so it is the trace at that index.
  constructor
  · rintro ⟨t, member, same, on⟩
    obtain ⟨tj, rfl⟩ := List.mem_iff_get.mp member
    have equal : tj = ti := valid.trace_inj same
    subst equal
    exact on
  · exact fun on => ⟨_, List.getElem_mem ti.isLt, rfl, on⟩

/-- The configuration after the gates of a timing. -/
def TraceConfig.gatedBy (c : TraceConfig) (e : Event) (timing : Byte) : TraceConfig :=
  c.withFlags fun t => (c.switched e timing t.traceId).getD t.enabled

/-- Gates touch flags only, so the accounts stay in order. -/
theorem Sound.gated (sound : Sound s) (e : Event) (timing : Byte) :
    Sound (s.gated e timing) ∧ (s.gated e timing).router.config =
      s.router.config.gatedBy e timing := by
  -- The gates replace flags and nothing else.
  have config : (s.gated e timing).router.config = s.router.config.gatedBy e timing :=
    sound.valid.applyGates e timing
  -- The suppressions stay where they are.
  have same : ∀ u, (s.gated e timing).router.suppressionOf u = s.router.suppressionOf u := by
    intro u
    have ids : (s.gated e timing).router.config.traceIds = s.router.config.traceIds := by
      rw [config]
      exact traceIds_withFlags _
    unfold Router.suppressionOf
    rw [ids]
    rfl
  -- The accounts do not mention flags.
  refine ⟨⟨sound.valid.gated e timing, fun u => ?_, fun u v active => ?_, sound.last⟩, config⟩
  · rw [same]
    exact sound.kept u
  · rw [same] at active
    exact sound.bounded u v active

/-! ### Flushing -/

/-- A suppression that is emitted leaves the accounts in order. -/
theorem Sound.suppressionEmit (sound : Sound s) (ti : Fin s.router.config.traces.length) :
    Sound (s.suppressionEmit hooks ti) := by
  obtain ⟨after, suppressions⟩ := @after_suppressionEmit _ hooks s sound.valid ti
  have config := after.router.config
  -- Telling of a suppression is no event of the source.
  have lasts : (s.suppressionEmit hooks ti).router.lastSequence = s.router.lastSequence := by
    obtain ⟨_, _, shape⟩ := after.router
    rw [shape]
  have here : Router.suppressionOf s.router (s.router.config.traces.get ti).traceId =
      s.router.suppression ti := Router.suppressionOf_index (sound.valid.traceIndex_self ti)
  -- The batch is told and taken out at once.
  refine ⟨config.symm ▸ sound.valid, fun u => ?_, fun u v active => ?_, lasts ▸ sound.last⟩
  · rw [suppressions, after.history, account_append, account_release]
    -- The trace itself closes its batch, and the other ones are as before.
    by_cases same : u = (s.router.config.traces.get ti).traceId
    · rw [if_pos same, if_pos same, ← here, ← same]
      exact (sound.kept u).release
    · rw [if_neg same, if_neg same, List.append_nil]
      exact sound.kept u
  · rw [lasts]
    rw [suppressions] at active
    split at active
    · exact absurd active (Option.some_ne_none v).symm
    · exact sound.bounded u v active

/-- A list of acts that flushing leaves: summaries only. -/
def Summaries (acts : List Act) : Prop := askedIds acts = [] ∧ eventRecords acts = []

/-- The summary of a suppression is one. -/
theorem summaries_release (t : TraceSession) (v : Option Suppression) :
    Summaries (releaseActs t v) := by
  cases v <;> exact ⟨rfl, rfl⟩

/-- Flushing leaves the accounts in order. -/
theorem Sound.flushAll {chosen : TraceSession → Bool} (tis : List Nat) (sound : Sound s) :
    Sound (tis.foldl (Routing.flushAt hooks chosen) s) ∧
      ∃ acts, Summaries acts ∧ After s acts (tis.foldl (Routing.flushAt hooks chosen) s) := by
  -- Induction on the traces that are still to be flushed.
  induction tis generalizing s with
  | nil => exact ⟨sound, [], ⟨rfl, rfl⟩, .refl s⟩
  | cons ti rest ih =>
    rw [List.foldl_cons]
    unfold Routing.flushAt
    split
    next within =>
      -- A trace that is chosen tells of its suppression, which is no event.
      split
      next =>
        obtain ⟨after, -⟩ := @after_suppressionEmit _ hooks s sound.valid ⟨ti, within⟩
        obtain ⟨final, acts, quiet, later⟩ := ih (@Sound.suppressionEmit _ hooks s sound ⟨ti, within⟩)
        have first := summaries_release s.router.config.traces[ti] (s.router.suppression ti)
        refine ⟨final, _, ?_, after.trans later⟩
        exact ⟨by rw [askedIds_append, quiet.1]; exact congrArg (· ++ []) first.1,
          by rw [eventRecords_append, quiet.2]; exact congrArg (· ++ []) first.2⟩
      next => exact ih sound
    next => exact ih sound

/-! ### Turns -/

/-- What the routing of an event may do. -/
structure EventLaw (selected enabled : Nat → Prop) (e : Event) (acts : List Act) : Prop where
  /-- Exactly the enabled traces among the selected ones are asked. -/
  asked : ∀ u, u ∈ askedIds acts ↔ selected u ∧ enabled u
  once : (askedIds acts).Pairwise (· < ·)
  about : ∀ act ∈ acts, ∀ e' ∈ act.event, e' = e
  ascending : ∀ r ∈ eventRecords acts, r.traceIds ≠ [] ∧ r.traceIds.Pairwise (· < ·)
  /-- A destination gets one record at most. -/
  single : ((eventRecords acts).map RoutedRecord.destinationId).Pairwise (· < ·)

/-- What a turn may do, by its call and its status. -/
def TurnLaw (turn : Turn ω) (acts : List Act) : Prop :=
  let c := turn.before.router.config
  let c' := turn.after.router.config
  match turn.status, turn.call with
  | .ok, .replace new => c' = new ∧ acts = []
  -- The gates before an event decide about it, but RESET and LOAD find the flags as they were.
  | .ok, .sourceBegin e =>
    c' = c.gatedBy e GateTiming.before ∧
      if e.isLifecycle then EventLaw (· ∈ c.traceIds) c.Enables e acts
      else EventLaw (c.Selects e) c'.Enables e acts
  | .ok, .sourceEnd =>
    c' = c.gatedBy turn.before.router.openSourceEvent GateTiming.after ∧ acts = []
  | .ok, .watch e result => c' = c ∧ EventLaw (· ∈ result.traceIds) c.Enables e acts
  | .ok, .flush => c' = c ∧ Summaries acts
  | .ok, .flushSelected _ _ => c' = c ∧ Summaries acts
  | _, _ => turn.after = turn.before ∧ acts = []

/-- What is known of a turn. -/
structure Performed (call : Call) (s : Routing ω) (answer : EventStatus × Routing ω) : Prop where
  sound : Sound answer.2
  law : ∃ acts, answer.2.history = s.history ++ acts ∧ TurnLaw ⟨call, s, answer.1, answer.2⟩ acts

/-- A call that is refused changes nothing. -/
theorem Performed.refused (sound : Sound s) (call : Call) {status : EventStatus}
    (not : status ≠ .ok) : Performed call s (status, s) := by
  refine ⟨sound, [], (List.append_nil _).symm, ?_⟩
  unfold TurnLaw
  -- Every other status is a refusal, and a refusal leaves the state alone.
  cases status with
  | ok => exact absurd rfl not
  | invalidArgument => exact ⟨rfl, rfl⟩
  | limit => exact ⟨rfl, rfl⟩
  | busy => exact ⟨rfl, rfl⟩
  | duplicateId => exact ⟨rfl, rfl⟩

/-- An event that is routed to ascending identities keeps the law of events. -/
theorem Routed.law {flag : Nat → Bool} {ids : List Nat} {acts : List Act}
    {selected enabled : Nat → Prop} (routed : Routed s e flag ids acts s')
    (ascending : ids.Pairwise (· < ·)) (members : ∀ u, u ∈ ids ↔ selected u)
    (flags : ∀ u, flag u = true ↔ enabled u) : EventLaw selected enabled e acts where
  asked := by
    -- Asked are those listed and enabled.
    intro u
    rw [routed.asked, List.mem_filter, members, flags]
  once := by
    rw [routed.asked]
    exact ascending.filter flag
  about := routed.about
  ascending := by
    -- A record lists a part of the identities, in their order.
    intro r member
    obtain ⟨-, nonempty, sublist⟩ := routed.records r member
    exact ⟨nonempty, ascending.sublist sublist⟩
  single := routed.single

/-- The flags a configuration has at present. -/
theorem TraceConfig.Valid.flags_present {c : TraceConfig} (valid : c.Valid)
    (ti : Fin c.traces.length) : c.enabledAt none ti = c.enables (c.traces.get ti).traceId :=
  (valid.enables_index ti).symm

/-- The flags it had before the gates. -/
theorem TraceConfig.Valid.flags_snapshot {c d : TraceConfig} (valid : c.Valid)
    {flag : TraceSession → Byte} (gated : d = c.withFlags flag) (ti : Fin d.traces.length) :
    d.enabledAt (some (c.traces.map TraceSession.enabled)) ti =
      c.enables (d.traces.get ti).traceId := by
  subst gated
  -- The gates keep the number and the order of the traces.
  have inside : ti.val < c.traces.length := by
    simpa [TraceConfig.withFlags] using ti.isLt
  have flagged : (c.withFlags flag).traces.get ti =
      { c.traces[ti.val] with enabled := flag c.traces[ti.val] } := List.getElem_map _
  have id : ((c.withFlags flag).traces.get ti).traceId = c.traces[ti.val].traceId := by
    rw [flagged]
  rw [id]
  -- The snapshot was taken from the flags before the gates.
  refine Eq.trans ?_ (valid.enables_index ⟨ti.val, inside⟩).symm
  simp [TraceConfig.enabledAt, List.getD, inside]

/-- The routing of `source_begin`. -/
theorem begin_routed (sound : Sound s) (e : Event) :
    ∃ ids flag acts,
      (if e.isLifecycle then
        (s.gated e GateTiming.before).routeIds hooks e
          (s.router.config.traces.map TraceSession.traceId) none
          (some (s.router.config.traces.map TraceSession.enabled))
      else (s.gated e GateTiming.before).routeIds hooks e
        ((s.gated e GateTiming.before).router.config.pointIds e) none none).1 = .ok ∧
      Routed (s.gated e GateTiming.before) e flag ids acts
        (if e.isLifecycle then
          (s.gated e GateTiming.before).routeIds hooks e
            (s.router.config.traces.map TraceSession.traceId) none
            (some (s.router.config.traces.map TraceSession.enabled))
        else (s.gated e GateTiming.before).routeIds hooks e
          ((s.gated e GateTiming.before).router.config.pointIds e) none none).2 ∧
      if e.isLifecycle then EventLaw (· ∈ s.router.config.traceIds) s.router.config.Enables e acts
      else EventLaw (s.router.config.Selects e)
        (s.gated e GateTiming.before).router.config.Enables e acts := by
  obtain ⟨gated, config⟩ := sound.gated e GateTiming.before
  have ids : (s.gated e GateTiming.before).router.config.traceIds = s.router.config.traceIds := by
    rw [config]
    exact traceIds_withFlags _
  cases lifecycle : e.isLifecycle with
  | true =>
    simp only [if_true]
    -- Every trace is routed to, by the flags from before the gates.
    have known : ∀ id ∈ s.router.config.traceIds,
        id ∈ (s.gated e GateTiming.before).router.config.traceIds := by
      rw [ids]
      exact fun _ member => member
    obtain ⟨acts, status, routed⟩ := @routeIds_routed _ hooks _ e gated.valid _ _ none
      (sound.valid.flags_snapshot config)
      s.router.config.traceIds (gated.valid.routable known sound.valid.tracesAscend)
    exact ⟨_, _, acts, status, routed,
      routed.law sound.valid.tracesAscend (fun _ => Iff.rfl) fun _ => enables_iff⟩
  | false =>
    simp only [Bool.false_eq_true, if_false]
    obtain ⟨members, ascending⟩ :=
      pointIds_spec (s.gated e GateTiming.before).router.config e
    have known : ∀ id ∈ (s.gated e GateTiming.before).router.config.pointIds e,
        id ∈ (s.gated e GateTiming.before).router.config.traceIds := by
      intro id member
      obtain ⟨p, here, -, listed⟩ := (members id).mp member
      exact (gated.valid.points p here).routes.known id listed
    obtain ⟨acts, status, routed⟩ := @routeIds_routed _ hooks _ e gated.valid _ _ none
      gated.valid.flags_present _ (gated.valid.routable known ascending)
    have points : (s.gated e GateTiming.before).router.config.Selects e =
        s.router.config.Selects e := by
      rw [config]
      rfl
    exact ⟨_, _, acts, status, routed,
      routed.law ascending (fun u => points ▸ members u) fun _ => enables_iff⟩

/-- An event begins. -/
theorem sourceBegin_performed (sound : Sound s) (fits : e.sequence < 2 ^ 64) :
    Performed (.sourceBegin e) s (s.sourceBegin hooks e) := by
  unfold Routing.sourceBegin
  -- A number that is not later is refused before anything happens.
  split
  next => exact .refused sound _ (by decide)
  next accepted =>
    have later : s.router.lastSequence < e.sequence := by
      simp only [Router.refusesSource, Bool.or_eq_true, decide_eq_true_eq, not_or] at accepted
      omega
    -- The gates come first, and the routing reads what they have left.
    obtain ⟨gated, config⟩ := sound.gated e GateTiming.before
    obtain ⟨ids, flag, acts, status, routed, law⟩ := @begin_routed _ hooks _ sound e
    -- A lifecycle event is routed to all, any other one to what matches it.
    dsimp only
    generalize (if e.isLifecycle then _ else _ : EventStatus × Routing ω) = answer
      at status routed ⊢
    obtain ⟨code, final⟩ := answer
    obtain rfl : code = .ok := status
    simp only [ne_eq, not_true_eq_false, if_false]
    obtain ⟨kept, bounded⟩ := routed.sound gated later fits
    have same := routed.after.router.config
    -- The accounts are those of the routing, the configuration is that of the gates.
    refine ⟨⟨?_, kept, bounded, fits⟩, acts, routed.after.history, ?_, ?_⟩
    · change final.router.config.Valid
      rw [same]
      exact gated.valid
    · exact same.trans config
    · change if e.isLifecycle then _ else EventLaw _ final.router.config.Enables e acts
      rw [same]
      exact law

/-- An event ends. -/
theorem sourceEnd_performed (sound : Sound s) : Performed .sourceEnd s s.sourceEnd := by
  unfold Routing.sourceEnd
  split
  next => exact .refused sound _ (by decide)
  next =>
    obtain ⟨gated, config⟩ := sound.gated s.router.openSourceEvent GateTiming.after
    exact ⟨⟨gated.valid, gated.kept, gated.bounded, gated.last⟩, [], (List.append_nil _).symm,
      config, rfl⟩

/-- A watch event is routed. -/
theorem watch_performed (sound : Sound s) (result : WatchResult) (fits : e.sequence < 2 ^ 64) :
    Performed (.watch e result) s (s.watch hooks e result) := by
  unfold Routing.watch
  -- As for other events a number that is not later is refused.
  split
  next => exact .refused sound _ (by decide)
  next accepted =>
    have later : s.router.lastSequence < e.sequence := by
      simp only [Router.refusesWatch, Bool.or_eq_true, decide_eq_true_eq, not_or] at accepted
      omega
    -- The traces of the result have to be known and in order.
    cases routable : s.router.config.routable result.traceIds with
    | false =>
      unfold Routing.routeIds
      simp only [routable, Bool.not_false, if_true]
      exact .refused sound _ (by decide)
    | true =>
      obtain ⟨acts, status, routed⟩ := @routeIds_routed _ hooks _ e sound.valid _ _ (some result)
        sound.valid.flags_present _ routable
      -- The ascending order is what has just been tested.
      have ascending : result.traceIds.Pairwise (· < ·) :=
        of_decide_eq_true (Bool.and_eq_true _ _ ▸ routable).2
      have law := routed.law ascending (fun _ => Iff.rfl) fun _ => enables_iff
      dsimp only
      generalize s.routeIds hooks e result.traceIds (some result) none = answer at status routed ⊢
      obtain ⟨code, final⟩ := answer
      obtain rfl : code = .ok := status
      simp only [if_true]
      -- Nothing but the routing has touched the accounts.
      obtain ⟨kept, bounded⟩ := routed.sound sound later fits
      have same := routed.after.router.config
      refine ⟨⟨?_, kept, bounded, fits⟩, acts, routed.after.history, same, law⟩
      change final.router.config.Valid
      rw [same]
      exact sound.valid

/-- The flushing functions. -/
theorem flushTraces_performed (sound : Sound s) (chosen : TraceSession → Bool) {call : Call}
    (law : ∀ {s' : Routing ω} {acts : List Act}, s'.router.config = s.router.config →
      Summaries acts → TurnLaw ⟨call, s, .ok, s'⟩ acts) :
    Performed call s (s.flushTraces hooks chosen) := by
  unfold Routing.flushTraces
  -- Flushing is refused inside an event.
  split
  next => exact .refused sound _ (by decide)
  next =>
    obtain ⟨final, acts, quiet, after⟩ := @Sound.flushAll _ hooks s chosen
      (List.range s.router.config.traces.length) sound
    exact ⟨final, acts, after.history, law after.router.config quiet⟩

/-! ### Replacement -/

/-- A trace that is not known has no suppression. -/
theorem suppressionOf_unknown {r : Router} (unknown : u ∉ r.config.traceIds) :
    r.suppressionOf u = none := by
  have nowhere : r.config.traceIds.findIdx? (· == u) = none := by
    rw [List.findIdx?_eq_none_iff]
    intro id member
    exact beq_eq_false_iff_ne.mpr fun same => unknown (same ▸ member)
  rw [Router.suppressionOf, nowhere]
  rfl

/-- A suppression that is active stays with its trace. -/
theorem kept_active {r : Router} {c : TraceConfig} (keeps : r.losesSuppression c = false)
    {ti : Fin r.config.traces.length} {v : Suppression} (active : r.suppression ti = some v) :
    c.keepsSuppression (r.config.traces.get ti) = true := by
  have each := List.any_eq_false.mp keeps ti (List.mem_finRange ti)
  simpa [active] using each

/-- A replacement carries every suppression. -/
theorem suppressionOf_carried {r : Router} {c : TraceConfig}
    (keeps : r.losesSuppression c = false) :
    Router.suppressionOf { r with config := c, suppression := r.carriedSuppression c } u =
      r.suppressionOf u := by
  -- The suppression a trace had before is the one at its old index.
  have old : ∀ v, r.suppressionOf u = some v → ∃ tj, r.config.traceIndex u = some tj ∧
      r.suppression tj = some v ∧ c.keepsSuppression (r.config.traces.get tj) = true := by
    intro v active
    by_cases known : u ∈ r.config.traceIds
    · obtain ⟨tj, found⟩ := Option.isSome_iff_exists.mp (traceIndex_isSome.mpr known)
      rw [Router.suppressionOf_index found] at active
      exact ⟨tj, found, active, kept_active keeps active⟩
    · rw [suppressionOf_unknown known] at active
      exact absurd active (Option.some_ne_none v).symm
  by_cases known : u ∈ c.traceIds
  · obtain ⟨ti, found⟩ := Option.isSome_iff_exists.mp (traceIndex_isSome.mpr known)
    have here := traceIndex_id found
    have entry : c.traces[ti.val]? = some (c.traces.get ti) := List.getElem?_eq_getElem ti.isLt
    refine (Router.suppressionOf_index (r := { r with
      config := c, suppression := r.carriedSuppression c }) found).trans ?_
    change r.carriedSuppression c ti = _
    unfold Router.carriedSuppression
    simp only [entry, here]
    cases origin : r.config.traceIndex u with
    | none =>
      have unknown : u ∉ r.config.traceIds := by
        rw [← traceIndex_isSome, origin]
        exact Bool.false_ne_true
      exact (suppressionOf_unknown unknown).symm
    | some tj =>
      rw [Router.suppressionOf_index origin]
      dsimp only
      split
      next => rfl
      next differs =>
        -- An active suppression would not have been allowed to lose its trace.
        cases active : r.suppression tj with
        | none => rfl
        | some v =>
          have keep := kept_active keeps active
          unfold TraceConfig.keepsSuppression at keep
          rw [traceIndex_id origin] at keep
          simp only [found, Bool.and_eq_true, beq_iff_eq] at keep
          exact absurd ⟨keep.1.symm, keep.2.symm⟩ differs
  · rw [suppressionOf_unknown (r := { r with
      config := c, suppression := r.carriedSuppression c }) known]
    cases active : r.suppressionOf u with
    | none => rfl
    | some v =>
      obtain ⟨tj, found, -, keep⟩ := old v active
      unfold TraceConfig.keepsSuppression at keep
      rw [traceIndex_id found] at keep
      cases lookup : c.traceIndex u with
      | none =>
        rw [lookup] at keep
        exact Bool.noConfusion keep
      | some ti =>
        exact absurd (traceIndex_isSome.mp (Option.isSome_iff_exists.mpr ⟨ti, lookup⟩)) known

/-- A configuration is replaced. -/
theorem replace_performed (sound : Sound s) (c : TraceConfig) :
    Performed (.replace c) s
      ((s.router.replace c).1, { s with router := (s.router.replace c).2 }) := by
  unfold Router.replace
  -- The five ways to refuse a configuration, in the order of the source.
  split
  next => exact .refused sound _ (show EventStatus.invalidArgument ≠ .ok by decide)
  next valid =>
    split
    next => exact .refused sound _ (show EventStatus.busy ≠ .ok by decide)
    next =>
      split
      next => exact .refused sound _ (show EventStatus.busy ≠ .ok by decide)
      next keeps =>
        split
        next => exact .refused sound _ (show EventStatus.duplicateId ≠ .ok by decide)
        next =>
          split
          next => exact .refused sound _ (show EventStatus.limit ≠ .ok by decide)
          -- Accepted, the suppressions move to the places of their traces.
          next =>
            have next : c.Valid := TraceConfig.valid_iff.mp (by simpa using valid)
            -- By identity nothing has moved.
            have carried : ∀ u, Router.suppressionOf { s.router with
                config := c, suppression := s.router.carriedSuppression c } u =
                  s.router.suppressionOf u :=
              fun u => suppressionOf_carried (Bool.eq_false_iff.mpr keeps)
            refine ⟨⟨next, fun u => ?_, fun u v active => ?_, sound.last⟩, [],
              (List.append_nil _).symm, rfl, rfl⟩
            · change Kept (Option.map _ (Router.suppressionOf { s.router with
                config := c, suppression := s.router.carriedSuppression c } u)) _
              rw [carried]
              exact sound.kept u
            · exact sound.bounded u v ((carried u).symm.trans active)

/-! ### Runs -/

/-- Every call keeps the invariant and the law of its turn. -/
theorem perform_performed (sound : Sound s) {call : Call} (fits : call.Fits) :
    Performed call s (call.perform hooks s) := by
  -- One law of its own for each call of the router.
  cases call with
  | replace c => exact replace_performed sound c
  | sourceBegin e => exact sourceBegin_performed sound fits
  | sourceEnd => exact sourceEnd_performed sound
  | watch e result => exact watch_performed sound result fits
  | flush => exact flushTraces_performed sound _ fun same quiet => ⟨same, quiet⟩
  | flushSelected destinationId traceId =>
    exact flushTraces_performed sound _ fun same quiet => ⟨same, quiet⟩

/-- Every run keeps them. -/
theorem Sound.run {turns : List (Turn ω)} (run : Run turns s) :
    Sound s ∧ ∀ turn ∈ turns, ∃ acts, turn.after.history = turn.before.history ++ acts ∧
      TurnLaw turn acts := by
  -- Induction on the run; the law of a turn is about its own part of the history.
  induction run with
  | start context => exact ⟨.initial context, fun _ member => absurd member List.not_mem_nil⟩
  | turn run hooks call fits ih =>
    obtain ⟨sound, laws⟩ := ih
    have performed := @perform_performed _ hooks _ sound call fits
    refine ⟨performed.sound, fun turn member => ?_⟩
    -- The turns before keep their law, and the last one has just been performed.
    rcases List.mem_append.mp member with earlier | last
    · exact laws turn earlier
    · obtain rfl := List.mem_singleton.mp last
      exact performed.law

/-- A run that ends in a turn. -/
theorem Run.last {turns : List (Turn ω)} {turn : Turn ω} (run : Run (turns ++ [turn]) s) :
    Run turns turn.before ∧ turn.after = s ∧ ∃ hooks, (turn.status, turn.after) =
      turn.call.perform hooks turn.before := by
  -- By the last step of the run, which is the turn.
  generalize whole : turns ++ [turn] = all at run
  cases run with
  | start context => exact absurd whole (List.append_ne_nil_of_right_ne_nil _ (List.cons_ne_nil _ _))
  | turn run hooks call fits =>
    obtain ⟨rfl, same⟩ := List.append_inj' whole rfl
    obtain rfl := (List.cons.inj same).1
    exact ⟨run, rfl, hooks, rfl⟩

/-- A run that goes on after a turn. -/
theorem Run.cut {turns later : List (Turn ω)} {turn : Turn ω}
    (run : Run (turns ++ turn :: later) s) : Run (turns ++ [turn]) turn.after := by
  -- The later turns are taken off one by one.
  induction later using List.reverseRecOn generalizing s with
  | nil =>
    have same := run.last.2.1
    rw [same]
    exact run
  | append_singleton later last ih =>
    have shape : turns ++ turn :: (later ++ [last]) = turns ++ turn :: later ++ [last] := by simp
    rw [shape] at run
    exact ih run.last.1

/-- What an open event holds still until it ends. -/
structure Held (c : TraceConfig) (e : Event) (s : Routing ω) : Prop where
  config : s.router.config = c
  event : s.router.openSourceEvent = e
  opened : s.router.sourceOpen = true

/-- While an event is open, no call but its end changes the configuration. -/
theorem Held.perform {c : TraceConfig} (sound : Sound s) (held : Held c e s) {call : Call}
    (other : call ≠ .sourceEnd) : Held c e (call.perform hooks s).2 := by
  have opened := held.opened
  cases call with
  | replace new =>
    have same : (s.router.replace new).2 = s.router := by
      unfold Router.replace
      rw [if_pos opened]
      split <;> rfl
    change Held c e { s with router := (s.router.replace new).2 }
    rw [same]
    exact held
  | sourceBegin e' =>
    change Held c e (s.sourceBegin hooks e').2
    have refused : s.router.refusesSource e' = true := by simp [Router.refusesSource, opened]
    unfold Routing.sourceBegin
    rw [if_pos refused]
    exact held
  | sourceEnd => exact absurd rfl other
  | watch e' result =>
    change Held c e (s.watch hooks e' result).2
    unfold Routing.watch
    split
    next => exact held
    next =>
      cases routable : s.router.config.routable result.traceIds with
      | false =>
        unfold Routing.routeIds
        simp only [routable, Bool.not_false, if_true]
        exact held
      | true =>
        -- Routing leaves all but the rings and the suppressions.
        obtain ⟨acts, status, routed⟩ := @routeIds_routed _ hooks _ e' sound.valid _ _
          (some result) sound.valid.flags_present _ routable
        obtain ⟨_, _, shape⟩ := routed.after.router
        dsimp only
        generalize s.routeIds hooks e' result.traceIds (some result) none = answer
          at status shape ⊢
        obtain ⟨code, final⟩ := answer
        obtain rfl : code = .ok := status
        simp only [if_true]
        refine ⟨?_, ?_, ?_⟩
        · exact (congrArg Router.config shape).trans held.config
        · exact (congrArg Router.openSourceEvent shape).trans held.event
        · exact (congrArg Router.sourceOpen shape).trans opened
  | flush =>
    change Held c e (s.flushTraces hooks _).2
    unfold Routing.flushTraces
    rw [if_pos opened]
    exact held
  | flushSelected destinationId traceId =>
    change Held c e (s.flushTraces hooks _).2
    unfold Routing.flushTraces
    rw [if_pos opened]
    exact held

/-- An event that has begun is open. -/
theorem held_begun (accepted : (s.sourceBegin hooks e).1 = .ok) :
    Held (s.sourceBegin hooks e).2.router.config e (s.sourceBegin hooks e).2 := by
  unfold Routing.sourceBegin at accepted ⊢
  -- Only an accepted beginning opens the event.
  split at accepted
  next => exact absurd accepted (show EventStatus.invalidArgument ≠ .ok by decide)
  next going =>
    rw [if_neg going]
    dsimp only at accepted ⊢
    -- Neither routing nor gates touch what the event holds.
    generalize (if e.isLifecycle then _ else _ : EventStatus × Routing ω) = answer at accepted ⊢
    split at accepted
    next failed => exact absurd accepted failed
    next done =>
      rw [if_neg done]
      exact ⟨rfl, rfl, rfl⟩

/-- A trace's events, records and summaries, and what the gates do to its flag. -/
structure RouterLaw (turns : List (Turn ω)) (s : Routing ω) : Prop where
  /-- The events offered to a trace are those listed for it, those its summaries tell of and those
  its active suppression counts. -/
  conserved : ∀ u, (offers (account u s.history)).length =
    (passes (account u s.history)).length + (counts (account u s.history)).sum +
      (s.router.suppressionOf u).elim 0 Suppression.count
  /-- A summary tells exactly what was suppressed since the one before it, and nothing is listed
  for a trace before that. -/
  lawful : ∀ u, Batches.Lawful (account u s.history)
  each : ∀ turn ∈ turns, ∃ acts, turn.after.history = turn.before.history ++ acts ∧
    TurnLaw turn acts
  /-- Derived events and the end of an event find the flags its gates before have left. -/
  derived : ∀ (earlier middle later : List (Turn ω)) (begun turn : Turn ω) (e : Event),
    turns = earlier ++ begun :: middle ++ turn :: later → begun.call = .sourceBegin e →
      begun.status = .ok → (∀ m ∈ middle, m.call ≠ .sourceEnd) →
        Held begun.after.router.config e turn.before
  /-- The history is what the callbacks were called for, and a recorder has its records. -/
  recorded : ∀ turn ∈ turns, ∃ hooks, Recorded hooks turn

/-- From its beginning on, an event is held until it ends. -/
theorem held_run {earlier middle : List (Turn ω)} {begun : Turn ω}
    (call : begun.call = .sourceBegin e) (accepted : begun.status = .ok)
    (open_ : ∀ m ∈ middle, m.call ≠ .sourceEnd) :
    ∀ {s : Routing ω}, Run (earlier ++ begun :: middle) s →
      Held begun.after.router.config e s := by
  -- Induction on the turns after the beginning, from the last one.
  induction middle using List.reverseRecOn with
  | nil =>
    -- The beginning itself opens the event.
    intro s run
    obtain ⟨-, same, hooks, performed⟩ := run.last
    rw [call] at performed
    have status : (begun.before.sourceBegin hooks e).1 = .ok :=
      (congrArg Prod.fst performed).symm.trans accepted
    have after : begun.after = (begun.before.sourceBegin hooks e).2 := congrArg Prod.snd performed
    rw [← same, after]
    exact held_begun status
  | append_singleton middle last ih =>
    intro s run
    have shape : earlier ++ begun :: (middle ++ [last]) = earlier ++ begun :: middle ++ [last] := by
      -- A turn that does not end it leaves it open.
      simp
    rw [shape] at run
    obtain ⟨before, same, hooks, performed⟩ := run.last
    have held := ih (fun m member => open_ m (List.mem_append_left _ member)) before
    have next := @Held.perform _ hooks _ _ _ (Sound.run before).1 held _
      (open_ last (List.mem_append_right _ (List.mem_singleton.mpr rfl)))
    have after : last.after = (last.call.perform hooks last.before).2 :=
      congrArg Prod.snd performed
    rw [← same, after]
    exact next

/-- Every run of the router keeps the law. -/
theorem router_conservation {turns : List (Turn ω)} (run : Run turns s) : RouterLaw turns s := by
  obtain ⟨sound, laws⟩ := Sound.run run
  refine ⟨fun u => ?_, fun u => (sound.kept u).lawful, laws, ?_, run.recorded⟩
  · have kept := sound.kept u
    rw [kept.decided, kept.lawful.balance]
    -- What waits is what the active suppression counts.
    have waits : (waiting (account u s.history)).length =
        (s.router.suppressionOf u).elim 0 Suppression.count := by
      have remembered := kept.remembered
      cases active : s.router.suppressionOf u with
      | none =>
        rw [active] at remembered
        exact congrArg List.length remembered
      | some v =>
        rw [active] at remembered
        exact remembered.2.2
    rw [waits]
  · intro earlier middle later begun turn e split call accepted open_
    subst split
    have shape : earlier ++ begun :: middle ++ turn :: later =
        (earlier ++ begun :: middle) ++ turn :: later := rfl
    rw [shape] at run
    exact held_run call accepted open_ run.cut.last.1

/-- Callbacks that take every record and find every trace eligible. -/
def Delivery.plain : Delivery Unit where
  deliver := fun context _ => context
  eligible := fun context _ _ => (true, context)

/-- One trace that leaves out interrupts, with a point that selects every event. -/
def quietConfig : TraceConfig where
  traces := [{
    traceId := 7
    destinationId := 1
    enabled := 1#8
    interruptPolicy := InterruptPolicy.suppressDuringInterrupt }]
  destinations := [1]
  points := [{ selector := {}, traceIds := [7], pointId := 1, enabled := 1#8 }]

/-- An event of a kind. -/
def Event.plain (sequence : Nat) (kind : Byte) : Event := { sequence := sequence, kind := kind }

/-- Two events inside an interrupt are suppressed, and its exit tells of them before it is listed. -/
theorem router_conservation_interrupt :
    ∃ (turns : List (Turn Unit)) (s : Routing Unit), Run turns s ∧ RouterLaw turns s ∧
      turns.length = 9 ∧ (account 7 s.history).length = 9 ∧
      (offers (account 7 s.history)).length = 4 ∧ (passes (account 7 s.history)).length = 2 ∧
      counts (account 7 s.history) = [2] ∧ (s.router.suppressionOf 7).isNone = true := by
  -- Each event begins and ends.
  have begun := fun {turns : List (Turn Unit)} {s : Routing Unit} (run : Run turns s) sequence kind
      (fits : sequence < 2 ^ 64) =>
    Run.turn (run.turn Delivery.plain (.sourceBegin (.plain sequence kind)) fits) Delivery.plain
      .sourceEnd trivial
  -- The entry lets the interrupt in, two events follow, and the exit closes it.
  have run := begun (begun (begun (begun ((Run.start ()).turn Delivery.plain (.replace quietConfig)
    trivial) 1 EventKind.interruptEnter (by decide)) 2 3#8 (by decide)) 5 4#8 (by decide)) 6
      EventKind.interruptExit (by decide)
  refine ⟨_, _, run, router_conservation run, rfl, ?_, ?_, ?_, ?_, ?_⟩ <;> decide +kernel

/-- The same trace without a policy, switched off by a gate before RESET. -/
def gatedConfig : TraceConfig where
  traces := [{
    traceId := 7
    destinationId := 1
    enabled := 1#8
    interruptPolicy := InterruptPolicy.included }]
  destinations := [1]
  gates := [{
    selector := { matchKind := 1#8, kind := EventKind.reset }
    traceIds := [7]
    gateId := 1
    enabled := 1#8
    action := GateAction.off
    timing := GateTiming.before }]

/-- A gate before RESET does not decide about that event: the trace it disables gets the record. -/
theorem reset_not_gated :
    ¬∀ (turns : List (Turn Unit)) (s : Routing Unit), Run turns s → ∀ turn ∈ turns, ∀ e,
      turn.call = .sourceBegin e → turn.status = .ok →
      ∀ r ∈ eventRecords (turn.after.history.drop turn.before.history.length),
      ∀ u ∈ r.traceIds, turn.after.router.config.Enables u := by
  -- The law is tried on one run, whose gate disables the trace it is routed to.
  intro gated
  have run := ((Run.start ()).turn Delivery.plain (.replace gatedConfig) trivial).turn
    Delivery.plain (.sourceBegin (.plain 1 EventKind.reset)) (show 1 < 2 ^ 64 by decide)
  have enabled := gated _ _ run _ (List.mem_append_right _ (List.mem_singleton.mpr rfl)) _ rfl
    (by decide +kernel)
  -- The record lists the trace all the same.
  have listed : 7 ∈ (eventRecords
      (((Call.sourceBegin (.plain 1 EventKind.reset)).perform Delivery.plain
        ((Call.replace gatedConfig).perform Delivery.plain (.initial ())).2).2.history.drop
          ((Call.replace gatedConfig).perform Delivery.plain (.initial ())).2.history.length)).flatMap
        RoutedRecord.traceIds := by decide +kernel
  obtain ⟨r, member, here⟩ := List.mem_flatMap.mp listed
  have on := enables_iff.mpr (enabled r member 7 here)
  exact absurd on (by decide +kernel)

end Emu80535.Debug
