import Emu80535.Debug.Trace
import Mathlib.Data.List.Induction
import Mathlib.Data.List.Nodup

/-! Valid trace configurations and what the gates make of their enable flags. -/

namespace Emu80535.Debug

variable {c : TraceConfig} {id : Nat}

/-! ### Ascending identities -/

/-- An identity that joins a list is in it. -/
theorem mem_insertRoute {u : Nat} (ids : List Nat) : u ∈ insertRoute id ids ↔ u = id ∨ u ∈ ids := by
  -- By induction on the identities the new one is put among.
  induction ids with
  | nil => simp [insertRoute]
  | cons first rest ih =>
    unfold insertRoute
    split
    · rw [List.mem_cons, ih, List.mem_cons]
      exact or_left_comm
    · split
      next same =>
        subst same
        simp
      next => rw [List.mem_cons]

/-- An ascending list stays one. -/
theorem insertRoute_ascending {ids : List Nat} (ascending : ids.Pairwise (· < ·)) :
    (insertRoute id ids).Pairwise (· < ·) := by
  -- By induction on the identities; the new one stands before the first that is above it.
  induction ids with
  | nil => exact List.pairwise_singleton _ _
  | cons first rest ih =>
    obtain ⟨above, tail⟩ := List.pairwise_cons.mp ascending
    unfold insertRoute
    split
    next below =>
      refine List.pairwise_cons.mpr ⟨fun other member => ?_, ih tail⟩
      rcases (mem_insertRoute rest).mp member with rfl | later
      · exact below
      · exact above other later
    next unordered =>
      split
      next => exact ascending
      next apart =>
        have below : id < first := by omega
        refine List.pairwise_cons.mpr ⟨fun other member => ?_, ascending⟩
        rcases List.mem_cons.mp member with rfl | later
        · exact below
        · exact Nat.lt_trans below (above other later)

/-- Identities that join a list one by one. -/
theorem mem_insertRoutes {u : Nat} (more ids : List Nat) :
    u ∈ more.foldl (fun ids id => insertRoute id ids) ids ↔ u ∈ ids ∨ u ∈ more := by
  induction more generalizing ids with
  | nil => simp
  | cons id rest ih =>
    rw [List.foldl_cons, ih, mem_insertRoute, List.mem_cons, or_assoc, or_left_comm]

/-- They leave the list ascending. -/
theorem insertRoutes_ascending (more : List Nat) {ids : List Nat}
    (ascending : ids.Pairwise (· < ·)) :
    (more.foldl (fun ids id => insertRoute id ids) ids).Pairwise (· < ·) := by
  induction more generalizing ids with
  | nil => exact ascending
  | cons id rest ih => exact ih (insertRoute_ascending ascending)

/-! ### Validity -/

/-- The identities of the traces. -/
def TraceConfig.traceIds (c : TraceConfig) : List Nat := c.traces.map TraceSession.traceId

/-- A trace that may stand in a configuration with some destinations. -/
structure TraceSession.Valid (t : TraceSession) (destinations : List Nat) : Prop where
  id : t.traceId ≠ 0
  flag : t.enabled ≤ 1#8
  policy : t.interruptPolicy ≤ InterruptPolicy.interruptOnly
  tag : utf8Terminated t.tag = true
  comment : utf8Terminated t.comment = true
  placed : t.destinationId ∈ destinations

/-- The routes of a point or a gate name traces, in order. -/
def RoutesValid (traceIds : List Nat) (s : Selector) (ids : List Nat) : Prop :=
  s.canonical ≠ 0#8 ∧ ids = [] ∨
    ids ≠ [] ∧ ids.length ≤ maxRoutes ∧ (∀ id ∈ ids, id ∈ traceIds) ∧ ids.Pairwise (· < ·)

/-- A point that may stand in a configuration. -/
structure TracePoint.Valid (p : TracePoint) (traceIds : List Nat) : Prop where
  id : p.pointId ≠ 0
  flag : p.enabled ≤ 1#8
  selector : p.selector.valid = true
  routes : RoutesValid traceIds p.selector p.traceIds

/-- A gate that may stand in a configuration. -/
structure TraceGate.Valid (g : TraceGate) (traceIds : List Nat) : Prop where
  id : g.gateId ≠ 0
  flag : g.enabled ≤ 1#8
  action : g.action ≤ GateAction.off
  timing : g.timing ≤ GateTiming.after
  selector : g.selector.valid = true
  routes : RoutesValid traceIds g.selector g.traceIds

/-- A configuration the router takes. -/
structure TraceConfig.Valid (c : TraceConfig) : Prop where
  fewTraces : c.traces.length ≤ maxTraces
  fewDestinations : c.destinations.length ≤ maxDestinations
  fewPoints : c.points.length ≤ maxPoints
  fewGates : c.gates.length ≤ maxGates
  destinationIds : ∀ id ∈ c.destinations, id ≠ 0
  destinationsAscend : c.destinations.Pairwise (· < ·)
  traces : ∀ t ∈ c.traces, t.Valid c.destinations
  tracesAscend : c.traceIds.Pairwise (· < ·)
  points : ∀ p ∈ c.points, p.Valid c.traceIds
  pointsAscend : (c.points.map TracePoint.pointId).Pairwise (· < ·)
  gates : ∀ g ∈ c.gates, g.Valid c.traceIds
  gatesAscend : (c.gates.map TraceGate.gateId).Pairwise (· < ·)

/-- A lookup finds the identities of the traces. -/
@[simp] theorem traceIndex_isSome : (c.traceIndex id).isSome = true ↔ id ∈ c.traceIds := by
  rw [TraceConfig.traceIndex, List.isSome_findFinIdx?]
  simp [TraceConfig.traceIds]

/-- A lookup finds the destinations. -/
@[simp] theorem destinationIndex_isSome :
    (c.destinationIndex id).isSome = true ↔ id ∈ c.destinations := by
  rw [TraceConfig.destinationIndex, List.isSome_findFinIdx?]
  simp

/-- The check of routes says what it is for. -/
theorem routesValid_iff {s : Selector} {ids : List Nat} :
    c.routesValid s ids = true ↔ RoutesValid c.traceIds s ids := by
  simp [TraceConfig.routesValid, TraceConfig.idsValid, RoutesValid, and_assoc]

/-- `config_valid` says what it is for. -/
theorem TraceConfig.valid_iff : c.valid = true ↔ c.Valid := by
  constructor
  · -- The checks of the source, each of them one field.
    intro valid
    simp only [TraceConfig.valid, Bool.and_eq_true, decide_eq_true_eq, List.all_eq_true,
      bne_iff_ne, routesValid_iff, destinationIndex_isSome] at valid
    obtain ⟨⟨⟨⟨⟨⟨⟨⟨⟨⟨⟨traces, destinations⟩, points⟩, gates⟩, ids⟩, ascend⟩, each⟩, tracesAscend⟩,
      eachPoint⟩, pointsAscend⟩, eachGate⟩, gatesAscend⟩ := valid
    exact {
      fewTraces := traces
      fewDestinations := destinations
      fewPoints := points
      fewGates := gates
      destinationIds := ids
      destinationsAscend := ascend
      traces := fun t member => by
        obtain ⟨⟨⟨⟨⟨id, flag⟩, policy⟩, tag⟩, comment⟩, placed⟩ := each t member
        exact ⟨id, flag, policy, tag, comment, placed⟩
      tracesAscend := tracesAscend
      points := fun p member => by
        obtain ⟨⟨⟨id, flag⟩, selector⟩, routes⟩ := eachPoint p member
        exact ⟨id, flag, selector, routes⟩
      pointsAscend := pointsAscend
      gates := fun g member => by
        obtain ⟨⟨⟨⟨⟨id, flag⟩, action⟩, timing⟩, selector⟩, routes⟩ := eachGate g member
        exact ⟨id, flag, action, timing, selector, routes⟩
      gatesAscend := gatesAscend }
  · -- The fields, put back in the order of the checks.
    intro valid
    simp only [TraceConfig.valid, Bool.and_eq_true, decide_eq_true_eq, List.all_eq_true,
      bne_iff_ne, routesValid_iff, destinationIndex_isSome]
    refine ⟨⟨⟨⟨⟨⟨⟨⟨⟨⟨⟨valid.fewTraces, valid.fewDestinations⟩, valid.fewPoints⟩, valid.fewGates⟩,
      valid.destinationIds⟩, valid.destinationsAscend⟩, ?_⟩, valid.tracesAscend⟩, ?_⟩,
      valid.pointsAscend⟩, ?_⟩, valid.gatesAscend⟩
    · intro t member
      have sound := valid.traces t member
      exact ⟨⟨⟨⟨⟨sound.id, sound.flag⟩, sound.policy⟩, sound.tag⟩, sound.comment⟩, sound.placed⟩
    · intro p member
      have sound := valid.points p member
      exact ⟨⟨⟨sound.id, sound.flag⟩, sound.selector⟩, sound.routes⟩
    · intro g member
      have sound := valid.gates g member
      exact ⟨⟨⟨⟨⟨sound.id, sound.flag⟩, sound.action⟩, sound.timing⟩, sound.selector⟩, sound.routes⟩

/-- The configuration of a new router. -/
theorem TraceConfig.valid_empty : TraceConfig.Valid {} :=
  TraceConfig.valid_iff.mp (by decide)

/-! ### Lookups -/

/-- A lookup finds a trace of the identity. -/
theorem traceIndex_id {ti : Fin c.traces.length} (found : c.traceIndex id = some ti) :
    (c.traces.get ti).traceId = id := by
  have hit := (List.findFinIdx?_eq_some_iff.mp found).1
  simpa using hit

/-- A lookup finds a destination of the identity. -/
theorem destinationIndex_id {di : Fin c.destinations.length}
    (found : c.destinationIndex id = some di) : c.destinations[di] = id := by
  have hit := (List.findFinIdx?_eq_some_iff.mp found).1
  simpa using hit

/-- Two traces of one identity are the same. -/
theorem TraceConfig.Valid.trace_inj (valid : c.Valid) {i j : Fin c.traces.length}
    (same : (c.traces.get i).traceId = (c.traces.get j).traceId) : i = j := by
  -- The identities ascend, so each has one place.
  have distinct : c.traceIds.Nodup := valid.tracesAscend.imp Nat.ne_of_lt
  have inside : ∀ k : Fin c.traces.length, k.val < c.traceIds.length := by
    intro k
    simp [TraceConfig.traceIds]
  have equal : c.traceIds.get ⟨i, inside i⟩ = c.traceIds.get ⟨j, inside j⟩ := by
    simpa [TraceConfig.traceIds] using same
  have indices : i.val = j.val := Fin.mk.inj ((List.Nodup.get_inj_iff distinct).mp equal)
  exact Fin.ext indices

/-- A trace is found by its identity. -/
theorem TraceConfig.Valid.traceIndex_self (valid : c.Valid) (ti : Fin c.traces.length) :
    c.traceIndex (c.traces.get ti).traceId = some ti := by
  have known : (c.traceIndex (c.traces.get ti).traceId).isSome = true :=
    traceIndex_isSome.mpr (List.mem_map.mpr ⟨_, List.getElem_mem ti.isLt, rfl⟩)
  obtain ⟨found, lookup⟩ := Option.isSome_iff_exists.mp known
  rw [lookup, valid.trace_inj (traceIndex_id lookup)]

/-! ### Enable flags -/

/-- The configuration with other enable flags. -/
def TraceConfig.withFlags (c : TraceConfig) (flag : TraceSession → Byte) : TraceConfig :=
  { c with traces := c.traces.map fun t => { t with enabled := flag t } }

/-- The traces keep their identities. -/
@[simp] theorem traceIds_withFlags (flag : TraceSession → Byte) :
    (c.withFlags flag).traceIds = c.traceIds := by
  simp [TraceConfig.withFlags, TraceConfig.traceIds, Function.comp_def]

/-- The flags they have already change nothing. -/
@[simp] theorem withFlags_self : c.withFlags TraceSession.enabled = c := by
  simp [TraceConfig.withFlags]

/-- A configuration stays valid whatever flags its traces get. -/
theorem TraceConfig.Valid.withFlags (valid : c.Valid) {flag : TraceSession → Byte}
    (flags : ∀ t ∈ c.traces, flag t ≤ 1#8) : (c.withFlags flag).Valid where
  fewTraces := by simpa [TraceConfig.withFlags] using valid.fewTraces
  fewDestinations := valid.fewDestinations
  fewPoints := valid.fewPoints
  fewGates := valid.fewGates
  destinationIds := valid.destinationIds
  destinationsAscend := valid.destinationsAscend
  traces := by
    intro t member
    -- Flags are the only thing that changes, and they are zero or one again.
    obtain ⟨u, origin, rfl⟩ := List.mem_map.mp member
    have sound := valid.traces u origin
    exact ⟨sound.id, flags u origin, sound.policy, sound.tag, sound.comment, sound.placed⟩
  tracesAscend := by
    rw [traceIds_withFlags]
    exact valid.tracesAscend
  points := by
    rw [traceIds_withFlags]
    exact valid.points
  pointsAscend := valid.pointsAscend
  gates := by
    rw [traceIds_withFlags]
    exact valid.gates
  gatesAscend := valid.gatesAscend

/-- Setting one flag. -/
theorem TraceConfig.Valid.setEnabled (valid : c.Valid) (enabled : Byte) (id : Nat) :
    c.setEnabled enabled id =
      c.withFlags fun t => if t.traceId = id then enabled else t.enabled := by
  unfold TraceConfig.setEnabled
  cases lookup : c.traceIndex id with
  | none =>
    -- No trace has the identity, so none is changed.
    have unknown : id ∉ c.traceIds := by
      rw [← traceIndex_isSome, lookup]
      exact Bool.false_ne_true
    have same : c.traces.map (fun t =>
        { t with enabled := if t.traceId = id then enabled else t.enabled }) = c.traces := by
      refine (List.map_congr_left fun t member => ?_).trans (List.map_id _)
      have other : t.traceId ≠ id := fun hit =>
        unknown (List.mem_map.mpr ⟨t, member, hit⟩)
      rw [if_neg other]
      rfl
    simp only [TraceConfig.withFlags, same]
  | some ti =>
    -- The trace at the index is the only one of the identity.
    have traces : c.traces.modify ti (fun t => { t with enabled := enabled }) =
        c.traces.map fun t =>
          { t with enabled := if t.traceId = id then enabled else t.enabled } := by
      refine List.ext_getElem (by simp) fun i inside within => ?_
      rw [List.length_map] at within
      rw [List.getElem_modify, List.getElem_map]
      by_cases here : ti.val = i
      · subst here
        have hit : c.traces[ti.val].traceId = id := traceIndex_id lookup
        simp [hit]
      · have other : c.traces[i].traceId ≠ id := fun hit =>
          here (congrArg Fin.val (@TraceConfig.Valid.trace_inj c valid ti ⟨i, within⟩
            ((traceIndex_id lookup).trans hit.symm)))
        simp [here, other]
    simp only [TraceConfig.withFlags, traces]

/-- Flags given twice are given by the second, which sees the first. -/
theorem withFlags_withFlags (first second : TraceSession → Byte) :
    (c.withFlags first).withFlags second =
      c.withFlags fun t => second { t with enabled := first t } := by
  simp [TraceConfig.withFlags, Function.comp_def]

/-! ### Gates -/

/-- The flag a gate sets. -/
def TraceGate.flag (g : TraceGate) : Byte := if g.action = GateAction.on then 1#8 else 0#8

/-- It is a flag. -/
theorem TraceGate.flag_le (g : TraceGate) : g.flag ≤ 1#8 := by
  unfold TraceGate.flag
  split <;> decide

/-- The flag the gates of a timing give a trace: the last gate that lists it decides. -/
def TraceConfig.switched (c : TraceConfig) (e : Event) (timing : Byte) (id : Nat) : Option Byte :=
  ((c.gates.filter fun g => g.fires e timing && decide (id ∈ g.traceIds)).getLast?).map
    TraceGate.flag

/-- Setting the flags of a list of traces. -/
theorem setEnabled_all (valid : c.Valid) {enabled : Byte} (flag : enabled ≤ 1#8) (ids : List Nat) :
    ids.foldl (fun c => c.setEnabled enabled) c =
      c.withFlags fun t => if t.traceId ∈ ids then enabled else t.enabled := by
  -- By induction on the list; a trace named once is as good as named twice.
  induction ids generalizing c with
  | nil => simp
  | cons id rest ih =>
    have flags : ∀ t ∈ c.traces, (if t.traceId = id then enabled else t.enabled) ≤ 1#8 := by
      intro t member
      split
      · exact flag
      · exact (valid.traces t member).flag
    rw [List.foldl_cons, valid.setEnabled, ih (valid.withFlags flags), withFlags_withFlags]
    congr 1
    funext t
    by_cases here : t.traceId = id <;> simp [here]

/-- The effect of the gates that fire, in their order. -/
theorem applyGate_all (valid : c.Valid) (gates : List TraceGate) :
    gates.foldl TraceConfig.applyGate c =
      c.withFlags fun t =>
        (((gates.filter fun g => decide (t.traceId ∈ g.traceIds)).getLast?).map
          TraceGate.flag).getD t.enabled := by
  induction gates using List.reverseRecOn with
  | nil => simp
  | append_singleton gates g ih =>
    -- The last gate decides for the traces it lists and leaves the others.
    have flags : ∀ t ∈ c.traces,
        (((gates.filter fun g => decide (t.traceId ∈ g.traceIds)).getLast?).map
          TraceGate.flag).getD t.enabled ≤ 1#8 := by
      intro t member
      cases (gates.filter fun g => decide (t.traceId ∈ g.traceIds)).getLast? with
      | none => exact (valid.traces t member).flag
      | some last => exact last.flag_le
    rw [List.foldl_append, ih, List.foldl_cons, List.foldl_nil]
    change g.traceIds.foldl (fun c : TraceConfig => c.setEnabled g.flag) _ = _
    rw [setEnabled_all (valid.withFlags flags) g.flag_le, withFlags_withFlags]
    congr 1
    funext t
    rw [List.filter_append]
    by_cases listed : t.traceId ∈ g.traceIds <;> simp [listed]

/-- `apply_gates` sets the flags of the traces its gates list, and nothing else. -/
theorem TraceConfig.Valid.applyGates (valid : c.Valid) (e : Event) (timing : Byte) :
    c.applyGates e timing =
      c.withFlags fun t => (c.switched e timing t.traceId).getD t.enabled := by
  unfold TraceConfig.applyGates TraceConfig.switched
  rw [applyGate_all valid]
  congr 1
  funext t
  rw [List.filter_filter]
  simp [Bool.and_comm]

/-- The gates leave a configuration valid. -/
theorem TraceConfig.Valid.gated (valid : c.Valid) (e : Event) (timing : Byte) :
    (c.applyGates e timing).Valid := by
  rw [valid.applyGates]
  refine valid.withFlags fun t member => ?_
  unfold TraceConfig.switched
  cases (c.gates.filter fun g => g.fires e timing && decide (t.traceId ∈ g.traceIds)).getLast? with
  | none => exact (valid.traces t member).flag
  | some last => exact last.flag_le

/-! ### Routes -/

/-- The routes of a valid point are traces. -/
theorem RoutesValid.known {traceIds ids : List Nat} {selector : Selector}
    (valid : RoutesValid traceIds selector ids) : ∀ id ∈ ids, id ∈ traceIds := by
  rcases valid with ⟨-, rfl⟩ | ⟨-, -, known, -⟩
  · exact fun _ member => absurd member List.not_mem_nil
  · exact known

/-- The identities of traces are not zero. -/
theorem TraceConfig.Valid.id_ne_zero (valid : c.Valid) (member : id ∈ c.traceIds) : id ≠ 0 := by
  obtain ⟨t, here, rfl⟩ := List.mem_map.mp member
  exact (valid.traces t here).id

/-- Ascending identities of traces can be routed to. -/
theorem TraceConfig.Valid.routable (valid : c.Valid) {ids : List Nat}
    (known : ∀ id ∈ ids, id ∈ c.traceIds) (ascending : ids.Pairwise (· < ·)) :
    c.routable ids = true := by
  unfold TraceConfig.routable
  rw [Bool.and_eq_true, decide_eq_true_eq, List.all_eq_true]
  refine ⟨fun id member => ?_, ascending⟩
  rw [Bool.and_eq_true, bne_iff_ne, traceIndex_isSome]
  exact ⟨valid.id_ne_zero (known id member), known id member⟩

/-- A trace is selected by a point. -/
def TraceConfig.Selects (c : TraceConfig) (e : Event) (id : Nat) : Prop :=
  ∃ p ∈ c.points, p.selects e = true ∧ id ∈ p.traceIds

/-- The points route an event to the traces they select, in order. -/
theorem pointIds_spec (c : TraceConfig) (e : Event) :
    (∀ id, id ∈ c.pointIds e ↔ c.Selects e id) ∧ (c.pointIds e).Pairwise (· < ·) := by
  -- Over all points the identities are collected into one ascending list.
  have all : ∀ (points : List TracePoint) (ids : List Nat), ids.Pairwise (· < ·) →
      (∀ id, id ∈ points.foldl (fun ids p =>
          p.traceIds.foldl (fun ids id => insertRoute id ids) ids) ids ↔
        id ∈ ids ∨ ∃ p ∈ points, id ∈ p.traceIds) ∧
      (points.foldl (fun ids p =>
        p.traceIds.foldl (fun ids id => insertRoute id ids) ids) ids).Pairwise (· < ·) := by
    intro points
    induction points with
    | nil => exact fun ids ascending => ⟨by simp, ascending⟩
    | cons p rest ih =>
      intro ids ascending
      obtain ⟨members, order⟩ := ih _ (insertRoutes_ascending p.traceIds ascending)
      refine ⟨fun id => ?_, order⟩
      rw [List.foldl_cons, members, mem_insertRoutes]
      simp [or_assoc]
  obtain ⟨members, order⟩ := all (c.points.filter (·.selects e)) [] List.Pairwise.nil
  refine ⟨fun id => (members id).trans ?_, order⟩
  simp [TraceConfig.Selects, and_assoc]

end Emu80535.Debug
