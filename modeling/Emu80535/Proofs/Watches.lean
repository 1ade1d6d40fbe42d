import Emu80535.Debug.Runtime
import Emu80535.Proofs.TraceConfig
import Mathlib.Data.List.Perm.Subperm

/-! Watch tables: what a table may hold, and what its results may name. -/

namespace Emu80535.Debug

variable {w : Watch} {e : Event} {c : TraceConfig} {watches : List Watch} {id : Nat}

/-! ### Tables -/

/-- A watch that is inserted is in the list. -/
theorem mem_insertWatch {v : Watch} (sorted : List Watch) :
    v ∈ insertWatch w sorted ↔ v = w ∨ v ∈ sorted := by
  -- By induction on the sorted list the watch is put into.
  induction sorted with
  | nil => simp [insertWatch]
  | cons first rest ih =>
    unfold insertWatch
    split
    · rw [List.mem_cons, ih, List.mem_cons]
      exact or_left_comm
    · rw [List.mem_cons]

/-- A table holds valid watches. -/
theorem watchTableReplace_valid {table : List Watch}
    (accepted : watchTableReplace watches = .ok table) : ∀ v ∈ table, v.valid = true := by
  -- The insertions lose nothing and add nothing but the watches given.
  have members : ∀ (more sorted : List Watch) (v : Watch),
      v ∈ more.foldl (fun sorted w => insertWatch w sorted) sorted → v ∈ sorted ∨ v ∈ more := by
    intro more
    induction more with
    | nil => exact fun sorted v member => .inl member
    | cons w rest ih =>
      intro sorted v member
      rcases ih _ v member with early | late
      · rcases (mem_insertWatch sorted).mp early with rfl | before
        · exact .inr List.mem_cons_self
        · exact .inl before
      · exact .inr (List.mem_cons_of_mem w late)
  -- Too many, one that is invalid, and a repeated identity are refused in this order.
  unfold watchTableReplace at accepted
  dsimp only at accepted
  split at accepted
  next => cases accepted
  next =>
    split at accepted
    next => cases accepted
    next valid =>
      split at accepted
      next => cases accepted
      next =>
        obtain rfl := Except.ok.inj accepted
        intro v member
        have origin := (members watches [] v member).resolve_left List.not_mem_nil
        exact List.all_eq_true.mp (not_not.mp valid) v origin

/-- The routes of the watches name traces. -/
def RoutesKnown (watches : List Watch) (traceIds : List Nat) : Prop :=
  ∀ w ∈ watches, ∀ a ∈ w.actions, a.kind = WatchAction.route → ∀ id ∈ a.traceIds, id ∈ traceIds

/-- `watch_routes_valid` says what it is for. -/
theorem watchRoutesValid_iff : watchRoutesValid watches c = true ↔ RoutesKnown watches c.traceIds := by
  unfold watchRoutesValid RoutesKnown
  -- The check is over the route actions of every watch, and over their identities.
  rw [List.all_eq_true]
  refine forall₂_congr fun w _ => ?_
  rw [List.all_eq_true]
  refine forall₂_congr fun a _ => ?_
  rw [Bool.or_eq_true, bne_iff_ne, List.all_eq_true]
  constructor
  · intro checked route id member
    exact traceIndex_isSome.mp (checked.resolve_left (not_not.mpr route) id member)
  · intro known
    by_cases route : a.kind = WatchAction.route
    · exact .inr fun id member => traceIndex_isSome.mpr (known route id member)
    · exact .inl route

/-! ### Routes of a watch -/

/-- An error among the routes stays. -/
theorem collect_none (ids : List Nat) : ids.foldl collectRoute none = none := by
  induction ids with
  | nil => rfl
  | cons id rest ih => exact ih

/-- Collected routes are those before and the new ones, and not too many. -/
theorem collect_spec {ids found all : List Nat}
    (collected : ids.foldl collectRoute (some found) = some all) (few : found.length ≤ maxRoutes) :
    (∀ id ∈ found, id ∈ all) ∧ (∀ id ∈ ids, id ∈ all) ∧ all.length ≤ maxRoutes := by
  -- By induction on the identities: known ones are passed over, and a full list fails.
  induction ids generalizing found with
  | nil =>
    obtain rfl := Option.some.inj collected
    exact ⟨fun _ member => member, fun _ member => absurd member List.not_mem_nil, few⟩
  | cons id rest ih =>
    rw [List.foldl_cons] at collected
    by_cases known : id ∈ found
    · have step : collectRoute (some found) id = some found := if_pos known
      rw [step] at collected
      obtain ⟨before, after, size⟩ := ih collected few
      exact ⟨before, List.forall_mem_cons.mpr ⟨before id known, after⟩, size⟩
    · by_cases full : found.length = maxRoutes
      · have step : collectRoute (some found) id = none := by simp [collectRoute, known, full]
        rw [step, collect_none] at collected
        cases collected
      · have step : collectRoute (some found) id = some (found ++ [id]) := by
          simp [collectRoute, known, full]
        rw [step] at collected
        have longer : (found ++ [id]).length ≤ maxRoutes := by
          rw [List.length_append, List.length_singleton]
          omega
        obtain ⟨before, after, size⟩ := ih collected longer
        refine ⟨fun other member => before other (List.mem_append_left _ member),
          List.forall_mem_cons.mpr ⟨?_, after⟩, size⟩
        exact before id (List.mem_append_right _ (List.mem_singleton.mpr rfl))

/-- A watch that is valid routes to few traces. -/
theorem Watch.few_routes (valid : w.valid = true) :
    ∃ all : List Nat, all.length ≤ maxRoutes ∧
      ∀ a ∈ w.actions, a.kind = WatchAction.route → ∀ id ∈ a.traceIds, id ∈ all := by
  have some : w.routes.isSome = true := by
    simp only [Watch.valid, Bool.and_eq_true] at valid
    exact valid.2
  obtain ⟨all, collected⟩ := Option.isSome_iff_exists.mp some
  -- The accumulated list over all actions; a list that has failed once stays failed.
  have each : ∀ (actions : List Action) (found : List Nat), found.length ≤ maxRoutes →
      actions.foldl (fun routes a => a.traceIds.foldl collectRoute routes) (.some found) =
        .some all →
      all.length ≤ maxRoutes ∧ (∀ id ∈ found, id ∈ all) ∧
        ∀ a ∈ actions, ∀ id ∈ a.traceIds, id ∈ all := by
    intro actions
    induction actions with
    | nil =>
      intro found few done
      obtain rfl := Option.some.inj done
      exact ⟨few, fun _ member => member, fun _ member => absurd member List.not_mem_nil⟩
    | cons a rest ih =>
      intro found few done
      rw [List.foldl_cons] at done
      cases step : a.traceIds.foldl collectRoute (.some found) with
      | none =>
        have stuck : rest.foldl (fun routes a => a.traceIds.foldl collectRoute routes)
            (none : Option (List Nat)) = none := by
          clear ih done step
          induction rest with
          | nil => rfl
          | cons b rest more =>
            rw [List.foldl_cons, collect_none]
            exact more
        rw [step, stuck] at done
        cases done
      | some more =>
        rw [step] at done
        obtain ⟨before, mine, size⟩ := collect_spec step few
        obtain ⟨final, kept, others⟩ := ih more size done
        exact ⟨final, fun id member => kept id (before id member),
          List.forall_mem_cons.mpr ⟨fun id member => kept id (mine id member), others⟩⟩
  obtain ⟨few, -, routes⟩ := each _ [] (Nat.zero_le _) collected
  refine ⟨all, few, fun a member route => ?_⟩
  exact routes a (List.mem_filter.mpr ⟨member, beq_iff_eq.mpr route⟩)

/-! ### Results -/

/-- What a result of a watch names. -/
structure ResultSound (w : Watch) (e : Event) (result : WatchResult) : Prop where
  source : result.sourceEventSequence = e.sequence
  ascending : result.traceIds.Pairwise (· < ·)
  named : ∀ id ∈ result.traceIds, ∃ a ∈ w.actions, a.kind = WatchAction.route ∧ id ∈ a.traceIds

/-- An action that is valid and none of the others is a route. -/
theorem Action.route_of_others {a : Action} (valid : a.valid = true)
    (others : a.kind ≠ WatchAction.stop ∧ a.kind ≠ WatchAction.console ∧
      a.kind ≠ WatchAction.quiet) : a.kind = WatchAction.route := by
  have kinds : a.kind ≤ WatchAction.route := by
    simp only [Action.valid, Bool.and_eq_true, decide_eq_true_eq] at valid
    exact valid.1.1.1.2
  obtain ⟨stop, console, quiet⟩ := others
  bv_omega

/-- One action of a watch. -/
theorem ResultSound.fire {result : WatchResult} (sound : ResultSound w e result) {a : Action}
    (member : a ∈ w.actions) (valid : a.valid = true) (index : Nat) :
    ResultSound w e (result.fire e (a, index)) := by
  -- Only the last branch adds routes, and there the action is a route one.
  unfold WatchResult.fire
  dsimp only
  split
  next => exact sound
  next =>
    split
    next => exact ⟨sound.source, sound.ascending, sound.named⟩
    next stop =>
      split
      next => exact ⟨sound.source, sound.ascending, sound.named⟩
      next console =>
        split
        next => exact ⟨sound.source, sound.ascending, sound.named⟩
        next quiet =>
          have route := Action.route_of_others valid ⟨stop, console, quiet⟩
          refine ⟨sound.source, insertRoutes_ascending _ sound.ascending, fun id joined => ?_⟩
          rcases (mem_insertRoutes a.traceIds _).mp joined with before | mine
          · exact sound.named id before
          · exact ⟨a, member, route, mine⟩

/-- The result of a watch names its routes. -/
theorem Watch.result_sound (valid : w.valid = true) {result : WatchResult}
    (made : w.result e = some result) : ResultSound w e result := by
  have actions : ∀ a ∈ w.actions, a.valid = true := by
    simp only [Watch.valid, Bool.and_eq_true] at valid
    exact List.all_eq_true.mp valid.1.2
  -- By induction on the actions, each of them keeping the result sound.
  have all : ∀ (indexed : List (Action × Nat)) (start : WatchResult),
      (∀ p ∈ indexed, p.1 ∈ w.actions) → ResultSound w e start →
      ResultSound w e (indexed.foldl (WatchResult.fire e) start) := by
    intro indexed
    induction indexed with
    | nil => exact fun _ _ sound => sound
    | cons p rest ih =>
      intro start members sound
      have here := members p List.mem_cons_self
      exact ih _ (fun q member => members q (List.mem_cons_of_mem p member))
        (sound.fire here (actions p.1 here) p.2)
  have start : ResultSound w e { watchId := w.id, sourceEventSequence := e.sequence } :=
    ⟨rfl, List.Pairwise.nil, fun _ member => absurd member List.not_mem_nil⟩
  have final := all w.actions.zipIdx _ (fun p member => List.fst_mem_of_mem_zipIdx member) start
  unfold Watch.result at made
  dsimp only at made
  split at made
  next => cases made
  next =>
    obtain rfl := Option.some.inj made
    exact ⟨final.source, final.ascending, final.named⟩

/-- A result that can be routed: few traces, in order, all of them known. -/
structure ResultRoutable (c : TraceConfig) (e : Event) (result : WatchResult) : Prop where
  source : result.sourceEventSequence = e.sequence
  few : result.traceIds.length ≤ maxRoutes
  ascending : result.traceIds.Pairwise (· < ·)
  known : ∀ id ∈ result.traceIds, id ∈ c.traceIds

/-- Every result of a table whose routes are known can be routed. -/
theorem watchTableMatch_routable (valid : ∀ w ∈ watches, w.valid = true)
    (known : RoutesKnown watches c.traceIds) :
    ∀ result ∈ watchTableMatch watches e, ResultRoutable c e result := by
  intro result member
  unfold watchTableMatch at member
  split at member
  next =>
    obtain ⟨w, here, made⟩ := List.mem_filterMap.mp member
    have among := (List.mem_filter.mp here).1
    have sound := Watch.result_sound (valid w among) made
    obtain ⟨all, size, routes⟩ := Watch.few_routes (valid w among)
    refine ⟨sound.source, ?_, sound.ascending, fun id listed => ?_⟩
    · -- The identities are distinct and among the routes of the watch.
      have distinct : result.traceIds.Nodup := sound.ascending.imp Nat.ne_of_lt
      refine Nat.le_trans (List.Nodup.subperm distinct fun id listed => ?_).length_le size
      obtain ⟨a, action, route, mine⟩ := sound.named id listed
      exact routes a action route id mine
    · obtain ⟨a, action, route, mine⟩ := sound.named id listed
      exact known w among a action route id mine
  next => exact absurd member List.not_mem_nil

/-- No watch looks at an event without a place. -/
theorem watchTableMatch_nowhere (valid : ∀ w ∈ watches, w.valid = true)
    (legacy : e.isCanonical = false) (nowhere : e.addressSpace = AddressSpace.none) :
    watchTableMatch watches e = [] := by
  -- The place of a watch is never the empty one, so it covers no event without a place.
  have uncovered : watches.filter (·.covers e) = [] := by
    refine List.filter_eq_nil_iff.mpr fun w member covers => ?_
    have placed : w.addressSpace ≠ AddressSpace.none := by
      have sound := valid w member
      simp only [Watch.valid, Bool.and_eq_true, bne_iff_ne] at sound
      exact sound.1.1.1.1.1.1.1.1.2
    simp only [Watch.covers, Bool.and_eq_true] at covers
    have space := covers.1.1.1.2
    split at space
    next => simp [Event.inCanonicalSpace, legacy] at space
    next => exact placed ((beq_iff_eq.mp space).trans nowhere)
  unfold watchTableMatch
  rw [uncovered]
  split <;> rfl

end Emu80535.Debug
