import Emu80535.Proofs.Watches

/-! Watch tables as sets of watches, and what a table reports of an event. -/

namespace Emu80535.Debug

variable {w : Watch} {e : Event} {watches table : List Watch}

/-! ### Replacement -/

/-- Insertion only reorders. -/
theorem insertWatch_perm (sorted : List Watch) : (insertWatch w sorted).Perm (w :: sorted) := by
  induction sorted with
  | nil => exact .refl _
  | cons first rest ih =>
    unfold insertWatch
    split
    · exact (ih.cons first).trans (.swap w first rest)
    · exact .refl _

/-- Insertion keeps a list in order. -/
theorem insertWatch_sorted {sorted : List Watch} (ordered : sorted.Pairwise (·.id ≤ ·.id)) :
    (insertWatch w sorted).Pairwise (·.id ≤ ·.id) := by
  -- By induction on the list; ties go in front, which an order by identity allows.
  induction sorted with
  | nil => exact List.pairwise_singleton _ _
  | cons first rest ih =>
    obtain ⟨above, later⟩ := List.pairwise_cons.mp ordered
    unfold insertWatch
    split
    next below =>
      refine List.pairwise_cons.mpr ⟨fun v member => ?_, ih later⟩
      rcases (mem_insertWatch rest).mp member with rfl | old
      · exact below
      · exact above v old
    next not =>
      have below : w.id ≤ first.id := Nat.le_of_not_le not
      refine List.pairwise_cons.mpr ⟨fun v member => ?_, ordered⟩
      rcases List.mem_cons.mp member with rfl | old
      · exact below
      · exact Nat.le_trans below (above v old)

/-- The watches in the order the table keeps them in. -/
def sortWatches (watches : List Watch) : List Watch :=
  watches.foldl (fun sorted w => insertWatch w sorted) []

/-- Sorting only reorders, and leaves the watches in order. -/
theorem sortWatches_spec (watches : List Watch) :
    (sortWatches watches).Perm watches ∧ (sortWatches watches).Pairwise (·.id ≤ ·.id) := by
  -- The accumulator is in order throughout, and its watches are those taken so far.
  have general : ∀ (more sorted : List Watch), sorted.Pairwise (·.id ≤ ·.id) →
      (more.foldl (fun sorted w => insertWatch w sorted) sorted).Perm (more ++ sorted) ∧
        (more.foldl (fun sorted w => insertWatch w sorted) sorted).Pairwise (·.id ≤ ·.id) := by
    intro more
    induction more with
    | nil => exact fun sorted ordered => ⟨.refl _, ordered⟩
    | cons first rest ih =>
      intro sorted ordered
      obtain ⟨perm, final⟩ := ih _ (@insertWatch_sorted first _ ordered)
      refine ⟨perm.trans ?_, final⟩
      exact ((insertWatch_perm sorted).append_left rest).trans List.perm_middle
  obtain ⟨perm, ordered⟩ := general watches [] .nil
  rw [List.append_nil] at perm
  exact ⟨perm, ordered⟩

/-- Watches in order with different identities have ascending identities. -/
theorem ids_ascending (ordered : watches.Pairwise (·.id ≤ ·.id))
    (different : (watches.map Watch.id).Nodup) : (watches.map Watch.id).Pairwise (· < ·) := by
  have weak : (watches.map Watch.id).Pairwise (· ≤ ·) := List.pairwise_map.mpr ordered
  exact weak.imp₂ (fun _ _ le ne => Nat.lt_of_le_of_ne le ne) different

/-- What a table may be filled with. -/
structure Acceptable (watches : List Watch) : Prop where
  few : watches.length ≤ maxWatches
  valid : ∀ w ∈ watches, w.valid = true
  different : (watches.map Watch.id).Nodup

/-- The order the watches are given in does not matter to that. -/
theorem Acceptable.perm {others : List Watch} (acceptable : Acceptable watches)
    (perm : others.Perm watches) : Acceptable others where
  few := perm.length_eq ▸ acceptable.few
  valid w member := acceptable.valid w (perm.mem_iff.mp member)
  different := (perm.map Watch.id).nodup_iff.mpr acceptable.different

/-- A table is replaced when the watches are acceptable, and the reason is given otherwise. -/
theorem watchTableReplace_eq (watches : List Watch) :
    (Acceptable watches ∧ watchTableReplace watches = .ok (sortWatches watches)) ∨
      (¬Acceptable watches ∧ watchTableReplace watches = .error
        (if maxWatches < watches.length then .limit
        else if ¬watches.all Watch.valid then .invalidArgument else .duplicateId)) := by
  have perm := (sortWatches_spec watches).1.map Watch.id
  -- The three checks, of which the first that fails names the reason.
  unfold watchTableReplace
  dsimp only
  split
  next many => exact .inr ⟨fun acceptable => Nat.not_lt.mpr acceptable.few many, rfl⟩
  next few =>
    split
    next wrong =>
      exact .inr ⟨fun acceptable => wrong (List.all_eq_true.mpr acceptable.valid), rfl⟩
    next valid =>
      split
      next twice =>
        exact .inr ⟨fun acceptable => twice (perm.nodup_iff.mpr acceptable.different), rfl⟩
      next different =>
        exact .inl ⟨⟨Nat.le_of_not_lt few, List.all_eq_true.mp (not_not.mp valid),
          perm.nodup_iff.mp (not_not.mp different)⟩, rfl⟩

/-- A table that was accepted is the given watches in ascending order. -/
theorem watchTableReplace_ok (accepted : watchTableReplace watches = .ok table) :
    Acceptable watches ∧ table.Perm watches ∧ (table.map Watch.id).Pairwise (· < ·) := by
  rcases watchTableReplace_eq watches with ⟨acceptable, same⟩ | ⟨-, failed⟩
  · obtain rfl := Except.ok.inj (same.symm.trans accepted)
    obtain ⟨perm, ordered⟩ := sortWatches_spec watches
    exact ⟨acceptable, perm,
      ids_ascending ordered ((perm.map Watch.id).nodup_iff.mpr acceptable.different)⟩
  · cases failed.symm.trans accepted

/-- One set of watches makes one table. -/
theorem sortWatches_perm {others : List Watch} (different : (watches.map Watch.id).Nodup)
    (perm : others.Perm watches) : sortWatches others = sortWatches watches := by
  obtain ⟨mine, ordered⟩ := sortWatches_spec watches
  obtain ⟨theirs, sorted⟩ := sortWatches_spec others
  have same := theirs.trans (perm.trans mine.symm)
  refine List.Perm.eq_of_pairwise (fun v u isV isU below above => ?_) sorted ordered same
  -- Two watches with one identity are one watch.
  have inV : v ∈ watches := mine.mem_iff.mp (same.mem_iff.mp isV)
  have inU : u ∈ watches := mine.mem_iff.mp isU
  exact List.inj_on_of_nodup_map different inV inU (Nat.le_antisymm below above)

/-- The order the watches are given in does not matter, to the table or to the error. -/
theorem watchTableReplace_perm {others : List Watch} (perm : others.Perm watches) :
    watchTableReplace others = watchTableReplace watches := by
  -- Every check is of the watches as a set, or of how many there are.
  have valid : others.all Watch.valid = watches.all Watch.valid := by
    rw [Bool.eq_iff_iff, List.all_eq_true, List.all_eq_true]
    exact forall_congr' fun w => imp_congr_left perm.mem_iff
  rcases watchTableReplace_eq others with ⟨acceptable, theirs⟩ | ⟨not, theirs⟩
  · rcases watchTableReplace_eq watches with ⟨also, mine⟩ | ⟨never, -⟩
    · rw [theirs, mine, sortWatches_perm also.different perm]
    · exact absurd (acceptable.perm perm.symm) never
  · rcases watchTableReplace_eq watches with ⟨also, -⟩ | ⟨-, mine⟩
    · exact absurd (also.perm perm) not
    · rw [theirs, mine, perm.length_eq, valid]

/-! ### Matching -/

/-- A watch that is enabled looks where an event is, and a condition of one of its actions holds. -/
def Watch.Fires (w : Watch) (e : Event) : Prop :=
  w.enabled ≠ 0#8 ∧
    (if w.canonicalSpace ≠ 0#8 then
      e.isCanonical = true ∧ spaceNumber e.observation.space + 1 = w.canonicalSpace.toNat
    else w.addressSpace = e.addressSpace) ∧
    (w.addressFirst ≤ e.address ∧ e.address ≤ w.addressLast) ∧
    w.accessMask &&& e.access ≠ 0#8 ∧ ∃ a ∈ w.actions, a.condition.matches e = true

/-- Whether a watch fires can be computed. -/
instance : Decidable (w.Fires e) := by
  unfold Watch.Fires
  infer_instance

/-- What a result says of the watch it is of. -/
structure Reports (e : Event) (w : Watch) (result : WatchResult) : Prop where
  watchId : result.watchId = w.id
  source : result.sourceEventSequence = e.sequence
  /-- One bit for each action whose condition holds. -/
  fired : ∀ i, result.firedActionMask.getLsbD i = true ↔
    ∃ a, w.actions[i]? = some a ∧ a.condition.matches e = true
  ascending : result.traceIds.Pairwise (· < ·)
  /-- The routes are those of the ROUTE actions that fired. -/
  routes : ∀ id, id ∈ result.traceIds ↔ ∃ a ∈ w.actions,
    a.kind = WatchAction.route ∧ a.condition.matches e = true ∧ id ∈ a.traceIds
  few : result.traceIds.length ≤ maxRoutes

/-- What the actions at some indexes add to a result. -/
structure Fired (e : Event) (actions : List (Action × Nat)) (before after : WatchResult) :
    Prop where
  watchId : after.watchId = before.watchId
  source : after.sourceEventSequence = before.sourceEventSequence
  mask : ∀ i < 32, after.firedActionMask.getLsbD i = true ↔
    before.firedActionMask.getLsbD i = true ∨
      ∃ p ∈ actions, p.2 = i ∧ p.1.condition.matches e = true
  routes : ∀ id, id ∈ after.traceIds ↔ id ∈ before.traceIds ∨ ∃ p ∈ actions,
    p.1.kind = WatchAction.route ∧ p.1.condition.matches e = true ∧ id ∈ p.1.traceIds

/-- One bit more is set. -/
theorem getLsbD_setBit (mask : BitVec 32) {index i : Nat} (low : i < 32) :
    (mask ||| 1#32 <<< index).getLsbD i = true ↔ mask.getLsbD i = true ∨ index = i := by
  simp only [BitVec.getLsbD_or, BitVec.getLsbD_shiftLeft, BitVec.getLsbD_one, Bool.or_eq_true,
    Bool.and_eq_true, decide_eq_true_eq, Bool.not_eq_true']
  refine or_congr_right ⟨fun ⟨⟨_, above⟩, _, zero⟩ => ?_, fun same => ?_⟩
  · simp only [decide_eq_false_iff_not] at above
    omega
  · simp [same, low]

/-- One action. -/
theorem fired_fire {a : Action} (valid : a.valid = true) (index : Nat) (result : WatchResult) :
    Fired e [(a, index)] result (result.fire e (a, index)) := by
  have single : ∀ {P : Action × Nat → Prop}, (∃ p ∈ [(a, index)], P p) ↔ P (a, index) := by
    intro P
    simp
  unfold WatchResult.fire
  dsimp only
  -- An action whose condition fails leaves the result alone.
  by_cases holds : a.condition.matches e = true
  · have mask := fun i (low : i < 32) =>
      @getLsbD_setBit result.firedActionMask index i low
    have bit : ∀ i, (∃ p ∈ [(a, index)], p.2 = i ∧ p.1.condition.matches e = true) ↔ index = i := by
      intro i
      rw [single]
      exact and_iff_left holds
    have others : a.kind ≠ WatchAction.route → ∀ id, id ∈ result.traceIds ↔
        id ∈ result.traceIds ∨ ∃ p ∈ [(a, index)],
          p.1.kind = WatchAction.route ∧ p.1.condition.matches e = true ∧ id ∈ p.1.traceIds := by
      intro other id
      rw [single]
      exact (or_iff_left fun both => other both.1).symm
    -- One branch for each kind of action: each sets its bit, and only a route adds routes.
    rw [if_neg (by simp [holds])]
    split
    next stop =>
      exact ⟨rfl, rfl, fun i low => by rw [bit]; exact mask i low,
        others (by rw [stop]; decide)⟩
    next stop =>
      split
      next console =>
        exact ⟨rfl, rfl, fun i low => by rw [bit]; exact mask i low,
          others (by rw [console]; decide)⟩
      next console =>
        split
        next quiet =>
          exact ⟨rfl, rfl, fun i low => by rw [bit]; exact mask i low,
            others (by rw [quiet]; decide)⟩
        next quiet =>
          have route := Action.route_of_others valid ⟨stop, console, quiet⟩
          refine ⟨rfl, rfl, fun i low => by rw [bit]; exact mask i low, fun id => ?_⟩
          rw [single]
          refine (mem_insertRoutes a.traceIds _).trans (or_congr_right ?_)
          exact ⟨fun mine => ⟨route, holds, mine⟩, fun both => both.2.2⟩
  · rw [if_pos (by simpa using holds)]
    refine ⟨rfl, rfl, fun i _ => ?_, fun id => ?_⟩
    · rw [single]
      exact (or_iff_left fun both => holds both.2).symm
    · rw [single]
      exact (or_iff_left fun both => holds both.2.1).symm

/-- Some actions and then others. -/
theorem Fired.trans {early late : List (Action × Nat)} {first second third : WatchResult}
    (before : Fired e early first second) (after : Fired e late second third) :
    Fired e (early ++ late) first third where
  watchId := after.watchId.trans before.watchId
  source := after.source.trans before.source
  -- A bit of the mask, and a route, come from one half or from the other.
  mask i low := by
    rw [after.mask i low, before.mask i low, or_assoc]
    refine or_congr_right ?_
    simp only [List.mem_append, or_and_right, exists_or]
  routes id := by
    rw [after.routes id, before.routes id, or_assoc]
    refine or_congr_right ?_
    simp only [List.mem_append, or_and_right, exists_or]

/-- All actions of a watch, by induction on the list. -/
theorem fired_all {actions : List (Action × Nat)} (valid : ∀ p ∈ actions, p.1.valid = true)
    (result : WatchResult) : Fired e actions result (actions.foldl (WatchResult.fire e) result) := by
  induction actions generalizing result with
  | nil =>
    exact ⟨rfl, rfl, fun i _ => by simp, fun id => by simp⟩
  | cons p rest ih =>
    have here := @fired_fire e p.1 (valid p List.mem_cons_self) p.2 result
    exact here.trans (ih (fun q member => valid q (List.mem_cons_of_mem p member)) _)

/-- A valid watch has few actions, all of them valid. -/
theorem Watch.valid_actions (valid : w.valid = true) :
    w.actions.length ≤ maxActions ∧ ∀ a ∈ w.actions, a.valid = true := by
  simp only [Watch.valid, Bool.and_eq_true, decide_eq_true_eq, List.all_eq_true] at valid
  exact ⟨valid.1.1.2, valid.1.2⟩

/-- Any identities from the routes of a valid watch, in any order, have room in the route array. -/
theorem Watch.union_few (valid : w.valid = true) {ids : List Nat}
    (named : ∀ id ∈ ids, ∃ a ∈ w.actions, a.kind = WatchAction.route ∧ id ∈ a.traceIds) :
    (ids.foldl (fun found id => insertRoute id found) []).length ≤ maxRoutes := by
  obtain ⟨all, size, routes⟩ := Watch.few_routes valid
  -- The identities differ, so there are no more of them than routes.
  have distinct : (ids.foldl (fun found id => insertRoute id found) []).Nodup :=
    (insertRoutes_ascending ids .nil).imp Nat.ne_of_lt
  refine Nat.le_trans (List.Nodup.subperm distinct fun id listed => ?_).length_le size
  obtain ⟨a, action, route, mine⟩ :=
    named id (((mem_insertRoutes ids []).mp listed).resolve_left List.not_mem_nil)
  exact routes a action route id mine

/-- The mask of a watch tells which of its conditions hold. -/
theorem Watch.mask_spec (valid : w.valid = true) {result : WatchResult} {start : WatchResult}
    (none : start.firedActionMask = 0#32) (fired : Fired e w.actions.zipIdx start result) (i : Nat) :
    result.firedActionMask.getLsbD i = true ↔
      ∃ a, w.actions[i]? = some a ∧ a.condition.matches e = true := by
  -- The mask has room for thirty-two actions, and a watch has at most eight.
  by_cases low : i < 32
  · rw [fired.mask i low, none]
    constructor
    · rintro (zero | ⟨⟨a, index⟩, member, rfl, holds⟩)
      · simp at zero
      · exact ⟨a, List.mem_zipIdx_iff_getElem?.mp member, holds⟩
    · rintro ⟨a, here, holds⟩
      exact .inr ⟨(a, i), List.mem_zipIdx_iff_getElem?.mpr here, rfl, holds⟩
  · refine iff_of_false ?_ ?_
    · rw [BitVec.getLsbD_of_ge _ _ (Nat.le_of_not_lt low)]
      exact Bool.false_ne_true
    · rintro ⟨a, here, -⟩
      have few : w.actions.length ≤ 8 := (Watch.valid_actions valid).1
      have inside := (List.getElem?_eq_some_iff.mp here).1
      omega

/-- A watch with an action that fires reports it, and one without reports nothing. -/
theorem Watch.result_cases (valid : w.valid = true) (e : Event) :
    ((∃ a ∈ w.actions, a.condition.matches e = true) ∧
        ∃ result, w.result e = some result ∧ Reports e w result) ∨
      ((¬∃ a ∈ w.actions, a.condition.matches e = true) ∧ w.result e = none) := by
  have fired := @fired_all e w.actions.zipIdx
    (fun p member => (Watch.valid_actions valid).2 p.1 (List.fst_mem_of_mem_zipIdx member))
    { watchId := w.id, sourceEventSequence := e.sequence }
  have ascending : (w.actions.zipIdx.foldl (WatchResult.fire e)
      { watchId := w.id, sourceEventSequence := e.sequence }).firedActionMask ≠ 0#32 →
      ∀ result, w.result e = some result → ResultSound w e result :=
    fun _ result made => Watch.result_sound valid made
  unfold Watch.result at ascending ⊢
  dsimp only at ascending ⊢
  generalize w.actions.zipIdx.foldl (WatchResult.fire e) _ = result at fired ascending ⊢
  have mask := Watch.mask_spec valid rfl fired
  have some_iff : result.firedActionMask ≠ 0#32 ↔
      ∃ a ∈ w.actions, a.condition.matches e = true := by
    constructor
    · intro some
      by_contra never
      refine some (BitVec.eq_of_getLsbD_eq fun i _ => ?_)
      rw [BitVec.getLsbD_zero, Bool.eq_false_iff]
      intro set
      obtain ⟨a, here, holds⟩ := (mask i).mp set
      exact never ⟨a, List.mem_of_getElem? here, holds⟩
    · rintro ⟨a, member, holds⟩ zero
      obtain ⟨i, here⟩ := List.mem_iff_getElem?.mp member
      have set := (mask i).mpr ⟨a, here, holds⟩
      rw [zero, BitVec.getLsbD_zero] at set
      exact Bool.false_ne_true set
  by_cases zero : result.firedActionMask = 0#32
  · exact .inr ⟨fun some => some_iff.mpr some zero, if_pos zero⟩
  · refine .inl ⟨some_iff.mp zero, _, if_neg zero, ?_⟩
    have sound := ascending zero _ (if_neg zero)
    refine ⟨fired.watchId, fired.source, mask, sound.ascending, fun id => ?_, ?_⟩
    · refine (fired.routes id).trans ((or_iff_right List.not_mem_nil).trans ⟨?_, ?_⟩)
      · rintro ⟨p, member, mine⟩
        exact ⟨p.1, List.fst_mem_of_mem_zipIdx member, mine⟩
      · rintro ⟨a, member, mine⟩
        obtain ⟨i, here⟩ := List.mem_iff_getElem?.mp member
        exact ⟨(a, i), List.mem_zipIdx_iff_getElem?.mpr here, mine⟩
    · -- The identities are distinct and among the routes of the watch.
      obtain ⟨all, size, routes⟩ := Watch.few_routes valid
      refine Nat.le_trans (List.Nodup.subperm (sound.ascending.imp Nat.ne_of_lt)
        fun id listed => ?_).length_le size
      obtain ⟨a, action, route, mine⟩ := sound.named id listed
      exact routes a action route id mine

/-- The place and the access of an event, as the claim of a watch on it. -/
theorem Watch.fires_iff : w.Fires e ↔
    w.covers e = true ∧ ∃ a ∈ w.actions, a.condition.matches e = true := by
  unfold Watch.Fires Watch.covers
  simp only [Bool.and_eq_true, bne_iff_ne, decide_eq_true_eq, and_assoc]
  refine and_congr_right fun _ => and_congr ?_ Iff.rfl
  split
  next => simp [Event.inCanonicalSpace]
  next => exact beq_iff_eq.symm

/-- The results of an event are those of the watches that fire, in the order of the table. -/
theorem watchTableMatch_reports (valid : ∀ w ∈ table, w.valid = true)
    (watchable : e.watchable = true) :
    List.Forall₂ (Reports e) (table.filter (·.Fires e)) (watchTableMatch table e) := by
  unfold watchTableMatch
  rw [if_pos watchable]
  -- By induction on the table: a watch covers the event and fires, or reports nothing.
  induction table with
  | nil => exact .nil
  | cons w rest ih =>
    have later := ih fun v member => valid v (List.mem_cons_of_mem w member)
    by_cases covers : w.covers e = true
    · rw [List.filter_cons_of_pos (p := fun v : Watch => v.covers e) covers]
      rcases Watch.result_cases (valid w List.mem_cons_self) e with
        ⟨some, result, made, reports⟩ | ⟨never, none⟩
      · have fires := Watch.fires_iff.mpr ⟨covers, some⟩
        rw [List.filter_cons_of_pos (by simpa using fires),
          List.filterMap_cons_some (f := fun v : Watch => v.result e) made]
        exact .cons reports later
      · have not : ¬w.Fires e := fun fires => never (Watch.fires_iff.mp fires).2
        rw [List.filter_cons_of_neg (by simpa using not),
          List.filterMap_cons_none (f := fun v : Watch => v.result e) none]
        exact later
    · have not : ¬w.Fires e := fun fires => covers (Watch.fires_iff.mp fires).1
      rw [List.filter_cons_of_neg (p := fun v : Watch => v.covers e) covers,
        List.filter_cons_of_neg (by simpa using not)]
      exact later

/-- What holds of a watch table, from its replacement to its results. -/
structure TableLaw (watches : List Watch) : Prop where
  /-- Only invalid watches, too many of them and an identity used twice are refused. -/
  accepted : (∃ table, watchTableReplace watches = .ok table) ↔
    watches.length ≤ maxWatches ∧ (∀ w ∈ watches, w.valid = true) ∧
      (watches.map Watch.id).Nodup
  /-- The table holds the given watches, sorted. -/
  stored : ∀ table, watchTableReplace watches = .ok table →
    table.Perm watches ∧ (table.map Watch.id).Pairwise (· < ·)
  /-- Table or error, the order of the watches does not matter. -/
  unordered : ∀ others, others.Perm watches → watchTableReplace others = watchTableReplace watches
  /-- The watches that fire are reported, and no others, in ascending order. -/
  matched : ∀ table, watchTableReplace watches = .ok table → ∀ e, e.watchable = true →
    List.Forall₂ (Reports e) (table.filter (·.Fires e)) (watchTableMatch table e) ∧
      ((watchTableMatch table e).map WatchResult.watchId).Pairwise (· < ·)
  /-- Derived events and canonical ones that are no successful access are not matched. -/
  unasked : ∀ table e, e.watchable = false → watchTableMatch table e = []
  /-- Whatever combination of actions fires, their routes fit the array at every moment. -/
  bounded : ∀ table, watchTableReplace watches = .ok table → ∀ w ∈ table, ∀ ids : List Nat,
    (∀ id ∈ ids, ∃ a ∈ w.actions, a.kind = WatchAction.route ∧ id ∈ a.traceIds) →
    (ids.foldl (fun found id => insertRoute id found) []).length ≤ maxRoutes

/-- Watch tables keep the law, whatever they are given. -/
theorem watch_table_law (watches : List Watch) : TableLaw watches where
  accepted := by
    rcases watchTableReplace_eq watches with ⟨acceptable, same⟩ | ⟨not, failed⟩
    · exact iff_of_true ⟨_, same⟩ ⟨acceptable.few, acceptable.valid, acceptable.different⟩
    · refine iff_of_false ?_ fun ⟨few, valid, different⟩ => not ⟨few, valid, different⟩
      rintro ⟨table, accepted⟩
      cases failed.symm.trans accepted
  stored table accepted := (watchTableReplace_ok accepted).2
  unordered others perm := watchTableReplace_perm perm
  matched table accepted e watchable := by
    obtain ⟨-, -, ascending⟩ := watchTableReplace_ok accepted
    have reports := @watchTableMatch_reports e table (watchTableReplace_valid accepted) watchable
    refine ⟨reports, ?_⟩
    -- The results bear the identities of the watches that fire, which the table has in order.
    have names : (watchTableMatch table e).map WatchResult.watchId =
        (table.filter (·.Fires e)).map Watch.id := by
      generalize table.filter (·.Fires e) = fires at reports
      generalize watchTableMatch table e = results at reports
      induction reports with
      | nil => rfl
      | cons first _ ih => rw [List.map_cons, List.map_cons, ih, first.watchId]
    rw [names]
    exact ascending.sublist (List.filter_sublist.map Watch.id)
  unasked table e not := if_neg (by rw [not]; exact Bool.false_ne_true)
  bounded table accepted w member ids named :=
    Watch.union_few (watchTableReplace_valid accepted w member) named

/-- A watch on all of code that stops. -/
def stopWatch : Watch where
  actions := [{ kind := WatchAction.stop }]
  id := 1
  addressFirst := 0#16
  addressLast := 0xFFFF#16
  enabled := 1#8
  addressSpace := AddressSpace.code
  accessMask := allAccess

/-- A derived event of a place in code. -/
def derivedEvent : Event where
  kind := EventKind.watchMatch
  addressSpace := AddressSpace.code
  access := allAccess

/-- A derived event where a watch looks is not reported, though the watch would fire. -/
theorem derived_not_matched : watchTableReplace [stopWatch] = .ok [stopWatch] ∧
    [stopWatch].filter (·.Fires derivedEvent) = [stopWatch] ∧
    watchTableMatch [stopWatch] derivedEvent = [] := by
  refine ⟨?_, ?_, ?_⟩ <;> decide +kernel

end Emu80535.Debug
