import Emu80535.Lib.Batches
import Emu80535.Proofs.TraceConfig

/-! What the routing of one event means for each trace. -/

namespace Emu80535.Debug

open Batches

variable {ω : Type} {hooks : Delivery ω} {s : Routing ω} {e : Event} {u id : Nat}

/-! ### Accounts -/

/-- What an act means for a trace: an item is the sequence number of an event. -/
def Act.about (u : Nat) : Act → Option (Batches.Entry Nat)
  | .asked id e answer => if id = u ∧ answer = true then some (.offered e.sequence) else none
  | .suppressed id e => if id = u then some (.held e.sequence) else none
  | .emitted r =>
    if u ∈ r.traceIds then
      match r.kind with
      | .event => some (.passed r.event.sequence)
      | .suppression =>
        let v := r.suppression
        some (.summary v.firstSequence v.lastSequence v.count)
    else none

/-- The account of a trace: the events it was offered, and what became of them. -/
def account (u : Nat) (acts : List Act) : List (Batches.Entry Nat) := acts.filterMap (Act.about u)

/-- Acts that follow one another. -/
@[simp] theorem account_append (acts more : List Act) :
    account u (acts ++ more) = account u acts ++ account u more := List.filterMap_append

/-- The trace an act asks. -/
def Act.askedId : Act → Option Nat
  | .asked id _ _ => some id
  | _ => none

/-- The traces that are asked. -/
def askedIds (acts : List Act) : List Nat := acts.filterMap Act.askedId

/-- Acts that follow one another. -/
@[simp] theorem askedIds_append (acts more : List Act) :
    askedIds (acts ++ more) = askedIds acts ++ askedIds more := List.filterMap_append

/-- The event record an act emits. -/
def Act.eventRecord : Act → Option RoutedRecord
  | .emitted r => if r.kind = .event then some r else none
  | _ => none

/-- The event records that are emitted. -/
def eventRecords (acts : List Act) : List RoutedRecord := acts.filterMap Act.eventRecord

/-- Acts that follow one another. -/
@[simp] theorem eventRecords_append (acts more : List Act) :
    eventRecords (acts ++ more) = eventRecords acts ++ eventRecords more := List.filterMap_append

/-- The batch an active suppression stands for. -/
def Suppression.batch (v : Suppression) : Batch Nat := ⟨v.firstSequence, v.lastSequence, v.count⟩

/-- The suppression of a trace. -/
def Router.suppressionOf (r : Router) (u : Nat) : Option Suppression :=
  (r.config.traceIds.findIdx? (· == u)).bind r.suppression

/-- A trace that is found has its place among the identities. -/
theorem findIdx_of_traceIndex {c : TraceConfig} {ti : Fin c.traces.length}
    (found : c.traceIndex id = some ti) : c.traceIds.findIdx? (· == id) = some ti.val := by
  have place : c.traces.findIdx? (·.traceId == id) = some ti.val := by
    rw [List.findIdx?_eq_map_findFinIdx?_val]
    exact congrArg (Option.map Fin.val) found
  rw [TraceConfig.traceIds, List.findIdx?_map]
  exact place

/-- The suppression of the trace at an index. -/
theorem Router.suppressionOf_index {r : Router} {ti : Fin r.config.traces.length}
    (found : r.config.traceIndex id = some ti) : r.suppressionOf id = r.suppression ti := by
  rw [Router.suppressionOf, findIdx_of_traceIndex found]
  rfl

/-- A suppression state that changes is that of the trace at its index. -/
theorem suppressionOf_update {r : Router} (valid : r.config.Valid)
    (ti : Fin r.config.traces.length) (v : Option Suppression) :
    Router.suppressionOf { r with suppression := Function.update r.suppression ti v } u =
      if u = (r.config.traces.get ti).traceId then v else r.suppressionOf u := by
  -- The state is found by the place of the trace, and a valid configuration names it once.
  by_cases here : u = (r.config.traces.get ti).traceId
  · rw [if_pos here, here, Router.suppressionOf,
      findIdx_of_traceIndex (valid.traceIndex_self ti)]
    exact Function.update_self ..
  · rw [if_neg here]
    unfold Router.suppressionOf
    cases place : r.config.traceIds.findIdx? (· == u) with
    | none => rfl
    | some j =>
      obtain ⟨inside, hit, -⟩ := List.findIdx?_eq_some_iff_getElem.mp place
      have apart : j ≠ ti.val := by
        intro same
        subst same
        have found : (r.config.traces.get ti).traceId = u := by
          simpa [TraceConfig.traceIds] using hit
        exact here found.symm
      exact Function.update_of_ne apart _ _

/-! ### The steps of the loop -/

/-- The router with other rings and suppressions. -/
def Router.AlikeBut (r r' : Router) : Prop :=
  ∃ rings suppression, r' = { r with rings := rings, suppression := suppression }

/-- Nothing happened to a router. -/
theorem Router.AlikeBut.refl (r : Router) : r.AlikeBut r := ⟨r.rings, r.suppression, rfl⟩

/-- What two steps leave alike, both of them leave alike. -/
theorem Router.AlikeBut.trans {r r' r'' : Router} (first : r.AlikeBut r')
    (second : r'.AlikeBut r'') : r.AlikeBut r'' := by
  obtain ⟨_, _, rfl⟩ := first
  obtain ⟨rings, suppression, rfl⟩ := second
  exact ⟨rings, suppression, rfl⟩

/-- The configuration is among what stays. -/
theorem Router.AlikeBut.config {r r' : Router} (alike : r.AlikeBut r') : r'.config = r.config := by
  obtain ⟨_, _, rfl⟩ := alike
  rfl

/-- A state with the acts that led to it. -/
structure After (s : Routing ω) (acts : List Act) (s' : Routing ω) : Prop where
  router : s.router.AlikeBut s'.router
  history : s'.history = s.history ++ acts

/-- Nothing happened. -/
theorem After.refl (s : Routing ω) : After s [] s := ⟨.refl _, (List.append_nil _).symm⟩

/-- Two stretches of a routing are one, with their acts in order. -/
theorem After.trans {s' s'' : Routing ω} {acts more : List Act} (first : After s acts s')
    (second : After s' more s'') : After s (acts ++ more) s'' := by
  refine ⟨first.router.trans second.router, ?_⟩
  rw [second.history, first.history, List.append_assoc]

/-- A trace is asked. -/
theorem after_asked (hooks : Delivery ω) (s : Routing ω) (id : Nat) (e : Event) :
    After s [.asked id e (s.answer hooks id e)] (s.asked hooks id e) := ⟨.refl _, rfl⟩

/-- An event is suppressed. -/
theorem after_add (s : Routing ω) (ti : Fin s.router.config.traces.length) (e : Event) :
    After s [.suppressed (s.router.config.traces.get ti).traceId e] (s.suppressionAdd ti e) :=
  ⟨⟨_, _, rfl⟩, rfl⟩

/-- A record is emitted. -/
theorem after_emit (hooks : Delivery ω) (s : Routing ω) (di : Nat) (record : RoutedRecord) :
    After s [.emitted record] (s.emit hooks di record) := ⟨⟨_, _, rfl⟩, rfl⟩

/-- Emission leaves the suppressions. -/
@[simp] theorem suppressionOf_emit (di : Nat) (record : RoutedRecord) :
    (s.emit hooks di record).router.suppressionOf u = s.router.suppressionOf u := rfl

/-- The acts of `suppression_emit`. -/
def releaseActs (t : TraceSession) (v : Option Suppression) : List Act :=
  v.toList.map fun v => .emitted (t.summary v)

/-- The summary tells the trace of its batch. -/
theorem account_release (t : TraceSession) (v : Option Suppression) :
    account u (releaseActs t v) =
      if u = t.traceId then told (v.map Suppression.batch) else [] := by
  cases v with
  | none => simp [releaseActs, account, told]
  | some v =>
    by_cases here : u = t.traceId <;>
      simp [releaseActs, account, Act.about, TraceSession.summary, told, Suppression.batch, here]

/-- The acts of a trace whose event is suppressed. -/
def heldActs (t : TraceSession) (e : Event) : List Act :=
  [.asked t.traceId e true, .suppressed t.traceId e]

/-- The trace is asked. -/
theorem askedIds_held (t : TraceSession) (e : Event) : askedIds (heldActs t e) = [t.traceId] := rfl

/-- The event is offered to the trace and held. -/
theorem account_held (t : TraceSession) (e : Event) :
    account u (heldActs t e) =
      if u = t.traceId then [.offered e.sequence, .held e.sequence] else [] := by
  by_cases here : u = t.traceId
  · simp [heldActs, account, Act.about, here]
  · simp [heldActs, account, Act.about, here, Ne.symm here]

/-- The acts of a trace that accepts the event, before its record is emitted. -/
def listedActs (t : TraceSession) (e : Event) (v : Option Suppression) : List Act :=
  .asked t.traceId e true :: releaseActs t v

/-- The trace is asked. -/
theorem askedIds_listed (t : TraceSession) (e : Event) (v : Option Suppression) :
    askedIds (listedActs t e v) = [t.traceId] := by
  cases v <;> rfl

/-- No event record is emitted yet. -/
theorem eventRecords_listed (t : TraceSession) (e : Event) (v : Option Suppression) :
    eventRecords (listedActs t e v) = [] := by
  cases v <;> rfl

/-- The event is offered to the trace, and what it held is told of. -/
theorem account_listed (t : TraceSession) (e : Event) (v : Option Suppression) :
    account u (listedActs t e v) =
      if u = t.traceId then .offered e.sequence :: told (v.map Suppression.batch) else [] := by
  have parts : account u (listedActs t e v) =
      account u [.asked t.traceId e true] ++ account u (releaseActs t v) := account_append [_] _
  rw [parts, account_release]
  by_cases here : u = t.traceId
  · simp [account, Act.about, here]
  · simp [account, Act.about, here, Ne.symm here]

/-- A suppression is emitted. -/
theorem after_suppressionEmit (valid : s.router.config.Valid)
    (ti : Fin s.router.config.traces.length) :
    After s (releaseActs (s.router.config.traces.get ti) (s.router.suppression ti))
      (s.suppressionEmit hooks ti) ∧
    ∀ u, (s.suppressionEmit hooks ti).router.suppressionOf u =
      if u = (s.router.config.traces.get ti).traceId then none else s.router.suppressionOf u := by
  have placed := (valid.traces _ (List.getElem_mem ti.isLt)).placed
  obtain ⟨di, home⟩ := Option.isSome_iff_exists.mp (destinationIndex_isSome.mpr placed)
  change s.router.config.destinationIndex (s.router.config.traces.get ti).destinationId =
    some di at home
  unfold Routing.suppressionEmit
  simp only [home]
  -- Without an active suppression there is nothing to emit and nothing to clear.
  cases active : s.router.suppression ti with
  | none =>
    refine ⟨.refl s, fun u => ?_⟩
    by_cases here : u = (s.router.config.traces.get ti).traceId
    · rw [if_pos here, here, Router.suppressionOf_index (valid.traceIndex_self ti), active]
    · rw [if_neg here]
  | some v => exact ⟨⟨⟨_, _, rfl⟩, rfl⟩, fun u => suppressionOf_update valid ti none⟩

/-- A trace is asked, answers yes and has the event suppressed. -/
theorem after_hold (valid : s.router.config.Valid) {ti : Fin s.router.config.traces.length}
    (yes : s.answer hooks (s.router.config.traces.get ti).traceId e = true) :
    After s (heldActs (s.router.config.traces.get ti) e)
      ((s.asked hooks (s.router.config.traces.get ti).traceId e).suppressionAdd ti e) ∧
    ∀ u, ((s.asked hooks (s.router.config.traces.get ti).traceId e).suppressionAdd
        ti e).router.suppressionOf u =
      if u = (s.router.config.traces.get ti).traceId then
        some (((s.router.suppressionOf u).getD
          ((s.router.config.traces.get ti).suppression e s.router.interruptDepth)).grow e
            s.router.interruptDepth)
      else s.router.suppressionOf u := by
  have asking := after_asked hooks s (s.router.config.traces.get ti).traceId e
  rw [yes] at asking
  refine ⟨asking.trans (after_add (s.asked hooks _ e) ti e), fun u => ?_⟩
  refine (@suppressionOf_update u s.router valid ti _).trans ?_
  -- The answer changes no suppression, so the state grown is the one from before it.
  by_cases here : u = (s.router.config.traces.get ti).traceId
  · rw [if_pos here, if_pos here, here, Router.suppressionOf_index (valid.traceIndex_self ti)]
    rfl
  · rw [if_neg here, if_neg here]

/-- A trace is asked, answers yes and has its suppression emitted. -/
theorem after_list (valid : s.router.config.Valid) {ti : Fin s.router.config.traces.length}
    (yes : s.answer hooks (s.router.config.traces.get ti).traceId e = true) :
    After s (listedActs (s.router.config.traces.get ti) e (s.router.suppression ti))
      ((s.asked hooks (s.router.config.traces.get ti).traceId e).suppressionEmit hooks ti) ∧
    ∀ u, ((s.asked hooks (s.router.config.traces.get ti).traceId e).suppressionEmit
        hooks ti).router.suppressionOf u =
      if u = (s.router.config.traces.get ti).traceId then none else s.router.suppressionOf u := by
  -- The answer emits nothing, so the suppression emitted is the one from before it.
  have asking := after_asked hooks s (s.router.config.traces.get ti).traceId e
  rw [yes] at asking
  have emitted := @after_suppressionEmit _ hooks
    (s.asked hooks (s.router.config.traces.get ti).traceId e) valid ti
  exact ⟨asking.trans emitted.1, emitted.2⟩

/-- What one pass of the routing loop does. -/
inductive Pass (hooks : Delivery ω) (e : Event) (result : Option WatchResult)
    (snapshot : Option (List Byte)) (s : Routing ω) (records : Records)
    (ti : Fin s.router.config.traces.length) : Routing ω × Records → Prop where
  | disabled (off : s.router.config.enabledAt snapshot ti = false) :
    Pass hooks e result snapshot s records ti (s, records)
  | refused (on : s.router.config.enabledAt snapshot ti = true)
    (no : s.answer hooks (s.router.config.traces.get ti).traceId e = false) :
    Pass hooks e result snapshot s records ti
      (s.asked hooks (s.router.config.traces.get ti).traceId e, records)
  | held (on : s.router.config.enabledAt snapshot ti = true)
    (yes : s.answer hooks (s.router.config.traces.get ti).traceId e = true)
    (rejects : policyAccepts (s.router.config.traces.get ti).interruptPolicy e.kind
      s.router.interruptDepth = false) :
    Pass hooks e result snapshot s records ti
      ((s.asked hooks (s.router.config.traces.get ti).traceId e).suppressionAdd ti e, records)
  | listed (on : s.router.config.enabledAt snapshot ti = true)
    (yes : s.answer hooks (s.router.config.traces.get ti).traceId e = true)
    (accepts : policyAccepts (s.router.config.traces.get ti).interruptPolicy e.kind
      s.router.interruptDepth = true)
    (di : Fin s.router.config.destinations.length)
    (home : s.router.config.destinationIndex (s.router.config.traces.get ti).destinationId =
      some di) :
    Pass hooks e result snapshot s records ti
      ((s.asked hooks (s.router.config.traces.get ti).traceId e).suppressionEmit hooks ti,
        records.join (s.router.config.traces.get ti) di e result)

/-- A trace whose policy rejects the event. -/
theorem pass_held {result : Option WatchResult} {records : Records}
    {ti : Fin s.router.config.traces.length}
    (rejects : policyAccepts (s.router.config.traces.get ti).interruptPolicy e.kind
      s.router.interruptDepth = false) :
    s.pass hooks e result records ti = (s.suppressionAdd ti e, records) := by
  unfold Routing.pass
  simp only [rejects, Bool.not_false, if_true]

/-- A trace whose policy accepts it. -/
theorem pass_listed {result : Option WatchResult} {records : Records}
    {ti : Fin s.router.config.traces.length} {di : Fin s.router.config.destinations.length}
    (accepts : policyAccepts (s.router.config.traces.get ti).interruptPolicy e.kind
      s.router.interruptDepth = true)
    (home : s.router.config.destinationIndex (s.router.config.traces.get ti).destinationId =
      some di) :
    s.pass hooks e result records ti =
      (s.suppressionEmit hooks ti, records.join (s.router.config.traces.get ti) di e result) := by
  unfold Routing.pass
  simp only [accepts, Bool.not_true, Bool.false_eq_true, if_false, home]

/-- The loop takes one of these passes for each trace it knows. -/
theorem routeId_pass (valid : s.router.config.Valid) (result : Option WatchResult)
    (snapshot : Option (List Byte)) (records : Records)
    {ti : Fin s.router.config.traces.length} (found : s.router.config.traceIndex id = some ti) :
    Pass hooks e result snapshot s records ti
      (Routing.routeId hooks e result snapshot (s, records) id) := by
  have placed := (valid.traces _ (List.getElem_mem ti.isLt)).placed
  obtain ⟨di, home⟩ := Option.isSome_iff_exists.mp (destinationIndex_isSome.mpr placed)
  change s.router.config.destinationIndex (s.router.config.traces.get ti).destinationId =
    some di at home
  unfold Routing.routeId
  simp only [found]
  -- The four exits of the loop body, in its order: disabled, refused, held, listed.
  cases on : s.router.config.enabledAt snapshot ti with
  | false => exact .disabled on
  | true =>
    cases answer : s.answer hooks (s.router.config.traces.get ti).traceId e with
    | false =>
      simp only [Bool.not_true, Bool.not_false, Bool.false_eq_true, if_false, if_true]
      exact .refused on answer
    | true =>
      simp only [Bool.not_true, Bool.false_eq_true, if_false]
      cases accepts : policyAccepts (s.router.config.traces.get ti).interruptPolicy e.kind
          s.router.interruptDepth with
      | false =>
        have held := @pass_held _ hooks (s.asked hooks (s.router.config.traces.get ti).traceId e) e
          result records ti accepts
        rw [held]
        exact .held on answer accepts
      | true =>
        have listed := @pass_listed _ hooks
          (s.asked hooks (s.router.config.traces.get ti).traceId e) e
          result records ti di accepts home
        rw [listed]
        exact .listed on answer accepts di home

/-! ### The loop -/

/-- A trace is in one of the records. -/
def Records.Lists (records : Records) (u : Nat) : Prop :=
  ∃ di record, records di = some record ∧ u ∈ record.traceIds

/-- What the loop has done with a trace: its suppression before and now, and its account. -/
inductive Fate (t : TraceSession) (e : Event) (depth : Nat) (v : Option Suppression) :
    Option Suppression → List (Batches.Entry Nat) → Prop → Prop where
  | untouched {lists : Prop} (unlisted : ¬lists) : Fate t e depth v v [] lists
  | held {lists : Prop} (rejects : policyAccepts t.interruptPolicy e.kind depth = false)
    (unlisted : ¬lists) :
    Fate t e depth v (some ((v.getD (t.suppression e depth)).grow e depth))
      [.offered e.sequence, .held e.sequence] lists
  | listed {lists : Prop} (accepts : policyAccepts t.interruptPolicy e.kind depth = true)
    (listed : lists) :
    Fate t e depth v none (.offered e.sequence :: told (v.map Suppression.batch)) lists

/-- The record of an event for the destination at an index, after some traces. -/
structure RecordFor (c : TraceConfig) (e : Event) (done : List Nat) (di : Nat)
    (record : RoutedRecord) : Prop where
  kind : record.kind = .event
  event : record.event = e
  destination : c.destinations[di]? = some record.destinationId
  /-- Its traces stand in the order they were routed in. -/
  ids : record.traceIds.Sublist done
  nonempty : record.traceIds ≠ []
  homes : ∀ ti : Fin c.traces.length, (c.traces.get ti).traceId ∈ record.traceIds →
    (c.traces.get ti).destinationId = record.destinationId

/-- The event an act is about; a summary is about none. -/
def Act.event : Act → Option Event
  | .asked _ e _ => some e
  | .suppressed _ e => some e
  | .emitted r => if r.kind = .event then some r.event else none

/-- The state of the loop after some traces, from where it began. -/
structure Looped (s : Routing ω) (e : Event) (flag : Nat → Bool) (done : List Nat)
    (acts : List Act) (s' : Routing ω) (records : Records) : Prop where
  after : After s acts s'
  /-- The enabled traces are asked, in order. -/
  asked : askedIds acts = done.filter flag
  about : ∀ act ∈ acts, ∀ e' ∈ act.event, e' = e
  quiet : eventRecords acts = []
  others : ∀ u ∉ done, account u acts = [] ∧
    s'.router.suppressionOf u = s.router.suppressionOf u ∧ ¬records.Lists u
  fates : ∀ t ∈ s.router.config.traces,
    Fate t e s.router.interruptDepth (s.router.suppressionOf t.traceId)
      (s'.router.suppressionOf t.traceId) (account t.traceId acts) (records.Lists t.traceId)
  records : ∀ di record, records di = some record →
    RecordFor s.router.config e done di record

/-- Before the first trace. -/
theorem Looped.start (s : Routing ω) (e : Event) (flag : Nat → Bool) :
    Looped s e flag [] [] s fun _ => none where
  after := .refl s
  asked := rfl
  about := fun _ member => absurd member List.not_mem_nil
  quiet := rfl
  others := fun _ _ => ⟨rfl, rfl, fun ⟨_, _, found, _⟩ => Option.some_ne_none _ found.symm⟩
  fates := fun _ _ => .untouched fun ⟨_, _, found, _⟩ => Option.some_ne_none _ found.symm
  records := fun _ _ found => absurd found (Option.some_ne_none _).symm

/-- A record stays one for more traces. -/
theorem RecordFor.more {c : TraceConfig} {done : List Nat} {di : Nat} {record : RoutedRecord}
    (sound : RecordFor c e done di record) (id : Nat) : RecordFor c e (done ++ [id]) di record :=
  { sound with ids := sound.ids.trans (List.sublist_append_left done [id]) }

/-- One more trace, with what the pass does to it and to no other. -/
theorem Looped.extend {flag : Nat → Bool} {done : List Nat} {acts more : List Act}
    {s' s'' : Routing ω} {records records' : Records} {t : TraceSession}
    (looped : Looped s e flag done acts s' records) (valid : s.router.config.Valid)
    (here : t ∈ s.router.config.traces) (fresh : t.traceId ∉ done) (after : After s' more s'')
    (asked : askedIds more = [t.traceId].filter flag)
    (about : ∀ act ∈ more, ∀ e' ∈ act.event, e' = e) (quiet : eventRecords more = [])
    (others : ∀ u ≠ t.traceId, account u more = [] ∧
      s''.router.suppressionOf u = s'.router.suppressionOf u ∧
      (records'.Lists u → records.Lists u) ∧ (records.Lists u → records'.Lists u))
    (fate : Fate t e s.router.interruptDepth (s'.router.suppressionOf t.traceId)
      (s''.router.suppressionOf t.traceId) (account t.traceId more) (records'.Lists t.traceId))
    (sound : ∀ di record, records' di = some record →
      RecordFor s.router.config e (done ++ [t.traceId]) di record) :
    Looped s e flag (done ++ [t.traceId]) (acts ++ more) s'' records' := by
  refine ⟨looped.after.trans after, ?_, ?_, ?_, ?_, ?_, sound⟩
  · rw [askedIds_append, looped.asked, asked, List.filter_append]
  · intro act member e' concerned
    rcases List.mem_append.mp member with earlier | later
    · exact looped.about act earlier e' concerned
    · exact about act later e' concerned
  · rw [eventRecords_append, looped.quiet, quiet]
    rfl
  · -- A trace that is not done was not touched before and is not touched now.
    intro u absent
    rw [List.mem_append, List.mem_singleton, not_or] at absent
    obtain ⟨before, same, unlisted⟩ := looped.others u absent.1
    obtain ⟨now, kept, back, -⟩ := others u absent.2
    refine ⟨?_, kept.trans same, fun lists => unlisted (back lists)⟩
    rw [account_append, before, now]
    rfl
  · intro t' member
    by_cases same : t'.traceId = t.traceId
    · -- This is the trace the pass is about, and it was untouched so far.
      have equal : t' = t := by
        obtain ⟨i, rfl⟩ := List.mem_iff_get.mp member
        obtain ⟨j, rfl⟩ := List.mem_iff_get.mp here
        exact congrArg _ (valid.trace_inj same)
      subst equal
      obtain ⟨before, untouched, -⟩ := looped.others t'.traceId fresh
      rw [account_append, before, List.nil_append, ← untouched]
      exact fate
    · obtain ⟨now, kept, back, forth⟩ := others t'.traceId same
      have listing : records'.Lists t'.traceId = records.Lists t'.traceId :=
        propext ⟨back, forth⟩
      rw [account_append, now, List.append_nil, kept, listing]
      exact looped.fates t' member

/-- A trace that joins the record of its destination is the only one that joins a record. -/
theorem lists_join {records : Records} {t : TraceSession} {di : Nat}
    {result : Option WatchResult} :
    (records.join t di e result).Lists u ↔ u = t.traceId ∨ records.Lists u := by
  unfold Records.join Records.Lists
  constructor
  · rintro ⟨dj, record, found, member⟩
    -- The destination joined is the one that gets a new member; every other record stays.
    by_cases same : dj = di
    · subst same
      rw [Function.update_self] at found
      obtain rfl := Option.some.inj found
      rcases List.mem_append.mp member with earlier | last
      · cases before : records dj with
        | none =>
          rw [before] at earlier
          exact absurd earlier List.not_mem_nil
        | some old =>
          rw [before] at earlier
          exact .inr ⟨dj, old, before, earlier⟩
      · exact .inl (List.mem_singleton.mp last)
    · rw [Function.update_of_ne same] at found
      exact .inr ⟨dj, record, found, member⟩
  · rintro (rfl | ⟨dj, record, found, member⟩)
    · exact ⟨di, _, Function.update_self .., List.mem_append_right _ (List.mem_singleton.mpr rfl)⟩
    · by_cases same : dj = di
      · subst same
        refine ⟨dj, _, Function.update_self .., List.mem_append_left _ ?_⟩
        rw [found]
        exact member
      · exact ⟨dj, record, (Function.update_of_ne same ..).trans found, member⟩

/-- The record a trace has joined is sound again. -/
theorem recordFor_join {c : TraceConfig} {done : List Nat} {records : Records}
    {result : Option WatchResult} (valid : c.Valid)
    (sound : ∀ di record, records di = some record → RecordFor c e done di record)
    {t : TraceSession} (here : t ∈ c.traces) {di : Fin c.destinations.length}
    (home : c.destinationIndex t.destinationId = some di) (dj : Nat) (record : RoutedRecord)
    (found : records.join t di e result dj = some record) :
    RecordFor c e (done ++ [t.traceId]) dj record := by
  have place : c.destinations[di.val]? = some t.destinationId := by
    rw [List.getElem?_eq_getElem di.isLt]
    exact congrArg some (destinationIndex_id home)
  unfold Records.join at found
  by_cases same : dj = di
  · subst same
    rw [Function.update_self] at found
    obtain rfl := Option.some.inj found
    -- Two traces of one identity are one, so the new one has its destination here.
    have own : ∀ ti : Fin c.traces.length, (c.traces.get ti).traceId = t.traceId →
        (c.traces.get ti).destinationId = t.destinationId := by
      intro ti hit
      obtain ⟨tj, rfl⟩ := List.mem_iff_get.mp here
      rw [valid.trace_inj hit]
    cases before : records di with
    | none =>
      refine ⟨rfl, rfl, place, ?_, List.append_ne_nil_of_right_ne_nil _ (List.cons_ne_nil _ _), ?_⟩
      · exact List.sublist_append_right done [t.traceId]
      · intro ti member
        exact own ti (List.mem_singleton.mp member)
    | some old =>
      have prior := sound di old before
      have destination : old.destinationId = t.destinationId :=
        Option.some.inj (prior.destination.symm.trans place)
      refine ⟨prior.kind, prior.event, prior.destination, ?_,
        List.append_ne_nil_of_right_ne_nil _ (List.cons_ne_nil _ _), ?_⟩
      · exact prior.ids.append (List.Sublist.refl _)
      · intro ti member
        rcases List.mem_append.mp member with earlier | last
        · exact prior.homes ti earlier
        · exact (own ti (List.mem_singleton.mp last)).trans destination.symm
  · rw [Function.update_of_ne same] at found
    exact (sound dj record found).more t.traceId

/-- One pass of the loop. -/
theorem Looped.step {flag : Nat → Bool} {done : List Nat} {acts : List Act} {s' : Routing ω}
    {records : Records} {snapshot : Option (List Byte)} {result : Option WatchResult}
    (looped : Looped s e flag done acts s' records) (valid : s.router.config.Valid)
    (flags : ∀ ti : Fin s.router.config.traces.length,
      s.router.config.enabledAt snapshot ti = flag (s.router.config.traces.get ti).traceId)
    (known : id ∈ s.router.config.traceIds) (fresh : id ∉ done) :
    ∃ more, Looped s e flag (done ++ [id]) (acts ++ more)
      (Routing.routeId hooks e result snapshot (s', records) id).1
      (Routing.routeId hooks e result snapshot (s', records) id).2 := by
  obtain ⟨ti, found⟩ := Option.isSome_iff_exists.mp (traceIndex_isSome.mpr known)
  have named := traceIndex_id found
  subst named
  -- Only rings and suppressions differ from where the loop began.
  obtain ⟨router, context, history⟩ := s'
  obtain ⟨rings, suppression, shape⟩ := looped.after.router
  change router = _ at shape
  subst shape
  have pass := @routeId_pass _ hooks ⟨{ s.router with rings := rings, suppression := suppression },
    context, history⟩ e _ valid result snapshot records ti found
  have here : s.router.config.traces.get ti ∈ s.router.config.traces := List.getElem_mem ti.isLt
  have alone : flag (s.router.config.traces.get ti).traceId = true →
      [(s.router.config.traces.get ti).traceId].filter flag =
        [(s.router.config.traces.get ti).traceId] :=
    fun on => List.filter_cons_of_pos on
  generalize Routing.routeId hooks e result snapshot _ _ = left at pass ⊢
  cases pass with
  | disabled off =>
    have out : flag (s.router.config.traces.get ti).traceId = false := (flags ti).symm.trans off
    refine ⟨[], looped.extend valid here fresh (.refl _) ?_ ?_ rfl ?_ ?_ ?_⟩
    · have skipped := @List.filter_cons_of_neg _ flag _ [] (Bool.eq_false_iff.mp out)
      exact skipped.symm
    · exact fun _ member => absurd member List.not_mem_nil
    · exact fun _ _ => ⟨rfl, rfl, fun lists => lists, fun lists => lists⟩
    · exact .untouched (looped.others _ fresh).2.2
    · exact fun di record found => (looped.records di record found).more _
  | refused on no =>
    have asking := after_asked hooks ⟨{ s.router with rings := rings, suppression := suppression },
      context, history⟩ (s.router.config.traces.get ti).traceId e
    have silent : ∀ u, account u [.asked (s.router.config.traces.get ti).traceId e false] = [] := by
      intro u
      simp [account, Act.about]
    rw [no] at asking
    refine ⟨_, looped.extend valid here fresh asking ?_ ?_ rfl ?_ ?_ ?_⟩
    · exact (alone ((flags ti).symm.trans on)).symm
    · intro act member e' concerned
      obtain rfl := List.mem_singleton.mp member
      exact (Option.some.inj concerned).symm
    · exact fun u _ => ⟨silent u, rfl, fun lists => lists, fun lists => lists⟩
    · rw [silent]
      exact .untouched (looped.others _ fresh).2.2
    · exact fun di record found => (looped.records di record found).more _
  | held on yes rejects =>
    obtain ⟨after, suppressions⟩ := @after_hold _ hooks ⟨{ s.router with
      rings := rings, suppression := suppression }, context, history⟩ e valid ti yes
    refine ⟨_, looped.extend valid here fresh after ?_ ?_ rfl ?_ ?_ ?_⟩
    · exact (askedIds_held ..).trans (alone ((flags ti).symm.trans on)).symm
    · intro act member e' concerned
      rcases List.mem_pair.mp member with rfl | rfl
      · exact (Option.some.inj concerned).symm
      · exact (Option.some.inj concerned).symm
    · intro u other
      exact ⟨(account_held ..).trans (if_neg other), (suppressions u).trans (if_neg other),
        fun lists => lists, fun lists => lists⟩
    · rw [suppressions, if_pos rfl, account_held, if_pos rfl]
      exact .held rejects (looped.others _ fresh).2.2
    · exact fun di record found => (looped.records di record found).more _
  | listed on yes accepts di home =>
    obtain ⟨after, suppressions⟩ := @after_list _ hooks ⟨{ s.router with
      rings := rings, suppression := suppression }, context, history⟩ e valid ti yes
    have before : Router.suppressionOf { s.router with
        rings := rings, suppression := suppression } (s.router.config.traces.get ti).traceId =
          suppression ti := Router.suppressionOf_index (valid.traceIndex_self ti)
    refine ⟨_, looped.extend valid here fresh after ?_ ?_ (eventRecords_listed ..) ?_ ?_ ?_⟩
    · exact (askedIds_listed ..).trans (alone ((flags ti).symm.trans on)).symm
    · intro act member e' concerned
      rcases List.mem_cons.mp member with rfl | summary
      · exact (Option.some.inj concerned).symm
      · obtain ⟨v, -, rfl⟩ := List.mem_map.mp summary
        exact absurd concerned.symm (Option.some_ne_none e')
    · intro u other
      exact ⟨(account_listed ..).trans (if_neg other), (suppressions u).trans (if_neg other),
        fun lists => (lists_join.mp lists).resolve_left other,
        fun lists => lists_join.mpr (.inr lists)⟩
    · rw [suppressions, if_pos rfl, account_listed, if_pos rfl]
      change Fate _ e _ (Router.suppressionOf { s.router with
        rings := rings, suppression := suppression } _) none
          (_ :: told (Option.map _ (suppression ti))) _
      rw [before]
      exact .listed accepts (lists_join.mpr (.inl rfl))
    · exact fun dj record found => recordFor_join valid looped.records here home dj record found

/-- The whole loop. -/
theorem Looped.run {flag : Nat → Bool} {snapshot : Option (List Byte)}
    {result : Option WatchResult} (valid : s.router.config.Valid)
    (flags : ∀ ti : Fin s.router.config.traces.length,
      s.router.config.enabledAt snapshot ti = flag (s.router.config.traces.get ti).traceId)
    (ids : List Nat) (known : ∀ id ∈ ids, id ∈ s.router.config.traceIds) :
    ∀ (done : List Nat) (acts : List Act) (s' : Routing ω) (records : Records),
      (done ++ ids).Pairwise (· < ·) → Looped s e flag done acts s' records →
      ∃ more, Looped s e flag (done ++ ids) more
        (ids.foldl (Routing.routeId hooks e result snapshot) (s', records)).1
        (ids.foldl (Routing.routeId hooks e result snapshot) (s', records)).2 := by
  induction ids with
  | nil =>
    intro done acts s' records _ looped
    rw [List.append_nil]
    exact ⟨acts, looped⟩
  | cons id rest ih =>
    intro done acts s' records ascending looped
    -- Identities ascend, so this one is not among those that are done.
    have fresh : id ∉ done := by
      intro member
      have below := (List.pairwise_append.mp ascending).2.2 id member id List.mem_cons_self
      exact Nat.lt_irrefl id below
    obtain ⟨more, next⟩ := @Looped.step _ hooks _ _ _ _ _ _ _ _ snapshot result looped valid flags
      (known id List.mem_cons_self) fresh
    have shape : done ++ id :: rest = done ++ [id] ++ rest := by simp
    rw [shape] at ascending ⊢
    exact ih (fun other member => known other (List.mem_cons_of_mem id member)) _ _ _ _ ascending
      next

/-! ### The records -/

/-- The records of some destinations are emitted in order. -/
theorem after_emitAt (hooks : Delivery ω) (records : Records) (dis : List Nat) (s : Routing ω) :
    After s ((dis.filterMap records).map Act.emitted)
        (dis.foldl (Routing.emitAt hooks records) s) ∧
      ∀ u, (dis.foldl (Routing.emitAt hooks records) s).router.suppressionOf u =
        s.router.suppressionOf u := by
  -- By induction on the destinations; one without a record is passed over.
  induction dis generalizing s with
  | nil => exact ⟨.refl s, fun _ => rfl⟩
  | cons di rest ih =>
    rw [List.foldl_cons]
    unfold Routing.emitAt
    cases found : records di with
    | none =>
      rw [List.filterMap_cons_none found]
      exact ih s
    | some record =>
      rw [List.filterMap_cons_some found]
      obtain ⟨after, same⟩ := ih (s.emit hooks di record)
      exact ⟨(after_emit hooks s di record).trans after, fun u => (same u).trans rfl⟩

variable {c : TraceConfig} {done : List Nat} {records : Records}

/-- The index of a record is that of a destination. -/
theorem RecordFor.inside {di : Nat} {record : RoutedRecord} (sound : RecordFor c e done di record) :
    di < c.destinations.length := (List.getElem?_eq_some_iff.mp sound.destination).1

/-- A trace is in one record at most. -/
theorem recordFor_unique (valid : c.Valid)
    (sound : ∀ di record, records di = some record → RecordFor c e done di record)
    (known : u ∈ c.traceIds) {di dj : Nat} {r q : RoutedRecord} (first : records di = some r)
    (second : records dj = some q) (inFirst : u ∈ r.traceIds) (inSecond : u ∈ q.traceIds) :
    di = dj := by
  obtain ⟨ti, found⟩ := Option.isSome_iff_exists.mp (traceIndex_isSome.mpr known)
  have named := traceIndex_id found
  have here := (sound di r first).homes ti (named ▸ inFirst)
  have there := (sound dj q second).homes ti (named ▸ inSecond)
  -- Both records belong to the destination of the trace, and destinations are distinct.
  have same : c.destinations[di]? = c.destinations[dj]? := by
    rw [(sound di r first).destination, (sound dj q second).destination, ← here, ← there]
  have distinct : c.destinations.Nodup := valid.destinationsAscend.imp Nat.ne_of_lt
  exact (List.getElem?_inj (sound di r first).inside distinct).mp same

/-- The account of a trace gets one entry from the records when one of them lists it. -/
theorem account_records (valid : c.Valid)
    (sound : ∀ di record, records di = some record → RecordFor c e done di record)
    (known : u ∈ c.traceIds) :
    (records.Lists u → account u (((List.range c.destinations.length).filterMap records).map
      Act.emitted) = [.passed e.sequence]) ∧
    (¬records.Lists u → account u (((List.range c.destinations.length).filterMap records).map
      Act.emitted) = []) := by
  -- A record means something for the trace only when it lists it.
  have silent : ∀ dis : List Nat,
      (∀ di ∈ dis, ∀ record, records di = some record → u ∉ record.traceIds) →
      account u ((dis.filterMap records).map Act.emitted) = [] := by
    intro dis none
    refine List.filterMap_eq_nil_iff.mpr fun act member => ?_
    obtain ⟨record, among, rfl⟩ := List.mem_map.mp member
    obtain ⟨di, place, found⟩ := List.mem_filterMap.mp among
    exact if_neg (none di place record found)
  constructor
  · rintro ⟨di, record, found, listed⟩
    obtain ⟨before, after, split⟩ := List.append_of_mem
      (List.mem_range.mpr (sound di record found).inside)
    have order : (before ++ di :: after).Nodup := split ▸ List.nodup_range
    have others : ∀ dj ∈ before ++ after, ∀ r, records dj = some r → u ∉ r.traceIds := by
      intro dj member r there inside
      obtain rfl := recordFor_unique valid sound known there found inside listed
      exact (List.nodup_middle.mp order |> List.nodup_cons.mp).1 member
    rw [split, List.filterMap_append, List.filterMap_cons_some found, List.map_append,
      List.map_cons, account_append,
      silent before fun dj member => others dj (List.mem_append_left after member)]
    have kind := (sound di record found).kind
    have event := (sound di record found).event
    have first : Act.about u (.emitted record) = some (.passed e.sequence) := by
      simp [Act.about, listed, kind, event]
    rw [List.nil_append, account, List.filterMap_cons_some first]
    exact congrArg _ (silent after fun dj member => others dj (List.mem_append_right before member))
  · intro unlisted
    exact silent _ fun di _ record found listed => unlisted ⟨di, record, found, listed⟩

/-- The records are the event records of their emission. -/
theorem eventRecords_emitted {rs : List RoutedRecord} (kinds : ∀ r ∈ rs, r.kind = .event) :
    eventRecords (rs.map Act.emitted) = rs := by
  induction rs with
  | nil => rfl
  | cons r rest ih =>
    have others := ih fun q member => kinds q (List.mem_cons_of_mem r member)
    have first : Act.eventRecord (.emitted r) = some r := if_pos (kinds r List.mem_cons_self)
    unfold eventRecords at others ⊢
    rw [List.map_cons, List.filterMap_cons_some first, others]

/-- Records asks nobody. -/
theorem askedIds_emitted (rs : List RoutedRecord) : askedIds (rs.map Act.emitted) = [] := by
  induction rs with
  | nil => rfl
  | cons r rest ih => exact ih

/-! ### Routing -/

/-- What the routing of an event has done with a trace. -/
inductive Outcome (t : TraceSession) (e : Event) (depth : Nat) (v : Option Suppression) :
    Option Suppression → List (Batches.Entry Nat) → Prop where
  | untouched : Outcome t e depth v v []
  | held (rejects : policyAccepts t.interruptPolicy e.kind depth = false) :
    Outcome t e depth v (some ((v.getD (t.suppression e depth)).grow e depth))
      [.offered e.sequence, .held e.sequence]
  | passed (accepts : policyAccepts t.interruptPolicy e.kind depth = true) :
    Outcome t e depth v none
      (.offered e.sequence :: told (v.map Suppression.batch) ++ [.passed e.sequence])

/-- The routing of an event to some identities, of which the flagged ones count. -/
structure Routed (s : Routing ω) (e : Event) (flag : Nat → Bool) (ids : List Nat)
    (acts : List Act) (s' : Routing ω) : Prop where
  after : After s acts s'
  asked : askedIds acts = ids.filter flag
  about : ∀ act ∈ acts, ∀ e' ∈ act.event, e' = e
  outcomes : ∀ t ∈ s.router.config.traces,
    Outcome t e s.router.interruptDepth (s.router.suppressionOf t.traceId)
      (s'.router.suppressionOf t.traceId) (account t.traceId acts)
  others : ∀ u ∉ s.router.config.traceIds, account u acts = [] ∧
    s'.router.suppressionOf u = s.router.suppressionOf u
  records : ∀ r ∈ eventRecords acts, r.event = e ∧ r.traceIds ≠ [] ∧ r.traceIds.Sublist ids
  single : ((eventRecords acts).map RoutedRecord.destinationId).Pairwise (· < ·)

/-- `route_ids` routes ascending identities of traces. -/
theorem routeIds_routed (valid : s.router.config.Valid) {flag : Nat → Bool}
    {snapshot : Option (List Byte)} (result : Option WatchResult)
    (flags : ∀ ti : Fin s.router.config.traces.length,
      s.router.config.enabledAt snapshot ti = flag (s.router.config.traces.get ti).traceId)
    {ids : List Nat} (routable : s.router.config.routable ids = true) :
    ∃ acts, (s.routeIds hooks e ids result snapshot).1 = .ok ∧
      Routed s e flag ids acts (s.routeIds hooks e ids result snapshot).2 := by
  have ascending : ids.Pairwise (· < ·) := by
    have check := (Bool.and_eq_true _ _ ▸ routable).2
    exact of_decide_eq_true check
  have known : ∀ id ∈ ids, id ∈ s.router.config.traceIds := by
    intro id member
    have check := List.all_eq_true.mp (Bool.and_eq_true _ _ ▸ routable).1 id member
    exact traceIndex_isSome.mp (Bool.and_eq_true _ _ ▸ check).2
  obtain ⟨acts, looped⟩ := @Looped.run _ hooks s e flag snapshot result valid flags ids known [] []
    s (fun _ => none) ascending (.start s e flag)
  rw [List.nil_append] at looped
  unfold Routing.routeIds
  rw [if_neg (by rw [routable]; exact Bool.false_ne_true)]
  generalize ids.foldl (Routing.routeId hooks e result snapshot) (s, fun _ => none) = final
    at looped
  obtain ⟨routed, records⟩ := final
  obtain ⟨after, same⟩ := after_emitAt hooks records
    (List.range s.router.config.destinations.length) routed
  have sound := looped.records
  have kinds : ∀ r ∈ (List.range s.router.config.destinations.length).filterMap records,
      r.kind = .event := by
    intro r member
    obtain ⟨di, -, found⟩ := List.mem_filterMap.mp member
    exact (sound di r found).kind
  have events : eventRecords (acts ++ ((List.range
      s.router.config.destinations.length).filterMap records).map Act.emitted) =
        (List.range s.router.config.destinations.length).filterMap records := by
    rw [eventRecords_append, looped.quiet, eventRecords_emitted kinds]
    rfl
  refine ⟨_, rfl, looped.after.trans after, ?_, ?_, ?_, ?_, ?_, ?_⟩
  · rw [askedIds_append, looped.asked, askedIds_emitted, List.append_nil]
  · intro act member e' concerned
    rcases List.mem_append.mp member with earlier | late
    · exact looped.about act earlier e' concerned
    · obtain ⟨r, among, rfl⟩ := List.mem_map.mp late
      obtain ⟨di, -, found⟩ := List.mem_filterMap.mp among
      have mine : some r.event = some e' := (if_pos (kinds r among)).symm.trans concerned
      rw [← Option.some.inj mine]
      exact (sound di r found).event
  · intro t member
    have listing := account_records valid sound (List.mem_map.mpr ⟨t, member, rfl⟩)
    change Outcome t e _ _ (Router.suppressionOf (List.foldl _ routed _).router _) _
    rw [same, account_append]
    have fate := looped.fates t member
    generalize routed.router.suppressionOf t.traceId = now at fate ⊢
    generalize account t.traceId acts = entries at fate ⊢
    cases fate with
    | untouched unlisted =>
      rw [listing.2 unlisted]
      exact .untouched
    | held rejects unlisted =>
      rw [listing.2 unlisted]
      exact .held rejects
    | listed accepts listed =>
      rw [listing.1 listed]
      exact .passed accepts
  · intro u unknown
    have absent : u ∉ ids := fun member => unknown (known u member)
    obtain ⟨before, kept, unlisted⟩ := looped.others u absent
    refine ⟨?_, (same u).trans kept⟩
    rw [account_append, before, List.nil_append]
    refine List.filterMap_eq_nil_iff.mpr fun act member => ?_
    obtain ⟨record, among, rfl⟩ := List.mem_map.mp member
    obtain ⟨di, -, found⟩ := List.mem_filterMap.mp among
    exact if_neg fun listed => unlisted ⟨di, record, found, listed⟩
  · rw [events]
    intro r member
    obtain ⟨di, -, found⟩ := List.mem_filterMap.mp member
    exact ⟨(sound di r found).event, (sound di r found).nonempty, (sound di r found).ids⟩
  · -- Destinations stand in ascending order, and the loop goes through them in that order.
    rw [events, List.map_filterMap, List.pairwise_filterMap]
    refine List.pairwise_lt_range.imp fun {di dj} before => ?_
    intro x isX y isY
    obtain ⟨r, found, rfl⟩ := Option.map_eq_some_iff.mp isX
    obtain ⟨q, there, rfl⟩ := Option.map_eq_some_iff.mp isY
    obtain ⟨insideX, atX⟩ := List.getElem?_eq_some_iff.mp (sound di r found).destination
    obtain ⟨insideY, atY⟩ := List.getElem?_eq_some_iff.mp (sound dj q there).destination
    rw [← atX, ← atY]
    exact List.pairwise_iff_getElem.mp valid.destinationsAscend di dj insideX insideY before

end Emu80535.Debug
