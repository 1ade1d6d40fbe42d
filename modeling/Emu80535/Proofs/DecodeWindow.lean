import Emu80535.Debug.Decode
import Emu80535.Lib.Tiles
import Emu80535.Lib.Fold
import Emu80535.Proofs.Disassembly

/-! What a decode window shows, and why its history decodes backwards. -/

namespace Emu80535

variable {c : Cpu} {cache : DecodeCache}

/-- A sequence that answers has answered in both its halves. -/
theorem except_bind_ok {ε α β : Type} {first : Except ε α} {next : α → Except ε β} {answer : β}
    (done : first >>= next = .ok answer) : ∃ a, first = .ok a ∧ next a = .ok answer := by
  cases first with
  | error e => exact absurd done (by simp [Bind.bind, Except.bind])
  | ok a => exact ⟨a, rfl, done⟩

/-! ### The history -/

/-- Every known address is where the instruction noted before it ends. -/
def DecodeCache.Sound (cache : DecodeCache) (c : Cpu) : Prop :=
  ∀ x, cache.known x = true →
    (cache.predecessor x).toNat + (emuDecodeAt c (cache.predecessor x)).1 = x.toNat

/-- An instruction has one to three bytes. -/
theorem emuDecodeAt_size (c : Cpu) (address : Word) :
    1 ≤ (emuDecodeAt c address).1 ∧ (emuDecodeAt c address).1 ≤ 3 := decTable_size _

namespace DecodeCache.Sound

/-- A cleared history knows nothing. -/
theorem cleared (cache : DecodeCache) (c : Cpu) : (emuDecodeClear cache).Sound c :=
  fun _ known => absurd known (by simp [emuDecodeClear])

/-- A true entry may be noted. -/
theorem note (sound : cache.Sound c) {address predecessor : Word}
    (ends : predecessor.toNat + (emuDecodeAt c predecessor).1 = address.toNat) :
    (cache.note address predecessor).Sound c := by
  intro x known
  simp only [DecodeCache.note] at known ⊢
  -- The entry just noted is right because the predecessor ends there; the others are as before.
  by_cases here : x = address
  · subst here
    rw [Function.update_self]
    exact ends
  · rw [Function.update_of_ne here] at known ⊢
    exact sound x known

/-- So may a list of them. -/
theorem noteAll (sound : cache.Sound c) {entries : List (Word × Word)}
    (ends : ∀ entry ∈ entries,
      entry.2.toNat + (emuDecodeAt c entry.2).1 = entry.1.toNat) :
    (entries.foldl (fun cache entry => cache.note entry.1 entry.2) cache).Sound c :=
  Fold.foldl_keeps (I := fun cache : DecodeCache => cache.Sound c)
    (fun entry member _ before => before.note (ends entry member)) sound

/-- An instruction that went on to the one behind it is noted as such. -/
theorem completed (sound : cache.Sound c) (pc resultingPc : Word) :
    (emuDecodeCompleted cache pc (emuDecodeAt c pc).1 resultingPc).Sound c := by
  simp only [emuDecodeCompleted]
  split
  · rename_i sequential
    refine sound.note ?_
    rw [BitVec.toNat_ofNat, Nat.mod_eq_of_lt sequential.2.1]
  · exact sound

end DecodeCache.Sound

/-! ### Records -/

/-- A record shows the instruction at its address, or is the placeholder for one byte. -/
def Decoded.Shows (c : Cpu) (record : Decoded) : Prop :=
  if record.valid then (record.size, record.text) = emuDecodeAt c record.address
  else record = invalidRecord record.address

/-- The position of a record. -/
def Decoded.start (record : Decoded) : Nat := record.address.toNat

/-- Records that lie end to end. -/
abbrev Spans := Tiles Decoded.start Decoded.size

/-- A placeholder says what there is to say of a byte that could not be decoded. -/
theorem invalidRecord_shows (c : Cpu) (address : Word) : (invalidRecord address).Shows c := by
  simp [Decoded.Shows, invalidRecord]

/-- What a decoded record shows. -/
structure DecodedAt (c : Cpu) (address : Nat) (record : Decoded) : Prop where
  inside : address ≤ 0xFFFF
  start : record.start = address
  shows : record.Shows c
  valid : record.valid = true
  size : record.size = (emuDecodeAt c (BitVec.ofNat 16 address)).1
  fits : address + record.size ≤ codeSize

/-- What a decoded record says, where the decoder accepts its address. -/
theorem decodeRecord_ok {address : Nat} {record : Decoded}
    (done : decodeRecord c address = .ok record) : DecodedAt c address record := by
  simp only [decodeRecord] at done
  -- It is refused outside the code space and where its last byte would be.
  split at done
  · exact absurd done (by simp)
  · rename_i inside
    split at done
    · exact absurd done (by simp)
    · rename_i fits
      cases done
      have small : address % 2 ^ 16 = address := Nat.mod_eq_of_lt (by omega)
      exact ⟨by omega, by simp only [Decoded.start, BitVec.toNat_ofNat, small],
        by simp [Decoded.Shows], rfl, rfl, by simp only [codeSize] at fits ⊢; omega⟩

/-- A noted predecessor can be decoded. -/
theorem decodeRecord_predecessor (sound : cache.Sound c) {x : Word} (known : cache.known x = true) :
    ∃ record, decodeRecord c (cache.predecessor x).toNat = .ok record := by
  have ends := sound x known
  have sizes := emuDecodeAt_size c (cache.predecessor x)
  have bound := x.isLt
  have low := (cache.predecessor x).isLt
  simp only [decodeRecord, BitVec.ofNat_toNat, BitVec.setWidth_eq]
  rw [if_neg (by omega), if_neg (by simp only [codeSize]; omega)]
  exact ⟨_, rfl⟩

/-! ### Backwards -/

/-- Placeholders come before decoded records only. -/
def PlaceholdersFirst (records : List Decoded) : Prop :=
  records.Pairwise fun a b => a.valid = true → b.valid = true

/-- What the backward loop has found after some steps, the farthest record first. -/
structure Backtrack (c : Cpu) (base : Nat) (history : List Decoded) (cursor : Nat)
    (known : Bool) : Prop where
  spans : Spans cursor history base
  shows : ∀ record ∈ history, record.Shows c
  placeholders : PlaceholdersFirst history
  /-- While every step was known, every record is decoded. -/
  decoded : known = true → ∀ record ∈ history, record.valid = true
  inside : cursor ≤ 0xFFFF

/-- The records the window keeps of a history of so many steps. -/
def InWindow (predecessorCount temporaryCount : Nat) (history : List Decoded)
    (temporary : Nat → Decoded) : Prop :=
  ∀ i < history.length, predecessorCount - history.length + i < temporaryCount →
    history[i]? = some (temporary (predecessorCount - history.length + i))

/-- One more record in front. -/
theorem InWindow.place {predecessorCount temporaryCount : Nat} {history : List Decoded}
    {temporary : Nat → Decoded} (kept : InWindow predecessorCount temporaryCount history temporary)
    (more : history.length < predecessorCount) (record : Decoded) :
    InWindow predecessorCount temporaryCount (record :: history)
      (if predecessorCount - temporaryCount ≤ history.length then
        Function.update temporary (predecessorCount - history.length - 1) record
      else temporary) := by
  intro i inside window
  rw [List.length_cons] at inside window ⊢
  cases i with
  | zero =>
    -- The new record lies just before the first one kept so far.
    rw [if_pos (by omega), show predecessorCount - (history.length + 1) + 0 =
      predecessorCount - history.length - 1 by omega, Function.update_self]
    rfl
  | succ i =>
    have later := kept i (by omega) (by omega)
    have position : predecessorCount - (history.length + 1) + (i + 1) =
        predecessorCount - history.length + i := by omega
    rw [position, List.getElem?_cons_succ, later]
    split
    · rw [Function.update_of_ne (by omega)]
    · rfl

/-- A record that ends where the loop is takes it back to where the record starts. -/
theorem Backtrack.before {base cursor : Nat} {history : List Decoded} {known still : Bool}
    (track : Backtrack c base history cursor known) {record : Decoded}
    (ends : record.start + record.size = cursor) (shows : record.Shows c)
    (valid : record.valid = still) (already : still = true → known = true) :
    Backtrack c base (record :: history) record.start still where
  spans := .cons rfl (ends ▸ track.spans)
  shows := List.forall_mem_cons.mpr ⟨shows, track.shows⟩
  placeholders :=
    List.pairwise_cons.mpr ⟨fun later member first =>
      track.decoded (already (valid ▸ first)) later member, track.placeholders⟩
  decoded := fun all => List.forall_mem_cons.mpr ⟨valid.trans all, track.decoded (already all)⟩
  -- The record that ends at the cursor starts inside the code space.
  inside := by
    have bound := record.address.isLt
    simp only [Decoded.start]
    omega

/-- One pass of the backward loop. -/
theorem backwardStep_ok (sound : cache.Sound c) {predecessorCount temporaryCount base : Nat}
    {b after : Backward} {history : List Decoded} (more : history.length < predecessorCount)
    (track : Backtrack c base history b.cursor b.known)
    (kept : InWindow predecessorCount temporaryCount history b.temporary)
    (done : backwardStep c cache predecessorCount temporaryCount b history.length = .ok after) :
    ∃ record, Backtrack c base (record :: history) after.cursor after.known ∧
      InWindow predecessorCount temporaryCount (record :: history) after.temporary := by
  have inside := track.inside
  have cursor : (BitVec.ofNat 16 b.cursor).toNat = b.cursor := by
    rw [BitVec.toNat_ofNat, Nat.mod_eq_of_lt (by omega)]
  simp only [backwardStep] at done
  split at done
  · -- The instruction before is known, and ends where the loop is.
    rename_i both
    obtain ⟨all, known⟩ := Bool.and_eq_true_iff.mp both
    obtain ⟨record, decoded⟩ := decodeRecord_predecessor sound known
    rw [decoded] at done
    cases done
    have shown := decodeRecord_ok decoded
    have ends := sound _ known
    rw [cursor] at ends
    refine ⟨record, ?_, kept.place more record⟩
    have size := shown.size
    rw [BitVec.ofNat_toNat, BitVec.setWidth_eq] at size
    rw [← shown.start]
    exact track.before (by rw [shown.start, size, ends]) shown.shows shown.valid fun _ => all
  · split at done
    · exact absurd done (by simp)
    · -- From here on the bytes before are placeholders.
      rename_i positive
      cases done
      refine ⟨_, ?_, kept.place more _⟩
      have start : (invalidRecord (BitVec.ofNat 16 (b.cursor - 1))).start = b.cursor - 1 := by
        simp only [invalidRecord, Decoded.start, BitVec.toNat_ofNat]
        omega
      have before : Backtrack c base (invalidRecord (BitVec.ofNat 16 (b.cursor - 1)) :: history)
          (invalidRecord (BitVec.ofNat 16 (b.cursor - 1))).start false :=
        track.before (by rw [start]; simp only [invalidRecord]; omega)
          (invalidRecord_shows c _) rfl (fun wrong => Bool.noConfusion wrong)
      rwa [start] at before

/-- The whole backward loop finds one record for each step. -/
theorem backward_ok (sound : cache.Sound c) {predecessorCount temporaryCount base : Nat}
    (start : base ≤ 0xFFFF) {b : Backward}
    (done : backward c cache predecessorCount temporaryCount base = .ok b) :
    ∃ history, history.length = predecessorCount ∧
      Backtrack c base history b.cursor b.known ∧
      InWindow predecessorCount temporaryCount history b.temporary := by
  -- After so many rounds the history has as many records, by induction on the rounds of the loop.
  have steps : ∀ n ≤ predecessorCount, ∀ b : Backward,
      (List.range n).foldlM (backwardStep c cache predecessorCount temporaryCount)
        { cursor := base, known := true, temporary := fun _ => invalidRecord 0#16 } = .ok b →
      ∃ history, history.length = n ∧ Backtrack c base history b.cursor b.known ∧
        InWindow predecessorCount temporaryCount history b.temporary := by
    intro n
    induction n with
    | zero =>
      intro _ b began
      cases began
      exact ⟨[], rfl, ⟨.nil base, nofun, .nil, nofun, start⟩, fun _ wrong => absurd wrong (by simp)⟩
    | succ n ih =>
      intro within b ran
      rw [List.range_succ, List.foldlM_append] at ran
      -- The last round sees what the earlier ones left.
      obtain ⟨early, first, last⟩ := except_bind_ok ran
      obtain ⟨history, length, track, kept⟩ := ih (by omega) early first
      subst length
      obtain ⟨record, more⟩ := backwardStep_ok sound (by omega) track kept
        (by simpa using last)
      exact ⟨record :: history, rfl, more⟩
  exact steps predecessorCount (Nat.le_refl _) b done

/-! ### Forwards -/

/-- The address behind the instruction at an address. -/
def following (c : Cpu) (address : Nat) : Nat :=
  address + (emuDecodeAt c (BitVec.ofNat 16 address)).1

/-- The skipping loop counts instructions. -/
theorem skipInstructions_ok {instructions base cursor : Nat} (start : base ≤ 0xFFFF)
    (done : skipInstructions c instructions base = .ok cursor) :
    cursor = (following c)^[instructions] base ∧ cursor ≤ 0xFFFF := by
  -- Each round moves the cursor behind one more instruction.
  induction instructions generalizing cursor with
  | zero =>
    cases done
    exact ⟨rfl, start⟩
  | succ n ih =>
    rw [skipInstructions, List.range_succ, List.foldlM_append] at done
    obtain ⟨early, first, last⟩ := except_bind_ok done
    obtain ⟨reached, -⟩ := ih first
    have step : skipStep c early = .ok cursor := by simpa using last
    obtain ⟨skipped, decoded, moved⟩ := except_bind_ok step
    -- The loop stops with an error when it leaves the code space.
    split at moved
    · exact absurd moved (by simp)
    · rename_i inside
      cases moved
      refine ⟨?_, by omega⟩
      rw [Function.iterate_succ_apply', ← reached, following, (decodeRecord_ok decoded).size]

/-- The records of the last loop lie end to end, and what it stages is true of them. -/
theorem decodeRecords_ok {remaining cursor : Nat} {answer : List Decoded × List (Word × Word)}
    (done : decodeRecords c remaining cursor = .ok answer) :
    answer.1.length = remaining ∧
      (∃ ending, Spans cursor answer.1 ending) ∧
      (∀ record ∈ answer.1, record.Shows c ∧ record.valid = true) ∧
      ∀ entry ∈ answer.2, entry.2.toNat + (emuDecodeAt c entry.2).1 = entry.1.toNat := by
  -- By induction on the records still to be decoded; the rest begin where this one ends.
  induction remaining generalizing cursor answer with
  | zero =>
    cases done
    exact ⟨rfl, ⟨cursor, .nil cursor⟩, nofun, nofun⟩
  | succ remaining ih =>
    rw [decodeRecords] at done
    obtain ⟨record, decoded, later⟩ := except_bind_ok done
    have shown := decodeRecord_ok decoded
    dsimp only at later
    -- It answers only while the next address is inside the code space.
    split at later
    · exact absurd later (by simp)
    · obtain ⟨rest, following, answered⟩ := except_bind_ok later
      cases answered
      obtain ⟨length, ⟨ending, spans⟩, shows, staged⟩ := ih following
      refine ⟨by rw [List.length_cons, length], ⟨ending, .cons shown.start spans⟩,
        List.forall_mem_cons.mpr ⟨⟨shown.shows, shown.valid⟩, shows⟩, fun entry member => ?_⟩
      -- A staged entry is the one for the record just decoded, or comes from the records behind
      -- it.
      rcases List.mem_append.mp member with own | other
      · split at own
        · rename_i inside
          have only := List.mem_singleton.mp own
          subst only
          have low : (BitVec.ofNat 16 cursor).toNat = cursor := by
            have bound := shown.inside
            rw [BitVec.toNat_ofNat, Nat.mod_eq_of_lt (by omega)]
          show (BitVec.ofNat 16 cursor).toNat + _ = _
          rw [low, ← shown.size, BitVec.toNat_ofNat, Nat.mod_eq_of_lt inside]
        · exact absurd own (by simp)
      · exact staged entry other

/-! ### Windows -/

/-- Records that may be shown together. -/
structure Listed (c : Cpu) (first : Nat) (listed : List Decoded) : Prop where
  spans : ∃ ending, Spans first listed ending
  shows : ∀ record ∈ listed, record.Shows c
  placeholders : PlaceholdersFirst listed

/-- What a successful window shows, for an offset of so many instructions from a base. -/
structure Windowed (c : Cpu) (base : Nat) (k : Int) (count : Nat) (records : Nat → Decoded) :
    Prop where
  shows : ∀ i < count, (records i).Shows c
  adjacent : ∀ i, i + 1 < count →
    (records i).start + (records i).size = (records (i + 1)).start
  placeholders : ∀ i j, i < j → j < count → (records i).valid = true → (records j).valid = true
  forward : 0 ≤ k → (records 0).start = (following c)^[k.toNat] base ∧
    ∀ i < count, (records i).valid = true
  /-- The records before the base are the first ones of the history that leads up to it. -/
  backward : k < 0 → ∃ history cursor known, history.length = (-k).toNat ∧
    Backtrack c base history cursor known ∧
    ∀ i < count, i < (-k).toNat → history[i]? = some (records i)
  fromBase : k < 0 → (-k).toNat < count → (records (-k).toNat).start = base ∧
    ∀ i, (-k).toNat ≤ i → i < count → (records i).valid = true

/-- A prefix of a history may be shown. -/
theorem Backtrack.listed {base cursor : Nat} {history : List Decoded} {known : Bool}
    (track : Backtrack c base history cursor known) : Listed c cursor history :=
  ⟨⟨base, track.spans⟩, track.shows, track.placeholders⟩

namespace Listed

variable {first : Nat} {listed : List Decoded}

/-- Decoded records may be shown. -/
theorem ofDecoded {ending : Nat} (spans : Spans first listed ending)
    (decoded : ∀ record ∈ listed, record.Shows c ∧ record.valid = true) :
    Listed c first listed where
  spans := ⟨ending, spans⟩
  shows := fun record member => (decoded record member).1
  placeholders :=
    List.pairwise_of_forall_mem_list fun _ _ later member _ => (decoded later member).2

/-- The first records of a list are a list of their own. -/
theorem take (here : Listed c first listed) (n : Nat) : Listed c first (listed.take n) where
  spans := here.spans.elim fun _ spans => spans.take n
  shows := fun record member => here.shows record (List.mem_of_mem_take member)
  placeholders := here.placeholders.sublist (List.take_sublist n listed)

/-- Decoded records may follow where the history ends. -/
theorem followedBy {base cursor ending : Nat} {history later : List Decoded} {known : Bool}
    (track : Backtrack c base history cursor known) (spans : Spans base later ending)
    (decoded : ∀ record ∈ later, record.Shows c ∧ record.valid = true) :
    Listed c cursor (history ++ later) where
  spans := ⟨ending, track.spans.append spans⟩
  -- The history keeps its own records, and those behind it are decoded.
  shows := fun record member => (List.mem_append.mp member).elim (track.shows record)
    fun behind => (decoded record behind).1
  placeholders :=
    List.pairwise_append.mpr ⟨track.placeholders, (ofDecoded spans decoded).placeholders,
      fun _ _ later member _ => (decoded later member).2⟩

end Listed

/-- The caller's records once a list of them has been copied there. -/
def copied (staged : List Decoded) (records : Nat → Decoded) (i : Nat) : Decoded :=
  staged[i]?.getD (records i)

/-- A record that was staged is the one the caller gets. -/
theorem copied_of_some {staged : List Decoded} {record : Decoded} {i : Nat}
    (found : staged[i]? = some record) (records : Nat → Decoded) :
    copied staged records i = record := by
  rw [copied, found, Option.getD_some]

/-- Each place up to the end of the staged list holds a staged record. -/
theorem copied_inside {staged : List Decoded} {i : Nat} (inside : i < staged.length)
    (records : Nat → Decoded) : staged[i]? = some (copied staged records i) := by
  rw [copied, List.getElem?_eq_getElem inside, Option.getD_some]

/-- What the caller finds inside the list was staged. -/
theorem copied_mem {staged : List Decoded} {i : Nat} (inside : i < staged.length)
    (records : Nat → Decoded) : copied staged records i ∈ staged :=
  List.mem_of_getElem? (copied_inside inside records)

/-- A copied list keeps what can be said of each record and its neighbours. -/
theorem Listed.windowed {base first count : Nat} {k : Int} {staged : List Decoded}
    {records : Nat → Decoded} (listed : Listed c first staged) (length : staged.length = count)
    (forward : 0 ≤ k → (copied staged records 0).start = (following c)^[k.toNat] base ∧
      ∀ record ∈ staged, record.valid = true)
    (backward : k < 0 → ∃ history cursor known, history.length = (-k).toNat ∧
      Backtrack c base history cursor known ∧
      ∀ i < count, i < (-k).toNat → history[i]? = staged[i]?)
    (fromBase : k < 0 → (-k).toNat < count → (copied staged records (-k).toNat).start = base ∧
      ∀ record ∈ staged.drop (-k).toNat, record.valid = true) :
    Windowed c base k count (copied staged records) := by
  subst length
  -- The fields of the law come one by one: what each record shows, neighbours, placeholders, and
  -- the two directions.
  refine ⟨fun i inside => listed.shows _ (copied_mem inside records), fun i inside => ?_,
    fun i j earlier inside => ?_, fun positive => ?_, fun negative => ?_,
    fun negative reaches => ?_⟩
  · -- Neighbours.
    obtain ⟨ending, spans⟩ := listed.spans
    exact spans.adjacent (copied_inside (by omega) records) (copied_inside inside records)
  · -- Placeholders come before every decoded record.
    have ordered := List.pairwise_iff_getElem.mp listed.placeholders i j (by omega) inside earlier
    rwa [copied_of_some (List.getElem?_eq_getElem (by omega)) records,
      copied_of_some (List.getElem?_eq_getElem inside) records]
  · -- Forward windows.
    exact ⟨(forward positive).1, fun i inside =>
      (forward positive).2 _ (copied_mem inside records)⟩
  · -- Backward windows.
    obtain ⟨history, cursor, known, length, track, same⟩ := backward negative
    exact ⟨history, cursor, known, length, track, fun i inside before =>
      (same i inside before).trans (copied_inside inside records)⟩
  · -- The part of a backward window behind its base.
    refine ⟨(fromBase negative reaches).1, fun i behind inside => ?_⟩
    refine (fromBase negative reaches).2 _ (List.mem_of_getElem? (i := i - (-k).toNat) ?_)
    rw [List.getElem?_drop, show (-k).toNat + (i - (-k).toNat) = i by omega]
    exact copied_inside inside records

/-- The kept records are the first ones of the history. -/
theorem InWindow.staged {predecessorCount temporaryCount : Nat} {history : List Decoded}
    {temporary : Nat → Decoded} (kept : InWindow predecessorCount temporaryCount history temporary)
    (whole : history.length = predecessorCount) (fits : temporaryCount ≤ predecessorCount) :
    (List.range temporaryCount).map temporary = history.take temporaryCount := by
  -- Both lists have the same record at every index.
  subst whole
  refine List.ext_getElem? fun i => ?_
  rcases Nat.lt_or_ge i temporaryCount with inside | outside
  · have found := kept i (by omega) (by omega)
    rw [Nat.sub_self, Nat.zero_add] at found
    rw [List.getElem?_take_of_lt inside, found, List.getElem?_map, List.getElem?_range inside,
      Option.map_some]
  · rw [List.getElem?_eq_none (by simpa using outside),
      List.getElem?_eq_none (by rw [List.length_take]; omega)]

/-- A window that starts at or behind its base. -/
theorem window_forward {base count cursor : Nat} {k : Int}
    {answer : List Decoded × List (Word × Word)} (positive : 0 ≤ k) (some : count ≠ 0)
    (inside : base ≤ 0xFFFF) (skipped : skipInstructions c k.toNat base = .ok cursor)
    (done : decodeRecords c count cursor = .ok answer) (records : Nat → Decoded) :
    Windowed c base k count (copied answer.1 records) := by
  obtain ⟨length, ⟨ending, spans⟩, decoded, -⟩ := decodeRecords_ok done
  -- A forward window has no placeholders, so only the first condition is left.
  refine (Listed.ofDecoded spans decoded).windowed length (fun _ => ⟨?_, fun record member =>
    (decoded record member).2⟩) (fun wrong => absurd wrong (by omega))
    (fun wrong => absurd wrong (by omega))
  rw [← (skipInstructions_ok inside skipped).1]
  -- The count is not zero, so there is a first record.
  cases listed : answer.1 with
  | nil => exact absurd (by rw [← length, listed]; rfl) some
  | cons record rest =>
    rw [listed] at spans
    exact spans.start_eq

/-- A window that starts before its base. -/
theorem window_backward (sound : cache.Sound c) {base count : Nat} {k : Int} {b : Backward}
    {rest : List Decoded × List (Word × Word)} (negative : k < 0) (inside : base ≤ 0xFFFF)
    (found : backward c cache (-k).toNat (min (-k).toNat count) base = .ok b)
    (done : decodeRecords c (count - min (-k).toNat count) base = .ok rest)
    (records : Nat → Decoded) :
    ((List.range (min (-k).toNat count)).map b.temporary ++ rest.1).length = count ∧
    Windowed c base k count
      (copied ((List.range (min (-k).toNat count)).map b.temporary ++ rest.1) records) := by
  obtain ⟨history, whole, track, kept⟩ := backward_ok sound inside found
  obtain ⟨length, ⟨ending, spans⟩, decoded, -⟩ := decodeRecords_ok done
  rw [kept.staged whole (Nat.min_le_left _ _)]
  have total : (history.take (min (-k).toNat count) ++ rest.1).length = count := by
    rw [List.length_append, List.length_take, length]
    omega
  refine ⟨total, ?_⟩
  have before : ∀ i < count, i < (-k).toNat →
      history[i]? = (history.take (min (-k).toNat count) ++ rest.1)[i]? := by
    intro i within early
    rw [List.getElem?_append_left (by rw [List.length_take]; omega),
      List.getElem?_take_of_lt (by omega)]
  rcases Nat.lt_or_ge count (-k).toNat with short | long
  · -- The window is full before it reaches the base.
    have none : rest.1 = [] := List.eq_nil_of_length_eq_zero (by rw [length]; omega)
    have listed : Listed c b.cursor (history.take (min (-k).toNat count) ++ rest.1) := by
      rw [none, List.append_nil]
      exact track.listed.take _
    exact listed.windowed total (fun wrong => absurd wrong (by omega))
      (fun _ => ⟨history, b.cursor, b.known, whole, track, before⟩)
      (fun _ wrong => absurd wrong (by omega))
  · rw [List.take_of_length_le (by omega)] at total before ⊢
    refine (Listed.followedBy track spans decoded).windowed total
      (fun wrong => absurd wrong (by omega))
      (fun _ => ⟨history, b.cursor, b.known, whole, track, before⟩) (fun _ reaches => ?_)
    rw [← whole, List.drop_left]
    refine ⟨?_, fun record member => (decoded record member).2⟩
    cases listed : rest.1 with
    | nil =>
      rw [listed, List.length_nil] at length
      omega
    | cons record later =>
      rw [listed] at spans
      rw [@copied_of_some _ record _ (by simp)]
      exact spans.start_eq

/-- What a window that could be staged shows, and what it stages for the history. -/
theorem stageWindow_ok (sound : cache.Sound c) {reference : Word} {byteOffset k : Int}
    {allocated : Bool} {count : Nat} {answer : List Decoded × List (Word × Word)}
    (done : stageWindow c cache reference byteOffset k allocated count = .ok answer) :
    answer.1.length = count ∧
      (∃ base : Nat, (base : Int) = reference.toNat + byteOffset ∧
        ∀ records, Windowed c base k count (copied answer.1 records)) ∧
      ∀ entry ∈ answer.2, entry.2.toNat + (emuDecodeAt c entry.2).1 = entry.1.toNat := by
  -- The checks come in the order of `emu_decode_window`: arguments, base address, direction.
  simp only [stageWindow] at done
  split at done
  · exact absurd done (by simp)
  rename_i arguments
  split at done
  · exact absurd done (by simp)
  rename_i inside
  have base : (((reference.toNat : Int) + byteOffset).toNat : Int) =
      reference.toNat + byteOffset := Int.toNat_of_nonneg (by omega)
  have low : ((reference.toNat : Int) + byteOffset).toNat ≤ 0xFFFF := by omega
  split at done
  · -- A window before its base needs the history as well.
    rename_i negative
    split at done
    · exact absurd done (by simp)
    · obtain ⟨b, found, later⟩ := except_bind_ok done
      obtain ⟨rest, decoded, answered⟩ := except_bind_ok later
      cases answered
      exact ⟨(window_backward sound negative low found decoded fun _ => invalidRecord 0#16).1,
        ⟨_, base, fun records => (window_backward sound negative low found decoded records).2⟩,
        (decodeRecords_ok decoded).2.2.2⟩
  · -- A window at or behind its base only skips instructions.
    rename_i positive
    obtain ⟨cursor, skipped, decoded⟩ := except_bind_ok done
    have behind := decodeRecords_ok decoded
    exact ⟨behind.1, ⟨_, base, window_forward (by omega) (by omega) low skipped decoded⟩,
      behind.2.2.2⟩

/-! ### Refusals -/

/-- An answer that is no error, or an error with a status of its own. -/
def Refuses {α : Type} (answer : Except DecodeStatus α) : Prop := answer ≠ .error .ok

/-- A refusal in either part is a refusal of the whole. -/
theorem Refuses.bind {α β : Type} {first : Except DecodeStatus α}
    {next : α → Except DecodeStatus β} (early : Refuses first) (late : ∀ a, Refuses (next a)) :
    Refuses (first >>= next) := by
  cases first with
  | error status => exact fun wrong => early (by cases wrong; rfl)
  | ok a => exact late a

/-- A loop of rounds that can only refuse can only refuse. -/
theorem Refuses.foldlM {α β : Type} {step : β → α → Except DecodeStatus β}
    (refuses : ∀ b a, Refuses (step b a)) (items : List α) (b : β) :
    Refuses (items.foldlM step b) := by
  induction items generalizing b with
  | nil => exact nofun
  | cons a items ih => exact (refuses b a).bind ih

/-- Decoding a record can only refuse. -/
theorem decodeRecord_refuses (c : Cpu) (address : Nat) : Refuses (decodeRecord c address) := by
  simp only [decodeRecord]
  split <;> [skip; split] <;> exact nofun

/-- A round of the backward search can only refuse. -/
theorem backwardStep_refuses (c : Cpu) (cache : DecodeCache) (predecessorCount temporaryCount : Nat)
    (b : Backward) (step : Nat) :
    Refuses (backwardStep c cache predecessorCount temporaryCount b step) := by
  simp only [backwardStep]
  split
  · exact (decodeRecord_refuses c _).bind fun _ => nofun
  · split <;> exact nofun

/-- A round of the skipping loop can only refuse. -/
theorem skipStep_refuses (c : Cpu) (cursor : Nat) : Refuses (skipStep c cursor) :=
  (decodeRecord_refuses c cursor).bind fun _ => by split <;> exact nofun

/-- The last loop can only refuse. -/
theorem decodeRecords_refuses (c : Cpu) (remaining cursor : Nat) :
    Refuses (decodeRecords c remaining cursor) := by
  -- By induction on the records still to decode.
  induction remaining generalizing cursor with
  | zero => exact nofun
  | succ remaining ih =>
    refine (decodeRecord_refuses c cursor).bind fun record => ?_
    dsimp only
    split
    · exact nofun
    · exact (ih _).bind fun _ => nofun

/-- Staging a window can only refuse. -/
theorem stageWindow_refuses (c : Cpu) (cache : DecodeCache) (reference : Word)
    (byteOffset k : Int) (allocated : Bool) (count : Nat) :
    Refuses (stageWindow c cache reference byteOffset k allocated count) := by
  -- The arguments and the base are checked, and the window begins before the base or behind it.
  simp only [stageWindow]
  split
  · exact nofun
  split
  · exact nofun
  split
  · split
    · exact nofun
    · exact (Refuses.foldlM (backwardStep_refuses c cache _ _) _ _).bind fun _ =>
        (decodeRecords_refuses c _ _).bind fun _ => nofun
  · exact (Refuses.foldlM (fun cursor _ => skipStep_refuses c cursor) _ _).bind
      (decodeRecords_refuses c count)

/-! ### Runs -/

/-- Every window keeps the history true, whatever it answers. -/
theorem emuDecodeWindow_sound (sound : cache.Sound c) (reference : Word) (byteOffset k : Int)
    (allocated : Bool) (count : Nat) (records : Nat → Decoded) :
    (emuDecodeWindow c cache reference byteOffset k allocated count records).cache.Sound c := by
  simp only [emuDecodeWindow]
  split
  · exact sound
  · rename_i staged entries done
    exact sound.noteAll (stageWindow_ok sound done).2.2

/-- So does everything else that can happen. -/
theorem Decoding.run_sound {d : Decoding} (sound : d.cache.Sound d.cpu) (action : DecodeAction) :
    (d.run action).cache.Sound (d.run action).cpu := by
  cases action with
  | load image => exact .cleared _ _
  | reset => exact .cleared _ _
  | executed pc resultingPc => exact sound.completed pc resultingPc
  | window reference byteOffset k allocated count records =>
    exact emuDecodeWindow_sound sound reference byteOffset k allocated count records

/-- What a window answers is decoded, or nothing has changed. -/
structure WindowResult.Answers (d : Decoding) (reference : Word) (byteOffset k : Int) (count : Nat)
    (records : Nat → Decoded) (result : WindowResult) : Prop where
  decoded : result.status = .ok →
    (∃ base : Nat, (base : Int) = reference.toNat + byteOffset ∧
      Windowed d.cpu base k count result.records) ∧
    ∀ i, count ≤ i → result.records i = records i
  refused : result.status ≠ .ok → result.cache = d.cache ∧ result.records = records

/-- A window with a true history. -/
theorem emuDecodeWindow_answers {d : Decoding} (sound : d.cache.Sound d.cpu) (reference : Word)
    (byteOffset k : Int) (allocated : Bool) (count : Nat) (records : Nat → Decoded) :
    (emuDecodeWindow d.cpu d.cache reference byteOffset k allocated count records).Answers d
      reference byteOffset k count records := by
  simp only [emuDecodeWindow]
  -- A failure changes neither the records nor the history.
  split
  · rename_i status failed
    exact ⟨fun done =>
      (stageWindow_refuses _ _ _ _ _ _ _ (failed.trans (congrArg Except.error done))).elim,
      fun _ => ⟨rfl, rfl⟩⟩
  · -- Otherwise the staged records are the ones copied.
    rename_i staged entries done
    obtain ⟨length, ⟨base, here, shows⟩, -⟩ := stageWindow_ok sound done
    refine ⟨fun _ => ⟨⟨base, here, shows records⟩, fun i beyond => ?_⟩,
      fun wrong => absurd rfl wrong⟩
    show staged[i]?.getD (records i) = records i
    rw [List.getElem?_eq_none (length.symm ▸ beyond), Option.getD_none]

/-- A window after any run since the history was empty. -/
theorem window_decodes (start : Decoding) (empty : start.cache.known = fun _ => false)
    (actions : List DecodeAction) :
    (actions.foldl Decoding.run start).cache.Sound (actions.foldl Decoding.run start).cpu ∧
    ∀ (reference : Word) (byteOffset k : Int) (allocated : Bool) (count : Nat)
      (records : Nat → Decoded),
      (emuDecodeWindow (actions.foldl Decoding.run start).cpu
        (actions.foldl Decoding.run start).cache reference byteOffset k allocated count
        records).Answers (actions.foldl Decoding.run start) reference byteOffset k count
        records := by
  -- Every action keeps the history true, so it is true after all of them.
  have sound := Fold.foldl_keeps (I := fun d : Decoding => d.cache.Sound d.cpu) (l := actions)
    (fun action _ _ before => Decoding.run_sound before action)
    (fun x known => absurd known (by simp [empty]) : start.cache.Sound start.cpu)
  exact ⟨sound, emuDecodeWindow_answers sound⟩

/-- A blank program that has executed one instruction, with nothing known before. -/
def Decoding.blank : Decoding where
  cpu := Cpu.blank
  cache := { predecessor := fun _ => 0#16, known := fun _ => false }

/-- The instruction before the reference, and the one there. -/
theorem window_decodes_blank :
    (emuDecodeWindow Cpu.blank (([DecodeAction.executed 0#16 1#16]).foldl Decoding.run
        Decoding.blank).cache 1#16 0 (-1) true 2 fun _ => invalidRecord 0#16).status = .ok ∧
      (emuDecodeWindow Cpu.blank (([DecodeAction.executed 0#16 1#16]).foldl Decoding.run
        Decoding.blank).cache 1#16 0 (-1) true 2 fun _ => invalidRecord 0#16).Answers
          (([DecodeAction.executed 0#16 1#16]).foldl Decoding.run Decoding.blank) 1#16 0 (-1) 2
          fun _ => invalidRecord 0#16 :=
  ⟨by decide +kernel,
    (window_decodes Decoding.blank rfl [.executed 0#16 1#16]).2 1#16 0 (-1) true 2 _⟩

end Emu80535
