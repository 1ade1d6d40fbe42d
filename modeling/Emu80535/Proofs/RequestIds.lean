import Emu80535.Debug.RequestIds
import Emu80535.Lib.Probing
import Emu80535.Lib.Fold

/-! Which request identities are accepted, and that none of these is forgotten. -/

namespace Emu80535

open Probing

namespace RequestIds

variable {s : RequestIds} {id : BitVec 64} {accepted : List (BitVec 64)}

/-- The loop is a search whose vacant slot is filled while the count allows. -/
theorem probe_eq (s : RequestIds) (id : BitVec 64) (left at_ : Nat) :
    s.probe id left at_ =
      match search requestIdSlots 0#64 home s.requestIds id left at_ with
      | .free entry =>
        if maxRequestIds ≤ s.requestIdCount then (false, s)
        else
          (true,
            { requestIds := Function.update s.requestIds entry id
              requestIdCount := s.requestIdCount + 1 })
      | _ => (false, s) := by
  -- By induction on the slots left: vacant, the identity itself, or the next slot.
  induction left generalizing at_ with
  | zero => rfl
  | succ left ih =>
    have wraps : (home id + at_) &&& (requestIdSlots - 1) = slot requestIdSlots home id at_ :=
      Nat.and_two_pow_sub_one_eq_mod _ 14
    rw [probe, search, wraps]
    split
    · rfl
    · split
      · rfl
      · exact ih _

/-- What holds of the set after any calls. -/
structure Sound (s : RequestIds) (accepted : List (BitVec 64)) : Prop where
  packed : Packed requestIdSlots 0#64 home s.requestIds
  count : s.requestIdCount = accepted.length
  occupied : (occupied requestIdSlots 0#64 s.requestIds).card = s.requestIdCount
  few : s.requestIdCount ≤ maxRequestIds
  holds : ∀ id, id ≠ 0#64 → ((∃ entry < requestIdSlots, s.requestIds entry = id) ↔ id ∈ accepted)

/-- An empty table remembers nothing, within every bound. -/
theorem sound_empty : Sound empty [] where
  packed := fun _ _ wrong => absurd rfl wrong
  count := rfl
  occupied := by simp [Probing.occupied, empty]
  few := Nat.zero_le _
  holds := fun id real =>
    ⟨fun held => held.elim fun _ both => absurd both.2.symm real, fun wrong => absurd wrong (by simp)⟩

namespace Sound

/-- An identity that has been accepted is refused. -/
theorem refuses (sound : Sound s accepted) (real : id ≠ 0#64) (member : id ∈ accepted) :
    s.idInsert id = (false, s) := by
  rw [idInsert, probe_eq, sound.packed.search_found real ((sound.holds id real).mpr member)]

/-- Any other one finds a vacant slot, which it takes while there have been fewer than the limit. -/
theorem answers (sound : Sound s accepted) (real : id ≠ 0#64) (fresh : id ∉ accepted) :
    if accepted.length < maxRequestIds then
      (s.idInsert id).1 = true ∧ Sound (s.idInsert id).2 (accepted ++ [id])
    else s.idInsert id = (false, s) := by
  have absent : ∀ entry < requestIdSlots, s.requestIds entry ≠ id := fun entry inside same =>
    fresh ((sound.holds id real).mp ⟨entry, inside, same⟩)
  have room : (Probing.occupied requestIdSlots 0#64 s.requestIds).card < requestIdSlots := by
    have few := sound.few
    rw [sound.occupied]
    simp only [maxRequestIds, requestIdSlots] at few ⊢
    omega
  obtain ⟨entry, inside, ends, free⟩ :=
    @Packed.search_free _ requestIdSlots 0#64 home _ _ id absent (exists_vacant room)
  rw [idInsert, probe_eq, ends]
  dsimp only
  rw [sound.count]
  by_cases below : accepted.length < maxRequestIds
  · rw [if_pos below, if_neg (Nat.not_le.mpr below)]
    refine ⟨rfl, sound.packed.store real ends, ?_, ?_, ?_, fun other nonzero => ?_⟩
    · rw [List.length_append]
      rfl
    · show (Probing.occupied _ _ (Function.update s.requestIds entry id)).card = _
      rw [card_occupied_update inside free real, sound.occupied, sound.count]
    · exact below
    · -- The slot that has been taken held nothing.
      rw [List.mem_append, List.mem_singleton, ← sound.holds other nonzero]
      constructor
      · rintro ⟨there, within, rfl⟩
        by_cases same : there = entry
        · subst same
          exact .inr (Function.update_self ..)
        · exact .inl ⟨there, within, (Function.update_of_ne same ..).symm⟩
      · rintro (⟨there, within, rfl⟩ | rfl)
        · have apart : there ≠ entry := fun same => nonzero (same ▸ free)
          exact ⟨there, within, Function.update_of_ne apart ..⟩
        · exact ⟨entry, inside, Function.update_self ..⟩
  · rw [if_neg below, if_pos (Nat.not_lt.mp below)]

/-- One call. -/
theorem insert (sound : Sound s accepted) (real : id ≠ 0#64) :
    ((s.idInsert id).1 = true ↔ id ∉ accepted ∧ accepted.length < maxRequestIds) ∧
      Sound (s.idInsert id).2 (if (s.idInsert id).1 then accepted ++ [id] else accepted) := by
  -- Whether the identity has been accepted before decides, then whether there is room.
  by_cases member : id ∈ accepted
  · rw [sound.refuses real member]
    exact ⟨iff_of_false (by simp) fun both => both.1 member, sound⟩
  · have answer := sound.answers real member
    split at answer
    · rename_i below
      rw [answer.1]
      exact ⟨iff_of_true rfl ⟨member, below⟩, answer.2⟩
    · rename_i full
      rw [answer]
      exact ⟨iff_of_false (by simp) fun both => full both.2, sound⟩

/-- Any number of calls. -/
theorem insertAll (ids : List (BitVec 64)) (real : ∀ id ∈ ids, id ≠ 0#64) :
    Sound (insertAll ids).1 (insertAll ids).2 :=
  Fold.foldl_keeps (I := fun run : RequestIds × List (BitVec 64) => Sound run.1 run.2)
    (fun id member _ before => (before.insert (real id member)).2) sound_empty

end Sound

/-- What has been accepted stays accepted. -/
theorem insertAll_append (ids more : List (BitVec 64)) :
    (insertAll ids).2 <+: (insertAll (ids ++ more)).2 := by
  rw [insertAll, insertAll, List.foldl_append]
  generalize ids.foldl _ (empty, []) = run
  -- Each call keeps the accepted ones, so the calls together do.
  exact Fold.foldl_rel (R := fun a b : RequestIds × List (BitVec 64) => a.2 <+: b.2)
    (fun _ => List.prefix_refl _) (fun _ _ _ first second => first.trans second)
    (fun run id => by
      show run.2 <+: if (run.1.idInsert id).1 then run.2 ++ [id] else run.2
      split
      · exact List.prefix_append _ _
      · exact List.prefix_refl _) more run

end RequestIds

open RequestIds

/--
A call accepts an identity exactly when it has not been accepted before and fewer than the limit
have been, and an accepted identity stays refused for ever after.
-/
theorem request_ids_remembered (ids : List (BitVec 64)) (real : ∀ id ∈ ids, id ≠ 0#64)
    (id : BitVec 64) (nonzero : id ≠ 0#64) :
    (((insertAll ids).1.idInsert id).1 = true ↔
      id ∉ (insertAll ids).2 ∧ (insertAll ids).2.length < maxRequestIds) ∧
    ∀ more : List (BitVec 64), (∀ other ∈ more, other ≠ 0#64) → id ∈ (insertAll ids).2 →
      ((insertAll (ids ++ more)).1.idInsert id) = (false, (insertAll (ids ++ more)).1) := by
  refine ⟨((Sound.insertAll ids real).insert nonzero).1, fun more others member => ?_⟩
  -- What was accepted among the first identities is still accepted after the others.
  have later := Sound.insertAll (ids ++ more) fun other either =>
    (List.mem_append.mp either).elim (real other) (others other)
  exact later.refuses nonzero ((insertAll_append ids more).subset member)

/-- Three calls of a connection, of which the last one repeats the first. -/
def repeated : List (BitVec 64) := [6#64, 7#64, 6#64]

/-- After them an identity with the first one's home is accepted, and both are refused later. -/
theorem request_ids_remembered_shared :
    home 6#64 = home 10952#64 ∧ (insertAll repeated).2 = [6#64, 7#64] ∧
      ((insertAll repeated).1.idInsert 10952#64).1 = true ∧
      ((insertAll (repeated ++ [10952#64])).1.idInsert 6#64).1 = false ∧
      ((insertAll ((repeated ++ [10952#64]) ++ [8#64])).1.idInsert 10952#64).1 = false := by
  have accepted : (insertAll repeated).2 = [6#64, 7#64] := by decide +kernel
  have all : (insertAll (repeated ++ [10952#64])).2 = [6#64, 7#64, 10952#64] := by decide +kernel
  have real : ∀ id ∈ repeated, id ≠ 0#64 := by simp [repeated]
  have more : ∀ id ∈ repeated ++ [10952#64], id ≠ 0#64 := by simp [repeated]
  -- Both identities have one home, so the second is found past the first.
  obtain ⟨fresh, -⟩ := request_ids_remembered repeated real 10952#64 (by decide)
  obtain ⟨-, first⟩ := request_ids_remembered repeated real 6#64 (by decide)
  obtain ⟨-, second⟩ := request_ids_remembered (repeated ++ [10952#64]) more 10952#64 (by decide)
  have early : 6#64 ∈ (insertAll repeated).2 := by simp [accepted]
  have late : 10952#64 ∈ (insertAll (repeated ++ [10952#64])).2 := by simp [all]
  have unseen : 10952#64 ∉ (insertAll repeated).2 ∧
      (insertAll repeated).2.length < maxRequestIds := by simp [accepted, maxRequestIds]
  exact ⟨by decide +kernel, accepted, fresh.mpr unseen,
    congrArg Prod.fst (first [10952#64] (by simp) early),
    congrArg Prod.fst (second [8#64] (by simp) late)⟩

end Emu80535
