import Emu80535.Core.Debugger
import Emu80535.Lib.Bits

/-! The bitmap of breakpoints holds the addresses of the last list that was accepted. -/

namespace Emu80535

open Bits

variable {a b : Word} {bitmap : Bitmap}

/-! ### Addresses and their bits -/

/-- The byte of the bitmap an address is in. -/
theorem bitmapByte_toNat (a : Word) : (bitmapByte a).toNat = a.toNat / 8 := by
  have small := a.isLt
  rw [bitmapByte, BitVec.toNat_setWidth, BitVec.toNat_ushiftRight, Nat.shiftRight_eq_div_pow]
  omega

/-- The mask of an address has the bit of its last three binary digits. -/
theorem bitmapMask_eq (a : Word) : bitmapMask a = 1#8 <<< (a.toNat % 8) := by
  have low : (a &&& 7#16).toNat = a.toNat % 8 := by
    rw [BitVec.toNat_and]
    exact Nat.and_two_pow_sub_one_eq_mod a.toNat 3
  rw [bitmapMask, BitVec.shiftLeft_eq', low]

/-- An address is its byte and its bit. -/
theorem address_ext (byte : bitmapByte a = bitmapByte b) (bit : a.toNat % 8 = b.toNat % 8) :
    a = b := by
  have bytes := congrArg BitVec.toNat byte
  rw [bitmapByte_toNat, bitmapByte_toNat] at bytes
  exact BitVec.eq_of_toNat_eq (by omega)

/-- A breakpoint is the bit of its address. -/
theorem breakpointAt_bit (bitmap : Bitmap) (a : Word) :
    breakpointAt bitmap a = (bitmap (bitmapByte a)).getLsbD (a.toNat % 8) := by
  have clear := @and_one_shiftLeft_eq_zero_iff 8 (bitmap (bitmapByte a)) (a.toNat % 8)
    (Nat.mod_lt _ (by decide))
  rw [breakpointAt, has, bitmapMask_eq, Bool.eq_iff_iff, bne_iff_ne]
  exact (not_congr clear).trans (by simp)

/-- Setting an address adds it and no other. -/
theorem breakpointAt_set (bitmap : Bitmap) (a b : Word) :
    breakpointAt (bitmap.set a) b = (breakpointAt bitmap b || decide (b = a)) := by
  have inside : b.toNat % 8 < 8 := Nat.mod_lt _ (by decide)
  rw [breakpointAt_bit, breakpointAt_bit, Bitmap.set]
  -- In the byte that was written the mask decides, in any other byte nothing changed.
  by_cases byte : bitmapByte b = bitmapByte a
  · rw [byte, Function.update_self, BitVec.getLsbD_or, bitmapMask_eq, getLsbD_one_shiftLeft]
    congr 1
    rw [Bool.eq_iff_iff]
    simp only [inside, decide_true, Bool.true_and, decide_eq_true_eq]
    exact ⟨address_ext byte, fun same => by rw [same]⟩
  · rw [Function.update_of_ne byte, decide_eq_false fun same => byte (congrArg bitmapByte same),
      Bool.or_false]

/-- Bitmaps with the same breakpoints are the same. -/
theorem bitmap_ext {other : Bitmap} (same : ∀ a, breakpointAt bitmap a = breakpointAt other a) :
    bitmap = other := by
  funext byte
  apply BitVec.eq_of_getLsbD_eq
  intro bit inside
  -- The address that this bit of this byte stands for.
  have size := byte.isLt
  have whole : (BitVec.ofNat 16 (byte.toNat * 8 + bit)).toNat = byte.toNat * 8 + bit := by
    rw [BitVec.toNat_ofNat]
    omega
  have place : bitmapByte (BitVec.ofNat 16 (byte.toNat * 8 + bit)) = byte := by
    apply BitVec.eq_of_toNat_eq
    rw [bitmapByte_toNat, whole]
    omega
  have listed := same (BitVec.ofNat 16 (byte.toNat * 8 + bit))
  rw [breakpointAt_bit, breakpointAt_bit, place, whole] at listed
  rwa [show (byte.toNat * 8 + bit) % 8 = bit by omega] at listed

/-! ### Lists of addresses -/

/-- What the loop has set is what stood before it, and its addresses. -/
theorem breakpointFill_at {addresses : List Word} {filled : Bitmap}
    (done : breakpointFill addresses bitmap = some filled) (a : Word) :
    breakpointAt filled a = (breakpointAt bitmap a || decide (a ∈ addresses)) := by
  -- By induction on the addresses; each one set stays set.
  induction addresses generalizing bitmap with
  | nil =>
    obtain rfl := Option.some.inj done
    simp
  | cons first rest ih =>
    rw [breakpointFill] at done
    split at done
    · exact absurd done (by simp)
    · rw [ih done, breakpointAt_set, Bool.or_assoc]
      simp [List.mem_cons]

/-- The loop ends well on addresses that differ, and that are not set before it. -/
theorem breakpointFill_isSome (addresses : List Word) (bitmap : Bitmap) :
    (breakpointFill addresses bitmap).isSome = true ↔
      addresses.Nodup ∧ ∀ a ∈ addresses, breakpointAt bitmap a = false := by
  -- By induction on the addresses: one that is set already ends the loop.
  induction addresses generalizing bitmap with
  | nil => simp [breakpointFill]
  | cons first rest ih =>
    rw [breakpointFill]
    split
    · rename_i set
      refine iff_of_false (by simp) fun free => ?_
      exact absurd set (by rw [free.2 first List.mem_cons_self]; exact Bool.false_ne_true)
    · rename_i clear
      rw [ih, List.nodup_cons, List.forall_mem_cons]
      constructor
      · -- A repeated address is found set when it comes again.
        rintro ⟨apart, free⟩
        refine ⟨⟨fun again => ?_, apart⟩, Bool.eq_false_iff.mpr clear, fun a member => ?_⟩
        · have stays := free first again
          rw [breakpointAt_set] at stays
          simp at stays
        · have stays := free a member
          rw [breakpointAt_set] at stays
          exact (Bool.or_eq_false_iff.mp stays).1
      · rintro ⟨⟨once, apart⟩, -, free⟩
        refine ⟨apart, fun a member => ?_⟩
        rw [breakpointAt_set, free a member, Bool.false_or]
        exact decide_eq_false fun same => once (same ▸ member)

/-! ### Replacement -/

/--
Whatever list a debugger is given, it takes the breakpoints of the list or leaves its own alone: it
takes up to 1024 addresses that differ, and then breaks at those and at no others.
-/
theorem breakpoints_replaced (addresses : List Word) (d : Debugger) :
    (1024 < addresses.length →
      debuggerReplaceBreakpoints addresses d = (.breakpointLimit, d)) ∧
      (addresses.length ≤ 1024 → ¬addresses.Nodup →
        debuggerReplaceBreakpoints addresses d = (.invalidArgument, d)) ∧
      (addresses.length ≤ 1024 → addresses.Nodup →
        ∃ bitmap, debuggerReplaceBreakpoints addresses d = (.ok, { d with breakpoints := bitmap }) ∧
          ∀ other : Bitmap, other = bitmap ↔ ∀ a, breakpointAt other a = true ↔ a ∈ addresses) := by
  -- The loop starts on the empty bitmap, so only repetitions can stop it.
  have empty : ∀ a, breakpointAt Bitmap.empty a = false := fun a => by
    rw [breakpointAt_bit, Bitmap.empty, BitVec.getLsbD_zero]
  have accepts := breakpointFill_isSome addresses Bitmap.empty
  refine ⟨fun many => by rw [debuggerReplaceBreakpoints, if_pos many], fun few repeated => ?_,
    fun few apart => ?_⟩
  · rw [debuggerReplaceBreakpoints, if_neg (Nat.not_lt.mpr few), breakpointReplace]
    cases filled : breakpointFill addresses Bitmap.empty with
    | none => rfl
    | some bitmap => exact absurd (accepts.mp (by rw [filled]; rfl)).1 repeated
  · obtain ⟨bitmap, filled⟩ := Option.isSome_iff_exists.mp
      (accepts.mpr ⟨apart, fun a _ => empty a⟩)
    have listed : ∀ a, breakpointAt bitmap a = true ↔ a ∈ addresses := fun a => by
      rw [breakpointFill_at filled, empty, Bool.false_or, decide_eq_true_eq]
    refine ⟨bitmap, ?_, fun other =>
      ⟨fun same => same ▸ listed, fun same => bitmap_ext fun a => ?_⟩⟩
    · rw [debuggerReplaceBreakpoints, if_neg (Nat.not_lt.mpr few), breakpointReplace, filled]
    · rw [Bool.eq_iff_iff, same, listed]

end Emu80535
