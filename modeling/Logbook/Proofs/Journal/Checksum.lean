import Mathlib.Data.List.Basic
import Mathlib.Data.Nat.Bitwise
import Mathlib.Logic.Function.Iterate
import Logbook.Crc32

/-!
# A changed byte changes the checksum

The register of the checksum forgets nothing.  The bit that a shift drops can be read off the
highest bit of what comes out, since the polynomial has that bit and a number shifted down has not;
so a shift can be undone (`shift_injective`), and feeding a byte can be undone when either the byte
or the register before it is known.

Two sequences of bytes that differ in one place put the register into two states there, and the
bytes after that place keep the two apart.  Hence the checksum tells them apart, however long they
are.

* `shift_injective`: one bit.
* `feed_left_injective`, `feed_right_injective`: one byte, seen from the register and from the byte.
* `run_injective`: a list of bytes.
* `checksum_set!_ne`: one changed byte.
-/

namespace Logbook.Crc32

/-! ## One bit -/

/-- The lowest bit of a register, as a number. -/
theorem and_one_eq_one_iff (r : UInt32) : r &&& 1 = 1 ↔ r.toNat % 2 = 1 := by
  rw [← UInt32.toNat_inj, UInt32.toNat_and]
  show r.toNat &&& 1 = 1 ↔ _
  rw [Nat.and_one_is_mod]

theorem toNat_shiftRight_one (r : UInt32) : (r >>> 1).toNat = r.toNat / 2 := by
  rw [UInt32.toNat_shiftRight]
  show r.toNat >>> 1 = _
  rw [Nat.shiftRight_one]

/-- A register is known from its lowest bit and the rest. -/
theorem eq_of_shiftRight_one {r s : UInt32} (hrest : r >>> 1 = s >>> 1)
    (hlow : r &&& 1 = 1 ↔ s &&& 1 = 1) : r = s := by
  rw [and_one_eq_one_iff, and_one_eq_one_iff] at hlow
  have hhalf := congrArg UInt32.toNat hrest
  rw [toNat_shiftRight_one, toNat_shiftRight_one] at hhalf
  apply UInt32.toNat_inj.1
  omega

/-- The polynomial has the highest bit, and a register that was shifted down has not. -/
theorem shiftRight_one_xor_polynomial_ne (r s : UInt32) :
    (r >>> 1) ^^^ polynomial ≠ s >>> 1 := by
  intro h
  have hpolynomial : polynomial = (r >>> 1) ^^^ (s >>> 1) := by
    rw [← h, ← UInt32.xor_assoc, UInt32.xor_self, UInt32.zero_xor]
  have hhalf : ∀ t : UInt32, (t >>> 1).toNat < 2 ^ 31 := by
    intro t
    rw [toNat_shiftRight_one]
    have := t.toNat_lt
    omega
  have hlt : polynomial.toNat < 2 ^ 31 := by
    rw [hpolynomial, UInt32.toNat_xor]
    exact Nat.xor_lt_two_pow (hhalf r) (hhalf s)
  exact absurd hlt (by decide)

/-- **A shift can be undone.** -/
theorem shift_injective : Function.Injective shift := by
  intro r s h
  rw [shift, shift] at h
  by_cases hr : r &&& 1 = 1 <;> by_cases hs : s &&& 1 = 1
  · rw [if_pos hr, if_pos hs] at h
    exact eq_of_shiftRight_one (UInt32.xor_left_inj polynomial |>.1 h) (iff_of_true hr hs)
  · rw [if_pos hr, if_neg hs] at h
    exact absurd h (shiftRight_one_xor_polynomial_ne r s)
  · rw [if_neg hr, if_pos hs] at h
    exact absurd h.symm (shiftRight_one_xor_polynomial_ne s r)
  · rw [if_neg hr, if_neg hs] at h
    exact eq_of_shiftRight_one h (iff_of_false hr hs)

/-! ## One byte -/

theorem feed_eq_iterate (r : UInt32) (byte : UInt8) :
    feed r byte = shift^[8] (r ^^^ byte.toUInt32) := rfl

theorem feed_left_injective (byte : UInt8) : Function.Injective fun r => feed r byte := by
  intro r s h
  have hxor := shift_injective.iterate 8 h
  exact (UInt32.xor_left_inj byte.toUInt32).1 hxor

theorem feed_right_injective (r : UInt32) : Function.Injective (feed r) := by
  intro byte other h
  rw [feed_eq_iterate, feed_eq_iterate] at h
  have hxor := shift_injective.iterate 8 h
  rw [UInt32.xor_right_inj] at hxor
  have hnat := congrArg UInt32.toNat hxor
  rw [UInt8.toNat_toUInt32, UInt8.toNat_toUInt32] at hnat
  exact UInt8.toNat_inj.1 hnat

/-! ## Sequences of bytes -/

/-- **Bytes keep two registers apart.** -/
theorem run_injective (bytes : List UInt8) : Function.Injective fun r => run r bytes := by
  induction bytes with
  | nil => exact fun r s h => h
  | cons byte bytes ih => exact fun r s h => feed_left_injective byte (ih h)

/-- Bytes that differ in one place leave different registers. -/
theorem run_ne_of_ne {byte other : UInt8} (h : byte ≠ other) (r : UInt32)
    (front back : List UInt8) :
    run r (front ++ byte :: back) ≠ run r (front ++ other :: back) := by
  rw [run_append, run_append, run_cons, run_cons]
  intro heq
  exact h (feed_right_injective _ (run_injective back heq))

/-- **A changed byte changes the checksum.** -/
theorem checksum_set!_ne {bytes : ByteArray} {k : ℕ} (hk : k < bytes.size) {byte : UInt8}
    (h : bytes[k] ≠ byte) : checksum (bytes.set! k byte) ≠ checksum bytes := by
  have hlength : k < bytes.data.toList.length := hk
  have hset : (bytes.set! k byte).data.toList = bytes.data.toList.set k byte := by
    show (bytes.data.set! k byte).toList = _
    rw [Array.set!_eq_setIfInBounds, Array.toList_setIfInBounds]
  have hsplit : bytes.data.toList.take k ++ bytes[k] :: bytes.data.toList.drop (k + 1)
      = bytes.data.toList := by
    show bytes.data.toList.take k ++ bytes.data.toList[k] :: _ = _
    rw [← List.drop_eq_getElem_cons hlength, List.take_append_drop]
  intro heq
  rw [checksum_eq, checksum_eq, hset, List.set_eq_take_append_cons_drop, if_pos hlength,
    UInt32.not_inj] at heq
  have hne := run_ne_of_ne h 0xFFFFFFFF (bytes.data.toList.take k) (bytes.data.toList.drop (k + 1))
  rw [hsplit] at hne
  exact hne heq.symm

end Logbook.Crc32
