/-!
# CRC-32

The checksum of a sequence of bytes: the remainder of its polynomial, lowest bit first, modulo
`x^32 + x^26 + x^23 + x^22 + x^16 + x^12 + x^11 + x^10 + x^8 + x^7 + x^5 + x^4 + x^2 + x + 1`.  The
register starts with all bits set and is inverted at the end.

* `shift`, `feed`: one bit and one byte through the register.
* `run`: a list of bytes through the register.
* `checksum`, `checksum_eq`: the checksum of an array of bytes.
-/

namespace Logbook.Crc32

/-- The polynomial, lowest power in the highest bit. -/
def polynomial : UInt32 := 0xEDB88320

/-- The register after one more bit. -/
def shift (r : UInt32) : UInt32 :=
  if r &&& 1 = 1 then (r >>> 1) ^^^ polynomial else r >>> 1

/-- The register after one more byte. -/
def feed (r : UInt32) (byte : UInt8) : UInt32 :=
  shift (shift (shift (shift (shift (shift (shift (shift (r ^^^ byte.toUInt32))))))))

/-! ## Sequences of bytes -/

/-- The register after a list of bytes. -/
def run (r : UInt32) (bytes : List UInt8) : UInt32 := bytes.foldl feed r

@[simp] theorem run_nil (r : UInt32) : run r [] = r := rfl

@[simp] theorem run_cons (r : UInt32) (byte : UInt8) (bytes : List UInt8) :
    run r (byte :: bytes) = run (feed r byte) bytes := rfl

@[simp] theorem run_append (r : UInt32) (front back : List UInt8) :
    run r (front ++ back) = run (run r front) back := by
  simp [run]

/-- The register after the bytes from an index on. -/
def runFrom (bytes : ByteArray) (start : Nat) (r : UInt32) : UInt32 :=
  if h : start < bytes.size then runFrom bytes (start + 1) (feed r bytes[start]) else r
termination_by bytes.size - start

theorem runFrom_eq (bytes : ByteArray) (start : Nat) (r : UInt32) :
    runFrom bytes start r = run r (bytes.data.toList.drop start) := by
  fun_induction runFrom bytes start r with
  | case1 start r h ih =>
    have h' : start < bytes.data.toList.length := h
    rw [ih, List.drop_eq_getElem_cons h', run_cons]
    rfl
  | case2 start r h =>
    have h' : bytes.data.toList.length ≤ start := Nat.le_of_not_lt h
    rw [List.drop_eq_nil_of_le h', run_nil]

/-- The checksum of bytes. -/
def checksum (bytes : ByteArray) : UInt32 := ~~~ runFrom bytes 0 0xFFFFFFFF

theorem checksum_eq (bytes : ByteArray) :
    checksum bytes = ~~~ run 0xFFFFFFFF bytes.data.toList := by
  rw [checksum, runFrom_eq, List.drop_zero]

/-- The check value that the parameters of this checksum are known by. -/
example : ~~~ run 0xFFFFFFFF "123456789".toUTF8.data.toList = 0xCBF43926 := by
  decide +kernel

end Logbook.Crc32
