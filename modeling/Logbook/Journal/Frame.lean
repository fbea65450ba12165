import Logbook.Json.Reader
import Logbook.Json.Writer
import Logbook.Crc32

/-!
# Frames

A journal is a sequence of frames, and a frame holds one record: four bytes with the length of
the payload, four bytes with its checksum, both lowest byte first, and the payload, which is the
record as compact JSON.  A payload has at most 16 MiB.

* `Fault`, `Damage`: what can go wrong with a journal, and the wording of it.
* `Frame.word`, `Frame.wordAt`: the bytes of a number.
* `Frame.encode`: the frame of a record.
* `Record.ofPayload?`: the record of a payload.
-/

namespace Logbook

namespace Journal

/-- What can be wrong with a frame. -/
inductive Damage where
  /-- The stated length is beyond the limit. -/
  | length
  /-- The payload does not have the stated checksum. -/
  | checksum
  /-- The payload is no record. -/
  | payload
deriving DecidableEq, Repr

/-- The wording of a damage. -/
def Damage.message : Damage → String
  | length => "frame length exceeds limit"
  | checksum => "checksum mismatch"
  | payload => "payload is not a record"

/-- Why something cannot be done with a journal. -/
inductive Fault where
  /-- The frame at this offset is damaged. -/
  | corrupt (offset : Nat) (damage : Damage)
  /-- A record of this many bytes does not fit a frame. -/
  | tooLong (size : Nat)
  /-- There is no file. -/
  | missing
  /-- No journal is open. -/
  | notOpen
deriving DecidableEq, Repr

namespace Frame

/-- The bytes in front of a payload. -/
def headerSize : Nat := 8

/-- The most bytes in a payload. -/
def maxPayload : Nat := 16 * 1024 * 1024

end Frame

/-- The wording of a fault. -/
def Fault.message : Fault → String
  | corrupt offset damage => "journal corrupt at byte " ++ toString offset ++ ": " ++ damage.message
  | tooLong size =>
    "record of " ++ toString size ++ " bytes exceeds the " ++ toString Frame.maxPayload
      ++ " byte frame limit"
  | missing => "No such file or directory (os error 2)"
  | notOpen => "no journal is open"

namespace Frame

/-! ## Numbers as bytes -/

/-- A number below `2^32` as four bytes, lowest first. -/
def word (n : Nat) : ByteArray :=
  [UInt8.ofNat n, UInt8.ofNat (n / 256), UInt8.ofNat (n / 65536),
    UInt8.ofNat (n / 16777216)].toByteArray

/-- The byte at an index, as a number; zero where there is none. -/
def byteAt (bytes : ByteArray) (i : Nat) : Nat := if h : i < bytes.size then bytes[i].toNat else 0

/-- The number that four bytes denote, lowest first. -/
def ofBytes (a b c d : Nat) : Nat := a + 256 * b + 65536 * c + 16777216 * d

/-- The number whose four bytes stand at an index. -/
def wordAt (bytes : ByteArray) (i : Nat) : Nat :=
  ofBytes (byteAt bytes i) (byteAt bytes (i + 1)) (byteAt bytes (i + 2)) (byteAt bytes (i + 3))

@[simp] theorem size_word (n : Nat) : (word n).size = 4 := by simp [word]

theorem ofBytes_word {n : Nat} (h : n < 4294967296) :
    ofBytes (n % 256) (n / 256 % 256) (n / 65536 % 256) (n / 16777216 % 256) = n := by
  simp only [ofBytes]
  omega

/-! ## Frames -/

/-- The frame around a payload. -/
def around (payload : ByteArray) : ByteArray :=
  word payload.size ++ word (Crc32.checksum payload).toNat ++ payload

@[simp] theorem size_around (payload : ByteArray) :
    (around payload).size = headerSize + payload.size := by
  simp [around, headerSize]

end Frame

end Journal

/-- The bytes of a record: its compact JSON. -/
def Record.payload (record : Record) : ByteArray := (Value.map record).text.toUTF8

/-- The record that bytes denote. -/
def Record.ofPayload? (bytes : ByteArray) : Option Record :=
  match String.fromUTF8? bytes with
  | some text => (Value.ofText? text).bind Value.members?
  | none => none

/-- The frame of a record. -/
def Journal.Frame.encode (record : Record) : Except Fault ByteArray :=
  let payload := Record.payload record
  if payload.size ≤ maxPayload then .ok (around payload) else .error (.tooLong payload.size)

end Logbook
