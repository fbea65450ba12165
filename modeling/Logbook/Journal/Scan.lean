import Logbook.Journal.Frame

/-!
# Scanning a journal

The bytes of a journal are read frame by frame.  At an offset there stands nothing, a good frame, a
frame that was cut short, or a damaged one.  A frame cut short is the mark of a write that was not
finished: the scan ends there and says so.  A damaged frame is never passed over.

* `Front`, `front`: what stands at an offset.
* `Scan`, `scan`: the records, how far the good frames reach, and whether a torn one follows.
* `records`, `repair`: what reading and opening take from a scan.
* `append`, `appendAll`: the bytes after a record or a batch.
-/

namespace Logbook.Journal

/-- What stands at an offset. -/
inductive Front where
  /-- The bytes end here. -/
  | nothing
  /-- A frame begins, and the bytes end before it does. -/
  | torn
  | damaged (damage : Damage)
  /-- A good frame, and the offset at which it ends. -/
  | good (record : Record) (next : Nat)

/-- What stands at an offset.  A frame is judged by its length limit first, then by its missing
bytes, its checksum and its record. -/
def front (bytes : ByteArray) (offset : Nat) : Front :=
  if bytes.size ≤ offset then .nothing
  else if bytes.size < offset + Frame.headerSize then .torn
  else
    let size := Frame.wordAt bytes offset
    let start := offset + Frame.headerSize
    if Frame.maxPayload < size then .damaged .length
    else if bytes.size < start + size then .torn
    else
      let payload := bytes.extract start (start + size)
      if (Crc32.checksum payload).toNat ≠ Frame.wordAt bytes (offset + 4) then
        .damaged .checksum
      else
        match Record.ofPayload? payload with
        | some record => .good record (start + size)
        | none => .damaged .payload

/-- A good frame has bytes, and ends where the bytes end or before. -/
theorem lt_of_front {bytes : ByteArray} {offset next : Nat} {record : Record}
    (h : front bytes offset = .good record next) : offset < next ∧ next ≤ bytes.size := by
  unfold front at h
  simp only [Frame.headerSize] at h
  grind

/-- What a scan finds. -/
structure Scan where
  records : List Record
  /-- The number of bytes that the good frames take. -/
  size : Nat
  /-- The bytes end in a frame that was cut short. -/
  torn : Bool

/-- Scans the bytes from an offset on; `done` holds the records in front of it, last first. -/
def scanFrom (bytes : ByteArray) (offset : Nat) (done : List Record) : Except Fault Scan :=
  match _h : front bytes offset with
  | .nothing => .ok ⟨done.reverse, offset, false⟩
  | .torn => .ok ⟨done.reverse, offset, true⟩
  | .damaged damage => .error (.corrupt offset damage)
  | .good record next => scanFrom bytes next (record :: done)
termination_by bytes.size - offset
decreasing_by
  have := lt_of_front _h
  omega

/-- Scans the bytes of a journal. -/
def scan (bytes : ByteArray) : Except Fault Scan := scanFrom bytes 0 []

/-- The records of a journal; a torn frame at the end is passed over. -/
def records (bytes : ByteArray) : Except Fault (List Record) := (scan bytes).map Scan.records

/-- The journal without a torn frame at its end. -/
def repair (bytes : ByteArray) : Except Fault ByteArray :=
  (scan bytes).map fun found => if found.torn then bytes.extract 0 found.size else bytes

/-! ## Appending -/

/-- The journal with one more record. -/
def append (record : Record) (bytes : ByteArray) : Except Fault ByteArray :=
  (Frame.encode record).map (bytes ++ ·)

/-- The bytes of frames in a row. -/
def join (frames : List ByteArray) : ByteArray := frames.foldl (· ++ ·) ByteArray.empty

/-- The journal with a batch of records more: all of them, or none if one does not fit. -/
def appendAll (batch : List Record) (bytes : ByteArray) : Except Fault ByteArray :=
  (batch.mapM Frame.encode).map fun frames => bytes ++ join frames

end Logbook.Journal
