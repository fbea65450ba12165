import Logbook.Journal.Scan

/-!
# Scanning a source

The bytes of a journal come from a source, such as a file with a buffer in front of it.  A source
need not hand out at once all that it is asked for; it may be interrupted, and has to be asked again
then; and it may fail.  So the space for a header or a payload is filled by reading over and over,
until it is full or the source has nothing more to give.

* `Source.read`: reading once.
* `Source.fill`: reading until there are as many bytes as are needed.
* `Source.judge`, `Source.payloadFront`, `Source.front`, `Source.scan`: a journal, frame by frame.
-/

namespace Logbook.Journal

/-- What a source does the next time it is read from. -/
inductive Turn where
  /-- It hands out `n + 1` bytes at most: fewer than it is asked for, perhaps, but not none. -/
  | short (n : Nat)
  | interrupted
  | failed
deriving DecidableEq, Repr

/-- Where bytes come from piece by piece. -/
structure Source where
  /-- The bytes that are still to come. -/
  left : ByteArray
  /-- What it does the next times; after these it hands out whatever it is asked for. -/
  turns : List Turn

/-- What comes of reading once. -/
inductive Reading where
  /-- There are no bytes only if none were asked for or none are left. -/
  | bytes (chunk : ByteArray)
  | interrupted
  | failed

/-- Why a source cannot be scanned. -/
inductive SourceFault where
  /-- Reading failed. -/
  | unread
  /-- What was read is no journal. -/
  | fault (fault : Fault)

namespace Source

/-- Hands out so many bytes. -/
def handOut (n : Nat) (left : ByteArray) (turns : List Turn) : Reading × Source :=
  (.bytes (left.extract 0 n), ⟨left.extract n left.size, turns⟩)

/-- Asks a source once for so many bytes. -/
def read (n : Nat) (s : Source) : Reading × Source :=
  match s.turns with
  | [] => handOut n s.left []
  | .short m :: turns => handOut (min n (m + 1)) s.left turns
  | .interrupted :: turns => (.interrupted, ⟨s.left, turns⟩)
  | .failed :: turns => (.failed, ⟨s.left, turns⟩)

/-! ## Reading once -/

/-- The bytes that are handed out are the next ones. -/
theorem left_of_handOut {n : Nat} {left chunk : ByteArray} {turns : List Turn} {after : Source}
    (h : handOut n left turns = (.bytes chunk, after)) :
    left = chunk ++ after.left ∧ chunk.size = min n left.size ∧ after.turns = turns := by
  obtain ⟨hchunk, rfl⟩ := Prod.mk.inj h
  obtain rfl := Reading.bytes.inj hchunk
  refine ⟨?_, by rw [ByteArray.size_extract, Nat.sub_zero], rfl⟩
  rw [ByteArray.extract_append_extract, Nat.zero_min, ByteArray.extract_zero_max_size]

theorem left_of_read {n : Nat} {s after : Source} {chunk : ByteArray}
    (h : s.read n = (.bytes chunk, after)) :
    s.left = chunk ++ after.left ∧ chunk.size ≤ n ∧
      (chunk.size = 0 → n = 0 ∨ s.left.size = 0) ∧ after.turns <:+ s.turns := by
  unfold read at h
  split at h
  · rename_i hturns
    obtain ⟨hleft, hsize, hafter⟩ := left_of_handOut h
    refine ⟨hleft, by omega, by omega, ?_⟩
    rw [hafter]
    exact List.nil_suffix
  · rename_i hturns
    obtain ⟨hleft, hsize, hafter⟩ := left_of_handOut h
    refine ⟨hleft, by omega, by omega, ?_⟩
    rw [hafter, hturns]
    exact List.suffix_cons _ _
  · cases congrArg Prod.fst h
  · cases congrArg Prod.fst h

theorem turns_of_interrupted {n : Nat} {s after : Source} (h : s.read n = (.interrupted, after)) :
    s.turns = .interrupted :: after.turns ∧ after.left = s.left := by
  unfold read at h
  split at h
  · cases congrArg Prod.fst h
  · cases congrArg Prod.fst h
  · rename_i hturns
    obtain rfl := congrArg Prod.snd h
    exact ⟨hturns, rfl⟩
  · cases congrArg Prod.fst h

theorem failed_mem_of_read {n : Nat} {s after : Source} (h : s.read n = (.failed, after)) :
    Turn.failed ∈ s.turns := by
  unfold read at h
  split at h
  · cases congrArg Prod.fst h
  · cases congrArg Prod.fst h
  · cases congrArg Prod.fst h
  · rename_i hturns
    rw [hturns]
    exact List.mem_cons_self

/-! ## Reading until there are enough bytes -/

/-- Reads until there are so many bytes, or until the source has no more; `got` holds those that
have been read already. -/
def fill (n : Nat) (got : ByteArray) (s : Source) : Option (ByteArray × Source) :=
  if got.size < n then
    match _h : s.read (n - got.size) with
    | (.bytes chunk, after) =>
      if chunk.size = 0 then some (got, after) else fill n (got ++ chunk) after
    | (.interrupted, after) => fill n got after
    | (.failed, _) => none
  else some (got, s)
termination_by s.turns.length + (n - got.size)
decreasing_by
  · have hturns := (left_of_read _h).2.2.2.length_le
    rw [ByteArray.size_append]
    omega
  · have hturns := (turns_of_interrupted _h).1
    rw [hturns, List.length_cons]
    omega

/-- Nothing is lost on the way, and there are too few bytes only if the source has no more. -/
theorem append_left_of_fill {n : Nat} {got bytes : ByteArray} {s after : Source}
    (h : s.fill n got = some (bytes, after)) (hgot : got.size ≤ n) :
    bytes ++ after.left = got ++ s.left ∧ bytes.size ≤ n ∧
      (bytes.size < n → after.left.size = 0) := by
  fun_induction fill n got s with
  | case1 got s hlt chunk next hread hchunk =>
    obtain ⟨rfl, rfl⟩ := Prod.mk.inj (Option.some.inj h)
    obtain ⟨hleft, -, hnone, -⟩ := left_of_read hread
    rw [ByteArray.size_eq_zero_iff.1 hchunk, ByteArray.empty_append] at hleft
    refine ⟨by rw [hleft], hgot, fun _ => ?_⟩
    rw [← hleft]
    exact (hnone hchunk).resolve_left (by omega)
  | case2 got s hlt chunk next hread hchunk ih =>
    obtain ⟨hleft, hsize, -, -⟩ := left_of_read hread
    have hle : (got ++ chunk).size ≤ n := by
      rw [ByteArray.size_append]
      omega
    obtain ⟨hbytes, hrest⟩ := ih h hle
    refine ⟨?_, hrest⟩
    rw [hbytes, ByteArray.append_assoc, ← hleft]
  | case3 got s hlt next hread ih =>
    rw [← (turns_of_interrupted hread).2]
    exact ih h hgot
  | case4 => cases h
  | case5 got s hge =>
    obtain ⟨rfl, rfl⟩ := Prod.mk.inj (Option.some.inj h)
    exact ⟨rfl, hgot, fun hlt => absurd hlt hge⟩

/-- What is read first are the first bytes. -/
theorem left_of_fill {n : Nat} {bytes : ByteArray} {s after : Source}
    (h : s.fill n .empty = some (bytes, after)) :
    s.left = bytes ++ after.left ∧ bytes.size ≤ n ∧ (bytes.size < n → after.left.size = 0) := by
  obtain ⟨hleft, hsize⟩ := append_left_of_fill h (Nat.zero_le n)
  rw [ByteArray.empty_append] at hleft
  exact ⟨hleft.symm, hsize⟩

theorem size_left_of_fill {n : Nat} {bytes : ByteArray} {s after : Source}
    (h : s.fill n .empty = some (bytes, after)) : s.left.size = bytes.size + after.left.size := by
  rw [(left_of_fill h).1, ByteArray.size_append]

/-! ## Frame by frame -/

/-- What a header and the bytes of the payload that could be read are. -/
def judge (header payload : ByteArray) : Front :=
  if payload.size < Frame.wordAt header 0 then .torn
  else if (Crc32.checksum payload).toNat ≠ Frame.wordAt header 4 then .damaged .checksum
  else
    match Record.ofPayload? payload with
    | some record => .good record (Frame.headerSize + Frame.wordAt header 0)
    | none => .damaged .payload

/-- Reads the payload that a header announces, and judges the frame. -/
def payloadFront (header : ByteArray) (s : Source) : Option (Front × Source) :=
  if Frame.maxPayload < Frame.wordAt header 0 then some (.damaged .length, s)
  else (s.fill (Frame.wordAt header 0) .empty).map fun (payload, s) => (judge header payload, s)

/-- Reads what stands next in a source; a good frame ends so many bytes further on. -/
def front (s : Source) : Option (Front × Source) :=
  match s.fill Frame.headerSize .empty with
  | none => none
  | some (header, s) =>
    if header.size = 0 then some (.nothing, s)
    else if header.size < Frame.headerSize then some (.torn, s)
    else s.payloadFront header

/-- A payload that is not too long is read and judged. -/
theorem fill_of_payloadFront {header : ByteArray} {s after : Source} {found : Front}
    (hmax : ¬Frame.maxPayload < Frame.wordAt header 0)
    (h : s.payloadFront header = some (found, after)) :
    ∃ payload, s.fill (Frame.wordAt header 0) .empty = some (payload, after) ∧
      found = judge header payload := by
  rw [payloadFront, if_neg hmax, Option.map_eq_some_iff] at h
  obtain ⟨⟨payload, rest⟩, hfill, hfound⟩ := h
  obtain ⟨rfl, rfl⟩ := Prod.mk.inj hfound
  exact ⟨payload, hfill, rfl⟩

/-- A source has no more bytes left behind a payload. -/
theorem left_le_of_payloadFront {header : ByteArray} {s after : Source} {found : Front}
    (h : s.payloadFront header = some (found, after)) : after.left.size ≤ s.left.size := by
  by_cases hmax : Frame.maxPayload < Frame.wordAt header 0
  · obtain ⟨-, rfl⟩ := Prod.mk.inj (Option.some.inj ((if_pos hmax).symm.trans h))
    exact Nat.le_refl _
  · obtain ⟨payload, hfill, -⟩ := fill_of_payloadFront hmax h
    have hsize := size_left_of_fill hfill
    omega

/-- A source has fewer bytes left behind a good frame. -/
theorem left_lt_of_front {next : Nat} {s after : Source} {record : Record}
    (h : s.front = some (.good record next, after)) : after.left.size < s.left.size := by
  unfold front at h
  split at h
  · cases h
  rename_i header behind hheader
  have hsize := size_left_of_fill hheader
  split at h
  · cases h
  split at h
  · cases h
  have hle := left_le_of_payloadFront h
  omega

/-- Scans a source from an offset in the journal on; `done` holds the records in front of it, last
first. -/
def scanFrom (offset : Nat) (done : List Record) (s : Source) : Except SourceFault Scan :=
  match _h : s.front with
  | none => .error .unread
  | some (.nothing, _) => .ok ⟨done.reverse, offset, false⟩
  | some (.torn, _) => .ok ⟨done.reverse, offset, true⟩
  | some (.damaged damage, _) => .error (.fault (.corrupt offset damage))
  | some (.good record next, after) => scanFrom (offset + next) (record :: done) after
termination_by s.left.size
decreasing_by exact left_lt_of_front _h

/-- Scans a source. -/
def scan (s : Source) : Except SourceFault Scan := s.scanFrom 0 []

end Source

end Logbook.Journal
