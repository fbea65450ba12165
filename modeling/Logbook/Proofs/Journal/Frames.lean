import Logbook.Journal.Scan
import Logbook.Proofs.Json.RoundTrip

/-!
# Frames in a row

The bytes of a journal to which nothing but records was appended are the frames of these records in
a row, its image.  A scan of an image finds the records again, and a scan of an image that breaks
off in the middle of the next frame finds the same records and says that a frame is torn.

What stands at an offset depends on the bytes from there on only (`front_append`), so everything is
proved about a frame at the start of the bytes.  The scan then goes from frame to frame.

* `Record.Storable`: the records that a frame can hold.
* `image`: the frames of records in a row.
* `front_of_size_le`, `front_of_size_lt`, `front_of_header`: what stands at an offset.
* `front_frame`, `front_cut`: what stands where a frame starts, whole or cut short.
* `scan_image`, `scan_image_cut`: what a scan finds.
-/

namespace Logbook

/-! ## Payloads -/

/-- Holds of the records that are read back from their payload. -/
structure Record.Readable (record : Record) : Prop where
  wellFormed : (Value.map record).WellFormed
  depth_le : (Value.map record).depth ≤ Json.maxDepth

/-- Holds of the records that are not too long for a frame. -/
def Record.Fits (record : Record) : Prop :=
  (Record.payload record).size ≤ Journal.Frame.maxPayload

instance : DecidablePred Record.Fits := fun record =>
  inferInstanceAs (Decidable ((Record.payload record).size ≤ Journal.Frame.maxPayload))

/-- Holds of the records that a frame can hold. -/
structure Record.Storable (record : Record) : Prop extends Record.Readable record where
  fits : record.Fits

/-- **A record is read back from its payload.** -/
theorem Record.ofPayload?_payload {record : Record} (h : record.Readable) :
    Record.ofPayload? (Record.payload record) = some record := by
  have htext : String.fromUTF8? (Record.payload record) = some (Value.map record).text :=
    dif_pos (Value.map record).text.isValidUTF8
  rw [Record.ofPayload?, htext]
  dsimp only
  rw [Value.ofText?_text h.wellFormed h.depth_le]
  rfl

namespace Journal

/-! ## Numbers in the bytes -/

namespace Frame

theorem byteAt_append_left {a : ByteArray} {i : ℕ} (h : i < a.size) (b : ByteArray) :
    byteAt (a ++ b) i = byteAt a i := by
  have hlt : i < (a ++ b).size := by
    rw [ByteArray.size_append]
    omega
  rw [byteAt, byteAt, dif_pos hlt, dif_pos h, ByteArray.getElem_append_left h]

theorem byteAt_append_right (a b : ByteArray) (i : ℕ) :
    byteAt (a ++ b) (a.size + i) = byteAt b i := by
  unfold byteAt
  by_cases h : i < b.size
  · have hlt : a.size + i < (a ++ b).size := by
      rw [ByteArray.size_append]
      omega
    rw [dif_pos hlt, dif_pos h, ByteArray.getElem_append_right (by omega)]
    simp only [Nat.add_sub_cancel_left]
  · have hge : ¬a.size + i < (a ++ b).size := by
      rw [ByteArray.size_append]
      omega
    rw [dif_neg hge, dif_neg h]

theorem wordAt_append_left {a : ByteArray} {i : ℕ} (h : i + 4 ≤ a.size) (b : ByteArray) :
    wordAt (a ++ b) i = wordAt a i := by
  rw [wordAt, wordAt, byteAt_append_left (by omega), byteAt_append_left (by omega),
    byteAt_append_left (by omega), byteAt_append_left (by omega)]

theorem wordAt_append_right (a b : ByteArray) (i : ℕ) :
    wordAt (a ++ b) (a.size + i) = wordAt b i := by
  rw [wordAt, wordAt, Nat.add_assoc, Nat.add_assoc, Nat.add_assoc, byteAt_append_right,
    byteAt_append_right, byteAt_append_right, byteAt_append_right]

/-- The four bytes of a number denote it. -/
theorem wordAt_word {n : ℕ} (h : n < 4294967296) : wordAt (word n) 0 = n := by
  have hbyte : ∀ m : ℕ, (UInt8.ofNat m).toNat = m % 256 := fun m => UInt8.toNat_ofNat'
  have hget : ∀ i (hi : i < 4), byteAt (word n) i
      = [n % 256, n / 256 % 256, n / 65536 % 256, n / 16777216 % 256][i] := by
    intro i hi
    rw [byteAt, dif_pos (by rw [size_word]; exact hi)]
    simp only [word, List.getElem_toByteArray]
    rcases i with _ | _ | _ | _ | i
    · exact hbyte n
    · exact hbyte _
    · exact hbyte _
    · exact hbyte _
    · omega
  rw [wordAt, hget 0 (by decide), hget 1 (by decide), hget 2 (by decide), hget 3 (by decide)]
  exact ofBytes_word h

end Frame

/-! ## What stands at an offset -/

/-- The same, seen from further ahead. -/
def Front.shift (n : ℕ) : Front → Front
  | .good record next => .good record (n + next)
  | found => found

/-- What stands at an offset does not depend on the bytes in front of it. -/
theorem front_append (before bytes : ByteArray) (offset : ℕ) :
    front (before ++ bytes) (before.size + offset) = (front bytes offset).shift before.size := by
  unfold front
  simp only [ByteArray.size_append, Nat.add_assoc, Nat.add_le_add_iff_left,
    Nat.add_lt_add_iff_left, Frame.wordAt_append_right, ByteArray.extract_append_size_add]
  split
  · rfl
  split
  · rfl
  split
  · rfl
  split
  · rfl
  split
  · rfl
  split <;> rfl

theorem front_of_size_le {bytes : ByteArray} {offset : ℕ} (h : bytes.size ≤ offset) :
    front bytes offset = .nothing :=
  if_pos h

theorem front_of_size_lt {bytes : ByteArray} {offset : ℕ} (h : offset < bytes.size)
    (hheader : bytes.size < offset + Frame.headerSize) : front bytes offset = .torn := by
  rw [front, if_neg (Nat.not_le.2 h), if_pos hheader]

/-- What stands at an offset where there are enough bytes for a header. -/
theorem front_of_header {bytes : ByteArray} {offset : ℕ}
    (h : offset + Frame.headerSize ≤ bytes.size) :
    front bytes offset =
      if Frame.maxPayload < Frame.wordAt bytes offset then .damaged .length
      else if bytes.size < offset + Frame.headerSize + Frame.wordAt bytes offset then .torn
      else if (Crc32.checksum (bytes.extract (offset + Frame.headerSize)
          (offset + Frame.headerSize + Frame.wordAt bytes offset))).toNat
            ≠ Frame.wordAt bytes (offset + 4) then .damaged .checksum
      else (Record.ofPayload? (bytes.extract (offset + Frame.headerSize)
          (offset + Frame.headerSize + Frame.wordAt bytes offset))).elim (.damaged .payload)
            fun record => .good record (offset + Frame.headerSize + Frame.wordAt bytes offset) := by
  have hpos : 0 < Frame.headerSize := by decide
  unfold front
  rw [if_neg (by omega), if_neg (by omega)]
  dsimp only
  cases Record.ofPayload? (bytes.extract (offset + Frame.headerSize)
    (offset + Frame.headerSize + Frame.wordAt bytes offset)) <;> rfl

/-- The frame of a record. -/
def frame (record : Record) : ByteArray := Frame.around (Record.payload record)

theorem size_frame (record : Record) :
    (frame record).size = Frame.headerSize + (Record.payload record).size :=
  Frame.size_around _

section Around

variable {payload : ByteArray} (rest : ByteArray)

theorem wordAt_around (h : payload.size ≤ Frame.maxPayload) :
    Frame.wordAt (Frame.around payload ++ rest) 0 = payload.size := by
  rw [Frame.maxPayload] at h
  rw [Frame.around, ByteArray.append_assoc, ByteArray.append_assoc,
    Frame.wordAt_append_left (by rw [Frame.size_word]), Frame.wordAt_word (by omega)]

theorem wordAt_around_checksum :
    Frame.wordAt (Frame.around payload ++ rest) 4 = (Crc32.checksum payload).toNat := by
  have hright := Frame.wordAt_append_right (Frame.word payload.size)
    (Frame.word (Crc32.checksum payload).toNat ++ (payload ++ rest)) 0
  rw [Frame.size_word] at hright
  rw [Frame.around, ByteArray.append_assoc, ByteArray.append_assoc, hright,
    Frame.wordAt_append_left (by rw [Frame.size_word]),
    Frame.wordAt_word (Crc32.checksum payload).toNat_lt]

theorem extract_around : (Frame.around payload ++ rest).extract Frame.headerSize
    (Frame.headerSize + payload.size) = payload := by
  have hsize : Frame.headerSize
      = (Frame.word payload.size ++ Frame.word (Crc32.checksum payload).toNat).size := by
    rw [ByteArray.size_append, Frame.size_word, Frame.size_word, Frame.headerSize]
  rw [Frame.around, ByteArray.append_assoc, ← Nat.add_zero Frame.headerSize, Nat.add_assoc,
    ByteArray.extract_append_size_add' hsize, Nat.zero_add, ByteArray.extract_append_eq_left rfl]

end Around

/-- **Where a frame starts there stands a good frame, whatever comes after it.** -/
theorem front_frame {record : Record} (h : record.Storable) (rest : ByteArray) :
    front (frame record ++ rest) 0 = .good record (frame record).size := by
  have hsize : (frame record ++ rest).size
      = Frame.headerSize + (Record.payload record).size + rest.size := by
    rw [ByteArray.size_append, size_frame]
  have hheader : 0 < Frame.headerSize := by decide
  unfold front
  rw [if_neg (by omega), if_neg (by omega)]
  dsimp only
  rw [Nat.zero_add, frame, wordAt_around rest h.fits, if_neg (Nat.not_lt.2 h.fits), ← frame,
    if_neg (by omega), Nat.zero_add, frame, extract_around, wordAt_around_checksum,
    if_neg (not_not.2 rfl), Record.ofPayload?_payload h.toReadable, ← frame, size_frame]

/-- **Where a frame starts that breaks off there stands a torn frame.** -/
theorem front_cut {record : Record} (h : record.Fits) {k : ℕ}
    (hpos : 0 < k) (hk : k < (frame record).size) :
    front ((frame record).extract 0 k) 0 = .torn := by
  have hsize : ((frame record).extract 0 k).size = k := by
    rw [ByteArray.size_extract]
    omega
  unfold front
  rw [hsize, if_neg (by omega)]
  by_cases hheader : k < 0 + Frame.headerSize
  · rw [if_pos hheader]
  · have hword : Frame.wordAt ((frame record).extract 0 k) 0 = (Record.payload record).size := by
      rw [Frame.headerSize] at hheader
      have hsplit := ByteArray.extract_eq_extract_append_extract
        (a := frame record) k (Nat.zero_le k) hk.le
      rw [ByteArray.extract_zero_size] at hsplit
      rw [← Frame.wordAt_append_left (by omega) ((frame record).extract k (frame record).size),
        ← hsplit, ← ByteArray.append_empty (b := frame record), frame, wordAt_around _ h]
    rw [size_frame] at hk
    rw [if_neg hheader]
    dsimp only
    rw [hword, if_neg (Nat.not_lt.2 h), if_pos (by omega)]

/-! ## Images -/

/-- The frames of records in a row. -/
def image : List Record → ByteArray
  | [] => .empty
  | record :: rest => frame record ++ image rest

theorem image_append (records more : List Record) :
    image (records ++ more) = image records ++ image more := by
  induction records with
  | nil => rw [List.nil_append, image, ByteArray.empty_append]
  | cons record rest ih => rw [List.cons_append, image, image, ih, ByteArray.append_assoc]

theorem image_singleton (record : Record) : image [record] = frame record := by
  rw [image, image, ByteArray.append_empty]

theorem foldl_append_frames (records : List Record) (bytes : ByteArray) :
    (records.map frame).foldl (· ++ ·) bytes = bytes ++ image records := by
  induction records generalizing bytes with
  | nil => rw [List.map_nil, List.foldl_nil, image, ByteArray.append_empty]
  | cons record rest ih => rw [List.map_cons, List.foldl_cons, ih, image, ByteArray.append_assoc]

theorem join_map_frame (records : List Record) : join (records.map frame) = image records := by
  rw [join, foldl_append_frames, ByteArray.empty_append]

/-! ## Scanning -/

section Scanning

variable {bytes : ByteArray} {offset : ℕ} {done : List Record}

theorem scanFrom_of_nothing (h : front bytes offset = .nothing) :
    scanFrom bytes offset done = .ok ⟨done.reverse, offset, false⟩ := by
  rw [scanFrom]
  split <;> simp_all

theorem scanFrom_of_torn (h : front bytes offset = .torn) :
    scanFrom bytes offset done = .ok ⟨done.reverse, offset, true⟩ := by
  rw [scanFrom]
  split <;> simp_all

theorem scanFrom_of_damaged {damage : Damage} (h : front bytes offset = .damaged damage) :
    scanFrom bytes offset done = .error (.corrupt offset damage) := by
  rw [scanFrom]
  split <;> simp_all

theorem scanFrom_of_good {record : Record} {next : ℕ} (h : front bytes offset = .good record next) :
    scanFrom bytes offset done = scanFrom bytes next (record :: done) := by
  rw [scanFrom]
  split <;> simp_all

end Scanning

/-- A scan passes the frames of records in a row, wherever they start. -/
theorem scanFrom_image {records : List Record} (h : ∀ r ∈ records, r.Storable)
    (before rest : ByteArray) (done : List Record) :
    scanFrom (before ++ image records ++ rest) before.size done
      = scanFrom (before ++ image records ++ rest) (before ++ image records).size
        (records.reverse ++ done) := by
  induction records generalizing before done with
  | nil => rw [image, ByteArray.append_empty, List.reverse_nil, List.nil_append]
  | cons record records ih =>
    rw [List.forall_mem_cons] at h
    -- the first frame joins the bytes in front of the others, and the induction goes on from there
    have hfront : front (before ++ image (record :: records) ++ rest) before.size
        = .good record (before ++ frame record).size := by
      have hshift := front_append before (frame record ++ (image records ++ rest)) 0
      rw [Nat.add_zero, front_frame h.1] at hshift
      rw [image, ByteArray.append_assoc, ByteArray.append_assoc, hshift, Front.shift,
        ByteArray.size_append]
    have hsplit : before ++ image (record :: records)
        = before ++ frame record ++ image records := by
      rw [image, ByteArray.append_assoc]
    rw [scanFrom_of_good hfront, hsplit, ih h.2, List.reverse_cons, List.append_assoc,
      List.singleton_append]

/-- A scan of an image goes on where the image ends. -/
theorem scan_image_append {records : List Record} (h : ∀ r ∈ records, r.Storable)
    (rest : ByteArray) : scan (image records ++ rest)
      = scanFrom (image records ++ rest) (image records).size records.reverse := by
  have hscan := scanFrom_image h .empty rest []
  rw [ByteArray.empty_append, ByteArray.size_empty, List.append_nil] at hscan
  exact hscan

/-- **A scan of an image finds its records.** -/
theorem scan_image {records : List Record} (h : ∀ r ∈ records, r.Storable) :
    scan (image records) = .ok ⟨records, (image records).size, false⟩ := by
  have hfront : front (image records) (image records).size = .nothing := by
    rw [front, if_pos le_rfl]
  have hscan := scan_image_append h .empty
  rw [ByteArray.append_empty, scanFrom_of_nothing hfront, List.reverse_reverse] at hscan
  exact hscan

/-- **A scan of an image that breaks off in a frame finds the records in front of it.** -/
theorem scan_image_cut {records : List Record} (h : ∀ r ∈ records, r.Storable) {record : Record}
    (hfits : record.Fits) {k : ℕ} (hpos : 0 < k)
    (hk : k < (frame record).size) :
    scan (image records ++ (frame record).extract 0 k)
      = .ok ⟨records, (image records).size, true⟩ := by
  have hfront : front (image records ++ (frame record).extract 0 k) (image records).size
      = .torn := by
    have hshift := front_append (image records) ((frame record).extract 0 k) 0
    rw [Nat.add_zero, front_cut hfits hpos hk] at hshift
    exact hshift
  rw [scan_image_append h, scanFrom_of_torn hfront, List.reverse_reverse]

/-! ## Reading and repairing -/

theorem records_image {rs : List Record} (h : ∀ r ∈ rs, r.Storable) :
    records (image rs) = .ok rs := by
  rw [records, scan_image h]
  rfl

theorem repair_image {rs : List Record} (h : ∀ r ∈ rs, r.Storable) :
    repair (image rs) = .ok (image rs) := by
  rw [repair, scan_image h]
  rfl

theorem records_image_cut {rs : List Record} (h : ∀ r ∈ rs, r.Storable) {record : Record}
    (hfits : record.Fits) {k : ℕ} (hpos : 0 < k)
    (hk : k < (frame record).size) :
    records (image rs ++ (frame record).extract 0 k) = .ok rs := by
  rw [records, scan_image_cut h hfits hpos hk]
  rfl

theorem repair_image_cut {rs : List Record} (h : ∀ r ∈ rs, r.Storable) {record : Record}
    (hfits : record.Fits) {k : ℕ} (hpos : 0 < k)
    (hk : k < (frame record).size) :
    repair (image rs ++ (frame record).extract 0 k) = .ok (image rs) := by
  rw [repair, scan_image_cut h hfits hpos hk]
  exact congrArg Except.ok (ByteArray.extract_append_eq_left rfl)

/-! ## Appending -/

theorem encode_of_fits {record : Record} (h : record.Fits) :
    Frame.encode record = .ok (frame record) :=
  if_pos h

theorem encode_of_not_fits {record : Record} (h : ¬record.Fits) :
    Frame.encode record = .error (.tooLong (Record.payload record).size) :=
  if_neg h

theorem mapM_encode {batch : List Record} (h : ∀ r ∈ batch, r.Fits) :
    batch.mapM Frame.encode = .ok (batch.map frame) := by
  induction batch with
  | nil => rfl
  | cons record batch ih =>
    rw [List.forall_mem_cons] at h
    rw [List.mapM_cons, encode_of_fits h.1, ih h.2]
    rfl

/-- The first record of a batch that does not fit. -/
def misfit? (batch : List Record) : Option Record := batch.find? fun r => !decide r.Fits

/-- A batch is refused for its first record that does not fit. -/
theorem mapM_encode_of_misfit? {batch : List Record} {record : Record}
    (h : misfit? batch = some record) :
    batch.mapM Frame.encode = .error (.tooLong (Record.payload record).size) := by
  unfold misfit? at h
  induction batch with
  | nil => exact absurd h (by simp)
  | cons first batch ih =>
    rw [List.mapM_cons]
    by_cases hfits : first.Fits
    · rw [List.find?_cons_of_neg (by simp [hfits])] at h
      rw [encode_of_fits hfits, ih h]
      rfl
    · rw [List.find?_cons_of_pos (by simp [hfits])] at h
      rw [encode_of_not_fits hfits, Option.some.inj h]
      rfl

theorem fits_of_misfit?_eq_none {batch : List Record} (h : misfit? batch = none) :
    ∀ r ∈ batch, r.Fits := by
  intro r hr
  have hfits := List.find?_eq_none.1 h r hr
  simpa using hfits

/-- Where every record was encoded, every record fits. -/
theorem mapM_encode_eq_ok {batch : List Record} {frames : List ByteArray}
    (h : batch.mapM Frame.encode = .ok frames) :
    (∀ r ∈ batch, r.Fits) ∧ frames = batch.map frame := by
  cases hfind : misfit? batch with
  | some record =>
    rw [mapM_encode_of_misfit? hfind] at h
    exact absurd h (by simp)
  | none =>
    have hfits := fits_of_misfit?_eq_none hfind
    rw [mapM_encode hfits] at h
    exact ⟨hfits, (Except.ok.inj h).symm⟩

theorem append_of_fits {record : Record} (h : record.Fits) (bytes : ByteArray) :
    append record bytes = .ok (bytes ++ image [record]) := by
  rw [append, encode_of_fits h, image_singleton]
  rfl

theorem appendAll_of_fits {batch : List Record} (h : ∀ r ∈ batch, r.Fits) (bytes : ByteArray) :
    appendAll batch bytes = .ok (bytes ++ image batch) := by
  rw [appendAll, mapM_encode h]
  exact congrArg (fun frames => Except.ok (bytes ++ frames)) (join_map_frame batch)

end Journal

end Logbook
