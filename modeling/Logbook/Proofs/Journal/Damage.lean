import Mathlib.Data.List.Basic
import Logbook.Proofs.Journal.Checksum
import Logbook.Proofs.Journal.Intact
import Logbook.Proofs.Journal.Mirror
import Logbook.Proofs.Json.Soundness

/-!
# One damaged byte

What opening a journal does when one byte of one frame was changed.

A changed checksum or payload is always found out: the length still says which bytes the payload
are, and one changed byte changes their checksum, or else the checksum itself is not what it was.

A changed length is another matter, for it is believed before anything is checked.  Beyond the limit
it is refused.  If it is such that the bytes end before the frame does, the frame looks as if a write
was not finished; opening cuts it off with all that is behind it, and says nothing (`Overruns`).
Otherwise other bytes than the payload are checked, and they would have to have its checksum by
chance (`Collides`).

Records that nest too deep can be written but not read.  A journal with such a record is refused for
it, so nothing is lost there either.

* `Stands.front_set!_of_le`, `Stands.exists_front_set!_of_lt`: what is found where a frame stood.
* `reopen_changed_of_overruns`: the change that goes unnoticed.
* `spares_damaged_iff`: when the other records are kept.
-/

namespace Logbook

namespace Journal

/-! ## Bytes with one of them changed -/

section Change

variable {bytes : ByteArray} {k : ℕ} (byte : UInt8)

theorem data_set! (bytes : ByteArray) (k : ℕ) (byte : UInt8) :
    (bytes.set! k byte).data = bytes.data.setIfInBounds k byte := rfl

theorem set!_append_right (before bytes : ByteArray) (k : ℕ) :
    (before ++ bytes).set! (before.size + k) byte = before ++ bytes.set! k byte := by
  apply ByteArray.ext
  rw [data_set!, ByteArray.data_append, ByteArray.data_append, data_set!]
  show (before.data ++ bytes.data).setIfInBounds (before.data.size + k) byte = _
  rw [Array.setIfInBounds_append_right (Nat.le_add_right _ _), Nat.add_sub_cancel_left]

theorem extract_set!_of_lt {i j : ℕ} (h : k < i) :
    (bytes.set! k byte).extract i j = bytes.extract i j := by
  apply ByteArray.ext
  rw [ByteArray.data_extract, ByteArray.data_extract, data_set!]
  ext m hm hm'
  · rw [Array.size_extract, Array.size_extract, Array.size_setIfInBounds]
  · rw [Array.getElem_extract, Array.getElem_extract, Array.getElem_setIfInBounds_ne]
    omega

theorem extract_set! {i j : ℕ} (hi : i ≤ k) :
    (bytes.set! k byte).extract i j = (bytes.extract i j).set! (k - i) byte := by
  apply ByteArray.ext
  rw [ByteArray.data_extract, data_set!, data_set!, ByteArray.data_extract]
  ext m hm hm'
  · rw [Array.size_extract, Array.size_setIfInBounds, Array.size_setIfInBounds, Array.size_extract]
  · rw [Array.size_setIfInBounds] at hm'
    rw [Array.getElem_extract, Array.getElem_setIfInBounds, Array.getElem_setIfInBounds hm',
      Array.getElem_extract]
    by_cases h : k = i + m
    · rw [if_pos h, if_pos (by omega)]
    · rw [if_neg h, if_neg (by omega)]

namespace Frame

theorem byteAt_eq {j : ℕ} (h : j < bytes.size) : byteAt bytes j = bytes[j].toNat := dif_pos h

theorem byteAt_lt (bytes : ByteArray) (j : ℕ) : byteAt bytes j < 256 := by
  unfold byteAt
  split
  · exact UInt8.toNat_lt _
  · decide

theorem byteAt_set!_self (hk : k < bytes.size) : byteAt (bytes.set! k byte) k = byte.toNat := by
  rw [byteAt_eq (by rwa [ByteArray.size_set!]), ByteArray.getElem_set!_self bytes k byte hk]

theorem byteAt_set!_ne {j : ℕ} (h : j ≠ k) : byteAt (bytes.set! k byte) j = byteAt bytes j := by
  by_cases hj : j < bytes.size
  · rw [byteAt_eq (by rwa [ByteArray.size_set!]), byteAt_eq hj,
      ByteArray.getElem_set!_ne bytes k j byte h.symm hj]
  · rw [byteAt, byteAt, dif_neg (by rwa [ByteArray.size_set!]), dif_neg hj]

theorem byteAt_extract {i j m : ℕ} (h : i + m < j) (hj : j ≤ bytes.size) :
    byteAt (bytes.extract i j) m = byteAt bytes (i + m) := by
  have hm : m < (bytes.extract i j).size := by
    rw [ByteArray.size_extract]
    omega
  rw [byteAt_eq hm, byteAt_eq (by omega), ByteArray.getElem_extract]

/-- A number is not changed with a byte that is not one of its four. -/
theorem wordAt_set!_of_not_mem {i : ℕ} (h : k < i ∨ i + 4 ≤ k) :
    wordAt (bytes.set! k byte) i = wordAt bytes i := by
  rw [wordAt, wordAt, byteAt_set!_ne byte (by omega), byteAt_set!_ne byte (by omega),
    byteAt_set!_ne byte (by omega), byteAt_set!_ne byte (by omega)]

/-- The four bytes of a number can be told from it. -/
theorem byteAt_eq_of_wordAt_eq {bytes other : ByteArray} {i : ℕ}
    (h : wordAt bytes i = wordAt other i) {j : ℕ} (hj : i ≤ j) (hj' : j < i + 4) :
    byteAt bytes j = byteAt other j := by
  have hlt := byteAt_lt bytes
  have hlt' := byteAt_lt other
  have h0 := hlt i
  have h0' := hlt' i
  have h1 := hlt (i + 1)
  have h1' := hlt' (i + 1)
  have h2 := hlt (i + 2)
  have h2' := hlt' (i + 2)
  rw [wordAt, wordAt, ofBytes, ofBytes] at h
  obtain rfl | rfl | rfl | rfl : j = i ∨ j = i + 1 ∨ j = i + 2 ∨ j = i + 3 := by omega
  all_goals omega

/-- A number is changed with each of its four bytes. -/
theorem wordAt_set!_ne {i : ℕ} (hk : k < bytes.size) (hi : i ≤ k) (hi' : k < i + 4)
    (h : byteAt bytes k ≠ byte.toNat) : wordAt (bytes.set! k byte) i ≠ wordAt bytes i := by
  intro heq
  have hbyte := byteAt_eq_of_wordAt_eq heq hi hi'
  rw [byteAt_set!_self byte hk] at hbyte
  exact h hbyte.symm

end Frame

end Change

/-! ## What is found where a byte was changed -/

theorem Stands.byteAt_payload {bytes payload : ByteArray} {offset : ℕ}
    (h : Stands bytes offset payload) {m : ℕ} (hm : m < payload.size) :
    Frame.byteAt payload m = Frame.byteAt bytes (offset + Frame.headerSize + m) := by
  have hbyte := congrArg (Frame.byteAt · m) h.extract_eq
  rw [← hbyte, Frame.byteAt_extract (by omega) h.size_le]

/-- Holds when the length that a frame states is one that a frame may have, and the bytes end before
the frame does. -/
def Overruns (bytes : ByteArray) (offset : ℕ) : Prop :=
  Frame.wordAt bytes offset ≤ Frame.maxPayload ∧
    bytes.size < offset + Frame.headerSize + Frame.wordAt bytes offset

/-- Holds when a frame states another length than that of its payload, and there happen to be bytes
of this length that have its checksum. -/
def Collides (bytes : ByteArray) (offset length : ℕ) : Prop :=
  Frame.wordAt bytes offset ≠ length ∧
    offset + Frame.headerSize + Frame.wordAt bytes offset ≤ bytes.size ∧
    (Crc32.checksum (bytes.extract (offset + Frame.headerSize)
      (offset + Frame.headerSize + Frame.wordAt bytes offset))).toNat
        = Frame.wordAt bytes (offset + 4)

section Front

variable {bytes : ByteArray} {offset : ℕ}

theorem front_of_overruns (hheader : offset + Frame.headerSize ≤ bytes.size)
    (h : Overruns bytes offset) : front bytes offset = .torn := by
  have hpos : 0 < Frame.headerSize := by decide
  unfold front
  rw [if_neg (by omega), if_neg (by omega)]
  dsimp only
  rw [if_neg (Nat.not_lt.2 h.1), if_pos h.2]

/-- A frame that states another length is damaged, unless it runs past the end or there are bytes
with its checksum. -/
theorem exists_front_eq_damaged {length : ℕ} (hheader : offset + Frame.headerSize ≤ bytes.size)
    (hlength : Frame.wordAt bytes offset ≠ length) (hover : ¬Overruns bytes offset)
    (hcollide : ¬Collides bytes offset length) : ∃ damage, front bytes offset = .damaged damage := by
  have hpos : 0 < Frame.headerSize := by decide
  unfold front
  rw [if_neg (by omega), if_neg (by omega)]
  dsimp only
  by_cases hmax : Frame.maxPayload < Frame.wordAt bytes offset
  · exact ⟨.length, if_pos hmax⟩
  · have hinside : ¬bytes.size < offset + Frame.headerSize + Frame.wordAt bytes offset :=
      fun hshort => hover ⟨Nat.not_lt.1 hmax, hshort⟩
    refine ⟨.checksum, ?_⟩
    rw [if_neg hmax, if_neg hinside,
      if_pos fun hsame => hcollide ⟨hlength, Nat.not_lt.1 hinside, hsame⟩]

variable {payload : ByteArray} (h : Stands bytes offset payload) {k : ℕ} {byte : UInt8}
  (hne : Frame.byteAt bytes k ≠ byte.toNat)
include h hne

omit hne in
theorem Stands.wordAt_set!_of_le (hk : offset + 4 ≤ k) :
    Frame.wordAt (bytes.set! k byte) offset = payload.size := by
  rw [Frame.wordAt_set!_of_not_mem byte (Or.inr hk), h.length_eq]

/-- **A changed checksum or payload is found out.** -/
theorem Stands.front_set!_of_le (hk : offset + 4 ≤ k)
    (hk' : k < offset + Frame.headerSize + payload.size) :
    front (bytes.set! k byte) offset = .damaged .checksum := by
  have hsize := h.size_le
  have hheader : Frame.headerSize = 8 := rfl
  have hlt : k < bytes.size := by omega
  have hchecksum : (Crc32.checksum ((bytes.set! k byte).extract (offset + Frame.headerSize)
      (offset + Frame.headerSize + payload.size))).toNat
        ≠ Frame.wordAt (bytes.set! k byte) (offset + 4) := by
    by_cases hin : k < offset + Frame.headerSize
    · -- the checksum was changed
      rw [extract_set!_of_lt byte hin, h.extract_eq, ← h.checksum_eq]
      exact (Frame.wordAt_set!_ne byte hlt hk (by omega) hne).symm
    · -- the payload was changed
      have hin' : k - (offset + Frame.headerSize) < payload.size := by omega
      have hbehind : offset + 4 + 4 ≤ k := by omega
      rw [extract_set! byte (Nat.not_lt.1 hin), h.extract_eq,
        Frame.wordAt_set!_of_not_mem byte (Or.inr hbehind), h.checksum_eq]
      intro heq
      refine Crc32.checksum_set!_ne hin' (fun hbyte => hne ?_) (UInt32.toNat_inj.1 heq)
      rw [← hbyte, ← Frame.byteAt_eq hin', h.byteAt_payload hin',
        Nat.add_sub_of_le (Nat.not_lt.1 hin)]
  unfold front
  rw [ByteArray.size_set!, if_neg (by omega), if_neg (by omega)]
  dsimp only
  rw [h.wordAt_set!_of_le hk, if_neg (Nat.not_lt.2 h.fits), if_neg (by omega), if_pos hchecksum]

omit hne in
/-- A frame whose length was not changed neither runs past the end nor states another length. -/
theorem Stands.set!_of_le (hk : offset + 4 ≤ k) :
    ¬Overruns (bytes.set! k byte) offset ∧ ¬Collides (bytes.set! k byte) offset payload.size := by
  have hsize := h.size_le
  constructor
  · rintro ⟨-, hshort⟩
    rw [h.wordAt_set!_of_le hk, ByteArray.size_set!] at hshort
    omega
  · rintro ⟨hother, -⟩
    exact hother (h.wordAt_set!_of_le hk)

/-- **A changed length is found out**, unless the frame then runs past the end or there are bytes
with its checksum. -/
theorem Stands.exists_front_set!_of_lt (hk : offset ≤ k) (hk' : k < offset + 4)
    (hover : ¬Overruns (bytes.set! k byte) offset)
    (hcollide : ¬Collides (bytes.set! k byte) offset payload.size) :
    ∃ damage, front (bytes.set! k byte) offset = .damaged damage := by
  have hsize := h.size_le
  have hheader : Frame.headerSize = 8 := rfl
  have hlt : k < bytes.size := by omega
  have hlength := Frame.wordAt_set!_ne byte hlt hk hk' hne
  rw [h.length_eq] at hlength
  refine exists_front_eq_damaged ?_ hlength hover hcollide
  rw [ByteArray.size_set!]
  omega

end Front

/-! ## Opening a journal with a damaged frame -/

/-- A record that nests too deep can be written, but not be read. -/
theorem ofPayload?_payload_of_deep {record : Record} (hwf : (Value.map record).WellFormed)
    (h : Json.maxDepth < (Value.map record).depth) :
    Record.ofPayload? (Record.payload record) = none := by
  have htext : String.fromUTF8? (Record.payload record) = some (Value.map record).text :=
    dif_pos (Value.map record).text.isValidUTF8
  rw [Record.ofPayload?, htext]
  dsimp only
  cases hread : Value.ofText? (Value.map record).text with
  | none => rfl
  | some v => exact absurd ((Value.ofText?_text_eq_some_iff hwf).1 hread).2 (Nat.not_le.2 h)

theorem scan_image_of_damaged {records : List Record} (h : ∀ r ∈ records, r.Storable)
    {rest : ByteArray} {damage : Damage}
    (hfront : front (image records ++ rest) (image records).size = .damaged damage) :
    scan (image records ++ rest) = .error (.corrupt (image records).size damage) := by
  rw [scan_image_append h, scanFrom_of_damaged hfront]

theorem scan_image_of_torn {records : List Record} (h : ∀ r ∈ records, r.Storable)
    {rest : ByteArray} (hfront : front (image records ++ rest) (image records).size = .torn) :
    scan (image records ++ rest) = .ok ⟨records, (image records).size, true⟩ := by
  rw [scan_image_append h, scanFrom_of_torn hfront, List.reverse_reverse]

/-- A scan ends at the first record that cannot be read. -/
theorem exists_scan_image_eq_error {records : List Record}
    (hwf : ∀ r ∈ records, (Value.map r).WellFormed) (hfits : ∀ r ∈ records, r.Fits)
    (hdeep : ¬∀ r ∈ records, r.Readable) (rest : ByteArray) :
    ∃ offset, scan (image records ++ rest) = .error (.corrupt offset .payload) := by
  cases hfind : records.find? fun r => decide (Json.maxDepth < (Value.map r).depth) with
  | none =>
    refine absurd (fun r hr => ⟨hwf r hr, ?_⟩) hdeep
    simpa using List.find?_eq_none.1 hfind r hr
  | some deep =>
    obtain ⟨hdeeper, before, after, rfl, hbefore⟩ := List.find?_eq_some_iff_append.1 hfind
    have hmem : deep ∈ before ++ deep :: after := List.mem_append_right _ List.mem_cons_self
    have hstorable : ∀ r ∈ before, Record.Storable r := by
      intro r hr
      have hr' : r ∈ before ++ deep :: after := List.mem_append_left _ hr
      exact ⟨⟨hwf r hr', by simpa using hbefore r hr⟩, hfits r hr'⟩
    have hbytes : image (before ++ deep :: after) ++ rest
        = image before ++ (frame deep ++ (image after ++ rest)) := by
      rw [image_append, image, ByteArray.append_assoc, ByteArray.append_assoc]
    refine ⟨(image before).size, ?_⟩
    rw [hbytes]
    refine scan_image_of_damaged hstorable ?_
    rw [(stands_frame (hfits deep hmem) (image before) (image after ++ rest)).front_eq,
      ofPayload?_payload_of_deep (hwf deep hmem) (by simpa using hdeeper), Option.elim_none]

namespace Session

/-- Where a frame seems to be cut short, opening cuts off everything from there on. -/
theorem reopen_of_torn {records : List Record} (h : ∀ r ∈ records, r.Storable) {rest : ByteArray}
    (hfront : front (image records ++ rest) (image records).size = .torn) (handle : Handle) :
    reopen ⟨some (image records ++ rest), handle⟩
      = (.ok (), ⟨some (image records), .attached⟩) := by
  rw [reopen, Option.getD_some, repair, scan_image_of_torn h hfront]
  show (Except.ok (),
    Session.mk (some ((image records ++ rest).extract 0 (image records).size)) .attached) = _
  rw [ByteArray.extract_append_eq_left rfl]

/-- Holds when no record is lost in silence: opening the journal fails and leaves the file as it is,
or all these records are still read from it, in order. -/
def Spares (bytes : ByteArray) (others : List Record) : Prop :=
  (∃ offset damage,
    reopen ⟨some bytes, .closed⟩ = (.error (.corrupt offset damage), ⟨some bytes, .closed⟩)) ∨
  ∃ opened found, reopen ⟨some bytes, .closed⟩ = (.ok (), opened) ∧ opened.read = .ok found ∧
    others.Sublist found

end Session

section Changed

variable {earlier later : List Record} {record : Record} {p : ℕ} {byte : UInt8}

/-- A journal in which a byte of one frame was changed. -/
def changed (earlier : List Record) (record : Record) (later : List Record) (p : ℕ) (byte : UInt8) :
    ByteArray :=
  (image (earlier ++ record :: later)).set! ((image earlier).size + p) byte

theorem changed_eq : changed earlier record later p byte
    = image earlier ++ (frame record ++ image later).set! p byte := by
  rw [changed, image_append, image, set!_append_right]

variable (hfits : record.Fits) (hp : p < (frame record).size)
  (hne : Frame.byteAt (frame record) p ≠ byte.toNat)
include hfits

theorem stands_record : Stands (image (earlier ++ record :: later)) (image earlier).size
    (Record.payload record) := by
  rw [image_append, image]
  exact stands_frame hfits _ _

theorem not_overruns_of_le (h : 4 ≤ p) :
    ¬Overruns (changed earlier record later p byte) (image earlier).size ∧
      ¬Collides (changed earlier record later p byte) (image earlier).size
        (Record.payload record).size :=
  (stands_record hfits).set!_of_le (Nat.add_le_add_left h _)

include hp hne

theorem exists_front_changed
    (hover : ¬Overruns (changed earlier record later p byte) (image earlier).size)
    (hcollide : ¬Collides (changed earlier record later p byte) (image earlier).size
      (Record.payload record).size) :
    ∃ damage, front (changed earlier record later p byte) (image earlier).size
      = .damaged damage := by
  have hbyte : Frame.byteAt (image (earlier ++ record :: later)) ((image earlier).size + p)
      ≠ byte.toNat := by
    rwa [image_append, image, Frame.byteAt_append_right, Frame.byteAt_append_left hp]
  rw [size_frame] at hp
  by_cases h : 4 ≤ p
  · exact ⟨.checksum, (stands_record hfits).front_set!_of_le hbyte (by omega) (by omega)⟩
  · exact (stands_record hfits).exists_front_set!_of_lt hbyte (by omega) (by omega) hover hcollide

omit hfits hp hne in
/-- **Opening the journal cuts off the frame that runs past the end, and every frame behind it.** -/
theorem reopen_changed_of_overruns (hearlier : ∀ r ∈ earlier, r.Storable)
    (hover : Overruns (changed earlier record later p byte) (image earlier).size) :
    Session.reopen ⟨some (changed earlier record later p byte), .closed⟩
      = (.ok (), ⟨some (image earlier), .attached⟩) := by
  have hheader : (image earlier).size + Frame.headerSize
      ≤ (changed earlier record later p byte).size := by
    rw [changed_eq, ByteArray.size_append, ByteArray.size_set!, ByteArray.size_append, size_frame]
    omega
  have hfront := front_of_overruns hheader hover
  rw [changed_eq] at hfront ⊢
  exact Session.reopen_of_torn hearlier hfront .closed

/-- A journal with a changed byte keeps the other records or is refused, unless the frame runs past
the end and is not the last. -/
theorem spares_changed_iff (hwf : ∀ r ∈ earlier, (Value.map r).WellFormed)
    (hearlier : ∀ r ∈ earlier, r.Fits)
    (hcollide : ¬Collides (changed earlier record later p byte) (image earlier).size
      (Record.payload record).size) :
    Session.Spares (changed earlier record later p byte) (earlier ++ later) ↔
      ¬((∀ r ∈ earlier, r.Readable) ∧
        Overruns (changed earlier record later p byte) (image earlier).size ∧ later ≠ []) := by
  have hrefused : ∀ {offset damage}, scan (changed earlier record later p byte)
      = .error (.corrupt offset damage) →
        Session.Spares (changed earlier record later p byte) (earlier ++ later) :=
    fun hscan => Or.inl ⟨_, _, Session.reopen_of_error hscan .closed⟩
  by_cases hreadable : ∀ r ∈ earlier, r.Readable
  swap
  · refine iff_of_true ?_ fun h => hreadable h.1
    obtain ⟨offset, hscan⟩ := exists_scan_image_eq_error hwf hearlier hreadable
      ((frame record ++ image later).set! p byte)
    rw [← changed_eq] at hscan
    exact hrefused hscan
  have hstorable : ∀ r ∈ earlier, r.Storable := fun r hr => ⟨hreadable r hr, hearlier r hr⟩
  by_cases hover : Overruns (changed earlier record later p byte) (image earlier).size
  swap
  · refine iff_of_true ?_ fun h => hover h.2.1
    obtain ⟨damage, hfront⟩ := exists_front_changed hfits hp hne hover hcollide
    have hscan := scan_image_of_damaged hstorable (changed_eq ▸ hfront)
    rw [← changed_eq] at hscan
    exact hrefused hscan
  -- The frame runs past the end: the journal is opened, and only the records in front are there.
  have hopen := reopen_changed_of_overruns hstorable hover
  have hread := Session.read_image hstorable
  constructor
  · rintro (⟨offset, damage, herror⟩ | ⟨opened, found, hopen', hread', hothers⟩) ⟨-, -, hlater⟩
    · rw [hopen] at herror
      exact absurd (congrArg Prod.fst herror) (by simp)
    · rw [hopen] at hopen'
      obtain rfl : _ = opened := congrArg Prod.snd hopen'
      obtain rfl := Except.ok.inj (hread.symm.trans hread')
      have hlength := hothers.length_le
      rw [List.length_append] at hlength
      exact hlater (List.eq_nil_of_length_eq_zero (by omega))
  · intro h
    have hlater : later = [] := not_not.1 fun hlater => h ⟨hreadable, hover, hlater⟩
    refine Or.inr ⟨_, earlier, hopen, hread, ?_⟩
    rw [hlater, List.append_nil]

end Changed

/-- **What becomes of the other records when one byte of a journal is changed.**

A changed checksum or payload is always found out, and so is a changed length, unless there happen to
be bytes of the length that is stated with the checksum that is stated.  But a length that is stated
beyond the end of the file is taken for the mark of a write that was not finished, wherever it
stands: opening then cuts off the frame and every frame behind it, and says nothing. -/
theorem spares_damaged_iff {records : List Record} {frames : List ByteArray}
    (hwf : ∀ r ∈ records, (Value.map r).WellFormed)
    (hframes : records.mapM Frame.encode = .ok frames) {i p : ℕ} (hi : i < frames.length)
    (hp : p < frames[i].size) {byte : UInt8} (hne : frames[i][p] ≠ byte) :
    let offset := (join (frames.take i)).size
    let damaged := (join frames).set! (offset + p) byte
    let length := frames[i].size - Frame.headerSize
    (4 ≤ p → ¬Overruns damaged offset ∧ ¬Collides damaged offset length) ∧
    (¬Collides damaged offset length →
      (Session.Spares damaged (records.eraseIdx i) ↔
        ¬((∀ r ∈ records.take i, r.Readable) ∧ Overruns damaged offset ∧
          i + 1 < records.length))) ∧
    ((∀ r ∈ records.take i, r.Readable) → Overruns damaged offset →
      Session.reopen ⟨some damaged, .closed⟩
        = (.ok (), ⟨some (join (frames.take i)), .attached⟩)) := by
  obtain ⟨hfits, rfl⟩ := mapM_encode_eq_ok hframes
  rw [List.length_map] at hi
  have hsplit : records.take i ++ records[i] :: records.drop (i + 1) = records := by
    rw [← List.drop_eq_getElem_cons hi, List.take_append_drop]
  have hrecord : records[i].Fits := hfits _ (List.getElem_mem hi)
  have hearlier : ∀ r ∈ records.take i, r.Fits := fun r hr => hfits r (List.mem_of_mem_take hr)
  have hlater : records.drop (i + 1) ≠ [] ↔ i + 1 < records.length := by
    rw [Ne, List.drop_eq_nil_iff, Nat.not_le]
  simp only [List.getElem_map] at hp hne ⊢
  have hlength : (frame records[i]).size - Frame.headerSize = (Record.payload records[i]).size := by
    rw [size_frame, Nat.add_sub_cancel_left]
  have hbyte : Frame.byteAt (frame records[i]) p ≠ byte.toNat := by
    rwa [Frame.byteAt_eq hp, Ne, UInt8.toNat_inj]
  have hdamaged : (image records).set! ((image (records.take i)).size + p) byte
      = changed (records.take i) records[i] (records.drop (i + 1)) p byte := by
    rw [changed, hsplit]
  rw [← List.map_take, join_map_frame, join_map_frame, hlength, hdamaged,
    List.eraseIdx_eq_take_drop_succ, ← hlater]
  refine ⟨not_overruns_of_le hrecord, ?_, fun hreadable hover => ?_⟩
  · exact spares_changed_iff hrecord hp hbyte (fun r hr => hwf r (List.mem_of_mem_take hr)) hearlier
  · exact reopen_changed_of_overruns (fun r hr => ⟨hreadable r hr, hearlier r hr⟩) hover

/-- Two records of ten bytes each. -/
def twoRecords : List Record := [[("a", .null)], [("b", .null)]]

theorem mapM_encode_twoRecords : twoRecords.mapM Frame.encode = .ok (twoRecords.map frame) :=
  mapM_encode (by decide +kernel)

/-- The first of two records comes to state 266 bytes, and the journal is opened without either. -/
theorem spares_damaged_iff_twoRecords :
    twoRecords.mapM Frame.encode = .ok (twoRecords.map frame) ∧
    Session.reopen ⟨some ((join (twoRecords.map frame)).set! 1 1), .closed⟩
      = (.ok (), ⟨some .empty, .attached⟩) := by
  have hwf : ∀ r ∈ twoRecords, (Value.map r).WellFormed := by
    simp [twoRecords, Value.WellFormed, Value.WellFormedMembers, Members.keys]
  have hp : 1 < (frame [("a", .null)]).size := by decide +kernel
  have hne : (frame [("a", .null)])[1] ≠ 1 := by
    rw [Ne, ← UInt8.toNat_inj, ← Frame.byteAt_eq]
    decide +kernel
  obtain ⟨-, -, hcut⟩ := spares_damaged_iff hwf mapM_encode_twoRecords (i := 0) (by decide) hp hne
  refine ⟨mapM_encode_twoRecords, hcut (fun r hr => absurd hr List.not_mem_nil) ⟨?_, ?_⟩⟩
  · decide +kernel
  · decide +kernel

/-- The second record is lost when a byte of the first is changed, and nothing is said. -/
theorem not_spares_twoRecords :
    ¬Session.Spares ((join (twoRecords.map frame)).set! 1 1) [[("b", .null)]] := by
  have hfits : Record.Fits [("a", .null)] := by decide +kernel
  have hp : 1 < (frame [("a", .null)]).size := by decide +kernel
  have hover : Overruns (changed [] [("a", .null)] [[("b", .null)]] 1 1) (image []).size := by
    refine ⟨?_, ?_⟩ <;> decide +kernel
  have hcollide : ¬Collides (changed [] [("a", .null)] [[("b", .null)]] 1 1) (image []).size
      (Record.payload [("a", .null)]).size :=
    fun h => absurd h.2.1 (Nat.not_le.2 hover.2)
  intro h
  rw [join_map_frame] at h
  refine (spares_changed_iff hfits hp (by decide +kernel) (fun r hr => absurd hr List.not_mem_nil)
    (fun r hr => absurd hr List.not_mem_nil) hcollide).1 h ⟨?_, hover, List.cons_ne_nil _ _⟩
  exact fun r hr => absurd hr List.not_mem_nil

end Journal

end Logbook
