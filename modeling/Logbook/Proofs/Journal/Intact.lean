import Mathlib.Data.List.Basic
import Logbook.Proofs.Journal.Frames

/-!
# Intact journals

A journal is intact when a scan passes all of its bytes.  It need not have been written record by
record here; all that counts is what is read from it.

Whether a good frame stands at an offset depends on the bytes up to its end only.  So what is behind
an intact journal does not change what is read from it, and records that are written there are read
after those that are there already.  Opening a journal leaves an intact one, for it cuts off exactly
what the scan did not pass.

* `Stands`: a whole frame at an offset, in terms of what is read there.
* `front_eq_good_iff`: a good frame is one that stands and holds a record.
* `Intact.append`: records behind an intact journal.
* `exists_intact_of_repair`: an opened journal.
-/

namespace Logbook.Journal

/-! ## Where a frame stands -/

/-- Holds when the frame around a payload stands at an offset. -/
structure Stands (bytes : ByteArray) (offset : ℕ) (payload : ByteArray) : Prop where
  fits : payload.size ≤ Frame.maxPayload
  size_le : offset + Frame.headerSize + payload.size ≤ bytes.size
  length_eq : Frame.wordAt bytes offset = payload.size
  checksum_eq : Frame.wordAt bytes (offset + 4) = (Crc32.checksum payload).toNat
  extract_eq : bytes.extract (offset + Frame.headerSize)
    (offset + Frame.headerSize + payload.size) = payload

theorem stands_around {payload : ByteArray} (h : payload.size ≤ Frame.maxPayload)
    (before rest : ByteArray) :
    Stands (before ++ (Frame.around payload ++ rest)) before.size payload where
  fits := h
  size_le := by
    rw [ByteArray.size_append, ByteArray.size_append, Frame.size_around]
    omega
  length_eq := by
    have hword := Frame.wordAt_append_right before (Frame.around payload ++ rest) 0
    rwa [Nat.add_zero, wordAt_around rest h] at hword
  checksum_eq := by
    rw [Frame.wordAt_append_right, wordAt_around_checksum]
  extract_eq := by
    rw [Nat.add_assoc, ByteArray.extract_append_size_add, extract_around]

theorem stands_frame {record : Record} (h : record.Fits) (before rest : ByteArray) :
    Stands (before ++ (frame record ++ rest)) before.size (Record.payload record) :=
  stands_around h before rest

/-- What is found where a whole frame stands. -/
theorem Stands.front_eq {bytes payload : ByteArray} {offset : ℕ} (h : Stands bytes offset payload) :
    front bytes offset = (Record.ofPayload? payload).elim (.damaged .payload) fun record =>
      .good record (offset + Frame.headerSize + payload.size) := by
  have hsize := h.size_le
  have hheader : 0 < Frame.headerSize := by decide
  unfold front
  rw [if_neg (by omega), if_neg (by omega)]
  dsimp only
  rw [h.length_eq, if_neg (Nat.not_lt.2 h.fits), if_neg (by omega), h.extract_eq, h.checksum_eq,
    if_neg (not_not.2 rfl)]
  cases Record.ofPayload? payload <;> rfl

/-- **A good frame is one that stands and holds a record.** -/
theorem front_eq_good_iff {bytes : ByteArray} {offset next : ℕ} {record : Record} :
    front bytes offset = .good record next ↔
      ∃ payload, Stands bytes offset payload ∧ Record.ofPayload? payload = some record ∧
        next = offset + Frame.headerSize + payload.size := by
  constructor
  · intro h
    unfold front at h
    split at h
    · exact absurd h (by simp)
    split at h
    · exact absurd h (by simp)
    dsimp only at h
    split at h
    · exact absurd h (by simp)
    split at h
    · exact absurd h (by simp)
    split at h
    · exact absurd h (by simp)
    rename_i hmax hsize hchecksum
    have hpayload : (bytes.extract (offset + Frame.headerSize)
        (offset + Frame.headerSize + Frame.wordAt bytes offset)).size
          = Frame.wordAt bytes offset := by
      rw [ByteArray.size_extract]
      omega
    refine ⟨_, ⟨?_, ?_, hpayload.symm, (not_not.1 hchecksum).symm, ?_⟩, ?_⟩
    · rw [hpayload]
      exact Nat.not_lt.1 hmax
    · rw [hpayload]
      exact Nat.not_lt.1 hsize
    · rw [hpayload]
    · rw [hpayload]
      split at h
      · rename_i found hfound
        obtain ⟨rfl, rfl⟩ := Front.good.inj h
        exact ⟨hfound, rfl⟩
      · exact absurd h (by simp)
  · rintro ⟨payload, hstands, hrecord, rfl⟩
    rw [hstands.front_eq, hrecord, Option.elim_some]

section Append

variable {bytes payload : ByteArray} {offset : ℕ}

/-- A frame stands where it does because of the bytes up to its end. -/
theorem stands_append_iff (rest : ByteArray)
    (hsize : offset + Frame.headerSize + payload.size ≤ bytes.size) :
    Stands (bytes ++ rest) offset payload ↔ Stands bytes offset payload := by
  have hheader : Frame.headerSize = 8 := rfl
  have hlength : Frame.wordAt (bytes ++ rest) offset = Frame.wordAt bytes offset :=
    Frame.wordAt_append_left (by omega) rest
  have hchecksum : Frame.wordAt (bytes ++ rest) (offset + 4) = Frame.wordAt bytes (offset + 4) :=
    Frame.wordAt_append_left (by omega) rest
  have hextract : (bytes ++ rest).extract (offset + Frame.headerSize)
        (offset + Frame.headerSize + payload.size)
      = bytes.extract (offset + Frame.headerSize)
        (offset + Frame.headerSize + payload.size) := by
    have hbehind : rest.extract (offset + Frame.headerSize - bytes.size)
        (offset + Frame.headerSize + payload.size - bytes.size) = .empty :=
      ByteArray.extract_eq_empty_iff.2 (by omega)
    rw [ByteArray.extract_append, hbehind, ByteArray.append_empty]
  constructor
  · rintro ⟨h1, h2, h3, h4, h5⟩
    exact ⟨h1, hsize, hlength ▸ h3, hchecksum ▸ h4, hextract ▸ h5⟩
  · rintro ⟨h1, h2, h3, h4, h5⟩
    refine ⟨h1, ?_, hlength.trans h3, hchecksum.trans h4, hextract.trans h5⟩
    rw [ByteArray.size_append]
    omega

/-- So a good frame is good whatever is behind it. -/
theorem front_append_eq_good_iff {record : Record} {next : ℕ} (rest : ByteArray)
    (hnext : next ≤ bytes.size) :
    front (bytes ++ rest) offset = .good record next ↔ front bytes offset = .good record next := by
  rw [front_eq_good_iff, front_eq_good_iff]
  constructor
  · rintro ⟨payload, hstands, hrecord, rfl⟩
    exact ⟨payload, (stands_append_iff rest hnext).1 hstands, hrecord, rfl⟩
  · rintro ⟨payload, hstands, hrecord, rfl⟩
    exact ⟨payload, (stands_append_iff rest hnext).2 hstands, hrecord, rfl⟩

end Append

/-! ## Scanning -/

/-- A scan goes no further back, and no further than the bytes. -/
theorem le_size_of_scanFrom {bytes : ByteArray} {offset : ℕ} {done : List Record} {found : Scan}
    (h : scanFrom bytes offset done = .ok found) (hoffset : offset ≤ bytes.size) :
    offset ≤ found.size ∧ found.size ≤ bytes.size := by
  fun_induction scanFrom bytes offset done with
  | case1 offset done =>
    obtain rfl := Except.ok.inj h
    exact ⟨le_rfl, hoffset⟩
  | case2 offset done =>
    obtain rfl := Except.ok.inj h
    exact ⟨le_rfl, hoffset⟩
  | case3 => exact absurd h (by simp)
  | case4 offset done record next hfront ih =>
    have hlt := lt_of_front hfront
    obtain ⟨hle, hle'⟩ := ih h hlt.2
    exact ⟨hlt.1.le.trans hle, hle'⟩

theorem size_le_of_front_eq_nothing {bytes : ByteArray} {offset : ℕ}
    (h : front bytes offset = .nothing) : bytes.size ≤ offset := by
  unfold front at h
  simp only at h
  grind

/-- A scan that finds no torn frame passes all bytes. -/
theorem size_le_of_not_torn {bytes : ByteArray} {offset : ℕ} {done : List Record} {found : Scan}
    (h : scanFrom bytes offset done = .ok found) (htorn : found.torn = false) :
    bytes.size ≤ found.size := by
  fun_induction scanFrom bytes offset done with
  | case1 offset done hfront =>
    obtain rfl := Except.ok.inj h
    exact size_le_of_front_eq_nothing hfront
  | case2 offset done =>
    obtain rfl := Except.ok.inj h
    exact absurd htorn (by simp)
  | case3 => exact absurd h (by simp)
  | case4 offset done record next hfront ih => exact ih h

/-- Without what a scan did not pass, a scan finds the same and passes all. -/
theorem scanFrom_extract {bytes : ByteArray} {offset : ℕ} {done : List Record} {found : Scan}
    (h : scanFrom bytes offset done = .ok found) (hoffset : offset ≤ bytes.size) :
    scanFrom (bytes.extract 0 found.size) offset done
      = .ok ⟨found.records, found.size, false⟩ := by
  have hend : ∀ size, front (bytes.extract 0 size) size = .nothing := by
    intro size
    rw [front, if_pos]
    rw [ByteArray.size_extract]
    omega
  fun_induction scanFrom bytes offset done with
  | case1 offset done =>
    obtain rfl := Except.ok.inj h
    exact scanFrom_of_nothing (hend offset)
  | case2 offset done =>
    obtain rfl := Except.ok.inj h
    exact scanFrom_of_nothing (hend offset)
  | case3 => exact absurd h (by simp)
  | case4 offset done record next hfront ih =>
    have hnext := (lt_of_front hfront).2
    obtain ⟨hle, hle'⟩ := le_size_of_scanFrom h hnext
    have hsplit := ByteArray.extract_eq_extract_append_extract
      (a := bytes) found.size (Nat.zero_le _) hle'
    rw [ByteArray.extract_zero_size] at hsplit
    rw [hsplit, front_append_eq_good_iff] at hfront
    · rw [scanFrom_of_good hfront]
      exact ih h hnext
    · rw [ByteArray.size_extract]
      omega

/-- A scan that passes all of the bytes goes on with what is behind them. -/
theorem scanFrom_append {bytes : ByteArray} {offset : ℕ} {done records : List Record}
    (h : scanFrom bytes offset done = .ok ⟨records, bytes.size, false⟩) (rest : ByteArray) :
    scanFrom (bytes ++ rest) offset done
      = scanFrom (bytes ++ rest) bytes.size records.reverse := by
  fun_induction scanFrom bytes offset done with
  | case1 offset done =>
    obtain ⟨rfl, rfl, -⟩ := Scan.mk.inj (Except.ok.inj h)
    rw [List.reverse_reverse]
  | case2 offset done =>
    exact absurd (congrArg Scan.torn (Except.ok.inj h)) (by simp)
  | case3 => exact absurd h (by simp)
  | case4 offset done record next hfront ih =>
    have hnext := (lt_of_front hfront).2
    rw [scanFrom_of_good ((front_append_eq_good_iff rest hnext).2 hfront)]
    exact ih h

/-! ## Intact journals -/

/-- Holds of the bytes that a scan passes from end to end, with the records that it finds. -/
def Intact (bytes : ByteArray) (rs : List Record) : Prop :=
  scan bytes = .ok ⟨rs, bytes.size, false⟩

namespace Intact

variable {bytes : ByteArray} {rs : List Record} (h : Intact bytes rs)
include h

theorem records_eq : records bytes = .ok rs := by
  rw [records, h]
  rfl

/-- **Records behind an intact journal are read after those that are there.** -/
theorem append {batch : List Record} (hbatch : ∀ r ∈ batch, r.Storable) :
    Intact (bytes ++ image batch) (rs ++ batch) := by
  have hend : front (bytes ++ image batch) (bytes ++ image batch).size = .nothing := by
    rw [front, if_pos le_rfl]
  have hbehind := scanFrom_image hbatch bytes .empty rs.reverse
  rw [ByteArray.append_empty, scanFrom_of_nothing hend] at hbehind
  rw [Intact, scan, scanFrom_append h, hbehind, List.reverse_append, List.reverse_reverse,
    List.reverse_reverse]

end Intact

/-- **A journal that was opened is intact**, and holds the records that were there before. -/
theorem exists_intact_of_repair {bytes kept : ByteArray} (h : repair bytes = .ok kept) :
    ∃ rs, Intact kept rs ∧ records bytes = .ok rs := by
  cases hscan : scan bytes with
  | error fault =>
    rw [repair, hscan] at h
    exact absurd h (by simp [Except.map])
  | ok found =>
    have hrecords : records bytes = .ok found.records := by
      rw [records, hscan]
      rfl
    refine ⟨found.records, ?_, hrecords⟩
    have hsize := le_size_of_scanFrom hscan (Nat.zero_le _)
    have hkept : kept = if found.torn then bytes.extract 0 found.size else bytes := by
      rw [repair, hscan] at h
      exact (Except.ok.inj h).symm
    have hextract : Intact (bytes.extract 0 found.size) found.records := by
      have hsame := scanFrom_extract hscan (Nat.zero_le _)
      rw [Intact, scan, hsame, ByteArray.size_extract]
      congr 2
      omega
    rw [hkept]
    split
    · exact hextract
    · rename_i htorn
      have hall := size_le_of_not_torn hscan (by simpa using htorn)
      rwa [Nat.le_antisymm hsize.2 hall, ByteArray.extract_zero_size] at hextract

end Logbook.Journal
