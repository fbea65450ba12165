import Mathlib.Data.List.Basic
import Logbook.Proofs.Journal.Damage

/-!
# What a checksum finds out

When one byte of the checksum or of the payload of a frame is changed, the frame states a checksum
that its payload does not have, and a scan that gets there stops.  Nothing is read from such a
journal and nothing is cut from it: opening, peeking and reading all fail with one fault
(`Session.Refused`), which names the place of the frame.

A scan need not get there.  It stops at the first frame that is not good, and a frame can be as it
was written and still not be good: a record that nests deeper than what is read can be written all
the same.  A journal with such a record is refused for it, with or without a changed byte behind it.

* `Session.refused_changed`, `Session.refused_changed_of_deep`: the two ways in which a journal with
  a changed byte is refused.
* `changed_checksum_is_refused`: one changed byte in a journal.
* `not_always_refused_for_checksum`: a journal that is refused for something else.
-/

namespace Logbook

namespace Journal

/-- Holds of the bytes of a journal from which nothing can be read: peeking fails, opening fails and
leaves the file as it is, and reading fails in a journal that is open already. -/
def Session.Refused (bytes : ByteArray) (fault : Fault) : Prop :=
  ∀ handle, peek ⟨some bytes, handle⟩ = .error fault ∧
    reopen ⟨some bytes, handle⟩ = (.error fault, ⟨some bytes, .closed⟩) ∧
    (handle ≠ .closed → read ⟨some bytes, handle⟩ = .error fault)

theorem Session.refused_of_scan {bytes : ByteArray} {fault : Fault}
    (h : scan bytes = .error fault) : Refused bytes fault := by
  intro handle
  have hpeek : peek ⟨some bytes, handle⟩ = .error fault := by
    show records bytes = _
    rw [records, h]
    rfl
  refine ⟨hpeek, reopen_of_error h handle, fun hopen => ?_⟩
  rw [read, whileOpen, if_neg hopen, hpeek]

/-- A journal is refused for one fault only. -/
theorem Session.Refused.unique {bytes : ByteArray} {fault other : Fault} (h : Refused bytes fault)
    (h' : Refused bytes other) : fault = other :=
  Except.error.inj ((h .closed).1.symm.trans (h' .closed).1)

section Changed

variable {earlier later : List Record} {record : Record} {p : ℕ} {byte : UInt8}

/-- **A changed checksum or payload is found out**, if the scan gets to it. -/
theorem Session.refused_changed (hearlier : ∀ r ∈ earlier, r.Storable) (hfits : record.Fits)
    (hp : 4 ≤ p) (hp' : p < (frame record).size)
    (hne : Frame.byteAt (frame record) p ≠ byte.toNat) :
    Refused (changed earlier record later p byte) (.corrupt (image earlier).size .checksum) := by
  have hbyte : Frame.byteAt (image (earlier ++ record :: later)) ((image earlier).size + p)
      ≠ byte.toNat := by
    rwa [image_append, image, Frame.byteAt_append_right, Frame.byteAt_append_left hp']
  rw [size_frame] at hp'
  have hstands : Stands (image (earlier ++ record :: later)) (image earlier).size
      (Record.payload record) := stands_record hfits
  have hfront := hstands.front_set!_of_le hbyte (by omega) (by omega)
  rw [← changed, changed_eq] at hfront
  rw [changed_eq]
  exact refused_of_scan (scan_image_of_damaged hearlier hfront)

/-- **A scan stops at a record that nests too deep**, and does not get to the byte that is changed
behind it. -/
theorem Session.refused_changed_of_deep {before after : List Record} {deep : Record}
    (hbefore : ∀ r ∈ before, r.Storable) (hfits : deep.Fits) (hwf : (Value.map deep).WellFormed)
    (hdeep : Json.maxDepth < (Value.map deep).depth) :
    Refused (changed (before ++ deep :: after) record later p byte)
      (.corrupt (image before).size .payload) := by
  have hfront := (stands_frame hfits (image before)
    (image after ++ (frame record ++ image later).set! p byte)).front_eq
  rw [ofPayload?_payload_of_deep hwf hdeep, Option.elim_none] at hfront
  rw [changed_eq, image_append, image, ByteArray.append_assoc, ByteArray.append_assoc]
  exact refused_of_scan (scan_image_of_damaged hbefore hfront)

end Changed

/-- A beginning that reaches beyond an item, divided at this item. -/
theorem take_eq_take_append_cons {records : List Record} {i j : ℕ} (hij : j < i)
    (hj : j < records.length) :
    records.take i = records.take j ++ records[j] :: (records.take i).drop (j + 1) := by
  have hlt : j < (records.take i).length := by
    rw [List.length_take]
    omega
  have hcons := List.drop_eq_getElem_cons hlt
  rw [List.getElem_take] at hcons
  rw [← hcons, ← min_eq_left hij.le, ← List.take_take, min_eq_left hij.le, List.take_append_drop]

/-- **A journal with a changed checksum or payload is refused.**  The fault is that checksum, at the
place of its frame, if the records in front nest no deeper than what is read.  Otherwise it is the
first record that nests deeper, at the place of that record. -/
theorem changed_checksum_is_refused {records : List Record} {frames : List ByteArray}
    (hwf : ∀ r ∈ records, (Value.map r).WellFormed)
    (hframes : records.mapM Frame.encode = .ok frames) {i p : ℕ} (hi : i < frames.length)
    (hp : 4 ≤ p) (hp' : p < frames[i].size) {byte : UInt8} (hne : frames[i][p] ≠ byte) :
    let offset (j : ℕ) := (join (frames.take j)).size
    let damaged := (join frames).set! (offset i + p) byte
    ((∀ r ∈ records.take i, (Value.map r).depth ≤ Json.maxDepth) →
      Session.Refused damaged (.corrupt (offset i) .checksum)) ∧
    ∀ j < i, ∀ deep, records[j]? = some deep → Json.maxDepth < (Value.map deep).depth →
      (∀ r ∈ records.take j, (Value.map r).depth ≤ Json.maxDepth) →
        Session.Refused damaged (.corrupt (offset j) .payload) := by
  obtain ⟨hfits, rfl⟩ := mapM_encode_eq_ok hframes
  rw [List.length_map] at hi
  simp only [List.getElem_map] at hp' hne
  have hsplit : records.take i ++ records[i] :: records.drop (i + 1) = records := by
    rw [← List.drop_eq_getElem_cons hi, List.take_append_drop]
  have hstorable : ∀ j, (∀ r ∈ records.take j, (Value.map r).depth ≤ Json.maxDepth) →
      ∀ r ∈ records.take j, Record.Storable r := by
    intro j hdepth r hr
    have hmem := List.mem_of_mem_take hr
    exact ⟨⟨hwf r hmem, hdepth r hr⟩, hfits r hmem⟩
  have hbyte : Frame.byteAt (frame records[i]) p ≠ byte.toNat := by
    rwa [Frame.byteAt_eq hp', Ne, UInt8.toNat_inj]
  have hdamaged : (image records).set! ((image (records.take i)).size + p) byte
      = changed (records.take i) records[i] (records.drop (i + 1)) p byte := by
    rw [changed, hsplit]
  simp only [← List.map_take, join_map_frame]
  rw [hdamaged]
  refine ⟨fun hdepth => ?_, fun j hj deep hget hdeep hdepth => ?_⟩
  · exact Session.refused_changed (hstorable i hdepth) (hfits _ (List.getElem_mem hi)) hp hp' hbyte
  · -- the deep record stands in front of the byte that is changed
    obtain ⟨hj', rfl⟩ := List.getElem?_eq_some_iff.1 hget
    have hmem := List.getElem_mem hj'
    rw [take_eq_take_append_cons hj hj']
    exact Session.refused_changed_of_deep (hstorable j hdepth) (hfits _ hmem) (hwf _ hmem) hdeep

/-- The name in the second of two records becomes another name, and the journal is refused at the
frame of that record. -/
theorem changed_checksum_is_refused_otherName :
    twoRecords.mapM Frame.encode = .ok (twoRecords.map frame) ∧
    Session.Refused ((join (twoRecords.map frame)).set! (18 + 10) 0x63) (.corrupt 18 .checksum) := by
  have hwf : ∀ r ∈ twoRecords, (Value.map r).WellFormed := by
    simp [twoRecords, Value.WellFormed, Value.WellFormedMembers, Members.keys]
  have hp : 10 < (frame [("b", .null)]).size := by decide +kernel
  have hne : (frame [("b", .null)])[10] ≠ 0x63 := by
    rw [Ne, ← UInt8.toNat_inj, ← Frame.byteAt_eq]
    decide +kernel
  have hoffset : (join ((twoRecords.map frame).take 1)).size = 18 := by decide +kernel
  have hrefused := (changed_checksum_is_refused hwf mapM_encode_twoRecords (i := 1) (by decide)
    (by decide) hp hne).1 (by decide)
  dsimp only at hrefused
  rw [hoffset] at hrefused
  exact ⟨mapM_encode_twoRecords, hrefused⟩

/-! ## A record that nests too deep -/

/-- Lists in one another. -/
def nested : ℕ → Value
  | 0 => .null
  | n + 1 => .list [nested n]

theorem depth_nested (n : ℕ) : (nested n).depth = n := by
  induction n with
  | zero => rfl
  | succ n ih => rw [nested, Value.depth, Value.depthOfItems, Value.depthOfItems, ih, Nat.max_zero]

theorem wellFormed_nested (n : ℕ) : (nested n).WellFormed := by
  induction n with
  | zero => trivial
  | succ n ih => exact ⟨ih, trivial⟩

/-- A record of 128 levels. -/
def deepRecord : Record := [("a", nested 127)]

/-- A record that nests too deep, and one behind it. -/
def deepRecords : List Record := [deepRecord, [("b", .null)]]

/-- A changed payload is not always what a journal is refused for: the record in front of it may be
one that cannot be read. -/
theorem not_always_refused_for_checksum :
    ¬∀ (records : List Record) (frames : List ByteArray),
      (∀ r ∈ records, (Value.map r).WellFormed) → records.mapM Frame.encode = .ok frames →
        ∀ (i p : ℕ) (hi : i < frames.length) (byte : UInt8), 4 ≤ p →
          ∀ hp : p < frames[i].size, frames[i][p] ≠ byte →
            Session.Refused ((join frames).set! ((join (frames.take i)).size + p) byte)
              (.corrupt (join (frames.take i)).size .checksum) := by
  intro h
  have hfits : ∀ r ∈ deepRecords, r.Fits := by decide +kernel
  have hwf : ∀ r ∈ deepRecords, (Value.map r).WellFormed := by
    simp [deepRecords, deepRecord, Value.WellFormed, Value.WellFormedMembers, Members.keys,
      wellFormed_nested]
  have hdepth : Json.maxDepth < (Value.map deepRecord).depth := by
    rw [deepRecord, Value.depth, Value.depthOfMembers, Value.depthOfMembers, depth_nested]
    decide
  have hp : 10 < (frame [("b", .null)]).size := by decide +kernel
  have hne : (frame [("b", .null)])[10] ≠ 0x63 := by
    rw [Ne, ← UInt8.toNat_inj, ← Frame.byteAt_eq]
    decide +kernel
  have hclaim := h deepRecords _ hwf (mapM_encode hfits) 1 10 (by decide) 0x63 (by decide) hp hne
  rw [← List.map_take, join_map_frame, join_map_frame] at hclaim
  have hnone : ∀ r ∈ ([] : List Record), r.Storable := fun r hr => absurd hr List.not_mem_nil
  have hdeep : Session.Refused (changed ([] ++ [deepRecord]) [("b", .null)] [] 10 0x63)
      (.corrupt (image []).size .payload) :=
    Session.refused_changed_of_deep hnone (hfits deepRecord List.mem_cons_self)
      (hwf deepRecord List.mem_cons_self) hdepth
  exact absurd (Fault.corrupt.inj (hclaim.unique hdeep)).2 (by decide)

end Journal

end Logbook
