import Logbook.Proofs.Journal.Mirror

/-!
# A write that breaks off

A record or a batch is written to the journal in one go, and a crash may leave any number of its
first bytes behind.  When the journal is opened again, the records whose frames had been written
whole are there, and of the others nothing is left: the cut lies on the boundary of a frame, so that
what is appended later stands where a scan looks for it.

The first bytes of an image are the image of the first records, and perhaps a part of the frame that
comes next (`extract_image`).  What a scan makes of these two cases is known already.

* `whole`: the number of frames within the first bytes of an image.
* `records_crashed`, `repair_crashed`: what reading and opening make of a write that broke off.
* `reopen_crashed`: the journal after a crash, and from then on.
-/

namespace Logbook.Journal

/-! ## The first bytes of an image -/

/-- The number of frames that lie wholly within the first `k` bytes. -/
def whole : List Record → ℕ → ℕ
  | [], _ => 0
  | record :: rest, k =>
    if (frame record).size ≤ k then whole rest (k - (frame record).size) + 1 else 0

theorem whole_le_length (batch : List Record) (k : ℕ) : whole batch k ≤ batch.length := by
  induction batch generalizing k with
  | nil => exact le_rfl
  | cons record rest ih =>
    rw [whole, List.length_cons]
    split
    · exact Nat.succ_le_succ (ih _)
    · exact Nat.zero_le _

/-- A frame is among these exactly if the bytes reach to its end. -/
theorem lt_whole_iff {batch : List Record} {i : ℕ} (hi : i < batch.length) (k : ℕ) :
    i < whole batch k ↔ (image (batch.take (i + 1))).size ≤ k := by
  induction batch generalizing i k with
  | nil => exact absurd hi (Nat.not_lt_zero i)
  | cons record rest ih =>
    rw [List.take_succ_cons, image, ByteArray.size_append, whole]
    cases i with
    | zero =>
      rw [List.take_zero, image, ByteArray.size_empty, Nat.add_zero]
      split
      · rename_i hk
        exact ⟨fun _ => hk, fun _ => Nat.succ_pos _⟩
      · rename_i hk
        exact ⟨fun h => absurd h (Nat.lt_irrefl 0), fun h => absurd h hk⟩
    | succ i =>
      rw [List.length_cons] at hi
      split
      · rw [Nat.succ_lt_succ_iff, ih (Nat.lt_of_succ_lt_succ hi)]
        omega
      · exact ⟨fun h => absurd h (Nat.not_lt_zero _), fun h => by omega⟩

/-- **The first bytes of an image are whole frames, and perhaps a part of one more.** -/
theorem extract_image {batch : List Record} {k : ℕ} (hk : k ≤ (image batch).size) :
    (image batch).extract 0 k = image (batch.take (whole batch k)) ∨
      ∃ record ∈ batch, ∃ j, 0 < j ∧ j < (frame record).size ∧
        (image batch).extract 0 k
          = image (batch.take (whole batch k)) ++ (frame record).extract 0 j := by
  induction batch generalizing k with
  | nil =>
    rw [image, ByteArray.size_empty] at hk
    obtain rfl : k = 0 := Nat.le_zero.1 hk
    exact Or.inl ByteArray.extract_same
  | cons record rest ih =>
    rw [image, ByteArray.size_append] at hk
    rw [image, ByteArray.extract_append, Nat.zero_sub, whole]
    -- the cut lies behind the first frame, or in it
    by_cases hwhole : (frame record).size ≤ k
    · have hall := ByteArray.extract_zero_max_size (a := frame record) (i := k)
      rw [max_eq_left hwhole] at hall
      rw [if_pos hwhole, List.take_succ_cons, image, hall]
      rcases ih (k := k - (frame record).size) (by omega) with h | ⟨next, hmem, j, hpos, hj, h⟩
      · exact Or.inl (by rw [h])
      · refine Or.inr ⟨next, List.mem_cons_of_mem _ hmem, j, hpos, hj, ?_⟩
        rw [h, ByteArray.append_assoc]
    · have hnone : k - (frame record).size = 0 := by omega
      rw [if_neg hwhole, List.take_zero, image, hnone, ByteArray.extract_same,
        ByteArray.append_empty]
      rcases Nat.eq_zero_or_pos k with rfl | hpos
      · exact Or.inl ByteArray.extract_same
      · refine Or.inr ⟨record, List.mem_cons_self, k, hpos, Nat.lt_of_not_le hwhole, ?_⟩
        rw [ByteArray.empty_append]

/-! ## Reading and opening after a crash -/

section Crashed

variable {earlier batch : List Record} {k : ℕ}

theorem storable_append_take (hearlier : ∀ r ∈ earlier, r.Storable)
    (hbatch : ∀ r ∈ batch, r.Storable) (n : ℕ) : ∀ r ∈ earlier ++ batch.take n, r.Storable :=
  List.forall_mem_append.2 ⟨hearlier, fun r hr => hbatch r (List.mem_of_mem_take hr)⟩

/-- Reading passes over what is left of a frame. -/
theorem records_crashed (hearlier : ∀ r ∈ earlier, r.Storable) (hbatch : ∀ r ∈ batch, r.Storable)
    (hk : k ≤ (image batch).size) :
    records (image earlier ++ (image batch).extract 0 k)
      = .ok (earlier ++ batch.take (whole batch k)) := by
  have hstorable := storable_append_take hearlier hbatch (whole batch k)
  rcases extract_image hk with h | ⟨record, hmem, j, hpos, hj, h⟩
  · rw [h, ← image_append, records_image hstorable]
  · rw [h, ← ByteArray.append_assoc, ← image_append,
      records_image_cut hstorable (hbatch record hmem).fits hpos hj]

/-- Opening cuts off what is left of a frame. -/
theorem repair_crashed (hearlier : ∀ r ∈ earlier, r.Storable) (hbatch : ∀ r ∈ batch, r.Storable)
    (hk : k ≤ (image batch).size) :
    repair (image earlier ++ (image batch).extract 0 k)
      = .ok (image (earlier ++ batch.take (whole batch k))) := by
  have hstorable := storable_append_take hearlier hbatch (whole batch k)
  rcases extract_image hk with h | ⟨record, hmem, j, hpos, hj, h⟩
  · rw [h, ← image_append, repair_image hstorable]
  · rw [h, ← ByteArray.append_assoc, ← image_append,
      repair_image_cut hstorable (hbatch record hmem).fits hpos hj]

end Crashed

/-! ## From the crash on -/

/-- The records that an operation writes. -/
def Operation.batch? : Operation → Option (List Record)
  | append record => some [record]
  | appendAll batch => some batch
  | _ => none

/-- A write that is not broken off. -/
theorem Session.perform_write {records batch : List Record} {write : Operation}
    (hwrite : write.batch? = some batch) (hfits : ∀ r ∈ batch, r.Fits) :
    (perform ⟨some (image records), .attached⟩ write).2
      = ⟨some (image (records ++ batch)), .attached⟩ := by
  cases write with
  | append record =>
    obtain rfl := Option.some.inj hwrite
    rw [perform, append_image (hfits record (List.mem_singleton_self record))]
  | appendAll batch =>
    obtain rfl := Option.some.inj hwrite
    rw [perform, appendAll_image hfits]
  | _ => exact absurd hwrite (by simp [Operation.batch?])

/-- **After a crash the records are there whose frames had been written whole, and no others.**  The
write would have put the frames of the batch behind the earlier ones, and the crash left the first
`k` bytes of them.  A peek finds the records and leaves the file as it is; opening cuts the file to
the end of the last whole frame; and from then on the journal answers as a memory store that holds
these records. -/
theorem reopen_crashed {earlier batch : List Record} {before frames : List ByteArray}
    (hearlier : ∀ r ∈ earlier, r.Readable) (hbatch : ∀ r ∈ batch, r.Readable)
    (hbefore : earlier.mapM Frame.encode = .ok before)
    (hframes : batch.mapM Frame.encode = .ok frames) {k : ℕ} (hk : k ≤ (join frames).size) :
    (∀ write : Operation, write.batch? = some batch →
      (Session.perform ⟨some (join before), .attached⟩ write).2
        = ⟨some (join before ++ join frames), .attached⟩) ∧
    ∃ n ≤ batch.length,
      (∀ i < batch.length, i < n ↔ (join (frames.take (i + 1))).size ≤ k) ∧
      let crashed : Session := ⟨some (join before ++ (join frames).extract 0 k), .closed⟩
      let reopened : Session := ⟨some (join before ++ join (frames.take n)), .attached⟩
      crashed.perform .peek = (.records (earlier ++ batch.take n), crashed) ∧
      crashed.perform .reopen = (.done, reopened) ∧
      reopened.perform .read = (.records (earlier ++ batch.take n), reopened) ∧
      ∀ ops : List Operation, (∀ op ∈ ops, op.Readable) →
        (run Session.perform reopened ops).1
          = (run Mirror.perform (.holding (earlier ++ batch.take n)) ops).1 := by
  obtain ⟨hfitsEarlier, rfl⟩ := mapM_encode_eq_ok hbefore
  obtain ⟨hfits, rfl⟩ := mapM_encode_eq_ok hframes
  have hstorableEarlier : ∀ r ∈ earlier, r.Storable :=
    fun r hr => ⟨hearlier r hr, hfitsEarlier r hr⟩
  have hstorable : ∀ r ∈ batch, r.Storable := fun r hr => ⟨hbatch r hr, hfits r hr⟩
  have hrecords := storable_append_take hstorableEarlier hstorable (whole batch k)
  rw [join_map_frame] at hk
  simp only [← List.map_take, join_map_frame, ← image_append]
  refine ⟨fun write hwrite => Session.perform_write hwrite hfits, whole batch k,
    whole_le_length batch k, fun i hi => lt_whole_iff hi k, ?_, ?_, ?_, fun ops hops => ?_⟩
  · have hpeek : Session.peek ⟨some (image earlier ++ (image batch).extract 0 k), .closed⟩
        = .ok (earlier ++ batch.take (whole batch k)) :=
      records_crashed hstorableEarlier hstorable hk
    rw [Session.perform, hpeek]
    rfl
  · rw [Session.perform, Session.reopen, Option.getD_some,
      repair_crashed hstorableEarlier hstorable hk]
    rfl
  · rw [Session.perform, Session.read_image hrecords]
    rfl
  · exact ((Mirrors.opened hrecords).run hops).1

/-- Of two records the second breaks off in its header, and the first is kept. -/
theorem reopen_crashed_in_header :
    Session.perform ⟨some (join [frame [("a", .null)]] ++
        (join [frame [], frame [("b", .null)]]).extract 0 13), .closed⟩ .reopen
      = (.done, ⟨some (join [frame [("a", .null)]] ++ join [frame []]), .attached⟩) := by
  have hreadable : ∀ r ∈ ([[("a", .null)], [], [("b", .null)]] : List Record), r.Readable := by
    intro r hr
    refine ⟨?_, ?_⟩ <;> revert r <;>
      simp [Value.WellFormed, Value.WellFormedMembers, Members.keys, Value.depth,
        Value.depthOfMembers, Json.maxDepth]
  have hbefore : [[("a", .null)]].mapM Frame.encode = .ok [frame [("a", .null)]] :=
    mapM_encode (by decide +kernel)
  have hframes : [[], [("b", .null)]].mapM Frame.encode = .ok [frame [], frame [("b", .null)]] :=
    mapM_encode (by decide +kernel)
  have hsize : (frame []).size = 10 ∧ (frame [("b", .null)]).size = 18 := by
    rw [size_frame, size_frame]
    decide +kernel
  have hjoin : (join [frame []]).size = 10 ∧ (join [frame [], frame [("b", .null)]]).size = 28 := by
    simp [join, hsize]
  obtain ⟨-, n, -, hn, -, hreopen, -⟩ := reopen_crashed
    (fun r hr => hreadable r (List.mem_append_left [[], [("b", .null)]] hr))
    (fun r hr => hreadable r (List.mem_append_right [[("a", .null)]] hr)) hbefore hframes
    (k := 13) (by omega)
  have hfirst := (hn 0 (by decide)).2 (by simpa [hsize] using hjoin.1.trans_le (by decide))
  have hsecond : ¬1 < n := fun h => absurd ((hn 1 (by decide)).1 h) (by simp [hjoin])
  obtain rfl : n = 1 := by omega
  exact hreopen

end Logbook.Journal
