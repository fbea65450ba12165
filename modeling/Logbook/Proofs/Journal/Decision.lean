import Mathlib.Data.List.Forall2
import Logbook.Proofs.Journal.Damage
import Logbook.Proofs.Journal.Pieces

/-!
# What a scan decides

The bytes of a journal may be any bytes.  A scan passes the longest run of good frames at their
start, and what it says depends on the first bytes behind that run only: there may be none, they may
be the beginning of a frame that is not finished, or else there is something wrong with them.

A good frame ends where it says it does, so of two runs the shorter one is always the beginning of
the longer one, and the longest run is where no good frame comes next (`LongestRun.front_ne_good`,
`longestRun_of_front`).

* `Frame.IsGood`: good frames.
* `LongestRun`, `exists_longestRun`: the longest run of good frames.
* `Frame.IsCutShort`, `Frame.defect`: the bytes behind it.
* `scan_decides`: the outcome of a scan, whatever the bytes are.
-/

namespace Logbook.Journal

/-! ## Good frames -/

namespace Frame

/-- Holds of a record and the bytes of a good frame with it: a length within the limit, a checksum,
and as many bytes that have this checksum and are a record. -/
def IsGood (record : Record) (bytes : ByteArray) : Prop :=
  ∃ payload, payload.size ≤ maxPayload ∧ Record.ofPayload? payload = some record ∧
    bytes = around payload

theorem eq_of_byteAt_eq {a b : ByteArray} (hsize : a.size = b.size)
    (h : ∀ i < a.size, byteAt a i = byteAt b i) : a = b := by
  refine ByteArray.ext_getElem hsize fun i hi hi' => ?_
  have hbyte := h i hi
  rw [byteAt_eq hi, byteAt_eq hi', UInt8.toNat_inj] at hbyte
  exact hbyte

theorem wordAt_lt (bytes : ByteArray) (i : ℕ) : wordAt bytes i < 4294967296 := by
  have h0 := byteAt_lt bytes i
  have h1 := byteAt_lt bytes (i + 1)
  have h2 := byteAt_lt bytes (i + 2)
  have h3 := byteAt_lt bytes (i + 3)
  rw [wordAt, ofBytes]
  omega

/-- Four bytes are the bytes of the number that they denote. -/
theorem extract_eq_word {bytes : ByteArray} {i : ℕ} (h : i + 4 ≤ bytes.size) :
    bytes.extract i (i + 4) = word (wordAt bytes i) := by
  have hsize : (bytes.extract i (i + 4)).size = 4 := by
    rw [ByteArray.size_extract]
    omega
  have hword : wordAt (bytes.extract i (i + 4)) 0 = wordAt bytes i := by
    rw [wordAt, wordAt, byteAt_extract (by omega) h, byteAt_extract (by omega) h,
      byteAt_extract (by omega) h, byteAt_extract (by omega) h]
    rfl
  refine eq_of_byteAt_eq (by rw [hsize, size_word]) fun j hj => ?_
  refine byteAt_eq_of_wordAt_eq ?_ (Nat.zero_le j) (by omega)
  rw [hword, wordAt_word (wordAt_lt bytes i)]

theorem IsGood.size_pos {record : Record} {bytes : ByteArray} (h : IsGood record bytes) :
    0 < bytes.size := by
  obtain ⟨payload, -, -, rfl⟩ := h
  rw [size_around, headerSize]
  omega

/-- A good frame is found where it stands. -/
theorem IsGood.front_eq {record : Record} {bytes : ByteArray} (h : IsGood record bytes)
    (before rest : ByteArray) :
    front (before ++ (bytes ++ rest)) before.size = .good record (before.size + bytes.size) := by
  obtain ⟨payload, hsize, hrecord, rfl⟩ := h
  rw [(stands_around hsize before rest).front_eq, hrecord, Option.elim_some, size_around,
    Nat.add_assoc]

theorem IsGood.front_zero {record : Record} {bytes : ByteArray} (h : IsGood record bytes)
    (rest : ByteArray) : front (bytes ++ rest) 0 = .good record bytes.size := by
  have hfront := h.front_eq .empty rest
  rwa [ByteArray.empty_append, ByteArray.size_empty, Nat.zero_add] at hfront

end Frame

/-- The bytes of a frame that stands at the start. -/
theorem Stands.eq_around_append {bytes payload : ByteArray} (h : Stands bytes 0 payload) :
    ∃ rest, bytes = Frame.around payload ++ rest := by
  have hsize := h.size_le
  have hheader : Frame.headerSize = 8 := rfl
  have hlength : bytes.extract 0 4 = Frame.word (Frame.wordAt bytes 0) :=
    Frame.extract_eq_word (by omega)
  have hchecksum : bytes.extract 4 8 = Frame.word (Frame.wordAt bytes 4) :=
    Frame.extract_eq_word (by omega)
  have hpayload := h.extract_eq
  have hlength' := h.length_eq
  have hchecksum' := h.checksum_eq
  rw [Nat.zero_add] at hpayload hchecksum'
  rw [hlength'] at hlength
  rw [hchecksum'] at hchecksum
  refine ⟨bytes.extract (Frame.headerSize + payload.size) bytes.size, ?_⟩
  calc bytes = bytes.extract 0 bytes.size := ByteArray.extract_zero_size.symm
    _ = bytes.extract 0 4 ++ bytes.extract 4 8 ++ bytes.extract 8 (8 + payload.size)
        ++ bytes.extract (8 + payload.size) bytes.size := by
      rw [← ByteArray.extract_eq_extract_append_extract 4 (by omega) (by omega),
        ← ByteArray.extract_eq_extract_append_extract 8 (by omega) (by omega),
        ← ByteArray.extract_eq_extract_append_extract (8 + payload.size) (by omega) (by omega)]
    _ = _ := by
      rw [hlength, hchecksum, ← hheader, hpayload]
      rfl

/-- Where a good frame is found at the start, there is one. -/
theorem exists_isGood_of_front {bytes : ByteArray} {record : Record} {next : ℕ}
    (h : front bytes 0 = .good record next) :
    ∃ f rest, Frame.IsGood record f ∧ bytes = f ++ rest := by
  obtain ⟨payload, hstands, hrecord, -⟩ := front_eq_good_iff.1 h
  obtain ⟨rest, hrest⟩ := hstands.eq_around_append
  exact ⟨_, rest, ⟨payload, hstands.fits, hrecord, rfl⟩, hrest⟩

/-! ## Frames in a row -/

theorem foldl_append_join (frames : List ByteArray) (bytes : ByteArray) :
    frames.foldl (· ++ ·) bytes = bytes ++ join frames := by
  rw [join]
  induction frames generalizing bytes with
  | nil => rw [List.foldl_nil, List.foldl_nil, ByteArray.append_empty]
  | cons f frames ih =>
    rw [List.foldl_cons, List.foldl_cons, ih, ih (.empty ++ f), ByteArray.empty_append,
      ByteArray.append_assoc]

@[simp] theorem join_nil : join [] = .empty := rfl

theorem join_cons (f : ByteArray) (frames : List ByteArray) :
    join (f :: frames) = f ++ join frames := by
  rw [join, List.foldl_cons, foldl_append_join, ByteArray.empty_append]

theorem join_append (frames more : List ByteArray) :
    join (frames ++ more) = join frames ++ join more := by
  rw [join, List.foldl_append, foldl_append_join, ← join]

/-- A scan passes good frames in a row, wherever they start. -/
theorem scanFrom_join {rs : List Record} {frames : List ByteArray}
    (h : List.Forall₂ Frame.IsGood rs frames) (before rest : ByteArray) (done : List Record) :
    scanFrom (before ++ (join frames ++ rest)) before.size done
      = scanFrom (before ++ (join frames ++ rest)) (before ++ join frames).size
        (rs.reverse ++ done) := by
  induction h generalizing before done with
  | nil => rw [join_nil, ByteArray.append_empty, List.reverse_nil, List.nil_append]
  | @cons record f rs frames hgood _ ih =>
    have hbytes : before ++ (join (f :: frames) ++ rest)
        = before ++ (f ++ (join frames ++ rest)) := by
      rw [join_cons, ByteArray.append_assoc]
    have hnext := ih (before ++ f) (record :: done)
    rw [ByteArray.append_assoc] at hnext
    rw [hbytes, scanFrom_of_good (hgood.front_eq before _), ← ByteArray.size_append, hnext,
      join_cons, ByteArray.append_assoc, List.reverse_cons, List.append_assoc,
      List.singleton_append]

/-! ## The longest run -/

/-- Holds of bytes, the longest run of good frames at their start with the records in them, and the
bytes behind that run. -/
structure LongestRun (bytes : ByteArray) (rs : List Record) (frames : List ByteArray)
    (rest : ByteArray) : Prop where
  eq : bytes = join frames ++ rest
  good : List.Forall₂ Frame.IsGood rs frames
  longest : ∀ moreRecords more behind, List.Forall₂ Frame.IsGood moreRecords more →
    bytes = join more ++ behind → more.length ≤ frames.length

/-- Of two runs the shorter one is the beginning of the longer one, so no run is longer than one
behind which there is no good frame. -/
theorem length_le_of_front {rs moreRecords : List Record} {frames more : List ByteArray}
    {rest behind : ByteArray} (h : List.Forall₂ Frame.IsGood rs frames)
    (hmore : List.Forall₂ Frame.IsGood moreRecords more)
    (hfront : ∀ record next, front rest 0 ≠ .good record next)
    (heq : join frames ++ rest = join more ++ behind) : more.length ≤ frames.length := by
  induction hmore generalizing rs frames with
  | nil => exact Nat.zero_le _
  | @cons record f moreRecords more hgood _ ih =>
    have hfirst := hgood.front_zero (join more ++ behind)
    rw [← ByteArray.append_assoc, ← join_cons, ← heq] at hfirst
    cases h with
    | nil =>
      rw [join_nil, ByteArray.empty_append] at hfirst
      exact absurd hfirst (hfront _ _)
    | @cons record' f' rs frames hgood' htail =>
      rw [join_cons, join_cons, ByteArray.append_assoc, ByteArray.append_assoc] at heq
      rw [join_cons, ByteArray.append_assoc, hgood'.front_zero] at hfirst
      have hf : f' = f := ByteArray.append_inj_left heq (Front.good.inj hfirst).2
      rw [hf, ByteArray.append_right_inj] at heq
      exact Nat.succ_le_succ (ih htail heq)

/-- **A run is the longest when no good frame comes behind it.** -/
theorem longestRun_of_front {rs : List Record} {frames : List ByteArray} {rest : ByteArray}
    (h : List.Forall₂ Frame.IsGood rs frames)
    (hfront : ∀ record next, front rest 0 ≠ .good record next) :
    LongestRun (join frames ++ rest) rs frames rest :=
  ⟨rfl, h, fun _ _ _ hmore heq => length_le_of_front h hmore hfront heq⟩

theorem LongestRun.front_ne_good {bytes : ByteArray} {rs : List Record} {frames : List ByteArray}
    {rest : ByteArray} (h : LongestRun bytes rs frames rest) (record : Record) (next : ℕ) :
    front rest 0 ≠ .good record next := by
  intro hfront
  obtain ⟨f, behind, hgood, rfl⟩ := exists_isGood_of_front hfront
  have hlonger := h.longest (rs ++ [record]) (frames ++ [f]) behind
    (List.rel_append h.good (.cons hgood .nil))
  rw [h.eq, join_append, join_cons, join_nil, ByteArray.append_empty, ByteArray.append_assoc,
    List.length_append, List.length_singleton] at hlonger
  exact absurd (hlonger rfl) (Nat.not_succ_le_self _)

/-- **All bytes start with a longest run of good frames**, which may be empty. -/
theorem exists_longestRun (bytes : ByteArray) :
    ∃ rs frames rest, LongestRun bytes rs frames rest := by
  suffices h : ∃ rs frames rest, bytes = join frames ++ rest ∧
      List.Forall₂ Frame.IsGood rs frames ∧ ∀ record next, front rest 0 ≠ .good record next by
    obtain ⟨rs, frames, rest, rfl, hgood, hfront⟩ := h
    exact ⟨rs, frames, rest, longestRun_of_front hgood hfront⟩
  -- a good frame has bytes, so there are fewer behind it
  induction hsize : bytes.size using Nat.strong_induction_on generalizing bytes with
  | _ n ih =>
    by_cases hnone : ∀ record next, front bytes 0 ≠ .good record next
    · exact ⟨[], [], bytes, ByteArray.empty_append.symm, .nil, hnone⟩
    · simp only [not_forall, not_not] at hnone
      obtain ⟨record, next, hfront⟩ := hnone
      obtain ⟨f, behind, hgood, rfl⟩ := exists_isGood_of_front hfront
      have hpos := hgood.size_pos
      rw [ByteArray.size_append] at hsize
      obtain ⟨rs, frames, rest, rfl, htail, hend⟩ := ih behind.size (by omega) behind rfl
      refine ⟨record :: rs, f :: frames, rest, ?_, .cons hgood htail, hend⟩
      rw [join_cons, ByteArray.append_assoc]

/-! ## The bytes behind the run -/

/-- Holds of bytes that are the beginning of a frame which is not finished. -/
def Frame.IsCutShort (bytes : ByteArray) : Prop :=
  bytes.size < headerSize ∨
    wordAt bytes 0 ≤ maxPayload ∧ bytes.size < headerSize + wordAt bytes 0

/-- What is wrong with a frame that is there but is not good. -/
def Frame.defect (bytes : ByteArray) : Damage :=
  if maxPayload < wordAt bytes 0 then .length
  else if (Crc32.checksum (bytes.extract headerSize (headerSize + wordAt bytes 0))).toNat
      ≠ wordAt bytes 4 then .checksum
  else .payload

theorem front_of_isCutShort {bytes : ByteArray} (hpos : 0 < bytes.size)
    (h : Frame.IsCutShort bytes) : front bytes 0 = .torn := by
  by_cases hheader : bytes.size < Frame.headerSize
  · exact front_of_size_lt hpos (by rwa [Nat.zero_add])
  · obtain ⟨hmax, hshort⟩ := h.resolve_left hheader
    rw [front_of_header (by omega), if_neg (Nat.not_lt.2 hmax), Nat.zero_add, if_pos hshort]

theorem front_of_not_isCutShort {bytes : ByteArray} (h : ¬Frame.IsCutShort bytes)
    (hfront : ∀ record next, front bytes 0 ≠ .good record next) :
    front bytes 0 = .damaged (Frame.defect bytes) := by
  rw [Frame.IsCutShort, not_or, not_and] at h
  rw [front_of_header (by omega), Nat.zero_add, Nat.zero_add] at hfront ⊢
  rw [Frame.defect]
  split
  · rfl
  · rename_i hmax
    rw [if_neg hmax, if_neg (h.2 (Nat.not_lt.1 hmax))] at hfront
    rw [if_neg (h.2 (Nat.not_lt.1 hmax))]
    split
    · rfl
    · rename_i hchecksum
      rw [if_neg hchecksum] at hfront
      generalize Record.ofPayload? _ = found at hfront ⊢
      cases found with
      | none => rfl
      | some record => exact absurd rfl (hfront record _)

/-! ## The outcome -/

/-- **What a scan decides, whatever the bytes are.**  With the longest run of good frames and the
bytes behind it: if there are none, the scan ends with the records of the run; if they are the
beginning of a frame, it ends with the same records and says that a frame is torn; and otherwise it
fails where they start, for the length, else for the checksum, else for the payload.  It makes no
difference in which pieces a source hands the bytes out. -/
theorem scan_decides (bytes : ByteArray) :
    (∃ rs frames rest, LongestRun bytes rs frames rest) ∧
    (∀ rs frames rest, LongestRun bytes rs frames rest →
      (rest.size = 0 → scan bytes = .ok ⟨rs, bytes.size, false⟩) ∧
      (0 < rest.size → Frame.IsCutShort rest →
        scan bytes = .ok ⟨rs, (join frames).size, true⟩) ∧
      (0 < rest.size → ¬Frame.IsCutShort rest →
        scan bytes = .error (.corrupt (join frames).size (Frame.defect rest)))) ∧
    ∀ turns, Source.scan ⟨bytes, turns⟩ = .error .unread ∧ .failed ∈ turns ∨
      Source.scan ⟨bytes, turns⟩ = (scan bytes).mapError .fault := by
  refine ⟨exists_longestRun bytes, fun rs frames rest h => ?_, fun turns => ?_⟩
  · have hscan : scan bytes = scanFrom bytes (join frames).size rs.reverse := by
      have hrun := scanFrom_join h.good .empty rest []
      rwa [ByteArray.empty_append, ByteArray.empty_append, ByteArray.size_empty, List.append_nil,
        ← h.eq] at hrun
    have hfront := front_append (join frames) rest 0
    rw [← h.eq, Nat.add_zero] at hfront
    refine ⟨fun hempty => ?_, fun hpos hshort => ?_, fun hpos hwhole => ?_⟩
    · have hsize := congrArg ByteArray.size h.eq
      rw [ByteArray.size_append, hempty, Nat.add_zero] at hsize
      rw [front_of_size_le hempty.le] at hfront
      rw [hscan, scanFrom_of_nothing hfront, List.reverse_reverse, hsize]
    · rw [front_of_isCutShort hpos hshort] at hfront
      rw [hscan, scanFrom_of_torn hfront, List.reverse_reverse]
    · rw [front_of_not_isCutShort hwhole h.front_ne_good] at hfront
      rw [hscan, scanFrom_of_damaged hfront]
  · exact Source.scan_eq ⟨bytes, turns⟩

end Logbook.Journal
