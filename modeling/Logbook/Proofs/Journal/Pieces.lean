import Mathlib.Data.List.Basic
import Logbook.Journal.Source
import Logbook.Proofs.Journal.Frames

/-!
# A journal in pieces

A source hands out the bytes of a journal in pieces of any size, and may be interrupted between
them.  A scan of the source asks for the bytes of a header and then for those of a payload, each time
until it has them all or there are no more.  What it then holds are the first bytes that were left,
as many as there are up to the number it needs, so it sees the frames that a scan of all the bytes
would see.  The pieces make no difference; only a source that fails does.

* `Source.failed_mem_of_fill`, `Source.turns_of_fill`: what is left of the turns of a source.
* `Source.front_eq_judge`: a payload that was read is judged as it is where it stands.
* `Source.finds_of_front`: what is read next is what stands at the start of the bytes.
* `Source.scan_eq`: a scan of a source.
-/

namespace Logbook.Journal.Source

/-! ## Sources that fail -/

/-- Readings that do not give enough bytes end with a failure. -/
theorem failed_mem_of_fill {n : ℕ} {got : ByteArray} {s : Source} (h : s.fill n got = none) :
    Turn.failed ∈ s.turns := by
  fun_induction fill n got s with
  | case1 => cases h
  | case2 got s hlt chunk next hread hchunk ih =>
    exact (left_of_read hread).2.2.2.subset (ih h)
  | case3 got s hlt next hread ih =>
    rw [(turns_of_interrupted hread).1]
    exact List.mem_cons_of_mem _ (ih h)
  | case4 got s hlt next hread => exact failed_mem_of_read hread
  | case5 => cases h

theorem turns_of_fill {n : ℕ} {got bytes : ByteArray} {s after : Source}
    (h : s.fill n got = some (bytes, after)) : after.turns <:+ s.turns := by
  fun_induction fill n got s with
  | case1 got s hlt chunk next hread hchunk =>
    obtain ⟨-, rfl⟩ := Prod.mk.inj (Option.some.inj h)
    exact (left_of_read hread).2.2.2
  | case2 got s hlt chunk next hread hchunk ih => exact (ih h).trans (left_of_read hread).2.2.2
  | case3 got s hlt next hread ih =>
    refine (ih h).trans ?_
    rw [(turns_of_interrupted hread).1]
    exact List.suffix_cons _ _
  | case4 => cases h
  | case5 got s hge =>
    obtain ⟨-, rfl⟩ := Prod.mk.inj (Option.some.inj h)
    exact List.suffix_rfl

theorem failed_mem_of_payloadFront {header : ByteArray} {s : Source}
    (h : s.payloadFront header = none) : Turn.failed ∈ s.turns := by
  unfold payloadFront at h
  split at h
  · cases h
  · exact failed_mem_of_fill (Option.map_eq_none_iff.1 h)

theorem failed_mem_of_front {s : Source} (h : s.front = none) : Turn.failed ∈ s.turns := by
  unfold front at h
  split at h
  · rename_i hheader
    exact failed_mem_of_fill hheader
  rename_i header behind hheader
  split at h
  · cases h
  split at h
  · cases h
  exact (turns_of_fill hheader).subset (failed_mem_of_payloadFront h)

/-! ## What is read next -/

/-- Holds when what stands at the start of the bytes is what was found, and these bytes are left
behind it if it is a good frame. -/
def Finds (bytes : ByteArray) (found : Front) (left : ByteArray) : Prop :=
  Journal.front bytes 0 = found ∧
    ∀ record next, found = .good record next → ∃ f, bytes = f ++ left ∧ f.size = next

theorem finds_of_ne_good {bytes left : ByteArray} {found : Front}
    (h : Journal.front bytes 0 = found) (hne : ∀ record next, found ≠ .good record next) :
    Finds bytes found left :=
  ⟨h, fun record next hgood => absurd hgood (hne record next)⟩

/-- A good frame has its whole payload. -/
theorem size_of_judge {header payload : ByteArray} {record : Record} {next : ℕ}
    (h : judge header payload = .good record next) :
    Frame.wordAt header 0 ≤ payload.size ∧ next = Frame.headerSize + Frame.wordAt header 0 := by
  unfold judge at h
  split at h
  · cases h
  rename_i hcut
  split at h
  · cases h
  split at h
  · exact ⟨Nat.not_lt.1 hcut, (Front.good.inj h).2.symm⟩
  · cases h

/-- A header and a payload are judged as they are where they stand, if they are cut short only where
the bytes end. -/
theorem front_eq_judge {header payload rest : ByteArray} (hheader : header.size = Frame.headerSize)
    (hmax : ¬Frame.maxPayload < Frame.wordAt header 0)
    (hle : payload.size ≤ Frame.wordAt header 0)
    (hend : payload.size < Frame.wordAt header 0 → rest.size = 0) :
    Journal.front (header ++ (payload ++ rest)) 0 = judge header payload := by
  have hsize : (header ++ (payload ++ rest)).size = header.size + (payload.size + rest.size) := by
    rw [ByteArray.size_append, ByteArray.size_append]
  have hlength : Frame.wordAt (header ++ (payload ++ rest)) 0 = Frame.wordAt header 0 :=
    Frame.wordAt_append_left (by rw [hheader]; decide) _
  have hchecksum : Frame.wordAt (header ++ (payload ++ rest)) 4 = Frame.wordAt header 4 :=
    Frame.wordAt_append_left (by rw [hheader]; decide) _
  rw [front_of_header (by omega), Nat.zero_add, Nat.zero_add, hlength, hchecksum, if_neg hmax,
    judge]
  by_cases hcut : payload.size < Frame.wordAt header 0
  · have hnothing := hend hcut
    rw [if_pos (by omega), if_pos hcut]
  · have hextract : (header ++ (payload ++ rest)).extract Frame.headerSize
        (Frame.headerSize + Frame.wordAt header 0) = payload := by
      rw [← Nat.le_antisymm hle (Nat.not_lt.1 hcut), ← Nat.add_zero Frame.headerSize, Nat.add_assoc,
        ByteArray.extract_append_size_add' hheader.symm, Nat.zero_add,
        ByteArray.extract_append_eq_left rfl]
    rw [if_neg (by omega), if_neg hcut, hextract]
    cases Record.ofPayload? payload <;> rfl

/-- What is found behind a whole header. -/
theorem finds_of_payloadFront {header : ByteArray} {s after : Source} {found : Front}
    (hheader : header.size = Frame.headerSize) (h : s.payloadFront header = some (found, after)) :
    Finds (header ++ s.left) found after.left ∧ after.turns <:+ s.turns := by
  by_cases hmax : Frame.maxPayload < Frame.wordAt header 0
  · obtain ⟨rfl, rfl⟩ := Prod.mk.inj (Option.some.inj ((if_pos hmax).symm.trans h))
    have hlength : Frame.wordAt (header ++ s.left) 0 = Frame.wordAt header 0 :=
      Frame.wordAt_append_left (by rw [hheader]; decide) _
    have henough : Frame.headerSize ≤ (header ++ s.left).size := by
      rw [ByteArray.size_append]
      omega
    have hfront : Journal.front (header ++ s.left) 0 = .damaged .length := by
      rw [front_of_header (by omega), hlength, if_pos hmax]
    exact ⟨finds_of_ne_good hfront (by simp), List.suffix_rfl⟩
  · obtain ⟨payload, hfill, rfl⟩ := fill_of_payloadFront hmax h
    obtain ⟨hleft, hle, hend⟩ := left_of_fill hfill
    refine ⟨⟨?_, fun record next hgood => ⟨header ++ payload, ?_, ?_⟩⟩, turns_of_fill hfill⟩
    · rw [hleft]
      exact front_eq_judge hheader hmax hle hend
    · rw [hleft, ByteArray.append_assoc]
    · obtain ⟨hwhole, rfl⟩ := size_of_judge hgood
      rw [ByteArray.size_append, hheader, Nat.le_antisymm hle hwhole]

/-- **What is read next is what stands at the start of the bytes.** -/
theorem finds_of_front {s after : Source} {found : Front} (h : s.front = some (found, after)) :
    Finds s.left found after.left ∧ after.turns <:+ s.turns := by
  unfold front at h
  split at h
  · cases h
  rename_i header behind hheader
  obtain ⟨hleft, hle, hend⟩ := left_of_fill hheader
  have hturns := turns_of_fill hheader
  have hsize := congrArg ByteArray.size hleft
  rw [ByteArray.size_append] at hsize
  by_cases hnone : header.size = 0
  · obtain ⟨rfl, rfl⟩ := Prod.mk.inj (Option.some.inj ((if_pos hnone).symm.trans h))
    have hnothing := hend (by rw [hnone]; decide)
    exact ⟨finds_of_ne_good (front_of_size_le (by omega)) (by simp), hturns⟩
  rw [if_neg hnone] at h
  by_cases hshort : header.size < Frame.headerSize
  · obtain ⟨rfl, rfl⟩ := Prod.mk.inj (Option.some.inj ((if_pos hshort).symm.trans h))
    have hnothing := hend hshort
    exact ⟨finds_of_ne_good (front_of_size_lt (by omega) (by omega)) (by simp), hturns⟩
  rw [if_neg hshort] at h
  obtain ⟨hfinds, hturns'⟩ := finds_of_payloadFront (by omega) h
  rw [← hleft] at hfinds
  exact ⟨hfinds, hturns'.trans hturns⟩

/-! ## Scanning -/

/-- What is read next, seen from the start of the journal. -/
theorem front_append_of_front {s after : Source} {found : Front} (h : s.front = some (found, after))
    (before : ByteArray) :
    Journal.front (before ++ s.left) before.size = found.shift before.size := by
  have hfront := front_append before s.left 0
  rwa [Nat.add_zero, (finds_of_front h).1.1] at hfront

/-- **A scan of a source goes as a scan of its bytes, unless reading fails.** -/
theorem scanFrom_eq {before : ByteArray} {offset : ℕ} (hoffset : offset = before.size)
    (done : List Record) (s : Source) :
    s.scanFrom offset done = .error .unread ∧ .failed ∈ s.turns ∨
      s.scanFrom offset done
        = (Journal.scanFrom (before ++ s.left) offset done).mapError .fault := by
  fun_induction scanFrom offset done s generalizing before with
  | case1 offset done s hfront => exact Or.inl ⟨rfl, failed_mem_of_front hfront⟩
  | case2 offset done s after hfront =>
    have hbytes := front_append_of_front hfront before
    right
    rw [hoffset, scanFrom_of_nothing hbytes]
    rfl
  | case3 offset done s after hfront =>
    have hbytes := front_append_of_front hfront before
    right
    rw [hoffset, scanFrom_of_torn hbytes]
    rfl
  | case4 offset done s damage after hfront =>
    have hbytes := front_append_of_front hfront before
    right
    rw [hoffset, scanFrom_of_damaged hbytes]
    rfl
  | case5 offset done s record next after hfront ih =>
    have hbytes := front_append_of_front hfront before
    obtain ⟨⟨-, htaken⟩, hturns⟩ := finds_of_front hfront
    obtain ⟨f, hleft, rfl⟩ := htaken record next rfl
    -- the good frame joins the bytes in front of the source
    have hrest := @ih (before ++ f) (by rw [ByteArray.size_append, hoffset])
    rw [ByteArray.append_assoc, ← hleft] at hrest
    rw [hoffset] at hrest ⊢
    rw [scanFrom_of_good hbytes]
    exact hrest.imp_left (And.imp_right fun hmem => hturns.subset hmem)

theorem scan_eq (s : Source) :
    s.scan = .error .unread ∧ .failed ∈ s.turns ∨
      s.scan = (Journal.scan s.left).mapError .fault := by
  have h := scanFrom_eq ByteArray.size_empty.symm [] s
  rwa [ByteArray.empty_append] at h

end Logbook.Journal.Source
