import Logbook.Proofs.Journal.Intact
import Logbook.Proofs.Journal.Mirror

/-!
# Peeking and opening

Reading a journal without opening it tells what opening it would lead to, whatever the bytes are.
Nothing is assumed here about where they come from: they need not be the image of any records, and
they may well be damaged.

Both look at the bytes through one scan, so they fail together, with the fault of that scan, and the
fault names the place of a damaged frame.  When the scan succeeds, opening may cut the bytes.  That
nothing is lost with what is cut, and that what is kept is read as before, is the intactness of an
opened journal; what has to be added is that the kept bytes are the first ones, and that an intact
journal is left as it is.

* `exists_damaged_of_scanFrom`: the fault of a scan.
* `exists_append_of_repair`, `Intact.repair_eq`: what opening keeps, and that it keeps it for good.
* `intact_or_damaged`: the two ways in which reading and opening can go.
* `peek_agrees_with_reopen`: the same of a session.
-/

namespace Logbook.Journal

/-! ## Faults -/

/-- A scan fails at a damaged frame, and its fault names the place where that frame stands. -/
theorem exists_damaged_of_scanFrom {bytes : ByteArray} {offset : ℕ} {done : List Record}
    {fault : Fault} (h : scanFrom bytes offset done = .error fault) :
    ∃ place damage, front bytes place = .damaged damage ∧ fault = .corrupt place damage := by
  fun_induction scanFrom bytes offset done with
  | case1 => exact absurd h (by simp)
  | case2 => exact absurd h (by simp)
  | case3 offset done damage hfront => exact ⟨offset, damage, hfront, (Except.error.inj h).symm⟩
  | case4 offset done record next hfront ih => exact ih h

/-! ## What opening keeps -/

/-- Opening keeps the first bytes. -/
theorem exists_append_of_repair {bytes kept : ByteArray} (h : repair bytes = .ok kept) :
    ∃ rest, bytes = kept ++ rest := by
  cases hscan : scan bytes with
  | error fault =>
    rw [repair, hscan] at h
    exact absurd h (by simp [Except.map])
  | ok found =>
    rw [repair, hscan] at h
    obtain rfl := Except.ok.inj h
    dsimp only
    split
    · have hsplit := ByteArray.extract_eq_extract_append_extract (a := bytes) found.size
        (Nat.zero_le _) (le_size_of_scanFrom hscan (Nat.zero_le _)).2
      rw [ByteArray.extract_zero_size] at hsplit
      exact ⟨_, hsplit⟩
    · exact ⟨.empty, ByteArray.append_empty.symm⟩

/-- **An intact journal is left as it is.** -/
theorem Intact.repair_eq {bytes : ByteArray} {rs : List Record} (h : Intact bytes rs) :
    repair bytes = .ok bytes := by
  rw [repair, h]
  rfl

/-- **Bytes are an intact journal with something behind it, or damaged.**  In the one case reading
finds the records of that journal, and opening keeps it; in the other the scan stops at a damaged
frame. -/
theorem intact_or_damaged (bytes : ByteArray) :
    (∃ rs kept rest, bytes = kept ++ rest ∧ Intact kept rs ∧
      records bytes = .ok rs ∧ repair bytes = .ok kept) ∨
    ∃ offset damage, front bytes offset = .damaged damage ∧
      scan bytes = .error (.corrupt offset damage) := by
  cases hscan : scan bytes with
  | error fault =>
    obtain ⟨offset, damage, hfront, rfl⟩ := exists_damaged_of_scanFrom hscan
    exact Or.inr ⟨offset, damage, hfront, rfl⟩
  | ok found =>
    obtain ⟨kept, hrepair⟩ : ∃ kept, repair bytes = .ok kept := by
      rw [repair, hscan]
      exact ⟨_, rfl⟩
    obtain ⟨rs, hintact, hrecords⟩ := exists_intact_of_repair hrepair
    obtain ⟨rest, hrest⟩ := exists_append_of_repair hrepair
    exact Or.inl ⟨rs, kept, rest, hrest, hintact, hrecords, hrepair⟩

/-! ## Sessions -/

/-- **A peek agrees with opening and reading, whatever the bytes of the file are.**  It changes
nothing, and finds some records exactly if the journal can be opened and these records are then
read.  Opening keeps the first bytes, a scan of which finds these records and no torn frame, and so
opening once more changes nothing.  Otherwise a peek and opening both name the damaged frame that
they stop at, and opening leaves the bytes alone. -/
theorem peek_agrees_with_reopen (bytes : ByteArray) (handle : Handle) :
    let s : Session := ⟨some bytes, handle⟩
    (s.perform .peek).2 = s ∧
    (∀ rs, s.peek = .ok rs ↔ s.reopen.1 = .ok () ∧ s.reopen.2.read = .ok rs) ∧
    ((∃ rs kept rest, bytes = kept ++ rest ∧ s.peek = .ok rs ∧
        let opened : Session := ⟨some kept, .attached⟩
        s.reopen = (.ok (), opened) ∧ opened.read = .ok rs ∧
        scan kept = .ok ⟨rs, kept.size, false⟩ ∧ opened.reopen = (.ok (), opened)) ∨
      ∃ offset damage, front bytes offset = .damaged damage ∧
        s.peek = .error (.corrupt offset damage) ∧
        s.reopen = (.error (.corrupt offset damage), ⟨some bytes, .closed⟩)) := by
  intro s
  refine ⟨rfl, ?_⟩
  rcases intact_or_damaged bytes with
    ⟨rs, kept, rest, hrest, hintact, hrecords, hrepair⟩ | ⟨offset, damage, hfront, hscan⟩
  · have hpeek : s.peek = .ok rs := hrecords
    have hreopen : s.reopen = (.ok (), ⟨some kept, .attached⟩) :=
      Session.reopen_of_repair hrepair handle
    have hread : Session.read ⟨some kept, .attached⟩ = .ok rs := hintact.records_eq
    refine ⟨fun found => ?_, Or.inl ⟨rs, kept, rest, hrest, hpeek, hreopen, hread, hintact,
      Session.reopen_of_repair hintact.repair_eq .attached⟩⟩
    rw [hpeek, hreopen]
    exact ⟨fun h => ⟨rfl, hread.trans h⟩, fun h => hread.symm.trans h.2⟩
  · have hpeek : s.peek = .error (.corrupt offset damage) := by
      show records bytes = _
      rw [records, hscan]
      rfl
    have hreopen := Session.reopen_of_error hscan handle
    refine ⟨fun found => ?_, Or.inr ⟨offset, damage, hfront, hpeek, hreopen⟩⟩
    rw [hpeek, hreopen]
    constructor
    · intro h
      exact absurd h (by simp)
    · intro h
      exact absurd h.1 (by simp)

end Logbook.Journal
