import Mathlib.Data.List.Basic
import Logbook.Proofs.Journal.Mirror

/-!
# Batches

A batch may be appended in two ways.  Most stores append its records one by one, up to the first that
is refused; those in front of it stay, and those behind it are not tried.  A journal writes all
frames at once, or none if some record does not fit a frame.

When a batch is taken, nobody can tell which way it went: the store is as if its records had been
appended one after the other, and for a journal this means the same bytes.  The two ways differ only
in what is left of a batch that is refused.

How a store goes about appending is its own affair, and it might change even when it refuses.  So the
first way is stated for a store of which nothing is known but how it takes one record (`Appender`).
To say that a record is not tried, a store can be made to note all records that it is offered.

* `Appender.all`: a batch, record by record.
* `Appender.Takes`: records that are taken one after the other.
* `Appender.takes_or_refused`, `Appender.AddsOrRefuses.all_cases`: what becomes of a batch.
* `Store.adding`, `Store.addsOrRefuses_offer`: the stores at hand add a record or refuse it.
* `Journal.WritesFrames.takes_iff`, `Journal.appendAll_of_misfit`: a journal, record by record and at
  once.
* `appendAll_is_append_in_turn`: both ways.
-/

namespace Logbook

/-- How a store takes a record: it answers, and it is left in some state, also when it refuses. -/
abbrev Appender (σ ε : Type) := Record → σ → Except ε Unit × σ

namespace Appender

variable {σ ε : Type}

/-- A store that is not changed when it refuses. -/
def ofExcept (append : Record → σ → Except ε σ) : Appender σ ε := fun record s =>
  match append record s with
  | .ok after => (.ok (), after)
  | .error e => (.error e, s)

/-- Appends records one by one and counts them; the first that is refused ends it. -/
def all (append : Appender σ ε) (count : ℕ) : List Record → σ → Except ε ℕ × σ
  | [], s => (.ok count, s)
  | record :: rest, s =>
    match append record s with
    | (.ok _, s) => all append (count + 1) rest s
    | (.error e, s) => (.error e, s)

/-- The store with a list of the records that it was offered. -/
def noting (append : Appender σ ε) : Appender (σ × List Record) ε := fun record s =>
  ((append record s.1).1, (append record s.1).2, s.2 ++ [record])

/-- Holds when records are taken one after the other, from one state of the store to another. -/
inductive Takes (append : Appender σ ε) : List Record → σ → σ → Prop where
  | nil (s : σ) : Takes append [] s s
  | cons {record : Record} {rest : List Record} {s next after : σ}
      (h : append record s = (.ok (), next)) (hrest : Takes append rest next after) :
      Takes append (record :: rest) s after

/-- Holds when the store adds a record behind those that it holds, or else refuses it and is left as
it is. -/
def AddsOrRefuses (append : Appender σ ε) (Holds : σ → List Record → Prop) : Prop :=
  ∀ record s records, Holds s records →
    (∃ after, append record s = (.ok (), after) ∧ Holds after (records ++ [record])) ∨
      ∃ e, append record s = (.error e, s)

variable {append : Appender σ ε} {batch : List Record} {s after : σ}

/-! ## Record by record -/

theorem all_of_takes (h : append.Takes batch s after) (count : ℕ) :
    append.all count batch s = (.ok (count + batch.length), after) := by
  induction h generalizing count with
  | nil s => rfl
  | cons h _ ih =>
    rw [all, h]
    dsimp only
    rw [ih, List.length_cons, Nat.add_assoc, Nat.add_comm 1]

theorem all_of_refused {front : List Record} {before : σ} (hfront : append.Takes front s before)
    {record : Record} {e : ε} (h : append record before = (.error e, after)) (rest : List Record)
    (count : ℕ) : append.all count (front ++ record :: rest) s = (.error e, after) := by
  induction hfront generalizing count with
  | nil s => rw [List.nil_append, all, h]
  | cons hfirst _ ih =>
    rw [List.cons_append, all, hfirst]
    exact ih h _

/-- **A batch is taken, or there is a first record that is refused.** -/
theorem takes_or_refused (append : Appender σ ε) (batch : List Record) (s : σ) :
    (∃ after, append.Takes batch s after) ∨
      ∃ front record rest before e after, batch = front ++ record :: rest ∧
        append.Takes front s before ∧ append record before = (.error e, after) := by
  induction batch generalizing s with
  | nil => exact Or.inl ⟨s, .nil s⟩
  | cons record batch ih =>
    rcases happend : append record s with ⟨answer, next⟩
    cases answer with
    | error e => exact Or.inr ⟨[], record, batch, s, e, next, rfl, .nil s, happend⟩
    | ok _ =>
      rcases ih next with ⟨after, htakes⟩ | ⟨front, other, rest, before, e, after, rfl, hfront, h⟩
      · exact Or.inl ⟨after, .cons happend htakes⟩
      · exact Or.inr ⟨record :: front, other, rest, before, e, after, rfl, .cons happend hfront, h⟩

/-- A batch is counted exactly if it is taken. -/
theorem all_eq_ok_iff {n : ℕ} :
    append.all 0 batch s = (.ok n, after) ↔ n = batch.length ∧ append.Takes batch s after := by
  constructor
  · intro h
    rcases append.takes_or_refused batch s with
      ⟨end', htakes⟩ | ⟨front, record, rest, before, e, end', rfl, hfront, hrefused⟩
    · rw [all_of_takes htakes, Nat.zero_add] at h
      obtain ⟨hcount, rfl⟩ := Prod.mk.inj h
      exact ⟨(Except.ok.inj hcount).symm, htakes⟩
    · rw [all_of_refused hfront hrefused] at h
      exact absurd (congrArg Prod.fst h) (by simp)
  · rintro ⟨rfl, htakes⟩
    rw [all_of_takes htakes, Nat.zero_add]

/-- Whatever is taken is noted. -/
theorem Takes.noting (h : append.Takes batch s after) (noted : List Record) :
    append.noting.Takes batch (s, noted) (after, noted ++ batch) := by
  induction h generalizing noted with
  | nil s =>
    rw [List.append_nil]
    exact .nil _
  | @cons record rest s next after h _ ih =>
    have hfirst : append.noting record (s, noted) = (.ok (), next, noted ++ [record]) := by
      rw [Appender.noting, h]
    have hrest := ih (noted ++ [record])
    rw [List.append_assoc, List.singleton_append] at hrest
    exact .cons hfirst hrest

theorem Takes.holds {Holds : σ → List Record → Prop} (hsound : append.AddsOrRefuses Holds)
    (h : append.Takes batch s after) {records : List Record} (hs : Holds s records) :
    Holds after (records ++ batch) := by
  induction h generalizing records with
  | nil s => rwa [List.append_nil]
  | @cons record rest s next after h _ ih =>
    rcases hsound record s records hs with ⟨next', happend, hnext⟩ | ⟨e, hrefused⟩
    · obtain rfl := (Prod.mk.inj (h.symm.trans happend)).2
      have hrest := ih hnext
      rwa [List.append_assoc, List.singleton_append] at hrest
    · exact absurd (congrArg Prod.fst (h.symm.trans hrefused)) (by simp)

/-- **What becomes of a batch in a store that adds records or refuses them.** -/
theorem AddsOrRefuses.all_cases {Holds : σ → List Record → Prop}
    (hsound : append.AddsOrRefuses Holds) {records : List Record} (hs : Holds s records)
    (batch : List Record) :
    (∃ after, append.Takes batch s after ∧ Holds after (records ++ batch) ∧
      append.all 0 batch s = (.ok batch.length, after)) ∨
    ∃ front record rest before e, batch = front ++ record :: rest ∧
      append.Takes front s before ∧ Holds before (records ++ front) ∧
      append record before = (.error e, before) ∧
      append.all 0 batch s = (.error e, before) ∧
      append.noting.all 0 batch (s, []) = (.error e, before, front ++ [record]) := by
  rcases append.takes_or_refused batch s with
    ⟨after, htakes⟩ | ⟨front, record, rest, before, e, after, rfl, hfront, hrefused⟩
  · refine Or.inl ⟨after, htakes, htakes.holds hsound hs, ?_⟩
    rw [all_of_takes htakes, Nat.zero_add]
  · have hbefore := hfront.holds hsound hs
    have hsame : after = before := by
      rcases hsound record before _ hbefore with ⟨next, happend, -⟩ | ⟨e', hrefused'⟩
      · exact absurd (congrArg Prod.fst (hrefused.symm.trans happend)) (by simp)
      · exact congrArg Prod.snd (hrefused.symm.trans hrefused')
    rw [hsame] at hrefused
    have hnoted : append.noting record (before, front)
        = (.error e, before, front ++ [record]) := by
      rw [Appender.noting, hrefused]
    exact Or.inr ⟨front, record, rest, before, e, rfl, hfront, hbefore, hrefused,
      all_of_refused hfront hrefused rest 0, all_of_refused (hfront.noting []) hnoted rest 0⟩

end Appender

theorem appendEach_eq_all {σ ε : Type} (append : Record → σ → Except ε σ) (count : ℕ)
    (batch : List Record) (s : σ) :
    appendEach append count batch s = (Appender.ofExcept append).all count batch s := by
  induction batch generalizing count s with
  | nil => rfl
  | cons record batch ih =>
    rw [appendEach, Appender.all, Appender.ofExcept]
    cases append record s with
    | ok after => exact ih _ _
    | error e => rfl

/-! ## Stores -/

namespace Store

/-- How a store takes a record. -/
def offer : Appender Store StoreError := .ofExcept append

/-- The store with records added at its end. -/
def adding (added : List Record) : Store → Store
  | memory records => memory (records ++ added)
  | journal bytes => journal (bytes ++ Journal.image added)
  | guarded records refuses unreadable => guarded (records ++ added) refuses unreadable

theorem adding_nil (store : Store) : store.adding [] = store := by
  cases store with
  | memory records => rw [adding, List.append_nil]
  | journal bytes => rw [adding, Journal.image, ByteArray.append_empty]
  | guarded records refuses unreadable => rw [adding, List.append_nil]

theorem adding_append (added more : List Record) (store : Store) :
    store.adding (added ++ more) = (store.adding added).adding more := by
  cases store with
  | memory records => rw [adding, adding, adding, List.append_assoc]
  | journal bytes => rw [adding, adding, adding, Journal.image_append, ByteArray.append_assoc]
  | guarded records refuses unreadable => rw [adding, adding, adding, List.append_assoc]

/-- A store adds a record at its end, or else it refuses. -/
theorem append_cases (record : Record) (store : Store) :
    store.append record = .ok (store.adding [record]) ∨ ∃ e, store.append record = .error e := by
  cases store with
  | memory records => exact Or.inl rfl
  | journal bytes =>
    by_cases hfits : record.Fits
    · rw [append, Journal.append_of_fits hfits]
      exact Or.inl rfl
    · rw [append, Journal.append, Journal.encode_of_not_fits hfits]
      exact Or.inr ⟨_, rfl⟩
  | guarded records refuses unreadable =>
    rw [append]
    cases refuses records record with
    | none => exact Or.inl rfl
    | some reason => exact Or.inr ⟨_, rfl⟩

theorem addsOrRefuses_offer (start : Store) :
    offer.AddsOrRefuses fun store added => store = start.adding added := by
  rintro record store added rfl
  rw [offer, Appender.ofExcept]
  rcases append_cases record (start.adding added) with h | ⟨e, h⟩
  · rw [h]
    exact Or.inl ⟨_, rfl, (adding_append added [record] start).symm⟩
  · rw [h]
    exact Or.inr ⟨e, rfl⟩

/-- Records that are taken stand at the end. -/
theorem eq_adding_of_takes {batch : List Record} {store after : Store}
    (h : offer.Takes batch store after) : after = store.adding batch := by
  have hholds := h.holds (addsOrRefuses_offer store) (adding_nil store).symm
  rwa [List.nil_append] at hholds

/-- A store other than a journal appends record by record. -/
theorem appendAll_eq_all {store : Store} (h : ∀ bytes, store ≠ .journal bytes)
    (batch : List Record) : store.appendAll batch = offer.all 0 batch store := by
  rw [appendAll]
  · exact appendEach_eq_all append 0 batch store
  · exact h

end Store

/-! ## Journals -/

namespace Journal

/-- Holds of an append that writes a frame behind the bytes of a file, unless the record does not
fit; `file` leads from the bytes to the state of the store. -/
structure WritesFrames {σ ε : Type} (append : Appender σ ε) (file : ByteArray → σ) : Prop where
  fits {record : Record} (h : record.Fits) (bytes : ByteArray) :
    append record (file bytes) = (.ok (), file (bytes ++ image [record]))
  refuses {record : Record} (h : ¬record.Fits) (bytes : ByteArray) :
    ∃ e, append record (file bytes) = (.error e, file bytes)

theorem writesFrames_offer : WritesFrames Store.offer .journal where
  fits h bytes := by rw [Store.offer, Appender.ofExcept, Store.append, append_of_fits h]
  refuses {record} h bytes := by
    refine ⟨.journal (.tooLong (Record.payload record).size), ?_⟩
    rw [Store.offer, Appender.ofExcept, Store.append, append, encode_of_not_fits h]
    rfl

theorem writesFrames_session : WritesFrames Session.append fun bytes => ⟨some bytes, .attached⟩ where
  fits h bytes := by rw [Session.append, Session.write, Option.getD_some, append_of_fits h]
  refuses h bytes := ⟨_, Session.append_of_not_fits h _⟩

/-- Records are taken one after the other exactly if all of them fit. -/
theorem WritesFrames.takes_iff {σ ε : Type} {append : Appender σ ε} {file : ByteArray → σ}
    (h : WritesFrames append file) {batch : List Record} {bytes : ByteArray} {after : σ} :
    append.Takes batch (file bytes) after
      ↔ (∀ r ∈ batch, r.Fits) ∧ after = file (bytes ++ image batch) := by
  induction batch generalizing bytes with
  | nil =>
    rw [image, ByteArray.append_empty]
    constructor
    · rintro ⟨⟩
      exact ⟨fun r hr => absurd hr List.not_mem_nil, rfl⟩
    · rintro ⟨-, rfl⟩
      exact .nil _
  | cons record batch ih =>
    rw [List.forall_mem_cons, image, ← ByteArray.append_assoc, ← image_singleton, and_assoc]
    constructor
    · intro htakes
      cases htakes with
      | cons hfirst hrest =>
        by_cases hfits : record.Fits
        · obtain rfl := (Prod.mk.inj (hfirst.symm.trans (h.fits hfits bytes))).2
          exact ⟨hfits, ih.1 hrest⟩
        · obtain ⟨e, hrefused⟩ := h.refuses hfits bytes
          exact absurd (congrArg Prod.fst (hfirst.symm.trans hrefused)) (by simp)
    · rintro ⟨hfits, hrest⟩
      exact .cons (h.fits hfits bytes) (ih.2 hrest)

/-- Answers that count a batch exactly if all of its records fit count it exactly if they are taken
one after the other. -/
theorem WritesFrames.eq_ok_iff {σ ε : Type} {append : Appender σ ε} {file : ByteArray → σ}
    (h : WritesFrames append file) {batch : List Record} {bytes : ByteArray}
    {result : Except ε ℕ × σ}
    (hfits : (∀ r ∈ batch, r.Fits) → result = (.ok batch.length, file (bytes ++ image batch)))
    (hmisfit : (∃ r ∈ batch, ¬r.Fits) → ∃ e, result.1 = .error e) {n : ℕ} {after : σ} :
    result = (.ok n, after) ↔ n = batch.length ∧ append.Takes batch (file bytes) after := by
  rw [h.takes_iff]
  by_cases hall : ∀ r ∈ batch, r.Fits
  · rw [hfits hall, Prod.mk.injEq, Except.ok.injEq, eq_comm, eq_comm (b := after)]
    exact ⟨fun ⟨hn, hafter⟩ => ⟨hn, hall, hafter⟩, fun ⟨hn, _, hafter⟩ => ⟨hn, hafter⟩⟩
  · obtain ⟨e, he⟩ := hmisfit (by simpa using hall)
    constructor
    · intro hok
      exact absurd (he.symm.trans (congrArg Prod.fst hok)) (by simp)
    · exact fun hn => absurd hn.2.1 hall

variable {batch : List Record}

theorem exists_misfit? (h : ∃ r ∈ batch, ¬r.Fits) :
    ∃ record, misfit? batch = some record ∧ ¬record.Fits := by
  cases hfind : misfit? batch with
  | none =>
    obtain ⟨r, hr, hnot⟩ := h
    exact absurd (fits_of_misfit?_eq_none hfind r hr) hnot
  | some record => exact ⟨record, rfl, by simpa using List.find?_some hfind⟩

/-- **A journal that refuses a record of a batch is left as it is**, wherever the record stands. -/
theorem appendAll_of_misfit (h : ∃ r ∈ batch, ¬r.Fits) (bytes : ByteArray) :
    ∃ size, Frame.maxPayload < size ∧
      Store.appendAll batch (.journal bytes)
        = (.error (.journal (.tooLong size)), .journal bytes) ∧
      Session.appendAll batch ⟨some bytes, .attached⟩
        = (.error (.tooLong size), ⟨some bytes, .attached⟩) := by
  obtain ⟨record, hfind, hrecord⟩ := exists_misfit? h
  refine ⟨(Record.payload record).size, Nat.lt_of_not_le hrecord, ?_,
    Session.appendAll_of_misfit? hfind _⟩
  rw [Store.appendAll, appendAll, mapM_encode_of_misfit? hfind]
  rfl

theorem appendAll_eq_ok_iff {bytes : ByteArray} {n : ℕ} {after : Store} :
    Store.appendAll batch (.journal bytes) = (.ok n, after)
      ↔ n = batch.length ∧ Store.offer.Takes batch (.journal bytes) after := by
  refine writesFrames_offer.eq_ok_iff ?_ ?_
  · intro h
    rw [Store.appendAll, appendAll_of_fits h]
  · intro h
    obtain ⟨size, -, hstore, -⟩ := appendAll_of_misfit h bytes
    exact ⟨_, congrArg Prod.fst hstore⟩

theorem Session.appendAll_eq_ok_iff {bytes : ByteArray} {n : ℕ} {after : Session} :
    Session.appendAll batch ⟨some bytes, .attached⟩ = (.ok n, after)
      ↔ n = batch.length ∧ Appender.Takes Session.append batch ⟨some bytes, .attached⟩ after := by
  refine writesFrames_session.eq_ok_iff ?_ ?_
  · intro h
    rw [Session.appendAll, Session.write, Option.getD_some, appendAll_of_fits h]
  · intro h
    obtain ⟨size, -, -, hsession⟩ := appendAll_of_misfit h bytes
    exact ⟨_, congrArg Prod.fst hsession⟩

end Journal

theorem Store.appendAll_eq_ok_iff {batch : List Record} {store after : Store} {n : ℕ} :
    store.appendAll batch = (.ok n, after)
      ↔ n = batch.length ∧ Store.offer.Takes batch store after := by
  by_cases h : ∃ bytes, store = .journal bytes
  · obtain ⟨bytes, rfl⟩ := h
    exact Journal.appendAll_eq_ok_iff
  · rw [appendAll_eq_all (not_exists.1 h)]
    exact Appender.all_eq_ok_iff

/-! ## Both ways -/

/-- **A batch that is taken is appended in turn**, whichever way the store goes about it; its length
is answered, and its records then stand at the end.  A journal refuses a batch with a record that
does not fit a frame, and its bytes stay as they are.  Any other store appends record by record.
Whatever store does so, a batch that it takes is appended in turn; and if it adds a record at its
end or else refuses it and is left as it is, it keeps exactly the records in front of the first that
it refuses, and is not offered those behind it. -/
theorem appendAll_is_append_in_turn (batch : List Record) :
    (∀ (store after : Store) (n : ℕ), store.appendAll batch = (.ok n, after)
      ↔ n = batch.length ∧ Store.offer.Takes batch store after) ∧
    (∀ store after : Store, Store.offer.Takes batch store after → after = store.adding batch) ∧
    (∀ (bytes : ByteArray) (after : Journal.Session) (n : ℕ),
      Journal.Session.appendAll batch ⟨some bytes, .attached⟩ = (.ok n, after)
        ↔ n = batch.length ∧
          Appender.Takes Journal.Session.append batch ⟨some bytes, .attached⟩ after) ∧
    ((∃ r ∈ batch, Journal.Frame.maxPayload < (Record.payload r).size) →
      ∀ bytes, ∃ size, Journal.Frame.maxPayload < size ∧
        Store.appendAll batch (.journal bytes)
          = (.error (.journal (.tooLong size)), .journal bytes) ∧
        Journal.Session.appendAll batch ⟨some bytes, .attached⟩
          = (.error (.tooLong size), ⟨some bytes, .attached⟩)) ∧
    (∀ store : Store, (∀ bytes, store ≠ .journal bytes) →
      store.appendAll batch = Store.offer.all 0 batch store) ∧
    (∀ start : Store, Store.offer.AddsOrRefuses fun store added => store = start.adding added) ∧
    ∀ {σ ε : Type} (append : Appender σ ε) (s : σ),
      (∀ (after : σ) (n : ℕ), append.all 0 batch s = (.ok n, after)
        ↔ n = batch.length ∧ append.Takes batch s after) ∧
      ∀ (Holds : σ → List Record → Prop) (records : List Record),
        append.AddsOrRefuses Holds → Holds s records →
          (∃ after, append.Takes batch s after ∧ Holds after (records ++ batch) ∧
            append.all 0 batch s = (.ok batch.length, after)) ∨
          ∃ front record rest before e, batch = front ++ record :: rest ∧
            append.Takes front s before ∧ Holds before (records ++ front) ∧
            append record before = (.error e, before) ∧
            append.all 0 batch s = (.error e, before) ∧
            append.noting.all 0 batch (s, []) = (.error e, before, front ++ [record]) := by
  refine ⟨?_, ?_, ?_, ?_, ?_, Store.addsOrRefuses_offer, ?_⟩
  · intro store after n
    exact Store.appendAll_eq_ok_iff
  · intro store after h
    exact Store.eq_adding_of_takes h
  · intro bytes after n
    exact Journal.Session.appendAll_eq_ok_iff
  · rintro ⟨r, hr, hsize⟩ bytes
    exact Journal.appendAll_of_misfit ⟨r, hr, Nat.not_le.2 hsize⟩ bytes
  · intro store hstore
    exact Store.appendAll_eq_all hstore batch
  · intro σ ε append s
    refine ⟨fun after n => Appender.all_eq_ok_iff, ?_⟩
    intro Holds records hsound hs
    exact hsound.all_cases hs batch

/-- With room for one record of two, the first stays. -/
example : (Store.limited [] 1 "full" none).appendAll [[("a", .null)], [("b", .null)]]
    = (.error (.refused "full"), Store.limited [[("a", .null)]] 0 "full" none) := rfl

end Logbook
