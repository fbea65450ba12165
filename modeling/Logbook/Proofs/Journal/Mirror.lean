import Logbook.Journal.Session
import Logbook.Proofs.Journal.Frames

/-!
# A journal and its mirror

A store in memory that is told everything that the journal takes is the mirror of the journal.  It
has no file and no frames, and it is never closed; what it adds to a memory store is only whether
the journal beside it has been created and is open.  A write that does not fit a frame is refused by
the journal, and the mirror leaves it out.

Whatever is done with a journal that nobody else touches, its replies are those of its mirror.
There are three states that a session and its mirror can be in together, and each operation leads
from one of them to one of them (`Mirrors.agree`).  In each the file is the image of the records
that the mirror holds.

* `Operation`, `Reply`: what is done with a journal, and what comes of it.
* `Session.perform`, `Mirror.perform`, `run`: a journal and a mirror at work.
* `Mirrors`: the states of a session and its mirror.
* `run_start`: a session answers as its mirror does, from its start on.
-/

namespace Logbook.Journal

/-! ## Operations -/

/-- What is done with a journal: opened, closed, written to, read and asked.  A peek reads the file
without opening the journal. -/
inductive Operation where
  | reopen
  | close
  | append (record : Record)
  | appendAll (batch : List Record)
  | read
  | size
  | isEmpty
  | query (raw : Value)
  | peek

/-- Holds of the operations whose records can be read back from a payload. -/
def Operation.Readable : Operation → Prop
  | append record => record.Readable
  | appendAll batch => ∀ r ∈ batch, r.Readable
  | _ => True

/-- What comes of an operation. -/
inductive Reply where
  | done
  | count (n : ℕ)
  | records (rs : List Record)
  | flag (b : Bool)
  | answer (a : Answer)
  | invalid (issues : List Issue)
  | failed (error : StoreError)

namespace Reply

/-- The reply of a store. -/
def of {α : Type} (found : α → Reply) : Except StoreError α → Reply
  | .ok a => found a
  | .error e => .failed e

/-- The reply of a journal. -/
def ofFault {α : Type} (found : α → Reply) : Except Fault α → Reply
  | .ok a => found a
  | .error fault => .failed (.journal fault)

/-- The reply to a query. -/
def ofQuery : Except QueryError Answer → Reply
  | .ok a => answer a
  | .error (.invalid issues) => invalid issues
  | .error (.store e) => failed e

end Reply

/-- One operation after the other: the replies, and the state in the end. -/
def run {σ : Type} (perform : σ → Operation → Reply × σ) : σ → List Operation → List Reply × σ
  | s, [] => ([], s)
  | s, op :: ops =>
    let after := run perform (perform s op).2 ops
    ((perform s op).1 :: after.1, after.2)

/-- What an operation does to a session. -/
def Session.perform (s : Session) : Operation → Reply × Session
  | .reopen => (.ofFault (fun _ => .done) s.reopen.1, s.reopen.2)
  | .close => (.done, s.close)
  | .append record => (.ofFault (fun _ => .done) (s.append record).1, (s.append record).2)
  | .appendAll batch => (.ofFault .count (s.appendAll batch).1, (s.appendAll batch).2)
  | .read => (.ofFault .records s.read, s)
  | .size => (.ofFault .count s.size, s)
  | .isEmpty => (.ofFault .flag s.isEmpty, s)
  | .query raw => (.ofQuery (s.execute raw), s)
  | .peek => (.ofFault .records s.peek, s)

/-! ## Mirrors -/

/-- A store in memory, and how it stands with the journal beside it. -/
structure Mirror where
  store : Store
  /-- The journal has a file. -/
  created : Bool
  /-- The journal is open. -/
  isOpen : Bool

namespace Mirror

/-- Nothing in the store, and no file. -/
def start : Mirror := ⟨.memory [], false, false⟩

/-- The mirror of an open journal with these records. -/
def holding (records : List Record) : Mirror := ⟨.memory records, true, true⟩

/-- The size of the first record of a write that does not fit a frame. -/
def refusal? : Operation → Option ℕ
  | .append record => if record.Fits then none else some (Record.payload record).size
  | .appendAll batch => (misfit? batch).map fun r => (Record.payload r).size
  | _ => none

/-- What an operation does to a store. -/
def ask (store : Store) : Operation → Reply × Store
  | .append record =>
    match store.append record with
    | .ok store => (.done, store)
    | .error e => (.failed e, store)
  | .appendAll batch => (.of .count (store.appendAll batch).1, (store.appendAll batch).2)
  | .read | .peek => (.of .records store.readAll, store)
  | .size => (.of (fun rs => .count rs.length) store.readAll, store)
  | .isEmpty => (.of (fun rs => .flag rs.isEmpty) store.readAll, store)
  | .query raw => (.ofQuery (store.execute raw), store)
  | .reopen | .close => (.done, store)

/-- The reply while the journal is closed.  A query is checked before the journal is missed. -/
def closedReply : Operation → Reply
  | .query raw =>
    match Query.parse raw with
    | .error issues => .invalid issues
    | .ok _ => .failed (.journal .notOpen)
  | _ => .failed (.journal .notOpen)

/-- The store is asked, unless the journal is closed or refuses what is written. -/
def whileOpen (m : Mirror) (op : Operation) : Reply × Mirror :=
  if m.isOpen then
    match refusal? op with
    | some size => (.failed (.journal (.tooLong size)), m)
    | none => ((ask m.store op).1, { m with store := (ask m.store op).2 })
  else (closedReply op, m)

/-- What an operation does to a mirror. -/
def perform (m : Mirror) : Operation → Reply × Mirror
  | .reopen => (.done, ⟨m.store, true, true⟩)
  | .close => (.done, { m with isOpen := false })
  | .peek => (if m.created then (ask m.store .peek).1 else .failed (.journal .missing), m)
  | .append record => m.whileOpen (.append record)
  | .appendAll batch => m.whileOpen (.appendAll batch)
  | .read => m.whileOpen .read
  | .size => m.whileOpen .size
  | .isEmpty => m.whileOpen .isEmpty
  | .query raw => m.whileOpen (.query raw)

theorem whileOpen_of_refusal {m : Mirror} (hopen : m.isOpen = true) {op : Operation} {size : ℕ}
    (h : refusal? op = some size) : m.whileOpen op = (.failed (.journal (.tooLong size)), m) := by
  rw [whileOpen, if_pos hopen, h]

theorem whileOpen_of_accepted {m : Mirror} (hopen : m.isOpen = true) {op : Operation}
    (h : refusal? op = none) :
    m.whileOpen op = ((ask m.store op).1, { m with store := (ask m.store op).2 }) := by
  rw [whileOpen, if_pos hopen, h]

theorem perform_closed {m : Mirror} (hclosed : m.isOpen = false) {op : Operation}
    (hreopen : op ≠ .reopen) (hpeek : op ≠ .peek) (hclose : op ≠ .close) :
    m.perform op = (closedReply op, m) := by
  have hwhile : m.whileOpen op = (closedReply op, m) := by
    rw [whileOpen, hclosed, if_neg Bool.false_ne_true]
  cases op with
  | reopen => exact absurd rfl hreopen
  | peek => exact absurd rfl hpeek
  | close => exact absurd rfl hclose
  | _ => exact hwhile

end Mirror

/-! ## Batches in memory -/

/-- A memory store takes a batch whole. -/
theorem appendEach_memory (batch records : List Record) (count : ℕ) :
    appendEach Store.append count batch (.memory records)
      = (.ok (count + batch.length), .memory (records ++ batch)) := by
  induction batch generalizing records count with
  | nil => rw [appendEach, List.length_nil, Nat.add_zero, List.append_nil]
  | cons record batch ih =>
    rw [appendEach, Store.append]
    dsimp only
    rw [ih, List.length_cons, List.append_assoc, List.singleton_append, Nat.add_assoc,
      Nat.add_comm 1]

theorem appendAll_memory (batch records : List Record) :
    Store.appendAll batch (.memory records)
      = (.ok batch.length, .memory (records ++ batch)) := by
  rw [Store.appendAll, appendEach_memory, Nat.zero_add]
  exact fun bytes h => Store.noConfusion h

/-! ## The states of a session and its mirror -/

/-- The states that a session and its mirror are in together.  The file is the image of the records
in the mirror. -/
inductive Mirrors : Session → Mirror → Prop where
  | absent : Mirrors ⟨none, .closed⟩ ⟨.memory [], false, false⟩
  | closed {records : List Record} (h : ∀ r ∈ records, r.Storable) :
      Mirrors ⟨some (image records), .closed⟩ ⟨.memory records, true, false⟩
  | opened {records : List Record} (h : ∀ r ∈ records, r.Storable) :
      Mirrors ⟨some (image records), .attached⟩ ⟨.memory records, true, true⟩

/-- The queries of a session are those of a store with the same records. -/
theorem execute_eq {s : Session} {records : List Record} (h : s.read = .ok records) (raw : Value) :
    s.execute raw = Store.execute raw (.memory records) := by
  rw [Session.execute, Store.execute]
  cases Query.parse raw with
  | error issues => rfl
  | ok q =>
    rw [h]
    rfl

namespace Session

/-- A closed journal only answers that it is closed. -/
theorem perform_closed {file : Option ByteArray} {op : Operation} (hreopen : op ≠ .reopen)
    (hpeek : op ≠ .peek) (hclose : op ≠ .close) :
    perform ⟨file, .closed⟩ op = (Mirror.closedReply op, ⟨file, .closed⟩) := by
  cases op with
  | reopen => exact absurd rfl hreopen
  | peek => exact absurd rfl hpeek
  | close => exact absurd rfl hclose
  | query raw =>
    rw [perform, Session.execute, Mirror.closedReply]
    cases Query.parse raw <;> rfl
  | append record => rfl
  | appendAll batch => rfl
  | read => rfl
  | size => rfl
  | isEmpty => rfl

theorem reopen_of_repair {bytes kept : ByteArray} (h : repair bytes = .ok kept) (handle : Handle) :
    reopen ⟨some bytes, handle⟩ = (.ok (), ⟨some kept, .attached⟩) := by
  rw [reopen, Option.getD_some, h]

theorem reopen_of_error {bytes : ByteArray} {fault : Fault} (h : scan bytes = .error fault)
    (handle : Handle) :
    reopen ⟨some bytes, handle⟩ = (.error fault, ⟨some bytes, .closed⟩) := by
  rw [reopen, Option.getD_some, repair, h]
  rfl

variable {records : List Record}

theorem peek_image (h : ∀ r ∈ records, r.Storable) (handle : Handle) :
    peek ⟨some (image records), handle⟩ = .ok records :=
  records_image h

theorem read_image (h : ∀ r ∈ records, r.Storable) :
    read ⟨some (image records), .attached⟩ = .ok records :=
  records_image h

theorem reopen_image (h : ∀ r ∈ records, r.Storable) (handle : Handle) :
    reopen ⟨some (image records), handle⟩ = (.ok (), ⟨some (image records), .attached⟩) :=
  reopen_of_repair (repair_image h) handle

/-- What is written goes behind the records that are there. -/
theorem append_image {record : Record} (h : record.Fits) :
    append record ⟨some (image records), .attached⟩
      = (.ok (), ⟨some (image (records ++ [record])), .attached⟩) := by
  rw [append, write, Option.getD_some, append_of_fits h, image_append]

theorem append_of_not_fits {record : Record} (h : ¬record.Fits) (file : Option ByteArray) :
    append record ⟨file, .attached⟩
      = (.error (.tooLong (Record.payload record).size), ⟨file, .attached⟩) := by
  rw [append, write, Journal.append, encode_of_not_fits h]
  rfl

theorem appendAll_image {batch : List Record} (h : ∀ r ∈ batch, r.Fits) :
    appendAll batch ⟨some (image records), .attached⟩
      = (.ok batch.length, ⟨some (image (records ++ batch)), .attached⟩) := by
  rw [appendAll, write, Option.getD_some, appendAll_of_fits h, image_append]

theorem appendAll_of_misfit? {batch : List Record} {record : Record}
    (h : misfit? batch = some record) (file : Option ByteArray) :
    appendAll batch ⟨file, .attached⟩
      = (.error (.tooLong (Record.payload record).size), ⟨file, .attached⟩) := by
  rw [appendAll, write, Journal.appendAll, mapM_encode_of_misfit? h]
  rfl

end Session

/-- An operation has one reply on both sides, and leads to a session and its mirror again. -/
def Agree (s : Session) (m : Mirror) (op : Operation) : Prop :=
  (s.perform op).1 = (m.perform op).1 ∧ Mirrors (s.perform op).2 (m.perform op).2

section Agreement

variable {records : List Record} (h : ∀ r ∈ records, r.Storable)
include h

theorem agree_append {record : Record} (hrecord : record.Readable) :
    Agree ⟨some (image records), .attached⟩ (.holding records) (.append record) := by
  rw [Agree, Session.perform, Mirror.perform]
  by_cases hfits : record.Fits
  · have hrefusal : Mirror.refusal? (.append record) = none := if_pos hfits
    rw [Session.append_image hfits, Mirror.whileOpen_of_accepted rfl hrefusal]
    refine ⟨rfl, .opened (List.forall_mem_append.2 ⟨h, ?_⟩)⟩
    exact List.forall_mem_singleton.2 ⟨hrecord, hfits⟩
  · have hrefusal : Mirror.refusal? (.append record) = some (Record.payload record).size :=
      if_neg hfits
    rw [Session.append_of_not_fits hfits, Mirror.whileOpen_of_refusal rfl hrefusal]
    exact ⟨rfl, .opened h⟩

theorem agree_appendAll {batch : List Record} (hbatch : ∀ r ∈ batch, r.Readable) :
    Agree ⟨some (image records), .attached⟩ (.holding records) (.appendAll batch) := by
  rw [Agree, Session.perform, Mirror.perform]
  cases hmisfit : misfit? batch with
  | none =>
    have hfits := fits_of_misfit?_eq_none hmisfit
    have hrefusal : Mirror.refusal? (.appendAll batch) = none := by
      rw [Mirror.refusal?, hmisfit, Option.map_none]
    rw [Session.appendAll_image hfits, Mirror.whileOpen_of_accepted rfl hrefusal, Mirror.ask,
      Mirror.holding, appendAll_memory]
    refine ⟨rfl, .opened (List.forall_mem_append.2 ⟨h, fun r hr => ?_⟩)⟩
    exact ⟨hbatch r hr, hfits r hr⟩
  | some record =>
    have hrefusal : Mirror.refusal? (.appendAll batch) = some (Record.payload record).size := by
      rw [Mirror.refusal?, hmisfit, Option.map_some]
    rw [Session.appendAll_of_misfit? hmisfit, Mirror.whileOpen_of_refusal rfl hrefusal]
    exact ⟨rfl, .opened h⟩

/-- A journal that is open answers as its mirror does. -/
theorem agree_opened {op : Operation} (hop : op.Readable) :
    Agree ⟨some (image records), .attached⟩ (.holding records) op := by
  cases op with
  | append record => exact agree_append h hop
  | appendAll batch => exact agree_appendAll h hop
  | reopen =>
    rw [Agree, Session.perform, Session.reopen_image h]
    exact ⟨rfl, .opened h⟩
  | close => exact ⟨rfl, .closed h⟩
  | read =>
    rw [Agree, Session.perform, Session.read_image h]
    exact ⟨rfl, .opened h⟩
  | size =>
    rw [Agree, Session.perform, Session.size, Session.read_image h]
    exact ⟨rfl, .opened h⟩
  | isEmpty =>
    rw [Agree, Session.perform, Session.isEmpty, Session.size, Session.read_image h]
    refine ⟨?_, .opened h⟩
    cases records <;> rfl
  | query raw =>
    rw [Agree, Session.perform, execute_eq (Session.read_image h)]
    exact ⟨rfl, .opened h⟩
  | peek =>
    rw [Agree, Session.perform, Session.peek_image h]
    exact ⟨rfl, .opened h⟩

/-- A journal that is closed answers as its mirror does. -/
theorem agree_closed (op : Operation) :
    Agree ⟨some (image records), .closed⟩ ⟨.memory records, true, false⟩ op := by
  by_cases hreopen : op = .reopen
  · rw [hreopen, Agree, Session.perform, Session.reopen_image h]
    exact ⟨rfl, .opened h⟩
  by_cases hpeek : op = .peek
  · rw [hpeek, Agree, Session.perform, Session.peek_image h]
    exact ⟨rfl, .closed h⟩
  by_cases hclose : op = .close
  · rw [hclose]
    exact ⟨rfl, .closed h⟩
  rw [Agree, Session.perform_closed hreopen hpeek hclose,
    Mirror.perform_closed rfl hreopen hpeek hclose]
  exact ⟨rfl, .closed h⟩

end Agreement

/-- Before there is a file, opening the journal makes an empty one. -/
theorem agree_absent (op : Operation) :
    Agree ⟨none, .closed⟩ ⟨.memory [], false, false⟩ op := by
  have hempty : ∀ r ∈ ([] : List Record), r.Storable := fun r hr => absurd hr List.not_mem_nil
  by_cases hreopen : op = .reopen
  · have hrepair := repair_image hempty
    rw [image] at hrepair
    rw [hreopen, Agree, Session.perform, Session.reopen, Option.getD_none, hrepair]
    exact ⟨rfl, .opened hempty⟩
  by_cases hpeek : op = .peek
  · rw [hpeek]
    exact ⟨rfl, .absent⟩
  by_cases hclose : op = .close
  · rw [hclose]
    exact ⟨rfl, .absent⟩
  rw [Agree, Session.perform_closed hreopen hpeek hclose,
    Mirror.perform_closed rfl hreopen hpeek hclose]
  exact ⟨rfl, .absent⟩

/-- **One operation: the same reply, and a session and its mirror again.** -/
theorem Mirrors.agree {s : Session} {m : Mirror} (h : Mirrors s m) {op : Operation}
    (hop : op.Readable) : Agree s m op := by
  cases h with
  | absent => exact agree_absent op
  | closed h => exact agree_closed h op
  | opened h => exact agree_opened h hop

/-- **Many operations: the same replies, and a session and its mirror in the end.** -/
theorem Mirrors.run {s : Session} {m : Mirror} (h : Mirrors s m) {ops : List Operation}
    (hops : ∀ op ∈ ops, op.Readable) :
    (Journal.run Session.perform s ops).1 = (Journal.run Mirror.perform m ops).1 ∧
      Mirrors (Journal.run Session.perform s ops).2 (Journal.run Mirror.perform m ops).2 := by
  induction ops generalizing s m with
  | nil => exact ⟨rfl, h⟩
  | cons op ops ih =>
    rw [List.forall_mem_cons] at hops
    obtain ⟨hreply, hafter⟩ := h.agree hops.1
    obtain ⟨hreplies, hend⟩ := ih hafter hops.2
    rw [Journal.run, Journal.run]
    refine ⟨?_, hend⟩
    rw [hreply, hreplies]

/-! ## From the start on -/

/-- A write that does not fit is refused and changes nothing. -/
theorem Session.perform_of_refusal {s : Session} (hs : s.handle = .attached) {op : Operation}
    {size : ℕ} (h : Mirror.refusal? op = some size) :
    s.perform op = (.failed (.journal (.tooLong size)), s) := by
  obtain ⟨file, handle⟩ := s
  obtain rfl : handle = .attached := hs
  cases op with
  | append record =>
    rw [Mirror.refusal?] at h
    by_cases hfits : record.Fits
    · rw [if_pos hfits] at h
      exact absurd h (by simp)
    · rw [if_neg hfits] at h
      rw [perform, append_of_not_fits hfits, ← Option.some.inj h]
      rfl
  | appendAll batch =>
    obtain ⟨record, hfind, rfl⟩ := Option.map_eq_some_iff.1 h
    rw [perform, appendAll_of_misfit? hfind]
    rfl
  | _ => exact absurd h (by simp [Mirror.refusal?])

/-- A journal that is open writes to the file at its path. -/
theorem Mirrors.attached {s : Session} {m : Mirror} (h : Mirrors s m)
    (hopen : s.handle ≠ .closed) : s.handle = .attached := by
  cases h with
  | absent => exact absurd rfl hopen
  | closed _ => exact absurd rfl hopen
  | opened _ => rfl

/-- The file of a session is made of the frames of the records in its mirror. -/
theorem Mirrors.file_eq {s : Session} {m : Mirror} (h : Mirrors s m) :
    ∃ records frames, m.store = .memory records ∧ records.mapM Frame.encode = .ok frames ∧
      s.file = if m.created then some (join frames) else none := by
  have hframes : ∀ {records : List Record}, (∀ r ∈ records, r.Storable) →
      records.mapM Frame.encode = .ok (records.map frame) :=
    fun h => mapM_encode fun r hr => (h r hr).fits
  cases h with
  | absent => exact ⟨[], [], rfl, rfl, rfl⟩
  | closed h =>
    refine ⟨_, _, rfl, hframes h, ?_⟩
    rw [join_map_frame]
    rfl
  | opened h =>
    refine ⟨_, _, rfl, hframes h, ?_⟩
    rw [join_map_frame]
    rfl

/-- **Whatever is done with a journal, it answers as a memory store that received the same records,
and its file is made of their frames.**  A write with a record that does not fit is refused, changes
nothing, and does not reach the memory store. -/
theorem run_start {ops : List Operation} (hops : ∀ op ∈ ops, op.Readable) :
    (run Session.perform .start ops).1 = (run Mirror.perform .start ops).1 ∧
      (∃ records frames, (run Mirror.perform .start ops).2.store = .memory records ∧
        records.mapM Frame.encode = .ok frames ∧
        (run Session.perform .start ops).2.file
          = if (run Mirror.perform .start ops).2.created then some (join frames) else none) ∧
      ∀ op size, (run Session.perform .start ops).2.handle ≠ .closed →
        Mirror.refusal? op = some size →
          (run Session.perform .start ops).2.perform op
            = (.failed (.journal (.tooLong size)), (run Session.perform .start ops).2) := by
  obtain ⟨hreplies, hend⟩ := Mirrors.absent.run hops
  exact ⟨hreplies, hend.file_eq, fun _ _ hopen hsize =>
    Session.perform_of_refusal (hend.attached hopen) hsize⟩

/-- A record is appended and read after the journal was closed and opened again. -/
def oneRecordRun : List Operation :=
  [.reopen, .append [("a", .num (.int 1))], .close, .reopen, .read]

theorem run_start_oneRecordRun : (∀ op ∈ oneRecordRun, op.Readable) ∧
    (run Session.perform .start oneRecordRun).1
      = [.done, .done, .done, .done, .records [[("a", .num (.int 1))]]] := by
  have hfits : Record.Fits [("a", .num (.int 1))] := by decide +kernel
  have hreadable : ∀ op ∈ oneRecordRun, op.Readable := by
    have hrecord : Record.Readable [("a", .num (.int 1))] :=
      ⟨by simp [Value.WellFormed, Value.WellFormedMembers, Members.keys, Number.InRange,
        Double.wordFloor, Double.wordCeil], by decide⟩
    simp [oneRecordRun, Operation.Readable, hrecord]
  refine ⟨hreadable, (run_start hreadable).1.trans ?_⟩
  simp [oneRecordRun, run, Mirror.start, Mirror.perform, Mirror.whileOpen, Mirror.refusal?, hfits,
    Mirror.ask, Store.append, Store.readAll, Reply.of]

end Logbook.Journal
