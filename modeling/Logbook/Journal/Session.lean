import Logbook.Store

/-!
# A session with a journal

A session has one path and at most one open journal.  A journal is opened on the file at the path
and goes on writing to that file even when the path comes to lead elsewhere; reading always follows
the path.

* `Session.reopen`, `Session.close`: opening creates the file if there is none, and cuts off a torn
  frame.  What was open before is closed first, also when opening fails.
* `Session.append`, `Session.appendAll`, `Session.read`: what is done with the open journal.
* `Session.execute`: the answer of the open journal to a query.
* `Session.peek`: reading without opening.
* `Session.outside`, `Session.remove`: what others do to the file.
-/

namespace Logbook.Journal

/-- The open journal, if any. -/
inductive Handle where
  | closed
  /-- The journal writes to the file at the path. -/
  | attached
  /-- The file that the journal writes to is no longer at the path. -/
  | detached
deriving DecidableEq, Repr

/-- The state of a session. -/
structure Session where
  /-- The bytes of the file at the path. -/
  file : Option (ByteArray)
  handle : Handle

namespace Session

/-- No file, and no open journal. -/
def start : Session := ⟨none, .closed⟩

/-- The records of the file at the path. -/
def peek (s : Session) : Except Fault (List Record) :=
  match s.file with
  | some bytes => records bytes
  | none => .error .missing

/-- Opens the journal. -/
def reopen (s : Session) : Except Fault Unit × Session :=
  let bytes := s.file.getD .empty
  match repair bytes with
  | .ok kept => (.ok (), ⟨some kept, .attached⟩)
  | .error fault => (.error fault, ⟨some bytes, .closed⟩)

/-- Closes the journal. -/
def close (s : Session) : Session := { s with handle := .closed }

/-- Writes to the open journal. -/
def write {α : Type} (edit : ByteArray → Except Fault (ByteArray)) (answer : α) (s : Session) :
    Except Fault α × Session :=
  match s.handle, edit (s.file.getD .empty) with
  | .closed, _ => (.error .notOpen, s)
  | _, .error fault => (.error fault, s)
  | .attached, .ok bytes => (.ok answer, { s with file := some bytes })
  | .detached, .ok _ => (.ok answer, s)

/-- Appends a record. -/
def append (record : Record) (s : Session) : Except Fault Unit × Session :=
  s.write (Journal.append record) ()

/-- Appends a batch, and answers its length. -/
def appendAll (batch : List Record) (s : Session) : Except Fault Nat × Session :=
  s.write (Journal.appendAll batch) batch.length

/-- Answers only while a journal is open. -/
def whileOpen {α : Type} (s : Session) (answer : Except Fault α) : Except Fault α :=
  if s.handle = .closed then .error .notOpen else answer

/-- The records of the open journal. -/
def read (s : Session) : Except Fault (List Record) := s.whileOpen s.peek

/-- The number of records of the open journal. -/
def size (s : Session) : Except Fault Nat := s.read.map List.length

/-- Holds when the open journal has no records. -/
def isEmpty (s : Session) : Except Fault Bool := s.size.map (· == 0)

/-- The answer of the open journal to a query.  A query that is not valid is refused before anything
is read. -/
def execute (raw : Value) (s : Session) : Except QueryError Answer :=
  match Query.parse raw with
  | .error issues => .error (.invalid issues)
  | .ok q =>
    match s.read with
    | .ok records => .ok (q.run records)
    | .error fault => .error (.store (.journal fault))

/-- Brings what was written to lasting storage. -/
def sync (s : Session) : Except Fault Unit := s.whileOpen (.ok ())

/-- Another program edits the file in place. -/
def outside (edit : ByteArray → ByteArray) (s : Session) : Except Fault Unit × Session :=
  match s.file with
  | some bytes => (.ok (), { s with file := some (edit bytes) })
  | none => (.error .missing, s)

/-- Another program appends to the file, and creates it if there is none. -/
def extend (bytes : ByteArray) (s : Session) : Session :=
  { s with file := some (s.file.getD .empty ++ bytes) }

/-- Another program removes the file.  An open journal goes on with the file it has. -/
def remove (s : Session) : Except Fault Unit × Session :=
  match s.file with
  | some _ => (.ok (), ⟨none, if s.handle = .attached then .detached else s.handle⟩)
  | none => (.error .missing, s)

end Session

end Logbook.Journal
