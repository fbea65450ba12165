import Logbook.Journal.Scan
import Logbook.Query.Run
import Logbook.Query.Validation

/-!
# Stores

A store keeps records in the order in which they came.  It is held in memory or in a journal; a
guarded store may refuse records, and may refuse to be read.

* `appendEach`: a batch appended record by record, up to the first that is refused.
* `Store.append`, `Store.appendAll`, `Store.readAll`: what every store can do.
* `Store.execute`: checks a query, then reads the store, then runs the query.
-/

namespace Logbook

/-- Appends records one by one and counts them; the first that is refused ends it, and those
before it stay. -/
def appendEach {σ ε : Type} (append : Record → σ → Except ε σ) (count : Nat) :
    List Record → σ → Except ε Nat × σ
  | [], s => (.ok count, s)
  | record :: rest, s =>
    match append record s with
    | .ok s => appendEach append (count + 1) rest s
    | .error e => (.error e, s)

/-- A store of records. -/
inductive Store where
  /-- Records in memory. -/
  | memory (records : List Record)
  /-- The bytes of a journal. -/
  | journal (bytes : ByteArray)
  /-- Records in memory, of a store that may refuse: `refuses` tells, from the records that are held
  and the one that comes, why it is not taken, and `unreadable` tells why the store cannot be read. -/
  | guarded (records : List Record) (refuses : List Record → Record → Option String)
    (unreadable : Option String)

/-- Why a store fails. -/
inductive StoreError where
  | journal (fault : Journal.Fault)
  /-- A guarded store refuses. -/
  | refused (reason : String)
deriving DecidableEq, Repr

/-- The wording of a store error. -/
def StoreError.message : StoreError → String
  | journal fault => fault.message
  | refused reason => reason

/-- Why a query is not answered. -/
inductive QueryError where
  | invalid (issues : List Issue)
  | store (error : StoreError)

/-- The wording of a query error. -/
def QueryError.message : QueryError → String
  | invalid issues => Issue.summary issues
  | store error => error.message

namespace Store

/-- A guarded store with room for so many records more.  When it is full it answers `full`. -/
def limited (records : List Record) (room : Nat) (full : String) (unreadable : Option String) :
    Store :=
  guarded records (fun held _ => if held.length < records.length + room then none else some full)
    unreadable

/-- Appends a record. -/
def append (record : Record) : Store → Except StoreError Store
  | memory records => .ok (memory (records ++ [record]))
  | journal bytes =>
    match Journal.append record bytes with
    | .ok bytes => .ok (journal bytes)
    | .error fault => .error (.journal fault)
  | guarded records refuses unreadable =>
    match refuses records record with
    | some reason => .error (.refused reason)
    | none => .ok (guarded (records ++ [record]) refuses unreadable)

/-- Appends a batch and answers the number of records appended.  A journal takes all or none; any
other store takes record by record. -/
def appendAll (batch : List Record) : Store → Except StoreError Nat × Store
  | journal bytes =>
    match Journal.appendAll batch bytes with
    | .ok bytes => (.ok batch.length, journal bytes)
    | .error fault => (.error (.journal fault), journal bytes)
  | store => appendEach append 0 batch store

/-- All records, in the order in which they came. -/
def readAll : Store → Except StoreError (List Record)
  | memory records => .ok records
  | journal bytes =>
    match Journal.records bytes with
    | .ok records => .ok records
    | .error fault => .error (.journal fault)
  | guarded _ _ (some reason) => .error (.refused reason)
  | guarded records _ none => .ok records

/-- The answer of a store to a query that has been read. -/
def answer (q : Query) (store : Store) : Except StoreError Answer := store.readAll.map q.run

/-- The answer of a store to a query.  A query that is not valid is refused whatever the store
holds. -/
def execute (raw : Value) (store : Store) : Except QueryError Answer :=
  match Query.parse raw with
  | .error issues => .error (.invalid issues)
  | .ok q =>
    match store.answer q with
    | .ok found => .ok found
    | .error e => .error (.store e)

end Store

end Logbook
