import Logbook.Settings
import Logbook.Value.Lookup

/-!
# Ingest

What comes in is one record or a list of records.  Either every record is accepted, or the whole
payload is refused and nothing of it is stored.

* `Refusal`, `Refusal.message`: why a payload is refused.
* `Record.accept`: one record checked and completed.
* `Payload.prepare`: the records of a payload, ready to be stored.
-/

namespace Logbook

/-- Why a payload is refused. -/
inductive Refusal where
  /-- A list without records. -/
  | noRecords
  /-- Neither a map nor a list. -/
  | notRecords (got : Value)
  /-- More records than a batch may have. -/
  | tooMany (count limit : Nat)
  /-- An item of the list is no map. -/
  | notAMap (index : Nat)
  /-- A record has no members. -/
  | emptyRecord (index : Nat)
  /-- A record lacks a field. -/
  | missing (index : Nat) (field : String)

/-- The wording of a refusal. -/
def Refusal.message : Refusal → String
  | noRecords => "Payload contains no records"
  | notRecords got => "Expected a record or a list of records, got " ++ got.typeName
  | tooMany count limit =>
    "Batch of " ++ toString count ++ " records exceeds the limit of " ++ toString limit
  | notAMap index => "Record " ++ toString index ++ " is not a map"
  | emptyRecord index => "Record " ++ toString index ++ " is empty"
  | missing index field =>
    "Record " ++ toString index ++ " is missing required field '" ++ field ++ "'"

/-- Sets a member unless there is one of that name. -/
def Members.addNew (key : String) (value : Value) (members : Members) : Members :=
  if Members.has key members then members else members ++ [(key, value)]

/-- Where new times and ids come from: the time of the batch, and an id for each place in it. -/
structure Supply where
  now : String
  id : Nat → String

/-- A record with the members that the rules add. -/
def Record.complete (rules : Rules) (supply : Supply) (index : Nat) (record : Record) : Record :=
  let stamped :=
    if rules.stampTimestamp then Members.addNew "timestamp" (.str supply.now) record else record
  if rules.assignId then Members.addNew "id" (.str (supply.id index)) stamped else stamped

/-- Checks and completes the item at a place of the batch. -/
def Record.accept (rules : Rules) (supply : Supply) (index : Nat) (item : Value) :
    Except Refusal Record :=
  match item with
  | .map [] => .error (.emptyRecord index)
  | .map record =>
    match rules.requiredFields.find? fun field => (Record.lookup record field).isNone with
    | some field => .error (.missing index field)
    | none => .ok (Record.complete rules supply index record)
  | _ => .error (.notAMap index)

/-- Checks and completes the items from a place of the batch on. -/
def Record.acceptAll (rules : Rules) (supply : Supply) :
    Nat → List Value → Except Refusal (List Record)
  | _, [] => .ok []
  | index, item :: items =>
    match accept rules supply index item with
    | .error refusal => .error refusal
    | .ok record =>
      match acceptAll rules supply (index + 1) items with
      | .error refusal => .error refusal
      | .ok records => .ok (record :: records)

/-- The items of a payload. -/
def Payload.items : Value → Except Refusal (List Value)
  | .map record => .ok [.map record]
  | .list [] => .error .noRecords
  | .list items => .ok items
  | other => .error (.notRecords other)

/-- The records of a payload, ready to be stored. -/
def Payload.prepare (rules : Rules) (supply : Supply) (payload : Value) :
    Except Refusal (List Record) :=
  match items payload with
  | .error refusal => .error refusal
  | .ok items =>
    if rules.maxBatch < items.length then .error (.tooMany items.length rules.maxBatch)
    else Record.acceptAll rules supply 0 items

end Logbook
