import Logbook.Toml.Document

/-!
# Settings of the hub

What a hub accepts and what it adds to records.  Settings are read from a value with two sections,
`server` and `ingest`; a part that is left out has its default.  A section may also be a list of its
parts in order.  In a file such a list may have items to spare, elsewhere it may not.

* `Rules`, `Settings`: the settings and their defaults.
* `Settings.ofValue?`, `Settings.ofExact?`: the settings that a value states.
* `Settings.ofFile`: the settings of a configuration file.  A file that cannot be read as a whole
  counts for nothing, and all defaults hold.
-/

namespace Logbook

/-- What is asked of records that come in, and what is added to them. -/
structure Rules where
  /-- Give a time to records without one. -/
  stampTimestamp : Bool
  /-- Give an id to records without one. -/
  assignId : Bool
  /-- The fields that a record must have. -/
  requiredFields : List String
  /-- The most records in a batch. -/
  maxBatch : Nat
deriving DecidableEq, Repr

/-- The settings of a hub. -/
structure Settings where
  /-- The most bytes in the body of a request. -/
  maxBodyBytes : Nat
  rules : Rules
deriving DecidableEq, Repr

/-- The default rules. -/
def Rules.default : Rules := ⟨true, false, [], 1000⟩

/-- The default settings. -/
def Settings.default : Settings := ⟨2 * 1024 * 1024, Rules.default⟩

/-! ## Reading -/

/-- Reads a part of a section, which has a name and a place. -/
def Value.part? {α : Type} (section_ : Value) (key : String) (place : Nat) (absent : α)
    (read : Value → Option α) : Option α :=
  match section_ with
  | .map ms => (Members.get? key ms).elim (some absent) read
  | .list xs => xs[place]?.elim (some absent) read
  | _ => none

/-- Holds of lists of no more than a number of items, and of all that is no list. -/
def Value.fits (most : Nat) : Value → Bool
  | .list xs => xs.length ≤ most
  | _ => true

/-- A truth value. -/
def Value.bool? : Value → Option Bool
  | .bool b => some b
  | _ => none

/-- A list of strings. -/
def Value.strings? : Value → Option (List String)
  | .list xs => xs.mapM Value.string?
  | _ => none

/-- The rules that a section states. -/
def Rules.ofValue? (v : Value) : Option Rules := do
  let stampTimestamp ← v.part? "stamp_timestamp" 0 default.stampTimestamp Value.bool?
  let assignId ← v.part? "assign_id" 1 default.assignId Value.bool?
  let requiredFields ← v.part? "required_fields" 2 default.requiredFields Value.strings?
  let maxBatch ← v.part? "max_batch" 3 default.maxBatch Value.natural?
  return ⟨stampTimestamp, assignId, requiredFields, maxBatch⟩

namespace Settings

/-- The size limit that a section states. -/
def limit? (v : Value) : Option Nat :=
  v.part? "max_body_bytes" 0 default.maxBodyBytes Value.natural?

/-- The settings that a value states. -/
def ofValue? (v : Value) : Option Settings := do
  let maxBodyBytes ← v.part? "server" 0 default.maxBodyBytes limit?
  let rules ← v.part? "ingest" 1 default.rules Rules.ofValue?
  return ⟨maxBodyBytes, rules⟩

/-- Holds when no list in the place of sections or of parts has items to spare. -/
def isExact (v : Value) : Bool :=
  let given (key : String) (place : Nat) := v.part? key place .null some
  v.fits 2 && (given "server" 0).all (Value.fits 1) && (given "ingest" 1).all (Value.fits 4)

/-- The settings that a value states when it has no items to spare. -/
def ofExact? (v : Value) : Option Settings := if isExact v then ofValue? v else none

/-- The settings of a configuration file, which may be missing. -/
def ofFile (file : Option ByteArray) : Settings :=
  let found := do
    let text ← String.fromUTF8? (← file)
    ofValue? (← Toml.read? text.toList)
  found.getD default

end Settings

end Logbook
