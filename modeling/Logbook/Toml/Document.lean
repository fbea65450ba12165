import Logbook.Toml.Scalar
import Logbook.Toml.Table

/-!
# TOML documents

A document is read line by line into one map.  Lists may be broken over lines and end in a comma;
tables within a line may not.  Whatever breaks a rule of the format makes the whole document
unreadable.

* `value?`: a value, with the lists and tables that may stand inside it.
* `Toml.read?`: the map that a document denotes.
-/

namespace Logbook.Toml

/-! ## Values -/

/-- The items of a list up to its closing bracket, behind those that are `done`, last first. -/
def itemsFrom (item : List Char → Reading Value) :
    Nat → List Value → List Char → Reading Value
  | 0, _, _ => none
  | fuel + 1, done, cs =>
    match skipLines cs with
    | ']' :: rest => some (.list done.reverse, rest)
    | cs =>
      match item cs with
      | none => none
      | some (v, rest) =>
        match skipLines rest with
        | ',' :: rest => itemsFrom item fuel (v :: done) rest
        | ']' :: rest => some (.list (v :: done).reverse, rest)
        | _ => none

/-- A key with its value. -/
def keyValue? (item : List Char → Reading Value) (cs : List Char) :
    Reading (List String × Value) :=
  match keyPath? cs with
  | some (path, '=' :: rest) =>
    (item (skipBlank rest)).map fun (v, rest) => ((path, v), rest)
  | _ => none

/-- The members of a table within a line up to its closing brace, at least one. -/
def membersFrom (item : List Char → Reading Value) :
    Nat → Branch → List Char → Reading Value
  | 0, _, _ => none
  | fuel + 1, branch, cs =>
    match keyValue? item cs with
    | none => none
    | some ((path, v), rest) =>
      match branch.put v path with
      | none => none
      | some branch =>
        match skipBlank rest with
        | ',' :: rest => membersFrom item fuel branch rest
        | '}' :: rest => some (.map (Branch.toMembers branch), rest)
        | _ => none

/-- A table within a line, behind its opening brace. -/
def inlineTable? (item : List Char → Reading Value) (cs : List Char) : Reading Value :=
  match skipBlank cs with
  | '}' :: rest => some (.map [], rest)
  | cs => membersFrom item (cs.length + 1) [] cs

/-- A value in which so many lists and tables may stand inside one another. -/
def value? : Nat → List Char → Reading Value
  | 0, cs => scalarValue? cs
  | depth + 1, cs =>
    match cs with
    | '[' :: rest => itemsFrom (fun cs => value? depth cs) (rest.length + 1) [] rest
    | '{' :: rest => inlineTable? (fun cs => value? depth cs) rest
    | cs => scalarValue? cs

/-! ## Lines -/

/-- A document that has been read up to some line. -/
structure Draft where
  root : Branch
  /-- The table that keys come into. -/
  here : List String

/-- Reads the header of a table, behind its opening bracket. -/
def Draft.header? (draft : Draft) (cs : List Char) : Option (Draft × List Char) :=
  match keyPath? cs with
  | some (path, ']' :: rest) => do
    let root ← draft.root.openTable path
    return (⟨root, path⟩, ← endOfLine? rest)
  | _ => none

/-- Reads the header of a table in a list of tables, behind its opening brackets. -/
def Draft.itemHeader? (draft : Draft) (cs : List Char) : Option (Draft × List Char) :=
  match keyPath? cs with
  | some (path, ']' :: ']' :: rest) => do
    let root ← draft.root.openItem path
    return (⟨root, path⟩, ← endOfLine? rest)
  | _ => none

/-- Reads a line, or a key whose value goes over several. -/
def Draft.line? (draft : Draft) (cs : List Char) : Option (Draft × List Char) :=
  match skipBlank cs with
  | '[' :: '[' :: rest => draft.itemHeader? rest
  | '[' :: rest => draft.header? rest
  | cs =>
    match endOfLine? cs with
    | some rest => some (draft, rest)
    | none => do
      let ((path, v), rest) ← keyValue? (value? maxDepth) cs
      let root ← Branch.within (Branch.put v path) draft.here draft.root
      return (⟨root, draft.here⟩, ← endOfLine? rest)

/-- Reads lines up to the end of the document. -/
def draftFrom : Nat → Draft → List Char → Option Draft
  | _, draft, [] => some draft
  | 0, _, _ => none
  | fuel + 1, draft, cs =>
    match draft.line? cs with
    | some (draft, rest) => draftFrom fuel draft rest
    | none => none

/-- The map that a document denotes; a byte order mark at its beginning is passed over. -/
def read? (cs : List Char) : Option Value :=
  let cs := match cs with
    | '\ufeff' :: rest => rest
    | cs => cs
  (draftFrom (cs.length + 1) ⟨[], []⟩ cs).map fun draft => .map (Branch.toMembers draft.root)

end Logbook.Toml
