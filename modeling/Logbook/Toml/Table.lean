import Logbook.Value

/-!
# Tables of a TOML document

A document builds its tables line by line.  Every table remembers how it came to be, since that
decides what may still be added: a table is opened by a header at most once, and a dotted key adds
only to tables that dotted keys have made.

* `Node`, `Branch`: a document under construction.
* `Branch.put`: a key, which may have dots, gets its value.
* `Branch.openTable`, `Branch.openItem`: what the headers `[a.b]` and `[[a.b]]` do.
* `Branch.toMembers`: the finished document.
-/

namespace Logbook.Toml

/-- How a table came to be. -/
inductive Origin where
  /-- By a header of its own. -/
  | header
  /-- As a part of the header of another table. -/
  | implied
  /-- As a part of a dotted key. -/
  | dotted
deriving DecidableEq, Repr

/-- What stands under a key of a document under construction. -/
inductive Node where
  /-- A value, to which nothing can be added. -/
  | value (v : Value)
  | table (origin : Origin) (members : List (String × Node))
  /-- The tables that headers in double brackets have opened under one name, last first. -/
  | items (last : List (String × Node)) (before : List (List (String × Node)))

/-- The members of a table under construction. -/
abbrev Branch := List (String × Node)

namespace Branch

/-- What stands under a key. -/
def get? (key : String) : Branch → Option Node
  | [] => none
  | (k, node) :: rest => if k = key then some node else get? key rest

/-- Sets a key: in its place if it is there, and at the end if it is new. -/
def set (key : String) (node : Node) : Branch → Branch
  | [] => [(key, node)]
  | (k, n) :: rest => if k = key then (k, node) :: rest else (k, n) :: set key node rest

/-- Edits the table at the end of a path of headers.  Tables that are not there yet are implied, and
a list of tables is entered through its last one. -/
def within (edit : Branch → Option Branch) : List String → Branch → Option Branch
  | [], branch => edit branch
  | key :: path, branch =>
    match get? key branch with
    | none => (within edit path []).map fun sub => set key (.table .implied sub) branch
    | some (.table origin sub) =>
      (within edit path sub).map fun sub => set key (.table origin sub) branch
    | some (.items last before) =>
      (within edit path last).map fun last => set key (.items last before) branch
    | some (.value _) => none

/-- Puts a value under the last part of a dotted key.  The table it comes into must be the one at
hand or one that dotted keys have made. -/
def put (value : Value) : List String → Branch → Option Branch
  | [], _ => none
  | [key], branch =>
    match get? key branch with
    | none => some (set key (.value value) branch)
    | some _ => none
  | key :: next :: path, branch =>
    match get? key branch with
    | none =>
      (put value (next :: path) []).map fun sub => set key (.table .dotted sub) branch
    | some (.table .dotted sub) =>
      (put value (next :: path) sub).map fun sub => set key (.table .dotted sub) branch
    | some (.table .implied sub) =>
      if path.isEmpty then none
      else (put value (next :: path) sub).map fun sub => set key (.table .implied sub) branch
    | some (.table .header _) => none
    | some (.items last before) =>
      if path.isEmpty then none
      else (put value (next :: path) last).map fun last => set key (.items last before) branch
    | some (.value _) => none

/-- Opens the table of a header; it may so far be implied at most. -/
def openHere (key : String) (branch : Branch) : Option Branch :=
  match get? key branch with
  | none => some (set key (.table .header []) branch)
  | some (.table .implied sub) => some (set key (.table .header sub) branch)
  | some _ => none

/-- Opens one more table of a list of tables. -/
def openItemHere (key : String) (branch : Branch) : Option Branch :=
  match get? key branch with
  | none => some (set key (.items [] []) branch)
  | some (.items last before) => some (set key (.items [] (last :: before)) branch)
  | some _ => none

/-- Opens the table of a header in single brackets. -/
def openTable (path : List String) (branch : Branch) : Option Branch :=
  match path.getLast? with
  | some key => within (openHere key) path.dropLast branch
  | none => none

/-- Opens the table of a header in double brackets. -/
def openItem (path : List String) (branch : Branch) : Option Branch :=
  match path.getLast? with
  | some key => within (openItemHere key) path.dropLast branch
  | none => none

end Branch

/-! ## The finished document -/

mutual

/-- What stands under a key, as a value. -/
def Node.toValue : Node → Value
  | .value v => v
  | .table _ members => .map (Branch.toMembers members)
  | .items last before => .list (Branch.toMaps before [.map (Branch.toMembers last)])

/-- The members of a finished table. -/
def Branch.toMembers : List (String × Node) → Members
  | [] => []
  | (key, node) :: rest => (key, node.toValue) :: Branch.toMembers rest

/-- Tables, last first, as maps in front of others. -/
def Branch.toMaps : List (List (String × Node)) → List Value → List Value
  | [], done => done
  | table :: before, done => Branch.toMaps before (.map (Branch.toMembers table) :: done)

end

end Logbook.Toml
