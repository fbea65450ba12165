/-!
# Request targets

A request names what it is about by a target.  Mostly it is a path, with a query part behind it.  It
may also be a whole address, which has a scheme and an authority in front of the path, an authority
alone, or a star.

* `Target.Authority.isValid`: the authorities that are well formed.
* `Target.path?`: the path of a target that is well formed.
-/

namespace Logbook.Target

/-! ## Authorities -/

namespace Authority

/-- Holds of the characters that stand in an authority and have no role there. -/
def isPlain (c : Char) : Bool := c.isAlphanum || "!$&'()*+,-.;=_~".toList.contains c

/-- What has been seen of an authority: an address in brackets, and, behind that or behind the name
of a user, how many colons and whether a percent sign. -/
structure Seen where
  colons : Nat
  opened : Bool
  closed : Bool
  percent : Bool
deriving DecidableEq, Repr

/-- One more character of an authority. -/
def Seen.next? (seen : Seen) (c : Char) : Option Seen :=
  if c = ':' then if seen.colons < 8 then some { seen with colons := seen.colons + 1 } else none
  else if c = '[' then
    if seen.percent || seen.opened then none else some { seen with opened := true }
  else if c = ']' then
    if !seen.opened || seen.closed then none else some ⟨0, true, true, false⟩
  else if c = '@' then some { seen with colons := 0, percent := false }
  else if c = '%' then some { seen with percent := true }
  else if isPlain c then some seen
  else none

/-- Holds of the authorities that are well formed: a host follows the name of a user, it holds one
colon at most outside brackets and no percent sign, and brackets come in a pair. -/
def isValid (cs : List Char) : Bool :=
  match cs.foldlM Seen.next? ⟨0, false, false, false⟩ with
  | some seen =>
    seen.opened == seen.closed && seen.colons ≤ 1 && !seen.percent && cs.getLast? != some '@'
  | none => false

end Authority

/-! ## Paths and query parts -/

/-- Holds of the characters of a path. -/
def isPathChar (c : Char) : Bool := 0x21 ≤ c.toNat && !"#<>?`".toList.contains c

/-- Holds of the characters of a query part. -/
def isQueryChar (c : Char) : Bool := 0x21 ≤ c.toNat && !"\"#<>".toList.contains c

/-- The path in front of a query part and a fragment; the empty path is the root. -/
def resource? (cs : List Char) : Option String :=
  let path := cs.takeWhile fun c => c != '?' && c != '#'
  let queryOk := match cs.drop path.length with
    | '?' :: rest => (rest.takeWhile (· != '#')).all isQueryChar
    | _ => true
  if path.all isPathChar && queryOk then
    some (if path.isEmpty then "/" else String.ofList path)
  else none

/-! ## Targets -/

/-- Holds of the characters of a scheme. -/
def isSchemeChar (c : Char) : Bool := c.isAlphanum || "+-.~".toList.contains c

/-- The scheme of an address, and what stands behind it. -/
def splitScheme? (cs : List Char) : Option (List Char × List Char) :=
  match cs.dropWhile isSchemeChar with
  | ':' :: '/' :: '/' :: rest => some (cs.takeWhile isSchemeChar, rest)
  | _ => none

/-- The path of an address behind its scheme. -/
def hosted? (cs : List Char) : Option String :=
  let authority := cs.takeWhile fun c => c != '/' && c != '?' && c != '#'
  if !authority.isEmpty && Authority.isValid authority then
    resource? (cs.drop authority.length)
  else none

/-- The path of a target that is well formed.  An authority alone has the empty path. -/
def path? (target : String) : Option String :=
  if 65534 < target.utf8ByteSize then none
  else
    match target.toList with
    | [] => none
    | ['*'] => some "*"
    | '/' :: rest => resource? ('/' :: rest)
    | cs =>
      match splitScheme? cs with
      | some (scheme, rest) => if 64 < scheme.length then none else hosted? rest
      | none => if Authority.isValid cs then some "" else none

end Logbook.Target
