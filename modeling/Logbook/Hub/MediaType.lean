/-!
# Content types

A request says by a content type what its body is.  It is a type and a subtype, perhaps with a
suffix behind a plus sign, and parameters behind semicolons.

* `MediaType.isToken`: the characters of words in the head of a request.
* `MediaType.isJson`: the content types that announce JSON.
-/

namespace Logbook.MediaType

/-! ## Characters -/

/-- The characters of the words in the head of a request. -/
def isToken (c : Char) : Bool := c.isAlphanum || "!#$%&'*+-.^_`|~".toList.contains c

/-- The characters that may stand between quotes in a content type. -/
def isQuotable (c : Char) : Bool := 0x20 ≤ c.toNat && c.toNat < 0x7F

/-! ## Parameters -/

/-- Reads a value in quotes, behind the opening one, and the blanks behind it.  The value is not
empty: a quote at its front belongs to it. -/
def quotedRest? : List Char → Option (List Char)
  | [] => none
  | c :: rest =>
    if isQuotable c then
      match rest.dropWhile fun c => isQuotable c && c != '"' with
      | '"' :: rest => some (rest.dropWhile (· == ' '))
      | _ => none
    else none

/-- Reads the value of a parameter, up to the next mark or the end. -/
def valueRest? : List Char → Option (List Char)
  | '"' :: rest => quotedRest? rest
  | cs =>
    match cs.dropWhile isToken with
    | [] => some []
    | rest => if (cs.takeWhile isToken).isEmpty then none else some rest

/-- Holds when parameters are well formed.  They are given with the semicolon that stands in front
of them; behind the last semicolon there may be nothing. -/
def paramsFrom : Nat → List Char → Bool
  | 0, _ => false
  | fuel + 1, cs =>
    match cs with
    | [] => true
    | ';' :: cs =>
      match cs.dropWhile (· == ' ') with
      | [] => true
      | cs =>
        match cs.dropWhile isToken with
        | '=' :: rest =>
          !(cs.takeWhile isToken).isEmpty
            && (valueRest? rest).elim false (paramsFrom fuel)
        | _ => false
    | _ => false

/-- Holds when parameters, if any, are well formed. -/
def paramsOk (cs : List Char) : Bool := paramsFrom (cs.length + 1) cs

/-! ## Types -/

/-- A subtype without its suffix, and its suffix. -/
def splitSuffix (subtype : List Char) : List Char × Option (List Char) :=
  let suffix := (subtype.reverse.takeWhile (· != '+')).reverse
  let stem := subtype.take (subtype.length - suffix.length - 1)
  if stem.isEmpty ∨ !subtype.contains '+' then (subtype, none) else (stem, some suffix)

/-- Holds of the content types that announce JSON: `application/json`, and the application types
with the suffix `json`, in any case and with any parameters. -/
def isJson (text : String) : Bool :=
  let cs := text.toList.map Char.toLower
  match cs.dropWhile isToken with
  | '/' :: rest =>
    let subtype := rest.takeWhile isToken
    let (stem, suffix) := splitSuffix subtype
    cs.takeWhile isToken == "application".toList
      && (stem == "json".toList || suffix == some "json".toList)
      && paramsOk (rest.dropWhile isToken)
  | _ => false

end Logbook.MediaType
