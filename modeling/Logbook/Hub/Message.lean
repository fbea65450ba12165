import Logbook.Hub.MediaType
import Logbook.Hub.Target
import Logbook.Json.Reader
import Logbook.Json.Writer
import Logbook.Text.Utf8

/-!
# Requests and responses

What a hub is asked and what it answers.  A request with a body must say that the body is JSON, must
not be too long, and its body must begin with a JSON value, in this order; what follows the value is
passed over.

* `Request`, `Response`.
* `Request.ofParts?`: a request from what its head and its body say.
* `Request.payload`: the value in the body of a request, or why there is none.
-/

namespace Logbook

/-- A request. -/
structure Request where
  method : String
  path : String
  contentType : Option String
  body : ByteArray

/-- A response. -/
structure Response where
  status : Nat
  contentType : Option String
  body : String
deriving DecidableEq, Repr

namespace Response

/-- A response without a body. -/
def empty (status : Nat) : Response := ⟨status, none, ""⟩

/-- A response with a JSON body. -/
def json (status : Nat) (body : Value) : Response := ⟨status, some "application/json", body.text⟩

/-- The same response without its body. -/
def withoutBody (r : Response) : Response := { r with body := "" }

end Response

/-! ## Heads -/

/-- Holds of the methods that are a word. -/
def Request.isMethod (text : String) : Bool :=
  !text.isEmpty && text.toList.all MediaType.isToken

/-- Holds of the texts that the head of a request can carry: no control characters but tabs. -/
def Request.isHeadText (text : String) : Bool :=
  text.toList.all fun c => c = '\t' || 0x20 ≤ c.toNat && c.toNat != 0x7F

/-- A request from its parts, when they are well formed. -/
def Request.ofParts? (method target : String) (contentType : Option String) (body : ByteArray) :
    Option Request :=
  if isMethod method && contentType.all isHeadText then
    (Target.path? target).map fun path => ⟨method, path, contentType, body⟩
  else none

/-! ## Bodies -/

/-- Why the body of a request is not read. -/
inductive Rejection where
  | contentType
  | tooLong
  | notJson
deriving DecidableEq, Repr

namespace Rejection

/-- The status of the response. -/
def status : Rejection → Nat
  | contentType => 415
  | tooLong => 413
  | notJson => 400

/-- The wording of a rejection. -/
def message : Rejection → String
  | contentType => "Expected request with `Content-Type: application/json`"
  | tooLong => "Failed to buffer the request body: length limit exceeded"
  | notJson => "Failed to parse the request body as JSON: not a JSON value"

end Rejection

/-- The value at the front of the body of a request. -/
def Request.payload (maxBytes : Nat) (request : Request) : Except Rejection Value :=
  if (request.contentType.elim false MediaType.isJson) = false then .error .contentType
  else if maxBytes < request.body.size then .error .tooLong
  else
    match Value.first? (Utf8.soundPrefix request.body) with
    | some (v, _) => .ok v
    | none => .error .notJson

end Logbook
