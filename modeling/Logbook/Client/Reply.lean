import Logbook.Json.Reader

/-!
# Replies

What a client takes from the reply of a hub: the JSON value in its body, if the status is one of
success, or else what is to be said about the failure.

* `Status.text`: a status with the phrase that goes with it.
* `Reply.read`: the value of a reply that tells of success.
* `issueLines`: the lines about the issues that a reply lists.
-/

namespace Logbook.Client

namespace Status

/-- The phrase that goes with a status. -/
def phrase : Nat → String
  | 100 => "Continue"
  | 101 => "Switching Protocols"
  | 102 => "Processing"
  | 200 => "OK"
  | 201 => "Created"
  | 202 => "Accepted"
  | 203 => "Non Authoritative Information"
  | 204 => "No Content"
  | 205 => "Reset Content"
  | 206 => "Partial Content"
  | 207 => "Multi-Status"
  | 208 => "Already Reported"
  | 226 => "IM Used"
  | 300 => "Multiple Choices"
  | 301 => "Moved Permanently"
  | 302 => "Found"
  | 303 => "See Other"
  | 304 => "Not Modified"
  | 305 => "Use Proxy"
  | 307 => "Temporary Redirect"
  | 308 => "Permanent Redirect"
  | 400 => "Bad Request"
  | 401 => "Unauthorized"
  | 402 => "Payment Required"
  | 403 => "Forbidden"
  | 404 => "Not Found"
  | 405 => "Method Not Allowed"
  | 406 => "Not Acceptable"
  | 407 => "Proxy Authentication Required"
  | 408 => "Request Timeout"
  | 409 => "Conflict"
  | 410 => "Gone"
  | 411 => "Length Required"
  | 412 => "Precondition Failed"
  | 413 => "Payload Too Large"
  | 414 => "URI Too Long"
  | 415 => "Unsupported Media Type"
  | 416 => "Range Not Satisfiable"
  | 417 => "Expectation Failed"
  | 418 => "I'm a teapot"
  | 421 => "Misdirected Request"
  | 422 => "Unprocessable Entity"
  | 423 => "Locked"
  | 424 => "Failed Dependency"
  | 426 => "Upgrade Required"
  | 428 => "Precondition Required"
  | 429 => "Too Many Requests"
  | 431 => "Request Header Fields Too Large"
  | 451 => "Unavailable For Legal Reasons"
  | 500 => "Internal Server Error"
  | 501 => "Not Implemented"
  | 502 => "Bad Gateway"
  | 503 => "Service Unavailable"
  | 504 => "Gateway Timeout"
  | 505 => "HTTP Version Not Supported"
  | 506 => "Variant Also Negotiates"
  | 507 => "Insufficient Storage"
  | 508 => "Loop Detected"
  | 510 => "Not Extended"
  | 511 => "Network Authentication Required"
  | _ => "<unknown status code>"

/-- A status with the phrase that goes with it. -/
def text (status : Nat) : String := toString status ++ " " ++ phrase status

/-- Holds of the statuses that tell of success. -/
def isSuccess (status : Nat) : Bool := 200 ≤ status && status < 300

end Status

/-- The reply of a hub. -/
structure Reply where
  status : Nat
  body : ByteArray

/-- The value of a key; of a value that is no map, and of a key that is not there, it is null. -/
def member (v : Value) (key : String) : Value :=
  (v.members?.bind (Members.get? key)).getD .null

/-- The lines about the issues that the body of a reply lists, each behind an indent. -/
def issueLines (indent : String) (body : Value) : String :=
  String.join (((member body "errors").items?.getD []).map fun issue =>
    indent ++ ((member issue "path").string?.getD "$") ++ ": "
      ++ ((member issue "message").string?.getD "") ++ "\n")

/-- The value in the body of a reply that tells of success, or what is to be said about the
failure. -/
def Reply.read (reply : Reply) : Except String Value :=
  match (String.fromUTF8? reply.body).bind Value.ofText? with
  | none =>
    .error ("Error: error decoding response body: not a JSON text (" ++ Status.text reply.status
      ++ ")\n")
  | some body =>
    if Status.isSuccess reply.status then .ok body
    else
      .error ("Error: " ++ ((member body "error").string?.getD (toString reply.status)) ++ "\n"
        ++ issueLines "   " body)

end Logbook.Client
