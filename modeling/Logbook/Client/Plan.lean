import Logbook.Client.Reply

/-!
# Plans

What a client does is laid down as a plan: texts that it writes, and questions to the world outside
whose answers decide how the plan goes on.  A plan does nothing by itself.  It can be followed in
any world that answers.

* `Plan`: the steps, and how each goes on.
* `World`: the answers to all questions.
* `Plan.run`: what comes of a plan in a world.
-/

namespace Logbook.Client

/-- A question to a hub: a path, and a payload if there is something to send. -/
structure Question where
  path : String
  payload : Option Value

/-- What comes of launching a program. -/
inductive Launched where
  /-- It cannot be launched. -/
  | refused (reason : String)
  /-- It ended with this code, and this is what it wrote. -/
  | ended (code : Nat) (output : String)

/-- What a client does. -/
inductive Plan where
  /-- Ends with an exit code. -/
  | finish (code : Nat)
  /-- Writes to the output. -/
  | print (text : String) (next : Plan)
  /-- Writes to the error output. -/
  | warn (text : String) (next : Plan)
  /-- Reads a file; the failure tells the reason. -/
  | fetch (path : String) (next : Except String ByteArray → Plan)
  /-- Asks the hub; the failure tells why there is no reply. -/
  | ask (question : Question) (next : Except String Reply → Plan)
  /-- Launches the program of the hub and waits for its end. -/
  | launch (arguments : List String) (next : Launched → Plan)

namespace Plan

/-- Ends after a last text. -/
def printLast (text : String) : Plan := print (text ++ "\n") (finish 0)

/-- Ends with a failure, after a message. -/
def fail (message : String) : Plan := warn (message ++ "\n") (finish 1)

end Plan

/-- The answers of the world outside. -/
structure World where
  file : String → Except String ByteArray
  hub : Question → Except String Reply
  launch : List String → Launched

/-- What comes of a plan. -/
structure Outcome where
  code : Nat
  stdout : String
  stderr : String
deriving DecidableEq, Repr

/-- What a launched program wrote. -/
def Launched.output : Launched → String
  | refused _ => ""
  | ended _ output => output

/-- What comes of a plan in a world. -/
def Plan.run (world : World) : Plan → Outcome
  | finish code => ⟨code, "", ""⟩
  | print text next =>
    let rest := run world next
    { rest with stdout := text ++ rest.stdout }
  | warn text next =>
    let rest := run world next
    { rest with stderr := text ++ rest.stderr }
  | fetch path next => run world (next (world.file path))
  | ask question next => run world (next (world.hub question))
  | launch arguments next =>
    let rest := run world (next (world.launch arguments))
    { rest with stdout := (world.launch arguments).output ++ rest.stdout }

end Logbook.Client
