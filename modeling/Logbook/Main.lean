import Logbook.Client.Commands

/-!
# The command line

Follows the plan of the arguments.  Files are read from disk; this program opens no connection and
launches nothing by itself, so questions to a hub find none.
-/

namespace Logbook.Client

/-- The bytes of a file, or why it cannot be read. -/
def fetchFile (path : String) : IO (Except String ByteArray) := do
  match ← (IO.FS.readBinFile path).toBaseIO with
  | .ok bytes => return .ok bytes
  | .error (.noFileOrDirectory ..) => return .error "No such file or directory (os error 2)"
  | .error e => return .error (toString e)

/-- The address of the hub. -/
def baseUrl : IO String := do
  return (← IO.getEnv "LQ_BASE_URL").getD "http://127.0.0.1:3000"

/-- Follows a plan and answers the exit code. -/
def Plan.follow : Plan → IO Nat
  | finish code => return code
  | print text next => do
    (← IO.getStdout).putStr text
    follow next
  | warn text next => do
    (← IO.getStderr).putStr text
    follow next
  | fetch path next => do follow (next (← fetchFile path))
  | ask question next => do
    let url := (← baseUrl) ++ question.path
    follow (next (.error ("error sending request for url (" ++ url ++ ")")))
  | launch _ next => follow (next (.refused "No such file or directory (os error 2)"))

end Logbook.Client

/-- Does what the arguments ask for. -/
def main (arguments : List String) : IO UInt32 := do
  return (← (Logbook.Client.plan arguments).follow).toUInt32
