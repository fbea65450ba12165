import Logbook.Client.Help
import Logbook.Client.Plan
import Logbook.Json.Lines
import Logbook.Query.Run
import Logbook.Query.Validation
import Logbook.Journal.Scan
import Logbook.Table

/-!
# Commands

The plan of each command.  Arguments that hold JSON are read before anything else is done, and a
query on a journal is checked before the journal is read.

* `Query.search`: the answer to a query over the bytes of a journal.
* `Command.plan`, `Client.plan`: what the program does.
-/

namespace Logbook

/-- The answer to a query over the bytes of a journal, or why the journal cannot be read. -/
def Query.search (q : Query) (bytes : ByteArray) : Except String Answer :=
  match Journal.records bytes with
  | .ok records => .ok (q.run records)
  | .error fault => .error fault.message

namespace Client

open Plan

/-- Reads a JSON argument and goes on with it. -/
def withJson (text : String) (next : Value → Plan) : Plan :=
  match Value.ofText? text with
  | some v => next v
  | none => fail "Invalid JSON: the argument is not a JSON text"

/-- Asks the hub and goes on with the value of a reply that tells of success. -/
def withReply (question : Question) (next : Value → Plan) : Plan :=
  ask question fun
    | .error reason => fail ("Error: " ++ reason)
    | .ok reply =>
      match reply.read with
      | .ok body => next body
      | .error text => warn text (finish 1)

/-- Reads a file with a JSON value on each line and goes on with the list of them. -/
def withLines (path : String) (next : Value → Plan) : Plan :=
  fetch path fun
    | .error reason => fail ("Failed to read " ++ path ++ ": " ++ reason)
    | .ok bytes =>
      match String.fromUTF8? bytes with
      | none => fail ("Failed to read " ++ path ++ ": stream did not contain valid UTF-8")
      | some text =>
        match Json.readLines text.toList with
        | .ok records => next (.list records)
        | .error number => fail (path ++ ":" ++ toString number ++ ": not a JSON text")

/-- Sends records and tells how many the hub took. -/
def sendRecords (payload : Value) : Plan :=
  withReply ⟨"/api/logs", some payload⟩ fun body =>
    printLast ("Ingested " ++ (member body "count").text ++ " records")

/-- Shows the reply to a query. -/
def showReply (json : Bool) (body : Value) : Plan :=
  if json then printLast body.indentedText
  else
    match Answer.ofValue? body with
    | some a => printLast a.summary
    | none => fail "Unexpected response: the reply is not an answer"

/-- Shows the verdict on a query. -/
def showVerdict (body : Value) : Plan :=
  match member body "valid" with
  | .bool true => printLast "Query is valid"
  | _ => print (issueLines "" body) (finish 1)

/-- Runs a query on a journal. -/
def searchJournal (journal : String) (json : Bool) (raw : Value) : Plan :=
  match Query.parse raw with
  | .error issues => fail (Issue.summary issues)
  | .ok q =>
    fetch journal fun file =>
      match file.bind q.search with
      | .error reason => fail ("Failed to read journal " ++ journal ++ ": " ++ reason)
      | .ok a => printLast (if json then a.toValue.indentedText else a.summary)

/-- Launches a hub. -/
def launchHub (journal : String) (memory : Bool) (bind : String) : Plan :=
  let place := if memory then "   Store:   memory\n" else "   Journal: " ++ journal ++ "\n"
  let choice := if memory then ["--memory"] else ["--journal", journal]
  warn ("LOGQ: Launching hub...\n   Bind:    " ++ bind ++ "\n" ++ place ++ "\n")
    (launch (["run", "-p", "lq-hub", "--", "--bind", bind] ++ choice) fun
      | .refused reason => fail ("Failed to launch hub: " ++ reason)
      | .ended 0 _ => finish 0
      | .ended code _ => fail ("Hub exited with: exit status: " ++ toString code))

/-- What a command does. -/
def Command.plan : Command → Plan
  | ingest (some records) none => withJson records sendRecords
  | ingest none (some file) => withLines file sendRecords
  | ingest _ _ => fail "Pass records as an argument or with --file"
  | query text json =>
    withJson text fun raw => withReply ⟨"/api/logs/query", some raw⟩ (showReply json)
  | validate text =>
    withJson text fun raw => withReply ⟨"/api/logs/query/validate", some raw⟩ showVerdict
  | status => withReply ⟨"/api/status", none⟩ fun body => printLast body.indentedText
  | scan journal text json => withJson text (searchJournal journal json)
  | hub journal memory bind => launchHub journal memory bind

/-- What the program does with its arguments. -/
def plan (arguments : List String) : Plan :=
  match Arguments.parse arguments with
  | .run command => command.plan
  | .help topic => print topic.text (finish 0)
  | .version => printLast version
  | .misuse => warn misuse (finish 2)

end Client

end Logbook
