import Logbook.Client.Arguments

/-!
# Help

What the program prints about itself.
-/

namespace Logbook.Client

/-- The version of the program. -/
def version : String := "lq 0.1.0"

/-- Lines, each with its line break. -/
def ofLines (lines : List String) : String := String.join (lines.map (· ++ "\n"))

/-- The help on a topic. -/
def Topic.text : Topic → String
  | program => ofLines [
      "LOGQ: Command-line client",
      "",
      "Usage: lq <COMMAND>",
      "",
      "Commands:",
      "  ingest    Send one record, or a list of records, to the hub",
      "  query     Run a query on the hub",
      "  validate  Validate a query without running it",
      "  status    Report hub status",
      "  scan      Run a query directly against a journal file",
      "  hub       Launch the hub",
      "  help      Print this message or the help of the given subcommand(s)",
      "",
      "Options:",
      "  -h, --help     Print help",
      "  -V, --version  Print version"]
  | ingest => ofLines [
      "Send one record, or a list of records, to the hub",
      "",
      "Usage: lq ingest [OPTIONS] [RECORDS]",
      "",
      "Arguments:",
      "  [RECORDS]  A JSON map or list of maps",
      "",
      "Options:",
      "      --file <FILE>  Read records from a file with one JSON map per line",
      "  -h, --help         Print help"]
  | query => ofLines [
      "Run a query on the hub",
      "",
      "Usage: lq query [OPTIONS] <QUERY>",
      "",
      "Arguments:",
      "  <QUERY>  The query as JSON",
      "",
      "Options:",
      "      --json  Print the raw response instead of a table",
      "  -h, --help  Print help"]
  | validate => ofLines [
      "Validate a query without running it",
      "",
      "Usage: lq validate <QUERY>",
      "",
      "Arguments:",
      "  <QUERY>  ",
      "",
      "Options:",
      "  -h, --help  Print help"]
  | status => ofLines [
      "Report hub status",
      "",
      "Usage: lq status",
      "",
      "Options:",
      "  -h, --help  Print help"]
  | scan => ofLines [
      "Run a query directly against a journal file",
      "",
      "Usage: lq scan [OPTIONS] <QUERY>",
      "",
      "Arguments:",
      "  <QUERY>  The query as JSON",
      "",
      "Options:",
      "      --journal <JOURNAL>  Path to the journal file [default: logs.journal]",
      "      --json               Print the raw result instead of a table",
      "  -h, --help               Print help"]
  | hub => ofLines [
      "Launch the hub",
      "",
      "Usage: lq hub [OPTIONS]",
      "",
      "Options:",
      "      --journal <JOURNAL>  Path to the journal file [default: logs.journal]",
      "      --memory             Keep records in memory only",
      "      --bind <BIND>        Server bind address [default: 127.0.0.1:3000]",
      "  -h, --help               Print help"]
  | help => ofLines [
      "Print this message or the help of the given subcommand(s)",
      "",
      "Usage: lq help [COMMAND]...",
      "",
      "Arguments:",
      "  [COMMAND]...  Print help for the subcommand(s)"]

/-- What is said when the arguments fit no use of the program. -/
def misuse : String :=
  ofLines ["error: the arguments cannot be understood", "", "For more information, try '--help'."]

end Logbook.Client
