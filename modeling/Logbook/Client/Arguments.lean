/-!
# Arguments

What the words behind the name of the program ask for.  The words are taken one by one: the first
that asks for help gets it, and the first that fits nowhere ends the reading, so what comes first
decides between the two.

* `Command`: what the program can do.
* `Word`, `Form`, `Form.read`: the words of one command, by the form of the command.
* `Arguments.parse`: all words.
-/

namespace Logbook.Client

/-- What the program is asked to do. -/
inductive Command where
  /-- Sends records, given on the spot or in a file with one of them on each line. -/
  | ingest (records file : Option String)
  /-- Runs a query on the hub. -/
  | query (query : String) (json : Bool)
  /-- Has a query checked by the hub. -/
  | validate (query : String)
  /-- Asks how the hub is. -/
  | status
  /-- Runs a query on a journal. -/
  | scan (journal query : String) (json : Bool)
  /-- Launches a hub. -/
  | hub (journal : String) (memory : Bool) (bind : String)
deriving DecidableEq, Repr

/-- What help can be about. -/
inductive Topic where
  | program
  | ingest
  | query
  | validate
  | status
  | scan
  | hub
  | help
deriving DecidableEq, Repr

/-- What the arguments ask for. -/
inductive Request where
  | run (command : Command)
  | help (topic : Topic)
  | version
  /-- The arguments fit no use of the program. -/
  | misuse
deriving DecidableEq, Repr

/-! ## Words -/

/-- A word of the arguments. -/
inductive Word where
  /-- A word that stands for itself; a single dash is one. -/
  | plain (text : String)
  /-- The name of an option, with what stands behind its equals sign. -/
  | long (name : String) (value : Option String)
  /-- Options of one letter; the first letter. -/
  | short (letter : Char)
  /-- Behind two dashes every word is plain. -/
  | dashes
deriving DecidableEq, Repr

/-- The kind of a word. -/
def Word.ofString (text : String) : Word :=
  match text.toList with
  | ['-', '-'] => dashes
  | '-' :: '-' :: rest =>
    let name := String.ofList (rest.takeWhile (· != '='))
    match rest.dropWhile (· != '=') with
    | [] => long name none
    | _ :: value => long name (some (String.ofList value))
  | '-' :: letter :: _ => short letter
  | _ => plain text

/-! ## Forms -/

/-- An option with a value. -/
structure OptionForm where
  name : String
  mayBeEmpty : Bool

/-- What may follow the name of a command. -/
structure Form where
  options : List OptionForm
  flags : List String
  /-- The number of plain words at most. -/
  places : Nat

/-- What follows the name of a command. -/
structure Given where
  options : List (String × String)
  flags : List String
  plain : List String

namespace Given

/-- The value of an option. -/
def option? (given : Given) (name : String) : Option String :=
  (given.options.find? fun o => o.1 = name).map (·.2)

/-- Holds when a flag is given. -/
def has (given : Given) (name : String) : Bool := given.flags.contains name

end Given

/-- Why the reading of arguments ends early. -/
inductive Stop where
  | help
  | misuse

namespace Form

/-- Adds a plain word, if there is a place for it. -/
def addPlain (form : Form) (text : String) (given : Given) : Except Stop Given :=
  if given.plain.length < form.places then .ok { given with plain := given.plain ++ [text] }
  else .error .misuse

/-- Adds the value of an option, which may be given once. -/
def addOption (option : OptionForm) (value : String) (given : Given) : Except Stop Given :=
  if (given.option? option.name).isSome ∨ (value.isEmpty ∧ option.mayBeEmpty = false) then
    .error .misuse
  else
    .ok { given with options := given.options ++ [(option.name, value)] }

/-- Adds a flag, which may be given once. -/
def addFlag (name : String) (given : Given) : Except Stop Given :=
  if given.has name then .error .misuse else .ok { given with flags := given.flags ++ [name] }

/-- Reads the words that follow the name of a command. -/
def read (form : Form) (given : Given) : List String → Except Stop Given
  | [] => .ok given
  | text :: rest =>
    match Word.ofString text with
    | .plain text =>
      match form.addPlain text given with
      | .ok given => read form given rest
      | .error stop => .error stop
    | .dashes => rest.foldlM (fun given text => form.addPlain text given) given
    | .short letter => .error (if letter = 'h' then .help else .misuse)
    | .long name value =>
      match form.options.find? fun o => o.name = name, value, rest with
      | some option, some value, rest =>
        match addOption option value given with
        | .ok given => read form given rest
        | .error stop => .error stop
      | some option, none, value :: rest =>
        match Word.ofString value with
        | .plain value =>
          match addOption option value given with
          | .ok given => read form given rest
          | .error stop => .error stop
        | _ => .error .misuse
      | some _, none, [] => .error .misuse
      | none, some _, _ => .error .misuse
      | none, none, rest =>
        if name = "help" then .error .help
        else if form.flags.contains name then
          match addFlag name given with
          | .ok given => read form given rest
          | .error stop => .error stop
        else .error .misuse

end Form

/-! ## Commands -/

/-- The path of the journal, when none is given. -/
def defaultJournal : String := "logs.journal"

/-- The address that a hub listens at, when none is given. -/
def defaultBind : String := "127.0.0.1:3000"

/-- The journal option. -/
def journalOption : OptionForm := ⟨"journal", false⟩

/-- The topic of a name. -/
def Topic.ofName? : String → Option Topic
  | "ingest" => some ingest
  | "query" => some query
  | "validate" => some validate
  | "status" => some status
  | "scan" => some scan
  | "hub" => some hub
  | "help" => some help
  | _ => none

/-- The form of a command. -/
def Topic.form : Topic → Form
  | ingest => ⟨[⟨"file", false⟩], [], 1⟩
  | query => ⟨[], ["json"], 1⟩
  | validate => ⟨[], [], 1⟩
  | scan => ⟨[journalOption], ["json"], 1⟩
  | hub => ⟨[journalOption, ⟨"bind", true⟩], ["memory"], 0⟩
  | _ => ⟨[], [], 0⟩

/-- The command of a topic and what is given for it, unless something is missing or too much. -/
def Topic.command? (topic : Topic) (given : Given) : Option Command :=
  match topic, given.plain with
  | ingest, [] => some (.ingest none (given.option? "file"))
  | ingest, [records] =>
    if (given.option? "file").isSome then none else some (.ingest (some records) none)
  | query, [text] => some (.query text (given.has "json"))
  | validate, [text] => some (.validate text)
  | status, [] => some .status
  | scan, [text] =>
    some (.scan ((given.option? "journal").getD defaultJournal) text (given.has "json"))
  | hub, [] =>
    some (.hub ((given.option? "journal").getD defaultJournal) (given.has "memory")
      ((given.option? "bind").getD defaultBind))
  | _, _ => none

namespace Arguments

/-- Reads the words behind the command `help`. -/
def helpRequest : List String → Request
  | [] => .help .program
  | [name] =>
    match Topic.ofName? name with
    | some topic => .help topic
    | none => .misuse
  | _ => .misuse

/-- What the arguments of the program ask for. -/
def parse : List String → Request
  | [] => .misuse
  | name :: rest =>
    match Word.ofString name with
    | .short 'h' => .help .program
    | .short 'V' => .version
    | .long "help" none => .help .program
    | .long "version" none => .version
    | .plain name =>
      match Topic.ofName? name with
      | some .help => helpRequest rest
      | some topic =>
        match topic.form.read ⟨[], [], []⟩ rest with
        | .ok given =>
          match topic.command? given with
          | some command => .run command
          | none => .misuse
        | .error .help => .help topic
        | .error .misuse => .misuse
      | none => .misuse
    | _ => .misuse

end Arguments

end Logbook.Client
