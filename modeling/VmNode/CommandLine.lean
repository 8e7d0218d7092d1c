import VmNode.Config.Json
import VmNode.Http.Listen
import VmNode.Json.Printer
import VmNode.Text.Hidden

/-!
# The command line

The program prints its default configuration or serves the node's interface. A
command line is read into a `Command`; running it on a host, of which it is known
what reading a path answers, gives what is printed and the exit code.
-/

namespace VmNode.CommandLine

/-- The name of the program. -/
def program : String := "fcnode"

/-- The version of the program. -/
def version : String := "0.1.0"

/-- What a command line asks for. -/
inductive Command where
  /-- Serve the interface, by a configuration file and on an endpoint if given. -/
  | serve (config : Option String) (listen : Option Endpoint)
  /-- Print the default configuration. -/
  | config
  /-- Print the version. -/
  | version
  /-- Print how the program is called. -/
  | help (text : String)

/-- What running the program leaves behind. -/
structure Outcome where
  /-- The exit code. -/
  code : Nat
  /-- The standard output. -/
  stdout : String
  /-- The standard error. -/
  stderr : String

/-! ### Help -/

/-- How the program is called. -/
def mainHelp : String :=
  "Single-host Firecracker microVM orchestrator\n\nUsage: fcnode <COMMAND>\n\nCommands:\n" ++
  "  serve   Start the HTTP API server\n  config  Print the default configuration\n" ++
  "  help    Print this message or the help of the given subcommand(s)\n\nOptions:\n" ++
  "  -h, --help     Print help\n  -V, --version  Print version\n"

/-- How the server is called. -/
def serveHelp : String :=
  "Start the HTTP API server\n\nUsage: fcnode serve [OPTIONS]\n\nOptions:\n" ++
  "  -c, --config <CONFIG>  Node configuration file (JSON)\n" ++
  "  -l, --listen <LISTEN>  Override the configured listen address\n" ++
  "  -h, --help             Print help\n"

/-- How the default configuration is asked for. -/
def configHelp : String :=
  "Print the default configuration\n\nUsage: fcnode config\n\nOptions:\n  -h, --help  Print help\n"

/-! ### Reading -/

/-- An option that takes a value. -/
inductive Setting where
  | config
  | listen

/-- The option of a long name. -/
def longSetting? (name : String) : Option Setting :=
  match name with
  | "config" => some .config
  | "listen" => some .listen
  | _ => none

/-- The option of a letter. -/
def shortSetting? (letter : Char) : Option Setting :=
  if letter = 'c' then some .config else if letter = 'l' then some .listen else none

/-- Sets an option, once and to a value that it takes. -/
def set (config : Option String) (listen : Option Endpoint) (setting : Setting) (value : String) :
    Option (Option String × Option Endpoint) :=
  match setting with
  | .config => if config.isSome ∨ value = "" then none else some (some value, listen)
  | .listen =>
    if listen.isSome then none else (Endpoint.ofText? value).map fun e => (config, some e)

/-- The name and the value, if one is given, of a long option. -/
def splitLong (s : List Char) : String × Option String :=
  match s.span (· != '=') with
  | (name, []) => (String.ofList name, none)
  | (name, _ :: value) => (String.ofList name, some (String.ofList value))

/-- A word that can be the value of an option: not itself an option. -/
def isValue (word : String) : Bool := word == "-" || word.toList.head? != some '-'

/-- The arguments of the server. -/
def readServe (config : Option String) (listen : Option Endpoint) : List String → Option Command
  | [] => some (.serve config listen)
  | word :: rest =>
    match word.toList with
    | '-' :: '-' :: long =>
      if long = [] then if rest.isEmpty then some (.serve config listen) else none
      else if word = "--help" then some (.help serveHelp)
      else
        let (name, value) := splitLong long
        match longSetting? name, value, rest with
        | some setting, some value, rest =>
          (set config listen setting value).bind fun (c, l) => readServe c l rest
        | some setting, none, value :: rest =>
          if isValue value then
            (set config listen setting value).bind fun (c, l) => readServe c l rest
          else none
        | _, _, _ => none
    | '-' :: 'h' :: _ => some (.help serveHelp)
    | '-' :: letter :: attached =>
      match shortSetting? letter, attached, rest with
      | some setting, [], value :: rest =>
        if isValue value then
          (set config listen setting value).bind fun (c, l) => readServe c l rest
        else none
      | some _, [], [] => none
      | some setting, '=' :: value, rest =>
        (set config listen setting (String.ofList value)).bind fun (c, l) => readServe c l rest
      | some setting, value, rest =>
        (set config listen setting (String.ofList value)).bind fun (c, l) => readServe c l rest
      | none, _, _ => none
    | _ => none

/-- The arguments of a command without options. -/
def readConfig : List String → Option Command
  | [] => some .config
  | ["--"] => some .config
  | word :: _ =>
    if word = "--help" ∨ word.toList.take 2 = ['-', 'h'] then some (.help configHelp) else none

/-- The help that is asked for by name. -/
def readHelp : List String → Option Command
  | [] => some (.help mainHelp)
  | ["serve"] => some (.help serveHelp)
  | ["config"] => some (.help configHelp)
  | ["help"] => some (.help mainHelp)
  | _ => none

/-- What a command line asks for, if it can be understood. -/
def read : List String → Option Command
  | [] => none
  | word :: rest =>
    match word with
    | "serve" => readServe none none rest
    | "config" => readConfig rest
    | "help" => readHelp rest
    | "--version" => some .version
    | "--help" => some (.help mainHelp)
    | _ =>
      match word.toList with
      | '-' :: 'V' :: _ => some .version
      | '-' :: 'h' :: _ => some (.help mainHelp)
      | _ => none

/-! ### Running -/

/-- A character between quotes in a report. -/
def quoteChar (c : Char) : List Char :=
  if c = '"' then ['\\', '"']
  else if c = '\\' then ['\\', '\\']
  else if c = '\n' then ['\\', 'n']
  else if c = '\r' then ['\\', 'r']
  else if c = '\t' then ['\\', 't']
  else if c.toNat = 0 then ['\\', '0']
  else if Text.isHidden c then
    ['\\', 'u', '\x7b'] ++ Nat.toDigits 16 c.toNat ++ ['\x7d']
  else [c]

/-- A text between quotes in a report. -/
def quote (s : String) : String := String.ofList ('"' :: s.toList.flatMap quoteChar ++ ['"'])

/-- What is printed of an error that ends the program. -/
def report : Error → String
  | .config why => s!"Error: Config({quote why})"
  | .other why => s!"Error: Other({quote why})"
  | .json => "Error: Json"
  | e => "Error: " ++ e.message

/-- What the server prints before it listens. -/
def banner (listen : Endpoint) : String :=
  s!"Starting API server on http://{listen.text}\n\nEndpoints:\n" ++
  "  GET    /health                            Health check\n" ++
  "  POST   /api/v1/instances                  Provision instance\n" ++
  "  GET    /api/v1/instances                  List instances\n" ++
  "  GET    /api/v1/instances/:id              Instance detail\n" ++
  "  DELETE /api/v1/instances/:id              Deprovision instance\n" ++
  "  GET    /api/v1/instances/:id/logs         Buffered logs\n" ++
  "  GET    /api/v1/instances/:id/logs/stream  Live logs (SSE)\n" ++
  "  POST   /api/v1/instances/:id/ports        Publish service port\n" ++
  "  POST   /api/v1/drain                      Deprovision everything\n\n"

/-- What reading a path of the host answers. -/
abbrev Reader := String → Except OsError (List UInt8)

/-- The settings of a server. -/
def serverConfig (files : Reader) (config : Option String) (listen : Option Endpoint) :
    Except Error NodeConfig := do
  let c ← match config with
    | some path => NodeConfig.load files path
    | none => .ok {}
  let c := match listen with
    | some e => c.withListen e
    | none => c
  c.validate
  return c

/-- What running a command leaves behind, if a server that listens is asked to
    stop with no instances left. -/
def run (files : Reader) : Option Command → Outcome
  | none => ⟨2, "", ""⟩
  | some .version => ⟨0, s!"{program} {version}\n", ""⟩
  | some (.help text) => ⟨0, text, ""⟩
  | some .config => ⟨0, ({} : NodeConfig).toJson.pretty ++ "\n", ""⟩
  | some (.serve config listen) =>
    match serverConfig files config listen with
    | .error e => ⟨1, "", report e⟩
    | .ok c =>
      match Listen.outcome c.listen with
      | .error e => ⟨1, banner c.listen, report (.other e.text)⟩
      | .ok () => ⟨0, banner c.listen, ""⟩

end VmNode.CommandLine
