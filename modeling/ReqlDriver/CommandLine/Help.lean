import ReqlDriver.CommandLine.Arguments

namespace ReqlDriver.CommandLine

def Level.about : Level → String
  | root => "Run ReQL queries against a RethinkDB server"
  | query => "Run a query given as its wire JSON term"
  | db => "Database operations"
  | dbCreate => "Create a new database"
  | dbDrop => "Drop a database"
  | dbList => "List all databases"
  | table => "Table operations"
  | tableCreate => "Create a new table"
  | tableDrop => "Drop a table"
  | tableList => "List tables"
  | serverInfo => "Show server information"
  | version => "Show client version"

def Level.words : Level → List String
  | root => ["reql"]
  | query => ["reql", "query"]
  | db => ["reql", "db"]
  | dbCreate => ["reql", "db", "create"]
  | dbDrop => ["reql", "db", "drop"]
  | dbList => ["reql", "db", "list"]
  | table => ["reql", "table"]
  | tableCreate => ["reql", "table", "create"]
  | tableDrop => ["reql", "table", "drop"]
  | tableList => ["reql", "table", "list"]
  | serverInfo => ["reql", "server-info"]
  | version => ["reql", "version"]

def Level.argument? : Level → Option (String × String)
  | query => some ("<TERM>", "Term JSON, e.g. '[15,[\"users\"]]'")
  | dbCreate => some ("<NAME>", "Database name")
  | dbDrop => some ("<NAME>", "Database name")
  | tableCreate => some ("<NAME>", "Table name")
  | tableDrop => some ("<NAME>", "Table name")
  | _ => none

def optionAbout : String → String
  | "noreply" => "Do not wait for a response"
  | "durability" => "Write durability (hard or soft)"
  | "profile" => "Ask the server for a query profile"
  | "primary-key" => "Primary key field (default: \"id\")"
  | "config" => "TOML file with connection settings; flags override it [env: RETHINKDB_CONFIG]"
  | "host" => "Server host [env: RETHINKDB_HOST]"
  | "port" => "Server driver port [env: RETHINKDB_PORT]"
  | "auth-key" => "Authentication key [env: RETHINKDB_AUTH_KEY]"
  | "db" => "Default database [env: RETHINKDB_DB]"
  | "timeout" => "Connect and handshake timeout in seconds [default: 20]"
  | "log-level" => "Log level (trace, debug, info, warn, error) [default: warn]"
  | "log-dir" => "Also write logs to daily files in this directory [env: RETHINKDB_LOG_DIR]"
  | "no-color" => "Disable colored output"
  | _ => ""

def placeholder (name : String) : String :=
  String.ofList (name.toList.map fun c => if c = '-' then '_' else c.toUpper)

def optionLine (name : String) (kind : Kind) : String × String :=
  let short := if longName? 'p' = some name then "-p, " else "    "
  let value := if kind = .flag then "" else " <" ++ placeholder name ++ ">"
  (short ++ "--" ++ name ++ value, optionAbout name)

def Level.optionLines (l : Level) : List (String × String) :=
  (l.own ++ general).map (fun o => optionLine o.1 o.2) ++
    [("-h, --help", "Print help")] ++
    (if l = root then [("-V, --version", "Print version")] else [])

def Level.commandLines (l : Level) : List (String × String) :=
  if l.children.isEmpty then []
  else l.children.map (fun c => (c.1, c.2.about)) ++
    [("help", "Print this message or the help of the given subcommand(s)")]

def columns (lines : List (String × String)) : List String :=
  let width := lines.foldl (fun n line => max n line.1.length) 0
  lines.map fun (left, right) =>
    "  " ++ left ++ String.ofList (List.replicate (width - left.length + 2) ' ') ++ right

def block (title : String) (lines : List (String × String)) : List String :=
  if lines.isEmpty then [] else ["", title ++ ":"] ++ columns lines

def Level.usage (l : Level) : String :=
  "Usage: " ++ " ".intercalate
    (l.words ++ ["[OPTIONS]"] ++ (l.argument?.toList.map fun a => a.1) ++
      (if l.children.isEmpty then [] else ["<COMMAND>"]))

def Level.help (l : Level) : List String :=
  [l.about, "", l.usage] ++ block "Commands" l.commandLines ++
    block "Arguments" l.argument?.toList ++ block "Options" l.optionLines

end ReqlDriver.CommandLine
