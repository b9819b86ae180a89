import ReqlDriver.CommandLine.Arguments
import ReqlDriver.Protocol.Query
import ReqlDriver.Settings.Basic

namespace ReqlDriver.CommandLine

def versionText : String := "reql 0.1.0"

inductive Command
  | query (term : String) (options : Options)
  | build (t : Term)
  | serverInfo
  | version

structure Invocation where
  command : Command
  file : Option String
  logDir : Option String
  layer : Settings.Layer
  timeout : UInt64

def createTable (name : String) (primaryKey : Option String) : Term :=
  (Term.apply .tableCreate [Term.text name]).withOptions
    (primaryKey.toList.map fun key => ("primary_key", Term.text key))

def queryOptions (option? : String → Option String) : Options where
  noreply := (option? "noreply").isSome
  durability := option? "durability"
  profile := (option? "profile").isSome

def commandOf? (l : Level) (text : Option String) (option? : String → Option String) :
    Option Command :=
  match l, text with
  | .query, some term => some (.query term (queryOptions option?))
  | .dbCreate, some name => some (.build (Term.apply .dbCreate [Term.text name]))
  | .dbDrop, some name => some (.build (Term.apply .dbDrop [Term.text name]))
  | .dbList, _ => some (.build (Term.new .dbList))
  | .tableCreate, some name => some (.build (createTable name (option? "primary-key")))
  | .tableDrop, some name => some (.build (Term.apply .tableDrop [Term.text name]))
  | .tableList, _ => some (.build (Term.new .tableList))
  | .serverInfo, _ => some .serverInfo
  | .version, _ => some .version
  | _, _ => none

def path? (option? lookup : String → Option String) (name : String) : Option String :=
  (option? name).or ((pathVariables.lookup name).bind lookup)

def defaultTimeout : UInt64 := 20

def invocation? (l : Level) (text : Option String) (options : List (String × String))
    (lookup : String → Option String) : Option Invocation := do
  let option? name := options.lookup name
  let command ← commandOf? l text option?
  some
    { command
      file := path? option? lookup "config"
      logDir := path? option? lookup "log-dir"
      layer :=
        { host := option? "host"
          port := (option? "port").bind port?
          authKey := option? "auth-key"
          db := option? "db" }
      timeout := ((option? "timeout").bind Integer.uint64?).getD defaultTimeout }

def Invocation.settings (i : Invocation) (file : Option Settings)
    (lookup : String → Option String) : Except Error Settings :=
  ((file.getD {}).withEnvironment lookup).map fun s =>
    (s.overlay i.layer).withTimeout (i.timeout.toNat * 1000000)

inductive Start
  | refused
  | help (level : Level)
  | version
  | run (i : Invocation)

def start (lookup : String → Option String) (args : List String) : Start :=
  match parse lookup args with
  | none => .refused
  | some (.help l) => .help l
  | some .version => .version
  | some (.command l text options) => match invocation? l text options lookup with
    | none => .refused
    | some i => .run i

end ReqlDriver.CommandLine
