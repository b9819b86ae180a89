import ReqlDriver.Number.Decimal

/-!
The arguments of the command line. Commands form a tree; general options may stand at every level of
it, and of two occurrences the one further down counts, while a level may have each only once.
-/

namespace ReqlDriver.CommandLine

inductive Level
  | root
  | query
  | db
  | dbCreate
  | dbDrop
  | dbList
  | table
  | tableCreate
  | tableDrop
  | tableList
  | serverInfo
  | version
deriving DecidableEq, Repr

def Level.children : Level → List (String × Level)
  | root => [("query", query), ("db", db), ("table", table), ("server-info", serverInfo),
      ("version", version)]
  | db => [("create", dbCreate), ("drop", dbDrop), ("list", dbList)]
  | table => [("create", tableCreate), ("drop", tableDrop), ("list", tableList)]
  | _ => []

def Level.takesText : Level → Bool
  | query => true
  | dbCreate => true
  | dbDrop => true
  | tableCreate => true
  | tableDrop => true
  | _ => false

inductive Kind
  | flag
  | text
  | path
  | port
  | seconds
deriving DecidableEq, Repr

def general : List (String × Kind) :=
  [("config", .path), ("host", .text), ("port", .port), ("auth-key", .text), ("db", .text),
   ("timeout", .seconds), ("log-level", .text), ("log-dir", .path), ("no-color", .flag)]

def Level.own : Level → List (String × Kind)
  | query => [("noreply", .flag), ("durability", .text), ("profile", .flag)]
  | tableCreate => [("primary-key", .text)]
  | _ => []

def Level.kind? (l : Level) (name : String) : Option Kind := (l.own ++ general).lookup name

def port? (s : String) : Option UInt16 :=
  ((Integer.signed? s.toList).bind Width.uint16.keep?).map fun n => UInt16.ofNat n.toNat

def Kind.accepts : Kind → String → Bool
  | flag, _ => false
  | text, _ => true
  | path, s => s != ""
  | port, s => (port? s).isSome
  | seconds, s => (Integer.uint64? s).isSome

def pathVariables : List (String × String) :=
  [("config", "RETHINKDB_CONFIG"), ("log-dir", "RETHINKDB_LOG_DIR")]

inductive Request
  | command (level : Level) (text : Option String) (options : List (String × String))
  | help (level : Level)
  | version
deriving DecidableEq, Repr

/-- What a level has taken so far. A flag has an empty value. `pending` is an option with its value
that has not been looked at yet. -/
structure Seen where
  options : List (String × String) := []
  text : Option String := none
  pending : Option (Kind × String × String) := none

inductive Shape
  | rest
  | long (name : String) (value : Option String)
  | short (letters : List Char)
  | text (s : String)

def shapeOf (arg : String) : Shape :=
  match arg.toList with
  | ['-', '-'] => .rest
  | '-' :: '-' :: cs =>
    let name := String.ofList (cs.takeWhile (· != '='))
    match cs.dropWhile (· != '=') with
    | _ :: value => .long name (some (String.ofList value))
    | [] => .long name none
  | '-' :: c :: cs => .short (c :: cs)
  | _ => .text arg

def longName? : Char → Option String
  | 'p' => some "port"
  | _ => none

def isValue (arg : String) : Bool :=
  match shapeOf arg with
  | .text _ => true
  | _ => false

namespace Seen

def has (s : Seen) (name : String) : Bool := s.options.any fun o => o.1 == name

def enter (s : Seen) (name value : String) : Option Seen :=
  if s.has name then none else some { s with options := (name, value) :: s.options }

def give (s : Seen) (kind : Kind) (name value : String) : Option Seen :=
  if kind.accepts value then s.enter name value else none

def resolve (s : Seen) : Option Seen :=
  match s.pending with
  | none => some s
  | some (kind, name, value) => { s with pending := none }.give kind name value

def take (s : Seen) (l : Level) (text : String) : Option Seen :=
  s.resolve.bind fun s =>
    if l.takesText && s.text.isNone then some { s with text := some text } else none

def close (lookup : String → Option String) (s : Seen) : Option (List (String × String)) :=
  s.resolve.bind fun s =>
    if pathVariables.all fun v => s.has v.1 || lookup v.2 != some "" then some s.options else none

end Seen

def takeOption (l : Level) (s : Seen) (name : String) (value : Option String)
    (args : List String) : Option (Seen × List String) := do
  let s ← s.resolve
  match ← l.kind? name, value, args with
  | .flag, none, _ => (s.enter name "").map fun s => (s, args)
  | .flag, some _, _ => none
  | kind, some v, _ => (s.give kind name v).map fun s => (s, args)
  | kind, none, v :: args =>
    if isValue v then some ({ s with pending := some (kind, name, v) }, args) else none
  | _, none, [] => none

def takeShort (l : Level) (s : Seen) (letters : List Char) (args : List String) :
    Option (Seen × List String) := do
  match letters with
  | c :: cs =>
    let name ← longName? c
    match cs with
    | [] => takeOption l s name none args
    | '=' :: value => takeOption l s name (some (String.ofList value)) args
    | value => takeOption l s name (some (String.ofList value)) args
  | [] => none

def finish (lookup : String → Option String) (l : Level) (s : Seen) : Option Request :=
  (s.close lookup).bind fun options =>
    if !l.children.isEmpty || (l.takesText && s.text.isNone) then none
    else some (.command l s.text options)

def Request.within (lookup : String → Option String) (s : Seen) : Request → Option Request
  | command l text options => (s.close lookup).map fun outer => command l text (options ++ outer)
  | r => some r

def Level.descend? (l : Level) : List String → Option Level
  | [] => some l
  | word :: r => match l.children.lookup word with
    | some child => child.descend? r
    | none => if word = "help" ∧ l.children ≠ [] ∧ r = [] then some l else none

def parseTexts (lookup : String → Option String) (l : Level) (s : Seen) :
    List String → Option Request
  | [] => finish lookup l s
  | arg :: r => (s.take l arg).bind fun s => parseTexts lookup l s r

def parseLevel (lookup : String → Option String) :
    Nat → Level → Seen → List String → Option Request
  | _, l, s, [] => finish lookup l s
  | 0, _, _, _ :: _ => none
  | n + 1, l, s, arg :: r => match shapeOf arg with
    | .rest => parseTexts lookup l s r
    | .long "help" none => s.resolve.map fun _ => .help l
    | .long name value =>
      if l = .root ∧ name = "version" ∧ value = none then s.resolve.map fun _ => .version
      else (takeOption l s name value r).bind fun (s, r) => parseLevel lookup n l s r
    | .short ('h' :: _) => s.resolve.map fun _ => .help l
    | .short letters =>
      if l = .root ∧ letters.head? = some 'V' then s.resolve.map fun _ => .version
      else (takeShort l s letters r).bind fun (s, r) => parseLevel lookup n l s r
    | .text word =>
      if l.children.isEmpty then (s.take l word).bind fun s => parseLevel lookup n l s r
      else match l.children.lookup word with
        | some child => (parseLevel lookup n child {} r).bind (Request.within lookup s)
        | none => if word = "help" then (l.descend? r).map .help else none

def parse (lookup : String → Option String) (args : List String) : Option Request :=
  parseLevel lookup args.length .root {} args

end ReqlDriver.CommandLine
