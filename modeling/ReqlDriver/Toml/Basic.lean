import ReqlDriver.Entries
import ReqlDriver.Number.Binary64

/-!
TOML values, and how tables grow: by dotted keys, by the headers of tables, and by the headers of
the elements of arrays of tables.

Nothing is ever defined twice. A table that only a longer header or a dotted key has brought about
may be added to in the same way, while one that stands between braces is complete.
-/

namespace ReqlDriver

inductive Toml.Origin
  | implied
  | dotted
  | header
  | braces
deriving DecidableEq, Repr

/-- Times are recognised but have no use here, so no value is kept of them. The elements of an
array of tables are kept with the last one first. -/
inductive Toml
  | string (s : String)
  | integer (n : Int)
  | float (x : Binary64)
  | boolean (b : Bool)
  | time
  | array (items : List Toml)
  | table (origin : Toml.Origin) (entries : List (String × Toml))
  | tables (elements : List (List (String × Toml)))

namespace Toml

abbrev Table := List (String × Toml)

/-- Puts a value under a dotted key, unless there is one. Tables that a header has brought about
cannot get entries in this way, but tables within them can. -/
def put (value : Toml) : List String → Table → Option Table
  | [], _ => none
  | [key], t => if Entries.contains t key then none else some (Entries.insert key value t)
  | key :: more, t => match Entries.get? t key with
    | none => (put value more []).map fun inner => Entries.insert key (table .dotted inner) t
    | some (table .dotted inner) =>
      (put value more inner).map fun inner => Entries.insert key (table .dotted inner) t
    | some (table .implied inner) =>
      if more.length = 1 then none
      else (put value more inner).map fun inner => Entries.insert key (table .implied inner) t
    | some (tables (last :: before)) =>
      if more.length = 1 then none
      else (put value more last).map fun last => Entries.insert key (tables (last :: before)) t
    | some _ => none

def descend (change : Table → Option Table) : List String → Table → Option Table
  | [], t => change t
  | key :: more, t => match Entries.get? t key with
    | none =>
      (descend change more []).map fun inner => Entries.insert key (table .implied inner) t
    | some (table .braces _) => none
    | some (table origin inner) =>
      (descend change more inner).map fun inner => Entries.insert key (table origin inner) t
    | some (tables (last :: before)) =>
      (descend change more last).map fun last => Entries.insert key (tables (last :: before)) t
    | some _ => none

abbrev Pair := List String × Toml

def putAll (pairs : List Pair) (t : Table) : Option Table :=
  pairs.foldlM (fun t p => put p.2 p.1 t) t

def openTable (key : String) (pairs : List Pair) (t : Table) : Option Table :=
  match Entries.get? t key with
  | none => (putAll pairs []).map fun inner => Entries.insert key (table .header inner) t
  | some (table .implied inner) =>
    (putAll pairs inner).map fun inner => Entries.insert key (table .header inner) t
  | some _ => none

def openElement (key : String) (pairs : List Pair) (t : Table) : Option Table :=
  match Entries.get? t key with
  | none => (putAll pairs []).map fun inner => Entries.insert key (tables [inner]) t
  | some (tables elements) =>
    (putAll pairs []).map fun inner => Entries.insert key (tables (inner :: elements)) t
  | some _ => none

structure Section where
  element : Bool
  path : List String
  pairs : List Pair

def Section.add (s : Section) (t : Table) : Option Table :=
  match s.path.getLast? with
  | none => none
  | some key =>
    descend (if s.element then openElement key s.pairs else openTable key s.pairs)
      s.path.dropLast t

def ofSections? (pairs : List Pair) (sections : List Section) : Option Table :=
  (putAll pairs []).bind fun t => sections.foldlM (fun t s => s.add t) t

end Toml

end ReqlDriver
