import ReqlDriver.Datum.Timestamp
import ReqlDriver.Number.Layout
import ReqlDriver.Time.Rfc3339

namespace ReqlDriver

def Timestamp.display (t : Timestamp) : String :=
  match t.toMoment? with
  | some m => "TIME(" ++ Rfc3339.write false m ++ ")"
  | none => "TIME(" ++ t.seconds.text ++ " " ++ t.zone ++ ")"

namespace Datum

mutual

def display : Datum → String
  | null => "null"
  | boolean b => if b then "true" else "false"
  | number x => x.text
  | string s => "\"" ++ s ++ "\""
  | array items => "[" ++ ", ".intercalate (displayItems items) ++ "]"
  | object fields => "\x7b" ++ ", ".intercalate (displayFields fields) ++ "\x7d"
  | time t => t.display
  | binary bytes => "BINARY(" ++ toString bytes.length ++ " bytes)"
  | grouped groups => "GROUPED(" ++ ", ".intercalate (displayGroups groups) ++ ")"

def displayItems : List Datum → List String
  | [] => []
  | d :: r => display d :: displayItems r

def displayFields : List (String × Datum) → List String
  | [] => []
  | (k, d) :: r => ("\"" ++ k ++ "\": " ++ display d) :: displayFields r

def displayGroups : List (Datum × Datum) → List String
  | [] => []
  | (g, d) :: r => (display g ++ " => " ++ display d) :: displayGroups r

end

end Datum

end ReqlDriver
