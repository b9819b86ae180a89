import ReqlDriver.Datum.Display
import ReqlDriver.Query.Term

namespace ReqlDriver.Term

def pad (indent : Nat) : String := String.ofList (List.replicate (2 * indent) ' ')

def literalText : Option Datum → String
  | none => ""
  | some d => d.display

def argumentBlock (indent : Nat) : List String → String
  | [] => ""
  | lines => "\n" ++ ",\n".intercalate lines ++ "\n" ++ pad indent

def optionBlock (indent : Nat) : List String → String
  | [] => ""
  | lines => " \x7b" ++ String.join lines ++ "\n" ++ pad indent ++ "\x7d"

mutual

def outlineAt (indent : Nat) : Term → String
  | node op args options literal =>
    op.name ++ "(" ++ literalText literal ++
      argumentBlock indent (argumentLines (indent + 1) args) ++
      optionBlock indent (optionLines indent options) ++ ")"

def argumentLines (indent : Nat) : List Term → List String
  | [] => []
  | t :: r => (pad indent ++ outlineAt indent t) :: argumentLines indent r

def optionLines (indent : Nat) : List (String × Term) → List String
  | [] => []
  | (k, t) :: r =>
    ("\n" ++ pad (indent + 1) ++ k ++ ": " ++ outlineAt (indent + 2) t) :: optionLines indent r

end

def outline (indent : Nat) (t : Term) : String := pad indent ++ outlineAt indent t

end ReqlDriver.Term
