import ReqlDriver.Entries
import ReqlDriver.Number.Binary64

namespace ReqlDriver

inductive Json
  | null
  | bool (b : Bool)
  | int (n : Int)
  | float (x : Binary64)
  | string (s : String)
  | array (items : List Json)
  | object (entries : List (String × Json))

namespace Json

instance : Inhabited Json := ⟨null⟩

def ofEntries (entries : List (String × Json)) : Json := object (Entries.ofList entries)

def asString? : Json → Option String
  | string s => some s
  | _ => none

def asArray? : Json → Option (List Json)
  | array items => some items
  | _ => none

def asObject? : Json → Option (List (String × Json))
  | object entries => some entries
  | _ => none

def asNat? : Json → Option Nat
  | int (.ofNat n) => some n
  | _ => none

def asFloat? : Json → Option Binary64
  | int n => some (Binary64.ofInt n)
  | float x => some x
  | _ => none

def ofFloat (x : Binary64) : Json := if x.isFinite then float x else null

mutual

def eq : Json → Json → Bool
  | null, null => true
  | bool a, bool b => a == b
  | int m, int n => m == n
  | float x, float y => x.eq y
  | string s, string t => s == t
  | array xs, array ys => eqItems xs ys
  | object es, object fs => eqEntries es fs
  | _, _ => false

def eqItems : List Json → List Json → Bool
  | [], [] => true
  | x :: xs, y :: ys => eq x y && eqItems xs ys
  | _, _ => false

def eqEntries : List (String × Json) → List (String × Json) → Bool
  | [], [] => true
  | (k, x) :: es, (l, y) :: fs => k == l && eq x y && eqEntries es fs
  | _, _ => false

end

mutual

def Sorted : Json → Prop
  | array items => SortedItems items
  | object entries => Entries.Sorted entries ∧ SortedEntries entries
  | _ => True

def SortedItems : List Json → Prop
  | [] => True
  | v :: r => Sorted v ∧ SortedItems r

def SortedEntries : List (String × Json) → Prop
  | [] => True
  | (_, v) :: r => Sorted v ∧ SortedEntries r

end

end Json

end ReqlDriver
