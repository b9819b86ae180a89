import ReqlDriver.Datum.Basic
import ReqlDriver.Query.Opcode

namespace ReqlDriver

inductive Term
  | node (op : Opcode) (args : List Term) (options : List (String × Term)) (literal : Option Datum)

namespace Term

def op : Term → Opcode
  | node op _ _ _ => op

def args : Term → List Term
  | node _ args _ _ => args

def options : Term → List (String × Term)
  | node _ _ options _ => options

def literal? : Term → Option Datum
  | node _ _ _ literal => literal

def new (op : Opcode) : Term := node op [] [] none

def datum (d : Datum) : Term := node .datum [] [] (some d)

instance : Inhabited Term := ⟨datum .null⟩

def text (s : String) : Term := datum (.string s)

def array (items : List Term) : Term := node .makeArray items [] none

def record (fields : List (String × Term)) : Term := node .makeObj [] (Entries.ofList fields) none

def apply (op : Opcode) (args : List Term) : Term := node op args [] none

def withArgs (t : Term) (added : List Term) : Term :=
  node t.op (t.args ++ added) t.options t.literal?

def withOptions (t : Term) (added : List (String × Term)) : Term :=
  node t.op t.args (Entries.extend t.options added) t.literal?

def option? (t : Term) (name : String) : Option Term := Entries.get? t.options name

def isDatum (t : Term) : Bool := t.op == .datum

def db (name : String) : Term := apply .db [text name]

def var (id : Nat) : Term := apply .var [datum (.number (Binary64.ofNat id))]

def parameters (ids : List Nat) : Term :=
  array (ids.map fun id => datum (.number (Binary64.ofNat id)))

def function (ids : List Nat) (body : Term) : Term := apply .func [parameters ids, body]

def variableNumber (x : Binary64) : Nat :=
  (x.saturate Binary64.truncate Width.uint64).toNat

def variableNumber? (t : Term) : Option Nat :=
  (t.literal?.bind Datum.asNumber?).map variableNumber

def boundIds? (t : Term) : Option (List Nat) :=
  if t.op = .func then (t.args.head?).bind fun params => params.args.mapM variableNumber?
  else none

mutual

def eq : Term → Term → Bool
  | node o xs os c, node p ys ps d => o == p && eqArgs xs ys && eqOptions os ps && eqLiteral c d

def eqArgs : List Term → List Term → Bool
  | [], [] => true
  | x :: xs, y :: ys => eq x y && eqArgs xs ys
  | _, _ => false

def eqOptions : List (String × Term) → List (String × Term) → Bool
  | [], [] => true
  | (k, x) :: os, (l, y) :: ps => k == l && eq x y && eqOptions os ps
  | _, _ => false

def eqLiteral : Option Datum → Option Datum → Bool
  | none, none => true
  | some c, some d => c.eq d
  | _, _ => false

end

end Term

end ReqlDriver
