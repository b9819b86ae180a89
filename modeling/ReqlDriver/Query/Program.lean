import ReqlDriver.Error
import ReqlDriver.Query.Term

/-!
Programs that build terms.

A program says in which order terms are made and where functions are written in place. Whenever a
function is, its parameters get the next numbers that no variable has had yet, and only then is
its body built, so that functions within each other never share a variable.
-/

namespace ReqlDriver

/-- `made` is a term that stands ready, or the error of making it. `applied` is an operation on
some operands and on a function of so many variables, which comes first or last; the names stand
for the variables in its body. -/
inductive Program
  | made (result : Except Error Term)
  | parameter (name : String)
  | operation (op : Opcode) (operands : List Program)
  | applied (op : Opcode) (operands : List Program) (first : Bool) (arity : Nat)
      (names : List String) (body : Program)
  | function (names : List String) (body : Program)
  | record (fields : List (String × Program))
  | extended (base : Program) (args : List Program) (options : List (String × Program))
  | argument (of : Program) (index : Nat)
  | option (of : Program) (name : String)

namespace Program

inductive Failure
  | error (e : Error)
  | unbound (name : String)
  | absent

abbrev Scope := List (String × Nat)

def fresh (next arity : Nat) : List Nat := List.range' next arity

def Scope.enter (scope : Scope) (names : List String) (ids : List Nat) : Scope :=
  (names.zip ids).reverse ++ scope

def place {α : Type} (first : Bool) (function : α) (operands : List α) : List α :=
  if first then function :: operands else operands ++ [function]

mutual

/-- The term of a program, where `next` is the first number that no variable has had. Gives the
next such number along with it. -/
def build (scope : Scope) (next : Nat) : Program → Except Failure (Term × Nat)
  | made (.ok t) => .ok (t, next)
  | made (.error e) => .error (.error e)
  | parameter name => match scope.lookup name with
    | some id => .ok (Term.var id, next)
    | none => .error (.unbound name)
  | operation op operands => do
    let (args, next) ← buildAll scope next operands
    .ok (Term.apply op args, next)
  | applied op operands first arity names body => do
    let (args, next) ← buildAll scope next operands
    let ids := fresh next arity
    let (body, next) ← build (scope.enter names ids) (next + arity) body
    .ok (Term.apply op (place first (Term.function ids body) args), next)
  | function names body => do
    let ids := fresh next names.length
    let (body, next) ← build (scope.enter names ids) (next + names.length) body
    .ok (Term.function ids body, next)
  | record fields => do
    let (fields, next) ← buildFields scope next fields
    .ok (Term.record fields, next)
  | extended base args options => do
    let (base, next) ← build scope next base
    let (args, next) ← buildAll scope next args
    let (options, next) ← buildFields scope next options
    .ok ((base.withArgs args).withOptions options, next)
  | argument of index => do
    let (t, next) ← build scope next of
    match t.args[index]? with
    | some arg => .ok (arg, next)
    | none => .error .absent
  | option of name => do
    let (t, next) ← build scope next of
    match t.option? name with
    | some value => .ok (value, next)
    | none => .error .absent

def buildAll (scope : Scope) (next : Nat) : List Program → Except Failure (List Term × Nat)
  | [] => .ok ([], next)
  | p :: r => do
    let (t, next) ← build scope next p
    let (ts, next) ← buildAll scope next r
    .ok (t :: ts, next)

def buildFields (scope : Scope) (next : Nat) :
    List (String × Program) → Except Failure (List (String × Term) × Nat)
  | [] => .ok ([], next)
  | (k, p) :: r => do
    let (t, next) ← build scope next p
    let (ts, next) ← buildFields scope next r
    .ok ((k, t) :: ts, next)

end

def term (t : Term) : Program := made (.ok t)

def text (s : String) : Program := term (Term.text s)

end Program

end ReqlDriver
