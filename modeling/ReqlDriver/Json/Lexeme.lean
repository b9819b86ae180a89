import ReqlDriver.Number.Decimal

/-!
The lexemes of JSON text.

The text is read by a machine with one step for each character; what a character ends and what it
begins is decided by the machine's mode alone. Numerals and escapes are checked for their form
here, while their values are computed where a value is wanted.
-/

namespace ReqlDriver.Json

open Decimal

inductive Element
  | plain (c : Char)
  | code (n : Nat)
deriving DecidableEq, Repr

structure Numeral where
  negative : Bool
  whole : List Char
  fraction : List Char
  exponent : Option Int
deriving DecidableEq, Repr

inductive Literal
  | null
  | true
  | false
deriving DecidableEq, Repr

inductive Lexeme
  | openArray
  | closeArray
  | openObject
  | closeObject
  | comma
  | colon
  | literal (l : Literal)
  | numeral (n : Numeral)
  | text (elements : List Element)
deriving DecidableEq, Repr

def Literal.ofWord? (cs : List Char) : Option Literal :=
  if cs = "null".toList then some .null
  else if cs = "true".toList then some .true
  else if cs = "false".toList then some .false
  else none

namespace Numeral

def wholeOk (ds : List Char) : Bool :=
  match ds with
  | [] => false
  | '0' :: r => r.isEmpty
  | _ => true

def exponent? : List Char → Option (Option Int)
  | [] => some none
  | cs => (Decimal.exponent? cs).map some

def fraction? (negative : Bool) (whole : List Char) : List Char → Option Numeral
  | '.' :: r =>
    let (ds, r) := digits r
    if ds.isEmpty then none else (exponent? r).map fun e => ⟨negative, whole, ds, e⟩
  | r => (exponent? r).map fun e => ⟨negative, whole, [], e⟩

def ofChars? (cs : List Char) : Option Numeral :=
  let (negative, r) := match cs with
    | '-' :: r => (true, r)
    | r => (false, r)
  let (whole, r) := digits r
  if wholeOk whole then fraction? negative whole r else none

end Numeral

inductive Mode
  | between
  | word (seen : List Char)
  | numeral (seen : List Char)
  | text (seen : List Element)
  | escape (seen : List Element)
  | hex (seen : List Element) (left value : Nat)

def inNumeral (c : Char) : Bool :=
  c.isDigit || c == '-' || c == '+' || c == '.' || c == 'e' || c == 'E'

def isSpace (c : Char) : Bool := c == ' ' || c == '\t' || c == '\n' || c == '\r'

def begin? (c : Char) : Option (List Lexeme × Mode) :=
  match c with
  | '[' => some ([.openArray], .between)
  | ']' => some ([.closeArray], .between)
  | '\x7b' => some ([.openObject], .between)
  | '\x7d' => some ([.closeObject], .between)
  | ',' => some ([.comma], .between)
  | ':' => some ([.colon], .between)
  | '"' => some ([], .text [])
  | c =>
    if isSpace c then some ([], .between)
    else if c.isDigit || c == '-' then some ([], .numeral [c])
    else if c.isAlpha then some ([], .word [c])
    else none

def hexValue? (c : Char) : Option Nat :=
  if c.isDigit then some (digitValue c)
  else if 'a' ≤ c ∧ c ≤ 'f' then some (c.toNat - 'a'.toNat + 10)
  else if 'A' ≤ c ∧ c ≤ 'F' then some (c.toNat - 'A'.toNat + 10)
  else none

def escaped? : Char → Option Char
  | '"' => some '"'
  | '\\' => some '\\'
  | '/' => some '/'
  | 'b' => some '\x08'
  | 'f' => some '\x0c'
  | 'n' => some '\n'
  | 'r' => some '\r'
  | 't' => some '\t'
  | _ => none

def Mode.complete? : Mode → Option (List Lexeme)
  | .between => some []
  | .word seen => (Literal.ofWord? seen.reverse).map fun l => [.literal l]
  | .numeral seen => (Numeral.ofChars? seen.reverse).map fun n => [.numeral n]
  | _ => none

def Mode.leave? (m : Mode) (c : Char) : Option (List Lexeme × Mode) := do
  let done ← m.complete?
  let (out, next) ← begin? c
  some (done ++ out, next)

def Mode.step? (m : Mode) (c : Char) : Option (List Lexeme × Mode) :=
  match m with
  | .between => begin? c
  | .word seen => if c.isAlpha then some ([], .word (c :: seen)) else m.leave? c
  | .numeral seen => if inNumeral c then some ([], .numeral (c :: seen)) else m.leave? c
  | .text seen =>
    if c = '"' then some ([.text seen.reverse], .between)
    else if c = '\\' then some ([], .escape seen)
    else if c.toNat < 0x20 then none
    else some ([], .text (.plain c :: seen))
  | .escape seen =>
    if c = 'u' then some ([], .hex seen 3 0)
    else (escaped? c).map fun d => ([], .text (.plain d :: seen))
  | .hex seen left value => (hexValue? c).map fun n =>
    match left with
    | 0 => ([], .text (.code (16 * value + n) :: seen))
    | left + 1 => ([], .hex seen left (16 * value + n))

def lexemesFrom (m : Mode) : List Char → Option (List Lexeme)
  | [] => m.complete?
  | c :: r => do
    let (out, next) ← m.step? c
    let more ← lexemesFrom next r
    some (out ++ more)

def lexemes (cs : List Char) : Option (List Lexeme) := lexemesFrom .between cs

end ReqlDriver.Json
