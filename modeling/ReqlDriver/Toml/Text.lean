import ReqlDriver.Json.Lexeme

namespace ReqlDriver.Toml

def isTomlBlank (c : Char) : Bool := c == ' ' || c == '\t'

def isPlain (c : Char) : Bool := c == '\t' || (0x20 ≤ c.toNat && c.toNat != 0x7F)

def skipSpaces (cs : List Char) : List Char := cs.dropWhile isTomlBlank

def newline? : List Char → Option (List Char)
  | '\n' :: r => some r
  | '\r' :: '\n' :: r => some r
  | _ => none

def skipLines : List Char → List Char
  | [] => []
  | '\r' :: '\n' :: r => skipLines r
  | c :: r => if isTomlBlank c || c == '\n' then skipLines r else c :: r

def skipComment : List Char → List Char
  | '#' :: r => r.dropWhile isPlain
  | cs => cs

def lineEnd? (cs : List Char) : Option (List Char) :=
  match skipComment (skipSpaces cs) with
  | [] => some []
  | r => newline? r

def scalar? (n : Nat) : Option Char :=
  if n < 0xD800 ∨ (0xE000 ≤ n ∧ n < 0x110000) then some (Char.ofNat n) else none

def hexScalar? (value : Nat) : Nat → List Char → Option (Char × List Char)
  | 0, cs => (scalar? value).map fun c => (c, cs)
  | digits + 1, c :: r => (Json.hexValue? c).bind fun n => hexScalar? (16 * value + n) digits r
  | _ + 1, [] => none

def escape? : List Char → Option (Char × List Char)
  | 'b' :: r => some ('\x08', r)
  | 't' :: r => some ('\t', r)
  | 'n' :: r => some ('\n', r)
  | 'f' :: r => some ('\x0c', r)
  | 'r' :: r => some ('\r', r)
  | '"' :: r => some ('"', r)
  | '\\' :: r => some ('\\', r)
  | 'u' :: r => hexScalar? 0 4 r
  | 'U' :: r => hexScalar? 0 8 r
  | _ => none

def basic? : Nat → List Char → Option (List Char × List Char)
  | fuel + 1, c :: r =>
    if c = '"' then some ([], r)
    else if c = '\\' then do
      let (c, r) ← escape? r
      let (cs, r) ← basic? fuel r
      some (c :: cs, r)
    else if isPlain c then (basic? fuel r).map fun (cs, r) => (c :: cs, r)
    else none
  | _, _ => none

def verbatim? : List Char → Option (List Char × List Char)
  | [] => none
  | c :: r =>
    if c = '\'' then some ([], r)
    else if isPlain c then (verbatim? r).map fun (cs, r) => (c :: cs, r)
    else none

def closing? (mark : Char) : List Char → Option (List Char × List Char)
  | a :: b :: c :: r =>
    if a = mark ∧ b = mark ∧ c = mark then
      let extra := (r.takeWhile (· == mark)).take 2
      some (extra, r.drop extra.length)
    else none
  | _ => none

def escapedLine? (cs : List Char) : Option (List Char) :=
  (newline? (skipSpaces cs)).map skipLines

def longBasic? : Nat → List Char → Option (List Char × List Char)
  | 0, _ => none
  | fuel + 1, cs =>
    match closing? '"' cs, newline? cs, cs with
    | some found, _, _ => some found
    | none, some r, _ => (longBasic? fuel r).map fun (cs, r) => ('\n' :: cs, r)
    | none, none, '\\' :: r => match escapedLine? r with
      | some r => longBasic? fuel r
      | none => do
        let (c, r) ← escape? r
        let (cs, r) ← longBasic? fuel r
        some (c :: cs, r)
    | none, none, c :: r =>
      if isPlain c then (longBasic? fuel r).map fun (cs, r) => (c :: cs, r) else none
    | none, none, [] => none

def longVerbatim? : Nat → List Char → Option (List Char × List Char)
  | 0, _ => none
  | fuel + 1, cs =>
    match closing? '\'' cs, newline? cs, cs with
    | some found, _, _ => some found
    | none, some r, _ => (longVerbatim? fuel r).map fun (cs, r) => ('\n' :: cs, r)
    | none, none, c :: r =>
      if isPlain c then (longVerbatim? fuel r).map fun (cs, r) => (c :: cs, r) else none
    | none, none, [] => none

def afterOpening (cs : List Char) : List Char := (newline? cs).getD cs

def shortString? : List Char → Option (String × List Char)
  | '"' :: r => (basic? (r.length + 1) r).map fun (cs, r) => (String.ofList cs, r)
  | '\'' :: r => (verbatim? r).map fun (cs, r) => (String.ofList cs, r)
  | _ => none

def string? : List Char → Option (String × List Char)
  | '"' :: '"' :: '"' :: r =>
    (longBasic? (r.length + 1) (afterOpening r)).map fun (cs, r) => (String.ofList cs, r)
  | '\'' :: '\'' :: '\'' :: r =>
    (longVerbatim? (r.length + 1) (afterOpening r)).map fun (cs, r) => (String.ofList cs, r)
  | cs => shortString? cs

end ReqlDriver.Toml
