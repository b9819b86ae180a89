import ReqlDriver.Toml.Scalar

namespace ReqlDriver.Toml

def tomlNesting : Nat := 79

def isBare (c : Char) : Bool := c.isAlphanum || c == '_' || c == '-'

def simpleKey? (cs : List Char) : Option (String × List Char) :=
  match shortString? cs with
  | some found => some found
  | none =>
    let key := cs.takeWhile isBare
    if key = [] then none else some (String.ofList key, cs.drop key.length)

def key? : Nat → List Char → Option (List String × List Char)
  | 0, _ => none
  | room + 1, cs => do
    let (part, r) ← simpleKey? (skipSpaces cs)
    match skipSpaces r with
    | '.' :: r => (key? room r).map fun (parts, r) => (part :: parts, r)
    | r => some ([part], r)

def skipTrivia : Nat → List Char → List Char
  | 0, cs => cs
  | fuel + 1, cs => match skipLines cs with
    | '#' :: r => match newline? (r.dropWhile isPlain) with
      | some r => skipTrivia fuel r
      | none => '#' :: r
    | r => r

def trivia (cs : List Char) : List Char := skipTrivia (cs.length + 1) cs

mutual

def value? : Nat → Nat → List Char → Option (Toml × List Char)
  | 0, _, _ => none
  | fuel + 1, room, cs => match cs, room with
    | '[' :: _, 0 => none
    | '\x7b' :: _, 0 => none
    | '[' :: r, room + 1 => match trivia r with
      | ']' :: r => some (.array [], r)
      | r => (items? fuel room r).map fun (items, r) => (.array items, r)
    | '\x7b' :: r, room + 1 => match skipSpaces r with
      | '\x7d' :: r => some (.table .braces [], r)
      | r => do
        let (pairs, r) ← fields? fuel room r
        let t ← putAll pairs []
        some (.table .braces t, r)
    | cs, _ => scalarValue? cs

def items? : Nat → Nat → List Char → Option (List Toml × List Char)
  | 0, _, _ => none
  | fuel + 1, room, cs => do
    let (v, r) ← value? fuel room cs
    match trivia r with
    | ']' :: r => some ([v], r)
    | ',' :: r => match trivia r with
      | ']' :: r => some ([v], r)
      | r => (items? fuel room r).map fun (vs, r) => (v :: vs, r)
    | _ => none

def fields? : Nat → Nat → List Char → Option (List Pair × List Char)
  | 0, _, _ => none
  | fuel + 1, room, cs => do
    let (p, r) ← pair? fuel room cs
    match skipSpaces r with
    | '\x7d' :: r => some ([p], r)
    | ',' :: r => (fields? fuel room r).map fun (ps, r) => (p :: ps, r)
    | _ => none

def pair? : Nat → Nat → List Char → Option (Pair × List Char)
  | 0, _, _ => none
  | fuel + 1, room, cs => do
    let (key, r) ← key? tomlNesting cs
    let (v, r) ← value? fuel room (skipSpaces (← after? '=' r))
    some ((key, v), r)

end

inductive Line
  | pair (p : Pair)
  | table (path : List String)
  | element (path : List String)

def header? (closing : List Char) (cs : List Char) : Option (List String × List Char) := do
  let (path, r) ← key? tomlNesting cs
  if closing.isPrefixOf r then some (path, r.drop closing.length) else none

def line? : List Char → Option (Line × List Char)
  | '[' :: '[' :: r => (header? [']', ']'] r).map fun (path, r) => (.element path, r)
  | '[' :: r => (header? [']'] r).map fun (path, r) => (.table path, r)
  | cs => (pair? (2 * cs.length + 3) tomlNesting cs).map fun (p, r) => (.pair p, r)

def lines? : Nat → List Char → Option (List Line)
  | 0, _ => none
  | fuel + 1, cs => match skipSpaces cs with
    | [] => some []
    | r =>
      if r.head? = some '#' ∨ (newline? r).isSome then
        (lineEnd? r).bind fun r => lines? fuel r
      else do
        let (line, r) ← line? r
        let lines ← lines? fuel (← lineEnd? r)
        some (line :: lines)

def Line.gather : List Line → List Pair × List Section
  | [] => ([], [])
  | line :: r =>
    let (pairs, sections) := gather r
    match line with
    | .pair p => (p :: pairs, sections)
    | .table path => ([], ⟨false, path, pairs⟩ :: sections)
    | .element path => ([], ⟨true, path, pairs⟩ :: sections)

def withoutMark : List Char → List Char
  | '\uFEFF' :: r => r
  | cs => cs

def read? (text : String) : Option Table :=
  let cs := withoutMark text.toList
  (lines? (cs.length + 1) cs).bind fun lines =>
    let (pairs, sections) := Line.gather lines
    ofSections? pairs sections

end ReqlDriver.Toml
