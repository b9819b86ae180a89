import ReqlDriver.Json.Lexeme

namespace ReqlDriver.Json

inductive Document
  | literal (l : Literal)
  | numeral (n : Numeral)
  | text (elements : List Element)
  | array (items : List Document)
  | object (entries : List (List Element × Document))

namespace Document

inductive Frame
  | items (done : List Document)
  | entries (done : List (List Element × Document))
  | entry (done : List (List Element × Document)) (key : List Element)

inductive Want
  | value
  | firstItem
  | firstKey
  | key
  | colon
  | next
  | nothing (whole : Document)

structure Assembly where
  opened : List Frame
  want : Want

def Assembly.put (v : Document) : List Frame → Option Assembly
  | [] => some ⟨[], .nothing v⟩
  | .items done :: r => some ⟨.items (v :: done) :: r, .next⟩
  | .entry done key :: r => some ⟨.entries ((key, v) :: done) :: r, .next⟩
  | .entries _ :: _ => none

def Assembly.value? (opened : List Frame) : Lexeme → Option Assembly
  | .openArray => some ⟨.items [] :: opened, .firstItem⟩
  | .openObject => some ⟨.entries [] :: opened, .firstKey⟩
  | .literal l => put (.literal l) opened
  | .numeral n => put (.numeral n) opened
  | .text t => put (.text t) opened
  | _ => none

def Assembly.key? (opened : List Frame) : Lexeme → Option Assembly
  | .text t => match opened with
    | .entries done :: r => some ⟨.entry done t :: r, .colon⟩
    | _ => none
  | _ => none

def Assembly.closeArray? : List Frame → Option Assembly
  | .items done :: r => put (.array done.reverse) r
  | _ => none

def Assembly.closeObject? : List Frame → Option Assembly
  | .entries done :: r => put (.object done.reverse) r
  | _ => none

def Assembly.comma? : List Frame → Option Assembly
  | .items done :: r => some ⟨.items done :: r, .value⟩
  | .entries done :: r => some ⟨.entries done :: r, .key⟩
  | _ => none

def Assembly.step? (a : Assembly) (x : Lexeme) : Option Assembly :=
  match a.want, x with
  | .nothing _, _ => none
  | .firstItem, .closeArray => closeArray? a.opened
  | .firstKey, .closeObject => closeObject? a.opened
  | .next, .closeArray => closeArray? a.opened
  | .next, .closeObject => closeObject? a.opened
  | .next, .comma => comma? a.opened
  | .next, _ => none
  | .colon, .colon => some ⟨a.opened, .value⟩
  | .colon, _ => none
  | .value, x => value? a.opened x
  | .firstItem, x => value? a.opened x
  | .firstKey, x => key? a.opened x
  | .key, x => key? a.opened x

def assemble? (a : Assembly) : List Lexeme → Option Document
  | [] => match a.want with
    | .nothing whole => some whole
    | _ => none
  | x :: r => (a.step? x).bind (assemble? · r)

def read? (cs : List Char) : Option Document :=
  (lexemes cs).bind (assemble? ⟨[], .value⟩)

end Document

end ReqlDriver.Json
