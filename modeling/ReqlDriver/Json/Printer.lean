import ReqlDriver.Json.Basic
import ReqlDriver.Number.Layout
import ReqlDriver.Text.Utf8

namespace ReqlDriver.Json

def hexDigit (n : Nat) : Char := Nat.digitChar n

def escape (c : Char) : List Char :=
  match c with
  | '"' => ['\\', '"']
  | '\\' => ['\\', '\\']
  | '\n' => ['\\', 'n']
  | '\r' => ['\\', 'r']
  | '\t' => ['\\', 't']
  | '\x08' => ['\\', 'b']
  | '\x0c' => ['\\', 'f']
  | c =>
    if c.toNat < 0x20 then
      ['\\', 'u', '0', '0', hexDigit (c.toNat / 16), hexDigit (c.toNat % 16)]
    else [c]

def quote (s : String) : String :=
  String.ofList ('"' :: s.toList.flatMap escape ++ ['"'])

def numberText : Binary64 → String
  | .finite negative units _ => Layout.json.finite negative units
  | _ => "null"

mutual

def text : Json → String
  | null => "null"
  | bool b => if b then "true" else "false"
  | int n => toString n
  | float x => numberText x
  | string s => quote s
  | array items => "[" ++ ",".intercalate (itemTexts items) ++ "]"
  | object entries => "\x7b" ++ ",".intercalate (entryTexts entries) ++ "\x7d"

def itemTexts : List Json → List String
  | [] => []
  | v :: r => text v :: itemTexts r

def entryTexts : List (String × Json) → List String
  | [] => []
  | (k, v) :: r => (quote k ++ ":" ++ text v) :: entryTexts r

end

def block (opening closing : String) (indent : Nat) (parts : List String) : String :=
  match parts with
  | [] => opening ++ closing
  | _ =>
    let line := "\n" ++ String.ofList (List.replicate (2 * (indent + 1)) ' ')
    opening ++ line ++ (("," ++ line).intercalate parts) ++
      "\n" ++ String.ofList (List.replicate (2 * indent) ' ') ++ closing

mutual

def prettyAt (indent : Nat) : Json → String
  | array items => block "[" "]" indent (prettyItems (indent + 1) items)
  | object entries => block "\x7b" "\x7d" indent (prettyEntries (indent + 1) entries)
  | v => text v

def prettyItems (indent : Nat) : List Json → List String
  | [] => []
  | v :: r => prettyAt indent v :: prettyItems indent r

def prettyEntries (indent : Nat) : List (String × Json) → List String
  | [] => []
  | (k, v) :: r => (quote k ++ ": " ++ prettyAt indent v) :: prettyEntries indent r

end

def pretty (v : Json) : String := prettyAt 0 v

def bytes (v : Json) : List UInt8 := Utf8.encode v.text

end ReqlDriver.Json
