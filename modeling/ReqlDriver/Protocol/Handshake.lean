import ReqlDriver.Error
import ReqlDriver.Number.Width

namespace ReqlDriver

inductive Version
  | v0_4
deriving DecidableEq, Repr

namespace Version

def magic : Version → Nat
  | v0_4 => 0x400c2d20

def name : Version → String
  | v0_4 => "V0_4"

def ofMagic? (n : Nat) : Option Version := if n = magic v0_4 then some v0_4 else none

end Version

structure Handshake where
  version : Version
  authKey : Option String
deriving DecidableEq, Repr

namespace Handshake

def jsonMagic : Nat := 0x7e6970c7

def maxKey : Nat := 4096

def maxAnswer : Nat := 1024

def success : String := "SUCCESS"

def header (key : List UInt8) : List UInt8 :=
  LittleEndian.toBytes 4 Version.v0_4.magic ++ LittleEndian.toBytes 4 key.length ++ key ++
    LittleEndian.toBytes 4 jsonMagic

def keyBytes (key : Option String) : List UInt8 := Utf8.encode (key.getD "")

inductive Answer
  | unfinished (text : List UInt8)
  | tooLong (rest : List UInt8)
  | finished (text rest : List UInt8)

def endsAnswer (b : UInt8) : Bool := b == 0 || b == 10

def answerAfter (text : List UInt8) : List UInt8 → Answer
  | [] => .unfinished text
  | b :: rest =>
    if endsAnswer b then .finished text rest
    else if maxAnswer < text.length + 1 then .tooLong rest
    else answerAfter (text ++ [b]) rest

def answer (reply : List UInt8) : Answer := answerAfter [] reply

def judge (key : Option String) (text : List UInt8) : Except Error Handshake :=
  let text := Utf8.decodeLossy text
  if text = success then .ok ⟨.v0_4, key⟩ else .error (.handshake (.rejected text))

/-- What the client makes of the server's bytes, with those it leaves unread. While the answer is
unfinished there is no result, unless the server has sent all it will. -/
def receive (key : Option String) (reply : List UInt8) (ended : Bool) :
    Option (Except Error Handshake × List UInt8) :=
  match answer reply with
  | .finished text rest => some (judge key text, rest)
  | .tooLong rest => some (.error (.handshake .answerTooLong), rest)
  | .unfinished text =>
    if !ended then none
    else if text = [] then some (.error (.io .unexpectedEof), [])
    else some (judge key text, [])

structure Part where
  sent : List UInt8
  result : Except Error Handshake
  unread : List UInt8

def connect? (key : Option String) (reply : List UInt8) (ended : Bool) : Option Part :=
  let bytes := keyBytes key
  if maxKey < bytes.length then some ⟨[], .error (.handshake (.keyTooLong bytes.length)), reply⟩
  else (receive key reply ended).map fun (result, unread) => ⟨header bytes, result, unread⟩

def keyOf (key : String) : Option String := if key = "" then none else some key

def readRequest (bytes : List UInt8) : Except Error Handshake × List UInt8 :=
  match LittleEndian.word? bytes with
  | none => (.error (.io .unexpectedEof), [])
  | some (magic, r) => match Version.ofMagic? magic with
    | none => (.error (.handshake (.unknownVersion magic)), r)
    | some version => match LittleEndian.word? r with
      | none => (.error (.io .unexpectedEof), [])
      | some (length, r) =>
        if maxKey < length then (.error (.handshake (.keyTooLong length)), r)
        else if r.length < length then (.error (.io .unexpectedEof), [])
        else match Utf8.decode (r.take length) with
          | .error fault => (.error (.handshake (.keyNotText fault)), r.drop length)
          | .ok key => match LittleEndian.word? (r.drop length) with
            | none => (.error (.io .unexpectedEof), [])
            | some (encoding, r) =>
              if encoding = jsonMagic then (.ok ⟨version, keyOf key⟩, r)
              else (.error (.handshake (.unknownEncoding encoding)), r)

def answerBytes (text : String) : List UInt8 := Utf8.encode text ++ [0]

def respond (text : String) (bytes : List UInt8) : Part :=
  let (result, unread) := readRequest bytes
  ⟨if result.isOk then answerBytes text else [], result, unread⟩

def accept (bytes : List UInt8) : Part := respond success bytes

end Handshake

end ReqlDriver
