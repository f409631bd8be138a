import Mqttium.Types

namespace Mqttium

/-- What a call of the client can raise: its own exception classes and the
built-in ones its code can let through. -/
inductive Failure where
  | malformedPacket (message : String)
  | protocol (message : String)
  | connectRefused (reasonCode : Nat) (properties : Option Properties)
  | publishRejected (packet : PacketType) (reasonCode : Nat) (properties : Option Properties)
  | packetTooLarge (message : String)
  | mandatoryResponseTooLarge (message : String)
  | sessionReplay (message : String)
  | flowControl (message : String)
  | notConnected (message : String)
  | sessionDiscarded (message : String)
  | brokerDisconnect (reasonCode : Nat) (properties : Option Properties)
  | assertion
  | runtime (message : String)
  | value (message : String)
  | type (message : String)
  | unicodeEncode
  | pack
  | backend
  deriving DecidableEq, Repr

namespace Failure

/-- Members of the `ProtocolError` class. -/
def isProtocolError : Failure → Bool
  | protocol _ => true
  | connectRefused _ _ => true
  | publishRejected _ _ _ => true
  | packetTooLarge _ => true
  | mandatoryResponseTooLarge _ => true
  | _ => false

/-- `str(exc)` of the exceptions the client formats into another message. -/
def text : Failure → String
  | malformedPacket message => message
  | protocol message => message
  | connectRefused reasonCode _ => s!"Connection refused: reason_code={reasonCode}"
  | publishRejected packet reasonCode _ => s!"{packet.name} reason_code={reasonCode}"
  | packetTooLarge message => message
  | mandatoryResponseTooLarge message => message
  | sessionReplay message => message
  | flowControl message => message
  | notConnected message => message
  | sessionDiscarded message => message
  | runtime message => message
  | value message => message
  | type message => message
  | _ => ""

end Failure

/-! Values as error texts print them. -/

/-- Lower-case hexadecimal, filled up with zeros. -/
def hexDigits (width value : Nat) : String :=
  let digits := Nat.toDigits 16 value
  String.ofList (List.replicate (width - digits.length) (Nat.digitChar 0) ++ digits)

def hex02 (value : Nat) : String := hexDigits 2 value

/-- One code point or octet between the quotes of a `repr`. -/
def reprCode (printable : Nat → Bool) (quote code : Nat) : String :=
  if code = 92 ∨ code = quote then "\\" ++ String.singleton (Char.ofNat code)
  else if code = 9 then "\\t"
  else if code = 10 then "\\n"
  else if code = 13 then "\\r"
  else if printable code then String.singleton (Char.ofNat code)
  else if code < 0x100 then "\\x" ++ hexDigits 2 code
  else if code < 0x10000 then "\\u" ++ hexDigits 4 code
  else "\\U" ++ hexDigits 8 code

/-- Single quotes, unless double quotes save an escape. -/
def reprQuoted (printable : Nat → Bool) (codes : List Nat) : String :=
  let quote := if 39 ∈ codes ∧ 34 ∉ codes then 34 else 39
  let mark := String.singleton (Char.ofNat quote)
  mark ++ String.join (codes.map (reprCode printable quote)) ++ mark

def printableAscii (code : Nat) : Bool := 0x20 ≤ code && code < 0x7F

/-- `str.isprintable` of one character. Past Latin-1 only the surrogates are told apart:
the other unprintable characters are a matter of the Unicode tables. -/
def printable (code : Nat) : Bool :=
  printableAscii code || (0xA1 ≤ code && code ≠ 0xAD && !(0xD800 ≤ code && code ≤ 0xDFFF))

def Codec.Text.repr (text : Codec.Text) : String := reprQuoted printable (text.map Fin.val)

def Scalar.repr : Scalar → String
  | int value => toString value
  | text value => value.repr
  | bytes value => "b" ++ reprQuoted printableAscii (value.map UInt8.toNat)
  | none => "None"

def PropertyItem.repr : PropertyItem → String
  | scalar value => value.repr
  | tuple [part] => "(" ++ part.repr ++ ",)"
  | tuple parts => "(" ++ String.intercalate ", " (parts.map Scalar.repr) ++ ")"

end Mqttium
