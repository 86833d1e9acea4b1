import ClassTidy.Text.Basic

/-!
# UTF-8

Strict decoding: no overlong forms, no surrogates, nothing above U+10FFFF. A fault names the
octets that cannot be decoded: the longest start of a well-formed sequence, or one octet if it
cannot start any.
-/

set_option autoImplicit false

namespace ClassTidy.Utf8

inductive Reason where
  | invalidStart
  | invalidContinuation
  | unexpectedEnd
  deriving DecidableEq

/-- The first octets that cannot be decoded: the octet that starts them, its position and their
number. -/
structure Fault where
  octet : UInt8
  position : Nat
  length : Nat
  reason : Reason
  deriving DecidableEq

def isContinuation (octet : UInt8) : Bool := 0x80 ≤ octet && octet < 0xC0

def payload (octet : UInt8) : Nat := octet.toNat % 0x40

/-- Whether `second` may follow `first` in a sequence of three octets. -/
def fitsThree (first second : UInt8) : Bool :=
  isContinuation second &&
    (if first = 0xE0 then 0xA0 ≤ second else if first = 0xED then second < 0xA0 else true)

/-- Whether `second` may follow `first` in a sequence of four octets. -/
def fitsFour (first second : UInt8) : Bool :=
  isContinuation second &&
    (if first = 0xF0 then 0x90 ≤ second else if first = 0xF4 then second < 0x90 else true)

def decodeFrom (position : Nat) : List UInt8 → Except Fault Text
  | [] => .ok []
  | first :: rest =>
    let fault (length : Nat) (reason : Reason) : Except Fault Text :=
      .error ⟨first, position, length, reason⟩
    if first < 0x80 then
      (Char.ofNat first.toNat :: ·) <$> decodeFrom (position + 1) rest
    else if first < 0xC2 then
      fault 1 .invalidStart
    else if first < 0xE0 then
      match rest with
      | [] => fault 1 .unexpectedEnd
      | second :: rest =>
        if isContinuation second then
          (Char.ofNat ((first.toNat - 0xC0) * 0x40 + payload second) :: ·) <$>
            decodeFrom (position + 2) rest
        else fault 1 .invalidContinuation
    else if first < 0xF0 then
      match rest with
      | [] => fault 1 .unexpectedEnd
      | second :: rest =>
        if fitsThree first second then
          match rest with
          | [] => fault 2 .unexpectedEnd
          | third :: rest =>
            if isContinuation third then
              (Char.ofNat (((first.toNat - 0xE0) * 0x40 + payload second) * 0x40 +
                payload third) :: ·) <$> decodeFrom (position + 3) rest
            else fault 2 .invalidContinuation
        else fault 1 .invalidContinuation
    else if first < 0xF5 then
      match rest with
      | [] => fault 1 .unexpectedEnd
      | second :: rest =>
        if fitsFour first second then
          match rest with
          | [] => fault 2 .unexpectedEnd
          | third :: rest =>
            if isContinuation third then
              match rest with
              | [] => fault 3 .unexpectedEnd
              | fourth :: rest =>
                if isContinuation fourth then
                  (Char.ofNat ((((first.toNat - 0xF0) * 0x40 + payload second) * 0x40 +
                    payload third) * 0x40 + payload fourth) :: ·) <$>
                    decodeFrom (position + 4) rest
                else fault 3 .invalidContinuation
            else fault 2 .invalidContinuation
        else fault 1 .invalidContinuation
    else fault 1 .invalidStart

def decode (octets : List UInt8) : Except Fault Text := decodeFrom 0 octets

def encode (text : Text) : List UInt8 := text.flatMap String.utf8EncodeChar

def Reason.describe : Reason → String
  | .invalidStart => "invalid start byte"
  | .invalidContinuation => "invalid continuation byte"
  | .unexpectedEnd => "unexpected end of data"

def hexOctet (octet : UInt8) : String :=
  String.ofList [Nat.digitChar (octet.toNat / 16), Nat.digitChar (octet.toNat % 16)]

/-- A single octet is shown with its value, several by their first and last position. -/
def Fault.message (fault : Fault) : String :=
  let place :=
    if fault.length = 1 then
      "byte 0x" ++ hexOctet fault.octet ++ " in position " ++ toString fault.position
    else
      "bytes in position " ++ toString fault.position ++ "-" ++
        toString (fault.position + fault.length - 1)
  "'utf-8' codec can't decode " ++ place ++ ": " ++ fault.reason.describe

end ClassTidy.Utf8
