import SecretFill.Text.Quoted
/-!
UTF-8. `encodeStrict` writes a text, unless it has halves of surrogate pairs, which `encode` lets
pass; `decode` reads bytes and names the first sequence that is not one. The shortest form is the
only one read, and halves are refused unless the caller asks for them.
-/

namespace SecretFill.Text.Utf8

inductive Reason
  | invalidStart
  | invalidContinuation
  | unexpectedEnd
  deriving DecidableEq, Repr

/-- The bytes from `start` to before `stop` are no sequence; `first` is the first of them. -/
structure Fault where
  start : Nat
  stop : Nat
  first : UInt8
  reason : Reason
  deriving DecidableEq, Repr

def Reason.text : Reason → Text
  | .invalidStart => "invalid start byte"
  | .invalidContinuation => "invalid continuation byte"
  | .unexpectedEnd => "unexpected end of data"

def Fault.message (fault : Fault) : Text :=
  if fault.stop = fault.start + 1 then
    "'utf-8' codec can't decode byte 0x" ++ Text.ofList (hexDigits 2 fault.first.toNat) ++
      " in position " ++ toString fault.start ++ ": " ++ fault.reason.text
  else
    "'utf-8' codec can't decode bytes in position " ++ toString fault.start ++ "-" ++
      toString (fault.stop - 1) ++ ": " ++ fault.reason.text

def encodeCharacter (character : Code) : List UInt8 :=
  let code := character.toNat
  let tail (shift : Nat) : UInt8 := (0x80 + (code >>> shift) % 64).toUInt8
  if code < 0x80 then [code.toUInt8]
  else if code < 0x800 then [(0xC0 + code / 64).toUInt8, tail 0]
  else if code < 0x10000 then [(0xE0 + code / 4096).toUInt8, tail 6, tail 0]
  else [(0xF0 + code / 262144).toUInt8, tail 12, tail 6, tail 0]

def encode (text : List Code) : List UInt8 := text.flatMap encodeCharacter

structure EncodeFault where
  start : Nat
  stop : Nat
  first : Nat
  deriving DecidableEq, Repr

def EncodeFault.message (fault : EncodeFault) : Text :=
  if fault.stop = fault.start + 1 then
    "'utf-8' codec can't encode character '\\u" ++ Text.ofList (hexDigits 4 fault.first) ++
      "' in position " ++ toString fault.start ++ ": surrogates not allowed"
  else
    "'utf-8' codec can't encode characters in position " ++ toString fault.start ++ "-" ++
      toString (fault.stop - 1) ++ ": surrogates not allowed"

/-- The first code point at or behind `position` that is refused, with the halves behind it. -/
def refusal? (refuses : Code → Bool) (position : Nat) : List Code → Option EncodeFault
  | [] => none
  | code :: rest =>
      if refuses code then
        some ⟨position, position + 1 + (rest.takeWhile Code.isHalf).length, code.toNat⟩
      else refusal? refuses (position + 1) rest

def encodeStrict (text : List Code) : Except EncodeFault (List UInt8) :=
  match refusal? Code.isHalf 0 text with
  | some fault => .error fault
  | none => .ok (encode text)

/-- The byte of a name that is not UTF-8, for which a half stands. -/
def rawByte? : Code → Option UInt8
  | .char _ => none
  | .half index =>
      if 0x480 ≤ index.val ∧ index.val < 0x500 then some (index.val - 0x400).toUInt8 else none

def nameBytes (name : List Code) : List UInt8 :=
  name.flatMap fun code =>
    match rawByte? code with
    | some byte => [byte]
    | none => encodeCharacter code

def rawCode (byte : UInt8) : Code := Code.ofNat (0xDC00 + byte.toNat)

def nameRefusal? (name : List Code) : Option EncodeFault :=
  refusal? (fun code => code.isHalf && (rawByte? code).isNone) 0 name

def isContinuation (byte : UInt8) : Bool := 0x80 ≤ byte && byte < 0xC0

def tailBits (byte : UInt8) : Nat := byte.toNat % 64

/-- One sequence at the head of some bytes: a character and how many bytes follow the first one,
or how many bytes are at fault. -/
inductive Sequence
  | character (value : Code) (following : Nat)
  | fault (length : Nat) (reason : Reason)

def admits (surrogates : Bool) (lead second : UInt8) : Bool :=
  isContinuation second &&
    !(lead == 0xE0 && second < 0xA0) && !(lead == 0xED && 0xA0 ≤ second && !surrogates) &&
    !(lead == 0xF0 && second < 0x90) && !(lead == 0xF4 && 0x90 ≤ second)

def sequence (surrogates : Bool) (lead : UInt8) (rest : List UInt8) : Sequence :=
  if lead < 0x80 then .character (Code.ofNat lead.toNat) 0
  -- Continuations lead nothing, two leads could write only ASCII, the last are past the end.
  else if lead < 0xC2 || 0xF5 ≤ lead then .fault 1 .invalidStart
  else
    match rest with
    | [] => .fault 1 .unexpectedEnd
    | second :: rest =>
        if !admits surrogates lead second then .fault 1 .invalidContinuation
        else if lead < 0xE0 then
          .character (Code.ofNat (lead.toNat % 32 * 64 + tailBits second)) 1
        else
          match rest with
          | [] => .fault 2 .unexpectedEnd
          | third :: rest =>
              if !isContinuation third then .fault 2 .invalidContinuation
              else if lead < 0xF0 then
                .character (Code.ofNat
                  (lead.toNat % 16 * 4096 + tailBits second * 64 + tailBits third)) 2
              else
                match rest with
                | [] => .fault 3 .unexpectedEnd
                | fourth :: _ =>
                    if !isContinuation fourth then .fault 3 .invalidContinuation
                    else
                      .character (Code.ofNat (lead.toNat % 8 * 262144 + tailBits second * 4096 +
                        tailBits third * 64 + tailBits fourth)) 3

def decodeFrom (surrogates : Bool) (position : Nat) (bytes : List UInt8) :
    Except Fault (List Code) :=
  match bytes with
  | [] => .ok []
  | lead :: rest =>
      match sequence surrogates lead rest with
      | .fault length reason => .error ⟨position, position + length, lead, reason⟩
      | .character value following =>
          match decodeFrom surrogates (position + 1 + following) (rest.drop following) with
          | .ok text => .ok (value :: text)
          | .error fault => .error fault
termination_by bytes.length
decreasing_by simp only [List.length_drop, List.length_cons]; omega

def decode (bytes : List UInt8) : Except Fault (List Code) := decodeFrom false 0 bytes

/-- A name whose bytes are given: bytes that are not UTF-8 become halves. -/
def decodeName (bytes : List UInt8) : List Code :=
  match bytes with
  | [] => []
  | lead :: rest =>
      match sequence false lead rest with
      | .fault _ _ => rawCode lead :: decodeName rest
      | .character value following => value :: decodeName (rest.drop following)
termination_by bytes.length
decreasing_by
  · simp only [List.length_cons]; omega
  · simp only [List.length_drop, List.length_cons]; omega

end SecretFill.Text.Utf8
