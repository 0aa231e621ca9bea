import CodeQuality.Text.Quoted

namespace CodeQuality
namespace Text

/-!
Reading UTF-8.

`decodeStep` takes one character from the front of a list of bytes, or says how
many bytes at the front cannot be read and why.  `decodeLenient` drops what cannot
be read; `decodeStrict` stops at it with a message that gives the place.
-/

/-- Why bytes cannot be read. -/
inductive Utf8Fault where
  | invalidStart
  | invalidContinuation
  | unexpectedEnd
deriving DecidableEq

/-- The words for a fault. -/
def Utf8Fault.reason : Utf8Fault → String
  | .invalidStart => "invalid start byte"
  | .invalidContinuation => "invalid continuation byte"
  | .unexpectedEnd => "unexpected end of data"

/-- One step of reading: a character and how many bytes it takes, or a fault and how many bytes
are lost to it. -/
inductive DecodeStep where
  | char (c : Char) (size : Nat)
  | fault (cause : Utf8Fault) (size : Nat)

/-- Whether a byte continues a character. -/
def isContinuation (byte : UInt8) : Bool := 0x80 ≤ byte && byte < 0xc0

/-- Whether the second byte may follow the first of a character of three or four bytes: the
first excludes overlong forms, surrogates and what lies past the last plane. -/
def mayFollow (lead second : UInt8) : Bool :=
  isContinuation second &&
    (if lead = 0xe0 then 0xa0 ≤ second
     else if lead = 0xed then second < 0xa0
     else if lead = 0xf0 then 0x90 ≤ second
     else if lead = 0xf4 then second < 0x90
     else true)

/-- The six low bits of a continuation byte. -/
def lowBits (byte : UInt8) : Nat := byte.toNat % 64

/-- The first step of reading a list of bytes that is not empty. -/
def decodeStep (lead : UInt8) (rest : List UInt8) : DecodeStep :=
  if lead < 0x80 then .char (Char.ofNat lead.toNat) 1
  else if lead < 0xc2 then .fault .invalidStart 1
  else if lead < 0xe0 then
    match rest with
    | [] => .fault .unexpectedEnd 1
    | second :: _ =>
        if isContinuation second then
          .char (Char.ofNat (lead.toNat % 32 * 64 + lowBits second)) 2
        else .fault .invalidContinuation 1
  else if lead < 0xf0 then
    match rest with
    | [] => .fault .unexpectedEnd 1
    | second :: more =>
        if !mayFollow lead second then .fault .invalidContinuation 1
        else
          match more with
          | [] => .fault .unexpectedEnd 2
          | third :: _ =>
              if isContinuation third then
                .char (Char.ofNat (lead.toNat % 16 * 4096 + lowBits second * 64 + lowBits third)) 3
              else .fault .invalidContinuation 2
  else if lead < 0xf5 then
    match rest with
    | [] => .fault .unexpectedEnd 1
    | second :: more =>
        if !mayFollow lead second then .fault .invalidContinuation 1
        else
          match more with
          | [] => .fault .unexpectedEnd 2
          | third :: last =>
              if !isContinuation third then .fault .invalidContinuation 2
              else
                match last with
                | [] => .fault .unexpectedEnd 3
                | fourth :: _ =>
                    if isContinuation fourth then
                      .char (Char.ofNat (lead.toNat % 8 * 262144 + lowBits second * 4096 +
                        lowBits third * 64 + lowBits fourth)) 4
                    else .fault .invalidContinuation 3
  else .fault .invalidStart 1

/-- Read bytes with the characters read so far in reverse order, dropping what cannot be read.
Each step takes at least one byte, so the number of bytes bounds the steps. -/
def decodeLenientFrom : (bound : Nat) → (done : List Char) → List UInt8 → List Char
  | 0, done, _ => done.reverse
  | _ + 1, done, [] => done.reverse
  | bound + 1, done, lead :: rest =>
      match decodeStep lead rest with
      | .char c size => decodeLenientFrom bound (c :: done) (rest.drop (size - 1))
      | .fault _ size => decodeLenientFrom bound done (rest.drop (size - 1))

/-- The characters of a list of bytes without the bytes that cannot be read. -/
def decodeLenient (bytes : List UInt8) : List Char :=
  decodeLenientFrom bytes.length [] bytes

/-- Where and why strict reading stops. -/
structure Undecodable where
  byte : UInt8
  start : Nat
  size : Nat
  cause : Utf8Fault

/-- The message for bytes that cannot be read: it names a single byte, or gives the range. -/
def Undecodable.message (stop : Undecodable) : String :=
  if stop.size = 1 then
    "'utf-8' codec can't decode byte 0x" ++ String.ofList (hexDigits 2 stop.byte.toNat) ++
      s!" in position {stop.start}: {stop.cause.reason}"
  else
    s!"'utf-8' codec can't decode bytes in position {stop.start}-{stop.start + stop.size - 1}: " ++
      stop.cause.reason

/-- Read bytes that start at an offset, stopping at the first that cannot be read. -/
def decodeStrictFrom : (bound offset : Nat) → (done : List Char) → List UInt8 →
    Except Undecodable (List Char)
  | 0, _, done, _ => .ok done.reverse
  | _ + 1, _, done, [] => .ok done.reverse
  | bound + 1, offset, done, lead :: rest =>
      match decodeStep lead rest with
      | .char c size =>
          decodeStrictFrom bound (offset + size) (c :: done) (rest.drop (size - 1))
      | .fault cause size => .error ⟨lead, offset, size, cause⟩

/-- The characters of a list of bytes, or where and why it cannot be read. -/
def decodeStrict (bytes : List UInt8) : Except Undecodable (List Char) :=
  decodeStrictFrom bytes.length 0 [] bytes

end Text
end CodeQuality
