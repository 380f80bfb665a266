/-
# Reading UTF-8

Bytes are read strictly: the first byte sequence that encodes no character stops the reading, and
the fault says where it stands and why it is refused. A sequence is cut where the first byte stands
that cannot continue it, so the bytes before the cut are the ones reported.
-/

namespace SourceAtlas.Text

/-- Why a byte sequence encodes no character. -/
inductive Utf8Cause where
  /-- No character starts with this byte. -/
  | start
  /-- A character started, and a byte followed that cannot continue it. -/
  | continuation
  /-- The bytes end inside a character. -/
  | ending
deriving DecidableEq, Repr

/-- A refused byte sequence: the bytes `first` up to and including `last`, by position. -/
structure Utf8Fault where
  cause : Utf8Cause
  first : Nat
  last : Nat
  /-- The byte at position `first`. -/
  byte : Nat
deriving DecidableEq, Repr

/-- Two lower-case hexadecimal digits. -/
def hexByte (b : Nat) : String :=
  let digit (n : Nat) : Char := (Nat.toDigits 16 n).headD '0'
  String.ofList [digit (b / 16 % 16), digit (b % 16)]

def Utf8Fault.message (f : Utf8Fault) : String :=
  let reason :=
    match f.cause with
    | .start => "invalid start byte"
    | .continuation => "invalid continuation byte"
    | .ending => "unexpected end of data"
  if f.first == f.last then
    s!"'utf-8' codec can't decode byte 0x{hexByte f.byte} in position {f.first}: {reason}"
  else
    s!"'utf-8' codec can't decode bytes in position {f.first}-{f.last}: {reason}"

/-- The range of the second byte of a character, and how many bytes follow the first one. -/
structure Utf8Lead where
  low : Nat
  high : Nat
  following : Nat
deriving DecidableEq, Repr

/-- What a first byte above the ASCII range announces, if it starts a character at all. -/
def utf8Lead (b : Nat) : Option Utf8Lead :=
  if 0xC2 ≤ b && b ≤ 0xDF then some ⟨0x80, 0xBF, 1⟩
  else if b == 0xE0 then some ⟨0xA0, 0xBF, 2⟩
  else if b == 0xED then some ⟨0x80, 0x9F, 2⟩
  else if 0xE1 ≤ b && b ≤ 0xEF then some ⟨0x80, 0xBF, 2⟩
  else if b == 0xF0 then some ⟨0x90, 0xBF, 3⟩
  else if 0xF1 ≤ b && b ≤ 0xF3 then some ⟨0x80, 0xBF, 3⟩
  else if b == 0xF4 then some ⟨0x80, 0x8F, 3⟩
  else none

/-- The state of the reading between two bytes: outside a character, or inside one that started
at a position, with the value so far, the bounds of the next byte and the count of bytes owed. -/
inductive Utf8State where
  | between
  | inside (start : Nat) (byte : Nat) (value : Nat) (low high owed : Nat)
deriving DecidableEq, Repr

/-- The bits of a first byte that belong to the character. -/
def leadBits (b following : Nat) : Nat :=
  if following == 1 then b % 32 else if following == 2 then b % 16 else b % 8

/-- Starts a character at position `pos` with byte `b`. -/
def startUtf8 (pos b : Nat) (done : List Char) : Except Utf8Fault (Utf8State × List Char) :=
  if b < 0x80 then .ok (.between, Char.ofNat b :: done)
  else
    match utf8Lead b with
    | none => .error ⟨.start, pos, pos, b⟩
    | some lead =>
      let bits := leadBits b lead.following
      .ok (.inside pos b bits lead.low lead.high lead.following, done)

/-- Reads byte `b` at position `pos`; the characters read so far stand in reverse. -/
def stepUtf8 (pos b : Nat) (state : Utf8State) (done : List Char) :
    Except Utf8Fault (Utf8State × List Char) :=
  match state with
  | .between => startUtf8 pos b done
  | .inside start byte value low high owed =>
    if low ≤ b && b ≤ high then
      let value := value * 64 + b % 64
      if owed == 1 then .ok (.between, Char.ofNat value :: done)
      else .ok (.inside start byte value 0x80 0xBF (owed - 1), done)
    else .error ⟨.continuation, start, pos - 1, byte⟩

/-- Reads the bytes from position `pos` on. -/
def decodeUtf8From : List UInt8 → Nat → Utf8State → List Char → Except Utf8Fault (List Char)
  | [], _, .between, done => .ok done.reverse
  | [], pos, .inside start byte _ _ _ _, _ => .error ⟨.ending, start, pos - 1, byte⟩
  | b :: rest, pos, state, done =>
    match stepUtf8 pos b.toNat state done with
    | .error fault => .error fault
    | .ok (state, done) => decodeUtf8From rest (pos + 1) state done

/-- The characters that the bytes encode, or the first fault. -/
def decodeUtf8 (bytes : List UInt8) : Except Utf8Fault (List Char) :=
  decodeUtf8From bytes 0 .between []

/-- Whether the bytes at a fault may turn out well once more bytes are known: a character that the
end cuts off, or two bytes at the end that start a surrogate. -/
def isHeldBack (bytes : List UInt8) (fault : Utf8Fault) : Bool :=
  match fault.cause, bytes.drop fault.first with
  | .ending, _ => true
  | .continuation, [first, second] => first == 0xED && 0xA0 ≤ second && second ≤ 0xBF
  | _, _ => false

/-- The characters that the bytes encode, and the bytes at the end that are held back because more
bytes may follow them. -/
def decodeUtf8Start (bytes : List UInt8) : Except Utf8Fault (List Char × List UInt8) :=
  match decodeUtf8 bytes with
  | .ok chars => .ok (chars, [])
  | .error fault =>
    if isHeldBack bytes fault then
      (decodeUtf8 (bytes.take fault.first)).map fun chars => (chars, bytes.drop fault.first)
    else .error fault

end SourceAtlas.Text
