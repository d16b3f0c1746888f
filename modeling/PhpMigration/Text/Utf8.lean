/-
Reading UTF-8, strictly or with a stand-in for what cannot be read.

Where the bytes are no UTF-8, the fault is the longest beginning of a sequence that could still
have become a character, or a single byte that cannot begin one.  The strict reading names the
position of the first fault and its reason; the lenient one puts a replacement character for
each fault and goes on behind it.
-/

namespace PhpMigration.Text.Utf8

/-- Why a sequence is no character. -/
inductive Reason where
  | invalidStart
  | invalidContinuation
  | unexpectedEnd
  deriving DecidableEq, Repr

/-- The wording of a reason. -/
def Reason.message : Reason → String
  | .invalidStart => "invalid start byte"
  | .invalidContinuation => "invalid continuation byte"
  | .unexpectedEnd => "unexpected end of data"

/-- The first sequence of bytes that is no character. -/
structure Fault where
  position : Nat
  first : UInt8
  length : Nat
  reason : Reason
  deriving DecidableEq, Repr

/-- A byte in two hexadecimal digits. -/
def hexByte (b : UInt8) : String :=
  String.ofList [Nat.digitChar (b.toNat / 16), Nat.digitChar (b.toNat % 16)]

/-- The wording of a fault: one byte is shown, a longer sequence by its two ends. -/
def Fault.message (f : Fault) : String :=
  if f.length = 1 then
    s!"'utf-8' codec can't decode byte 0x{hexByte f.first} in position {f.position}: {f.reason.message}"
  else
    s!"'utf-8' codec can't decode bytes in position {f.position}-{f.position + f.length - 1}: {f.reason.message}"

/-- What stands at the head of some bytes. -/
inductive Head where
  | character (c : Char) (length : Nat)
  | fault (length : Nat) (reason : Reason)
  deriving DecidableEq, Repr

/-- A byte that may stand inside a sequence. -/
def isContinuation (b : UInt8) : Bool := 0x80 ≤ b && b < 0xC0

/-- The second byte of a longer sequence must not make it overlong, a surrogate or too large. -/
def isSecond (first second : UInt8) : Bool :=
  isContinuation second &&
    (first != 0xE0 || 0xA0 ≤ second) && (first != 0xED || second < 0xA0) &&
    (first != 0xF0 || 0x90 ≤ second) && (first != 0xF4 || second < 0x90)

/-- The payload of a continuation byte. -/
def payload (b : UInt8) : Nat := b.toNat % 64

/-- The character or the fault at the head; the bytes are `first :: rest`. -/
def head (first : UInt8) (rest : List UInt8) : Head :=
  if first < 0x80 then .character (Char.ofNat first.toNat) 1
  else if first < 0xC2 || 0xF4 < first then .fault 1 .invalidStart
  else match rest with
    | [] => .fault 1 .unexpectedEnd
    | second :: rest =>
      if !isSecond first second then .fault 1 .invalidContinuation
      else if first < 0xE0 then
        .character (Char.ofNat (first.toNat % 32 * 64 + payload second)) 2
      else match rest with
        | [] => .fault 2 .unexpectedEnd
        | third :: rest =>
          if !isContinuation third then .fault 2 .invalidContinuation
          else if first < 0xF0 then
            .character
              (Char.ofNat ((first.toNat % 16 * 64 + payload second) * 64 + payload third)) 3
          else match rest with
            | [] => .fault 3 .unexpectedEnd
            | fourth :: _ =>
              if !isContinuation fourth then .fault 3 .invalidContinuation
              else .character
                (Char.ofNat (((first.toNat % 8 * 64 + payload second) * 64 + payload third) * 64 +
                  payload fourth)) 4

/-- The first fault from a position on, `skip` bytes of the last character still to be passed. -/
def faultFrom? (position : Nat) : Nat → List UInt8 → Option Fault
  | _, [] => none
  | skip + 1, _ :: rest => faultFrom? (position + 1) skip rest
  | 0, first :: rest =>
    match head first rest with
    | .character _ length => faultFrom? (position + 1) (length - 1) rest
    | .fault length reason => some ⟨position, first, length, reason⟩

/-- Every fault becomes the replacement character. -/
def replaceFaults : Nat → List UInt8 → List Char
  | _, [] => []
  | skip + 1, _ :: rest => replaceFaults skip rest
  | 0, first :: rest =>
    match head first rest with
    | .character c length => c :: replaceFaults (length - 1) rest
    | .fault length _ => Char.ofNat 0xFFFD :: replaceFaults (length - 1) rest

/-- The text that some bytes spell, or the first fault in them. -/
def decode (bytes : ByteArray) : Except Fault String :=
  match String.fromUTF8? bytes with
  | some s => .ok s
  | none => .error ((faultFrom? 0 0 bytes.toList).getD ⟨0, 0, 1, .invalidStart⟩)

/-- The text that some bytes spell, with a replacement character for each fault. -/
def decodeLenient (bytes : ByteArray) : String :=
  match String.fromUTF8? bytes with
  | some s => s
  | none => String.ofList (replaceFaults 0 bytes.toList)

/-- The bytes that spell a text. -/
def encode (s : String) : ByteArray := s.toUTF8

end PhpMigration.Text.Utf8
