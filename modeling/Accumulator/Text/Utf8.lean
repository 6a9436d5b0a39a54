import Accumulator.Text.Hexadecimal

/-!
Text from bytes. A character beyond ASCII begins with a byte that tells how many bytes continue it;
the first of these may not lie where a shorter form, a surrogate or a code beyond the last one would
begin. The first fault is reported with the bytes that it spans: those that still fitted.
-/

set_option autoImplicit false
set_option relaxedAutoImplicit false

namespace Accumulator.Text.Utf8

inductive Reason where
  | startByte
  | continuationByte
  | endOfData
  deriving DecidableEq, Repr

/-- The positions of the first and the last byte of a fault, and the first byte. -/
structure Error where
  first : Nat
  last : Nat
  byte : UInt8
  reason : Reason
  deriving DecidableEq, Repr

def Reason.text : Reason → String
  | .startByte => "invalid start byte"
  | .continuationByte => "invalid continuation byte"
  | .endOfData => "unexpected end of data"

def Error.message (error : Error) : String :=
  let subject :=
    if error.first == error.last then
      s!"byte 0x{String.ofList (hexadecimal 2 error.byte.toNat)} in position {error.first}"
    else s!"bytes in position {error.first}-{error.last}"
  s!"'utf-8' codec can't decode {subject}: {error.reason.text}"

/-- How many bytes continue a character beyond ASCII, by its first byte. -/
def continuations? (byte : UInt8) : Option Nat :=
  if 0xc2 ≤ byte ∧ byte ≤ 0xdf then some 1
  else if 0xe0 ≤ byte ∧ byte ≤ 0xef then some 2
  else if 0xf0 ≤ byte ∧ byte ≤ 0xf4 then some 3
  else none

/-- The least and the greatest byte that may follow a first byte. -/
def secondRange (byte : UInt8) : UInt8 × UInt8 :=
  if byte == 0xe0 then (0xa0, 0xbf)
  else if byte == 0xed then (0x80, 0x9f)
  else if byte == 0xf0 then (0x90, 0xbf)
  else if byte == 0xf4 then (0x80, 0x8f)
  else (0x80, 0xbf)

/-- The bytes at the front that may follow a first byte. -/
def fitting (byte : UInt8) : List UInt8 → List UInt8
  | [] => []
  | second :: rest =>
      let (low, high) := secondRange byte
      if low ≤ second ∧ second ≤ high then
        second :: rest.takeWhile fun b ↦ 0x80 ≤ b && b ≤ 0xbf
      else []

/-- The character of a first byte and the bytes that continue it: six bits of each of these behind
what the first byte has left. -/
def assemble (byte : UInt8) (more : List UInt8) : Char :=
  let high := byte.toNat % Nat.pow 2 (6 - more.length)
  Char.ofNat (more.foldl (fun n b ↦ 64 * n + b.toNat % 64) high)

/-- Decodes from a position on, behind what is decoded already, which is in reverse. -/
def decodeFrom (position : Nat) (done : List Char) (bytes : List UInt8) :
    Except Error (List Char) :=
  match bytes with
  | [] => .ok done.reverse
  | byte :: rest =>
      if byte < 0x80 then decodeFrom (position + 1) (Char.ofNat byte.toNat :: done) rest
      else
        match continuations? byte with
        | none => .error { first := position, last := position, byte, reason := .startByte }
        | some count =>
            let following := rest.take count
            let more := fitting byte following
            if more.length == count then
              decodeFrom (position + 1 + count) (assemble byte more :: done) (rest.drop count)
            else
              let reason :=
                if more.length == following.length then .endOfData else .continuationByte
              .error { first := position, last := position + more.length, byte, reason }
termination_by bytes.length
decreasing_by
  · simp
  · simp only [List.length_cons, List.length_drop]
    omega

def decode (bytes : List UInt8) : Except Error String :=
  (decodeFrom 0 [] bytes).map String.ofList

end Accumulator.Text.Utf8
