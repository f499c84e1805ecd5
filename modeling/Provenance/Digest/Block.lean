/-!
The message layout shared by SHA-1 and SHA-256: bytes packed into big-endian
32-bit words, the padding (a one bit, zeros, the bit length as a 64-bit
big-endian number) that makes the length a multiple of 64 bytes, and the cut
into 16-word blocks.
-/

namespace Provenance.Digest

def word (a b c d : UInt8) : UInt32 :=
  (a.toUInt32 <<< 24) ||| (b.toUInt32 <<< 16) ||| (c.toUInt32 <<< 8) ||| d.toUInt32

/-- Bytes as big-endian words; a last group of fewer than four bytes is dropped. -/
def toWords : List UInt8 → List UInt32
  | a :: b :: c :: d :: rest => word a b c d :: toWords rest
  | _ => []

def wordBytes (w : UInt32) : List UInt8 :=
  [(w >>> 24).toUInt8, (w >>> 16).toUInt8, (w >>> 8).toUInt8, w.toUInt8]

def ofWords (ws : List UInt32) : List UInt8 :=
  ws.flatMap wordBytes

/-- A number as `n` big-endian bytes, taken modulo `256 ^ n`. -/
def bigEndian (n value : Nat) : List UInt8 :=
  (List.range n).reverse.map fun i => UInt8.ofNat (value / Nat.pow 256 i)

/-- The padded message: its length is a multiple of 64 bytes. -/
def pad (msg : List UInt8) : List UInt8 :=
  msg ++ 0x80 :: List.replicate ((119 - msg.length % 64) % 64) 0 ++ bigEndian 8 (8 * msg.length)

def blocks (ws : List UInt32) : List (List UInt32) :=
  if ws = [] then [] else ws.take 16 :: blocks (ws.drop 16)
termination_by ws.length
decreasing_by
  cases ws with
  | nil => contradiction
  | cons w rest => simp only [List.length_drop, List.length_cons]; omega

def rotl (x : UInt32) (n : UInt32) : UInt32 := (x <<< n) ||| (x >>> (32 - n))

def rotr (x : UInt32) (n : UInt32) : UInt32 := (x >>> n) ||| (x <<< (32 - n))

end Provenance.Digest
