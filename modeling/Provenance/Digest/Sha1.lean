import Provenance.Digest.Block
/-!
SHA-1: eighty rounds per 64-byte block over five words of state.
-/

namespace Provenance.Digest.Sha1

structure State where
  a : UInt32
  b : UInt32
  c : UInt32
  d : UInt32
  e : UInt32

def init : State := ⟨0x67452301, 0xefcdab89, 0x98badcfe, 0x10325476, 0xc3d2e1f0⟩

def schedule (block : List UInt32) : Array UInt32 :=
  (List.range 64).foldl
    (fun w t =>
      w.push (rotl (w.getD (t + 13) 0 ^^^ w.getD (t + 8) 0 ^^^ w.getD (t + 2) 0 ^^^ w.getD t 0) 1))
    block.toArray

def mix (t : Nat) (b c d : UInt32) : UInt32 × UInt32 :=
  if t < 20 then ((b &&& c) ||| (~~~b &&& d), 0x5a827999)
  else if t < 40 then (b ^^^ c ^^^ d, 0x6ed9eba1)
  else if t < 60 then ((b &&& c) ||| (b &&& d) ||| (c &&& d), 0x8f1bbcdc)
  else (b ^^^ c ^^^ d, 0xca62c1d6)

def round (w : Array UInt32) (s : State) (t : Nat) : State :=
  let (f, k) := mix t s.b s.c s.d
  let temp := rotl s.a 5 + f + s.e + k + w.getD t 0
  ⟨temp, s.a, rotl s.b 30, s.c, s.d⟩

def compress (s : State) (block : List UInt32) : State :=
  let w := schedule block
  let r := (List.range 80).foldl (round w) s
  ⟨s.a + r.a, s.b + r.b, s.c + r.c, s.d + r.d, s.e + r.e⟩

def hash (msg : List UInt8) : List UInt8 :=
  let s := (blocks (toWords (pad msg))).foldl compress init
  ofWords [s.a, s.b, s.c, s.d, s.e]

end Provenance.Digest.Sha1
