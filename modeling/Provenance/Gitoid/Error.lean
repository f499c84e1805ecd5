import Provenance.Text.Hex
/-!
Why a value given as text could not be read: a hex string, a digest of the
wrong length, an algorithm or compile mode name, a gitoid URI.
-/

namespace Provenance

open Text.Hex

inductive ValueError where
  | invalidHex (e : HexError)
  | invalidLength (expected actual : Nat)
  | unknownAlgorithm (name : String)
  | unknownCompileMode (name : String)
  | invalidUri (uri : String)
  deriving DecidableEq, Repr

def ValueError.message : ValueError → String
  | .invalidHex e => "invalid hex string: " ++ e.message
  | .invalidLength e a =>
    "invalid byte length: expected " ++ toString e ++ ", got " ++ toString a
  | .unknownAlgorithm s => "unknown hash algorithm: " ++ s
  | .unknownCompileMode s => "unknown compile mode: " ++ s
  | .invalidUri u => "invalid gitoid URI: " ++ u

def ValueError.kind : ValueError → String
  | .invalidHex _ => "InvalidHex"
  | .invalidLength _ _ => "InvalidLength"
  | .unknownAlgorithm _ => "UnknownAlgorithm"
  | .unknownCompileMode _ => "UnknownCompileMode"
  | .invalidUri _ => "InvalidUri"

end Provenance
