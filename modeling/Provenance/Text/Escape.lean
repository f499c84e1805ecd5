import Provenance.Text.GraphemeExtend
import Provenance.Text.Printable
/-!
Quoted text as diagnostics show it: a character between single quotes, a
string between double quotes. Backslash, the quote that encloses, NUL, tab,
carriage return and line feed take a short escape; a character that does not
print, or that extends the character before it, is written as `\u{hex}`
with lowercase digits and no leading zeros; everything else stands for
itself.
-/

namespace Provenance.Text.Escape

open Provenance.Text

def hexDigits (n : Nat) : String :=
  String.ofList (Nat.toDigits 16 n)

/-- Code points that are shown as `\u{...}`: those that extend the character
before them and those that do not print. -/
def hidden (n : Nat) : Bool := isGraphemeExtend n || !isPrintable n

def escapeChar (quote : Char) (c : Char) : List Char :=
  if c = '\\' then ['\\', '\\']
  else if c = quote then ['\\', c]
  else if c = '\x00' then ['\\', '0']
  else if c = '\t' then ['\\', 't']
  else if c = '\r' then ['\\', 'r']
  else if c = '\n' then ['\\', 'n']
  else if hidden c.toNat then
    ['\\', 'u', '\x7b'] ++ Nat.toDigits 16 c.toNat ++ ['\x7d']
  else [c]

def quoteChar (c : Char) : String :=
  String.ofList ('\'' :: escapeChar '\'' c ++ ['\''])

def quoteString (s : String) : String :=
  String.ofList ('"' :: s.toList.flatMap (escapeChar '"') ++ ['"'])

end Provenance.Text.Escape
