import Splice.Text.Combining
import Splice.Text.Unprintable

/-!
# Quoted text

Text between double quotes on one line, in which every character that would not show as itself is
written as an escape.
-/

namespace Splice.Text

/-- A quote, a backslash and the four common controls have escapes of two characters; any other
character that does not show by itself is written by its code point. -/
def escape (c : Char) : List Char :=
  if c = '\x00' then ['\\', '0']
  else if c = '\t' then ['\\', 't']
  else if c = '\r' then ['\\', 'r']
  else if c = '\n' then ['\\', 'n']
  else if c = '"' then ['\\', '"']
  else if c = '\\' then ['\\', '\\']
  else if isCombining c || isUnprintable c then
    ['\\', 'u', '\x7b'] ++ Nat.toDigits 16 c.toNat ++ ['\x7d']
  else [c]

def quoted (s : String) : String :=
  String.ofList (['"'] ++ s.toList.flatMap escape ++ ['"'])

end Splice.Text
