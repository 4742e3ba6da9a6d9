import WasmBinary.Text.GraphemeExtend
import WasmBinary.Text.Unprintable

/-!
# Quoted text

A name in a message stands between double quotes, so that it can hold anything and still be told
from the words around it.  Quotes and backslashes inside it are escaped, and so is each character
that a reader would not see as one of its own.
-/

namespace WasmBinary.Text

/-- The hexadecimal digits of `n`, none in front that is zero. -/
def hexadecimal (n : Nat) : String :=
  String.ofList (Nat.toDigits 16 n)

/-- Whether a character has no shape apart from the one before it.  The two halfwidth voicing marks
of the Japanese syllabary extend a grapheme, but are letters with a shape of their own. -/
def isCombining (c : Char) : Bool :=
  isGraphemeExtend c && c ≠ '\uff9e' && c ≠ '\uff9f'

def escaped (c : Char) : String :=
  if c = '"' then "\\\""
  else if c = '\\' then "\\\\"
  else if c = '\t' then "\\t"
  else if c = '\n' then "\\n"
  else if c = '\r' then "\\r"
  else if c.toNat = 0 then "\\0"
  else if isCombining c || isUnprintable c then "\\u\x7b" ++ hexadecimal c.toNat ++ "\x7d"
  else c.toString

def quoted (text : String) : String :=
  "\"" ++ String.join (text.toList.map escaped) ++ "\""

end WasmBinary.Text
