import CacheAside.Text.Extending
import CacheAside.Text.Hex
import CacheAside.Text.Unprintable

/-!
# Texts quoted in messages

A message that quotes a text shows it between double quotes.  The quote, the backslash and all
characters that leave no mark of their own on paper are escaped.
-/

namespace CacheAside.Text

/-- The escape of a character by its code point. -/
def codeEscape (c : Char) : List Char :=
  "\\u\x7b".toList ++ hexShort c.toNat ++ ['}']

/-- Whether a character is shown by its code point. -/
def isHidden (c : Char) : Bool :=
  unprintableRanges.contains c || extendingRanges.contains c

/-- A character in a quoted text. -/
def quotedChar (c : Char) : List Char :=
  match c with
  | '\x00' => ['\\', '0']
  | '\t' => ['\\', 't']
  | '\n' => ['\\', 'n']
  | '\r' => ['\\', 'r']
  | '"' => ['\\', '"']
  | '\\' => ['\\', '\\']
  | c => if isHidden c then codeEscape c else [c]

/-- The quoted form of a text. -/
def quoted (s : String) : String :=
  String.ofList ('"' :: (s.toList.flatMap quotedChar ++ ['"']))

end CacheAside.Text
