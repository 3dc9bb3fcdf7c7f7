import CacheAside.Decimal.Notation
import CacheAside.Json.Basic
import CacheAside.Text.Hex

/-!
# From JSON values to text

The compact form has no blanks.  In texts only the quote, the backslash and the control characters
are escaped, with the short escapes where JSON has one.  The indented form puts every member and
every item on a line of its own.
-/

namespace CacheAside.Json

open Text

/-- A character between quotes. -/
def escape (c : Char) : List Char :=
  match c with
  | '"' => ['\\', '"']
  | '\\' => ['\\', '\\']
  | '\x08' => ['\\', 'b']
  | '\x0c' => ['\\', 'f']
  | '\n' => ['\\', 'n']
  | '\r' => ['\\', 'r']
  | '\t' => ['\\', 't']
  | c => if c.toNat < 0x20 then '\\' :: 'u' :: hexDigits 4 c.toNat else [c]

/-- A text between its quotes. -/
def quote (s : String) : List Char :=
  '"' :: (s.toList.flatMap escape ++ ['"'])

/-- An integer. -/
def intChars (n : Int) : List Char :=
  if n < 0 then '-' :: digitsOf n.natAbs else digitsOf n.natAbs

def Number.toChars : Number → List Char
  | .integer n => intChars n
  | .real x => x.toChars

/-- A name or a text; one that holds an unpaired surrogate is left empty. -/
def textChars (s : Text) : List Char :=
  quote (s.getD "")

mutual

/-- The compact form as characters. -/
def toChars : Json → List Char
  | .null => "null".toList
  | .boolean true => "true".toList
  | .boolean false => "false".toList
  | .number n => n.toChars
  | .string s => textChars s
  | .array items => '[' :: itemChars items
  | .object members => '{' :: memberChars members
  | .broken => []

/-- Items and the closing bracket. -/
def itemChars : List Json → List Char
  | [] => [']']
  | [item] => toChars item ++ [']']
  | item :: items => toChars item ++ ',' :: itemChars items

/-- Members and the closing brace. -/
def memberChars : List (Text × Json) → List Char
  | [] => ['}']
  | [(name, value)] => textChars name ++ ':' :: (toChars value ++ ['}'])
  | (name, value) :: members =>
    textChars name ++ ':' :: (toChars value ++ ',' :: memberChars members)

end

/-- The compact form. -/
def compress (j : Json) : String :=
  String.ofList j.toChars

/-- A line break and the blanks of a nesting depth. -/
def newLine (depth : Nat) : List Char :=
  '\n' :: List.replicate (2 * depth) ' '

mutual

/-- The indented form as characters, inside `depth` containers. -/
def indented (depth : Nat) : Json → List Char
  | .array [] => "[]".toList
  | .object [] => "\x7b\x7d".toList
  | .array (item :: items) => '[' :: indentedItems depth (item :: items)
  | .object (member :: members) => '{' :: indentedMembers depth (member :: members)
  | j => toChars j

def indentedItems (depth : Nat) : List Json → List Char
  | [] => newLine depth ++ [']']
  | [item] => newLine (depth + 1) ++ indented (depth + 1) item ++ newLine depth ++ [']']
  | item :: items =>
    newLine (depth + 1) ++ indented (depth + 1) item ++ ',' :: indentedItems depth items

def indentedMembers (depth : Nat) : List (Text × Json) → List Char
  | [] => newLine depth ++ ['}']
  | [(name, value)] =>
    newLine (depth + 1) ++ textChars name ++ ':' :: ' ' ::
      (indented (depth + 1) value ++ newLine depth ++ ['}'])
  | (name, value) :: members =>
    newLine (depth + 1) ++ textChars name ++ ':' :: ' ' ::
      (indented (depth + 1) value ++ ',' :: indentedMembers depth members)

end

/-- The indented form. -/
def pretty (j : Json) : String :=
  String.ofList (j.indented 0)

end CacheAside.Json
