import CacheAside.Decimal.Binary64

/-!
# JSON values as they are read

A text is read into a tree from left to right, and the tree keeps what matters to a reader that
reports the first problem in the order of the text: where the text breaks a rule of JSON, the tree
ends in a leaf `broken`, and everything before it is still there.  Two rules bind only those values
that somebody looks at: a number has to lie within the range of floating-point numbers, and a text
may hold no unpaired surrogate.  Such values are kept as they are, and whoever only skips them does
not mind.
-/

namespace CacheAside

namespace Json

/-- A number: an integer of 64 bits, signed or unsigned, or else a floating-point number, which is
infinite when it lies beyond the finite ones. -/
inductive Number where
  | integer (n : Int)
  | real (x : Binary64)
  deriving DecidableEq, Repr

/-- A text between quotes; `none` when an escape in it is an unpaired surrogate. -/
abbrev Text := Option String

/-- The integers that an unsigned word of 64 bits holds. -/
def wordLimit : Int := Int.pow 2 64

/-- The integers from `-halfLimit` up to `halfLimit - 1` are those of a signed word of 64 bits. -/
def halfLimit : Int := Int.pow 2 63

end Json

/-- What stands in a text. -/
inductive Json where
  | null
  | boolean (b : Bool)
  | number (n : Json.Number)
  | string (s : Json.Text)
  | array (items : List Json)
  | object (members : List (Json.Text × Json))
  /-- The text breaks a rule here; nothing follows. -/
  | broken
  deriving Repr

namespace Json

/-- A text value. -/
def text (s : String) : Json :=
  .string (some s)

/-- An integer value. -/
def int (n : Int) : Json :=
  .number (.integer n)

/-- A floating-point value; what is not finite has no number in JSON and is `null`. -/
def real (x : Binary64) : Json :=
  if x.isFinite then .number (.real x) else .null

/-- An object of named members. -/
def record (members : List (String × Json)) : Json :=
  .object (members.map fun member => (some member.1, member.2))

/-- The value under a name: of several, the last. -/
def get? (members : List (Text × Json)) (name : String) : Option Json :=
  (members.reverse.find? fun member => member.1 == some name).map Prod.snd

/-- Whether the number has a place in memory. -/
def Number.storable : Number → Bool
  | .integer _ => true
  | .real x => x.isFinite

mutual

/-- Whether the text of the value keeps the rules, so that it may be skipped. -/
def intact : Json → Bool
  | .broken => false
  | .array items => intactItems items
  | .object members => intactMembers members
  | _ => true

/-- All items are intact. -/
def intactItems : List Json → Bool
  | [] => true
  | item :: items => intact item && intactItems items

/-- All members are intact. -/
def intactMembers : List (Text × Json) → Bool
  | [] => true
  | (_, value) :: members => intact value && intactMembers members

end

mutual

/-- Whether the value may be stored: numbers in range, no unpaired surrogate, and containers nested
at most `depth` deep. -/
def storable (depth : Nat) : Json → Bool
  | .broken => false
  | .null => true
  | .boolean _ => true
  | .number n => n.storable
  | .string s => s.isSome
  | .array items => 0 < depth && storableItems (depth - 1) items
  | .object members => 0 < depth && storableMembers (depth - 1) members

/-- All items may be stored. -/
def storableItems (depth : Nat) : List Json → Bool
  | [] => true
  | item :: items => storable depth item && storableItems depth items

/-- All members may be stored. -/
def storableMembers (depth : Nat) : List (Text × Json) → Bool
  | [] => true
  | (name, value) :: members =>
    name.isSome && storable depth value && storableMembers depth members

end

end Json

end CacheAside
