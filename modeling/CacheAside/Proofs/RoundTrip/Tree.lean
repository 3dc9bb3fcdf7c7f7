import CacheAside.Json.Decode
import CacheAside.Proofs.Fallible
import CacheAside.Proofs.RoundTrip.Numbers
import CacheAside.Proofs.RoundTrip.Quote

/-!
# JSON trees read back

`Writable` says which trees a text can hold: those without a broken leaf or a spoilt text, with
integers of 64 bits and finite weights.  Of such a tree the compact text is read to the tree itself,
whatever follows it (`value_toChars`).  The fuel that reading needs is at most the length of the
text, since each nested call has at least one character less before it.
-/

namespace CacheAside.Json

/-! ## What a text can hold -/

mutual

/-- Whether the compact text of the tree can be read back. -/
def Writable : Json → Prop
  | .null => True
  | .boolean _ => True
  | .number n => n.Writable
  | .string s => s.isSome = true
  | .array items => WritableItems items
  | .object members => WritableMembers members
  | .broken => False

def WritableItems : List Json → Prop
  | [] => True
  | item :: items => Writable item ∧ WritableItems items

def WritableMembers : List (Text × Json) → Prop
  | [] => True
  | (name, value) :: members => name.isSome = true ∧ Writable value ∧ WritableMembers members

end

/-! ## One step of the reader -/

theorem skipSpace_cons {c : Char} (h : isSpace c = false) (cs : List Char) :
    skipSpace (c :: cs) = c :: cs := by
  simp [skipSpace, h]

theorem endsNumber_cons {c : Char} (h : c.isDigit = false ∧ c ≠ '.' ∧ c ≠ 'e' ∧ c ≠ 'E')
    (cs : List Char) : EndsNumber (c :: cs) := by
  intro d hd
  cases hd
  exact h

/-- A number starts as no other value does. -/
theorem sign_ne {c d : Char} (sign : c = '-' ∨ c.isDigit = true)
    (other : d ≠ '-' ∧ d.isDigit = false) : c ≠ d := by
  rintro rfl
  rcases sign with hminus | hdigit
  · exact other.1 hminus
  · exact Bool.noConfusion (other.2.symm.trans hdigit)

theorem isSpace_sign {c : Char} (sign : c = '-' ∨ c.isDigit = true) : isSpace c = false := by
  have hother (d : Char) := @sign_ne c d sign
  simp [isSpace, hother ' ' (by decide), hother '\n' (by decide), hother '\t' (by decide),
    hother '\r' (by decide)]

section Steps

variable {fuel : Nat} {cs ds rest : List Char} {left : Option (List Char)} {j : Json}
  {tail : List Json} {members : List (Text × Json)}

theorem value_number {n : Number} (h : number? cs = some (n, rest)) :
    value (fuel + 1) cs = (.number n, some rest) := by
  obtain ⟨c, ds, rfl, hc⟩ := exists_sign_of_number? h
  have hother (d : Char) := @sign_ne c d hc
  simp [value, skipSpace_cons (isSpace_sign hc), hother 'n' (by decide), hother 't' (by decide),
    hother 'f' (by decide), hother '"' (by decide), hother '[' (by decide),
    hother '{' (by decide), h]

theorem value_text {s : List Char} (h : quoted? none cs = some (some s, rest)) :
    value (fuel + 1) ('"' :: cs) = (.text (String.ofList s), some rest) := by
  simp [value, skipSpace_cons (c := '"') rfl, h, text]

/-- An array with items: what follows the bracket is neither a blank nor the other bracket. -/
theorem value_array {c : Char} (space : isSpace c = false) (bracket : c ≠ ']')
    (h : items fuel (c :: cs) = (tail, left)) :
    value (fuel + 1) ('[' :: c :: cs) = (.array tail, left) := by
  simp [value, skipSpace_cons (c := '[') rfl, skipSpace_cons space, bracket, h]

/-- An object with members. -/
theorem value_object (h : Json.members fuel ('"' :: cs) = (members, left)) :
    value (fuel + 1) ('{' :: '"' :: cs) = (.object members, left) := by
  simp [value, skipSpace_cons (c := '{') rfl, skipSpace_cons (c := '"') rfl, h]

theorem items_last (h : value fuel cs = (j, some (']' :: rest))) :
    items (fuel + 1) cs = ([j], some rest) := by
  simp [items, h, skipSpace_cons (c := ']') rfl]

theorem items_more (h : value fuel cs = (j, some (',' :: ds)))
    (more : items fuel ds = (tail, left)) : items (fuel + 1) cs = (j :: tail, left) := by
  simp [items, h, skipSpace_cons (c := ',') rfl, more]

theorem members_last {name : List Char} (named : quoted? none cs = some (some name, ':' :: ds))
    (h : value fuel ds = (j, some ('}' :: rest))) :
    Json.members (fuel + 1) ('"' :: cs) = ([(some (String.ofList name), j)], some rest) := by
  simp [Json.members, skipSpace_cons (c := '"') rfl, named, skipSpace_cons (c := ':') rfl, h,
    skipSpace_cons (c := '}') rfl]

theorem members_more {name es : List Char}
    (named : quoted? none cs = some (some name, ':' :: ds))
    (h : value fuel ds = (j, some (',' :: es)))
    (more : Json.members fuel es = (members, left)) :
    Json.members (fuel + 1) ('"' :: cs) = ((some (String.ofList name), j) :: members, left) := by
  simp [Json.members, skipSpace_cons (c := '"') rfl, named, skipSpace_cons (c := ':') rfl, h,
    skipSpace_cons (c := ',') rfl, more]

end Steps

/-! ## Whole trees -/

/-- The text of a tree starts with neither a blank nor a closing bracket. -/
theorem exists_cons_toChars {j : Json} (writable : j.Writable) :
    ∃ c cs, j.toChars = c :: cs ∧ isSpace c = false ∧ c ≠ ']' := by
  cases j with
  | null => exact ⟨'n', _, rfl, rfl, by decide⟩
  | boolean b =>
    cases b with
    | true => exact ⟨'t', _, rfl, rfl, by decide⟩
    | false => exact ⟨'f', _, rfl, rfl, by decide⟩
  | number n =>
    rw [Writable] at writable
    obtain ⟨c, cs, heq, hc⟩ := exists_sign_of_number? (@number?_toChars n writable [] nofun)
    rw [List.append_nil] at heq
    rw [toChars]
    exact ⟨c, cs, heq, isSpace_sign hc, sign_ne hc (by decide)⟩
  | string s => exact ⟨'"', _, by rw [toChars, textChars, quote], rfl, by decide⟩
  | array items => exact ⟨'[', _, by rw [toChars], rfl, by decide⟩
  | object members => exact ⟨'{', _, by rw [toChars], rfl, by decide⟩
  | broken => exact absurd writable (by simp [Writable])

theorem itemChars_more (item next : Json) (tail : List Json) :
    itemChars (item :: next :: tail) = item.toChars ++ ',' :: itemChars (next :: tail) := by
  simp [itemChars]

theorem memberChars_more (name : Text) (value : Json) (next : Text × Json)
    (tail : List (Text × Json)) :
    memberChars ((name, value) :: next :: tail) =
      textChars name ++ ':' :: (value.toChars ++ ',' :: memberChars (next :: tail)) := by
  simp [memberChars]

theorem length_toChars_pos {j : Json} (writable : j.Writable) : 0 < j.toChars.length := by
  obtain ⟨c, cs, hcons, -⟩ := exists_cons_toChars writable
  rw [hcons]
  exact Nat.succ_pos _

theorem exists_cons_itemChars {item : Json} {tail : List Json}
    (writable : WritableItems (item :: tail)) :
    ∃ c cs, itemChars (item :: tail) = c :: cs ∧ isSpace c = false ∧ c ≠ ']' := by
  rw [WritableItems] at writable
  obtain ⟨c, cs, hcons, hc⟩ := exists_cons_toChars writable.1
  cases tail with
  | nil => exact ⟨c, _, by rw [itemChars, hcons, List.cons_append], hc⟩
  | cons next tail => exact ⟨c, _, by rw [itemChars_more, hcons, List.cons_append], hc⟩

/-- The text of a name, as the reader comes to it. -/
theorem textChars_append (name : String) (rest : List Char) :
    textChars (some name) ++ rest = '"' :: (name.toList.flatMap escape ++ '"' :: rest) := by
  simp [textChars, quote]

theorem exists_quote_memberChars (name : String) (j : Json) (tail : List (Text × Json)) :
    ∃ cs, memberChars ((some name, j) :: tail) = '"' :: cs := by
  cases tail with
  | nil => exact ⟨_, by rw [memberChars, textChars_append]⟩
  | cons next tail => exact ⟨_, by rw [memberChars_more, textChars_append]⟩

mutual

/-- The text of a writable tree is read to that tree. -/
theorem value_toChars : (j : Json) → j.Writable → (fuel : Nat) → (rest : List Char) →
    j.toChars.length ≤ fuel + 1 → EndsNumber rest →
      value (fuel + 1) (j.toChars ++ rest) = (j, some rest)
  | .null, _, fuel, rest, _, _ => by simp [toChars, value, skipSpace, isSpace, word]
  | .boolean true, _, fuel, rest, _, _ => by simp [toChars, value, skipSpace, isSpace, word]
  | .boolean false, _, fuel, rest, _, _ => by simp [toChars, value, skipSpace, isSpace, word]
  | .number n, writable, fuel, rest, _, ends => by
    rw [Writable] at writable
    exact value_number (number?_toChars writable ends)
  | .string none, writable, fuel, rest, _, _ => by simp [Writable] at writable
  | .string (some s), _, fuel, rest, _, _ => by
    rw [toChars, textChars_append, value_text (quoted?_escapes s.toList rest), String.ofList_toList]
    rfl
  | .array [], _, fuel, rest, _, _ => by
    simp [toChars, itemChars, value, skipSpace, isSpace]
  | .array (item :: tail), writable, fuel, rest, enough, _ => by
    rw [Writable] at writable
    rw [toChars, List.length_cons] at enough
    obtain ⟨c, cs, hcons, hspace, hbracket⟩ := exists_cons_itemChars writable
    have hpos : 0 < (itemChars (item :: tail)).length := by simp [hcons]
    obtain ⟨fuel, rfl⟩ : ∃ n, fuel = n + 1 := ⟨fuel - 1, by omega⟩
    have hitems := items_itemChars (item :: tail) (List.cons_ne_nil item tail) writable fuel rest
      (by omega)
    rw [hcons, List.cons_append] at hitems
    rw [toChars, hcons]
    exact value_array hspace hbracket hitems
  | .object [], _, fuel, rest, _, _ => by
    simp [toChars, memberChars, value, skipSpace, isSpace]
  | .object ((none, j) :: tail), writable, fuel, rest, _, _ => by
    simp [Writable, WritableMembers] at writable
  | .object ((some name, j) :: tail), writable, fuel, rest, enough, _ => by
    rw [Writable] at writable
    rw [toChars, List.length_cons] at enough
    obtain ⟨cs, hcons⟩ := exists_quote_memberChars name j tail
    have hpos : 0 < (memberChars ((some name, j) :: tail)).length := by simp [hcons]
    obtain ⟨fuel, rfl⟩ : ∃ n, fuel = n + 1 := ⟨fuel - 1, by omega⟩
    have hmembers := members_memberChars ((some name, j) :: tail) (List.cons_ne_nil _ tail) writable
      fuel rest (by omega)
    rw [hcons, List.cons_append] at hmembers
    rw [toChars, hcons]
    exact value_object hmembers

theorem items_itemChars : (tail : List Json) → tail ≠ [] → WritableItems tail → (fuel : Nat) →
    (rest : List Char) → (itemChars tail).length ≤ fuel + 1 →
      items (fuel + 1) (itemChars tail ++ rest) = (tail, some rest)
  | [], ne, _, _, _, _ => absurd rfl ne
  | [item], _, writable, fuel, rest, enough => by
    rw [WritableItems] at writable
    rw [itemChars, List.length_append, List.length_singleton] at enough
    have hpos := length_toChars_pos writable.1
    obtain ⟨fuel, rfl⟩ : ∃ n, fuel = n + 1 := ⟨fuel - 1, by omega⟩
    have hitem := value_toChars item writable.1 fuel (']' :: rest) (by omega)
      (endsNumber_cons (by decide) rest)
    rw [itemChars, List.append_assoc]
    exact items_last hitem
  | item :: next :: tail, _, writable, fuel, rest, enough => by
    rw [WritableItems] at writable
    rw [itemChars_more, List.length_append, List.length_cons] at enough
    have hpos := length_toChars_pos writable.1
    obtain ⟨fuel, rfl⟩ : ∃ n, fuel = n + 1 := ⟨fuel - 1, by omega⟩
    have hitem := value_toChars item writable.1 fuel (',' :: (itemChars (next :: tail) ++ rest))
      (by omega) (endsNumber_cons (by decide) _)
    have htail := items_itemChars (next :: tail) (List.cons_ne_nil next tail) writable.2 fuel rest
      (by omega)
    rw [itemChars_more, List.append_assoc]
    exact items_more hitem htail

theorem members_memberChars : (tail : List (Text × Json)) → tail ≠ [] → WritableMembers tail →
    (fuel : Nat) → (rest : List Char) → (memberChars tail).length ≤ fuel + 1 →
      members (fuel + 1) (memberChars tail ++ rest) = (tail, some rest)
  | [], ne, _, _, _, _ => absurd rfl ne
  | (none, j) :: tail, _, writable, _, _, _ => by simp [WritableMembers] at writable
  | [(some name, j)], _, writable, fuel, rest, enough => by
    rw [WritableMembers] at writable
    simp only [memberChars, List.length_append, List.length_cons, List.length_nil] at enough
    have hpos := length_toChars_pos writable.2.1
    obtain ⟨fuel, rfl⟩ : ∃ n, fuel = n + 1 := ⟨fuel - 1, by omega⟩
    have hvalue := value_toChars j writable.2.1 fuel ('}' :: rest) (by omega)
      (endsNumber_cons (by decide) rest)
    have hmembers := members_last (quoted?_escapes name.toList _) hvalue
    simpa [memberChars, textChars_append, String.ofList_toList] using hmembers
  | (some name, j) :: next :: tail, _, writable, fuel, rest, enough => by
    rw [WritableMembers] at writable
    simp only [memberChars_more, List.length_append, List.length_cons] at enough
    have hpos := length_toChars_pos writable.2.1
    obtain ⟨fuel, rfl⟩ : ∃ n, fuel = n + 1 := ⟨fuel - 1, by omega⟩
    have hvalue := value_toChars j writable.2.1 fuel
      (',' :: (memberChars (next :: tail) ++ rest)) (by omega) (endsNumber_cons (by decide) _)
    have htail := members_memberChars (next :: tail) (List.cons_ne_nil next tail) writable.2.2 fuel
      rest (by omega)
    have hmembers := members_more (quoted?_escapes name.toList _) hvalue htail
    simpa [memberChars_more, textChars_append, String.ofList_toList] using hmembers

end

/-- The compact text of a tree holds that tree and nothing else. -/
theorem Document.read_compress {j : Json} (writable : j.Writable) :
    Document.read j.compress = ⟨j, false⟩ := by
  have hvalue := value_toChars j writable (2 * j.toChars.length + 1) [] (by omega) nofun
  rw [List.append_nil] at hvalue
  simp only [Document.read, compress, String.toList_ofList, hvalue]
  rfl

end CacheAside.Json

namespace CacheAside

open Json

/-- A tree that decodes to a value is, as compact text, decoded to that value. -/
theorem decodeText_compress {α : Type} {decode : Decoder α} {j : Json} {a : α}
    (writable : j.Writable) (decoded : decode (.streamed 0) j = .ok a) :
    decodeText decode j.compress = .ok a := by
  simp [decodeText, Document.read_compress writable, decoded, pure, Except.pure]

end CacheAside
