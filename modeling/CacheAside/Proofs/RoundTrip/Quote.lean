import CacheAside.Proofs.RoundTrip.Digits

/-!
# Texts between quotes read back

Each character of a text is written by itself, so one lemma on a character (`quoted?_escape`) gives
the whole text.
-/

namespace CacheAside.Json

open Text

/-- A control character without a short escape is written with its code. -/
theorem quoted?_code {n : Nat} (lt : n < 0x20) (rest : List Char) :
    quoted? none ('\\' :: 'u' :: (hexDigits 4 n ++ rest)) =
      (quoted? none rest).push (Char.ofNat n) := by
  have hread := readHex?_hexDigits (Nat.lt_trans lt (by decide))
  have hhigh : isHighSurrogate n = false := by
    simp only [isHighSurrogate, Bool.and_eq_false_iff, decide_eq_false_iff_not]
    omega
  have hlow : isLowSurrogate n = false := by
    simp only [isLowSurrogate, Bool.and_eq_false_iff, decide_eq_false_iff_not]
    omega
  simp only [hexDigits, List.nil_append, List.cons_append] at hread ⊢
  simp [quoted?, hread, hhigh, hlow, TextRead.after]

/-- A character that needs no escape stands for itself. -/
theorem quoted?_plain {c : Char} (hquote : c ≠ '"') (hbackslash : c ≠ '\\')
    (printable : ¬ c.toNat < 0x20) (rest : List Char) :
    quoted? none (c :: rest) = (quoted? none rest).push c := by
  rw [quoted?, if_neg printable]
  · rfl
  · exact hquote
  · exact fun _ _ _ _ _ h _ => hbackslash h
  · exact fun _ _ h _ => hbackslash h

/-- What a character is written as is read as that character. -/
theorem quoted?_escape (c : Char) (rest : List Char) :
    quoted? none (escape c ++ rest) = (quoted? none rest).push c := by
  simp only [escape]
  split
  case h_8 hquote hbackslash _ _ _ _ _ =>
    split
    · rename_i hlt
      rw [List.cons_append, List.cons_append, quoted?_code hlt, Char.ofNat_toNat]
    · rename_i hge
      exact quoted?_plain hquote hbackslash hge rest
  all_goals simp [quoted?, escape?, TextRead.after]

/-- Whatever its characters, a text is read up to its closing quote. -/
theorem quoted?_escapes (cs rest : List Char) :
    quoted? none (cs.flatMap escape ++ '"' :: rest) = some (some cs, rest) := by
  induction cs with
  | nil => simp [quoted?, TextRead.after]
  | cons c cs ih =>
    rw [List.flatMap_cons, List.append_assoc, quoted?_escape, ih]
    rfl

end CacheAside.Json
