import Mathlib.Data.List.TakeDrop
import Mathlib.Data.List.TakeWhile
import MolecularTools.Json.Printer
import MolecularTools.Json.Reader
import MolecularTools.Proofs.Decimal.Numerals

/-! Strings and natural numbers in JSON. Each character is read back from the way it is escaped,
and digits are read back as long as they fit sixty-four bits. -/
namespace MolecularTools

namespace Text

theorem span_append {p : Char → Bool} {front rest : List Char} (within : ∀ c ∈ front, p c = true)
    (stops : ∀ c ∈ rest.head?, p c = false) : (front ++ rest).span p = (front, rest) := by
  have behind : rest.takeWhile p = [] ∧ rest.dropWhile p = rest := by
    cases rest with
    | nil => exact ⟨rfl, rfl⟩
    | cons c rest => simp [stops c rfl]
  rw [List.span_eq_takeWhile_dropWhile, List.takeWhile_append_of_pos within,
    List.dropWhile_append_of_pos within, behind.1, behind.2, List.append_nil]

theorem hexValue?_hexDigit {n : Nat} (digit : n < 16) : hexValue? (hexDigit n) = some n := by
  have each : ∀ n < 16, hexValue? (hexDigit n) = some n := by decide
  exact each n digit

theorem utf8Size_hexDigit {n : Nat} (digit : n < 16) : (hexDigit n).utf8Size = 1 := by
  have each : ∀ n < 16, (hexDigit n).utf8Size = 1 := by decide
  exact each n digit

end Text

namespace Json

theorem readFour_hexDigits {a b c d : Nat} (first : a < 16) (second : b < 16) (third : c < 16)
    (fourth : d < 16) (rest : List Char) :
    readFour (Text.hexDigit a :: Text.hexDigit b :: Text.hexDigit c :: Text.hexDigit d :: rest) =
      .ok (4096 * a + 256 * b + 16 * c + d, rest) := by
  simp [readFour, fourDigits?, Text.utf8Size_hexDigit, Text.hexValue?_hexDigit, *]

/-- A control character is read back from its code point. -/
theorem readChar_control {c : Char} (control : c.toNat < 0x20) (rest : List Char) :
    readChar ('\\' :: 'u' :: '0' :: '0' :: Text.hexDigit (c.toNat / 16) ::
      Text.hexDigit (c.toNat % 16) :: rest) = .ok (some c, rest) := by
  have four := readFour_hexDigits (a := 0) (b := 0) (by decide) (by decide)
    (show c.toNat / 16 < 16 by omega) (show c.toNat % 16 < 16 by omega) rest
  have whole : 4096 * 0 + 256 * 0 + 16 * (c.toNat / 16) + c.toNat % 16 = c.toNat := by omega
  have zero : Text.hexDigit 0 = '0' := rfl
  rw [whole, zero] at four
  have plain : isTrailing c.toNat = false ∧ isLeading c.toNat = false := by
    simp only [isTrailing, isLeading, Bool.and_eq_false_iff, decide_eq_false_iff_not]
    omega
  simp [readChar, readUnit, four, bind, Except.bind, plain.1, plain.2, Char.ofNat_toNat]

/-- A character that stands for itself. -/
theorem readChar_plain {c : Char} (unquoted : c ≠ '"') (unescaped : c ≠ '\\')
    (visible : ¬c.toNat < 0x20) (rest : List Char) :
    readChar (c :: rest) = .ok (some c, rest) := by
  rw [readChar.eq_def]
  split
  · contradiction
  · simp_all
  · simp_all
  · simp_all
  · simp_all
  · rename_i d ds _ _ _ _ same
    obtain ⟨rfl, rfl⟩ := List.cons.inj same
    rw [if_neg visible]

/-- Every character is read back from its escape. -/
theorem readChar_escape (c : Char) (rest : List Char) :
    readChar (escape c ++ rest) = .ok (some c, rest) := by
  rw [escape]
  split
  · rename_i same
    rw [same]
    rfl
  split
  · rename_i same
    rw [same]
    rfl
  split
  · rename_i same
    rw [same]
    rfl
  split
  · rename_i same
    rw [same]
    rfl
  split
  · rename_i same
    rw [same]
    rfl
  split
  · rename_i same
    rw [same]
    rfl
  split
  · rename_i same
    rw [same]
    rfl
  split
  · rename_i control
    exact readChar_control control rest
  · rename_i unquoted unescaped _ _ _ _ _ visible
    exact readChar_plain unquoted unescaped visible rest

theorem escape_ne_nil (c : Char) : escape c ≠ [] := by
  intro none
  have read := readChar_escape c []
  rw [none] at read
  contradiction

theorem readStringWithin_escaped (cs done rest : List Char) (enough : cs.length < fuel) :
    readStringWithin fuel done (cs.flatMap escape ++ '"' :: rest) = .ok (done.reverse ++ cs, rest) := by
  induction cs generalizing fuel done with
  | nil =>
    cases fuel with
    | zero => contradiction
    | succ fuel =>
      rw [List.append_nil]
      rfl
  | cons c cs ih =>
    cases fuel with
    | zero => contradiction
    | succ fuel =>
      have further := ih (c :: done) (Nat.lt_of_succ_lt_succ enough)
      rw [List.flatMap_cons, List.append_assoc, readStringWithin, readChar_escape]
      simpa [bind, Except.bind] using further

theorem length_le_escaped (cs : List Char) : cs.length ≤ (cs.flatMap escape).length := by
  induction cs with
  | nil => exact Nat.le_refl 0
  | cons c cs ih =>
    have some := List.length_pos_iff.mpr (escape_ne_nil c)
    rw [List.flatMap_cons, List.length_append, List.length_cons]
    omega

/-- A printed string is read back behind its first quote. -/
theorem readString_printed (s : String) (rest : List Char) :
    readString (s.toList.flatMap escape ++ '"' :: rest) = .ok (s, rest) := by
  have enough : s.toList.length < (s.toList.flatMap escape ++ '"' :: rest).length + 1 := by
    have bound := length_le_escaped s.toList
    rw [List.length_append]
    omega
  rw [readString, readStringWithin_escaped s.toList [] rest enough]
  simp [Except.map]

/-- Digits are all taken up if their number fits. -/
theorem takeDigits_fits {ds : List Char} {n : Nat}
    (fits : Nat.ofDigitChars 10 ds n < wordBound) :
    takeDigits n ds = (Nat.ofDigitChars 10 ds n, []) := by
  induction ds generalizing n with
  | nil => rfl
  | cons c ds ih =>
    rw [Nat.ofDigitChars_cons] at fits ⊢
    have grows := le_ofDigitChars ds (10 * n + (c.toNat - '0'.toNat))
    rw [takeDigits]
    exact (if_pos (Nat.lt_of_le_of_lt grows fits)).trans (ih fits)
where
  le_ofDigitChars (ds : List Char) (n : Nat) : n ≤ Nat.ofDigitChars 10 ds n := by
    induction ds generalizing n with
    | nil => exact Nat.le_refl n
    | cons c ds ih =>
      rw [Nat.ofDigitChars_cons]
      exact Nat.le_trans (by omega) (ih _)

theorem takeDigits_lt {n : Nat} (fits : n < wordBound) (ds : List Char) :
    (takeDigits n ds).1 < wordBound := by
  induction ds generalizing n with
  | nil => exact fits
  | cons c ds ih =>
    rw [takeDigits]
    split
    · rename_i next
      exact ih next
    · exact fits

/-- A positive number is not written with a zero in front. -/
theorem head_toDigits {n : Nat} (positive : 0 < n) : (Nat.toDigits 10 n).head? ≠ some '0' := by
  induction n using Nat.strongRecOn with
  | ind n ih =>
    by_cases small : n < 10
    · have each : ∀ n < 10, 0 < n → n.digitChar ≠ '0' := by decide
      rw [Nat.toDigits_of_lt_base small]
      exact fun zero => each n small positive (Option.some.inj zero)
    · have upper := ih (n / 10) (by omega) (by omega)
      rw [Nat.toDigits_of_base_le (by decide) (Nat.le_of_not_lt small), List.head?_append]
      cases front : (Nat.toDigits 10 (n / 10)).head? with
      | none => exact absurd (List.head?_eq_none_iff.mp front) Nat.toDigits_ne_nil
      | some c => simpa [front] using upper

/-- Behind a value, the text ends or the list or map that holds the value goes on. -/
def Closes (rest : List Char) : Prop := ∀ c ∈ rest.head?, c = ',' ∨ c = ']' ∨ c = '\x7d'

def Apart (rest : List Char) : Prop :=
  ∀ c ∈ rest.head?, c.isDigit = false ∧ c ≠ '.' ∧ c ≠ 'e' ∧ c ≠ 'E'

theorem Closes.apart {rest : List Char} (closes : Closes rest) : Apart rest := by
  intro c first
  rcases closes c first with rfl | rfl | rfl
  · decide
  · decide
  · decide

structure Numeral (digits : List Char) (n : Nat) : Prop where
  filled : digits ≠ []
  decimal : ∀ c ∈ digits, c.isDigit = true
  first : digits.head? = some '0' → digits = ['0']
  value : Nat.ofDigitChars 10 digits 0 = n
  fits : n < wordBound

theorem numeral_printed {n : Nat} (fits : n < wordBound) : Numeral (printNat n) n where
  filled := Nat.toDigits_ne_nil
  decimal := fun _ => Decimal.isDigit_of_mem_toDigits
  first zero := by
    cases n with
    | zero => rfl
    | succ n => exact absurd zero (head_toDigits (Nat.succ_pos n))
  value := Nat.ofDigitChars_ten_toDigits
  fits := fits

/-- A numeral is read as its number. -/
theorem Numeral.readNumber {digits rest : List Char} (numeral : Numeral digits n)
    (apart : Apart rest) : readNumber false (digits ++ rest) = .ok (.natural n, rest) := by
  have taken := takeDigits_fits (numeral.value.symm ▸ numeral.fits)
  rw [numeral.value] at taken
  rw [Json.readNumber, Text.span_append numeral.decimal fun c first => (apart c first).1]
  dsimp only
  split
  · exact absurd rfl numeral.filled
  · have lone := numeral.first rfl
    simp at lone
  · rw [taken]
    dsimp only
    split
    · exact absurd rfl (apart _ rfl).2.1
    · exact absurd rfl (apart _ rfl).2.2.1
    · exact absurd rfl (apart _ rfl).2.2.2
    · rfl

theorem scaledFloat_ne_natural {negative : Bool} {significand : Nat} {exponent : Int} :
    scaledFloat negative significand exponent ≠ .ok (.natural n) := by
  rw [scaledFloat]
  split
  · simp [signedFloat]
  · simp

theorem map_scaledFloat_ne {negative : Bool} {significand : Nat} {exponent : Int}
    {rest : List Char} :
    (scaledFloat negative significand exponent).map (·, rest) ≠ .ok (.natural n, after) := by
  cases scaled : scaledFloat negative significand exponent with
  | error f => simp [Except.map]
  | ok m =>
    rintro same
    obtain ⟨rfl, -⟩ := Prod.mk.inj (Except.ok.inj same)
    exact scaledFloat_ne_natural scaled

theorem readExponent_ne_natural {negative : Bool} {significand : Nat} {exponent : Int} :
    readExponent negative significand exponent cs ≠ .ok (.natural n, after) := by
  simp only [readExponent]
  split
  all_goals
    split
    · simp
    split
    · exact map_scaledFloat_ne
    split
    · simp
    · simp [signedFloat]

theorem readFraction_ne_natural {negative : Bool} {significand : Nat} {exponent : Int} :
    readFraction negative significand exponent cs ≠ .ok (.natural n, after) := by
  simp only [readFraction, readTail]
  split
  · simp
  split
  · exact readExponent_ne_natural
  · exact readExponent_ne_natural
  · exact map_scaledFloat_ne

theorem takeDigits_whole {ds : List Char} {n : Nat} (whole : (takeDigits n ds).2 = []) :
    (takeDigits n ds).1 = Nat.ofDigitChars 10 ds n := by
  induction ds generalizing n with
  | nil => rfl
  | cons c ds ih =>
    rw [takeDigits] at whole ⊢
    rw [Nat.ofDigitChars_cons]
    split at whole
    · rename_i fits
      rw [if_pos fits]
      exact ih whole
    · contradiction

/-- Only a numeral is read as an integer without sign. -/
theorem numeral_of_readNumber {negative : Bool}
    (read : readNumber negative cs = .ok (.natural n, rest)) :
    negative = false ∧ ∃ digits, cs = digits ++ rest ∧ Numeral digits n ∧ Apart rest := by
  obtain ⟨ds, after, rfl, digits, stops⟩ : ∃ ds after, cs = ds ++ after ∧
      (∀ c ∈ ds, c.isDigit = true) ∧ ∀ c ∈ after.head?, c.isDigit = false := by
    refine ⟨_, _, List.takeWhile_append_dropWhile.symm, fun _ => List.mem_takeWhile_imp, ?_⟩
    intro c first
    have stop := List.head?_dropWhile_not Char.isDigit cs
    rwa [show (cs.dropWhile Char.isDigit).head? = some c from first] at stop
  rw [readNumber, Text.span_append digits stops] at read
  dsimp only at read
  split at read
  · cases read
  · cases read
  rename_i filled lone
  split at read
  · exact absurd read readFraction_ne_natural
  · exact absurd read readExponent_ne_natural
  · exact absurd read readExponent_ne_natural
  rename_i point small large
  split at read
  · rename_i whole
    obtain ⟨number, rfl⟩ := Prod.mk.inj (Except.ok.inj read)
    have value := takeDigits_whole (List.isEmpty_iff.mp whole)
    have fits := takeDigits_lt (show 0 < wordBound by decide) ds
    rw [value] at number fits
    rw [integer] at number
    split at number
    · rename_i positive
      obtain rfl := JsonNumber.natural.inj number
      refine ⟨by simpa using positive, ds, rfl, ⟨filled, digits, ?_, rfl, fits⟩, ?_⟩
      · intro zero
        obtain ⟨rest, rfl⟩ := List.head?_eq_some_iff.mp zero
        cases rest with
        | nil => rfl
        | cons d rest => exact absurd rfl (lone d rest)
      · intro c first
        obtain ⟨rest, rfl⟩ := List.head?_eq_some_iff.mp first
        refine ⟨stops c first, ?_, ?_, ?_⟩
        · rintro rfl
          exact point rest rfl
        · rintro rfl
          exact small rest rfl
        · rintro rfl
          exact large rest rfl
    split at number
    · contradiction
    · contradiction
  · exact absurd read map_scaledFloat_ne

/-- A number that is read as an integer without sign fits. -/
theorem readNumber_lt {negative : Bool}
    (read : readNumber negative cs = .ok (.natural n, rest)) : n < wordBound := by
  obtain ⟨-, _, -, numeral, -⟩ := numeral_of_readNumber read
  exact numeral.fits

end Json

end MolecularTools
