import MolecularTools.Decimal.General

/-! Texts of numbers: none is empty, and each is written in a few characters, none of which is a
blank or ends a line. -/
namespace MolecularTools.Decimal

def isNumeral (c : Char) : Bool := c.isDigit || "+-.aefin".toList.contains c

theorem isNumeral_of_isDigit (digit : c.isDigit = true) : isNumeral c = true := by
  rw [isNumeral, digit, Bool.true_or]

theorem ne_of_isNumeral (numeral : isNumeral c = true) : c ≠ ' ' ∧ c ≠ '\n' := by
  constructor
  · rintro rfl
    exact absurd numeral (by decide)
  · rintro rfl
    exact absurd numeral (by decide)

theorem isDigit_of_mem_toDigits {n : Nat} (member : c ∈ Nat.toDigits 10 n) : c.isDigit = true :=
  Nat.isDigit_of_mem_toDigits (by decide) (by decide) member

theorem isDigit_of_mem_paddedDigits {width n : Nat} (member : c ∈ paddedDigits width n) :
    c.isDigit = true := by
  rcases List.mem_append.mp member with zero | digit
  · rw [(List.mem_replicate.mp zero).2]
    rfl
  · exact isDigit_of_mem_toDigits digit

theorem lt_length_paddedDigits (width n : Nat) : width < (paddedDigits (width + 1) n).length := by
  simp only [paddedDigits, List.length_append, List.length_replicate]
  omega

theorem mem_of_mem_trimFraction {cs : List Char} (member : c ∈ trimFraction cs) : c ∈ cs := by
  rw [trimFraction] at member
  split at member
  · rw [List.mem_reverse] at member
    have shorter := (List.dropWhile_sublist (· == '.')).subset member
    have shorter := (List.dropWhile_sublist (· == '0')).subset shorter
    exact List.mem_reverse.mp shorter
  · exact member

theorem dropWhile_append_cons {p : α → Bool} (stays : p b = false) (front back : List α) :
    (front ++ b :: back).dropWhile p = front.dropWhile p ++ b :: back := by
  induction front with
  | nil => simp [stays]
  | cons a front ih =>
    rw [List.cons_append, List.dropWhile_cons, List.dropWhile_cons]
    split
    · exact ih
    · rfl

/-- What stands before the point is not dropped. -/
theorem trimFraction_ne_nil {whole fraction : List Char} (some : whole ≠ [])
    (digits : ∀ c ∈ whole, c.isDigit = true) : trimFraction (whole ++ '.' :: fraction) ≠ [] := by
  have reversed : (whole ++ '.' :: fraction).reverse = fraction.reverse ++ '.' :: whole.reverse := by
    simp
  intro empty
  rw [trimFraction, if_pos (by simp), reversed, dropWhile_append_cons (by decide)] at empty
  obtain ⟨first, rest, rfl⟩ := List.exists_cons_of_ne_nil some
  have solid : (first == '.') = false := by
    have digit := digits first List.mem_cons_self
    rw [beq_eq_false_iff_ne]
    rintro rfl
    exact absurd digit (by decide)
  rw [List.reverse_cons, ← List.cons_append, ← List.append_assoc,
    dropWhile_append_cons (p := (· == '.')) solid] at empty
  simp at empty

theorem isNumeral_of_mem_fixedText {d : Dyadic} {places : Nat} (member : c ∈ fixedText d places) :
    isNumeral c = true := by
  have whole : ∀ {n}, c ∈ (paddedDigits (places + 1) (scaled d places)).take n → isNumeral c = true :=
    fun member => isNumeral_of_isDigit (isDigit_of_mem_paddedDigits (List.mem_of_mem_take member))
  simp only [fixedText] at member
  split at member
  · exact whole member
  · rcases List.mem_append.mp member with member | member
    · exact whole member
    · rcases List.mem_cons.mp member with rfl | member
      · rfl
      · exact isNumeral_of_isDigit (isDigit_of_mem_paddedDigits (List.mem_of_mem_drop member))

theorem trimmed_fixedText_ne_nil (d : Dyadic) (places : Nat) :
    trimFraction (fixedText d places) ≠ [] := by
  let digits := paddedDigits (places + 1) (scaled d places)
  have long : places < digits.length := lt_length_paddedDigits _ _
  have some : digits.take (digits.length - places) ≠ [] := by
    intro empty
    have length := congrArg List.length empty
    rw [List.length_take, List.length_nil] at length
    omega
  have each : ∀ c ∈ digits.take (digits.length - places), c.isDigit = true :=
    fun c member => isDigit_of_mem_paddedDigits (List.mem_of_mem_take member)
  simp only [fixedText]
  split
  · rw [trimFraction, if_neg]
    · exact some
    · intro point
      have point := List.contains_iff_mem.mp point
      exact absurd (each _ point) (by decide)
  · exact trimFraction_ne_nil some each

theorem isNumeral_of_mem_mantissaText {s : Significant} (member : c ∈ mantissaText s) :
    isNumeral c = true := by
  have digit : ∀ x ∈ Nat.toDigits 10 s.digits, isNumeral x = true :=
    fun x among => isNumeral_of_isDigit (isDigit_of_mem_toDigits among)
  rw [mantissaText] at member
  split at member
  · contradiction
  · rename_i only digits
    rw [digits] at digit
    exact digit c member
  · rename_i first rest _ digits
    rw [digits] at digit
    rcases List.mem_cons.mp member with rfl | member
    · exact digit c List.mem_cons_self
    · rcases List.mem_cons.mp member with rfl | member
      · rfl
      · exact digit c (List.mem_cons_of_mem first member)

theorem isNumeral_of_mem_exponentText {e : Int} (member : c ∈ exponentText f e) :
    isNumeral c = true := by
  rcases List.mem_cons.mp member with rfl | member
  · rfl
  · rcases List.mem_cons.mp member with rfl | member
    · split
      · rfl
      · rfl
    · exact isNumeral_of_isDigit (isDigit_of_mem_paddedDigits member)

theorem magnitudeText_ne_nil (f : GeneralFormat) (d : Dyadic) (precision : Nat) :
    magnitudeText f d precision ≠ [] := by
  simp only [magnitudeText]
  split
  · simp [exponentText]
  · exact trimmed_fixedText_ne_nil _ _

theorem isNumeral_of_mem_magnitudeText {d : Dyadic} {precision : Nat}
    (member : c ∈ magnitudeText f d precision) : isNumeral c = true := by
  simp only [magnitudeText] at member
  split at member
  · rcases List.mem_append.mp member with member | member
    · exact isNumeral_of_mem_mantissaText (mem_of_mem_trimFraction member)
    · exact isNumeral_of_mem_exponentText member
  · exact isNumeral_of_mem_fixedText (mem_of_mem_trimFraction member)

theorem readingText_ne_nil (precision : Nat) (r : Reading) :
    readingText .table precision r ≠ [] := by
  cases r with
  | nan => simp [readingText, GeneralFormat.table]
  | infinite negative => simp [readingText, GeneralFormat.table]
  | finite negative d =>
    intro empty
    rw [readingText, List.append_eq_nil_iff] at empty
    split at empty
    · simp at empty
    · exact magnitudeText_ne_nil _ _ _ empty.2

theorem isNumeral_of_mem_readingText {precision : Nat} {r : Reading}
    (member : c ∈ readingText .table precision r) : isNumeral c = true := by
  have signs : ∀ {negative}, c ∈ sign negative → isNumeral c = true := by
    intro negative member
    cases negative with
    | false => contradiction
    | true =>
      rw [List.mem_singleton.mp member]
      rfl
  cases r with
  | nan =>
    have written : ∀ x ∈ "nan".toList, isNumeral x = true := List.all_eq_true.mp (by decide)
    exact written c member
  | infinite negative =>
    have written : ∀ x ∈ "inf".toList, isNumeral x = true := List.all_eq_true.mp (by decide)
    exact (List.mem_append.mp member).elim signs (written c)
  | finite negative d =>
    rcases List.mem_append.mp member with member | member
    · exact signs member
    · split at member
      · rw [List.mem_singleton.mp member]
        rfl
      · exact isNumeral_of_mem_magnitudeText member

/-- The text of a number is one word, whatever the number is. -/
theorem general_word (x : Float) (precision : Nat) : (general x precision).toList ≠ [] ∧
    ∀ c ∈ (general x precision).toList, c ≠ ' ' ∧ c ≠ '\n' := by
  rw [general, String.toList_ofList]
  exact ⟨readingText_ne_nil _ _, fun c member => ne_of_isNumeral (isNumeral_of_mem_readingText member)⟩

theorem toDigits_word (n : Nat) :
    Nat.toDigits 10 n ≠ [] ∧ ∀ c ∈ Nat.toDigits 10 n, c ≠ ' ' ∧ c ≠ '\n' :=
  ⟨Nat.toDigits_ne_nil,
    fun _ member => ne_of_isNumeral (isNumeral_of_isDigit (isDigit_of_mem_toDigits member))⟩

end MolecularTools.Decimal
