import MolecularTools.Proofs.Decimal.Length
import MolecularTools.Table.Layout

/-! The columns of a table. No number is too long for its column, so every row of a table with fewer
than a hundred million samples has its columns at the same places. -/
namespace MolecularTools.Layout

open Decimal (general sign)

/-- A number as it stands in its column, without the blanks behind it. -/
def signed (g : List Char) : List Char := if g.head? = some '-' then g else ' ' :: g

/-- A minus sign takes the place of the blank, so it needs no room of its own. -/
theorem length_signed_le (x : Float) :
    (signed (general x columnDigits).toList).length ≤ columnWidth := by
  obtain ⟨negative, body, text, short⟩ := Decimal.general_length x columnDigits
  change body.length ≤ 21 at short
  rw [text, signed]
  cases negative with
  | true => exact Nat.succ_le_succ short
  | false =>
    split
    · exact Nat.le_succ_of_le short
    · exact Nat.succ_le_succ short

/-- A column of 22 characters: a text, with only blanks around it. -/
structure IsField (field text : List Char) : Prop where
  width : field.length = 22
  leading : field.head? = some ' ' ∨ field.head? = some '-'
  blank : ∃ before behind,
    field = List.replicate before ' ' ++ text ++ List.replicate behind ' '

theorem length_padLeft (width : Nat) (cs : List Char) :
    (padLeft width cs).length = max width cs.length := by
  rw [padLeft, List.length_append, List.length_replicate]
  omega

theorem column_field (x : Float) : IsField (column x) (general x 15).toList := by
  have fits := length_signed_le x
  have column_eq : column x = signed (general x columnDigits).toList ++
      List.replicate (columnWidth - (signed (general x columnDigits).toList).length) ' ' := rfl
  have width : (column x).length = 22 := by
    rw [column_eq, List.length_append, List.length_replicate]
    exact Nat.add_sub_cancel' fits
  rw [signed] at column_eq
  split at column_eq
  · rename_i minus
    refine ⟨width, .inr ?_, 0, _, column_eq⟩
    rw [column_eq, List.head?_append, minus]
    rfl
  · exact ⟨width, .inl (by rw [column_eq]; rfl), 1, _, column_eq⟩

/-- What stands at an offset in a line. -/
theorem drop_take {line field : List Char} {offset width : Nat} (front back : List Char)
    (split : line = front ++ field ++ back) (before : front.length = offset)
    (wide : field.length = width) : (line.drop offset).take width = field := by
  rw [split, List.append_assoc, ← before, List.drop_left, ← wide, List.take_left]

/-- A row is the index, flush right, and three fields with a blank in front of each. -/
theorem row_columns (index : Nat) (angle energy force : Float) : ∃ a e f,
    IsField a (general angle 15).toList ∧ IsField e (general energy 15).toList ∧
      IsField f (general force 15).toList ∧
      row index angle energy force =
        List.replicate (max 8 (Nat.toDigits 10 index).length - (Nat.toDigits 10 index).length) ' ' ++
          Nat.toDigits 10 index ++ ' ' :: a ++ ' ' :: e ++ ' ' :: f ∧
      (index < 10 ^ 8 → (row index angle energy force).length = 77 ∧
        ((row index angle energy force).drop 9).take 22 = a ∧
        ((row index angle energy force).drop 32).take 22 = e ∧
        ((row index angle energy force).drop 55).take 22 = f) := by
  refine ⟨column angle, column energy, column force, column_field angle, column_field energy,
    column_field force, ?_, fun small => ?_⟩
  · have room : max 8 (Nat.toDigits 10 index).length - (Nat.toDigits 10 index).length =
        indexWidth - (Nat.toDigits 10 index).length := by
      simp only [indexWidth]
      omega
    rw [room]
    rfl
  · have digits := (Nat.length_toDigits_le_iff (b := 10) (by decide) (by decide)).mpr small
    have number : (padLeft indexWidth (Nat.toDigits 10 index)).length = 8 := by
      rw [length_padLeft]
      exact Nat.max_eq_left digits
    have first := (column_field angle).width
    have second := (column_field energy).width
    have third := (column_field force).width
    refine ⟨?_, ?_, ?_, ?_⟩
    · simp [row, number, first, second, third]
    · exact drop_take (padLeft indexWidth (Nat.toDigits 10 index) ++ [' '])
        (' ' :: column energy ++ ' ' :: column force) (by simp [row]) (by simp [number]) first
    · exact drop_take (padLeft indexWidth (Nat.toDigits 10 index) ++ ' ' :: column angle ++ [' '])
        (' ' :: column force) (by simp [row]) (by simp [number, first]) second
    · exact drop_take (padLeft indexWidth (Nat.toDigits 10 index) ++ ' ' :: column angle ++
        ' ' :: column energy ++ [' ']) [] (by simp [row]) (by simp [number, first, second]) third

/-- The longest index of eight digits, and the number that leaves no blank in its column. -/
theorem row_columns_full : ∃ a e f,
    IsField a (general (.ofBits 0xFFEFFFFFFFFFFFFF) 15).toList ∧
      IsField e (general (.ofBits 0x7FF8000000000000) 15).toList ∧
      IsField f (general (.ofBits 0x8000000000000001) 15).toList ∧
      (row 99999999 (.ofBits 0xFFEFFFFFFFFFFFFF) (.ofBits 0x7FF8000000000000)
        (.ofBits 0x8000000000000001)).length = 77 := by
  obtain ⟨a, e, f, angle, energy, force, -, places⟩ := row_columns 99999999
    (.ofBits 0xFFEFFFFFFFFFFFFF) (.ofBits 0x7FF8000000000000) (.ofBits 0x8000000000000001)
  exact ⟨a, e, f, angle, energy, force, (places (by decide)).1⟩

end MolecularTools.Layout
