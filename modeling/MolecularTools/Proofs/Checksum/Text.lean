import MolecularTools.Checksum.Basic
import MolecularTools.Proofs.Json.Scalars

/-! Checksums in text. Reading takes either letter case, blanks around the text and a bare digest;
what it gives is in lower case, has the length of its algorithm, and is read back from its text. -/
namespace MolecularTools

namespace Text

theorem isHexDigit_lt (digit : isHexDigit c = true) : c.toNat < 128 := by
  have bound : c.toNat ≤ 102 := by
    simp only [isHexDigit, Char.isDigit, Bool.or_eq_true, Bool.and_eq_true, decide_eq_true_eq,
      Char.le_def, UInt32.le_iff_toNat_le] at digit
    have nine : ('9' : Char).val.toNat = 57 := rfl
    have small : ('f' : Char).val.toNat = 102 := rfl
    have large : ('F' : Char).val.toNat = 70 := rfl
    have value : c.toNat = c.val.toNat := rfl
    omega
  omega

theorem isHexDigit_toLower (digit : isHexDigit c = true) :
    isHexDigit c.toLower = true ∧ c.toLower.toLower = c.toLower := by
  have each : ∀ n < 128, isHexDigit (Char.ofNat n) = true →
      isHexDigit (Char.ofNat n).toLower = true ∧
        (Char.ofNat n).toLower.toLower = (Char.ofNat n).toLower := by decide
  have here := each c.toNat (isHexDigit_lt digit)
  rw [Char.ofNat_toNat] at here
  exact here digit

theorem isBlank_hexDigit (digit : isHexDigit c = true) : isBlank c = false := by
  have each : ∀ n < 128, isHexDigit (Char.ofNat n) = true → isBlank (Char.ofNat n) = false := by
    decide
  have here := each c.toNat (isHexDigit_lt digit)
  rw [Char.ofNat_toNat] at here
  exact here digit

/-- A text without blanks at its ends. -/
theorem trim_solid {cs : List Char} (first : ∀ c ∈ cs.head?, isBlank c = false)
    (last : ∀ c ∈ cs.getLast?, isBlank c = false) : trim cs = cs := by
  have stays {cs : List Char} (first : ∀ c ∈ cs.head?, isBlank c = false) :
      cs.dropWhile isBlank = cs := by
    cases cs with
    | nil => rfl
    | cons c cs => simp [first c rfl]
  have back : cs.reverse.dropWhile isBlank = cs.reverse :=
    stays (by rwa [List.head?_reverse])
  rw [trim, stays first, back, List.reverse_reverse]

end Text

namespace Checksum

/-- A digest in lower case that is as long as its algorithm makes it. -/
structure Canonical (c : Checksum) : Prop where
  length : c.hex.toList.length = c.algorithm.digits
  lower : ∀ ch ∈ c.hex.toList, Text.isHexDigit ch = true ∧ ch.toLower = ch

theorem canonical_iff {c : Checksum} : c.Canonical ↔ c.hex.toList.length = c.algorithm.digits ∧
    c.hex.toList.all (fun ch => Text.isHexDigit ch && ch.toLower == ch) = true := by
  simp only [List.all_eq_true, Bool.and_eq_true, beq_iff_eq]
  exact ⟨fun canonical => ⟨canonical.length, canonical.lower⟩, fun both => ⟨both.1, both.2⟩⟩

instance (c : Checksum) : Decidable c.Canonical := decidable_of_iff _ canonical_iff.symm

theorem canonical_lower {digest : List Char} (digits : digest.all Text.isHexDigit = true)
    (length : digest.length = a.digits) :
    Canonical ⟨a, String.ofList (digest.map Char.toLower)⟩ := by
  constructor
  · rw [String.toList_ofList, List.length_map, length]
  · intro ch member
    rw [String.toList_ofList] at member
    obtain ⟨c, within, rfl⟩ := List.mem_map.mp member
    exact Text.isHexDigit_toLower (List.all_eq_true.mp digits c within)

/-- Whatever is read is in one form. -/
theorem parse_canonical (parsed : parse s = .ok c) : c.Canonical := by
  simp only [parse] at parsed
  split at parsed
  · contradiction
  rename_i hex
  simp only [Bool.or_eq_true, Bool.not_eq_true', not_or, Bool.not_eq_false] at hex
  split at parsed
  · split at parsed
    · split at parsed
      · rename_i length
        obtain rfl := Except.ok.inj parsed
        exact canonical_lower hex.2 length
      · contradiction
    · contradiction
  · split at parsed
    · rename_i a found
      obtain rfl := Except.ok.inj parsed
      have length := List.find?_some found
      exact canonical_lower hex.2 (of_decide_eq_true length).symm
    · contradiction

theorem splitTag_text (c : Checksum) :
    splitTag c.text.toList = (some c.algorithm.name.toList, c.hex.toList) := by
  have untagged : c.algorithm.name.toList.all (fun ch => decide (ch ≠ ':')) = true := by
    cases c.algorithm <;> rfl
  have split : c.text.toList = c.algorithm.name.toList ++ ':' :: c.hex.toList := by
    simp [text]
  rw [splitTag, split, Text.span_append (List.all_eq_true.mp untagged) (by simp)]

/-- The text of a checksum in that form is read as the checksum. -/
theorem Canonical.parse_text (canonical : c.Canonical) : parse c.text = .ok c := by
  obtain ⟨a, hex⟩ := c
  obtain ⟨length, lower⟩ := canonical
  have some : hex.toList ≠ [] := by
    intro none
    rw [none] at length
    cases a <;> contradiction
  have digits : hex.toList.all Text.isHexDigit = true :=
    List.all_eq_true.mpr fun ch member => (lower ch member).1
  have same : hex.toList.map Char.toLower = hex.toList := by
    calc hex.toList.map Char.toLower
      _ = hex.toList.map id := List.map_congr_left fun ch member => (lower ch member).2
      _ = hex.toList := List.map_id _
  have trimmed : Text.trim (text ⟨a, hex⟩).toList = (text ⟨a, hex⟩).toList := by
    have parts : (text ⟨a, hex⟩).toList = (a.name.toList ++ [':']) ++ hex.toList := by simp [text]
    rw [parts]
    refine Text.trim_solid ?_ ?_
    · cases a <;> simp [Algorithm.name] <;> decide
    · intro ch last
      rw [List.getLast?_append] at last
      have member : ch ∈ hex.toList := by
        cases ends : hex.toList.getLast? with
        | none => exact absurd (List.getLast?_eq_none_iff.mp ends) some
        | some d =>
          rw [ends, Option.some_or] at last
          exact Option.some.inj last ▸ List.mem_of_getLast? ends
      exact Text.isBlank_hexDigit (lower ch member).1
  have tag : (a.name.toList.map Char.toLower) = a.name.toList := by cases a <;> decide
  have known : Algorithm.ofName? a.name.toList = Option.some a := by cases a <;> decide
  simp [parse, trimmed, splitTag_text, some, digits, tag, known, length, same]

end Checksum

end MolecularTools
