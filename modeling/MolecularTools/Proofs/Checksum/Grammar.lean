import Mathlib.Data.List.DropRight
import MolecularTools.Proofs.Checksum.Text

/-! The grammar of checksums, apart from the function that reads them: which texts spell a
checksum, which digest they spell, and for what reason every other text is refused. -/
namespace MolecularTools

namespace Text

structure Stripped (cs core : List Char) : Prop where
  around : ∃ front back, cs = front ++ core ++ back ∧ (∀ c ∈ front, isBlank c = true) ∧
    ∀ c ∈ back, isBlank c = true
  first : ∀ c ∈ core.head?, isBlank c = false
  last : ∀ c ∈ core.getLast?, isBlank c = false

theorem stripped_trim (cs : List Char) : Stripped cs (trim cs) := by
  let body := cs.dropWhile isBlank
  have whole : cs = cs.takeWhile isBlank ++ trim cs ++ body.rtakeWhile isBlank := by
    rw [List.append_assoc, show trim cs = body.rdropWhile isBlank from rfl,
      List.rdropWhile_append_rtakeWhile, List.takeWhile_append_dropWhile]
  refine ⟨⟨_, _, whole, fun c => List.mem_takeWhile_imp, fun c => List.mem_rtakeWhile_imp⟩, ?_, ?_⟩
  · intro c first
    obtain ⟨rest, cut⟩ : trim cs <+: body := List.rdropWhile_prefix isBlank body
    have here : body.head? = some c := by
      rw [← cut, List.head?_append, first, Option.some_or]
    have not := List.head?_dropWhile_not isBlank cs
    rwa [show (cs.dropWhile isBlank).head? = some c from here] at not
  · intro c last
    have not := List.head?_dropWhile_not isBlank body.reverse
    rw [trim, List.getLast?_reverse] at last
    rwa [show (body.reverse.dropWhile isBlank).head? = some c from last] at not

theorem Stripped.eq_trim (stripped : Stripped cs core) : core = trim cs := by
  obtain ⟨⟨front, back, rfl, before, behind⟩, first, last⟩ := stripped
  have reversed : ∀ c ∈ back.reverse, isBlank c = true := fun c member =>
    behind c (List.mem_reverse.mp member)
  rw [trim, List.append_assoc, List.dropWhile_append_of_pos before]
  cases core with
  | nil => rw [List.nil_append, List.dropWhile_eq_nil_iff.mpr behind, List.reverse_nil,
      List.dropWhile_nil, List.reverse_nil]
  | cons c core =>
    have starts := first c rfl
    rw [List.cons_append, List.dropWhile_cons_of_neg (by simp [starts]), ← List.cons_append,
      List.reverse_append, List.dropWhile_append_of_pos reversed]
    have solid := trim_solid first last
    rw [trim, List.dropWhile_cons_of_neg (by simp [starts])] at solid
    exact solid.symm

/-- Trimming gives the one text that is left when the blanks at the ends are taken off. -/
theorem stripped_iff : Stripped cs core ↔ core = trim cs :=
  ⟨Stripped.eq_trim, fun same => same ▸ stripped_trim cs⟩

/-- The bytes that pairs of hexadecimal digits of either letter case stand for. -/
def bytes? : List Char → Option (List UInt8)
  | [] => some []
  | [_] => none
  | high :: low :: rest => do
    let upper ← hexValue? high
    let lower ← hexValue? low
    return UInt8.ofNat (16 * upper + lower) :: (← bytes? rest)

/-- A digit has a value below sixteen, and is the digit of that value in lower case. -/
theorem hexValue?_some (digit : isHexDigit c = true) :
    ∃ n < 16, hexValue? c = some n ∧ hexDigit n = c.toLower := by
  have each : ∀ k < 128, isHexDigit (Char.ofNat k) = true →
      ∃ n < 16, hexValue? (Char.ofNat k) = some n ∧ hexDigit n = (Char.ofNat k).toLower := by
    decide
  have here := each c.toNat (isHexDigit_lt digit)
  rw [Char.ofNat_toNat] at here
  exact here digit

/-- An even number of digits stands for bytes, whose text is the digits in lower case. -/
theorem bytes?_digits : ∀ {digits : List Char}, digits.all isHexDigit = true →
    digits.length % 2 = 0 →
      ∃ bytes, bytes? digits = some bytes ∧ hex bytes = digits.map Char.toLower
  | [], _, _ => ⟨[], rfl, rfl⟩
  | [_], _, even => by contradiction
  | high :: low :: rest, hexes, even => by
    simp only [List.all_cons, Bool.and_eq_true] at hexes
    obtain ⟨u, upper, highIs, highLower⟩ := hexValue?_some hexes.1
    obtain ⟨l, lower, lowIs, lowLower⟩ := hexValue?_some hexes.2.1
    have shorter : rest.length % 2 = 0 := by
      simp only [List.length_cons] at even
      omega
    obtain ⟨bytes, read, shown⟩ := bytes?_digits hexes.2.2 shorter
    have value : (UInt8.ofNat (16 * u + l)).toNat = 16 * u + l := by
      rw [UInt8.toNat_ofNat']
      omega
    refine ⟨UInt8.ofNat (16 * u + l) :: bytes, by simp [bytes?, highIs, lowIs, read], ?_⟩
    have byte : hexByte (UInt8.ofNat (16 * u + l)) = [high.toLower, low.toLower] := by
      have first : (16 * u + l) / 16 = u := by omega
      have second : (16 * u + l) % 16 = l := by omega
      rw [hexByte, value, first, second, highLower, lowLower]
    rw [hex, List.flatMap_cons, ← hex, byte, shown]
    rfl

/-- The bytes are read back from their text. -/
theorem bytes?_hex (bytes : List UInt8) : bytes? (hex bytes) = some bytes := by
  induction bytes with
  | nil => rfl
  | cons b bytes ih =>
    have bound := b.toNat_lt
    have upper := hexValue?_hexDigit (show b.toNat / 16 < 16 by omega)
    have lower := hexValue?_hexDigit (Nat.mod_lt b.toNat (by decide : 0 < 16))
    have value : 16 * (b.toNat / 16) + b.toNat % 16 = b.toNat := Nat.div_add_mod _ _
    show bytes? (hexDigit (b.toNat / 16) :: hexDigit (b.toNat % 16) :: hex bytes) = _
    rw [bytes?, upper, lower, ih]
    show some (UInt8.ofNat (16 * (b.toNat / 16) + b.toNat % 16) :: bytes) = some (b :: bytes)
    rw [value, UInt8.ofNat_toNat]

theorem hex_injective {a b : List UInt8} (same : hex a = hex b) : a = b := by
  have read := bytes?_hex a
  rw [same, bytes?_hex] at read
  exact (Option.some.inj read).symm

end Text

namespace Algorithm

theorem ofName?_name (a : Algorithm) : ofName? a.name.toList = some a := by
  cases a <;> decide

theorem ofName?_unknown {name : List Char} (unknown : ∀ a : Algorithm, name ≠ a.name.toList) :
    ofName? name = none :=
  List.find?_eq_none.mpr fun a _ found => unknown a (of_decide_eq_true found).symm

theorem ofLength?_digits (a : Algorithm) : ofLength? a.digits = some a := by
  cases a <;> rfl

theorem ofLength?_unknown {n : Nat} (unknown : ∀ a : Algorithm, n ≠ a.digits) :
    ofLength? n = none :=
  List.find?_eq_none.mpr fun a _ found => unknown a (of_decide_eq_true found).symm

end Algorithm

namespace Checksum

/-- A text in the grammar of checksums, with the algorithm and the digits of the digest: the digits
alone or behind the algorithm's name, as many of them as the algorithm's digests have. -/
inductive Spells : List Char → Algorithm → List Char → Prop
  | bare (hex : digits.all Text.isHexDigit = true) (length : digits.length = a.digits) :
      Spells digits a digits
  | tagged (name : tag.map Char.toLower = a.name.toList)
      (hex : digits.all Text.isHexDigit = true) (length : digits.length = a.digits) :
      Spells (tag ++ ':' :: digits) a digits

inductive Parts : List Char → Option (List Char) → List Char → Prop
  | bare (plain : ':' ∉ cs) : Parts cs none cs
  | tagged (plain : ':' ∉ tag) : Parts (tag ++ ':' :: word) (some tag) word

/-- The reasons to refuse a text. Each but the first is for a word that is hexadecimal, so the
reasons exclude each other. -/
inductive Refused (cs : List Char) : ChecksumError → Prop
  | notHex (parts : Parts cs tag word)
      (bad : word = [] ∨ ∃ c ∈ word, Text.isHexDigit c = false) :
      Refused cs (.notHex (String.ofList cs))
  | length {a : Algorithm} (parts : Parts cs (some tag) word) (filled : word ≠ [])
      (hex : word.all Text.isHexDigit = true) (name : tag.map Char.toLower = a.name.toList)
      (length : word.length ≠ a.digits) :
      Refused cs (.length a.name (String.ofList cs) word.length)
  | unsupported (parts : Parts cs (some tag) word) (filled : word ≠ [])
      (hex : word.all Text.isHexDigit = true)
      (unknown : ∀ a : Algorithm, tag.map Char.toLower ≠ a.name.toList) :
      Refused cs (.unsupported (String.ofList (tag.map Char.toLower)))
  | unknownLength (parts : Parts cs none word) (filled : word ≠ [])
      (hex : word.all Text.isHexDigit = true)
      (unknown : ∀ a : Algorithm, word.length ≠ a.digits) :
      Refused cs (.unknownLength (String.ofList cs) word.length)

theorem Parts.splitTag (parts : Parts cs tag word) : splitTag cs = (tag, word) := by
  have within {cs : List Char} (plain : ':' ∉ cs) : ∀ c ∈ cs, decide (c ≠ ':') = true :=
    fun c member => decide_eq_true fun colon => plain (colon ▸ member)
  cases parts with
  | bare plain =>
    have all : (cs ++ []).span (· ≠ ':') = (cs, []) := Text.span_append (within plain) (by simp)
    rw [List.append_nil] at all
    rw [Checksum.splitTag, all]
  | tagged plain => rw [Checksum.splitTag, Text.span_append (within plain) (by simp)]

theorem parts_exist (cs : List Char) : ∃ tag word, Parts cs tag word := by
  by_cases colon : ':' ∈ cs
  · obtain ⟨tag, word, rfl, plain⟩ := List.eq_append_cons_of_mem colon
    exact ⟨some tag, word, .tagged plain⟩
  · exact ⟨none, cs, .bare colon⟩

theorem filled_of_length {digits : List Char} {a : Algorithm} (length : digits.length = a.digits) :
    digits ≠ [] := by
  rintro rfl
  cases a <;> contradiction

/-- The letters of an algorithm's name, of either case, hold no colon. -/
theorem plain_of_name {tag : List Char} {a : Algorithm}
    (name : tag.map Char.toLower = a.name.toList) : ':' ∉ tag := by
  intro member
  have lower : (':' : Char).toLower ∈ a.name.toList := name ▸ List.mem_map_of_mem member
  revert lower
  cases a <;> decide

theorem plain_of_hex {digits : List Char} (hex : digits.all Text.isHexDigit = true) :
    ':' ∉ digits := by
  intro member
  have digit := List.all_eq_true.mp hex _ member
  contradiction

/-- A text in the grammar is read as the digest it spells, in lower case. -/
theorem Spells.parse (spells : Spells (Text.trim s.toList) a digits) :
    parse s = .ok ⟨a, String.ofList (digits.map Char.toLower)⟩ := by
  rw [Checksum.parse]
  generalize Text.trim s.toList = cs at spells
  cases spells with
  | bare hex length =>
    have parts := (Parts.bare (plain_of_hex hex)).splitTag
    simp [parts, filled_of_length length, hex, length, Algorithm.ofLength?_digits]
  | tagged name hex length =>
    have parts : Parts _ _ digits := .tagged (plain_of_name name)
    simp [parts.splitTag, filled_of_length length, hex, length, name, Algorithm.ofName?_name]

/-- A text with a reason against it is refused for that reason. -/
theorem Refused.parse (refused : Refused (Text.trim s.toList) e) : parse s = .error e := by
  rw [Checksum.parse]
  generalize Text.trim s.toList = cs at refused
  cases refused with
  | @notHex _ word parts bad =>
    rcases bad with rfl | ⟨c, member, other⟩
    · simp [parts.splitTag]
    · have mixed : word.all Text.isHexDigit = false :=
        List.all_eq_false.mpr ⟨c, member, by simp [other]⟩
      simp [parts.splitTag, mixed]
  | length parts filled hex name length =>
    simp [parts.splitTag, filled, hex, length, name, Algorithm.ofName?_name]
  | unsupported parts filled hex unknown =>
    simp [parts.splitTag, filled, hex, Algorithm.ofName?_unknown unknown]
  | unknownLength parts filled hex unknown =>
    simp [parts.splitTag, filled, hex, Algorithm.ofLength?_unknown unknown]

/-- Every text is in the grammar, or there is a reason against it. -/
theorem spells_or_refused (cs : List Char) :
    (∃ a digits, Spells cs a digits) ∨ ∃ e, Refused cs e := by
  obtain ⟨tag, word, parts⟩ := parts_exist cs
  by_cases bad : word = [] ∨ ∃ c ∈ word, Text.isHexDigit c = false
  · exact .inr ⟨_, .notHex parts bad⟩
  obtain ⟨filled, none⟩ := not_or.mp bad
  have hex : word.all Text.isHexDigit = true := by
    rw [List.all_eq_true]
    intro c member
    by_contra not
    exact none ⟨c, member, Bool.not_eq_true _ ▸ not⟩
  cases tag with
  | some tag =>
    by_cases known : ∃ a : Algorithm, tag.map Char.toLower = a.name.toList
    · obtain ⟨a, name⟩ := known
      by_cases length : word.length = a.digits
      · cases parts
        exact .inl ⟨a, word, .tagged name hex length⟩
      · exact .inr ⟨_, .length parts filled hex name length⟩
    · exact .inr ⟨_, .unsupported parts filled hex (not_exists.mp known)⟩
  | none =>
    by_cases known : ∃ a : Algorithm, word.length = a.digits
    · obtain ⟨a, length⟩ := known
      cases parts
      exact .inl ⟨a, _, .bare hex length⟩
    · exact .inr ⟨_, .unknownLength parts filled hex (not_exists.mp known)⟩

theorem Spells.hexes (spells : Spells cs a digits) :
    digits.all Text.isHexDigit = true ∧ digits.length % 2 = 0 := by
  have even : a.digits % 2 = 0 := by cases a <;> rfl
  cases spells with
  | bare hex length => exact ⟨hex, length ▸ even⟩
  | tagged name hex length => exact ⟨hex, length ▸ even⟩

theorem parse_ok_iff : parse s = .ok c ↔ ∃ digits,
    Spells (Text.trim s.toList) c.algorithm digits ∧
      c.hex = String.ofList (digits.map Char.toLower) := by
  constructor
  · intro parsed
    obtain ⟨a, digits, spells⟩ | ⟨e, refused⟩ := spells_or_refused (Text.trim s.toList)
    · rw [spells.parse] at parsed
      obtain rfl := Except.ok.inj parsed
      exact ⟨digits, spells, rfl⟩
    · rw [refused.parse] at parsed
      contradiction
  · rintro ⟨digits, spells, same⟩
    rw [spells.parse, ← same]

theorem parse_error_iff : parse s = .error e ↔ Refused (Text.trim s.toList) e := by
  refine ⟨fun parsed => ?_, Refused.parse⟩
  obtain ⟨a, digits, spells⟩ | ⟨d, refused⟩ := spells_or_refused (Text.trim s.toList)
  · rw [spells.parse] at parsed
    contradiction
  · rw [refused.parse] at parsed
    exact Except.error.inj parsed ▸ refused

/-- Two texts in the grammar are read alike if and only if they name one algorithm and their
digits stand for the same bytes. -/
theorem Spells.parse_eq_iff {s s' : String} (spells : Spells (Text.trim s.toList) a digits)
    (spells' : Spells (Text.trim s'.toList) a' digits') : ∃ bytes bytes',
    Text.bytes? digits = some bytes ∧ Text.bytes? digits' = some bytes' ∧
      (Checksum.parse s = Checksum.parse s' ↔ a = a' ∧ bytes = bytes') := by
  obtain ⟨bytes, read, shown⟩ := Text.bytes?_digits spells.hexes.1 spells.hexes.2
  obtain ⟨bytes', read', shown'⟩ := Text.bytes?_digits spells'.hexes.1 spells'.hexes.2
  refine ⟨bytes, bytes', read, read', ?_⟩
  rw [spells.parse, spells'.parse, ← shown, ← shown']
  constructor
  · intro same
    obtain ⟨algorithm, hex⟩ := Checksum.mk.inj (Except.ok.inj same)
    exact ⟨algorithm, Text.hex_injective (String.ofList_injective hex)⟩
  · rintro ⟨rfl, rfl⟩
    rfl

/-- Reading accepts the grammar and nothing else. With the blanks at its ends taken off, a text is
read as the digest it spells, or refused for the first reason against it; a checksum that is read is
read back from its own text, and two texts are read as one checksum if and only if they name the
same algorithm and the same bytes. -/
theorem parse_grammar (s : String) :
    (∀ core, Text.Stripped s.toList core ↔ core = Text.trim s.toList) ∧
    (∀ c, parse s = .ok c ↔ ∃ digits, Spells (Text.trim s.toList) c.algorithm digits ∧
      c.hex = String.ofList (digits.map Char.toLower)) ∧
    (∀ e, parse s = .error e ↔ Refused (Text.trim s.toList) e) ∧
    (∀ c, parse s = .ok c → parse c.text = .ok c) ∧
    ∀ s' a a' digits digits', Spells (Text.trim s.toList) a digits →
      Spells (Text.trim s'.toList) a' digits' → ∃ bytes bytes',
        Text.bytes? digits = some bytes ∧ Text.bytes? digits' = some bytes' ∧
          (parse s = parse s' ↔ a = a' ∧ bytes = bytes') :=
  ⟨fun _ => Text.stripped_iff, fun _ => parse_ok_iff, fun _ => parse_error_iff,
    fun _ parsed => (parse_canonical parsed).parse_text,
    fun _ _ _ _ _ spells spells' => spells.parse_eq_iff spells'⟩

end Checksum

end MolecularTools
