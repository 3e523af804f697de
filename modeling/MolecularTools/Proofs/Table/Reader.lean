import MolecularTools.Proofs.Decimal.Numerals
import MolecularTools.Proofs.Files.Paths
import MolecularTools.Table.Layout
import MolecularTools.Text.Pieces

/-! A reader of written tables. It knows lines and words only, and takes as many rows as the line
below the keyword announces. Reading what was written gives the words of the table back. -/
namespace MolecularTools.Layout

def line? : List Char → Option (List Char × List Char)
  | [] => none
  | c :: cs => if c = '\n' then some ([], cs) else (line? cs).map fun r => (c :: r.1, r.2)

def lines? : Nat → List Char → Option (List (List Char) × List Char)
  | 0, cs => some ([], cs)
  | n + 1, cs => do
    let (l, cs) ← line? cs
    let (ls, cs) ← lines? n cs
    return (l :: ls, cs)

/-- What stands between runs of spaces. -/
def words (l : List Char) : List (List Char) := (Text.pieces ' ' l).filter fun w => !w.isEmpty

def natural? (w : List Char) : Option Nat :=
  if w ≠ [] ∧ w.all Char.isDigit = true then some (Nat.ofDigitChars 10 w 0) else none

/-- How many rows follow, and the text of the equilibrium. -/
def headline? (l : List Char) : Option (Nat × List Char) :=
  match words l with
  | [['N'], count, ['E', 'Q'], equilibrium] => (natural? count).map fun n => (n, equilibrium)
  | _ => none

structure Words where
  keyword : List Char
  count : Nat
  equilibrium : List Char
  rows : List (List (List Char))

/-- The words of a table at the start of a text, and what stands behind the table. -/
def read? (cs : List Char) : Option (Words × List Char) := do
  let (keyword, cs) ← line? cs
  let (headline, cs) ← line? cs
  let (count, equilibrium) ← headline? headline
  let (_, cs) ← line? cs
  let (rows, cs) ← lines? count cs
  return (⟨keyword, count, equilibrium, rows.map words⟩, cs)

theorem line?_ended {l : List Char} (whole : '\n' ∉ l) (rest : List Char) :
    line? (l ++ '\n' :: rest) = some (l, rest) := by
  induction l with
  | nil => simp [line?]
  | cons c l ih =>
    rw [List.mem_cons, not_or] at whole
    rw [List.cons_append, line?, if_neg (Ne.symm whole.1), ih whole.2]
    rfl

theorem line?_unlines {l : List Char} (whole : '\n' ∉ l) (ls : List (List Char))
    (rest : List Char) : line? (unlines (l :: ls) ++ rest) = some (l, unlines ls ++ rest) := by
  have split : unlines (l :: ls) ++ rest = l ++ '\n' :: (unlines ls ++ rest) := by
    simp [unlines]
  rw [split, line?_ended whole]

theorem lines?_unlines {ls : List (List Char)} (whole : ∀ l ∈ ls, '\n' ∉ l) (rest : List Char) :
    lines? ls.length (unlines ls ++ rest) = some (ls, rest) := by
  induction ls with
  | nil => rfl
  | cons l ls ih =>
    have first := line?_unlines (whole l List.mem_cons_self) ls rest
    have others := ih fun other member => whole other (List.mem_cons_of_mem l member)
    simp [lines?, first, others]

def Word (w : List Char) : Prop := w ≠ [] ∧ ∀ c ∈ w, c ≠ ' ' ∧ c ≠ '\n'

theorem Word.unended {w : List Char} (word : Word w) : '\n' ∉ w :=
  fun member => (word.2 _ member).2 rfl

theorem words_word {w : List Char} (word : Word w) : words w = [w] := by
  have unspaced : ' ' ∉ w := fun member => (word.2 _ member).1 rfl
  simp [words, Text.pieces_unmarked unspaced, word.1]

theorem words_append_space (front back : List Char) :
    words (front ++ ' ' :: back) = words front ++ words back := by
  rw [words, Text.pieces_append, List.filter_append]
  rfl

theorem words_spaces (n : Nat) : words (List.replicate n ' ') = [] := by
  induction n with
  | zero => rfl
  | succ n ih =>
    have split : List.replicate (n + 1) ' ' = [] ++ ' ' :: List.replicate n ' ' := rfl
    rw [split, words_append_space, ih]
    rfl

theorem words_padLeft (width : Nat) {w : List Char} (word : Word w) :
    words (padLeft width w) = [w] := by
  rw [padLeft]
  cases width - w.length with
  | zero => exact words_word word
  | succ n =>
    have split : List.replicate (n + 1) ' ' ++ w = List.replicate n ' ' ++ ' ' :: w := by
      rw [List.replicate_succ', List.append_assoc]
      rfl
    rw [split, words_append_space, words_spaces, words_word word]
    rfl

theorem words_padRight (width : Nat) (cs : List Char) : words (padRight width cs) = words cs := by
  rw [padRight]
  cases width - cs.length with
  | zero => rw [List.replicate_zero, List.append_nil]
  | succ n =>
    rw [List.replicate_succ, words_append_space, words_spaces, List.append_nil]

theorem words_column (x : Float) :
    words (column x) = [(Decimal.general x columnDigits).toList] := by
  have word : Word (Decimal.general x columnDigits).toList := Decimal.general_word x columnDigits
  rw [column, words_padRight]
  split
  · exact words_word word
  · have split : ' ' :: (Decimal.general x columnDigits).toList =
        [] ++ ' ' :: (Decimal.general x columnDigits).toList := rfl
    rw [split, words_append_space, words_word word]
    rfl

def rowWords (index : Nat) (angle energy force : Float) : List (List Char) :=
  [Nat.toDigits 10 index, (Decimal.general angle columnDigits).toList,
    (Decimal.general energy columnDigits).toList, (Decimal.general force columnDigits).toList]

theorem words_row (index : Nat) (angle energy force : Float) :
    words (row index angle energy force) = rowWords index angle energy force := by
  have number : words (padLeft indexWidth (Nat.toDigits 10 index)) = [Nat.toDigits 10 index] :=
    words_padLeft _ (Decimal.toDigits_word index)
  rw [row, words_append_space, words_append_space, words_append_space, number]
  rw [words_column, words_column, words_column]
  rfl

theorem unended_column (x : Float) : '\n' ∉ column x := by
  have word : Word (Decimal.general x columnDigits).toList := Decimal.general_word x columnDigits
  intro member
  rcases List.mem_append.mp member with member | member
  · split at member
    · exact word.unended member
    · simp only [List.mem_cons, Char.reduceEq, false_or] at member
      exact word.unended member
  · have space := (List.mem_replicate.mp member).2
    contradiction

theorem unended_row (index : Nat) (angle energy force : Float) :
    '\n' ∉ row index angle energy force := by
  have number : Word (Nat.toDigits 10 index) := Decimal.toDigits_word index
  intro member
  simp only [row, padLeft, List.mem_append, List.mem_cons, List.mem_replicate, Char.reduceEq,
    and_false, false_or] at member
  rcases member with ((member | member) | member) | member
  · exact number.unended member
  · exact unended_column _ member
  · exact unended_column _ member
  · exact unended_column _ member

theorem natural?_toDigits (n : Nat) : natural? (Nat.toDigits 10 n) = some n := by
  have digits : (Nat.toDigits 10 n).all Char.isDigit = true :=
    List.all_eq_true.mpr fun _ member => Decimal.isDigit_of_mem_toDigits member
  rw [natural?, if_pos ⟨Nat.toDigits_ne_nil, digits⟩, Nat.ofDigitChars_ten_toDigits]

def headline (count : Nat) (equilibrium : Float) : List Char :=
  "N ".toList ++ Nat.toDigits 10 count ++ " EQ ".toList ++
    (Decimal.general equilibrium equilibriumDigits).toList

theorem words_headline (count : Nat) (equilibrium : Float) : words (headline count equilibrium) =
    [['N'], Nat.toDigits 10 count, ['E', 'Q'],
      (Decimal.general equilibrium equilibriumDigits).toList] := by
  have split : headline count equilibrium = ['N'] ++ ' ' :: (Nat.toDigits 10 count ++ ' ' ::
      (['E', 'Q'] ++ ' ' :: (Decimal.general equilibrium equilibriumDigits).toList)) := by
    simp [headline]
  rw [split, words_append_space, words_append_space, words_append_space,
    words_word (Decimal.toDigits_word count), words_word (Decimal.general_word _ _)]
  rfl

theorem headline?_headline (count : Nat) (equilibrium : Float) :
    headline? (headline count equilibrium) =
      some (count, (Decimal.general equilibrium equilibriumDigits).toList) := by
  rw [headline?, words_headline]
  simp [natural?_toDigits]

theorem unended_headline (count : Nat) (equilibrium : Float) :
    '\n' ∉ headline count equilibrium := by
  have number : Word (Nat.toDigits 10 count) := Decimal.toDigits_word count
  have text := Decimal.general_word equilibrium equilibriumDigits
  intro member
  simp only [headline, List.mem_append] at member
  rcases member with ((member | member) | member) | member
  · simp at member
  · exact number.unended member
  · simp at member
  · exact (text.2 _ member).2 rfl

theorem isWord_unended {label : String} (word : isWord label = true) : '\n' ∉ label.toList := by
  intro member
  have solid := (Bool.and_eq_true_iff.mp word).2
  have blank := List.all_eq_true.mp solid '\n' member
  exact absurd blank (by decide)

/-- What was written of a table is read as its words, whatever stands behind it. -/
theorem read?_body (t : AngleTable Float) (word : isWord t.label = true) (rest : List Char) :
    read? (unlines (body t) ++ rest) =
      some (⟨t.label.toList, t.samples.length,
        (Decimal.general t.equilibrium equilibriumDigits).toList,
        t.samples.map fun p => rowWords p.index p.angle p.energy p.force⟩, rest) := by
  let rows := t.samples.map fun p => row p.index p.angle p.energy p.force
  have lines : body t = t.label.toList :: headline t.samples.length t.equilibrium :: [] :: rows := rfl
  have keyword := line?_unlines (isWord_unended word)
    (headline t.samples.length t.equilibrium :: [] :: rows) rest
  have second := line?_unlines (unended_headline t.samples.length t.equilibrium) ([] :: rows) rest
  have third := line?_unlines (l := []) List.not_mem_nil rows rest
  have whole : ∀ l ∈ rows, '\n' ∉ l := by
    intro l member
    obtain ⟨p, -, rfl⟩ := List.mem_map.mp member
    exact unended_row _ _ _ _
  have table := lines?_unlines whole rest
  rw [show rows.length = t.samples.length by simp [rows]] at table
  have each : rows.map words = t.samples.map fun p => rowWords p.index p.angle p.energy p.force := by
    simp [rows, words_row]
  rw [lines, read?]
  simp [keyword, second, headline?_headline, third, table, each]

end MolecularTools.Layout
