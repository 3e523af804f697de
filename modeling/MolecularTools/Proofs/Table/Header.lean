import MolecularTools.Proofs.Table.ReadBack

/-! What readers of a file of tables go by: comments, the lines that begin with a hash, and the
keyword, the first line that is neither empty nor a comment. A label is checked to be one word, a
comment is not checked at all. So a header keeps to its two lines for some labels and comments
only, and it is told here for which. -/
namespace MolecularTools

namespace Text

theorem pieces_prefix {mark : Char} {front cs first : List Char} {more : List (List Char)}
    (unmarked : mark ∉ front) (split : pieces mark cs = first :: more) :
    pieces mark (front ++ cs) = (front ++ first) :: more := by
  induction front with
  | nil => exact split
  | cons c front ih =>
    rw [List.mem_cons, not_or] at unmarked
    rw [List.cons_append, pieces, if_neg (Ne.symm unmarked.1), ih unmarked.2]
    rfl

end Text

namespace Layout

def isComment (l : List Char) : Bool := l.head? = some '#'

/-- The line that names a table for its readers, if there is one. -/
def keyword? (ls : List (List Char)) : Option (List Char) :=
  ls.find? fun l => !l.isEmpty && !isComment l

/-- The first two lines are comments, no others are, and the keyword is `label`. -/
structure Contained (label : List Char) (ls : List (List Char)) : Prop where
  two : (ls.take 2).map isComment = [true, true]
  others : ∀ l ∈ ls.drop 2, isComment l = false
  keyword : keyword? ls = some label

def furtherLines (comment : String) : List (List Char) := (Text.pieces '\n' comment.toList).tail

theorem pieces_unlines (ls : List (List Char)) :
    Text.pieces '\n' (unlines ls) = ls.flatMap (Text.pieces '\n') ++ [[]] := by
  induction ls with
  | nil => rfl
  | cons l ls ih =>
    have split : unlines (l :: ls) = l ++ '\n' :: unlines ls := by simp [unlines]
    rw [split, Text.pieces_append, ih, List.flatMap_cons, List.append_assoc]

theorem pieces_unlines_unended {ls : List (List Char)} (whole : ∀ l ∈ ls, '\n' ∉ l) :
    Text.pieces '\n' (unlines ls) = ls ++ [[]] := by
  rw [pieces_unlines]
  congr 1
  induction ls with
  | nil => rfl
  | cons l ls ih =>
    rw [List.flatMap_cons, Text.pieces_unmarked (whole l List.mem_cons_self),
      ih fun other member => whole other (List.mem_cons_of_mem l member)]
    rfl

theorem unended_date (d : Date) : '\n' ∉ d.text := by
  have digits {width n : Nat} : '\n' ∉ Decimal.paddedDigits width n := fun member =>
    absurd (Decimal.isDigit_of_mem_paddedDigits member) (by decide)
  have sign : '\n' ∉ (if d.year < 0 then ['-'] else if 9999 < d.year then ['+'] else []) := by
    split
    · decide
    · split <;> decide
  simp only [Date.text, List.mem_append, List.mem_cons, not_or]
  exact ⟨⟨⟨sign, digits⟩, by decide, digits⟩, by decide, digits⟩

def dateLine (date : List Char) (units : Units) : List Char :=
  "# DATE: ".toList ++ date ++ " UNITS: ".toList ++ units.name.toList ++
    " CONTRIBUTOR: ".toList ++ contributor.toList

theorem unended_dateLine {date : List Char} (whole : '\n' ∉ date) (units : Units) :
    '\n' ∉ dateLine date units := by
  have name : '\n' ∉ units.name.toList := by cases units <;> decide
  have between : '\n' ∉ "# DATE: ".toList ∧ '\n' ∉ " UNITS: ".toList ∧
      '\n' ∉ " CONTRIBUTOR: ".toList ∧ '\n' ∉ contributor.toList := by decide +kernel
  unfold dateLine
  simp only [List.mem_append, not_or]
  exact ⟨⟨⟨⟨⟨between.1, whole⟩, between.2.1⟩, name⟩, between.2.2.1⟩, between.2.2.2⟩

theorem unended_body {t : AngleTable Float} (word : isWord t.label = true) :
    ∀ l ∈ body t, '\n' ∉ l := by
  intro l member
  rcases List.mem_append.mp member with top | sample
  · simp only [List.mem_cons, List.not_mem_nil, or_false] at top
    rcases top with rfl | rfl | rfl
    · exact isWord_unended word
    · exact unended_headline _ _
    · exact List.not_mem_nil
  · obtain ⟨q, -, rfl⟩ := List.mem_map.mp sample
    exact unended_row _ _ _ _

/-- The lines of a written table: the comment may have added some. -/
theorem pieces_lines (d : Date) (comment : String) {t : AngleTable Float}
    (word : isWord t.label = true) : ∃ first,
    Text.pieces '\n' (unlines (lines ⟨d.text, comment⟩ t)) =
      dateLine d.text t.units :: ("# ".toList ++ first) ::
        (furtherLines comment ++ [] :: (body t ++ [[]])) := by
  cases split : Text.pieces '\n' comment.toList with
  | nil => exact absurd split (Text.pieces_ne_nil _ _)
  | cons first more =>
    have marked : '\n' ∉ "# ".toList := by decide
    have top : header ⟨d.text, comment⟩ t.units =
        [dateLine d.text t.units, "# ".toList ++ comment.toList, []] := rfl
    have parts : unlines (lines ⟨d.text, comment⟩ t) = dateLine d.text t.units ++ '\n' ::
        (("# ".toList ++ comment.toList) ++ '\n' :: ([] ++ '\n' :: unlines (body t))) := by
      rw [lines, top]
      simp [unlines]
    refine ⟨first, ?_⟩
    rw [parts, Text.pieces_append, Text.pieces_append, Text.pieces_append,
      Text.pieces_unmarked (unended_dateLine (unended_date d) t.units),
      Text.pieces_prefix marked split, pieces_unlines_unended (unended_body word),
      furtherLines, split]
    rfl

theorem row_uncommented (index : Nat) (angle energy force : Float) :
    isComment (row index angle energy force) = false := by
  have padded : '#' ∉ padLeft indexWidth (Nat.toDigits 10 index) := by
    intro member
    rcases List.mem_append.mp member with blank | digit
    · exact absurd (List.mem_replicate.mp blank).2 (by decide)
    · exact absurd (Decimal.isDigit_of_mem_toDigits digit) (by decide)
  rw [isComment, decide_eq_false_iff_not, row, List.append_assoc, List.append_assoc,
    List.head?_append]
  cases start : (padLeft indexWidth (Nat.toDigits 10 index)).head? with
  | none => simp
  | some c =>
    rintro ⟨rfl⟩
    exact padded (List.mem_of_head? start)

/-- Below the label, nothing looks like a comment. -/
theorem body_uncommented (t : AngleTable Float) {l : List Char} (member : l ∈ body t)
    (below : l ≠ t.label.toList) : isComment l = false := by
  rcases List.mem_append.mp member with top | sample
  · simp only [List.mem_cons, List.not_mem_nil, or_false] at top
    rcases top with rfl | rfl | rfl
    · exact absurd rfl below
    · rfl
    · rfl
  · obtain ⟨q, -, rfl⟩ := List.mem_map.mp sample
    exact row_uncommented _ _ _ _

theorem keyword?_body {t : AngleTable Float} (word : isWord t.label = true)
    (plain : isComment t.label.toList = false) (rest : List (List Char)) :
    keyword? ([] :: (body t ++ rest)) = some t.label.toList := by
  have filled : t.label.toList.isEmpty = false := by
    simpa using (Bool.and_eq_true_iff.mp word).1
  simp [keyword?, body, filled, plain]

/-- A header keeps to its two lines exactly if neither the label nor a further line of the comment
begins like a comment, and no further line of the comment is taken for another keyword. -/
theorem contained_iff (d : Date) (comment : String) {t : AngleTable Float}
    (word : isWord t.label = true) :
    Contained t.label.toList (Text.pieces '\n' (text ⟨d.text, comment⟩ t).toList) ↔
      isComment t.label.toList = false ∧ (∀ l ∈ furtherLines comment, isComment l = false) ∧
        ∀ l ∈ keyword? (furtherLines comment), l = t.label.toList := by
  obtain ⟨first, split⟩ := pieces_lines d comment word
  have skipped (ls : List (List Char)) :
      keyword? (dateLine d.text t.units :: ("# ".toList ++ first) :: ls) = keyword? ls := rfl
  have joined (ls : List (List Char)) : keyword? (furtherLines comment ++ ls) =
      (keyword? (furtherLines comment)).or (keyword? ls) := List.find?_append
  rw [text, String.toList_ofList, split]
  constructor
  · rintro ⟨-, others, keyword⟩
    have label : t.label.toList ∈ furtherLines comment ++ [] :: (body t ++ [[]]) := by
      simp [body]
    refine ⟨others _ label, fun l member => others l (List.mem_append_left _ member), ?_⟩
    intro l found
    rw [skipped, joined, Option.mem_def.mp found] at keyword
    exact Option.some.inj keyword
  · rintro ⟨plain, further, agrees⟩
    refine ⟨rfl, ?_, ?_⟩
    · intro l member
      rcases List.mem_append.mp member with comment | below
      · exact further l comment
      · rcases List.mem_cons.mp below with rfl | below
        · rfl
        · by_cases label : l = t.label.toList
          · rw [label, plain]
          · rcases List.mem_append.mp below with within | last
            · exact body_uncommented t within label
            · rw [List.mem_singleton.mp last]
              rfl
    · rw [skipped, joined, keyword?_body word plain]
      cases found : keyword? (furtherLines comment) with
      | none => rfl
      | some l => rw [agrees l found, Option.some_or]

/-- A comment of one line adds nothing to the header, whatever is in it. -/
theorem contained_of_unended (d : Date) {comment : String} (single : '\n' ∉ comment.toList)
    {t : AngleTable Float} (word : isWord t.label = true)
    (plain : isComment t.label.toList = false) :
    Contained t.label.toList (Text.pieces '\n' (text ⟨d.text, comment⟩ t).toList) := by
  have alone : furtherLines comment = [] := by
    rw [furtherLines, Text.pieces_unmarked single]
    rfl
  rw [contained_iff d comment word, alone]
  exact ⟨plain, by simp, by simp [keyword?]⟩

/-- What is written of a sampled table, and when its header keeps to two comments so that the
keyword is the label. The label is one word by then; that it does not begin like a comment, and
that a comment has no lines that readers take for something else, is up to the caller. -/
theorem written_header_contained_iff {s : Sampling} {step : Float} {p : Potential Float}
    {label : String} {units : Units} {t : AngleTable Float}
    (tabulated : s.tabulate step p label units = .ok t) (d : Date) (comment : String)
    {sink : Sink} (roomy : sink.Roomy) :
    ∃ after, t.write ⟨d.text, comment⟩ Sink.writer sink = (.ok (), after) ∧
      after.held = sink.held ++ (text ⟨d.text, comment⟩ t).toUTF8 ∧
      (Contained label.toList (Text.pieces '\n' (text ⟨d.text, comment⟩ t).toList) ↔
        isComment label.toList = false ∧ (∀ l ∈ furtherLines comment, isComment l = false) ∧
          ∀ l ∈ keyword? (furtherLines comment), l = label.toList) := by
  obtain ⟨-, word⟩ := Sampling.tabulate_accepts tabulated
  obtain ⟨rfl, -, -⟩ := Sampling.tabulate_ok tabulated
  obtain ⟨after, written, held⟩ := AngleTable.write_roomy roomy t ⟨d.text, comment⟩
  exact ⟨after, written, held, contained_iff d comment word⟩

/-- The standard comment is one line, and the standard label is found below it. -/
theorem standard_header_contained : ∃ t : AngleTable Float,
    Sampling.tabulate { points := 2 } differenceStep .standard "HARM" .real = .ok t ∧
    ∃ after : Sink, t.write ⟨Date.text ⟨2024, 6, 3⟩, Heading.standardComment⟩ Sink.writer {} =
        (.ok (), after) ∧
      after.held = .empty ++ (text ⟨Date.text ⟨2024, 6, 3⟩, Heading.standardComment⟩ t).toUTF8 ∧
      Contained "HARM".toList (Text.pieces '\n'
        (text ⟨Date.text ⟨2024, 6, 3⟩, Heading.standardComment⟩ t).toList) := by
  have word : isWord "HARM" = true := by decide +kernel
  obtain ⟨t, tabulated⟩ := Sampling.tabulate_succeeds (s := { points := 2 }) (Nat.le_refl 2)
    word differenceStep .standard .real
  have roomy : Sink.Roomy {} := ⟨rfl, rfl⟩
  obtain ⟨after, written, held, contained⟩ := written_header_contained_iff tabulated
    ⟨2024, 6, 3⟩ Heading.standardComment roomy
  have alone : furtherLines Heading.standardComment = [] := by decide +kernel
  refine ⟨t, tabulated, after, written, held, contained.mpr ⟨by decide +kernel, ?_, ?_⟩⟩
  · rw [alone]
    exact fun _ member => absurd member List.not_mem_nil
  · rw [alone]
    exact fun _ found => absurd found (Option.not_mem_none _)

/-- The second line of a comment comes before the label and is taken for the keyword. -/
theorem two_line_comment_escapes : ∃ t : AngleTable Float,
    Sampling.tabulate { points := 2 } differenceStep .standard "HARM" .real = .ok t ∧
    ¬ Contained "HARM".toList (Text.pieces '\n'
      (text ⟨Date.text ⟨2024, 6, 3⟩, "first\nSECOND"⟩ t).toList) := by
  have word : isWord "HARM" = true := by decide +kernel
  obtain ⟨t, tabulated⟩ := Sampling.tabulate_succeeds (s := { points := 2 }) (Nat.le_refl 2)
    word differenceStep .standard .real
  obtain ⟨label, -, -⟩ := Sampling.tabulate_ok tabulated
  refine ⟨t, tabulated, fun contained => ?_⟩
  rw [← label] at word contained
  obtain ⟨-, -, agrees⟩ := (contained_iff _ _ word).mp contained
  have second : keyword? (furtherLines "first\nSECOND") = some "SECOND".toList := by
    decide +kernel
  have same := agrees _ second
  rw [label] at same
  exact absurd same (by decide)

end Layout

end MolecularTools
