import MolecularTools.Files.Path

/-! Paths that are written out from the root, name by name. -/
namespace MolecularTools

namespace Text

theorem pieces_unmarked {cs : List Char} (unmarked : mark ∉ cs) : pieces mark cs = [cs] := by
  induction cs with
  | nil => rfl
  | cons c cs ih =>
    rw [List.mem_cons, not_or] at unmarked
    rw [pieces, if_neg (Ne.symm unmarked.1), ih unmarked.2]

theorem pieces_ne_nil (mark : Char) (cs : List Char) : pieces mark cs ≠ [] := by
  cases cs with
  | nil => simp [pieces]
  | cons c cs =>
    rw [pieces]
    split
    · simp
    · split
      · simp
      · simp

theorem pieces_append (mark : Char) (front back : List Char) :
    pieces mark (front ++ mark :: back) = pieces mark front ++ pieces mark back := by
  induction front with
  | nil => simp [pieces]
  | cons c front ih =>
    rw [List.cons_append, pieces, pieces, ih]
    split
    · rfl
    · cases first : pieces mark front with
      | nil => exact absurd first (pieces_ne_nil mark front)
      | cons piece rest => rfl

theorem unmarked_of_mem_pieces {cs : List Char} (member : s ∈ pieces mark cs) : mark ∉ s := by
  induction cs generalizing s with
  | nil =>
    rw [pieces, List.mem_singleton] at member
    rw [member]
    exact List.not_mem_nil
  | cons c cs ih =>
    rw [pieces] at member
    split at member
    · rcases List.mem_cons.mp member with rfl | member
      · exact List.not_mem_nil
      · exact ih member
    · rename_i other
      cases first : pieces mark cs with
      | nil => exact absurd first (pieces_ne_nil mark cs)
      | cons piece rest =>
        rw [first] at member ih
        rcases List.mem_cons.mp member with rfl | member
        · rw [List.mem_cons, not_or]
          exact ⟨Ne.symm other, ih List.mem_cons_self⟩
        · exact ih (List.mem_cons_of_mem piece member)

end Text

namespace Path

structure Plain (name : String) : Prop where
  filled : name ≠ ""
  whole : '/' ∉ name.toList

structure Proper (name : String) : Prop extends Plain name where
  not_here : name ≠ "."
  not_above : name ≠ ".."

theorem proper_of_mem {name : String} {c : Char} (member : c ∈ name.toList) (letter : c ≠ '.')
    (whole : '/' ∉ name.toList) : Proper name := by
  refine ⟨⟨?_, whole⟩, ?_, ?_⟩
  · rintro rfl
    simp at member
  · rintro rfl
    exact letter (by simpa using member)
  · rintro rfl
    exact letter (by simpa using member)

theorem plain_of_mem_names {p : String} (member : name ∈ names p) : Plain name := by
  obtain ⟨piece, among, rfl⟩ := List.mem_map.mp member
  obtain ⟨among, some⟩ := List.mem_filter.mp among
  constructor
  · simpa using some
  · simpa using Text.unmarked_of_mem_pieces among

theorem names_plain {name : String} (plain : Plain name) :
    names name = [name] := by
  simp [names, Text.pieces_unmarked plain.whole, plain.filled]

theorem names_slash (front back : String) : names (front ++ "/" ++ back) = names front ++ names back := by
  have apart : (front ++ "/" ++ back).toList = front.toList ++ '/' :: back.toList := by simp
  simp only [names, apart, Text.pieces_append, List.filter_append, List.map_append]

theorem names_intercalate {l : List String} (proper : ∀ name ∈ l, Proper name) :
    names ("/".intercalate l) = l := by
  induction l with
  | nil => rfl
  | cons name l ih =>
    have this := proper name List.mem_cons_self
    cases l with
    | nil => rw [String.intercalate_singleton, names_plain this.toPlain]
    | cons next rest =>
      have others := ih fun other member => proper other (List.mem_cons_of_mem name member)
      rw [String.intercalate_cons_cons, names_slash, names_plain this.toPlain, others]
      rfl

/-- The names of an absolute path are those it was made of. -/
theorem names_absolute {l : List String} (proper : ∀ name ∈ l, Proper name) :
    names (absolute l) = l := by
  have rooted : absolute l = "" ++ "/" ++ "/".intercalate l := by simp [absolute]
  rw [rooted, names_slash, names_intercalate proper]
  rfl

theorem names_child {l : List String} (above : ∀ name ∈ l, Proper name) (proper : Proper x) :
    names (absolute (l ++ [x])) = l ++ [x] := by
  apply names_absolute
  intro name member
  rcases List.mem_append.mp member with member | member
  · exact above name member
  · rw [List.mem_singleton.mp member]
    exact proper

theorem absolute_ne_empty (l : List String) : absolute l ≠ "" := by
  simp [absolute]

theorem absolute_child (l : List String) (name : String) :
    absolute (l ++ [name]) = if l = [] then "/" ++ name else absolute l ++ "/" ++ name := by
  split
  · rename_i root
    rw [root, absolute, List.nil_append, String.intercalate_singleton]
  · rename_i inner
    rw [absolute, absolute, String.intercalate_append_of_ne_nil inner (by simp),
      String.intercalate_singleton]
    simp only [String.append_assoc]

theorem endsInSlash_append (p : String) {name : String} (filled : name ≠ "") :
    endsInSlash (p ++ name) = endsInSlash name := by
  have some : name.toList ≠ [] := by simpa using filled
  simp only [endsInSlash, String.toList_append, List.getLast?_append]
  rw [List.getLast?_eq_some_getLast some]
  rfl

theorem endsInSlash_unmarked {name : String} (whole : '/' ∉ name.toList) :
    endsInSlash name = false := by
  rw [endsInSlash, decide_eq_false_iff_not]
  intro last
  exact whole (List.mem_of_getLast? last)

theorem endsInSlash_child (l : List String) (proper : Proper name) :
    endsInSlash (absolute (l ++ [name])) = false := by
  rw [absolute_child]
  split
  · rw [endsInSlash_append _ proper.filled, endsInSlash_unmarked proper.whole]
  · rw [endsInSlash_append _ proper.filled, endsInSlash_unmarked proper.whole]

theorem isAbsolute_unmarked {name : String} (whole : '/' ∉ name.toList) :
    isAbsolute name = false := by
  rw [isAbsolute, decide_eq_false_iff_not]
  intro first
  exact whole (List.mem_of_head? first)

/-- An entry of a directory is named behind the path of the directory. -/
theorem join_absolute {l : List String} (above : ∀ name ∈ l, Proper name)
    (whole : '/' ∉ name.toList) : join (absolute l) name = absolute (l ++ [name]) := by
  have relative := isAbsolute_unmarked whole
  rw [absolute_child]
  rcases List.eq_nil_or_concat l with rfl | ⟨upper, last, rfl⟩
  · simp [join, relative, absolute, endsInSlash]
  · have inner : endsInSlash (absolute (upper ++ [last])) = false :=
      endsInSlash_child upper (above last (by simp))
    simp [join, relative, inner, absolute_ne_empty]

end Path

end MolecularTools
