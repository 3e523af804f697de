import MolecularTools.Proofs.Json.Scalars

/-! Values in JSON. What is printed of a value is read back as the value, in whatever list or map
it stands, so lists and maps are read back item by item. -/
namespace MolecularTools.Json

/-- The text begins like a value, and it is read as `j` wherever a value can end. -/
structure Reads (text : List Char) (j : Json) : Prop where
  begins : ∃ c cs, text = c :: cs ∧ isSpace c = false ∧ c ≠ ']'
  reads : ∀ fuel rest, text.length ≤ fuel → Closes rest →
    readValue fuel (text ++ rest) = (j, some rest)

theorem skipSpace_cons {c : Char} (solid : isSpace c = false) (cs : List Char) :
    skipSpace (c :: cs) = c :: cs := by
  simp [skipSpace, solid]

theorem Closes.comma (rest : List Char) : Closes (',' :: rest) := by simp [Closes]

theorem Closes.bracket (rest : List Char) : Closes (']' :: rest) := by simp [Closes]

theorem Closes.brace (rest : List Char) : Closes ('\x7d' :: rest) := by simp [Closes]

theorem null_reads : Reads ['n', 'u', 'l', 'l'] .null := by
  refine ⟨⟨'n', _, rfl, rfl, by decide⟩, fun fuel rest enough _ => ?_⟩
  cases fuel with
  | zero => contradiction
  | succ fuel =>
    rw [List.cons_append, readValue, skipSpace_cons rfl]
    rfl

theorem string_reads (s : String) : Reads (printString s) (.string s) := by
  refine ⟨⟨'"', _, rfl, rfl, by decide⟩, fun fuel rest enough _ => ?_⟩
  cases fuel with
  | zero => contradiction
  | succ fuel =>
    have body := readString_printed s rest
    have text : printString s ++ rest = '"' :: (s.toList.flatMap escape ++ '"' :: rest) := by
      simp [printString]
    rw [text, readValue, skipSpace_cons rfl]
    simp [body]

theorem ofNumber_natural {r : Except JsonFault (JsonNumber × List Char)} :
    ofNumber r = (.number (.natural n), some rest) ↔ r = .ok (.natural n, rest) := by
  cases r with
  | error f => simp [ofNumber, faulty]
  | ok r => simp [ofNumber, Prod.ext_iff]

theorem readWord_holds {P : Json → Prop} (value : Json) (holds : P value)
    (faults : ∀ f, P (.fault f)) (word cs : List Char) : P (readWord word value cs).1 := by
  induction word generalizing cs with
  | nil => exact holds
  | cons w word ih =>
    cases cs with
    | nil => exact faults _
    | cons c cs =>
      rw [readWord]
      split
      · exact ih cs
      · exact faults _

/-- An integer without sign is read from a numeral, and from nothing else. -/
theorem readValue_natural_iff : readValue (fuel + 1) cs = (.number (.natural n), some rest) ↔
    ∃ digits, skipSpace cs = digits ++ rest ∧ Numeral digits n ∧ Apart rest := by
  have word (value : Json) (other : value ≠ .number (.natural n)) (letters cs : List Char) :
      readWord letters value cs ≠ (.number (.natural n), some rest) := fun read =>
    readWord_holds (P := (· ≠ Json.number (.natural n))) value other (fun _ => by simp)
      letters cs (congrArg Prod.fst read)
  constructor
  · intro read
    rw [readValue] at read
    split at read
    · simp [faulty] at read
    · exact absurd read (word _ (by simp) _ _)
    · exact absurd read (word _ (by simp) _ _)
    · exact absurd read (word _ (by simp) _ _)
    · have signed := (numeral_of_readNumber (ofNumber_natural.mp read)).1
      contradiction
    · split at read
      · simp at read
      · simp [faulty] at read
    · simp at read
    · simp at read
    · rename_i start
      split at read
      · obtain ⟨-, numeral⟩ := numeral_of_readNumber (ofNumber_natural.mp read)
        rwa [start]
      · simp [faulty] at read
  · rintro ⟨digits, start, numeral, apart⟩
    obtain ⟨d, ds, rfl⟩ := List.exists_cons_of_ne_nil numeral.filled
    have digit := numeral.decimal d List.mem_cons_self
    have read := numeral.readNumber apart
    rw [readValue, start]
    rw [List.cons_append] at read ⊢
    split
    case h_9 c r _ _ _ _ _ _ _ same =>
      obtain ⟨rfl, rfl⟩ := List.cons.inj same
      rw [if_pos digit, read]
      rfl
    all_goals simp_all

theorem natural_reads {n : Nat} (fits : n < wordBound) :
    Reads (printNat n) (.number (.natural n)) := by
  obtain ⟨c, cs, split⟩ : ∃ c cs, printNat n = c :: cs :=
    List.exists_cons_of_ne_nil Nat.toDigits_ne_nil
  have member : c ∈ printNat n := split ▸ List.mem_cons_self
  have digit : c.isDigit = true := Decimal.isDigit_of_mem_toDigits member
  have solid : isSpace c = false := by
    rw [← Bool.not_eq_true]
    intro space
    simp only [isSpace, Bool.or_eq_true, decide_eq_true_eq] at space
    rcases space with ((rfl | rfl) | rfl) | rfl
    all_goals contradiction
  refine ⟨⟨c, cs, split, solid, by rintro rfl; contradiction⟩, fun fuel rest enough closes => ?_⟩
  cases fuel with
  | zero =>
    rw [split] at enough
    contradiction
  | succ fuel =>
    refine readValue_natural_iff.mpr ⟨printNat n, ?_, numeral_printed fits, closes.apart⟩
    rw [split, List.cons_append, skipSpace_cons solid]

def further (texts : List (List Char)) : List Char := texts.flatMap fun x => ',' :: x

theorem further_cons (x : List Char) (xs : List (List Char)) :
    further (x :: xs) = ',' :: (x ++ further xs) := List.flatMap_cons

theorem separated_cons (x : List Char) (xs : List (List Char)) :
    separated (x :: xs) = x ++ further xs := by
  induction xs generalizing x with
  | nil => simp [separated, further]
  | cons y ys ih =>
    rw [separated, ih, further_cons]
    exact List.cons_ne_nil y ys

theorem closes_further {rest : List Char} (closes : Closes rest) (xs : List (List Char)) :
    Closes (further xs ++ rest) := by
  cases xs with
  | nil => exact closes
  | cons x xs =>
    rw [further_cons]
    exact .comma _

variable {α : Type} {f : α → List Char} {g : α → Json}

theorem readItems_further (fuel : Nat) {xs : List α} (each : ∀ x ∈ xs, Reads (f x) (g x))
    (enough : (further (xs.map f)).length < fuel) (rest : List Char) :
    readItems fuel false (further (xs.map f) ++ ']' :: rest) = (xs.map g, none, some rest) := by
  induction xs generalizing fuel with
  | nil =>
    cases fuel with
    | zero => contradiction
    | succ fuel =>
      rw [readItems]
      rfl
  | cons x xs ih =>
    cases fuel with
    | zero => contradiction
    | succ fuel =>
      rw [List.map_cons, further_cons] at enough ⊢
      simp only [List.length_cons, List.length_append] at enough
      have value := (each x List.mem_cons_self).reads fuel (further (xs.map f) ++ ']' :: rest)
        (by omega) (closes_further (.bracket rest) _)
      have others := ih fuel (fun y member => each y (List.mem_cons_of_mem x member))
        (by omega)
      rw [readItems, List.cons_append, skipSpace_cons rfl, List.append_assoc]
      simp [value, others]

theorem array_reads {xs : List α} (each : ∀ x ∈ xs, Reads (f x) (g x)) :
    Reads (printArray (xs.map f)) (.array (xs.map g) none) := by
  refine ⟨⟨'[', _, rfl, rfl, by decide⟩, fun fuel rest enough closes => ?_⟩
  obtain ⟨fuel, rfl⟩ : ∃ n, fuel = n + 2 := by
    have long : 2 ≤ (printArray (xs.map f)).length := by simp [printArray]
    exact Nat.exists_eq_add_of_le' (Nat.le_trans long enough)
  have text : printArray (xs.map f) ++ rest = '[' :: (separated (xs.map f) ++ ']' :: rest) := by
    simp [printArray]
  have items : readItems (fuel + 1) true (separated (xs.map f) ++ ']' :: rest) =
      (xs.map g, none, some rest) := by
    cases xs with
    | nil =>
      rw [readItems]
      rfl
    | cons x xs =>
      rw [List.map_cons, separated_cons, List.append_assoc]
      rw [printArray, List.map_cons, separated_cons] at enough
      simp only [List.length_cons, List.length_append, List.length_nil] at enough
      obtain ⟨c, cs, split, solid, inner⟩ := (each x List.mem_cons_self).begins
      have some : 1 ≤ (f x).length := by simp [split]
      have value := (each x List.mem_cons_self).reads fuel (further (xs.map f) ++ ']' :: rest)
        (by omega) (closes_further (.bracket rest) _)
      have others := readItems_further fuel
        (fun y member => each y (List.mem_cons_of_mem x member)) (by omega) rest
      rw [split, List.cons_append] at value ⊢
      rw [readItems, skipSpace_cons solid]
      simp [value, others]
  rw [text, readValue, skipSpace_cons rfl]
  simp [items]

def printMember (key : String) (value : List Char) : List Char := printString key ++ ':' :: value

variable (key : α → String)

/-- A member is read where one is awaited, and then those behind it. -/
theorem readMembers_member (fuel : Nat) {x : α} (reads : Reads (f x) (g x))
    (enough : (printMember (key x) (f x)).length ≤ fuel) {rest : List Char} (closes : Closes rest) :
    ∃ r, printMember (key x) (f x) ++ rest = '"' :: r ∧ ∃ r', readString r = .ok (key x, ':' :: r') ∧
      readValue fuel r' = (g x, some rest) := by
  have fits : (f x).length ≤ fuel := by
    simp only [printMember, List.length_append, List.length_cons] at enough
    omega
  refine ⟨(key x).toList.flatMap escape ++ '"' :: (':' :: (f x ++ rest)), ?_, f x ++ rest,
    readString_printed _ _, reads.reads fuel rest fits closes⟩
  simp [printMember, printString]

theorem readMembers_further (fuel : Nat) {xs : List α} (each : ∀ x ∈ xs, Reads (f x) (g x))
    (enough : (further (xs.map fun x => printMember (key x) (f x))).length < fuel)
    (rest : List Char) :
    readMembers fuel false (further (xs.map fun x => printMember (key x) (f x)) ++ '\x7d' :: rest) =
      (xs.map fun x => (key x, g x), none, some rest) := by
  induction xs generalizing fuel with
  | nil =>
    cases fuel with
    | zero => contradiction
    | succ fuel =>
      rw [readMembers]
      rfl
  | cons x xs ih =>
    cases fuel with
    | zero => contradiction
    | succ fuel =>
      rw [List.map_cons, further_cons] at enough ⊢
      simp only [List.length_cons, List.length_append] at enough
      obtain ⟨r, text, r', name, value⟩ := readMembers_member key fuel
        (each x List.mem_cons_self) (by omega)
        (closes_further (.brace rest) (xs.map fun x => printMember (key x) (f x)))
      have others := ih fuel (fun y member => each y (List.mem_cons_of_mem x member))
        (by omega)
      rw [List.cons_append, List.append_assoc, text, readMembers, skipSpace_cons rfl]
      simp [name, skipSpace_cons (c := ':') rfl, value, others, skipSpace_cons (c := '"') rfl]

theorem object_reads {xs : List α} (each : ∀ x ∈ xs, Reads (f x) (g x)) :
    Reads (printObject (xs.map fun x => (key x, f x)))
      (.object (xs.map fun x => (key x, g x)) none) := by
  refine ⟨⟨'\x7b', _, rfl, rfl, by decide⟩, fun fuel rest enough closes => ?_⟩
  obtain ⟨fuel, rfl⟩ : ∃ n, fuel = n + 2 := by
    have long : 2 ≤ (printObject (xs.map fun x => (key x, f x))).length := by simp [printObject]
    exact Nat.exists_eq_add_of_le' (Nat.le_trans long enough)
  have members : ((xs.map fun x => (key x, f x)).map fun m => printString m.1 ++ ':' :: m.2) =
      xs.map fun x => printMember (key x) (f x) := by
    rw [List.map_map]
    rfl
  rw [printObject, members] at enough ⊢
  have text : '\x7b' :: separated (xs.map fun x => printMember (key x) (f x)) ++ ['\x7d'] ++ rest =
      '\x7b' :: (separated (xs.map fun x => printMember (key x) (f x)) ++ '\x7d' :: rest) := by
    simp
  have read : readMembers (fuel + 1) true
      (separated (xs.map fun x => printMember (key x) (f x)) ++ '\x7d' :: rest) =
      (xs.map fun x => (key x, g x), none, some rest) := by
    cases xs with
    | nil =>
      rw [readMembers]
      rfl
    | cons x xs =>
      rw [List.map_cons, separated_cons] at enough ⊢
      simp only [List.length_cons, List.length_append, List.length_nil] at enough
      have some : 1 ≤ (printMember (key x) (f x)).length := by
        rw [printMember, List.length_append, List.length_cons]
        omega
      obtain ⟨r, text, r', name, value⟩ := readMembers_member key fuel
        (each x List.mem_cons_self) (by omega)
        (closes_further (.brace rest) (xs.map fun x => printMember (key x) (f x)))
      have others := readMembers_further key fuel
        (fun y member => each y (List.mem_cons_of_mem x member)) (by omega) rest
      rw [List.append_assoc, text, readMembers, skipSpace_cons rfl]
      simp [name, skipSpace_cons (c := ':') rfl, value, others, skipSpace_cons (c := '"') rfl]
  rw [text, readValue, skipSpace_cons rfl]
  simp [read]

/-- An integer without sign fits sixty-four bits. -/
def Bounded : Json → Prop
  | .number (.natural n) => n < wordBound
  | _ => True

def Filled : Json → Prop
  | .array items _ => ∀ j ∈ items, Bounded j
  | .object members _ => ∀ m ∈ members, Bounded m.2
  | _ => True

theorem ofNumber_bounded (negative : Bool) (cs : List Char) :
    Bounded (ofNumber (readNumber negative cs)).1 := by
  cases read : readNumber negative cs with
  | error f => exact trivial
  | ok r =>
    obtain ⟨number, rest⟩ := r
    cases number with
    | natural n => exact readNumber_lt read
    | negative n => exact trivial
    | float x => exact trivial

theorem ofNumber_filled (r : Except JsonFault (JsonNumber × List Char)) :
    Filled (ofNumber r).1 := by
  cases r with
  | error f => exact trivial
  | ok r => exact trivial

theorem readValue_bounded (fuel : Nat) (cs : List Char) : Bounded (readValue fuel cs).1 := by
  cases fuel with
  | zero => exact trivial
  | succ fuel =>
    rw [readValue]
    split
    · exact trivial
    · exact readWord_holds (P := Bounded) .null trivial (fun _ => trivial) _ _
    · exact readWord_holds (P := Bounded) (.bool true) trivial (fun _ => trivial) _ _
    · exact readWord_holds (P := Bounded) (.bool false) trivial (fun _ => trivial) _ _
    · exact ofNumber_bounded _ _
    · split
      · exact trivial
      · exact trivial
    · exact trivial
    · exact trivial
    · split
      · exact ofNumber_bounded _ _
      · exact trivial

def readItem (fuel : Nat) (cs : List Char) : List Json × Option JsonFault × Option (List Char) :=
  match readValue fuel cs with
  | (v, none) => ([v], none, none)
  | (v, some rest) =>
    let (items, ending, rest) := readItems fuel false rest
    (v :: items, ending, rest)

theorem readItem_bounded (behind : ∀ rest, ∀ j ∈ (readItems fuel false rest).1, Bounded j)
    (cs : List Char) : ∀ j ∈ (readItem fuel cs).1, Bounded j := by
  have value := readValue_bounded fuel cs
  rw [readItem]
  generalize readValue fuel cs = read at value
  rcases read with ⟨v, _ | rest⟩
  · simpa using value
  · simpa [show Bounded v from value] using behind rest

theorem readItems_bounded (fuel : Nat) (first : Bool) (cs : List Char) :
    ∀ j ∈ (readItems fuel first cs).1, Bounded j := by
  induction fuel generalizing first cs with
  | zero => simp [readItems]
  | succ fuel ih =>
    rw [readItems]
    split
    · simp
    · simp
    split
    · exact readItem_bounded (ih false) _
    split
    · exact readItem_bounded (ih false) _
    · simp

def readMember (fuel : Nat) (cs : List Char) :
    List (String × Json) × Option JsonFault × Option (List Char) :=
  match skipSpace cs with
  | [] => ([], some .ended, none)
  | '"' :: r => match readString r with
    | .error f => ([], some f, none)
    | .ok (key, rest) => match skipSpace rest with
      | [] => ([(key, .fault .ended)], none, none)
      | ':' :: rest => match readValue fuel rest with
        | (v, none) => ([(key, v)], none, none)
        | (v, some rest) =>
          let (members, ending, rest) := readMembers fuel false rest
          ((key, v) :: members, ending, rest)
      | _ => ([(key, .fault .grammar)], none, none)
  | _ => ([], some .grammar, none)

theorem readMember_bounded (behind : ∀ rest, ∀ m ∈ (readMembers fuel false rest).1, Bounded m.2)
    (cs : List Char) : ∀ m ∈ (readMember fuel cs).1, Bounded m.2 := by
  rw [readMember]
  split
  · simp
  · split
    · simp
    split
    · simp [Bounded]
    · rename_i rest _
      have value := readValue_bounded fuel rest
      generalize readValue fuel rest = read at value
      rcases read with ⟨v, _ | rest⟩
      · simpa using value
      · simpa [show Bounded v from value] using behind rest
    · simp [Bounded]
  · simp

theorem readMembers_bounded (fuel : Nat) (first : Bool) (cs : List Char) :
    ∀ m ∈ (readMembers fuel first cs).1, Bounded m.2 := by
  induction fuel generalizing first cs with
  | zero => simp [readMembers]
  | succ fuel ih =>
    rw [readMembers]
    split
    · simp
    · simp
    split
    · exact readMember_bounded (ih false) _
    split
    · exact readMember_bounded (ih false) _
    · simp

theorem readValue_filled (fuel : Nat) (cs : List Char) : Filled (readValue fuel cs).1 := by
  cases fuel with
  | zero => exact trivial
  | succ fuel =>
    rw [readValue]
    split
    · exact trivial
    · exact readWord_holds (P := Filled) .null trivial (fun _ => trivial) _ _
    · exact readWord_holds (P := Filled) (.bool true) trivial (fun _ => trivial) _ _
    · exact readWord_holds (P := Filled) (.bool false) trivial (fun _ => trivial) _ _
    · exact ofNumber_filled _
    · split
      · exact trivial
      · exact trivial
    · exact readItems_bounded _ _ _
    · exact readMembers_bounded _ _ _
    · split
      · exact ofNumber_filled _
      · exact trivial

/-- Numbers in the list or map that a document holds are bounded. -/
theorem parse_filled (text : String) : Filled (parse text).root := by
  have filled := readValue_filled (2 * text.toList.length + 2) text.toList
  simp only [parse]
  split
  · simp_all
  · simp_all

/-- A document that is one printed value. -/
theorem parse_printed {text : List Char} {j : Json} (reads : Reads text j) :
    parse (String.ofList text) = ⟨j, none⟩ := by
  have read := reads.reads (2 * text.length + 2) [] (by omega) (by simp [Closes])
  rw [List.append_nil] at read
  rw [parse, String.toList_ofList]
  simp [read, skipSpace]

end MolecularTools.Json
