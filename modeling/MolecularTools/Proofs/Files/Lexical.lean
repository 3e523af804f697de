import MolecularTools.Proofs.Files.Paths

/-! What paths mean when the text alone decides: a dot stays, two dots go up, and no link is
followed. A relative path that never goes up further than it went down stays below every directory
it is seen from, and no other path does. -/
namespace MolecularTools.Path

def go (l : List String) (name : String) : List String :=
  if name = "." then l else if name = ".." then l.dropLast else l ++ [name]

def lexical (l : List String) (ns : List String) : List String := ns.foldl go l

def place (p : String) : List String := lexical [] (names p)

/-- How deep names lead when they start `n` levels deep; nothing if they go up too far. -/
def depth? : Nat → List String → Option Nat
  | n, [] => some n
  | n, name :: rest =>
    if name = "." then depth? n rest
    else if name = ".." then if n = 0 then none else depth? (n - 1) rest
    else depth? (n + 1) rest

/-- A relative path that stays below the directory it is seen from. -/
def Inward (p : String) : Prop := isAbsolute p = false ∧ (depth? 0 (names p)).any (0 < ·) = true

instance : DecidablePred Inward := fun p =>
  inferInstanceAs (Decidable (isAbsolute p = false ∧ (depth? 0 (names p)).any (0 < ·) = true))

/-- A path of proper names with one slash between two of them. -/
def Normal (p : String) : Prop := ∃ ns, ns ≠ [] ∧ (∀ name ∈ ns, Proper name) ∧ p = "/".intercalate ns

def Below (l q : List String) : Prop := ∃ rest, rest ≠ [] ∧ q = l ++ rest

/-- Below every directory that the path is formed for. -/
def AlwaysBelow (path : String → String) : Prop :=
  ∀ l, (∀ name ∈ l, Proper name) → Below l (place (path (absolute l)))

theorem go_proper (proper : Proper name) (l : List String) : go l name = l ++ [name] := by
  rw [go, if_neg proper.not_here, if_neg proper.not_above]

theorem lexical_proper {ns : List String} (proper : ∀ name ∈ ns, Proper name) (l : List String) :
    lexical l ns = l ++ ns := by
  induction ns generalizing l with
  | nil => exact (List.append_nil l).symm
  | cons name ns ih =>
    have others := ih fun other member => proper other (List.mem_cons_of_mem name member)
    have step : lexical l (name :: ns) = lexical (go l name) ns := rfl
    rw [step, go_proper (proper name List.mem_cons_self), others, List.append_assoc]
    rfl

theorem mem_go {l : List String} (member : x ∈ go l name) : x ∈ l ∨ x = name ∧ x ≠ "." ∧ x ≠ ".." := by
  rw [go] at member
  split at member
  · exact .inl member
  · split at member
    · exact .inl ((List.dropLast_sublist l).subset member)
    · rename_i notHere notAbove
      rcases List.mem_append.mp member with old | new
      · exact .inl old
      · cases List.mem_singleton.mp new
        exact .inr ⟨rfl, notHere, notAbove⟩

theorem mem_lexical {l ns : List String} (member : x ∈ lexical l ns) :
    x ∈ l ∨ x ∈ ns ∧ x ≠ "." ∧ x ≠ ".." := by
  induction ns generalizing l with
  | nil => exact .inl member
  | cons name ns ih =>
    rcases ih member with early | ⟨late, entry⟩
    · rcases mem_go early with old | ⟨rfl, entry⟩
      · exact .inl old
      · exact .inr ⟨List.mem_cons_self, entry⟩
    · exact .inr ⟨List.mem_cons_of_mem name late, entry⟩

theorem place_proper (p : String) : ∀ name ∈ place p, Proper name := by
  intro name member
  rcases mem_lexical member with nowhere | ⟨named, notHere, notAbove⟩
  · contradiction
  · exact ⟨plain_of_mem_names named, notHere, notAbove⟩

/-- Names that do not go up too far keep everything above their start. -/
theorem lexical_of_depth (l inner : List String) {ns : List String}
    (stays : depth? inner.length ns = some n) :
    ∃ deeper, lexical (l ++ inner) ns = l ++ deeper ∧ deeper.length = n := by
  induction ns generalizing inner with
  | nil => exact ⟨inner, rfl, Option.some.inj stays⟩
  | cons name ns ih =>
    have step : lexical (l ++ inner) (name :: ns) = lexical (go (l ++ inner) name) ns := rfl
    rw [depth?] at stays
    rw [step, go]
    by_cases here : name = "."
    · rw [if_pos here] at stays ⊢
      exact ih _ stays
    rw [if_neg here] at stays ⊢
    by_cases above : name = ".."
    · rw [if_pos above] at stays ⊢
      rcases List.eq_nil_or_concat inner with rfl | ⟨upper, last, split⟩
      · contradiction
      · rw [List.concat_eq_append] at split
        subst split
        rw [← List.append_assoc, List.dropLast_concat]
        rw [List.length_append, List.length_singleton, if_neg (Nat.succ_ne_zero _)] at stays
        exact ih _ stays
    · rw [if_neg above] at stays ⊢
      rw [List.append_assoc]
      refine ih _ ?_
      rw [List.length_append]
      exact stays

/-- Names that go up too far leave the directory they start in for good, unless they name it. -/
theorem lexical_of_climb (inner : List String) {ns : List String}
    (climbs : depth? inner.length ns = none)
    (unnamed : x ∉ ns) (apart : x ∉ inner) : x ∉ lexical (x :: inner) ns := by
  induction ns generalizing inner with
  | nil => contradiction
  | cons name ns ih =>
    rw [List.mem_cons, not_or] at unnamed
    have step : lexical (x :: inner) (name :: ns) = lexical (go (x :: inner) name) ns := rfl
    rw [depth?] at climbs
    rw [step, go]
    by_cases here : name = "."
    · rw [if_pos here] at climbs ⊢
      exact ih _ climbs unnamed.2 apart
    rw [if_neg here] at climbs ⊢
    by_cases above : name = ".."
    · rw [if_pos above] at climbs ⊢
      rcases List.eq_nil_or_concat inner with rfl | ⟨upper, last, split⟩
      · intro member
        rcases mem_lexical member with nowhere | ⟨named, -⟩
        · contradiction
        · exact unnamed.2 named
      · rw [List.concat_eq_append] at split
        subst split
        rw [← List.cons_append, List.dropLast_concat]
        rw [List.length_append, List.length_singleton, if_neg (Nat.succ_ne_zero _)] at climbs
        exact ih _ climbs unnamed.2 fun member => apart (List.mem_append_left _ member)
    · rw [if_neg above] at climbs ⊢
      rw [List.cons_append]
      refine ih _ ?_ unnamed.2 ?_
      · rw [List.length_append]
        exact climbs
      · rw [List.mem_append, List.mem_singleton, not_or]
        exact ⟨apart, unnamed.1⟩

theorem names_join {l : List String} (above : ∀ name ∈ l, Proper name)
    (relative : isAbsolute p = false) : names (join (absolute l) p) = l ++ names p := by
  have full : absolute l ≠ "" := absolute_ne_empty l
  rw [join]
  rcases List.eq_nil_or_concat l with rfl | ⟨upper, last, split⟩
  · have root : absolute [] ++ p = "" ++ "/" ++ p := by simp [absolute]
    have slash : endsInSlash (absolute []) = true := by decide
    simp only [relative, full, slash, Bool.false_or, decide_false, Bool.false_eq_true, if_false,
      if_true]
    rw [root, names_slash]
    rfl
  · rw [List.concat_eq_append] at split
    subst split
    have slash := endsInSlash_child upper (above last (by simp))
    simp only [relative, full, slash, Bool.false_or, decide_false, Bool.false_eq_true, if_false]
    rw [names_slash, names_absolute above]

theorem place_join {l : List String} (above : ∀ name ∈ l, Proper name)
    (relative : isAbsolute p = false) : place (join (absolute l) p) = lexical l (names p) := by
  rw [place, names_join above relative, lexical, List.foldl_append]
  exact congrArg (List.foldl go · (names p)) (lexical_proper above [])

theorem join_isAbsolute (base : String) (rooted : isAbsolute p = true) : join base p = p := by
  simp [join, rooted]

/-- Some proper name is not among finitely many. -/
theorem exists_fresh (ns : List String) : ∃ name, Proper name ∧ name ∉ ns := by
  let name := String.ofList (List.replicate ((ns.map String.length).max?.getD 0 + 1) 'x')
  have letters : name.toList = List.replicate ((ns.map String.length).max?.getD 0 + 1) 'x' := by simp [name]
  refine ⟨name, proper_of_mem (c := 'x') ?_ (by decide) ?_, ?_⟩
  · simp [letters]
  · simp [letters]
  · intro member
    have short : name.length ≤ (ns.map String.length).max?.getD 0 :=
      List.le_max?_getD_of_mem (List.mem_map_of_mem member)
    have long : name.length = (ns.map String.length).max?.getD 0 + 1 := by
      rw [← String.length_toList, letters, List.length_replicate]
    omega

/-- A name joined to directories stays below all of them exactly if it leads inward. -/
theorem alwaysBelow_join (p : String) : AlwaysBelow (fun base => join base p) ↔ Inward p := by
  constructor
  · intro always
    cases rooted : isAbsolute p with
    | true =>
      obtain ⟨rest, further, own⟩ := always (place p) (place_proper p)
      simp only [join_isAbsolute _ rooted] at own
      exact absurd (List.self_eq_append_right.mp own) further
    | false =>
      refine ⟨rooted, ?_⟩
      cases depth : depth? 0 (names p) with
      | none =>
        obtain ⟨x, proper, unnamed⟩ := exists_fresh (names p)
        have above : ∀ name ∈ [x], Proper name := by simpa using proper
        obtain ⟨rest, -, own⟩ := always [x] above
        rw [place_join above rooted] at own
        have left := lexical_of_climb [] depth unnamed List.not_mem_nil
        rw [own] at left
        exact absurd (List.mem_append_left rest (List.mem_singleton_self x)) left
      | some n =>
        have above : ∀ name ∈ ([] : List String), Proper name := List.forall_mem_nil _
        obtain ⟨rest, further, own⟩ := always [] above
        rw [place_join above rooted] at own
        obtain ⟨deeper, led, length⟩ := lexical_of_depth [] [] depth
        have same : deeper = rest := led.symm.trans own
        have positive : 0 < n := by
          rw [← length, same]
          exact List.length_pos_iff.mpr further
        simpa using positive
  · rintro ⟨rooted, deep⟩ l above
    obtain ⟨n, depth, positive⟩ := (Option.any_eq_true _ _).mp deep
    obtain ⟨deeper, led, length⟩ := lexical_of_depth l [] depth
    rw [List.append_nil] at led
    refine ⟨deeper, ?_, ?_⟩
    · rintro rfl
      rw [← length] at positive
      contradiction
    · rw [place_join above rooted, led]

theorem isAbsolute_append {name : String} (filled : name ≠ "") (p : String) :
    isAbsolute (name ++ p) = isAbsolute name := by
  have some : name.toList ≠ [] := by simpa using filled
  obtain ⟨c, cs, letters⟩ := List.exists_cons_of_ne_nil some
  simp [isAbsolute, letters]

theorem Normal.relative (normal : Normal p) : isAbsolute p = false := by
  obtain ⟨ns, some, proper, rfl⟩ := normal
  cases ns with
  | nil => contradiction
  | cons name ns =>
    have this := proper name List.mem_cons_self
    cases ns with
    | nil => exact isAbsolute_unmarked (by simpa using this.whole)
    | cons next rest =>
      rw [String.intercalate_cons_cons, String.append_assoc, isAbsolute_append this.filled]
      exact isAbsolute_unmarked this.whole

theorem place_join_normal {l ns : List String} (above : ∀ name ∈ l, Proper name) (some : ns ≠ [])
    (proper : ∀ name ∈ ns, Proper name) : place (join (absolute l) ("/".intercalate ns)) = l ++ ns := by
  rw [place_join above (Normal.relative ⟨ns, some, proper, rfl⟩), names_intercalate proper,
    lexical_proper proper]

/-- Normal names that differ lead to different places. -/
theorem place_join_injective {l : List String} (above : ∀ name ∈ l, Proper name)
    (normal : Normal p) (other : Normal q)
    (same : place (join (absolute l) p) = place (join (absolute l) q)) : p = q := by
  obtain ⟨ns, some, proper, rfl⟩ := normal
  obtain ⟨ms, filled, fine, rfl⟩ := other
  rw [place_join_normal above some proper, place_join_normal above filled fine] at same
  rw [List.append_cancel_left same]

end MolecularTools.Path
