import Mathlib.Algebra.Order.Ring.Nat
import Mathlib.Data.List.Induction
import MolecularTools.Proofs.Files.Entries

/-! Walking on from a directory. The walk to an entry by a path goes the same way behind the
directory as the walk by the directory's own path, only with fewer links left to follow; so the two
find the same unless the first runs out of links. -/
namespace MolecularTools

namespace Path

/-- What stands between a path and a name that is joined to it does not depend on the name. -/
theorem join_between (base : String) : ∃ between, ∀ x : String, '/' ∉ x.toList →
    join base x = base ++ between ++ x := by
  by_cases empty : base = ""
  · exact ⟨"", fun x _ => by simp [join, empty]⟩
  by_cases slashed : endsInSlash base = true
  · exact ⟨"", fun x whole => by simp [join, isAbsolute_unmarked whole, empty, slashed]⟩
  · exact ⟨"/", fun x whole => by simp [join, isAbsolute_unmarked whole, empty, slashed]⟩

theorem utf8ByteSize_child {l : List String} (inner : l ≠ []) (x : String) :
    (absolute (l ++ [x])).utf8ByteSize = (absolute l).utf8ByteSize + 1 + x.utf8ByteSize := by
  rw [absolute_child, if_neg inner, String.utf8ByteSize_append, String.utf8ByteSize_append]
  rfl

/-- Each name takes its own bytes and that of a slash. -/
theorem utf8ByteSize_absolute {l : List String} (inner : l ≠ []) :
    (absolute l).utf8ByteSize = (l.map (·.utf8ByteSize + 1)).sum := by
  induction l using List.reverseRecOn with
  | nil => contradiction
  | append_singleton l x ih =>
    rw [List.map_append, List.sum_append, List.map_singleton, List.sum_singleton]
    by_cases root : l = []
    · rw [absolute_child, if_pos root, root, String.utf8ByteSize_append, List.map_nil, List.sum_nil,
        Nat.zero_add, Nat.add_comm]
      rfl
    · rw [utf8ByteSize_child root, ih root, Nat.add_assoc, Nat.add_comm 1]

theorem utf8ByteSize_above {k l : List String} (upper : k <+: l) (inner : l ≠ []) :
    (absolute k).utf8ByteSize ≤ (absolute l).utf8ByteSize := by
  obtain ⟨rest, rfl⟩ := upper
  rcases eq_or_ne k [] with rfl | some
  · simp [absolute]
  · rw [utf8ByteSize_absolute inner, utf8ByteSize_absolute some, List.map_append, List.sum_append]
    omega

end Path

namespace FileTree

namespace Passable

variable {base x y : String}

theorem of_join (passable : Passable (Path.join base x)) (whole : '/' ∉ x.toList)
    (some : base ≠ "") : Passable base := by
  obtain ⟨between, joined⟩ := Path.join_between base
  obtain ⟨-, unmarked, short⟩ := passable
  rw [joined x whole] at unmarked short
  simp only [String.toList_append, List.any_append, Bool.or_eq_false_iff] at unmarked
  simp only [String.utf8ByteSize_append] at short
  exact ⟨some, unmarked.1.1, by omega⟩

/-- A shorter name is as good. -/
theorem shorter (passable : Passable (Path.join base x)) (whole : '/' ∉ x.toList)
    (plain : Path.Plain y) (unmarked : y.toList.any (·.toNat = 0) = false)
    (fits : y.utf8ByteSize ≤ x.utf8ByteSize) : Passable (Path.join base y) := by
  obtain ⟨between, joined⟩ := Path.join_between base
  obtain ⟨-, plainly, short⟩ := passable
  rw [joined x whole] at plainly short
  simp only [String.toList_append, List.any_append, Bool.or_eq_false_iff] at plainly
  simp only [String.utf8ByteSize_append] at short
  rw [joined y plain.whole]
  refine ⟨by simp [plain.filled], ?_, ?_⟩
  · simp only [String.toList_append, List.any_append, plainly.1.1, plainly.1.2, unmarked,
      Bool.or_false]
  · simp only [String.utf8ByteSize_append]
    omega

end Passable

variable {t : FileTree} {aim : Aim} {l d k : Location} {base x : String}

namespace Reached

theorem root (t : FileTree) : t.Reached [] where
  proper _ member := absurd member List.not_mem_nil
  stands := ⟨directoryMode, node?_root t⟩
  searched _ upper other := absurd (List.prefix_nil.mp upper) other

theorem above (reached : t.Reached l) : t.Reached l.dropLast where
  proper := reached.proper.above
  stands := reached.directory (List.dropLast_prefix l)
  searched k upper other := by
    refine reached.searched k (upper.trans (List.dropLast_prefix l)) ?_
    rintro rfl
    have shorter := upper.length_le
    have same : k.dropLast = k := by
      refine (List.dropLast_prefix k).eq_of_length_le ?_
      exact shorter
    exact other same.symm

theorem child (reached : t.Reached l) (search : t.searchable l = true) (plain : Path.Plain x)
    (sought : Sought x) (stands : t.node? (l ++ [x]) = some (.directory mode)) :
    t.Reached (l ++ [x]) where
  proper := reached.proper.child ⟨plain, sought.not_here, sought.not_above⟩ sought.short
  stands := ⟨mode, stands⟩
  searched k upper other := by
    have inner := (List.prefix_concat_iff.mp upper).resolve_left other
    by_cases same : k = l
    · rw [same]
      exact search
    · exact reached.searched k inner same

/-- A directory that is reached by its names is where these names lead. -/
theorem toDirectory (reached : t.Reached d) (names : List String) (split : k ++ names = d) :
    t.ToDirectory links last k names d := by
  induction names generalizing k last with
  | nil =>
    rw [← split, List.append_nil]
    exact .stop
  | cons x names ih =>
    obtain ⟨search, proper, short, ⟨mode, stands⟩, next⟩ := reached.next split
    exact .into search ⟨proper.not_here, proper.not_above, short⟩ stands (ih next)

/-- On the way to it nothing is looked at but the directories above and itself. -/
theorem visited (reached : t.Reached d) (names : List String) (split : k ++ names = d) :
    ∀ l ∈ visitedWith f t k names, l <+: d := by
  induction names generalizing k with
  | nil => exact fun l member => absurd member List.not_mem_nil
  | cons x names ih =>
    obtain ⟨search, proper, -, ⟨mode, stands⟩, next⟩ := reached.next split
    rw [visitedWith, if_neg proper.not_here, if_neg proper.not_above]
    simp only [search, stands, Bool.not_true, Bool.false_eq_true, if_false]
    intro l member
    rcases List.mem_cons.mp member with rfl | member
    · exact ⟨names, next⟩
    · exact ih next l member

end Reached

namespace Leads

variable {links : Nat} {last : Option String} {names : List String}

/-- A directory to which a walk leads is reached by its own names too. -/
theorem reached (leads : Leads t aim links last l slash names ⟨.found d (.directory mode), s, o⟩)
    (reached : t.Reached l) (plain : ∀ name ∈ names, Path.Plain name) : t.Reached d := by
  generalize ended : (⟨.found d (.directory mode), s, o⟩ : Spot) = spot at leads
  induction leads with
  | stop =>
    cases ended
    exact reached
  | here _ _ ih =>
    exact ih reached (fun other member => plain other (List.mem_cons_of_mem _ member)) ended
  | up _ _ ih =>
    exact ih reached.above (fun other member => plain other (List.mem_cons_of_mem _ member)) ended
  | vacant => cases ended
  | entry search sought _ stands =>
    cases ended
    exact reached.child search (plain _ List.mem_cons_self) sought stands
  | into search sought _ stands _ ih =>
    exact ih (reached.child search (plain _ List.mem_cons_self) sought stands)
      (fun other member => plain other (List.mem_cons_of_mem _ member)) ended
  | follow _ _ _ _ _ ih =>
    refine ih ?_ (fun other member => ?_) ended
    · split
      · exact .root t
      · exact reached
    · rcases List.mem_append.mp member with member | member
      · exact Path.plain_of_mem_names member
      · exact plain other (List.mem_cons_of_mem _ member)

/-- A walk whose first names lead to a directory goes on from there. -/
theorem walk_on (leads : Leads t .target links last l s names ⟨.found d (.directory mode), s', o⟩)
    {more : List String} (some : more ≠ []) (slash : Bool) : ∃ left ≤ links, ∀ last',
      FileTree.walkWith (following t .target links) t .target last' l slash (names ++ more) =
        FileTree.walkWith (following t .target left) t .target none d slash more := by
  generalize ended : (⟨.found d (.directory mode), s', o⟩ : Spot) = spot at leads
  induction leads with
  | stop =>
    cases ended
    refine ⟨_, Nat.le_refl _, fun last' => ?_⟩
    obtain ⟨name, rest, rfl⟩ := List.exists_cons_of_ne_nil some
    rw [List.nil_append, FileTree.walkWith, FileTree.walkWith]
  | here search _ ih =>
    obtain ⟨left, fewer, same⟩ := ih ended
    refine ⟨left, fewer, fun last' => ?_⟩
    rw [List.cons_append, FileTree.walkWith, if_neg (by simp [search]), if_pos rfl, same]
  | up search _ ih =>
    obtain ⟨left, fewer, same⟩ := ih ended
    refine ⟨left, fewer, fun last' => ?_⟩
    rw [List.cons_append, FileTree.walkWith, if_neg (by simp [search]), if_neg (by decide),
      if_pos rfl, same]
  | vacant => cases ended
  | entry search sought _ stands =>
    cases ended
    refine ⟨_, Nat.le_refl _, fun last' => ?_⟩
    rw [List.singleton_append, FileTree.walkWith, if_neg (by simp [search]),
      if_neg sought.not_here, if_neg sought.not_above, if_neg (Nat.not_lt.mpr sought.short)]
    simp [stands, some]
  | into search sought further stands _ ih =>
    obtain ⟨left, fewer, same⟩ := ih ended
    refine ⟨left, fewer, fun last' => ?_⟩
    rw [List.cons_append, FileTree.walkWith, if_neg (by simp [search]), if_neg sought.not_here,
      if_neg sought.not_above, if_neg (Nat.not_lt.mpr sought.short)]
    simp [stands, some, same]
  | @follow l name names _ target links _ _ search sought _ stands _ ih =>
    obtain ⟨left, fewer, same⟩ := ih ended
    refine ⟨left, Nat.le_succ_of_le fewer, fun last' => ?_⟩
    have further : (names ++ more).isEmpty = false := by simp [some]
    rw [List.cons_append, FileTree.walkWith, if_neg (by simp [search]), if_neg sought.not_here,
      if_neg sought.not_above, if_neg (Nat.not_lt.mpr sought.short)]
    simp only [stands, further, Bool.false_and, Bool.false_eq_true, if_false, Bool.or_false]
    rw [following, walkWithin_eq, ← List.append_assoc, same]

end Leads

/-- With more links left a walk ends as before, unless it ran out of links. -/
theorem walkWith_more {f g : Location → List String → Bool → Except IoError Spot}
    (each : ∀ l names slash, f l names slash = g l names slash ∨ f l names slash = .error .linkLoop)
    (names : List String) (last : Option String) (l : Location) (slash : Bool) :
    walkWith f t aim last l slash names = walkWith g t aim last l slash names ∨
      walkWith f t aim last l slash names = .error .linkLoop := by
  induction names generalizing last l slash with
  | nil => exact .inl rfl
  | cons name names ih =>
    rw [walkWith, walkWith]
    split
    · exact .inl rfl
    split
    · exact ih ..
    split
    · exact ih ..
    split
    · exact .inl rfl
    dsimp only
    split
    · exact .inl rfl
    cases t.node? (l ++ [name]) with
    | none => exact .inl rfl
    | some n =>
      cases n with
      | file f => exact .inl rfl
      | directory mode =>
        dsimp only
        split
        · exact .inl rfl
        · exact ih ..
      | link target =>
        dsimp only
        split
        · exact .inl rfl
        · exact each ..

theorem following_more (t : FileTree) (aim : Aim) (left more : Nat) (l : Location)
    (names : List String) (slash : Bool) :
    following t aim left l names slash = following t aim (left + more) l names slash ∨
      following t aim left l names slash = .error .linkLoop := by
  induction left generalizing l names slash with
  | zero => exact .inr rfl
  | succ left ih =>
    rw [Nat.add_right_comm, following, following, walkWithin_eq, walkWithin_eq]
    exact walkWith_more ih ..

section

variable (proper : Path.Proper x)
include proper

theorem GoesTo.walk_join (goes : t.GoesTo base d) (passable : Passable (Path.join base x)) :
    ∃ left ≤ linkBound, t.walk .target (Path.join base x) =
      walkWith (following t .target left) t .target none d false [x] := by
  obtain ⟨mode, s, o, leads⟩ := goes
  obtain ⟨left, fewer, same⟩ := leads.walk_on (List.cons_ne_nil x []) false
  refine ⟨left, fewer, ?_⟩
  rw [FileTree.walk, if_neg passable.some, if_neg (by simp [passable.unmarked]),
    if_neg (Nat.not_lt.mpr passable.short), Path.endsInSlash_join base proper.toPlain,
    Path.names_join_plain base proper.toPlain, walkWithin_eq, same]

theorem Reached.walk_join (reached : t.Reached d)
    (passable : Passable (Path.join (Path.absolute d) x)) :
    t.walk .target (Path.join (Path.absolute d) x) =
      FileTree.walkWith (following t .target linkBound) t .target none d false [x] := by
  rw [Path.join_absolute reached.proper.each proper.whole] at passable ⊢
  rw [reached.walk_down proper]
  dsimp only
  rw [if_neg (by simp [passable.unmarked]), if_neg (Nat.not_lt.mpr passable.short)]
  rfl

/-- A path and the directory's own path lead to the same entries, unless the path takes more links
than are followed. -/
theorem GoesTo.walk_alike (goes : t.GoesTo base d) (reached : t.Reached d)
    (near : Passable (Path.join base x)) (far : Passable (Path.join (Path.absolute d) x)) :
    t.walk .target (Path.join base x) = t.walk .target (Path.join (Path.absolute d) x) ∨
      t.walk .target (Path.join base x) = .error .linkLoop := by
  obtain ⟨left, fewer, walked⟩ := goes.walk_join proper near
  obtain ⟨more, whole⟩ := Nat.exists_eq_add_of_le fewer
  rw [walked, reached.walk_join proper far, whole]
  exact walkWith_more (following_more t .target left more) [x] none d false

/-- What leads to a directory behind a path does so behind the directory's own path. -/
theorem GoesTo.isDirectory_onward (goes : t.GoesTo base d) (reached : t.Reached d)
    (far : Passable (Path.join (Path.absolute d) x))
    (directory : t.isDirectory (Path.join base x) = true) :
    t.isDirectory (Path.join (Path.absolute d) x) = true := by
  obtain ⟨l, mode, s, o, walked⟩ := isDirectory_iff.mp directory
  have near := (walk_ok_iff.mp walked).1
  rcases goes.walk_alike proper reached near far with same | looped
  · exact isDirectory_iff.mpr ⟨l, mode, s, o, same ▸ walked⟩
  · rw [looped] at walked
    contradiction

theorem GoesTo.isDirectory_alike (goes : t.GoesTo base d) (reached : t.Reached d)
    (near : Passable (Path.join base x)) (far : Passable (Path.join (Path.absolute d) x)) :
    t.isDirectory (Path.join (Path.absolute d) x) = t.isDirectory (Path.join base x) ∨
      t.lookup (Path.join base x) = .error .linkLoop := by
  rcases goes.walk_alike proper reached near far with same | looped
  · left
    rw [isDirectory, isDirectory, lookup, lookup, same]
  · right
    rw [lookup, looped]
    rfl

/-- Where a path has a directory as an entry, it leads to a directory itself. -/
theorem GoesTo.of_join (directory : t.isDirectory (Path.join base x) = true) :
    Passable (Path.join base x) ∧ ∃ d, t.GoesTo base d ∧ t.Reached d ∧
      (base ≠ "" → ∃ mode, t.lookup base = .ok (d, .directory mode)) := by
  obtain ⟨l, mode, s, o, walked⟩ := isDirectory_iff.mp directory
  obtain ⟨passable, leads⟩ := walk_ok_iff.mp walked
  rw [Path.endsInSlash_join base proper.toPlain, Path.names_join_plain base proper.toPlain] at leads
  obtain ⟨spot, entry⟩ : ∃ spot, Leads t .entry linkBound none [] false
      (Path.names base ++ [x]) spot := by
    rcases leads.entry_or_link with same | ⟨k, target, s, same⟩
    · exact ⟨_, same⟩
    · exact ⟨_, same⟩
  obtain ⟨d, -, -, onto, -⟩ := entry.split_last proper rfl
  obtain ⟨mode, s, o, base'⟩ := onto (Path.endsInSlash base)
  refine ⟨passable, d, ⟨mode, s, o, base'⟩, ?_, fun some => ⟨mode, ?_⟩⟩
  · exact base'.reached (.root t) fun _ member => Path.plain_of_mem_names member
  · have walked := walk_ok_iff.mpr ⟨passable.of_join proper.whole some, base'⟩
    exact lookup_ok_iff.mpr ⟨s, o, walked, by simp [Node.isDirectory]⟩

end

def visiting (t : FileTree) : Nat → Location → List String → List Location
  | 0 => fun _ _ => []
  | links + 1 => visitedWithin t links

theorem visitedWithin_eq (links : Nat) (l : Location) (names : List String) :
    visitedWithin t links l names = visitedWith (visiting t links) t l names := by
  cases links with
  | zero => rfl
  | succ links => rfl

/-- What a walk finds was looked at, unless it is the directory where it started or one above. -/
theorem Leads.visited (leads : Leads t aim links last l slash names spot)
    (found : spot.place = .found k n) :
    k ∈ visitedWith (visiting t links) t l names ∨ k <+: l := by
  induction leads with
  | stop =>
    obtain ⟨rfl, -⟩ := Place.found.inj found
    exact .inr List.prefix_rfl
  | here _ _ ih =>
    rw [visitedWith, if_pos rfl]
    exact ih found
  | up _ _ ih =>
    rw [visitedWith, if_neg (by decide), if_pos rfl]
    exact (ih found).imp_right fun upper => upper.trans (List.dropLast_prefix _)
  | vacant => contradiction
  | entry _ sought _ _ _ =>
    obtain ⟨rfl, -⟩ := Place.found.inj found
    rw [visitedWith, if_neg sought.not_here, if_neg sought.not_above]
    exact .inl List.mem_cons_self
  | into search sought _ stands _ ih =>
    rw [visitedWith, if_neg sought.not_here, if_neg sought.not_above]
    simp only [search, stands, Bool.not_true, Bool.false_eq_true, if_false]
    rcases ih found with member | upper
    · exact .inl (List.mem_cons_of_mem _ member)
    · rcases List.prefix_concat_iff.mp upper with rfl | upper
      · exact .inl List.mem_cons_self
      · exact .inr upper
  | @follow l _ _ _ target _ _ _ search sought _ stands _ ih =>
    rw [visitedWith, if_neg sought.not_here, if_neg sought.not_above]
    simp only [search, stands, Bool.not_true, Bool.false_eq_true, if_false]
    rcases ih found with member | upper
    · refine .inl (List.mem_cons_of_mem _ ?_)
      rw [visiting, visitedWithin_eq]
      exact member
    · split at upper
      · rw [List.prefix_nil.mp upper]
        exact .inr List.nil_prefix
      · exact .inr upper

/-- Where the way of a path fits, so does the path of the place where it leads. -/
theorem WayFits.place (fits : t.WayFits p) (found : t.lookup p = .ok (l, n)) :
    (Path.absolute l).utf8ByteSize ≤ pathBound := by
  obtain ⟨s, o, walked, -⟩ := lookup_ok_iff.mp found
  rcases (walk_ok_iff.mp walked).2.visited rfl with member | root
  · refine fits l ?_
    rw [FileTree.visited, visitedWithin_eq]
    exact member
  · rw [List.prefix_nil.mp root]
    decide

/-- No name holds a NUL character; no system makes one that does. -/
def Unmarked (t : FileTree) : Prop :=
  ∀ l n, t.node? l = some n → ∀ name ∈ l, name.toList.any (·.toNat = 0) = false

theorem unmarked_iff : t.Unmarked ↔ ∀ e ∈ t.nodes.toList, ∀ name ∈ e.1,
    name.toList.any (·.toNat = 0) = false := by
  constructor
  · intro unmarked e member name within
    have stands := Std.ExtTreeMap.mem_toList_iff_getElem?_eq_some.mp member
    refine unmarked e.1 e.2 ?_ name within
    rw [node?_of_ne (List.ne_nil_of_mem within), stands]
  · intro each l n stands name within
    rw [node?_of_ne (List.ne_nil_of_mem within)] at stands
    exact each (l, n) (Std.ExtTreeMap.mem_toList_iff_getElem?_eq_some.mpr stands) name within

instance (t : FileTree) : Decidable t.Unmarked := decidable_of_iff _ unmarked_iff.symm

theorem unmarked_absolute {l : List String}
    (unmarked : ∀ name ∈ l, name.toList.any (·.toNat = 0) = false) :
    (Path.absolute l).toList.any (·.toNat = 0) = false := by
  induction l using List.reverseRecOn with
  | nil => decide
  | append_singleton l x ih =>
    have front := ih fun name member => unmarked name (List.mem_append_left [x] member)
    have last := unmarked x (List.mem_append_right l List.mem_cons_self)
    rw [Path.absolute_child]
    split
    · rw [String.toList_append, List.any_append, last, Bool.or_false]
      decide
    · rw [String.toList_append, String.toList_append, List.any_append, List.any_append, front, last,
        Bool.or_false]
      decide

end FileTree

end MolecularTools
