import MolecularTools.Proofs.Files.Elsewhere

/-! Entries of a directory by any path that leads there. The walk to an entry goes to the directory
first, so the paths of two entries lead to the same directory, whatever links and dots they have in
common. -/
namespace MolecularTools

namespace Path

variable {base name : String}

theorem names_join_plain (base : String) (plain : Plain name) :
    names (join base name) = names base ++ [name] := by
  rw [join, isAbsolute_unmarked plain.whole, Bool.false_or]
  split
  · rename_i empty
    rw [of_decide_eq_true empty, names_plain plain]
    rfl
  split
  · rename_i slashed
    obtain ⟨front, split⟩ := List.getLast?_eq_some_iff.mp (of_decide_eq_true slashed)
    have ended : base = String.ofList front ++ "/" ++ "" := by
      apply String.toList_inj.mp
      simp [split]
    have whole : base ++ name = String.ofList front ++ "/" ++ name := by
      rw [ended]
      simp
    rw [whole, ended, names_slash, names_slash, names_plain plain]
    simp [names, Text.pieces]
  · rw [names_slash, names_plain plain]

theorem endsInSlash_join (base : String) (plain : Plain name) :
    endsInSlash (join base name) = false := by
  have last := endsInSlash_unmarked plain.whole
  rw [join]
  split
  · exact last
  split
  · rw [endsInSlash_append _ plain.filled, last]
  · rw [endsInSlash_append _ plain.filled, last]

end Path

namespace FileTree

variable {t rest : FileTree} {aim : Aim} {l d : Location} {x y base : String}

def ToDirectory (t : FileTree) (links : Nat) (last : Option String) (l : Location)
    (names : List String) (d : Location) : Prop :=
  ∀ slash, ∃ mode s o,
    Leads t .target links last l slash names ⟨.found d (.directory mode), s, o⟩

namespace ToDirectory

variable {links : Nat} {last : Option String} {names : List String}

theorem stop : t.ToDirectory links last l [] l := fun _ => ⟨_, _, _, .stop⟩

theorem here (search : t.searchable l = true) (onto : t.ToDirectory links (some ".") l names d) :
    t.ToDirectory links last l ("." :: names) d := by
  intro slash
  obtain ⟨mode, s, o, leads⟩ := onto slash
  exact ⟨mode, s, o, .here search leads⟩

theorem up (search : t.searchable l = true)
    (onto : t.ToDirectory links (some "..") l.dropLast names d) :
    t.ToDirectory links last l (".." :: names) d := by
  intro slash
  obtain ⟨mode, s, o, leads⟩ := onto slash
  exact ⟨mode, s, o, .up search leads⟩

theorem into (search : t.searchable l = true) (sought : Sought x)
    (stands : t.node? (l ++ [x]) = some (.directory mode))
    (onto : t.ToDirectory links none (l ++ [x]) names d) :
    t.ToDirectory links last l (x :: names) d := by
  intro slash
  obtain ⟨bits, s, o, leads⟩ := onto slash
  cases names with
  | nil =>
    cases leads with
    | stop => exact ⟨_, _, _, .entry search sought (fun _ => by decide) stands (by simp)⟩
  | cons next names =>
    exact ⟨bits, s, o, .into search sought (List.cons_ne_nil next names) stands leads⟩

theorem follow (search : t.searchable l = true) (sought : Sought x)
    (stands : t.node? (l ++ [x]) = some (.link target))
    (onto : t.ToDirectory links none (if Path.isAbsolute target then [] else l)
      (Path.names target ++ names) d) :
    t.ToDirectory (links + 1) last l (x :: names) d := by
  intro slash
  obtain ⟨mode, s, o, leads⟩ := onto (slash || (names.isEmpty && Path.endsInSlash target))
  exact ⟨mode, s, o, .follow search sought (fun _ => ⟨by decide, fun _ => by decide⟩) stands leads⟩

end ToDirectory

namespace Leads

/-- A walk that is not made for the entry itself goes the same way, unless it follows a link that
stands at the end. -/
theorem entry_or_link (leads : Leads t aim links last l slash names spot) :
    Leads t .entry links last l slash names spot ∨
      ∃ k target s, Leads t .entry links last l slash names ⟨.found k (.link target), s, none⟩ := by
  induction leads with
  | stop => exact .inl .stop
  | here search _ ih =>
    rcases ih with same | ⟨k, target, s, link⟩
    · exact .inl (.here search same)
    · exact .inr ⟨k, target, s, .here search link⟩
  | up search _ ih =>
    rcases ih with same | ⟨k, target, s, link⟩
    · exact .inl (.up search same)
    · exact .inr ⟨k, target, s, .up search link⟩
  | vacant search sought ends free => exact .inl (.vacant search sought (fun _ => by decide) free)
  | entry search sought ends stands itself =>
    exact .inl (.entry search sought (fun _ => by decide) stands fun _ _ => rfl)
  | into search sought further stands _ ih =>
    rcases ih with same | ⟨k, target, s, link⟩
    · exact .inl (.into search sought further stands same)
    · exact .inr ⟨k, target, s, .into search sought further stands link⟩
  | @follow l name names slash target links spot last search sought ends stands _ ih =>
    by_cases final : names = []
    · subst final
      exact .inr ⟨l ++ [name], target, slash,
        .entry search sought (fun _ => by decide) stands fun _ _ => rfl⟩
    · rcases ih with same | ⟨k, other, s, link⟩
      · exact .inl (.follow search sought (fun none => absurd none final) stands same)
      · exact .inr ⟨k, other, s, .follow search sought (fun none => absurd none final) stands link⟩

/-- The walk to an entry, and the walk to its directory with which it begins. -/
theorem split_last (leads : Leads t .entry links last l slash path spot) (proper : Path.Proper x)
    (split : path = names ++ [x]) : ∃ d, t.searchable d = true ∧ Sought x ∧
      t.ToDirectory links last l names d ∧
      (spot = ⟨.vacant d x, slash, none⟩ ∨
        ∃ n, t.node? (d ++ [x]) = some n ∧ spot = ⟨.found (d ++ [x]) n, slash, none⟩) := by
  induction leads generalizing names with
  | stop => simp at split
  | here search _ ih =>
    cases names with
    | nil => exact absurd (List.cons.inj split).1.symm proper.not_here
    | cons name names =>
      obtain ⟨rfl, rfl⟩ := List.cons.inj split
      obtain ⟨d, inner, sought, onto, place⟩ := ih rfl
      exact ⟨d, inner, sought, onto.here search, place⟩
  | up search _ ih =>
    cases names with
    | nil => exact absurd (List.cons.inj split).1.symm proper.not_above
    | cons name names =>
      obtain ⟨rfl, rfl⟩ := List.cons.inj split
      obtain ⟨d, inner, sought, onto, place⟩ := ih rfl
      exact ⟨d, inner, sought, onto.up search, place⟩
  | vacant search sought _ free =>
    cases names with
    | nil =>
      obtain rfl := (List.cons.inj split).1
      exact ⟨_, search, sought, .stop, .inl rfl⟩
    | cons name names => simp at split
  | entry search sought _ stands =>
    cases names with
    | nil =>
      obtain rfl := (List.cons.inj split).1
      exact ⟨_, search, sought, .stop, .inr ⟨_, stands, rfl⟩⟩
    | cons name names => simp at split
  | into search sought further stands _ ih =>
    cases names with
    | nil => exact absurd (List.cons.inj split).2 further
    | cons name names =>
      obtain ⟨rfl, rfl⟩ := List.cons.inj split
      obtain ⟨d, inner, soughtLast, onto, place⟩ := ih rfl
      exact ⟨d, inner, soughtLast, onto.into search sought stands, place⟩
  | @follow l name path slash target links spot last search sought ends stands _ ih =>
    cases names with
    | nil => exact absurd rfl (ends (List.cons.inj split).2).1
    | cons first names =>
      have same : path = names ++ [x] := (List.cons.inj split).2
      obtain rfl := (List.cons.inj split).1
      subst same
      have further : (names ++ [x]).isEmpty = false := by simp
      obtain ⟨d, inner, soughtLast, onto, place⟩ := ih (List.append_assoc _ _ _).symm
      rw [further, Bool.false_and, Bool.or_false] at place
      exact ⟨d, inner, soughtLast, onto.follow search sought stands, place⟩

/-- From the directory to which a walk leads it is one step to an entry. -/
theorem onward (leads : Leads t .target links last l s names ⟨.found d (.directory mode), s', o⟩)
    (search : t.searchable d = true) (sought : Sought x) (stands : t.node? (d ++ [x]) = some n)
    (solid : ∀ target, n ≠ .link target) (slash : Bool) :
    Leads t .target links last l slash (names ++ [x]) ⟨.found (d ++ [x]) n, slash, none⟩ := by
  have last : ∀ {links last},
      Leads t .target links last d slash [x] ⟨.found (d ++ [x]) n, slash, none⟩ :=
    .entry search sought (fun _ => by decide) stands fun target same => absurd same (solid target)
  generalize ended : (⟨.found d (.directory mode), s', o⟩ : Spot) = spot at leads
  induction leads generalizing slash with
  | stop =>
    cases ended
    exact last
  | here searched _ ih => exact .here searched (ih slash last ended)
  | up searched _ ih => exact .up searched (ih slash last ended)
  | vacant => cases ended
  | entry searched soughtThere _ standsThere =>
    cases ended
    exact .into searched soughtThere (List.cons_ne_nil _ _) standsThere last
  | into searched soughtThere _ standsThere _ ih =>
    exact .into searched soughtThere (by simp) standsThere (ih slash last ended)
  | @follow l name names s target links spot last' searched soughtThere _ standsThere _ ih =>
    have further : (names ++ [x]).isEmpty = false := by simp
    have longer := ih slash last ended
    rw [List.append_assoc] at longer
    refine .follow searched soughtThere (fun final => by simp at final) standsThere ?_
    show Leads t .target links none _ (slash || ((names ++ [x]).isEmpty && _)) _ _
    rw [further, Bool.false_and, Bool.or_false]
    exact longer

end Leads

/-- The path leads to a directory, which is there or was above one that is. -/
def GoesTo (t : FileTree) (base : String) (d : Location) : Prop := ∃ mode s o,
  Leads t .target linkBound none [] (Path.endsInSlash base) (Path.names base)
    ⟨.found d (.directory mode), s, o⟩

namespace GoesTo

theorem unique (one : t.GoesTo base d) (other : t.GoesTo base l) : d = l := by
  obtain ⟨_, _, _, one⟩ := one
  obtain ⟨_, _, _, other⟩ := other
  cases one.unique other
  rfl

theorem empty (t : FileTree) : t.GoesTo "" [] := ⟨_, _, _, .stop⟩

theorem of_isDirectory (directory : t.isDirectory base = true) : ∃ d, t.GoesTo base d := by
  obtain ⟨d, mode, s, o, walked⟩ := isDirectory_iff.mp directory
  exact ⟨d, mode, s, o, (walk_ok_iff.mp walked).2⟩

theorem of_pruned (pruned : Pruned rest t) (goes : rest.GoesTo base d) : t.GoesTo base d := by
  obtain ⟨mode, s, o, leads⟩ := goes
  obtain ⟨m, leads, rfl | ⟨mode, _, rfl, -⟩⟩ := pruned.leads_place leads rfl
  · exact ⟨_, s, o, leads⟩
  · exact ⟨mode, s, o, leads⟩

/-- An entry of the directory is found by its name behind the path. -/
theorem walk (goes : t.GoesTo base d) (plain : Path.Plain x) (sought : Sought x)
    (passable : Passable (Path.join base x)) (search : t.searchable d = true)
    (stands : t.node? (d ++ [x]) = some n) (solid : ∀ target, n ≠ .link target) :
    t.walk .target (Path.join base x) = .ok ⟨.found (d ++ [x]) n, false, none⟩ := by
  obtain ⟨mode, s, o, leads⟩ := goes
  refine walk_ok_iff.mpr ⟨passable, ?_⟩
  rw [Path.endsInSlash_join base plain, Path.names_join_plain base plain]
  exact leads.onward search sought stands solid false

end GoesTo

/-- Who walks to an entry by its name behind a path walks to the directory first. -/
theorem walk_join_found (proper : Path.Proper x)
    (walked : t.walk .entry (Path.join base x) = .ok ⟨.found l n, s, o⟩) :
    ∃ d, t.GoesTo base d ∧ t.searchable d = true ∧ Sought x ∧ l = d ++ [x] ∧
      t.node? (d ++ [x]) = some n := by
  have leads := (walk_ok_iff.mp walked).2
  rw [Path.endsInSlash_join base proper.toPlain, Path.names_join_plain base proper.toPlain] at leads
  obtain ⟨d, search, sought, onto, vacant | ⟨m, stands, found⟩⟩ := leads.split_last proper rfl
  · cases vacant
  · cases found
    exact ⟨d, onto _, search, sought, rfl, stands⟩

/-- Where no link stands at the end of a path, every walk that succeeds is the walk to the entry. -/
theorem walk_unlinked (flat : Path.endsInSlash p = false) (unlinked : t.isLink p = false)
    (walked : t.walk aim p = .ok spot) : t.walk .entry p = .ok spot := by
  obtain ⟨passable, leads⟩ := walk_ok_iff.mp walked
  rcases leads.entry_or_link with same | ⟨k, target, s, link⟩
  · exact walk_ok_iff.mpr ⟨passable, same⟩
  · have found : t.walk .entry p = .ok ⟨.found k (.link target), s, none⟩ :=
      walk_ok_iff.mpr ⟨passable, link⟩
    rw [isLink, lookupEntry, flat, found] at unlinked
    contradiction

/-- At the end of a path that leads somewhere there is an entry, if only a link. -/
theorem entry_of_pathExists (there : t.pathExists p = true) :
    ∃ k n s o, t.walk .entry p = .ok ⟨.found k n, s, o⟩ := by
  rw [pathExists] at there
  split at there
  · rename_i r found
    obtain ⟨s, o, walked, -⟩ := lookup_ok_iff.mp found
    obtain ⟨passable, leads⟩ := walk_ok_iff.mp walked
    rcases leads.entry_or_link with same | ⟨k, target, s, link⟩
    · exact ⟨_, _, s, o, walk_ok_iff.mpr ⟨passable, same⟩⟩
    · exact ⟨k, _, s, none, walk_ok_iff.mpr ⟨passable, link⟩⟩
  · contradiction

/-- The path of an entry that was taken away leads nowhere. -/
theorem Taken.gone (taken : Taken t p rest l n slash) : rest.pathExists p = false := by
  obtain rfl := taken.erased
  rw [← Bool.not_eq_true]
  intro there
  obtain ⟨k, m, s, o, entry⟩ := entry_of_pathExists there
  obtain ⟨m', before, -⟩ := (Pruned.erase t l).walk_place entry
  cases taken.walked.symm.trans before
  have stands := (walk_ok_iff.mp entry).2.stands fun _ _ => rfl
  rw [node?_erase t taken.inner, if_pos rfl] at stands
  contradiction

theorem removeDirectory_noEntry (absent : t.removeDirectory p = .error .noEntry) :
    t.pathExists p = false := by
  rw [← Bool.not_eq_true]
  intro there
  obtain ⟨k, n, s, o, entry⟩ := entry_of_pathExists there
  rw [removeDirectory, entry] at absent
  simp only [bind, Except.bind] at absent
  repeat' split at absent
  all_goals cases absent

/-- A path whose tree was removed leads nowhere. -/
theorem removeTree_gone (removed : t.removeTree p = (.ok (), u)) : u.pathExists p = false := by
  unfold removeTree at removed
  split at removed
  · simp at removed
  · split at removed
    · rename_i gone
      obtain ⟨l, n, s, taken⟩ := removeFile_ok gone
      obtain ⟨-, rfl⟩ := Prod.mk.inj removed
      exact taken.gone
    · simp at removed
  · simp at removed
  · split at removed
    · simp at removed
    · split at removed
      · rename_i gone
        obtain ⟨l, n, s, taken⟩ := removeDirectory_ok gone
        obtain ⟨-, rfl⟩ := Prod.mk.inj removed
        exact taken.gone
      · rename_i absent
        obtain ⟨-, rfl⟩ := Prod.mk.inj removed
        exact removeDirectory_noEntry absent
      · simp at removed

end FileTree

end MolecularTools
