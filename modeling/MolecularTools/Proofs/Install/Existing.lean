import MolecularTools.Machine.Shell
import MolecularTools.Proofs.Files.Onward
import MolecularTools.Proofs.Install.Stages
import MolecularTools.Proofs.Machine

/-! The directories of an existing installation. They are checked by the path that was given and
named by the canonical one, and both ways find the same unless lengths or links are exhausted. -/
namespace MolecularTools.Install

open FileTree

def has (t : FileTree) (root part : String) : Bool := t.isDirectory (Path.join root part)

structure Part (part : String) : Prop where
  proper : Path.Proper part
  unmarked : part.toList.any (·.toNat = 0) = false
  fits : part.utf8ByteSize ≤ "include".utf8ByteSize

theorem part_headers : Part "include" where
  proper := ⟨⟨by decide, by decide⟩, by decide, by decide⟩
  unmarked := by decide
  fits := Nat.le_refl _

theorem part_wide : Part "lib64" where
  proper := ⟨⟨by decide, by decide⟩, by decide, by decide⟩
  unmarked := by decide
  fits := by decide

theorem part_libraries : Part "lib" where
  proper := ⟨⟨by decide, by decide⟩, by decide, by decide⟩
  unmarked := by decide
  fits := by decide

def unnamed (root : String) (e : IoError) : Failure :=
  (Failure.ofIo e).within ("Failed to canonicalize " ++ Text.quoted root)

variable (w : Surroundings) (c : Config) {m : Machine} {root : String}

structure Complete (t : FileTree) (root : String) : Prop where
  headers : has t root "include" = true
  libraries : has t root "lib64" = true ∨ has t root "lib" = true

def parts (t : FileTree) (real : String) : LinkTargets :=
  ⟨Path.join real "include", Path.join real (if has t real "lib64" then "lib64" else "lib")⟩

theorem ofExisting_eq (real : String) (m : Machine) :
    LinkTargets.ofExisting (Machine.host w) real m = parts m.files real := by
  have asked : (Machine.host w).isDirectory (Path.join real "lib64") m = has m.files real "lib64" :=
    rfl
  simp only [LinkTargets.ofExisting, parts, asked]
  split
  · rfl
  · rfl

theorem resolveExisting_apply (root : String) (m : Machine) :
    resolveExisting (Machine.host w) c root m =
      (if has m.files root "include" then
        if has m.files root "lib64" || has m.files root "lib" then
          ((m.files.canonical root).mapError (unnamed root)).map (parts m.files)
        else .error (.ofInstall (.path (c.library ++ " lib") root))
      else .error (.ofInstall (.path (c.library ++ " include") root)), m) := by
  have asked (part : String) :
      (Machine.host w).isDirectory (Path.join root part) m = has m.files root part := rfl
  rw [resolveExisting_eq, Task.bind_apply, Task.require, asked]
  cases has m.files root "include" with
  | false => rfl
  | true =>
    simp only [if_true, Task.bind_apply, Task.require, asked]
    cases has m.files root "lib64" || has m.files root "lib" with
    | false => rfl
    | true =>
      simp only [if_true, Machine.host, Task.within_apply, Machine.reading_apply]
      cases m.files.canonical root with
      | error e => rfl
      | ok real => exact congrArg (fun found => (Except.ok found, m)) (ofExisting_eq w real m)

theorem resolveExisting_complete (complete : Complete m.files root) :
    (resolveExisting (Machine.host w) c root m).1 =
      ((m.files.canonical root).mapError (unnamed root)).map (parts m.files) := by
  have libraries : (has m.files root "lib64" || has m.files root "lib") = true := by
    simpa using complete.libraries
  rw [resolveExisting_apply, if_pos complete.headers, if_pos libraries]

theorem complete_of_ok (resolved : (resolveExisting (Machine.host w) c root m).1 = .ok targets) :
    Complete m.files root := by
  rw [resolveExisting_apply] at resolved
  dsimp only at resolved
  split at resolved
  · rename_i headers
    split at resolved
    · rename_i libraries
      exact ⟨headers, by simpa using libraries⟩
    · contradiction
  · contradiction

section

variable {t : FileTree} {d : Location} {part : String}

theorem canonical_empty (t : FileTree) : t.canonical "" = .error .noEntry := rfl

theorem canonical_long (passable : Passable root) (long : ¬t.WayFits root) :
    t.canonical root = .error .nameTooLong := by
  rw [canonical, if_neg (by simp [passable.unmarked]),
    if_pos (by rwa [wayFits_iff, Classical.not_not] at long)]

/-- Where the headers are a directory, the path leads to one. -/
theorem located (headers : has t root "include" = true) (some : root ≠ "") : ∃ d,
    t.GoesTo root d ∧ t.Reached d ∧ ∃ mode, t.lookup root = .ok (d, .directory mode) := by
  obtain ⟨-, d, goes, reached, stands⟩ := GoesTo.of_join part_headers.proper headers
  exact ⟨d, goes, reached, stands some⟩

/-- The canonical path is that of the place, or it cannot be told. -/
theorem canonical_cases (headers : has t root "include" = true) (some : root ≠ "") :
    (t.WayFits root ∧ ∃ d, t.GoesTo root d ∧ t.Reached d ∧
      t.canonical root = .ok (Path.absolute d)) ∨
    (¬t.WayFits root ∧ t.canonical root = .error .nameTooLong) := by
  by_cases fits : t.WayFits root
  · obtain ⟨d, goes, reached, mode, stands⟩ := located headers some
    exact .inl ⟨fits, d, goes, reached, fits.canonical stands⟩
  · obtain ⟨passable, -⟩ := GoesTo.of_join part_headers.proper headers
    exact .inr ⟨fits, canonical_long (passable.of_join part_headers.proper.whole some) fits⟩

theorem passable_part (above : ∀ name ∈ d, Path.Proper name)
    (unmarked : ∀ name ∈ d, name.toList.any (·.toNat = 0) = false) (known : Part part)
    (short : (Path.join (Path.absolute d) part).utf8ByteSize ≤ pathBound) :
    Passable (Path.join (Path.absolute d) part) := by
  refine ⟨?_, ?_, short⟩
  · rw [Path.join_absolute above known.proper.whole]
    exact Path.absolute_ne_empty _
  · rw [Path.join_absolute above known.proper.whole]
    refine unmarked_absolute fun name member => ?_
    rcases List.mem_append.mp member with member | member
    · exact unmarked name member
    · rw [List.mem_singleton.mp member]
      exact known.unmarked

/-- A part of an installation is seen by the canonical path where it is seen by the one that was
given. The other way round, the given path can take more links than are followed. -/
theorem has_alike (goes : t.GoesTo root d) (reached : t.Reached d)
    (headers : has t root "include" = true) (known : Part part)
    (far : Passable (Path.join (Path.absolute d) part)) :
    (has t root part = true → has t (Path.absolute d) part = true) ∧
      (has t (Path.absolute d) part = has t root part ∨
        t.lookup (Path.join root part) = .error .linkLoop) := by
  obtain ⟨passable, -⟩ := GoesTo.of_join part_headers.proper headers
  have near := passable.shorter part_headers.proper.whole known.proper.toPlain known.unmarked
    known.fits
  exact ⟨goes.isDirectory_onward known.proper reached far,
    goes.isDirectory_alike known.proper reached near far⟩

end

/-- What is named of a complete installation: its parts below the canonical path. They are
directories, and the choice of libraries is the one that the checks imply, as long as the paths are
short enough to be walked and the path that was given does not take too many links. -/
structure Named (t : FileTree) (root : String) (targets : LinkTargets) (real : String) : Prop where
  canonical : t.canonical root = .ok real
  parts : targets = parts t real
  headers : targets.headers.utf8ByteSize ≤ pathBound → t.isDirectory targets.headers = true
  libraries : (Path.join real "lib64").utf8ByteSize ≤ pathBound →
    t.isDirectory targets.libraries = true
  choice : (Path.join real "lib64").utf8ByteSize ≤ pathBound →
    has t real "lib64" = has t root "lib64" ∨
      t.lookup (Path.join root "lib64") = .error .linkLoop

theorem Complete.named {t : FileTree} (complete : Complete t root) (unmarked : t.Unmarked)
    (some : root ≠ "") (canonical : t.canonical root = .ok real) :
    Named t root (parts t real) real := by
  have headers := complete.headers
  obtain ⟨-, d, goes, reached, named⟩ | ⟨-, refused⟩ := canonical_cases headers some
  · obtain rfl := Except.ok.inj (canonical.symm.trans named)
    have alike {part : String} (known : Part part) :=
      has_alike goes reached headers known
    have passable {part : String} (known : Part part) :=
      passable_part reached.proper.each (fun name member =>
        have ⟨mode, stands⟩ := reached.stands
        unmarked d _ stands name member) known
    refine ⟨canonical, rfl, fun short => ?_, fun short => ?_, fun short => ?_⟩
    · exact (alike part_headers (passable part_headers short)).1 headers
    · have wide := passable part_wide short
      rw [Install.parts]
      cases seen : has t (Path.absolute d) "lib64" with
      | true => exact seen
      | false =>
        rcases complete.libraries with given | given
        · rw [(alike part_wide wide).1 given] at seen
          contradiction
        · exact (alike part_libraries (wide.shorter part_wide.proper.whole
            part_libraries.proper.toPlain part_libraries.unmarked (by decide))).1 given
    · exact (alike part_wide (passable part_wide short)).2
  · rw [canonical] at refused
    contradiction

/-- An existing installation is accepted exactly if its path is not empty, it is complete, and its
canonical path can be told. Its parts are then named below that path. Of an incomplete one the part
that is missing is told, and the files never change. -/
theorem existing_resolved (unmarked : m.files.Unmarked) :
    let t := m.files
    let r := resolveExisting (Machine.host w) c root m
    r.2 = m ∧
    ((∃ targets, r.1 = .ok targets) ↔ root ≠ "" ∧ Complete t root ∧ t.WayFits root) ∧
    (∀ targets, r.1 = .ok targets → ∃ real, Named t root targets real) ∧
    (has t root "include" = false →
      r.1 = .error (.ofInstall (.path (c.library ++ " include") root))) ∧
    (has t root "include" = true → has t root "lib64" = false → has t root "lib" = false →
      r.1 = .error (.ofInstall (.path (c.library ++ " lib") root))) ∧
    (root ≠ "" → Complete t root → ¬t.WayFits root →
      r.1 = .error (unnamed root .nameTooLong)) := by
  intro t r
  have told : r = _ := resolveExisting_apply w c root m
  have answer : Complete t root →
      r.1 = ((t.canonical root).mapError (unnamed root)).map (parts t) :=
    resolveExisting_complete w c
  have accepted : ∀ targets, r.1 = .ok targets → root ≠ "" ∧ Complete t root ∧
      ∃ real, t.canonical root = .ok real ∧ targets = parts t real := by
    intro targets resolved
    have complete : Complete t root := complete_of_ok w c resolved
    rw [answer complete] at resolved
    cases named : t.canonical root with
    | error e =>
      rw [named] at resolved
      contradiction
    | ok real =>
      rw [named] at resolved
      refine ⟨?_, complete, real, rfl, (Except.ok.inj resolved).symm⟩
      rintro rfl
      rw [canonical_empty] at named
      contradiction
  refine ⟨by rw [told], ⟨?_, ?_⟩, ?_, ?_, ?_, ?_⟩
  · rintro ⟨targets, resolved⟩
    obtain ⟨some, complete, real, named, -⟩ := accepted targets resolved
    exact ⟨some, complete, (canonical_ok named).1⟩
  · rintro ⟨some, complete, fits⟩
    obtain ⟨-, d, -, -, named⟩ | ⟨long, -⟩ := canonical_cases complete.headers some
    · exact ⟨parts t (Path.absolute d), by rw [answer complete, named]; rfl⟩
    · exact absurd fits long
  · intro targets resolved
    obtain ⟨some, complete, real, named, rfl⟩ := accepted targets resolved
    exact ⟨real, complete.named unmarked some named⟩
  · intro missing
    rw [told, if_neg (by simp [t, missing])]
  · intro headers wide libraries
    rw [told, if_pos headers, if_neg (by simp [t, wide, libraries])]
  · intro some complete long
    obtain ⟨fits, -⟩ | ⟨-, refused⟩ := canonical_cases complete.headers some
    · exact absurd fits long
    · rw [answer complete, refused]
      rfl

/-- An installation in a directory that a link names as well, with the wide libraries behind
another link. -/
def windingPlace : FileTree :=
  let directory : Node := .directory directoryMode
  (((((FileTree.empty.put ["x"] (.link ".")).put ["real"] directory).put ["real", "include"]
    directory).put ["real", "lib"] directory).put ["real", "wide"] directory).put ["real", "lib64"]
      (.link "wide")

theorem winding_resolved :
    let host := Machine.host { command := fun _ => Machine.shell }
    let m : Machine := { files := windingPlace }
    m.files.Unmarked ∧
      ∃ targets, (resolveExisting host Config.standard "/x/real/../real" m).1 = .ok targets := by
  intro host m
  have unmarked : m.files.Unmarked := by decide +kernel
  have complete : Complete m.files "/x/real/../real" :=
    ⟨by decide +kernel, .inl (by decide +kernel)⟩
  have fits : m.files.WayFits "/x/real/../real" := wayFits_iff.mpr (by decide +kernel)
  exact ⟨unmarked, (existing_resolved _ _ unmarked).2.1.mpr ⟨by decide, complete, fits⟩⟩

def nest (t : FileTree) (l : Location) : List String → FileTree
  | [] => t
  | x :: names => nest (t.put (l ++ [x]) (.directory directoryMode)) (l ++ [x]) names

theorem nest_reached {t : FileTree} {l : Location} {names : List String} (reached : t.Reached l)
    (search : t.searchable l = true) (proper : FileTree.Proper names) :
    (nest t l names).Reached (l ++ names) ∧ (nest t l names).searchable (l ++ names) = true := by
  induction names generalizing t l with
  | nil =>
    rw [List.append_nil]
    exact ⟨reached, search⟩
  | cons x names ih =>
    obtain ⟨this, short⟩ := proper x List.mem_cons_self
    have made : (t.put (l ++ [x]) (.directory directoryMode)).node? (l ++ [x]) =
        some (.directory directoryMode) := by rw [node?_put t (by simp), if_pos rfl]
    have still : (t.put (l ++ [x]) (.directory directoryMode)).searchable l = true := by
      rw [searchable_congr (SameOutside.put t (by simp) _ l (not_child_of_above List.prefix_rfl)),
        search]
    rw [List.append_cons, nest]
    refine ih ((reached.put x _).child still this.toPlain
      ⟨this.not_here, this.not_above, short⟩ made) ?_
      fun name member => proper name (List.mem_cons_of_mem x member)
    rw [searchable, directoryMode?_eq_some.mpr made]
    decide

/-- A place to which a link leads half the way, with an installation in it. -/
def farPlace (front rest : List String) : FileTree :=
  let d := front ++ rest
  (((nest .empty [] d).put ["k"] (.link (Path.absolute front))).put (d ++ ["include"])
    (.directory directoryMode)).put (d ++ ["lib64"]) (.directory directoryMode)

def farPath (rest : List String) : String := Path.absolute ("k" :: rest)

theorem proper_by_link {rest : List String} (proper : ∀ name ∈ rest, Path.Proper name) :
    ∀ name ∈ "k" :: rest, Path.Proper name := by
  intro name member
  rcases List.mem_cons.mp member with rfl | member
  · exact ⟨⟨by decide, by decide⟩, by decide, by decide⟩
  · exact proper name member

section

variable {front rest : List String} {part : String}

structure Far (names : List String) : Prop where
  inner : names ≠ []
  proper : FileTree.Proper names
  apart : "k" ∉ names

variable (far : Far (front ++ rest))
include far

theorem Far.reached : (farPlace front rest).Reached (front ++ rest) ∧
    (farPlace front rest).searchable (front ++ rest) = true := by
  obtain ⟨reached, search⟩ := nest_reached (Reached.root .empty) (by decide) far.proper
  have linked : ∀ k, k <+: front ++ rest → k ≠ ["k"] := by
    rintro k upper rfl
    exact far.apart (upper.subset List.mem_cons_self)
  have same : ∀ k, k <+: front ++ rest →
      (farPlace front rest).node? k = (nest .empty [] (front ++ rest)).node? k := by
    intro k upper
    simp only [farPlace]
    rw [node?_put _ (by simp), if_neg (Ne.symm (not_child_of_above upper)),
      node?_put _ (by simp), if_neg (Ne.symm (not_child_of_above upper)),
      node?_put _ (by simp), if_neg (Ne.symm (linked k upper))]
  rw [List.nil_append] at reached search
  refine ⟨reached.congr same, ?_⟩
  rw [searchable_congr (same _ List.prefix_rfl), search]

theorem Far.at_link : (farPlace front rest).node? ["k"] = some (.link (Path.absolute front)) := by
  have below (x : String) : front ++ rest ++ [x] ≠ ["k"] := by
    intro same
    have none : front ++ rest = [] := by simpa using congrArg List.dropLast same
    exact far.inner none
  simp only [farPlace]
  rw [node?_put _ (by simp), if_neg (below _), node?_put _ (by simp), if_neg (below _),
    node?_put _ (by simp), if_pos rfl]

theorem Far.names : Path.names (farPath rest) = "k" :: rest :=
  Path.names_absolute <| proper_by_link fun name member =>
    (far.proper name (List.mem_append_right front member)).1

theorem Far.target : Path.names (Path.absolute front) = front :=
  Path.names_absolute fun name member => (far.proper name (List.mem_append_left rest member)).1

theorem Far.goesTo : (farPlace front rest).GoesTo (farPath rest) (front ++ rest) := by
  have onward : (farPlace front rest).ToDirectory 39 none [] (front ++ rest) (front ++ rest) :=
    far.reached.1.toDirectory _ (List.nil_append _)
  have leads : (farPlace front rest).ToDirectory linkBound none [] ("k" :: rest)
      (front ++ rest) := by
    refine .follow (by rfl) ⟨by decide, by decide, by decide⟩ far.at_link ?_
    rwa [far.target, ite_self]
  rw [GoesTo, far.names]
  exact leads _

theorem Far.has (known : Part part) (there : part = "include" ∨ part = "lib64")
    (passable : Passable (Path.join (farPath rest) part)) :
    has (farPlace front rest) (farPath rest) part = true := by
  have stands : (farPlace front rest).node? (front ++ rest ++ [part]) =
      some (.directory directoryMode) := by
    simp only [farPlace]
    rw [node?_put _ (by simp), node?_put _ (by simp)]
    rcases there with rfl | rfl
    · simp
    · simp
  have found := far.goesTo.walk known.proper.toPlain
    ⟨known.proper.not_here, known.proper.not_above, Nat.le_trans known.fits (by decide)⟩
    passable far.reached.2 stands (fun _ => Node.noConfusion)
  exact isDirectory_iff.mpr ⟨_, _, _, _, found⟩

theorem Far.wayFits_iff (passable : Passable (Path.join (farPath rest) "include")) :
    (farPlace front rest).WayFits (farPath rest) ↔
      (Path.absolute (front ++ rest)).utf8ByteSize ≤ pathBound := by
  constructor
  · intro fits
    obtain ⟨d, goes, -, mode, stands⟩ := located (far.has part_headers (.inl rfl) passable)
      (Path.absolute_ne_empty _)
    obtain rfl := goes.unique far.goesTo
    exact fits.place stands
  · intro short l member
    have search : (farPlace front rest).searchable [] = true := by rfl
    rw [FileTree.visited, far.names, visitedWithin_eq, visitedWith, if_neg (by decide),
      if_neg (by decide)] at member
    simp only [List.nil_append, search, far.at_link, Bool.not_true, Bool.false_eq_true, if_false,
      ite_self, far.target] at member
    rcases List.mem_cons.mp member with rfl | member
    · decide
    · rw [show linkBound = 39 + 1 from rfl, visiting, visitedWithin_eq] at member
      have upper := far.reached.1.visited _ (List.nil_append _) l member
      exact Nat.le_trans (Path.utf8ByteSize_above upper far.inner) short

theorem Far.wide (passable : Passable (Path.join (farPath rest) "include")) :
    Install.has (farPlace front rest) (farPath rest) "lib64" = true :=
  far.has part_wide (.inr rfl) (passable.shorter part_headers.proper.whole
    part_wide.proper.toPlain part_wide.unmarked part_wide.fits)

theorem Far.complete (passable : Passable (Path.join (farPath rest) "include")) :
    Complete (farPlace front rest) (farPath rest) :=
  ⟨far.has part_headers (.inl rfl) passable, .inl (far.wide passable)⟩

/-- Whether the installation is accepted depends on how long its canonical path is. -/
theorem Far.answer (stands : m.files = farPlace front rest)
    (passable : Passable (Path.join (farPath rest) "include")) :
    (resolveExisting (Machine.host w) c (farPath rest) m).1 =
      if (Path.absolute (front ++ rest)).utf8ByteSize ≤ pathBound then
        .ok (parts m.files (Path.absolute (front ++ rest)))
      else .error (unnamed (farPath rest) .nameTooLong) := by
  have complete : Complete m.files (farPath rest) := by
    rw [stands]
    exact far.complete passable
  have length : m.files.WayFits (farPath rest) ↔
      (Path.absolute (front ++ rest)).utf8ByteSize ≤ pathBound := by
    rw [stands]
    exact far.wayFits_iff passable
  rw [resolveExisting_complete w c complete]
  obtain ⟨fits, d, goes, -, named⟩ | ⟨long, refused⟩ :=
    canonical_cases complete.headers (Path.absolute_ne_empty _)
  · rw [stands] at goes
    obtain rfl := goes.unique far.goesTo
    rw [if_pos (length.mp fits), named]
    rfl
  · rw [if_neg (fun short => long (length.mpr short)), refused]
    rfl

end

def lengthy (lengths : List Nat) : List String :=
  lengths.map fun n => String.ofList (List.replicate n 'd')

theorem size_replicate (n : Nat) : (String.ofList (List.replicate n 'd')).utf8ByteSize = n := by
  induction n with
  | zero => rfl
  | succ n ih =>
    rw [List.replicate_succ, String.ofList_cons, String.utf8ByteSize_append, ih,
      String.utf8ByteSize_singleton, Nat.add_comm]
    rfl

theorem sizes_lengthy (lengths : List Nat) :
    ((lengthy lengths).map (·.utf8ByteSize + 1)).sum = (lengths.map (· + 1)).sum := by
  rw [lengthy, List.map_map]
  simp only [Function.comp_def, size_replicate]

section

variable {lengths : List Nat} (each : ∀ n ∈ lengths, 0 < n ∧ n ≤ nameBound)
include each

theorem proper_lengthy : FileTree.Proper (lengthy lengths) := by
  intro name member
  obtain ⟨n, among, rfl⟩ := List.mem_map.mp member
  obtain ⟨some, short⟩ := each n among
  refine ⟨Path.proper_of_mem (c := 'd') ?_ (by decide) ?_, by rwa [size_replicate]⟩
  · simpa using Nat.ne_of_gt some
  · simp

theorem far_lengthy (inner : lengths ≠ []) : Far (lengthy lengths) where
  inner := by simpa [lengthy] using inner
  proper := proper_lengthy each
  apart := by
    intro member
    obtain ⟨n, among, same⟩ := List.mem_map.mp member
    have letter : 'k' ∈ List.replicate n 'd' := by
      rw [← String.toList_ofList (l := List.replicate n 'd'), same]
      decide
    cases List.eq_of_mem_replicate letter

/-- A path to such names through the link is walked if it is short enough. -/
theorem passable_lengthy (short : (lengths.map (· + 1)).sum + 10 ≤ pathBound) :
    Passable (Path.join (farPath (lengthy lengths)) "include") := by
  have above := proper_by_link (proper_lengthy each).each
  refine passable_part above ?_ part_headers ?_
  · intro name member
    rcases List.mem_cons.mp member with rfl | member
    · decide
    · obtain ⟨n, among, rfl⟩ := List.mem_map.mp member
      simp
  · have sizes : "k".utf8ByteSize = 1 ∧ "include".utf8ByteSize = 7 := by decide
    rw [Path.join_absolute above part_headers.proper.whole,
      Path.utf8ByteSize_child (List.cons_ne_nil "k" _), Path.utf8ByteSize_absolute (by simp),
      List.map_cons, List.sum_cons, sizes_lengthy]
    omega

end

theorem lengthy_append (front rest : List Nat) :
    lengthy front ++ lengthy rest = lengthy (front ++ rest) := (List.map_append ..).symm

theorem isDirectory_long {t : FileTree} (long : pathBound < p.utf8ByteSize) :
    t.isDirectory p = false := by
  rw [← Bool.not_eq_true]
  intro directory
  obtain ⟨l, mode, s, o, walked⟩ := isDirectory_iff.mp directory
  exact Nat.not_le_of_lt long (walk_ok_iff.mp walked).1.short

def full : List String := lengthy (List.replicate 8 255)

def narrow : List String := lengthy (List.replicate 7 255 ++ [250])

/-- A path to the installation by forty links. -/
def windingPath : String := Path.absolute (List.replicate 40 "x" ++ ["real"])

/-- Complete installations: one whose canonical path is too long; one whose canonical path is not,
though the paths of its parts are; and one with wide libraries that are found by the canonical path
only. -/
theorem existing_exhausted :
    let host := Machine.host { command := fun _ => Machine.shell }
    let resolved (t : FileTree) (root : String) :=
      (resolveExisting host Config.standard root { files := t }).1
    (Complete (farPlace full full) (farPath full) ∧
      resolved (farPlace full full) (farPath full) =
        .error (unnamed (farPath full) .nameTooLong)) ∧
    (has (farPlace full narrow) (farPath narrow) "lib64" = true ∧
      ∃ targets, resolved (farPlace full narrow) (farPath narrow) = .ok targets ∧
        targets.libraries = Path.join (Path.absolute (full ++ narrow)) "lib" ∧
        (farPlace full narrow).isDirectory targets.headers = false) ∧
    (has windingPlace windingPath "lib64" = false ∧
      resolved windingPlace windingPath = .ok ⟨"/real/include", "/real/lib64"⟩) := by
  intro host resolved
  refine ⟨?_, ?_, ?_, ?_⟩
  · have far : Far (full ++ full) := by
      rw [full, lengthy_append]
      exact far_lengthy (by decide) (by decide)
    have passable : Passable (Path.join (farPath full) "include") :=
      passable_lengthy (by decide) (by decide)
    have length : (Path.absolute (full ++ full)).utf8ByteSize = 4096 := by
      rw [Path.utf8ByteSize_absolute far.inner, full, lengthy_append, sizes_lengthy]
      decide
    refine ⟨far.complete passable, ?_⟩
    exact (far.answer _ _ rfl passable).trans (by rw [length]; rfl)
  · have far : Far (full ++ narrow) := by
      rw [full, narrow, lengthy_append]
      exact far_lengthy (by decide) (by decide)
    have passable : Passable (Path.join (farPath narrow) "include") :=
      passable_lengthy (by decide) (by decide)
    have length : (Path.absolute (full ++ narrow)).utf8ByteSize = 4091 := by
      rw [Path.utf8ByteSize_absolute far.inner, full, narrow, lengthy_append, sizes_lengthy]
      decide
    have above := far.proper.each
    refine ⟨far.wide passable, _,
      (far.answer _ _ rfl passable).trans (if_pos (by rw [length]; decide)), ?_, ?_⟩
    · have unseen :
          has (farPlace full narrow) (Path.absolute (full ++ narrow)) "lib64" = false := by
        apply isDirectory_long
        rw [Path.join_absolute above part_wide.proper.whole, Path.utf8ByteSize_child far.inner,
          length]
        decide
      simp only [parts, unseen]
      rfl
    · apply isDirectory_long
      simp only [parts]
      rw [Path.join_absolute above part_headers.proper.whole, Path.utf8ByteSize_child far.inner,
        length]
      decide
  · decide +kernel
  · exact eq_ok_of_toOption (by decide +kernel)

end MolecularTools.Install
