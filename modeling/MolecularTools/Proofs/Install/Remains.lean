import MolecularTools.Proofs.Files.Rewriting
import MolecularTools.Proofs.Install.Fetching
import MolecularTools.Proofs.Install.Paths

/-! What the stages of a build leave of a working directory when one of them fails. -/
namespace MolecularTools

open FileTree

/-- No program was run, and of all files only the one at the path can have changed. -/
structure Touches (p : String) (m after : Machine) : Prop where
  files : OnlyTouched p m.files after.files
  commands : after.commandsRun = m.commandsRun

namespace Touches

variable {p url : String} {m before after : Machine} {supply : Supply}

theorem refl (p : String) (m : Machine) : Touches p m m := ⟨.inl rfl, rfl⟩

theorem said (touches : Touches p m after) (text : String) : Touches p m (after.said text) :=
  ⟨touches.files, touches.commands⟩

theorem warned (touches : Touches p m after) (text : String) : Touches p m (after.warned text) :=
  ⟨touches.files, touches.commands⟩

/-- A delivery leaves at the path what was delivered. -/
theorem delivered (touches : Touches p m before) (flat : Path.endsInSlash p = false)
    (bare : m.files.isLink p = false) (delivered : Delivered supply p url before after) :
    ∃ l f, Renewed p m.files l f after.files ∧ f.bytes = (supply before.requests url).body ∧
      after.commandsRun = m.commandsRun := by
  cases delivered with
  | @whole l t made _ _ =>
    obtain ⟨f, renewed, empty⟩ := touches.files.createFile flat bare made
    refine ⟨l, _, renewed.append flat bare _, ?_, touches.commands⟩
    simp only [empty, ByteArray.empty_append]

theorem undelivered (touches : Touches p m before) (flat : Path.endsInSlash p = false)
    (bare : m.files.isLink p = false) (failed : Undelivered supply p url before e after) :
    Touches p m after := by
  cases failed with
  | uncreated => exact touches
  | refused made =>
    obtain ⟨f, renewed, -⟩ := touches.files.createFile flat bare made
    exact ⟨.inr ⟨_, f, renewed⟩, touches.commands⟩
  | broken made =>
    obtain ⟨f, renewed, -⟩ := touches.files.createFile flat bare made
    exact ⟨.inr ⟨_, _, renewed.append flat bare _⟩, touches.commands⟩

end Touches

namespace Install

variable {supply : Supply} {c : Config} {version archive url : String} {m before after : Machine}

theorem Bad.touches (bad : Bad supply c version archive url before e after)
    (touches : Touches archive m before) (flat : Path.endsInSlash archive = false)
    (bare : m.files.isLink archive = false) : Touches archive m after := by
  cases bad with
  | network failed => exact touches.undelivered flat bare failed
  | unreadable delivered =>
    obtain ⟨l, f, renewed, -, commands⟩ := touches.delivered flat bare delivered
    exact ⟨.inr ⟨l, f, renewed⟩, commands⟩
  | mismatch delivered =>
    obtain ⟨l, f, renewed, -, commands⟩ := touches.delivered flat bare delivered
    exact ⟨.inr ⟨l, f, renewed⟩, commands⟩

theorem Passed.touches {failed : List String}
    (passed : Passed supply c version archive failed url before after)
    (touches : Touches archive m before) (flat : Path.endsInSlash archive = false)
    (bare : m.files.isLink archive = false) : Touches archive m after := by
  induction passed with
  | none => exact touches
  | more bad _ ih => exact ih ((bad.touches touches flat bare).warned _)

theorem announced_touches (c : Config) (version archive : String) (m : Machine) :
    Touches archive m (announced c version m) := by
  unfold announced
  dsimp only
  split
  · exact ((Touches.refl archive m).said _).warned _
  · exact (Touches.refl archive m).said _

/-- A source was good, and all that it delivered was fetched. -/
inductive Fetched (supply : Supply) (c : Config) (version archive : String) (m : Machine) :
    ByteArray → Machine → Prop
  | fetched {failed rest : List String} {url : String} {reached after : Machine} :
      [c.primaryUrl version, c.fallbackUrl version].take (min 2 c.maxAttempts) =
        failed ++ url :: rest →
      Passed supply c version archive failed url (announced c version m) reached →
      Good supply c version archive url reached after →
      Fetched supply c version archive m (supply reached.requests url).body after

theorem Fetched.renewed (fetched : Fetched supply c version archive m bytes after)
    (flat : Path.endsInSlash archive = false) (bare : m.files.isLink archive = false) :
    ∃ l f, Renewed archive m.files l f after.files ∧ f.bytes = bytes ∧
      after.commandsRun = m.commandsRun := by
  obtain ⟨-, passed, good⟩ := fetched
  have touches := passed.touches (announced_touches c version archive m) flat bare
  exact touches.delivered flat bare good.delivered

inductive Cleared (sourceDir : String) (t : FileTree) : FileTree → Prop
  | absent : t.pathExists sourceDir = false → Cleared sourceDir t t
  | removed : t.pathExists sourceDir = true → t.removeTree sourceDir = (.ok (), u) →
      Cleared sourceDir t u

section

variable {t u : FileTree} {base a s : String} {l : Location} {f : File}

theorem Cleared.pruned (cleared : Cleared s t u) : Pruned u t := by
  cases cleared with
  | absent => exact .refl t
  | removed _ removed =>
    have pruned := removeTree_pruned t s
    rw [removed] at pruned
    exact pruned

/-- The archive, and the directory of which it is an entry. -/
structure Beside (t : FileTree) (base a : String) (d : Location) (f : File) : Prop where
  goes : t.GoesTo base d
  search : t.searchable d = true
  sought : Sought a
  stands : t.node? (d ++ [a]) = some (.file f)

theorem beside_of_entry (proper : Path.Proper a)
    (entry : t.walk .entry (Path.join base a) = .ok ⟨.found l (.file f), slash, o⟩) :
    ∃ d, l = d ++ [a] ∧ Beside t base a d f := by
  obtain ⟨d, goes, search, sought, rfl, stands⟩ := walk_join_found proper entry
  exact ⟨d, rfl, goes, search, sought, stands⟩

/-- Removing the source tree touches nothing beside it. -/
theorem Cleared.inside (cleared : Cleared (Path.join base s) t u) (proper : Path.Proper s)
    (goes : t.GoesTo base d) : SameOutside (d ++ [s] <+: ·) t u := by
  cases cleared with
  | absent => exact .refl t
  | removed _ removed =>
    have inside : SameOutside (d ++ [s] <+: ·) t (t.removeTree (Path.join base s)).2 := by
      refine removeTree_inside (Path.endsInSlash_join base proper.toPlain) fun walked => ?_
      obtain ⟨k, other, -, -, rfl, -⟩ := walk_join_found proper walked
      rw [other.unique goes]
    rw [removed] at inside
    exact inside

theorem not_below_sibling (apart : a ≠ s) (d : Location) : ¬(d ++ [s] <+: d ++ [a]) := by
  intro below
  rw [List.prefix_append_right_inj] at below
  exact apart (by simpa using below.eq_of_length rfl : s = a).symm

/-- The archive stays where it is. Its path still names it unless the way there led through the
source tree. -/
theorem Beside.cleared (beside : Beside t base a d f) (apart : a ≠ s) (proper : Path.Proper s)
    (cleared : Cleared (Path.join base s) t u) : u.node? (d ++ [a]) = some (.file f) := by
  rw [cleared.inside proper beside.goes _ (not_below_sibling apart d), beside.stands]

theorem Beside.named (beside : Beside t base a d f) (apart : a ≠ s) (properArchive : Path.Proper a)
    (proper : Path.Proper s) (cleared : Cleared (Path.join base s) t u)
    (passable : Passable (Path.join base a)) (goes : u.GoesTo base k) :
    u.lookup (Path.join base a) = .ok (d ++ [a], .file f) := by
  obtain rfl := (goes.of_pruned cleared.pruned).unique beside.goes
  have same := cleared.inside proper beside.goes
  have search : u.searchable k = true := by
    rw [searchable_congr (same k (child_not_above k s)), beside.search]
  have walked := goes.walk properArchive.toPlain beside.sought passable search
    (beside.cleared apart proper cleared) (by simp)
  exact lookup_ok_iff.mpr ⟨false, none, walked, rfl⟩

/-- A directory that is named by its canonical path is reached by it, and files that were rewritten
since make no difference. -/
theorem reached_of_canonical_base {before : FileTree} (rooted : before.Rooted)
    (canonical : before.canonical base = .ok base) (rewritten : Rewritten l before t)
    (goes : t.GoesTo base d) : t.Reached d ∧ base = Path.absolute d := by
  obtain ⟨mode, slash, o, leads⟩ := goes
  have leads := rewritten.leads leads rfl (by simp)
  obtain ⟨-, k, n, found, named⟩ := canonical_ok canonical
  obtain ⟨slash, o, walked, -⟩ := lookup_ok_iff.mp found
  have proper := walk_proper walked
  cases (walk_ok_iff.mp walked).2.unique leads
  have directory : before.isDirectory base = true := by
    rw [isDirectory, found]
  obtain ⟨j, reached, same⟩ := reached_of_canonical rooted canonical directory
  have same : d = j := by
    rw [← proper.names_absolute, named, same, reached.proper.names_absolute]
  subst same
  refine ⟨reached.congr fun j upper => ?_, named.symm⟩
  obtain ⟨mode, stands⟩ := reached.directory upper
  rw [stands]
  exact (rewritten.solid (by simp) j).mpr stands

/-- Nothing on the way to a directory that is named by its canonical path is removed with an entry
of it. -/
theorem Beside.named_canonical (beside : Beside t base a d f) (apart : a ≠ s)
    (properArchive : Path.Proper a) (proper : Path.Proper s)
    (cleared : Cleared (Path.join base s) t u) (reached : t.Reached d)
    (whole : base = Path.absolute d)
    (entry : t.walk .entry (Path.join base a) = .ok ⟨.found l n, slash, o⟩) :
    u.lookup (Path.join base a) = .ok (d ++ [a], .file f) := by
  have same := cleared.inside proper beside.goes
  have stands := beside.cleared apart proper cleared
  have search : u.searchable d = true := by
    rw [searchable_congr (same d (child_not_above d s)), beside.search]
  rw [whole, Path.join_absolute reached.proper.each properArchive.whole] at entry ⊢
  have sound : childFault d a = none := by
    cases fault : childFault d a with
    | none => rfl
    | some e =>
      rw [reached.walk_refused .entry beside.search properArchive fault] at entry
      contradiction
  have reached := same.reached reached fun k upper => not_below_of_above upper
  rw [lookup, reached.walk_found .target search properArchive sound stands (by simp)]
  rfl

end

end Install

end MolecularTools
