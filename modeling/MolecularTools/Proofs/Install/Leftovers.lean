import MolecularTools.Proofs.Install.Alike
import MolecularTools.Proofs.Install.Paths

/-! What earlier runs left in a working directory has no influence on a build, as long as its
owner may clear it away. -/
namespace MolecularTools.Install

open FileTree

variable {l : Location} {a s : String} {mode : Nat} {m m' : Machine} {supply : Supply} {c : Config}
  {version : String}

/-- An earlier source tree is removed; if there is none, nothing is. -/
theorem cleared (w : Surroundings) {m : Machine} (place : Workplace l a s mode m.files)
    (search : m.files.searchable l = true) (proper : Path.Proper s)
    (sound : childFault l s = none) :
    ∃ files, Task.whenever ((Machine.host w).pathExists (Path.absolute (l ++ [s])))
        ((Machine.host w).removeTree (Path.absolute (l ++ [s]))) m = (.ok (), { m with files }) ∧
      Without (l ++ [s] <+: ·) m.files files := by
  cases stands : m.files.node? (l ++ [s]) with
  | none =>
    have absent : (Machine.host w).pathExists (Path.absolute (l ++ [s])) m = false := by
      show m.files.pathExists (Path.absolute (l ++ [s])) = false
      rw [FileTree.pathExists, FileTree.lookup,
        place.reached.walk_vacant .target search proper sound stands]
      rfl
    refine ⟨m.files, ?_, (Without.refl m.files).congr ?_⟩
    · rw [Task.whenever, absent]
      rfl
    · intro k n there
      refine ⟨False.elim, ?_⟩
      rintro ⟨names, rfl⟩
      rw [← node?_of_ne (by simp)] at there
      cases names with
      | nil =>
        rw [List.append_nil, stands] at there
        contradiction
      | cons name names =>
        have bare := place.rooted.nothing_below (List.cons_ne_nil name names)
          (fun mode directory => by rw [stands] at directory; contradiction)
        rw [bare] at there
        contradiction
  | some n =>
    cases n with
    | file f => simpa [Node.isDirectory] using place.oldSource _ stands
    | link target => simpa [Node.isDirectory] using place.oldSource _ stands
    | directory mode =>
      have present : (Machine.host w).pathExists (Path.absolute (l ++ [s])) m = true := by
        show m.files.pathExists (Path.absolute (l ++ [s])) = true
        rw [FileTree.pathExists, FileTree.lookup,
          place.reached.walk_found .target search proper sound stands (by simp)]
        rfl
      obtain ⟨rest, removed, taken⟩ := removeTree_takes place.rooted place.reached
        (alterable_of_writable place.writable search) proper sound stands place.accessible
      refine ⟨rest, ?_, taken⟩
      rw [Task.whenever, present, if_pos rfl]
      simp only [Machine.host, Task.within_apply, Machine.stepwise_apply, removed]
      rfl

/-- Without the earlier source trees the machines are the same. -/
theorem Alike.cleared (w : Surroundings) (alike : Alike l a s mode m m') (stocked : Stocked l a mode m m')
    (proper : Path.Proper s) (sound : childFault l s = none) :
    ∃ same, Task.whenever ((Machine.host w).pathExists (Path.absolute (l ++ [s])))
        ((Machine.host w).removeTree (Path.absolute (l ++ [s]))) m = (.ok (), same) ∧
      Task.whenever ((Machine.host w).pathExists (Path.absolute (l ++ [s])))
        ((Machine.host w).removeTree (Path.absolute (l ++ [s]))) m' = (.ok (), same) := by
  have search : m'.files.searchable l = true := alike.searchable.trans stocked.search
  obtain ⟨files, one, taken⟩ := Install.cleared w alike.left stocked.search proper sound
  obtain ⟨files', two, takenToo⟩ := Install.cleared w alike.right search proper sound
  have same : files = files' := by
    apply taken.unique takenToo
    intro k stays
    by_cases archive : k = l ++ [a]
    · obtain ⟨bytes, here, there⟩ := stocked.archive
      rw [archive, ← node?_of_ne (by simp), ← node?_of_ne (by simp), here, there]
    · exact alike.outside k archive stays
  refine ⟨{ m with files }, one, ?_⟩
  rw [two, alike.same, same]

theorem makeWay_cleared (w : Surroundings) (supply : Supply) (extractor : Extractor Machine)
    {p : InstallPaths}
    (cleared : Task.whenever ((Machine.host w).pathExists p.sourceDir)
      ((Machine.host w).removeTree p.sourceDir)
      (m.said ("Unpacking " ++ c.library ++ " tarball ...")) = (.ok (), same)) :
    makeWay (.supplied w supply extractor) c p m = recognise extractor p.archive same := by
  have said : (Tools.supplied w supply extractor).host.say
      ("Unpacking " ++ c.library ++ " tarball ...") m =
        (.ok (), m.said ("Unpacking " ++ c.library ++ " tarball ...")) := rfl
  rw [makeWay, Task.bind_apply, said]
  simp only [Tools.supplied]
  rw [Task.bind_apply, cleared]

/-- What earlier runs can have left where an installation works: an archive that a run makes
anew, and a source tree that its owner may clear. -/
structure Leftover (t : FileTree) (mode : Nat) (p : InstallPaths) : Prop where
  rooted : t.Rooted
  archive : t.Renewable mode (Path.names p.archive)
  source : ∀ n, t.node? (Path.names p.sourceDir) = some n → n.isDirectory = true
  accessible : t.Open (Path.names p.sourceDir)

/-- A build that starts from machines that differ in left-overs fetches the same archive on both
and goes on from the same machine. -/
theorem run_alike (w : Surroundings) (extractor : Extractor Machine)
    {workDir : String} (alike : Alike l a s mode m m') (apart : a ≠ s) (properArchive : Path.Proper a)
    (properSource : Path.Proper s) (longer : ∃ more, a = s ++ more)
    (archive : (InstallPaths.ofVersion c workDir version).archive = Path.absolute (l ++ [a]))
    (source : (InstallPaths.ofVersion c workDir version).sourceDir = Path.absolute (l ++ [s])) :
    (run (.supplied w supply extractor) c .build version workDir m).1 =
        (run (.supplied w supply extractor) c .build version workDir m').1 ∧
      ∀ targets, (run (.supplied w supply extractor) c .build version workDir m).1 = .ok targets →
        (run (.supplied w supply extractor) c .build version workDir m).2 =
          (run (.supplied w supply extractor) c .build version workDir m').2 := by
  obtain ⟨result, joined⟩ := alike.fetched w extractor apart properArchive archive
  rw [run_build_eq]
  cases fetched : (fetch (.supplied w supply extractor) c (.ofVersion c workDir version) version
      m).1 with
  | error e =>
    rw [fetched] at result
    rw [Task.bind_error fetched, Task.bind_error result.symm]
    exact ⟨rfl, fun _ ok => by contradiction⟩
  | ok done =>
    rw [fetched] at result
    rw [Task.bind_ok fetched, Task.bind_ok result.symm]
    obtain ⟨still, stocked⟩ := joined fetched
    obtain ⟨more, rfl⟩ := longer
    obtain ⟨same, one, two⟩ := (still.said ("Unpacking " ++ c.library ++ " tarball ...")).cleared w
      (stocked.said _) properSource (childFault_shorter stocked.sound)
    rw [← source] at one two
    have here := makeWay_cleared w supply extractor one
    have there := makeWay_cleared w supply extractor two
    rw [Task.bind_apply, here, Task.bind_apply, there]
    exact ⟨rfl, fun _ _ => rfl⟩

/-- Two builds that start from the same machine, left-overs of earlier runs in the working directory
aside, have the same result, and if they succeed they end on the same machine. -/
theorem run_ignores_leftovers (w : Surroundings) (supply : Supply) (extractor : Extractor Machine)
    {c : Config} {version workDir : String} {m : Machine} {files : FileTree}
    (plain : c.Plain version)
    (canonical : m.files.canonical workDir = .ok workDir)
    (directory : m.files.isDirectory workDir = true)
    (writable : m.files.writable (Path.names workDir) = true)
    (left : Leftover m.files mode (.ofVersion c workDir version))
    (right : Leftover files mode (.ofVersion c workDir version))
    (outside : ∀ k, k ≠ Path.names (InstallPaths.ofVersion c workDir version).archive →
      ¬(Path.names (InstallPaths.ofVersion c workDir version).sourceDir <+: k) →
      m.files.nodes[k]? = files.nodes[k]?) :
    let t := Tools.supplied w supply extractor
    (run t c .build version workDir m).1 = (run t c .build version workDir { m with files }).1 ∧
      ∀ targets, (run t c .build version workDir m).1 = .ok targets →
        (run t c .build version workDir m).2 =
          (run t c .build version workDir { m with files }).2 := by
  obtain ⟨l, reached, rfl⟩ := reached_of_canonical left.rooted canonical directory
  have proper := reached.proper.each
  have archive := InstallPaths.archive_absolute proper plain
  have source := InstallPaths.sourceDir_absolute proper plain
  have archiveNames := Path.names_child proper plain.archiveName
  have sourceNames := Path.names_child proper plain.sourceDirName
  rw [reached.proper.names_absolute] at writable
  rw [archive, archiveNames, source, sourceNames] at outside
  have upper : ∀ k, k <+: l → files.node? k = m.files.node? k := by
    intro k above
    rw [FileTree.node?, FileTree.node?, outside k]
    · rintro rfl
      exact child_not_above l _ above
    · intro below
      exact child_not_above l _ (below.trans above)
  have place : ∀ {t : FileTree}, Leftover t mode (.ofVersion c (Path.absolute l) version) →
      t.Reached l → t.writable l = true →
      Workplace l (c.archiveName version) (c.sourceDirName version) mode t := by
    intro t old reached writable
    have oldArchive := old.archive
    have oldSource := old.source
    have accessible := old.accessible
    rw [archive, archiveNames] at oldArchive
    rw [source, sourceNames] at oldSource accessible
    exact ⟨old.rooted, reached, writable, oldArchive, oldSource, accessible⟩
  have alike :
      Alike l (c.archiveName version) (c.sourceDirName version) mode m { m with files } := by
    refine ⟨rfl, place left reached writable, place right (reached.congr upper) ?_, outside⟩
    rw [writable_congr (upper l List.prefix_rfl)]
    exact writable
  exact run_alike w extractor alike (c.archiveName_ne_sourceDirName version) plain.archiveName
    plain.sourceDirName ⟨".tar.gz", rfl⟩ archive source

theorem ne_of_outside {k : Location} (outside : ¬(l <+: k)) (names : List String) :
    l ++ names ≠ k := by
  rintro rfl
  exact outside (List.prefix_append l names)

def emptyPlace : FileTree := FileTree.empty.put ["w"] (.directory directoryMode)

def usedPlace : FileTree :=
  ((emptyPlace.put ["w", "scafacos-9.tar.gz"] (lone fileMode "part".toUTF8)).put
    ["w", "scafacos-9"] (.directory directoryMode)).put ["w", "scafacos-9", "old"] (.link "/etc")

theorem emptyPlace_leftover :
    Leftover emptyPlace fileMode (.ofVersion Config.standard "/w" "9") := by
  have free : emptyPlace.node? (Path.names
      (InstallPaths.ofVersion Config.standard "/w" "9").archive) = none := by decide +kernel
  have bare : emptyPlace.node? (Path.names
      (InstallPaths.ofVersion Config.standard "/w" "9").sourceDir) = none := by decide +kernel
  refine ⟨by decide +kernel, ?_, ?_, by decide +kernel⟩
  · rw [Renewable, free]
  · intro n stands
    rw [bare] at stands
    contradiction

theorem usedPlace_leftover :
    Leftover usedPlace fileMode (.ofVersion Config.standard "/w" "9") := by
  have archive : usedPlace.node? (Path.names
      (InstallPaths.ofVersion Config.standard "/w" "9").archive) =
        some (lone fileMode "part".toUTF8) := by
    decide +kernel
  have source : usedPlace.node? (Path.names
      (InstallPaths.ofVersion Config.standard "/w" "9").sourceDir) =
        some (.directory directoryMode) := by
    decide +kernel
  refine ⟨by decide +kernel, ?_, ?_, by decide +kernel⟩
  · rw [Renewable, archive]
    exact ⟨_, rfl⟩
  · intro n stands
    rw [source] at stands
    rw [← Option.some.inj stands]
    rfl

theorem used_place_builds_like_empty :
    let w : Surroundings := { command := fun _ _ t => (.ok ⟨some 0, ""⟩, t) }
    let supply : Supply := fun _ _ => { body := "no archive".toUTF8 }
    let t := Tools.supplied w supply (Archive.extractor (Machine.host w) Machine.unpack)
    let used := run t Config.standard .build "9" "/w" { files := usedPlace }
    let empty := run t Config.standard .build "9" "/w" { files := emptyPlace }
    usedPlace.canonical "/w" = .ok "/w" ∧ emptyPlace.node? ["w", "scafacos-9"] = none ∧
      usedPlace.node? ["w", "scafacos-9"] = some (.directory directoryMode) ∧
      used.1 = empty.1 ∧ ∀ targets, used.1 = .ok targets → used.2 = empty.2 := by
  intro w supply t used empty
  have canonical : usedPlace.canonical "/w" = .ok "/w" := rfl
  have directory : usedPlace.isDirectory "/w" = true := by decide +kernel
  have writable : usedPlace.writable (Path.names "/w") = true := by decide +kernel
  have archive : Path.names (InstallPaths.ofVersion Config.standard "/w" "9").archive =
      ["w", "scafacos-9.tar.gz"] := by decide
  have source : Path.names (InstallPaths.ofVersion Config.standard "/w" "9").sourceDir =
      ["w", "scafacos-9"] := by decide
  refine ⟨canonical, by decide +kernel, by decide +kernel, ?_⟩
  refine run_ignores_leftovers w supply _ ⟨by decide, by decide⟩ canonical directory writable
    usedPlace_leftover emptyPlace_leftover ?_
  intro k notArchive outside
  rw [archive] at notArchive
  rw [source] at outside
  have one := ne_of_outside outside []
  have two := ne_of_outside outside ["old"]
  simp only [List.append_nil, List.cons_append, List.nil_append] at one two
  simp [usedPlace, FileTree.put, Std.ExtTreeMap.getElem?_insert, Ne.symm notArchive, one, two]

/-- A working directory with a source tree that has a directory its owner may not change. -/
def lockedPlace : FileTree :=
  ((emptyPlace.put ["w", "scafacos-9"] (.directory directoryMode)).put ["w", "scafacos-9", "ro"]
    (.directory 0o555)).put ["w", "scafacos-9", "ro", "f"] (lone fileMode .empty)

/-- A working directory with an archive its owner may not write to. -/
def sealedPlace : FileTree :=
  emptyPlace.put ["w", "scafacos-9.tar.gz"] (.file { mode := 0o444 })

def closedPlace : FileTree := FileTree.empty.put ["w"] (.directory 0o555)

/-- The stage a failed build stopped at: a download, the removal of an old tree, or a later one. -/
def stopped : Except Failure LinkTargets → Nat
  | .error { cause := .install (.network _), .. } => 1
  | .error { cause := .io _, .. } => 2
  | _ => 3

/-- Where permissions are missing, left-overs make a difference. -/
theorem leftovers_matter_without_permission :
    let w : Surroundings := { command := fun _ _ t => (.ok ⟨some 0, ""⟩, t) }
    let t := Tools.supplied w (fun _ _ => {}) (Archive.extractor (Machine.host w) Machine.unpack)
    let build (files : FileTree) := (run t Config.standard .build "9" "/w" { files }).1
    Config.standard.Plain "9" ∧
      (emptyPlace.canonical "/w" = .ok "/w" ∧ emptyPlace.isDirectory "/w" = true) ∧
      (emptyPlace.Rooted ∧ emptyPlace.node? ["w", "scafacos-9"] = none) ∧
      (lockedPlace.Rooted ∧
        lockedPlace.node? ["w", "scafacos-9"] = some (.directory directoryMode)) ∧
      (∀ k, ¬(["w", "scafacos-9"] <+: k) → emptyPlace.nodes[k]? = lockedPlace.nodes[k]?) ∧
      build emptyPlace ≠ build lockedPlace ∧
      build emptyPlace ≠ build sealedPlace ∧
      build closedPlace ≠
        build (closedPlace.put ["w", "scafacos-9.tar.gz"] (lone fileMode .empty)) := by
  intro w t build
  have apart : ∀ {one other}, stopped one ≠ stopped other → one ≠ other := by
    rintro one other differ rfl
    exact differ rfl
  refine ⟨⟨by decide, by decide⟩, ⟨rfl, by decide +kernel⟩, ?_, ?_, ?_, ?_, ?_, ?_⟩
  · exact ⟨by decide +kernel, by decide +kernel⟩
  · exact ⟨by decide +kernel, by decide +kernel⟩
  · intro k outside
    have one := ne_of_outside outside []
    have two := ne_of_outside outside ["ro"]
    have three := ne_of_outside outside ["ro", "f"]
    simp only [List.append_nil, List.cons_append, List.nil_append] at one two three
    simp [lockedPlace, FileTree.put, Std.ExtTreeMap.getElem?_insert, one, two, three]
  · exact apart (by decide +kernel)
  · exact apart (by decide +kernel)
  · exact apart (by decide +kernel)

end MolecularTools.Install
