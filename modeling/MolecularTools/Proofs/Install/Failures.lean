import MolecularTools.Proofs.Install.Integrity
import MolecularTools.Proofs.Install.Progress
import MolecularTools.Proofs.Recipe

/-! The error of a failed build tells at which stage it stopped, and what that stage left. -/
namespace MolecularTools.Install

open FileTree

variable {w : Surroundings} {supply : Supply} {c : Config} {version workDir : String}
  {p : InstallPaths} {m : Machine}

def buildSteps (w : Surroundings) (c : Config) (p : InstallPaths) : List BuildStep :=
  autotoolsSteps p.sourceDir p.installDir c.configureArgs c.makeProgram (c.jobs.getD w.processors)

def Built (w : Surroundings) (c : Config) (p : InstallPaths) (m : Machine) (output : String)
    (after : Machine) : Prop :=
  Ran (Machine.host w) p.sourceDir (buildSteps w c p) "" (m.said ("Building " ++ c.library ++ " ..."))
    output after

/-- A build failed: at a step that exited without success, or because a directory that the links
would lead to is missing although all steps succeeded. -/
inductive BuildFails (w : Surroundings) (c : Config) (p : InstallPaths) (m : Machine) :
    InstallError → Prop
  | step : Broke (Machine.host w) p.sourceDir (buildSteps w c p)
        (m.said ("Building " ++ c.library ++ " ...")) name output after →
      BuildFails w c p m (.build name output)
  | headers : Built w c p m output after →
      after.files.isDirectory (Path.join p.installDir "include") = false →
      BuildFails w c p m (.build "make install" (String.ofList (Text.trimEnd output.toList) ++ "\n" ++
        "include" ++ " directory " ++ Path.join p.installDir "include" ++ " was not created"))
  | libraries : Built w c p m output after →
      after.files.isDirectory (Path.join p.installDir "include") = true →
      after.files.isDirectory (Path.join p.installDir "lib") = false →
      BuildFails w c p m (.build "make install" (String.ofList (Text.trimEnd output.toList) ++ "\n" ++
        "lib" ++ " directory " ++ Path.join p.installDir "lib" ++ " was not created"))

/-! ### Failures of the links -/

theorem removeStale_foreign (w : Surroundings) (q : String) :
    (removeStale (Machine.host w) q).Foreign := by
  intro m e failed
  rw [removeStale] at failed
  split at failed
  · exact Machine.removeLink_foreign w q m e failed
  split at failed
  · exact Machine.removeFile_foreign w q m e failed
  split at failed
  · obtain rfl := Except.error.inj failed
    rfl
  · contradiction

theorem makeLinkTo_foreign (w : Surroundings) (q target : String) :
    (makeLinkTo (Machine.host w) q target).Foreign := by
  rw [makeLinkTo_eq]
  refine (Machine.makeLink_foreign w q target).within.bind fun _ => .bind (.ask _) fun leads => ?_
  split
  · exact Machine.warn_foreign w _
  · exact .pure ()

/-- The phase of the links fails for reasons of its own. -/
theorem relink_foreign (w : Surroundings) (directory : String) (names : LinkNames)
    (targets : LinkTargets) : (relink (Machine.host w) directory names targets).Foreign := by
  refine (removeStale_foreign w _).bind fun _ => (removeStale_foreign w _).bind fun _ => ?_
  exact (makeLinkTo_foreign w _ _).bind fun _ => makeLinkTo_foreign w _ _

/-- An installation error comes from what is done before the links. -/
theorem run_classified {d : Directive}
    (failed : (run (.onMachine w supply) c d version workDir m).1 = .error f)
    (classified : f.installError? = some k) :
    (prepare (.onMachine w supply) c version workDir d m).1 = .error f ∧
      (run (.onMachine w supply) c d version workDir m).2 =
        (prepare (.onMachine w supply) c version workDir d m).2 := by
  rw [run_eq] at failed ⊢
  cases ended : (prepare (.onMachine w supply) c version workDir d m).1 with
  | error e =>
    rw [Task.bind_error ended] at failed ⊢
    exact ⟨failed, rfl⟩
  | ok targets =>
    rw [Task.bind_ok ended] at failed
    have foreign : (do
        (Machine.host w).say ("Creating links to " ++ c.library ++ " include and lib files")
        relink (Machine.host w) workDir c.linkNames targets
        return targets : Task Machine LinkTargets).Foreign :=
      (Machine.say_foreign w _).bind fun _ => (relink_foreign w _ _ _).bind fun _ => .pure _
    rw [foreign _ f failed] at classified
    contradiction

/-! ### The build -/

theorem build_apply (w : Surroundings) (c : Config) (p : InstallPaths) (m : Machine) :
    build (Machine.host w) c p m = (do
      let output ← runBuild (Machine.host w) (buildSteps w c p) p.sourceDir
      (Machine.host w).say output
      checkBuilt (Machine.host w) output (.ofBuild p.installDir) : Task Machine LinkTargets)
        (m.said ("Building " ++ c.library ++ " ...")) := by
  rw [build_eq]
  rfl

/-- Once all steps succeeded, only the check of the two directories is left. -/
theorem build_built (built : Built w c p m output after) : build (Machine.host w) c p m =
    checkBuilt (Machine.host w) output (.ofBuild p.installDir) (after.said output) := by
  rw [build_apply, Task.bind_apply, runBuild_ran built]
  rfl

theorem build_broke (broke : Broke (Machine.host w) p.sourceDir (buildSteps w c p)
      (m.said ("Building " ++ c.library ++ " ...")) name output after) :
    build (Machine.host w) c p m = (.error (.ofInstall (.build name output)), after) := by
  rw [build_apply, Task.bind_apply, runBuild_broke broke]

theorem checkBuilt_apply (h : Host σ) (output : String) (targets : LinkTargets) (s : σ) :
    checkBuilt h output targets s =
      (if h.isDirectory targets.headers s then
        if h.isDirectory targets.libraries s then .ok targets
        else .error (.ofInstall (missing output "lib" targets.libraries))
      else .error (.ofInstall (missing output "include" targets.headers)), s) := by
  rw [checkBuilt, Task.bind_apply, Task.require]
  cases headers : h.isDirectory targets.headers s with
  | false => rfl
  | true =>
    cases libraries : h.isDirectory targets.libraries s with
    | false => simp [Task.bind_apply, Task.require, libraries]
    | true => simp [Task.bind_apply, Task.require, libraries]

theorem build_fails (fails : BuildFails w c p m k) :
    (build (Machine.host w) c p m).1 = .error (.ofInstall k) := by
  cases fails with
  | step broke => rw [build_broke broke]
  | headers built absent =>
    rw [build_built built, checkBuilt_apply]
    exact if_neg (Bool.eq_false_iff.mp absent)
  | libraries built headers absent =>
    rw [build_built built, checkBuilt_apply]
    exact (if_pos headers).trans (if_neg (Bool.eq_false_iff.mp absent))

theorem BuildFails.of_error (fails : BuildFails w c p m j)
    (failed : (build (Machine.host w) c p m).1 = .error f) (classified : f.installError? = some k) :
    BuildFails w c p m k := by
  rw [build_fails fails] at failed
  obtain rfl := Except.error.inj failed
  obtain rfl := Option.some.inj classified
  exact fails

/-- A build reports an installation error only where a step or the check of the directories
failed, if programs that do not start report none. -/
theorem build_classified
    (starts : ∀ n command t e, (w.command n command t).1 = .error e → e.installError? = none)
    (failed : (build (Machine.host w) c p m).1 = .error f) (classified : f.installError? = some k) :
    BuildFails w c p m k := by
  rcases runBuild_cases (Machine.host w) (buildSteps w c p) p.sourceDir
      (m.said ("Building " ++ c.library ++ " ...")) with
    ⟨output, after, built⟩ | ⟨name, output, after, broke⟩ | ⟨command, middle, e, after, run, unstarted⟩
  · cases headers : after.files.isDirectory (LinkTargets.ofBuild p.installDir).headers with
    | false => exact (BuildFails.headers built headers).of_error failed classified
    | true =>
      cases libraries : after.files.isDirectory (LinkTargets.ofBuild p.installDir).libraries with
      | false => exact (BuildFails.libraries built headers libraries).of_error failed classified
      | true =>
        rw [build_built built, checkBuilt_apply] at failed
        have both := (if_pos headers).symm.trans failed
        rw [if_pos (by exact libraries)] at both
        contradiction
  · exact (BuildFails.step broke).of_error failed classified
  · rw [build_apply, Task.bind_apply, unstarted] at failed
    obtain rfl := Except.error.inj failed
    have foreign := starts middle.commandsRun command middle.files e (congrArg Prod.fst run)
    rw [foreign] at classified
    contradiction

/-! ### Effects on the links -/

/-- Makes no link and removes none, and removes no file but the archive. -/
def SparesLinks (archive : String) : Effect → Prop
  | .call (.makeLink _ _) => False
  | .call (.removeLink _) => False
  | .call (.removeFile q) => q = archive
  | _ => True

/-- What is done before the links leaves them alone. -/
theorem prepare_spares (h : Host σ) (d : DiscreetDownloader (Log σ) σ)
    (unpack : Archive.Source → String → Task σ Unit) (c : Config) (version workDir : String) :
    (prepare (.watched h d unpack) c version workDir .build).Enters
      (SparesLinks (InstallPaths.ofVersion c workDir version).archive) := by
  refine (prepare_follows h d unpack c version workDir .build).enters ?_
  refine .next ?_ <| .next (.next ?_ ?_) (building_only (fun _ => trivial) h c _)
  · exact .next (.checked _) <| .next (.checked _) (Course.attempts_only trivial (fun _ => trivial) _)
  · exact .next (.checked _) <| .next (.either (.once trivial) (.done _)) (.checked _)
  · refine .next (.made trivial (.next (.once trivial) (.checked _))) ?_
    exact .next (.once rfl) (.checked _)

/-- A run that reports an installation error has not come to the links. -/
theorem run_spares_links {d : Directive} (build : d = .build)
    (failed : (run (.onMachine w supply) c d version workDir m).1 = .error f)
    (classified : f.installError? = some k) :
    ∀ entry ∈ (run (Tools.followed (Machine.host w) (Machine.request supply) Machine.unpack) c d
        version workDir ([], m)).2.1,
      SparesLinks (InstallPaths.ofVersion c workDir version).archive entry.effect := by
  subst build
  obtain ⟨prepared, -⟩ := run_classified failed classified
  rw [← (prepare_mirrors (Machine.host w) (Machine.request supply) Machine.unpack c version workDir
    .build).result ([], m)] at prepared
  obtain ⟨new, added, spares⟩ := prepare_spares (Machine.host w)
    (.ofDeliveries (Machine.request supply)) Machine.unpack c version workDir ([], m)
  rw [List.nil_append] at added
  rw [run_eq, Task.bind_error prepared]
  intro entry entered
  exact spares entry (added ▸ entered)

/-! ### The kinds of errors -/

theorem BuildFails.kind (fails : BuildFails w c p m k) : ∃ step text, k = .build step text := by
  cases fails with
  | step => exact ⟨_, _, rfl⟩
  | headers => exact ⟨_, _, rfl⟩
  | libraries => exact ⟨_, _, rfl⟩

/-- The stages at which an installation error can stop a build, one for each kind of error. -/
inductive StoppedAt (w : Surroundings) (supply : Supply) (c : Config) (version : String)
    (p : InstallPaths) (m after : Machine) : InstallError → Prop
  | source : (Path.endsInSlash p.archive = false → m.files.isLink p.archive = false →
        Touches p.archive m after) →
      OfSource k → StoppedAt w supply c version p m after k
  | archive {bytes : ByteArray} {fetched : Machine} :
      Ready supply c version p m bytes fetched after →
      (Tools.onMachine w supply).extractor.isArchive p.archive after = (.ok false, after) →
      StoppedAt w supply c version p m after (.archive p.archive)
  | build {placed : Machine} : Placed w supply c version p m placed → BuildFails w c p placed k →
      StoppedAt w supply c version p m after k

theorem run_stopped
    (starts : ∀ n command t e, (w.command n command t).1 = .error e → e.installError? = none)
    (failed : (run (.onMachine w supply) c .build version workDir m).1 = .error f)
    (classified : f.installError? = some k) :
    StoppedAt w supply c version (.ofVersion c workDir version) m
      (run (.onMachine w supply) c .build version workDir m).2 k := by
  obtain ⟨failed, same⟩ := run_classified failed classified
  rw [same]
  cases progress w supply c version (.ofVersion c workDir version) m with
  | @unfetched e after ended kinds touches =>
    have stops : prepare (.onMachine w supply) c version workDir .build m = (.error e, after) := by
      rw [prepare, Task.bind_apply, ended]
    rw [stops] at failed ⊢
    obtain rfl := Except.error.inj failed
    exact .source touches (kinds k classified)
  | @stuck _ after e fetched ended foreign =>
    have stops : prepare (.onMachine w supply) c version workDir .build m = (.error e, after) := by
      rw [prepare, Task.bind_apply, fetched]
      dsimp only
      rw [Task.bind_apply, ended]
    rw [stops] at failed
    obtain rfl := Except.error.inj failed
    rw [foreign] at classified
    contradiction
  | unrecognised ready other =>
    rw [prepare_unrecognised ready other] at failed ⊢
    obtain rfl := Except.error.inj failed
    obtain rfl := Option.some.inj classified
    exact .archive ready other
  | placed placed =>
    rw [prepare_placed placed] at failed
    exact .build placed (build_classified starts failed classified)

namespace StoppedAt

variable {after : Machine}

/-- At a source, nothing was changed but the file of the archive. -/
theorem touches (stopped : StoppedAt w supply c version p m after k)
    (source : OfSource k) (flat : Path.endsInSlash p.archive = false)
    (bare : m.files.isLink p.archive = false) : Touches p.archive m after := by
  cases stopped with
  | source touches => exact touches flat bare
  | archive => cases source
  | build _ fails =>
    obtain ⟨_, _, rfl⟩ := fails.kind
    cases source

theorem unrecognised (stopped : StoppedAt w supply c version p m after (.archive file)) :
    file = p.archive ∧ ∃ bytes fetched, Ready supply c version p m bytes fetched after ∧
      (Tools.onMachine w supply).extractor.isArchive p.archive after = (.ok false, after) := by
  cases stopped with
  | source _ ofSource => cases ofSource
  | archive ready other => exact ⟨rfl, _, _, ready, other⟩
  | build _ fails =>
    obtain ⟨_, _, other⟩ := fails.kind
    contradiction

theorem building (stopped : StoppedAt w supply c version p m after (.build step text)) :
    ∃ placed, Placed w supply c version p m placed ∧ BuildFails w c p placed (.build step text) := by
  cases stopped with
  | source _ ofSource => cases ofSource
  | build placed fails => exact ⟨_, placed, fails⟩

end StoppedAt

/-- What is left when the archive was not recognised. -/
structure ArchiveLeft (supply : Supply) (c : Config) (version : String) (p : InstallPaths)
    (m after : Machine) : Prop where
  /-- No program was run. -/
  commands : after.commandsRun = m.commandsRun
  /-- What was fetched stands where it was put. Its path still names it if the working directory
  is one still, as it is if it was named by its canonical path. -/
  file : ∃ bytes fetched l f, Fetched supply c version p.archive m bytes fetched ∧
    Renewed p.archive m.files l f fetched.files ∧ f.bytes = bytes ∧
    after.files.node? l = some (.file f) ∧
    (p.workDir = "" ∨ after.files.isDirectory p.workDir = true ∨
        m.files.Rooted ∧ m.files.canonical p.workDir = .ok p.workDir →
      after.files.lookup p.archive = .ok (l, .file f))

theorem Ready.left (plain : c.Plain version)
    (ready : Ready supply c version (.ofVersion c workDir version) m bytes fetched seen)
    (bare : m.files.isLink (InstallPaths.ofVersion c workDir version).archive = false) :
    ArchiveLeft supply c version (.ofVersion c workDir version) m seen := by
  have flat : Path.endsInSlash (InstallPaths.ofVersion c workDir version).archive = false :=
    Path.endsInSlash_join workDir plain.archiveName.toPlain
  have apart := c.archiveName_ne_sourceDirName version
  obtain ⟨l, f, renewed, content, commands⟩ := ready.good.renewed flat bare
  have entry := renewed.entry flat
  obtain ⟨d, rfl, beside⟩ := beside_of_entry plain.archiveName entry
  have passable := (walk_ok_iff.mp entry).1
  refine ⟨?_, bytes, fetched, _, f, ready.good, renewed, content, ?_, ?_⟩
  · rw [ready.same]
    exact commands
  · exact beside.cleared apart plain.sourceDirName ready.cleared
  · rintro (root | directory | ⟨rooted, canonical⟩)
    · obtain rfl : workDir = "" := root
      exact beside.named apart plain.archiveName plain.sourceDirName ready.cleared passable
        (.empty seen.files)
    · obtain ⟨k, goes⟩ := GoesTo.of_isDirectory directory
      exact beside.named apart plain.archiveName plain.sourceDirName ready.cleared passable goes
    · obtain ⟨reached, whole⟩ :=
        reached_of_canonical_base rooted canonical renewed.rewritten beside.goes
      exact beside.named_canonical apart plain.archiveName plain.sourceDirName ready.cleared reached
        whole entry

theorem run_of_prepare (failed : (prepare (.onMachine w supply) c version workDir d m).1 = .error f) :
    (run (.onMachine w supply) c d version workDir m).1 = .error f := by
  rw [run_eq, Task.bind_error failed]

theorem Ready.reported
    (ready : Ready supply c version (.ofVersion c workDir version) m bytes fetched seen)
    (other : ((Tools.onMachine w supply).extractor.isArchive
      (InstallPaths.ofVersion c workDir version).archive seen).1 = .ok false) :
    (run (.onMachine w supply) c .build version workDir m).1 =
      .error (.ofInstall (.archive (InstallPaths.ofVersion c workDir version).archive)) := by
  obtain ⟨b, answer⟩ := isArchive_answers w supply
    (InstallPaths.ofVersion c workDir version).archive seen
  rw [answer] at other
  obtain rfl := Except.ok.inj other
  apply run_of_prepare
  rw [prepare_unrecognised ready answer]

theorem BuildFails.reported
    (placed : Placed w supply c version (.ofVersion c workDir version) m reached)
    (fails : BuildFails w c (.ofVersion c workDir version) reached k) :
    (run (.onMachine w supply) c .build version workDir m).1 = .error (.ofInstall k) := by
  apply run_of_prepare
  rw [prepare_placed placed]
  exact build_fails fails

/-- The error of a failed build tells at which stage it stopped and what that left. A network or
integrity error leaves nothing changed but the file of the archive. An archive that was not
recognised still stands where it was put, but a working directory whose path leads through the
source tree is no longer found by that path. A build error names the first step that exited
without success, or the installation if it left a directory out. No link was touched. -/
theorem error_tells_stage (plain : c.Plain version)
    (bare : m.files.isLink (InstallPaths.ofVersion c workDir version).archive = false)
    (starts : ∀ n command t e, (w.command n command t).1 = .error e → e.installError? = none)
    (failed : (run (.onMachine w supply) c .build version workDir m).1 = .error f) :
    let t := Tools.onMachine w supply
    let p := InstallPaths.ofVersion c workDir version
    let after := (run t c .build version workDir m).2
    ((∃ text, f.installError? = some (.network text)) ∨
        (∃ library version, f.installError? = some (.integrity library version)) →
      Touches p.archive m after) ∧
    ((∃ file, f.installError? = some (.archive file)) ↔ ∃ bytes fetched seen,
      Ready supply c version p m bytes fetched seen ∧
        (t.extractor.isArchive p.archive seen).1 = .ok false) ∧
    (∀ file, f.installError? = some (.archive file) →
      file = p.archive ∧ ArchiveLeft supply c version p m after) ∧
    (∀ step text, f.installError? = some (.build step text) ↔ ∃ placed,
      Placed w supply c version p m placed ∧ BuildFails w c p placed (.build step text)) ∧
    (f.installError? ≠ none → ∀ entry ∈
      (run (.followed (Machine.host w) (Machine.request supply) Machine.unpack) c .build version
        workDir ([], m)).2.1, SparesLinks p.archive entry.effect) := by
  intro t p after
  have stopped : ∀ {k}, f.installError? = some k → StoppedAt w supply c version p m after k :=
    fun told => run_stopped starts failed told
  have flat : Path.endsInSlash p.archive = false :=
    Path.endsInSlash_join workDir plain.archiveName.toPlain
  refine ⟨?_, ⟨?_, ?_⟩, ?_, fun step text => ⟨fun told => (stopped told).building, ?_⟩, ?_⟩
  · rintro (⟨text, told⟩ | ⟨library, version, told⟩)
    · exact (stopped told).touches (.network text) flat bare
    · exact (stopped told).touches (.integrity library version) flat bare
  · rintro ⟨file, told⟩
    obtain ⟨-, bytes, fetched, ready, other⟩ := (stopped told).unrecognised
    exact ⟨bytes, fetched, after, ready, congrArg Prod.fst other⟩
  · rintro ⟨bytes, fetched, seen, ready, other⟩
    obtain rfl := Except.error.inj (failed.symm.trans (ready.reported other))
    exact ⟨_, rfl⟩
  · intro file told
    obtain ⟨same, bytes, fetched, ready, -⟩ := (stopped told).unrecognised
    exact ⟨same, ready.left plain bare⟩
  · rintro ⟨reached, placed, fails⟩
    obtain rfl := Except.error.inj (failed.symm.trans (fails.reported placed))
    rfl
  · intro some
    obtain ⟨k, told⟩ := Option.ne_none_iff_exists'.mp some
    exact run_spares_links rfl failed told

def treePlace : FileTree := emptyPlace.put ["w", "scafacos-9"] (.directory directoryMode)

theorem unrecognised_archive_stays :
    let w : Surroundings := { command := fun _ => Machine.shell }
    let supply : Supply := fun _ _ => { body := "no archive".toUTF8 }
    let p := InstallPaths.ofVersion Config.standard "/w" "9"
    let m : Machine := { files := treePlace }
    let ended := run (Tools.onMachine w supply) Config.standard .build "9" "/w" m
    Config.standard.Plain "9" ∧ m.files.isLink p.archive = false ∧
      ∃ f, ended.1 = .error f ∧ f.installError? = some (.archive p.archive) ∧
        ArchiveLeft supply Config.standard "9" p m ended.2 := by
  intro w supply p m ended
  have plain : Config.standard.Plain "9" := ⟨by decide, by decide⟩
  have bare : m.files.isLink p.archive = false := by decide +kernel
  have starts : ∀ n command t e, (w.command n command t).1 = .error e → e.installError? = none :=
    fun _ _ _ _ => Machine.shell_foreign
  have told : Failure.reported? ended.1 = some (.archive p.archive) := by decide +kernel
  obtain ⟨f, failed, told⟩ := Failure.of_reported told
  have stage := @error_tells_stage w supply Config.standard "9" "/w" m f plain bare starts failed
  exact ⟨plain, bare, f, failed, told, (stage.2.2.1 _ told).2⟩

/-- Where the way to the archive leads through an earlier source tree, its path is lost with the
tree: afterwards the file is found by another path only. -/
theorem archive_lost_with_source_tree :
    let w : Surroundings := { command := fun _ => Machine.shell }
    let supply : Supply := fun _ _ => { body := "no archive".toUTF8 }
    let p := InstallPaths.ofVersion Config.standard "/w/scafacos-9/.." "9"
    let m : Machine := { files := treePlace }
    let ended := run (Tools.onMachine w supply) Config.standard .build "9" "/w/scafacos-9/.." m
    Config.standard.Plain "9" ∧ m.files.isLink p.archive = false ∧
      Failure.reported? ended.1 = some (.archive p.archive) ∧
      ended.2.files.pathExists p.archive = false ∧
      ended.2.files.isFile "/w/scafacos-9.tar.gz" = true := by
  intro w supply p m ended
  refine ⟨⟨by decide, by decide⟩, ?_, ?_, ?_, ?_⟩
  · decide +kernel
  · decide +kernel
  · decide +kernel
  · decide +kernel

end MolecularTools.Install
