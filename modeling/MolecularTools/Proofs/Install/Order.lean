import MolecularTools.Archive.Extract
import MolecularTools.Proofs.Host.Course
import MolecularTools.Proofs.Install.Stages

/-! The order of an installation's effects, on any host and whatever becomes of each call. -/
namespace MolecularTools

variable {σ : Type}

namespace Course

open Install

def delivery (archive url : String) : Course σ Unit :=
  (once (.call (.createFile archive))).next <| once (.call (.download url))

/-- One source is tried. What it delivered may still be refused. -/
def attempt (archive url : String) : Course σ Unit := (delivery archive url).next unseen

/-- Sources are tried in order, each once, and a further one only if all before it failed. -/
def attempts (archive : String) : List String → Course σ Unit
  | [] => refused
  | [url] => attempt archive url
  | url :: rest => (attempt archive url).orElse <| unseen.next (attempts archive rest)

def fetching (c : Config) (p : InstallPaths) (version : String) : Course σ Unit :=
  unseen.next <| unseen.next <|
    attempts p.archive ([c.primaryUrl version, c.fallbackUrl version].take (min 2 c.maxAttempts))

def extraction (archive directory : String) : Course σ Unit :=
  made (.extraction archive directory) <| (once (.call (.makeDirectories directory))).next unseen

def makingWay (p : InstallPaths) : Course σ Unit :=
  unseen.next <| (atMostOnce (.call (.removeTree p.sourceDir))).next unseen

def placing (h : Host σ) (p : InstallPaths) : Course σ Unit :=
  (extraction p.archive p.workDir).next <| (once (.call (.removeFile p.archive))).next <|
    checked fun s _ => h.isDirectory p.sourceDir s

def building (h : Host σ) (c : Config) (p : InstallPaths) : Course σ LinkTargets :=
  let headers := Path.join p.installDir "include"
  let libraries := Path.join p.installDir "lib"
  let configure := Path.join p.sourceDir "configure"
  unseen.next <| (plain (.ask h.processors)).bind fun processors =>
    let commands : List Command := [
      ⟨configure, ("--prefix=" ++ p.installDir) :: c.configureArgs, p.sourceDir⟩,
      ⟨c.makeProgram, ["-j" ++ toString (max (c.jobs.getD processors) 1)], p.sourceDir⟩,
      ⟨c.makeProgram, ["install"], p.sourceDir⟩]
    (each (commands.map fun command => .call (.run command))).next <|
      unseen.next <| checked fun s found => found = ⟨headers, libraries⟩ ∧
        h.isDirectory headers s ∧ h.isDirectory libraries s

/-- What is asked for is built, or an installation that has both parts is taken as it is. -/
def preparation (h : Host σ) (c : Config) (version workDir : String) :
    Directive → Course σ LinkTargets
  | .existing root => checked fun s _ => h.isDirectory (Path.join root "include") s ∧
      (h.isDirectory (Path.join root "lib64") s ∨ h.isDirectory (Path.join root "lib") s)
  | .build =>
    let p := InstallPaths.ofVersion c workDir version
    (fetching c p version).next <| ((makingWay p).next <| placing h p).next <| building h c p

def clearing (link : String) : Course σ Unit :=
  (once (.call (.removeLink link))).either <| (once (.call (.removeFile link))).either unseen

/-- Both places are cleared before the first link is made. -/
def linking (directory : String) (names : LinkNames) (targets : LinkTargets) : Course σ Unit :=
  let headers := Path.join directory names.headers
  let libraries := Path.join directory names.libraries
  (clearing headers).next <| (clearing libraries).next <|
    (once (.call (.makeLink targets.headers headers))).next <|
      unseen.next <| (once (.call (.makeLink targets.libraries libraries))).next unseen

def workDirectory (h : Host σ) : Option String → Course σ String
  | some p => (once (.call (.makeDirectories p))).next <| plain (h.canonical p)
  | none => plain h.currentDirectory

end Course

namespace Install

/-- The tools of an installation under watch. Archives are extracted by a host that is watched
itself, with any way of unpacking what they hold. -/
def Tools.watched (h : Host σ) (d : DiscreetDownloader (Log σ) σ)
    (unpack : Archive.Source → String → Task σ Unit) : Tools (Log σ × σ) :=
  let tar := Archive.extractor h.watched fun source directory => (unpack source directory).below
  { host := h.watched
    downloader := fun url out =>
      (d.download url out).watched (.call (.download url)) fun _ => true
    extractor := { tar with
      extract := fun archive directory =>
        (tar.extract archive directory).watched (.extraction archive directory) fun _ => true } }

variable (h : Host σ) (d : DiscreetDownloader (Log σ) σ)
  (unpack : Archive.Source → String → Task σ Unit)

theorem say_keeps (text : String) : (h.watched.say text).Keeps := Task.below_keeps _

theorem warnUnknown_keeps (c : Config) (version : String) :
    (warnUnknown h.watched c version).Keeps := by
  unfold warnUnknown
  split
  · exact Task.below_keeps _
  · exact Task.pure_preserves ()

theorem verifyKnown_keeps (c : Config) (version archive url : String) :
    (verifyKnown h.watched c version archive url).Keeps := by
  unfold verifyKnown
  split
  · rename_i checksum _
    refine Task.Preserves.bind ?_ fun good => ?_
    · exact (Task.Preserves.within (Task.below_keeps _)).bind fun data =>
        (Task.ofExcept_preserves _).bind fun digest => Task.pure_preserves _
    · split
      · exact (say_keeps h _).bind fun _ => Task.fail_preserves _
      · exact Task.pure_preserves ()
  · exact Task.pure_preserves ()

theorem downloadFile_follows (archive url : String) :
    Task.Follows ((fun _ => ()) <$> downloadFile h.watched (Tools.watched h d unpack).downloader
      url archive) (.delivery archive url) := by
  rw [downloadFile, map_bind, Task.within_eq]
  simp only [Host.watched, Tools.watched, Task.recast_watched, Task.map_watched]
  refine .watched_next (h.createFile_keeps archive).recast fun s out made => .watched ?_
  exact (d.keeps url out (Host.writer_keeps (Task.recast_ok.mp made))).map _

theorem fetchFrom_follows (c : Config) (version archive url : String) :
    (fetchFrom (.watched h d unpack) c version archive url).Follows (.attempt archive url) := by
  rw [fetchFrom_eq]
  refine .of_map ?_ fun _ _ _ => .keeps (verifyKnown_keeps h c version archive url)
  rw [Task.map_recast]
  exact .recast (downloadFile_follows h d unpack archive url)

theorem tryEach_follows (operation : String) {attempt : String → Task (Log σ × σ) Unit}
    (follows : ∀ url, (attempt url).Follows (.attempt archive url)) (urls : List String) :
    (Fallback.tryEach h.watched.warn operation attempt urls).Follows
      (.attempts archive urls) := by
  induction urls with
  | nil => exact .fail _
  | cons url urls ih =>
    cases urls with
    | nil => exact follows url
    | cons next rest =>
      rw [Fallback.tryEach, Course.attempts]
      · exact .orElse (follows url) fun e => .keeps_next (Task.below_keeps _) fun _ => ih
      · exact List.cons_ne_nil next rest

theorem fetch_follows (c : Config) (p : InstallPaths) (version : String) :
    (fetch (.watched h d unpack) c p version).Follows (.fetching c p version) := by
  rw [fetch_eq]
  refine .keeps_next (say_keeps h _) fun _ => .keeps_next (warnUnknown_keeps h c version) fun _ => ?_
  exact tryEach_follows h _ (fetchFrom_follows h d unpack c version p.archive) _

theorem openAt_keeps (archive : String) : (Archive.openAt h.watched archive).Keeps := by
  unfold Archive.openAt
  refine Task.Preserves.bind (Task.below_keeps _).within fun s => ?_
  split
  · exact Task.pure_preserves _
  · exact Task.fail_preserves _

theorem recognise_keeps (archive : String) :
    (recognise (Tools.watched h d unpack).extractor archive).Keeps := by
  unfold recognise
  refine Task.Preserves.bind ?_ fun recognised => ?_
  · refine Task.Preserves.bind (openAt_keeps h archive).outcome fun opened => ?_
    cases opened with
    | ok source => exact Task.pure_preserves _
    | error e => exact Task.pure_preserves _
  · split
    · exact Task.fail_preserves _
    · exact Task.pure_preserves ()

theorem extract_follows (archive directory : String) :
    ((Tools.watched h d unpack).extractor.extract archive directory).Follows
      (.extraction archive directory) := by
  refine .made <| .next (.watched (Task.below_keeps _)) <| .keeps ?_
  exact (openAt_keeps h archive).bind fun _ => (Task.below_keeps _).within

theorem makeWay_follows (c : Config) (p : InstallPaths) :
    (makeWay (.watched h d unpack) c p).Follows (.makingWay p) := by
  refine .keeps_next (say_keeps h _) fun _ => .next ?_ (.keeps (recognise_keeps h d unpack _))
  exact .whenever (.watched (Task.below_keeps _)) _

theorem dropArchive_follows (p : InstallPaths) :
    (dropArchive h.watched p).Follows ((Course.once (.call (.removeFile p.archive))).next <|
      .checked fun s _ => h.isDirectory p.sourceDir s) := by
  refine .next (.within (.watched (Task.below_keeps _))) ?_
  refine .checked (Task.require_preserves _ _) fun s _ passed => ?_
  exact (Task.require_ok (b := h.watched.isDirectory p.sourceDir)).mp passed

theorem placeContent_follows (p : InstallPaths) :
    (placeContent (.watched h d unpack) p).Follows (.placing h p) :=
  .next (extract_follows h d unpack _ _) (dropArchive_follows h p)

theorem runSteps_follows (directory before : String) (steps : List BuildStep) :
    Task.Follows ((fun _ => ()) <$> runSteps h.watched directory before steps)
      (.each (steps.map fun step => .call (.run ⟨step.program, step.args, directory⟩))) := by
  induction steps generalizing before with
  | nil => exact .pure ()
  | cons step steps ih =>
    rw [runSteps, map_bind]
    simp only [apply_ite]
    exact .wanted_next (Task.below_keeps _) fun result => ih _

theorem checkBuilt_follows (output : String) (targets : LinkTargets) :
    (checkBuilt h.watched output targets).Follows (.checked fun s found => found = targets ∧
        h.isDirectory targets.headers s ∧ h.isDirectory targets.libraries s) := by
  refine .checked ?_ fun s found passed => ?_
  · exact (Task.require_preserves _ _).bind fun _ => (Task.require_preserves _ _).bind fun _ =>
      Task.pure_preserves _
  · obtain ⟨_, headers, passed⟩ := Task.bind_eq_ok passed
    obtain ⟨_, libraries, passed⟩ := Task.bind_eq_ok passed
    rw [Task.require_state] at libraries
    have built : targets = found := Except.ok.inj passed
    have headers := Task.require_ok.mp headers
    have libraries := Task.require_ok.mp libraries
    exact ⟨built.symm, headers, libraries⟩

theorem build_follows (c : Config) (p : InstallPaths) :
    (build h.watched c p).Follows (.building h c p) := by
  rw [build_eq]
  refine .keeps_next (say_keeps h _) fun _ => .bind (.below (.ask h.processors)) fun processors => ?_
  refine .of_map (runSteps_follows h _ _ _) fun _ output _ => .keeps_next (say_keeps h _) fun _ => ?_
  exact checkBuilt_follows h output _

theorem removeStale_follows (link : String) :
    (removeStale h.watched link).Follows (.clearing link) := by
  intro s
  rw [removeStale]
  split
  · obtain ⟨new, added, course⟩ :=
      Task.Follows.watched (e := .call (.removeLink link)) (Task.below_keeps (h.removeLink link)) s
    exact ⟨new, added, .inl course⟩
  split
  · obtain ⟨new, added, course⟩ :=
      Task.Follows.watched (e := .call (.removeFile link)) (Task.below_keeps (h.removeFile link)) s
    exact ⟨new, added, .inr (.inl course)⟩
  split
  · exact ⟨[], (List.append_nil s.1).symm, .inr (.inr ⟨rfl, fun _ _ => trivial⟩)⟩
  · exact ⟨[], (List.append_nil s.1).symm, .inr (.inr ⟨rfl, fun _ _ => trivial⟩)⟩

theorem warnDangling_keeps (link target : String) : (warnDangling h.watched link target).Keeps := by
  refine Task.Preserves.bind (Task.ask_preserves _) fun leads => ?_
  split
  · exact Task.below_keeps _
  · exact Task.pure_preserves ()

theorem relink_follows (directory : String) (names : LinkNames) (targets : LinkTargets) :
    (relink h.watched directory names targets).Follows (.linking directory names targets) := by
  unfold relink
  simp only [makeLinkTo_eq, bind_assoc]
  refine .next (removeStale_follows h _) <| .next (removeStale_follows h _) ?_
  refine .next (.within (.watched (Task.below_keeps _))) <|
    .keeps_next (warnDangling_keeps h _ _) fun _ => ?_
  exact .next (.within (.watched (Task.below_keeps _))) (.keeps (warnDangling_keeps h _ _))

theorem resolveExisting_follows (c : Config) (root : String) :
    (resolveExisting h.watched c root).Follows
      (.checked fun s _ => h.isDirectory (Path.join root "include") s ∧
        (h.isDirectory (Path.join root "lib64") s ∨ h.isDirectory (Path.join root "lib") s)) := by
  rw [resolveExisting_eq]
  refine .checked ?_ fun s found passed => ?_
  · exact (Task.require_preserves _ _).bind fun _ => (Task.require_preserves _ _).bind fun _ =>
      (Task.below_keeps _).bind fun _ => Task.ask_preserves _
  · obtain ⟨_, headers, passed⟩ := Task.bind_eq_ok passed
    obtain ⟨_, libraries, -⟩ := Task.bind_eq_ok passed
    rw [Task.require_state] at libraries
    have headers := Task.require_ok.mp headers
    have libraries := Task.require_ok.mp libraries
    exact ⟨headers, Bool.or_eq_true_iff.mp libraries⟩

theorem prepare_follows (c : Config) (version workDir : String) (directive : Directive) :
    (prepare (.watched h d unpack) c version workDir directive).Follows
      (.preparation h c version workDir directive) := by
  cases directive with
  | existing root => exact resolveExisting_follows h c root
  | build =>
    rw [prepare, Course.preparation]
    refine .next (fetch_follows h d unpack c _ version) <| .next ?_ (build_follows h c _)
    rw [unpack_eq]
    exact .next (makeWay_follows h d unpack c _) (placeContent_follows h d unpack _)

end Install

end MolecularTools
