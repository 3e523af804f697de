import MolecularTools.Proofs.Failure
import MolecularTools.Proofs.Install.Leftovers
import MolecularTools.Proofs.Install.Mirror
import MolecularTools.Proofs.Install.Remains

/-! How far a build comes before its programs run: the stages up to the source tree, each told by
what happened at it, and at which of them the build stops. -/
namespace MolecularTools.Install

open FileTree

variable {w : Surroundings} {supply : Supply} {c : Config} {version workDir : String}
  {p : InstallPaths} {m : Machine}

abbrev Tools.onMachine (w : Surroundings) (supply : Supply) : Tools Machine :=
  .answered (Machine.host w) (Machine.request supply) Machine.unpack

/-- The archive was fetched from a good source and an earlier source tree is gone. -/
structure Ready (supply : Supply) (c : Config) (version : String) (p : InstallPaths) (m : Machine)
    (bytes : ByteArray) (fetched seen : Machine) : Prop where
  good : Fetched supply c version p.archive m bytes fetched
  cleared : Cleared p.sourceDir fetched.files seen.files
  same : seen = { fetched.said ("Unpacking " ++ c.library ++ " tarball ...") with files := seen.files }

/-- The archive was extracted and removed, and the source tree is a directory. -/
inductive Placed (w : Surroundings) (supply : Supply) (c : Config) (version : String)
    (p : InstallPaths) (m : Machine) : Machine → Prop
  | placed {bytes : ByteArray} {fetched seen extracted : Machine} {files : FileTree} :
      Ready supply c version p m bytes fetched seen →
      (Tools.onMachine w supply).extractor.isArchive p.archive seen = (.ok true, seen) →
      (Tools.onMachine w supply).extractor.extract p.archive p.workDir seen = (.ok (), extracted) →
      extracted.files.removeFile p.archive = .ok files →
      files.isDirectory p.sourceDir = true →
      Placed w supply c version p m { extracted with files }

theorem fetch_fetched (fetched : Fetched supply c version p.archive m bytes after) :
    fetch (.onMachine w supply) c p version m = (.ok (), after) := by
  obtain ⟨order, passed, good⟩ := fetched
  exact fetch_good w _ order passed good

inductive OfSource : InstallError → Prop
  | network (text : String) : OfSource (.network text)
  | integrity (library version : String) : OfSource (.integrity library version)

theorem Bad.ofSource (bad : Bad supply c version archive url m e after)
    (classified : e.installError? = some k) : OfSource k := by
  cases bad with
  | network =>
    obtain rfl := Option.some.inj classified
    exact .network _
  | unreadable => contradiction
  | mismatch =>
    obtain rfl := Option.some.inj classified
    exact .integrity _ _

/-- A fetch has a good source, or it fails and leaves at most a part of an archive. -/
theorem fetch_cases (w : Surroundings) (supply : Supply) (c : Config) (version : String)
    (p : InstallPaths) (m : Machine) :
    (∃ bytes after, Fetched supply c version p.archive m bytes after) ∨
      ∃ e after, fetch (.onMachine w supply) c p version m = (.error e, after) ∧
        (∀ k, e.installError? = some k → OfSource k) ∧
        (Path.endsInSlash p.archive = false → m.files.isLink p.archive = false →
          Touches p.archive m after) := by
  have announced := announced_touches c version p.archive m
  by_cases none : c.maxAttempts = 0
  · have tries : fetch (.onMachine w supply) c p version m = _ := fetch_tries w _ p m
    rw [none] at tries
    exact .inr ⟨_, _, tries, fun k classified => by contradiction, fun _ _ => announced⟩
  · obtain ⟨failed, url, reached, passed, ended⟩ :=
      fetch_ends w _ p m (Nat.pos_of_ne_zero none)
    rcases ended with ⟨rest, after, order, good, -⟩ | ⟨e, after, -, bad, result⟩
    · exact .inl ⟨_, after, .fetched order passed good⟩
    · refine .inr ⟨e, after, result, fun k => bad.ofSource, fun flat bare => ?_⟩
      exact bad.touches (passed.touches announced flat bare) flat bare

theorem clearing_done (cleared : Cleared source m.files u) :
    Task.whenever ((Machine.host w).pathExists source) ((Machine.host w).removeTree source) m =
      (.ok (), { m with files := u }) := by
  cases cleared with
  | absent missing =>
    rw [Task.whenever, if_neg]
    simpa [Machine.host] using missing
  | removed there removed =>
    rw [Task.whenever, if_pos (by exact there)]
    simp only [Machine.host, Task.within_apply, Machine.stepwise_apply, removed]
    rfl

/-- An earlier source tree is removed, or what failed was no stage of its own. -/
theorem clearing_cases (w : Surroundings) (source : String) (m : Machine) :
    (∃ u, Cleared source m.files u) ∨ ∃ e after,
      Task.whenever ((Machine.host w).pathExists source) ((Machine.host w).removeTree source) m =
        (.error e, after) ∧ e.installError? = none := by
  cases there : m.files.pathExists source with
  | false => exact .inl ⟨_, .absent there⟩
  | true =>
    cases removed : m.files.removeTree source with
    | mk r u =>
      cases r with
      | ok _ => exact .inl ⟨u, .removed there removed⟩
      | error reason =>
        have failed : Task.whenever ((Machine.host w).pathExists source)
            ((Machine.host w).removeTree source) m =
              (.error ((Failure.ofIo reason).within "Failed to remove directory and its contents"),
                { m with files := u }) := by
          rw [Task.whenever, if_pos (by exact there)]
          simp only [Machine.host, Task.within_apply, Machine.stepwise_apply, removed]
          rfl
        exact .inr ⟨_, _, failed, rfl⟩

theorem openAt_same (w : Surroundings) (archive : String) :
    (Archive.openAt (Machine.host w) archive).Preserves id := by
  refine Task.Preserves.bind (Machine.openFile_preserves w archive).within fun s => ?_
  split
  · exact Task.pure_preserves _
  · exact Task.fail_preserves _

theorem openAt_foreign (w : Surroundings) (archive : String) :
    (Archive.openAt (Machine.host w) archive).Foreign := by
  refine (Machine.openFile_foreign w archive).within.bind fun s => ?_
  split
  · exact .pure _
  · exact .fail rfl

/-- Whether a file is an archive is always answered, and nothing is changed by the question. -/
theorem isArchive_answers (w : Surroundings) (supply : Supply) (archive : String) (m : Machine) :
    ∃ b, (Tools.onMachine w supply).extractor.isArchive archive m = (.ok b, m) := by
  cases opened : Archive.openAt (Machine.host w) archive m with
  | mk r after =>
    have same := openAt_same w archive m
    rw [opened] at same
    obtain rfl : after = m := same
    simp only [Tools.answered, Archive.extractor, Task.bind_apply, Task.outcome_apply, opened]
    cases r with
    | ok s => exact ⟨_, rfl⟩
    | error e => exact ⟨_, rfl⟩

/-- Extraction fails for reasons of its own. -/
theorem extract_foreign (w : Surroundings) (supply : Supply) (archive directory : String) :
    ((Tools.onMachine w supply).extractor.extract archive directory).Foreign := by
  refine (Machine.makeDirectories_foreign w directory).bind fun _ => ?_
  exact (openAt_foreign w archive).bind fun s => (Machine.stepwise_foreign _).within

theorem makeWay_uncleared
    (failed : Task.whenever ((Machine.host w).pathExists p.sourceDir)
      ((Machine.host w).removeTree p.sourceDir)
      (m.said ("Unpacking " ++ c.library ++ " tarball ...")) = (.error e, after)) :
    makeWay (.onMachine w supply) c p m = (.error e, after) := by
  have said : (Tools.onMachine w supply).host.say ("Unpacking " ++ c.library ++ " tarball ...") m =
      (.ok (), m.said ("Unpacking " ++ c.library ++ " tarball ...")) := rfl
  rw [makeWay, Task.bind_apply, said]
  simp only [Tools.answered]
  rw [Task.bind_apply, failed]

/-- The way to the archive is clear, and it is looked at. -/
theorem Ready.makeWay (ready : Ready supply c version p m bytes fetched seen) :
    makeWay (.onMachine w supply) c p fetched =
      recognise (Tools.onMachine w supply).extractor p.archive seen := by
  have cleared := clearing_done (w := w)
    (m := fetched.said ("Unpacking " ++ c.library ++ " tarball ...")) ready.cleared
  rw [← ready.same] at cleared
  exact makeWay_cleared w supply _ cleared

theorem Ready.unrecognised (ready : Ready supply c version p m bytes fetched seen)
    (other : (Tools.onMachine w supply).extractor.isArchive p.archive seen = (.ok false, seen)) :
    Install.makeWay (.onMachine w supply) c p fetched =
      (.error (.ofInstall (.archive p.archive)), seen) := by
  rw [ready.makeWay, recognise, Task.bind_apply, other]
  rfl

theorem Ready.recognised (ready : Ready supply c version p m bytes fetched seen)
    (archive : (Tools.onMachine w supply).extractor.isArchive p.archive seen = (.ok true, seen)) :
    Install.makeWay (.onMachine w supply) c p fetched = (.ok (), seen) := by
  rw [ready.makeWay, recognise, Task.bind_apply, archive]
  rfl

theorem dropArchive_foreign (w : Surroundings) (p : InstallPaths) :
    (dropArchive (Machine.host w) p).Foreign :=
  (Machine.removeFile_foreign w p.archive).within.bind fun _ => .require _ rfl

/-- From a recognised archive on, the source tree is placed, or what failed is no stage of its
own. -/
theorem placeContent_cases (ready : Ready supply c version p m bytes fetched seen)
    (archive : (Tools.onMachine w supply).extractor.isArchive p.archive seen = (.ok true, seen)) :
    (∃ placed, Placed w supply c version p m placed) ∨ ∃ e after,
      placeContent (.onMachine w supply) p seen = (.error e, after) ∧ e.installError? = none := by
  have foreign : (placeContent (.onMachine w supply) p).Foreign :=
    (extract_foreign w supply p.archive p.workDir).bind fun _ => dropArchive_foreign w p
  cases ended : placeContent (.onMachine w supply) p seen with
  | mk r after =>
    cases r with
    | error e => exact .inr ⟨e, after, rfl, foreign seen e (congrArg Prod.fst ended)⟩
    | ok _ =>
      have ok : (placeContent (.onMachine w supply) p seen).1 = .ok () := congrArg Prod.fst ended
      obtain ⟨_, extracted, ok⟩ := Task.bind_eq_ok ok
      obtain ⟨_, removed, ok⟩ := Task.bind_eq_ok ok
      have gone := Machine.changing_ok (Task.within_ok.mp (Task.within_ok.mp removed))
      have directory := Task.require_ok.mp ok
      simp only [Tools.answered, Machine.host, Task.within_apply] at directory
      exact .inl ⟨_, .placed ready archive (Prod.ext extracted rfl) gone directory⟩

theorem placed_content
    (extracted : (Tools.onMachine w supply).extractor.extract p.archive p.workDir seen =
      (.ok (), after))
    (removed : after.files.removeFile p.archive = .ok files)
    (directory : files.isDirectory p.sourceDir = true) :
    placeContent (.onMachine w supply) p seen = (.ok (), { after with files }) := by
  have dropped : dropArchive (Machine.host w) p after = (.ok (), { after with files }) := by
    have gone : ((Machine.host w).removeFile p.archive).within
        ("Failed to remove " ++ Text.quoted p.archive) after = (.ok (), { after with files }) := by
      simp only [Machine.host, Task.within_apply, Machine.changing_apply, removed]
      rfl
    rw [dropArchive, Task.bind_apply, gone]
    exact if_pos directory
  rw [placeContent, Task.bind_apply, extracted]
  exact dropped

/-- The stages up to the source tree: which of them failed, or that none did. -/
inductive Progress (w : Surroundings) (supply : Supply) (c : Config) (version : String)
    (p : InstallPaths) (m : Machine) : Prop
  | unfetched {e : Failure} {after : Machine} :
      fetch (.onMachine w supply) c p version m = (.error e, after) →
      (∀ k, e.installError? = some k → OfSource k) →
      (Path.endsInSlash p.archive = false → m.files.isLink p.archive = false →
        Touches p.archive m after) → Progress w supply c version p m
  | stuck {fetched after : Machine} {e : Failure} :
      fetch (.onMachine w supply) c p version m = (.ok (), fetched) →
      Install.unpack (.onMachine w supply) c p fetched = (.error e, after) →
      e.installError? = none → Progress w supply c version p m
  | unrecognised {bytes : ByteArray} {fetched seen : Machine} :
      Ready supply c version p m bytes fetched seen →
      (Tools.onMachine w supply).extractor.isArchive p.archive seen = (.ok false, seen) →
      Progress w supply c version p m
  | placed {placed : Machine} : Placed w supply c version p m placed → Progress w supply c version p m

theorem progress (w : Surroundings) (supply : Supply) (c : Config) (version : String)
    (p : InstallPaths) (m : Machine) : Progress w supply c version p m := by
  rcases fetch_cases w supply c version p m with
    ⟨bytes, fetched, good⟩ | ⟨e, after, failed, kinds, touches⟩
  · have ok := fetch_fetched (w := w) good
    rcases clearing_cases w p.sourceDir
        (fetched.said ("Unpacking " ++ c.library ++ " tarball ...")) with
      ⟨u, cleared⟩ | ⟨e, after, failed, foreign⟩
    · have ready : Ready supply c version p m bytes fetched
          { fetched.said ("Unpacking " ++ c.library ++ " tarball ...") with files := u } :=
        ⟨good, cleared, rfl⟩
      obtain ⟨recognised, answer⟩ := isArchive_answers w supply p.archive
        { fetched.said ("Unpacking " ++ c.library ++ " tarball ...") with files := u }
      cases recognised with
      | false => exact .unrecognised ready answer
      | true =>
        rcases placeContent_cases ready answer with ⟨placed, reached⟩ | ⟨e, after, failed, foreign⟩
        · exact .placed reached
        · have stopped : Install.unpack (.onMachine w supply) c p fetched = (.error e, after) := by
            rw [unpack_eq, Task.bind_apply, ready.recognised answer]
            exact failed
          exact .stuck ok stopped foreign
    · have stopped : Install.unpack (.onMachine w supply) c p fetched = (.error e, after) := by
        rw [unpack_eq, Task.bind_apply, makeWay_uncleared failed]
      exact .stuck ok stopped foreign
  · exact .unfetched failed kinds touches

theorem prepare_placed (placed : Placed w supply c version (.ofVersion c workDir version) m reached) :
    prepare (.onMachine w supply) c version workDir .build m =
      build (Machine.host w) c (.ofVersion c workDir version) reached := by
  obtain ⟨ready, archive, extracted, removed, directory⟩ := placed
  have content := placed_content extracted removed directory
  rw [prepare, Task.bind_apply, fetch_fetched ready.good]
  dsimp only
  rw [Task.bind_apply, unpack_eq, Task.bind_apply, ready.recognised archive]
  dsimp only
  rw [content]
  rfl

theorem prepare_unrecognised
    (ready : Ready supply c version (.ofVersion c workDir version) m bytes fetched seen)
    (other : (Tools.onMachine w supply).extractor.isArchive
      (InstallPaths.ofVersion c workDir version).archive seen = (.ok false, seen)) :
    prepare (.onMachine w supply) c version workDir .build m =
      (.error (.ofInstall (.archive (InstallPaths.ofVersion c workDir version).archive)), seen) := by
  rw [prepare, Task.bind_apply, fetch_fetched ready.good]
  dsimp only
  rw [Task.bind_apply, unpack_eq, Task.bind_apply, ready.unrecognised other]

end MolecularTools.Install
