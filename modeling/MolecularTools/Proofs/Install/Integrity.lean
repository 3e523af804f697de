import MolecularTools.Machine.Unpack
import MolecularTools.Proofs.Checksum
import MolecularTools.Proofs.Delivery
import MolecularTools.Proofs.Fallback
import MolecularTools.Proofs.Files.Removal
import MolecularTools.Proofs.Install.Order

/-! Nothing is extracted but what was verified. -/
namespace MolecularTools

def Effect.Prepares : Effect → Prop
  | .call (.run _) => False
  | .extraction _ _ => False
  | _ => True

instance : DecidablePred Effect.Prepares
  | .extraction _ _ => .isFalse id
  | .call (.run _) => .isFalse id
  | .call (.makeDirectories _) => .isTrue trivial
  | .call (.createFile _) => .isTrue trivial
  | .call (.removeFile _) => .isTrue trivial
  | .call (.removeTree _) => .isTrue trivial
  | .call (.removeLink _) => .isTrue trivial
  | .call (.makeLink _ _) => .isTrue trivial
  | .call (.download _) => .isTrue trivial

def Effect.ExtractsNothing : Effect → Prop
  | .extraction _ _ => False
  | _ => True

/-- Attempts make the archive and ask for it, and do nothing else. -/
theorem Course.attempts_only {kind : Effect → Prop} (makes : kind (.call (.createFile archive)))
    (asks : ∀ url, kind (.call (.download url))) (urls : List String) :
    (Course.attempts archive urls : Course σ Unit).Only kind := by
  have attempt (url : String) : (Course.attempt archive url : Course σ Unit).Only kind :=
    .next (.next (.once makes) (.once (asks url))) (.checked _)
  induction urls with
  | nil => exact .refused
  | cons url urls ih =>
    cases urls with
    | nil => exact attempt url
    | cons next rest => exact .orElse (attempt url) (.next (.checked _) ih)

namespace Install

variable (w : Surroundings) (d : DiscreetDownloader (Log Machine) Machine)
  (unpack : Archive.Source → String → Task Machine Unit)

abbrev filesOf (s : Log Machine × Machine) : FileTree := s.2.files

theorem verifyKnown_verified {c : Config} {s : Log Machine × Machine}
    (known : c.checksums.lookup version = some checksum)
    (passed : (verifyKnown (Machine.host w).watched c version archive url s).1 = .ok ()) :
    checksum.Verified
      (filesOf (verifyKnown (Machine.host w).watched c version archive url s).2) archive := by
  simp only [verifyKnown, known, verify] at passed ⊢
  have below : Checksum.verifyFile (Machine.host w).watched checksum archive =
      (Checksum.verifyFile (Machine.host w) checksum archive).below :=
    Checksum.verifyFile_below (Machine.host w) checksum archive
  rw [below] at passed ⊢
  obtain ⟨good, verified, passed⟩ := Task.bind_eq_ok passed
  cases good with
  | false =>
    obtain ⟨_, _, failed⟩ := Task.bind_eq_ok passed
    contradiction
  | true =>
    rw [Task.bind_ok verified]
    have same := Checksum.verifyFile_preserves w checksum archive s.2
    show checksum.Verified (Checksum.verifyFile (Machine.host w) checksum archive s.2).2.files archive
    rw [show (Checksum.verifyFile (Machine.host w) checksum archive s.2).2 = s.2 from same]
    exact Checksum.verifyFile_verified w checksum verified

theorem fetchFrom_verified {c : Config} {s : Log Machine × Machine}
    (known : c.checksums.lookup version = some checksum)
    (fetched : (fetchFrom (.watched (Machine.host w) d unpack) c version archive url s).1 = .ok ()) :
    checksum.Verified
      (filesOf (fetchFrom (.watched (Machine.host w) d unpack) c version archive url s).2) archive := by
  rw [fetchFrom_eq] at fetched ⊢
  obtain ⟨_, delivered, fetched⟩ := Task.bind_eq_ok fetched
  rw [Task.bind_ok delivered]
  exact verifyKnown_verified w known fetched

theorem fetch_verified {c : Config} {s : Log Machine × Machine}
    (known : c.checksums.lookup version = some checksum)
    (fetched : (fetch (.watched (Machine.host w) d unpack) c p version s).1 = .ok ()) :
    checksum.Verified
      (filesOf (fetch (.watched (Machine.host w) d unpack) c p version s).2) p.archive := by
  rw [fetch_eq] at fetched ⊢
  obtain ⟨_, said, fetched⟩ := Task.bind_eq_ok fetched
  rw [Task.bind_ok said]
  obtain ⟨_, warned, fetched⟩ := Task.bind_eq_ok fetched
  rw [Task.bind_ok warned]
  exact Fallback.tryEach_ensures (Q := fun s => checksum.Verified (filesOf s) p.archive)
    (fun _ _ _ ended => fetchFrom_verified w d unpack known ended) _ fetched

theorem openAt_preserves (archive : String) :
    (Archive.openAt (Machine.host w).watched archive).Preserves filesOf := by
  refine Task.Preserves.bind (Task.Preserves.within fun s => ?_) fun stream => ?_
  · exact congrArg Machine.files (Machine.openFile_preserves w archive s.2)
  · split
    · exact Task.pure_preserves _
    · exact Task.fail_preserves _

theorem openAt_holds {s : Log Machine × Machine}
    (opened : (Archive.openAt (Machine.host w).watched archive s).1 = .ok source) :
    ∃ bytes, (filesOf s).Holds archive bytes := by
  obtain ⟨stream, opened, read⟩ := Task.bind_eq_ok opened
  rw [Task.within_ok] at opened
  have opened := (Machine.openFile_ok w).mp opened
  obtain ⟨bytes, rfl⟩ | rfl := FileTree.openToRead_cases opened
  · exact ⟨bytes, opened⟩
  · simp [Archive.contents, Stream.take, Stream.splitChunks, Stream.failing, bind, Except.bind] at read

theorem isArchive_holds {s : Log Machine × Machine}
    (looked : ((Tools.watched (Machine.host w) d unpack).extractor.isArchive archive s).1 = .ok true) :
    ∃ bytes, (filesOf s).Holds archive bytes := by
  obtain ⟨opened, tried, looked⟩ := Task.bind_eq_ok looked
  cases opened with
  | ok source => exact openAt_holds w (Except.ok.inj tried)
  | error e => simp at looked

theorem recognise_preserves (archive : String) :
    (recognise (Tools.watched (Machine.host w) d unpack).extractor archive).Preserves filesOf := by
  refine Task.Preserves.bind (Task.Preserves.bind (openAt_preserves w archive).outcome ?_) ?_
  · intro opened
    split
    · exact Task.pure_preserves _
    · exact Task.pure_preserves _
  · intro good
    split
    · exact Task.fail_preserves _
    · exact Task.pure_preserves _

theorem recognise_holds {s : Log Machine × Machine}
    (recognised : (recognise (Tools.watched (Machine.host w) d unpack).extractor archive s).1 = .ok ()) :
    ∃ bytes, (filesOf s).Holds archive bytes := by
  obtain ⟨good, looked, recognised⟩ := Task.bind_eq_ok recognised
  cases good with
  | true => exact isArchive_holds w d unpack looked
  | false => simp at recognised

/-- Whatever stands in the way, making way only takes entries away. -/
theorem makeWay_pruned (c : Config) (p : InstallPaths) (s : Log Machine × Machine) :
    Pruned (filesOf (makeWay (.watched (Machine.host w) d unpack) c p s).2) (filesOf s) := by
  have trans : ∀ {a b c : Log Machine × Machine}, Pruned (filesOf b) (filesOf a) →
      Pruned (filesOf c) (filesOf b) → Pruned (filesOf c) (filesOf a) :=
    fun one two => two.trans one
  refine Task.bind_state (R := fun s after => Pruned (filesOf after) (filesOf s)) trans ?_ ?_ s
  · exact fun s => Pruned.refl _
  intro _ s
  refine Task.bind_state (R := fun s after => Pruned (filesOf after) (filesOf s)) trans ?_ ?_ s
  · intro s
    simp only [Task.whenever]
    split
    · show Pruned ((Machine.host w).removeTree p.sourceDir s.2).2.files s.2.files
      rw [Machine.removeTree_files]
      exact FileTree.removeTree_pruned _ _
    · exact Pruned.refl _
  · intro _ s
    rw [recognise_preserves w d unpack p.archive s]
    exact Pruned.refl _

theorem makeWay_holds {c : Config} {p : InstallPaths} {s : Log Machine × Machine}
    (made : (makeWay (.watched (Machine.host w) d unpack) c p s).1 = .ok ()) :
    ∃ bytes, (filesOf (makeWay (.watched (Machine.host w) d unpack) c p s).2).Holds p.archive bytes := by
  unfold makeWay at made ⊢
  obtain ⟨_, said, made⟩ := Task.bind_eq_ok made
  obtain ⟨_, cleared, made⟩ := Task.bind_eq_ok made
  rw [Task.bind_ok said, Task.bind_ok cleared, recognise_preserves w d unpack p.archive]
  exact recognise_holds w d unpack made

theorem fetch_prepares (c : Config) (p : InstallPaths) (version : String) :
    (fetch (.watched (Machine.host w) d unpack) c p version).Enters Effect.Prepares :=
  (fetch_follows _ d unpack c p version).enters <|
    .next (.checked _) <| .next (.checked _) (Course.attempts_only trivial (fun _ => trivial) _)

theorem makeWay_prepares (c : Config) (p : InstallPaths) :
    (makeWay (.watched (Machine.host w) d unpack) c p).Enters Effect.Prepares :=
  (makeWay_follows _ d unpack c p).enters <|
    .next (.checked _) <| .next (.either (.once trivial) (.done _)) (.checked _)

/-- A build runs programs, and does nothing else. -/
theorem building_only {kind : Effect → Prop} (runs : ∀ command, kind (.call (.run command)))
    (h : Host σ) (c : Config) (p : InstallPaths) : (Course.building h c p).Only kind := by
  refine .next (.checked _) <| .bind (.plain _) fun processors => .next ?_ ?_
  · refine .each fun e member => ?_
    obtain ⟨step, _, rfl⟩ := List.mem_map.mp member
    exact runs _
  · exact .next (.checked _) (.checked _)

theorem linking_extracts_nothing (directory : String) (names : LinkNames)
    (targets : LinkTargets) :
    (Course.linking directory names targets : Course σ Unit).Only Effect.ExtractsNothing := by
  have clearing (link : String) :
      (Course.clearing link : Course σ Unit).Only Effect.ExtractsNothing :=
    .either (.once trivial) (.either (.once trivial) (.checked _))
  refine .next (clearing _) <| .next (clearing _) ?_
  exact .next (.once trivial) <| .next (.checked _) <| .next (.once trivial) (.checked _)

theorem complete_extracts_nothing (c : Config) (p : InstallPaths) (workDir : String) :
    (complete (.watched (Machine.host w) d unpack) c p workDir).Enters Effect.ExtractsNothing := by
  refine .bind ?_ fun _ => .bind ?_ fun targets => .bind ?_ fun _ => .bind ?_ fun _ => ?_
  · exact (dropArchive_follows _ p).enters (.next (.once trivial) (.checked _))
  · exact (build_follows _ c p).enters (building_only (fun _ => trivial) _ c p)
  · exact Task.Preserves.enters (say_keeps _ _)
  · exact (relink_follows _ workDir c.linkNames targets).enters
      (linking_extracts_nothing _ _ _)
  · exact Task.Preserves.enters (Task.pure_preserves _)

theorem extract_enters (archive directory : String) (s : Log Machine × Machine) :
    ∃ inner last, ((Tools.watched (Machine.host w) d unpack).extractor.extract
        archive directory s).2.1 = s.1 ++ inner ++ [last] ∧
      (∀ e ∈ inner, e.effect.Prepares) ∧
      last.effect = .extraction archive directory ∧ last.before = s.2 := by
  obtain ⟨new, added, inner, entries, parts⟩ :=
    extract_follows (Machine.host w) d unpack archive directory s
  have only : (Course.next (Course.once (.call (.makeDirectories directory))) Course.unseen :
      Course Machine Unit).Only Effect.Prepares := .next (.once trivial) (.checked _)
  rw [added, entries, ← List.append_assoc]
  exact ⟨inner, _, rfl, only _ _ _ _ parts, rfl, rfl⟩

end Install

/-- What the log of a build tells about extractions: there was none and nothing was run, or
there was one, nothing was run before it, and the archive had the digest when it began. -/
inductive Gated (checksum : Checksum) (p : InstallPaths) : Log Machine → Prop
  | shut : (∀ e ∈ log, e.effect.Prepares) → Gated checksum p log
  | opened : (∀ e ∈ front, e.effect.Prepares) → entry.effect = .extraction p.archive p.workDir →
      entry.before.files.Holds p.archive bytes → checksum.Matches bytes →
      (∀ e ∈ rest, e.effect.ExtractsNothing) → Gated checksum p (front ++ entry :: rest)

namespace Install

variable (w : Surroundings) (d : DiscreetDownloader (Log Machine) Machine)
  (unpack : Archive.Source → String → Task Machine Unit)

/-- What is extracted was verified, and what follows extracts nothing else. -/
theorem content_gated {c : Config} {p : InstallPaths} {s : Log Machine × Machine}
    (prepared : ∀ e ∈ s.1, e.effect.Prepares) (readable : (filesOf s).Holds p.archive bytes)
    (good : checksum.Matches bytes) (workDir : String) :
    Gated checksum p (((Tools.watched (Machine.host w) d unpack).extractor.extract p.archive
      p.workDir >>= fun _ => complete (.watched (Machine.host w) d unpack) c p workDir) s).2.1 := by
  obtain ⟨inner, entry, added, quiet, effect, before⟩ :=
    extract_enters w d unpack p.archive p.workDir s
  obtain ⟨rest, addedRest, extractsNothing⟩ := Task.Enters.after
    (fun _ => complete_extracts_nothing w d unpack c p workDir)
    ((Tools.watched (Machine.host w) d unpack).extractor.extract p.archive p.workDir) s
  rw [addedRest, added, List.append_assoc, List.singleton_append]
  refine .opened ?_ effect (before ▸ readable) good extractsNothing
  intro e entered
  exact (List.mem_append.mp entered).elim (prepared e) (quiet e)

/-- The archive that is still there when way was made is the one that was verified. -/
theorem makeWay_keeps_verified {checksum : Checksum} {c : Config} {p : InstallPaths}
    {s : Log Machine × Machine}
    (verified : checksum.Verified (filesOf s) p.archive)
    (made : (makeWay (.watched (Machine.host w) d unpack) c p s).1 = .ok ()) :
    checksum.Verified (filesOf (makeWay (.watched (Machine.host w) d unpack) c p s).2)
      p.archive := by
  obtain ⟨bytes, held, good⟩ := verified
  obtain ⟨found, readable⟩ := makeWay_holds w d unpack made
  have before := (makeWay_pruned w d unpack c p s).openToRead readable
  have same : found = bytes := FileTree.Holds.unique before held
  rw [same] at readable
  exact ⟨bytes, readable, good⟩

theorem run_gated {c : Config} {version : String} (workDir : String) (m : Machine)
    (known : c.checksums.lookup version = some checksum) :
    Gated checksum (.ofVersion c workDir version)
      (run (.watched (Machine.host w) d unpack) c .build version workDir ([], m)).2.1 := by
  rw [run_build_eq]
  generalize InstallPaths.ofVersion c workDir version = p
  obtain ⟨first, addedFirst, prepares⟩ := fetch_prepares w d unpack c p version ([], m)
  rw [List.nil_append] at addedFirst
  cases fetched : (fetch (.watched (Machine.host w) d unpack) c p version ([], m)).1 with
  | error e =>
    rw [Task.bind_error fetched, addedFirst]
    exact .shut prepares
  | ok _ =>
    have verified := fetch_verified w d unpack known fetched
    rw [Task.bind_ok fetched]
    generalize (fetch (.watched (Machine.host w) d unpack) c p version ([], m)).2 = s at *
    obtain ⟨second, addedSecond, preparesToo⟩ := makeWay_prepares w d unpack c p s
    have prepared : ∀ e ∈ (makeWay (.watched (Machine.host w) d unpack) c p s).2.1,
        e.effect.Prepares := by
      intro e entered
      rw [addedSecond, addedFirst] at entered
      exact (List.mem_append.mp entered).elim (prepares e) (preparesToo e)
    cases made : (makeWay (.watched (Machine.host w) d unpack) c p s).1 with
    | error e =>
      rw [Task.bind_error made]
      exact .shut prepared
    | ok _ =>
      obtain ⟨bytes, readable, good⟩ := makeWay_keeps_verified w d unpack verified made
      rw [Task.bind_ok made]
      exact content_gated w d unpack prepared readable good workDir

/-- In a build of a version whose digest is known nothing is extracted or run before the archive
was verified, and what was verified is what is extracted. On the way a path can cease to name
what it named, but it comes to name no other bytes. -/
theorem extraction_verified {c : Config} {version : String} (workDir : String) (m : Machine)
    (known : c.checksums.lookup version = some checksum) :
    let t := Tools.watched (Machine.host w) d unpack
    let p := InstallPaths.ofVersion c workDir version
    Gated checksum p (run t c .build version workDir ([], m)).2.1 ∧
      ∀ s q bytes, (makeWay t c p s).2.2.files.Holds q bytes → s.2.files.Holds q bytes := by
  refine ⟨run_gated w d unpack workDir m known, fun s q bytes held => ?_⟩
  exact (makeWay_pruned w d unpack c _ s).openToRead held

/-- Both sources answer with other bytes than those of the known digest. -/
theorem tampered_archive_gated :
    let c := Config.standard
    let checksum : Checksum := ⟨.md5, "23867540ec32e63ce71d6ecc105278d2"⟩
    let w : Surroundings := { command := fun _ _ t => (.ok ⟨some 0, ""⟩, t) }
    let d := DiscreetDownloader.ofDeliveries <| Machine.request fun _ _ =>
      { status := some 200, body := "tampered".toUTF8 }
    let m : Machine := { files := FileTree.empty.put ["w"] (.directory directoryMode) }
    c.checksums.lookup "1.0.4" = some checksum ∧
      Gated checksum (.ofVersion c "/w" "1.0.4")
        (run (.watched (Machine.host w) d Machine.unpack) c .build "1.0.4" "/w" ([], m)).2.1 :=
  ⟨rfl, (extraction_verified _ _ _ "/w" _ rfl).1⟩

end Install

end MolecularTools
