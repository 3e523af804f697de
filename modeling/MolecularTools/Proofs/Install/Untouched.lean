import MolecularTools.Proofs.Files.Elsewhere
import MolecularTools.Proofs.Host.Allowed
import MolecularTools.Proofs.Install.Integrity
import MolecularTools.Proofs.Install.Mirror
import MolecularTools.Proofs.Install.Paths
import MolecularTools.Proofs.Links

/-! The two link names of a working directory while an installation is made ready. No stage touches
them before the links are set, unless an extraction or a command does. -/
namespace MolecularTools

def LinkNames.toList (names : LinkNames) : List String := [names.headers, names.libraries]

theorem LinkNames.standard_proper (member : name ∈ LinkNames.standard.toList) :
    Path.Proper name := by
  have both : ∀ name ∈ LinkNames.standard.toList, 'l' ∈ name.toList ∧ '/' ∉ name.toList := by
    decide
  exact Path.proper_of_mem (both name member).1 (by decide) (both name member).2

theorem LinkNames.ne_of_dash (member : name ∈ LinkNames.standard.toList)
    (dash : '-' ∈ other.toList) : name ≠ other := by
  have none : ∀ name ∈ LinkNames.standard.toList, '-' ∉ name.toList := by decide
  rintro rfl
  exact none name member dash

namespace FileTree

variable {t u v : FileTree} {l : Location}

/-- The directory is where it was, and at both names in it stands what stood there. -/
structure Untouched (l : Location) (t u : FileTree) : Prop where
  reached : u.Reached l
  names : ∀ name ∈ LinkNames.standard.toList, u.node? (l ++ [name]) = t.node? (l ++ [name])

structure Linkable (l : Location) (t : FileTree) : Prop where
  reached : t.Reached l
  bare : ∀ name ∈ LinkNames.standard.toList, t.Bare (l ++ [name])

structure Linked (l : Location) (targets : LinkTargets) (t : FileTree) : Prop where
  reached : t.Reached l
  headers : t.node? (l ++ [LinkNames.standard.headers]) = some (.link targets.headers)
  libraries : t.node? (l ++ [LinkNames.standard.libraries]) = some (.link targets.libraries)

namespace Untouched

theorem trans (first : Untouched l t u) (second : Untouched l u v) : Untouched l t v := by
  refine ⟨second.reached, fun name member => ?_⟩
  rw [second.names name member, first.names name member]

theorem of_inside (reached : t.Reached l) (same : SameOutside (l ++ [entry] <+: ·) t u)
    (other : ∀ name ∈ LinkNames.standard.toList, name ≠ entry) : Untouched l t u := by
  refine ⟨same.reached reached fun k upper => not_below_of_above upper, fun name member => ?_⟩
  refine same _ fun below => other name member ?_
  have equal : l ++ [entry] = l ++ [name] := below.eq_of_length (by simp)
  simpa using equal.symm

theorem linkable (untouched : Untouched l t u) (linkable : Linkable l t) : Linkable l u := by
  refine ⟨untouched.reached, fun name member => ?_⟩
  rw [Bare, untouched.names name member]
  exact linkable.bare name member

end Untouched

theorem Linked.linkable (linked : Linked l targets t) : Linkable l t := by
  refine ⟨linked.reached, fun name member => .inr ?_⟩
  rcases List.mem_cons.mp member with rfl | member
  · exact ⟨_, linked.headers⟩
  · rw [List.mem_singleton.mp member]
    exact ⟨_, linked.libraries⟩

theorem Reached.linked (reached : t.Reached l) (targets : LinkTargets) :
    Linked l targets ((t.put (l ++ [LinkNames.standard.headers]) (.link targets.headers)).put
      (l ++ [LinkNames.standard.libraries]) (.link targets.libraries)) := by
  have inner (name : String) : l ++ [name] ≠ [] := by simp
  have apart : l ++ [LinkNames.standard.libraries] ≠ l ++ [LinkNames.standard.headers] := by
    simp [LinkNames.standard]
  refine ⟨(reached.put _ _).put _ _, ?_, ?_⟩
  · rw [node?_put _ (inner _), if_neg apart, node?_put _ (inner _), if_pos rfl]
  · rw [node?_put _ (inner _), if_pos rfl]

theorem Filed.untouched (filed : Filed (l ++ [entry]) t u) (linkable : Linkable l t)
    (other : ∀ name ∈ LinkNames.standard.toList, name ≠ entry) : Untouched l t u := by
  refine ⟨filed.reached linkable.reached, fun name member => ?_⟩
  refine filed.others _ (fun same => other name member (by simpa using same)) fun f file => ?_
  rcases linkable.bare name member with free | ⟨target, link⟩
  · rw [free] at file
    contradiction
  · rw [link] at file
    cases file

end FileTree

namespace Config

structure Fitting (c : Config) (version : String) : Prop where
  package : c.package = Config.standard.package
  links : c.linkNames = LinkNames.standard
  version : '/' ∉ version.toList

variable {c : Config} {version : String}

theorem Fitting.plain (fitting : c.Fitting version) : c.Plain version := by
  refine ⟨?_, fitting.version⟩
  rw [fitting.package]
  decide

theorem ne_sourceDirName (member : name ∈ LinkNames.standard.toList) :
    name ≠ c.sourceDirName version :=
  LinkNames.ne_of_dash member (by simp [sourceDirName])

theorem ne_archiveName (member : name ∈ LinkNames.standard.toList) :
    name ≠ c.archiveName version :=
  LinkNames.ne_of_dash member (by simp [archiveName, sourceDirName])

end Config

/-- A delivery makes or changes files only, and no link comes to stand in its place. -/
theorem Delivered.filed {m after : Machine} {l : Location}
    (delivered : Delivered supply (Path.absolute (l ++ [name])) url m after)
    (reached : m.files.Reached l) (proper : Path.Proper name)
    (unlinked : ∀ target, m.files.node? (l ++ [name]) ≠ some (.link target)) :
    m.files.Filed (l ++ [name]) after.files := by
  cases delivered with
  | whole made _ _ =>
    have filed := FileTree.Filed.createFile reached proper unlinked made
    exact filed.trans (.changeFile filed.no_link _ _)

theorem Undelivered.filed {m after : Machine} {l : Location}
    (undelivered : Undelivered supply (Path.absolute (l ++ [name])) url m e after)
    (reached : m.files.Reached l) (proper : Path.Proper name)
    (unlinked : ∀ target, m.files.node? (l ++ [name]) ≠ some (.link target)) :
    m.files.Filed (l ++ [name]) after.files := by
  cases undelivered with
  | uncreated _ => exact .refl unlinked
  | refused made _ => exact FileTree.Filed.createFile reached proper unlinked made
  | broken made _ _ =>
    have filed := FileTree.Filed.createFile reached proper unlinked made
    exact filed.trans (.changeFile filed.no_link _ _)

namespace Install

open FileTree

/-- An extraction or a command leaves the working directory where it is and both names in it
alone. -/
def Harmless (w : Surroundings) (unpack : Archive.Source → String → Task Machine Unit)
    (l : Location) (e : Entry Machine) : Prop :=
  match e.effect with
  | .extraction archive directory => Untouched l e.before.files
      ((Archive.extractor (Machine.host w) unpack).extract archive directory e.before).2.files
  | .call (.run c) => Untouched l e.before.files ((Machine.host w).run c e.before).2.files
  | _ => True

variable (w : Surroundings) (supply : Supply)
  (unpack : Archive.Source → String → Task Machine Unit) {c : Config} {version : String}
  {l : Location} {old : FileTree} {allowed : Entry Machine → Prop}

abbrev Tools.logged : Tools (Log Machine × Machine) :=
  .followed (Machine.host w) (Machine.request supply) unpack

abbrev Standing (l : Location) (old : FileTree) (m : Machine) : Prop := Untouched l old m.files

theorem fetchFrom_sustains (e : Extractor Machine) (plain : c.Plain version)
    (reached : old.Reached l) (url : String) :
    (fetchFrom (.supplied w supply e) c version (Path.absolute (l ++ [c.archiveName version]))
      url).Sustains fun m => Filed (l ++ [c.archiveName version]) old m.files := by
  intro m filed
  have here := filed.reached reached
  have archive := plain.archiveName
  rcases good_or_bad supply c version _ url m with ⟨after, good⟩ | ⟨e, after, bad⟩
  · rw [fetchFrom_good w _ good]
    exact filed.trans (good.delivered.filed here archive filed.no_link)
  · rw [fetchFrom_bad w _ bad]
    cases bad with
    | network failed => exact filed.trans (failed.filed here archive filed.no_link)
    | unreadable delivered _ _ => exact filed.trans (delivered.filed here archive filed.no_link)
    | mismatch delivered _ _ _ => exact filed.trans (delivered.filed here archive filed.no_link)

theorem fetch_sustains (e : Extractor Machine) (plain : c.Plain version)
    (reached : old.Reached l) {p : InstallPaths}
    (archive : p.archive = Path.absolute (l ++ [c.archiveName version])) :
    (fetch (.supplied w supply e) c p version).Sustains fun m =>
      Filed (l ++ [c.archiveName version]) old m.files := by
  rw [fetch_eq, archive]
  refine .bind (fun _ filed => filed) fun _ => .bind ?_ fun _ => ?_
  · unfold warnUnknown
    split
    · exact fun _ filed => filed
    · exact fun _ filed => filed
  · exact Fallback.tryEach_sustains _ (fun _ _ filed => filed)
      (fetchFrom_sustains w supply e plain reached) _

theorem say_follows (text : String) :
    ((Tools.logged w supply unpack).host.say text).Follows (.keeping allowed (Standing l old)) :=
  (Task.Follows.keeps (say_keeps (Machine.host w) text)).sustained (.below _) fun _ kept => kept

theorem removeTree_sustains (plain : c.Plain version) :
    ((Machine.host w).removeTree (Path.absolute (l ++ [c.sourceDirName version]))).Sustains
      (Standing l old) := by
  intro m standing
  show Untouched l old ((Machine.host w).removeTree _ m).2.files
  rw [Machine.removeTree_files]
  have inside := standing.reached.removeTree_inside plain.sourceDirName
  have kept : Untouched l m.files (m.files.removeTree _).2 :=
    .of_inside standing.reached inside fun _ member => Config.ne_sourceDirName member
  exact standing.trans kept

theorem removeFile_sustains (plain : c.Plain version) :
    ((Machine.host w).removeFile (Path.absolute (l ++ [c.archiveName version]))).Sustains
      (Standing l old) := by
  intro m standing
  show Untouched l old (((Machine.changing _).within _ m).2).files
  rw [Task.within_apply, Machine.changing_apply]
  cases removed : m.files.removeFile (Path.absolute (l ++ [c.archiveName version])) with
  | error e => exact standing
  | ok files =>
    have erased := standing.reached.removeFile_child plain.archiveName removed
    have inside : SameOutside (l ++ [c.archiveName version] <+: ·) m.files files := by
      rw [erased]
      exact (SameOutside.erase _ _).mono fun k same => same ▸ List.prefix_rfl
    have kept : Untouched l m.files files :=
      .of_inside standing.reached inside fun _ member => Config.ne_archiveName member
    exact standing.trans kept

theorem makeWay_untouched (plain : c.Plain version) {p : InstallPaths}
    (source : p.sourceDir = Path.absolute (l ++ [c.sourceDirName version])) :
    (makeWay (Tools.logged w supply unpack) c p).Follows (.keeping allowed (Standing l old)) := by
  have follows : ((Machine.host w).watched.removeTree p.sourceDir).Follows
      (.once (.call (.removeTree p.sourceDir))) :=
    .watched (Task.below_keeps _)
  have mirrors : (Task.whenever ((Machine.host w).watched.pathExists p.sourceDir)
      ((Machine.host w).watched.removeTree p.sourceDir)).Mirrors
        (Task.whenever ((Machine.host w).pathExists p.sourceDir)
          ((Machine.host w).removeTree p.sourceDir)) :=
    .whenever (fun _ => rfl) (.watched (.below _) _ _)
  have sustains : ((Machine.host w).removeTree p.sourceDir).Sustains (Standing l old) := by
    rw [source]
    exact removeTree_sustains w plain
  refine .keeping_bind (say_follows w supply unpack _) fun _ => .keeping_bind ?_ fun _ => ?_
  · exact (follows.whenever _).sustained mirrors (sustains.whenever _)
  · exact .quiet Machine.files (recognise_keeps _ _ unpack _) (recognise_preserves w _ unpack _)

theorem extract_untouched (archive directory : String) :
    ((Tools.logged w supply unpack).extractor.extract archive directory).Follows
      (.keeping (Harmless w unpack l) (Standing l old)) := by
  refine (extract_follows _ _ unpack archive directory).mirrored
    (extract_mirrors _ (Machine.request supply) unpack archive directory) ?_
  rintro m log standing ⟨inner, rfl, -⟩ harmless
  have kept := harmless ⟨.extraction archive directory, m, _⟩
    (List.mem_append_right inner List.mem_cons_self)
  exact standing.trans kept

theorem dropArchive_untouched (plain : c.Plain version) {p : InstallPaths}
    (archive : p.archive = Path.absolute (l ++ [c.archiveName version])) :
    (dropArchive (Tools.logged w supply unpack).host p).Follows
      (.keeping allowed (Standing l old)) := by
  refine (dropArchive_follows _ p).sustained (dropArchive_mirrors _ p) ?_
  refine .bind ?_ fun _ => (Task.require_preserves _ _).sustains
  rw [archive]
  exact (removeFile_sustains w plain).within

theorem runSteps_untouched (directory before : String) (steps : List BuildStep) :
    (runSteps (Tools.logged w supply unpack).host directory before steps).Follows
      (.keeping (Harmless w unpack l) (Standing l old)) := by
  induction steps generalizing before with
  | nil => exact (Task.Follows.pure before).sustained (.pure before) fun _ standing => standing
  | cons step steps ih =>
    refine .keeping_bind ?_ fun result => ?_
    · refine (Task.Follows.call _ _ _).mirrored (.watched (.below _) _ _) ?_
      rintro m log standing ⟨rfl, -, -⟩ harmless
      have kept := harmless ⟨.call (.run (step.command directory)), m, _⟩ List.mem_cons_self
      exact standing.trans kept
    · split
      · exact ih _
      · exact (Task.Follows.fail _).sustained (.fail _) fun _ standing => standing

theorem build_untouched (c : Config) (p : InstallPaths) :
    (build (Tools.logged w supply unpack).host c p).Follows
      (.keeping (Harmless w unpack l) (Standing l old)) := by
  rw [build_eq]
  refine .keeping_bind (say_follows w supply unpack _) fun _ => ?_
  refine .keeping_bind ?_ fun processors => ?_
  · exact (Task.Follows.below _).sustained (.below (.ask (Machine.host w).processors))
      fun _ standing => standing
  refine .keeping_bind (runSteps_untouched w supply unpack _ _ _) fun output => ?_
  refine .keeping_bind (say_follows w supply unpack _) fun _ => ?_
  refine (checkBuilt_follows _ output _).sustained (checkBuilt_mirrors _ output _) ?_
  exact .bind (Task.require_preserves _ _).sustains fun _ =>
    .bind (Task.require_preserves _ _).sustains fun _ => fun _ standing => standing

theorem fetch_untouched (plain : c.Plain version) (linkable : Linkable l old) {p : InstallPaths}
    (archive : p.archive = Path.absolute (l ++ [c.archiveName version])) :
    (fetch (Tools.logged w supply unpack) c p version).Follows (.ensures allowed
      (fun m => Filed (l ++ [c.archiveName version]) old m.files) fun _ => Standing l old) := by
  refine (fetch_follows _ _ unpack c p version).mirrored
    (fetch_mirrors _ (Machine.request supply) unpack c p version) fun m _ filed _ _ => ?_
  have fetched := fetch_sustains w supply (Archive.extractor (Machine.host w) unpack) plain
    linkable.reached archive m filed
  exact fetched.untouched linkable fun _ member => Config.ne_archiveName member

theorem resolveExisting_untouched (c : Config) (root : String) :
    (resolveExisting (Tools.logged w supply unpack).host c root).Follows
      (.keeping allowed (Standing l old)) := by
  refine (resolveExisting_follows _ c root).sustained (resolveExisting_mirrors _ c root) ?_
  rw [resolveExisting_eq]
  refine .bind (Task.require_preserves _ _).sustains fun _ => ?_
  refine .bind (Task.require_preserves _ _).sustains fun _ => .bind (.within ?_) fun _ => ?_
  · intro m standing
    rwa [Machine.reading_apply]
  · exact (Task.ask_preserves _).sustains

/-- Whatever becomes of it, nothing that is done before the links are set touches their names. -/
theorem prepare_untouched (plain : c.Plain version) (linkable : Linkable l old) (d : Directive) :
    (prepare (Tools.logged w supply unpack) c version (Path.absolute l) d).Follows
      (.ensures (Harmless w unpack l) (fun m => Filed (l ++ [c.archiveName version]) old m.files)
        fun _ => Standing l old) := by
  have above := linkable.reached.proper.each
  have archive := InstallPaths.archive_absolute above plain
  have source := InstallPaths.sourceDir_absolute above plain
  cases d with
  | existing root =>
    refine (resolveExisting_untouched w supply unpack c root).ensures_from fun m filed => ?_
    exact filed.untouched linkable fun _ member => Config.ne_archiveName member
  | build =>
    rw [prepare]
    refine (fetch_untouched w supply unpack plain linkable archive).ensures_bind (fun _ => ?_)
      fun _ standing => standing
    refine .keeping_bind ?_ fun _ => build_untouched w supply unpack c _
    rw [unpack_eq]
    refine .keeping_bind (makeWay_untouched w supply unpack plain source) fun _ => ?_
    refine .keeping_bind (extract_untouched w supply unpack _ _) fun _ => ?_
    exact dropArchive_untouched w supply unpack plain archive

end Install

end MolecularTools
