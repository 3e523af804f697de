import MolecularTools.Proofs.Install.Untouched
import MolecularTools.Proofs.Install.Usable
import MolecularTools.Proofs.Links.Conditions

/-! The two links of a working directory over any history of installations in it. A call that
succeeds leaves links to what it returns, and one that fails leaves what it found. -/
namespace MolecularTools

namespace FileTree.Linkable

variable {t : FileTree} {l : Location}

theorem place (linkable : Linkable l t) : LinkPlace t l LinkNames.standard where
  reached := linkable.reached
  headers := LinkNames.standard_proper List.mem_cons_self
  libraries := LinkNames.standard_proper (List.mem_cons_of_mem _ List.mem_cons_self)
  apart := by decide

theorem no_directory (linkable : Linkable l t) (name : String)
    (member : name ∈ LinkNames.standard.toList) (mode : Nat) :
    t.node? (l ++ [name]) ≠ some (.directory mode) := by
  rcases linkable.bare name member with free | ⟨target, link⟩
  · rw [free]
    exact nofun
  · rw [link]
    exact nofun

end FileTree.Linkable

namespace Install

open FileTree

/-- How a call leaves both names: as links to what it returns, or as they were if it fails. -/
def Settled (l : Location) (old : FileTree) : Option LinkTargets → Machine → Prop
  | some targets, m => Linked l targets m.files
  | none, m => Untouched l old m.files

/-- Both links are ones that a system makes. -/
def Acceptable (l : Location) (targets : LinkTargets) : Prop :=
  AcceptableLink l LinkNames.standard.headers targets.headers ∧
    AcceptableLink l LinkNames.standard.libraries targets.libraries

/-- Where nothing or a link stands at both names, both links are made; or the directory may not be
changed, and then it is not. -/
theorem relink_linkable (w : Surroundings) {m : Machine} (linkable : Linkable l m.files)
    (acceptable : Acceptable l targets) :
    let call := relink (Machine.host w) (Path.absolute l) LinkNames.standard targets m
    (call.1 = .ok () ∧ Linked l targets call.2.files) ∨ ∃ e, call = (.error e, m) := by
  intro call
  have place := linkable.place
  cases alterable : m.files.alterable l with
  | false => exact .inr (relink_sealed w place alterable targets)
  | true =>
    have headers := linkable.no_directory LinkNames.standard.headers List.mem_cons_self
    have libraries := linkable.no_directory LinkNames.standard.libraries
      (List.mem_cons_of_mem _ List.mem_cons_self)
    have made : call.1 = .ok () :=
      (relink_ok_iff w place targets).mpr ⟨⟨headers, libraries⟩, alterable, acceptable⟩
    refine .inl ⟨made, ?_⟩
    rw [relink_ok_state w place made]
    exact linkable.reached.linked targets

/-- One call of the installer, with all that decides how it ends on a machine. -/
structure Job where
  surroundings : Surroundings
  supply : Supply
  unpack : Archive.Source → String → Task Machine Unit
  config : Config
  directive : Directive
  version : String

namespace Job

def prepare (j : Job) (workDir : String) : Task Machine LinkTargets :=
  Install.prepare (.answered (Machine.host j.surroundings) (Machine.request j.supply) j.unpack)
    j.config j.version workDir j.directive

def run (j : Job) (workDir : String) : Task Machine LinkTargets :=
  Install.run (.answered (Machine.host j.surroundings) (Machine.request j.supply) j.unpack) j.config
    j.directive j.version workDir

/-- What is done to the machine before the links are set, effect by effect. -/
def log (j : Job) (workDir : String) (m : Machine) : Log Machine :=
  (Install.prepare (.logged j.surroundings j.supply j.unpack) j.config j.version workDir j.directive
    ([], m)).2.1

/-- The call meets nothing that it is not made for: the archive's place is no link, what runs or is
extracted leaves both names alone, and the system makes links with such names and targets. -/
structure Undisturbed (j : Job) (workDir : String) (m : Machine) : Prop where
  fitting : j.config.Fitting j.version
  archive : ∀ target,
    m.files.node? (Path.names workDir ++ [j.config.archiveName j.version]) ≠ some (.link target)
  harmless : ∀ e ∈ j.log workDir m, Harmless j.surroundings j.unpack (Path.names workDir) e
  acceptable : ∀ targets, (j.prepare workDir m).1 = .ok targets →
    Acceptable (Path.names workDir) targets

variable {j : Job} {m : Machine} {l : Location}

theorem prepare_keeps (linkable : Linkable l m.files)
    (undisturbed : j.Undisturbed (Path.absolute l) m) :
    Untouched l m.files (j.prepare (Path.absolute l) m).2.files := by
  have names := linkable.reached.proper.names_absolute
  obtain ⟨fitting, archive, harmless, -⟩ := undisturbed
  rw [names] at archive harmless
  obtain ⟨new, added, kept⟩ := prepare_untouched j.surroundings j.supply j.unpack fitting.plain
    linkable j.directive ([], m)
  have mirrors := prepare_mirrors (Machine.host j.surroundings) (Machine.request j.supply) j.unpack
    j.config j.version (Path.absolute l) j.directive
  rw [mirrors.result, mirrors.state] at kept
  refine kept (.refl archive) fun e entered => harmless e ?_
  rw [log, added]
  exact entered

theorem run_unprepared (failed : j.prepare workDir m = (.error e, after)) :
    j.run workDir m = (.error e, after) := by
  rw [prepare] at failed
  rw [run, run_eq, Task.bind_apply, failed]

/-- Once all is prepared, the links are set. -/
theorem run_prepared (fitting : j.config.Fitting j.version)
    (prepared : j.prepare workDir m = (.ok targets, ready)) :
    ∃ said : Machine, said.files = ready.files ∧ j.run workDir m =
      (relink (Machine.host j.surroundings) workDir LinkNames.standard targets >>= fun _ =>
        pure targets) said := by
  rw [prepare] at prepared
  rw [run, run_eq, Task.bind_apply, prepared, fitting.links]
  exact ⟨ready.said _, rfl, rfl⟩

theorem run_settled (linkable : Linkable l m.files)
    (undisturbed : j.Undisturbed (Path.absolute l) m) :
    Settled l m.files (j.run (Path.absolute l) m).1.toOption (j.run (Path.absolute l) m).2 := by
  have names := linkable.reached.proper.names_absolute
  have kept := prepare_keeps linkable undisturbed
  have acceptable := undisturbed.acceptable
  rw [names] at acceptable
  cases prepared : j.prepare (Path.absolute l) m with
  | mk result ready =>
    rw [prepared] at kept acceptable
    cases result with
    | error e =>
      rw [run_unprepared prepared]
      exact kept
    | ok targets =>
      obtain ⟨said, files, whole⟩ := run_prepared undisturbed.fitting prepared
      rw [whole]
      rw [← files] at kept
      rcases relink_linkable j.surroundings (kept.linkable linkable) (acceptable targets rfl) with
        ⟨made, linked⟩ | ⟨e, shut⟩
      · rw [Task.bind_ok made]
        exact linked
      · rw [Task.bind_apply, shut]
        exact kept

end Job

/-- Calls in one working directory, one after the other, and whatever becomes of each. -/
inductive History (workDir : String) (start : Machine) : Machine → Prop
  | none : History workDir start start
  | call {m : Machine} {j : Job} : History workDir start m → j.Undisturbed workDir m →
      History workDir start (j.run workDir m).2

theorem Settled.linkable {l : Location} {old : FileTree} (settled : Settled l old r m)
    (linkable : Linkable l old) : Linkable l m.files := by
  cases r with
  | none => exact Untouched.linkable settled linkable
  | some targets => exact Linked.linkable settled

/-- After any history nothing but links stands at both names. -/
theorem History.linkable {l : Location} (history : History (Path.absolute l) start m)
    (linkable : Linkable l start.files) : Linkable l m.files := by
  induction history with
  | none => exact linkable
  | call _ undisturbed ih => exact (Job.run_settled ih undisturbed).linkable ih

/-- After any history, a call that succeeds leaves links to what it returns, and one that fails
leaves both names as they were. -/
theorem links_settled {start m : Machine} {workDir : String} {j : Job}
    (rooted : start.files.Rooted) (canonical : start.files.canonical workDir = .ok workDir)
    (directory : start.files.isDirectory workDir = true)
    (bare : ∀ name ∈ LinkNames.standard.toList, start.files.Bare (Path.names workDir ++ [name]))
    (history : History workDir start m) (undisturbed : j.Undisturbed workDir m) :
    let after := (j.run workDir m).2.files
    (∀ targets, (j.run workDir m).1 = .ok targets → Linked (Path.names workDir) targets after) ∧
      ∀ e, (j.run workDir m).1 = .error e → ∀ name ∈ LinkNames.standard.toList,
        after.node? (Path.names workDir ++ [name]) = m.files.node? (Path.names workDir ++ [name]) := by
  obtain ⟨l, reached, rfl⟩ := reached_of_canonical rooted canonical directory
  have names := reached.proper.names_absolute
  rw [names] at bare ⊢
  have settled := Job.run_settled (history.linkable ⟨reached, bare⟩) undisturbed
  refine ⟨fun targets ok => ?_, fun e failed => ?_⟩
  · rw [ok] at settled
    exact settled
  · rw [failed] at settled
    exact settled.names

/-- Without extractions and commands there is no harm. -/
theorem Harmless.of_prepares {w : Surroundings} {unpack : Archive.Source → String → Task Machine Unit}
    {log : Log Machine} (prepares : ∀ e ∈ log, e.effect.Prepares) (l : Location) :
    ∀ e ∈ log, Harmless w unpack l e := by
  rintro ⟨effect, before, succeeded⟩ entered
  have kind := prepares _ entered
  cases effect with
  | extraction archive directory => exact kind.elim
  | call event =>
    cases event with
    | run c => exact kind.elim
    | _ => trivial

/-- A build that downloads no archive leaves the old link. The next call takes an installation as it
is and replaces the link. -/
theorem links_settled_after_failed_build :
    let building : Job :=
      ⟨idle, fun _ _ => { body := "no archive".toUTF8 }, Machine.unpack, Config.standard, .build, "9"⟩
    let taking : Job := { building with directive := .existing "/opt" }
    let between := (building.run "/w" separate).2
    let final := (taking.run "/w" between).2.files
    (separate.files.Rooted ∧ separate.files.canonical "/w" = .ok "/w" ∧
      separate.files.isDirectory "/w" = true) ∧
      (∀ name ∈ LinkNames.standard.toList, separate.files.Bare (Path.names "/w" ++ [name])) ∧
      building.Undisturbed "/w" separate ∧ taking.Undisturbed "/w" between ∧
      between.files.node? ["w", "includelink"] = some (.link "/real") ∧
      final.node? ["w", "includelink"] = some (.link "/opt/include") ∧
      final.node? ["w", "liblink"] = some (.link "/opt/lib") := by
  intro building taking between final
  have rooted : separate.files.Rooted := by decide +kernel
  have canonical : separate.files.canonical "/w" = .ok "/w" := eq_ok_of_toOption (by decide +kernel)
  have directory : separate.files.isDirectory "/w" = true := by decide +kernel
  have names : Path.names "/w" = ["w"] := by decide +kernel
  have headers : separate.files.node? ["w", "includelink"] = some (.link "/real") := by decide +kernel
  have libraries : separate.files.node? ["w", "liblink"] = none := by decide +kernel
  have bare : ∀ name ∈ LinkNames.standard.toList,
      separate.files.Bare (Path.names "/w" ++ [name]) := by
    intro name member
    rw [names]
    rcases List.mem_cons.mp member with rfl | member
    · exact .inr ⟨_, headers⟩
    · rw [List.mem_singleton.mp member]
      exact .inl libraries
  have fitting : Config.standard.Fitting "9" := ⟨rfl, rfl, by decide⟩
  have first : building.Undisturbed "/w" separate := by
    have free : separate.files.node? ["w", "scafacos-9.tar.gz"] = none := by decide +kernel
    have unprepared : (building.prepare "/w" separate).1.toOption = none := by decide +kernel
    refine ⟨fitting, fun target link => ?_, .of_prepares (by decide +kernel) _, fun targets ok => ?_⟩
    · rw [names] at link
      cases free.symm.trans link
    · rw [ok] at unprepared
      contradiction
  have second : taking.Undisturbed "/w" between := by
    have file : between.files.node? ["w", "scafacos-9.tar.gz"] =
        some (lone fileMode "no archive".toUTF8) := by decide +kernel
    have prepared : (taking.prepare "/w" between).1.toOption =
        some ⟨"/opt/include", "/opt/lib"⟩ := by decide +kernel
    refine ⟨fitting, fun target link => ?_, .of_prepares (by decide +kernel) _, fun targets ok => ?_⟩
    · rw [names] at link
      cases file.symm.trans link
    · rw [ok] at prepared
      obtain rfl := Option.some.inj prepared
      rw [names]
      exact ⟨⟨⟨by decide, by decide, by decide⟩, ⟨by decide, by decide, by decide⟩, by decide⟩,
        ⟨⟨by decide, by decide, by decide⟩, ⟨by decide, by decide, by decide⟩, by decide⟩⟩
  have stopped : ∃ e, (building.run "/w" separate).1 = .error e := by
    cases ended : (building.run "/w" separate).1 with
    | error e => exact ⟨e, rfl⟩
    | ok targets =>
      have none : (building.run "/w" separate).1.toOption = none := by decide +kernel
      rw [ended] at none
      contradiction
  have taken : (taking.run "/w" between).1 = .ok ⟨"/opt/include", "/opt/lib"⟩ :=
    eq_ok_of_toOption (by decide +kernel)
  obtain ⟨e, failed⟩ := stopped
  have kept := (links_settled rooted canonical directory bare .none first).2 e failed
    LinkNames.standard.headers List.mem_cons_self
  have linked := (links_settled rooted canonical directory bare (.call .none first) second).1 _ taken
  rw [names] at kept linked
  exact ⟨⟨rooted, canonical, directory⟩, bare, first, second, kept.trans headers, linked.headers,
    linked.libraries⟩

end Install

end MolecularTools
