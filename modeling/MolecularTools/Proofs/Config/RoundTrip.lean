import MolecularTools.Config.Load
import MolecularTools.Proofs.Checksum.Text
import MolecularTools.Proofs.Files.Creation
import MolecularTools.Proofs.Files.Reading
import MolecularTools.Proofs.Json.Values
import MolecularTools.Proofs.Machine

/-! Configurations that are printed and read again. Each field is read back from what is printed of
it, so laying all fields over any configuration gives the printed one. What can be told apart in a
document is all that reading can deliver: integers below `2 ^ 64` and checksums in one form. -/
namespace MolecularTools

theorem Json.ended_ok_iff {α : Type} {ending : Option JsonFault} {a b : α} :
    ended ending a = .ok b ↔ ending = none ∧ a = b := by
  cases ending <;> simp [ended]

namespace ChecksumTable

def json (t : ChecksumTable) : Json :=
  .object (t.toList.map fun e => (e.1, .string e.2.text)) none

def Canonical (t : ChecksumTable) : Prop := ∀ e ∈ t.toList, e.2.Canonical

instance (t : ChecksumTable) : Decidable t.Canonical := inferInstanceAs (Decidable (∀ e ∈ _, _))

theorem print_reads (t : ChecksumTable) : Json.Reads t.print t.json :=
  Json.object_reads Prod.fst fun e _ => Json.string_reads e.2.text

theorem ofList_toList (t : ChecksumTable) : ofList t.toList = t := by
  rw [ofList, ← Std.ExtTreeMap.insertMany_list_eq_foldl]
  apply Std.ExtTreeMap.ext_getElem?
  intro k
  cases here : t[k]? with
  | some c =>
    have member := Std.ExtTreeMap.mem_toList_iff_getElem?_eq_some.mpr here
    exact Std.ExtTreeMap.getElem?_insertMany_list_of_mem Std.ReflCmp.compare_self
      Std.ExtTreeMap.distinct_keys_toList member
  | none =>
    have absent : (t.toList.map Prod.fst).contains k = false := by
      rw [← Bool.not_eq_true, List.contains_iff_mem, List.mem_map]
      rintro ⟨e, member, rfl⟩
      rw [Std.ExtTreeMap.mem_toList_iff_getElem?_eq_some.mp member] at here
      contradiction
    rw [Std.ExtTreeMap.getElem?_insertMany_list_of_contains_eq_false absent]
    rfl

theorem readEntries_texts {es : List (String × Checksum)} (canonical : ∀ e ∈ es, e.2.Canonical)
    (t : ChecksumTable) : readEntries t (es.map fun e => (e.1, .string e.2.text)) =
      .ok (es.foldl (fun t e => t.insert e.1 e.2) t) := by
  induction es generalizing t with
  | nil => rfl
  | cons e es ih =>
    have others := ih (fun other member => canonical other (List.mem_cons_of_mem e member))
      (t.insert e.1 e.2)
    have parsed := (canonical e List.mem_cons_self).parse_text
    simpa [readEntries, readChecksum, Json.text, parsed, bind, Except.bind] using others

theorem ofJson_json {t : ChecksumTable} (canonical : t.Canonical) : ofJson t.json = .ok t := by
  have whole : t.toList.foldl (fun t e => t.insert e.1 e.2) ∅ = t := ofList_toList t
  rw [json, ofJson, readEntries_texts canonical, whole]
  rfl

theorem readEntries_canonical {t new : ChecksumTable}
    (canonical : ∀ (k : String) (c : Checksum), t[k]? = some c → c.Canonical)
    {members : List (String × Json)} (read : readEntries t members = .ok new) :
    ∀ (k : String) (c : Checksum), new[k]? = some c → c.Canonical := by
  induction members generalizing t with
  | nil =>
    obtain rfl := Except.ok.inj read
    exact canonical
  | cons m members ih =>
    obtain ⟨c, here, others⟩ := bind_eq_ok_iff.mp read
    refine ih (fun k found stands => ?_) others
    rw [Std.ExtTreeMap.getElem?_insert] at stands
    split at stands
    · obtain rfl := Option.some.inj stands
      obtain ⟨text, -, parsed⟩ := bind_eq_ok_iff.mp here
      split at parsed
      · rename_i parsed'
        obtain rfl := Except.ok.inj parsed
        exact Checksum.parse_canonical parsed'
      · contradiction
    · exact canonical k found stands

theorem ofJson_canonical (read : ofJson j = .ok t) : t.Canonical := by
  cases j with
  | object members ending =>
    obtain ⟨new, here, ended⟩ := bind_eq_ok_iff.mp read
    have same : new = t := by
      cases ending with
      | none => exact Except.ok.inj ended
      | some f => contradiction
    subst same
    have every := readEntries_canonical (by simp) here
    intro e member
    exact every e.1 e.2 (Std.ExtTreeMap.mem_toList_iff_getElem?_eq_some.mp member)
  | _ => simp [ofJson, Json.unexpected] at read

end ChecksumTable

namespace Config

/-- What a document can say of a configuration, and all that it can say. -/
structure Storable (c : Config) : Prop where
  attempts : c.maxAttempts < Json.wordBound
  jobs : ∀ n ∈ c.jobs, n < Json.wordBound
  checksums : c.checksums.Canonical

theorem storable_iff {c : Config} : c.Storable ↔ c.maxAttempts < Json.wordBound ∧
    (∀ n ∈ c.jobs, n < Json.wordBound) ∧ c.checksums.Canonical :=
  ⟨fun storable => ⟨storable.attempts, storable.jobs, storable.checksums⟩,
    fun all => ⟨all.1, all.2.1, all.2.2⟩⟩

instance (c : Config) : Decidable c.Storable := decidable_of_iff _ storable_iff.symm

theorem standard_storable : standard.Storable := by decide +kernel

namespace Field

def json (c : Config) : Field → Json
  | library => .string c.library
  | package => .string c.package
  | defaultVersion => .string c.defaultVersion
  | urlTemplate => .string c.urlTemplate
  | fallbackBase => .string c.fallbackBase
  | checksums => c.checksums.json
  | configureArgs => .array (c.configureArgs.map .string) none
  | makeProgram => .string c.makeProgram
  | prefixDir => .string c.prefixDir
  | includeLink => .string c.includeLink
  | libLink => .string c.libLink
  | maxAttempts => .number (.natural c.maxAttempts)
  | jobs => match c.jobs with
    | some n => .number (.natural n)
    | none => .null

def copy (c b : Config) : Field → Config
  | library => { b with library := c.library }
  | package => { b with package := c.package }
  | defaultVersion => { b with defaultVersion := c.defaultVersion }
  | urlTemplate => { b with urlTemplate := c.urlTemplate }
  | fallbackBase => { b with fallbackBase := c.fallbackBase }
  | checksums => { b with checksums := c.checksums }
  | configureArgs => { b with configureArgs := c.configureArgs }
  | makeProgram => { b with makeProgram := c.makeProgram }
  | prefixDir => { b with prefixDir := c.prefixDir }
  | includeLink => { b with includeLink := c.includeLink }
  | libLink => { b with libLink := c.libLink }
  | maxAttempts => { b with maxAttempts := c.maxAttempts }
  | jobs => { b with jobs := c.jobs }

theorem copy_all (c b : Config) : all.foldl (copy c) b = c := by
  simp only [all, List.foldl_cons, List.foldl_nil, copy]

theorem ofName?_name (f : Field) : ofName? f.name = some f := by
  cases f <;> decide

variable {c : Config}

theorem print_reads (storable : c.Storable) (f : Field) : Json.Reads (f.print c) (f.json c) := by
  cases f with
  | checksums => exact c.checksums.print_reads
  | configureArgs => exact Json.array_reads fun s _ => Json.string_reads s
  | maxAttempts => exact Json.natural_reads storable.attempts
  | jobs =>
    rw [print, json]
    cases given : c.jobs with
    | none => exact Json.null_reads
    | some n => exact Json.natural_reads (storable.jobs n given)
  | _ => exact Json.string_reads _

theorem texts_strings (ss : List String) : (ss.map Json.string).mapM Json.text = .ok ss := by
  induction ss with
  | nil => rfl
  | cons s ss ih =>
    rw [List.map_cons, List.mapM_cons, ih]
    rfl

theorem read_json (storable : c.Storable) (b : Config) (f : Field) :
    f.read b (f.json c) = .ok (f.copy c b) := by
  cases f with
  | checksums =>
    rw [read, json, copy, ChecksumTable.ofJson_json storable.checksums]
    rfl
  | configureArgs =>
    rw [read, json, copy, Json.texts, texts_strings]
    rfl
  | jobs =>
    rw [read, json, copy]
    cases c.jobs with
    | none => rfl
    | some n => rfl
  | _ => rfl

end Field

variable {b c : Config}

/-- Fields that are laid over a configuration one by one, none of them twice. -/
theorem readMembers_fields (storable : c.Storable) (fs seen : List Field) (distinct : fs.Nodup)
    (unseen : ∀ f ∈ fs, f ∉ seen) (b : Config) :
    readMembers b seen (fs.map fun f => (f.name, f.json c)) = .ok (fs.foldl (Field.copy c) b) := by
  induction fs generalizing b seen with
  | nil => rfl
  | cons f fs ih =>
    obtain ⟨new, others⟩ := List.nodup_cons.mp distinct
    have unseen' : ∀ g ∈ fs, g ∉ f :: seen := by
      intro g member
      have further : g ∉ seen := unseen g (List.mem_cons_of_mem f member)
      rw [List.mem_cons, not_or]
      exact ⟨fun same => new (same ▸ member), further⟩
    have rest := ih (f :: seen) others unseen' (f.copy c b)
    rw [List.map_cons, readMembers, Field.ofName?_name]
    simp only [if_neg (unseen f List.mem_cons_self), Field.read_json storable, bind, Except.bind]
    exact rest

/-- What is printed of a configuration is read as it. -/
theorem parse_print (storable : c.Storable) : parse c.print = .ok c := by
  have whole : Json.parse c.print = ⟨.object (Field.all.map fun f => (f.name, f.json c)) none, none⟩ :=
    Json.parse_printed (Json.object_reads Field.name fun f _ => Field.print_reads storable f)
  have members := readMembers_fields storable Field.all [] (by decide)
    (fun _ _ => List.not_mem_nil) standard
  rw [Field.copy_all] at members
  rw [parse, whole, ofDocument, ofJson, members]
  rfl

theorem unexpected_ne_ok {α : Type} {j : Json} {wanted : String} {a : α} :
    j.unexpected wanted ≠ .ok a := by
  cases j <;> simp [Json.unexpected]

theorem natural_lt {j : Json} (bounded : j.Bounded) (read : j.natural = .ok n) :
    n < Json.wordBound := by
  unfold Json.natural at read
  split at read
  · obtain rfl := Except.ok.inj read
    exact bounded
  · contradiction
  · exact absurd read unexpected_ne_ok

/-- Reading a field keeps what a document cannot exceed. -/
theorem Field.read_storable (storable : b.Storable) {j : Json} (bounded : j.Bounded)
    {f : Field} (laid : f.read b j = .ok c) : c.Storable := by
  cases f with
  | checksums =>
    obtain ⟨t, here, same⟩ := bind_eq_ok_iff.mp laid
    obtain rfl := Except.ok.inj same
    exact { storable with checksums := ChecksumTable.ofJson_canonical here }
  | maxAttempts =>
    obtain ⟨n, here, same⟩ := bind_eq_ok_iff.mp laid
    obtain rfl := Except.ok.inj same
    exact { storable with attempts := natural_lt bounded here }
  | jobs =>
    obtain ⟨n, here, same⟩ := bind_eq_ok_iff.mp laid
    obtain rfl := Except.ok.inj same
    refine { storable with jobs := fun m given => ?_ }
    obtain rfl : n = some m := given
    unfold Json.naturalOrNull at here
    split at here
    · cases Except.ok.inj here
    · cases read : Json.natural j with
      | error e =>
        rw [read] at here
        contradiction
      | ok k =>
        rw [read] at here
        obtain rfl := Option.some.inj (Except.ok.inj here)
        exact natural_lt bounded read
  | _ =>
    obtain ⟨_, -, same⟩ := bind_eq_ok_iff.mp laid
    obtain rfl := Except.ok.inj same
    exact ⟨storable.attempts, storable.jobs, storable.checksums⟩

theorem readMembers_storable (storable : b.Storable) {members : List (String × Json)}
    (bounded : ∀ m ∈ members, m.2.Bounded) {seen : List Field}
    (read : readMembers b seen members = .ok c) : c.Storable := by
  induction members generalizing b seen with
  | nil =>
    obtain rfl := Except.ok.inj read
    exact storable
  | cons m members ih =>
    rw [readMembers] at read
    split at read
    · contradiction
    split at read
    · contradiction
    · obtain ⟨next, first, others⟩ := bind_eq_ok_iff.mp read
      have kept := Field.read_storable storable (bounded m List.mem_cons_self) first
      exact ih kept (fun other member => bounded other (List.mem_cons_of_mem m member)) others

theorem readItems_storable (storable : b.Storable) {items : List Json}
    (bounded : ∀ j ∈ items, j.Bounded) {fs : List Field}
    (read : readItems b fs items = .ok c) : c.Storable := by
  induction items generalizing b fs with
  | nil =>
    rw [readItems] at read
    obtain rfl := Except.ok.inj read
    exact storable
  | cons j items ih =>
    cases fs with
    | nil => contradiction
    | cons f fs =>
      obtain ⟨next, first, others⟩ := bind_eq_ok_iff.mp read
      have kept := Field.read_storable storable (bounded j List.mem_cons_self) first
      exact ih kept (fun other member => bounded other (List.mem_cons_of_mem j member)) others

/-- Whatever is read of a text can be printed. -/
theorem parse_storable (read : parse s = .ok c) : c.Storable := by
  obtain ⟨d, laid, done⟩ := bind_eq_ok_iff.mp read
  obtain ⟨-, rfl⟩ := Json.ended_ok_iff.mp done
  have filled := Json.parse_filled s
  cases whole : (Json.parse s).root with
  | object members ending =>
    rw [whole] at laid filled
    obtain ⟨e, members, done⟩ := bind_eq_ok_iff.mp laid
    obtain ⟨-, rfl⟩ := Json.ended_ok_iff.mp done
    exact readMembers_storable standard_storable filled members
  | array items ending =>
    rw [whole] at laid filled
    obtain ⟨e, items, done⟩ := bind_eq_ok_iff.mp laid
    obtain ⟨-, rfl⟩ := Json.ended_ok_iff.mp done
    exact readItems_storable standard_storable filled items
  | _ =>
    rw [whole, ofJson] at laid
    · exact absurd laid unexpected_ne_ok
    all_goals simp

/-- Some text in some file is loaded as the configuration. -/
def Loadable (c : Config) : Prop :=
  ∃ (σ : Type) (h : Host σ) (p : String) (s : σ), (load h p s).1 = .ok c

theorem load_ok {σ : Type} {h : Host σ} {s : σ} : (load h p s).1 = .ok c ↔
    ∃ text, (h.readText p s).1 = .ok text ∧ parse text = .ok c ∧ c.validate = .ok () := by
  constructor
  · intro loaded
    obtain ⟨text, found, judged⟩ := Task.bind_eq_ok loaded
    refine ⟨text, Task.within_ok.mp found, ?_⟩
    cases parsed : parse text with
    | error e =>
      simp only [parsed] at judged
      contradiction
    | ok read =>
      cases valid : read.validate with
      | error e =>
        simp only [parsed, valid] at judged
        contradiction
      | ok done =>
        simp only [parsed, valid] at judged
        cases judged
        exact ⟨rfl, valid⟩
  · rintro ⟨text, found, parsed, valid⟩
    rw [load, Task.bind_ok (a := text) (Task.within_ok.mpr found)]
    simp [parsed, valid]

/-- A file is read as the text it holds. -/
theorem readText_holds {text : String} {m : Machine} (held : m.files.Holds p text.toUTF8)
    (w : Surroundings) : (Machine.host w).readText p m = (.ok text, m) := by
  simp only [Machine.host, Task.within_apply, Machine.reading_apply, held.readText]
  rfl

/-- A file that holds what was printed of a configuration is loaded as it. -/
theorem load_printed (storable : c.Storable) (valid : c.validate = .ok ()) (w : Surroundings)
    {m : Machine} (held : m.files.Holds p c.print.toUTF8) :
    load (Machine.host w) p m = (.ok c, m) := by
  have read := readText_holds held w
  rw [load, Task.bind_ok (a := c.print) (Task.within_ok.mpr (by rw [read])), Task.within_apply, read]
  simp only [parse_print storable, valid]
  rfl

/-- A tree with one file. -/
theorem lone_file_holds (bytes : ByteArray) :
    (FileTree.empty.put ["c"] (FileTree.lone fileMode bytes)).Holds "/c" bytes := by
  let t := FileTree.empty.put ["c"] (FileTree.lone fileMode bytes)
  have root : t.Reached [] :=
    ⟨fun _ member => absurd member List.not_mem_nil, ⟨directoryMode, rfl⟩,
      fun k upper inner => absurd (List.prefix_nil.mp upper) inner⟩
  have stands : t.node? ["c"] = some (FileTree.lone fileMode bytes) := by
    rw [FileTree.node?_put .empty (by decide), if_pos rfl]
  have opened := FileTree.openToRead_lone root rfl ⟨⟨by decide, by decide⟩, by decide, by decide⟩
    (by decide) stands
  have path : Path.absolute ([] ++ ["c"]) = "/c" := by decide
  rw [path, if_pos (by decide)] at opened
  exact opened

theorem loadable_iff : c.Loadable ↔ c.Storable ∧ c.validate = .ok () := by
  constructor
  · rintro ⟨σ, h, p, s, loaded⟩
    obtain ⟨text, -, parsed, valid⟩ := load_ok.mp loaded
    exact ⟨parse_storable parsed, valid⟩
  · rintro ⟨storable, valid⟩
    let w : Surroundings := { command := fun _ _ files => (.error (.ofMessage ""), files) }
    let m : Machine := { files := FileTree.empty.put ["c"] (FileTree.lone fileMode c.print.toUTF8) }
    have loaded := load_printed storable valid w (m := m) (lone_file_holds _)
    exact ⟨Machine, Machine.host w, "/c", m, by rw [loaded]⟩

/-- Any configuration that is loaded from anywhere, and the standard one, is valid and is read back
from its print, as text and as a file. Those are the valid configurations with integers below
`2 ^ 64` and checksums in lower case; texts, lists and versions can be anything. -/
theorem config_round_trips :
    (∀ c : Config, c = standard ∨ c.Loadable →
      parse c.print = .ok c ∧ c.validate = .ok () ∧
        ∀ (w : Surroundings) (m : Machine) (p : String), m.files.Holds p c.print.toUTF8 →
          load (Machine.host w) p m = (.ok c, m)) ∧
    ∀ c : Config, c.Loadable ↔ c.Storable ∧ c.validate = .ok () := by
  refine ⟨fun c known => ?_, fun c => loadable_iff⟩
  have sound : c.Storable ∧ c.validate = .ok () := by
    rcases known with rfl | loadable
    · exact ⟨standard_storable, by decide +kernel⟩
    · exact loadable_iff.mp loadable
  exact ⟨parse_print sound.1, sound.2, fun w m p held => load_printed sound.1 sound.2 w held⟩

/-- A configuration with what is hard to write: quotes, backslashes, controls, characters beyond
sixteen bits, the largest numbers and an odd version. -/
def awkward : Config :=
  { standard with
    library := "\"\\\x01\n\u2028𝄞"
    configureArgs := []
    maxAttempts := Nat.pow 2 64 - 1
    jobs := some (Nat.pow 2 64 - 1)
    checksums := ChecksumTable.ofList
      [("", ⟨.md5, "0123456789abcdef0123456789abcdef"⟩),
        ("\"9\"", ⟨.sha256, "0123456789abcdef0123456789abcdef0123456789abcdef0123456789abcdef"⟩)] }

theorem awkward_config_round_trips : awkward.Loadable ∧ parse awkward.print = .ok awkward ∧
    awkward.validate = .ok () := by
  have loadable : awkward.Loadable :=
    (config_round_trips.2 awkward).mpr ⟨by decide +kernel, by decide +kernel⟩
  obtain ⟨read, valid, -⟩ := config_round_trips.1 awkward (.inr loadable)
  exact ⟨loadable, read, valid⟩

end Config

end MolecularTools
