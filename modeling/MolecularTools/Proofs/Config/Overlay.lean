import MolecularTools.Proofs.Config.RoundTrip

/-! Which documents are configurations. A member of an object names a field and says its value; an
object is accepted when its members are well formed and what they make of the standard
configuration is usable. -/
namespace MolecularTools

namespace Json

theorem text_ok_iff {j : Json} {s : String} : j.text = .ok s ↔ j = .string s := by
  cases j <;> simp [text, unexpected]

theorem mapM_text_ok_iff {js : List Json} {ss : List String} :
    js.mapM text = .ok ss ↔ js = ss.map .string := by
  constructor
  · intro read
    induction js generalizing ss with
    | nil =>
      obtain rfl := Except.ok.inj read
      rfl
    | cons j js ih =>
      rw [List.mapM_cons] at read
      obtain ⟨s, here, read⟩ := bind_eq_ok_iff.mp read
      obtain ⟨others, behind, same⟩ := bind_eq_ok_iff.mp read
      obtain rfl := Except.ok.inj same
      rw [List.map_cons, ← ih behind, text_ok_iff.mp here]
  · rintro rfl
    exact Config.Field.texts_strings ss

theorem texts_ok_iff {j : Json} {ss : List String} :
    j.texts = .ok ss ↔ j = .array (ss.map .string) none := by
  cases j with
  | array items ending =>
    rw [texts, bind_eq_ok_iff]
    constructor
    · rintro ⟨texts, read, done⟩
      obtain ⟨rfl, rfl⟩ := ended_ok_iff.mp done
      rw [mapM_text_ok_iff.mp read]
    · intro same
      obtain ⟨rfl, rfl⟩ := array.inj same
      exact ⟨ss, Config.Field.texts_strings ss, rfl⟩
  | _ => simp [texts, unexpected]

theorem natural_ok_iff {j : Json} {n : Nat} : j.natural = .ok n ↔ j = .number (.natural n) := by
  cases j with
  | number m => cases m <;> simp [natural, unexpected]
  | _ => simp [natural, unexpected]

end Json

namespace ChecksumTable

/-- What the last of the entries for a version says. -/
def last? (entries : List (String × String × Checksum)) (version : String) : Option Checksum :=
  (entries.reverse.find? (·.1 = version)).map (·.2.2)

/-- The value of a member as a table: an object of texts that are read as checksums. The last of
several texts for one version counts. -/
def Denotes (j : Json) (t : ChecksumTable) : Prop :=
  ∃ entries : List (String × String × Checksum),
    j = .object (entries.map fun e => (e.1, .string e.2.1)) none ∧
    (∀ e ∈ entries, Checksum.parse e.2.1 = .ok e.2.2) ∧
    ∀ version : String, t[version]? = last? entries version

/-- The first entry counts where none of the others is for its version. -/
theorem last?_cons (t : ChecksumTable) (e : String × String × Checksum)
    (entries : List (String × String × Checksum)) (version : String) :
    (last? (e :: entries) version).or t[version]? =
      (last? entries version).or (t.insert e.1 e.2.2)[version]? := by
  rw [last?, List.reverse_cons, List.find?_append, Option.map_or, Option.or_assoc, ← last?,
    Std.ExtTreeMap.getElem?_insert]
  by_cases here : e.1 = version <;> simp [here]

theorem readChecksum_ok_iff {j : Json} {c : Checksum} :
    readChecksum j = .ok c ↔ ∃ text, j = .string text ∧ Checksum.parse text = .ok c := by
  rw [readChecksum, bind_eq_ok_iff]
  constructor
  · rintro ⟨text, here, parsed⟩
    refine ⟨text, Json.text_ok_iff.mp here, ?_⟩
    split at parsed
    · rename_i found
      exact Except.ok.inj parsed ▸ found
    · contradiction
  · rintro ⟨text, rfl, parsed⟩
    exact ⟨text, rfl, by rw [parsed]⟩

/-- Reading entries gives, for each version, what the last entry for it says. -/
theorem readEntries_ok_iff {members : List (String × Json)} {old new : ChecksumTable} :
    readEntries old members = .ok new ↔ ∃ entries : List (String × String × Checksum),
      members = (entries.map fun e => (e.1, .string e.2.1)) ∧
      (∀ e ∈ entries, Checksum.parse e.2.1 = .ok e.2.2) ∧
      ∀ version : String, new[version]? = (last? entries version).or old[version]? := by
  induction members generalizing old with
  | nil =>
    constructor
    · intro read
      obtain rfl := Except.ok.inj read
      exact ⟨[], rfl, fun _ member => absurd member List.not_mem_nil, fun _ => rfl⟩
    · rintro ⟨entries, shape, -, looked⟩
      obtain rfl := List.map_eq_nil_iff.mp shape.symm
      exact congrArg Except.ok (Std.ExtTreeMap.ext_getElem? fun version => (looked version).symm)
  | cons m members ih =>
    rw [readEntries, bind_eq_ok_iff]
    constructor
    · rintro ⟨c, here, others⟩
      obtain ⟨text, value, parsed⟩ := readChecksum_ok_iff.mp here
      obtain ⟨entries, rfl, parses, looked⟩ := ih.mp others
      refine ⟨(m.1, text, c) :: entries, by rw [List.map_cons, ← value], ?_, fun version => ?_⟩
      · intro e member
        cases member with
        | head => exact parsed
        | tail _ member => exact parses e member
      · rw [last?_cons, looked]
    · rintro ⟨entries, shape, parses, looked⟩
      cases entries with
      | nil => contradiction
      | cons e entries =>
        obtain ⟨rfl, rfl⟩ := List.cons.inj shape
        refine ⟨e.2.2, readChecksum_ok_iff.mpr ⟨e.2.1, rfl, parses e List.mem_cons_self⟩, ?_⟩
        refine ih.mpr ⟨entries, rfl, fun d member => parses d (List.mem_cons_of_mem e member), ?_⟩
        intro version
        rw [looked, last?_cons]

theorem ofJson_ok_iff {j : Json} {t : ChecksumTable} : ofJson j = .ok t ↔ Denotes j t := by
  have only (entries : List (String × String × Checksum)) (version : String) :
      (last? entries version).or (∅ : ChecksumTable)[version]? = last? entries version := by simp
  cases j with
  | object members ending =>
    rw [ofJson, bind_eq_ok_iff]
    constructor
    · rintro ⟨new, read, done⟩
      obtain ⟨rfl, rfl⟩ := Json.ended_ok_iff.mp done
      obtain ⟨entries, rfl, parses, looked⟩ := readEntries_ok_iff.mp read
      exact ⟨entries, rfl, parses, fun version => (looked version).trans (only _ _)⟩
    · rintro ⟨entries, shape, parses, looked⟩
      obtain ⟨rfl, rfl⟩ := Json.object.inj shape
      exact ⟨t, readEntries_ok_iff.mpr ⟨entries, rfl, parses,
        fun version => (looked version).trans (only _ _).symm⟩, rfl⟩
  | _ => simp [ofJson, Json.unexpected, Denotes]

end ChecksumTable

namespace Config

namespace Field

def Value : Field → Type
  | checksums => ChecksumTable
  | configureArgs => List String
  | maxAttempts => Nat
  | jobs => Option Nat
  | _ => String

def get (c : Config) : (f : Field) → f.Value
  | library => c.library
  | package => c.package
  | defaultVersion => c.defaultVersion
  | urlTemplate => c.urlTemplate
  | fallbackBase => c.fallbackBase
  | checksums => c.checksums
  | configureArgs => c.configureArgs
  | makeProgram => c.makeProgram
  | prefixDir => c.prefixDir
  | includeLink => c.includeLink
  | libLink => c.libLink
  | maxAttempts => c.maxAttempts
  | jobs => c.jobs

/-- The value that a document says for a field; a document of another type says none. -/
def Denotes : (f : Field) → Json → f.Value → Prop
  | library, j, s => j = .string s
  | package, j, s => j = .string s
  | defaultVersion, j, s => j = .string s
  | urlTemplate, j, s => j = .string s
  | fallbackBase, j, s => j = .string s
  | checksums, j, t => ChecksumTable.Denotes j t
  | configureArgs, j, args => j = .array (List.map Json.string args) none
  | makeProgram, j, s => j = .string s
  | prefixDir, j, s => j = .string s
  | includeLink, j, s => j = .string s
  | libLink, j, s => j = .string s
  | maxAttempts, j, n => j = .number (.natural n)
  | jobs, j, some n => j = .number (.natural n)
  | jobs, j, none => j = .null

variable {b c d : Config}

theorem ext_get (same : ∀ f, get c f = get d f) : c = d := by
  cases c
  cases d
  simp only [Config.mk.injEq]
  exact ⟨same library, same package, same defaultVersion, same urlTemplate, same fallbackBase,
    same checksums, same configureArgs, same makeProgram, same prefixDir, same includeLink,
    same libLink, same maxAttempts, same jobs⟩

theorem get_copy_self (c b : Config) (f : Field) : get (copy c b f) f = get c f := by
  cases f <;> rfl

theorem get_copy_other (c b : Config) {f g : Field} (other : g ≠ f) :
    get (copy c b f) g = get b g := by
  cases f <;> cases g <;> first | rfl | contradiction

theorem copy_copy (c b : Config) (f : Field) : copy (copy c b f) b f = copy c b f := by
  cases f <;> rfl

/-- Every value is that of some configuration. -/
theorem get_surjective : ∀ (f : Field) (v : f.Value), ∃ c, get c f = v
  | library, v => ⟨{ standard with library := v }, rfl⟩
  | package, v => ⟨{ standard with package := v }, rfl⟩
  | defaultVersion, v => ⟨{ standard with defaultVersion := v }, rfl⟩
  | urlTemplate, v => ⟨{ standard with urlTemplate := v }, rfl⟩
  | fallbackBase, v => ⟨{ standard with fallbackBase := v }, rfl⟩
  | checksums, v => ⟨{ standard with checksums := v }, rfl⟩
  | configureArgs, v => ⟨{ standard with configureArgs := v }, rfl⟩
  | makeProgram, v => ⟨{ standard with makeProgram := v }, rfl⟩
  | prefixDir, v => ⟨{ standard with prefixDir := v }, rfl⟩
  | includeLink, v => ⟨{ standard with includeLink := v }, rfl⟩
  | libLink, v => ⟨{ standard with libLink := v }, rfl⟩
  | maxAttempts, v => ⟨{ standard with maxAttempts := v }, rfl⟩
  | jobs, v => ⟨{ standard with jobs := v }, rfl⟩

theorem naturalOrNull_ok_iff {j : Json} {n : Option Nat} :
    j.naturalOrNull = .ok n ↔ Field.jobs.Denotes j n := by
  have mapped (r : Except JsonFault Nat) :
      r.map some = .ok n ↔ ∃ m, r = .ok m ∧ n = some m := by
    cases r <;> simp [Except.map, eq_comm]
  cases n with
  | none => cases j <;> simp [Json.naturalOrNull, Denotes, mapped]
  | some n =>
    cases j <;> simp [Json.naturalOrNull, Denotes, mapped, Json.natural_ok_iff]

/-- A field whose value is read by `value` and put in its place by `lay`. -/
theorem laid_ok_iff {j : Json} {f : Field} {value : Except JsonFault f.Value}
    {lay : f.Value → Config} (shape : f.read b j = value >>= fun v => .ok (lay v))
    (reads : ∀ v, value = .ok v ↔ f.Denotes j v) (laid : ∀ v, get (lay v) f = v)
    (copied : lay (get c f) = copy c b f) :
    f.read b j = .ok c ↔ f.Denotes j (get c f) ∧ copy c b f = c := by
  rw [shape, bind_eq_ok_iff, ← copied]
  constructor
  · rintro ⟨v, read, same⟩
    obtain rfl := Except.ok.inj same
    rw [laid]
    exact ⟨(reads v).mp read, rfl⟩
  · rintro ⟨denoted, same⟩
    exact ⟨get c f, (reads _).mpr denoted, congrArg Except.ok same⟩

/-- Reading a field is laying over the value that the document says, if it says one. -/
theorem read_ok_iff {j : Json} {f : Field} :
    f.read b j = .ok c ↔ f.Denotes j (get c f) ∧ copy c b f = c := by
  cases f with
  | checksums => exact laid_ok_iff rfl (fun _ => ChecksumTable.ofJson_ok_iff) (fun _ => rfl) rfl
  | configureArgs => exact laid_ok_iff rfl (fun _ => Json.texts_ok_iff) (fun _ => rfl) rfl
  | maxAttempts => exact laid_ok_iff rfl (fun _ => Json.natural_ok_iff) (fun _ => rfl) rfl
  | jobs => exact laid_ok_iff rfl (fun _ => naturalOrNull_ok_iff) (fun _ => rfl) rfl
  | _ => exact laid_ok_iff rfl (fun _ => Json.text_ok_iff) (fun _ => rfl) rfl

theorem name_injective {f g : Field} (same : f.name = g.name) : f = g := by
  have named := ofName?_name f
  rw [same, ofName?_name] at named
  exact (Option.some.inj named).symm

theorem name_of_ofName? {name : String} {f : Field} (found : ofName? name = some f) :
    f.name = name := by
  have same := List.find?_some found
  exact of_decide_eq_true same

end Field

structure Named (members : List (String × Json)) : Prop where
  known : ∀ m ∈ members, ∃ f : Field, f.name = m.1
  distinct : (members.map Prod.fst).Nodup

/-- The configuration `c` is `b` with exactly the fields replaced that the members name. -/
structure Overlays (b : Config) (members : List (String × Json)) (c : Config) : Prop
    extends Named members where
  given : ∀ (f : Field) (j : Json), (f.name, j) ∈ members → f.Denotes j (f.get c)
  kept : ∀ f : Field, f.name ∉ members.map Prod.fst → f.get c = f.get b

variable {b c d : Config} {members : List (String × Json)}

theorem Overlays.nil : Overlays b [] b where
  known _ member := absurd member List.not_mem_nil
  distinct := List.nodup_nil
  given _ _ member := absurd member List.not_mem_nil
  kept _ _ := rfl

/-- One more member in front, laid over first. -/
theorem Overlays.cons {f : Field} (new : f.name ∉ members.map Prod.fst)
    (denotes : f.Denotes j (f.get d)) (rest : Overlays (f.copy d b) members c) :
    Overlays b ((f.name, j) :: members) c where
  known m member := by
    cases member with
    | head => exact ⟨f, rfl⟩
    | tail _ member => exact rest.known m member
  distinct := List.nodup_cons.mpr ⟨new, rest.distinct⟩
  given g k member := by
    rcases List.mem_cons.mp member with same | member
    · obtain ⟨name, rfl⟩ := Prod.mk.inj same
      obtain rfl := Field.name_injective name
      rw [rest.kept g new, Field.get_copy_self]
      exact denotes
    · exact rest.given g k member
  kept g absent := by
    obtain ⟨other, absent⟩ := not_or.mp (List.mem_cons.not.mp absent)
    have other : g ≠ f := fun same => other (congrArg Field.name same)
    rw [rest.kept g absent, Field.get_copy_other d b other]

/-- The members behind the first are laid over what the first one leaves. -/
theorem Overlays.tail {f : Field} (whole : Overlays b ((f.name, j) :: members) c) :
    Overlays (f.copy c b) members c where
  known m member := whole.known m (List.mem_cons_of_mem _ member)
  distinct := (List.nodup_cons.mp whole.distinct).2
  given g k member := whole.given g k (List.mem_cons_of_mem _ member)
  kept g absent := by
    by_cases same : g = f
    · rw [same, Field.get_copy_self]
    · rw [Field.get_copy_other c b same]
      refine whole.kept g fun member => ?_
      rcases List.mem_cons.mp member with name | member
      · exact same (Field.name_injective name)
      · exact absent member

/-- Reading members lays them over, unless one names a field that was seen before. -/
theorem readMembers_ok_iff {seen : List Field} : readMembers b seen members = .ok c ↔
    Overlays b members c ∧ ∀ f ∈ seen, f.name ∉ members.map Prod.fst := by
  induction members generalizing b seen with
  | nil =>
    constructor
    · intro read
      obtain rfl := Except.ok.inj read
      exact ⟨.nil, fun _ _ => List.not_mem_nil⟩
    · rintro ⟨overlays, -⟩
      exact congrArg Except.ok (Field.ext_get fun f => (overlays.kept f List.not_mem_nil).symm)
  | cons m members ih =>
    obtain ⟨name, j⟩ := m
    rw [readMembers]
    constructor
    · intro read
      split at read
      · contradiction
      rename_i f found
      obtain rfl := Field.name_of_ofName? found
      split at read
      · contradiction
      rename_i unseen
      obtain ⟨d, here, others⟩ := bind_eq_ok_iff.mp read
      obtain ⟨denotes, copied⟩ := Field.read_ok_iff.mp here
      obtain ⟨rest, absent⟩ := ih.mp others
      have new := absent f List.mem_cons_self
      refine ⟨.cons new denotes (copied.symm ▸ rest), fun g member named => ?_⟩
      rcases List.mem_cons.mp named with same | named
      · exact unseen (Field.name_injective same ▸ member)
      · exact absent g (List.mem_cons_of_mem f member) named
    · rintro ⟨whole, absent⟩
      obtain ⟨f, rfl⟩ := whole.known (name, j) List.mem_cons_self
      have unseen : f ∉ seen := fun member => absent f member List.mem_cons_self
      have denotes := whole.given f j List.mem_cons_self
      have here : f.read b j = .ok (f.copy c b) :=
        Field.read_ok_iff.mpr
          ⟨(Field.get_copy_self c b f).symm ▸ denotes, Field.copy_copy c b f⟩
      have others : readMembers (f.copy c b) (f :: seen) members = .ok c := by
        refine ih.mpr ⟨whole.tail, fun g member => ?_⟩
        rcases List.mem_cons.mp member with rfl | member
        · exact (List.nodup_cons.mp whole.distinct).1
        · exact fun named => absent g member (List.mem_cons_of_mem _ named)
      simp only [Field.ofName?_name, if_neg unseen, here, bind, Except.bind]
      exact others

/-- The members lay some values over a configuration if and only if each has its field's type. -/
theorem exists_overlays : (∃ c, Overlays b members c) ↔ Named members ∧
    ∀ (f : Field) (j : Json), (f.name, j) ∈ members → ∃ v, f.Denotes j v := by
  constructor
  · rintro ⟨c, overlays⟩
    exact ⟨overlays.toNamed, fun f j member => ⟨f.get c, overlays.given f j member⟩⟩
  · rintro ⟨⟨known, distinct⟩, typed⟩
    induction members generalizing b with
    | nil => exact ⟨b, .nil⟩
    | cons m members ih =>
      obtain ⟨f, named⟩ := known m List.mem_cons_self
      obtain ⟨name, j⟩ := m
      obtain rfl : f.name = name := named
      obtain ⟨v, denotes⟩ := typed f j List.mem_cons_self
      obtain ⟨d, rfl⟩ := Field.get_surjective f v
      obtain ⟨new, distinct⟩ := List.nodup_cons.mp distinct
      obtain ⟨c, rest⟩ := ih (b := f.copy d b)
        (fun g k member => typed g k (List.mem_cons_of_mem _ member))
        (fun m member => known m (List.mem_cons_of_mem _ member)) distinct
      exact ⟨c, .cons new denotes rest⟩

theorem readMembers_eq_ok_iff : readMembers b [] members = .ok c ↔ Overlays b members c := by
  rw [readMembers_ok_iff]
  exact and_iff_left fun _ member => absurd member List.not_mem_nil

theorem Overlays.unique (overlays : Overlays b members c) (others : Overlays b members d) :
    c = d := by
  have read := readMembers_eq_ok_iff.mpr overlays
  rw [readMembers_eq_ok_iff.mpr others] at read
  exact (Except.ok.inj read).symm

/-- The order of the members does not count. -/
theorem Overlays.perm (overlays : Overlays b members c) (order : members.Perm members') :
    Overlays b members' c where
  known m member := overlays.known m (order.mem_iff.mpr member)
  distinct := (order.map Prod.fst).nodup_iff.mp overlays.distinct
  given f j member := overlays.given f j (order.mem_iff.mpr member)
  kept f absent := overlays.kept f fun member => absent ((order.map Prod.fst).mem_iff.mp member)

/-- What an installation asks of a configuration. -/
structure Usable (c : Config) : Prop where
  placeholder : "\x7bversion\x7d".toList <:+: c.urlTemplate.toList
  attempts : 1 ≤ c.maxAttempts
  named : c.includeLink ≠ "" ∧ c.libLink ≠ ""
  apart : c.includeLink ≠ c.libLink

theorem hasPlaceholder_iff {cs : List Char} :
    hasPlaceholder cs = true ↔ "\x7bversion\x7d".toList <:+: cs := by
  fun_induction hasPlaceholder cs with
  | case1 => decide
  | case2 rest => exact iff_of_true rfl ⟨[], rest, rfl⟩
  | case3 c rest other ih =>
    have later : ¬"\x7bversion\x7d".toList <+: c :: rest := by
      rintro ⟨behind, whole⟩
      obtain ⟨rfl, rfl⟩ := List.cons.inj whole.symm
      exact other behind rfl rfl
    rw [ih, List.infix_cons_iff, or_iff_right later]

theorem validate_ok_iff : c.validate = .ok () ↔ Usable c := by
  rw [validate]
  constructor
  · intro valid
    split at valid
    · contradiction
    rename_i placeholder
    split at valid
    · contradiction
    rename_i attempts
    split at valid
    · contradiction
    rename_i named
    split at valid
    · contradiction
    rename_i apart
    rw [Bool.not_eq_true', Bool.not_eq_false, hasPlaceholder_iff] at placeholder
    exact ⟨placeholder, Nat.pos_of_ne_zero attempts, not_or.mp named, apart⟩
  · rintro ⟨placeholder, attempts, named, apart⟩
    rw [← hasPlaceholder_iff] at placeholder
    simp [placeholder, Nat.pos_iff_ne_zero.mp attempts, named.1, named.2, apart]

theorem parse_object_iff {text : String} {ending behind : Option JsonFault}
    (object : Json.parse text = ⟨.object members ending, behind⟩) : parse text = .ok c ↔
      ending = none ∧ behind = none ∧ Overlays standard members c := by
  rw [parse, object, ofDocument, bind_eq_ok_iff]
  constructor
  · rintro ⟨d, laid, done⟩
    obtain ⟨rfl, rfl⟩ := Json.ended_ok_iff.mp done
    obtain ⟨e, read, done⟩ := bind_eq_ok_iff.mp laid
    obtain ⟨rfl, rfl⟩ := Json.ended_ok_iff.mp done
    exact ⟨rfl, rfl, readMembers_eq_ok_iff.mp read⟩
  · rintro ⟨rfl, rfl, overlays⟩
    exact ⟨c, bind_eq_ok_iff.mpr ⟨c, readMembers_eq_ok_iff.mpr overlays, rfl⟩, rfl⟩

theorem load_object_iff {σ : Type} {h : Host σ} {s : σ} {text : String}
    {ending behind : Option JsonFault} (found : (h.readText p s).1 = .ok text)
    (object : Json.parse text = ⟨.object members ending, behind⟩) : (load h p s).1 = .ok c ↔
      ending = none ∧ behind = none ∧ Overlays standard members c ∧ Usable c := by
  rw [load_ok]
  constructor
  · rintro ⟨same, read, parsed, valid⟩
    obtain rfl : text = same := Except.ok.inj (found.symm.trans read)
    obtain ⟨whole, alone, overlays⟩ := (parse_object_iff object).mp parsed
    exact ⟨whole, alone, overlays, validate_ok_iff.mp valid⟩
  · rintro ⟨whole, alone, overlays, usable⟩
    exact ⟨text, found, (parse_object_iff object).mpr ⟨whole, alone, overlays⟩,
      validate_ok_iff.mpr usable⟩

/-- A file with an object is loaded if and only if the object is whole and alone, each member names
a field and has its type, none is repeated, and the standard configuration with exactly the named
fields replaced is usable. That configuration is the result, whatever the order of the members. An
integer without sign is written with digits only and is below `2 ^ 64`. -/
theorem load_object {σ : Type} {h : Host σ} {s : σ} {p text : String}
    {members : List (String × Json)} {ending behind : Option JsonFault}
    (found : (h.readText p s).1 = .ok text)
    (object : Json.parse text = ⟨.object members ending, behind⟩) :
    (∀ c, (load h p s).1 = .ok c ↔
      ending = none ∧ behind = none ∧ Overlays standard members c ∧ Usable c) ∧
    ((∃ c, Overlays standard members c) ↔ Named members ∧
      ∀ (f : Field) (j : Json), (f.name, j) ∈ members → ∃ v, f.Denotes j v) ∧
    (∀ c d, Overlays standard members c → Overlays standard members d → c = d) ∧
    (∀ members' text' s', members.Perm members' → (h.readText p s').1 = .ok text' →
      Json.parse text' = ⟨.object members' ending, behind⟩ →
        ∀ c, (load h p s').1 = .ok c ↔ (load h p s).1 = .ok c) ∧
    ∀ fuel cs n rest, Json.readValue (fuel + 1) cs = (.number (.natural n), some rest) ↔
      ∃ digits, Json.skipSpace cs = digits ++ rest ∧ Json.Numeral digits n ∧ Json.Apart rest := by
  refine ⟨fun c => load_object_iff found object, exists_overlays, fun c d => Overlays.unique, ?_,
    fun _ _ _ _ => Json.readValue_natural_iff⟩
  intro members' text' s' order found' object' c
  have same : Overlays standard members' c ↔ Overlays standard members c :=
    ⟨fun overlays => overlays.perm order.symm, fun overlays => overlays.perm order⟩
  rw [load_object_iff found object, load_object_iff found' object', same]

/-- Members as they are printed and as they are read: the link of the libraries has the name that
stands for the headers by default, and is free because that one is renamed. -/
def swapped : List (String × List Char × Json) :=
  [("lib_link", Json.printString standard.includeLink, .string standard.includeLink),
    ("max_attempts", Json.printNat 3, .number (.natural 3)),
    ("include_link", Json.printString "headers", .string "headers"),
    ("jobs", ['n', 'u', 'l', 'l'], .null)]

def swappedText : String :=
  String.ofList (Json.printObject (swapped.map fun m => (m.1, m.2.1)))

def swappedConfig : Config :=
  { standard with libLink := standard.includeLink, includeLink := "headers", maxAttempts := 3 }

theorem swapped_overlays :
    Overlays standard (swapped.map fun m => (m.1, m.2.2)) swappedConfig :=
  .cons (f := .libLink) (d := swappedConfig) (by decide) rfl <|
    .cons (f := .maxAttempts) (d := swappedConfig) (by decide) rfl <|
      .cons (f := .includeLink) (d := swappedConfig) (by decide) rfl <|
        .cons (f := .jobs) (d := swappedConfig) (by decide) rfl .nil

theorem parse_swappedText : Json.parse swappedText =
    ⟨.object (swapped.map fun m => (m.1, m.2.2)) none, none⟩ := by
  refine Json.parse_printed (Json.object_reads Prod.fst fun m member => ?_)
  simp only [swapped, List.mem_cons, List.not_mem_nil, or_false] at member
  rcases member with rfl | rfl | rfl | rfl
  · exact Json.string_reads _
  · exact Json.natural_reads (show 3 < Json.wordBound by decide)
  · exact Json.string_reads _
  · exact Json.null_reads

theorem load_swapped :
    let w : Surroundings := { command := fun _ _ files => (.error (.ofMessage ""), files) }
    let m : Machine :=
      { files := FileTree.empty.put ["c"] (FileTree.lone fileMode swappedText.toUTF8) }
    (load (Machine.host w) "/c" m).1 = .ok swappedConfig := by
  intro w m
  have found : ((Machine.host w).readText "/c" m).1 = .ok swappedText := by
    have held : m.files.Holds "/c" swappedText.toUTF8 := lone_file_holds _
    rw [readText_holds held w]
  obtain ⟨loaded, -⟩ := load_object found parse_swappedText
  exact (loaded _).mpr ⟨rfl, rfl, swapped_overlays, validate_ok_iff.mp (by decide +kernel)⟩

end Config

end MolecularTools
