import MolecularTools.Files.Operations
import MolecularTools.Proofs.Files.Directories

/-! Files that are made or written to are found by the path they were made under. -/
namespace MolecularTools

namespace FileTree

def Place.room? : Place → Option Location
  | .found l (.file _) => some l
  | .found _ _ => none
  | .vacant directory name => some (directory ++ [name])

/-- The new tree has the file at the location, and all directories and links of the old one. -/
structure Furnished (old new : FileTree) (l : Location) (f : File) : Prop where
  here : new.node? l = some (.file f)
  directory : ∀ k mode, old.node? k = some (.directory mode) → new.node? k = some (.directory mode)
  link : ∀ k target, old.node? k = some (.link target) → new.node? k = some (.link target)

namespace Furnished

variable {old new : FileTree} {f : File} {k l : Location}

theorem searchable (furnished : Furnished old new k f) (search : old.searchable l = true) :
    new.searchable l = true := by
  obtain ⟨mode, found, may⟩ := (Option.any_eq_true _ _).mp search
  have stands := furnished.directory l mode (directoryMode?_eq_some.mp found)
  exact (Option.any_eq_true _ _).mpr ⟨mode, directoryMode?_eq_some.mpr stands, may⟩

/-- A walk that found room for the file finds the file, whatever it is walked for again; only
walks that make files refuse some paths that others take. -/
theorem leads (goal : Aim) (furnished : Furnished old new k f) (through : goal ≠ .entry)
    (makes : goal = .create → aim = .create)
    (leads : Leads old aim links last l slash names spot) (room : spot.place.room? = some k) :
    Leads new goal links last l slash names ⟨.found k (.file f), spot.slash, none⟩ := by
  induction leads with
  | stop => contradiction
  | here search _ ih => exact .here (furnished.searchable search) (ih room)
  | up search _ ih => exact .up (furnished.searchable search) (ih room)
  | vacant search sought ends =>
    obtain rfl := Option.some.inj room
    exact .entry (furnished.searchable search) sought (fun slash same => ends slash (makes same))
      furnished.here fun _ same => by contradiction
  | @entry l name slash n links last search sought ends stands itself =>
    cases n with
    | directory mode => contradiction
    | link target => contradiction
    | file _ =>
      obtain rfl := Option.some.inj room
      exact .entry (furnished.searchable search) sought (fun slash same => ends slash (makes same))
        furnished.here fun _ same => by contradiction
  | into search sought further stands _ ih =>
    exact .into (furnished.searchable search) sought further (furnished.directory _ _ stands)
      (ih room)
  | follow search sought ends stands _ ih =>
    exact .follow (furnished.searchable search) sought
      (fun final => ⟨through, fun slash same => (ends final).2 slash (makes same)⟩)
      (furnished.link _ _ stands) (ih room)

theorem walk (goal : Aim) (furnished : Furnished old new k f) (through : goal ≠ .entry)
    (makes : goal = .create → aim = .create) (room : place.room? = some k)
    (walked : old.walk aim p = .ok ⟨place, s, dots⟩) :
    new.walk goal p = .ok ⟨.found k (.file f), s, none⟩ := by
  obtain ⟨passable, leads⟩ := walk_ok_iff.mp walked
  exact walk_ok_iff.mpr ⟨passable, furnished.leads goal through makes leads room⟩

theorem refl {t : FileTree} (stands : t.node? l = some (.file f)) : Furnished t t l f :=
  ⟨stands, fun _ _ kept => kept, fun _ _ kept => kept⟩

theorem trans {between : FileTree} {g : File} (first : Furnished old between l g)
    (second : Furnished between new l f) : Furnished old new l f where
  here := second.here
  directory k mode stands := second.directory k mode (first.directory k mode stands)
  link k target stands := second.link k target (first.link k target stands)

/-- A new file is put where there was none. -/
theorem put (t : FileTree) (inner : l ≠ []) (free : t.node? l = none) (f : File) :
    Furnished t (t.put l (.file f)) l f := by
  constructor
  · rw [node?_put t inner, if_pos rfl]
  · intro k mode stands
    rw [node?_put t inner, if_neg, stands]
    rintro rfl
    rw [free] at stands
    contradiction
  · intro k target stands
    rw [node?_put t inner, if_neg, stands]
    rintro rfl
    rw [free] at stands
    contradiction

/-- Changing a file leaves all directories and links alone, though it can change the file under
further names. -/
theorem changeFile {t : FileTree} (stands : t.node? l = some (.file f)) (g : File → File) :
    Furnished t (t.changeFile l g) l (g f) := by
  constructor
  · rw [node?_changeFile stands, stands]
    simp [isChanged]
  · intro k mode directory
    rw [node?_changeFile stands, directory]
  · intro k target link
    rw [node?_changeFile stands, link]

theorem lookup (furnished : Furnished old new k f) (room : place.room? = some k)
    (walked : old.walk aim p = .ok ⟨place, false, dots⟩) :
    new.lookup p = .ok (k, .file f) := by
  have found := furnished.walk .target (by decide) (fun same => by contradiction) room walked
  exact lookup_ok_iff.mpr ⟨false, none, found, rfl⟩

end Furnished

variable {t new : FileTree}

/-- A file that was looked up stands where it was found. -/
theorem lookup_file (found : t.lookup p = .ok (l, .file f)) :
    t.node? l = some (.file f) ∧
      ∃ dots, t.walk .target p = .ok ⟨.found l (.file f), false, dots⟩ := by
  obtain ⟨slash, dots, walked, flat⟩ := lookup_ok_iff.mp found
  obtain rfl : slash = false := by simpa [Node.isDirectory] using flat
  refine ⟨?_, dots, walked⟩
  cases walk_ends walked with
  | found proper search stands ends => exact stands

theorem append_lookup (found : t.lookup p = .ok (l, .file f)) (bytes : ByteArray) :
    (t.append l bytes).lookup p = .ok (l, .file { f with bytes := f.bytes ++ bytes }) := by
  obtain ⟨stands, dots, walked⟩ := lookup_file found
  exact (Furnished.changeFile stands _).lookup rfl walked

def contentAt (t : FileTree) (l : Location) : ByteArray :=
  match t.node? l with
  | some (.file f) => f.bytes
  | _ => .empty

theorem contentAt_file (stands : t.node? l = some (.file f)) : t.contentAt l = f.bytes := by
  rw [contentAt, stands]

/-- A path is opened to write at a file that may be written to, with the bytes that were there;
where there was no file, one is made. -/
theorem openToWrite_ok (opened : t.openToWrite p = .ok (l, new)) : ∃ place dots f,
    t.walk .create p = .ok ⟨place, false, dots⟩ ∧ place.room? = some l ∧
      Furnished t new l f ∧ mayWrite f.mode = true ∧ f.bytes = t.contentAt l := by
  obtain ⟨⟨place, slash, dots⟩, walked, here⟩ := bind_eq_ok_iff.mp opened
  cases place with
  | vacant directory name =>
    dsimp only at here
    split at here
    · obtain ⟨rfl, rfl⟩ := Prod.mk.inj (Except.ok.inj here)
      cases walk_ends walked with
      | vacant proper search free ends =>
        obtain rfl := ends rfl
        refine ⟨_, _, _, walked, rfl, Furnished.put t (by simp) free _, by decide, ?_⟩
        rw [contentAt, free]
    · contradiction
  | found k node =>
    cases node with
    | directory mode => simp only [reduceCtorEq] at here
    | link target => simp only [reduceCtorEq] at here
    | file f =>
      dsimp only at here
      split at here
      · rename_i write
        obtain ⟨rfl, rfl⟩ := Prod.mk.inj (Except.ok.inj here)
        cases walk_ends walked with
        | found proper search stands ends =>
          obtain rfl := ends rfl
          exact ⟨_, _, f, walked, rfl, Furnished.refl stands, write, (contentAt_file stands).symm⟩
      · contradiction

/-- Opening a file to write to it leaves a file at the path. -/
theorem openToWrite_lookup (opened : t.openToWrite p = .ok (l, new)) :
    ∃ f, new.lookup p = .ok (l, .file f) := by
  obtain ⟨place, dots, f, walked, room, furnished, -, -⟩ := openToWrite_ok opened
  exact ⟨f, furnished.lookup room walked⟩

/-- Whatever stood at the path, a file that was made there is empty. -/
theorem createFile_lookup (made : t.createFile p = .ok (l, new)) :
    ∃ f, new.lookup p = .ok (l, .file f) ∧ f.bytes = .empty := by
  obtain ⟨⟨k, opened⟩, open_, here⟩ := bind_eq_ok_iff.mp made
  obtain ⟨rfl, rfl⟩ : k = l ∧ _ = new := by simpa using here
  obtain ⟨f, found⟩ := openToWrite_lookup open_
  obtain ⟨stands, dots, walked⟩ := lookup_file found
  exact ⟨_, (Furnished.changeFile stands _).lookup rfl walked, rfl⟩

def lone (mode : Nat) (bytes : ByteArray) : Node := .file { mode, bytes }

theorem changeFile_lone (t : FileTree) (inner : l ≠ []) (mode : Nat) (bytes : ByteArray)
    (change : File → File) : (t.put l (lone mode bytes)).changeFile l change =
      t.put l (.file (change { mode, bytes })) := by
  have here : (t.put l (lone mode bytes)).node? l = some (lone mode bytes) := by
    rw [node?_put t inner, if_pos rfl]
  rw [changeFile, here]
  exact put_put t l _ _

theorem append_lone (t : FileTree) (inner : l ≠ []) (mode : Nat) (front back : ByteArray) :
    (t.put l (lone mode front)).append l back = t.put l (lone mode (front ++ back)) :=
  changeFile_lone t inner mode front _

/-- What an entry of a directory can be when a file is made there anew: a file with these
permissions, or nothing, and then they are those of a new file. -/
def Renewable (t : FileTree) (mode : Nat) (l : Location) : Prop := match t.node? l with
  | none => mode = fileMode
  | some n => ∃ bytes, n = lone mode bytes

def renewalFault (searchable : Bool) (mode : Nat) (l : Location) (name : String) : Option IoError :=
  if searchable then (childFault l name).or (if mayWrite mode then none else some .permission)
  else some (hiddenFault l name)

theorem renewalFault_eq_none (renewed : renewalFault search mode l name = none) :
    search = true ∧ childFault l name = none := by
  cases search with
  | false => contradiction
  | true =>
    rw [renewalFault, if_pos rfl, Option.or_eq_none_iff] at renewed
    exact ⟨rfl, renewed.1⟩

theorem createFile_renews (reached : t.Reached l) (writable : t.writable l = true)
    (proper : Path.Proper name) (renewable : t.Renewable mode (l ++ [name])) :
    t.createFile (Path.absolute (l ++ [name])) =
      match renewalFault (t.searchable l) mode l name with
      | some e => .error e
      | none => .ok (l ++ [name], t.put (l ++ [name]) (lone mode .empty)) := by
  have inner : l ++ [name] ≠ [] := by simp
  cases search : t.searchable l with
  | false =>
    rw [createFile, openToWrite, reached.walk_hidden search proper]
    rfl
  | true =>
    have alterable := alterable_of_writable writable search
    simp only [renewalFault, if_true]
    cases fault : childFault l name with
    | some e =>
      rw [createFile, openToWrite, reached.walk_refused .create search proper fault]
      rfl
    | none =>
      rw [Renewable] at renewable
      cases here : t.node? (l ++ [name]) with
      | none =>
        rw [here] at renewable
        obtain rfl : mode = fileMode := renewable
        have opened : t.openToWrite (Path.absolute (l ++ [name])) =
            .ok (l ++ [name], t.put (l ++ [name]) (lone fileMode .empty)) := by
          rw [openToWrite, reached.walk_vacant .create search proper fault here]
          exact if_pos alterable
        rw [createFile, opened]
        exact congrArg (fun new => Except.ok (l ++ [name], new))
          (changeFile_lone t inner fileMode .empty _)
      | some n =>
        rw [here] at renewable
        obtain ⟨bytes, rfl⟩ := renewable
        have walked := reached.walk_found .create search proper fault here (by simp [lone])
        by_cases write : mayWrite mode = true
        · have opened : t.openToWrite (Path.absolute (l ++ [name])) = .ok (l ++ [name], t) := by
            rw [openToWrite, walked]
            exact if_pos write
          have emptied : t.changeFile (l ++ [name]) (fun f => { f with bytes := .empty }) =
              t.put (l ++ [name]) (lone mode .empty) := by
            rw [changeFile, here]
            rfl
          rw [createFile, opened, if_pos write]
          exact congrArg (fun new => Except.ok (l ++ [name], new)) emptied
        · have refused : t.openToWrite (Path.absolute (l ++ [name])) = .error .permission := by
            rw [openToWrite, walked]
            exact if_neg write
          rw [createFile, refused, if_neg write]
          rfl

theorem openToRead_lone (reached : t.Reached l) (search : t.searchable l = true)
    (proper : Path.Proper name) (sound : childFault l name = none)
    (stands : t.node? (l ++ [name]) = some (lone mode bytes)) :
    t.openToRead (Path.absolute (l ++ [name])) =
      if mayRead mode then .ok (.whole bytes) else .error .permission := by
  have found : t.lookup (Path.absolute (l ++ [name])) = .ok (l ++ [name], lone mode bytes) := by
    rw [lookup, reached.walk_found .target search proper sound stands (by simp [lone])]
    rfl
  rw [openToRead, found]
  rfl

end FileTree

end MolecularTools
