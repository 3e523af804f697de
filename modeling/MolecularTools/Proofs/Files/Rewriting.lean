import MolecularTools.Proofs.Files.Entries

/-! Files that are made anew, again and again, under one path. All directories and links stay, so
the path keeps leading to the same place, and in the end no other file has changed. -/
namespace MolecularTools.FileTree

variable {t u v : FileTree} {l : Location} {p : String}

def changeNamed (number : Nat) (f : File → File) : Node → Node
  | .file g => if g.shared = some number then .file (f g) else .file g
  | other => other

theorem changeNamed_changeNamed (number : Nat) {f : File → File} (g : File → File)
    (kept : ∀ x, (f x).shared = x.shared) (n : Node) :
    changeNamed number g (changeNamed number f n) = changeNamed number (fun x => g (f x)) n := by
  cases n with
  | file y =>
    by_cases one : y.shared = some number
    · simp [changeNamed, one, kept]
    · simp [changeNamed, one]
  | directory mode => rfl
  | link target => rfl

theorem changeFile_own (stands : t.node? l = some (.file x)) (own : x.shared = none)
    (f : File → File) : t.changeFile l f = t.put l (.file (f x)) := by
  simp only [changeFile, stands, own]

theorem changeFile_shared (stands : t.node? l = some (.file x)) (shared : x.shared = some number)
    (f : File → File) : t.changeFile l f = ⟨t.nodes.map fun _ => changeNamed number f⟩ := by
  simp only [changeFile, stands, shared]
  congr 2
  funext _ n
  cases n with
  | file g => rfl
  | directory mode => rfl
  | link target => rfl

theorem changeFile_other (other : ∀ x, t.node? l ≠ some (.file x)) (f : File → File) :
    t.changeFile l f = t := by
  rw [changeFile]
  split
  · rename_i x stands
    exact absurd stands (other x)
  · rfl

/-- Two changes of one file are one change. -/
theorem changeFile_changeFile (t : FileTree) (l : Location) {f : File → File} (g : File → File)
    (kept : ∀ x, (f x).shared = x.shared) :
    (t.changeFile l f).changeFile l g = t.changeFile l fun x => g (f x) := by
  by_cases file : ∃ x, t.node? l = some (.file x)
  · obtain ⟨x, stands⟩ := file
    have here : (t.changeFile l f).node? l = some (.file (f x)) := by
      rw [node?_changeFile stands, stands]
      simp [isChanged]
    cases shared : x.shared with
    | none =>
      rw [changeFile_own here (kept x ▸ shared), changeFile_own stands shared,
        changeFile_own stands shared]
      exact put_put t l _ _
    | some number =>
      rw [changeFile_shared here (kept x ▸ shared), changeFile_shared stands shared,
        changeFile_shared stands shared, Std.ExtTreeMap.map_map]
      simp only [changeNamed_changeNamed number g kept]
  · rw [not_exists] at file
    rw [changeFile_other file, changeFile_other file, changeFile_other file]

/-- The second tree is the first one with other bytes in one file, under all its names, or with one
more file where nothing stood. -/
inductive Rewritten (l : Location) (t : FileTree) : FileTree → Prop
  | replaced (bytes : ByteArray) : t.node? l = some (.file f) →
      Rewritten l t (t.changeFile l fun f => { f with bytes })
  | made (bytes : ByteArray) : t.node? l = none → Rewritten l t (t.put l (lone fileMode bytes))

namespace Rewritten

theorem inner (free : t.node? l = none) : l ≠ [] := by
  rintro rfl
  simp at free

theorem stands (rewritten : Rewritten l t u) : ∃ f, u.node? l = some (.file f) := by
  cases rewritten with
  | replaced bytes stands => exact ⟨_, by rw [node?_changeFile stands, stands]⟩
  | made bytes free => exact ⟨_, by rw [node?_put t (inner free), if_pos rfl]; rfl⟩

/-- Whatever the bytes of a rewritten file are replaced by, it is a rewritten file. -/
theorem changeFile (rewritten : Rewritten l t u) (change : ByteArray → ByteArray) :
    Rewritten l t (u.changeFile l fun f => { f with bytes := change f.bytes }) := by
  cases rewritten with
  | replaced bytes stands =>
    rw [changeFile_changeFile]
    · exact .replaced (change bytes) stands
    · exact fun _ => rfl
  | made bytes free =>
    rw [changeFile_lone t (inner free)]
    exact .made (change bytes) free

theorem append (rewritten : Rewritten l t u) (bytes : ByteArray) : Rewritten l t (u.append l bytes) :=
  rewritten.changeFile (· ++ bytes)

theorem trans (first : Rewritten l t u) (second : Rewritten l u v) : Rewritten l t v := by
  cases second with
  | replaced bytes => exact first.changeFile fun _ => bytes
  | made bytes free =>
    obtain ⟨f, stands⟩ := first.stands
    rw [free] at stands
    contradiction

/-- Directories and links stay what they are, and none is new. -/
theorem solid (rewritten : Rewritten l t u) (other : ∀ f, n ≠ .file f) (k : Location) :
    u.node? k = some n ↔ t.node? k = some n := by
  cases rewritten with
  | replaced bytes stands =>
    rw [node?_changeFile stands]
    cases t.node? k with
    | none => exact Iff.rfl
    | some m =>
      cases m with
      | directory mode => exact Iff.rfl
      | link target => exact Iff.rfl
      | file g => simp [Ne.symm (other _)]
  | made bytes free =>
    rw [node?_put t (inner free)]
    split
    · rename_i same
      rw [← same, free]
      simp [lone, Ne.symm (other _)]
    · exact Iff.rfl

theorem directoryMode? (rewritten : Rewritten l t u) (k : Location) :
    u.directoryMode? k = t.directoryMode? k := by
  apply Option.ext
  intro mode
  rw [directoryMode?_eq_some, directoryMode?_eq_some]
  exact rewritten.solid (by simp) k

theorem searchable (rewritten : Rewritten l t u) (k : Location) :
    u.searchable k = t.searchable k := by
  rw [FileTree.searchable, FileTree.searchable, rewritten.directoryMode?]

/-- What is found now and is no file was found before. -/
theorem leads (rewritten : Rewritten l t u) (leads : Leads u aim links last k slash names spot)
    (found : spot.place = .found j n) (other : ∀ f, n ≠ .file f) :
    Leads t aim links last k slash names spot := by
  induction leads with
  | stop =>
    rw [rewritten.directoryMode?]
    exact .stop
  | here search _ ih => exact .here (rewritten.searchable _ ▸ search) (ih found)
  | up search _ ih => exact .up (rewritten.searchable _ ▸ search) (ih found)
  | vacant => contradiction
  | entry search sought ends stands itself =>
    obtain ⟨rfl, rfl⟩ := Place.found.inj found
    exact .entry (rewritten.searchable _ ▸ search) sought ends ((rewritten.solid other _).mp stands)
      itself
  | into search sought further stands _ ih =>
    exact .into (rewritten.searchable _ ▸ search) sought further
      ((rewritten.solid (by simp) _).mp stands) (ih found)
  | follow search sought ends stands _ ih =>
    exact .follow (rewritten.searchable _ ▸ search) sought ends
      ((rewritten.solid (by simp) _).mp stands) (ih found)

/-- No path ends at a link that did not end at one before. -/
theorem unlinked (rewritten : Rewritten l t u) (flat : Path.endsInSlash p = false)
    (bare : t.isLink p = false) : u.isLink p = false := by
  rw [isLink, lookupEntry, flat]
  cases walked : u.walk .entry p with
  | error e => rfl
  | ok spot =>
    obtain ⟨place, s, o⟩ := spot
    cases place with
    | vacant d name => rfl
    | found k n =>
      cases n with
      | file f => rfl
      | directory mode => rfl
      | link target =>
        obtain ⟨passable, leads⟩ := walk_ok_iff.mp walked
        have before : t.walk .entry p = .ok ⟨.found k (.link target), s, o⟩ :=
          walk_ok_iff.mpr ⟨passable, rewritten.leads leads rfl (by simp)⟩
        rw [isLink, lookupEntry, flat, before] at bare
        contradiction

end Rewritten

theorem createFile_rewrites (made : t.createFile p = .ok (l, u)) : Rewritten l t u := by
  obtain ⟨⟨k, opened⟩, open_, here⟩ := bind_eq_ok_iff.mp made
  obtain ⟨rfl, rfl⟩ := Prod.mk.inj (Except.ok.inj here)
  obtain ⟨⟨place, s, o⟩, walked, here⟩ := bind_eq_ok_iff.mp open_
  cases place with
  | vacant d name =>
    dsimp only at here
    split at here
    · obtain ⟨rfl, rfl⟩ := Prod.mk.inj (Except.ok.inj here)
      cases walk_ends walked with
      | vacant proper search free ends =>
        rw [show (Node.file { mode := fileMode }) = lone fileMode .empty from rfl,
          changeFile_lone t (Rewritten.inner free)]
        exact .made .empty free
    · contradiction
  | found k n =>
    cases n with
    | directory mode => simp only [reduceCtorEq] at here
    | link target => simp only [reduceCtorEq] at here
    | file f =>
      dsimp only at here
      split at here
      · obtain ⟨rfl, rfl⟩ := Prod.mk.inj (Except.ok.inj here)
        cases walk_ends walked with
        | found proper search stands ends => exact .replaced .empty stands
      · contradiction

/-- The path names a file and no link, and that file was made or has other bytes, while nothing else
is different. -/
structure Renewed (p : String) (t : FileTree) (l : Location) (f : File) (u : FileTree) : Prop where
  found : u.lookup p = .ok (l, .file f)
  bare : u.isLink p = false
  rewritten : Rewritten l t u

/-- The tree is as it was, apart from the file that a path names. -/
def OnlyTouched (p : String) (t u : FileTree) : Prop := u = t ∨ ∃ l f, Renewed p t l f u

namespace Renewed

variable {f : File}

theorem entry (renewed : Renewed p t l f u) (flat : Path.endsInSlash p = false) :
    u.walk .entry p = .ok ⟨.found l (.file f), false, none⟩ := by
  obtain ⟨-, o, walked⟩ := lookup_file renewed.found
  have entry := walk_unlinked flat renewed.bare walked
  cases walk_ends entry with
  | found => exact entry

theorem append (renewed : Renewed p t l f u) (flat : Path.endsInSlash p = false)
    (bare : t.isLink p = false) (bytes : ByteArray) :
    Renewed p t l { f with bytes := f.bytes ++ bytes } (u.append l bytes) := by
  have rewritten := renewed.rewritten.append bytes
  exact ⟨append_lookup renewed.found bytes, rewritten.unlinked flat bare, rewritten⟩

end Renewed

/-- Where a path names no link, making its file anew touches nothing else, however often that was
done before. -/
theorem OnlyTouched.createFile (touched : OnlyTouched p t u) (flat : Path.endsInSlash p = false)
    (bare : t.isLink p = false) (made : u.createFile p = .ok (l, v)) :
    ∃ f, Renewed p t l f v ∧ f.bytes = .empty := by
  obtain ⟨f, found, empty⟩ := createFile_lookup made
  have rewritten := createFile_rewrites made
  rcases touched with rfl | ⟨k, g, renewed⟩
  · exact ⟨f, ⟨found, rewritten.unlinked flat bare, rewritten⟩, empty⟩
  · obtain ⟨⟨_, opened⟩, open_, here⟩ := bind_eq_ok_iff.mp made
    obtain ⟨rfl, -⟩ := Prod.mk.inj (Except.ok.inj here)
    obtain ⟨place, o, _, walked, room, -⟩ := openToWrite_ok open_
    have entry := walk_unlinked flat renewed.bare walked
    rw [renewed.entry flat] at entry
    cases entry
    obtain rfl := Option.some.inj room
    exact ⟨f, ⟨found, rewritten.unlinked flat renewed.bare, renewed.rewritten.trans rewritten⟩,
      empty⟩

end MolecularTools.FileTree
