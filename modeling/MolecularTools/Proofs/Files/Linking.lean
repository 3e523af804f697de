import MolecularTools.Proofs.Files.Ends

/-! Links that are made where nothing stood. Every walk that found something finds it still, and a
link whose target was found is followed to it, if there are not too many links on the way. -/
namespace MolecularTools.FileTree

variable {t new : FileTree} {aim : Aim}

/-- What a path stands for is a directory, and at most so many links are followed to it. -/
def isDirectoryWithin (t : FileTree) (links : Nat) (p : String) : Bool :=
  match t.walkWithin .target links [] (Path.names p) (Path.endsInSlash p) with
  | .ok ⟨.found _ (.directory _), _, _⟩ => true
  | _ => false

def isPlaceWithin (t : FileTree) (links : Nat) (p : String) : Bool :=
  (t.walkWithin .entry links [] (Path.names p) (Path.endsInSlash p)).isOk

theorem directoryMode?_put_link (inner : k ≠ []) (free : t.node? k = none) (l : Location) :
    (t.put k (.link target)).directoryMode? l = t.directoryMode? l := by
  rw [directoryMode?, directoryMode?, node?_put t inner]
  by_cases same : k = l
  · rw [if_pos same, ← same, free]
  · rw [if_neg same]

theorem searchable_put_link (inner : k ≠ []) (free : t.node? k = none)
    (search : t.searchable l = true) : (t.put k (.link target)).searchable l = true := by
  rw [searchable] at search ⊢
  rw [directoryMode?_put_link inner free, search]

theorem node?_put_link (inner : k ≠ []) (free : t.node? k = none) (stands : t.node? l = some n) :
    (t.put k (.link target)).node? l = some n := by
  rw [node?_put t inner, if_neg, stands]
  rintro rfl
  rw [free] at stands
  contradiction

namespace Leads

/-- A walk that found something goes the same way beside a new link. -/
theorem put_link (inner : k ≠ []) (free : t.node? k = none)
    (leads : Leads t aim links last l slash names spot) (found : spot.place = .found j n) :
    Leads (t.put k (.link target)) aim links last l slash names spot := by
  induction leads with
  | stop =>
    rw [← directoryMode?_put_link inner free]
    exact .stop
  | here searched _ ih => exact .here (searchable_put_link inner free searched) (ih found)
  | up searched _ ih => exact .up (searchable_put_link inner free searched) (ih found)
  | vacant => contradiction
  | entry searched sought ends stands itself =>
    exact .entry (searchable_put_link inner free searched) sought ends (node?_put_link inner free stands) itself
  | into searched sought further stands _ ih =>
    exact .into (searchable_put_link inner free searched) sought further (node?_put_link inner free stands) (ih found)
  | follow searched sought ends stands _ ih =>
    exact .follow (searchable_put_link inner free searched) sought ends (node?_put_link inner free stands) (ih found)

theorem mono (leads : Leads t aim links last l slash names spot) (more : Nat) :
    Leads t aim (links + more) last l slash names spot := by
  induction leads with
  | stop => exact .stop
  | here search _ ih => exact .here search ih
  | up search _ ih => exact .up search ih
  | vacant search sought ends free => exact .vacant search sought ends free
  | entry search sought ends stands itself => exact .entry search sought ends stands itself
  | into search sought further stands _ ih => exact .into search sought further stands ih
  | follow search sought ends stands _ ih =>
    rw [Nat.add_right_comm]
    exact .follow search sought ends stands ih

theorem unique (leads : Leads t aim links none l slash names spot)
    (other : Leads t aim links none l slash names place) : spot = place := by
  have one := (walkWithin_ok_iff links).mpr leads
  have two := (walkWithin_ok_iff links).mpr other
  exact Except.ok.inj (one.symm.trans two)

/-- A slash at the end of a path is not forgotten on the way. -/
theorem slashed (leads : Leads t aim links last l slash names spot) (flat : spot.slash = false) :
    slash = false := by
  induction leads with
  | stop => exact flat
  | here _ _ ih => exact ih flat
  | up _ _ ih => exact ih flat
  | vacant => exact flat
  | entry => exact flat
  | into _ _ _ _ _ ih => exact ih flat
  | follow _ _ _ _ _ ih => exact (Bool.or_eq_false_iff.mp (ih flat)).1

/-- The walk to a vacant place finds the link that is put there. -/
theorem entry_of_vacant (free : t.node? (d ++ [x]) = none)
    (leads : Leads t .entry links last l slash names ⟨.vacant d x, s, none⟩) :
    Leads (t.put (d ++ [x]) (.link target)) .entry links last l slash names
      ⟨.found (d ++ [x]) (.link target), s, none⟩ := by
  have inner : d ++ [x] ≠ [] := by simp
  generalize ended : (⟨.vacant d x, s, none⟩ : Spot) = spot at leads
  induction leads with
  | stop => cases ended
  | here searched _ ih => exact .here (searchable_put_link inner free searched) (ih ended)
  | up searched _ ih => exact .up (searchable_put_link inner free searched) (ih ended)
  | vacant searched sought ends =>
    cases ended
    have stands : (t.put (d ++ [x]) (.link target)).node? (d ++ [x]) = some (.link target) := by
      rw [node?_put t inner, if_pos rfl]
    exact .entry (searchable_put_link inner free searched) sought ends stands fun _ _ => rfl
  | entry => cases ended
  | into searched sought further stands _ ih =>
    exact .into (searchable_put_link inner free searched) sought further (node?_put_link inner free stands) (ih ended)
  | follow searched sought ends stands _ ih =>
    exact .follow (searchable_put_link inner free searched) sought ends (node?_put_link inner free stands) (ih ended)

/-- The walk to a vacant place goes on to the target of an absolute link that is put there. One
more link is followed. -/
theorem through_vacant (free : t.node? (d ++ [x]) = none)
    (leads : Leads t .entry links last l slash names ⟨.vacant d x, false, none⟩)
    (rooted : Path.isAbsolute target = true)
    (onward : Leads (t.put (d ++ [x]) (.link target)) .target more none []
      (Path.endsInSlash target) (Path.names target) spot) :
    Leads (t.put (d ++ [x]) (.link target)) .target (links + more + 1) last l slash names spot := by
  have inner : d ++ [x] ≠ [] := by simp
  generalize ended : (⟨.vacant d x, false, none⟩ : Spot) = place at leads
  induction leads with
  | stop => cases ended
  | here searched _ ih => exact .here (searchable_put_link inner free searched) (ih ended)
  | up searched _ ih => exact .up (searchable_put_link inner free searched) (ih ended)
  | @vacant l name slash links last searched sought ends =>
    cases ended
    have stands : (t.put (d ++ [x]) (.link target)).node? (d ++ [x]) = some (.link target) := by
      rw [node?_put t inner, if_pos rfl]
    have enough : Leads (t.put (d ++ [x]) (.link target)) .target (links + more) none []
        (Path.endsInSlash target) (Path.names target) spot := by
      rw [Nat.add_comm]
      exact onward.mono links
    refine .follow (searchable_put_link inner free searched) sought (fun _ => ⟨by decide, fun _ => by decide⟩) stands ?_
    simpa [rooted] using enough
  | entry => cases ended
  | into searched sought further stands _ ih =>
    exact .into (searchable_put_link inner free searched) sought further (node?_put_link inner free stands) (ih ended)
  | @follow l name names slash link links spot last searched sought ends stands _ ih =>
    have further := ih ended
    rw [Nat.add_right_comm links 1 more]
    exact .follow (searchable_put_link inner free searched) sought (fun _ => ⟨by decide, fun _ => by decide⟩)
      (node?_put_link inner free stands) further

end Leads

def linkAt (t : FileTree) (target : String) (spot : Spot) : Except IoError FileTree :=
  match spot.place with
  | .found _ _ => .error .alreadyExists
  | .vacant l name =>
    if spot.slash then .error .noEntry
    else if t.alterable l then .ok (t.put (l ++ [name]) (.link target))
    else .error .permission

def targetFault (target p : String) : Option IoError :=
  if target.toList.any (·.toNat = 0) || p.toList.any (·.toNat = 0) then some .nulInName
  else if target = "" then some .noEntry
  else if pathBound < target.utf8ByteSize then some .nameTooLong
  else none

theorem makeLink_eq (t : FileTree) (target p : String) :
    t.makeLink target p = match targetFault target p with
      | some e => .error e
      | none => t.walk .entry p >>= t.linkAt target := by
  unfold makeLink targetFault
  dsimp only
  split
  · rfl
  · split
    · rfl
    · split
      · rfl
      · rfl

/-- A link is made at a vacant place in a directory that may be changed. -/
theorem makeLink_ok (made : t.makeLink target p = .ok new) : ∃ d x,
    t.walk .entry p = .ok ⟨.vacant d x, false, none⟩ ∧ t.alterable d = true ∧
      t.node? (d ++ [x]) = none ∧ new = t.put (d ++ [x]) (.link target) := by
  rw [makeLink_eq] at made
  split at made
  · contradiction
  obtain ⟨⟨place, slash, dots⟩, walked, here⟩ := bind_eq_ok_iff.mp made
  cases place with
  | found l n => contradiction
  | vacant d x =>
    rw [linkAt] at here
    dsimp only at here
    split at here
    · contradiction
    rename_i flat
    split at here
    · rename_i alterable
      cases walk_ends walked with
      | vacant proper search free ends =>
        obtain rfl : slash = false := by simpa using flat
        exact ⟨d, x, walked, alterable, free, (Except.ok.inj here).symm⟩
    · contradiction

/-- The path of a new link ends in no slash. -/
theorem endsInSlash_of_walk (walked : t.walk aim p = .ok ⟨place, false, dots⟩) :
    Path.endsInSlash p = false :=
  (walk_ok_iff.mp walked).2.slashed rfl

theorem lookupEntry_of_walk (walked : t.walk .entry p = .ok ⟨.found l n, false, dots⟩) :
    t.lookupEntry p = .ok (l, n) := by
  rw [lookupEntry, endsInSlash_of_walk walked, walked]
  rfl

theorem makeLink_walk (made : t.makeLink target p = .ok new) :
    ∃ k, new.walk .entry p = .ok ⟨.found k (.link target), false, none⟩ := by
  obtain ⟨d, x, walked, -, free, rfl⟩ := makeLink_ok made
  obtain ⟨passable, leads⟩ := walk_ok_iff.mp walked
  exact ⟨d ++ [x], walk_ok_iff.mpr ⟨passable, leads.entry_of_vacant free⟩⟩

/-- What was found before a link was made is found after it. -/
theorem makeLink_keeps (made : t.makeLink target q = .ok new)
    (walked : t.walk aim p = .ok ⟨.found l n, slash, dots⟩) :
    new.walk aim p = .ok ⟨.found l n, slash, dots⟩ := by
  obtain ⟨d, x, -, -, free, rfl⟩ := makeLink_ok made
  obtain ⟨passable, leads⟩ := walk_ok_iff.mp walked
  exact walk_ok_iff.mpr ⟨passable, leads.put_link (by simp) free rfl⟩

theorem isDirectory_iff : t.isDirectory p = true ↔
    ∃ l mode slash dots, t.walk .target p = .ok ⟨.found l (.directory mode), slash, dots⟩ := by
  rw [isDirectory]
  constructor
  · intro directory
    split at directory
    · rename_i l mode found
      obtain ⟨slash, dots, walked, -⟩ := lookup_ok_iff.mp found
      exact ⟨l, mode, slash, dots, walked⟩
    · contradiction
  · rintro ⟨l, mode, slash, dots, walked⟩
    have found : t.lookup p = .ok (l, .directory mode) :=
      lookup_ok_iff.mpr ⟨slash, dots, walked, by simp [Node.isDirectory]⟩
    rw [found]

theorem makeLink_isDirectory (made : t.makeLink target q = .ok new)
    (directory : t.isDirectory p = true) : new.isDirectory p = true := by
  obtain ⟨l, mode, slash, dots, walked⟩ := isDirectory_iff.mp directory
  exact isDirectory_iff.mpr ⟨l, mode, slash, dots, makeLink_keeps made walked⟩

theorem isDirectoryWithin_leads (directory : t.isDirectoryWithin links p = true) : ∃ l mode slash dots,
    Leads t .target links none [] (Path.endsInSlash p) (Path.names p)
      ⟨.found l (.directory mode), slash, dots⟩ := by
  rw [isDirectoryWithin] at directory
  split at directory
  · rename_i l mode slash dots walked
    exact ⟨l, mode, slash, dots, (walkWithin_ok_iff links).mp walked⟩
  · contradiction

theorem isPlaceWithin_leads (found : t.isPlaceWithin links p = true) :
    ∃ spot, Leads t .entry links none [] (Path.endsInSlash p) (Path.names p) spot := by
  rw [isPlaceWithin] at found
  cases walked : t.walkWithin .entry links [] (Path.names p) (Path.endsInSlash p) with
  | error e =>
    rw [walked] at found
    contradiction
  | ok spot => exact ⟨spot, (walkWithin_ok_iff links).mp walked⟩

/-- A new link to a directory stands for a directory, unless the links on the way to the link and
to its target and the link itself are too many to be followed in one walk. -/
theorem makeLink_usable (made : t.makeLink target p = .ok new)
    (rooted : Path.isAbsolute target = true) (place : t.isPlaceWithin links p = true)
    (directory : t.isDirectoryWithin more target = true) (few : links + more < linkBound) :
    new.isDirectory p = true := by
  obtain ⟨d, x, walked, -, free, rfl⟩ := makeLink_ok made
  obtain ⟨passable, leads⟩ := walk_ok_iff.mp walked
  obtain ⟨spot, short⟩ := isPlaceWithin_leads place
  obtain ⟨rest, whole⟩ : ∃ rest, linkBound = links + rest := Nat.exists_eq_add_of_le (by omega)
  have same : spot = ⟨.vacant d x, false, none⟩ := by
    rw [whole] at leads
    exact (short.mono rest).unique leads
  rw [same] at short
  obtain ⟨l, mode, slash, dots, target⟩ := isDirectoryWithin_leads directory
  have through := short.through_vacant free rooted (target.put_link (by simp) free rfl)
  obtain ⟨spare, all⟩ : ∃ spare, linkBound = links + more + 1 + spare :=
    Nat.exists_eq_add_of_le (by omega)
  refine isDirectory_iff.mpr ⟨l, mode, slash, dots, walk_ok_iff.mpr ⟨passable, ?_⟩⟩
  rw [all]
  exact through.mono spare

end MolecularTools.FileTree
