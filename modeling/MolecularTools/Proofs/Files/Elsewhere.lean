import MolecularTools.Proofs.Files.Creation
import MolecularTools.Proofs.Files.Linking
import MolecularTools.Proofs.Files.Removal
import MolecularTools.Proofs.Files.Without

/-! Operations on one entry of a directory, and what they leave alone elsewhere, whether they
succeed or stop halfway. -/
namespace MolecularTools.FileTree

/-- The second tree differs from the first at most at some locations. -/
def SameOutside (out : Location → Prop) (t u : FileTree) : Prop := ∀ k, ¬out k → u.node? k = t.node? k

namespace SameOutside

variable {out more : Location → Prop} {t u v : FileTree}

theorem refl (t : FileTree) : SameOutside out t t := fun _ _ => rfl

theorem trans (first : SameOutside out t u) (second : SameOutside out u v) : SameOutside out t v := by
  intro k stays
  rw [second k stays, first k stays]

theorem mono (same : SameOutside out t u) (wider : ∀ k, out k → more k) : SameOutside more t u :=
  fun k stays => same k fun away => stays (wider k away)

theorem erase (t : FileTree) (l : Location) : SameOutside (· = l) t (t.erase l) := by
  intro k other
  by_cases root : l = []
  · rw [root, node?_erase_root]
  · rw [node?_erase t root, if_neg (Ne.symm other)]

theorem put (t : FileTree) (inner : l ≠ []) (n : Node) : SameOutside (· = l) t (t.put l n) := by
  intro k other
  rw [node?_put t inner, if_neg (Ne.symm other)]

theorem reached (same : SameOutside out t u) (reached : t.Reached l)
    (apart : ∀ k, k <+: l → ¬out k) : u.Reached l :=
  reached.congr fun k upper => same k (apart k upper)

end SameOutside

variable {t u : FileTree} {l : Location}

/-- What is below an entry of a directory is not above the directory. -/
theorem not_below_of_above (upper : k <+: l) : ¬(l ++ [name] <+: k) :=
  fun lower => child_not_above l name (lower.trans upper)

theorem not_child_of_above (upper : k <+: l) : k ≠ l ++ [name] := by
  rintro rfl
  exact child_not_above l name upper

theorem Reached.put (reached : t.Reached l) (name : String) (n : Node) :
    (t.put (l ++ [name]) n).Reached l :=
  (SameOutside.put t (by simp) n).reached reached fun _ upper => not_child_of_above upper

theorem untilFailure_inside {f : FileTree → Location → Except IoError Unit × FileTree}
    (ks : List Location) (each : ∀ t, ∀ k ∈ ks, SameOutside out t (f t k).2) (t : FileTree) :
    SameOutside out t (untilFailure f t ks).2 := by
  induction ks generalizing t with
  | nil => exact .refl t
  | cons k ks ih =>
    have first := each t k List.mem_cons_self
    have others := ih fun t j member => each t j (List.mem_cons_of_mem k member)
    rw [untilFailure]
    cases done : f t k with
    | mk r middle =>
      rw [done] at first
      cases r with
      | ok _ => exact first.trans (others middle)
      | error e => exact first

/-- Clearing a directory touches nothing but what is below it, also where it stops. -/
theorem clearWithin_inside (depth : Nat) (t : FileTree) (l : Location) :
    SameOutside (fun k => l <+: k ∧ k ≠ l) t (t.clearWithin depth l).2 := by
  induction depth generalizing t l with
  | zero => exact .refl t
  | succ depth ih =>
    rw [clearWithin_succ]
    split
    · exact .refl t
    refine untilFailure_inside _ (fun u k member => ?_) t
    obtain ⟨name, _, rfl, _⟩ := mem_entries.mp member
    have inside : ∀ k, l ++ [name] <+: k → l <+: k ∧ k ≠ l := by
      intro k lower
      refine ⟨(List.prefix_append l [name]).trans lower, ?_⟩
      rintro rfl
      exact child_not_above k name lower
    have erased : ∀ v : FileTree, SameOutside (fun k => l <+: k ∧ k ≠ l) v (v.erase (l ++ [name])) :=
      fun v => (SameOutside.erase v _).mono fun k same => inside k (same ▸ List.prefix_rfl)
    rw [removeEntry]
    split
    · split
      · exact .refl u
      have cleared := (ih u (l ++ [name])).mono fun k below => inside k below.1
      cases done : u.clearWithin depth (l ++ [name]) with
      | mk r middle =>
        rw [done] at cleared
        cases r with
        | error e => exact cleared
        | ok _ =>
          dsimp only
          split
          · exact cleared.trans (erased middle)
          · exact cleared
    · split
      · exact erased u
      · exact .refl u

/-- Removing what a path names, with all it holds, touches nothing else, also where it stops. -/
theorem removeTree_inside (flat : Path.endsInSlash p = false)
    (named : ∀ {k n s o}, t.walk .entry p = .ok ⟨.found k n, s, o⟩ → k = l) :
    SameOutside (l <+: ·) t (t.removeTree p).2 := by
  have erased : ∀ u : FileTree, SameOutside (l <+: ·) u (u.erase l) :=
    fun u => (SameOutside.erase u l).mono fun k same => same ▸ List.prefix_rfl
  rw [removeTree]
  cases found : t.lookupEntry p with
  | error e => exact .refl t
  | ok r =>
    obtain ⟨k, n⟩ := r
    cases n with
    | file f => exact .refl t
    | link target =>
      dsimp only
      cases removed : t.removeFile p with
      | error e => exact .refl t
      | ok u =>
        obtain ⟨j, n, s, walked, -, rfl⟩ := removeFile_ok removed
        rw [named walked]
        exact erased t
    | directory mode =>
      rw [lookupEntry, flat] at found
      obtain ⟨⟨place, s, o⟩, walked, here⟩ := bind_eq_ok_iff.mp found
      cases place with
      | vacant directory name => contradiction
      | found j m =>
        obtain ⟨rfl, -⟩ := Prod.mk.inj (Except.ok.inj here)
        obtain rfl := named walked
        have cleared : SameOutside (j <+: ·) t (t.clear j).2 :=
          (clearWithin_inside _ t _).mono fun k below => below.1
        have pruned : Pruned (t.clear j).2 t := clearWithin_pruned _ t j
        dsimp only
        cases done : t.clear j with
        | mk r middle =>
          rw [done] at cleared pruned
          cases r with
          | error e => exact cleared
          | ok _ =>
            dsimp only
            split
            · rename_i rest removed
              obtain ⟨k, n, s, again, -, rfl⟩ := removeDirectory_ok removed
              obtain ⟨_, again, -⟩ := pruned.walk_place again
              rw [named again]
              exact cleared.trans (erased middle)
            · exact cleared
            · exact cleared

namespace Reached

/-- A walk to an entry of a directory ends at the entry, unless it follows a link there. -/
theorem walk_ok (reached : t.Reached l) (proper : Path.Proper name)
    (own : aim = .entry ∨ ∀ target, t.node? (l ++ [name]) ≠ some (.link target))
    (walked : t.walk aim (Path.absolute (l ++ [name])) = .ok spot) :
    t.node? (l ++ [name]) = none ∧ spot = ⟨.vacant l name, false, none⟩ ∨
      ∃ n, t.node? (l ++ [name]) = some n ∧ spot = ⟨.found (l ++ [name]) n, false, none⟩ := by
  cases search : t.searchable l with
  | false =>
    rw [reached.walk_hidden search proper] at walked
    contradiction
  | true =>
    rw [reached.walk_child search proper] at walked
    cases fault : childFault l name with
    | some e =>
      rw [fault] at walked
      contradiction
    | none =>
      rw [fault] at walked
      cases stands : t.node? (l ++ [name]) with
      | none =>
        rw [stands] at walked
        exact .inl ⟨rfl, (Except.ok.inj walked).symm⟩
      | some n =>
        rw [stands] at walked
        refine .inr ⟨n, rfl, ?_⟩
        cases n with
        | directory mode => exact (Except.ok.inj walked).symm
        | file f => exact (Except.ok.inj walked).symm
        | link target =>
          rcases own with entry | unlinked
          · subst entry
            exact (Except.ok.inj walked).symm
          · exact absurd stands (unlinked target)

/-- The entry of a directory that a walk found is the one that its path names. -/
theorem walk_found_child (reached : t.Reached l) (proper : Path.Proper name)
    (walked : t.walk .entry (Path.absolute (l ++ [name])) = .ok ⟨.found k n, slash, dots⟩) :
    k = l ++ [name] := by
  obtain ⟨-, spot⟩ | ⟨m, -, spot⟩ := reached.walk_ok proper (.inl rfl) walked
  · cases spot
  · cases spot
    rfl

theorem removeFile_child (reached : t.Reached l) (proper : Path.Proper name)
    (removed : t.removeFile (Path.absolute (l ++ [name])) = .ok u) : u = t.erase (l ++ [name]) := by
  obtain ⟨k, n, slash, walked, -, gone⟩ := removeFile_ok removed
  rw [gone, reached.walk_found_child proper walked]

/-- Removing an entry with all it holds touches nothing else, also where it stops. -/
theorem removeTree_inside (reached : t.Reached l) (proper : Path.Proper name) :
    SameOutside (l ++ [name] <+: ·) t (t.removeTree (Path.absolute (l ++ [name]))).2 :=
  FileTree.removeTree_inside (Path.endsInSlash_child l proper) fun walked =>
    reached.walk_found_child proper walked

end Reached

def Bare (t : FileTree) (l : Location) : Prop :=
  t.node? l = none ∨ ∃ target, t.node? l = some (.link target)

/-- Only files were changed, and at most one more was made, where no link stood. -/
structure Filed (l : Location) (t u : FileTree) : Prop where
  others : ∀ k, k ≠ l → (∀ f, t.node? k ≠ some (.file f)) → u.node? k = t.node? k
  no_link : ∀ target, u.node? l ≠ some (.link target)

namespace Filed

theorem refl (unlinked : ∀ target, t.node? l ≠ some (.link target)) : Filed l t t :=
  ⟨fun _ _ _ => rfl, unlinked⟩

theorem trans (first : Filed l t u) (second : Filed l u v) : Filed l t v := by
  refine ⟨fun k other solid => ?_, second.no_link⟩
  have same := first.others k other solid
  rw [second.others k other (by rwa [same]), same]

theorem reached (filed : Filed (l ++ [name]) t u) (reached : t.Reached l) : u.Reached l := by
  refine reached.congr fun k upper => ?_
  obtain ⟨mode, stands⟩ := reached.directory upper
  refine filed.others k (not_child_of_above upper) fun f file => ?_
  rw [stands] at file
  cases file

theorem changeFile (unlinked : ∀ target, t.node? l ≠ some (.link target)) (k : Location)
    (g : File → File) : Filed l t (t.changeFile k g) := by
  by_cases file : ∃ f, t.node? k = some (.file f)
  · obtain ⟨f, stands⟩ := file
    constructor
    · intro j _ solid
      rw [node?_changeFile stands]
      cases here : t.node? j with
      | none => rfl
      | some n =>
        cases n with
        | file h => exact absurd here (solid h)
        | directory mode => rfl
        | link target => rfl
    · intro target
      rw [node?_changeFile stands]
      cases here : t.node? l with
      | none => simp
      | some n =>
        cases n with
        | file h => simp
        | directory mode => simp
        | link other => exact absurd here (unlinked other)
  · have same : t.changeFile k g = t := by
      rw [FileTree.changeFile]
      split
      · rename_i f stands
        exact absurd ⟨f, stands⟩ file
      · rfl
    rw [same]
    exact .refl unlinked

theorem openToWrite (reached : t.Reached l) (proper : Path.Proper name)
    (unlinked : ∀ target, t.node? (l ++ [name]) ≠ some (.link target))
    (opened : t.openToWrite (Path.absolute (l ++ [name])) = .ok (k, u)) : Filed (l ++ [name]) t u := by
  obtain ⟨spot, walked, here⟩ := bind_eq_ok_iff.mp opened
  obtain ⟨-, rfl⟩ | ⟨n, stands, rfl⟩ := reached.walk_ok proper (.inr unlinked) walked
  · dsimp only at here
    split at here
    · obtain ⟨-, rfl⟩ := Prod.mk.inj (Except.ok.inj here)
      have inner : l ++ [name] ≠ [] := by simp
      constructor
      · exact fun k other _ => SameOutside.put t inner _ k other
      · intro target
        rw [node?_put t inner, if_pos rfl]
        simp
    · contradiction
  · cases n with
    | directory mode => contradiction
    | link target => contradiction
    | file f =>
      dsimp only at here
      split at here
      · obtain ⟨-, rfl⟩ := Prod.mk.inj (Except.ok.inj here)
        exact .refl unlinked
      · contradiction

theorem createFile (reached : t.Reached l) (proper : Path.Proper name)
    (unlinked : ∀ target, t.node? (l ++ [name]) ≠ some (.link target))
    (made : t.createFile (Path.absolute (l ++ [name])) = .ok (k, u)) : Filed (l ++ [name]) t u := by
  obtain ⟨⟨j, opened⟩, open_, here⟩ := bind_eq_ok_iff.mp made
  obtain ⟨rfl, rfl⟩ := Prod.mk.inj (Except.ok.inj here)
  have filed := openToWrite reached proper unlinked open_
  exact filed.trans (changeFile filed.no_link _ _)

end Filed

end MolecularTools.FileTree
