import MolecularTools.Proofs.Files.Pruning

/-! Removals only take entries away, whether they succeed or stop halfway. -/
namespace MolecularTools.FileTree

/-- The only last names that a walk tells are a dot and two dots. -/
theorem Leads.dots (leads : Leads t aim links last l slash names spot)
    (told : last ∈ [none, some ".", some ".."]) : spot.dots ∈ [none, some ".", some ".."] := by
  induction leads with
  | stop => exact told
  | here _ _ ih => exact ih (by simp)
  | up _ _ ih => exact ih (by simp)
  | vacant => simp
  | entry => simp
  | into _ _ _ _ _ ih => exact ih (by simp)
  | follow _ _ _ _ _ ih => exact ih (by simp)

/-- A walk to an entry that tells no last name found what stands there. -/
theorem Leads.stands (leads : Leads t .entry links last l slash names ⟨.found k n, s, none⟩)
    (left : names = [] → last = none → l = []) : t.node? k = some n := by
  generalize ended : (⟨.found k n, s, none⟩ : Spot) = spot at leads
  induction leads with
  | stop =>
    cases ended
    rw [left rfl rfl]
    rfl
  | here _ _ ih => exact ih (fun _ told => by contradiction) ended
  | up _ _ ih => exact ih (fun _ told => by contradiction) ended
  | vacant => cases ended
  | entry _ _ _ stands =>
    cases ended
    exact stands
  | into _ _ further _ _ ih => exact ih (fun none => absurd none further) ended
  | follow _ _ ends _ _ ih =>
    refine ih (fun none => ?_) ended
    exact absurd rfl (ends (List.append_eq_nil_iff.mp none).2).1

/-- An entry that was taken away: its path led to it, and it was not the root. -/
structure Taken (t : FileTree) (p : String) (rest : FileTree) (l : Location) (n : Node)
    (slash : Bool) : Prop where
  walked : t.walk .entry p = .ok ⟨.found l n, slash, none⟩
  inner : l ≠ []
  erased : rest = t.erase l

/-- A file or a link that was removed is the entry that its path led to. -/
theorem removeFile_ok {t : FileTree} (removed : t.removeFile p = .ok after) :
    ∃ l n slash, Taken t p after l n slash := by
  obtain ⟨⟨place, slash, dots⟩, walked, here⟩ := bind_eq_ok_iff.mp removed
  cases place with
  | vacant directory name => simp only [reduceCtorEq] at here
  | found l n =>
    dsimp only at here
    split at here
    · contradiction
    rename_i named
    split at here
    · contradiction
    split at here
    · contradiction
    split at here
    · contradiction
    rename_i solid
    obtain rfl : dots = none := by
      rw [Bool.or_eq_true, not_or, Bool.not_eq_true, Option.isSome_eq_false_iff,
        Option.isNone_iff_eq_none] at named
      exact named.1
    refine ⟨l, n, slash, walked, ?_, (Except.ok.inj here).symm⟩
    rintro rfl
    have stands := (walk_ok_iff.mp walked).2.stands fun _ _ => rfl
    obtain rfl := Option.some.inj stands
    exact solid rfl

theorem removeDirectory_ok {t : FileTree} (removed : t.removeDirectory p = .ok after) :
    ∃ l n slash, Taken t p after l n slash := by
  obtain ⟨⟨place, slash, dots⟩, walked, here⟩ := bind_eq_ok_iff.mp removed
  cases place with
  | vacant directory name => simp only [reduceCtorEq] at here
  | found l n =>
    dsimp only at here
    split at here
    · contradiction
    rename_i notHere
    split at here
    · contradiction
    rename_i notAbove
    split at here
    · contradiction
    rename_i inner
    split at here
    · contradiction
    split at here
    · contradiction
    split at here
    · contradiction
    obtain rfl : dots = none := by
      have told := (walk_ok_iff.mp walked).2.dots (by simp)
      simpa [notHere, notAbove] using told
    exact ⟨l, n, slash, walked, inner, (Except.ok.inj here).symm⟩

theorem removeFile_pruned (removed : t.removeFile p = .ok after) : Pruned after t := by
  obtain ⟨l, -, -, -, -, rfl⟩ := removeFile_ok removed
  exact .erase t l

theorem removeDirectory_pruned (removed : t.removeDirectory p = .ok after) : Pruned after t := by
  obtain ⟨l, -, -, -, -, rfl⟩ := removeDirectory_ok removed
  exact .erase t l

theorem untilFailure_pruned {f : FileTree → Location → Except IoError Unit × FileTree}
    (each : ∀ t l, Pruned (f t l).2 t) (t : FileTree) (ls : List Location) :
    Pruned (untilFailure f t ls).2 t := by
  induction ls generalizing t with
  | nil => exact .refl t
  | cons l ls ih =>
    have first := each t l
    rw [untilFailure]
    split
    · rename_i middle same
      rw [same] at first
      exact (ih middle).trans first
    · rename_i e middle same
      rw [same] at first
      exact first

def removeEntry (depth : Nat) (l : Location) (t : FileTree) (k : Location) :
    Except IoError Unit × FileTree :=
  match t.node? k with
  | some (.directory _) =>
    if !t.searchable l then (.error .permission, t)
    else match clearWithin depth t k with
      | (.error e, t) => (.error e, t)
      | (.ok (), t) => if t.alterable l then (.ok (), t.erase k) else (.error .permission, t)
  | _ => if t.alterable l then (.ok (), t.erase k) else (.error .permission, t)

theorem clearWithin_succ (depth : Nat) (t : FileTree) (l : Location) :
    t.clearWithin (depth + 1) l =
      if !(t.directoryMode? l).any mayRead then (.error .permission, t)
      else untilFailure (removeEntry depth l) t (t.entries l) := rfl

theorem removeEntry_pruned (inner : ∀ t l, Pruned (t.clearWithin depth l).2 t) (l : Location)
    (t : FileTree) (k : Location) : Pruned (removeEntry depth l t k).2 t := by
  rw [removeEntry]
  split
  · split
    · exact .refl t
    have cleared := inner t k
    split
    · rename_i e middle same
      rw [same] at cleared
      exact cleared
    · rename_i middle same
      rw [same] at cleared
      split
      · exact (Pruned.erase middle k).trans cleared
      · exact cleared
  · split
    · exact .erase t k
    · exact .refl t

theorem clearWithin_pruned (depth : Nat) (t : FileTree) (l : Location) :
    Pruned (t.clearWithin depth l).2 t := by
  induction depth generalizing t l with
  | zero => exact .refl t
  | succ depth ih =>
    rw [clearWithin_succ]
    split
    · exact .refl t
    · exact untilFailure_pruned (removeEntry_pruned ih l) t _

theorem removeTree_pruned (t : FileTree) (p : String) : Pruned (t.removeTree p).2 t := by
  unfold removeTree
  split
  · exact .refl t
  · split
    · exact removeFile_pruned ‹_›
    · exact .refl t
  · exact .refl t
  · rename_i l mode found
    have cleared : Pruned (t.clear l).2 t := clearWithin_pruned _ t l
    split
    · rename_i e middle same
      rw [same] at cleared
      exact cleared
    · rename_i middle same
      rw [same] at cleared
      split
      · exact (removeDirectory_pruned ‹_›).trans cleared
      · exact cleared
      · exact cleared

end MolecularTools.FileTree
