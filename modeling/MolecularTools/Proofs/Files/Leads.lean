import MolecularTools.Files.Walk
import MolecularTools.Proofs.Task

/-! Walks that succeed, as derivations with one rule for each way to take the next name. -/
namespace MolecularTools.FileTree

structure Sought (name : String) : Prop where
  not_here : name ≠ "."
  not_above : name ≠ ".."
  short : name.utf8ByteSize ≤ nameBound

/-- A walk from a directory along names ends at a spot and follows at most so many links. -/
inductive Leads (t : FileTree) (aim : Aim) :
    Nat → Option String → Location → Bool → List String → Spot → Prop
  | stop : Leads t aim links last l slash []
      ⟨.found l (.directory ((t.directoryMode? l).getD directoryMode)), slash, last⟩
  | here : t.searchable l = true → Leads t aim links (some ".") l slash names spot →
      Leads t aim links last l slash ("." :: names) spot
  | up : t.searchable l = true → Leads t aim links (some "..") l.dropLast slash names spot →
      Leads t aim links last l slash (".." :: names) spot
  | vacant : t.searchable l = true → Sought name → (slash = true → aim ≠ .create) →
      t.node? (l ++ [name]) = none →
      Leads t aim links last l slash [name] ⟨.vacant l name, slash, none⟩
  | entry : t.searchable l = true → Sought name → (slash = true → aim ≠ .create) →
      t.node? (l ++ [name]) = some n → (∀ target, n = .link target → aim = .entry) →
      Leads t aim links last l slash [name] ⟨.found (l ++ [name]) n, slash, none⟩
  | into : t.searchable l = true → Sought name → names ≠ [] →
      t.node? (l ++ [name]) = some (.directory mode) →
      Leads t aim links none (l ++ [name]) slash names spot →
      Leads t aim links last l slash (name :: names) spot
  | follow : t.searchable l = true → Sought name →
      (names = [] → aim ≠ .entry ∧ (slash = true → aim ≠ .create)) →
      t.node? (l ++ [name]) = some (.link target) →
      Leads t aim links none (if Path.isAbsolute target then [] else l)
        (slash || (names.isEmpty && Path.endsInSlash target)) (Path.names target ++ names) spot →
      Leads t aim (links + 1) last l slash (name :: names) spot

variable {t : FileTree} {aim : Aim}

def following (t : FileTree) (aim : Aim) : Nat → Location → List String → Bool → Except IoError Spot
  | 0 => fun _ _ _ => .error .linkLoop
  | links + 1 => walkWithin t aim links

theorem walkWithin_eq (links : Nat) (l : Location) (names : List String) (slash : Bool) :
    walkWithin t aim links l names slash =
      walkWith (following t aim links) t aim none l slash names := by
  cases links with
  | zero => rfl
  | succ links => rfl

theorem leads_of_walkWith
    (follows : ∀ l names slash spot, following t aim links l names slash = .ok spot →
      ∃ fewer, links = fewer + 1 ∧ Leads t aim fewer none l slash names spot) (names : List String)
    (walked : walkWith (following t aim links) t aim last l slash names = .ok spot) :
    Leads t aim links last l slash names spot := by
  induction names generalizing last l slash with
  | nil =>
    obtain rfl := Except.ok.inj walked
    exact .stop
  | cons name names ih =>
    rw [walkWith] at walked
    split at walked
    · contradiction
    rename_i search
    have search : t.searchable l = true := by simpa using search
    split at walked
    · rename_i dot
      rw [dot]
      exact .here search (ih (dot ▸ walked))
    rename_i notHere
    split at walked
    · rename_i dots
      rw [dots]
      exact .up search (ih (dots ▸ walked))
    rename_i notAbove
    split at walked
    · contradiction
    rename_i short
    have sought : Sought name := ⟨notHere, notAbove, Nat.le_of_not_lt short⟩
    dsimp only at walked
    split at walked
    · contradiction
    rename_i unslashed
    have ends : names = [] → slash = true → aim ≠ .create := by
      intro final slashed making
      exact unslashed (by simp [final, slashed, making])
    cases stands : t.node? (l ++ [name]) with
    | none =>
      simp only [stands] at walked
      split at walked
      · rename_i final
        obtain rfl := List.isEmpty_iff.mp final
        obtain rfl := Except.ok.inj walked
        exact .vacant search sought (ends rfl) stands
      · contradiction
    | some n =>
      simp only [stands] at walked
      cases n with
      | directory mode =>
        dsimp only at walked
        split at walked
        · rename_i final
          obtain rfl := List.isEmpty_iff.mp final
          obtain rfl := Except.ok.inj walked
          exact .entry search sought (ends rfl) stands (fun _ same => by contradiction)
        · rename_i further
          exact .into search sought (by simpa using further) stands (ih walked)
      | file f =>
        dsimp only at walked
        split at walked
        · rename_i final
          obtain rfl := List.isEmpty_iff.mp final
          obtain rfl := Except.ok.inj walked
          exact .entry search sought (ends rfl) stands (fun _ same => by contradiction)
        · contradiction
      | link target =>
        dsimp only at walked
        split at walked
        · rename_i itself
          obtain ⟨final, entry⟩ : names = [] ∧ aim = .entry := by simpa using itself
          subst final
          obtain rfl := Except.ok.inj walked
          exact .entry search sought (ends rfl) stands fun _ _ => entry
        · rename_i through
          obtain ⟨fewer, rfl, leads⟩ := follows _ _ _ _ walked
          refine .follow search sought (fun final => ⟨?_, ends final⟩) stands leads
          intro entry
          exact through (by simp [final, entry])

theorem Leads.walkWith (leads : Leads t aim links last l slash names spot) :
    walkWith (following t aim links) t aim last l slash names = .ok spot := by
  induction leads with
  | stop => rfl
  | here search _ ih => rw [FileTree.walkWith, if_neg (by simp [search]), if_pos rfl, ih]
  | up search _ ih =>
    rw [FileTree.walkWith, if_neg (by simp [search]), if_neg (by decide), if_pos rfl, ih]
  | vacant search sought ends free =>
    rw [FileTree.walkWith, if_neg (by simp [search]), if_neg sought.not_here,
      if_neg sought.not_above, if_neg (Nat.not_lt.mpr sought.short), if_neg (by simpa using ends)]
    simp [free]
  | @entry l name slash n links last search sought ends stands itself =>
    rw [FileTree.walkWith, if_neg (by simp [search]), if_neg sought.not_here,
      if_neg sought.not_above, if_neg (Nat.not_lt.mpr sought.short), if_neg (by simpa using ends)]
    cases n with
    | directory mode => simp [stands]
    | file f => simp [stands]
    | link target => simp [stands, itself target rfl]
  | into search sought further stands _ ih =>
    rw [FileTree.walkWith, if_neg (by simp [search]), if_neg sought.not_here,
      if_neg sought.not_above, if_neg (Nat.not_lt.mpr sought.short), if_neg (by simp [further])]
    simp [stands, further, ih]
  | @follow l name names slash target links spot last search sought ends stands leads ih =>
    have unslashed : ¬(names.isEmpty && slash && decide (aim = .create)) = true := by
      cases names with
      | nil => simpa using (ends rfl).2
      | cons => simp
    have through : ¬(names.isEmpty && decide (aim = .entry)) = true := by
      cases names with
      | nil => simpa using (ends rfl).1
      | cons => simp
    rw [FileTree.walkWith, if_neg (by simp [search]), if_neg sought.not_here,
      if_neg sought.not_above, if_neg (Nat.not_lt.mpr sought.short), if_neg unslashed]
    simp only [stands]
    rw [if_neg through, following, walkWithin_eq, ih]

theorem walkWithin_ok_iff (links : Nat) : walkWithin t aim links l names slash = .ok spot ↔
    Leads t aim links none l slash names spot := by
  constructor
  · induction links generalizing l names slash spot with
    | zero =>
      rw [walkWithin_eq]
      exact leads_of_walkWith (fun _ _ _ _ looped => by contradiction) names
    | succ links ih =>
      rw [walkWithin_eq]
      exact leads_of_walkWith (fun _ _ _ _ followed => ⟨links, rfl, ih followed⟩) names
  · intro leads
    rw [walkWithin_eq]
    exact leads.walkWith

structure Passable (p : String) : Prop where
  some : p ≠ ""
  unmarked : p.toList.any (·.toNat = 0) = false
  short : p.utf8ByteSize ≤ pathBound

theorem walk_ok_iff : t.walk aim p = .ok spot ↔
    Passable p ∧ Leads t aim linkBound none [] (Path.endsInSlash p) (Path.names p) spot := by
  rw [walk, ← walkWithin_ok_iff]
  constructor
  · intro walked
    split at walked
    · contradiction
    rename_i some
    split at walked
    · contradiction
    rename_i unmarked
    split at walked
    · contradiction
    rename_i short
    exact ⟨⟨some, by simpa using unmarked, Nat.le_of_not_lt short⟩, walked⟩
  · rintro ⟨passable, walked⟩
    rw [if_neg passable.some, if_neg (by simp [passable.unmarked]),
      if_neg (Nat.not_lt.mpr passable.short), walked]

theorem lookup_ok_iff : t.lookup p = .ok (l, n) ↔ ∃ slash dots,
    t.walk .target p = .ok ⟨.found l n, slash, dots⟩ ∧ (slash && !n.isDirectory) = false := by
  constructor
  · intro found
    obtain ⟨⟨place, slash, dots⟩, walked, here⟩ := bind_eq_ok_iff.mp found
    cases place with
    | vacant directory name => contradiction
    | found k m =>
      dsimp only at here
      split at here
      · contradiction
      rename_i fits
      obtain ⟨rfl, rfl⟩ := Prod.mk.inj (Except.ok.inj here)
      exact ⟨slash, dots, walked, by simpa using fits⟩
  · rintro ⟨slash, dots, walked, fits⟩
    rw [lookup, walked]
    exact if_neg (by simp [fits])

/-- No entry on the way of a path has a path of its own that is too long. -/
def WayFits (t : FileTree) (p : String) : Prop :=
  ∀ l ∈ t.visited p, (Path.absolute l).utf8ByteSize ≤ pathBound

theorem wayFits_iff : t.WayFits p ↔
    ¬((t.visited p).any fun l => pathBound < (Path.absolute l).utf8ByteSize) = true := by
  simp [WayFits]

/-- Where the way fits, the canonical path is that of the place where the path leads. -/
theorem WayFits.canonical (fits : t.WayFits p) (found : t.lookup p = .ok (l, n)) :
    t.canonical p = .ok (Path.absolute l) := by
  obtain ⟨slash, dots, walked, -⟩ := lookup_ok_iff.mp found
  have unmarked := (walk_ok_iff.mp walked).1.unmarked
  rw [FileTree.canonical, if_neg (by simp [unmarked]), if_neg (wayFits_iff.mp fits), found]
  rfl

theorem canonical_ok (named : t.canonical p = .ok real) :
    t.WayFits p ∧ ∃ l n, t.lookup p = .ok (l, n) ∧ Path.absolute l = real := by
  rw [canonical] at named
  split at named
  · contradiction
  split at named
  · contradiction
  rename_i fits
  refine ⟨wayFits_iff.mpr fits, ?_⟩
  cases found : t.lookup p with
  | error e =>
    rw [found] at named
    contradiction
  | ok r =>
    rw [found] at named
    exact ⟨r.1, r.2, rfl, Except.ok.inj named⟩

end MolecularTools.FileTree
