import MolecularTools.Proofs.Files.Clearing
import MolecularTools.Proofs.Install.Fetching

/-! Machines that differ only in what earlier runs left fetch the same archive. -/
namespace MolecularTools

namespace FileTree

/-- A directory that its owner may write to and where earlier runs can have left an archive `a`
with these permissions and a source tree `s`. -/
structure Workplace (l : Location) (a s : String) (mode : Nat) (t : FileTree) : Prop where
  rooted : t.Rooted
  reached : t.Reached l
  writable : t.writable l = true
  oldArchive : t.Renewable mode (l ++ [a])
  oldSource : ∀ n, t.node? (l ++ [s]) = some n → n.isDirectory = true
  accessible : t.Open (l ++ [s])

variable {l : Location} {a s : String} {mode : Nat} {t : FileTree}

theorem Renewable.no_directory (renewable : t.Renewable mode l) (other : Nat) :
    t.node? l ≠ some (.directory other) := by
  intro stands
  rw [Renewable, stands] at renewable
  obtain ⟨bytes, same⟩ := renewable
  simp [lone] at same

theorem Workplace.put (place : Workplace l a s mode t) (apart : a ≠ s) (bytes : ByteArray) :
    Workplace l a s mode (t.put (l ++ [a]) (lone mode bytes)) := by
  have some : l ++ [a] ≠ [] := by simp
  have upper : ∀ k, k <+: l → (t.put (l ++ [a]) (lone mode bytes)).node? k = t.node? k := by
    intro k upper
    rw [node?_put t some, if_neg]
    rintro rfl
    exact child_not_above l a upper
  have lower : ∀ k, l ++ [s] <+: k →
      (t.put (l ++ [a]) (lone mode bytes)).node? k = t.node? k := by
    intro k lower
    rw [node?_put t some, if_neg]
    rintro rfl
    have same := lower.eq_of_length (by simp)
    exact apart (by simpa using same.symm)
  obtain ⟨above, directory⟩ := place.reached.stands
  constructor
  · exact place.rooted.put directory place.oldArchive.no_directory _
  · exact place.reached.congr upper
  · rw [writable_congr (upper l List.prefix_rfl)]
    exact place.writable
  · rw [Renewable, node?_put t some, if_pos rfl]
    exact ⟨bytes, rfl⟩
  · intro n stands
    rw [lower _ List.prefix_rfl] at stands
    exact place.oldSource n stands
  · intro k mode below stands
    rw [lower k below] at stands
    obtain ⟨read, change⟩ := place.accessible k mode below stands
    refine ⟨read, fun full => change ?_⟩
    obtain ⟨name, n, stands⟩ := entries_ne_nil_iff.mp full
    rw [lower _ (below.trans (List.prefix_append k [name]))] at stands
    exact entries_ne_nil_iff.mpr ⟨name, n, stands⟩

end FileTree

namespace Install

open FileTree

/-- Two machines whose files differ at most in what earlier runs left, and which differ in
nothing else. -/
structure Alike (l : Location) (a s : String) (mode : Nat) (m m' : Machine) : Prop where
  same : m' = { m with files := m'.files }
  left : Workplace l a s mode m.files
  right : Workplace l a s mode m'.files
  outside : ∀ k, k ≠ l ++ [a] → ¬(l ++ [s] <+: k) → m.files.nodes[k]? = m'.files.nodes[k]?

/-- Both have the same new archive. -/
structure Stocked (l : Location) (a : String) (mode : Nat) (m m' : Machine) : Prop where
  sound : childFault l a = none
  search : m.files.searchable l = true
  archive : ∃ bytes, m.files.node? (l ++ [a]) = some (lone mode bytes) ∧
    m'.files.node? (l ++ [a]) = some (lone mode bytes)

variable {l : Location} {a s : String} {mode : Nat} {m m' after : Machine} {supply : Supply}
  {c : Config} {version url : String}

theorem Alike.requests (alike : Alike l a s mode m m') : m'.requests = m.requests := by
  rw [alike.same]

theorem Alike.said (alike : Alike l a s mode m m') (text : String) :
    Alike l a s mode (m.said text) (m'.said text) := by
  refine ⟨?_, alike.left, alike.right, alike.outside⟩
  rw [alike.same]
  rfl

theorem Alike.warned (alike : Alike l a s mode m m') (text : String) :
    Alike l a s mode (m.warned text) (m'.warned text) := by
  refine ⟨?_, alike.left, alike.right, alike.outside⟩
  rw [alike.same]
  rfl

theorem Alike.searchable (alike : Alike l a s mode m m') :
    m'.files.searchable l = m.files.searchable l := by
  apply searchable_congr
  rw [FileTree.node?, FileTree.node?, alike.outside l]
  · simp
  · exact child_not_above l s

theorem Stocked.said (stocked : Stocked l a mode m m') (text : String) :
    Stocked l a mode (m.said text) (m'.said text) :=
  ⟨stocked.sound, stocked.search, stocked.archive⟩

/-- Both get the same new archive. -/
theorem Alike.stock (alike : Alike l a s mode m m') (apart : a ≠ s)
    (sound : childFault l a = none) (search : m.files.searchable l = true) (bytes : ByteArray)
    (url : String) :
    Alike l a s mode (m.asked (m.files.put (l ++ [a]) (lone mode bytes)) url)
        (m'.asked (m'.files.put (l ++ [a]) (lone mode bytes)) url) ∧
      Stocked l a mode (m.asked (m.files.put (l ++ [a]) (lone mode bytes)) url)
        (m'.asked (m'.files.put (l ++ [a]) (lone mode bytes)) url) := by
  have some : l ++ [a] ≠ [] := by simp
  have still : (m.files.put (l ++ [a]) (lone mode bytes)).searchable l = true := by
    rw [searchable_congr (t := m.files) (by rw [node?_put _ some, if_neg (by simp)]), search]
  refine ⟨⟨?_, alike.left.put apart bytes, alike.right.put apart bytes, ?_⟩, sound, still, bytes, ?_⟩
  · rw [Machine.asked, Machine.asked, alike.requests]
    rw [alike.same]
  · intro k other below
    simp only [Machine.asked, FileTree.put, Std.ExtTreeMap.getElem?_insert]
    rw [alike.outside k other below]
  · simp [Machine.asked, node?_put _ some]

/-- The archive is made on both machines, or on none. -/
theorem Alike.createFile (alike : Alike l a s mode m m') (proper : Path.Proper a) :
    (∃ e, m.files.createFile (Path.absolute (l ++ [a])) = .error e ∧
      m'.files.createFile (Path.absolute (l ++ [a])) = .error e) ∨
    ((childFault l a = none ∧ m.files.searchable l = true) ∧
      m.files.createFile (Path.absolute (l ++ [a])) =
        .ok (l ++ [a], m.files.put (l ++ [a]) (lone mode .empty)) ∧
      m'.files.createFile (Path.absolute (l ++ [a])) =
        .ok (l ++ [a], m'.files.put (l ++ [a]) (lone mode .empty))) := by
  have one := createFile_renews alike.left.reached alike.left.writable proper alike.left.oldArchive
  have two :=
    createFile_renews alike.right.reached alike.right.writable proper alike.right.oldArchive
  rw [alike.searchable] at two
  cases fault : renewalFault (m.files.searchable l) mode l a with
  | some e =>
    rw [fault] at one two
    exact .inl ⟨e, one, two⟩
  | none =>
    rw [fault] at one two
    obtain ⟨search, sound⟩ := renewalFault_eq_none fault
    exact .inr ⟨⟨sound, search⟩, one, two⟩

theorem Alike.delivered (alike : Alike l a s mode m m') (apart : a ≠ s) (proper : Path.Proper a)
    (delivered : Delivered supply (Path.absolute (l ++ [a])) url m after) :
    ∃ after', Delivered supply (Path.absolute (l ++ [a])) url m' after' ∧
      Alike l a s mode after after' ∧ Stocked l a mode after after' := by
  have some : l ++ [a] ≠ [] := by simp
  cases delivered with
  | whole made answer ended =>
    rcases alike.createFile proper with ⟨e, failed, -⟩ | ⟨⟨sound, search⟩, one, two⟩
    · rw [failed] at made
      contradiction
    · rw [one] at made
      obtain ⟨rfl, rfl⟩ := Prod.mk.inj (Except.ok.inj made)
      rw [append_lone _ some]
      rw [← alike.requests] at answer ended
      have there := Delivered.whole two answer ended
      rw [append_lone _ some, alike.requests] at there
      exact ⟨_, there, alike.stock apart sound search _ url⟩

theorem Alike.undelivered (alike : Alike l a s mode m m') (apart : a ≠ s) (proper : Path.Proper a)
    (failed : Undelivered supply (Path.absolute (l ++ [a])) url m e after) :
    ∃ after', Undelivered supply (Path.absolute (l ++ [a])) url m' e after' ∧
      Alike l a s mode after after' := by
  have some : l ++ [a] ≠ [] := by simp
  rcases alike.createFile proper with ⟨fault, one, two⟩ | ⟨⟨sound, search⟩, one, two⟩
  · cases failed with
    | uncreated refused =>
      rw [one] at refused
      obtain rfl := Except.error.inj refused
      exact ⟨m', .uncreated two, alike⟩
    | refused made answer =>
      rw [one] at made
      contradiction
    | broken made answer ended =>
      rw [one] at made
      contradiction
  · cases failed with
    | uncreated refused =>
      rw [one] at refused
      contradiction
    | refused made answer =>
      rw [one] at made
      obtain ⟨rfl, rfl⟩ := Prod.mk.inj (Except.ok.inj made)
      rw [← alike.requests] at answer
      exact ⟨_, .refused two answer, (alike.stock apart sound search .empty url).1⟩
    | broken made answer ended =>
      rw [one] at made
      obtain ⟨rfl, rfl⟩ := Prod.mk.inj (Except.ok.inj made)
      rw [append_lone _ some]
      rw [← alike.requests] at answer ended
      have there := Undelivered.broken two answer ended
      rw [append_lone _ some, alike.requests] at there
      exact ⟨_, there, (alike.stock apart sound search _ url).1⟩

theorem Stocked.opened (stocked : Stocked l a mode m m') (alike : Alike l a s mode m m')
    (proper : Path.Proper a) : m'.files.openToRead (Path.absolute (l ++ [a])) =
      m.files.openToRead (Path.absolute (l ++ [a])) := by
  obtain ⟨bytes, one, two⟩ := stocked.archive
  have search : m'.files.searchable l = true := alike.searchable.trans stocked.search
  rw [openToRead_lone alike.left.reached stocked.search proper stocked.sound one,
    openToRead_lone alike.right.reached search proper stocked.sound two]

theorem Alike.good (alike : Alike l a s mode m m') (apart : a ≠ s) (proper : Path.Proper a)
    (good : Good supply c version (Path.absolute (l ++ [a])) url m after) :
    ∃ after', Good supply c version (Path.absolute (l ++ [a])) url m' after' ∧
      Alike l a s mode after after' ∧ Stocked l a mode after after' := by
  obtain ⟨after', delivered, still, stocked⟩ := alike.delivered apart proper good.delivered
  refine ⟨after', ⟨delivered, ?_⟩, still, stocked⟩
  intro checksum known
  obtain ⟨bytes, held, same⟩ := good.verified checksum known
  exact ⟨bytes, (stocked.opened still proper).trans held, same⟩

theorem Alike.bad (alike : Alike l a s mode m m') (apart : a ≠ s) (proper : Path.Proper a)
    (bad : Bad supply c version (Path.absolute (l ++ [a])) url m e after) :
    ∃ after', Bad supply c version (Path.absolute (l ++ [a])) url m' e after' ∧
      Alike l a s mode after after' := by
  cases bad with
  | network failed =>
    obtain ⟨after', failedToo, still⟩ := alike.undelivered apart proper failed
    exact ⟨after', .network failedToo, still⟩
  | unreadable delivered known refused =>
    obtain ⟨after', deliveredToo, still, stocked⟩ := alike.delivered apart proper delivered
    have refusedToo := (stocked.opened still proper).trans refused
    exact ⟨after', .unreadable deliveredToo known refusedToo, still⟩
  | mismatch delivered known held other =>
    obtain ⟨after', deliveredToo, still, stocked⟩ := alike.delivered apart proper delivered
    have heldToo := (stocked.opened still proper).trans held
    exact ⟨_, .mismatch deliveredToo known heldToo other, still.said _⟩

theorem Alike.passed (alike : Alike l a s mode m m') (apart : a ≠ s) (proper : Path.Proper a)
    {failed : List String}
    (passed : Passed supply c version (Path.absolute (l ++ [a])) failed url m reached) :
    ∃ reached', Passed supply c version (Path.absolute (l ++ [a])) failed url m' reached' ∧
      Alike l a s mode reached reached' := by
  induction passed generalizing m' with
  | none => exact ⟨m', .none, alike⟩
  | more bad _ ih =>
    obtain ⟨after', badToo, still⟩ := alike.bad apart proper bad
    obtain ⟨reached', rest, end_⟩ := ih (still.warned _)
    exact ⟨reached', .more badToo rest, end_⟩

theorem Alike.begun (alike : Alike l a s mode m m') :
    Alike l a s mode (announced c version m) (announced c version m') := by
  unfold Install.announced
  cases c.checksums.lookup version with
  | none => exact (alike.said _).warned _
  | some checksum => exact alike.said _

/-- A fetch has the same result on both machines, and the same archive if it has one. -/
theorem Alike.fetched (w : Surroundings) (extractor : Extractor Machine) (alike : Alike l a s mode m m')
    (apart : a ≠ s) (proper : Path.Proper a) {p : InstallPaths}
    (archive : p.archive = Path.absolute (l ++ [a])) :
    (fetch (.supplied w supply extractor) c p version m).1 =
        (fetch (.supplied w supply extractor) c p version m').1 ∧
      ((fetch (.supplied w supply extractor) c p version m).1 = .ok () →
        Alike l a s mode (fetch (.supplied w supply extractor) c p version m).2
            (fetch (.supplied w supply extractor) c p version m').2 ∧
          Stocked l a mode (fetch (.supplied w supply extractor) c p version m).2
            (fetch (.supplied w supply extractor) c p version m').2) := by
  obtain ⟨workDir, _, sourceDir, installDir⟩ := p
  obtain rfl := archive
  by_cases none : [c.primaryUrl version, c.fallbackUrl version].take (min 2 c.maxAttempts) = []
  · rw [fetch_tries, fetch_tries, none]
    exact ⟨rfl, fun ok => by contradiction⟩
  obtain ⟨failed, url, reached, passed, ended⟩ :=
    good_reached_or_all_bad supply c version (Path.absolute (l ++ [a])) none (announced c version m)
  obtain ⟨reached', passedToo, still⟩ := alike.begun.passed apart proper passed
  rcases ended with ⟨rest, after, order, good⟩ | ⟨order, e, after, bad⟩
  · obtain ⟨after', goodToo, alikeAfter, stocked⟩ := still.good apart proper good
    rw [fetch_good w extractor order passed good, fetch_good w extractor order passedToo goodToo]
    exact ⟨rfl, fun _ => ⟨alikeAfter, stocked⟩⟩
  · obtain ⟨after', badToo, _⟩ := still.bad apart proper bad
    rw [fetch_bad w extractor order passed bad, fetch_bad w extractor order passedToo badToo]
    exact ⟨rfl, fun ok => by contradiction⟩

end Install

end MolecularTools
