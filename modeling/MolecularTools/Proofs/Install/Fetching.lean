import MolecularTools.Archive.Extract
import MolecularTools.Machine.Unpack
import MolecularTools.Proofs.Checksum
import MolecularTools.Proofs.Download
import MolecularTools.Proofs.Fallback
import MolecularTools.Proofs.Install.Stages

/-! What a fetch returns, and what it leaves in the archive. -/
namespace MolecularTools

namespace Machine

def said (m : Machine) (text : String) : Machine :=
  { m with output := m.output ++ (text ++ "\n").toUTF8 }

def warned (m : Machine) (text : String) : Machine := { m with warnings := m.warnings ++ [text] }

end Machine

namespace Install

def Tools.supplied (w : Surroundings) (supply : Supply) (e : Extractor Machine) :
    Tools Machine :=
  ⟨Machine.host w, Delivery.downloader (Machine.request supply), e⟩

/-- A source delivers all it has, and that has the digest of the version if one is known. -/
structure Good (supply : Supply) (c : Config) (version archive url : String) (m after : Machine) :
    Prop where
  delivered : Delivered supply archive url m after
  verified : ∀ checksum, c.checksums.lookup version = some checksum →
    checksum.Verified after.files archive

/-- A source delivers nothing or a part, or what it delivers cannot be read back or has another
digest. -/
inductive Bad (supply : Supply) (c : Config) (version archive url : String) (m : Machine) :
    Failure → Machine → Prop
  | network : Undelivered supply archive url m e after →
      Bad supply c version archive url m (.ofInstall (.network (url ++ ": " ++ e.chain))) after
  | unreadable : Delivered supply archive url m after →
      c.checksums.lookup version = some checksum → after.files.openToRead archive = .error e →
      Bad supply c version archive url m (Checksum.unopened archive e) after
  | mismatch : Delivered supply archive url m after →
      c.checksums.lookup version = some checksum → after.files.Holds archive bytes →
      ¬checksum.Matches bytes →
      Bad supply c version archive url m (.ofInstall (.integrity c.library version))
        (after.said ("Checksum did not match for " ++ url ++ "."))

/-- Sources that failed in order before the last one is tried, each with a warning. -/
inductive Passed (supply : Supply) (c : Config) (version archive : String) :
    List String → String → Machine → Machine → Prop
  | none : Passed supply c version archive [] last m m
  | more : Bad supply c version archive url m e after →
      Passed supply c version archive rest last
        (after.warned ("download" ++ ": " ++ url ++ " failed (" ++
          ": ".intercalate (e.contexts ++ [e.cause.text]) ++ "). Trying fallback URL " ++
          rest.headD last)) reached →
      Passed supply c version archive (url :: rest) last m reached

def announced (c : Config) (version : String) (m : Machine) : Machine :=
  let m := m.said ("Downloading " ++ c.library ++ " ...")
  if (c.checksums.lookup version).isNone then
    m.warned ("No known checksum for " ++ c.library ++ " version " ++ version ++
      "; the download will not be verified")
  else m

variable {supply : Supply} {c : Config} {version archive url : String} {m after reached : Machine}

theorem good_or_bad (supply : Supply) (c : Config) (version archive url : String) (m : Machine) :
    (∃ after, Good supply c version archive url m after) ∨
      ∃ e after, Bad supply c version archive url m e after := by
  rcases delivered_or_undelivered supply archive url m with ⟨after, delivered⟩ | ⟨e, after, failed⟩
  · cases known : c.checksums.lookup version with
    | none =>
      refine .inl ⟨after, delivered, ?_⟩
      intro checksum found
      rw [known] at found
      contradiction
    | some checksum =>
      obtain ⟨l, f, found, content⟩ := delivered.lookup
      cases opened : after.files.openToRead archive with
      | error e => exact .inr ⟨_, _, .unreadable delivered known opened⟩
      | ok s =>
        have held : after.files.Holds archive f.bytes := FileTree.holds_of_opened found opened
        by_cases good : checksum.Matches f.bytes
        · refine .inl ⟨after, delivered, ?_⟩
          intro other same
          rw [known] at same
          obtain rfl := Option.some.inj same
          exact ⟨f.bytes, held, good⟩
        · exact .inr ⟨_, _, .mismatch delivered known held good⟩
  · exact .inr ⟨_, _, .network failed⟩

section

variable (w : Surroundings) (extractor : Extractor Machine)

theorem fetchFrom_delivered (delivered : Delivered supply archive url m after) :
    fetchFrom (.supplied w supply extractor) c version archive url m =
      verifyKnown (Machine.host w) c version archive url after := by
  have done := Machine.downloadFile_delivered w delivered
  have passed : ((downloadFile (Machine.host w) (Delivery.downloader (Machine.request supply)) url
      archive).recast fun e => .ofInstall (.network (url ++ ": " ++ e.chain))) m =
        (.ok (supply m.requests url).body.size, after) := by
    rw [Task.recast, done]
    rfl
  rw [fetchFrom_eq]
  simp only [Tools.supplied]
  rw [Task.bind_apply, passed]

theorem fetchFrom_good (good : Good supply c version archive url m after) :
    fetchFrom (.supplied w supply extractor) c version archive url m = (.ok (), after) := by
  rw [fetchFrom_delivered w extractor good.delivered, verifyKnown]
  cases known : c.checksums.lookup version with
  | none => rfl
  | some checksum =>
    obtain ⟨bytes, held, same⟩ := good.verified checksum known
    simp only [verify]
    rw [Task.bind_apply, Checksum.verifyFile_holds w checksum held, decide_eq_true same]
    rfl

theorem fetchFrom_bad (bad : Bad supply c version archive url m e after) :
    fetchFrom (.supplied w supply extractor) c version archive url m = (.error e, after) := by
  cases bad with
  | network failed =>
    have done := Machine.downloadFile_undelivered w failed
    rw [fetchFrom_eq]
    simp only [Tools.supplied]
    rw [Task.bind_apply, Task.recast, done]
    rfl
  | unreadable delivered known refused =>
    rw [fetchFrom_delivered w extractor delivered, verifyKnown, known]
    simp only [verify]
    rw [Task.bind_apply, Checksum.verifyFile_unopened w _ refused]
  | mismatch delivered known held other =>
    rw [fetchFrom_delivered w extractor delivered, verifyKnown, known]
    simp only [verify]
    rw [Task.bind_apply, Checksum.verifyFile_holds w _ held, decide_eq_false other]
    rfl

/-- Sources that fail are left behind. -/
theorem tryEach_passed {failed : List String} {url : String}
    (passed : Passed supply c version archive failed url m reached) (rest : List String) :
    Fallback.tryEach (Machine.host w).warn "download"
        (fetchFrom (.supplied w supply extractor) c version archive) (failed ++ url :: rest) m =
      Fallback.tryEach (Machine.host w).warn "download"
        (fetchFrom (.supplied w supply extractor) c version archive) (url :: rest) reached := by
  induction passed with
  | none => rfl
  | @more first m e after others last reached bad _ ih =>
    have gone := fetchFrom_bad w extractor bad
    rw [← ih]
    cases others with
    | nil => exact Fallback.tryEach_error gone rfl
    | cons next others => exact Fallback.tryEach_error gone rfl

/-- Either a source is reached that is good, or all fail. -/
theorem good_reached_or_all_bad (supply : Supply) (c : Config) (version archive : String)
    {urls : List String} (some : urls ≠ []) (m : Machine) :
    ∃ failed url reached, Passed supply c version archive failed url m reached ∧
      ((∃ rest after, urls = failed ++ url :: rest ∧
          Good supply c version archive url reached after) ∨
        urls = failed ++ [url] ∧ ∃ e after, Bad supply c version archive url reached e after) := by
  induction urls generalizing m with
  | nil => contradiction
  | cons url urls ih =>
    rcases good_or_bad supply c version archive url m with ⟨after, good⟩ | ⟨e, after, bad⟩
    · exact ⟨[], url, m, .none, .inl ⟨urls, after, rfl, good⟩⟩
    cases urls with
    | nil => exact ⟨[], url, m, .none, .inr ⟨rfl, e, after, bad⟩⟩
    | cons next rest =>
      obtain ⟨failed, last, reached, passed, ended⟩ :=
        ih (List.cons_ne_nil next rest) (after.warned (Fallback.warning "download" url next e))
      have follows : next = failed.headD last := by
        rcases ended with ⟨others, _, order, _⟩ | ⟨order, _⟩
        · cases failed with
          | nil => exact (List.cons.inj order).1
          | cons first _ => exact (List.cons.inj order).1
        · cases failed with
          | nil => exact (List.cons.inj order).1
          | cons first _ => exact (List.cons.inj order).1
      rw [follows] at passed
      refine ⟨url :: failed, last, reached, .more bad passed, ?_⟩
      rcases ended with ⟨others, final, order, good⟩ | ⟨order, e, final, bad⟩
      · exact .inl ⟨others, final, congrArg (url :: ·) order, good⟩
      · exact .inr ⟨congrArg (url :: ·) order, e, final, bad⟩

theorem fetch_tries (p : InstallPaths) (m : Machine) :
    fetch (.supplied w supply extractor) c p version m =
      Fallback.tryEach (Machine.host w).warn "download"
        (fetchFrom (.supplied w supply extractor) c version p.archive)
        ([c.primaryUrl version, c.fallbackUrl version].take (min 2 c.maxAttempts))
        (announced c version m) := by
  rw [fetch_eq]
  have said : (Tools.supplied w supply extractor).host.say ("Downloading " ++ c.library ++ " ...") m =
      (.ok (), m.said ("Downloading " ++ c.library ++ " ...")) := rfl
  rw [Task.bind_apply, said]
  unfold warnUnknown announced
  cases c.checksums.lookup version with
  | none => rfl
  | some checksum => rfl

theorem fetch_good {p : InstallPaths} {failed : List String}
    (order : [c.primaryUrl version, c.fallbackUrl version].take (min 2 c.maxAttempts) =
      failed ++ url :: rest)
    (passed : Passed supply c version p.archive failed url (announced c version m) reached)
    (good : Good supply c version p.archive url reached after) :
    fetch (.supplied w supply extractor) c p version m = (.ok (), after) := by
  rw [fetch_tries, order, tryEach_passed w extractor passed]
  exact Fallback.tryEach_ok (fetchFrom_good w extractor good)

theorem fetch_bad {p : InstallPaths} {failed : List String}
    (order : [c.primaryUrl version, c.fallbackUrl version].take (min 2 c.maxAttempts) =
      failed ++ [url])
    (passed : Passed supply c version p.archive failed url (announced c version m) reached)
    (bad : Bad supply c version p.archive url reached e after) :
    fetch (.supplied w supply extractor) c p version m = (.error e, after) := by
  rw [fetch_tries, order, tryEach_passed w extractor passed]
  exact fetchFrom_bad w extractor bad

/-- A fetch ends with a good source, or else as the last source did. -/
theorem fetch_ends (p : InstallPaths) (m : Machine) (attempts : 0 < c.maxAttempts) :
    ∃ failed url reached,
      Passed supply c version p.archive failed url (announced c version m) reached ∧
      ((∃ rest after, [c.primaryUrl version, c.fallbackUrl version].take (min 2 c.maxAttempts) =
            failed ++ url :: rest ∧
          Good supply c version p.archive url reached after ∧
          fetch (.supplied w supply extractor) c p version m = (.ok (), after)) ∨
        ∃ e after, [c.primaryUrl version, c.fallbackUrl version].take (min 2 c.maxAttempts) =
            failed ++ [url] ∧
          Bad supply c version p.archive url reached e after ∧
          fetch (.supplied w supply extractor) c p version m = (.error e, after)) := by
  have some : [c.primaryUrl version, c.fallbackUrl version].take (min 2 c.maxAttempts) ≠ [] := by
    intro none
    have length := congrArg List.length none
    simp only [List.length_take, List.length_cons, List.length_nil] at length
    omega
  obtain ⟨failed, url, reached, passed, ended⟩ :=
    good_reached_or_all_bad supply c version p.archive some (announced c version m)
  refine ⟨failed, url, reached, passed, ?_⟩
  rcases ended with ⟨rest, after, order, good⟩ | ⟨order, e, after, bad⟩
  · exact .inl ⟨rest, after, order, good, fetch_good w extractor order passed good⟩
  · exact .inr ⟨e, after, order, bad, fetch_bad w extractor order passed bad⟩

end

end Install

end MolecularTools
