import MolecularTools.Proofs.Host.Watch

/-! Courses of work: which log a piece of work may add, from which state to which, and with
which result. Work that fails ends its course; what was to follow is not entered. -/
namespace MolecularTools

/-- The state at the start, the entries that are added, the result if there is one, and the
state at the end. -/
abbrev Course (σ α : Type) := σ → Log σ → Option α → σ → Prop

namespace Course

variable {σ α β : Type}

/-- The second course is entered with the result of the first, and only if there is one. -/
def bind (A : Course σ α) (B : α → Course σ β) : Course σ β := fun s log r after =>
  (r = none ∧ A s log none after) ∨
    ∃ a first second middle, log = first ++ second ∧ A s first (some a) middle ∧
      B a middle second r after

def next (A : Course σ α) (B : Course σ β) : Course σ β := A.bind fun _ => B

/-- The second course is entered if the first one failed, and only then. -/
def orElse (A B : Course σ α) : Course σ α := fun s log r after =>
  (r.isSome ∧ A s log r after) ∨
    ∃ first second middle, log = first ++ second ∧ A s first none middle ∧
      B middle second r after

def done (a : α) : Course σ α := fun s log r after => log = [] ∧ r = some a ∧ after = s

def refused : Course σ α := fun s log r after => log = [] ∧ r = none ∧ after = s

def plain (t : Task σ α) : Course σ α := fun s log r after =>
  log = [] ∧ r = (t s).1.toOption ∧ after = (t s).2

/-- Enters nothing, and succeeds only with results that satisfy `P` in the state at the
start. -/
def checked (P : σ → α → Prop) : Course σ α := fun s log r _ => log = [] ∧ ∀ a, r = some a → P s a

def unseen : Course σ Unit := checked fun _ _ => True

/-- Enters one effect, which succeeds exactly if the course does. -/
def once (e : Effect) : Course σ Unit := fun s log r _ => log = [⟨e, s, r.isSome⟩]

/-- Enters an effect behind the effects it is made of. -/
def made (e : Effect) (parts : Course σ Unit) : Course σ Unit := fun s log r after =>
  ∃ inner, log = inner ++ [⟨e, s, r.isSome⟩] ∧ parts s inner r after

def either (A B : Course σ α) : Course σ α := fun s log r after =>
  A s log r after ∨ B s log r after

def atMostOnce (e : Effect) : Course σ Unit := (once e).either (done ())

def each : List Effect → Course σ Unit
  | [] => done ()
  | e :: es => (once e).next (each es)

def Only (kind : Effect → Prop) (A : Course σ α) : Prop :=
  ∀ s log r after, A s log r after → ∀ e ∈ log, kind e.effect

namespace Only

variable {kind : Effect → Prop} {A C : Course σ α} {B : α → Course σ β}

theorem bind (first : A.Only kind) (second : ∀ a, (B a).Only kind) : (A.bind B).Only kind := by
  rintro s log r after (⟨-, course⟩ | ⟨a, front, back, middle, rfl, courseFront, courseBack⟩) e entered
  · exact first _ _ _ _ course e entered
  · rcases List.mem_append.mp entered with entered | entered
    · exact first _ _ _ _ courseFront e entered
    · exact second a _ _ _ _ courseBack e entered

theorem next {B : Course σ β} (first : A.Only kind) (second : B.Only kind) :
    (A.next B).Only kind :=
  first.bind fun _ => second

theorem orElse (first : A.Only kind) (second : C.Only kind) : (A.orElse C).Only kind := by
  rintro s log r after (⟨-, course⟩ | ⟨front, back, middle, rfl, courseFront, courseBack⟩) e entered
  · exact first _ _ _ _ course e entered
  · rcases List.mem_append.mp entered with entered | entered
    · exact first _ _ _ _ courseFront e entered
    · exact second _ _ _ _ courseBack e entered

theorem either (first : A.Only kind) (second : C.Only kind) : (A.either C).Only kind := by
  rintro s log r after (course | course) e entered
  · exact first _ _ _ _ course e entered
  · exact second _ _ _ _ course e entered

theorem of_nil (silent : ∀ s log r after, A s log r after → log = []) : A.Only kind := by
  intro s log r after course e entered
  rw [silent _ _ _ _ course] at entered
  contradiction

theorem done (a : α) : (Course.done a : Course σ α).Only kind := of_nil fun _ _ _ _ course => course.1

theorem refused : (Course.refused : Course σ α).Only kind := of_nil fun _ _ _ _ course => course.1

theorem plain (t : Task σ α) : (Course.plain t).Only kind := of_nil fun _ _ _ _ course => course.1

theorem checked (P : σ → α → Prop) : (Course.checked P).Only kind :=
  of_nil fun _ _ _ _ course => course.1

theorem once (holds : kind e) : (Course.once e : Course σ Unit).Only kind := by
  rintro s log r after rfl x entered
  rw [List.mem_singleton.mp entered]
  exact holds

theorem made (holds : kind e) {parts : Course σ Unit} (only : parts.Only kind) :
    (Course.made e parts).Only kind := by
  rintro s log r after ⟨inner, rfl, course⟩ x entered
  rcases List.mem_append.mp entered with entered | entered
  · exact only _ _ _ _ course x entered
  · rw [List.mem_singleton.mp entered]
    exact holds

theorem each {effects : List Effect} (hold : ∀ e ∈ effects, kind e) :
    (Course.each effects : Course σ Unit).Only kind := by
  induction effects with
  | nil => exact .done ()
  | cons e effects ih =>
    exact .next (.once (hold e List.mem_cons_self)) (ih fun x member =>
      hold x (List.mem_cons_of_mem e member))

end Only

end Course

namespace Task

variable {σ α β : Type}

/-- Whatever the log was before, the task adds what the course allows. -/
def Follows (t : Task (Log σ × σ) α) (C : Course σ α) : Prop := ∀ s, ∃ new,
  (t s).2.1 = s.1 ++ new ∧ C s.2 new (t s).1.toOption (t s).2.2

namespace Follows

variable {t : Task (Log σ × σ) α} {f : α → Task (Log σ × σ) β} {A C : Course σ α}
  {B : α → Course σ β}

theorem bind (first : t.Follows A) (second : ∀ a, (f a).Follows (B a)) :
    (t >>= f).Follows (A.bind B) := by
  intro s
  obtain ⟨new, added, course⟩ := first s
  cases ended : (t s).1 with
  | error e =>
    rw [bind_error ended]
    rw [ended] at course
    exact ⟨new, added, .inl ⟨rfl, course⟩⟩
  | ok a =>
    rw [bind_ok ended]
    rw [ended] at course
    obtain ⟨more, addedMore, courseMore⟩ := second a (t s).2
    refine ⟨new ++ more, ?_, .inr ⟨a, new, more, _, rfl, course, courseMore⟩⟩
    rw [addedMore, added, List.append_assoc]

theorem next {B : Course σ β} {u : Task (Log σ × σ) β} {t : Task (Log σ × σ) Unit}
    {A : Course σ Unit} (first : t.Follows A) (second : u.Follows B) :
    (t >>= fun _ => u).Follows (A.next B) :=
  first.bind fun _ => second

/-- For the course it does not matter what the first task returns. -/
theorem of_map {B : Course σ β} {A : Course σ Unit} (first : ((fun _ => ()) <$> t).Follows A)
    (second : ∀ s a, (t s).1 = .ok a → (f a).Follows B) : (t >>= f).Follows (A.next B) := by
  intro s
  obtain ⟨new, added, course⟩ := first s
  rw [map_eq_pure_bind] at added course
  cases ended : (t s).1 with
  | error e =>
    rw [bind_error ended] at added course ⊢
    exact ⟨new, added, .inl ⟨rfl, course⟩⟩
  | ok a =>
    rw [bind_ok ended] at added course ⊢
    obtain ⟨more, addedMore, courseMore⟩ := second s a ended (t s).2
    refine ⟨new ++ more, ?_, .inr ⟨(), new, more, _, rfl, course, courseMore⟩⟩
    rw [addedMore, show (t s).2.1 = s.1 ++ new from added, List.append_assoc]

theorem recast (follows : t.Follows A) : (t.recast g).Follows A := by
  intro s
  obtain ⟨new, added, course⟩ := follows s
  refine ⟨new, added, ?_⟩
  show A s.2 new ((t s).1.mapError g).toOption (t s).2.2
  cases ended : (t s).1 with
  | ok a =>
    rw [ended] at course
    exact course
  | error e =>
    rw [ended] at course
    exact course

theorem within (follows : t.Follows A) : (t.within context).Follows A := by
  rw [within_eq]
  exact follows.recast

theorem orElse {u : Failure → Task (Log σ × σ) α} (first : t.Follows A)
    (second : ∀ e, (u e).Follows C) :
    (t.outcome >>= fun
      | .ok a => Pure.pure a
      | .error e => u e).Follows (A.orElse C) := by
  intro s
  obtain ⟨new, added, course⟩ := first s
  rw [bind_ok rfl]
  simp only [outcome_apply]
  cases ended : (t s).1 with
  | ok a =>
    rw [ended] at course
    exact ⟨new, added, .inl ⟨rfl, course⟩⟩
  | error e =>
    rw [ended] at course
    obtain ⟨more, addedMore, courseMore⟩ := second e (t s).2
    refine ⟨new ++ more, ?_, .inr ⟨new, more, _, rfl, course, courseMore⟩⟩
    rw [addedMore, added, List.append_assoc]

theorem checked {P : σ → α → Prop} (quiet : t.Keeps)
    (holds : ∀ s a, (t s).1 = .ok a → P s.2 a) : t.Follows (.checked P) := by
  intro s
  refine ⟨[], by rw [quiet s, List.append_nil], rfl, fun a result => holds s a ?_⟩
  cases ended : (t s).1 with
  | ok b => simpa [ended, Except.toOption] using result
  | error e => simp [ended, Except.toOption] at result

theorem whenever {t : Task (Log σ × σ) Unit} (follows : t.Follows (.once e)) (b : Log σ × σ → Bool) :
    (Task.whenever b t).Follows (.atMostOnce e) := by
  intro s
  rw [Task.whenever]
  split
  · obtain ⟨new, added, course⟩ := follows s
    exact ⟨new, added, .inl course⟩
  · exact ⟨[], (List.append_nil s.1).symm, .inr ⟨rfl, rfl, rfl⟩⟩

theorem pure (a : α) : (Pure.pure a : Task (Log σ × σ) α).Follows (.done a) :=
  fun s => ⟨[], (List.append_nil s.1).symm, rfl, rfl, rfl⟩

theorem fail (e : Failure) : (Task.fail e : Task (Log σ × σ) α).Follows .refused :=
  fun s => ⟨[], (List.append_nil s.1).symm, rfl, rfl, rfl⟩

theorem below (t : Task σ α) : t.below.Follows (.plain t) :=
  fun s => ⟨[], (List.append_nil s.1).symm, rfl, rfl, rfl⟩

theorem keeps {t : Task (Log σ × σ) Unit} (quiet : t.Keeps) : t.Follows .unseen :=
  fun s => ⟨[], by rw [quiet s, List.append_nil], rfl, fun _ _ => trivial⟩

theorem keeps_next {B : Course σ β} (quiet : t.Keeps) (second : ∀ a, (f a).Follows B) :
    (t >>= f).Follows (Course.unseen.next B) :=
  of_map (keeps (quiet.map _)) fun _ a _ => second a

theorem made {t : Task (Log σ × σ) Unit} {A : Course σ Unit} (parts : t.Follows A) :
    (t.watched e fun _ => true).Follows (.made e A) := by
  intro s
  obtain ⟨inner, added, course⟩ := parts s
  rw [watched_apply, added, List.append_assoc]
  refine ⟨_, rfl, inner, ?_, course⟩
  cases (t s).1 with
  | ok a => rfl
  | error e => rfl

theorem watched {t : Task (Log σ × σ) Unit} (quiet : t.Keeps) :
    (t.watched e fun _ => true).Follows (.once e) := by
  intro s
  rw [watched_apply, quiet s]
  refine ⟨_, rfl, ?_⟩
  cases (t s).1 with
  | ok a => rfl
  | error e => rfl

/-- Work that goes on only with wanted results goes on exactly if the effect is entered as a
success. -/
theorem wanted_next {B : Course σ β} {wanted : α → Bool} {refusal : α → Failure} (quiet : t.Keeps)
    (second : ∀ a, (f a).Follows B) :
    (t.watched e wanted >>= fun a => if wanted a then f a else .fail (refusal a)).Follows
      ((Course.once e).next B) := by
  intro s
  cases ended : (t s).1 with
  | error failure =>
    rw [bind_error (by exact ended)]
    refine ⟨[⟨e, s.2, false⟩], ?_, .inl ⟨rfl, rfl⟩⟩
    simp [ended, quiet s, Except.toOption]
  | ok a =>
    rw [bind_ok (by exact ended)]
    cases good : wanted a with
    | false =>
      refine ⟨[⟨e, s.2, false⟩], ?_, .inl ⟨rfl, rfl⟩⟩
      simp [ended, quiet s, Except.toOption, good]
    | true =>
      obtain ⟨more, addedMore, courseMore⟩ := second a (t.watched e wanted s).2
      have entered : Course.once e s.2 [⟨e, s.2, true⟩] (some ()) (t.watched e wanted s).2.2 := rfl
      refine ⟨[⟨e, s.2, true⟩] ++ more, ?_, .inr ⟨(), _, more, _, rfl, entered, courseMore⟩⟩
      rw [if_pos rfl, addedMore]
      simp [ended, quiet s, Except.toOption, good]

theorem watched_next {B : Course σ β} (quiet : t.Keeps)
    (second : ∀ s a, (t s).1 = .ok a → (f a).Follows B) :
    (t.watched e (fun _ => true) >>= f).Follows ((Course.once e).next B) := by
  refine of_map ?_ second
  rw [map_watched]
  exact watched (quiet.map _)

end Follows

def Enters (kind : Effect → Prop) (t : Task (Log σ × σ) α) : Prop := ∀ s, ∃ new,
  (t s).2.1 = s.1 ++ new ∧ ∀ e ∈ new, kind e.effect

theorem Follows.enters {t : Task (Log σ × σ) α} {A : Course σ α} (follows : t.Follows A)
    (only : A.Only kind) : t.Enters kind := by
  intro s
  obtain ⟨new, added, course⟩ := follows s
  exact ⟨new, added, only _ _ _ _ course⟩

theorem Preserves.enters {t : Task (Log σ × σ) α} (quiet : t.Keeps) : t.Enters kind :=
  fun s => ⟨[], by rw [quiet s, List.append_nil], fun _ entered => absurd entered List.not_mem_nil⟩

theorem Enters.bind {t : Task (Log σ × σ) α} {f : α → Task (Log σ × σ) β}
    (first : t.Enters kind) (second : ∀ a, (f a).Enters kind) : (t >>= f).Enters kind := by
  intro s
  obtain ⟨new, added, kinds⟩ := first s
  cases ended : (t s).1 with
  | error e =>
    rw [bind_error ended]
    exact ⟨new, added, kinds⟩
  | ok a =>
    rw [bind_ok ended]
    obtain ⟨more, addedMore, kindsMore⟩ := second a (t s).2
    refine ⟨new ++ more, by rw [addedMore, added, List.append_assoc], fun e entered => ?_⟩
    exact (List.mem_append.mp entered).elim (kinds e) (kindsMore e)

/-- Behind what the first task entered there stand only effects of the second one. -/
theorem Enters.after {f : α → Task (Log σ × σ) β} (second : ∀ a, (f a).Enters kind)
    (t : Task (Log σ × σ) α) (s : Log σ × σ) :
    ∃ rest, ((t >>= f) s).2.1 = (t s).2.1 ++ rest ∧ ∀ e ∈ rest, kind e.effect := by
  cases ended : (t s).1 with
  | error e =>
    rw [bind_error ended]
    exact ⟨[], (List.append_nil _).symm, fun _ entered => absurd entered List.not_mem_nil⟩
  | ok a =>
    rw [bind_ok ended]
    exact second a (t s).2

end Task

end MolecularTools
