import MolecularTools.Proofs.Host.Course
import MolecularTools.Proofs.Host.Mirror

/-! What work ensures as long as the entries it adds to a log are allowed. One that is not ends the
guarantee, whatever the work did before. -/
namespace MolecularTools

variable {σ ρ α β : Type}

namespace Course

variable {allowed : Entry σ → Prop} {P : σ → Prop} {Q : Option α → σ → Prop}

/-- From a state with `P`, and with allowed entries alone, the course ends with `Q`. -/
def ensures (allowed : Entry σ → Prop) (P : σ → Prop) (Q : Option α → σ → Prop) : Course σ α :=
  fun s log r after => P s → (∀ e ∈ log, allowed e) → Q r after

def keeping (allowed : Entry σ → Prop) (I : σ → Prop) : Course σ α := ensures allowed I fun _ => I

/-- Two guarantees are one if the first covers what becomes of a failure. -/
theorem ensures_bind {R : Option β → σ → Prop} {s : σ} {log : Log σ} {r : Option β} {after : σ}
    (failed : ∀ s, Q none s → R none s)
    (course : (ensures allowed P Q).bind (fun a => ensures allowed (Q (some a)) R) s log r after) :
    ensures allowed P R s log r after := by
  intro start every
  rcases course with ⟨rfl, first⟩ | ⟨a, front, back, middle, rfl, first, second⟩
  · exact failed _ (first start every)
  · refine second (first start fun e entered => ?_) fun e entered => ?_
    · exact every e (List.mem_append_left back entered)
    · exact every e (List.mem_append_right front entered)

end Course

namespace Task.Follows

variable {t : Task (Log σ × σ) α} {u : Task σ α} {f : α → Task (Log σ × σ) β} {A C : Course σ α}
  {allowed : Entry σ → Prop} {P I : σ → Prop} {Q : Option α → σ → Prop}

theorem weaken (follows : t.Follows A) (entails : ∀ s log r after, A s log r after → C s log r after) :
    t.Follows C := by
  intro s
  obtain ⟨new, added, course⟩ := follows s
  exact ⟨new, added, entails _ _ _ _ course⟩

theorem ensures_bind {R : Option β → σ → Prop} (first : t.Follows (.ensures allowed P Q))
    (second : ∀ a, (f a).Follows (.ensures allowed (Q (some a)) R))
    (failed : ∀ s, Q none s → R none s) : (t >>= f).Follows (.ensures allowed P R) :=
  (first.bind second).weaken fun _ _ _ _ => Course.ensures_bind failed

theorem ensures_from {start : σ → Prop} (follows : t.Follows (.ensures allowed P Q))
    (stronger : ∀ s, start s → P s) : t.Follows (.ensures allowed start Q) :=
  follows.weaken fun s _ _ _ course begun => course (stronger s begun)

theorem keeping_bind (first : t.Follows (.keeping allowed I))
    (second : ∀ a, (f a).Follows (.keeping allowed I)) : (t >>= f).Follows (.keeping allowed I) :=
  first.ensures_bind second fun _ kept => kept

/-- What is under watch is known to do as it does without a watch. -/
theorem mirrored (follows : t.Follows A) (mirrors : t.Mirrors u)
    (holds : ∀ s log, P s → A s log (u s).1.toOption (u s).2 → (∀ e ∈ log, allowed e) →
      Q (u s).1.toOption (u s).2) : t.Follows (.ensures allowed P Q) := by
  intro s
  obtain ⟨new, added, course⟩ := follows s
  rw [mirrors.result s, mirrors.state s] at course ⊢
  exact ⟨new, added, fun start every => holds s.2 new start course every⟩

theorem sustained (follows : t.Follows A) (mirrors : t.Mirrors u) (sustains : u.Sustains I) :
    t.Follows (.keeping allowed I) :=
  follows.mirrored mirrors fun s _ holds _ _ => sustains s holds

/-- Work that enters nothing keeps what depends on a view that it leaves alone. -/
theorem quiet (view : σ → ρ) {J : ρ → Prop} (silent : t.Keeps)
    (kept : t.Preserves fun s => view s.2) : t.Follows (.keeping allowed fun s => J (view s)) := by
  intro s
  refine ⟨[], by rw [silent s, List.append_nil], fun holds _ => ?_⟩
  have same : view (t s).2.2 = view s.2 := kept s
  show J (view (t s).2.2)
  rwa [same]

/-- A call is entered with the state in which it began. -/
theorem call (u : Task σ α) (e : Effect) (wanted : α → Bool) :
    (u.below.watched e wanted).Follows fun s log r after =>
      log = [⟨e, s, (u s).1.toOption.any wanted⟩] ∧ r = (u s).1.toOption ∧ after = (u s).2 :=
  fun _ => ⟨_, rfl, rfl, rfl, rfl⟩

end Task.Follows

end MolecularTools
