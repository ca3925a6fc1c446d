import Storyworld.Proofs.Overlay
import Storyworld.Register

/-!
# What a condition sees

A condition is gone through in two ways.  Evaluating it stops as soon as the answer is known.
Visiting it goes on to the end and shows every test to a visitor.  Both go from left to right, so
a visitor is shown the tests in their order (`Condition.visit_eq`), each test that stands
somewhere in the condition and nothing else (`Condition.mem_tests_iff`).

What is visited is all that evaluating sees of a snapshot.  No test is asked whether it fails, so
a condition holds again where every test holds again that held (`Condition.evaluate_of_tests`).
The rest follows from this: it is used in both directions for snapshots that pass the same tests,
and effects that change no tested factor make such snapshots.
-/

namespace Storyworld

namespace Condition

/-! ## Visiting -/

section Visit

variable {S : Type} (visitor : S → FactorId → Value → S)

mutual

/-- The visitor is shown the tests in their order. -/
theorem visit_eq : ∀ (c : Condition) (s : S),
    c.visit visitor s = c.tests.foldl (fun s p => visitor s p.1 p.2) s
  | .holds _ _, _ => rfl
  | .all cs, s => visitAll_eq cs s
  | .any cs, s => visitAll_eq cs s

theorem visitAll_eq : ∀ (cs : List Condition) (s : S),
    visitAll visitor cs s = (testsOfList cs).foldl (fun s p => visitor s p.1 p.2) s
  | [], _ => rfl
  | c :: cs, s => by
      rw [visitAll, testsOfList, List.foldl_append, visit_eq c s, visitAll_eq cs]

end

end Visit

/-- What a visitor is shown that writes down every test. -/
def visited (c : Condition) : List (FactorId × Value) :=
  c.visit (fun seen f v => seen ++ [(f, v)]) []

theorem visited_eq (c : Condition) : c.visited = c.tests := by
  have hfold : ∀ ps seen : List (FactorId × Value),
      ps.foldl (fun seen p => seen ++ [(p.1, p.2)]) seen = seen ++ ps := by
    intro ps
    induction ps with
    | nil => exact fun seen => (List.append_nil seen).symm
    | cons p ps ih =>
        intro seen
        rw [List.foldl_cons, ih, List.append_assoc, List.singleton_append]
  rw [visited, visit_eq, hfold, List.nil_append]

/-- A test stands somewhere in a condition. -/
inductive HasTest : Condition → FactorId × Value → Prop
  | holds (f : FactorId) (v : Value) : HasTest (.holds f v) (f, v)
  | all {cs : List Condition} {c : Condition} {p : FactorId × Value} :
      c ∈ cs → HasTest c p → HasTest (.all cs) p
  | any {cs : List Condition} {c : Condition} {p : FactorId × Value} :
      c ∈ cs → HasTest c p → HasTest (.any cs) p

mutual

theorem hasTest_of_mem {p : FactorId × Value} : ∀ {c : Condition}, p ∈ c.tests → c.HasTest p
  | .holds f v, h => by
      obtain rfl := List.mem_singleton.mp h
      exact .holds f v
  | .all _, h => by
      obtain ⟨c, hc, hp⟩ := hasTest_of_mem_testsOfList h
      exact .all hc hp
  | .any _, h => by
      obtain ⟨c, hc, hp⟩ := hasTest_of_mem_testsOfList h
      exact .any hc hp

theorem hasTest_of_mem_testsOfList {p : FactorId × Value} : ∀ {cs : List Condition},
    p ∈ testsOfList cs → ∃ c ∈ cs, c.HasTest p
  | c :: cs, h => by
      rcases List.mem_append.mp h with h | h
      · exact ⟨c, List.mem_cons_self, hasTest_of_mem h⟩
      · obtain ⟨c', hc', hp⟩ := hasTest_of_mem_testsOfList h
        exact ⟨c', List.mem_cons_of_mem c hc', hp⟩

end

/-- The tests of a condition are those that stand somewhere in it. -/
theorem mem_tests_iff {c : Condition} {p : FactorId × Value} : p ∈ c.tests ↔ c.HasTest p := by
  refine ⟨hasTest_of_mem, fun h => ?_⟩
  induction h with
  | holds f v => exact List.mem_singleton_self _
  | all hc _ ih =>
      rw [tests, testsOfList_eq, List.mem_flatMap]
      exact ⟨_, hc, ih⟩
  | any hc _ ih =>
      rw [tests, testsOfList_eq, List.mem_flatMap]
      exact ⟨_, hc, ih⟩

/-! ## Evaluating -/

section Evaluate

variable {s s' : Snapshot}

mutual

/-- A condition holds again where all its tests do that held. -/
theorem evaluate_of_tests : ∀ {c : Condition},
    (∀ p ∈ c.tests, s.get? p.1 = some p.2 → s'.get? p.1 = some p.2) →
      c.evaluate s = true → c.evaluate s' = true
  | .holds f v, h, hc => by
      rw [evaluate, beq_iff_eq] at hc ⊢
      exact h (f, v) (List.mem_singleton_self _) hc
  | .all _, h, hc => evaluateAll_of_tests h hc
  | .any _, h, hc => evaluateAny_of_tests h hc

theorem evaluateAll_of_tests : ∀ {cs : List Condition},
    (∀ p ∈ testsOfList cs, s.get? p.1 = some p.2 → s'.get? p.1 = some p.2) →
      evaluateAll s cs = true → evaluateAll s' cs = true
  | [], _, _ => rfl
  | c :: cs, h, hc => by
      obtain ⟨hfirst, hrest⟩ := List.forall_mem_append.mp h
      obtain ⟨hc, hcs⟩ := Bool.and_eq_true_iff.mp hc
      exact Bool.and_eq_true_iff.mpr ⟨evaluate_of_tests hfirst hc, evaluateAll_of_tests hrest hcs⟩

theorem evaluateAny_of_tests : ∀ {cs : List Condition},
    (∀ p ∈ testsOfList cs, s.get? p.1 = some p.2 → s'.get? p.1 = some p.2) →
      evaluateAny s cs = true → evaluateAny s' cs = true
  | c :: cs, h, hc => by
      obtain ⟨hfirst, hrest⟩ := List.forall_mem_append.mp h
      rcases Bool.or_eq_true_iff.mp hc with hc | hcs
      · exact Bool.or_eq_true_iff.mpr (.inl (evaluate_of_tests hfirst hc))
      · exact Bool.or_eq_true_iff.mpr (.inr (evaluateAny_of_tests hrest hcs))

end

/-- Snapshots that pass the same tests answer a condition alike. -/
theorem evaluate_eq_of_tests {c : Condition}
    (h : ∀ p ∈ c.tests, s.get? p.1 = some p.2 ↔ s'.get? p.1 = some p.2) :
    c.evaluate s = c.evaluate s' :=
  Bool.eq_iff_iff.mpr
    ⟨evaluate_of_tests fun p hp => (h p hp).mp, evaluate_of_tests fun p hp => (h p hp).mpr⟩

/-- Effects that change no tested factor leave a condition alone. -/
theorem evaluate_overlay {c : Condition} {e : Effects} (h : ∀ p ∈ c.tests, p.1 ∉ e.factors) :
    c.evaluate (s.overlay e) = c.evaluate s :=
  evaluate_eq_of_tests fun p hp => by rw [Snapshot.get?_overlay_of_not_mem (h p hp)]

end Evaluate

/-! ## What is visited is what is seen -/

/-- A condition sees nothing of a snapshot but whether it passes some tests, and it asks no test
whether it fails. -/
structure SeesOnly (c : Condition) (tests : List (FactorId × Value)) : Prop where
  /-- The condition holds again where all tests hold again that held. -/
  monotone : ∀ s s' : Snapshot,
    (∀ p ∈ tests, s.get? p.1 = some p.2 → s'.get? p.1 = some p.2) →
      c.evaluate s = true → c.evaluate s' = true
  /-- Snapshots that pass the same of the tests answer it alike. -/
  agree : ∀ s s' : Snapshot,
    (∀ p ∈ tests, s.get? p.1 = some p.2 ↔ s'.get? p.1 = some p.2) →
      c.evaluate s = c.evaluate s'
  /-- Effects that change none of the tested factors leave it alone. -/
  overlay : ∀ (s : Snapshot) (e : Effects), (∀ p ∈ tests, p.1 ∉ e.factors) →
    c.evaluate (s.overlay e) = c.evaluate s

/-- A visitor is shown each test that stands in a condition, and nothing else, whatever it does
with them.  What it is shown is all that the condition sees of a snapshot. -/
theorem seesOnly_visited (c : Condition) :
    (∀ p, p ∈ c.visited ↔ c.HasTest p) ∧
    (∀ (S : Type) (visitor : S → FactorId → Value → S) (x : S),
      c.visit visitor x = c.visited.foldl (fun x p => visitor x p.1 p.2) x) ∧
    c.SeesOnly c.visited := by
  rw [visited_eq]
  refine ⟨fun p => mem_tests_iff, fun S visitor x => visit_eq visitor c x, ?_⟩
  exact ⟨fun s s' => evaluate_of_tests, fun s s' => evaluate_eq_of_tests,
    fun s e => evaluate_overlay⟩

/-- The first test fails behind the effects, and the condition holds as before. -/
example : let c : Condition := .any [.all [.holds ⟨0⟩ ⟨"x"⟩, .holds ⟨7⟩ ⟨"z"⟩], .holds ⟨1⟩ ⟨"y"⟩]
    c.visited = [(⟨0⟩, ⟨"x"⟩), (⟨7⟩, ⟨"z"⟩), (⟨1⟩, ⟨"y"⟩)] ∧
      c.evaluate (Snapshot.overlay ⟨[⟨"x"⟩, ⟨"y"⟩]⟩ ⟨[(⟨0⟩, ⟨"w"⟩)]⟩) = true := by decide

end Condition

end Storyworld
