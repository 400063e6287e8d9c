import Mathlib.Logic.Relation
import Mathlib.Tactic.Lemma

/-!
# Transition systems and the runs whose steps meet a condition

The components modelled in this development are driven from outside: requests arrive,
coroutines resume, iterations fire, in an order nobody controls.  Each of them is therefore a
labelled `TransitionSystem`, and what is proved about it is proved of every reachable state.

Two reachability notions are needed, and they are one definition.  `Reachable` is
unconditional.  `ReachableUnder guard` admits only the steps whose label and pre-state meet
`guard`; it is how a result that holds *exactly while a branch of the code is not taken* is
stated over whole runs.  The unconditional notion is the trivial guard.

`IsInvariantUnder` is the one induction over runs in this development: everything else proves
the two obligations of that structure.  `IsInvariantUnder.and` stacks a second invariant on a
first one, so that each layer only proves its own step lemma.

Nothing in this module refers to the repository being modelled.
-/

namespace ParrotServe

universe u v

/-- A labelled transition system: initial states, and the steps each label may take. -/
structure TransitionSystem (σ : Type u) (α : Type v) where
  /-- The states a run may start in. -/
  init : σ → Prop
  /-- `step s a s'`: in state `s` the action `a` may lead to `s'`. -/
  step : σ → α → σ → Prop

namespace TransitionSystem

variable {σ : Type u} {α : Type v} (S : TransitionSystem σ α)

/-- States reached by a run whose every step meets `guard` in the state it is taken from. -/
inductive ReachableUnder (guard : σ → α → Prop) : σ → Prop
  | init {s : σ} : S.init s → ReachableUnder guard s
  | step {s s' : σ} {a : α} :
      ReachableUnder guard s → guard s a → S.step s a s' → ReachableUnder guard s'

/-- States reached by any run at all. -/
abbrev Reachable : σ → Prop := S.ReachableUnder fun _ _ => True

/-- An inductive invariant of the runs that meet `guard`. -/
structure IsInvariantUnder (guard : σ → α → Prop) (inv : σ → Prop) : Prop where
  /-- It holds initially. -/
  init : ∀ s, S.init s → inv s
  /-- Every admitted step preserves it. -/
  step : ∀ s a s', inv s → guard s a → S.step s a s' → inv s'

variable {S} {guard guard' : σ → α → Prop} {inv inv' : σ → Prop}

/-- The invariant rule: an inductive invariant holds in every state such a run reaches. -/
lemma IsInvariantUnder.holds (h : S.IsInvariantUnder guard inv) {s : σ}
    (hs : S.ReachableUnder guard s) : inv s := by
  induction hs with
  | init h0 => exact h.init _ h0
  | step _ hg hstep ih => exact h.step _ _ _ ih hg hstep

/-- An invariant that is inductive only relative to another one. -/
lemma IsInvariantUnder.and (h : S.IsInvariantUnder guard inv)
    (hinit : ∀ s, S.init s → inv' s)
    (hstep : ∀ s a s', inv s → inv' s → guard s a → S.step s a s' → inv' s') :
    S.IsInvariantUnder guard fun s => inv s ∧ inv' s where
  init s h0 := ⟨h.init s h0, hinit s h0⟩
  step s a s' hs hg hst := ⟨h.step s a s' hs.1 hg hst, hstep s a s' hs.1 hs.2 hg hst⟩

/-- Fewer admitted steps reach fewer states. -/
lemma ReachableUnder.mono (h : ∀ s a, guard s a → guard' s a) {s : σ}
    (hs : S.ReachableUnder guard s) : S.ReachableUnder guard' s := by
  induction hs with
  | init h0 => exact .init h0
  | step _ hg hstep ih => exact .step ih (h _ _ hg) hstep

/-- A guarded run is a run. -/
lemma ReachableUnder.reachable {s : σ} (hs : S.ReachableUnder guard s) : S.Reachable s :=
  hs.mono fun _ _ _ => trivial

/-! ## Systems whose actions are functions -/

/-- The system with one initial state in which an enabled action has exactly one effect. -/
def ofFun (s₀ : σ) (enabled : σ → α → Prop) (apply : σ → α → σ) : TransitionSystem σ α where
  init s := s = s₀
  step s a s' := enabled s a ∧ s' = apply s a

/-- Every action of a list is enabled and admitted when its turn comes. -/
def Performs (enabled guard : σ → α → Prop) (apply : σ → α → σ) : σ → List α → Prop
  | _, [] => True
  | s, a :: as => enabled s a ∧ guard s a ∧ Performs enabled guard apply (apply s a) as

instance Performs.decidable {enabled guard : σ → α → Prop} {apply : σ → α → σ}
    [∀ s a, Decidable (enabled s a)] [∀ s a, Decidable (guard s a)] :
    ∀ s as, Decidable (Performs enabled guard apply s as)
  | _, [] => .isTrue trivial
  | s, a :: as =>
      have : Decidable (Performs enabled guard apply (apply s a) as) := Performs.decidable _ as
      inferInstanceAs (Decidable (enabled s a ∧ guard s a ∧ _))

/-- A run that is admitted by a stronger guard. -/
lemma Performs.mono {enabled : σ → α → Prop} {apply : σ → α → σ}
    (h : ∀ s a, guard s a → guard' s a) : ∀ {s : σ} {as : List α},
      Performs enabled guard apply s as → Performs enabled guard' apply s as
  | _, [], _ => trivial
  | _, _ :: _, ⟨hen, hg, hrest⟩ => ⟨hen, h _ _ hg, Performs.mono h hrest⟩

/-- A list of actions that can be performed leads to a reachable state. -/
lemma ReachableUnder.foldl {s₀ : σ} {enabled : σ → α → Prop} {apply : σ → α → σ} (as : List α) :
    ∀ {s : σ}, (ofFun s₀ enabled apply).ReachableUnder guard s →
      Performs enabled guard apply s as →
      (ofFun s₀ enabled apply).ReachableUnder guard (as.foldl apply s) := by
  induction as with
  | nil => exact fun hs _ => hs
  | cons a as ih => exact fun hs h => ih (.step hs h.2.1 ⟨h.1, rfl⟩) h.2.2

/-! ## Systems whose actions can fail -/

/-- The system with one initial state in which a failing action ends the run. -/
def ofExcept {ε : Type*} (s₀ : σ) (enabled : σ → α → Prop) (apply : σ → α → Except ε σ) :
    TransitionSystem σ α where
  init s := s = s₀
  step s a s' := enabled s a ∧ apply s a = .ok s'

section RunsTo

variable {ε : Type*} (enabled guard : σ → α → Prop) (apply : σ → α → Except ε σ) (P : σ → Prop)

/-- The actions of a list can be performed in turn, and lead to a state with `P`. -/
def RunsTo : σ → List α → Prop
  | s, [] => P s
  | s, a :: as =>
      enabled s a ∧ guard s a ∧
        match apply s a with
        | .error _ => False
        | .ok s' => RunsTo s' as

instance RunsTo.decidable [∀ s a, Decidable (enabled s a)] [∀ s a, Decidable (guard s a)]
    [DecidablePred P] : ∀ s as, Decidable (RunsTo enabled guard apply P s as)
  | s, [] => inferInstanceAs (Decidable (P s))
  | s, a :: as =>
      have : Decidable (match apply s a with
          | .error _ => False
          | .ok s' => RunsTo enabled guard apply P s' as) :=
        match apply s a with
        | .error _ => .isFalse id
        | .ok s' => RunsTo.decidable s' as
      inferInstanceAs (Decidable (enabled s a ∧ guard s a ∧ _))

variable {enabled guard apply P}

/-- A run of actions leads to a reachable state. -/
lemma RunsTo.reachable {s₀ : σ} (as : List α) : ∀ {s : σ},
    (ofExcept s₀ enabled apply).ReachableUnder guard s → RunsTo enabled guard apply P s as →
      ∃ s', (ofExcept s₀ enabled apply).ReachableUnder guard s' ∧ P s' := by
  induction as with
  | nil => exact fun hs h => ⟨_, hs, h⟩
  | cons a as ih =>
      rintro s hs ⟨hen, hg, h⟩
      cases hok : apply s a with
      | error e =>
          rw [hok] at h
          exact h.elim
      | ok s' =>
          rw [hok] at h
          exact ih (.step hs hg ⟨hen, hok⟩) h

end RunsTo

/-! ## Simulation -/

/-- A map under which every step of one system is a step of the other or changes nothing carries
runs to runs. -/
lemma ReachableUnder.map {τ : Type*} {β : Type*} {T : TransitionSystem τ β} {f : σ → τ}
    {guardT : τ → β → Prop} (hinit : ∀ s, S.init s → T.init (f s))
    (hstep : ∀ s a s', S.ReachableUnder guard s → T.ReachableUnder guardT (f s) → guard s a →
      S.step s a s' → f s' = f s ∨ ∃ b, guardT (f s) b ∧ T.step (f s) b (f s')) {s : σ}
    (hs : S.ReachableUnder guard s) : T.ReachableUnder guardT (f s) := by
  induction hs with
  | init h0 => exact .init (hinit _ h0)
  | step hr hg hst ih =>
      rcases hstep _ _ _ hr ih hg hst with heq | ⟨b, hb, hT⟩
      · exact heq ▸ ih
      · exact .step ih hb hT

end TransitionSystem

end ParrotServe
