import ParrotServe.Model.NativeExecutor

/-!
# Single assignment

`set` refuses a variable with a content, and makes every other one ready.  So a variable that was
set to `None` is ready and can be set again, and this is what a native function does that returns
without setting an output.  `BringsText` is the condition on a step: whoever sets a variable that
has no content yet brings a string.  In every run of such steps variables are single-assignment
(`single_assignment`).

`Extends` is the order in which the variables grow: one that has a content stays as it is.
-/

namespace ParrotServe

namespace VariableState

variable (v : VariableState)

/-- The two notions of a filled variable agree, and it holds a string. -/
def Sound : Prop :=
  (v.content = .none ∧ v.readyEvent = false) ∨ ∃ text, v.content = .str text ∧ v.readyEvent = true

variable {v}

lemma set_of_filled (h : v.content ≠ .none) (content : PyValue) :
    ∃ e, v.set content = (.error e, v) :=
  ⟨_, if_neg h⟩

lemma set_of_empty (h : v.content = .none) (content : PyValue) :
    v.set content = (.ok (), { v with content, readyEvent := true }) :=
  if_pos h

lemma get_of_ready (h : v.readyEvent = true) : v.get = .ok v.content := if_pos h

lemma get_of_not_ready (h : v.readyEvent ≠ true) : ∃ e, v.get = .error e := ⟨_, if_neg h⟩

lemma Sound.set (h : v.Sound) {content : PyValue}
    (htext : v.content ≠ .none ∨ content.isStr = true) : (v.set content).2.Sound := by
  by_cases hfilled : v.content = .none
  · rw [set_of_empty hfilled]
    obtain ⟨text, rfl⟩ : ∃ text, content = .str text := by
      cases content with
      | str text => exact ⟨text, rfl⟩
      | none => simp [PyValue.isStr, hfilled] at htext
      | object id => simp [PyValue.isStr, hfilled] at htext
    exact .inr ⟨text, rfl, rfl⟩
  · obtain ⟨e, hset⟩ := set_of_filled hfilled content
    rw [hset]
    exact h

end VariableState

namespace VariableStore

open TransitionSystem

variable {s s' s'' : VariableStore}

/-! ## How variables grow -/

/-- A variable with a content stays as it is, and what was read is kept. -/
structure Extends (s s' : VariableStore) : Prop where
  vars : ∀ r, (s.vars r).content ≠ .none → s'.vars r = s.vars r
  reads : s'.reads = s.reads

lemma Extends.refl (s : VariableStore) : s.Extends s := ⟨fun _ _ => rfl, rfl⟩

lemma Extends.trans (h : s.Extends s') (h' : s'.Extends s'') : s.Extends s'' where
  vars r hr := by
    have hr' := h.vars r hr
    rw [h'.vars r (by rw [hr']; exact hr), hr']
  reads := h'.reads.trans h.reads

lemma setVar_extends (s : VariableStore) (r : SvRef) (content : PyValue) :
    s.Extends (s.setVar r content).2 := by
  refine ⟨fun r' hr' => ?_, rfl⟩
  simp only [setVar]
  by_cases heq : r' = r
  · subst heq
    obtain ⟨e, hset⟩ := VariableState.set_of_filled hr' content
    rw [Function.update_self, hset]
  · rw [Function.update_of_ne heq]

lemma writeBack_extends (proxies : Text → PyValue) (outputs : List (Text × SvRef)) :
    ∀ s : VariableStore, s.Extends (writeBack proxies outputs s).2 := by
  induction outputs with
  | nil => exact .refl
  | cons output outputs ih =>
      obtain ⟨key, r⟩ := output
      intro s
      have hset := setVar_extends s r (proxies key)
      simp only [writeBack]
      split
      · rename_i heq
        rwa [heq] at hset
      · rename_i heq
        rw [heq] at hset
        exact hset.trans (ih _)

lemma execute_extends (s : VariableStore) (call : NativeFuncCall) :
    s.Extends (s.execute call).2 := by
  unfold execute
  split
  · exact .refl s
  · rename_i proxies funcCache hrun
    have hext := writeBack_extends proxies call.outputVars { s with funcCache }
    exact ⟨hext.vars, hext.reads⟩

/-! ## Steps that bring strings -/

/-- The write back reaches no output without content whose proxy holds anything but a string. -/
def WritesText (proxies : Text → PyValue) : List (Text × SvRef) → VariableStore → Prop
  | [], _ => True
  | (key, r) :: outputs, s => (s.vars r).content ≠ .none ∨
      (proxies key).isStr = true ∧ WritesText proxies outputs (s.setVar r (proxies key)).2

instance WritesText.decidable (proxies : Text → PyValue) :
    ∀ outputs s, Decidable (WritesText proxies outputs s)
  | [], _ => .isTrue trivial
  | (key, r) :: outputs, s =>
      have := WritesText.decidable proxies outputs (s.setVar r (proxies key)).2
      inferInstanceAs (Decidable ((s.vars r).content ≠ .none ∨ (proxies key).isStr = true ∧ _))

/-- The outputs that a native function writes are strings. -/
def ReturnsText (s : VariableStore) (call : NativeFuncCall) : Prop :=
  match s.runFunction call with
  | .error _ => True
  | .ok (proxies, funcCache) => WritesText proxies call.outputVars { s with funcCache }

/-- Whoever sets a variable without content brings a string. -/
def BringsText (s : VariableStore) : Action → Prop
  | .set _ r content => (s.vars r).content ≠ .none ∨ content.isStr = true
  | .execute call => s.ReturnsText call
  | .get _ => True

instance (s : VariableStore) (call : NativeFuncCall) : Decidable (s.ReturnsText call) := by
  unfold ReturnsText
  split <;> infer_instance

instance (s : VariableStore) : ∀ a, Decidable (s.BringsText a)
  | .set _ r content =>
      inferInstanceAs (Decidable ((s.vars r).content ≠ .none ∨ content.isStr = true))
  | .execute call => inferInstanceAs (Decidable (s.ReturnsText call))
  | .get _ => inferInstanceAs (Decidable True)

/-- The variables are sound, and what was read is what they hold. -/
structure ReadsInv (s : VariableStore) : Prop where
  sound : ∀ r, (s.vars r).Sound
  reads : ∀ p ∈ s.reads, (s.vars p.1).content = p.2 ∧ p.2 ≠ .none

/-- Growing keeps what was read. -/
lemma ReadsInv.extends (h : s.ReadsInv) (hext : s.Extends s') (hsound : ∀ r, (s'.vars r).Sound) :
    s'.ReadsInv where
  sound := hsound
  reads p hp := by
    obtain ⟨hread, hne⟩ := h.reads p (hext.reads ▸ hp)
    rw [hext.vars p.1 (by rw [hread]; exact hne)]
    exact ⟨hread, hne⟩

lemma setVar_sound (h : ∀ r, (s.vars r).Sound) {r : SvRef} {content : PyValue}
    (htext : (s.vars r).content ≠ .none ∨ content.isStr = true) (r' : SvRef) :
    ((s.setVar r content).2.vars r').Sound := by
  simp only [setVar]
  by_cases heq : r' = r
  · subst heq
    rw [Function.update_self]
    exact (h r').set htext
  · rw [Function.update_of_ne heq]
    exact h r'

/-- The write back, by induction on the outputs: it ends at the first variable with a content. -/
lemma writeBack_sound (proxies : Text → PyValue) (outputs : List (Text × SvRef)) :
    ∀ s : VariableStore, (∀ r, (s.vars r).Sound) → WritesText proxies outputs s →
      ∀ r, ((writeBack proxies outputs s).2.vars r).Sound := by
  induction outputs with
  | nil => exact fun _ h _ => h
  | cons output outputs ih =>
      obtain ⟨key, r⟩ := output
      intro s h hwrites
      by_cases hfilled : (s.vars r).content = .none
      · obtain ⟨hstr, hrest⟩ := hwrites.resolve_left (not_not.mpr hfilled)
        have hsound : ∀ r', ((s.setVar r (proxies key)).2.vars r').Sound :=
          setVar_sound h (.inr hstr)
        have hok : (s.setVar r (proxies key)).1 = .ok () := by
          simp only [setVar, VariableState.set_of_empty hfilled]
        simp only [writeBack]
        split
        · rename_i heq
          rw [heq] at hok
          cases hok
        · rename_i heq
          rw [heq] at hsound hrest
          exact ih _ hsound hrest
      · have hsound : ∀ r', ((s.setVar r (proxies key)).2.vars r').Sound :=
          setVar_sound h (.inl hfilled)
        have herr : ∃ e, (s.setVar r (proxies key)).1 = .error e := by
          obtain ⟨e, hset⟩ := VariableState.set_of_filled hfilled (proxies key)
          exact ⟨e, by simp only [setVar, hset]⟩
        obtain ⟨e, herr⟩ := herr
        simp only [writeBack]
        split
        · rename_i heq
          rw [heq] at hsound
          exact hsound
        · rename_i heq
          rw [heq] at herr
          cases herr

lemma execute_sound (h : ∀ r, (s.vars r).Sound) {call : NativeFuncCall}
    (hcall : s.ReturnsText call) (r : SvRef) : ((s.execute call).2.vars r).Sound := by
  unfold ReturnsText at hcall
  unfold execute
  split
  · exact h r
  · rename_i proxies funcCache hrun
    rw [hrun] at hcall
    exact writeBack_sound proxies call.outputVars { s with funcCache } h hcall r

/-- A read of a sound variable is recorded as what it holds. -/
lemma ReadsInv.get (h : s.ReadsInv) (r : SvRef) : (s.apply (.get r)).ReadsInv := by
  by_cases hready : (s.vars r).readyEvent = true
  · simp only [apply, VariableState.get_of_ready hready]
    refine ⟨h.sound, fun p hp => ?_⟩
    rcases List.mem_append.mp hp with hold | hnew
    · exact h.reads p hold
    · obtain rfl := List.mem_singleton.mp hnew
      rcases h.sound r with ⟨-, hunset⟩ | ⟨text, hcontent, -⟩
      · rw [hready] at hunset
        cases hunset
      · refine ⟨rfl, fun hnone => ?_⟩
        rw [hcontent] at hnone
        cases hnone
  · obtain ⟨e, hget⟩ := VariableState.get_of_not_ready hready
    simp only [apply, hget]
    exact h

lemma ReadsInv.step (h : s.ReadsInv) {a : Action} (ha : s.BringsText a) :
    (s.apply a).ReadsInv := by
  cases a with
  | set writer r content => exact h.extends (setVar_extends s r content) (setVar_sound h.sound ha)
  | execute call => exact h.extends (execute_extends s call) (execute_sound h.sound ha)
  | get r => exact h.get r

/-! ## Single assignment -/

/-- A ready variable has a string, refuses every other content and stays as it is, whoever writes;
and reads of one variable agree. -/
structure SingleAssigned (s : VariableStore) : Prop where
  text : ∀ r, (s.vars r).isReady = true → ∃ text, (s.vars r).content = .str text
  refuses : ∀ r, (s.vars r).isReady = true → ∀ content, ∃ e, s.setVar r content = (.error e, s)
  stays : ∀ r, (s.vars r).isReady = true → ∀ a, (s.apply a).vars r = s.vars r
  reads : ∀ p ∈ s.reads, ∀ p' ∈ s.reads, p.1 = p'.1 → p.2 = p'.2
  current : ∀ p ∈ s.reads, (s.vars p.1).get = .ok p.2

lemma ReadsInv.singleAssigned (h : s.ReadsInv) : s.SingleAssigned := by
  have htext : ∀ r, (s.vars r).isReady = true → ∃ text, (s.vars r).content = .str text := by
    intro r hready
    rcases h.sound r with ⟨-, hunset⟩ | ⟨text, hcontent, -⟩
    · rw [VariableState.isReady, hunset] at hready
      cases hready
    · exact ⟨text, hcontent⟩
  have hfilled : ∀ r, (s.vars r).isReady = true → (s.vars r).content ≠ .none := by
    intro r hready hnone
    obtain ⟨text, hcontent⟩ := htext r hready
    rw [hnone] at hcontent
    cases hcontent
  refine ⟨htext, fun r hready content => ?_, fun r hready a => ?_, fun p hp p' hp' heq => ?_,
    fun p hp => ?_⟩
  · obtain ⟨e, hset⟩ := VariableState.set_of_filled (hfilled r hready) content
    exact ⟨e, by simp only [setVar, hset, Function.update_eq_self]⟩
  · cases a with
    | set writer r' content => exact (setVar_extends s r' content).vars r (hfilled r hready)
    | execute call => exact (execute_extends s call).vars r (hfilled r hready)
    | get r' =>
        simp only [apply]
        split <;> rfl
  · rw [← (h.reads p hp).1, ← (h.reads p' hp').1, heq]
  · obtain ⟨hread, hne⟩ := h.reads p hp
    rcases h.sound p.1 with ⟨hnone, -⟩ | ⟨text, hcontent, hready⟩
    · exact absurd (hread.symm.trans hnone) hne
    · rw [VariableState.get_of_ready hready, hread]

/-- Variables are single-assignment in every run in which whoever sets a variable without content
brings a string. -/
theorem single_assignment (ids : SvRef → VarId)
    (hs : (system ids).ReachableUnder BringsText s) : s.SingleAssigned := by
  have hinv : (system ids).IsInvariantUnder BringsText ReadsInv := by
    constructor
    · rintro s rfl
      exact ⟨fun _ => .inl ⟨rfl, rfl⟩, fun p hp => by cases hp⟩
    · rintro s a s' h ha ⟨-, rfl⟩
      exact h.step ha
  exact (hinv.holds hs).singleAssigned

/-! ## The text of a variable -/

/-- The text of a content. -/
def textOf : PyValue → Option Text
  | .str text => some text
  | _ => none

/-- The variables with one text each are these variables. -/
def Shows (s : VariableStore) (m : SemanticVariableManager) : Prop :=
  ∀ r, (m.obj r).id = (s.vars r).id ∧ (m.obj r).content = textOf (s.vars r).content

/-- While variables are sound, their content and their event are one text: `set` with a string
fails on both sides or writes it on both. -/
theorem setVar_shows {m : SemanticVariableManager} (h : ∀ r, (s.vars r).Sound) (hm : s.Shows m)
    (r : SvRef) (text : Text) :
    (s.setVar r (.str text)).1 = (m.setContent r text).1 ∧
      (s.setVar r (.str text)).2.Shows (m.setContent r text).2 := by
  obtain ⟨hid, hcontent⟩ := hm r
  rcases h r with ⟨hnone, -⟩ | ⟨old, hold, -⟩
  · rw [hnone] at hcontent
    have hset := VariableState.set_of_empty hnone (.str text)
    simp only [setVar, hset, SemanticVariableManager.setContent, hcontent, textOf]
    refine ⟨trivial, fun r' => ?_⟩
    by_cases heq : r' = r
    · subst heq
      simp only [Function.update_self]
      exact ⟨hid, rfl⟩
    · simp only [Function.update_of_ne heq]
      exact hm r'
  · rw [hold] at hcontent
    have hfilled : (s.vars r).content ≠ .none := by rw [hold]; exact PyValue.noConfusion
    simp only [setVar, VariableState.set, if_neg hfilled, SemanticVariableManager.setContent,
      hcontent, textOf, hid, Function.update_eq_self]
    exact ⟨trivial, hm⟩

/-! ## A native function that returns without its output -/

/-- The ids of the variables below do not matter. -/
def sameIds : SvRef → VarId := fun _ => SemanticVariableManager.noVar.id

/-- A call that leaves `content` in its only output. -/
def returning (content : PyValue) : NativeFuncCall where
  funcName := ['f']
  executableFunc := some fun _ _ => .ok fun _ => content
  inputVars := []
  inputValues := []
  outputVars := [(['o'], 0)]

/-- What a list of actions makes of new variables. -/
def run (as : List Action) : VariableStore := as.foldl apply (start sameIds)

theorem single_assignment_returned :
    (run [.execute (returning (.str ['a'])), .get 0, .set .client 0 .none]).SingleAssigned :=
  single_assignment sameIds (.foldl _ (.init rfl) (by decide +kernel))

/-- The output is read as `None`, a client fills it, and it is read again. -/
theorem assigned_twice : ∃ s, (system sameIds).Reachable s ∧ ¬ s.SingleAssigned ∧
    s.reads = [(0, .none), (0, .str ['a'])] := by
  refine ⟨run [.execute (returning .none), .get 0, .set .client 0 (.str ['a']), .get 0],
    .foldl _ (.init rfl) (by decide +kernel), fun h => ?_, by decide +kernel⟩
  have hreads := h.reads (0, .none) (by decide +kernel) (0, .str ['a']) (by decide +kernel) rfl
  cases hreads

end VariableStore

end ParrotServe
