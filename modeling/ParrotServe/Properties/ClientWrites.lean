import ParrotServe.Properties.PrefixSharing

/-!
# Who writes an output

The variable of a Gen node is written by the task that generates it, inside the `try` that also
sends the primitive.  Clients can write variables too.  If one was written before, the assertion
in `SemanticVariable.set` fails, and `execute` blames the engine: it calls `raise_exception`.

`engine_not_blamed` says that an engine whose requests all succeed is not marked as bad while
every output has one writer: no client sets the output of a bound task, and a task is bound only
if nobody has set or is about to set its output.
-/

namespace ParrotServe
namespace ExecutorState

open ServeCoreContextManager ContextSystem TransitionSystem

variable {α : Type} {p : Payloads α} {x x' : ExecutorState α} {t : TaskRef} {i e : ℕ}
  {r : ContextRef}

/-! ## The property -/

/-- The variables a chain generates. -/
def genVars (chain : List ChainNode) : List VarId :=
  (chain.filter ChainNode.isGen).map ChainNode.varId

/-- The Fills and Generates that are sent to an engine do not fail. -/
def RequestsSucceed (x : ExecutorState α) (e : ℕ) (a : ExecutorAction) : Prop :=
  ∀ r, r ∈ x.failedRequest a → (x.sys.world.mgr.obj r).engine ≠ e

instance (x : ExecutorState α) (e : ℕ) (a : ExecutorAction) : Decidable (x.RequestsSucceed e a) :=
  inferInstanceAs (Decidable (∀ r, r ∈ x.failedRequest a → _ ≠ e))

/-- Every output has one writer. -/
def SoleWriter (x : ExecutorState α) : ExecutorAction → Prop
  | .setSv v => ∀ t ∈ x.sys.bound, v ∉ genVars (x.sys.task t).chain
  | .setTaskContexts _ chain _ => ∀ v ∈ genVars chain, x.svReady v = false ∧
      ∀ t ∈ x.sys.bound, v ∉ genVars (x.sys.task t).chain
  | _ => True

instance (x : ExecutorState α) : ∀ a, Decidable (x.SoleWriter a)
  | .setSv v => inferInstanceAs (Decidable (∀ t ∈ x.sys.bound, v ∉ genVars (x.sys.task t).chain))
  | .setTaskContexts _ chain _ =>
      inferInstanceAs (Decidable (∀ v ∈ genVars chain, x.svReady v = false ∧
        ∀ t ∈ x.sys.bound, v ∉ genVars (x.sys.task t).chain))
  | .registerEngine _ | .step _ | .resume _ | .arrive _ | .execute _ | .answer _ | .fail _
  | .freeTaskContexts _ | .freeConstantPrefixContexts _ => inferInstanceAs (Decidable True)

/-! ## The invariant -/

/-- The outputs of the bound tasks are different, and not set as long as the task has not set
them. -/
structure OutputsInv (e : ℕ) (x : ExecutorState α) : Prop where
  good : x.engineBad e = false
  bound_lt : ∀ t ∈ x.sys.bound, t < x.sys.nextTask
  shape : ∀ t ∈ x.sys.bound, ChainShape (x.sys.task t).chain
  apart : ∀ t ∈ x.sys.bound, ∀ t' ∈ x.sys.bound, ∀ v ∈ genVars (x.sys.task t).chain,
    v ∈ genVars (x.sys.task t').chain → t = t'
  unset : ∀ t ∈ x.sys.bound, ∀ i, (x.phase t).node = some i → ∀ j, i ≤ j →
    ∀ node, (x.sys.task t).chain[j]? = some node → node.isGen = true → x.svReady node.varId = false

lemma mem_genVars {chain : List ChainNode} {j : ℕ} {node : ChainNode}
    (hnode : chain[j]? = some node) (hgen : node.isGen = true) : node.varId ∈ genVars chain :=
  List.mem_map_of_mem (List.mem_filter.mpr ⟨List.mem_of_getElem? hnode, hgen⟩)

/-- No node follows a Gen. -/
lemma ChainShape.last_of_gen {chain : List ChainNode} (h : ChainShape chain) {j k : ℕ}
    {node node' : ChainNode} (hj : chain[j]? = some node) (hgen : node.isGen = true)
    (hk : chain[k]? = some node') : k ≤ j := by
  by_contra hlt
  obtain ⟨hklt, -⟩ := List.getElem?_eq_some_iff.mp hk
  have hmem : node ∈ chain.dropLast := by
    have hget : chain.dropLast[j]? = some node := by
      rw [List.getElem?_dropLast, if_pos (by omega), hj]
    exact List.mem_of_getElem? hget
  rw [h node hmem] at hgen
  exact Bool.false_ne_true hgen

namespace OutputsInv

lemma start : OutputsInv e (ExecutorState.start : ExecutorState α) := by
  constructor <;> simp [ExecutorState.start, ContextSystem.start]

/-- A step of one task; when it sets its output, the task is behind its Gen node. -/
lemma moved (h : OutputsInv e x) (hgood : x'.engineBad e = x.engineBad e)
    (htask : x'.sys.task = x.sys.task) (hbound : x'.sys.bound = x.sys.bound)
    (hnext : x'.sys.nextTask = x.sys.nextTask)
    (hphase : ∀ t', t' ≠ t → x'.phase t' = x.phase t')
    (hnode : ∀ j, (x'.phase t).node = some j → ∃ i, (x.phase t).node = some i ∧ i ≤ j)
    (hset : ∀ v, x.svReady v = false → x'.svReady v = false ∨
      t ∈ x.sys.bound ∧ v ∈ genVars (x.sys.task t).chain ∧
        ∀ i, (x'.phase t).node = some i → (x.sys.task t).chain.length ≤ i) :
    OutputsInv e x' := by
  obtain ⟨hg, hlt, hshape, hapart, hunset⟩ := h
  refine ⟨hgood.trans hg, by rw [hbound, hnext]; exact hlt, by rw [hbound, htask]; exact hshape,
    by rw [hbound, htask]; exact hapart, fun t' ht' i hi j hij node hj hgen => ?_⟩
  rw [hbound] at ht'
  rw [htask] at hj
  have hmem := mem_genVars hj hgen
  have hold : x.svReady node.varId = false := by
    by_cases he : t' = t
    · rw [he] at hi ht' hj
      obtain ⟨i', hi', hle⟩ := hnode i hi
      exact hunset t ht' i' hi' j (Nat.le_trans hle hij) node hj hgen
    · exact hunset t' ht' i (hphase t' he ▸ hi) j hij node hj hgen
  refine (hset _ hold).resolve_right ?_
  rintro ⟨ht, hv, hbehind⟩
  obtain rfl := hapart t ht t' ht' _ hv hmem
  have hlen := hbehind i hi
  have hjlt := (List.getElem?_eq_some_iff.mp hj).1
  omega

/-- A task goes on. -/
lemma goto (h : OutputsInv e x) {phase : Phase}
    (hnode : ∀ j, phase.node = some j → ∃ i, (x.phase t).node = some i ∧ i ≤ j) :
    OutputsInv e (x.goto t phase) := by
  have hphase : (x.goto t phase).phase t = phase := Function.update_self _ _ _
  exact h.moved (t := t) rfl rfl rfl rfl (fun t' ht' => Function.update_of_ne ht' _ _)
    (by rw [hphase]; exact hnode) fun _ => .inl

/-- The error path, for a context of another engine. -/
lemma interrupt (h : OutputsInv e x) (hne : (x.sys.world.mgr.obj r).engine ≠ e) :
    OutputsInv e (x.interrupt t r) := by
  have hphase : (x.interrupt t r).phase t = .ended := Function.update_self _ _ _
  exact h.moved (t := t) (Function.update_of_ne hne.symm _ _) rfl rfl rfl
    (fun t' ht' => Function.update_of_ne ht' _ _) (by simp [hphase, Phase.node]) fun _ => .inl

/-- The loop body up to the first `await`. -/
lemma step (h : OutputsInv e x) (hi : x.phase t = .running i) (hok : x.step t i = .ok x') :
    OutputsInv e x' := by
  have hnode : (x.phase t).node = some i := by rw [hi, Phase.node]
  unfold ExecutorState.step at hok
  split at hok
  · exact Except.ok.inj hok ▸ h.goto (by simp [Phase.node])
  · split at hok
    · simp at hok
    · split_ifs at hok
      · refine Except.ok.inj hok ▸ h.goto fun j hj => ⟨i, hnode, ?_⟩
        rw [Phase.node, Option.some.injEq] at hj
        omega
      · refine Except.ok.inj hok ▸ h.goto fun j hj => ⟨i, hnode, ?_⟩
        rw [Phase.node, Option.some.injEq] at hj
        omega
      · obtain rfl := Except.ok.inj hok
        have hphase := Function.update_self t (Phase.sent i .posted) x.phase
        refine h.moved (t := t) rfl rfl rfl rfl (fun t' ht' => Function.update_of_ne ht' _ _)
          (fun j hj => ⟨i, hnode, ?_⟩) fun _ => .inl
        change (Function.update x.phase t (Phase.sent i .posted) t).node = _ at hj
        rw [hphase, Phase.node, Option.some.injEq] at hj
        omega

/-- A task is bound whose output nobody has set or will set. -/
lemma setTaskContexts (h : OutputsInv e x) {e' : ℕ} {chain : List ChainNode} {fuseFill : Bool}
    (hshape : ChainShape chain) (hg : x.SoleWriter (.setTaskContexts e' chain fuseFill))
    (hok : x.apply p (.setTaskContexts e' chain fuseFill) = .ok x') : OutputsInv e x' := by
  rw [ExecutorState.apply] at hok
  split at hok
  · simp at hok
  · rename_i cs m' _
    obtain rfl := Except.ok.inj hok
    have hne : ∀ t ∈ x.sys.bound, t ≠ x.sys.nextTask := fun t ht => Nat.ne_of_lt (h.bound_lt t ht)
    set task' := Function.update x.sys.task x.sys.nextTask
      { engine := e', chain, fuseFill, contexts := cs } with htask'
    have hnew : (task' x.sys.nextTask).chain = chain := by rw [htask', Function.update_self]
    have hold : ∀ t ∈ x.sys.bound, task' t = x.sys.task t := fun t ht => by
      rw [htask', Function.update_of_ne (hne t ht)]
    refine ⟨h.good, ?_, ?_, fun t₁ ht₁ t₂ ht₂ v h₁ h₂ => ?_, fun t ht i hi j hij node hj hgen => ?_⟩
    · exact List.forall_mem_cons.mpr
        ⟨Nat.lt_succ_self _, fun t ht => Nat.lt_succ_of_lt (h.bound_lt t ht)⟩
    · change ∀ t ∈ x.sys.nextTask :: x.sys.bound, ChainShape (task' t).chain
      exact List.forall_mem_cons.mpr ⟨hnew.symm ▸ hshape, fun t ht => hold t ht ▸ h.shape t ht⟩
    · change v ∈ genVars (task' t₁).chain at h₁
      change v ∈ genVars (task' t₂).chain at h₂
      rcases List.mem_cons.mp ht₁ with rfl | ht₁ <;> rcases List.mem_cons.mp ht₂ with rfl | ht₂
      · rfl
      · rw [hnew] at h₁
        rw [hold t₂ ht₂] at h₂
        exact absurd h₂ ((hg v h₁).2 t₂ ht₂)
      · rw [hold t₁ ht₁] at h₁
        rw [hnew] at h₂
        exact absurd h₁ ((hg v h₂).2 t₁ ht₁)
      · rw [hold t₁ ht₁] at h₁
        rw [hold t₂ ht₂] at h₂
        exact h.apart t₁ ht₁ t₂ ht₂ v h₁ h₂
    · change (Function.update x.phase x.sys.nextTask (.running 0) t).node = some i at hi
      change (task' t).chain[j]? = some node at hj
      rcases List.mem_cons.mp ht with rfl | ht
      · rw [hnew] at hj
        exact (hg _ (mem_genVars hj hgen)).1
      · rw [Function.update_of_ne (hne t ht)] at hi
        rw [hold t ht] at hj
        exact h.unset t ht i hi j hij node hj hgen

/-- A task sets its output, or a Fill is done. -/
lemma answer (h : OutputsInv e x) (ht : t ∈ x.sys.bound) {stage : Stage}
    (hi : x.phase t = .sent i stage) : OutputsInv e (x.answer t i) := by
  have hnode : (x.phase t).node = some i := by rw [hi, Phase.node]
  unfold ExecutorState.answer
  split
  · exact h
  · rename_i node r hcur
    obtain ⟨hchain, -⟩ := current_eq_some.mp hcur
    have hphase := Function.update_self t (Phase.running (i + 1)) x.phase
    have hgoes : ∀ j, (Function.update x.phase t (Phase.running (i + 1)) t).node = some j →
        ∃ i, (x.phase t).node = some i ∧ i ≤ j := fun j hj => by
      rw [hphase, Phase.node, Option.some.injEq] at hj
      exact ⟨i, hnode, by omega⟩
    dsimp only
    split_ifs with hgen hsv
    · rw [h.unset t ht i hnode i (Nat.le_refl i) node hchain hgen] at hsv
      exact absurd hsv Bool.false_ne_true
    · refine h.moved (t := t) rfl rfl rfl rfl (fun t' ht' => Function.update_of_ne ht' _ _) hgoes
        fun v hv => ?_
      change Function.update x.svReady node.varId true v = false ∨ _
      by_cases hvn : v = node.varId
      · refine .inr ⟨ht, hvn ▸ mem_genVars hchain hgen, fun j hj => ?_⟩
        change (Function.update x.phase t (Phase.running (i + 1)) t).node = some j at hj
        rw [hphase, Phase.node, Option.some.injEq] at hj
        by_contra hlt
        obtain ⟨node', hnode'⟩ : ∃ node', (x.sys.task t).chain[j]? = some node' :=
          ⟨_, List.getElem?_eq_getElem (Nat.lt_of_not_le hlt)⟩
        have := ChainShape.last_of_gen (h.shape t ht) hchain hgen hnode'
        omega
      · exact .inl (by rw [Function.update_of_ne hvn, hv])
    · exact h.moved (t := t) rfl rfl rfl rfl (fun t' ht' => Function.update_of_ne ht' _ _) hgoes
        fun _ => .inl

lemma arrive (h : OutputsInv e x) (hi : x.phase t = .sent i .posted)
    (hr : x.RequestsSucceed e (.arrive t)) : OutputsInv e (x.arrive t i) := by
  unfold ExecutorState.arrive
  split
  · exact h
  · rename_i node r hcur
    dsimp only
    split
    · rename_i _ hbind
      exact h.interrupt (hr r (by simp [failedRequest, hi, hcur, hbind]))
    · rename_i sys hbind
      obtain ⟨-, htask, hbound, hnext⟩ := SystemInv.bindJobContext_frame hbind
      have hphase := Function.update_self t (Phase.sent i .bound) x.phase
      refine h.moved (t := t) rfl htask hbound hnext
        (fun t' ht' => Function.update_of_ne ht' _ _)
        (fun j hj => ⟨i, by rw [hi, Phase.node], ?_⟩) fun _ => .inl
      change (Function.update x.phase t (Phase.sent i .bound) t).node = _ at hj
      rw [hphase, Phase.node, Option.some.injEq] at hj
      omega

lemma execute (h : OutputsInv e x) (hi : x.phase t = .sent i .bound) :
    OutputsInv e (x.execute p t i) := by
  have hgoto : OutputsInv e (x.goto t (.sent i .executed)) := h.goto fun j hj => by
    rw [Phase.node, Option.some.injEq] at hj
    exact ⟨i, by rw [hi, Phase.node], by omega⟩
  unfold ExecutorState.execute
  split
  · exact h
  · dsimp only
    split_ifs
    · exact hgoto
    · exact ⟨hgoto.good, hgoto.bound_lt, hgoto.shape, hgoto.apart, hgoto.unset⟩

/-- Every action keeps the invariant, if outputs have one writer and requests succeed. -/
lemma apply (h : OutputsInv e x) {a : ExecutorAction} (hen : x.Enabled a)
    (hr : x.RequestsSucceed e a) (hg : x.SoleWriter a) (hok : x.apply p a = .ok x') :
    OutputsInv e x' := by
  cases a with
  | registerEngine e' => exact Except.ok.inj hok ▸ ⟨h.good, h.bound_lt, h.shape, h.apart, h.unset⟩
  | setSv v =>
      obtain rfl := Except.ok.inj hok
      refine ⟨h.good, h.bound_lt, h.shape, h.apart, fun t ht i hi j hij node hj hgen => ?_⟩
      have hne : node.varId ≠ v := by
        rintro rfl
        exact hg t ht (mem_genVars hj hgen)
      change Function.update x.svReady v true node.varId = false
      rw [Function.update_of_ne hne]
      exact h.unset t ht i hi j hij node hj hgen
  | setTaskContexts e' chain fuseFill => exact h.setTaskContexts hen.2.2.1 hg hok
  | step t =>
      obtain ⟨-, -, hrun⟩ := hen
      cases hi : x.phase t with
      | running i =>
          rw [ExecutorState.apply, hi] at hok
          exact h.step hi hok
      | _ => simp [isRunning, hi] at hrun
  | resume t =>
      obtain ⟨-, -, hcan⟩ := hen
      cases hi : x.phase t with
      | waiting i =>
          rw [ExecutorState.apply, hi] at hok
          refine Except.ok.inj hok ▸ h.goto fun j hj => ⟨i, by rw [hi, Phase.node], ?_⟩
          rw [Phase.node, Option.some.injEq] at hj
          omega
      | _ => simp [canResume, hi] at hcan
  | arrive t =>
      obtain ⟨i, hi⟩ := phase_of_isSent hen.2
      rw [ExecutorState.apply, hi] at hok
      obtain rfl := Except.ok.inj hok
      exact h.arrive hi hr
  | execute t =>
      obtain ⟨i, hi⟩ := phase_of_isSent hen.2
      rw [ExecutorState.apply, hi] at hok
      obtain rfl := Except.ok.inj hok
      exact h.execute hi
  | answer t =>
      obtain ⟨i, hi⟩ := phase_of_isSent hen.2.2
      rw [ExecutorState.apply, hi] at hok
      exact Except.ok.inj hok ▸ h.answer hen.2.1 hi
  | fail t =>
      rw [ExecutorState.apply] at hok
      split at hok
      · rename_i i stage hi
        obtain rfl := Except.ok.inj hok
        unfold ExecutorState.fail
        split
        · exact h
        · rename_i node r hcur
          exact h.interrupt (hr r (by simp [failedRequest, hi, hcur]))
      · exact Except.ok.inj hok ▸ h
  | freeTaskContexts t =>
      rw [ExecutorState.apply] at hok
      split at hok
      · simp at hok
      · have hsub : ∀ t' ∈ x.sys.bound.erase t, t' ∈ x.sys.bound := fun t' =>
          List.mem_of_mem_erase
        exact Except.ok.inj hok ▸ ⟨h.good, fun t' ht' => h.bound_lt t' (hsub t' ht'),
          fun t' ht' => h.shape t' (hsub t' ht'),
          fun t₁ ht₁ t₂ ht₂ => h.apart t₁ (hsub t₁ ht₁) t₂ (hsub t₂ ht₂),
          fun t' ht' => h.unset t' (hsub t' ht')⟩
  | freeConstantPrefixContexts v =>
      rw [ExecutorState.apply] at hok
      split at hok
      · simp at hok
      · exact Except.ok.inj hok ▸ ⟨h.good, h.bound_lt, h.shape, h.apart, h.unset⟩

end OutputsInv

end ExecutorState
end ParrotServe
