import ParrotServe.Properties.ContextCounts
import ParrotServe.Properties.PrefixSharing

/-!
# Started contexts

The start event of a context is never cleared.  If the primitive that was sent for it fails, the
context stays started and never becomes ready; when something else holds it, it also stays in the
prefix cache, and every later task with the same prefix waits for it.

`started_in_flight` says exactly when this does not happen: as long as a primitive fails only
while its task holds the last reference to its context.  The context is then dropped by
`free_task_contexts`, before another task can find it.  Nothing is assumed about the bindings:
the references are those of `Counted`, which holds whatever the prefix caches say.
-/

namespace ParrotServe
namespace ExecutorState

open ServeCoreContextManager ContextSystem TransitionSystem

variable {α : Type} {p : Payloads α} {x x' : ExecutorState α} {t : TaskRef} {i : ℕ}
  {r : ContextRef}

/-! ## The property -/

/-- Some task has a primitive for the context on its way. -/
def InFlight (x : ExecutorState α) (r : ContextRef) : Prop :=
  ∃ t ∈ x.sys.bound, ∃ i stage, x.phase t = .sent i stage ∧ (x.sys.task t).contexts[i]? = some r

/-- Every context that was started and is not ready is being filled, and so is every context that
a task waits for. -/
structure StartedInFlight (x : ExecutorState α) : Prop where
  contexts : ∀ r, x.sys.world.mgr.Live r → x.startEvent r = true → x.readyEvent r = false →
    x.InFlight r
  waiting : ∀ t ∈ x.sys.bound, ∀ i r, x.phase t = .waiting i →
    (x.sys.task t).contexts[i]? = some r → x.readyEvent r = false → x.InFlight r

/-- A primitive only fails when its task has the last reference to its context. -/
def FailsAlone (x : ExecutorState α) (a : ExecutorAction) : Prop :=
  ∀ r, r ∈ x.failingContext a →
    x.sys.world.mgr.contextRefCounter (x.sys.world.mgr.obj r).contextId = some 1

instance (x : ExecutorState α) (a : ExecutorAction) : Decidable (x.FailsAlone a) :=
  inferInstanceAs (Decidable (∀ r, r ∈ x.failingContext a → _ = some (1 : ℤ)))

/-! ## The invariant -/

/-- The task that started the context has ended, and drops it next. -/
def Pending (x : ExecutorState α) (r : ContextRef) : Prop :=
  ∃ t ∈ x.sys.bound, x.phase t = .ended ∧ r ∈ (x.sys.task t).contexts ∧
    x.sys.world.mgr.contextRefCounter (x.sys.world.mgr.obj r).contextId = some 1

/-- The references, the tasks, and where the started contexts are. -/
structure HandshakeInv (x : ExecutorState α) : Prop where
  counted : x.sys.world.mgr.Counted x.sys.held x.sys.world.mgr.constantEntries
  keys : x.sys.world.mgr.KeysNodup
  bound_lt : ∀ t ∈ x.sys.bound, t < x.sys.nextTask
  nodup : x.sys.bound.Nodup
  started_lt : ∀ r, x.startEvent r = true → r < x.sys.world.mgr.next
  waiting : ∀ t ∈ x.sys.bound, ∀ i r, x.phase t = .waiting i →
    (x.sys.task t).contexts[i]? = some r → x.startEvent r = true
  started : ∀ r, x.sys.world.mgr.Live r → x.startEvent r = true → x.readyEvent r = false →
    x.InFlight r ∨ x.Pending r

/-- Between the stretches of the serve layer no task is pending. -/
lemma not_pending (h : x.settled = true) : ¬ x.Pending r := by
  rintro ⟨t, ht, hph, -⟩
  have := List.all_eq_true.mp h t ht
  simp [hph] at this

namespace HandshakeInv

lemma live_of_mem (h : HandshakeInv x) (ht : t ∈ x.sys.bound)
    (hr : r ∈ (x.sys.task t).contexts) : x.sys.world.mgr.Live r :=
  h.counted.held_live _ (List.mem_map_of_mem ht) r hr

lemma startedInFlight (h : HandshakeInv x) (hs : x.settled = true) : x.StartedInFlight where
  contexts r hr hst hrd := (h.started r hr hst hrd).resolve_right (not_pending hs)
  waiting t ht i r hi hr hrd :=
    (h.started r (h.live_of_mem ht (List.mem_of_getElem? hr)) (h.waiting t ht i r hi hr)
      hrd).resolve_right (not_pending hs)

lemma start : HandshakeInv (ExecutorState.start : ExecutorState α) := by
  refine ⟨⟨(RecyclePool.owns_empty _ _ _).mono ?_, ?_, ?_, ?_, ?_, fun r hr => ?_,
      fun _ _ => .inl rfl⟩,
    List.nodup_nil, ?_, List.nodup_nil, ?_, ?_, fun r hr => ?_⟩
  all_goals simp [ExecutorState.start, ContextSystem.start, ServeCoreContextManager.empty, held,
    constantEntries, Live] at *

/-- A step of one task that changes no reference. -/
lemma moved (h : HandshakeInv x) (hmgr : x'.sys.world.mgr = x.sys.world.mgr)
    (htask : x'.sys.task = x.sys.task) (hbound : x'.sys.bound = x.sys.bound)
    (hnext : x'.sys.nextTask = x.sys.nextTask)
    (hphase : ∀ t', t' ≠ t → x'.phase t' = x.phase t')
    (hstart : ∀ r, x.startEvent r = true → x'.startEvent r = true)
    (hstarted : ∀ r, x'.startEvent r = true → x.startEvent r = true ∨
      t ∈ x.sys.bound ∧ x'.InFlight r ∧ x.sys.world.mgr.Live r)
    (hready : ∀ r, x.readyEvent r = true → x'.readyEvent r = true)
    (hwaiting : t ∈ x.sys.bound → ∀ i r, x'.phase t = .waiting i →
      (x.sys.task t).contexts[i]? = some r → x'.startEvent r = true)
    (hsent : t ∈ x.sys.bound → ∀ i stage r, x.phase t = .sent i stage →
      (x.sys.task t).contexts[i]? = some r →
        x'.readyEvent r = true ∨ x'.InFlight r ∨ x'.Pending r)
    (hended : x.phase t = .ended → x'.phase t = .ended) : HandshakeInv x' := by
  obtain ⟨hcounted, hkeys, hlt, hnodup, hstlt, hwait, hst⟩ := h
  refine ⟨?_, hmgr ▸ hkeys, by rw [hbound, hnext]; exact hlt, hbound ▸ hnodup, fun r hr => ?_,
    fun t' ht' i r hi hr => ?_, fun r hr hrs hrd => ?_⟩
  · rw [hmgr, held, htask, hbound]
    exact hcounted
  · rw [hmgr]
    rcases hstarted r hr with hr | ⟨-, -, hlive⟩
    · exact hstlt r hr
    · exact hcounted.live_lt hlive
  · rw [hbound] at ht'
    rw [htask] at hr
    by_cases he : t' = t
    · exact hwaiting (he ▸ ht') i r (he ▸ hi) (he ▸ hr)
    · exact hstart r (hwait t' ht' i r (hphase t' he ▸ hi) hr)
  · rw [hmgr] at hr
    rcases hstarted r hrs with hrs | ⟨-, hfl, -⟩
    · have hrd' : x.readyEvent r = false := by
        by_contra hne
        rw [hready r (by simpa using hne)] at hrd
        simp at hrd
      rcases hst r hr hrs hrd' with ⟨t', ht', i, stage, hi, hctx⟩ | ⟨t', ht', hend, hmem, hone⟩
      · by_cases he : t' = t
        · rw [he] at ht' hi hctx
          rcases hsent ht' i stage r hi hctx with hrd'' | hfl
          · rw [hrd''] at hrd
            simp at hrd
          · exact hfl
        · exact .inl ⟨t', hbound ▸ ht', i, stage, (hphase t' he).trans hi, htask ▸ hctx⟩
      · refine .inr ⟨t', hbound ▸ ht', ?_, htask ▸ hmem, hmgr ▸ hone⟩
        by_cases he : t' = t
        · exact he ▸ hended (he ▸ hend)
        · exact (hphase t' he).trans hend
    · exact .inl hfl

/-- A task goes on that has no primitive on its way. -/
lemma goto (h : HandshakeInv x) {phase : Phase} (hno : ∀ i stage, x.phase t ≠ .sent i stage)
    (hend : x.phase t ≠ .ended) (hwait : ∀ i, phase = .waiting i →
      ∀ r, (x.sys.task t).contexts[i]? = some r → x.startEvent r = true) :
    HandshakeInv (x.goto t phase) := by
  have hphase : (x.goto t phase).phase t = phase := Function.update_self _ _ _
  exact h.moved (t := t) rfl rfl rfl rfl (fun t' ht' => Function.update_of_ne ht' _ _)
    (fun _ => id) (fun _ => .inl) (fun _ => id) (fun _ i r hi hr => hwait i (hphase ▸ hi) r hr)
    (fun _ i stage r hi => absurd hi (hno i stage)) (fun he => absurd he hend)

/-- The error path: the task holds the last reference to its context. -/
lemma interrupt (h : HandshakeInv x) {stage : Stage} {node : ChainNode}
    (ht : t ∈ x.sys.bound) (hi : x.phase t = .sent i stage)
    (hcur : x.current t i = some (node, r))
    (hone : x.sys.world.mgr.contextRefCounter (x.sys.world.mgr.obj r).contextId = some 1) :
    HandshakeInv (x.interrupt t r) := by
  have hphase : (x.interrupt t r).phase t = .ended := Function.update_self _ _ _
  refine h.moved (t := t) rfl rfl rfl rfl (fun t' ht' => Function.update_of_ne ht' _ _)
    (fun _ => id) (fun _ => .inl) (fun _ => id) (fun _ i r hi _ => ?_)
    (fun _ i' stage' r' hi' hr' => .inr (.inr ?_)) (fun _ => hphase)
  · rw [hphase] at hi
    simp at hi
  · rw [hi, Phase.sent.injEq] at hi'
    obtain ⟨rfl, rfl⟩ := hi'
    have hctx := (current_eq_some.mp hcur).2
    obtain rfl := Option.some.inj (hctx.symm.trans hr')
    exact ⟨t, ht, hphase, List.mem_of_getElem? hctx, hone⟩

/-- The loop body up to the first `await`. -/
lemma step (h : HandshakeInv x) (ht : t ∈ x.sys.bound) (hi : x.phase t = .running i)
    (hok : x.step t i = .ok x') : HandshakeInv x' := by
  have hno : ∀ i stage, x.phase t ≠ .sent i stage := by simp [hi]
  have hend : x.phase t ≠ .ended := by simp [hi]
  unfold ExecutorState.step at hok
  split at hok
  · obtain rfl := Except.ok.inj hok
    exact h.goto hno hend (by simp)
  · split at hok
    · simp at hok
    · rename_i r hctx
      split_ifs at hok with hrd hst
      · obtain rfl := Except.ok.inj hok
        exact h.goto hno hend (by simp)
      · obtain rfl := Except.ok.inj hok
        refine h.goto hno hend fun j hj r' hr' => ?_
        obtain rfl := Phase.waiting.inj hj
        obtain rfl := Option.some.inj (hctx.symm.trans hr')
        exact hst
      · obtain rfl := Except.ok.inj hok
        set x' : ExecutorState α := { x.goto t (.sent i .posted) with
          startEvent := Function.update x.startEvent r true }
        have hphase : x'.phase t = .sent i .posted := Function.update_self _ _ _
        have hfl : x'.InFlight r := ⟨t, ht, i, .posted, hphase, hctx⟩
        refine h.moved (t := t) rfl rfl rfl rfl (fun t' ht' => Function.update_of_ne ht' _ _)
          (fun r' hr' => ?_) (fun r' hr' => ?_) (fun _ => id) (fun _ j r' hj => ?_)
          (fun _ j stage r' hj => absurd hj (hno j stage)) (fun he => absurd he hend)
        · change Function.update x.startEvent r true r' = true
          rw [Function.update_apply, hr', ite_self]
        · change Function.update x.startEvent r true r' = true at hr'
          rw [Function.update_apply] at hr'
          split_ifs at hr' with heq
          · exact .inr ⟨ht, heq ▸ hfl, heq ▸ h.live_of_mem ht (List.mem_of_getElem? hctx)⟩
          · exact .inl hr'
        · rw [hphase] at hj
          simp at hj

/-- A primitive of the task gets further, or is answered. -/
lemma sent (h : HandshakeInv x) {stage : Stage} (hi : x.phase t = .sent i stage)
    (hmgr : x'.sys.world.mgr = x.sys.world.mgr) (htask : x'.sys.task = x.sys.task)
    (hbound : x'.sys.bound = x.sys.bound) (hnext : x'.sys.nextTask = x.sys.nextTask)
    (hphase : ∀ t', t' ≠ t → x'.phase t' = x.phase t') (hstart : x'.startEvent = x.startEvent)
    (hready : ∀ r, x.readyEvent r = true → x'.readyEvent r = true)
    (hwait : ∀ j, x'.phase t ≠ .waiting j)
    (hdone : t ∈ x.sys.bound → (∃ stage', x'.phase t = .sent i stage') ∨
      ∀ r, (x.sys.task t).contexts[i]? = some r → x'.readyEvent r = true) :
    HandshakeInv x' := by
  refine h.moved (t := t) hmgr htask hbound hnext hphase (fun r hr => hstart ▸ hr)
    (fun r hr => .inl (hstart ▸ hr)) hready (fun _ j _ hj => absurd hj (hwait j))
    (fun ht j stage' r hj hr => ?_) fun he => by simp [hi] at he
  rw [hi, Phase.sent.injEq] at hj
  obtain ⟨rfl, -⟩ := hj
  rcases hdone ht with ⟨stage'', hj⟩ | hrd
  · exact .inr (.inl ⟨t, hbound ▸ ht, i, stage'', hj, htask ▸ hr⟩)
  · exact .inl (hrd r hr)

/-- The manager changed between the stretches of the tasks. -/
lemma world (h : HandshakeInv x)
    (hcounted : x'.sys.world.mgr.Counted x'.sys.held x'.sys.world.mgr.constantEntries)
    (hkeys : x'.sys.world.mgr.KeysNodup) (hages : x.sys.world.mgr.Ages x'.sys.world.mgr)
    (hbound : ∀ t ∈ x'.sys.bound, t < x'.sys.nextTask) (hnodup : x'.sys.bound.Nodup)
    (hstart : x'.startEvent = x.startEvent) (hready : x'.readyEvent = x.readyEvent)
    (hold : ∀ t ∈ x.sys.bound, x.phase t ≠ .ended →
      t ∈ x'.sys.bound ∧ x'.sys.task t = x.sys.task t ∧ x'.phase t = x.phase t)
    (hwait : ∀ t ∈ x'.sys.bound, ∀ i, x'.phase t = .waiting i →
      t ∈ x.sys.bound ∧ x'.sys.task t = x.sys.task t ∧ x.phase t = .waiting i)
    (hpending : ∀ r, x'.sys.world.mgr.Live r → x.Pending r → x'.Pending r) :
    HandshakeInv x' := by
  refine ⟨hcounted, hkeys, hbound, hnodup, fun r hr => ?_, fun t ht i r hi hr => ?_,
    fun r hr hst hrd => ?_⟩
  · exact Nat.lt_of_lt_of_le (h.started_lt r (hstart ▸ hr)) hages.next_le
  · obtain ⟨ht', htask, hi'⟩ := hwait t ht i hi
    rw [hstart]
    exact h.waiting t ht' i r hi' (htask ▸ hr)
  · rw [hstart] at hst
    rw [hready] at hrd
    rcases h.started r (hages.live r (h.started_lt r hst) hr) hst hrd with
      ⟨t, ht, i, stage, hi, hctx⟩ | hp
    · obtain ⟨ht', htask, hph⟩ := hold t ht (by simp [hi])
      exact .inl ⟨t, ht', i, stage, hph.trans hi, htask.symm ▸ hctx⟩
    · exact .inr (hpending r hr hp)

/-- `set_task_contexts`. -/
lemma setTaskContexts (h : HandshakeInv x) (hs : x.settled = true) {e : ℕ}
    {chain : List ChainNode} {fuseFill : Bool}
    (hok : x.apply p (.setTaskContexts e chain fuseFill) = .ok x') : HandshakeInv x' := by
  rw [ExecutorState.apply] at hok
  split at hok
  · simp at hok
  · rename_i cs m' hset
    obtain rfl := Except.ok.inj hok
    obtain ⟨hages, -, hkeys, hcounted⟩ := h.counted.setTaskContexts h.keys hset
    have hne : ∀ t ∈ x.sys.bound, t ≠ x.sys.nextTask := fun t ht => Nat.ne_of_lt (h.bound_lt t ht)
    refine h.world ?_ hkeys hages ?_ ?_ rfl rfl (fun t ht _ => ⟨List.mem_cons_of_mem _ ht,
      Function.update_of_ne (hne t ht) _ _, Function.update_of_ne (hne t ht) _ _⟩)
      (fun t ht i hi => ?_) fun r _ hp => absurd hp (not_pending hs)
    · change m'.Counted (x.sys.bindTask { engine := e, chain, fuseFill, contexts := cs } m').held _
      rw [held_bindTask h.bound_lt]
      exact hcounted
    · exact List.forall_mem_cons.mpr
        ⟨Nat.lt_succ_self _, fun t ht => Nat.lt_succ_of_lt (h.bound_lt t ht)⟩
    · exact List.nodup_cons.mpr ⟨fun hmem => hne _ hmem rfl, h.nodup⟩
    · change Function.update x.phase x.sys.nextTask (.running 0) t = _ at hi
      rcases List.mem_cons.mp ht with rfl | ht
      · rw [Function.update_self] at hi
        simp at hi
      · rw [Function.update_of_ne (hne t ht)] at hi
        exact ⟨ht, Function.update_of_ne (hne t ht) _ _, hi⟩

/-- `free_task_contexts`: with it go the contexts that only the task held. -/
lemma freeTaskContexts (h : HandshakeInv x) (ht : t ∈ x.sys.bound) (hend : x.phase t = .ended)
    (hok : x.apply p (.freeTaskContexts t) = .ok x') : HandshakeInv x' := by
  rw [ExecutorState.apply] at hok
  split at hok
  · simp at hok
  · rename_i w hfree
    obtain rfl := Except.ok.inj hok
    have hcounted := h.counted.perm (held_perm_erase ht) (.refl _)
    obtain ⟨hrel, hcounted', hlast, hcnt⟩ := hcounted.freeTaskContexts hfree
    have herase : ∀ t' ∈ x.sys.bound, t' ≠ t → t' ∈ x.sys.bound.erase t := fun t' ht' hne =>
      (List.mem_erase_of_ne hne).mpr ht'
    have hentries : w.mgr.constantEntries = x.sys.world.mgr.constantEntries := by
      rw [constantEntries, hrel.constants]
      rfl
    refine h.world (hentries.symm ▸ hcounted') ?_ hrel.ages
      (fun t' ht' => h.bound_lt t' (List.mem_of_mem_erase ht')) (h.nodup.erase t) rfl rfl
      (fun t' ht' hph => ⟨herase t' ht' fun he => hph (he ▸ hend), rfl, rfl⟩)
      (fun t' ht' i hi => ⟨List.mem_of_mem_erase ht', rfl, hi⟩) ?_
    · change w.mgr.KeysNodup
      rw [KeysNodup, hrel.constants]
      exact h.keys
    · rintro r hr ⟨t', ht', hend', hmem, hone⟩
      by_cases hin : r ∈ (x.sys.task t).contexts
      · exact absurd hr (hlast r hin hone)
      · have hne : t' ≠ t := by
          rintro rfl
          exact hin hmem
        refine ⟨t', herase t' ht' hne, hend', hmem, ?_⟩
        change w.mgr.contextRefCounter (w.mgr.obj r).contextId = some 1
        rw [hrel.obj, hcnt _ fun y hy hid => hin ?_]
        · exact hone
        · rw [← h.counted.eq_of_id (h.live_of_mem ht hy) (h.live_of_mem ht' hmem) hid]
          exact hy

/-- `free_constant_prefix_contexts`. -/
lemma freeConstantPrefixContexts (h : HandshakeInv x) (hs : x.settled = true) {v : VarId}
    (hok : x.apply p (.freeConstantPrefixContexts v) = .ok x') : HandshakeInv x' := by
  rw [ExecutorState.apply] at hok
  split at hok
  · simp at hok
  · rename_i w hfree
    obtain rfl := Except.ok.inj hok
    unfold ContextWorld.freeConstantPrefixContexts at hfree
    split at hfree
    · simp at hfree
    · rename_i rs hv
      split at hfree
      · simp at hfree
      · rename_i w₁ hall
        obtain rfl := Except.ok.inj hfree
        have hcounted := h.counted.perm (.refl _) (filter_entry_perm h.keys hv).symm
        obtain ⟨hrel, hcounted'⟩ := Counted.freeAll rs hcounted hall
        refine h.world ?_ ?_ ⟨hrel.next.ge, fun r _ => congrFun hrel.obj r, fun r _ => hrel.live r⟩
          h.bound_lt h.nodup rfl rfl (fun t ht _ => ⟨ht, rfl, rfl⟩)
          (fun t ht i hi => ⟨ht, rfl, hi⟩) fun r _ hp => absurd hp (not_pending hs)
        · have hc : w₁.mgr.Counted x.sys.held
              ((w₁.mgr.constantPrefixContexts.filter fun en => decide (en.1 ≠ v)).flatMap
                Prod.snd) := by
            rw [hrel.constants]
            exact hcounted'
          exact hc.congr rfl rfl rfl rfl rfl
        · have hkeys : (w₁.mgr.constantPrefixContexts.map Prod.fst).Nodup := by
            rw [hrel.constants]
            exact h.keys
          exact hkeys.sublist (List.filter_sublist.map Prod.fst)

/-! ### The primitives -/

lemma arrive (h : HandshakeInv x) (ht : t ∈ x.sys.bound) (hi : x.phase t = .sent i .posted)
    (hg : x.FailsAlone (.arrive t)) : HandshakeInv (x.arrive t i) := by
  unfold ExecutorState.arrive
  split
  · exact h
  · rename_i node r hcur
    dsimp only
    split
    · rename_i e hbind
      refine h.interrupt ht hi hcur (hg r ?_)
      simp [failingContext, failedRequest, hi, hcur, hbind]
    · rename_i sys hbind
      obtain ⟨hmgr, htask, hbound, hnext⟩ := SystemInv.bindJobContext_frame hbind
      have hphase := Function.update_self t (Phase.sent i .bound) x.phase
      exact h.sent hi hmgr htask hbound hnext (fun t' ht' => Function.update_of_ne ht' _ _) rfl
        (fun _ => id) (fun j hj => by cases hphase.symm.trans hj) fun _ => .inl ⟨_, hphase⟩

lemma execute (h : HandshakeInv x) (hi : x.phase t = .sent i .bound) :
    HandshakeInv (x.execute p t i) := by
  have hphase := Function.update_self t (Phase.sent i .executed) x.phase
  unfold ExecutorState.execute
  split
  · exact h
  · dsimp only
    split_ifs
    · exact h.sent hi rfl rfl rfl rfl (fun t' ht' => Function.update_of_ne ht' _ _) rfl
        (fun _ => id) (fun j hj => by cases hphase.symm.trans hj) fun _ => .inl ⟨_, hphase⟩
    · exact h.sent hi rfl rfl rfl rfl (fun t' ht' => Function.update_of_ne ht' _ _) rfl
        (fun _ => id) (fun j hj => by cases hphase.symm.trans hj) fun _ => .inl ⟨_, hphase⟩

/-- The answer sets the ready event of the context; a Gen whose output is set raises instead. -/
lemma answer (h : HandshakeInv x) (ht : t ∈ x.sys.bound) (hi : x.phase t = .sent i .executed)
    (hg : x.FailsAlone (.answer t)) : HandshakeInv (x.answer t i) := by
  have hphase := Function.update_self t (Phase.running (i + 1)) x.phase
  unfold ExecutorState.answer
  split
  · exact h
  · rename_i node r hcur
    have hready : ∀ r', x.readyEvent r' = true →
        Function.update x.readyEvent r true r' = true := fun r' hr' => by
      rw [Function.update_apply, hr', ite_self]
    have hself : ∀ r', (x.sys.task t).contexts[i]? = some r' →
        Function.update x.readyEvent r true r' = true := fun r' hr' => by
      rw [(current_eq_some.mp hcur).2] at hr'
      rw [← Option.some.inj hr', Function.update_self]
    dsimp only
    split_ifs with hgen hsv
    · refine h.interrupt ht hi hcur (hg r ?_)
      simp [failingContext, hi, hcur, hgen, hsv]
    · exact h.sent hi rfl rfl rfl rfl (fun t' ht' => Function.update_of_ne ht' _ _) rfl hready
        (fun j hj => by cases hphase.symm.trans hj) fun _ => .inr hself
    · exact h.sent hi rfl rfl rfl rfl (fun t' ht' => Function.update_of_ne ht' _ _) rfl hready
        (fun j hj => by cases hphase.symm.trans hj) fun _ => .inr hself

lemma fail (h : HandshakeInv x) {stage : Stage} (ht : t ∈ x.sys.bound)
    (hi : x.phase t = .sent i stage) (hg : x.FailsAlone (.fail t)) :
    HandshakeInv (x.fail t i) := by
  unfold ExecutorState.fail
  split
  · exact h
  · rename_i node r hcur
    refine h.interrupt ht hi hcur (hg r ?_)
    simp [failingContext, failedRequest, hi, hcur]

/-- Every action keeps the invariant if no primitive fails at it, or its task holds the last
reference to the context. -/
lemma apply (h : HandshakeInv x) {a : ExecutorAction} (hen : x.Enabled a) (hg : x.FailsAlone a)
    (hok : x.apply p a = .ok x') : HandshakeInv x' := by
  cases a with
  | registerEngine e =>
      obtain rfl := Except.ok.inj hok
      refine h.world (h.counted.congr rfl rfl rfl rfl rfl) h.keys
        ⟨Nat.le_refl _, fun _ _ => rfl, fun _ _ hr => hr⟩ h.bound_lt h.nodup rfl rfl
        (fun t ht _ => ⟨ht, rfl, rfl⟩) (fun t ht i hi => ⟨ht, rfl, hi⟩)
        fun r _ hp => absurd hp (not_pending hen.1)
  | setSv v =>
      obtain rfl := Except.ok.inj hok
      exact h.world h.counted h.keys (.refl _) h.bound_lt h.nodup rfl rfl
        (fun t ht _ => ⟨ht, rfl, rfl⟩) (fun t ht i hi => ⟨ht, rfl, hi⟩) fun _ _ hp => hp
  | setTaskContexts e chain fuseFill => exact h.setTaskContexts hen.1 hok
  | step t =>
      obtain ⟨-, ht, hrun⟩ := hen
      cases hi : x.phase t with
      | running i =>
          rw [ExecutorState.apply, hi] at hok
          exact h.step ht hi hok
      | _ => simp [isRunning, hi] at hrun
  | resume t =>
      obtain ⟨-, ht, hcan⟩ := hen
      cases hi : x.phase t with
      | waiting i =>
          rw [ExecutorState.apply, hi] at hok
          obtain rfl := Except.ok.inj hok
          exact h.goto (by simp [hi]) (by simp [hi]) (by simp)
      | _ => simp [canResume, hi] at hcan
  | arrive t =>
      obtain ⟨ht, hsent⟩ := hen
      obtain ⟨i, hi⟩ := phase_of_isSent hsent
      rw [ExecutorState.apply, hi] at hok
      obtain rfl := Except.ok.inj hok
      exact h.arrive ht hi hg
  | execute t =>
      obtain ⟨ht, hsent⟩ := hen
      obtain ⟨i, hi⟩ := phase_of_isSent hsent
      rw [ExecutorState.apply, hi] at hok
      obtain rfl := Except.ok.inj hok
      exact h.execute hi
  | answer t =>
      obtain ⟨-, ht, hsent⟩ := hen
      obtain ⟨i, hi⟩ := phase_of_isSent hsent
      rw [ExecutorState.apply, hi] at hok
      obtain rfl := Except.ok.inj hok
      exact h.answer ht hi hg
  | fail t =>
      obtain ⟨-, ht, -⟩ := hen
      rw [ExecutorState.apply] at hok
      split at hok
      · rename_i i stage hi
        obtain rfl := Except.ok.inj hok
        exact h.fail ht hi hg
      · exact Except.ok.inj hok ▸ h
  | freeTaskContexts t => exact h.freeTaskContexts hen.1 hen.2 hok
  | freeConstantPrefixContexts v => exact h.freeConstantPrefixContexts hen hok

end HandshakeInv

/-- The invariant of every run in which primitives fail alone. -/
lemma failsAlone_invariant : (system p).IsInvariantUnder FailsAlone HandshakeInv where
  init _ h := h ▸ .start
  step _ _ _ h hg hstep := h.apply hstep.1 hg hstep.2

/-! ## The results -/

/-- **A started context is always being filled**, in every run in which a primitive fails only
while its task holds the last reference to its context.  The states meant are those in which no
task is between the end of its loop and `free_task_contexts`. -/
theorem started_in_flight (hx : (system p).ReachableUnder FailsAlone x)
    (hs : x.settled = true) : x.StartedInFlight :=
  (failsAlone_invariant.holds hx).startedInFlight hs

/-- A Fill that fails alone leaves nothing behind. -/
theorem started_in_flight_alone : ∃ x : ExecutorState Char, x.startEvent 0 = true ∧
    x.sys.world.mgr.contexts 0 = none ∧ x.StartedInFlight := by
  have hrun : RunsTo Enabled FailsAlone (fun x a => x.apply (letters true) a)
      (fun x : ExecutorState Char => x.settled = true ∧ x.startEvent 0 = true ∧
        x.sys.world.mgr.contexts 0 = none) start
      (firstTask false ++ [.step 0, .fail 0, .freeTaskContexts 0]) := by
    decide +kernel
  obtain ⟨x, hx, hs, hst, hnone⟩ := hrun.reachable _ (.init rfl)
  exact ⟨x, hst, hnone, started_in_flight hx hs⟩

/-- A second task waits for the context whose Fill has failed. -/
theorem failed_fill_waited_for : ¬ ∀ x : ExecutorState Char,
    (system (letters true)).Reachable x → x.settled = true → x.StartedInFlight := by
  intro h
  have hrun : RunsTo Enabled (fun _ _ => True) (fun x a => x.apply (letters true) a)
      (fun x : ExecutorState Char => x.settled = true ∧ x.sys.bound = [1] ∧
        x.phase 1 = .waiting 0 ∧ (x.sys.task 1).contexts[0]? = some 0 ∧
        x.readyEvent 0 = false) start
      (firstTask false ++ [.setTaskContexts 0 (sharedChain false (letter 'y')) false, .step 0,
        .step 1, .fail 0, .freeTaskContexts 0]) := by
    decide +kernel
  obtain ⟨x, hx, hs, hbound, hi, hr, hrd⟩ := hrun.reachable _ (.init rfl)
  obtain ⟨t, ht, i, stage, hsent, -⟩ :=
    (h x hx hs).waiting 1 (hbound ▸ List.mem_singleton_self 1) 0 0 hi hr hrd
  rw [hbound, List.mem_singleton] at ht
  rw [ht, hi] at hsent
  simp at hsent

end ExecutorState
end ParrotServe
