import ParrotServe.Properties.ExecutorPaths

/-!
# What the executors keep

The handshake of `execute` is a protocol over two events: whoever finds a context not started
starts it and is from then on the only task with a primitive for it, and the ready event is set
when that primitive was answered.  `ExecutorInv` says what this is worth.  A context that was not
started has received nothing; a context that is ready holds exactly the contents of its `Segment`;
a primitive that is on its way is the only one for its context, and what its engine has received
for it depends on how far the primitive is.

The conditions under which all this is kept are those of `set_task_contexts` (`BindGuard`), that a
Fill is fused only on an engine with token ids, and that the last Fill of a chain without a Gen
has a context of its own (`KeepsLast`), because its tokens are not added to those of another node.
-/

namespace ParrotServe

open ServeCoreContextManager ContextSystem

variable {α : Type}

/-! ## What a context has received -/

namespace ContextSystem

variable {s s' : ContextSystem α} {r r' : ContextRef}

/-- After a primitive reached its engine the engine knows the context; the others hold what they
held. -/
lemma received_bindJobContext (hok : s.bindJobContext r = .ok s') :
    s'.world.received r = some ((s.world.received r).getD []) ∧
      ∀ r', (s.world.mgr.obj r').contextId ≠ (s.world.mgr.obj r).contextId →
        s'.world.received r' = s.world.received r' := by
  unfold ContextSystem.bindJobContext at hok
  dsimp only at hok
  split at hok
  · simp at hok
  · rename_i b hbind
    obtain rfl := Except.ok.inj hok
    simp only [ContextWorld.received, Function.update_self]
    constructor
    · rcases ContextWorld.bindJobContext_cases hbind with rfl | ⟨hnone, -, hb⟩
      · cases hc : s.world.backend (s.world.mgr.obj r).engine (s.world.mgr.obj r).contextId with
        | none =>
            unfold EngineContexts.bindJobContext at hbind
            rw [hc] at hbind
            dsimp only at hbind
            split at hbind
            · have := congrFun (Except.ok.inj hbind) (s.world.mgr.obj r).contextId
              rw [Function.update_self, hc] at this
              simp at this
            · split at hbind
              · simp at hbind
              · have := congrFun (Except.ok.inj hbind) (s.world.mgr.obj r).contextId
                rw [Function.update_self, hc] at this
                simp at this
        | some c => rfl
      · rw [hb, if_pos rfl, hnone]
        rfl
    · intro r' hne
      rw [Function.update_apply]
      split_ifs with he
      · rcases ContextWorld.bindJobContext_cases hbind with rfl | ⟨-, -, hb⟩
        · rw [he]
        · rw [hb, if_neg hne, he, Option.map_map]
          refine congrFun (congrArg Option.map (funext fun c => ?_)) _
          dsimp only [Function.comp_apply]
          split_ifs <;> rfl
      · rfl

/-- A Fill adds its payload to the context it is for. -/
lemma received_fill {l : List (List α)} (hl : s.world.received r = some l) (payload : List α) :
    (s.fill r payload).world.received r = some (l ++ [payload]) ∧
      ∀ r', (s.world.mgr.obj r').contextId ≠ (s.world.mgr.obj r).contextId →
        (s.fill r payload).world.received r' = s.world.received r' := by
  obtain ⟨c, hc, rfl⟩ := Option.map_eq_some_iff.mp hl
  have hfill : (s.world.backend (s.world.mgr.obj r).engine).fill (s.world.mgr.obj r).contextId
      payload = Function.update (s.world.backend (s.world.mgr.obj r).engine)
        (s.world.mgr.obj r).contextId (some { c with filled := c.filled ++ [payload] }) := by
    rw [EngineContexts.fill, hc]
  unfold ContextSystem.fill ContextWorld.received
  dsimp only
  rw [hfill]
  refine ⟨by simp, fun r' hne => ?_⟩
  rw [Function.update_apply]
  split_ifs with he
  · rw [Function.update_of_ne hne, he]
  · rfl

end ContextSystem

/-! ## The invariant -/

/-- The node a task is at. -/
def Phase.node : Phase → Option ℕ
  | .running i | .waiting i | .sent i _ => some i
  | .ended => none

namespace ExecutorState

/-- What the context of a primitive has received when the primitive is at a stage. -/
def Delivered (p : Payloads α) (x : ExecutorState α) (t : TaskRef) (i : ℕ) (node : ChainNode)
    (r : ContextRef) : Stage → Prop
  | .posted => x.filled r = []
  | .bound => x.sys.world.received r = some []
  | .executed => x.sys.world.received r =
      some (if node.isGen then [] else [fillPayload p x.sys.world.mgr (x.sys.task t) i])

/-- A task in its loop. -/
structure TaskInv (p : Payloads α) (x : ExecutorState α) (t : TaskRef) : Prop where
  shape : ChainShape (x.sys.task t).chain
  last : LastAlone (x.sys.task t).chain (x.sys.task t).contexts
  progress : ∀ i, (x.phase t).node = some i →
    ∀ r ∈ (x.sys.task t).contexts.take i, x.readyEvent r = true
  sent : ∀ i stage, x.phase t = .sent i stage → ∃ node r, x.current t i = some (node, r) ∧
    x.startEvent r = true ∧ x.readyEvent r = false ∧ x.Delivered p t i node r stage

/-- The contexts, the tasks, and that two tasks never have a primitive for one context. -/
structure ExecutorInv (p : Payloads α) (x : ExecutorState α) : Prop where
  sys : SystemInv x.sys
  keyed : ∀ r l, x.sys.world.mgr.Live r → x.sys.world.mgr.Key r l →
    ∀ v ∈ l, x.svReady v = true
  tokenId : ∀ r, x.sys.world.mgr.Live r → x.sys.world.mgr.Fused r →
    p.tokenId (x.sys.world.mgr.obj r).engine = true
  started : ∀ r, x.readyEvent r = true → x.startEvent r = true
  started_lt : ∀ r, x.startEvent r = true → r < x.sys.world.mgr.next
  untouched : ∀ r, x.sys.world.mgr.Live r → x.startEvent r = false → x.filled r = []
  ready : ∀ r seg, x.sys.world.mgr.Live r → x.readyEvent r = true →
    x.sys.world.mgr.Segment r seg →
      x.sys.world.received r = some [contents p (x.sys.world.mgr.obj r).engine seg]
  tasks : ∀ t ∈ x.sys.bound, x.TaskInv p t
  alone : ∀ t ∈ x.sys.bound, ∀ t' ∈ x.sys.bound, ∀ i i' stage stage' r,
    x.phase t = .sent i stage → x.phase t' = .sent i' stage' →
      (x.sys.task t).contexts[i]? = some r → (x.sys.task t').contexts[i']? = some r → t = t'

variable {p : Payloads α} {x x' : ExecutorState α} {t : TaskRef} {i : ℕ}

lemma current_eq_some {node : ChainNode} {r : ContextRef} :
    x.current t i = some (node, r) ↔
      (x.sys.task t).chain[i]? = some node ∧ (x.sys.task t).contexts[i]? = some r := by
  unfold current
  cases (x.sys.task t).chain[i]? <;> cases (x.sys.task t).contexts[i]? <;> simp

lemma phase_of_isSent {stage : Stage} (h : x.isSent t stage = true) :
    ∃ i, x.phase t = .sent i stage := by
  unfold isSent at h
  split at h
  · rename_i i stage' hi
    exact ⟨i, by rw [hi, of_decide_eq_true h]⟩
  · simp at h

lemma step_sys (hok : x.step t i = .ok x') : x'.sys = x.sys := by
  unfold ExecutorState.step at hok
  split at hok
  · exact (Except.ok.inj hok) ▸ rfl
  · split at hok
    · simp at hok
    · split_ifs at hok <;> exact (Except.ok.inj hok) ▸ rfl

lemma mgr_arrive (x : ExecutorState α) (t : TaskRef) (i : ℕ) :
    (x.arrive t i).sys.world.mgr = x.sys.world.mgr := by
  unfold ExecutorState.arrive
  split
  · rfl
  · dsimp only
    split
    · rfl
    · rename_i hok
      exact SystemInv.mgr_bindJobContext hok

lemma mgr_execute (x : ExecutorState α) (p : Payloads α) (t : TaskRef) (i : ℕ) :
    (x.execute p t i).sys.world.mgr = x.sys.world.mgr := by
  unfold ExecutorState.execute
  split
  · rfl
  · split_ifs <;> rfl

lemma sys_answer (x : ExecutorState α) (t : TaskRef) (i : ℕ) :
    (x.answer t i).sys = x.sys := by
  unfold ExecutorState.answer
  split
  · rfl
  · dsimp only
    split_ifs <;> rfl

/-- A payload does not change while the contexts of its task live. -/
lemma fillPayload_keeps {m m' : ServeCoreContextManager} {task : BoundTask} (hk : m.Keeps m')
    (hlt : ∀ r ∈ task.contexts, r < m.next) (i : ℕ) :
    fillPayload p m' task i = fillPayload p m task i := by
  unfold fillPayload
  cases hr : task.contexts[i]? with
  | none => rfl
  | some r =>
      cases task.chain[i]? with
      | none => rfl
      | some node =>
          dsimp only
          rw [hk.obj r (hlt r (List.mem_of_getElem? hr))]
          have hsame : ∀ y ∈ (task.contexts.zip task.chain).dropLast.drop (i + 1),
              (decide ((m'.obj y.1).contextId = (m.obj r).contextId)) =
                decide ((m.obj y.1).contextId = (m.obj r).contextId) := by
            intro y hy
            have hmem := List.mem_of_mem_dropLast (List.mem_of_mem_drop hy)
            rw [hk.obj y.1 (hlt y.1 (List.of_mem_zip hmem).1)]
          rw [takeWhile_congr hsame]

/-- The steps of a task that only touch the context of its node. -/
structure Advances (x x' : ExecutorState α) (t : TaskRef) (r₀ : ContextRef) : Prop where
  mgr : x'.sys.world.mgr = x.sys.world.mgr
  task : x'.sys.task = x.sys.task
  bound : x'.sys.bound = x.sys.bound
  phase : ∀ t', t' ≠ t → x'.phase t' = x.phase t'
  startEvent : ∀ r, r ≠ r₀ → x'.startEvent r = x.startEvent r
  readyEvent : ∀ r, r ≠ r₀ → x'.readyEvent r = x.readyEvent r
  readied : x.readyEvent r₀ = true → x'.readyEvent r₀ = true
  received : ∀ r, x.sys.world.mgr.Live r → r ≠ r₀ →
    x'.sys.world.received r = x.sys.world.received r
  svReady : ∀ v, x.svReady v = true → x'.svReady v = true

namespace ExecutorInv

lemma live_of_mem (h : ExecutorInv p x) (ht : t ∈ x.sys.bound) {r : ContextRef}
    (hr : r ∈ (x.sys.task t).contexts) : x.sys.world.mgr.Live r := h.sys.live_of_mem ht hr

/-! ### The manager -/

/-- The manager changed, and with it tasks came or went. -/
lemma world (h : ExecutorInv p x) (hsys : SystemInv x'.sys)
    (hk : x.sys.world.mgr.Keeps x'.sys.world.mgr) (hstart : x'.startEvent = x.startEvent)
    (hready : x'.readyEvent = x.readyEvent) (hsv : x'.svReady = x.svReady)
    (hreceived : ∀ r, x'.sys.world.mgr.Live r → r < x.sys.world.mgr.next →
      x'.sys.world.received r = x.sys.world.received r)
    (hfresh : ∀ r, x'.sys.world.mgr.Live r → x.sys.world.mgr.next ≤ r →
      x'.sys.world.received r = none ∧
        (∀ l, x'.sys.world.mgr.Key r l → ∀ v ∈ l, x.svReady v = true) ∧
        (x'.sys.world.mgr.Fused r → p.tokenId (x'.sys.world.mgr.obj r).engine = true))
    (htasks : ∀ t ∈ x'.sys.bound,
      (t ∈ x.sys.bound ∧ x'.sys.task t = x.sys.task t ∧ x'.phase t = x.phase t) ∨
      (ChainShape (x'.sys.task t).chain ∧
        LastAlone (x'.sys.task t).chain (x'.sys.task t).contexts ∧ x'.phase t = .running 0)) :
    ExecutorInv p x' := by
  have hold : ∀ r, x'.sys.world.mgr.Live r → r < x.sys.world.mgr.next →
      x.sys.world.mgr.Live r := fun r hr hlt => hk.live r hlt hr
  have hnew : ∀ r, x.sys.world.mgr.next ≤ r → x.startEvent r = false := by
    intro r hr
    by_contra hst
    exact absurd (h.started_lt r (by simpa using hst)) (Nat.not_lt.mpr hr)
  refine ⟨hsys, fun r l hr hl => ?_, fun r hr hf => ?_, ?_, fun r hr => ?_, fun r hr hst => ?_,
    fun r seg hr hrd hseg => ?_, fun t ht => ?_, ?_⟩
  · rw [hsv]
    by_cases hlt : r < x.sys.world.mgr.next
    · exact h.keyed r l (hold r hr hlt) ((hk.key r hlt hr l).mp hl)
    · exact (hfresh r hr (Nat.le_of_not_lt hlt)).2.1 l hl
  · by_cases hlt : r < x.sys.world.mgr.next
    · rw [hk.obj r hlt]
      obtain ⟨hp, l, hlen, hl⟩ := hf
      refine h.tokenId r (hold r hr hlt) ⟨?_, l, hlen, (hk.key r hlt hr l).mp hl⟩
      rwa [hk.obj r hlt] at hp
    · exact (hfresh r hr (Nat.le_of_not_lt hlt)).2.2 hf
  · rw [hstart, hready]
    exact h.started
  · rw [hstart] at hr
    exact Nat.lt_of_lt_of_le (h.started_lt r hr) hk.next_le
  · rw [hstart] at hst
    rw [filled]
    by_cases hlt : r < x.sys.world.mgr.next
    · rw [hreceived r hr hlt]
      exact h.untouched r (hold r hr hlt) hst
    · rw [(hfresh r hr (Nat.le_of_not_lt hlt)).1]
      rfl
  · rw [hready] at hrd
    have hlt := h.started_lt r (h.started r hrd)
    rw [hreceived r hr hlt, hk.obj r hlt]
    exact h.ready r seg (hold r hr hlt) hrd ((hk.segment_iff hlt hr seg).mp hseg)
  · rcases htasks t ht with ⟨hmem, htask, hph⟩ | ⟨hshape, hlast, hph⟩
    · obtain ⟨hshape, hlast, hprog, hsent⟩ := h.tasks t hmem
      refine ⟨htask ▸ hshape, htask ▸ hlast, ?_, fun i stage hi => ?_⟩
      · rw [hph, htask, hready]
        exact hprog
      · rw [hph] at hi
        obtain ⟨node, r, hcur, hst, hrd, hdel⟩ := hsent i stage hi
        have hctx := List.mem_of_getElem? (current_eq_some.mp hcur).2
        have hr' := hsys.live_of_mem ht (htask.symm ▸ hctx)
        have hlt := h.started_lt r hst
        refine ⟨node, r, ?_, hstart ▸ hst, hready ▸ hrd, ?_⟩
        · rw [current_eq_some, htask]
          exact current_eq_some.mp hcur
        · cases stage <;> simp only [Delivered, filled, hreceived r hr' hlt] at hdel ⊢
          · exact hdel
          · exact hdel
          · rw [htask, fillPayload_keeps hk fun y hy => h.sys.world.mgr.live_lt
              (h.live_of_mem hmem hy)]
            exact hdel
    · refine ⟨hshape, hlast, fun i hi => ?_, fun i stage hi => ?_⟩
      · rw [hph, Phase.node, Option.some.injEq] at hi
        rw [← hi]
        simp
      · rw [hph] at hi
        simp at hi
  · intro t ht t' ht' i i' stage stage' r hi hi'
    rcases htasks t ht with ⟨hmem, htask, hph⟩ | ⟨-, -, hph⟩
    · rcases htasks t' ht' with ⟨hmem', htask', hph'⟩ | ⟨-, -, hph'⟩
      · rw [htask, htask']
        exact h.alone t hmem t' hmem' i i' stage stage' r (hph ▸ hi) (hph' ▸ hi')
      · rw [hph'] at hi'
        simp at hi'
    · rw [hph] at hi
      simp at hi

/-- A step of one task, at a context that no other task has a primitive for. -/
lemma advance (h : ExecutorInv p x) {r₀ : ContextRef} (ha : x.Advances x' t r₀)
    (hsys : SystemInv x'.sys)
    (hothers : ∀ t' ∈ x.sys.bound, t' ≠ t → ∀ i stage, x.phase t' = .sent i stage →
      (x.sys.task t').contexts[i]? ≠ some r₀)
    (hstarted : x'.readyEvent r₀ = true → x'.startEvent r₀ = true)
    (hlt : x'.startEvent r₀ = true → r₀ < x.sys.world.mgr.next)
    (huntouched : x.sys.world.mgr.Live r₀ → x'.startEvent r₀ = false → x'.filled r₀ = [])
    (hready : ∀ seg, x.sys.world.mgr.Live r₀ → x'.readyEvent r₀ = true →
      x.sys.world.mgr.Segment r₀ seg →
        x'.sys.world.received r₀ = some [contents p (x.sys.world.mgr.obj r₀).engine seg])
    (htask : t ∈ x.sys.bound → x'.TaskInv p t)
    (hsent : ∀ i stage, x'.phase t = .sent i stage → (x.sys.task t).contexts[i]? = some r₀) :
    ExecutorInv p x' := by
  obtain ⟨hmgr, htsk, hbound, hph, hst, hrd, hrd₀, hrec, hsv⟩ := ha
  have hmono : ∀ r, x.readyEvent r = true → x'.readyEvent r = true := by
    intro r hr
    by_cases he : r = r₀
    · rw [he] at hr ⊢
      exact hrd₀ hr
    · rw [hrd r he]
      exact hr
  refine ⟨hsys, ?_, ?_, fun r hr => ?_, fun r hr => ?_, fun r hr hs => ?_,
    fun r seg hr hs hseg => ?_, fun t' ht' => ?_, fun t₁ ht₁ t₂ ht₂ => ?_⟩
  · rw [hmgr]
    exact fun r l hr hl v hv => hsv v (h.keyed r l hr hl v hv)
  · rw [hmgr]
    exact h.tokenId
  · by_cases he : r = r₀
    · exact he ▸ hstarted (he ▸ hr)
    · rw [hst r he]
      exact h.started r (hrd r he ▸ hr)
  · rw [hmgr]
    by_cases he : r = r₀
    · exact he ▸ hlt (he ▸ hr)
    · exact h.started_lt r (hst r he ▸ hr)
  · rw [hmgr] at hr
    by_cases he : r = r₀
    · rw [he] at hr hs ⊢
      exact huntouched hr hs
    · rw [filled, hrec r hr he]
      exact h.untouched r hr (hst r he ▸ hs)
  · rw [hmgr] at hr hseg ⊢
    by_cases he : r = r₀
    · rw [he] at hr hs hseg ⊢
      exact hready seg hr hs hseg
    · rw [hrec r hr he]
      exact h.ready r seg hr (hrd r he ▸ hs) hseg
  · rw [hbound] at ht'
    by_cases he : t' = t
    · exact he ▸ htask (he ▸ ht')
    · obtain ⟨hshape, hlast, hprog, hsent'⟩ := h.tasks t' ht'
      refine ⟨htsk ▸ hshape, htsk ▸ hlast, ?_, fun i stage hi => ?_⟩
      · rw [hph t' he, htsk]
        exact fun i hi r hr => hmono r (hprog i hi r hr)
      · rw [hph t' he] at hi
        obtain ⟨node, r, hcur, hs, hnr, hdel⟩ := hsent' i stage hi
        have hctx := (current_eq_some.mp hcur).2
        have hne : r ≠ r₀ := by
          rintro rfl
          exact hothers t' ht' he i stage hi hctx
        have hlive := h.live_of_mem ht' (List.mem_of_getElem? hctx)
        refine ⟨node, r, ?_, hst r hne ▸ hs, hrd r hne ▸ hnr, ?_⟩
        · rw [current_eq_some, htsk]
          exact current_eq_some.mp hcur
        · cases stage <;> simp only [Delivered, filled, hrec r hlive hne] at hdel ⊢
          · exact hdel
          · exact hdel
          · rw [htsk, hmgr]
            exact hdel
  · rw [hbound] at ht₁ ht₂
    rw [htsk]
    intro i₁ i₂ stage₁ stage₂ r h₁ h₂ hr₁ hr₂
    by_cases he₁ : t₁ = t
    · by_cases he₂ : t₂ = t
      · rw [he₁, he₂]
      · rw [he₁] at h₁ hr₁
        rw [hsent i₁ stage₁ h₁, Option.some.injEq] at hr₁
        exact absurd (hr₁ ▸ hr₂) (hothers t₂ ht₂ he₂ i₂ stage₂ (hph t₂ he₂ ▸ h₂))
    · rw [hph t₁ he₁] at h₁
      by_cases he₂ : t₂ = t
      · rw [he₂] at h₂ hr₂
        rw [hsent i₂ stage₂ h₂, Option.some.injEq] at hr₂
        exact absurd (hr₂ ▸ hr₁) (hothers t₁ ht₁ he₁ i₁ stage₁ h₁)
      · exact h.alone t₁ ht₁ t₂ ht₂ i₁ i₂ stage₁ stage₂ r h₁ (hph t₂ he₂ ▸ h₂) hr₁ hr₂

/-- A task goes on without touching a context. -/
lemma moved (h : ExecutorInv p x) {phase : Phase} (hno : ∀ i stage, phase ≠ .sent i stage)
    (hprog : ∀ i, phase.node = some i →
      ∀ r ∈ (x.sys.task t).contexts.take i, x.readyEvent r = true)
    (hsys : x'.sys = x.sys) (hstart : x'.startEvent = x.startEvent)
    (hready : x'.readyEvent = x.readyEvent) (hsv : x'.svReady = x.svReady)
    (hph : x'.phase = Function.update x.phase t phase) : ExecutorInv p x' := by
  have hfresh : x.startEvent x.sys.world.mgr.next ≠ true := fun hst =>
    Nat.lt_irrefl _ (h.started_lt _ hst)
  have hphase : x'.phase t = phase := by rw [hph, Function.update_self]
  have hlive : ¬ x.sys.world.mgr.Live x.sys.world.mgr.next := fun hr =>
    Nat.lt_irrefl _ (h.sys.world.mgr.live_lt hr)
  have ha : x.Advances x' t x.sys.world.mgr.next :=
    ⟨by rw [hsys], by rw [hsys], by rw [hsys], fun t' ht' => by rw [hph, Function.update_of_ne ht'],
      fun _ _ => by rw [hstart], fun _ _ => by rw [hready], fun hr => by rw [hready, hr],
      fun _ _ _ => by rw [hsys], fun _ hv => by rw [hsv, hv]⟩
  refine h.advance ha (hsys ▸ h.sys) ?_ ?_ (fun hst => absurd (hstart ▸ hst) hfresh)
    (fun hr => absurd hr hlive) (fun _ hr => absurd hr hlive) (fun ht => ?_)
    fun i stage hi => absurd (hphase ▸ hi) (hno i stage)
  · intro t' ht' _ i stage hi hr
    exact hlive (h.live_of_mem ht' (List.mem_of_getElem? hr))
  · rw [hready, hstart]
    exact h.started _
  · obtain ⟨hshape, hlast, -, -⟩ := h.tasks t ht
    refine ⟨hsys ▸ hshape, hsys ▸ hlast, ?_, fun i stage hi => absurd (hphase ▸ hi) (hno i stage)⟩
    rw [hphase, hsys, hready]
    exact hprog

lemma goto (h : ExecutorInv p x) {phase : Phase} (hno : ∀ i stage, phase ≠ .sent i stage)
    (hprog : ∀ i, phase.node = some i →
      ∀ r ∈ (x.sys.task t).contexts.take i, x.readyEvent r = true) :
    ExecutorInv p (x.goto t phase) := h.moved hno hprog rfl rfl rfl rfl rfl

/-- The error path. -/
lemma interrupt (h : ExecutorInv p x) (t : TaskRef) (r : ContextRef) :
    ExecutorInv p (x.interrupt t r) :=
  h.moved (t := t) (by simp) (by simp [Phase.node]) rfl rfl rfl rfl rfl

/-! ### The steps of a task -/

lemma progress_succ (h : ExecutorInv p x) (ht : t ∈ x.sys.bound)
    (hi : (x.phase t).node = some i) {r : ContextRef} (hr : (x.sys.task t).contexts[i]? = some r)
    {ready : ContextRef → Bool} (hmono : ∀ r, x.readyEvent r = true → ready r = true)
    (hready : ready r = true) :
    ∀ y ∈ (x.sys.task t).contexts.take (i + 1), ready y = true := by
  intro y hy
  rw [List.take_add_one, hr, Option.toList_some, List.mem_append, List.mem_singleton] at hy
  rcases hy with hy | rfl
  · exact hmono y ((h.tasks t ht).progress i hi y hy)
  · exact hready

/-- No other task has a primitive for the context. -/
lemma others (h : ExecutorInv p x) (ht : t ∈ x.sys.bound) {stage : Stage}
    (hi : x.phase t = .sent i stage) {r : ContextRef}
    (hr : (x.sys.task t).contexts[i]? = some r) : ∀ t' ∈ x.sys.bound, t' ≠ t → ∀ i' stage',
      x.phase t' = .sent i' stage' → (x.sys.task t').contexts[i']? ≠ some r :=
  fun t' ht' hne i' stage' hi' hr' => hne (h.alone t' ht' t ht i' i stage' stage r hi' hi hr' hr)

lemma id_ne (h : ExecutorInv p x) {r r' : ContextRef} (hr : x.sys.world.mgr.Live r)
    (hr' : x.sys.world.mgr.Live r') (hne : r' ≠ r) :
    (x.sys.world.mgr.obj r').contextId ≠ (x.sys.world.mgr.obj r).contextId :=
  fun hid => hne (h.sys.world.mgr.eq_of_id hr' hr hid)

/-- The loop body up to the first `await`. -/
lemma step (h : ExecutorInv p x) (ht : t ∈ x.sys.bound) (hi : x.phase t = .running i)
    (hok : x.step t i = .ok x') : ExecutorInv p x' := by
  unfold ExecutorState.step at hok
  have hnode : (x.phase t).node = some i := by rw [hi, Phase.node]
  cases hchain : (x.sys.task t).chain[i]? with
  | none =>
      rw [hchain] at hok
      obtain rfl := Except.ok.inj hok
      exact h.goto (by simp) (by simp [Phase.node])
  | some node =>
      cases hctx : (x.sys.task t).contexts[i]? with
      | none => simp [hchain, hctx] at hok
      | some r =>
          rw [hchain, hctx] at hok
          dsimp only at hok
          split_ifs at hok with hrd hst
          · obtain rfl := Except.ok.inj hok
            refine h.goto (by simp) fun j hj => ?_
            rw [Phase.node, Option.some.injEq] at hj
            exact hj ▸ h.progress_succ ht hnode hctx (fun _ => id) hrd
          · obtain rfl := Except.ok.inj hok
            refine h.goto (by simp) fun j hj => ?_
            rw [Phase.node, Option.some.injEq] at hj
            exact hj ▸ (h.tasks t ht).progress i hnode
          · obtain rfl := Except.ok.inj hok
            have hlive := h.live_of_mem ht (List.mem_of_getElem? hctx)
            have hst' : x.startEvent r = false := by simpa using hst
            have hrd' : x.readyEvent r = false := by simpa using hrd
            have ha : x.Advances { x.goto t (.sent i .posted) with
                startEvent := Function.update x.startEvent r true } t r :=
              ⟨rfl, rfl, rfl, fun t' ht' => Function.update_of_ne ht' _ _,
                fun r' hr' => Function.update_of_ne hr' _ _, fun _ _ => rfl, id,
                fun _ _ _ => rfl, fun _ => id⟩
            refine h.advance ha h.sys ?_
              (fun hr => absurd hr (by simp [ExecutorState.goto, hrd']))
              (fun _ => h.sys.world.mgr.live_lt hlive)
              (fun _ hr => absurd hr (by simp)) (fun _ _ hr => absurd hr (by
                simp [ExecutorState.goto, hrd'])) (fun _ => ?_) ?_
            · intro t' ht' _ i' stage hi' hr'
              obtain ⟨node', r', hcur, hst'', -⟩ := (h.tasks t' ht').sent i' stage hi'
              rw [(current_eq_some.mp hcur).2, Option.some.injEq] at hr'
              rw [hr', hst'] at hst''
              exact Bool.false_ne_true hst''
            · obtain ⟨hshape, hlast, hprog, -⟩ := h.tasks t ht
              refine ⟨hshape, hlast, fun j hj => ?_, fun j stage hj => ?_⟩
              · change (Function.update x.phase t _ t).node = _ at hj
                rw [Function.update_self, Phase.node, Option.some.injEq] at hj
                exact hj ▸ hprog i hnode
              · change Function.update x.phase t _ t = _ at hj
                rw [Function.update_self, Phase.sent.injEq] at hj
                obtain ⟨rfl, rfl⟩ := hj
                exact ⟨node, r, current_eq_some.mpr ⟨hchain, hctx⟩, Function.update_self _ _ _,
                  hrd', h.untouched r hlive hst'⟩
            · intro j stage hj
              change Function.update x.phase t _ t = _ at hj
              rw [Function.update_self, Phase.sent.injEq] at hj
              exact hj.1 ▸ hctx

/-- The context a task waited for is ready. -/
lemma resume (h : ExecutorInv p x) (ht : t ∈ x.sys.bound) (hi : x.phase t = .waiting i)
    (hcan : x.canResume t = true) : ExecutorInv p (x.goto t (.running (i + 1))) := by
  have hnode : (x.phase t).node = some i := by rw [hi, Phase.node]
  rw [canResume, hi, Option.any_eq_true] at hcan
  obtain ⟨r, hr, hrd⟩ := hcan
  refine h.goto (by simp) fun j hj => ?_
  rw [Phase.node, Option.some.injEq] at hj
  exact hj ▸ h.progress_succ ht hnode hr (fun _ => id) hrd

/-- A primitive gets further. -/
lemma sent (h : ExecutorInv p x) (ht : t ∈ x.sys.bound) {stage stage' : Stage}
    (hi : x.phase t = .sent i stage) {node : ChainNode} {r : ContextRef}
    (hcur : x.current t i = some (node, r)) (hsys : SystemInv x'.sys) (ha : x.Advances x' t r)
    (hstart : x'.startEvent = x.startEvent) (hready : x'.readyEvent = x.readyEvent)
    (hphase : x'.phase t = .sent i stage') (hdel : x'.Delivered p t i node r stage') :
    ExecutorInv p x' := by
  obtain ⟨hchain, hctx⟩ := current_eq_some.mp hcur
  obtain ⟨hshape, hlast, hprog, hsent⟩ := h.tasks t ht
  obtain ⟨node', r', hcur', hst, hrd, -⟩ := hsent i stage hi
  rw [hcur, Option.some.injEq, Prod.mk.injEq] at hcur'
  obtain ⟨rfl, rfl⟩ := hcur'
  refine h.advance ha hsys (h.others ht hi hctx) ?_ ?_ (fun _ hs => ?_) (fun _ _ hs => ?_)
    (fun _ => ⟨ha.task ▸ hshape, ha.task ▸ hlast, fun j hj => ?_, fun j stage'' hj => ?_⟩)
    fun j stage'' hj => ?_
  · rw [hstart, hready]
    exact h.started r
  · rw [hstart]
    exact h.started_lt r
  · rw [hstart, hst] at hs
    simp at hs
  · rw [hready, hrd] at hs
    simp at hs
  · rw [hphase, Phase.node, Option.some.injEq] at hj
    rw [ha.task, hready, ← hj]
    exact hprog i (by rw [hi, Phase.node])
  · rw [hphase, Phase.sent.injEq] at hj
    obtain ⟨rfl, rfl⟩ := hj
    refine ⟨node, r, ?_, hstart ▸ hst, hready ▸ hrd, hdel⟩
    rw [current_eq_some, ha.task]
    exact ⟨hchain, hctx⟩
  · rw [hphase, Phase.sent.injEq] at hj
    exact hj.1 ▸ hctx

/-- The engine gets a primitive. -/
lemma arrive (h : ExecutorInv p x) (ht : t ∈ x.sys.bound) (hi : x.phase t = .sent i .posted) :
    ExecutorInv p (x.arrive t i) := by
  obtain ⟨node, r, hcur, -, -, hdel⟩ := (h.tasks t ht).sent i _ hi
  have hlive := h.live_of_mem ht (List.mem_of_getElem? (current_eq_some.mp hcur).2)
  unfold ExecutorState.arrive
  rw [hcur]
  dsimp only
  split
  · exact h.interrupt t r
  · rename_i sys hok
    obtain ⟨hmgr, htask, hbound, -⟩ := SystemInv.bindJobContext_frame hok
    obtain ⟨hrec, hrest⟩ := received_bindJobContext hok
    refine h.sent ht hi hcur (h.sys.bindJobContext hlive hok) ⟨hmgr, htask, hbound,
      fun t' ht' => Function.update_of_ne ht' _ _, fun _ _ => rfl, fun _ _ => rfl, id,
      fun r' hr' hne => hrest r' (h.id_ne hlive hr' hne), fun _ => id⟩ rfl rfl
      (Function.update_self _ _ _) ?_
    change sys.world.received r = some []
    rw [Delivered, filled] at hdel
    rw [hrec, hdel]

/-- The engine executes a primitive. -/
lemma execute (h : ExecutorInv p x) (ht : t ∈ x.sys.bound) (hi : x.phase t = .sent i .bound) :
    ExecutorInv p (x.execute p t i) := by
  obtain ⟨node, r, hcur, -, -, hdel⟩ := (h.tasks t ht).sent i _ hi
  have hlive := h.live_of_mem ht (List.mem_of_getElem? (current_eq_some.mp hcur).2)
  rw [Delivered] at hdel
  unfold ExecutorState.execute
  rw [hcur]
  dsimp only
  split_ifs with hgen
  · refine h.sent ht hi hcur h.sys ⟨rfl, rfl, rfl, fun t' ht' => Function.update_of_ne ht' _ _,
      fun _ _ => rfl, fun _ _ => rfl, id, fun _ _ _ => rfl, fun _ => id⟩ rfl rfl
      (Function.update_self _ _ _) ?_
    rw [Delivered, if_pos hgen]
    exact hdel
  · obtain ⟨hrec, hrest⟩ := received_fill hdel
      (fillPayload p x.sys.world.mgr (x.sys.task t) i)
    refine h.sent ht hi hcur (h.sys.fill _ _) ⟨rfl, rfl, rfl,
      fun t' ht' => Function.update_of_ne ht' _ _, fun _ _ => rfl, fun _ _ => rfl, id,
      fun r' hr' hne => hrest r' (h.id_ne hlive hr' hne), fun _ => id⟩ rfl rfl
      (Function.update_self _ _ _) ?_
    rw [Delivered, if_neg hgen]
    exact hrec

/-- What an executed Fill has left in its context. -/
lemma segment_of_executed (h : ExecutorInv p x) (ht : t ∈ x.sys.bound)
    (hi : x.phase t = .sent i .executed) {node : ChainNode} {r : ContextRef}
    (hcur : x.current t i = some (node, r)) (hfill : node.isGen = false) {seg : List VarId}
    (hseg : x.sys.world.mgr.Segment r seg) :
    x.sys.world.received r = some [contents p (x.sys.world.mgr.obj r).engine seg] := by
  obtain ⟨hshape, hlast, hprog, hsent⟩ := h.tasks t ht
  obtain ⟨node', r', hcur', -, hrd, hdel⟩ := hsent i _ hi
  rw [hcur, Option.some.injEq, Prod.mk.injEq] at hcur'
  obtain ⟨rfl, rfl⟩ := hcur'
  obtain ⟨hchain, hctx⟩ := current_eq_some.mp hcur
  obtain ⟨fs, gs, hcs, hpath, hgs, hr⟩ := (h.sys.tasks t ht).fill_node hshape hchain hctx hfill
  have hmem := List.mem_of_getElem? hr
  obtain ⟨hlive, he⟩ := hpath.live r hmem
  have hnew : r ∉ fs.take i := by
    intro hin
    have hlt : i ≤ fs.length := Nat.le_of_lt (List.getElem?_eq_some_iff.mp hr).1
    have := hprog i (by rw [hi, Phase.node]) r
      (by rw [hcs, List.take_append_of_le_length hlt]; exact hin)
    rw [hrd] at this
    exact Bool.false_ne_true this
  obtain ⟨seg', hseg', hpay⟩ := hpath.fillPayload_eq h.sys.world.mgr rfl hshape hcs hgs hlast hr
    hnew fun hf => he ▸ h.tokenId r hlive hf
  obtain rfl := hseg.unique hseg'
  rw [Delivered, hfill, if_neg Bool.false_ne_true, hpay] at hdel
  rw [hdel, he]

/-- A primitive is answered. -/
lemma answer (h : ExecutorInv p x) (ht : t ∈ x.sys.bound) (hi : x.phase t = .sent i .executed) :
    ExecutorInv p (x.answer t i) := by
  obtain ⟨hshape, hlast, hprog, hsent⟩ := h.tasks t ht
  obtain ⟨node, r, hcur, hst, hrd, hdel⟩ := hsent i _ hi
  obtain ⟨hchain, hctx⟩ := current_eq_some.mp hcur
  have hlive := h.live_of_mem ht (List.mem_of_getElem? hctx)
  -- the ready event, with the variable or without it
  have hdone : ∀ x' : ExecutorState α, x'.sys = x.sys →
      x'.phase = Function.update x.phase t (.running (i + 1)) → x'.startEvent = x.startEvent →
      x'.readyEvent = Function.update x.readyEvent r true →
      (∀ v, x.svReady v = true → x'.svReady v = true) →
      (∀ seg, x.sys.world.mgr.Segment r seg →
        x.sys.world.received r = some [contents p (x.sys.world.mgr.obj r).engine seg]) →
      ExecutorInv p x' := by
    intro x' hsys hph hstart hready hsv hseg
    have hphase : x'.phase t = .running (i + 1) := by rw [hph, Function.update_self]
    have ha : x.Advances x' t r := by
      refine ⟨by rw [hsys], by rw [hsys], by rw [hsys], fun t' ht' => ?_,
        fun _ _ => by rw [hstart], fun r' hr' => ?_, fun _ => ?_, fun _ _ _ => by rw [hsys], hsv⟩
      · rw [hph, Function.update_of_ne ht']
      · rw [hready, Function.update_of_ne hr']
      · rw [hready, Function.update_self]
    refine h.advance ha (hsys ▸ h.sys) (h.others ht hi hctx) (fun _ => hstart ▸ hst)
      (fun _ => h.sys.world.mgr.live_lt hlive) (fun _ hs => ?_) (fun seg _ _ hs => ?_) (fun _ => ?_)
      fun j stage hj => ?_
    · rw [hstart, hst] at hs
      simp at hs
    · rw [hsys]
      exact hseg seg hs
    · refine ⟨hsys ▸ hshape, hsys ▸ hlast, fun j hj => ?_, fun j stage hj => ?_⟩
      · rw [hphase, Phase.node, Option.some.injEq] at hj
        rw [hsys, ← hj]
        refine h.progress_succ ht (by rw [hi, Phase.node]) hctx (fun r' hr' => ?_) ?_
        · rw [hready, Function.update_apply, hr', ite_self]
        · rw [hready, Function.update_self]
      · rw [hphase] at hj
        simp at hj
    · rw [hphase] at hj
      simp at hj
  unfold ExecutorState.answer
  rw [hcur]
  dsimp only
  split_ifs with hgen hsv
  · exact h.interrupt t r
  · refine hdone _ rfl rfl rfl rfl (fun v hv => ?_) fun seg hseg => ?_
    · dsimp only
      rw [Function.update_apply, hv, ite_self]
    · -- the variable of a cached prefix was set before
      obtain ⟨fs, -, -, -, -, -, -, hkey⟩ := (h.sys.tasks t ht).gen_node hshape hchain hctx hgen
      obtain ⟨l, hl⟩ := hseg.exists_key
      refine absurd (h.keyed r l hlive hl node.varId ?_) hsv
      rw [hkey l hl]
      exact List.mem_map_of_mem (List.mem_of_getElem? hchain)
  · refine hdone _ rfl rfl rfl rfl (fun v hv => hv) fun seg hseg => ?_
    exact h.segment_of_executed ht hi hcur (by simpa using hgen) hseg

end ExecutorInv

/-! ## Steps -/

/-- The last Fill of a chain without a Gen node gets a context of its own. -/
def KeepsLast (m : ServeCoreContextManager) (e : ℕ) (chain : List ChainNode) (fuseFill : Bool) :
    Prop :=
  chain.any ChainNode.isGen = true ∨ ¬ m.FusesFill e chain fuseFill ∧
    ∀ id, m.cached e (fillVars chain) = some id → m.cached e (fillVars chain).dropLast ≠ some id

/-- The condition on the calls of `set_task_contexts`. -/
def SafeBinding (p : Payloads α) (x : ExecutorState α) : ExecutorAction → Prop
  | .setTaskContexts e chain fuseFill =>
      x.sys.world.mgr.BindGuard e chain fuseFill ∧
        (x.sys.world.mgr.FusesFill e chain fuseFill → p.tokenId e = true) ∧
        KeepsLast x.sys.world.mgr e chain fuseFill
  | _ => True

instance (m : ServeCoreContextManager) (e : ℕ) (chain : List ChainNode) (fuseFill : Bool) :
    Decidable (KeepsLast m e chain fuseFill) :=
  decidable_of_iff (chain.any ChainNode.isGen = true ∨ ¬ m.FusesFill e chain fuseFill ∧
      (m.cached e (fillVars chain) = none ∨
        m.cached e (fillVars chain).dropLast ≠ m.cached e (fillVars chain))) <| by
    rw [KeepsLast]
    cases m.cached e (fillVars chain) <;> simp

instance (p : Payloads α) (x : ExecutorState α) : ∀ a, Decidable (x.SafeBinding p a)
  | .setTaskContexts e chain fuseFill =>
      inferInstanceAs (Decidable (x.sys.world.mgr.BindGuard e chain fuseFill ∧
        (x.sys.world.mgr.FusesFill e chain fuseFill → p.tokenId e = true) ∧
        KeepsLast x.sys.world.mgr e chain fuseFill))
  | .registerEngine _ | .setSv _ | .step _ | .resume _ | .arrive _ | .execute _ | .answer _
  | .fail _ | .freeTaskContexts _ | .freeConstantPrefixContexts _ =>
      inferInstanceAs (Decidable True)

/-- No call fuses a Fill into the context of another node. -/
def Unfused (x : ExecutorState α) : ExecutorAction → Prop
  | .setTaskContexts e chain fuseFill => ¬ x.sys.world.mgr.FusesFill e chain fuseFill
  | _ => True

namespace ExecutorInv

/-- The last node of a new task has a context of its own. -/
lemma lastAlone (h : ExecutorInv p x) {e : ℕ} {chain : List ChainNode}
    {fuseFill : Bool} {cs : List ContextRef} {m' : ServeCoreContextManager}
    (hb : x.sys.world.mgr.Bound x.sys.held e chain fuseFill cs m')
    (hk : KeepsLast x.sys.world.mgr e chain fuseFill) : LastAlone chain cs := by
  rw [LastAlone, or_iff_not_imp_left]
  intro hgen r hr hin
  obtain ⟨hno, hcached⟩ := hk.resolve_left hgen
  obtain ⟨fs, gs, rfl, hpath, hgs, -⟩ := hb.task
  have hnil : chain.filter ChainNode.isGen = [] := by
    rw [List.any_eq_true, not_exists] at hgen
    exact List.filter_eq_nil_iff.mpr fun node hmem hnode => hgen node ⟨hmem, hnode⟩
  rw [hnil, List.length_nil, List.length_eq_zero_iff] at hgs
  rw [hgs, List.append_nil] at hr hin
  have hcs : fs = fs.dropLast ++ r :: [] := (List.dropLast_append_getLast? r hr).symm
  have hfused := hpath.fused_of_mem hb.sound hcs hin
  obtain ⟨hlive, he⟩ := hpath.live r (List.mem_of_getLast? hr)
  have hkey := hpath.last_key hr
  by_cases hlt : r < x.sys.world.mgr.next
  · -- the whole chain was a hit on a fused root
    obtain ⟨hp, l, hlen, hl⟩ := hfused
    obtain rfl := hl.unique hkey
    have hold := hb.keeps.live r hlt hlive
    rw [hb.keeps.obj r hlt] at hp he
    obtain ⟨-, -, hplaced⟩ := h.sys.world.mgr.key_spec hold ((hb.keeps.key r hlt hlive _).mp hl)
    rw [Placed, hp, he] at hplaced
    have hne : ∀ {l : List VarId}, 1 ≤ l.length → l ≠ [] := fun h => List.ne_nil_of_length_pos h
    refine hcached _ (hplaced _ (hne (by omega)) (List.prefix_refl _))
      (hplaced _ (hne ?_) (List.dropLast_prefix _))
    rw [List.length_dropLast]
    omega
  · exact (hb.own hno).2 r hlive (Nat.le_of_not_lt hlt) hfused

/-- `set_task_contexts`: new contexts have received nothing. -/
lemma setTaskContexts (h : ExecutorInv p x) {e : ℕ} {chain : List ChainNode} {fuseFill : Bool}
    (hen : x.Enabled (.setTaskContexts e chain fuseFill))
    (hg : x.SafeBinding p (.setTaskContexts e chain fuseFill))
    (hok : x.apply p (.setTaskContexts e chain fuseFill) = .ok x') :
    ExecutorInv p x' ∧
      (x.Unfused (.setTaskContexts e chain fuseFill) → x.sys.world.mgr.AllOwn →
        x'.sys.world.mgr.AllOwn) := by
  obtain ⟨-, hreg, hshape, hin⟩ := hen
  obtain ⟨hguard, htok, hkeepsLast⟩ := hg
  obtain ⟨cs, m', hset, hb, hinv⟩ := h.sys.setTaskContexts hreg hshape hguard
  rw [ExecutorState.apply, hset] at hok
  obtain rfl := Except.ok.inj hok
  refine ⟨h.world hinv hb.keeps rfl rfl rfl (fun r hr hlt => ?_) (fun r hr hge => ⟨?_, ?_, ?_⟩)
    fun t ht => ?_, fun hno hown => (hb.own hno).1 hown⟩
  · change (x.sys.world.backend (m'.obj r).engine (m'.obj r).contextId).map _ = _
    rw [hb.keeps.obj r hlt]
    rfl
  · -- an engine only knows ids of contexts that were there before
    change (x.sys.world.backend (m'.obj r).engine (m'.obj r).contextId).map _ = _
    rw [Option.map_eq_none_iff, Option.eq_none_iff_forall_ne_some]
    intro c hc
    obtain ⟨r', hr', -, -⟩ := h.sys.world.engines.known _ _ c hc
    have hlive := h.sys.world.mgr.live_of_contexts hr'
    have hlt := h.sys.world.mgr.live_lt hlive
    have hid := h.sys.world.mgr.id_eq _ _ hr'
    have hlive' := hb.older r' hlive
    have hsame : r' = r := hb.sound.eq_of_id hlive' hr (by rw [hb.keeps.obj r' hlt, hid])
    exact absurd (hsame ▸ hlt) (Nat.not_lt.mpr hge)
  · exact fun l hl v hv => hin v ((hb.keyed r l hr hge hl).subset hv)
  · intro hf
    have hfuses : x.sys.world.mgr.FusesFill e chain fuseFill := by
      by_contra hno
      exact (hb.own hno).2 r hr hge hf
    obtain ⟨fs, gs, rfl, hpath, -, hall⟩ := hb.task
    have he : (m'.obj r).engine = e := by
      rcases List.mem_append.mp (hb.news r hr hge) with hmem | hmem
      · exact (hpath.live r hmem).2
      · exact (hall r hmem).2.1
    change p.tokenId (m'.obj r).engine = true
    rw [he]
    exact htok hfuses
  · rcases List.mem_cons.mp ht with rfl | ht
    · refine .inr ⟨?_, ?_, Function.update_self _ _ _⟩
      · change ChainShape (Function.update x.sys.task x.sys.nextTask _ x.sys.nextTask).chain
        rw [Function.update_self]
        exact hshape
      · change LastAlone (Function.update x.sys.task x.sys.nextTask _ x.sys.nextTask).chain
          (Function.update x.sys.task x.sys.nextTask _ x.sys.nextTask).contexts
        rw [Function.update_self]
        exact h.lastAlone hb hkeepsLast
    · have hne := Nat.ne_of_lt (h.sys.bound_lt t ht)
      exact .inl ⟨ht, Function.update_of_ne hne _ _, Function.update_of_ne hne _ _⟩

/-- **Every action whose `set_task_contexts` is safe keeps the invariant**; and no entry gets stale
when nothing is fused. -/
theorem apply (h : ExecutorInv p x) {a : ExecutorAction} (hen : x.Enabled a)
    (hg : x.SafeBinding p a) (hok : x.apply p a = .ok x') :
    ExecutorInv p x' ∧ (x.Unfused a → x.sys.world.mgr.AllOwn → x'.sys.world.mgr.AllOwn) := by
  cases a with
  | registerEngine e =>
      obtain rfl := Except.ok.inj hok
      have hk := keeps_registerEngine hen.2
      refine ⟨h.world (h.sys.registerEngine hen.2) hk rfl rfl rfl (fun _ _ _ => rfl)
        (fun r hr hge => ?_) fun t ht => .inl ⟨ht, rfl, rfl⟩, fun _ ho => ho.registerEngine hen.2⟩
      exact absurd (h.sys.world.mgr.live_lt hr) (Nat.not_lt.mpr hge)
  | setSv v =>
      obtain rfl := Except.ok.inj hok
      refine ⟨⟨h.sys, fun r l hr hl w hw => ?_, h.tokenId, h.started, h.started_lt, h.untouched,
        h.ready, fun t ht => ?_, h.alone⟩, fun _ => id⟩
      · dsimp only
        rw [Function.update_apply, h.keyed r l hr hl w hw, ite_self]
      · obtain ⟨hshape, hlast, hprog, hsent⟩ := h.tasks t ht
        refine ⟨hshape, hlast, hprog, fun i stage hi => ?_⟩
        obtain ⟨node, r, hcur, hst, hrd, hdel⟩ := hsent i stage hi
        exact ⟨node, r, hcur, hst, hrd, by cases stage <;> exact hdel⟩
  | setTaskContexts e chain fuseFill => exact h.setTaskContexts hen hg hok
  | step t =>
      obtain ⟨-, ht, hrun⟩ := hen
      cases hi : x.phase t with
      | running i =>
          rw [ExecutorState.apply, hi] at hok
          exact ⟨h.step ht hi hok, fun _ ho => (step_sys hok) ▸ ho⟩
      | _ => simp [isRunning, hi] at hrun
  | resume t =>
      obtain ⟨-, ht, hcan⟩ := hen
      cases hi : x.phase t with
      | waiting i =>
          rw [ExecutorState.apply, hi] at hok
          obtain rfl := Except.ok.inj hok
          exact ⟨h.resume ht hi hcan, fun _ => id⟩
      | _ => simp [canResume, hi] at hcan
  | arrive t =>
      obtain ⟨ht, hsent⟩ := hen
      obtain ⟨i, hi⟩ := phase_of_isSent hsent
      rw [ExecutorState.apply, hi] at hok
      obtain rfl := Except.ok.inj hok
      exact ⟨h.arrive ht hi, fun _ ho => (mgr_arrive x t i).symm ▸ ho⟩
  | execute t =>
      obtain ⟨ht, hsent⟩ := hen
      obtain ⟨i, hi⟩ := phase_of_isSent hsent
      rw [ExecutorState.apply, hi] at hok
      obtain rfl := Except.ok.inj hok
      exact ⟨h.execute ht hi, fun _ ho => (mgr_execute x p t i).symm ▸ ho⟩
  | answer t =>
      obtain ⟨-, ht, hsent⟩ := hen
      obtain ⟨i, hi⟩ := phase_of_isSent hsent
      rw [ExecutorState.apply, hi] at hok
      obtain rfl := Except.ok.inj hok
      exact ⟨h.answer ht hi, fun _ ho => (sys_answer x t i).symm ▸ ho⟩
  | fail t =>
      rw [ExecutorState.apply] at hok
      split at hok
      · obtain rfl := Except.ok.inj hok
        unfold ExecutorState.fail
        split
        · exact ⟨h, fun _ => id⟩
        · exact ⟨h.interrupt _ _, fun _ => id⟩
      · obtain rfl := Except.ok.inj hok
        exact ⟨h, fun _ => id⟩
  | freeTaskContexts t =>
      obtain ⟨ht, -⟩ := hen
      obtain ⟨w, hfree, hfrees, hinv⟩ := h.sys.freeTaskContexts ht
      rw [ExecutorState.apply, hfree] at hok
      obtain rfl := Except.ok.inj hok
      refine ⟨h.world hinv hfrees.keeps rfl rfl rfl (fun r hr _ => hfrees.received r hr)
        (fun r hr hge => ?_) fun t' ht' => .inl ⟨List.mem_of_mem_erase ht', rfl, rfl⟩,
        fun _ ho => hfrees.allOwn ho⟩
      have hlt := hinv.world.mgr.live_lt hr
      change r < w.mgr.next at hlt
      rw [hfrees.next] at hlt
      exact absurd hlt (Nat.not_lt.mpr hge)
  | freeConstantPrefixContexts v =>
      cases hv : x.sys.world.mgr.constantPrefixContexts.lookup v with
      | none =>
          rw [ExecutorState.apply, ContextWorld.freeConstantPrefixContexts, hv] at hok
          simp at hok
      | some rs =>
          obtain ⟨w, hfree, hkeeps, hnext, hrec, hown, hinv⟩ := h.sys.freeConstantPrefixContexts hv
          rw [ExecutorState.apply, hfree] at hok
          obtain rfl := Except.ok.inj hok
          refine ⟨h.world hinv hkeeps rfl rfl rfl (fun r hr _ => hrec r hr)
            (fun r hr hge => ?_) fun t ht => .inl ⟨ht, rfl, rfl⟩, fun _ => hown⟩
          have hlt := hinv.world.mgr.live_lt hr
          change r < w.mgr.next at hlt
          rw [hnext] at hlt
          exact absurd hlt (Nat.not_lt.mpr hge)

end ExecutorInv
end ExecutorState
end ParrotServe
