import ParrotServe.Properties.ContextFreeing
import ParrotServe.Properties.ContextBinding

/-!
# Runs of the context manager

Tasks are bound and freed and constant prefixes expire in any order, while primitives reach the
engines.  `SystemInv` ties the pieces together: the references are the contexts of the bound tasks
and the entries of the constant prefixes, the engines follow the manager, and every bound task
still has the contexts of its own variables.

The step lemma `SystemInv.apply` says that every action whose `set_task_contexts` meets
`BindGuard` succeeds and keeps the invariant; the only operation that can raise is
`free_constant_prefix_contexts` for a variable without contexts.  `unfusedInv` adds that no entry
of the caches is stale, which makes `BindGuard` free for calls that fuse nothing.
-/

namespace ParrotServe

open ServeCoreContextManager

variable {α : Type}

/-! ## The engines -/

namespace ContextWorld

variable {w w' : ContextWorld α} {m m' : ServeCoreContextManager} {held : List (List ContextRef)}
  {entries : List ContextRef}

open ContextSystem

lemma parentContextId_keeps (hs : m.Sound held entries) (hk : m.Keeps m') {r : ContextRef}
    (hr : m.Live r) : parentContextId m' r = parentContextId m r := by
  rw [parentContextId, parentContextId, hk.obj r (hs.live_lt hr)]
  cases hp : (m.obj r).parentContext with
  | none => rfl
  | some p =>
      have hlt := Nat.lt_trans (hs.parent_lt r p hr hp) (hs.live_lt hr)
      rw [Option.map_some, Option.map_some, hk.obj p hlt]

/-- The engines do not notice new contexts. -/
lemma EnginesSound.keeps (h : w.EnginesSound) (hs : w.mgr.Sound held entries)
    (hk : w.mgr.Keeps m') (hold : ∀ r, w.mgr.Live r → m'.Live r) :
    EnginesSound { w with mgr := m' } where
  known e id c hc := by
    obtain ⟨r, hr, he, hp⟩ := h.known e id c hc
    have hlive := hs.live_of_contexts hr
    have hobj := hk.obj r (hs.live_lt hlive)
    have hid := hs.id_eq id r hr
    refine ⟨r, ?_, by rw [hobj, he], by rw [hp, parentContextId_keeps hs hk hlive]⟩
    have := hold r hlive
    rwa [Live, hobj, hid] at this
  parent := h.parent
  sub := h.sub

/-- What `bind_job_context` does to the contexts of an engine. -/
lemma bindJobContext_cases {b b' : EngineContexts α} {id : ℕ} {parent : Option ℕ}
    (hok : b.bindJobContext id parent = .ok b') :
    b' = b ∨ b id = none ∧ (∀ p, parent = some p → (b p).isSome = true) ∧
      ∀ x, b' x = if x = id then some { parentContextId := parent }
        else (b x).map fun c =>
          if parent = some x then { c with subContextIds := c.subContextIds ++ [id] } else c := by
  unfold EngineContexts.bindJobContext at hok
  cases hc : b id with
  | some c =>
      rw [hc] at hok
      exact .inl (Except.ok.inj hok).symm
  | none =>
      rw [hc] at hok
      refine .inr ⟨rfl, ?_⟩
      cases parent with
      | none =>
          obtain rfl := Except.ok.inj hok
          refine ⟨by simp, fun x => ?_⟩
          rw [Function.update_apply]
          by_cases hx : x = id
          · rw [if_pos hx, if_pos hx]
          · rw [if_neg hx, if_neg hx]
            simp
      | some p =>
          dsimp only at hok
          cases hp : b p with
          | none => simp [hp] at hok
          | some pc =>
              rw [hp] at hok
              obtain rfl := Except.ok.inj hok
              refine ⟨fun q hq => by rw [← Option.some.inj hq, hp]; rfl, fun x => ?_⟩
              rw [Function.update_apply, Function.update_apply]
              by_cases hx : x = p
              · simp [hx, hp]
              · have hne : some p ≠ some x := fun h => hx (Option.some.inj h).symm
                simp [hx, Ne.symm hx]

/-- A new context of an engine, below its parent. -/
lemma EnginesSound.attach (h : w.EnginesSound) {r : ContextRef} (hr : w.mgr.Live r)
    (hmgr : w'.mgr = w.mgr)
    (hnone : w.backend (w.mgr.obj r).engine (w.mgr.obj r).contextId = none)
    (hparent : ∀ p, parentContextId w.mgr r = some p →
      (w.backend (w.mgr.obj r).engine p).isSome = true)
    (hb : ∀ e x, w'.backend e x =
      if e = (w.mgr.obj r).engine ∧ x = (w.mgr.obj r).contextId then
        some { parentContextId := parentContextId w.mgr r }
      else (w.backend e x).map fun c =>
        if e = (w.mgr.obj r).engine ∧ parentContextId w.mgr r = some x then
          { c with subContextIds := c.subContextIds ++ [(w.mgr.obj r).contextId] } else c) :
    w'.EnginesSound := by
  set e := (w.mgr.obj r).engine with he
  set id := (w.mgr.obj r).contextId with hid
  have hnew : ∀ e' x c, w.backend e' x = some c → ¬ (e' = e ∧ x = id) := by
    rintro _ _ c hc ⟨rfl, rfl⟩
    rw [hnone] at hc
    simp at hc
  -- a context that was there keeps its parent and its children
  have hforth : ∀ e' x c, w.backend e' x = some c → ∃ c', w'.backend e' x = some c' ∧
      c'.parentContextId = c.parentContextId ∧ c.subContextIds ⊆ c'.subContextIds := by
    intro e' x c hc
    rw [hb, if_neg (hnew _ _ _ hc), hc, Option.map_some]
    split_ifs
    · exact ⟨_, rfl, rfl, List.subset_append_left _ _⟩
    · exact ⟨c, rfl, rfl, List.Subset.refl _⟩
  have hback : ∀ e' x c, w'.backend e' x = some c →
      (e' = e ∧ x = id ∧ c = { parentContextId := parentContextId w.mgr r }) ∨
      ∃ c₀, w.backend e' x = some c₀ ∧ c.parentContextId = c₀.parentContextId ∧
        (c.subContextIds = c₀.subContextIds ∨ e' = e ∧ parentContextId w.mgr r = some x ∧
          c.subContextIds = c₀.subContextIds ++ [id]) := by
    intro e' x c hc
    rw [hb] at hc
    by_cases hcase : e' = e ∧ x = id
    · rw [if_pos hcase] at hc
      exact .inl ⟨hcase.1, hcase.2, (Option.some.inj hc).symm⟩
    · rw [if_neg hcase] at hc
      obtain ⟨c₀, hc₀, rfl⟩ := Option.map_eq_some_iff.mp hc
      refine .inr ⟨c₀, hc₀, ?_⟩
      split_ifs with hup
      · exact ⟨rfl, .inr ⟨hup.1, hup.2, rfl⟩⟩
      · exact ⟨rfl, .inl rfl⟩
  refine ⟨fun e' x c hc => ?_, fun e' x c p hc hp => ?_, fun e' x c hc => ?_⟩
  · rw [hmgr]
    rcases hback e' x c hc with ⟨rfl, rfl, rfl⟩ | ⟨c₀, hc₀, hp, -⟩
    · exact ⟨r, hr, rfl, rfl⟩
    · rw [hp]
      exact h.known e' x c₀ hc₀
  · rcases hback e' x c hc with ⟨rfl, rfl, rfl⟩ | ⟨c₀, hc₀, hp', -⟩
    · obtain ⟨pc, hpc⟩ := Option.isSome_iff_exists.mp (hparent p hp)
      refine ⟨{ pc with subContextIds := pc.subContextIds ++ [id] }, ?_,
        List.mem_append_right _ (List.mem_singleton_self id)⟩
      rw [hb, if_neg (hnew _ _ _ hpc), hpc, Option.map_some, if_pos ⟨rfl, hp⟩]
    · obtain ⟨pc, hpc, hmem⟩ := h.parent e' x c₀ p hc₀ (hp' ▸ hp)
      obtain ⟨pc', hpc', -, hsub⟩ := hforth e' p pc hpc
      exact ⟨pc', hpc', hsub hmem⟩
  · rcases hback e' x c hc with ⟨rfl, rfl, rfl⟩ | ⟨c₀, hc₀, -, hsub⟩
    · exact ⟨List.nodup_nil, by simp⟩
    · obtain ⟨hnodup, hall⟩ := h.sub e' x c₀ hc₀
      have hold : ∀ y ∈ c₀.subContextIds, ∃ c', w'.backend e' y = some c' ∧
          c'.parentContextId = some x := by
        intro y hy
        obtain ⟨c', hc', hp'⟩ := hall y hy
        obtain ⟨c'', hc'', hp'', -⟩ := hforth e' y c' hc'
        exact ⟨c'', hc'', hp''.trans hp'⟩
      rcases hsub with hsub | ⟨rfl, hup, hsub⟩
      · rw [hsub]
        exact ⟨hnodup, hold⟩
      · rw [hsub]
        refine ⟨List.nodup_append.mpr ⟨hnodup, List.nodup_singleton id, ?_⟩, fun y hy => ?_⟩
        · rintro a ha b hb' rfl
          obtain ⟨c', hc', -⟩ := hall a ha
          exact hnew _ _ _ hc' ⟨rfl, List.mem_singleton.mp hb'⟩
        · rcases List.mem_append.mp hy with hy | hy
          · exact hold y hy
          · refine ⟨{ parentContextId := parentContextId w.mgr r }, ?_, hup⟩
            rw [hb, if_pos ⟨rfl, List.mem_singleton.mp hy⟩]

/-- A Fill changes what a context holds, nothing else. -/
lemma EnginesSound.fill (h : w.EnginesSound) (e id : ℕ) (payload : List α) :
    EnginesSound { w with
      backend := Function.update w.backend e ((w.backend e).fill id payload) } := by
  have hb : ∀ e' x, Function.update w.backend e ((w.backend e).fill id payload) e' x =
      (w.backend e' x).map fun c =>
        if e' = e ∧ x = id then { c with filled := c.filled ++ [payload] } else c := by
    intro e' x
    rw [Function.update_apply]
    by_cases he : e' = e
    · rw [if_pos he, he, EngineContexts.fill]
      cases hc : w.backend e id with
      | none =>
          by_cases hx : x = id
          · simp [hx, hc]
          · simp [hx]
      | some c =>
          dsimp only
          rw [Function.update_apply]
          by_cases hx : x = id
          · simp [hx, hc]
          · simp [hx]
    · simp [he]
  generalize Function.update w.backend e ((w.backend e).fill id payload) = b at hb ⊢
  -- parents and children are as they were
  have hforth : ∀ e' x c, w.backend e' x = some c → ∃ c', b e' x = some c' ∧
      c'.parentContextId = c.parentContextId ∧ c'.subContextIds = c.subContextIds := by
    intro e' x c hc
    rw [hb, hc, Option.map_some]
    split_ifs <;> exact ⟨_, rfl, rfl, rfl⟩
  have hback : ∀ e' x c, b e' x = some c → ∃ c', w.backend e' x = some c' ∧
      c'.parentContextId = c.parentContextId ∧ c'.subContextIds = c.subContextIds := by
    intro e' x c hc
    rw [hb] at hc
    obtain ⟨c₀, hc₀, rfl⟩ := Option.map_eq_some_iff.mp hc
    refine ⟨c₀, hc₀, ?_⟩
    split_ifs <;> exact ⟨rfl, rfl⟩
  refine ⟨fun e' x c hc => ?_, fun e' x c p hc hp => ?_, fun e' x c hc => ?_⟩
  · obtain ⟨c₀, hc₀, hp, -⟩ := hback e' x c hc
    obtain ⟨r, hr, he, hrp⟩ := h.known e' x c₀ hc₀
    exact ⟨r, hr, he, hp ▸ hrp⟩
  · obtain ⟨c₀, hc₀, hp₀, -⟩ := hback e' x c hc
    obtain ⟨pc, hpc, hmem⟩ := h.parent e' x c₀ p hc₀ (hp₀.trans hp)
    obtain ⟨pc', hpc', -, hsub⟩ := hforth e' p pc hpc
    exact ⟨pc', hpc', hsub ▸ hmem⟩
  · obtain ⟨c₀, hc₀, -, hsub⟩ := hback e' x c hc
    obtain ⟨hnodup, hall⟩ := h.sub e' x c₀ hc₀
    rw [← hsub]
    refine ⟨hnodup, fun y hy => ?_⟩
    obtain ⟨c', hc', hp'⟩ := hall y hy
    obtain ⟨c'', hc'', hp'', -⟩ := hforth e' y c' hc'
    exact ⟨c'', hc'', hp''.trans hp'⟩

end ContextWorld

/-! ## A new engine -/

namespace ServeCoreContextManager

variable {m m' : ServeCoreContextManager} {held : List (List ContextRef)}
  {entries : List ContextRef} {e : ℕ}

/-- An empty cache says what no cache says. -/
lemma cached_registerEngine (hnone : m.prefixCaches e = none) (e' : ℕ) (l : List VarId) :
    (m.registerEnginePrefixCache e).cached e' l = m.cached e' l := by
  rw [ServeCoreContextManager.cached, ServeCoreContextManager.cached, registerEnginePrefixCache]
  dsimp only
  rw [Function.update_apply]
  split_ifs with he
  · rw [he, hnone]
    rfl
  · rfl

lemma reversed_registerEngine (hnone : m.prefixCaches e = none) (e' id : ℕ) :
    (m.registerEnginePrefixCache e).reversed e' id = m.reversed e' id := by
  rw [ServeCoreContextManager.reversed, ServeCoreContextManager.reversed,
    registerEnginePrefixCache]
  dsimp only
  rw [Function.update_apply]
  split_ifs with he
  · rw [he, hnone]
    rfl
  · rfl

lemma isSome_registerEngine {e' : ℕ} (h : (m.prefixCaches e').isSome = true) :
    ((m.registerEnginePrefixCache e).prefixCaches e').isSome = true := by
  rw [registerEnginePrefixCache]
  dsimp only
  rw [Function.update_apply]
  split_ifs
  · rfl
  · exact h

lemma keeps_registerEngine (hnone : m.prefixCaches e = none) :
    m.Keeps (m.registerEnginePrefixCache e) where
  next_le := Nat.le_refl _
  obj _ _ := rfl
  live _ _ h := h
  key r _ _ l := by
    rw [Key, reversed_registerEngine hnone]
    exact Iff.rfl
  registered _ := isSome_registerEngine

lemma AllOwn.registerEngine (h : m.AllOwn) (hnone : m.prefixCaches e = none) :
    (m.registerEnginePrefixCache e).AllOwn := by
  intro e' l id hc
  rw [cached_registerEngine hnone] at hc
  rw [reversed_registerEngine hnone]
  exact h e' l id hc

lemma Sound.registerEngine (h : m.Sound held entries) (hnone : m.prefixCaches e = none) :
    (m.registerEnginePrefixCache e).Sound held entries := by
  have hkey : ∀ r l, (m.registerEnginePrefixCache e).Key r l ↔ m.Key r l := by
    intro r l
    rw [Key, reversed_registerEngine hnone]
    exact Iff.rfl
  refine { h with
    registered := fun r hr => isSome_registerEngine (h.registered r hr)
    caches := ⟨fun e' c h' id hc hh => ?_, fun e' id h' hrev => ?_, fun e' l id hc hrev => ?_⟩
    counter := fun r hr => ?_ }
  · change Function.update m.prefixCaches e _ e' = some c at hc
    rw [Function.update_apply] at hc
    split_ifs at hc with he
    · obtain rfl := Option.some.inj hc
      simp [PrefixCache.empty] at hh
    · exact h.caches.entry e' c h' id hc hh
  · rw [reversed_registerEngine hnone] at hrev
    obtain ⟨r, l, hr, he, hl, heq, hc, hp⟩ := h.caches.own e' id h' hrev
    refine ⟨r, l, hr, he, hl, heq, by rw [cached_registerEngine hnone, hc],
      hp.congr rfl (fun l' _ hc' => ?_) fun p _ hpl l' hk => ⟨rfl, hpl, (hkey p l').mpr hk⟩⟩
    rw [cached_registerEngine hnone]
    exact hc'
  · rw [cached_registerEngine hnone] at hc
    rw [reversed_registerEngine hnone] at hrev
    intro l' hl' hp
    obtain ⟨id', hid', hno⟩ := h.caches.stale e' l id hc hrev l' hl' hp
    exact ⟨id', by rw [cached_registerEngine hnone, hid'], by
      rw [reversed_registerEngine hnone]; exact hno⟩
  · obtain ⟨n, hn, hpos, hle, heq⟩ := h.counter r hr
    refine ⟨n, hn, hpos, hle, heq.imp_right fun hf => ⟨hf.1, ?_⟩⟩
    obtain ⟨l, hl, hk⟩ := hf.2
    exact ⟨l, hl, (hkey r l).mpr hk⟩

/-- A bound task whose contexts stay is still bound. -/
lemma TaskBound.keeps {chain : List ChainNode} {cs : List ContextRef}
    (h : m.TaskBound e chain cs) (hk : m.Keeps m') (hs : m.Sound held entries)
    (hlive : ∀ r ∈ cs, m'.Live r) : m'.TaskBound e chain cs := by
  obtain ⟨fs, gs, rfl, hpath, hlen, hgs⟩ := h
  refine ⟨fs, gs, rfl, hpath.keeps hk hs fun r hr => hlive r (List.mem_append_left _ hr), hlen,
    fun g hg => ?_⟩
  obtain ⟨hl, he, hp, hkey⟩ := hgs g hg
  have hlt := hs.live_lt hl
  have hl' := hlive g (List.mem_append_right _ hg)
  rw [hk.obj g hlt]
  exact ⟨hl', he, hp, fun l hl => hkey l ((hk.key g hlt hl' l).mp hl)⟩

end ServeCoreContextManager

/-! ## The invariant -/

namespace ContextSystem

variable {s s' : ContextSystem α}

/-- The contexts of the bound tasks. -/
def held (s : ContextSystem α) : List (List ContextRef) :=
  s.bound.map fun t => (s.task t).contexts

lemma held_bindTask (hlt : ∀ t ∈ s.bound, t < s.nextTask) (task : BoundTask)
    (m : ServeCoreContextManager) : (s.bindTask task m).held = task.contexts :: s.held := by
  have hnew : (s.bindTask task m).task s.nextTask = task := Function.update_self _ _ _
  rw [held, bindTask, List.map_cons]
  refine congrArg₂ _ (congrArg BoundTask.contexts hnew) (List.map_congr_left fun t ht => ?_)
  exact congrArg BoundTask.contexts (Function.update_of_ne (Nat.ne_of_lt (hlt t ht)) _ _)

lemma held_perm_erase {t : TaskRef} (ht : t ∈ s.bound) :
    ((s.task t).contexts :: (s.bound.erase t).map fun t => (s.task t).contexts).Perm s.held :=
  ((List.perm_cons_erase ht).map fun t => (s.task t).contexts).symm

/-- The manager, its engines and the tasks that are bound. -/
structure SystemInv (s : ContextSystem α) : Prop where
  world : s.world.Sound s.held s.world.mgr.constantEntries
  keys : s.world.mgr.KeysNodup
  tasks : ∀ t ∈ s.bound,
    s.world.mgr.TaskBound (s.task t).engine (s.task t).chain (s.task t).contexts
  bound_lt : ∀ t ∈ s.bound, t < s.nextTask
  nodup : s.bound.Nodup

namespace SystemInv

lemma start : SystemInv (ContextSystem.start : ContextSystem α) := by
  have hlive : ∀ r : ContextRef, ¬ ServeCoreContextManager.empty.Live r := fun r hr => by
    simp [Live, ServeCoreContextManager.empty] at hr
  have hnone : ∀ e l, ServeCoreContextManager.empty.cached e l = none := fun _ _ => rfl
  refine ⟨⟨?_, ⟨?_, ?_, ?_⟩, rfl⟩, List.nodup_nil, ?_, ?_, List.nodup_nil⟩
  · refine ⟨(RecyclePool.owns_empty _ _ _).mono
      (by simp [ContextSystem.start, ServeCoreContextManager.empty]), rfl, ?_, ?_,
      fun r p hr => absurd hr (hlive r), fun r p hr => absurd hr (hlive r),
      fun r hr => absurd hr (hlive r), ⟨?_, ?_, ?_⟩, ?_, ?_, ?_, fun r hr => absurd hr (hlive r),
      fun _ _ => .inl rfl⟩
    all_goals simp [ContextSystem.start, ServeCoreContextManager.empty, held, constantEntries,
      ServeCoreContextManager.reversed, ServeCoreContextManager.cached]
  all_goals simp [ContextSystem.start]

lemma live_of_mem (h : SystemInv s) {t : TaskRef} (ht : t ∈ s.bound) {r : ContextRef}
    (hr : r ∈ (s.task t).contexts) : s.world.mgr.Live r :=
  h.world.mgr.held_live _ (List.mem_map_of_mem ht) r hr

/-- `register_engine_prefix_cache`. -/
lemma registerEngine (h : SystemInv s) {e : ℕ} (hnone : s.world.mgr.prefixCaches e = none) :
    SystemInv { s with world :=
      { s.world with mgr := s.world.mgr.registerEnginePrefixCache e } } := by
  have hk := keeps_registerEngine hnone
  refine ⟨⟨h.world.mgr.registerEngine hnone, h.world.engines.keeps h.world.mgr hk fun _ hr => hr,
    h.world.orphaned⟩, h.keys, fun t ht => ?_, h.bound_lt, h.nodup⟩
  exact (h.tasks t ht).keeps hk h.world.mgr fun r hr => h.live_of_mem ht hr

/-- `set_task_contexts`. -/
lemma setTaskContexts (h : SystemInv s) {e : ℕ} {chain : List ChainNode} {fuseFill : Bool}
    (hreg : (s.world.mgr.prefixCaches e).isSome = true) (hshape : ChainShape chain)
    (hguard : s.world.mgr.BindGuard e chain fuseFill) :
    ∃ cs m', s.world.mgr.setTaskContexts e chain fuseFill = .ok (cs, m') ∧
      s.world.mgr.Bound s.held e chain fuseFill cs m' ∧
      SystemInv (s.bindTask { engine := e, chain, fuseFill, contexts := cs } m') := by
  obtain ⟨cs, m', hok, hb⟩ := setTaskContexts_ok h.world.mgr h.keys hreg hshape hguard
  have htask : ∀ t ∈ s.bound,
      (s.bindTask { engine := e, chain, fuseFill, contexts := cs } m').task t
      = s.task t := fun t ht => Function.update_of_ne (Nat.ne_of_lt (h.bound_lt t ht)) _ _
  have hnew : (s.bindTask { engine := e, chain, fuseFill, contexts := cs } m').task s.nextTask =
      { engine := e, chain, fuseFill, contexts := cs } := Function.update_self _ _ _
  have hheld := held_bindTask h.bound_lt { engine := e, chain, fuseFill, contexts := cs } m'
  refine ⟨cs, m', hok, hb, ⟨by rw [hheld]; exact hb.sound,
    h.world.engines.keeps h.world.mgr hb.keeps hb.older, h.world.orphaned⟩, hb.keys, ?_, ?_, ?_⟩
  · refine List.forall_mem_cons.mpr ⟨by rw [hnew]; exact hb.task, fun t ht => ?_⟩
    rw [htask t ht]
    exact (h.tasks t ht).keeps hb.keeps h.world.mgr fun r hr => hb.older r (h.live_of_mem ht hr)
  · refine List.forall_mem_cons.mpr ⟨Nat.lt_succ_self _, fun t ht => ?_⟩
    exact Nat.lt_succ_of_lt (h.bound_lt t ht)
  · exact List.nodup_cons.mpr
      ⟨fun hmem => Nat.lt_irrefl _ (h.bound_lt _ hmem), h.nodup⟩

/-- `free_task_contexts`. -/
lemma freeTaskContexts (h : SystemInv s) {t : TaskRef} (ht : t ∈ s.bound) :
    ∃ w, s.world.freeTaskContexts (s.task t).contexts = .ok w ∧ s.world.Frees w ∧
      SystemInv { s with world := w, bound := s.bound.erase t } := by
  have hperm := held_perm_erase ht
  have hsound : s.world.Sound ((s.task t).contexts :: (s.bound.erase t).map fun t =>
      (s.task t).contexts) s.world.mgr.constantEntries :=
    ⟨h.world.mgr.perm hperm (.refl _), h.world.engines, h.world.orphaned⟩
  obtain ⟨w, hok, hs, hfrees⟩ := hsound.freeTaskContexts
  have hentries : w.mgr.constantEntries = s.world.mgr.constantEntries := by
    rw [constantEntries, hfrees.constants]
    rfl
  refine ⟨w, hok, hfrees, ⟨hentries ▸ hs.mgr, hs.engines, hs.orphaned⟩, ?_, fun t' ht' => ?_,
    fun t' ht' => h.bound_lt t' (List.mem_of_mem_erase ht'), h.nodup.erase t⟩
  · rw [KeysNodup, hfrees.constants]
    exact h.keys
  · exact (h.tasks t' (List.mem_of_mem_erase ht')).keeps hfrees.keeps h.world.mgr
      (hs.mgr.held_live _ (List.mem_map_of_mem ht'))

/-- `free_constant_prefix_contexts`, for a variable that has contexts. -/
lemma freeConstantPrefixContexts (h : SystemInv s) {v : VarId} {rs : List ContextRef}
    (hv : s.world.mgr.constantPrefixContexts.lookup v = some rs) :
    ∃ w, s.world.freeConstantPrefixContexts v = .ok w ∧ s.world.mgr.Keeps w.mgr ∧
      w.mgr.next = s.world.mgr.next ∧ (∀ r, w.mgr.Live r → w.received r = s.world.received r) ∧
      (s.world.mgr.AllOwn → w.mgr.AllOwn) ∧ SystemInv { s with world := w } := by
  have hsound : s.world.Sound s.held (rs ++ (s.world.mgr.constantPrefixContexts.filter
      fun en => decide (en.1 ≠ v)).flatMap Prod.snd) :=
    ⟨h.world.mgr.perm (.refl _) (filter_entry_perm h.keys hv).symm, h.world.engines,
      h.world.orphaned⟩
  obtain ⟨w, hok, hs, hfrees⟩ := ContextWorld.freeAll_ok rs hsound
  rw [ContextWorld.freeConstantPrefixContexts, hv]
  dsimp only
  rw [hok]
  refine ⟨_, rfl, ?_⟩
  set w' : ContextWorld α := { w with mgr := { w.mgr with
    constantPrefixContexts :=
      w.mgr.constantPrefixContexts.filter fun en => decide (en.1 ≠ v) } } with hw'
  have hkeeps : s.world.mgr.Keeps w'.mgr :=
    ⟨hfrees.keeps.next_le, hfrees.keeps.obj, hfrees.keeps.live, hfrees.keeps.key,
      hfrees.keeps.registered⟩
  have hmgr : w'.mgr.Sound s.held w'.mgr.constantEntries := by
    have hm := hs.mgr
    rw [← hfrees.constants] at hm
    exact ⟨hm.pool, hm.unbounded, hm.id_eq, hm.lt_next, hm.parent_lt, hm.parent_engine,
      hm.registered, ⟨hm.caches.entry, hm.caches.own, hm.caches.stale⟩, hm.held_live,
      hm.held_branch, hm.entries_live, hm.counter, hm.dead⟩
  refine ⟨hkeeps, hfrees.next, hfrees.received, hfrees.allOwn,
    ⟨hmgr, ⟨hs.engines.known, hs.engines.parent, hs.engines.sub⟩, hs.orphaned⟩, ?_, fun t ht => ?_,
    h.bound_lt, h.nodup⟩
  · have hkeys : (w.mgr.constantPrefixContexts.map Prod.fst).Nodup := by
      rw [hfrees.constants]
      exact h.keys
    exact hkeys.sublist (List.filter_sublist.map Prod.fst)
  · exact (h.tasks t ht).keeps hkeeps h.world.mgr (hmgr.held_live _ (List.mem_map_of_mem ht))

/-- Only the engines changed. -/
lemma backend (h : SystemInv s) {b : ℕ → EngineContexts α}
    (hb : ContextWorld.EnginesSound { s.world with backend := b }) :
    SystemInv { s with world := { s.world with backend := b } } :=
  ⟨⟨h.world.mgr, hb, h.world.orphaned⟩, h.keys, h.tasks, h.bound_lt, h.nodup⟩

/-- A primitive reaches the engine of a live context. -/
lemma bindJobContext (h : SystemInv s) {r : ContextRef} (hr : s.world.mgr.Live r)
    (hok : s.bindJobContext r = .ok s') : SystemInv s' := by
  unfold ContextSystem.bindJobContext at hok
  dsimp only at hok
  split at hok
  · simp at hok
  · rename_i engine hbind
    obtain rfl := Except.ok.inj hok
    refine h.backend ?_
    rcases ContextWorld.bindJobContext_cases hbind with rfl | ⟨hnone, hparent, hb⟩
    · rw [Function.update_eq_self]
      exact h.world.engines
    · refine h.world.engines.attach hr rfl hnone hparent fun e x => ?_
      dsimp only
      rw [Function.update_apply]
      by_cases he : e = (s.world.mgr.obj r).engine
      · rw [if_pos he, hb, he]
        simp
      · simp [he]

/-- An engine executes a Fill. -/
lemma fill (h : SystemInv s) (r : ContextRef) (payload : List α) : SystemInv (s.fill r payload) :=
  h.backend (h.world.engines.fill _ _ payload)

/-- Only the engine changes when a primitive reaches it. -/
lemma bindJobContext_frame {r : ContextRef} (hok : s.bindJobContext r = .ok s') :
    s'.world.mgr = s.world.mgr ∧ s'.task = s.task ∧ s'.bound = s.bound ∧
      s'.nextTask = s.nextTask := by
  unfold ContextSystem.bindJobContext at hok
  dsimp only at hok
  split at hok
  · simp at hok
  · exact (Except.ok.inj hok) ▸ ⟨rfl, rfl, rfl, rfl⟩

lemma mgr_bindJobContext {r : ContextRef} (hok : s.bindJobContext r = .ok s') :
    s'.world.mgr = s.world.mgr := (bindJobContext_frame hok).1

end SystemInv

/-! ## Steps -/

/-- The condition on the calls of `set_task_contexts`. -/
def Guarded (s : ContextSystem α) : ContextAction α → Prop
  | .setTaskContexts e chain fuseFill => s.world.mgr.BindGuard e chain fuseFill
  | _ => True

/-- No call fuses a Fill into the context of another node. -/
def Unfused (s : ContextSystem α) : ContextAction α → Prop
  | .setTaskContexts e chain fuseFill => ¬ s.world.mgr.FusesFill e chain fuseFill
  | _ => True

instance (s : ContextSystem α) : ∀ a, Decidable (s.Unfused a)
  | .setTaskContexts e chain fuseFill =>
      inferInstanceAs (Decidable (¬ s.world.mgr.FusesFill e chain fuseFill))
  | .registerEngine _ | .freeTaskContexts _ | .freeConstantPrefixContexts _ | .bindJobContext _
  | .fill _ _ => inferInstanceAs (Decidable True)

/-- What a step keeps. -/
structure StepKeeps (s : ContextSystem α) (a : ContextAction α) (s' : ContextSystem α) : Prop where
  inv : SystemInv s'
  keeps : s.world.mgr.Keeps s'.world.mgr
  own : s.world.mgr.AllOwn → s.Unfused a → s'.world.mgr.AllOwn

/-- **Every guarded action succeeds and keeps the invariant**, except for a constant prefix that
has no contexts. -/
theorem SystemInv.apply (h : SystemInv s) {a : ContextAction α} (hen : s.Enabled a)
    (hg : s.Guarded a) :
    (∃ s', s.apply a = .ok s' ∧ s.StepKeeps a s') ∨
      ∃ v, a = .freeConstantPrefixContexts v ∧
        s.world.mgr.constantPrefixContexts.lookup v = none := by
  cases a with
  | registerEngine e =>
      exact .inl ⟨_, rfl, h.registerEngine hen, keeps_registerEngine hen,
        fun ho _ => ho.registerEngine hen⟩
  | setTaskContexts e chain fuseFill =>
      obtain ⟨cs, m', hok, hb, hinv⟩ := h.setTaskContexts hen.1 hen.2 hg
      refine .inl ⟨_, ?_, hinv, hb.keeps, fun ho hno => (hb.own hno).1 ho⟩
      rw [ContextSystem.apply, hok]
  | freeTaskContexts t =>
      obtain ⟨w, hok, hfrees, hinv⟩ := h.freeTaskContexts hen
      refine .inl ⟨_, ?_, hinv, hfrees.keeps, fun ho _ => hfrees.allOwn ho⟩
      rw [ContextSystem.apply, hok]
  | freeConstantPrefixContexts v =>
      cases hv : s.world.mgr.constantPrefixContexts.lookup v with
      | none => exact .inr ⟨v, rfl, hv⟩
      | some rs =>
          obtain ⟨w, hok, hkeeps, -, -, hown, hinv⟩ := h.freeConstantPrefixContexts hv
          refine .inl ⟨_, ?_, hinv, hkeeps, fun ho _ => hown ho⟩
          rw [ContextSystem.apply, hok]
  | bindJobContext r =>
      obtain ⟨t, ht, hr⟩ := hen
      rw [ContextSystem.apply]
      cases hok : s.bindJobContext r with
      | error e => exact .inl ⟨s, rfl, h, .refl _, fun ho _ => ho⟩
      | ok s' =>
          have hmgr := mgr_bindJobContext hok
          exact .inl ⟨s', rfl, h.bindJobContext (h.live_of_mem ht hr) hok, hmgr ▸ .refl _,
            fun ho _ => hmgr ▸ ho⟩
  | fill r payload =>
      exact .inl ⟨_, rfl, h.fill r payload, .refl _, fun ho _ => ho⟩

/-! ## Runs without fused Fills -/

/-- While every cached prefix is the key of its context, only fusing has to be excluded. -/
lemma bindGuard_of_allOwn {m : ServeCoreContextManager} (h : m.AllOwn) {e : ℕ}
    {chain : List ChainNode} {fuseFill : Bool} (hno : ¬ m.FusesFill e chain fuseFill) :
    m.BindGuard e chain fuseFill := by
  have hown : ∀ l, m.LongestOwn e l := fun l hpos => by
    obtain ⟨id, hid⟩ := hitCount_cached l [] hpos
    exact ⟨id, hid, h e _ id hid⟩
  refine ⟨hown _, hown _, fun hf => ?_⟩
  have hle := hitCount_le (m := m) (e := e) (fillVars chain) []
  rw [FusesFill, not_and] at hno
  have := hno hf
  omega

lemma guarded_of_unfused {a : ContextAction α} (h : s.world.mgr.AllOwn) (hno : s.Unfused a) :
    s.Guarded a := by
  cases a with
  | setTaskContexts e chain fuseFill => exact bindGuard_of_allOwn h hno
  | _ => trivial

/-- The invariant of every run that fuses nothing. -/
lemma unfused_invariant :
    (system : TransitionSystem (ContextSystem α) (ContextAction α)).IsInvariantUnder Unfused
      fun s => SystemInv s ∧ s.world.mgr.AllOwn where
  init s h := by
    obtain rfl := h
    refine ⟨.start, fun e l id hc => ?_⟩
    simp [ContextSystem.start, ServeCoreContextManager.cached, ServeCoreContextManager.empty] at hc
  step s a s' h hg hstep := by
    obtain ⟨hinv, hown⟩ := h
    rcases hinv.apply hstep.1 (guarded_of_unfused hown hg) with ⟨s'', hok, hkeeps⟩ | ⟨v, rfl, hv⟩
    · obtain rfl := Except.ok.inj (hok.symm.trans hstep.2)
      exact ⟨hkeeps.inv, hkeeps.own hown hg⟩
    · have hok := hstep.2
      rw [ContextSystem.apply, ContextWorld.freeConstantPrefixContexts, hv] at hok
      simp at hok

end ContextSystem
end ParrotServe
