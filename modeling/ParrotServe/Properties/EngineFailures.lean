import ParrotServe.Model.ServeCore
import ParrotServe.Properties.ReferenceCounts
import ParrotServe.Properties.StaleEngines

/-!
# Engine failures

A task that fails marks its engine as bad, and the next sweep removes the engine from the
registry, gives back its id and drops its prefix cache, whoever still uses it.  Whatever an engine
leaves behind then fails: `raise_exception` and `set_task_contexts` look its id up, and
`_free_context` needs its server and its cache.  A server that dies while its engine is registered
has the same effect on `_free_context`.

`FailureGuard` is the condition that nothing is left behind: an engine is swept, and its server
gone, only when no task waits for contexts on it and no context lives on it, and no task is
scheduled to an engine whose server is gone.  Next to it are the conditions that other parts of
the core bring, on the bindings (`BindGuard`) and on the expiry of constant prefixes.
`engine_failures` says that in every run that meets it, none of the four calls raises and
nothing refers to a context of a swept engine; `failure_of_swept_engine` is the run with two tasks
on one engine.

The proof is a simulation.  While every live context is at home on a registered engine, the core
looks like a `ContextSystem` whose engines are known by their ids (`view`), and each operation of
the core is the operation of that system.
-/

namespace ParrotServe

variable {α : Type}

/-! ## An engine without contexts goes -/

namespace ServeCoreContextManager

variable {m : ServeCoreContextManager} {held : List (List ContextRef)}
  {entries : List ContextRef} {e : ℕ}

/-- The manager without the cache of an engine. -/
def dropCache (m : ServeCoreContextManager) (e : ℕ) : ServeCoreContextManager :=
  { m with prefixCaches := Function.update m.prefixCaches e none }

lemma cached_dropCache {e' : ℕ} (he : e' ≠ e) (l : List VarId) :
    (m.dropCache e).cached e' l = m.cached e' l := by
  rw [ServeCoreContextManager.cached, ServeCoreContextManager.cached, dropCache]
  dsimp only
  rw [Function.update_of_ne he]

lemma reversed_dropCache {e' : ℕ} (he : e' ≠ e) (id : ℕ) :
    (m.dropCache e).reversed e' id = m.reversed e' id := by
  rw [ServeCoreContextManager.reversed, ServeCoreContextManager.reversed, dropCache]
  dsimp only
  rw [Function.update_of_ne he]

lemma ne_of_cached_dropCache {e' id : ℕ} {l : List VarId}
    (hc : (m.dropCache e).cached e' l = some id) : e' ≠ e := by
  rintro rfl
  simp [ServeCoreContextManager.cached, dropCache] at hc

lemma ne_of_reversed_dropCache {e' id : ℕ} {h : Text}
    (hr : (m.dropCache e).reversed e' id = some h) : e' ≠ e := by
  rintro rfl
  simp [ServeCoreContextManager.reversed, dropCache] at hr

lemma key_dropCache {r : ContextRef} (hr : (m.obj r).engine ≠ e) (l : List VarId) :
    (m.dropCache e).Key r l ↔ m.Key r l := by
  rw [Key, Key, ← reversed_dropCache hr]
  exact Iff.rfl

/-- The cache of an engine without contexts is not missed. -/
lemma Sound.dropCache (h : m.Sound held entries)
    (hnone : ∀ r, m.Live r → (m.obj r).engine ≠ e) : (m.dropCache e).Sound held entries := by
  refine { h with
    registered := fun r hr => ?_
    caches := ⟨fun e' c h' id hc hh => ?_, fun e' id h' hrev => ?_, fun e' l id hc hrev => ?_⟩
    counter := fun r hr => ?_ }
  · rw [ServeCoreContextManager.dropCache]
    dsimp only
    rw [Function.update_of_ne (hnone r hr)]
    exact h.registered r hr
  · change Function.update m.prefixCaches e none e' = some c at hc
    rw [Function.update_apply] at hc
    split_ifs at hc
    exact h.caches.entry e' c h' id hc hh
  · have he := ne_of_reversed_dropCache hrev
    rw [reversed_dropCache he] at hrev
    obtain ⟨r, l, hr, hre, hl, heq, hc, hp⟩ := h.caches.own e' id h' hrev
    refine ⟨r, l, hr, hre, hl, heq, by rw [cached_dropCache he, hc],
      hp.congr rfl (fun l' _ hc' => ?_) fun p _ hpl l' hk =>
        ⟨rfl, hpl, (key_dropCache (hnone p hpl) l').mpr hk⟩⟩
    rw [cached_dropCache (hre ▸ he)]
    exact hc'
  · have he := ne_of_cached_dropCache hc
    rw [cached_dropCache he] at hc
    rw [reversed_dropCache he] at hrev
    intro l' hl' hp
    obtain ⟨id', hid', hno⟩ := h.caches.stale e' l id hc hrev l' hl' hp
    exact ⟨id', by rw [cached_dropCache he, hid'], by rw [reversed_dropCache he]; exact hno⟩
  · obtain ⟨n, hn, hpos, hle, heq⟩ := h.counter r hr
    refine ⟨n, hn, hpos, hle, heq.imp_right fun hf => ⟨hf.1, ?_⟩⟩
    obtain ⟨l, hl, hk⟩ := hf.2
    exact ⟨l, hl, (key_dropCache (hnone r hr) l).mpr hk⟩

lemma TaskBound.dropCache {e' : ℕ} {chain : List ChainNode} {cs : List ContextRef}
    (h : m.TaskBound e' chain cs) (hnone : ∀ r, m.Live r → (m.obj r).engine ≠ e) :
    (m.dropCache e).TaskBound e' chain cs := by
  obtain ⟨fs, gs, rfl, hpath, hlen, hgs⟩ := h
  refine ⟨fs, gs, rfl, hpath.congr fun r hr => ?_, hlen, fun g hg => ?_⟩
  · have hl := (hpath.live r hr).1
    exact ⟨rfl, hl, fun l hk => (key_dropCache (hnone r hl) l).mpr hk⟩
  · obtain ⟨hl, he, hp, hkey⟩ := hgs g hg
    exact ⟨hl, he, hp, fun l hk => hkey l ((key_dropCache (hnone g hl) l).mp hk)⟩

/-- The contexts of a task live on its engine. -/
lemma TaskBound.live {chain : List ChainNode} {cs : List ContextRef}
    (h : m.TaskBound e chain cs) : ∀ r ∈ cs, m.Live r ∧ (m.obj r).engine = e := by
  obtain ⟨fs, gs, rfl, hpath, -, hgs⟩ := h
  intro r hr
  rcases List.mem_append.mp hr with hr | hr
  · exact hpath.live r hr
  · exact ⟨(hgs r hr).1, (hgs r hr).2.1⟩

end ServeCoreContextManager

/-- `remove_engine_prefix_cache` of an engine without contexts. -/
lemma ContextSystem.SystemInv.dropCache {s : ContextSystem α} (h : SystemInv s) {e : ℕ}
    (hnone : ∀ r, s.world.mgr.Live r → (s.world.mgr.obj r).engine ≠ e) :
    SystemInv { s with world := { s.world with mgr := s.world.mgr.dropCache e } } :=
  ⟨⟨h.world.mgr.dropCache hnone, ⟨h.world.engines.known, h.world.engines.parent,
      h.world.engines.sub⟩, h.world.orphaned⟩,
    h.keys, fun t ht => (h.tasks t ht).dropCache hnone, h.bound_lt, h.nodup⟩

/-! ## Where `_free_context` looks -/

namespace ContextWorld

variable {w w' : ContextWorld α}

/-- What `_free_context` leaves alone. -/
structure FreeFrame (w w' : ContextWorld α) : Prop where
  obj : w'.mgr.obj = w.mgr.obj
  caches : ∀ e, (w'.mgr.prefixCaches e).isSome = (w.mgr.prefixCaches e).isSome
  live : ∀ r, w'.mgr.Live r → w.mgr.Live r

lemma FreeFrame.refl (w : ContextWorld α) : FreeFrame w w := ⟨rfl, fun _ => rfl, fun _ h => h⟩

lemma FreeFrame.trans {w'' : ContextWorld α} (h : FreeFrame w w') (h' : FreeFrame w' w'') :
    FreeFrame w w'' :=
  ⟨h'.obj.trans h.obj, fun e => (h'.caches e).trans (h.caches e),
    fun r hr => h.live r (h'.live r hr)⟩

/-- `_free_context` with the last reference reaches one engine, and nothing depends on the
others. -/
lemma dropContext_backend {r : ContextRef} {b : ℕ → EngineContexts α}
    (hb : b (w.mgr.obj r).engine = w.backend (w.mgr.obj r).engine)
    (hok : w.dropContext r = .ok w') :
    dropContext { w with backend := b } r = .ok { w' with
        backend := Function.update b (w.mgr.obj r).engine (w'.backend (w.mgr.obj r).engine) } ∧
      (∀ e, e ≠ (w.mgr.obj r).engine → w'.backend e = w.backend e) ∧ FreeFrame w w' := by
  unfold dropContext at hok ⊢
  dsimp only at hok ⊢
  rw [hb]
  split at hok
  · cases hok
  · split at hok
    · cases hok
    · rename_i cache hcache
      split at hok
      · cases hok
      · split at hok
        · cases hok
        · split at hok
          · cases hok
          · obtain rfl := Except.ok.inj hok
            refine ⟨by dsimp only; rw [Function.update_self],
              fun e he => Function.update_of_ne he _ _, rfl, fun e => ?_, fun x hx => ?_⟩
            · dsimp only
              rw [Function.update_apply]
              split_ifs with he
              · rw [he, hcache]
                rfl
              · rfl
            · rw [ServeCoreContextManager.Live] at hx
              dsimp only at hx
              rw [Function.update_apply] at hx
              split_ifs at hx
              exact hx

/-- `_free_context` reaches one engine, and nothing depends on the others. -/
lemma freeContext_backend {r : ContextRef} {b : ℕ → EngineContexts α}
    (hb : b (w.mgr.obj r).engine = w.backend (w.mgr.obj r).engine)
    (hok : w.freeContext r = .ok w') :
    freeContext { w with backend := b } r = .ok { w' with
        backend := Function.update b (w.mgr.obj r).engine (w'.backend (w.mgr.obj r).engine) } ∧
      (∀ e, e ≠ (w.mgr.obj r).engine → w'.backend e = w.backend e) ∧ FreeFrame w w' := by
  unfold freeContext at hok ⊢
  dsimp only at hok ⊢
  split at hok
  · cases hok
  · split at hok
    · rename_i hmore
      obtain rfl := Except.ok.inj hok
      rw [if_pos hmore]
      refine ⟨?_, fun _ _ => rfl, rfl, fun _ => rfl, fun _ h => h⟩
      dsimp only
      rw [← hb, Function.update_eq_self]
    · rename_i n _ hlast
      rw [if_neg hlast]
      obtain ⟨hdrop, hother, hframe⟩ := dropContext_backend (b := b) (by exact hb) hok
      exact ⟨hdrop, hother, hframe.obj, hframe.caches, hframe.live⟩

end ContextWorld

/-! ## What a call of the registry does -/

namespace EngineManager

variable {m m' : EngineManager}

/-- `m'` has the engines of `m`, with other statuses or runtime information. -/
structure EnginesKept (m m' : EngineManager) : Prop where
  engineId : ∀ g, (m'.obj g).engineId = (m.obj g).engineId
  next : m'.next = m.next
  engines : m'.engines = m.engines
  contextMgr : m'.contextMgr = m.contextMgr

/-- An engine is registered under one id. -/
lemma Identified.get?_inj (h : Identified m) {e e' : ℕ} {g : EngineRef}
    (he : m.engines.get? e = some g) (he' : m.engines.get? e' = some g) : e = e' :=
  (h.engineId e g he).symm.trans (h.engineId e' g he')

/-- `m'` has one more engine than `m`. -/
structure EngineAdded (m : EngineManager) (engineId : ℕ) (m' : EngineManager) : Prop where
  new : engineId ∉ m.engines.keys
  obj : ∀ g, g ≠ m.next → m'.obj g = m.obj g
  next : m'.next = m.next + 1
  engines : m'.engines = m.engines.set engineId m.next
  contextMgr : m'.contextMgr = m.contextMgr.registerEnginePrefixCache engineId

lemma registerModel_contextMgr (fromPretrained : Text → Except PyError HFTokenizer)
    (m : EngineManager) (model : LanguageModel) :
    (registerModel fromPretrained m model).2.contextMgr = m.contextMgr := by
  unfold registerModel
  split
  · split <;> rfl
  · dsimp only
    split
    · rfl
    · split <;> rfl

lemma removeModel_contextMgr (name : Text) :
    (m.removeModel name).2.contextMgr = m.contextMgr := by
  unfold removeModel
  split
  · rfl
  · dsimp only
    split
    · split
      · rfl
      · split
        · rfl
        · split <;> rfl
    · rfl

lemma enginesKept_setEngine {g : EngineRef} {engine : ExecutionEngine}
    (hs : SameEngine (m.obj g) engine) : EnginesKept m (m.setEngine g engine) :=
  ⟨fun h => (setEngine_same hs h).1, rfl, rfl, rfl⟩

/-- `register_engine` adds an engine under a new id, or raises before it does. -/
lemma registerEngine_cases (hi : Identified m)
    (fromPretrained : Text → Except PyError HFTokenizer) (config : EngineConfig) (now : ℤ) :
    EnginesKept m (registerEngine fromPretrained m config now).2 ∨
      ∃ engineId, EngineAdded m engineId (registerEngine fromPretrained m config now).2 := by
  unfold EngineManager.registerEngine
  split
  · exact .inl ⟨fun _ => rfl, rfl, rfl, rfl⟩
  · rename_i model _
    have hs := registerModel_same fromPretrained m model
    have hc := registerModel_contextMgr fromPretrained m model
    split
    · rename_i heq
      rw [heq] at hs hc
      exact .inl ⟨fun _ => by rw [hs.obj], hs.next, hs.engines, hc⟩
    · rename_i model' m₁ heq
      rw [heq] at hs hc
      split
      · exact .inl ⟨fun g => congrArg (fun f => (f g).engineId) hs.obj, hs.next, hs.engines, hc⟩
      · rename_i engineId pool ha
        have hnew : engineId ∉ m₁.engines.keys := ((hi.congr hs).owns.allocate_ok ha).1
        dsimp only at hs hc ⊢
        refine .inr ⟨engineId, hs.engines ▸ hnew, fun g hg => ?_, ?_, ?_, ?_⟩
        · dsimp only
          rw [Function.update_of_ne (hs.next ▸ hg), hs.obj]
        · exact congrArg (· + 1) hs.next
        · dsimp only
          rw [hs.engines, hs.next]
        · dsimp only
          rw [hc]

/-- `_remove_engine`, where it does not raise. -/
lemma removeEngine_spec {e : ℕ} {g : EngineRef} (hget : m.engines.get? e = some g)
    (hok : m.removeEngine e = (.ok (), m')) :
    m'.obj = m.obj ∧ m'.next = m.next ∧ m'.engines = m.engines.erase e ∧
      m'.contextMgr = m.contextMgr.dropCache e := by
  unfold EngineManager.removeEngine at hok
  simp only [hget] at hok
  have hs := removeModel_same (m := { m with engines := m.engines.erase e }) (m.obj g).modelName
  have hc := removeModel_contextMgr (m := { m with engines := m.engines.erase e })
    (m.obj g).modelName
  split at hok
  · cases hok
  · rename_i m₁ heq
    rw [heq] at hs hc
    split at hok
    · cases hok
    · split at hok
      · cases hok
      · split at hok
        · cases hok
        · rename_i hcache
          cases hok
          refine ⟨hs.obj, hs.next, hs.engines, ?_⟩
          unfold ServeCoreContextManager.removeEnginePrefixCache at hcache
          split at hcache
          · cases hcache
          · cases hcache
            dsimp only at hc ⊢
            rw [hc, ServeCoreContextManager.dropCache]

/-- What a sweep that does not raise has done to the engines of a list. -/
structure Sweeps (l : List (ℕ × EngineRef)) (m m' : EngineManager) : Prop where
  obj : m'.obj = m.obj
  engines : ∀ e g, m'.engines.get? e = some g → m.engines.get? e = some g
  contextMgr : ∃ prefixCaches, m'.contextMgr = { m.contextMgr with prefixCaches } ∧
    ∀ e, m.contextMgr.prefixCaches e = none → prefixCaches e = none
  gone : ∀ x ∈ l, (m.obj x.2).isRunning = false →
    m'.engines.get? x.1 = none ∧ m'.contextMgr.prefixCaches x.1 = none

lemma sweeps_of_ok (l : List (ℕ × EngineRef)) : ∀ {m : EngineManager},
    (l.map Prod.fst).Nodup → (∀ x ∈ l, m.engines.get? x.1 = some x.2) →
    sweepEngines l m = (.ok (), m') → Sweeps l m m' := by
  induction l with
  | nil =>
      intro m _ _ hok
      cases hok
      exact ⟨rfl, fun _ _ h => h, ⟨_, rfl, fun _ h => h⟩, by simp⟩
  | cons x l ih =>
      intro m hnodup hfound hok
      rw [List.map_cons, List.nodup_cons] at hnodup
      unfold sweepEngines at hok
      split at hok
      · rename_i hrun
        obtain ⟨hobj, hengines, hctx, hgone⟩ :=
          ih hnodup.2 (fun y hy => hfound y (List.mem_cons_of_mem _ hy)) hok
        refine ⟨hobj, hengines, hctx, List.forall_mem_cons.mpr ⟨fun hno => ?_, hgone⟩⟩
        rw [hno] at hrun
        cases hrun
      · split at hok
        · cases hok
        · rename_i m₁ hremove
          obtain ⟨hobj₁, -, hengines₁, hctx₁⟩ :=
            removeEngine_spec (hfound x List.mem_cons_self) hremove
          have hfound₁ : ∀ y ∈ l, m₁.engines.get? y.1 = some y.2 := by
            intro y hy
            rw [hengines₁, Dict.get?_erase_ne _ fun hyx => ?_]
            · exact hfound y (List.mem_cons_of_mem _ hy)
            · exact hnodup.1 (List.mem_map.mpr ⟨y, hy, hyx⟩)
          obtain ⟨hobj, hengines, ⟨caches, hctx, hnone⟩, hgone⟩ := ih hnodup.2 hfound₁ hok
          rw [hctx₁, ServeCoreContextManager.dropCache] at hctx hnone
          have hback : ∀ e g, m'.engines.get? e = some g → m.engines.get? e = some g ∧ e ≠ x.1 := by
            intro e g hget
            have h₁ := hengines e g hget
            rw [hengines₁, Dict.get?_erase] at h₁
            split at h₁
            · cases h₁
            · exact ⟨h₁, ‹_›⟩
          refine ⟨hobj.trans hobj₁, fun e g hget => (hback e g hget).1,
            ⟨caches, hctx, fun e he => ?_⟩,
            List.forall_mem_cons.mpr ⟨fun _ => ⟨?_, ?_⟩, fun y hy hyrun => ?_⟩⟩
          · refine hnone e ?_
            dsimp only
            rw [Function.update_apply, he, ite_self]
          · by_contra hne
            obtain ⟨g, hg⟩ := Option.ne_none_iff_exists'.mp hne
            exact (hback _ _ hg).2 rfl
          · rw [hctx]
            exact hnone _ (Function.update_self _ _ _)
          · exact hgone y hy (hobj₁ ▸ hyrun)

lemma enginesKept_expireEngines (now : ℤ) (l : List (ℕ × ℤ)) : ∀ m : EngineManager,
    EnginesKept m (expireEngines now l m).2 := by
  induction l with
  | nil => exact fun m => ⟨fun _ => rfl, rfl, rfl, rfl⟩
  | cons e l ih =>
      intro m
      unfold EngineManager.expireEngines
      split
      · exact ⟨fun _ => rfl, rfl, rfl, rfl⟩
      · rename_i g _
        split
        · have h : EnginesKept m (m.setEngine g { m.obj g with status := .dead }) :=
            enginesKept_setEngine ⟨rfl, rfl, rfl⟩
          have h' := ih (m.setEngine g { m.obj g with status := .dead })
          exact ⟨fun x => (h'.engineId x).trans (h.engineId x), h'.next.trans h.next,
            h'.engines.trans h.engines, h'.contextMgr.trans h.contextMgr⟩
        · exact ih m

lemma enginesKept_heartbeat (engineId : ℕ) (info : EngineRuntimeInfo) (now : ℤ) :
    EnginesKept m (m.engineHeartbeat engineId info now).2 := by
  unfold EngineManager.engineHeartbeat
  split
  · exact ⟨fun _ => rfl, rfl, rfl, rfl⟩
  · rename_i g _
    have h : EnginesKept m (m.setEngine g ((m.obj g).updateRealtimeRuntimeInfo info)) :=
      enginesKept_setEngine ⟨rfl, rfl, rfl⟩
    exact ⟨h.engineId, h.next, h.engines, h.contextMgr⟩

end EngineManager

/-! ## The invariant -/

namespace ServeCore

open ContextSystem EngineManager

variable {s s' : ServeCore α}

/-- The contexts in the server of the engine that is registered under an id. -/
def registeredBackend (s : ServeCore α) (e : ℕ) : EngineContexts α :=
  match s.engineMgr.engines.get? e with
  | some g => s.backend g
  | none => fun _ => none

/-- The core, with its engines known by their ids. -/
def view (s : ServeCore α) : ContextSystem α where
  world := { mgr := s.contextMgr, backend := s.registeredBackend, orphaned := s.orphaned }
  task := s.task
  nextTask := s.nextTask
  bound := s.bound

/-- The engine a context lives on is registered. -/
def Home (s : ServeCore α) (r : ContextRef) : Prop :=
  s.engineMgr.engines.get? (s.contextMgr.obj r).engine = some (s.contextEngine r)

/-- Nobody refers to an engine that is not registered. -/
structure CoreInv (s : ServeCore α) : Prop where
  ids : Identified s.engineMgr
  system : SystemInv s.view
  /-- There is a prefix cache for each engine. -/
  caches : ∀ e ∈ s.engineMgr.engines.keys, (s.contextMgr.prefixCaches e).isSome = true
  home : ∀ r, s.contextMgr.Live r → s.Home r
  scheduled : ∀ task ∈ s.scheduled,
    task.engine ∈ s.engineMgr.engines.values ∧ ChainShape task.chain
  /-- The servers that tasks wait for answer. -/
  awaited : ∀ task ∈ s.scheduled, s.requestError task.engine = none
  /-- The servers with contexts answer. -/
  answers : ∀ r, s.contextMgr.Live r → s.requestError (s.contextEngine r) = none
  /-- The server of the next engine has no contexts. -/
  fresh : ∀ g, s.engineMgr.next ≤ g → s.requestError g = none ∧ s.backend g = fun _ => none

lemma registeredBackend_of_get? {e : ℕ} {g : EngineRef}
    (hget : s.engineMgr.engines.get? e = some g) : s.registeredBackend e = s.backend g := by
  rw [registeredBackend, hget]

lemma registeredBackend_of_none {e : ℕ} (hget : s.engineMgr.engines.get? e = none) :
    s.registeredBackend e = fun _ => none := by
  rw [registeredBackend, hget]

namespace CoreInv

lemma start (timeout : ℤ) : CoreInv (ServeCore.start timeout : ServeCore α) where
  ids := (identified_invariant (fun _ => .error .typeError) timeout).init _ rfl
  system := by
    have hview : (ServeCore.start timeout : ServeCore α).view = ContextSystem.start := rfl
    rw [hview]
    exact .start
  caches e he := by simp [ServeCore.start, EngineManager.start] at he
  home r hr := by
    simp [ServeCore.start, EngineManager.start, ServeCoreContextManager.Live,
      ServeCoreContextManager.empty] at hr
  scheduled task ht := by simp [ServeCore.start] at ht
  awaited _ _ := rfl
  answers _ _ := rfl
  fresh g _ := ⟨rfl, rfl⟩

/-- An engine without contexts has no contexts in its server either. -/
lemma backend_of_idle (h : CoreInv s) {e : ℕ}
    (hnone : ∀ r, s.contextMgr.Live r → (s.contextMgr.obj r).engine ≠ e) :
    s.registeredBackend e = fun _ => none := by
  funext id
  by_contra hne
  obtain ⟨c, hc⟩ := Option.ne_none_iff_exists'.mp hne
  obtain ⟨r, hr, hre, -⟩ := h.system.world.engines.known e id c hc
  exact hnone r (h.system.world.mgr.live_of_contexts hr) hre

/-! ### The registry -/

/-- Calls that keep the engines. -/
lemma kept (h : CoreInv s) {m : EngineManager} (hi : Identified m)
    (hk : EnginesKept s.engineMgr m) : CoreInv { s with engineMgr := m } := by
  have hview : view { s with engineMgr := m } = s.view := by
    have hb : registeredBackend { s with engineMgr := m } = s.registeredBackend := by
      funext e
      rw [registeredBackend, registeredBackend]
      dsimp only
      rw [hk.engines]
    rw [view, view, hb, contextMgr, hk.contextMgr]
  refine ⟨hi, hview ▸ h.system, ?_, ?_, ?_, h.awaited, ?_, ?_⟩
  · rw [contextMgr, hk.contextMgr, hk.engines]
    exact h.caches
  · intro r hr
    rw [contextMgr, hk.contextMgr] at hr
    rw [Home, contextMgr, hk.contextMgr, hk.engines]
    exact h.home r hr
  · rw [hk.engines]
    exact h.scheduled
  · rw [contextMgr, hk.contextMgr]
    exact h.answers
  · rw [hk.next]
    exact h.fresh

/-- An engine registers. -/
lemma added (h : CoreInv s) {m : EngineManager} {engineId : ℕ} (hi : Identified m)
    (ha : EngineAdded s.engineMgr engineId m) : CoreInv { s with engineMgr := m } := by
  have hgetnone := s.engineMgr.engines.get?_eq_none.mpr ha.new
  have hnone : ∀ r, s.contextMgr.Live r → (s.contextMgr.obj r).engine ≠ engineId := by
    intro r hr he
    have hhome := h.home r hr
    rw [Home, he, hgetnone] at hhome
    cases hhome
  have hold : ∀ e g, s.engineMgr.engines.get? e = some g → m.engines.get? e = some g := by
    intro e g hget
    rw [ha.engines, Dict.get?_set_ne _ _ fun he => ?_]
    · exact hget
    · rw [he, hgetnone] at hget
      cases hget
  have hview : view { s with engineMgr := m } = { s.view with world := { s.view.world with
      mgr := (s.contextMgr.dropCache engineId).registerEnginePrefixCache engineId } } := by
    have hmgr : (s.contextMgr.dropCache engineId).registerEnginePrefixCache engineId =
        s.contextMgr.registerEnginePrefixCache engineId := by
      rw [ServeCoreContextManager.registerEnginePrefixCache, ServeCoreContextManager.dropCache]
      dsimp only
      rw [Function.update_idem, ServeCoreContextManager.registerEnginePrefixCache]
    have hb : registeredBackend { s with engineMgr := m } = s.registeredBackend := by
      funext e
      by_cases he : e = engineId
      · rw [he, registeredBackend_of_none hgetnone, registeredBackend]
        dsimp only
        rw [ha.engines, Dict.get?_set_self]
        exact (h.fresh _ (Nat.le_refl _)).2
      · rw [registeredBackend, registeredBackend]
        dsimp only
        rw [ha.engines, Dict.get?_set_ne _ _ he]
    rw [view, hb, contextMgr, ha.contextMgr, hmgr]
    rfl
  refine ⟨hi, ?_, fun e he => ?_, fun r hr => ?_, fun task ht => ?_, h.awaited, fun r hr => ?_,
    fun g hg => ?_⟩
  · rw [hview]
    exact (h.system.dropCache hnone).registerEngine (Function.update_self _ _ _)
  · dsimp only at he
    rw [ha.engines, Dict.mem_keys_set] at he
    rw [contextMgr, ha.contextMgr, ServeCoreContextManager.registerEnginePrefixCache]
    dsimp only
    rw [Function.update_apply]
    split
    · rfl
    · rename_i hne
      exact h.caches e (he.resolve_left hne)
  · rw [contextMgr, ha.contextMgr] at hr
    rw [Home, contextMgr, ha.contextMgr]
    exact hold _ _ (h.home r hr)
  · obtain ⟨e, he⟩ := s.engineMgr.engines.mem_values.mp (h.scheduled task ht).1
    exact ⟨m.engines.mem_values.mpr ⟨e, hold e _ he⟩, (h.scheduled task ht).2⟩
  · rw [contextMgr, ha.contextMgr] at hr
    exact h.answers r hr
  · rw [ha.next] at hg
    exact h.fresh g (Nat.le_of_succ_le hg)

end CoreInv

/-- No task waits for contexts on the engine, and no context lives on it. -/
def Idle (s : ServeCore α) (g : EngineRef) : Prop :=
  (∀ task ∈ s.scheduled, task.engine ≠ g) ∧
    ∀ r ∈ List.range s.contextMgr.next, s.contextMgr.Live r → s.contextEngine r ≠ g

instance (s : ServeCore α) (g : EngineRef) : Decidable (s.Idle g) :=
  inferInstanceAs (Decidable ((∀ task ∈ s.scheduled, task.engine ≠ g) ∧
    ∀ r ∈ List.range s.contextMgr.next, s.contextMgr.Live r → s.contextEngine r ≠ g))

lemma Idle.contextEngine_ne (h : CoreInv s) {g : EngineRef} (hidle : s.Idle g) {r : ContextRef}
    (hr : s.contextMgr.Live r) : s.contextEngine r ≠ g :=
  hidle.2 r (List.mem_range.mpr (h.system.world.mgr.live_lt hr)) hr

namespace CoreInv

/-- An idle engine is removed. -/
lemma removed (h : CoreInv s) {m : EngineManager} {e : ℕ} {g : EngineRef}
    (hget : s.engineMgr.engines.get? e = some g) (hidle : s.Idle g)
    (hok : s.engineMgr.removeEngine e = (.ok (), m)) : CoreInv { s with engineMgr := m } := by
  obtain ⟨-, hnext, hengines, hctx⟩ := removeEngine_spec hget hok
  have hi : Identified m := by
    have := h.ids.removeEngine e
    rwa [hok] at this
  have hnone : ∀ r, s.contextMgr.Live r → (s.contextMgr.obj r).engine ≠ e := by
    intro r hr he
    have hhome := h.home r hr
    rw [Home, he, hget] at hhome
    exact hidle.contextEngine_ne h hr (Option.some.inj hhome).symm
  have hold : ∀ e' g', e' ≠ e → s.engineMgr.engines.get? e' = some g' →
      m.engines.get? e' = some g' := by
    intro e' g' he hget'
    rw [hengines, Dict.get?_erase_ne _ he]
    exact hget'
  have hview : view { s with engineMgr := m } = { s.view with world := { s.view.world with
      mgr := s.contextMgr.dropCache e } } := by
    have hb : registeredBackend { s with engineMgr := m } = s.registeredBackend := by
      funext e'
      by_cases he : e' = e
      · rw [he, h.backend_of_idle hnone, registeredBackend]
        dsimp only
        rw [hengines, Dict.get?_erase_self]
      · rw [registeredBackend, registeredBackend]
        dsimp only
        rw [hengines, Dict.get?_erase_ne _ he]
    rw [view, hb, contextMgr, hctx]
    rfl
  refine ⟨hi, ?_, fun e' he' => ?_, fun r hr => ?_, fun task ht => ?_, h.awaited, fun r hr => ?_,
    fun g' hg' => h.fresh g' (hnext ▸ hg')⟩
  · rw [hview]
    exact h.system.dropCache hnone
  · dsimp only at he'
    rw [hengines, Dict.mem_keys_erase] at he'
    rw [contextMgr, hctx, ServeCoreContextManager.dropCache]
    dsimp only
    rw [Function.update_of_ne he'.2]
    exact h.caches e' he'.1
  · rw [contextMgr, hctx] at hr
    rw [Home, contextMgr, hctx]
    exact hold _ _ (hnone r hr) (h.home r hr)
  · obtain ⟨hmem, hshape⟩ := h.scheduled task ht
    obtain ⟨e', he'⟩ := s.engineMgr.engines.mem_values.mp hmem
    refine ⟨m.engines.mem_values.mpr ⟨e', hold e' _ (fun he => ?_) he'⟩, hshape⟩
    rw [he, hget] at he'
    exact hidle.1 task ht (Option.some.inj he').symm
  · rw [contextMgr, hctx] at hr
    exact h.answers r hr

/-- A sweep of engines that are idle when they do not run. -/
lemma swept (l : List (ℕ × EngineRef)) : ∀ {s : ServeCore α} {m : EngineManager}, CoreInv s →
    (l.map Prod.fst).Nodup →
    (∀ x ∈ l, s.engineMgr.engines.get? x.1 = some x.2) →
    (∀ x ∈ l, (s.engineMgr.obj x.2).isRunning = false → s.Idle x.2) →
    sweepEngines l s.engineMgr = (.ok (), m) → CoreInv { s with engineMgr := m } := by
  induction l with
  | nil =>
      intro s m h _ _ _ hok
      cases hok
      exact h
  | cons x l ih =>
      intro s m h hnodup hfound hidle hok
      rw [List.map_cons, List.nodup_cons] at hnodup
      have hrest : ∀ y ∈ l, s.engineMgr.engines.get? y.1 = some y.2 := fun y hy =>
        hfound y (List.mem_cons_of_mem _ hy)
      unfold sweepEngines at hok
      split at hok
      · exact ih h hnodup.2 hrest (fun y hy => hidle y (List.mem_cons_of_mem _ hy)) hok
      · rename_i hrun
        split at hok
        · cases hok
        · rename_i m₁ hremove
          have hget := hfound x List.mem_cons_self
          obtain ⟨hobj, -, hengines, hctx⟩ := removeEngine_spec hget hremove
          have h₁ := h.removed hget (hidle x List.mem_cons_self (by simpa using hrun)) hremove
          refine ih (s := { s with engineMgr := m₁ }) h₁ hnodup.2 (fun y hy => ?_)
            (fun y hy hyrun => ?_) hok
          · dsimp only
            rw [hengines, Dict.get?_erase_ne _ fun hyx => ?_]
            · exact hrest y hy
            · exact hnodup.1 (List.mem_map.mpr ⟨y, hy, hyx⟩)
          · dsimp only at hyrun
            rw [hobj] at hyrun
            have hidle' := hidle y (List.mem_cons_of_mem _ hy) hyrun
            refine ⟨hidle'.1, ?_⟩
            rw [contextMgr, hctx]
            exact hidle'.2

end CoreInv

/-! ## Freeing, in the core and in its view -/

/-- The core after its context manager and its servers have done something. -/
def withWorld (s : ServeCore α) (w : ContextWorld α) (b : EngineRef → EngineContexts α) :
    ServeCore α :=
  { s with
    engineMgr := { s.engineMgr with contextMgr := w.mgr }
    backend := b
    orphaned := w.orphaned }

/-- `b` is what the engines of `w` are in the servers of the core, after contexts were freed. -/
structure Serves (s : ServeCore α) (w : ContextWorld α) (b : EngineRef → EngineContexts α) :
    Prop where
  registered : ∀ e g, s.engineMgr.engines.get? e = some g → b g = w.backend e
  unregistered : ∀ e, s.engineMgr.engines.get? e = none → w.backend e = fun _ => none
  others : ∀ g, g ∉ s.engineMgr.engines.values → b g = s.backend g
  frame : s.view.world.FreeFrame w

variable {w : ContextWorld α} {b : EngineRef → EngineContexts α}

lemma Serves.refl (s : ServeCore α) : s.Serves s.view.world s.backend :=
  ⟨fun _ _ hget => (registeredBackend_of_get? hget).symm, fun _ => registeredBackend_of_none,
    fun _ _ => rfl, .refl _⟩

lemma Serves.view (h : s.Serves w b) : (s.withWorld w b).view = { s.view with world := w } := by
  have hb : (s.withWorld w b).registeredBackend = w.backend := by
    funext e
    cases hget : s.engineMgr.engines.get? e with
    | none =>
        rw [h.unregistered e hget]
        exact registeredBackend_of_none (s := s.withWorld w b) hget
    | some g =>
        rw [← h.registered e g hget]
        exact registeredBackend_of_get? (s := s.withWorld w b) hget
  rw [ServeCore.view, hb]
  rfl

lemma Serves.trans {w' : ContextWorld α} {b' : EngineRef → EngineContexts α}
    (h : s.Serves w b) (h' : (s.withWorld w b).Serves w' b') : s.Serves w' b' where
  registered := h'.registered
  unregistered := h'.unregistered
  others g hg := (h'.others g hg).trans (h.others g hg)
  frame := h.frame.trans (by have := h'.frame; rwa [h.view] at this)

/-- The context is at home, and its engine answers. -/
def Reachable (s : ServeCore α) (r : ContextRef) : Prop :=
  s.Home r ∧ s.requestError (s.contextEngine r) = none

lemma Reachable.withWorld {r : ContextRef} (h : s.Reachable r) (hb : s.Serves w b) :
    (s.withWorld w b).Reachable r := by
  refine ⟨?_, h.2⟩
  have hhome := h.1
  rw [Home] at hhome ⊢
  change s.engineMgr.engines.get? (w.mgr.obj r).engine = _
  rw [hb.frame.obj]
  exact hhome

/-- `_free_context` of a context that is at home. -/
lemma freeContext_view (hi : Identified s.engineMgr) {r : ContextRef} (hr : s.Reachable r)
    (hok : s.view.world.freeContext r = .ok w) :
    ∃ b, s.freeContext r = .ok (s.withWorld w b) ∧ s.Serves w b := by
  obtain ⟨hhome, hanswers⟩ := hr
  set e := (s.contextMgr.obj r).engine with he
  set g := s.contextEngine r with hg
  have hback : s.registeredBackend e = s.backend g := registeredBackend_of_get? hhome
  obtain ⟨hrun, hother, hframe⟩ := ContextWorld.freeContext_backend
    (b := fun _ => s.backend g) hback.symm hok
  refine ⟨Function.update s.backend g (w.backend e), ?_, ⟨fun e' g' hget => ?_, fun e' hget => ?_,
    fun g' hg' => ?_, hframe⟩⟩
  · unfold freeContext
    dsimp only
    rw [← hg, hanswers, Option.filter_none]
    dsimp only
    have hrun' : ContextWorld.freeContext
        { mgr := s.contextMgr, backend := fun _ => s.backend g, orphaned := s.orphaned } r =
        .ok { w with backend := Function.update (fun _ => s.backend g) e (w.backend e) } := hrun
    rw [hrun']
    dsimp only
    rw [← he, Function.update_self]
    rfl
  · rw [Function.update_apply]
    split_ifs with hgg
    · have hget' : s.engineMgr.engines.get? e = some g' := by rw [hgg]; exact hhome
      rw [hi.get?_inj hget hget']
    · have hne : e' ≠ e := by
        rintro rfl
        exact hgg (Option.some.inj (hget.symm.trans hhome))
      rw [hother e' hne]
      exact (registeredBackend_of_get? hget).symm
  · have hne : e' ≠ e := by
      rintro rfl
      rw [show s.engineMgr.engines.get? e = some g from hhome] at hget
      cases hget
    rw [hother e' hne]
    exact registeredBackend_of_none hget
  · refine Function.update_of_ne (fun hgg => hg' ?_) _ _
    rw [hgg]
    exact s.engineMgr.engines.mem_values.mpr ⟨e, hhome⟩

/-- The loop of `free_task_contexts`. -/
lemma freeVisiting_view (rs : List ContextRef) : ∀ {s : ServeCore α} (visited : List ℕ),
    Identified s.engineMgr → (∀ r ∈ rs, s.Reachable r) →
    ContextWorld.freeVisiting rs visited s.view.world = .ok w →
    ∃ b, freeVisiting rs visited s = .ok (s.withWorld w b) ∧ s.Serves w b := by
  induction rs with
  | nil =>
      intro s visited _ _ hok
      obtain rfl := Except.ok.inj hok
      exact ⟨s.backend, rfl, .refl s⟩
  | cons r rs ih =>
      intro s visited hi hreach hok
      have hrest : ∀ x ∈ rs, s.Reachable x := fun x hx => hreach x (List.mem_cons_of_mem _ hx)
      unfold ContextWorld.freeVisiting at hok
      unfold freeVisiting
      dsimp only at hok ⊢
      by_cases hv : (s.contextMgr.obj r).contextId ∈ visited
      · rw [if_pos (by exact hv)] at hok
        rw [if_pos hv]
        exact ih visited hi hrest hok
      · rw [if_neg (by exact hv)] at hok
        rw [if_neg hv]
        split at hok
        · cases hok
        · rename_i w₁ hok₁
          obtain ⟨b₁, hfree, hb₁⟩ := freeContext_view hi (hreach r List.mem_cons_self) hok₁
          have hw₁ : (s.withWorld w₁ b₁).view.world = w₁ := by rw [hb₁.view]
          obtain ⟨b, hloop, hb⟩ := ih (s := s.withWorld w₁ b₁) _
            (hi.congr ⟨rfl, rfl, rfl, rfl⟩) (fun x hx => (hrest x hx).withWorld hb₁)
            (by rw [hw₁]; exact hok)
          refine ⟨b, ?_, hb₁.trans hb⟩
          rw [hfree]
          exact hloop

/-- The loop of `free_constant_prefix_contexts`. -/
lemma freeAll_view (rs : List ContextRef) : ∀ {s : ServeCore α},
    Identified s.engineMgr → (∀ r ∈ rs, s.Reachable r) →
    ContextWorld.freeAll rs s.view.world = .ok w →
    ∃ b, freeAll rs s = .ok (s.withWorld w b) ∧ s.Serves w b := by
  induction rs with
  | nil =>
      intro s _ _ hok
      obtain rfl := Except.ok.inj hok
      exact ⟨s.backend, rfl, .refl s⟩
  | cons r rs ih =>
      intro s hi hreach hok
      unfold ContextWorld.freeAll at hok
      unfold freeAll
      split at hok
      · cases hok
      · rename_i w₁ hok₁
        obtain ⟨b₁, hfree, hb₁⟩ := freeContext_view hi (hreach r List.mem_cons_self) hok₁
        have hw₁ : (s.withWorld w₁ b₁).view.world = w₁ := by rw [hb₁.view]
        obtain ⟨b, hloop, hb⟩ := ih (s := s.withWorld w₁ b₁) (hi.congr ⟨rfl, rfl, rfl, rfl⟩)
          (fun x hx => (hreach x (List.mem_cons_of_mem _ hx)).withWorld hb₁)
          (by rw [hw₁]; exact hok)
        refine ⟨b, ?_, hb₁.trans hb⟩
        rw [hfree]
        exact hloop

namespace CoreInv

lemma reachable (h : CoreInv s) {r : ContextRef} (hr : s.contextMgr.Live r) : s.Reachable r :=
  ⟨h.home r hr, h.answers r hr⟩

/-- The core after contexts were freed. -/
lemma freed (h : CoreInv s) {bound : List TaskRef} (hb : s.Serves w b)
    (hsys : SystemInv { s.view with world := w, bound }) :
    CoreInv { s.withWorld w b with bound } where
  ids := h.ids.congr ⟨rfl, rfl, rfl, rfl⟩
  system := by
    have hview : view { s.withWorld w b with bound } = { (s.withWorld w b).view with bound } := rfl
    rw [hview, hb.view]
    exact hsys
  caches e he := (hb.frame.caches e).trans (h.caches e he)
  home r hr := ((h.reachable (hb.frame.live r hr)).withWorld hb).1
  scheduled := h.scheduled
  awaited := h.awaited
  answers r hr := h.answers r (hb.frame.live r hr)
  fresh g hg := by
    refine ⟨(h.fresh g hg).1, (hb.others g fun hmem => ?_).trans (h.fresh g hg).2⟩
    obtain ⟨e, he⟩ := s.engineMgr.engines.mem_values.mp hmem
    exact Nat.not_lt.mpr hg (h.ids.lt_next e g he)

/-- `free_task_contexts`. -/
lemma freeTaskContexts (h : CoreInv s) {t : TaskRef} (ht : t ∈ s.bound) :
    ∃ s', s.freeTaskContexts t = .ok s' ∧ CoreInv s' := by
  obtain ⟨w, hok, -, hsys⟩ := h.system.freeTaskContexts (t := t) ht
  have hreach : ∀ r ∈ (s.task t).contexts.reverse, s.Reachable r := fun r hr =>
    h.reachable (h.system.live_of_mem (t := t) ht (List.mem_reverse.mp hr))
  obtain ⟨b, hloop, hb⟩ := freeVisiting_view _ [] h.ids hreach hok
  refine ⟨_, ?_, h.freed hb hsys⟩
  rw [ServeCore.freeTaskContexts, hloop]
  rfl

/-- `free_constant_prefix_contexts`, for a variable that has contexts. -/
lemma freeConstantPrefixContexts (h : CoreInv s) {v : VarId}
    (hv : (s.contextMgr.constantPrefixContexts.lookup v).isSome = true) :
    ∃ s', s.freeConstantPrefixContexts v = .ok s' ∧ CoreInv s' := by
  obtain ⟨rs, hrs⟩ := Option.isSome_iff_exists.mp hv
  obtain ⟨w', hok, -, -, -, -, hsys⟩ :=
    h.system.freeConstantPrefixContexts hrs
  have hmem : ∀ r ∈ rs, s.Reachable r := fun r hr => by
    refine h.reachable (h.system.world.mgr.entries_live r ?_).1
    exact (ServeCoreContextManager.filter_entry_perm h.system.keys hrs).symm.mem_iff.mp
      (List.mem_append_left _ hr)
  rw [ContextWorld.freeConstantPrefixContexts] at hok
  have hrs' : s.view.world.mgr.constantPrefixContexts.lookup v = some rs := hrs
  rw [hrs'] at hok
  dsimp only at hok
  split at hok
  · cases hok
  · rename_i w hall
    obtain rfl := Except.ok.inj hok
    obtain ⟨b, hloop, hb⟩ := freeAll_view rs h.ids hmem hall
    set w' : ContextWorld α := { w with mgr := { w.mgr with
      constantPrefixContexts :=
        w.mgr.constantPrefixContexts.filter fun en => decide (en.1 ≠ v) } }
    have hb' : s.Serves w' b :=
      ⟨hb.registered, hb.unregistered, hb.others, hb.frame.obj, hb.frame.caches, hb.frame.live⟩
    refine ⟨_, ?_, h.freed hb' hsys⟩
    rw [ServeCore.freeConstantPrefixContexts, hrs]
    dsimp only
    rw [hloop]
    rfl

/-- The error path of `execute`. -/
lemma fail (h : CoreInv s) {t : TaskRef} (ht : t ∈ s.bound) {r : ContextRef}
    (hr : r ∈ (s.task t).contexts) (e : PyError) : ∃ s', s.fail t r e = .ok s' ∧ CoreInv s' := by
  have hhome := (h.reachable (h.system.live_of_mem (t := t) ht hr)).1
  have hid : (s.engineMgr.obj (s.contextEngine r)).engineId = (s.contextMgr.obj r).engine :=
    h.ids.engineId _ _ hhome
  have hget : s.engineMgr.engines.get? (s.engineMgr.obj (s.contextEngine r)).engineId =
      some (s.contextEngine r) := by
    rw [hid]
    exact hhome
  have hsame : SameEngine (s.engineMgr.obj (s.contextEngine r))
      ((s.engineMgr.obj (s.contextEngine r)).markBad e) := ⟨rfl, rfl, rfl⟩
  have hbad := h.kept (h.ids.setEngine hsame) (enginesKept_setEngine hsame)
  rw [ServeCore.fail, raiseException, hget]
  exact hbad.freeTaskContexts ht

/-! ### Binding and primitives -/

/-- `set_task_contexts`, for a task whose engine was not swept. -/
lemma setTaskContexts (h : CoreInv s) {task : ScheduledTask} (ht : task ∈ s.scheduled)
    (hguard : s.contextMgr.BindGuard (s.engineMgr.obj task.engine).engineId task.chain
      task.fuseFill) : ∃ s', s.setTaskContexts task = .ok s' ∧ CoreInv s' := by
  obtain ⟨hmem, hshape⟩ := h.scheduled task ht
  obtain ⟨e, hget⟩ := s.engineMgr.engines.mem_values.mp hmem
  have hid : (s.engineMgr.obj task.engine).engineId = e := h.ids.engineId e _ hget
  rw [hid] at hguard
  have hreg := h.caches e (s.engineMgr.engines.mem_keys_of_get? hget)
  obtain ⟨cs, m', hok, hb, hsys⟩ := h.system.setTaskContexts (e := e) hreg hshape hguard
  have hengine : ∀ r ∈ cs, m'.Live r ∧ (m'.obj r).engine = e := hb.task.live
  -- an old context of the task is at home on the engine of the task
  have hold : ∀ r ∈ cs, r < s.contextMgr.next → s.contextEngine r = task.engine := by
    intro r hr hlt
    obtain ⟨hlive, he⟩ := hengine r hr
    have hhome := h.home r (hb.keeps.live r hlt hlive)
    rw [Home, ← show m'.obj r = s.contextMgr.obj r from hb.keeps.obj r hlt, he, hget] at hhome
    exact (Option.some.inj hhome).symm
  have hnew : s.newContextEngine task cs = task.engine := by
    rw [newContextEngine]
    split
    · rename_i r hlast
      obtain ⟨hr, hlt⟩ := List.mem_filter.mp (List.mem_of_getLast? hlast)
      exact hold r hr (of_decide_eq_true hlt)
    · rfl
  have hok' : s.contextMgr.setTaskContexts (s.engineMgr.obj task.engine).engineId task.chain
      task.fuseFill = .ok (cs, m') := by rw [hid]; exact hok
  rw [ServeCore.setTaskContexts]
  dsimp only
  rw [hok']
  refine ⟨_, rfl, h.ids.congr ⟨rfl, rfl, rfl, rfl⟩, ?_, fun e' he' => ?_, fun r hr => ?_,
    fun task' ht' => h.scheduled task' (List.mem_of_mem_erase ht'),
    fun task' ht' => h.awaited task' (List.mem_of_mem_erase ht'), fun r hr => ?_, h.fresh⟩
  · rw [hid]
    exact hsys
  · exact hb.keeps.registered e' (h.caches e' he')
  · rw [Home]
    dsimp only
    by_cases hlt : r < s.contextMgr.next
    · rw [if_pos hlt]
      have hhome := h.home r (hb.keeps.live r hlt hr)
      rwa [Home, ← show m'.obj r = s.contextMgr.obj r from hb.keeps.obj r hlt] at hhome
    · rw [if_neg hlt, hnew]
      have hmem' := hb.news r hr (Nat.le_of_not_lt hlt)
      show s.engineMgr.engines.get? (m'.obj r).engine = _
      rw [(hengine r hmem').2, hget]
  · dsimp only
    split
    · rename_i hlt
      exact h.answers r (hb.keeps.live r hlt hr)
    · rw [hnew]
      exact h.awaited task ht

/-- The contexts of one server changed. -/
lemma backend (h : CoreInv s) {r : ContextRef} (hr : s.contextMgr.Live r)
    {b : EngineContexts α}
    (hsys : SystemInv { s.view with world := { s.view.world with
      backend := Function.update s.view.world.backend (s.contextMgr.obj r).engine b } }) :
    CoreInv { s with backend := Function.update s.backend (s.contextEngine r) b } := by
  have hhome := h.home r hr
  have hview : view { s with backend := Function.update s.backend (s.contextEngine r) b } =
      { s.view with world := { s.view.world with
        backend := Function.update s.view.world.backend (s.contextMgr.obj r).engine b } } := by
    have hb : registeredBackend
        { s with backend := Function.update s.backend (s.contextEngine r) b } =
        Function.update s.registeredBackend (s.contextMgr.obj r).engine b := by
      funext e
      rw [Function.update_apply]
      split_ifs with he
      · rw [he, registeredBackend]
        dsimp only
        rw [hhome]
        exact Function.update_self _ _ _
      · rw [registeredBackend, registeredBackend]
        dsimp only
        split
        · rename_i g hget
          exact Function.update_of_ne (fun hg => he (h.ids.get?_inj (hg ▸ hget) hhome)) _ _
        · rfl
    rw [view, hb]
    rfl
  refine ⟨h.ids, hview ▸ hsys, h.caches, h.home, h.scheduled, h.awaited, h.answers,
    fun g hg => ?_⟩
  have hlt : s.contextEngine r < s.engineMgr.next := h.ids.lt_next _ _ hhome
  have hne : g ≠ s.contextEngine r := (hlt.trans_le hg).ne'
  exact ⟨(h.fresh g hg).1, (Function.update_of_ne hne _ _).trans (h.fresh g hg).2⟩

lemma bindJobContext (h : CoreInv s) {r : ContextRef} (hr : s.contextMgr.Live r) :
    CoreInv (s.bindJobContext r) := by
  obtain ⟨hhome, hanswers⟩ := h.reachable hr
  have hback : s.view.world.backend (s.contextMgr.obj r).engine = s.backend (s.contextEngine r) :=
    registeredBackend_of_get? hhome
  rw [ServeCore.bindJobContext, hanswers]
  dsimp only
  cases hbind : (s.backend (s.contextEngine r)).bindJobContext (s.contextMgr.obj r).contextId
      (parentContextId s.contextMgr r) with
  | error e => exact h
  | ok b =>
      refine h.backend hr (h.system.bindJobContext (r := r) hr ?_)
      rw [ContextSystem.bindJobContext]
      dsimp only
      rw [show s.view.world.mgr = s.contextMgr from rfl, hback, hbind]

lemma fill (h : CoreInv s) {r : ContextRef} (hr : s.contextMgr.Live r) (payload : List α) :
    CoreInv (s.fill r payload) := by
  obtain ⟨hhome, hanswers⟩ := h.reachable hr
  have hback : s.view.world.backend (s.contextMgr.obj r).engine = s.backend (s.contextEngine r) :=
    registeredBackend_of_get? hhome
  rw [ServeCore.fill, hanswers]
  refine h.backend hr ?_
  rw [← hback]
  exact h.system.fill r payload

end CoreInv

/-! ## Steps -/

/-- An engine is swept, and its server gone, only when the engine is idle, and no task is scheduled
to an engine whose server is gone.  The other conditions are not about failures: a task is bound
to contexts of its own variables, and a constant prefix that expires has contexts. -/
def FailureGuard (s : ServeCore α) : ServeCoreAction α → Prop
  | .engine .sweepNotRunningEngines =>
      ∀ g ∈ s.engineMgr.engines.values, (s.engineMgr.obj g).isRunning = false → s.Idle g
  | .disconnect g _ => s.Idle g
  | .schedule task => s.requestError task.engine = none
  | .setTaskContexts task => s.contextMgr.BindGuard (s.engineMgr.obj task.engine).engineId
      task.chain task.fuseFill
  | .freeConstantPrefixContexts v =>
      (s.contextMgr.constantPrefixContexts.lookup v).isSome = true
  | _ => True

instance (s : ServeCore α) : ∀ a, Decidable (s.FailureGuard a)
  | .engine .sweepNotRunningEngines => inferInstanceAs (Decidable
      (∀ g ∈ s.engineMgr.engines.values, (s.engineMgr.obj g).isRunning = false → s.Idle g))
  | .disconnect g _ => inferInstanceAs (Decidable (s.Idle g))
  | .schedule task => inferInstanceAs (Decidable (s.requestError task.engine = none))
  | .setTaskContexts _ => inferInstanceAs (Decidable (s.contextMgr.BindGuard _ _ _))
  | .freeConstantPrefixContexts _ => inferInstanceAs (Decidable (_ = true))
  | .engine (.registerEngine _ _) | .engine (.engineHeartbeat _ _ _)
  | .engine (.updateExpiredEngines _) | .engine (.raiseException _ _) | .bindJobContext _
  | .fill _ _ | .fail _ _ _ | .finish _ => inferInstanceAs (Decidable True)

variable {fromPretrained : Text → Except PyError HFTokenizer}

/-- The result of a call of the registry that does not end the process. -/
lemma engineCall_ok {a : EngineManager.Action} (hok : s.engineCall fromPretrained a = .ok s') :
    s' = { s with engineMgr := (perform fromPretrained s.engineMgr a).2 } ∧
      (inServeLoop a = true → (perform fromPretrained s.engineMgr a).1 = .ok ()) := by
  unfold engineCall at hok
  split at hok
  · rename_i e m heq
    split_ifs at hok with hloop
    obtain rfl := Except.ok.inj hok
    exact ⟨by rw [heq], fun h => absurd h hloop⟩
  · rename_i m heq
    obtain rfl := Except.ok.inj hok
    exact ⟨by rw [heq], fun _ => by rw [heq]⟩

namespace CoreInv

/-- Calls of the registry keep the invariant. -/
lemma engineCall (h : CoreInv s) {a : EngineManager.Action} (hen : s.Enabled (.engine a))
    (hg : s.FailureGuard (.engine a)) (hok : s.engineCall fromPretrained a = .ok s') :
    CoreInv s' := by
  obtain ⟨rfl, hloop⟩ := engineCall_ok hok
  have hi := h.ids.perform fromPretrained a
  cases a with
  | registerEngine config now =>
      have hm : (perform fromPretrained s.engineMgr (.registerEngine config now)).2 =
          (registerEngine fromPretrained s.engineMgr config now).2 := by
        rw [perform]
        split <;> rename_i heq <;> rw [heq]
      rw [hm] at hi ⊢
      rcases registerEngine_cases h.ids fromPretrained config now with hk | ⟨engineId, ha⟩
      · exact h.kept hi hk
      · exact h.added hi ha
  | engineHeartbeat engineId info now => exact h.kept hi (enginesKept_heartbeat engineId info now)
  | updateExpiredEngines now => exact h.kept hi (enginesKept_expireEngines now _ _)
  | sweepNotRunningEngines =>
      refine h.swept s.engineMgr.engines.entries s.engineMgr.engines.nodup
        (fun x hx => s.engineMgr.engines.mem_entries.mp hx) (fun x hx hrun => ?_)
        (Prod.ext (hloop rfl) rfl)
      exact hg x.2 (s.engineMgr.engines.mem_values.mpr
        ⟨x.1, s.engineMgr.engines.mem_entries.mp hx⟩) hrun
  | raiseException engineId e => exact hen.elim

/-- **Step lemma.**  A step that meets the condition keeps the invariant. -/
lemma step (h : CoreInv s) {a : ServeCoreAction α} (hen : s.Enabled a) (hg : s.FailureGuard a)
    (hok : s.apply fromPretrained a = .ok s') : CoreInv s' := by
  cases a with
  | engine a => exact h.engineCall hen hg hok
  | disconnect g e =>
      obtain rfl := Except.ok.inj hok
      refine ⟨h.ids, h.system, h.caches, h.home, h.scheduled, fun task ht => ?_, fun r hr => ?_,
        fun g' hg' => ?_⟩
      · exact (Function.update_of_ne (hg.1 task ht) _ _).trans (h.awaited task ht)
      · exact (Function.update_of_ne (hg.contextEngine_ne h hr) _ _).trans (h.answers r hr)
      · have hne : g' ≠ g := (Nat.lt_of_lt_of_le hen hg').ne'
        exact ⟨(Function.update_of_ne hne _ _).trans (h.fresh g' hg').1, (h.fresh g' hg').2⟩
  | schedule task =>
      obtain rfl := Except.ok.inj hok
      refine ⟨h.ids, h.system, h.caches, h.home, fun task' ht' => ?_, fun task' ht' => ?_,
        h.answers, h.fresh⟩
      · rcases List.mem_append.mp ht' with ht' | ht'
        · exact h.scheduled task' ht'
        · obtain rfl := List.mem_singleton.mp ht'
          exact ⟨(List.mem_filter.mp hen.1).1, hen.2⟩
      · rcases List.mem_append.mp ht' with ht' | ht'
        · exact h.awaited task' ht'
        · obtain rfl := List.mem_singleton.mp ht'
          exact hg
  | setTaskContexts task =>
      obtain ⟨s'', hok', h'⟩ := h.setTaskContexts hen hg
      exact Except.ok.inj (hok'.symm.trans hok) ▸ h'
  | bindJobContext r =>
      obtain ⟨t, ht, hr⟩ := hen
      exact Except.ok.inj hok ▸ h.bindJobContext (h.system.live_of_mem (t := t) ht hr)
  | fill r payload =>
      obtain ⟨t, ht, hr⟩ := hen
      exact Except.ok.inj hok ▸ h.fill (h.system.live_of_mem (t := t) ht hr) payload
  | fail t r e =>
      obtain ⟨s'', hok', h'⟩ := h.fail hen.1 hen.2 e
      exact Except.ok.inj (hok'.symm.trans hok) ▸ h'
  | finish t =>
      obtain ⟨s'', hok', h'⟩ := h.freeTaskContexts hen
      exact Except.ok.inj (hok'.symm.trans hok) ▸ h'
  | freeConstantPrefixContexts v =>
      obtain ⟨s'', hok', h'⟩ := h.freeConstantPrefixContexts hg
      exact Except.ok.inj (hok'.symm.trans hok) ▸ h'

/-- None of the four calls raises. -/
lemma callsManagers (h : CoreInv s) {a : ServeCoreAction α} (ha : a.callsManagers = true)
    (hen : s.Enabled a) (hg : s.FailureGuard a) : ∃ s', s.apply fromPretrained a = .ok s' := by
  cases a with
  | setTaskContexts task => exact (h.setTaskContexts hen hg).imp fun _ => And.left
  | fail t r e => exact (h.fail hen.1 hen.2 e).imp fun _ => And.left
  | finish t => exact (h.freeTaskContexts hen).imp fun _ => And.left
  | freeConstantPrefixContexts v => exact (h.freeConstantPrefixContexts hg).imp fun _ => And.left
  | engine _ | disconnect _ _ | schedule _ | bindJobContext _ | fill _ _ => cases ha

/-- Whoever is referenced is alive. -/
lemma live_of_referenced (h : CoreInv s) {r : ContextRef} (hr : s.Referenced r) :
    s.contextMgr.Live r := by
  rcases hr with hr | ⟨t, ht, hr⟩ | ⟨entry, hentry, hr⟩
  · exact hr
  · exact h.system.live_of_mem (t := t) ht hr
  · exact (h.system.world.mgr.entries_live r (List.mem_flatMap.mpr ⟨entry, hentry, hr⟩)).1

end CoreInv

/-- The invariant of every run whose steps meet the condition. -/
lemma core_invariant (fromPretrained : Text → Except PyError HFTokenizer) (timeout : ℤ) :
    (system fromPretrained timeout : TransitionSystem (ServeCore α) _).IsInvariantUnder
      FailureGuard CoreInv where
  init _ hs := hs ▸ .start timeout
  step _ _ _ h hg hst := h.step hst.1 hg hst.2

/-! ## Runs -/

/-- Nothing that an engine left behind is in the way: none of the four calls raises, and every
context that is referenced belongs to a registered engine. -/
def Unaffected (fromPretrained : Text → Except PyError HFTokenizer) (s : ServeCore α) : Prop :=
  (∀ a, a.callsManagers = true → s.Enabled a → s.FailureGuard a →
    ∃ s', s.apply fromPretrained a = .ok s') ∧
  ∀ r, s.Referenced r → s.contextEngine r ∈ s.engineMgr.engines.values

lemma CoreInv.unaffected (h : CoreInv s) : s.Unaffected fromPretrained :=
  ⟨fun _ => h.callsManagers, fun r hr =>
    s.engineMgr.engines.mem_values.mpr ⟨_, h.home r (h.live_of_referenced hr)⟩⟩

/-- A sweep that does not raise. -/
lemma sweeps_of_apply
    (hok : s.apply fromPretrained (.engine .sweepNotRunningEngines) = .ok s') :
    ∃ m, s' = { s with engineMgr := m } ∧ Sweeps s.engineMgr.engines.entries s.engineMgr m := by
  obtain ⟨hs', hloop⟩ := engineCall_ok hok
  refine ⟨_, hs', sweeps_of_ok _ s.engineMgr.engines.nodup
    (fun x hx => s.engineMgr.engines.mem_entries.mp hx) ?_⟩
  exact Prod.ext (hloop rfl) rfl

/-- Without a prefix cache nothing is wrong with what it has. -/
lemma bindGuard_of_none {m : ServeCoreContextManager} {e : ℕ} (hcache : m.prefixCaches e = none)
    (chain : List ChainNode) (fuseFill : Bool) : m.BindGuard e chain fuseFill := by
  have hzero : ∀ l, m.hitCount e [] l = 0 := by
    intro l
    cases l with
    | nil => rfl
    | cons v vs =>
        rw [ServeCoreContextManager.hitCount, ServeCoreContextManager.cached, hcache]
        rfl
  have hown : ∀ l, m.LongestOwn e l := by
    intro l hpos
    rw [hzero] at hpos
    exact absurd hpos (Nat.lt_irrefl 0)
  exact ⟨hown _, hown _, fun _ => .inl (hzero _)⟩

/-- A sweep of an engine that is not idle leaves something behind. -/
lemma CoreInv.idle_of_unaffected (h : CoreInv s)
    (hok : s.apply fromPretrained (.engine .sweepNotRunningEngines) = .ok s')
    (hun : s'.Unaffected fromPretrained) : s.FailureGuard (.engine .sweepNotRunningEngines) := by
  intro g hg hrun
  obtain ⟨m, rfl, hobj, hengines, ⟨caches, hctx, -⟩, hgone⟩ := sweeps_of_apply hok
  obtain ⟨e, hget⟩ := s.engineMgr.engines.mem_values.mp hg
  obtain ⟨hnone, hcache⟩ := hgone (e, g) (s.engineMgr.engines.mem_entries.mpr hget) hrun
  dsimp only at hnone hcache
  constructor
  · rintro task ht rfl
    -- the task that waits for contexts finds no prefix cache
    have hid : (m.obj task.engine).engineId = e := by
      rw [hobj]
      exact h.ids.engineId e _ hget
    rw [← hid] at hcache
    obtain ⟨s'', hok''⟩ := hun.1 (.setTaskContexts task) rfl ht (bindGuard_of_none hcache _ _)
    rw [apply, ServeCore.setTaskContexts] at hok''
    dsimp only [contextMgr] at hok''
    rw [ServeCoreContextManager.setTaskContexts, hcache] at hok''
    cases hok''
  · rintro r - hr rfl
    -- the context is still there
    have hlive : m.contextMgr.contexts (m.contextMgr.obj r).contextId = some r := by
      rw [hctx]
      exact hr
    obtain ⟨e', he'⟩ := m.engines.mem_values.mp (hun.2 r (.inl hlive))
    rw [h.ids.get?_inj (hengines e' _ he') hget, hnone] at he'
    cases he'

/-- **Engine failures.**  In every state of a run whose steps meet the condition, nothing that an
engine left behind is in the way; and after the next sweep nothing is exactly when the sweep meets
the condition, i.e. every engine it removes is idle. -/
theorem engine_failures (fromPretrained : Text → Except PyError HFTokenizer) (timeout : ℤ)
    (hs : (system fromPretrained timeout).ReachableUnder FailureGuard s) :
    s.Unaffected fromPretrained ∧
      ∀ s', s.apply fromPretrained (.engine .sweepNotRunningEngines) = .ok s' →
        (s'.Unaffected fromPretrained ↔ s.FailureGuard (.engine .sweepNotRunningEngines)) := by
  have h := (core_invariant fromPretrained timeout).holds hs
  exact ⟨h.unaffected, fun s' hok => ⟨h.idle_of_unaffected hok, fun hg =>
    (h.step (a := .engine .sweepNotRunningEngines) trivial hg hok).unaffected⟩⟩

/-- A task with one Fill, on the first engine. -/
def fillTask (c : Char) : ScheduledTask :=
  { engine := 0, chain := [{ varId := letter c }], fuseFill := false }

/-- An engine registers and gets two tasks, and the primitive of the first one fails. -/
def failedTask : List (ServeCoreAction Unit) :=
  [.engine (.registerEngine { model := ['a'], tokenizer := ['t'] } 0), .schedule (fillTask 'a'),
    .schedule (fillTask 'b'), .setTaskContexts (fillTask 'a'), .setTaskContexts (fillTask 'b'),
    .bindJobContext 0, .bindJobContext 1, .fail 0 0 .typeError]

/-- The second task finishes before the server of the engine is gone and the engine is swept. -/
theorem engine_failures_finished : ∃ s : ServeCore Unit,
    s.engineMgr.engines.keys = [] ∧ s.engineMgr.next = 1 ∧ s.requestError 0 = some .typeError ∧
      s.Unaffected charTokenizer := by
  have hrun : TransitionSystem.RunsTo Enabled FailureGuard (fun s a => s.apply charTokenizer a)
      (fun s : ServeCore Unit => s.engineMgr.engines.keys = [] ∧ s.engineMgr.next = 1 ∧
        s.requestError 0 = some .typeError) (start 3)
      (failedTask ++ [.finish 1, .disconnect 0 .typeError, .engine .sweepNotRunningEngines]) := by
    decide +kernel
  obtain ⟨s, hs, hkeys, hnext, herror⟩ := hrun.reachable _ (.init rfl)
  exact ⟨s, hkeys, hnext, herror, (engine_failures charTokenizer 3 hs).1⟩

/-- The engine is swept while the second task is bound to it: the failure of the task raises in
`raise_exception`, its end in `free_task_contexts`, and its context belongs to no engine. -/
theorem failure_of_swept_engine : ∃ s : ServeCore Unit,
    (system charTokenizer 3).Reachable s ∧ s.Enabled (.fail 1 1 .typeError) ∧
      (∃ e, s.apply charTokenizer (.fail 1 1 .typeError) = .error e) ∧ s.Enabled (.finish 1) ∧
      (∃ e, s.apply charTokenizer (.finish 1) = .error e) ∧
      s.Referenced 1 ∧ s.contextEngine 1 ∉ s.engineMgr.engines.values := by
  have hrun : TransitionSystem.RunsTo Enabled (fun _ _ => True)
      (fun s a => s.apply charTokenizer a) (fun s : ServeCore Unit =>
        s.Enabled (.fail 1 1 .typeError) ∧ s.Enabled (.finish 1) ∧
        (s.apply charTokenizer (.fail 1 1 .typeError)).isOk = false ∧
        (s.apply charTokenizer (.finish 1)).isOk = false ∧
        s.Referenced 1 ∧ s.contextEngine 1 ∉ s.engineMgr.engines.values) (start 3)
      (failedTask ++ [.engine .sweepNotRunningEngines]) := by
    decide +kernel
  have hraises : ∀ {x : Except PyError (ServeCore Unit)}, x.isOk = false → ∃ e, x = .error e := by
    intro x hx
    cases x with
    | error e => exact ⟨e, rfl⟩
    | ok s => cases hx
  obtain ⟨s, hs, hfail, hfinish, hfail', hfinish', href, hgone⟩ := hrun.reachable _ (.init rfl)
  exact ⟨s, hs, hfail, hraises hfail', hfinish, hraises hfinish', href, hgone⟩

end ServeCore
end ParrotServe
