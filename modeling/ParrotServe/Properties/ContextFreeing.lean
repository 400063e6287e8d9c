import ParrotServe.Properties.PrefixOperations

/-!
# Freeing contexts

`_free_context` reaches the engine, the prefix cache, the dictionaries and the id pool.  With the
manager `Sound` and the engines in step with it (`EnginesSound`: every context of an engine is a
live context of the manager, under the same parent), it never raises, and it drops a context only
when nothing holds it, hence never before its children.

`free_task_contexts` runs over the contexts of a task from the last to the first, skipping ids it
has met; `freeVisiting_ok` is its invariant, with the part of the task's branch that is left as
the references still held.
-/

namespace ParrotServe
namespace ContextWorld

open ServeCoreContextManager ContextSystem

variable {α : Type} {w w' : ContextWorld α} {held : List (List ContextRef)}
  {entries : List ContextRef}

/-! ## The engines behind the manager -/

/-- The context trees of the engines follow the manager. -/
structure EnginesSound (w : ContextWorld α) : Prop where
  known : ∀ e id c, w.backend e id = some c → ∃ r, w.mgr.contexts id = some r ∧
    (w.mgr.obj r).engine = e ∧ c.parentContextId = parentContextId w.mgr r
  parent : ∀ e id c p, w.backend e id = some c → c.parentContextId = some p →
    ∃ pc, w.backend e p = some pc ∧ id ∈ pc.subContextIds
  sub : ∀ e id c, w.backend e id = some c → c.subContextIds.Nodup ∧
    ∀ x ∈ c.subContextIds, ∃ c', w.backend e x = some c' ∧ c'.parentContextId = some id

/-- The manager, its engines and the history. -/
structure Sound (w : ContextWorld α) (held : List (List ContextRef))
    (entries : List ContextRef) : Prop where
  mgr : w.mgr.Sound held entries
  engines : w.EnginesSound
  orphaned : w.orphaned = []

/-- What freeing contexts leaves alone. -/
structure Frees (w w' : ContextWorld α) : Prop where
  keeps : w.mgr.Keeps w'.mgr
  next : w'.mgr.next = w.mgr.next
  constants : w'.mgr.constantPrefixContexts = w.mgr.constantPrefixContexts
  received : ∀ r, w'.mgr.Live r → w'.received r = w.received r
  allOwn : w.mgr.AllOwn → w'.mgr.AllOwn
  caches : ∀ e, (w'.mgr.prefixCaches e).isSome = (w.mgr.prefixCaches e).isSome
  obj : w'.mgr.obj = w.mgr.obj

lemma Frees.refl (w : ContextWorld α) : w.Frees w :=
  ⟨.refl _, rfl, rfl, fun _ _ => rfl, id, fun _ => rfl, rfl⟩

lemma Frees.trans {w'' : ContextWorld α} (h : w.Frees w') (h' : w'.Frees w'')
    (hs : w''.mgr.Sound held entries) : w.Frees w'' where
  keeps := h.keeps.trans h'.keeps
  next := h'.next.trans h.next
  constants := h'.constants.trans h.constants
  received r hr := by
    have hlt : r < w'.mgr.next := h'.next ▸ hs.live_lt hr
    rw [h'.received r hr, h.received r (h'.keeps.live r hlt hr)]
  allOwn ho := h'.allOwn (h.allOwn ho)
  caches e := (h'.caches e).trans (h.caches e)
  obj := h'.obj.trans h.obj

/-! ## The engine's `free_context` -/

/-- A context without children is no parent on an engine either. -/
lemma EnginesSound.not_parent (h : w.EnginesSound) (hs : w.mgr.Sound held entries) {r : ContextRef}
    (hr : w.mgr.Live r) (hchild : ∀ c, w.mgr.Live c → (w.mgr.obj c).parentContext ≠ some r)
    {e id : ℕ} {c : EngineContext α} (hc : w.backend e id = some c) :
    c.parentContextId ≠ some (w.mgr.obj r).contextId := by
  intro hp
  obtain ⟨y, hy, -, hyp⟩ := h.known e id c hc
  rw [hp, parentContextId] at hyp
  obtain ⟨q, hq, hqid⟩ := Option.map_eq_some_iff.mp hyp.symm
  have hyl := hs.live_of_contexts hy
  obtain rfl := hs.eq_of_id (hs.parent_live hyl hq) hr hqid
  exact hchild y hyl hq

/-- Destroying a leaf of an engine's tree. -/
lemma EnginesSound.freeContext (h : w.EnginesSound) (hs : w.mgr.Sound held entries)
    {r : ContextRef} (hr : w.mgr.Live r)
    (hchild : ∀ c, w.mgr.Live c → (w.mgr.obj c).parentContext ≠ some r) :
    ∃ b, (w.backend (w.mgr.obj r).engine).freeContext (w.mgr.obj r).contextId = .ok b ∧
      b (w.mgr.obj r).contextId = none ∧
      ∀ x, x ≠ (w.mgr.obj r).contextId →
        (b x = w.backend (w.mgr.obj r).engine x ∧
          ∀ c, w.backend (w.mgr.obj r).engine (w.mgr.obj r).contextId = some c →
            c.parentContextId ≠ some x) ∨
        ∃ pc, w.backend (w.mgr.obj r).engine x = some pc ∧
          parentContextId w.mgr r = some x ∧
          b x = some { pc with
            subContextIds := pc.subContextIds.erase (w.mgr.obj r).contextId } := by
  set e := (w.mgr.obj r).engine
  set id := (w.mgr.obj r).contextId with hid
  cases hc : w.backend e id with
  | none =>
      refine ⟨w.backend e, ?_, hc, fun x _ => .inl ⟨rfl, fun c hc' => by simp at hc'⟩⟩
      rw [EngineContexts.freeContext, hc]
  | some c =>
      obtain ⟨r', hr', -, hparent⟩ := h.known e id c hc
      obtain rfl : r = r' := Option.some.inj (hr.symm.trans hr')
      -- a sub-context would be a live child
      have hsub : c.subContextIds = [] := by
        refine List.eq_nil_iff_forall_not_mem.mpr fun x hx => ?_
        obtain ⟨c', hc', hp'⟩ := (h.sub e id c hc).2 x hx
        exact h.not_parent hs hr hchild hc' hp'
      rw [EngineContexts.freeContext, hc]
      cases hp : c.parentContextId with
      | none =>
          refine ⟨Function.update (w.backend e) id none, ?_, Function.update_self _ _ _,
            fun x hx => .inl ⟨Function.update_of_ne hx _ _, fun c' hc' => ?_⟩⟩
          rotate_left
          · obtain rfl := Option.some.inj hc'
            rw [hp]
            simp
          dsimp only
          rw [hp, EngineContexts.leaveParent]
          dsimp only
          rw [hsub]
      | some p =>
          obtain ⟨pc, hpc, hmem⟩ := h.parent e id c p hc hp
          have hne : p ≠ id := by
            intro he
            rw [hp, parentContextId] at hparent
            obtain ⟨q, hq, hqid⟩ := Option.map_eq_some_iff.mp hparent.symm
            rw [he, hc, Option.some.injEq] at hpc
            rw [← hpc, hsub] at hmem
            simp at hmem
          have hleave : EngineContexts.leaveParent (Function.update (w.backend e) id none) id
              (some p) = .ok (Function.update (Function.update (w.backend e) id none) p
                (some { pc with subContextIds := pc.subContextIds.erase id })) := by
            rw [EngineContexts.leaveParent, Function.update_of_ne hne, hpc]
            exact if_pos hmem
          refine ⟨_, by dsimp only; rw [hp, hleave]; dsimp only; rw [hsub], ?_, fun x hx => ?_⟩
          · rw [Function.update_of_ne hne.symm, Function.update_self]
          · by_cases hxp : x = p
            · refine .inr ⟨pc, hxp ▸ hpc, by rw [hxp, ← hparent, hp], ?_⟩
              rw [hxp, Function.update_self]
            · rw [Function.update_of_ne hxp, Function.update_of_ne hx]
              refine .inl ⟨rfl, fun c' hc' hp' => hxp ?_⟩
              obtain rfl := Option.some.inj hc'
              exact (Option.some.inj (hp.symm.trans hp')).symm

/-! ## `_free_context` -/

/-- Removing a live context from its cache. -/
lemma removeContextId_ok (hs : w.mgr.Sound held entries) {r : ContextRef} {c : PrefixCache}
    (hc : w.mgr.prefixCaches (w.mgr.obj r).engine = some c) :
    ∃ c', c.removeContextId (w.mgr.obj r).contextId = .ok c' ∧
      (∀ h, c'.prefixCtxMap h =
        if c.prefixCtxMapReversed (w.mgr.obj r).contextId = some h then none
        else c.prefixCtxMap h) ∧
      ∀ id, c'.prefixCtxMapReversed id =
        if id = (w.mgr.obj r).contextId then none else c.prefixCtxMapReversed id := by
  cases hrev : c.prefixCtxMapReversed (w.mgr.obj r).contextId with
  | none =>
      refine ⟨c, by rw [PrefixCache.removeContextId, hrev], by simp, fun id => ?_⟩
      split_ifs with hid
      · rw [hid, hrev]
      · rfl
  | some h =>
      have hown : w.mgr.reversed (w.mgr.obj r).engine (w.mgr.obj r).contextId = some h := by
        rw [ServeCoreContextManager.reversed, hc]
        exact hrev
      obtain ⟨-, l, -, -, -, rfl, hmap, -⟩ := hs.caches.own _ _ _ hown
      rw [ServeCoreContextManager.cached, hc] at hmap
      have hmap' : c.prefixCtxMap (hashPrefix l) = some (w.mgr.obj r).contextId := hmap
      refine ⟨_, by rw [PrefixCache.removeContextId, hrev]; dsimp only; rw [hmap'], fun h => ?_,
        fun id => ?_⟩
      · dsimp only
        simp only [Function.update_apply, Option.some.injEq, eq_comm]
      · dsimp only
        rw [Function.update_apply]

/-- The manager when the last reference to a context is gone. -/
lemma dropped_of_removed {m : ServeCoreContextManager} (hs : m.Sound held entries)
    {r : ContextRef} {c c' : PrefixCache} {n : ℤ}
    (hc : m.prefixCaches (m.obj r).engine = some c)
    (hmap : ∀ h, c'.prefixCtxMap h =
      if c.prefixCtxMapReversed (m.obj r).contextId = some h then none else c.prefixCtxMap h)
    (hrev : ∀ id, c'.prefixCtxMapReversed id =
      if id = (m.obj r).contextId then none else c.prefixCtxMapReversed id)
    (howns : (m.contextIdPool.free (m.obj r).contextId).2.Owns
      ({id | (m.contexts id).isSome = true} \ {(m.obj r).contextId})) (hn : n - 1 = 0) :
    m.Dropped r { m with
      contextRefCounter := Function.update m.contextRefCounter (m.obj r).contextId (some (n - 1))
      prefixCaches := Function.update m.prefixCaches (m.obj r).engine (some c')
      contexts := Function.update m.contexts (m.obj r).contextId none
      contextIdPool := (m.contextIdPool.free (m.obj r).contextId).2 } where
  obj := rfl
  next := rfl
  constants := rfl
  contexts := rfl
  counter id hid := Function.update_of_ne hid _ _
  counter_self := by
    dsimp only
    rw [Function.update_self, hn]
  pool := howns
  unbounded := (RecyclePool.free_poolSize _ _).trans hs.unbounded
  registered e := by
    dsimp only
    rw [Function.update_apply]
    split_ifs with he
    · rw [he, hc]
      rfl
    · rfl
  entry e c₁ h id hc₁ hh := by
    dsimp only at hc₁
    rw [Function.update_apply] at hc₁
    split_ifs at hc₁ with he
    · obtain rfl := Option.some.inj hc₁
      rw [hmap] at hh
      split_ifs at hh
      exact ⟨c, he ▸ hc, hh⟩
    · exact ⟨c₁, hc₁, hh⟩
  cached e l := by
    rw [ServeCoreContextManager.cached]
    dsimp only
    rw [Function.update_apply]
    by_cases he : e = (m.obj r).engine
    · have hkey : m.Key r l ↔
          c.prefixCtxMapReversed (m.obj r).contextId = some (hashPrefix l) := by
        rw [Key, ServeCoreContextManager.reversed, hc]
        exact Iff.rfl
      rw [if_pos he, ServeCoreContextManager.cached, he, hc]
      show c'.prefixCtxMap _ = if _ then _ else c.prefixCtxMap _
      rw [hmap]
      simp [hkey]
    · rw [if_neg he, if_neg fun h => he h.1]
      rfl
  reversed e id := by
    rw [ServeCoreContextManager.reversed]
    dsimp only
    rw [Function.update_apply]
    by_cases he : e = (m.obj r).engine
    · rw [if_pos he, ServeCoreContextManager.reversed, he, hc]
      show c'.prefixCtxMapReversed _ = if _ then _ else c.prefixCtxMapReversed _
      rw [hrev]
      simp
    · rw [if_neg he, if_neg fun h => he h.1]
      rfl

/-- The engines after a leaf was destroyed on one of them. -/
lemma EnginesSound.dropped (h : w.EnginesSound) (hs : w.mgr.Sound held entries) {r : ContextRef}
    (hr : w.mgr.Live r) (hchild : ∀ c, w.mgr.Live c → (w.mgr.obj c).parentContext ≠ some r)
    (hd : w.mgr.Dropped r w'.mgr) {b : EngineContexts α}
    (hself : b (w.mgr.obj r).contextId = none)
    (hother : ∀ x, x ≠ (w.mgr.obj r).contextId →
      (b x = w.backend (w.mgr.obj r).engine x ∧
        ∀ c, w.backend (w.mgr.obj r).engine (w.mgr.obj r).contextId = some c →
          c.parentContextId ≠ some x) ∨
      ∃ pc, w.backend (w.mgr.obj r).engine x = some pc ∧ parentContextId w.mgr r = some x ∧
        b x = some { pc with
          subContextIds := pc.subContextIds.erase (w.mgr.obj r).contextId })
    (hb : w'.backend = Function.update w.backend (w.mgr.obj r).engine b) : w'.EnginesSound := by
  set er := (w.mgr.obj r).engine with her
  set idr := (w.mgr.obj r).contextId with hidr
  have hparents : parentContextId w'.mgr = parentContextId w.mgr := by
    funext x
    rw [parentContextId, parentContextId, hd.obj]
  -- a context that is left, before and after
  have hback : ∀ e x c, w'.backend e x = some c → ¬ (e = er ∧ x = idr) ∧
      ∃ c₀, w.backend e x = some c₀ ∧ c.parentContextId = c₀.parentContextId ∧
        ((c.subContextIds = c₀.subContextIds ∧ (e = er → ∀ cr, w.backend er idr = some cr →
            cr.parentContextId ≠ some x)) ∨
          (e = er ∧ c.subContextIds = c₀.subContextIds.erase idr)) := by
    intro e x c hc
    rw [hb, Function.update_apply] at hc
    split_ifs at hc with he
    · have hx : x ≠ idr := by
        rintro rfl
        rw [hself] at hc
        simp at hc
      refine ⟨fun h => hx h.2, ?_⟩
      rcases hother x hx with ⟨heq, hno⟩ | ⟨pc, hpc, -, heq⟩
      · exact ⟨c, by rw [he, ← heq, hc], rfl, .inl ⟨rfl, fun _ => hno⟩⟩
      · obtain rfl := Option.some.inj (heq.symm.trans hc)
        exact ⟨pc, he ▸ hpc, rfl, .inr ⟨he, rfl⟩⟩
    · exact ⟨fun h => he h.1, c, hc, rfl, .inl ⟨rfl, fun h => absurd h he⟩⟩
  have hforth : ∀ e x c₀, w.backend e x = some c₀ → ¬ (e = er ∧ x = idr) →
      ∃ c, w'.backend e x = some c ∧ c.parentContextId = c₀.parentContextId ∧
        ∀ y, y ∈ c₀.subContextIds → ¬ (e = er ∧ y = idr) → y ∈ c.subContextIds := by
    intro e x c₀ hc₀ hno
    rw [hb, Function.update_apply]
    split_ifs with he
    · have hx : x ≠ idr := fun hx => hno ⟨he, hx⟩
      rw [he] at hc₀
      rcases hother x hx with ⟨heq, -⟩ | ⟨pc, hpc, -, heq⟩
      · exact ⟨c₀, heq.trans hc₀, rfl, fun y hy _ => hy⟩
      · obtain rfl := Option.some.inj (hpc.symm.trans hc₀)
        exact ⟨_, heq, rfl, fun y hy hne => (List.mem_erase_of_ne fun h => hne ⟨he, h⟩).mpr hy⟩
    · exact ⟨c₀, hc₀, rfl, fun y hy _ => hy⟩
  refine ⟨fun e x c hc => ?_, fun e x c p hc hp => ?_, fun e x c hc => ?_⟩
  · obtain ⟨hno, c₀, hc₀, hp, -⟩ := hback e x c hc
    obtain ⟨y, hy, hye, hyp⟩ := h.known e x c₀ hc₀
    refine ⟨y, ?_, by rw [hd.obj, hye], by rw [hp, hyp, hparents]⟩
    rw [hd.contexts, Function.update_of_ne]
    · exact hy
    · intro hx
      obtain rfl : r = y := Option.some.inj (hr.symm.trans (hx ▸ hy))
      exact hno ⟨hye.symm, hx⟩
  · obtain ⟨hno, c₀, hc₀, hcp, -⟩ := hback e x c hc
    obtain ⟨pc, hpc, hmem⟩ := h.parent e x c₀ p hc₀ (hcp ▸ hp)
    have hne : ¬ (e = er ∧ p = idr) := by
      rintro ⟨-, rfl⟩
      exact h.not_parent hs hr hchild hc₀ (hcp ▸ hp)
    obtain ⟨pc', hpc', -, hsub⟩ := hforth e p pc hpc hne
    exact ⟨pc', hpc', hsub x hmem hno⟩
  · obtain ⟨hno, c₀, hc₀, -, hsub⟩ := hback e x c hc
    obtain ⟨hnodup, hall⟩ := h.sub e x c₀ hc₀
    have hmem : ∀ y ∈ c.subContextIds, y ∈ c₀.subContextIds ∧ ¬ (e = er ∧ y = idr) := by
      intro y hy
      rcases hsub with ⟨heq, hnot⟩ | ⟨-, heq⟩
      · rw [heq] at hy
        refine ⟨hy, ?_⟩
        rintro ⟨rfl, rfl⟩
        obtain ⟨c', hc', hp'⟩ := hall _ hy
        exact hnot rfl c' hc' hp'
      · rw [heq] at hy
        exact ⟨List.mem_of_mem_erase hy, fun hye =>
          (hnodup.mem_erase_iff.mp hy).1 hye.2⟩
    refine ⟨?_, fun y hy => ?_⟩
    · rcases hsub with ⟨heq, -⟩ | ⟨-, heq⟩
      · exact heq ▸ hnodup
      · exact heq ▸ hnodup.erase _
    · obtain ⟨c', hc', hp'⟩ := hall y (hmem y hy).1
      obtain ⟨c'', hc'', hp'', -⟩ := hforth e y c' hc' (hmem y hy).2
      exact ⟨c'', hc'', hp''.trans hp'⟩

/-- `_free_context` gives back one reference. -/
lemma Sound.freeContext {held' : List (List ContextRef)} {entries' : List ContextRef}
    {r : ContextRef} (h : w.Sound held entries) (hr : w.mgr.Live r)
    (ht : w.mgr.Taken held entries r held' entries') :
    ∃ w', w.freeContext r = .ok w' ∧ w'.Sound held' entries' ∧ w.Frees w' := by
  obtain ⟨n, hn, hpos, -, -⟩ := h.mgr.counter r hr
  rw [ContextWorld.freeContext, hn]
  by_cases hlast : 0 < n - 1
  · refine ⟨_, if_pos hlast, ⟨h.mgr.release hr hn hlast ht,
      ⟨h.engines.known, h.engines.parent, h.engines.sub⟩, h.orphaned⟩, ?_⟩
    exact ⟨⟨Nat.le_refl _, fun _ _ => rfl, fun _ _ h => h, fun _ _ _ _ => Iff.rfl, fun _ h => h⟩,
      rfl, rfl, fun _ _ => rfl, id, fun _ => rfl, rfl⟩
  · obtain ⟨hzero, hchild⟩ := h.mgr.childless_of_last hr hn hlast ht
    obtain ⟨b, hb, hbid, hbother⟩ := h.engines.freeContext h.mgr hr hchild
    obtain ⟨c, hc⟩ := Option.isSome_iff_exists.mp (h.mgr.registered r hr)
    obtain ⟨c', hc', hmap, hrev⟩ := removeContextId_ok h.mgr hc
    have hidlive : (w.mgr.obj r).contextId ∈ {id | (w.mgr.contexts id).isSome = true} := by
      rw [Set.mem_ofPred_eq, show w.mgr.contexts (w.mgr.obj r).contextId = some r from hr]
      rfl
    obtain ⟨hfree, -, howns⟩ := h.mgr.pool.free_ok hidlive
    have hpool : w.mgr.contextIdPool.free (w.mgr.obj r).contextId =
        (.ok (), (w.mgr.contextIdPool.free (w.mgr.obj r).contextId).2) := Prod.ext hfree rfl
    have hnochild : hasChild { w.mgr with contextRefCounter := (Function.update
        w.mgr.contextRefCounter (w.mgr.obj r).contextId (some (n - 1))) } r = false := by
      refine Bool.eq_false_iff.mpr fun hc => ?_
      obtain ⟨x, -, hx⟩ := List.any_eq_true.mp hc
      rw [Bool.and_eq_true, decide_eq_true_eq, decide_eq_true_eq] at hx
      exact hchild x hx.1 hx.2
    set w₁ : ContextWorld α := {
      mgr := { w.mgr with
        contextRefCounter := Function.update w.mgr.contextRefCounter (w.mgr.obj r).contextId
          (some (n - 1))
        prefixCaches := Function.update w.mgr.prefixCaches (w.mgr.obj r).engine (some c')
        contexts := Function.update w.mgr.contexts (w.mgr.obj r).contextId none
        contextIdPool := (w.mgr.contextIdPool.free (w.mgr.obj r).contextId).2 }
      backend := Function.update w.backend (w.mgr.obj r).engine b
      orphaned := w.orphaned } with hw₁
    have hd : w.mgr.Dropped r w₁.mgr :=
      dropped_of_removed h.mgr hc hmap hrev howns (by omega)
    have hlive := hd.live_iff h.mgr hr
    refine ⟨w₁, ?_, ⟨h.mgr.dropped hr ht hzero hchild hd, ?_, h.orphaned⟩, hd.keeps h.mgr hr,
      rfl, rfl, fun x hx => ?_, fun ho => ho.dropped hd, hd.registered, rfl⟩
    · dsimp only
      rw [if_neg hlast, dropContext]
      dsimp only
      rw [hb]
      dsimp only
      rw [hc]
      dsimp only
      rw [hc']
      dsimp only
      rw [show w.mgr.contexts (w.mgr.obj r).contextId = some r from hr]
      dsimp only
      rw [hpool]
      dsimp only
      rw [hnochild]
      rfl
    · exact h.engines.dropped h.mgr hr hchild hd hbid hbother rfl
    · obtain ⟨hxl, hxr⟩ := (hlive x).mp hx
      have hbackend : w₁.backend = Function.update w.backend (w.mgr.obj r).engine b := rfl
      rw [received, received, hd.obj, hbackend, Function.update_apply]
      by_cases he : (w.mgr.obj x).engine = (w.mgr.obj r).engine
      · have hid : (w.mgr.obj x).contextId ≠ (w.mgr.obj r).contextId := fun hid =>
          hxr (h.mgr.eq_of_id hxl hr hid)
        rw [if_pos he, he]
        rcases hbother _ hid with ⟨heq, -⟩ | ⟨pc, hpc, -, heq⟩
        · rw [heq]
        · rw [heq, hpc]
          rfl
      · rw [if_neg he]

/-! ## The loops -/

/-- A branch without the repetitions of its last context is a shorter branch. -/
lemma branch_filter_last {m : ServeCoreContextManager} (hs : m.Sound held entries)
    {rs : List ContextRef} {r : ContextRef} (hb : m.Branch (r :: rs).reverse)
    (hlive : ∀ x ∈ (r :: rs), m.Live x) : m.Branch (rs.filter fun x => decide (x ≠ r)).reverse := by
  have hsorted := hs.branch_le hb fun x hx => hlive x (List.mem_reverse.mp hx)
  rw [List.pairwise_reverse] at hsorted
  obtain ⟨hle, hrest⟩ := List.pairwise_cons.mp hsorted
  -- the repetitions of the youngest context come first in the reversed list
  have hsuffix : ∀ {l : List ContextRef}, l.Pairwise (fun a b => b ≤ a) → (∀ x ∈ l, x ≤ r) →
      (l.filter fun x => decide (x ≠ r)) <:+ l := by
    intro l
    induction l with
    | nil => exact fun _ _ => List.suffix_refl _
    | cons a l ih =>
        intro hp hle'
        obtain ⟨hal, hl⟩ := List.pairwise_cons.mp hp
        by_cases har : a = r
        · rw [List.filter_cons_of_neg (by simpa using har)]
          exact (ih hl fun x hx => hle' x (List.mem_cons_of_mem _ hx)).trans
            (List.suffix_cons a l)
        · have hself : (a :: l).filter (fun x => decide (x ≠ r)) = a :: l := by
            refine List.filter_eq_self.mpr fun x hx => decide_eq_true ?_
            rintro rfl
            rcases List.mem_cons.mp hx with rfl | hx
            · exact har rfl
            · exact har (Nat.le_antisymm (hle' a List.mem_cons_self) (hal _ hx))
          rw [hself]
  refine hb.of_prefix (List.reverse_prefix.mpr ?_)
  exact (hsuffix hrest hle).trans (List.suffix_cons r rs)

/-- The loop of `free_task_contexts`: what is left of the task's branch is still held. -/
lemma freeVisiting_ok (rs : List ContextRef) : ∀ (w : ContextWorld α) (visited : List ℕ),
    w.Sound ((rs.filter fun x => decide ((w.mgr.obj x).contextId ∉ visited)).reverse :: held)
        entries →
      ∃ w', freeVisiting rs visited w = .ok w' ∧ w'.Sound held entries ∧ w.Frees w' := by
  induction rs with
  | nil =>
      intro w visited h
      refine ⟨w, rfl, ⟨?_, h.engines, h.orphaned⟩, .refl w⟩
      have hcount : ∀ r, holders ([] :: held) entries r = holders held entries r := fun r => by
        simp [holders_cons]
      have hs := h.mgr
      simp only [List.filter_nil, List.reverse_nil] at hs
      exact { hs with
        held_live := fun cs hcs => hs.held_live cs (List.mem_cons_of_mem _ hcs)
        held_branch := fun cs hcs => hs.held_branch cs (List.mem_cons_of_mem _ hcs)
        counter := fun r hr => by
          rw [← hcount]
          exact hs.counter r hr }
  | cons r rs ih =>
      intro w visited h
      by_cases hv : (w.mgr.obj r).contextId ∈ visited
      · rw [List.filter_cons_of_neg (by simpa using hv)] at h
        obtain ⟨w', hok, hs', hfrees⟩ := ih w visited h
        exact ⟨w', by rw [freeVisiting, if_pos hv, hok], hs', hfrees⟩
      · rw [List.filter_cons_of_pos (by simpa using hv)] at h
        set rest := rs.filter fun x => decide ((w.mgr.obj x).contextId ∉ visited) with hrest
        have hlive : ∀ x ∈ r :: rest, w.mgr.Live x := fun x hx =>
          h.mgr.held_live _ List.mem_cons_self x (List.mem_reverse.mpr hx)
        have hr := hlive r List.mem_cons_self
        have hbranch := branch_filter_last h.mgr (h.mgr.held_branch _ List.mem_cons_self) hlive
        have ht : w.mgr.Taken ((r :: rest).reverse :: held) entries r
            ((rest.filter fun x => decide (x ≠ r)).reverse :: held) entries := by
          refine ⟨?_, ?_, h.mgr.entries_live, fun x => ?_⟩
          · rw [List.forall_mem_cons]
            refine ⟨fun x hx => ?_, fun cs hcs => h.mgr.held_live cs (List.mem_cons_of_mem _ hcs)⟩
            rw [List.mem_reverse, List.mem_filter] at hx
            exact hlive x (List.mem_cons_of_mem _ hx.1)
          · exact List.forall_mem_cons.mpr
              ⟨hbranch, fun cs hcs => h.mgr.held_branch cs (List.mem_cons_of_mem _ hcs)⟩
          · rw [holders_cons, holders_cons]
            by_cases hxr : x = r <;> simp [hxr]
        obtain ⟨w₁, hok₁, hs₁, hfrees₁⟩ := h.freeContext hr ht
        have hfilter : (rs.filter fun x => decide ((w₁.mgr.obj x).contextId ∉
            (w.mgr.obj r).contextId :: visited)) = rest.filter fun x => decide (x ≠ r) := by
          rw [hrest, List.filter_filter, hfrees₁.obj]
          refine List.filter_congr fun x hx => ?_
          by_cases hxv : (w.mgr.obj x).contextId ∈ visited
          · simp [hxv]
          · have hxl := hlive x (List.mem_cons_of_mem _
              (List.mem_filter.mpr ⟨hx, decide_eq_true hxv⟩))
            have hiff : (w.mgr.obj x).contextId = (w.mgr.obj r).contextId ↔ x = r :=
              ⟨h.mgr.eq_of_id hxl hr, fun he => he ▸ rfl⟩
            simp [hxv, hiff]
        obtain ⟨w', hok', hs', hfrees'⟩ :=
          ih w₁ ((w.mgr.obj r).contextId :: visited) (hfilter ▸ hs₁)
        refine ⟨w', ?_, hs', hfrees₁.trans hfrees' hs'.mgr⟩
        rw [freeVisiting, if_neg hv, hok₁]
        exact hok'

/-- `free_task_contexts` never raises, and gives back one reference to each of the contexts. -/
lemma Sound.freeTaskContexts {cs : List ContextRef} (h : w.Sound (cs :: held) entries) :
    ∃ w', w.freeTaskContexts cs = .ok w' ∧ w'.Sound held entries ∧ w.Frees w' := by
  refine freeVisiting_ok cs.reverse w [] ?_
  simpa using h

/-- The loop of `free_constant_prefix_contexts`. -/
lemma freeAll_ok (rs : List ContextRef) : ∀ {w : ContextWorld α}, w.Sound held (rs ++ entries) →
    ∃ w', freeAll rs w = .ok w' ∧ w'.Sound held entries ∧ w.Frees w' := by
  induction rs with
  | nil => exact fun h => ⟨_, rfl, h, .refl _⟩
  | cons r rs ih =>
      intro w h
      have hr := (h.mgr.entries_live r (by simp)).1
      have ht : w.mgr.Taken held (r :: rs ++ entries) r held (rs ++ entries) := by
        refine ⟨h.mgr.held_live, h.mgr.held_branch,
          fun x hx => h.mgr.entries_live x (List.mem_cons_of_mem _ hx), fun x => ?_⟩
        rw [List.cons_append, holders_entry]
        simp only [eq_comm]
      obtain ⟨w₁, hok₁, hs₁, hfrees₁⟩ := h.freeContext hr ht
      obtain ⟨w', hok', hs', hfrees'⟩ := ih hs₁
      refine ⟨w', ?_, hs', hfrees₁.trans hfrees' hs'.mgr⟩
      rw [freeAll, hok₁]
      exact hok'

end ContextWorld
end ParrotServe
