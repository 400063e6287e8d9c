import ParrotServe.Properties.ReferenceCounts

/-!
# The prefix caches are closed under prefixes

`set_task_contexts` stops looking in the cache at the first prefix it misses and asserts that none
of the longer ones is cached; `_free_context` destroys a context on its engine without asking for
its children.  Both rely on what `PrefixClosed` states: the cached hashes are closed under
prefixes, their contexts form the tree of these prefixes, and parents outlive their children.

`prefix_closed` is the result for all runs of tasks without `fuse_fill`, with its consequence that
no operation of such a run raises.
-/

namespace ParrotServe
namespace ContextSystem

open ServeCoreContextManager TransitionSystem

variable {α : Type} {s : ContextSystem α}

/-- The task does not fuse its Fills. -/
def NoFuseFill (_ : ContextSystem α) : ContextAction α → Prop
  | .setTaskContexts _ _ fuseFill => fuseFill = false
  | _ => True

instance (s : ContextSystem α) : ∀ a, Decidable (s.NoFuseFill a)
  | .setTaskContexts _ _ fuseFill => inferInstanceAs (Decidable (fuseFill = false))
  | .registerEngine _ | .freeTaskContexts _ | .freeConstantPrefixContexts _ | .bindJobContext _
  | .fill _ _ => inferInstanceAs (Decidable True)

lemma NoFuseFill.unfused {a : ContextAction α} (h : s.NoFuseFill a) : s.Unfused a := by
  cases a with
  | setTaskContexts e chain fuseFill =>
      obtain rfl : fuseFill = false := h
      exact fun hf => Bool.false_ne_true hf.1
  | _ => trivial

/-- The prefix caches and the contexts they point to. -/
structure PrefixClosed (s : ContextSystem α) : Prop where
  /-- The two maps are inverse to each other. -/
  inverse : ∀ e c, s.world.mgr.prefixCaches e = some c → ∀ h id,
    c.prefixCtxMap h = some id ↔ c.prefixCtxMapReversed id = some h
  /-- The keys are hashes of node lists, the values contexts of this engine. -/
  known : ∀ e c h id, s.world.mgr.prefixCaches e = some c → c.prefixCtxMap h = some id →
    (∃ l, l ≠ [] ∧ h = hashPrefix l) ∧
      ∃ r, s.world.mgr.contexts id = some r ∧ (s.world.mgr.obj r).engine = e
  /-- Every prefix of a cached node list is cached. -/
  closed : ∀ e c l l', s.world.mgr.prefixCaches e = some c →
    (c.prefixCtxMap (hashPrefix l)).isSome = true → l' ≠ [] → l' <+: l →
      (c.prefixCtxMap (hashPrefix l')).isSome = true
  /-- The context of a prefix is the parent of the context of the next one. -/
  parent : ∀ e c l v id, s.world.mgr.prefixCaches e = some c → l ≠ [] →
    c.prefixCtxMap (hashPrefix (l ++ [v])) = some id →
      ∃ r p, s.world.mgr.contexts id = some r ∧ (s.world.mgr.obj r).parentContext = some p ∧
        c.prefixCtxMap (hashPrefix l) = some (s.world.mgr.obj p).contextId ∧
        s.world.mgr.contexts (s.world.mgr.obj p).contextId = some p
  /-- No context was freed before a context that has it as parent. -/
  outlived : s.world.orphaned = []

/-- In a forest without stale entries the context of a longer prefix is a child. -/
lemma parent_of_allOwn {m : ServeCoreContextManager} {held : List (List ContextRef)}
    {entries : List ContextRef} (hs : m.Sound held entries) (hown : m.AllOwn) {e : ℕ}
    {l : List VarId} {v : VarId} {id : ℕ} (hl : l ≠ [])
    (hc : m.cached e (l ++ [v]) = some id) :
    ∃ r p, m.contexts id = some r ∧ (m.obj r).parentContext = some p ∧
      m.cached e l = some (m.obj p).contextId ∧ m.Live p := by
  obtain ⟨r, hr, he, hid, hk⟩ := hs.own_cached (hown e _ id hc)
  have hplaced := (hs.key_spec hr hk).2.2
  rw [Placed] at hplaced
  cases hp : (m.obj r).parentContext with
  | none =>
      rw [hp] at hplaced
      have hprefix := hown _ _ _ (hplaced l hl (List.prefix_append _ _))
      have := congrArg List.length (hk.unique hprefix)
      simp at this
  | some p =>
      rw [hp] at hplaced
      obtain ⟨l', v', heq, -, hpl, hpe, hpk⟩ := hplaced
      obtain ⟨rfl, -⟩ := List.append_inj' heq rfl
      refine ⟨r, p, hid ▸ hr, hp, ?_, hpl⟩
      rw [← he, ← hpe, (hs.key_spec hpl hpk).2.1]

/-- **The prefix caches stay closed under prefixes, and parents outlive their children.**  This
holds in every state of every run whose tasks do not fuse their Fills; and no operation of such a
run raises, except for a constant prefix without contexts. -/
theorem prefix_closed
    (hs : (system : TransitionSystem (ContextSystem α) (ContextAction α)).ReachableUnder
      NoFuseFill s) :
    s.PrefixClosed ∧ ∀ a, s.Enabled a → s.NoFuseFill a → (∃ s', s.apply a = .ok s') ∨
      ∃ v, a = .freeConstantPrefixContexts v ∧
        s.world.mgr.constantPrefixContexts.lookup v = none := by
  obtain ⟨hinv, hown⟩ := unfused_invariant.holds (hs.mono fun _ _ h => h.unfused)
  have hm := hinv.world.mgr
  have hcached : ∀ {e c}, s.world.mgr.prefixCaches e = some c → ∀ l,
      s.world.mgr.cached e l = c.prefixCtxMap (hashPrefix l) := fun hc l => by
    rw [ServeCoreContextManager.cached, hc]
    rfl
  have hreversed : ∀ {e c}, s.world.mgr.prefixCaches e = some c → ∀ id,
      s.world.mgr.reversed e id = c.prefixCtxMapReversed id := fun hc id => by
    rw [ServeCoreContextManager.reversed, hc]
    rfl
  refine ⟨⟨fun e c hc h id => ⟨fun hh => ?_, fun hrev => ?_⟩, fun e c h id hc hh => ?_,
    fun e c l l' hc hh hne hp => ?_, fun e c l v id hc hne hh => ?_, hinv.world.orphaned⟩,
    fun a hen hno => ?_⟩
  · obtain ⟨l, -, rfl⟩ := hm.caches.entry e c h id hc hh
    rw [← hreversed hc]
    exact hown e l id ((hcached hc l).trans hh)
  · obtain ⟨r, l, -, -, -, rfl, hl, -⟩ := hm.caches.own e id h ((hreversed hc id).trans hrev)
    rw [← hcached hc, hl]
  · obtain ⟨l, hl, rfl⟩ := hm.caches.entry e c h id hc hh
    obtain ⟨r, l', hr, he, -⟩ := hm.caches.own e id _ (hown e l id ((hcached hc l).trans hh))
    exact ⟨⟨l, hl, rfl⟩, r, hr, he⟩
  · obtain ⟨id, hid⟩ := Option.isSome_iff_exists.mp hh
    obtain ⟨id', hid'⟩ := hm.cached_prefix ((hcached hc l).trans hid) hne hp
    rw [← hcached hc, hid']
    rfl
  · obtain ⟨r, p, hr, hp, hl, hpl⟩ := parent_of_allOwn hm hown hne ((hcached hc _).trans hh)
    exact ⟨r, p, hr, hp, (hcached hc l) ▸ hl, hpl⟩
  · rcases hinv.apply hen (guarded_of_unfused hown hno.unfused) with ⟨s', hok, -⟩ | hmissing
    · exact .inl ⟨s', hok⟩
    · exact .inr hmissing

/-- Two tasks share a constant prefix and the first of them is gone. -/
theorem prefix_closed_shared : ∃ s : ContextSystem Unit, s.bound = [1] ∧
    s.world.mgr.contexts 0 = some 0 ∧ s.PrefixClosed := by
  have hrun : RunsTo Enabled NoFuseFill apply (fun s : ContextSystem Unit =>
      s.bound = [1] ∧ s.world.mgr.contexts 0 = some 0) start
      [.registerEngine 0, .setTaskContexts 0 (sharedChain true (letter 'x')) false,
        .bindJobContext 0, .bindJobContext 1,
        .setTaskContexts 0 (sharedChain true (letter 'y')) false, .freeTaskContexts 0] := by
    decide +kernel
  obtain ⟨s, hs, hbound, hleft⟩ := hrun.reachable _ (.init rfl)
  exact ⟨s, hbound, hleft, (prefix_closed hs).1⟩

end ContextSystem
end ParrotServe
