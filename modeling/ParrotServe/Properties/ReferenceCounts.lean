import ParrotServe.Properties.ContextRuns

/-!
# Reference counts

`set_task_contexts` takes a reference for every node on a cache hit and for every context it
makes, and one more for a constant prefix; `free_task_contexts` gives back one for every distinct
context.  The books balance as long as no context serves two nodes of a task: `counters_exact` is
the result for all runs that fuse no Fill into the context of another node.

With a fused context they do not.  A second task that hits it once for each of its nodes takes as
many references and gives back one (`counters_fused`), so the context is never freed; and when it
is freed, only the hash it was cached for last goes with it.
-/

namespace ParrotServe
namespace ContextSystem

open ServeCoreContextManager TransitionSystem

variable {α : Type} {s : ContextSystem α}

/-- The tasks not freed yet that mention a context, and its entries under constant prefixes. -/
def references (s : ContextSystem α) (r : ContextRef) : ℕ :=
  (s.bound.countP fun t => decide (r ∈ (s.task t).contexts)) +
    s.world.mgr.constantEntries.count r

/-- No context and no cached prefix is left. -/
def Drained (m : ServeCoreContextManager) : Prop :=
  (∀ id, m.contexts id = none) ∧ ∀ e c, m.prefixCaches e = some c →
    (∀ h, c.prefixCtxMap h = none) ∧ ∀ id, c.prefixCtxMapReversed id = none

/-- The counters are the numbers of references, and nothing is left when there are none. -/
def CountersExact (s : ContextSystem α) : Prop :=
  (∀ id r, s.world.mgr.contexts id = some r →
    s.world.mgr.contextRefCounter id = some (s.references r : ℤ)) ∧
  (s.bound = [] → s.world.mgr.constantPrefixContexts = [] → Drained s.world.mgr)

lemma holders_held (r : ContextRef) :
    holders s.held s.world.mgr.constantEntries r = s.references r := by
  rw [holders, held, List.countP_map, references]
  rfl

/-- A fused context leaves entries that are no keys. -/
lemma not_fused_of_allOwn {m : ServeCoreContextManager} {held : List (List ContextRef)}
    {entries : List ContextRef} (hs : m.Sound held entries) (hown : m.AllOwn) {r : ContextRef}
    (hr : m.Live r) : ¬ m.Fused r := by
  rintro ⟨hp, l, hlen, hk⟩
  have hplaced := (hs.key_spec hr hk).2.2
  rw [Placed, hp] at hplaced
  have hone : (l.take 1).length = 1 := by
    rw [List.length_take]
    omega
  have hc := hplaced (l.take 1) (List.ne_nil_of_length_pos (by omega)) (List.take_prefix 1 l)
  have heq := hk.unique (hown _ _ _ hc)
  rw [← heq] at hone
  omega

/-- When nothing holds a context, and every entry is a key, nothing is left. -/
lemma drained_of_unheld {m : ServeCoreContextManager} (hs : m.Sound [] []) (hown : m.AllOwn) :
    Drained m := by
  have hnone : ∀ id, m.contexts id = none := by
    intro id
    cases hid : m.contexts id with
    | none => rfl
    | some r =>
        have hr := hs.live_of_contexts hid
        obtain ⟨n, -, hpos, -, heq⟩ := hs.counter r hr
        have := heq.resolve_right (not_fused_of_allOwn hs hown hr)
        simp [holders] at this
        omega
  have hrev : ∀ e id, m.reversed e id = none := by
    intro e id
    cases h : m.reversed e id with
    | none => rfl
    | some h' =>
        obtain ⟨r, -, hr, -⟩ := hs.caches.own e id h' h
        rw [hnone] at hr
        simp at hr
  refine ⟨hnone, fun e c hc => ⟨fun h => ?_, fun id => ?_⟩⟩
  · cases hh : c.prefixCtxMap h with
    | none => rfl
    | some id =>
        obtain ⟨l, -, rfl⟩ := hs.caches.entry e c h id hc hh
        have := hown e l id (by rw [ServeCoreContextManager.cached, hc]; exact hh)
        rw [hrev] at this
        simp at this
  · have := hrev e id
    rw [ServeCoreContextManager.reversed, hc] at this
    exact this

/-- **Reference counts are exact.**  In every run whose calls of `set_task_contexts` fuse no Fill
into the context of another node, in every state the counter of a context is the number of
unfreed tasks that mention it and of its constant-prefix entries; once there are none, no context
and no cached prefix is left. -/
theorem counters_exact
    (hs : (system : TransitionSystem (ContextSystem α) (ContextAction α)).ReachableUnder
      Unfused s) : s.CountersExact := by
  obtain ⟨hinv, hown⟩ := unfused_invariant.holds hs
  have hm := hinv.world.mgr
  refine ⟨fun id r hr => ?_, fun hbound hconst => ?_⟩
  · have hlive := hm.live_of_contexts hr
    obtain ⟨n, hn, -, -, heq⟩ := hm.counter r hlive
    rw [hm.id_eq id r hr] at hn
    rw [hn, heq.resolve_right (not_fused_of_allOwn hm hown hlive), holders_held]
  · have hheld : s.held = [] := by
      rw [held, hbound]
      rfl
    have hentries : s.world.mgr.constantEntries = [] := by
      rw [constantEntries, hconst]
      rfl
    rw [hheld, hentries] at hm
    exact drained_of_unheld hm hown

/-! ## Runs -/

/-- A variable with a one-letter id. -/
def letter (c : Char) : VarId :=
  if h : '{' ∉ [c] ∧ '}' ∉ [c] then ⟨[c], h⟩ else ⟨[], by decide⟩

/-- The chain of the Fills `a` (a constant prefix, if so marked) and `b` and the Gen `g`. -/
def sharedChain (isConstantPrefix : Bool) (g : VarId) : List ChainNode :=
  [{ varId := letter 'a', isConstantPrefix }, { varId := letter 'b' },
    { varId := g, isGen := true }]

/-- Two tasks that share their Fills under a constant prefix: three references to the root. -/
theorem counters_exact_shared : ∃ s : ContextSystem Unit, s.bound = [1, 0] ∧
    s.world.mgr.contextRefCounter 0 = some 3 ∧ s.CountersExact := by
  have hrun : RunsTo Enabled Unfused apply (fun s : ContextSystem Unit =>
      s.bound = [1, 0] ∧ s.world.mgr.contextRefCounter 0 = some 3) start
      [.registerEngine 0, .setTaskContexts 0 (sharedChain true (letter 'x')) false,
        .setTaskContexts 0 (sharedChain true (letter 'y')) false] := by
    decide +kernel
  obtain ⟨s, hs, hbound, hcount⟩ := hrun.reachable _ (.init rfl)
  exact ⟨s, hbound, hcount, counters_exact hs⟩

/-- Two tasks that fuse the same Fills: when both are freed, their context is left. -/
theorem counters_fused : ¬ ∀ s : ContextSystem Unit, system.Reachable s → s.CountersExact := by
  intro h
  have hrun : RunsTo Enabled (fun _ _ => True) apply (fun s : ContextSystem Unit =>
      s.bound = [] ∧ s.world.mgr.constantPrefixContexts = [] ∧ s.world.mgr.contexts 0 = some 0)
      start
      [.registerEngine 0, .setTaskContexts 0 (sharedChain false (letter 'x')) true,
        .setTaskContexts 0 (sharedChain false (letter 'y')) true, .freeTaskContexts 0,
        .freeTaskContexts 1] := by
    decide +kernel
  obtain ⟨s, hs, hbound, hconst, hleft⟩ := hrun.reachable _ (.init rfl)
  rw [((h s hs).2 hbound hconst).1 0] at hleft
  simp at hleft

end ContextSystem
end ParrotServe
