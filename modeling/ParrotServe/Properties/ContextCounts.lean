import ParrotServe.Properties.PrefixOperations

/-!
# Counting references, whatever the caches say

The prefix caches can go wrong: a hash may outlive its context and hit another one that got the
same id.  The reference counters do not depend on them.  `Counted` is what is left of `Sound`
without the caches and the shape of the forest: every context that a task or a constant prefix
holds is the one its id stands for, and its counter is at least the number of those that hold it.

The statements are about operations that return: a failing one ends the run.
-/

namespace ParrotServe
namespace ServeCoreContextManager

variable {m m' m'' : ServeCoreContextManager} {held held' : List (List ContextRef)}
  {entries entries' : List ContextRef} {e : ℕ}

/-! ## The invariant -/

/-- Ids stand for one context, and counters cover the references. -/
structure Counted (m : ServeCoreContextManager) (held : List (List ContextRef))
    (entries : List ContextRef) : Prop where
  pool : m.contextIdPool.Owns {id | (m.contexts id).isSome = true}
  id_eq : ∀ id r, m.contexts id = some r → (m.obj r).contextId = id
  lt_next : ∀ id r, m.contexts id = some r → r < m.next
  held_live : ∀ cs ∈ held, ∀ r ∈ cs, m.Live r
  entries_live : ∀ r ∈ entries, m.Live r
  counter : ∀ r, m.Live r → ∃ n : ℤ, m.contextRefCounter (m.obj r).contextId = some n ∧ 0 < n ∧
    (holders held entries r : ℤ) ≤ n
  dead : ∀ id, m.contexts id = none →
    m.contextRefCounter id = none ∨ m.contextRefCounter id = some 0

/-- Contexts are created and dropped, and never come back. -/
structure Ages (m m' : ServeCoreContextManager) : Prop where
  next_le : m.next ≤ m'.next
  obj : ∀ r, r < m.next → m'.obj r = m.obj r
  live : ∀ r, r < m.next → m'.Live r → m.Live r

lemma Ages.refl (m : ServeCoreContextManager) : m.Ages m :=
  ⟨Nat.le_refl _, fun _ _ => rfl, fun _ _ h => h⟩

lemma Ages.trans (h : m.Ages m') (h' : m'.Ages m'') : m.Ages m'' where
  next_le := Nat.le_trans h.next_le h'.next_le
  obj r hr := (h'.obj r (Nat.lt_of_lt_of_le hr h.next_le)).trans (h.obj r hr)
  live r hr hl := h.live r hr (h'.live r (Nat.lt_of_lt_of_le hr h.next_le) hl)

namespace Counted

lemma live_of_contexts (h : m.Counted held entries) {id : ℕ} {r : ContextRef}
    (hr : m.contexts id = some r) : m.Live r := by
  rw [Live, h.id_eq id r hr]
  exact hr

lemma live_lt (h : m.Counted held entries) {r : ContextRef} (hr : m.Live r) : r < m.next :=
  h.lt_next _ r hr

lemma eq_of_id (_h : m.Counted held entries) {r r' : ContextRef} (hr : m.Live r)
    (hr' : m.Live r') (hid : (m.obj r).contextId = (m.obj r').contextId) : r = r' := by
  rw [Live, hid] at hr
  exact Option.some.inj (hr.symm.trans hr')

/-- Fewer references. -/
lemma mono (h : m.Counted held entries) (hheld : ∀ cs ∈ held', ∀ r ∈ cs, m.Live r)
    (hentries : ∀ r ∈ entries', m.Live r)
    (hcount : ∀ r, holders held' entries' r ≤ holders held entries r) :
    m.Counted held' entries' :=
  { h with
    held_live := hheld
    entries_live := hentries
    counter := fun r hr => by
      obtain ⟨n, hn, hpos, hle⟩ := h.counter r hr
      have := hcount r
      exact ⟨n, hn, hpos, by omega⟩ }

/-- The same references in another order. -/
lemma perm (h : m.Counted held entries) (hh : held'.Perm held) (he : entries'.Perm entries) :
    m.Counted held' entries' :=
  h.mono (fun cs hcs => h.held_live cs (hh.mem_iff.mp hcs))
    (fun r hr => h.entries_live r (he.mem_iff.mp hr)) fun r => by
      rw [holders, holders, hh.countP_eq, he.count_eq]

/-- Only ids, contexts and counters matter. -/
lemma congr (h : m.Counted held entries) (hobj : m'.obj = m.obj) (hnext : m'.next = m.next)
    (hctx : m'.contexts = m.contexts) (hcount : m'.contextRefCounter = m.contextRefCounter)
    (hpool : m'.contextIdPool = m.contextIdPool) : m'.Counted held entries := by
  have hlive : ∀ r, m'.Live r ↔ m.Live r := fun r => by
    rw [Live, Live, hobj, hctx]
  refine ⟨by rw [hpool, hctx]; exact h.pool, by rw [hobj, hctx]; exact h.id_eq,
    by rw [hctx, hnext]; exact h.lt_next,
    fun cs hcs r hr => (hlive r).mpr (h.held_live cs hcs r hr),
    fun r hr => (hlive r).mpr (h.entries_live r hr), fun r hr => ?_, by
      rw [hctx, hcount]; exact h.dead⟩
  rw [hobj, hcount]
  exact h.counter r ((hlive r).mp hr)

/-- `_add_ref_counter`. -/
lemma addRefCounter (h : m.Counted held entries) {r : ContextRef} (hr : m.Live r)
    (hheld : ∀ cs ∈ held', ∀ x ∈ cs, m.Live x) (hentries : ∀ x ∈ entries', m.Live x)
    (hcount : ∀ x, holders held' entries' x ≤ holders held entries x + if x = r then 1 else 0) :
    (m.addRefCounter r).Counted held' entries' where
  pool := h.pool
  id_eq := h.id_eq
  lt_next := h.lt_next
  held_live := hheld
  entries_live := hentries
  counter x hx := by
    obtain ⟨n, hn, hpos, hle⟩ := h.counter x hx
    have := hcount x
    change ∃ n, Function.update m.contextRefCounter _ _ (m.obj x).contextId = some n ∧ _
    by_cases hxr : x = r
    · rw [if_pos hxr] at this
      refine ⟨n + 1, ?_, by omega, by omega⟩
      rw [hxr] at hn ⊢
      rw [Function.update_self, hn]
      rfl
    · rw [if_neg hxr] at this
      refine ⟨n, ?_, hpos, by omega⟩
      rw [Function.update_of_ne fun hid => hxr (h.eq_of_id hx hr hid)]
      exact hn
  dead id hid := by
    have hne : id ≠ (m.obj r).contextId := by
      rintro rfl
      rw [show (m.addRefCounter r).contexts (m.obj r).contextId = some r from hr] at hid
      simp at hid
    change Function.update m.contextRefCounter _ _ id = none ∨
      Function.update m.contextRefCounter _ _ id = some 0
    rw [Function.update_of_ne hne]
    exact h.dead id hid

end Counted

/-! ## Binding -/

/-- `_new_context` and `_fork_context`. -/
lemma Counted.createContext {cs : List ContextRef} {parent : Option ContextRef}
    (h : m.Counted (cs :: held) entries) {r : ContextRef}
    (hok : m.createContext e parent = .ok (r, m')) :
    m.Ages m' ∧ (∀ x, m.Live x → m'.Live x) ∧ r = m.next ∧
      m'.constantPrefixContexts = m.constantPrefixContexts ∧
      m'.Counted ((cs ++ [r]) :: held) entries := by
  obtain ⟨rfl, id, ha⟩ := adds_of_createContext hok h.pool h.lt_next h.dead
  refine ⟨⟨ha.next.symm ▸ Nat.le_succ _, fun _ hr => ha.other hr,
    fun _ hr hl => ((ha.cases_of_live hl).resolve_left (Nat.ne_of_lt hr)).2⟩,
    fun _ hr => ha.live hr, rfl, ha.constants, ⟨ha.pool, ha.id_eq h.id_eq, ha.lt_next',
      ha.held_live h.held_live, fun r hr => ha.live (h.entries_live r hr), fun r hr => ?_,
      ha.dead h.dead⟩⟩
  rcases ha.cases_of_live hr with rfl | ⟨hlt, hr⟩
  · rw [ha.counter_new, ha.holders_new h.held_live h.entries_live]
    exact ⟨1, rfl, by omega, by omega⟩
  · rw [ha.counter_old hr, Adds.holders_old (Nat.ne_of_lt hlt)]
    exact h.counter r hr

/-- An entry under a constant-prefix variable. -/
lemma Counted.addConstantPrefix {v : VarId} {r : ContextRef}
    (h : m.Counted held m.constantEntries) (hkeys : m.KeysNodup) (hr : m.Live r)
    (hok : m.addConstantPrefix v r = .ok m') :
    m'.obj = m.obj ∧ m'.next = m.next ∧ m'.contexts = m.contexts ∧ m'.KeysNodup ∧
      m'.Counted held m'.constantEntries := by
  rw [ServeCoreContextManager.addConstantPrefix] at hok
  dsimp only at hok
  rw [← withKey] at hok
  obtain ⟨hnodup, hmem, hflat⟩ := withKey_spec hkeys v
  set d := withKey m.constantPrefixContexts v
  cases hassert : parrotAssert (decide (r ∉ (d.lookup v).getD []))
      "Context should not be in the ref map." with
  | error e =>
      rw [hassert] at hok
      cases hok
  | ok u =>
      rw [hassert] at hok
      obtain rfl := Except.ok.inj hok
      have hperm : ((d.map fun en =>
          if en.1 = v then (en.1, en.2 ++ [r]) else en).flatMap Prod.snd).Perm
            (r :: m.constantEntries) :=
        (map_append_entry_perm r hnodup hmem).trans (.cons _ (.of_eq hflat))
      refine ⟨rfl, rfl, rfl, keys_map_append_entry r hnodup, ?_⟩
      have h' : Counted { m with constantPrefixContexts :=
          (d.map fun en => if en.1 = v then (en.1, en.2 ++ [r]) else en) } held
            m.constantEntries := h.congr rfl rfl rfl rfl rfl
      refine h'.addRefCounter hr h.held_live (fun x hx => ?_) fun x => ?_
      · rcases List.mem_cons.mp (hperm.mem_iff.mp hx) with rfl | hx
        · exact hr
        · exact h.entries_live x hx
      · change holders held ((d.map fun en =>
            if en.1 = v then (en.1, en.2 ++ [r]) else en).flatMap Prod.snd) x ≤ _
        rw [holders, hperm.count_eq, List.count_cons, holders]
        by_cases hxr : r = x
        · simp [hxr, Nat.add_assoc]
        · simp [hxr]

/-- Caching a prefix changes the caches only. -/
lemma cachePrefix_frame {hash : Text} {id : ℕ} (hok : m.cachePrefix e hash id = .ok m') :
    m'.obj = m.obj ∧ m'.next = m.next ∧ m'.contexts = m.contexts ∧
      m'.contextRefCounter = m.contextRefCounter ∧ m'.contextIdPool = m.contextIdPool ∧
      m'.constantPrefixContexts = m.constantPrefixContexts := by
  unfold cachePrefix at hok
  split at hok
  · simp at hok
  · split at hok
    · simp at hok
    · obtain rfl := Except.ok.inj hok
      exact ⟨rfl, rfl, rfl, rfl, rfl, rfl⟩

/-- The contexts collected so far are counted for the task. -/
structure BindCounted (m₀ : ServeCoreContextManager) (held : List (List ContextRef))
    (st : BindState) : Prop where
  ages : m₀.Ages st.mgr
  older : ∀ r, m₀.Live r → st.mgr.Live r
  keys : st.mgr.KeysNodup
  counted : st.mgr.Counted (st.contexts :: held) st.mgr.constantEntries

/-- One more context counts at most once. -/
lemma holders_concat (cs : List ContextRef) (held : List (List ContextRef))
    (entries : List ContextRef) (r x : ContextRef) :
    holders ((cs ++ [r]) :: held) entries x ≤
      holders (cs :: held) entries x + if x = r then 1 else 0 := by
  rw [holders_cons, holders_cons]
  by_cases hxr : x = r
  · rw [if_pos (by simp [hxr]), if_pos hxr]
    split_ifs <;> omega
  · simp [hxr]

lemma Counted.held_concat {cs : List ContextRef} {r : ContextRef}
    (h : m.Counted (cs :: held) entries) (hr : m.Live r) :
    ∀ cs' ∈ (cs ++ [r]) :: held, ∀ x ∈ cs', m.Live x := by
  rw [List.forall_mem_cons]
  refine ⟨fun x hx => ?_, fun cs' hcs' => h.held_live cs' (List.mem_cons_of_mem _ hcs')⟩
  rcases List.mem_append.mp hx with hx | hx
  · exact h.held_live cs List.mem_cons_self x hx
  · exact List.mem_singleton.mp hx ▸ hr

namespace BindCounted

variable {m₀ : ServeCoreContextManager} {fuseFill : Bool} {st st' : BindState} {node : ChainNode}
  {r : ContextRef}

/-- The context of a node whose prefix is not cached. -/
lemma contextForNode (h : m₀.BindCounted held st)
    (hok : st.mgr.contextForNode e fuseFill st.contexts node = .ok (r, m'))
    (hmgr : st'.mgr = m') (hctx : st'.contexts = st.contexts ++ [r]) :
    m₀.BindCounted held st' := by
  obtain ⟨hages, holder, hkeys, hcounted⟩ := h
  -- a new context, below any parent
  have hnew : ∀ {parent : Option ContextRef} {e : ℕ} {m₁ : ServeCoreContextManager},
      st.mgr.createContext e parent = .ok (r, m₁) → m₀.Ages m₁ ∧ (∀ x, m₀.Live x → m₁.Live x) ∧
        m₁.KeysNodup ∧ m₁.Counted ((st.contexts ++ [r]) :: held) m₁.constantEntries := by
    intro parent e m₁ hcreate
    obtain ⟨hages', hlive, -, hconst, hcounted'⟩ := hcounted.createContext hcreate
    refine ⟨hages.trans hages', fun x hx => hlive x (holder x hx), ?_, ?_⟩
    · rw [KeysNodup, hconst]
      exact hkeys
    · rw [constantEntries, hconst]
      exact hcounted'
  unfold ServeCoreContextManager.contextForNode at hok
  split at hok
  · split at hok
    · simp at hok
    · rename_i r₁ m₁ hcreate
      split_ifs at hok with hconst
      · split at hok
        · simp at hok
        · rename_i m₂ hadd
          simp only [Except.ok.injEq, Prod.mk.injEq] at hok
          obtain ⟨rfl, rfl⟩ := hok
          obtain ⟨hages', hlive', hkeys', hcounted'⟩ := hnew hcreate
          have hr : m₁.Live r₁ := hcounted'.held_live _ List.mem_cons_self r₁ (by simp)
          obtain ⟨hobj, hnext, hctxs, hkeys'', hcounted''⟩ :=
            hcounted'.addConstantPrefix hkeys' hr hadd
          have hiff : ∀ x, m₂.Live x ↔ m₁.Live x := fun x => by rw [Live, Live, hobj, hctxs]
          rw [← hmgr] at hobj hnext hctxs hkeys'' hcounted'' hiff
          exact ⟨hages'.trans ⟨hnext.ge, fun x _ => by rw [hobj], fun x _ hx => (hiff x).mp hx⟩,
            fun x hx => (hiff x).mpr (hlive' x hx), hkeys'', hctx ▸ hcounted''⟩
      · simp only [Except.ok.injEq, Prod.mk.injEq] at hok
        obtain ⟨rfl, rfl⟩ := hok
        obtain ⟨hages', hlive', hkeys', hcounted'⟩ := hnew hcreate
        rw [← hmgr] at hages' hlive' hkeys' hcounted'
        exact ⟨hages', hlive', hkeys', hctx ▸ hcounted'⟩
  · rename_i last hlast
    split_ifs at hok with hfuse
    · simp only [Except.ok.injEq, Prod.mk.injEq] at hok
      obtain ⟨rfl, rfl⟩ := hok
      have hmem := List.mem_of_getLast? hlast
      have hr := hcounted.held_live _ List.mem_cons_self last hmem
      rw [← hmgr] at hages holder hkeys hcounted hr
      refine ⟨hages, holder, hkeys, hctx ▸ hcounted.mono (hcounted.held_concat hr)
        hcounted.entries_live fun x => ?_⟩
      rw [holders_cons, holders_cons]
      by_cases hx : x = last
      · rw [if_pos (by simp [hx]), if_pos (hx ▸ hmem)]
      · simp [hx]
    · obtain ⟨hages', hlive', hkeys', hcounted'⟩ := hnew hok
      rw [← hmgr] at hages' hlive' hkeys' hcounted'
      exact ⟨hages', hlive', hkeys', hctx ▸ hcounted'⟩

lemma assignContext {hash : Text} (h : m₀.BindCounted held st)
    (hok : assignContext e fuseFill st hash node = .ok st') : m₀.BindCounted held st' := by
  unfold ServeCoreContextManager.assignContext at hok
  split at hok
  · simp at hok
  · rename_i r m₁ hctx
    dsimp only at hok
    split_ifs at hok with hgen
    · obtain rfl := Except.ok.inj hok
      exact h.contextForNode hctx rfl rfl
    · split at hok
      · simp at hok
      · rename_i m₂ hcache
        obtain rfl := Except.ok.inj hok
        obtain ⟨hobj, hnext, hctxs, hcnt, hpool, hconst⟩ := cachePrefix_frame hcache
        have h₁ : m₀.BindCounted held
            { mgr := m₁, contexts := st.contexts ++ [r], prefixHash := hash } :=
          h.contextForNode hctx rfl rfl
        have hiff : ∀ x, m₂.Live x ↔ m₁.Live x := fun x => by rw [Live, Live, hobj, hctxs]
        refine ⟨h₁.ages.trans ⟨hnext.ge, fun x _ => by rw [hobj], fun x _ hx => (hiff x).mp hx⟩,
          fun x hx => (hiff x).mpr (h₁.older x hx), ?_, ?_⟩
        · rw [KeysNodup, hconst]
          exact h₁.keys
        · rw [constantEntries, hconst]
          exact h₁.counted.congr hobj hnext hctxs hcnt hpool

/-- The loop of `set_task_contexts`, node by node. -/
lemma bindNode (h : m₀.BindCounted held st) (hok : bindNode e fuseFill st node = .ok st') :
    m₀.BindCounted held st' := by
  unfold ServeCoreContextManager.bindNode at hok
  dsimp only at hok
  split_ifs at hok with hflag
  · exact h.assignContext hok
  · split at hok
    · simp at hok
    · split at hok
      · exact h.assignContext hok
      · split at hok
        · simp at hok
        · rename_i id _ r hr
          obtain rfl := Except.ok.inj hok
          have hlive := h.counted.live_of_contexts hr
          exact ⟨h.ages.trans ⟨Nat.le_refl _, fun _ _ => rfl, fun _ _ hx => hx⟩, h.older, h.keys,
            h.counted.addRefCounter hlive (h.counted.held_concat hlive) h.counted.entries_live
              fun x => holders_concat _ _ _ r x⟩

lemma bindNodes (nodes : List ChainNode) : ∀ {st st' : BindState}, m₀.BindCounted held st →
    bindNodes e fuseFill nodes st = .ok st' → m₀.BindCounted held st' := by
  induction nodes with
  | nil => exact fun h hok => Except.ok.inj hok ▸ h
  | cons node nodes ih =>
      intro st st' h hok
      rw [ServeCoreContextManager.bindNodes] at hok
      split at hok
      · simp at hok
      · rename_i st₁ hnode
        exact ih (h.bindNode hnode) hok

end BindCounted

/-- **`set_task_contexts` counts what it hands out.** -/
lemma Counted.setTaskContexts (h : m.Counted held m.constantEntries) (hkeys : m.KeysNodup)
    {chain : List ChainNode} {fuseFill : Bool} {cs : List ContextRef}
    (hok : m.setTaskContexts e chain fuseFill = .ok (cs, m')) :
    m.Ages m' ∧ (∀ r, m.Live r → m'.Live r) ∧ m'.KeysNodup ∧
      m'.Counted (cs :: held) m'.constantEntries := by
  unfold ServeCoreContextManager.setTaskContexts at hok
  split at hok
  · simp at hok
  · split at hok
    · simp at hok
    · rename_i st hbind
      simp only [Except.ok.injEq, Prod.mk.injEq] at hok
      obtain ⟨rfl, rfl⟩ := hok
      have hnil : m.Counted ([] :: held) m.constantEntries :=
        h.mono (List.forall_mem_cons.mpr ⟨by simp, h.held_live⟩) h.entries_live fun r => by
          rw [holders_cons]
          simp
      obtain ⟨hages, holder, hkeys', hcounted⟩ :=
        BindCounted.bindNodes chain ⟨.refl m, fun _ hr => hr, hkeys, hnil⟩ hbind
      exact ⟨hages, holder, hkeys', hcounted⟩

/-! ## One reference less -/

/-- A reference to `r` is given back that is not the last one. -/
lemma Counted.decrement {r : ContextRef} {n : ℤ} (h : m.Counted held entries) (hr : m.Live r)
    (hn : m.contextRefCounter (m.obj r).contextId = some n) (hlast : 0 < n - 1)
    (hheld : ∀ cs ∈ held', ∀ x ∈ cs, m.Live x) (hentries : ∀ x ∈ entries', m.Live x)
    (hcount : ∀ x, holders held' entries' x + (if x = r then 1 else 0) ≤ holders held entries x)
    (hm : m' = { m with
      contextRefCounter :=
        Function.update m.contextRefCounter (m.obj r).contextId (some (n - 1)) }) :
    m'.Counted held' entries' := by
  subst hm
  refine ⟨h.pool, h.id_eq, h.lt_next, hheld, hentries, fun x hx => ?_, fun id hid => ?_⟩
  · change ∃ k, Function.update m.contextRefCounter _ _ (m.obj x).contextId = some k ∧ _
    obtain ⟨k, hk, hkpos, hkle⟩ := h.counter x hx
    have hle := hcount x
    by_cases hxr : x = r
    · rw [if_pos hxr] at hle
      rw [hxr] at hk hkle hle ⊢
      obtain rfl := Option.some.inj (hn.symm.trans hk)
      exact ⟨n - 1, Function.update_self _ _ _, hlast, by omega⟩
    · rw [if_neg hxr] at hle
      refine ⟨k, ?_, hkpos, by omega⟩
      rw [Function.update_of_ne fun hid => hxr (h.eq_of_id hx hr hid), hk]
  · have hne : id ≠ (m.obj r).contextId := by
      rintro rfl
      rw [show m.contexts (m.obj r).contextId = some r from hr] at hid
      cases hid
    change Function.update m.contextRefCounter _ _ id = none ∨
      Function.update m.contextRefCounter _ _ id = some 0
    rw [Function.update_of_ne hne]
    exact h.dead id hid

/-- `m'` is `m` without the context `r`, whose id is free again. -/
structure Loses (m : ServeCoreContextManager) (r : ContextRef) (m' : ServeCoreContextManager) :
    Prop where
  obj : m'.obj = m.obj
  next : m'.next = m.next
  contexts : m'.contexts = Function.update m.contexts (m.obj r).contextId none
  counter : m'.contextRefCounter = Function.update m.contextRefCounter (m.obj r).contextId (some 0)
  pool : m'.contextIdPool = (m.contextIdPool.free (m.obj r).contextId).2

namespace Loses

variable {r x : ContextRef}

lemma contexts_of (hl : m.Loses r m') {id : ℕ} (hx : m'.contexts id = some x) :
    m.contexts id = some x ∧ id ≠ (m.obj r).contextId := by
  rw [hl.contexts, Function.update_apply] at hx
  split_ifs at hx with hid
  exact ⟨hx, hid⟩

lemma live_of (hl : m.Loses r m') (hx : m'.Live x) : m.Live x ∧ x ≠ r := by
  rw [Live, hl.obj] at hx
  obtain ⟨hx, hne⟩ := hl.contexts_of hx
  exact ⟨hx, fun he => hne (he ▸ rfl)⟩

lemma live (hl : m.Loses r m') (h : m.Counted held entries) (hr : m.Live r) (hx : m.Live x)
    (hne : x ≠ r) : m'.Live x := by
  rw [Live, hl.obj, hl.contexts, Function.update_of_ne fun hid => hne (h.eq_of_id hx hr hid)]
  exact hx

/-- Nothing that is held is lost. -/
lemma counted (hl : m.Loses r m') (h : m.Counted held entries) (hr : m.Live r)
    (hheld : ∀ cs ∈ held', ∀ x ∈ cs, m.Live x) (hentries : ∀ x ∈ entries', m.Live x)
    (hcount : ∀ x, holders held' entries' x ≤ holders held entries x)
    (hzero : holders held' entries' r = 0) : m'.Counted held' entries' := by
  have hne : ∀ x, 0 < holders held' entries' x → x ≠ r := by
    rintro x hx rfl
    omega
  have hmem : (m.obj r).contextId ∈ {id | (m.contexts id).isSome = true} := by
    rw [Set.mem_ofPred_eq, show m.contexts (m.obj r).contextId = some r from hr]
    rfl
  refine ⟨?_, fun id x hx => ?_, fun id x hx => ?_, fun cs hcs x hx => ?_, fun x hx => ?_,
    fun x hx => ?_, fun id hid => ?_⟩
  · rw [hl.pool]
    refine (h.pool.free_ok hmem).2.2.mono fun id hid => ?_
    obtain ⟨x, hx⟩ := Option.isSome_iff_exists.mp hid
    obtain ⟨hx, hne⟩ := hl.contexts_of hx
    exact ⟨Option.isSome_iff_exists.mpr ⟨x, hx⟩, hne⟩
  · rw [hl.obj]
    exact h.id_eq id x (hl.contexts_of hx).1
  · rw [hl.next]
    exact h.lt_next id x (hl.contexts_of hx).1
  · have hpos : 0 < held'.countP fun cs => decide (x ∈ cs) :=
      List.countP_pos_iff.mpr ⟨cs, hcs, decide_eq_true hx⟩
    exact hl.live h hr (hheld cs hcs x hx) (hne x (Nat.add_pos_left hpos _))
  · exact hl.live h hr (hentries x hx)
      (hne x (Nat.add_pos_right _ (List.count_pos_iff.mpr hx)))
  · obtain ⟨hxl, hxr⟩ := hl.live_of hx
    obtain ⟨k, hk, hkpos, hkle⟩ := h.counter x hxl
    have hle := hcount x
    refine ⟨k, ?_, hkpos, by omega⟩
    rw [hl.obj, hl.counter, Function.update_of_ne fun hid => hxr (h.eq_of_id hxl hr hid), hk]
  · rw [hl.contexts, Function.update_apply] at hid
    rw [hl.counter, Function.update_apply]
    split_ifs at hid ⊢
    · exact .inr rfl
    · exact h.dead id hid

end Loses

end ServeCoreContextManager

/-! ## Freeing -/

namespace ContextWorld

open ServeCoreContextManager

variable {α : Type} {w w' w'' : ContextWorld α}

/-- What giving back references changes: contexts are dropped, at the last one. -/
structure Releases (w w' : ContextWorld α) : Prop where
  obj : w'.mgr.obj = w.mgr.obj
  next : w'.mgr.next = w.mgr.next
  constants : w'.mgr.constantPrefixContexts = w.mgr.constantPrefixContexts
  live : ∀ r, w'.mgr.Live r → w.mgr.Live r

lemma Releases.refl (w : ContextWorld α) : w.Releases w := ⟨rfl, rfl, rfl, fun _ h => h⟩

lemma Releases.trans (h : w.Releases w') (h' : w'.Releases w'') : w.Releases w'' where
  obj := h'.obj.trans h.obj
  next := h'.next.trans h.next
  constants := h'.constants.trans h.constants
  live r hr := h.live r (h'.live r hr)

lemma Releases.ages (h : w.Releases w') : w.mgr.Ages w'.mgr :=
  ⟨h.next.ge, fun _ _ => by rw [h.obj], fun r _ => h.live r⟩

/-- Dropping a context frees its id. -/
lemma dropContext_frame {r : ContextRef} (hok : w.dropContext r = .ok w') :
    w'.mgr.obj = w.mgr.obj ∧ w'.mgr.next = w.mgr.next ∧
      w'.mgr.constantPrefixContexts = w.mgr.constantPrefixContexts ∧
      w'.mgr.contextRefCounter = w.mgr.contextRefCounter ∧
      w'.mgr.contexts = Function.update w.mgr.contexts (w.mgr.obj r).contextId none ∧
      w'.mgr.contextIdPool = (w.mgr.contextIdPool.free (w.mgr.obj r).contextId).2 := by
  unfold dropContext at hok
  dsimp only at hok
  split at hok
  · simp at hok
  · split at hok
    · simp at hok
    · split at hok
      · simp at hok
      · split at hok
        · simp at hok
        · split at hok
          · simp at hok
          · rename_i hfree
            obtain rfl := Except.ok.inj hok
            exact ⟨rfl, rfl, rfl, rfl, rfl, by rw [hfree]⟩

end ContextWorld

namespace ServeCoreContextManager

open ContextWorld

variable {α : Type} {w w' : ContextWorld α}

/-- `_free_context` gives back one reference; the last one drops the context. -/
lemma Counted.freeContext {r : ContextRef} (h : w.mgr.Counted held entries) (hr : w.mgr.Live r)
    (hheld : ∀ cs ∈ held', ∀ x ∈ cs, w.mgr.Live x) (hentries : ∀ x ∈ entries', w.mgr.Live x)
    (hcount : ∀ x, holders held' entries' x + (if x = r then 1 else 0) ≤ holders held entries x)
    (hok : w.freeContext r = .ok w') :
    w.Releases w' ∧ w'.mgr.Counted held' entries' ∧
      (w.mgr.contextRefCounter (w.mgr.obj r).contextId = some 1 → ¬ w'.mgr.Live r) ∧
      ∀ id, id ≠ (w.mgr.obj r).contextId →
        w'.mgr.contextRefCounter id = w.mgr.contextRefCounter id := by
  obtain ⟨n, hn, hpos, hle⟩ := h.counter r hr
  unfold ContextWorld.freeContext at hok
  dsimp only at hok
  rw [hn] at hok
  dsimp only at hok
  split_ifs at hok with hlast
  · obtain rfl := Except.ok.inj hok
    refine ⟨⟨rfl, rfl, rfl, fun _ hx => hx⟩,
      h.decrement hr hn hlast hheld hentries hcount rfl, fun hone => ?_,
      fun id hid => Function.update_of_ne hid _ _⟩
    obtain rfl := Option.some.inj (hn.symm.trans hone)
    omega
  · obtain ⟨hobj, hnext, hconst, hcnt, hctx, hpool⟩ := dropContext_frame hok
    have hn0 : n - 1 = 0 := by omega
    rw [hn0] at hcnt
    have hl : w.mgr.Loses r w'.mgr := ⟨hobj, hnext, hctx, hcnt, hpool⟩
    have hzero : holders held' entries' r = 0 := by
      have := hcount r
      rw [if_pos rfl] at this
      omega
    exact ⟨⟨hobj, hnext, hconst, fun x hx => (hl.live_of hx).1⟩,
      hl.counted h hr hheld hentries (fun x => Nat.le_trans (Nat.le_add_right _ _) (hcount x))
        hzero,
      fun _ hr' => (hl.live_of hr').2 rfl,
      fun id hid => by rw [hl.counter, Function.update_of_ne hid]⟩

/-- The loop of `free_task_contexts`: ids that were visited are not counted any more. -/
lemma Counted.freeVisiting (rs : List ContextRef) : ∀ {w : ContextWorld α} {visited : List ℕ},
    w.mgr.Counted ((rs.filter fun x => decide ((w.mgr.obj x).contextId ∉ visited)) :: held)
        entries → freeVisiting rs visited w = .ok w' →
      w.Releases w' ∧ w'.mgr.Counted held entries ∧
        (∀ r ∈ rs, (w.mgr.obj r).contextId ∉ visited →
          w.mgr.contextRefCounter (w.mgr.obj r).contextId = some 1 → ¬ w'.mgr.Live r) ∧
        ∀ id, (∀ r ∈ rs, (w.mgr.obj r).contextId ≠ id) →
          w'.mgr.contextRefCounter id = w.mgr.contextRefCounter id := by
  induction rs with
  | nil =>
      intro w visited h hok
      obtain rfl := Except.ok.inj hok
      refine ⟨.refl w, h.mono (fun cs hcs => h.held_live cs (List.mem_cons_of_mem _ hcs))
        h.entries_live fun r => ?_, by simp, fun _ _ => rfl⟩
      rw [holders_cons]
      exact Nat.le_add_right _ _
  | cons r rs ih =>
      intro w visited h hok
      rw [ContextWorld.freeVisiting] at hok
      by_cases hv : (w.mgr.obj r).contextId ∈ visited
      · rw [if_pos hv] at hok
        rw [List.filter_cons_of_neg (by simpa using hv)] at h
        obtain ⟨hrel, hcounted, hlast, hcnt⟩ := ih h hok
        refine ⟨hrel, hcounted, fun x hx hxv => ?_,
          fun id hid => hcnt id fun x hx => hid x (List.mem_cons_of_mem _ hx)⟩
        rcases List.mem_cons.mp hx with rfl | hx
        · exact absurd hv hxv
        · exact hlast x hx hxv
      · rw [if_neg hv] at hok
        rw [List.filter_cons_of_pos (by simpa using hv)] at h
        set rest := rs.filter fun x => decide ((w.mgr.obj x).contextId ∉ visited) with hrest
        have hlive : ∀ x ∈ r :: rest, w.mgr.Live x := h.held_live _ List.mem_cons_self
        have hr := hlive r List.mem_cons_self
        have hsame : ∀ x ∈ rs, (w.mgr.obj x).contextId ∉ visited →
            ((w.mgr.obj x).contextId = (w.mgr.obj r).contextId ↔ x = r) := fun x hx hxv =>
          ⟨h.eq_of_id (hlive x (List.mem_cons_of_mem _
            (List.mem_filter.mpr ⟨hx, decide_eq_true hxv⟩))) hr, fun he => he ▸ rfl⟩
        split at hok
        · simp at hok
        · rename_i w₁ hfree
          have hheld : ∀ cs ∈ (rest.filter fun x => decide (x ≠ r)) :: held, ∀ x ∈ cs,
              w.mgr.Live x := by
            rw [List.forall_mem_cons]
            exact ⟨fun x hx => hlive x (List.mem_cons_of_mem _ (List.mem_filter.mp hx).1),
              fun cs hcs => h.held_live cs (List.mem_cons_of_mem _ hcs)⟩
          obtain ⟨hrel, hcounted, hlast, hother⟩ := h.freeContext hr hheld h.entries_live
            (fun x => by
              rw [holders_cons, holders_cons]
              by_cases hxr : x = r <;> simp [hxr]) hfree
          have hfilter : (rs.filter fun x => decide ((w₁.mgr.obj x).contextId ∉
              (w.mgr.obj r).contextId :: visited)) = rest.filter fun x => decide (x ≠ r) := by
            rw [hrest, List.filter_filter, hrel.obj]
            refine List.filter_congr fun x hx => ?_
            by_cases hxv : (w.mgr.obj x).contextId ∈ visited
            · simp [hxv]
            · simp [hxv, hsame x hx hxv]
          obtain ⟨hrel', hcounted', hlast', hcnt⟩ := ih (hfilter ▸ hcounted) hok
          refine ⟨hrel.trans hrel', hcounted', fun x hx hxv hone => ?_, fun id hid => ?_⟩
          rotate_left
          · rw [hcnt id fun x hx => by rw [hrel.obj]; exact hid x (List.mem_cons_of_mem _ hx),
              hother id (hid r List.mem_cons_self).symm]
          by_cases hxr : x = r
          · rw [hxr] at hone ⊢
            exact fun hx' => hlast hone (hrel'.live r hx')
          · have hx := (List.mem_cons.mp hx).resolve_left hxr
            have hid := mt (hsame x hx hxv).mp hxr
            refine hlast' x hx ?_ ?_
            · rw [hrel.obj, List.mem_cons, not_or]
              exact ⟨hid, hxv⟩
            · rw [hrel.obj, hother _ hid]
              exact hone

/-- **`free_task_contexts` gives back the references of the task**: a context with one reference
is dropped, and other counters stay. -/
lemma Counted.freeTaskContexts {cs : List ContextRef} (h : w.mgr.Counted (cs :: held) entries)
    (hok : w.freeTaskContexts cs = .ok w') :
    w.Releases w' ∧ w'.mgr.Counted held entries ∧
      (∀ r ∈ cs, w.mgr.contextRefCounter (w.mgr.obj r).contextId = some 1 → ¬ w'.mgr.Live r) ∧
      ∀ id, (∀ r ∈ cs, (w.mgr.obj r).contextId ≠ id) →
        w'.mgr.contextRefCounter id = w.mgr.contextRefCounter id := by
  have hfilter : cs.reverse.filter (fun x => decide ((w.mgr.obj x).contextId ∉ [])) =
      cs.reverse := List.filter_eq_self.mpr fun x _ => by simp
  have hheld : ∀ cs' ∈ cs.reverse :: held, ∀ x ∈ cs', w.mgr.Live x := by
    rw [List.forall_mem_cons]
    exact ⟨fun x hx => h.held_live cs List.mem_cons_self x (List.mem_reverse.mp hx),
      fun cs' hcs' => h.held_live cs' (List.mem_cons_of_mem _ hcs')⟩
  have h' : w.mgr.Counted (cs.reverse :: held) entries :=
    h.mono hheld h.entries_live fun r => by simp [holders_cons]
  obtain ⟨hrel, hcounted, hlast, hcnt⟩ := Counted.freeVisiting cs.reverse (hfilter.symm ▸ h') hok
  exact ⟨hrel, hcounted, fun r hr => hlast r (List.mem_reverse.mpr hr) (by simp),
    fun id hid => hcnt id fun r hr => hid r (List.mem_reverse.mp hr)⟩

/-- The loop of `free_constant_prefix_contexts`. -/
lemma Counted.freeAll (rs : List ContextRef) : ∀ {w : ContextWorld α},
    w.mgr.Counted held (rs ++ entries) → freeAll rs w = .ok w' →
      w.Releases w' ∧ w'.mgr.Counted held entries := by
  induction rs with
  | nil => exact fun h hok => Except.ok.inj hok ▸ ⟨.refl _, h⟩
  | cons r rs ih =>
      intro w h hok
      rw [ContextWorld.freeAll] at hok
      split at hok
      · simp at hok
      · rename_i w₁ hfree
        obtain ⟨hrel, hcounted, -, -⟩ := h.freeContext (h.entries_live r (by simp)) h.held_live
          (fun x hx => h.entries_live x (List.mem_cons_of_mem _ hx)) (fun x => by
            rw [List.cons_append, holders_entry]
            simp only [eq_comm]
            exact Nat.le_refl _) hfree
        obtain ⟨hrel', hcounted'⟩ := ih hcounted hok
        exact ⟨hrel.trans hrel', hcounted'⟩

end ServeCoreContextManager
end ParrotServe
