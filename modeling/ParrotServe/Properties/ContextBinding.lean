import ParrotServe.Properties.PrefixOperations

/-!
# Binding a task to contexts

`set_task_contexts` walks down the cached prefixes of a chain and creates contexts from the first
miss on.  That the contexts it collects are those of the chain's own variables is not true in
every state: a hit on a stale hash, or on a fused root that covers more variables than the prefix
that was asked for, gives a context with other contents; and with `fuse_fill` a Fill behind a hit
is fused into a context that belongs to others.

`BindGuard` excludes exactly these: the longest cached prefix of the chain is the key of its
context, and a Fill is only fused into a context of the same call.  Under it,
`setTaskContexts_ok` says that the call does not raise, keeps `Sound`, and returns a `KeyPath` of
the Fill variables and a child of its last context for the Gen node (`TaskBound`).
-/

namespace ParrotServe

/-- A chain is its Fills and at most one Gen behind them. -/
lemma ChainShape.split {chain : List ChainNode} (h : ChainShape chain) :
    chain = chain.filter (fun node => !node.isGen) ++ chain.filter ChainNode.isGen ∧
      (chain.filter ChainNode.isGen).length ≤ 1 := by
  rcases List.eq_nil_or_concat chain with rfl | ⟨init, x, rfl⟩
  · simp
  · rw [ChainShape, List.concat_eq_append, List.dropLast_concat] at h
    have hfills : init.filter (fun node => !node.isGen) = init :=
      List.filter_eq_self.mpr fun node hnode => by rw [h node hnode]; rfl
    have hgens : init.filter ChainNode.isGen = [] :=
      List.filter_eq_nil_iff.mpr fun node hnode => by rw [h node hnode]; simp
    rw [List.concat_eq_append, List.filter_append, List.filter_append, hfills, hgens]
    cases hx : x.isGen <;> simp [hx]

namespace ServeCoreContextManager

variable {m m' : ServeCoreContextManager} {held : List (List ContextRef)}
  {entries : List ContextRef} {e : ℕ}

/-! ## The condition on a call -/

/-- How many prefixes in a row are cached, for variables that follow `pre`. -/
def hitCount (m : ServeCoreContextManager) (e : ℕ) : List VarId → List VarId → ℕ
  | _, [] => 0
  | pre, v :: vs =>
      match m.cached e (pre ++ [v]) with
      | none => 0
      | some _ => hitCount m e (pre ++ [v]) vs + 1

/-- The longest cached prefix is the key of its context. -/
def LongestOwn (m : ServeCoreContextManager) (e : ℕ) (l : List VarId) : Prop :=
  0 < m.hitCount e [] l → ∃ id, m.cached e (l.take (m.hitCount e [] l)) = some id ∧
    m.reversed e id = some (hashPrefix (l.take (m.hitCount e [] l)))

/-- The condition on a call of `set_task_contexts`. -/
structure BindGuard (m : ServeCoreContextManager) (e : ℕ) (chain : List ChainNode)
    (fuseFill : Bool) : Prop where
  fills : m.LongestOwn e (fillVars chain)
  whole : m.LongestOwn e (chain.map ChainNode.varId)
  fused : fuseFill = true → m.hitCount e [] (fillVars chain) = 0 ∨
    m.hitCount e [] (fillVars chain) = (fillVars chain).length

/-- The call fuses a Fill into the context of another node. -/
def FusesFill (m : ServeCoreContextManager) (e : ℕ) (chain : List ChainNode)
    (fuseFill : Bool) : Prop :=
  fuseFill = true ∧ max 1 (m.hitCount e [] (fillVars chain)) < (fillVars chain).length

instance (chain : List ChainNode) (fuseFill : Bool) :
    Decidable (m.FusesFill e chain fuseFill) :=
  inferInstanceAs (Decidable (_ = true ∧ _ < _))

instance (l : List VarId) : Decidable (m.LongestOwn e l) :=
  decidable_of_iff (0 < m.hitCount e [] l → (m.cached e (l.take (m.hitCount e [] l))).any
      fun id => decide (m.reversed e id = some (hashPrefix (l.take (m.hitCount e [] l))))) <| by
    simp only [LongestOwn, Option.any_eq_true, decide_eq_true_eq]

instance (chain : List ChainNode) (fuseFill : Bool) : Decidable (m.BindGuard e chain fuseFill) :=
  decidable_of_iff (m.LongestOwn e (fillVars chain) ∧ m.LongestOwn e (chain.map ChainNode.varId) ∧
      (fuseFill = true → m.hitCount e [] (fillVars chain) = 0 ∨
        m.hitCount e [] (fillVars chain) = (fillVars chain).length))
    ⟨fun h => ⟨h.1, h.2.1, h.2.2⟩, fun h => ⟨h.fills, h.whole, h.fused⟩⟩

lemma hitCount_le (l : List VarId) : ∀ pre, m.hitCount e pre l ≤ l.length := by
  induction l with
  | nil => exact fun _ => Nat.le_refl _
  | cons v vs ih =>
      intro pre
      rw [hitCount, List.length_cons]
      split
      · exact Nat.zero_le _
      · exact Nat.succ_le_succ (ih _)

lemma hitCount_append (l l' : List VarId) : ∀ pre, m.hitCount e pre (l ++ l') =
    if m.hitCount e pre l = l.length then l.length + m.hitCount e (pre ++ l) l'
    else m.hitCount e pre l := by
  induction l with
  | nil => intro pre; simp [hitCount]
  | cons v vs ih =>
      intro pre
      rw [List.cons_append, hitCount, hitCount, List.length_cons]
      cases m.cached e (pre ++ [v]) with
      | none => simp
      | some id =>
          simp only [ih, Nat.add_right_cancel_iff, List.append_assoc, List.singleton_append]
          split_ifs <;> omega

/-- The first prefix that is not cached. -/
lemma cached_hitCount (l : List VarId) : ∀ pre, m.hitCount e pre l < l.length →
    m.cached e (pre ++ l.take (m.hitCount e pre l + 1)) = none := by
  induction l with
  | nil => simp
  | cons v vs ih =>
      intro pre hlt
      rw [hitCount] at hlt ⊢
      cases hc : m.cached e (pre ++ [v]) with
      | none => simpa using hc
      | some id =>
          rw [hc] at hlt
          have := ih (pre ++ [v]) (Nat.lt_of_succ_lt_succ hlt)
          simpa using this

/-! ## Hits -/

/-- Two managers that differ in the reference counters only. -/
structure SameForest (m m' : ServeCoreContextManager) : Prop where
  obj : m'.obj = m.obj
  next : m'.next = m.next
  contexts : m'.contexts = m.contexts
  caches : m'.prefixCaches = m.prefixCaches
  constants : m'.constantPrefixContexts = m.constantPrefixContexts

lemma SameForest.live_iff (h : m.SameForest m') (r : ContextRef) : m'.Live r ↔ m.Live r := by
  rw [Live, h.obj, h.contexts]
  exact Iff.rfl

lemma SameForest.cached_eq (h : m.SameForest m') (l : List VarId) :
    m'.cached e l = m.cached e l := by
  rw [ServeCoreContextManager.cached, h.caches]
  rfl

lemma SameForest.keeps (h : m.SameForest m') : m.Keeps m' where
  next_le := h.next.ge
  obj r _ := by rw [h.obj]
  live r _ hr := (h.live_iff r).mp hr
  key r _ _ l := by
    rw [Key, h.obj, ServeCoreContextManager.reversed, h.caches]
    exact Iff.rfl
  registered e he := by rw [h.caches, he]

lemma SameForest.path (h : m.SameForest m') {cs : List ContextRef} {l : List VarId}
    (hp : m.KeyPath e cs l) : m'.KeyPath e cs l := by
  refine hp.congr fun r hr => ⟨by rw [h.obj], (h.live_iff r).mpr (hp.live r hr).1, fun l hl => ?_⟩
  rw [Key, h.obj, ServeCoreContextManager.reversed, h.caches]
  exact hl

lemma SameForest.allOwn (h : m.SameForest m') (ho : m.AllOwn) : m'.AllOwn := fun e' l id hc => by
  rw [h.cached_eq] at hc
  rw [ServeCoreContextManager.reversed, h.caches]
  exact ho e' l id hc

lemma SameForest.key_iff (h : m.SameForest m') (r : ContextRef) (l : List VarId) :
    m'.Key r l ↔ m.Key r l := by
  rw [Key, h.obj, ServeCoreContextManager.reversed, h.caches]
  exact Iff.rfl

lemma SameForest.constantEntries_eq (h : m.SameForest m') :
    m'.constantEntries = m.constantEntries := by
  rw [constantEntries, h.constants]
  rfl

/-- The loop body where the prefix is cached for a live context. -/
lemma bindNode_hit {fuseFill : Bool} {l : List VarId} {st : BindState} {node : ChainNode}
    {r : ContextRef} (hr : st.mgr.Live r) (hhash : st.prefixHash = hashPrefix l)
    (hflag : st.prefixNoCacheFlag = false)
    (hhit : st.mgr.cached e (l ++ [node.varId]) = some (st.mgr.obj r).contextId) :
    bindNode e fuseFill st node = .ok { st with
      mgr := st.mgr.addRefCounter r
      contexts := st.contexts ++ [r]
      prefixHash := hashPrefix (l ++ [node.varId]) } := by
  obtain ⟨c, hc, hmap⟩ := Option.bind_eq_some_iff.mp hhit
  rw [bindNode, hflag, hc, hhash, ← hashPrefix_concat]
  dsimp only
  rw [if_neg Bool.false_ne_true, PrefixCache.getCachedPrefixContext, hmap]
  dsimp only
  rw [show st.mgr.contexts (st.mgr.obj r).contextId = some r from hr]

/-- The loop over a cached prefix: its contexts get one reference for each node. -/
lemma bindNodes_hits (fuseFill : Bool) {cs : List ContextRef} {l : List VarId}
    (hs : m.Sound held entries) (hpath : m.KeyPath e cs l) (rest : List ChainNode) :
    ∀ (nodes : List ChainNode) (i : ℕ) (st : BindState), nodes.map ChainNode.varId = l.drop i →
      m.SameForest st.mgr → st.mgr.Sound (cs.take i :: held) entries →
      st.contexts = cs.take i → st.prefixHash = hashPrefix (l.take i) →
      st.prefixNoCacheFlag = false →
      ∃ st', bindNodes e fuseFill (nodes ++ rest) st = bindNodes e fuseFill rest st' ∧
        m.SameForest st'.mgr ∧ st'.mgr.Sound (cs :: held) entries ∧ st'.contexts = cs ∧
        st'.prefixHash = hashPrefix l ∧ st'.prefixNoCacheFlag = false := by
  intro nodes
  induction nodes with
  | nil =>
      intro i st hnodes hsame hsound hctx hhash hflag
      have hi : l.length ≤ i := List.drop_eq_nil_iff.mp hnodes.symm
      have htake : cs.take i = cs := List.take_of_length_le (hpath.length_eq ▸ hi)
      rw [htake] at hsound hctx
      rw [List.take_of_length_le hi] at hhash
      exact ⟨st, rfl, hsame, hsound, hctx, hhash, hflag⟩
  | cons node nodes ih =>
      intro i st hnodes hsame hsound hctx hhash hflag
      have hi : i < l.length := by
        by_contra hge
        rw [List.drop_eq_nil_of_le (Nat.le_of_not_lt hge)] at hnodes
        simp at hnodes
      rw [List.map_cons, List.drop_eq_getElem_cons hi, List.cons.injEq] at hnodes
      obtain ⟨r, hr, hc⟩ := hpath.cached_take hs i hi
      have hics : i < cs.length := hpath.length_eq ▸ hi
      have hget : cs[i] = r := by
        rw [List.getElem?_eq_getElem hics] at hr
        exact Option.some.inj hr
      have hmem : r ∈ cs := hget ▸ List.getElem_mem hics
      have hlive := (hpath.live r hmem).1
      have hlive' := (hsame.live_iff r).mpr hlive
      have htake : cs.take (i + 1) = cs.take i ++ [r] := by
        rw [List.take_succ_eq_append_getElem hics, hget]
      have hltake : l.take (i + 1) = l.take i ++ [node.varId] := by
        rw [List.take_succ_eq_append_getElem hi, ← hnodes.1]
      have hpath' := hsame.path hpath
      have hdup : r ∉ cs.take i ∨ st.mgr.Fused r := by
        by_cases hin : r ∈ cs.take i
        · refine .inr (hpath'.fused_of_mem hsound (a := cs.take i) (b := cs.drop (i + 1)) ?_ hin)
          rw [← hget, List.getElem_cons_drop, List.take_append_drop]
        · exact .inl hin
      have hsound' := hsound.addRef hlive'
        (htake ▸ hpath'.branch.of_prefix (List.take_prefix _ _)) hdup
      rw [← htake] at hsound'
      have hhit : st.mgr.cached e (l.take i ++ [node.varId]) = some (st.mgr.obj r).contextId := by
        rw [hsame.cached_eq, hsame.obj, ← hltake, hc]
      obtain ⟨st', hrun, hrest⟩ := ih (i + 1) { st with
          mgr := st.mgr.addRefCounter r
          contexts := st.contexts ++ [r]
          prefixHash := hashPrefix (l.take i ++ [node.varId]) } hnodes.2
        ⟨hsame.obj, hsame.next, hsame.contexts, hsame.caches, hsame.constants⟩ hsound'
        (by rw [htake, hctx]) (by rw [hltake]) hflag
      refine ⟨st', ?_, hrest⟩
      rw [List.cons_append, bindNodes, bindNode_hit hlive' hhash hflag hhit]
      exact hrun

/-! ## Misses -/

/-- Holding a context once more does not count. -/
lemma Sound.repeat {cs : List ContextRef} {r : ContextRef} (h : m.Sound (cs :: held) entries)
    (hlast : cs.getLast? = some r) : m.Sound ((cs ++ [r]) :: held) entries := by
  have hmem : r ∈ cs := List.mem_of_getLast? hlast
  have hiff : ∀ x, x ∈ cs ++ [r] ↔ x ∈ cs := by
    intro x
    rw [List.mem_append, List.mem_singleton, or_iff_left_iff_imp]
    rintro rfl
    exact hmem
  exact { h with
    held_live := List.forall_mem_cons.mpr ⟨fun x hx => h.held_live cs List.mem_cons_self x
      ((hiff x).mp hx), fun cs' hcs' => h.held_live cs' (List.mem_cons_of_mem _ hcs')⟩
    held_branch := List.forall_mem_cons.mpr
      ⟨(h.held_branch cs List.mem_cons_self).concat (.inr ⟨r, hlast, .inl rfl⟩),
        fun cs' hcs' => h.held_branch cs' (List.mem_cons_of_mem _ hcs')⟩
    counter := fun x hx => by
      have := h.counter x hx
      rw [holders_cons] at this ⊢
      simpa only [hiff] using this }

lemma Named.keeps {m₀ : ServeCoreContextManager} {r : ContextRef} {l : List VarId}
    (hn : m.Named e r l m') (hs : m.Sound held entries) (hr : m.Live r)
    (he : (m.obj r).engine = e) (h : m₀.Keeps m) (hnew : m₀.next ≤ r) : m₀.Keeps m' where
  next_le := hn.next ▸ h.next_le
  obj x hx := by rw [hn.obj, h.obj x hx]
  live x hx hl := h.live x hx ((hn.live_iff x).mp hl)
  key x hx hl l' := by
    have hl' := (hn.live_iff x).mp hl
    rw [hn.key_iff hs hr he hl', if_neg (Nat.ne_of_lt (Nat.lt_of_lt_of_le hx hnew)),
      h.key x hx hl']
  registered e' he' := by rw [hn.registered, h.registered e' he']

/-- The manager after a context was made for a node. -/
structure NewContext (m : ServeCoreContextManager) (held : List (List ContextRef)) (e : ℕ)
    (cs : List ContextRef) (m' : ServeCoreContextManager) : Prop where
  keeps : m.Keeps m'
  next : m'.next = m.next + 1
  live : ∀ r, m.Live r → m'.Live r
  caches : m'.prefixCaches = m.prefixCaches
  sound : m'.Sound ((cs ++ [m.next]) :: held) m'.constantEntries
  keys : m'.KeysNodup
  engine : (m'.obj m.next).engine = e
  parent : (m'.obj m.next).parentContext = cs.getLast?
  unnamed : ∀ l, ¬ m'.Key m.next l

namespace NewContext

variable {cs : List ContextRef}

lemma new_live (h : m.NewContext held e cs m') : m'.Live m.next :=
  h.sound.held_live _ List.mem_cons_self _ (by simp)

lemma childless (h : m.NewContext held e cs m') (c : ContextRef) (hc : m'.Live c) :
    (m'.obj c).parentContext ≠ some m.next := by
  intro hp
  have hlt := h.sound.parent_lt c _ hc hp
  have hle := h.sound.live_lt hc
  rw [h.next] at hle
  exact Nat.lt_irrefl _ (Nat.lt_of_lt_of_le hlt (Nat.le_of_lt_succ hle))

lemma live_cases (h : m.NewContext held e cs m') {r : ContextRef} (hr : m'.Live r) :
    r = m.next ∨ r < m.next ∧ m.Live r := by
  have hlt := h.sound.live_lt hr
  rw [h.next] at hlt
  rcases Nat.lt_succ_iff_lt_or_eq.mp hlt with hlt | rfl
  · exact .inr ⟨hlt, h.keeps.live r hlt hr⟩
  · exact .inl rfl

lemma cached_eq (h : m.NewContext held e cs m') (l : List VarId) :
    m'.cached e l = m.cached e l := by
  rw [ServeCoreContextManager.cached, h.caches]
  rfl

end NewContext

/-- The context of a node that is not fused into the one before it. -/
lemma contextForNode_new {cs : List ContextRef} (fuseFill : Bool) (node : ChainNode)
    (h : m.Sound (cs :: held) m.constantEntries) (hkeys : m.KeysNodup)
    (hreg : (m.prefixCaches e).isSome = true) (hcs : ∀ r ∈ cs, (m.obj r).engine = e)
    (hnew : cs = [] ∨ (fuseFill && !node.isGen) = false) :
    ∃ m', m.contextForNode e fuseFill cs node = .ok (m.next, m') ∧ m.NewContext held e cs m' := by
  cases hlast : cs.getLast? with
  | none =>
      obtain rfl := List.getLast?_eq_none_iff.mp hlast
      obtain ⟨m₁, hok, hcr, hs⟩ := h.create hreg (.inl ⟨rfl, rfl⟩)
      have hentries : m₁.constantEntries = m.constantEntries := by
        rw [constantEntries, hcr.constants]
        rfl
      have hkeys₁ : m₁.KeysNodup := by
        rw [KeysNodup, hcr.constants]
        exact hkeys
      rw [contextForNode, List.getLast?_nil]
      dsimp only
      rw [newContext, hok]
      dsimp only
      by_cases hconst : node.isConstantPrefix = true
      · have hfresh : m.next ∉ m₁.constantEntries := fun hmem =>
          Nat.lt_irrefl _ (h.live_lt (h.entries_live _ (hentries ▸ hmem)).1)
        obtain ⟨m₂, hok₂, hadd, hs₂⟩ :=
          hs.addConstantPrefix (v := node.varId) hcr.new hcr.parent hkeys₁ hfresh
        rw [if_pos hconst, hok₂]
        refine ⟨m₂, rfl, ⟨hcr.keeps.trans hadd.keeps, hadd.next.trans hcr.next, fun r hr => ?_,
          hadd.caches.trans hcr.caches, ?_, hadd.keys, by rw [hadd.obj]; exact hcr.engine,
          by rw [hadd.obj]; exact hcr.parent, fun l hk => ?_⟩⟩
        · rw [Live, hadd.obj, hadd.contexts]
          exact hcr.live r hr
        · exact hs₂.perm (.refl _) (hadd.entries.trans (.cons _ (.of_eq hentries)))
        · rw [Key, hadd.obj, ServeCoreContextManager.reversed, hadd.caches] at hk
          exact hcr.unnamed l hk
      · rw [if_neg hconst]
        exact ⟨m₁, rfl, ⟨hcr.keeps, hcr.next, hcr.live, hcr.caches, hentries ▸ hs, hkeys₁,
          hcr.engine, hcr.parent, hcr.unnamed⟩⟩
  | some last =>
      have hmem : last ∈ cs := List.mem_of_getLast? hlast
      obtain ⟨m₁, hok, hcr, hs⟩ := h.create hreg (.inr ⟨last, hlast, rfl, hcs last hmem⟩)
      have hentries : m₁.constantEntries = m.constantEntries := by
        rw [constantEntries, hcr.constants]
        rfl
      have hkeys₁ : m₁.KeysNodup := by
        rw [KeysNodup, hcr.constants]
        exact hkeys
      have hfork : (fuseFill && !node.isGen) = false := by
        rcases hnew with rfl | hnew
        · simp at hmem
        · exact hnew
      refine ⟨m₁, ?_, ⟨hcr.keeps, hcr.next, hcr.live, hcr.caches, hentries ▸ hs, hkeys₁,
          hcr.engine, hcr.parent.trans hlast.symm, hcr.unnamed⟩⟩
      rw [contextForNode, hlast]
      dsimp only
      rw [hfork, forkContext, hcs last hmem, hok]
      rfl

/-- The state of the loop after the Fills of the variables `l`. -/
structure Collected (m : ServeCoreContextManager) (held : List (List ContextRef)) (e : ℕ)
    (l : List VarId) (st : BindState) : Prop where
  sound : st.mgr.Sound (st.contexts :: held) st.mgr.constantEntries
  keys : st.mgr.KeysNodup
  keeps : m.Keeps st.mgr
  older : ∀ r, m.Live r → st.mgr.Live r
  registered : (st.mgr.prefixCaches e).isSome = true
  path : st.mgr.KeyPath e st.contexts l
  hash : st.prefixHash = hashPrefix l
  news : ∀ r, st.mgr.Live r → m.next ≤ r → r ∈ st.contexts
  keyed : ∀ r l', st.mgr.Live r → m.next ≤ r → st.mgr.Key r l' → l' <+: l

/-- The state of the loop behind `k` cached prefixes. -/
structure Building (m : ServeCoreContextManager) (held : List (List ContextRef)) (e : ℕ)
    (fuseFill : Bool) (k : ℕ) (l : List VarId) (st : BindState) : Prop
    extends Collected m held e l st where
  behind : k ≤ l.length
  /-- The context that a Fill would be fused into was made by this call. -/
  fused : fuseFill = true → l = [] ∨ ∃ c : ℕ, st.contexts = List.replicate l.length c ∧
    m.next ≤ c ∧ (st.mgr.obj c).parentContext = none ∧
    ∀ x, st.mgr.Live x → (st.mgr.obj x).parentContext ≠ some c
  own : (fuseFill = true → l.length ≤ max 1 k) → (m.AllOwn → st.mgr.AllOwn) ∧
    ∀ r, st.mgr.Live r → m.next ≤ r → ¬ st.mgr.Fused r

/-- Naming the context that was made or chosen for a Fill. -/
lemma Building.named {fuseFill : Bool} {k : ℕ} {l : List VarId} {v : VarId} {st : BindState}
    {r : ContextRef} {m₁ m₂ : ServeCoreContextManager}
    (h : m.Building held e fuseFill k l st)
    (hkeeps : m.Keeps m₁) (holder : ∀ r, m.Live r → m₁.Live r) (hkeys : m₁.KeysNodup)
    (hsound : m₁.Sound ((st.contexts ++ [r]) :: held) m₁.constantEntries)
    (hname : m₁.Nameable e r (l ++ [v])) (hnew : m.next ≤ r) (hn : m₁.Named e r (l ++ [v]) m₂)
    (hpath : m₂.KeyPath e (st.contexts ++ [r]) (l ++ [v]))
    (hfused : fuseFill = true → ∃ c : ℕ, st.contexts ++ [r] = List.replicate (l ++ [v]).length c ∧
      m.next ≤ c ∧ (m₁.obj c).parentContext = none ∧
      ∀ x, m₁.Live x → (m₁.obj x).parentContext ≠ some c)
    (hnews : ∀ x, m₁.Live x → m.next ≤ x → x ∈ st.contexts ++ [r])
    (hnamed : ∀ x l', m₁.Live x → m.next ≤ x → x ≠ r → m₁.Key x l' → l' <+: l)
    (hown : (fuseFill = true → (l ++ [v]).length ≤ max 1 k) → (m.AllOwn → m₂.AllOwn) ∧
      ∀ x, m₂.Live x → m.next ≤ x → ¬ m₂.Fused x) :
    m.Building held e fuseFill k (l ++ [v]) { st with
      mgr := m₂
      contexts := st.contexts ++ [r]
      prefixHash := hashPrefix (l ++ [v])
      prefixNoCacheFlag := true } := by
  have hentries : m₂.constantEntries = m₁.constantEntries := by
    rw [constantEntries, hn.constants]
    rfl
  refine ⟨⟨?_, ?_, hn.keeps hsound hname.live hname.engine hkeeps hnew,
    fun x hx => (hn.live_iff x).mpr (holder x hx), ?_, hpath, rfl,
    fun x hx => hnews x ((hn.live_iff x).mp hx), fun x l' hx hle hk => ?_⟩, ?_,
    fun hf => .inr ?_, hown⟩
  · show m₂.Sound _ m₂.constantEntries
    rw [hentries]
    exact hsound.named hname hn
  · rw [KeysNodup]
    dsimp only
    rw [hn.constants]
    exact hkeys
  · dsimp only
    rw [hn.registered, ← hname.engine]
    exact hsound.registered r hname.live
  · have hx' := (hn.live_iff x).mp hx
    rw [hn.key_iff hsound hname.live hname.engine hx'] at hk
    split_ifs at hk with hxr
    · exact hk ▸ List.prefix_refl _
    · exact (hnamed x l' hx' hle hxr hk).trans (List.prefix_append _ _)
  · rw [List.length_append]
    exact Nat.le_add_right_of_le h.behind
  · obtain ⟨c, hc, hle, hp, hchild⟩ := hfused hf
    refine ⟨c, hc, hle, ?_, fun x hx => ?_⟩
    · dsimp only
      rw [hn.obj, hp]
    · dsimp only
      rw [hn.obj]
      exact hchild x ((hn.live_iff x).mp hx)

/-- Behind a prefix that is not cached nothing is cached. -/
lemma Sound.uncached_concat {l : List VarId} (h : m.Sound held entries) (hne : l ≠ [])
    (hnone : m.cached e l = none) (v : VarId) : m.cached e (l ++ [v]) = none := by
  rw [← Option.not_isSome_iff_eq_none]
  intro hsome
  obtain ⟨id, hid⟩ := Option.isSome_iff_exists.mp hsome
  obtain ⟨id', hid'⟩ := h.cached_prefix hid hne (List.prefix_append l [v])
  rw [hnone] at hid'
  simp at hid'

/-- The contexts collected so far are none exactly for no variables. -/
lemma Collected.nil_iff {l : List VarId} {st : BindState} (h : m.Collected held e l st) :
    st.contexts = [] ↔ l = [] := by
  rw [← List.length_eq_zero_iff, ← List.length_eq_zero_iff, h.path.length_eq]

/-- The loop body took a Fill whose variables were not cached. -/
structure Filled (m : ServeCoreContextManager) (held : List (List ContextRef)) (e : ℕ)
    (fuseFill : Bool) (k : ℕ) (l : List VarId) (st : BindState) : Prop where
  building : m.Building held e fuseFill k l st
  flag : st.prefixNoCacheFlag = true
  uncached : ∀ v, st.mgr.cached e (l ++ [v]) = none

/-- A Fill that is fused into the context of the node before. -/
lemma Building.fill_fused {k : ℕ} {l : List VarId} {st : BindState} {node : ChainNode}
    (h : m.Building held e true k l st) (hgen : node.isGen = false) (hl : l ≠ [])
    (huncached : st.mgr.cached e (l ++ [node.varId]) = none) :
    ∃ st', assignContext e true st (st.prefixHash ++ hashVarId node.varId) node = .ok st' ∧
      m.Filled held e true k (l ++ [node.varId]) st' := by
  have hlen := h.path.length_eq
  obtain ⟨c, hc, hle, hp, hchild⟩ := (h.fused rfl).resolve_left hl
  have hlast : st.contexts.getLast? = some c := by
    rw [hc, List.getLast?_replicate, if_neg (by simpa using hl)]
  obtain ⟨hlive, hengine⟩ := h.path.live c (List.mem_of_getLast? hlast)
  have hname : st.mgr.Nameable e c (l ++ [node.varId]) :=
    ⟨hlive, hengine, huncached, hchild,
      .inr (.inl ⟨l, node.varId, rfl, hp, h.path.last_key hlast⟩)⟩
  obtain ⟨m₂, hok, hn⟩ := cachePrefix_ok (r := c) h.registered huncached
  have hsound := h.sound.repeat hlast
  have hkey : m₂.Key c (l ++ [node.varId]) := by
    rw [hn.key_iff hsound hlive hengine hlive, if_pos rfl]
  have hreplicate : st.contexts ++ [c] = List.replicate (l ++ [node.varId]).length c := by
    rw [hc, List.length_append, List.length_singleton, List.replicate_succ']
  refine ⟨_, ?_, h.named h.keeps h.older h.keys hsound hname hle hn ?_
    (fun _ => ⟨c, hreplicate, hle, hp, hchild⟩)
    (fun x hx hle => List.mem_append_left _ (h.news x hx hle))
    (fun x l' hx hle _ hk => h.keyed x l' hx hle hk) ?_, rfl, fun v => ?_⟩
  · rw [assignContext, contextForNode, hlast]
    dsimp only
    rw [hgen, h.hash, ← hashPrefix_concat]
    simp only [Bool.not_false, Bool.and_self, if_true, Bool.false_eq_true, if_false]
    rw [hok]
  · rw [hreplicate]
    exact .root (by simp) ((hn.live_iff c).mpr hlive) (by rw [hn.obj, hengine])
      (by rw [hn.obj, hp]) hkey
  · intro hmax
    have hmax := hmax rfl
    have hpos := List.length_pos_iff.mpr hl
    have hbehind := h.behind
    rw [List.length_append, List.length_singleton] at hmax
    omega
  · rw [hn.cached, if_neg (by simp)]
    exact h.sound.uncached_concat (by simp) huncached v

/-- A Fill that gets a new context. -/
lemma Building.fill_new {fuseFill : Bool} {k : ℕ} {l : List VarId} {st : BindState}
    {node : ChainNode} (h : m.Building held e fuseFill k l st) (hgen : node.isGen = false)
    (hnew : l = [] ∨ fuseFill = false)
    (huncached : st.mgr.cached e (l ++ [node.varId]) = none) :
    ∃ st', assignContext e fuseFill st (st.prefixHash ++ hashVarId node.varId) node = .ok st' ∧
      m.Filled held e fuseFill k (l ++ [node.varId]) st' := by
  obtain ⟨m₁, hok₁, hc⟩ := contextForNode_new fuseFill node h.sound h.keys h.registered
    (fun r hr => (h.path.live r hr).2)
    (hnew.imp h.nil_iff.mpr fun hf => by rw [hf, Bool.false_and])
  have hlive := hc.new_live
  have hpath₁ : m₁.KeyPath e st.contexts l :=
    h.path.keeps hc.keeps h.sound fun r hr => hc.live r (h.path.live r hr).1
  have huncached₁ : m₁.cached e (l ++ [node.varId]) = none := by rw [hc.cached_eq, huncached]
  have hname : m₁.Nameable e st.mgr.next (l ++ [node.varId]) := by
    refine ⟨hlive, hc.engine, huncached₁, hc.childless, ?_⟩
    cases hlast : st.contexts.getLast? with
    | none =>
        obtain rfl := h.nil_iff.mp (List.getLast?_eq_none_iff.mp hlast)
        exact .inl ⟨node.varId, rfl, by rw [hc.parent, hlast], hc.unnamed⟩
    | some p =>
        have hmem : p ∈ st.contexts := List.mem_of_getLast? hlast
        have hl : l ≠ [] := fun hl => List.ne_nil_of_mem hmem (h.nil_iff.mpr hl)
        obtain ⟨hpl, hpe⟩ := hpath₁.live p hmem
        exact .inr (.inr ⟨p, l, node.varId, rfl, hl, by rw [hc.parent, hlast], hpl, hpe,
          hpath₁.last_key hlast, hc.unnamed⟩)
  obtain ⟨m₂, hok₂, hn⟩ := cachePrefix_ok (r := st.mgr.next)
    (show (m₁.prefixCaches e).isSome = true by rw [hc.caches, h.registered]) huncached₁
  have hpath₂ : m₂.KeyPath e st.contexts l := hpath₁.congr fun r hr => by
    have hr' := (hpath₁.live r hr).1
    refine ⟨by rw [hn.obj], (hn.live_iff r).mpr hr', fun l'' hk => ?_⟩
    rw [hn.key_iff hc.sound hlive hc.engine hr',
      if_neg (Nat.ne_of_lt (h.sound.live_lt (h.path.live r hr).1))]
    exact hk
  have hkey : m₂.Key st.mgr.next (l ++ [node.varId]) := by
    rw [hn.key_iff hc.sound hlive hc.engine hlive, if_pos rfl]
  have hlive₂ : m₂.Live st.mgr.next := (hn.live_iff _).mpr hlive
  have hparent : (m₂.obj st.mgr.next).parentContext = st.contexts.getLast? := by
    rw [hn.obj, hc.parent]
  have hengine : (m₂.obj st.mgr.next).engine = e := by rw [hn.obj, hc.engine]
  refine ⟨_, ?_, h.named (h.keeps.trans hc.keeps) (fun r hr => hc.live r (h.older r hr))
    hc.keys hc.sound hname h.keeps.next_le hn ?_ (fun hfuse => ?_) (fun x hx hle => ?_)
    (fun x l' hx hle hne hk => ?_) (fun hmax => ?_), rfl, fun v => ?_⟩
  · rw [assignContext, hok₁, h.hash, ← hashPrefix_concat]
    simp only [hgen, Bool.false_eq_true, if_false]
    rw [hok₂]
  · cases hlast : st.contexts.getLast? with
    | none =>
        have hnil := List.getLast?_eq_none_iff.mp hlast
        obtain rfl := h.nil_iff.mp hnil
        rw [hnil]
        exact .root (by simp) hlive₂ hengine (by rw [hparent, hlast]) hkey
    | some p => exact .child hpath₂ hlast hlive₂ hengine (by rw [hparent, hlast]) hkey
  · obtain rfl : l = [] := by
      refine hnew.resolve_right fun hf => ?_
      rw [hf] at hfuse
      simp at hfuse
    have hnil := h.nil_iff.mpr rfl
    refine ⟨st.mgr.next, by rw [hnil]; rfl, h.keeps.next_le, ?_, hc.childless⟩
    rw [hc.parent, hnil]
    rfl
  · rcases hc.live_cases hx with rfl | ⟨-, hx'⟩
    · exact List.mem_append_right _ (List.mem_singleton_self _)
    · exact List.mem_append_left _ (h.news x hx' hle)
  · obtain ⟨hlt, hx'⟩ := (hc.live_cases hx).resolve_left hne
    exact h.keyed x l' hx' hle ((hc.keeps.key x hlt hx l').mp hk)
  · obtain ⟨hown, hthin⟩ := h.own fun hf => Nat.le_trans (by simp) (hmax hf)
    refine ⟨fun ho => AllOwn.named (m := m₁) (fun e' l'' id hcd => ?_) hc.engine hc.unnamed hn,
      fun x hx hle hf => ?_⟩
    · rw [ServeCoreContextManager.cached, hc.caches] at hcd
      rw [ServeCoreContextManager.reversed, hc.caches]
      exact hown ho e' l'' id hcd
    · obtain ⟨hp, l', hlen, hk⟩ := hf
      rw [hn.obj] at hp
      have hx' := (hn.live_iff x).mp hx
      rw [hn.key_iff hc.sound hlive hc.engine hx'] at hk
      split_ifs at hk with hxr
      · -- a root of its own was cached for one variable
        rw [hxr, hc.parent, List.getLast?_eq_none_iff] at hp
        rw [hk, h.nil_iff.mp hp] at hlen
        simp at hlen
      · obtain ⟨hlt, hx''⟩ := (hc.live_cases hx').resolve_left hxr
        refine hthin x hx'' hle ⟨by rw [← hc.keeps.obj x hlt, hp], l', hlen, ?_⟩
        exact (hc.keeps.key x hlt hx' l').mp hk
  · rw [hn.cached, if_neg (by simp), hc.cached_eq]
    exact h.sound.uncached_concat (by simp) huncached v

/-- A Fill behind the cached prefixes: its variables are cached for the first time. -/
lemma Building.fill {fuseFill : Bool} {k : ℕ} {l : List VarId} {st : BindState}
    {node : ChainNode} (h : m.Building held e fuseFill k l st) (hgen : node.isGen = false)
    (huncached : st.mgr.cached e (l ++ [node.varId]) = none) :
    ∃ st', assignContext e fuseFill st (st.prefixHash ++ hashVarId node.varId) node = .ok st' ∧
      m.Filled held e fuseFill k (l ++ [node.varId]) st' := by
  by_cases hl : l = []
  · exact h.fill_new hgen (.inl hl) huncached
  · cases fuseFill with
    | false => exact h.fill_new hgen (.inr rfl) huncached
    | true => exact h.fill_fused hgen hl huncached

/-- The loop over the Fills behind the cached prefixes. -/
lemma Filled.fills {fuseFill : Bool} {k : ℕ} (rest : List ChainNode) : ∀ (nodes : List ChainNode)
    {l : List VarId} {st : BindState}, m.Filled held e fuseFill k l st →
      (∀ node ∈ nodes, node.isGen = false) →
      ∃ st', bindNodes e fuseFill (nodes ++ rest) st = bindNodes e fuseFill rest st' ∧
        m.Filled held e fuseFill k (l ++ nodes.map ChainNode.varId) st' := by
  intro nodes
  induction nodes with
  | nil =>
      intro l st h _
      exact ⟨st, rfl, by simpa using h⟩
  | cons node nodes ih =>
      intro l st h hgen
      rw [List.forall_mem_cons] at hgen
      obtain ⟨st₁, hok, h₁⟩ := h.building.fill hgen.1 (h.uncached node.varId)
      obtain ⟨st', hrun, h'⟩ := ih h₁ hgen.2
      refine ⟨st', ?_, by simpa using h'⟩
      rw [List.cons_append, bindNodes, bindNode, h.flag, if_pos rfl, hok]
      exact hrun

/-! ## The Gen node -/

/-- The contexts of a task: a path of its Fill variables, and a child of its last context for a
Gen node. -/
def TaskBound (m : ServeCoreContextManager) (e : ℕ) (chain : List ChainNode)
    (cs : List ContextRef) : Prop :=
  ∃ fs gs, cs = fs ++ gs ∧ m.KeyPath e fs (fillVars chain) ∧
    gs.length = (chain.filter ChainNode.isGen).length ∧
    ∀ g ∈ gs, m.Live g ∧ (m.obj g).engine = e ∧ (m.obj g).parentContext = fs.getLast? ∧
      ∀ l, m.Key g l → l = chain.map ChainNode.varId

/-- What a call of `set_task_contexts` does. -/
structure Bound (m : ServeCoreContextManager) (held : List (List ContextRef)) (e : ℕ)
    (chain : List ChainNode) (fuseFill : Bool) (cs : List ContextRef)
    (m' : ServeCoreContextManager) : Prop where
  sound : m'.Sound (cs :: held) m'.constantEntries
  keys : m'.KeysNodup
  keeps : m.Keeps m'
  older : ∀ r, m.Live r → m'.Live r
  task : m'.TaskBound e chain cs
  news : ∀ r, m'.Live r → m.next ≤ r → r ∈ cs
  keyed : ∀ r l, m'.Live r → m.next ≤ r → m'.Key r l → l <+: fillVars chain
  own : ¬ m.FusesFill e chain fuseFill → (m.AllOwn → m'.AllOwn) ∧
    ∀ r, m'.Live r → m.next ≤ r → ¬ m'.Fused r

/-- The loop body where the prefix is not cached. -/
lemma bindNode_miss {fuseFill : Bool} {l : List VarId} {st : BindState} {node : ChainNode}
    (hreg : (st.mgr.prefixCaches e).isSome = true) (hhash : st.prefixHash = hashPrefix l)
    (hmiss : st.prefixNoCacheFlag = true ∨ st.mgr.cached e (l ++ [node.varId]) = none) :
    bindNode e fuseFill st node =
      assignContext e fuseFill st (st.prefixHash ++ hashVarId node.varId) node := by
  rw [bindNode]
  by_cases hflag : st.prefixNoCacheFlag = true
  · exact if_pos hflag
  · obtain ⟨c, hc⟩ := Option.isSome_iff_exists.mp hreg
    have hnone : c.prefixCtxMap (st.prefixHash ++ hashVarId node.varId) = none := by
      have := hmiss.resolve_left hflag
      rw [ServeCoreContextManager.cached, hc, hashPrefix_concat, ← hhash] at this
      exact this
    rw [if_neg hflag, hc]
    dsimp only
    rw [PrefixCache.getCachedPrefixContext, hnone]

/-- The Gen node of a chain whose prefix is not cached: a child of the last context. -/
lemma Collected.gen (fuseFill : Bool) {l : List VarId} {st : BindState} {node : ChainNode}
    (h : m.Collected held e l st) (hgen : node.isGen = true) :
    ∃ g m', assignContext e fuseFill st (st.prefixHash ++ hashVarId node.varId) node =
        .ok { mgr := m', contexts := st.contexts ++ [g],
              prefixHash := hashPrefix (l ++ [node.varId]), prefixNoCacheFlag := true } ∧
      st.mgr.NewContext held e st.contexts m' ∧ g = st.mgr.next := by
  obtain ⟨m', hok, hc⟩ := contextForNode_new fuseFill node h.sound h.keys h.registered
    (fun r hr => (h.path.live r hr).2) (.inr (by rw [hgen, Bool.not_true, Bool.and_false]))
  refine ⟨_, m', ?_, hc, rfl⟩
  rw [assignContext, hok]
  simp only [hgen, if_true, h.hash, hashPrefix_concat]

/-- The context that a Gen node finds in the cache is a child of the last Fill's. -/
lemma Sound.parent_of_own {fs : List ContextRef} {l : List VarId} {v : VarId} {r : ContextRef}
    (h : m.Sound held entries) (hpath : m.KeyPath e fs l) (hr : m.Live r)
    (he : (m.obj r).engine = e) (hk : m.Key r (l ++ [v])) :
    (m.obj r).parentContext = fs.getLast? := by
  have hplaced := (h.key_spec hr hk).2.2
  rw [Placed] at hplaced
  cases hp : (m.obj r).parentContext with
  | none =>
      rw [hp] at hplaced
      cases hlast : fs.getLast? with
      | none => rfl
      | some f =>
          -- the key of a root is the longest list it was cached for
          have hmem := List.mem_of_getLast? hlast
          have hfk := hpath.last_key hlast
          obtain ⟨hfl, hfe⟩ := hpath.live f hmem
          obtain ⟨hne, hc, -⟩ := h.key_spec hfl hfk
          have hc' := hplaced l hne (List.prefix_append _ _)
          rw [he, ← hfe, hc, Option.some.injEq] at hc'
          have hfr := h.eq_of_id hfl hr hc'
          rw [hfr] at hfk
          have := congrArg List.length (hfk.unique hk)
          rw [List.length_append, List.length_singleton] at this
          omega
  | some p =>
      rw [hp] at hplaced
      obtain ⟨l', v', hl, hne, hpl, hpe, hpk⟩ := hplaced
      obtain ⟨rfl, -⟩ := List.append_inj' hl rfl
      cases hlast : fs.getLast? with
      | none =>
          have hlen := hpath.length_eq
          rw [List.getLast?_eq_none_iff.mp hlast] at hlen
          exact absurd (List.length_eq_zero_iff.mp hlen.symm) hne
      | some f =>
          obtain ⟨hfl, hfe⟩ := hpath.live f (List.mem_of_getLast? hlast)
          have hc := (h.key_spec hpl hpk).2.1
          rw [hpe, he, ← hfe, (h.key_spec hfl (hpath.last_key hlast)).2.1, Option.some.injEq] at hc
          rw [h.eq_of_id hfl hpl hc]

/-! ## `set_task_contexts` -/

lemma hitCount_cached (l : List VarId) : ∀ pre, 0 < m.hitCount e pre l →
    ∃ id, m.cached e (pre ++ l.take (m.hitCount e pre l)) = some id := by
  induction l with
  | nil => intro pre h; simp [hitCount] at h
  | cons v vs ih =>
      intro pre h
      rw [hitCount] at h ⊢
      cases hc : m.cached e (pre ++ [v]) with
      | none => simp [hc] at h
      | some id =>
          dsimp only
          rcases Nat.eq_zero_or_pos (m.hitCount e (pre ++ [v]) vs) with h0 | hpos
          · rw [h0]
            exact ⟨id, by simpa using hc⟩
          · obtain ⟨id', hid'⟩ := ih (pre ++ [v]) hpos
            exact ⟨id', by simpa using hid'⟩

/-- The contexts of the longest cached prefix. -/
lemma LongestOwn.path {l : List VarId} (h : m.LongestOwn e l) (hs : m.Sound held entries) :
    ∃ cs, m.KeyPath e cs (l.take (m.hitCount e [] l)) := by
  rcases Nat.eq_zero_or_pos (m.hitCount e [] l) with h0 | hpos
  · rw [h0]
    exact ⟨[], .nil⟩
  · obtain ⟨id, -, hrev⟩ := h hpos
    obtain ⟨r, hr, he, -, hk⟩ := hs.own_cached hrev
    obtain ⟨cs, hcs, -⟩ := hs.keyPath_of_key _ rfl hr hk
    exact ⟨cs, he ▸ hcs⟩

/-- A call that has collected nothing yet. -/
lemma Sound.nothing (h : m.Sound held entries) : m.Sound ([] :: held) entries :=
  { h with
    held_live := List.forall_mem_cons.mpr ⟨by simp, h.held_live⟩
    held_branch := List.forall_mem_cons.mpr ⟨⟨by simp, List.isChain_nil⟩, h.held_branch⟩
    counter := fun r hr => by
      simpa only [holders_cons, List.not_mem_nil, if_false, Nat.add_zero] using h.counter r hr }

/-- The Fills of a chain. -/
lemma bindNodes_fills {fuseFill : Bool} (hs : m.Sound held m.constantEntries)
    (hkeys : m.KeysNodup) (hreg : (m.prefixCaches e).isSome = true) {fills : List ChainNode}
    (hgen : ∀ node ∈ fills, node.isGen = false)
    (hown : m.LongestOwn e (fills.map ChainNode.varId))
    (hfused : fuseFill = true → m.hitCount e [] (fills.map ChainNode.varId) = 0 ∨
      m.hitCount e [] (fills.map ChainNode.varId) = fills.length) (rest : List ChainNode) :
    ∃ st, bindNodes e fuseFill (fills ++ rest) { mgr := m } = bindNodes e fuseFill rest st ∧
      m.Collected held e (fills.map ChainNode.varId) st ∧
      (st.prefixNoCacheFlag = true ∨ m.SameForest st.mgr ∧ st.prefixNoCacheFlag = false ∧
        m.hitCount e [] (fills.map ChainNode.varId) = fills.length) ∧
      ((fuseFill = true → fills.length ≤
          max 1 (m.hitCount e [] (fills.map ChainNode.varId))) →
        (m.AllOwn → st.mgr.AllOwn) ∧ ∀ r, st.mgr.Live r → m.next ≤ r → ¬ st.mgr.Fused r) := by
  set l := fills.map ChainNode.varId with hl
  set k := m.hitCount e [] l with hk
  have hlen : l.length = fills.length := List.length_map _
  have hkl : k ≤ fills.length := hlen ▸ hitCount_le l []
  obtain ⟨cs, hpath⟩ := hown.path hs
  obtain ⟨st, hrun, hsame, hsound, hctx, hhash, hflag⟩ :=
    bindNodes_hits fuseFill hs hpath (fills.drop k ++ rest) (fills.take k) 0
      { mgr := m } (by rw [hl, List.map_take, List.drop_zero]) ⟨rfl, rfl, rfl, rfl, rfl⟩
      hs.nothing rfl rfl rfl
  rw [← List.append_assoc, List.take_append_drop] at hrun
  have hentries : st.mgr.constantEntries = m.constantEntries := by
    rw [constantEntries, hsame.constants]
    rfl
  have hold : ∀ r, st.mgr.Live r → ¬ m.next ≤ r := fun r hr =>
    Nat.not_le.mpr (hs.live_lt ((hsame.live_iff r).mp hr))
  have hcollected : m.Collected held e (l.take k) st := by
    refine ⟨by rw [hctx, hentries]; exact hsound, ?_, hsame.keeps,
      fun r hr => (hsame.live_iff r).mpr hr, by rw [hsame.caches, hreg], ?_, hhash,
      fun r hr hle => absurd hle (hold r hr), fun r _ hr hle => absurd hle (hold r hr)⟩
    · rw [KeysNodup, hsame.constants]
      exact hkeys
    · rw [hctx]
      exact hsame.path hpath
  have hallOwn : (m.AllOwn → st.mgr.AllOwn) ∧
      ∀ r, st.mgr.Live r → m.next ≤ r → ¬ st.mgr.Fused r :=
    ⟨hsame.allOwn, fun r hr hle => absurd hle (hold r hr)⟩
  cases hdrop : fills.drop k with
  | nil =>
      have hall : fills.length ≤ k := List.drop_eq_nil_iff.mp hdrop
      rw [hdrop, List.nil_append] at hrun
      rw [List.take_of_length_le (hlen ▸ hall)] at hcollected
      exact ⟨st, hrun, hcollected, .inr ⟨hsame, hflag, Nat.le_antisymm hkl hall⟩,
        fun _ => hallOwn⟩
  | cons node nodes =>
      have hlt : k < fills.length := by
        by_contra hge
        rw [List.drop_eq_nil_of_le (Nat.le_of_not_lt hge)] at hdrop
        simp at hdrop
      have hnodes : ∀ x ∈ node :: nodes, x.isGen = false := fun x hx =>
        hgen x (List.mem_of_mem_drop (hdrop ▸ hx))
      have hsplit : l.take k ++ (node :: nodes).map ChainNode.varId = l := by
        rw [← hdrop, hl, ← List.map_take, ← List.map_append, List.take_append_drop]
      have huncached : st.mgr.cached e (l.take k ++ [node.varId]) = none := by
        have htake : l.take (k + 1) = l.take k ++ [node.varId] := by
          conv_lhs => rw [← hsplit]
          rw [List.take_append, List.length_take, Nat.min_eq_left (hlen ▸ hkl),
            List.take_of_length_le (by simp), Nat.add_sub_cancel_left]
          rfl
        rw [hsame.cached_eq, ← htake]
        exact cached_hitCount l [] (hlen ▸ hlt)
      have hbuilding : m.Building held e fuseFill k (l.take k) st := by
        refine ⟨hcollected, ?_, fun hf => .inl ?_, fun _ => hallOwn⟩
        · rw [List.length_take, Nat.min_eq_left (hlen ▸ hkl)]
        · rw [(hfused hf).resolve_right (Nat.ne_of_lt hlt), List.take_zero]
      obtain ⟨st₁, hok₁, h₁⟩ :=
        hbuilding.fill (hnodes node List.mem_cons_self) huncached
      obtain ⟨st', hrun', h'⟩ :=
        h₁.fills rest nodes fun x hx => hnodes x (List.mem_cons_of_mem _ hx)
      rw [List.append_assoc, ← List.map_singleton, ← List.map_append, List.singleton_append,
        hsplit] at h'
      refine ⟨st', ?_, h'.building.toCollected, .inl h'.flag, fun hmax =>
        h'.building.own (hlen ▸ hmax)⟩
      rw [hrun, hdrop, List.cons_append, bindNodes,
        bindNode_miss hcollected.registered hcollected.hash (.inr huncached), hok₁]
      exact hrun'

/-- The Gen node of a chain whose Fills were all cached, when it is cached itself. -/
lemma Collected.gen_hit (fuseFill : Bool) {l : List VarId} {st : BindState} {node : ChainNode}
    {r : ContextRef} (h : m.Collected held e l st) (hsame : m.SameForest st.mgr)
    (hflag : st.prefixNoCacheFlag = false) (hr : st.mgr.Live r) (he : (st.mgr.obj r).engine = e)
    (hk : st.mgr.Key r (l ++ [node.varId])) :
    ∃ st', bindNode e fuseFill st node = .ok st' ∧ st'.contexts = st.contexts ++ [r] ∧
      m.SameForest st'.mgr ∧
      st'.mgr.Sound ((st.contexts ++ [r]) :: held) st.mgr.constantEntries ∧
      (st.mgr.obj r).parentContext = st.contexts.getLast? := by
  have hparent := h.sound.parent_of_own h.path hr he hk
  have hhit : st.mgr.cached e (l ++ [node.varId]) = some (st.mgr.obj r).contextId :=
    he ▸ (h.sound.key_spec hr hk).2.1
  refine ⟨_, bindNode_hit hr h.hash hflag hhit, rfl,
    ⟨hsame.obj, hsame.next, hsame.contexts, hsame.caches, hsame.constants⟩, ?_, hparent⟩
  refine h.sound.addRef hr (h.path.branch.concat ?_)
    (.inl (h.path.not_mem_child h.sound hr hparent))
  cases hlast : st.contexts.getLast? with
  | none => exact .inl ⟨List.getLast?_eq_none_iff.mp hlast, hparent.trans hlast⟩
  | some last => exact .inr ⟨last, rfl, .inr (hparent.trans hlast)⟩

/-- What holds of the contexts made so far holds with one for the Gen node. -/
lemma Collected.with_gen {l : List VarId} {st : BindState} (h : m.Collected held e l st)
    (hnew : st.mgr.NewContext held e st.contexts m') :
    (∀ r, m'.Live r → m.next ≤ r → r ∈ st.contexts ++ [st.mgr.next]) ∧
      (∀ r l', m'.Live r → m.next ≤ r → m'.Key r l' → l' <+: l) ∧
      ((st.mgr.AllOwn → m'.AllOwn) ∧ ((∀ r, st.mgr.Live r → m.next ≤ r → ¬ st.mgr.Fused r) →
        ∀ r, m'.Live r → m.next ≤ r → ¬ m'.Fused r)) := by
  refine ⟨fun r hr hle => ?_, fun r l' hr hle hk => ?_, fun ho e' l' id hcd => ?_,
    fun hthin r hr hle hf => ?_⟩
  · rcases hnew.live_cases hr with rfl | ⟨-, hr'⟩
    · exact List.mem_append_right _ (List.mem_singleton_self _)
    · exact List.mem_append_left _ (h.news r hr' hle)
  · rcases hnew.live_cases hr with rfl | ⟨hlt, hr'⟩
    · exact absurd hk (hnew.unnamed l')
    · exact h.keyed r l' hr' hle ((hnew.keeps.key r hlt hr l').mp hk)
  · rw [ServeCoreContextManager.cached, hnew.caches] at hcd
    rw [ServeCoreContextManager.reversed, hnew.caches]
    exact ho e' l' id hcd
  · obtain ⟨hp, l', hlen, hk⟩ := hf
    rcases hnew.live_cases hr with rfl | ⟨hlt, hr'⟩
    · exact absurd hk (hnew.unnamed l')
    · exact hthin r hr' hle ⟨by rw [← hnew.keeps.obj r hlt, hp], l', hlen,
        (hnew.keeps.key r hlt hr l').mp hk⟩

/-- A call that only found cached contexts. -/
lemma SameForest.bound {chain : List ChainNode} {fuseFill : Bool} {cs : List ContextRef}
    (h : m.SameForest m') (hs : m.Sound held entries) (hkeys : m.KeysNodup)
    (hsound : m'.Sound (cs :: held) m'.constantEntries) (htask : m'.TaskBound e chain cs) :
    m.Bound held e chain fuseFill cs m' := by
  have hold : ∀ r, m'.Live r → ¬ m.next ≤ r := fun r hr =>
    Nat.not_le.mpr (hs.live_lt ((h.live_iff r).mp hr))
  refine ⟨hsound, ?_, h.keeps, fun r hr => (h.live_iff r).mpr hr, htask,
    fun r hr hle => absurd hle (hold r hr), fun r _ hr hle => absurd hle (hold r hr),
    fun _ => ⟨h.allOwn, fun r hr hle => absurd hle (hold r hr)⟩⟩
  rw [KeysNodup, h.constants]
  exact hkeys

/-- **A guarded call of `set_task_contexts`** does not raise, and collects the contexts of the
chain's own variables. -/
theorem setTaskContexts_ok {chain : List ChainNode} {fuseFill : Bool}
    (hs : m.Sound held m.constantEntries) (hkeys : m.KeysNodup)
    (hreg : (m.prefixCaches e).isSome = true) (hshape : ChainShape chain)
    (hguard : m.BindGuard e chain fuseFill) :
    ∃ cs m', m.setTaskContexts e chain fuseFill = .ok (cs, m') ∧
      m.Bound held e chain fuseFill cs m' := by
  obtain ⟨hsplit, hgens⟩ := hshape.split
  set fills := chain.filter fun node => !node.isGen with hfills
  set gens := chain.filter ChainNode.isGen with hgensdef
  have hvars : fillVars chain = fills.map ChainNode.varId := rfl
  have hlen : (fillVars chain).length = fills.length := List.length_map _
  obtain ⟨st, hrun, hc, hflag, hown⟩ := bindNodes_fills hs hkeys hreg
    (fun node hnode => by simpa [hfills] using (List.mem_filter.mp hnode).2) hguard.fills
    (fun hf => hlen ▸ hguard.fused hf) gens
  rw [← hsplit] at hrun
  rw [← hvars] at hc hflag hown
  have hunfused : ¬ m.FusesFill e chain fuseFill → (m.AllOwn → st.mgr.AllOwn) ∧
      ∀ r, st.mgr.Live r → m.next ≤ r → ¬ st.mgr.Fused r := fun hno => hown fun hf => by
    rw [FusesFill, not_and, hlen] at hno
    exact Nat.le_of_not_lt (hno hf)
  obtain ⟨c, hcache⟩ := Option.isSome_iff_exists.mp hreg
  rw [setTaskContexts, hcache]
  dsimp only
  rw [hrun]
  rcases Nat.lt_or_ge gens.length 1 with hzero | hone
  · have hnil := List.length_eq_zero_iff.mp (Nat.lt_one_iff.mp hzero)
    rw [hnil, bindNodes]
    refine ⟨st.contexts, st.mgr, rfl, hc.sound, hc.keys, hc.keeps, hc.older,
      ⟨st.contexts, [], by simp, hc.path, ?_, by simp⟩, hc.news, hc.keyed, hunfused⟩
    rw [← hgensdef, hnil]
    rfl
  · obtain ⟨gen, hgen⟩ := List.length_eq_one_iff.mp (Nat.le_antisymm hgens hone)
    have hisGen : gen.isGen = true := by
      have hmem : gen ∈ gens := hgen ▸ List.mem_singleton_self gen
      exact (List.mem_filter.mp hmem).2
    have hwhole : chain.map ChainNode.varId = fillVars chain ++ [gen.varId] := by
      conv_lhs => rw [hsplit, hgen]
      rw [List.map_append, hvars]
      rfl
    have hone' : (chain.filter ChainNode.isGen).length = 1 := by
      rw [← hgensdef, hgen]
      rfl
    rw [hgen, bindNodes]
    by_cases hmiss : st.prefixNoCacheFlag = true ∨
        st.mgr.cached e (fillVars chain ++ [gen.varId]) = none
    · obtain ⟨g, m', hok, hnew, rfl⟩ := hc.gen fuseFill hisGen
      obtain ⟨hnews, hkeyed, hown', hthin'⟩ := hc.with_gen hnew
      rw [bindNode_miss hc.registered hc.hash hmiss, hok]
      refine ⟨_, m', rfl, hnew.sound, hnew.keys, hc.keeps.trans hnew.keeps,
        fun r hr => hnew.live r (hc.older r hr), ⟨st.contexts, [st.mgr.next], rfl,
          hc.path.keeps hnew.keeps hc.sound fun r hr => hnew.live r (hc.path.live r hr).1, ?_, ?_⟩,
        hnews, hkeyed, fun hno => ⟨fun ho => hown' ((hunfused hno).1 ho),
          hthin' (hunfused hno).2⟩⟩
      · exact hone'.symm
      · intro x hx
        rw [List.mem_singleton.mp hx]
        exact ⟨hnew.new_live, hnew.engine, hnew.parent, fun l hl => absurd hl (hnew.unnamed l)⟩
    · obtain ⟨hflag', hcached⟩ := not_or.mp hmiss
      obtain ⟨hsame, hflag, hall⟩ := hflag.resolve_left hflag'
      obtain ⟨id, hid⟩ := Option.ne_none_iff_exists'.mp hcached
      rw [hsame.cached_eq] at hid
      -- the whole chain is the longest cached prefix
      have hcount : m.hitCount e [] (chain.map ChainNode.varId) =
          (chain.map ChainNode.varId).length := by
        rw [hwhole, hitCount_append, if_pos (hall.trans hlen.symm), hitCount, List.nil_append, hid,
          List.length_append]
        rfl
      obtain ⟨id', -, hrev⟩ := hguard.whole (by rw [hcount, hwhole]; simp)
      rw [hcount, List.take_length, hwhole] at hrev
      obtain ⟨r, hr, he, hrid, hk⟩ := hs.own_cached hrev
      have hr' := (hsame.live_iff r).mpr hr
      obtain ⟨st', hok, hctx, hsame', hsound', hparent⟩ := hc.gen_hit fuseFill hsame hflag hr'
        (by rw [hsame.obj, he]) ((hsame.key_iff r _).mpr hk)
      have hpath' : st'.mgr.KeyPath e st.contexts (fillVars chain) := hc.path.congr fun x hx =>
        ⟨by rw [hsame'.obj, hsame.obj],
          (hsame'.live_iff x).mpr ((hsame.live_iff x).mp (hc.path.live x hx).1),
          fun l' hl' => (hsame'.key_iff x l').mpr ((hsame.key_iff x l').mp hl')⟩
      rw [hok]
      refine ⟨st'.contexts, st'.mgr, rfl, hsame'.bound hs hkeys ?_
        ⟨st.contexts, [r], hctx, hpath', hone'.symm, ?_⟩⟩
      · rw [hctx, hsame'.constantEntries_eq, ← hsame.constantEntries_eq]
        exact hsound'
      · intro x hx
        rw [List.mem_singleton.mp hx, hsame'.obj, ← hsame.obj]
        refine ⟨(hsame'.live_iff r).mpr hr, by rw [hsame.obj, he], hparent, fun l hl => ?_⟩
        rw [hwhole]
        exact ((hsame'.key_iff r l).mp hl).unique hk

end ServeCoreContextManager
end ParrotServe
