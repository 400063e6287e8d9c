import ParrotServe.Framework.TransitionSystem
import ParrotServe.Properties.BlockMemory

/-!
# Block ownership over every run

Contexts driven directly: created as roots or forked from a live context, grown by
`allocate` and `pad_to`, and destroyed when they have no sub-context.  Each of these can hit an
exhausted pool half way, and the run goes on from what was left behind.

`BlockWorld.live` and `BlockWorld.orphans` are history variables: the contexts constructed and
not destroyed, and the child ids that a raising constructor left in its parent's list.  Nothing
in the code reads them.

The work is in `KvMemory.MemInv`; this file adds the family structure (`Inv.children`: the id
list of a live context counts its live children and the failed ones) and concludes with
`block_ownership`.
-/

namespace ParrotServe

/-- The operations on contexts that share a pool. -/
inductive BlockAction
  | create (contextId : ℕ) (parent : Option CtxRef)
  | allocate (r : CtxRef) (length : ℕ)
  | padTo (r : CtxRef) (length : ℕ)
  | destroy (r : CtxRef)

/-- The memory, with the history variables that say which objects are in use. -/
structure BlockWorld where
  mem : KvMemory
  /-- Contexts constructed and not destroyed. -/
  live : List CtxRef
  /-- Parent and id of each child whose constructor raised. -/
  orphans : List (CtxRef × ℕ)

namespace BlockWorld

/-- What callers promise: they only use live contexts, and destroy those without children. -/
def Enabled (w : BlockWorld) : BlockAction → Prop
  | .create _ parent => ∀ p ∈ parent, p ∈ w.live
  | .allocate r _ => r ∈ w.live
  | .padTo r _ => r ∈ w.live
  | .destroy r => r ∈ w.live ∧ (w.mem.obj r).subContextIds = []

instance (w : BlockWorld) : (a : BlockAction) → Decidable (w.Enabled a)
  | .create _ parent => inferInstanceAs (Decidable (∀ p ∈ parent, p ∈ w.live))
  | .allocate r _ => inferInstanceAs (Decidable (r ∈ w.live))
  | .padTo r _ => inferInstanceAs (Decidable (r ∈ w.live))
  | .destroy r => inferInstanceAs (Decidable (r ∈ w.live ∧ (w.mem.obj r).subContextIds = []))

/-- The effect of an operation, raising or not. -/
def apply (w : BlockWorld) : BlockAction → BlockWorld
  | .create i parent =>
      match w.mem.newContext i parent with
      | (.ok r, m') => { w with mem := m', live := r :: w.live }
      | (.error _, m') =>
          { w with mem := m', orphans := parent.toList.map (fun p => (p, i)) ++ w.orphans }
  | .allocate r n => { w with mem := (w.mem.allocate r n).2 }
  | .padTo r n => { w with mem := (w.mem.padTo r n).2 }
  | .destroy r =>
      match w.mem.destruction r with
      | (.ok (), m') => { w with mem := m', live := w.live.erase r }
      | (.error _, m') => { w with mem := m' }

/-- No context, over a given pool. -/
def start (blockSize : ℕ) (pool : RecyclePool) : BlockWorld where
  mem := KvMemory.empty blockSize pool
  live := []
  orphans := []

/-- All runs from an empty memory over the given pool. -/
def system (blockSize : ℕ) (pool : RecyclePool) : TransitionSystem BlockWorld BlockAction :=
  .ofFun (start blockSize pool) Enabled apply

/-! ## The invariant -/

/-- The live contexts forked from `p` under the id `i`. -/
def childCount (w : BlockWorld) (p : CtxRef) (i : ℕ) : ℕ :=
  w.live.countP fun r =>
    decide ((w.mem.obj r).parentContext = some p ∧ (w.mem.obj r).contextId = i)

/-- The invariant of every run. -/
structure Inv (blockSize : ℕ) (w : BlockWorld) : Prop where
  mem : w.mem.MemInv {r | r ∈ w.live}
  blockSize_eq : w.mem.blockSize = blockSize
  nodup : w.live.Nodup
  /-- A parent was constructed before its children. -/
  older : ∀ r ∈ w.live, ∀ p, (w.mem.obj r).parentContext = some p → p < r
  /-- A context outlives its children. -/
  parent_live : ∀ r ∈ w.live, ∀ p, (w.mem.obj r).parentContext = some p → p ∈ w.live
  orphans_lt : ∀ o ∈ w.orphans, o.1 < w.mem.next
  /-- The id list of a live context: its live children, and those that failed. -/
  children : ∀ p ∈ w.live, ∀ i, (w.mem.obj p).subContextIds.count i =
    w.childCount p i + w.orphans.count (p, i)

variable {bs : ℕ} {w : BlockWorld}

/-- The family structure only reads identities, parents and id lists. -/
lemma Inv.of_grown (h : w.Inv bs) {m' : KvMemory} {r : CtxRef} {bl sl : List ℕ}
    (hmem : m'.MemInv {r | r ∈ w.live}) (hgrow : KvMemory.GrownBy w.mem m' r bl sl)
    (hsub : (m'.obj r).subContextIds = (w.mem.obj r).subContextIds) :
    Inv bs { w with mem := m' } := by
  have hobj : ∀ r', (m'.obj r').parentContext = (w.mem.obj r').parentContext ∧
      (m'.obj r').contextId = (w.mem.obj r').contextId ∧
      (m'.obj r').subContextIds = (w.mem.obj r').subContextIds := by
    intro r'
    by_cases he : r' = r
    · subst he
      exact ⟨hgrow.self.parentContext, hgrow.self.contextId, hsub⟩
    · rw [hgrow.other r' he]
      exact ⟨rfl, rfl, rfl⟩
  refine ⟨hmem, hgrow.blockSize.trans h.blockSize_eq, h.nodup, fun r' hr' p hp => ?_,
    fun r' hr' p hp => ?_, fun o ho => ?_, fun p hp i => ?_⟩
  · exact h.older r' hr' p ((hobj r').1 ▸ hp)
  · exact h.parent_live r' hr' p ((hobj r').1 ▸ hp)
  · exact hgrow.next.symm ▸ h.orphans_lt o ho
  · rw [(hobj p).2.2, h.children p hp i]
    simp only [childCount, (hobj _).1, (hobj _).2.1]

/-- A live child is counted in its parent's list. -/
lemma Inv.mem_subContextIds (h : w.Inv bs) {r p : CtxRef} (hr : r ∈ w.live)
    (hpar : (w.mem.obj r).parentContext = some p) :
    (w.mem.obj r).contextId ∈ (w.mem.obj p).subContextIds := by
  rw [← List.count_pos_iff, h.children p (h.parent_live r hr p hpar)]
  have hpos : 0 < w.childCount p (w.mem.obj r).contextId := by
    rw [childCount, List.countP_pos_iff]
    exact ⟨r, hr, by simp [hpar]⟩
  omega

/-! ## Creation -/

/-- A fresh object is nobody's parent. -/
lemma Inv.childCount_next (h : w.Inv bs) (i : ℕ) : w.childCount w.mem.next i = 0 := by
  rw [childCount, List.countP_eq_zero]
  intro r hr
  simp only [decide_eq_true_eq, not_and]
  intro hp
  exact (Nat.lt_asymm (h.mem.lt_next r hr) (h.older r hr _ hp)).elim

lemma Inv.orphans_next (h : w.Inv bs) (i : ℕ) : w.orphans.count (w.mem.next, i) = 0 := by
  rw [List.count_eq_zero]
  intro hmem
  exact Nat.lt_irrefl _ (h.orphans_lt _ hmem)

/-- Storing a fresh object whose parent, if any, has recorded its id. -/
lemma Inv.push (h : w.Inv bs) {m' : KvMemory} (hmem : m'.MemInv {r | r ∈ w.live})
    (hbs : m'.blockSize = w.mem.blockSize) (hnext : m'.next = w.mem.next) {c : BlockContext}
    (hc : c.tokenKvBlockIds = [] ∧ c.tokenKvSlotIds = [] ∧ c.subContextIds = [])
    (hparent : ∀ p, c.parentContext = some p → p ∈ w.live)
    (hobj : ∀ r, (m'.obj r).parentContext = (w.mem.obj r).parentContext ∧
      (m'.obj r).contextId = (w.mem.obj r).contextId)
    (hsub : ∀ p ∈ w.live, ∀ i, (m'.obj p).subContextIds.count i =
      (w.mem.obj p).subContextIds.count i +
        if c.parentContext = some p ∧ c.contextId = i then 1 else 0) :
    Inv bs { w with mem := m'.push c, live := w.mem.next :: w.live } := by
  have hnew : w.mem.next ∉ w.live := fun hmem' => Nat.lt_irrefl _ (h.mem.lt_next _ hmem')
  have hself : (m'.push c).obj w.mem.next = c := by
    rw [← hnext]
    exact m'.set_obj_self m'.next c
  have hother : ∀ r ∈ w.live, (m'.push c).obj r = m'.obj r := fun r hr =>
    m'.set_obj_of_ne (hnext ▸ Nat.ne_of_lt (h.mem.lt_next r hr)) c
  have hcount : ∀ p i, childCount { w with mem := m'.push c, live := w.mem.next :: w.live } p i =
      w.childCount p i + if c.parentContext = some p ∧ c.contextId = i then 1 else 0 := by
    intro p i
    simp only [childCount, List.countP_cons, hself, decide_eq_true_eq]
    congr 1
    refine List.countP_congr fun r hr => ?_
    rw [hother r hr, (hobj r).1, (hobj r).2]
  refine ⟨?_, hbs.trans h.blockSize_eq, List.nodup_cons.mpr ⟨hnew, h.nodup⟩, ?_, ?_, ?_, ?_⟩
  · have hpush := hmem.push hc.1 hc.2.1
    rw [hnext] at hpush
    have hset : insert w.mem.next {r | r ∈ w.live} = {r | r ∈ w.mem.next :: w.live} := by
      ext r
      simp
    rwa [hset] at hpush
  · intro r hr p hp
    rcases List.mem_cons.mp hr with rfl | hr
    · rw [hself] at hp
      exact h.mem.lt_next p (hparent p hp)
    · rw [hother r hr, (hobj r).1] at hp
      exact h.older r hr p hp
  · intro r hr p hp
    rcases List.mem_cons.mp hr with rfl | hr
    · rw [hself] at hp
      exact List.mem_cons_of_mem _ (hparent p hp)
    · rw [hother r hr, (hobj r).1] at hp
      exact List.mem_cons_of_mem _ (h.parent_live r hr p hp)
  · intro o ho
    exact Nat.lt_succ_of_lt (hnext.symm ▸ h.orphans_lt o ho)
  · intro p hp i
    rw [hcount]
    rcases List.mem_cons.mp hp with rfl | hp
    · have hno : c.parentContext ≠ some w.mem.next := fun he => hnew (hparent _ he)
      rw [hself, hc.2.2, h.childCount_next, h.orphans_next]
      simp [hno]
    · rw [hother p hp, hsub p hp, h.children p hp]
      exact Nat.add_right_comm _ _ _

/-- A constructor that raised leaves its id behind in the parent. -/
lemma Inv.orphan (h : w.Inv bs) {m' : KvMemory} {p : CtxRef} {i : ℕ} {bl sl : List ℕ}
    (hp : p ∈ w.live) (hmem : m'.MemInv {r | r ∈ w.live})
    (hgrow : KvMemory.GrownBy w.mem m' p bl sl)
    (hsub : (m'.obj p).subContextIds = (w.mem.obj p).subContextIds ++ [i]) :
    Inv bs { w with mem := m', orphans := (p, i) :: w.orphans } := by
  have hobj : ∀ r, (m'.obj r).parentContext = (w.mem.obj r).parentContext ∧
      (m'.obj r).contextId = (w.mem.obj r).contextId := by
    intro r
    by_cases he : r = p
    · subst he
      exact ⟨hgrow.self.parentContext, hgrow.self.contextId⟩
    · rw [hgrow.other r he]
      exact ⟨rfl, rfl⟩
  refine ⟨hmem, hgrow.blockSize.trans h.blockSize_eq, h.nodup, fun r hr q hq => ?_,
    fun r hr q hq => ?_, fun o ho => ?_, fun q hq j => ?_⟩
  · exact h.older r hr q ((hobj r).1 ▸ hq)
  · exact h.parent_live r hr q ((hobj r).1 ▸ hq)
  · rw [hgrow.next]
    rcases List.mem_cons.mp ho with rfl | ho
    · exact h.mem.lt_next p hp
    · exact h.orphans_lt o ho
  · have hcount : childCount { w with mem := m', orphans := (p, i) :: w.orphans } q j =
        w.childCount q j := by
      simp only [childCount, (hobj _).1, (hobj _).2]
    rw [hcount, List.count_cons]
    by_cases he : q = p
    · subst he
      rw [hsub, List.count_append, h.children q hq, List.count_singleton]
      simp only [beq_iff_eq, Prod.mk.injEq, true_and]
      omega
    · have hne : ((p, i) == (q, j)) = false := by
        simp [Ne.symm he]
      rw [hgrow.other q he, h.children q hq, hne]
      simp

/-- Creation keeps the invariant, whether the constructor returns or raises. -/
lemma Inv.create (h : w.Inv bs) {i : ℕ} {parent : Option CtxRef}
    (hparent : ∀ p, parent = some p → p ∈ w.live) : Inv bs (w.apply (.create i parent)) := by
  rcases parent with _ | p
  · simp only [apply, KvMemory.newContext]
    refine h.push h.mem rfl rfl ⟨rfl, rfl, rfl⟩ ?_ (fun _ => ⟨rfl, rfl⟩) ?_
    · simp
    · simp
  · have hp := hparent p rfl
    obtain ⟨hmem, bl, sl, hgrow, hsub, -⟩ := KvMemory.adopt_spec i h.mem hp
    rcases ha : w.mem.adopt p i with ⟨_ | ⟨⟩, m'⟩
    · rw [ha] at hmem hgrow hsub
      simp only [apply, KvMemory.newContext, ha]
      exact h.orphan hp hmem hgrow hsub
    · rw [ha] at hmem hgrow hsub
      simp only [apply, KvMemory.newContext, ha]
      rw [hgrow.next]
      refine h.push hmem hgrow.blockSize hgrow.next ⟨rfl, rfl, rfl⟩ ?_ (fun r => ?_)
        fun q hq j => ?_
      · rintro q ⟨⟩
        exact hp
      · by_cases he : r = p
        · subst he
          exact ⟨hgrow.self.parentContext, hgrow.self.contextId⟩
        · rw [hgrow.other r he]
          exact ⟨rfl, rfl⟩
      · by_cases he : q = p
        · subst he
          rw [hsub, List.count_append, List.count_singleton]
          simp
        · have hne : ¬ (p = q ∧ i = j) := fun hc => he hc.1.symm
          have hobj : m'.obj q = w.mem.obj q := hgrow.other q he
          simp only [hobj, Option.some.injEq, hne, if_false, Nat.add_zero]

/-! ## Destruction -/

/-- The destruction of a live context without sub-contexts succeeds. -/
lemma Inv.destruction_ok (h : w.Inv bs) {r : CtxRef} (hr : r ∈ w.live)
    (hleaf : (w.mem.obj r).subContextIds = []) :
    ∃ pool, w.mem.destruction r = (.ok (), { w.mem.unlinked r with kvCacheManager := pool }) ∧
      pool.freeIds = w.mem.kvCacheManager.freeIds ++ stride bs (w.mem.obj r).tokenKvBlockIds ∧
      KvMemory.MemInv { w.mem.unlinked r with kvCacheManager := pool }
        ({r | r ∈ w.live} \ {r}) := by
  have hspec := KvMemory.destruction_spec h.mem hr hleaf fun p hp =>
    ⟨Nat.ne_of_lt (h.older r hr p hp), h.mem_subContextIds hr hp⟩
  rwa [h.blockSize_eq] at hspec

/-- A context without sub-contexts has no live child. -/
lemma Inv.no_child (h : w.Inv bs) {r p : CtxRef} (hr : r ∈ w.live)
    (hleaf : (w.mem.obj p).subContextIds = []) : (w.mem.obj r).parentContext ≠ some p := by
  intro hpar
  have hmem := h.mem_subContextIds hr hpar
  rw [hleaf] at hmem
  simp at hmem

/-- Destruction keeps the invariant for the remaining contexts. -/
lemma Inv.destroy (h : w.Inv bs) {r : CtxRef} (hr : r ∈ w.live)
    (hleaf : (w.mem.obj r).subContextIds = []) : Inv bs (w.apply (.destroy r)) := by
  obtain ⟨pool, hd, -, hmem⟩ := h.destruction_ok hr hleaf
  obtain ⟨hbs, hnext, -, -⟩ := w.mem.unlinked_grown r r
  have hext := fun r' => (w.mem.unlinked_grown r r').2.2.2
  simp only [apply, hd]
  refine ⟨?_, hbs.trans h.blockSize_eq, h.nodup.erase r, ?_, ?_, ?_, ?_⟩
  · have hset : {r' | r' ∈ w.live} \ {r} = {r' | r' ∈ w.live.erase r} := by
      ext x
      simp only [Set.mem_sdiff, Set.mem_ofPred_eq, Set.mem_singleton_iff, h.nodup.mem_erase_iff]
      tauto
    rwa [hset] at hmem
  · intro r' hr' p hp
    exact h.older r' (List.mem_of_mem_erase hr') p ((hext r').parentContext ▸ hp)
  · intro r' hr' p hp
    have hr'' := List.mem_of_mem_erase hr'
    have hpar : (w.mem.obj r').parentContext = some p := (hext r').parentContext ▸ hp
    refine (h.nodup.mem_erase_iff).mpr ⟨?_, h.parent_live r' hr'' p hpar⟩
    rintro rfl
    exact h.no_child hr'' hleaf hpar
  · exact fun o ho => hnext ▸ h.orphans_lt o ho
  · intro p hp i
    obtain ⟨hpr, hp'⟩ := h.nodup.mem_erase_iff.mp hp
    -- the destroyed context leaves the count of live children and the list together
    have hcount : w.childCount p i =
        childCount { w with mem := { w.mem.unlinked r with kvCacheManager := pool }
                            live := w.live.erase r } p i +
          if (w.mem.obj r).parentContext = some p ∧ (w.mem.obj r).contextId = i then 1 else 0 := by
      simp only [childCount, (hext _).parentContext, (hext _).contextId]
      rw [(List.perm_cons_erase hr).countP_eq, List.countP_cons]
      simp only [decide_eq_true_eq]
    have hlist : (w.mem.obj p).subContextIds.count i =
        ((w.mem.unlinked r).obj p).subContextIds.count i +
          if (w.mem.obj r).parentContext = some p ∧ (w.mem.obj r).contextId = i then 1 else 0 := by
      by_cases hpar : (w.mem.obj r).parentContext = some p
      · have hmem' := h.mem_subContextIds hr hpar
        simp only [KvMemory.unlinked, hpar, KvMemory.set_obj_self, true_and]
        rw [(List.perm_cons_erase hmem').count_eq, List.count_cons]
        simp only [beq_iff_eq]
      · have hobj : (w.mem.unlinked r).obj p = w.mem.obj p := by
          rcases hq : (w.mem.obj r).parentContext with _ | q
          · simp only [KvMemory.unlinked, hq]
          · have hqp : p ≠ q := fun he => hpar (by rw [hq, he])
            simp only [KvMemory.unlinked, hq, KvMemory.set_obj_of_ne _ hqp]
        simp [hobj, hpar]
    have hchildren := h.children p hp' i
    simp only at hcount ⊢
    omega

/-! ## The invariant of every run -/

lemma inv_init (hbs : 0 < bs) {pool : RecyclePool} (hpool : pool.Owns ∅) :
    Inv bs (start bs pool) := by
  have hblocks : (KvMemory.empty bs pool).blocksOf {r | r ∈ ([] : List CtxRef)} = ∅ := by
    ext b
    simp [KvMemory.blocksOf]
  have hmem : (KvMemory.empty bs pool).MemInv {r | r ∈ ([] : List CtxRef)} := by
    refine ⟨hbs, by simp, by simp, by simp, ?_⟩
    rw [hblocks]
    exact hpool
  refine ⟨hmem, rfl, List.nodup_nil, ?_, ?_, ?_, ?_⟩ <;> simp [start]

/-- Every operation keeps the invariant. -/
lemma Inv.apply (h : w.Inv bs) {a : BlockAction} (ha : w.Enabled a) : Inv bs (w.apply a) := by
  cases a with
  | create i parent => exact h.create ha
  | allocate r n =>
      obtain ⟨hmem, bl, sl, hgrow, -, -⟩ := KvMemory.allocate_spec n h.mem ha
      exact h.of_grown hmem hgrow (KvMemory.allocate_flags n w.mem r r).1
  | padTo r n =>
      obtain ⟨hmem, bl, sl, hgrow, hsub, -, -⟩ := KvMemory.padTo_spec n h.mem ha
      exact h.of_grown hmem hgrow hsub
  | destroy r => exact h.destroy ha.1 ha.2

lemma inv_invariant (hbs : 0 < bs) {pool : RecyclePool} (hpool : pool.Owns ∅) :
    (system bs pool).IsInvariantUnder (fun _ _ => True) (Inv bs) where
  init w hw := by
    rw [show w = start bs pool from hw]
    exact inv_init hbs hpool
  step w a w' h _ hstep := by
    rw [hstep.2]
    exact h.apply hstep.1

/-- **Block ownership.**  In every state of every run over a fresh pool of any size, the tables
of a live context represent a paged sequence, no block and no slot belongs to two live contexts
or to two positions, destroying a context without sub-contexts returns each of its blocks to the
pool exactly once, and a context none of whose children failed has sub-contexts exactly when it
has a live child. -/
theorem block_ownership (blockSize : ℕ) (hbs : 0 < blockSize) (poolName : String)
    (poolSize : Option ℕ) (debugMode : Bool) (w : BlockWorld)
    (hw : (system blockSize
      { poolName := poolName, poolSize := poolSize, debugMode := debugMode }).Reachable w) :
    (∀ r ∈ w.live,
      (w.mem.obj r).tokenKvSlotIds.length = (w.mem.obj r).tokenKvBlockIds.length ∧
      (∀ i b, (w.mem.obj r).tokenKvBlockIds[i]? = some b →
        (w.mem.obj r).tokenKvSlotIds[i]? = some (b * blockSize + i % blockSize)) ∧
      (∀ i j a b, (w.mem.obj r).tokenKvBlockIds[i]? = some a →
        (w.mem.obj r).tokenKvBlockIds[j]? = some b → (a = b ↔ i / blockSize = j / blockSize)) ∧
      (w.mem.obj r).tokenKvSlotIds.Nodup) ∧
    (∀ r ∈ w.live, ∀ r' ∈ w.live, r ≠ r' →
      List.Disjoint (w.mem.obj r).tokenKvBlockIds (w.mem.obj r').tokenKvBlockIds ∧
      List.Disjoint (w.mem.obj r).tokenKvSlotIds (w.mem.obj r').tokenKvSlotIds) ∧
    (∀ r ∈ w.live, (w.mem.obj r).subContextIds = [] →
      ∃ m' freed, w.mem.destruction r = (.ok (), m') ∧
        m'.kvCacheManager.freeIds = w.mem.kvCacheManager.freeIds ++ freed ∧
        m'.kvCacheManager.freeIds.Nodup ∧
        ∀ b, b ∈ freed ↔ b ∈ (w.mem.obj r).tokenKvBlockIds) ∧
    (∀ r ∈ w.live, (∀ i, (r, i) ∉ w.orphans) →
      ((w.mem.obj r).subContextIds = [] ↔
        ∀ c ∈ w.live, (w.mem.obj c).parentContext ≠ some r)) := by
  have h := (inv_invariant hbs (RecyclePool.owns_empty poolName poolSize debugMode)).holds hw
  have hpaged : ∀ r ∈ w.live, Paged blockSize (w.mem.obj r).tokenKvBlockIds
      (w.mem.obj r).tokenKvSlotIds := fun r hr => h.blockSize_eq ▸ h.mem.paged r hr
  refine ⟨fun r hr => ⟨(hpaged r hr).length_eq, fun i b hb => ?_, (hpaged r hr).page,
    (hpaged r hr).nodup_slots hbs⟩, fun r hr r' hr' hne => ?_, fun r hr hleaf => ?_,
    fun r hr horphan => ⟨fun hleaf c hc => h.no_child hc hleaf, fun hno => ?_⟩⟩
  · rw [(hpaged r hr).slot i, hb, Option.map_some]
  · have hdisj := h.mem.disjoint r hr r' hr' hne
    exact ⟨hdisj, (hpaged r hr).disjoint_slots (hpaged r' hr') hbs hdisj⟩
  · obtain ⟨pool, hd, hids, hmem⟩ := h.destruction_ok hr hleaf
    exact ⟨_, _, hd, hids, hmem.owns.free_nodup, fun b => (hpaged r hr).mem_stride hbs⟩
  · refine List.eq_nil_iff_forall_not_mem.mpr fun i hi => ?_
    have hcount := h.children r hr i
    have hzero : w.childCount r i = 0 := by
      rw [childCount, List.countP_eq_zero]
      intro c hc
      simp [hno c hc]
    rw [hzero, List.count_eq_zero.mpr (horphan i)] at hcount
    exact absurd hcount (Nat.ne_of_gt (List.count_pos_iff.mpr hi))

/-- A run on two usable blocks of two positions: the child's `allocate` raises after its first
block is full, and the parent keeps its block to itself. -/
theorem block_ownership_exhausted :
    let w := [.create 0 none, .allocate 0 1, .create 1 (some 0), .allocate 1 3].foldl apply
      (start 2 { poolSize := some 3 })
    (w.mem.obj 1).tokenKvSlotIds = [2, 3] ∧
      List.Disjoint (w.mem.obj 0).tokenKvSlotIds (w.mem.obj 1).tokenKvSlotIds := by
  refine ⟨by decide, ?_⟩
  refine ((block_ownership 2 (by decide) "pool" (some 3) false _
    (.foldl _ (.init rfl) ?_)).2.1 0 ?_ 1 ?_ (by decide)).2
  · exact ⟨by decide, trivial, by decide, trivial, by decide, trivial, by decide, trivial, trivial⟩
  · decide
  · decide

end BlockWorld
end ParrotServe
