import ParrotServe.Model.BlockContext

/-!
# What the memory operations do

The specifications of the operations of `KvMemory` against one invariant.  `MemInv m live` says
that the objects in `live` are paged sequences on pairwise disjoint blocks and that the pool
counts exactly these blocks as handed out.  Which objects are live is the caller's business: for
contexts driven directly it is what was created and not destroyed, for an engine it is what the
context manager has registered.

`GrownBy m m' r bs ss` is the frame condition shared by everything that allocates: only the
object `r` changed, and its tables were extended.  The lemmas `allocate_spec`, `padTo_spec`,
`adopt_spec` and `newContext_spec` also describe the memory after an exception, since the pool
can run out in the middle of each of them; `destruction_spec` is the success of `destruction` on
an object without sub-contexts.
-/

namespace ParrotServe
namespace KvMemory

variable {m m' m'' : KvMemory} {live : Set CtxRef} {r p : CtxRef}

/-! ## The invariant and the frame condition -/

/-- The blocks held by the objects of a set. -/
def blocksOf (m : KvMemory) (live : Set CtxRef) : Set ℕ :=
  {b | ∃ r ∈ live, b ∈ (m.obj r).tokenKvBlockIds}

/-- The live objects are paged sequences on disjoint blocks, owned by them. -/
structure MemInv (m : KvMemory) (live : Set CtxRef) : Prop where
  blockSize_pos : 0 < m.blockSize
  lt_next : ∀ r ∈ live, r < m.next
  paged : ∀ r ∈ live, Paged m.blockSize (m.obj r).tokenKvBlockIds (m.obj r).tokenKvSlotIds
  disjoint : ∀ r ∈ live, ∀ r' ∈ live, r ≠ r' →
    List.Disjoint (m.obj r).tokenKvBlockIds (m.obj r').tokenKvBlockIds
  owns : m.kvCacheManager.Owns (m.blocksOf live)

namespace MemInv

lemma nodup_slots (h : m.MemInv live) (hr : r ∈ live) : (m.obj r).tokenKvSlotIds.Nodup :=
  (h.paged r hr).nodup_slots h.blockSize_pos

/-- A slot belongs to one live object. -/
lemma eq_of_mem_slots (h : m.MemInv live) {a b : CtxRef} (ha : a ∈ live) (hb : b ∈ live)
    {slot : ℕ} (hslot : slot ∈ (m.obj a).tokenKvSlotIds)
    (hslot' : slot ∈ (m.obj b).tokenKvSlotIds) : a = b := by
  by_contra hne
  exact (h.paged a ha).disjoint_slots (h.paged b hb) h.blockSize_pos (h.disjoint a ha b hb hne)
    hslot hslot'

/-- The last slots of different live objects are different slots. -/
lemma nodup_flatMap {ι : Type} {xs : List ι} {ctx : ι → CtxRef} {new : ι → List ℕ}
    (h : m.MemInv live) (hlive : ∀ x ∈ xs, ctx x ∈ live) (hdistinct : (xs.map ctx).Nodup)
    (hnew : ∀ x ∈ xs, new x <:+ (m.obj (ctx x)).tokenKvSlotIds) : (xs.flatMap new).Nodup := by
  rw [List.nodup_flatMap]
  refine ⟨fun x hx => (hnew x hx).sublist.nodup (h.nodup_slots (hlive x hx)), ?_⟩
  refine (List.pairwise_map.mp hdistinct).imp_of_mem fun {x y} hx hy hne slot hslot hslot' => ?_
  exact hne (h.eq_of_mem_slots (hlive x hx) (hlive y hy) ((hnew x hx).subset hslot)
    ((hnew y hy).subset hslot'))

end MemInv

/-- `c'` is `c` with longer tables.  The links to children and the padding flags are not
constrained. -/
structure Extends (c c' : BlockContext) (bs ss : List ℕ) : Prop where
  contextId : c'.contextId = c.contextId
  depth : c'.depth = c.depth
  parentContext : c'.parentContext = c.parentContext
  tokenIds : c'.tokenIds = c.tokenIds
  lastHiddenState : c'.lastHiddenState = c.lastHiddenState
  blocks : c'.tokenKvBlockIds = c.tokenKvBlockIds ++ bs
  slots : c'.tokenKvSlotIds = c.tokenKvSlotIds ++ ss

/-- Only the object `r` changed, by an extension of its tables. -/
structure GrownBy (m m' : KvMemory) (r : CtxRef) (bs ss : List ℕ) : Prop where
  blockSize : m'.blockSize = m.blockSize
  next : m'.next = m.next
  other : ∀ r' ≠ r, m'.obj r' = m.obj r'
  self : Extends (m.obj r) (m'.obj r) bs ss

lemma Extends.refl (c : BlockContext) : Extends c c [] [] := by
  constructor <;> simp

lemma Extends.trans {c c' c'' : BlockContext} {bs ss bs' ss' : List ℕ}
    (h : Extends c c' bs ss) (h' : Extends c' c'' bs' ss') :
    Extends c c'' (bs ++ bs') (ss ++ ss') where
  contextId := h'.contextId.trans h.contextId
  depth := h'.depth.trans h.depth
  parentContext := h'.parentContext.trans h.parentContext
  tokenIds := h'.tokenIds.trans h.tokenIds
  lastHiddenState := h'.lastHiddenState.trans h.lastHiddenState
  blocks := by rw [h'.blocks, h.blocks, List.append_assoc]
  slots := by rw [h'.slots, h.slots, List.append_assoc]

lemma GrownBy.refl (m : KvMemory) (r : CtxRef) : GrownBy m m r [] [] :=
  ⟨rfl, rfl, fun _ _ => rfl, Extends.refl _⟩

lemma GrownBy.trans {bs ss bs' ss' : List ℕ} (h : GrownBy m m' r bs ss)
    (h' : GrownBy m' m'' r bs' ss') : GrownBy m m'' r (bs ++ bs') (ss ++ ss') where
  blockSize := h'.blockSize.trans h.blockSize
  next := h'.next.trans h.next
  other r' hr' := (h'.other r' hr').trans (h.other r' hr')
  self := h.self.trans h'.self

/-- The frame condition does not mention the pool. -/
lemma GrownBy.of_pool {pool : RecyclePool} {bs ss : List ℕ}
    (h : GrownBy { m with kvCacheManager := pool } m' r bs ss) : GrownBy m m' r bs ss :=
  ⟨h.blockSize, h.next, h.other, h.self⟩

/-- Growing keeps identities and parents. -/
lemma GrownBy.links {bs ss : List ℕ} (h : GrownBy m m' r bs ss) (r' : CtxRef) :
    (m'.obj r').contextId = (m.obj r').contextId ∧
      (m'.obj r').parentContext = (m.obj r').parentContext := by
  by_cases he : r' = r
  · subst he
    exact ⟨h.self.contextId, h.self.parentContext⟩
  · rw [h.other r' he]
    exact ⟨rfl, rfl⟩

/-- An object whose id list was extended, among objects that did not change. -/
lemma GrownBy.sub_mono {bs ss ids : List ℕ} (h : GrownBy m m' r bs ss)
    (hsub : (m'.obj r).subContextIds = (m.obj r).subContextIds ++ ids) (p i : ℕ)
    (hi : i ∈ (m.obj p).subContextIds) : i ∈ (m'.obj p).subContextIds := by
  by_cases he : p = r
  · subst he
    rw [hsub]
    exact List.mem_append_left _ hi
  · rwa [h.other p he]

/-- Overwriting an object without touching its tables. -/
lemma GrownBy.set {c : BlockContext} (h : Extends (m.obj r) c [] []) :
    GrownBy m (m.set r c) r [] [] where
  blockSize := rfl
  next := rfl
  other r' hr' := m.set_obj_of_ne hr' c
  self := by rwa [set_obj_self]

/-- The invariant only reads the tables and the pool. -/
lemma MemInv.congr (h : MemInv m live) (hbs : m'.blockSize = m.blockSize)
    (hpool : m'.kvCacheManager = m.kvCacheManager) (hnext : m.next ≤ m'.next)
    (hobj : ∀ r ∈ live, (m'.obj r).tokenKvBlockIds = (m.obj r).tokenKvBlockIds ∧
      (m'.obj r).tokenKvSlotIds = (m.obj r).tokenKvSlotIds) : MemInv m' live where
  blockSize_pos := hbs ▸ h.blockSize_pos
  lt_next r hr := Nat.lt_of_lt_of_le (h.lt_next r hr) hnext
  paged r hr := by
    rw [(hobj r hr).1, (hobj r hr).2, hbs]
    exact h.paged r hr
  disjoint r hr r' hr' hne := by
    rw [(hobj r hr).1, (hobj r' hr').1]
    exact h.disjoint r hr r' hr' hne
  owns := by
    have hblocks : m'.blocksOf live = m.blocksOf live := by
      ext b
      refine exists_congr fun r => and_congr_right fun hr => ?_
      rw [(hobj r hr).1]
    rw [hpool, hblocks]
    exact h.owns

/-- Overwriting an object without touching its tables keeps the invariant. -/
lemma MemInv.set_of_tables (h : MemInv m live) {c : BlockContext}
    (hblocks : c.tokenKvBlockIds = (m.obj r).tokenKvBlockIds)
    (hslots : c.tokenKvSlotIds = (m.obj r).tokenKvSlotIds) : MemInv (m.set r c) live := by
  refine h.congr rfl rfl (Nat.le_refl _) fun r' _ => ?_
  by_cases hr : r' = r
  · subst hr
    rw [set_obj_self]
    exact ⟨hblocks, hslots⟩
  · rw [set_obj_of_ne _ hr]
    exact ⟨rfl, rfl⟩

lemma MemInv.set (h : MemInv m live) {c : BlockContext} (hc : Extends (m.obj r) c [] []) :
    MemInv (m.set r c) live :=
  h.set_of_tables (hc.blocks.trans (List.append_nil _)) (hc.slots.trans (List.append_nil _))

/-- Fewer live objects: the blocks of the others stay out of the pool. -/
lemma MemInv.mono (h : MemInv m live) {live' : Set CtxRef} (hsub : live' ⊆ live) :
    MemInv m live' where
  blockSize_pos := h.blockSize_pos
  lt_next r hr := h.lt_next r (hsub hr)
  paged r hr := h.paged r (hsub hr)
  disjoint r hr r' hr' := h.disjoint r (hsub hr) r' (hsub hr')
  owns := h.owns.mono fun _ ⟨r, hr, hb⟩ => ⟨r, hsub hr, hb⟩

/-- An object without blocks may be counted as live. -/
lemma MemInv.insert_empty (h : MemInv m live) (hr : r < m.next)
    (hblocks : (m.obj r).tokenKvBlockIds = []) (hslots : (m.obj r).tokenKvSlotIds = []) :
    MemInv m (insert r live) where
  blockSize_pos := h.blockSize_pos
  lt_next := by
    rintro r' (rfl | hr')
    · exact hr
    · exact h.lt_next r' hr'
  paged := by
    rintro r' (rfl | hr')
    · rw [hblocks, hslots]
      exact Paged.nil _
    · exact h.paged r' hr'
  disjoint := by
    rintro r₁ (rfl | h₁) r₂ (rfl | h₂) hne
    · exact (hne rfl).elim
    · simp [hblocks]
    · simp [hblocks]
    · exact h.disjoint r₁ h₁ r₂ h₂ hne
  owns := by
    have hset : m.blocksOf (insert r live) = m.blocksOf live := by
      ext b
      constructor
      · rintro ⟨r', rfl | hr', hb⟩
        · rw [hblocks] at hb
          simp at hb
        · exact ⟨r', hr', hb⟩
      · rintro ⟨r', hr', hb⟩
        exact ⟨r', Or.inr hr', hb⟩
    rw [hset]
    exact h.owns

/-! ## The walk to the root -/

/-- Parents of a set of objects are older and in the set. -/
def Rooted (m : KvMemory) (live : Set CtxRef) : Prop :=
  ∀ r ∈ live, ∀ p, (m.obj r).parentContext = some p → p < r ∧ p ∈ live

/-- Induction from the roots towards the leaves. -/
lemma Rooted.induction (h : Rooted m live) {P : CtxRef → Prop}
    (step : ∀ r ∈ live, (∀ p, (m.obj r).parentContext = some p → p ∈ live ∧ P p) → P r) :
    ∀ r ∈ live, P r := by
  intro r
  induction r using Nat.strong_induction_on with
  | _ r ih =>
      intro hr
      refine step r hr fun p hp => ?_
      obtain ⟨hlt, hmem⟩ := h r hr p hp
      exact ⟨hmem, ih p hlt hmem⟩

variable {α : Type} (f : BlockContext → List α)

/-- Fuel above the reference is enough to reach the root. -/
lemma Rooted.gatherAux_fuel (h : Rooted m live) : ∀ r ∈ live, ∀ n : ℕ, r < n →
    m.gatherAux f n r = m.gatherAux f (r + 1) r := by
  refine h.induction fun r hr ih n hn => ?_
  cases n with
  | zero => exact (Nat.not_lt_zero r hn).elim
  | succ n =>
      rw [gatherAux, gatherAux]
      rcases hp : (m.obj r).parentContext with _ | p
      · rfl
      · have hlt := (h r hr p hp).1
        have hpn := (ih p hp).2
        dsimp only
        rw [hpn n (Nat.lt_of_lt_of_le hlt (Nat.lt_succ_iff.mp hn)), hpn r hlt]

/-- `gather` is the recursion of the source. -/
lemma Rooted.gather_eq (h : Rooted m live) (hr : r ∈ live) :
    m.gather f r = (match (m.obj r).parentContext with
      | none => []
      | some p => m.gather f p) ++ f (m.obj r) := by
  rw [gather, gatherAux]
  rcases hp : (m.obj r).parentContext with _ | p
  · rfl
  · obtain ⟨hlt, hmem⟩ := h r hr p hp
    dsimp only
    rw [h.gatherAux_fuel f p hmem r hlt]
    rfl

/-- `get_context_len` counts the block ids of the chain. -/
lemma getContextLen_eq (m : KvMemory) (r : CtxRef) :
    m.getContextLen r = (m.getContextBlockIds r).length := by
  have haux : ∀ n r, m.getContextLenAux n r =
      (m.gatherAux BlockContext.tokenKvBlockIds n r).length := by
    intro n
    induction n with
    | zero => intro r; rfl
    | succ n ih =>
        intro r
        rw [getContextLenAux, gatherAux, List.length_append]
        rcases (m.obj r).parentContext with _ | p
        · rfl
        · dsimp only
          rw [ih p]
          rfl
  exact haux (r + 1) r

/-- The objects from the root to `r`. -/
def lineageAux (m : KvMemory) : ℕ → CtxRef → List CtxRef
  | 0, _ => []
  | fuel + 1, r =>
      (match (m.obj r).parentContext with
        | none => []
        | some p => lineageAux m fuel p) ++ [r]

/-- The objects from the root to `r`. -/
def lineage (m : KvMemory) (r : CtxRef) : List CtxRef := m.lineageAux (r + 1) r

lemma self_mem_lineage (m : KvMemory) (r : CtxRef) : r ∈ m.lineage r := by
  rw [lineage, lineageAux]
  exact List.mem_append_right _ List.mem_cons_self

/-- What a chain gathers is read off its objects. -/
lemma gather_eq_lineage (m : KvMemory) (r : CtxRef) :
    m.gather f r = (m.lineage r).flatMap fun a => f (m.obj a) := by
  have haux : ∀ n r, m.gatherAux f n r = (m.lineageAux n r).flatMap fun a => f (m.obj a) := by
    intro n
    induction n with
    | zero => intro r; rfl
    | succ n ih =>
        intro r
        rw [gatherAux, lineageAux, List.flatMap_append]
        rcases (m.obj r).parentContext with _ | p
        · simp
        · dsimp only
          rw [ih p]
          simp
  exact haux (r + 1) r

lemma lineage_congr (hpar : ∀ r, (m'.obj r).parentContext = (m.obj r).parentContext)
    (r : CtxRef) : m'.lineage r = m.lineage r := by
  have haux : ∀ n r, m'.lineageAux n r = m.lineageAux n r := by
    intro n
    induction n with
    | zero => intro r; rfl
    | succ n ih =>
        intro r
        rw [lineageAux, lineageAux, hpar r]
        rcases (m.obj r).parentContext with _ | p
        · rfl
        · dsimp only
          rw [ih p]
  exact haux (r + 1) r

/-- The same data along the same chains. -/
lemma gather_congr (hpar : ∀ r, (m'.obj r).parentContext = (m.obj r).parentContext)
    (hf : ∀ r, f (m'.obj r) = f (m.obj r)) (r : CtxRef) : m'.gather f r = m.gather f r := by
  rw [gather_eq_lineage, gather_eq_lineage, lineage_congr hpar]
  exact List.flatMap_congr fun a _ => hf a

lemma Rooted.mem_of_lineage (h : Rooted m live) (hr : r ∈ live) :
    ∀ a ∈ m.lineage r, a ∈ live := by
  have haux : ∀ n r, r ∈ live → ∀ a ∈ m.lineageAux n r, a ∈ live := by
    intro n
    induction n with
    | zero => intro r _ a ha; simp [lineageAux] at ha
    | succ n ih =>
        intro r hr a ha
        rw [lineageAux, List.mem_append, List.mem_singleton] at ha
        rcases ha with ha | rfl
        · rcases hp : (m.obj r).parentContext with _ | p
          · rw [hp] at ha
            simp at ha
          · rw [hp] at ha
            exact ih p (h r hr p hp).2 a ha
        · exact hr
  exact haux (r + 1) r hr

/-! ## Allocation -/

/-- The tables after an appended position. -/
lemma appendPosition_grown (m : KvMemory) (r : CtxRef) (b s : ℕ) :
    GrownBy m (m.appendPosition r b s) r [b] [s] := by
  refine ⟨rfl, rfl, fun r' hr' => m.set_obj_of_ne hr' _, ?_⟩
  rw [appendPosition, set_obj_self]
  exact ⟨rfl, rfl, rfl, rfl, rfl, rfl, rfl⟩

/-- Appending a position whose block no other live object holds keeps the tables disjoint; the
blocks held are the old ones and this one. -/
lemma MemInv.append_position (h : MemInv m live) (hr : r ∈ live) {b s : ℕ} {pool : RecyclePool}
    (hpaged : Paged m.blockSize ((m.obj r).tokenKvBlockIds ++ [b])
      ((m.obj r).tokenKvSlotIds ++ [s]))
    (hother : ∀ r' ∈ live, r' ≠ r → b ∉ (m.obj r').tokenKvBlockIds)
    (howns : pool.Owns (insert b (m.blocksOf live))) :
    MemInv ({ m with kvCacheManager := pool }.appendPosition r b s) live := by
  set m' := { m with kvCacheManager := pool }.appendPosition r b s with hm'
  have hgrow : GrownBy { m with kvCacheManager := pool } m' r [b] [s] :=
    appendPosition_grown _ r b s
  have hself : (m'.obj r).tokenKvBlockIds = (m.obj r).tokenKvBlockIds ++ [b] := hgrow.self.blocks
  have hne : ∀ r', r' ≠ r → m'.obj r' = m.obj r' := hgrow.other
  refine ⟨h.blockSize_pos, h.lt_next, fun r' hr' => ?_, fun r₁ h₁ r₂ h₂ hr₁₂ => ?_, ?_⟩
  · by_cases he : r' = r
    · rw [he, hself, hgrow.self.slots]
      exact hpaged
    · rw [hne r' he]
      exact h.paged r' hr'
  · have hdisj := h.disjoint r₁ h₁ r₂ h₂ hr₁₂
    by_cases he₁ : r₁ = r
    · subst he₁
      rw [hself, hne r₂ (Ne.symm hr₁₂)]
      exact List.disjoint_append_left.mpr
        ⟨hdisj, List.singleton_disjoint.mpr (hother r₂ h₂ (Ne.symm hr₁₂))⟩
    · rw [hne r₁ he₁]
      by_cases he₂ : r₂ = r
      · subst he₂
        rw [hself]
        exact List.disjoint_append_right.mpr
          ⟨hdisj, List.disjoint_singleton.mpr (hother r₁ h₁ he₁)⟩
      · rw [hne r₂ he₂]
        exact hdisj
  · have hset : m'.blocksOf live = insert b (m.blocksOf live) := by
      ext x
      constructor
      · rintro ⟨r', hr', hx⟩
        by_cases he : r' = r
        · rw [he, hself, List.mem_append, List.mem_singleton] at hx
          exact hx.elim (fun hx => Or.inr ⟨r, hr, hx⟩) Or.inl
        · rw [hne r' he] at hx
          exact Or.inr ⟨r', hr', hx⟩
      · rintro (rfl | ⟨r', hr', hx⟩)
        · exact ⟨r, hr, by rw [hself]; exact List.mem_append_right _ List.mem_cons_self⟩
        · by_cases he : r' = r
          · subst he
            exact ⟨r', hr', by rw [hself]; exact List.mem_append_left _ hx⟩
          · exact ⟨r', hr', by rw [hne r' he]; exact hx⟩
    rw [hset]
    exact howns

/-- `_allocate_one` adds one position, or changes no object when the pool is exhausted. -/
lemma allocateOne_spec (h : MemInv m live) (hr : r ∈ live) :
    MemInv (m.allocateOne r).2 live ∧
      ∃ bs ss, GrownBy m (m.allocateOne r).2 r bs ss ∧
        (((m.allocateOne r).1 = .ok () ∧ bs.length = 1) ∨
          ((m.allocateOne r).1 ≠ .ok () ∧ bs = [] ∧ ss = [])) := by
  by_cases hlen : (m.obj r).tokenKvBlockIds.length % m.blockSize = 0
  · rcases ha : m.kvCacheManager.allocate with ⟨_ | b, pool⟩
    · simp only [allocateOne, hlen, if_true, ha]
      have hinv : MemInv { m with kvCacheManager := pool } live :=
        ⟨h.blockSize_pos, h.lt_next, h.paged, h.disjoint, h.owns.allocate_error ha⟩
      exact ⟨hinv, [], [], ⟨rfl, rfl, fun _ _ => rfl, Extends.refl _⟩, .inr (by simp)⟩
    · simp only [allocateOne, hlen, if_true, ha]
      obtain ⟨hfresh, howns⟩ := h.owns.allocate_ok ha
      have hnot : ∀ r' ∈ live, b ∉ (m.obj r').tokenKvBlockIds := fun r' hr' hb =>
        hfresh ⟨r', hr', hb⟩
      refine ⟨?_, [b], [b * m.blockSize], (appendPosition_grown _ r _ _).of_pool,
        .inl ⟨trivial, rfl⟩⟩
      exact h.append_position hr ((h.paged r hr).snoc_new (hnot r hr) hlen)
        (fun r' hr' _ => hnot r' hr') howns
  · -- a position inside a block has a predecessor, so neither `[-1]` raises
    have hne : (m.obj r).tokenKvBlockIds ≠ [] := by
      intro hnil
      simp [hnil] at hlen
    have hne' : (m.obj r).tokenKvSlotIds ≠ [] := by
      intro hnil
      have := (h.paged r hr).length_eq
      rw [hnil, List.length_nil] at this
      exact hne (List.length_eq_zero_iff.mp this.symm)
    have hb := List.getLast?_eq_some_getLast hne
    have hs := List.getLast?_eq_some_getLast hne'
    have hmem := List.getLast_mem hne
    simp only [allocateOne, hlen, if_false, hb, hs]
    have hheld : (m.obj r).tokenKvBlockIds.getLast hne ∈ m.blocksOf live := ⟨r, hr, hmem⟩
    have howns : m.kvCacheManager.Owns
        (insert ((m.obj r).tokenKvBlockIds.getLast hne) (m.blocksOf live)) := by
      rw [Set.insert_eq_of_mem hheld]
      exact h.owns
    refine ⟨?_, _, _, appendPosition_grown m r _ _, .inl ⟨trivial, rfl⟩⟩
    exact h.append_position hr ((h.paged r hr).snoc_same h.blockSize_pos hlen hb hs)
      (fun r' hr' hr'' hb' => h.disjoint r' hr' r hr hr'' hb' hmem) howns

/-- Allocation leaves the links to children and the padding flag of every object alone. -/
lemma allocateOne_flags (m : KvMemory) (r r' : CtxRef) :
    ((m.allocateOne r).2.obj r').subContextIds = (m.obj r').subContextIds ∧
      ((m.allocateOne r).2.obj r').padded = (m.obj r').padded := by
  have happend : ∀ (m : KvMemory) b s,
      ((m.appendPosition r b s).obj r').subContextIds = (m.obj r').subContextIds ∧
        ((m.appendPosition r b s).obj r').padded = (m.obj r').padded := by
    intro m b s
    by_cases he : r' = r
    · subst he
      rw [appendPosition, set_obj_self]
      exact ⟨rfl, rfl⟩
    · rw [appendPosition, set_obj_of_ne _ he]
      exact ⟨rfl, rfl⟩
  unfold allocateOne
  dsimp only
  split
  · split
    · exact ⟨rfl, rfl⟩
    · exact happend _ _ _
  · split
    · exact happend _ _ _
    · exact ⟨rfl, rfl⟩

lemma allocate_flags (n : ℕ) (m : KvMemory) (r r' : CtxRef) :
    ((m.allocate r n).2.obj r').subContextIds = (m.obj r').subContextIds ∧
      ((m.allocate r n).2.obj r').padded = (m.obj r').padded := by
  induction n generalizing m with
  | zero => exact ⟨rfl, rfl⟩
  | succ n ih =>
      have hone := allocateOne_flags m r r'
      rcases ho : m.allocateOne r with ⟨_ | ⟨⟩, m'⟩
      · rw [ho] at hone
        simp only [allocate, ho]
        exact hone
      · rw [ho] at hone
        simp only [allocate, ho]
        exact ⟨(ih m').1.trans hone.1, (ih m').2.trans hone.2⟩

/-- `allocate(n)` adds `n` positions, or fewer when it raises. -/
lemma allocate_spec (n : ℕ) (h : MemInv m live) (hr : r ∈ live) :
    MemInv (m.allocate r n).2 live ∧
      ∃ bs ss, GrownBy m (m.allocate r n).2 r bs ss ∧ bs.length ≤ n ∧
        ((m.allocate r n).1 = .ok () → bs.length = n) := by
  induction n generalizing m with
  | zero => exact ⟨h, [], [], GrownBy.refl m r, by simp, by simp⟩
  | succ n ih =>
      obtain ⟨hinv, bs, ss, hgrow, hres⟩ := allocateOne_spec h hr
      rcases ho : m.allocateOne r with ⟨_ | ⟨⟩, m'⟩
      · rw [ho] at hinv hgrow hres
        simp only [allocate, ho]
        rcases hres with ⟨hok, -⟩ | ⟨-, rfl, rfl⟩
        · simp at hok
        · exact ⟨hinv, [], [], hgrow, by simp, by simp⟩
      · rw [ho] at hinv hgrow hres
        simp only [allocate, ho]
        have hone : bs.length = 1 := by
          rcases hres with ⟨-, hone⟩ | ⟨hne, -⟩
          · exact hone
          · simp at hne
        obtain ⟨hinv', bs', ss', hgrow', hle, hok⟩ := ih hinv
        refine ⟨hinv', bs ++ bs', ss ++ ss', hgrow.trans hgrow', ?_, fun hres' => ?_⟩
        · rw [List.length_append]
          omega
        · rw [List.length_append, hok hres']
          omega

/-! ## Padding and construction -/

/-- The rounded length is the next multiple of the block size. -/
lemma totalLen_spec (hbs : 0 < m.blockSize) (n : ℕ) :
    n ≤ m.totalLen n ∧ m.blockSize ∣ m.totalLen n := by
  refine ⟨?_, Nat.dvd_mul_left _ _⟩
  have hdiv := Nat.div_add_mod (n + m.blockSize - 1) m.blockSize
  have hmod := Nat.mod_lt (n + m.blockSize - 1) hbs
  rw [totalLen, Nat.mul_comm]
  omega

/-- A length on a block boundary is not rounded. -/
lemma totalLen_of_dvd (hbs : 0 < m.blockSize) {n : ℕ} (h : m.blockSize ∣ n) :
    m.totalLen n = n := by
  obtain ⟨q, rfl⟩ := h
  have hlt : (m.blockSize - 1) / m.blockSize = 0 := Nat.div_eq_of_lt (by omega)
  calc m.totalLen (m.blockSize * q)
      = (m.blockSize * q + (m.blockSize - 1)) / m.blockSize * m.blockSize := by
        rw [totalLen, Nat.add_sub_assoc hbs]
    _ = m.blockSize * q := by rw [Nat.mul_add_div hbs, hlt, Nat.add_zero, Nat.mul_comm]

/-- `pad_to(length)` brings the context to that length and marks it, or raises on the way. -/
lemma padTo_spec (n : ℕ) (h : MemInv m live) (hr : r ∈ live) :
    MemInv (m.padTo r n).2 live ∧
      ∃ bs ss, GrownBy m (m.padTo r n).2 r bs ss ∧
        ((m.padTo r n).2.obj r).subContextIds = (m.obj r).subContextIds ∧
        bs.length ≤ n - m.getThisContextLen r ∧
        ((m.padTo r n).1 = .ok () →
          ((m.padTo r n).2.obj r).padded = true ∧ m.getThisContextLen r + bs.length = n) := by
  by_cases hn : n < m.getThisContextLen r
  · simp only [padTo, hn, if_true]
    exact ⟨h, [], [], GrownBy.refl m r, trivial, Nat.zero_le _, by simp⟩
  · have hset : Extends (m.obj r)
        { m.obj r with paddedLen := n - m.getThisContextLen r } [] [] :=
      ⟨rfl, rfl, rfl, rfl, rfl, by simp, by simp⟩
    obtain ⟨hinv, bs, ss, hgrow, hle, hok⟩ :=
      allocate_spec (n - m.getThisContextLen r) (h.set hset) hr
    have hsub := (allocate_flags (n - m.getThisContextLen r)
      (m.set r { m.obj r with paddedLen := n - m.getThisContextLen r }) r r).1
    rw [set_obj_self] at hsub
    have hgrow₁ := (GrownBy.set hset).trans hgrow
    rcases ha : (m.set r { m.obj r with paddedLen := n - m.getThisContextLen r }).allocate r
      (n - m.getThisContextLen r) with ⟨_ | ⟨⟩, m'⟩
    · rw [ha] at hinv hgrow₁ hsub
      simp only [padTo, hn, if_false, ha]
      exact ⟨hinv, bs, ss, hgrow₁, hsub, hle, by simp⟩
    · rw [ha] at hinv hgrow₁ hsub hok
      simp only [padTo, hn, if_false, ha]
      have hset' : Extends (m'.obj r) { m'.obj r with padded := true } [] [] :=
        ⟨rfl, rfl, rfl, rfl, rfl, by simp, by simp⟩
      refine ⟨hinv.set hset', bs ++ [], ss ++ [], ?_, ?_, by rwa [List.append_nil],
        fun _ => ⟨?_, ?_⟩⟩
      · exact hgrow₁.trans (GrownBy.set hset')
      · rw [set_obj_self]
        exact hsub
      · rw [set_obj_self]
      · rw [List.append_nil, hok rfl]
        omega

lemma link_extends (m : KvMemory) (p : CtxRef) (i : ℕ) :
    Extends (m.obj p) ((m.link p i).obj p) [] [] := by
  rw [link, set_obj_self]
  exact ⟨rfl, rfl, rfl, rfl, rfl, by simp, by simp⟩

lemma link_grown (m : KvMemory) (p : CtxRef) (i : ℕ) : GrownBy m (m.link p i) p [] [] :=
  ⟨rfl, rfl, fun _ hr' => m.set_obj_of_ne hr' _, m.link_extends p i⟩

lemma MemInv.link (h : MemInv m live) (p : CtxRef) (i : ℕ) : MemInv (m.link p i) live :=
  h.set ⟨rfl, rfl, rfl, rfl, rfl, by simp, by simp⟩

@[simp] lemma link_getThisContextLen (m : KvMemory) (p : CtxRef) (i : ℕ) :
    (m.link p i).getThisContextLen p = m.getThisContextLen p := by
  simp only [getThisContextLen, link, set_obj_self]

@[simp] lemma link_padded (m : KvMemory) (p : CtxRef) (i : ℕ) :
    ((m.link p i).obj p).padded = (m.obj p).padded := by
  rw [link, set_obj_self]

@[simp] lemma link_subContextIds (m : KvMemory) (p : CtxRef) (i : ℕ) :
    ((m.link p i).obj p).subContextIds = (m.obj p).subContextIds ++ [i] := by
  rw [link, set_obj_self]

/-- What the constructor of a child does to its parent: the id is recorded in any case, and a
parent that was not padded yet is padded to a block boundary unless the pool runs out. -/
lemma adopt_spec (i : ℕ) (h : MemInv m live) (hp : p ∈ live) :
    MemInv (m.adopt p i).2 live ∧
      ∃ bs ss, GrownBy m (m.adopt p i).2 p bs ss ∧
        ((m.adopt p i).2.obj p).subContextIds = (m.obj p).subContextIds ++ [i] ∧
        ((m.obj p).padded = true → (m.adopt p i).1 = .ok () ∧ bs = [] ∧ ss = []) ∧
        bs.length ≤ m.totalLen (m.getThisContextLen p) - m.getThisContextLen p ∧
        ((m.adopt p i).1 = .ok () →
          ((m.adopt p i).2.obj p).padded = true ∧
          ((m.obj p).padded = false →
            m.getThisContextLen p + bs.length = m.totalLen (m.getThisContextLen p))) := by
  rcases hpad : (m.obj p).padded with _ | _
  · obtain ⟨hinv, bs, ss, hgrow, hsub, hle, hok⟩ :=
      padTo_spec (m.totalLen (m.getThisContextLen p)) (h.link p i) hp
    have hadopt : m.adopt p i =
        (m.link p i).padTo p (m.totalLen (m.getThisContextLen p)) := by
      simp only [adopt, link_padded, hpad, link_getThisContextLen]
      rfl
    rw [link_subContextIds] at hsub
    rw [link_getThisContextLen] at hle hok
    rw [hadopt]
    refine ⟨hinv, bs, ss, (m.link_grown p i).trans hgrow, hsub, by simp, hle, fun hres => ?_⟩
    exact ⟨(hok hres).1, fun _ => (hok hres).2⟩
  · have hadopt : m.adopt p i = (.ok (), m.link p i) := by
      simp only [adopt, link_padded, hpad, if_true]
    rw [hadopt]
    exact ⟨h.link p i, [], [], m.link_grown p i, m.link_subContextIds p i,
      fun _ => ⟨rfl, rfl, rfl⟩, Nat.zero_le _, fun _ => ⟨by rw [link_padded, hpad], by simp⟩⟩

/-- A new object with empty tables joins the live ones. -/
lemma MemInv.push (h : MemInv m live) {c : BlockContext} (hb : c.tokenKvBlockIds = [])
    (hs : c.tokenKvSlotIds = []) : MemInv (m.push c) (insert m.next live) := by
  have hne : ∀ r ∈ live, r ≠ m.next := fun r hr => Nat.ne_of_lt (h.lt_next r hr)
  have hinv : MemInv (m.push c) live :=
    h.congr rfl rfl (Nat.le_succ _) fun r hr => by
      have hobj : (m.push c).obj r = m.obj r := m.set_obj_of_ne (hne r hr) c
      rw [hobj]
      exact ⟨rfl, rfl⟩
  have hself : (m.push c).obj m.next = c := m.set_obj_self m.next c
  exact hinv.insert_empty (Nat.lt_succ_self _) (by rw [hself, hb]) (by rw [hself, hs])

/-! ## Destruction -/

/-- Freeing distinct live blocks returns each of them to the pool once. -/
lemma freeBlocks_spec (bs : List ℕ) :
    ∀ {m : KvMemory} {held : Set ℕ}, m.kvCacheManager.Owns held → bs.Nodup →
      (∀ b ∈ bs, b ∈ held) →
      ∃ pool, m.freeBlocks bs = (.ok (), { m with kvCacheManager := pool }) ∧
        pool.freeIds = m.kvCacheManager.freeIds ++ bs ∧ pool.Owns (held \ {b | b ∈ bs}) := by
  induction bs with
  | nil =>
      intro m held howns _ _
      exact ⟨m.kvCacheManager, rfl, by simp, by simpa using howns⟩
  | cons b bs ih =>
      intro m held howns hnodup hsub
      obtain ⟨hok, hids, howns'⟩ := howns.free_ok (hsub b List.mem_cons_self)
      rw [List.nodup_cons] at hnodup
      rcases hf : m.kvCacheManager.free b with ⟨_ | ⟨⟩, pool⟩
      · rw [hf] at hok
        simp at hok
      · rw [hf] at hids howns'
        have hsub' : ∀ x ∈ bs, x ∈ held \ {b} := fun x hx =>
          ⟨hsub x (List.mem_cons_of_mem _ hx), fun hxb => hnodup.1 (hxb ▸ hx)⟩
        obtain ⟨pool', hfree, hids', howns''⟩ :=
          ih (m := { m with kvCacheManager := pool }) howns' hnodup.2 hsub'
        refine ⟨pool', ?_, ?_, ?_⟩
        · simp only [freeBlocks, hf]
          exact hfree
        · rw [hids', hids, List.append_assoc, List.singleton_append]
        · have hset : held \ {x | x ∈ b :: bs} = (held \ {b}) \ {x | x ∈ bs} := by
            ext x
            simp only [Set.mem_sdiff, Set.mem_ofPred_eq, List.mem_cons, Set.mem_singleton_iff]
            tauto
          rw [hset]
          exact howns''

/-- The memory after an object left its parent's list. -/
def unlinked (m : KvMemory) (r : CtxRef) : KvMemory :=
  match (m.obj r).parentContext with
  | none => m
  | some p => m.set p { m.obj p with
      subContextIds := (m.obj p).subContextIds.erase (m.obj r).contextId }

lemma unlinked_grown (m : KvMemory) (r r' : CtxRef) :
    (m.unlinked r).blockSize = m.blockSize ∧ (m.unlinked r).next = m.next ∧
      (m.unlinked r).kvCacheManager = m.kvCacheManager ∧
      Extends (m.obj r') ((m.unlinked r).obj r') [] [] := by
  unfold unlinked
  split
  · exact ⟨rfl, rfl, rfl, Extends.refl _⟩
  · rename_i p _
    refine ⟨rfl, rfl, rfl, ?_⟩
    by_cases he : r' = p
    · subst he
      rw [set_obj_self]
      exact ⟨rfl, rfl, rfl, rfl, rfl, by simp, by simp⟩
    · rw [set_obj_of_ne _ he]
      exact Extends.refl _

lemma MemInv.unlinked (h : MemInv m live) (r : CtxRef) : MemInv (m.unlinked r) live := by
  obtain ⟨hbs, hnext, hpool, -⟩ := m.unlinked_grown r r
  refine h.congr hbs hpool hnext.ge fun r' _ => ?_
  have hext := (m.unlinked_grown r r').2.2.2
  rw [hext.blocks, hext.slots, List.append_nil, List.append_nil]
  exact ⟨rfl, rfl⟩

/-- Leaving the parent's list, when the parent knows the object; then the check. -/
lemma unlink_eq (hparent : ∀ p, (m.obj r).parentContext = some p →
      p ≠ r ∧ (m.obj r).contextId ∈ (m.obj p).subContextIds) :
    m.unlink r = (match (m.obj r).subContextIds with
      | [] => .ok ()
      | i :: _ => .error (.assertionError
          ("Sub-contexts " ++ toString i ++ " should be deleted first.")), m.unlinked r) := by
  rcases hl : (m.obj r).subContextIds with _ | ⟨i, rest⟩ <;>
    rcases hp : (m.obj r).parentContext with _ | p
  · simp only [unlink, KvMemory.unlinked, hp, hl]
  · obtain ⟨hne, hmem⟩ := hparent p hp
    simp only [unlink, KvMemory.unlinked, hp, hmem, if_true, set_obj_of_ne _ (Ne.symm hne), hl]
  · simp only [unlink, KvMemory.unlinked, hp, hl]
  · obtain ⟨hne, hmem⟩ := hparent p hp
    simp only [unlink, KvMemory.unlinked, hp, hmem, if_true, set_obj_of_ne _ (Ne.symm hne), hl]

/-- Destroying an object that has sub-contexts raises, after it left its parent's list. -/
lemma destruction_error (hsub : (m.obj r).subContextIds ≠ [])
    (hparent : ∀ p, (m.obj r).parentContext = some p →
      p ≠ r ∧ (m.obj r).contextId ∈ (m.obj p).subContextIds) :
    ∃ e, m.destruction r = (.error e, m.unlinked r) := by
  rcases hl : (m.obj r).subContextIds with _ | ⟨i, rest⟩
  · exact (hsub hl).elim
  · rw [destruction, unlink_eq hparent, hl]
    exact ⟨_, rfl⟩

/-- Destroying a live object that has no sub-contexts and that its parent knows succeeds: it
returns every block of the object to the pool, once. -/
lemma destruction_spec (h : MemInv m live) (hr : r ∈ live) (hleaf : (m.obj r).subContextIds = [])
    (hparent : ∀ p, (m.obj r).parentContext = some p →
      p ≠ r ∧ (m.obj r).contextId ∈ (m.obj p).subContextIds) :
    ∃ pool, m.destruction r = (.ok (), { m.unlinked r with kvCacheManager := pool }) ∧
      pool.freeIds = m.kvCacheManager.freeIds ++
        stride m.blockSize (m.obj r).tokenKvBlockIds ∧
      MemInv { m.unlinked r with kvCacheManager := pool } (live \ {r}) := by
  have hunlink : m.unlink r = (.ok (), m.unlinked r) := by
    rw [unlink_eq hparent, hleaf]
  obtain ⟨hbs, -, hpool, hext⟩ := m.unlinked_grown r r
  have hinv := h.unlinked r
  have hblocks : ((m.unlinked r).obj r).tokenKvBlockIds = (m.obj r).tokenKvBlockIds := by
    rw [hext.blocks, List.append_nil]
  have hpaged := hinv.paged r hr
  obtain ⟨pool, hfree, hids, howns⟩ := freeBlocks_spec
    (stride (m.unlinked r).blockSize ((m.unlinked r).obj r).tokenKvBlockIds) hinv.owns
    (hpaged.nodup_stride hinv.blockSize_pos)
    fun b hb => ⟨r, hr, (hpaged.mem_stride hinv.blockSize_pos).mp hb⟩
  refine ⟨pool, ?_, ?_, ?_⟩
  · simp only [destruction, hunlink]
    exact hfree
  · rw [hids, hpool, hbs, hblocks]
  · refine ⟨hinv.blockSize_pos, fun r' hr' => hinv.lt_next r' hr'.1,
      fun r' hr' => hinv.paged r' hr'.1,
      fun r₁ h₁ r₂ h₂ hne => hinv.disjoint r₁ h₁.1 r₂ h₂.1 hne, ?_⟩
    have hset : blocksOf { m.unlinked r with kvCacheManager := pool } (live \ {r}) =
        (m.unlinked r).blocksOf live \ {b | b ∈ stride (m.unlinked r).blockSize
          ((m.unlinked r).obj r).tokenKvBlockIds} := by
      ext b
      simp only [blocksOf, Set.mem_ofPred_eq, Set.mem_sdiff, Set.mem_singleton_iff,
        hpaged.mem_stride hinv.blockSize_pos]
      constructor
      · rintro ⟨r', ⟨hr', hne⟩, hb⟩
        exact ⟨⟨r', hr', hb⟩, fun hb' => hinv.disjoint r' hr' r hr hne hb hb'⟩
      · rintro ⟨⟨r', hr', hb⟩, hb'⟩
        exact ⟨r', ⟨hr', fun he => hb' (he ▸ hb)⟩, hb⟩
    rw [hset]
    exact howns

end KvMemory
end ParrotServe
