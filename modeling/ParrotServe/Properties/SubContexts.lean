import ParrotServe.Properties.ContextSafety

/-!
# Sub-contexts in every run

`free_context` takes an id out of the map, and `destruction` takes it out of the list of its
parent, before the check that may refuse.  A context with sub-contexts therefore leaves the map by
an exception: it keeps its blocks and its own list, its parent may go before it, and nobody can
free it again.  A waiting job may allocate for a context that was destroyed.  `TreeInv` survives
neither, and excludes both by `FreeGuard`.

`ForestInv` is what is left in every run.  It is about the contexts that stand: those in the map
and their parents.  They own disjoint blocks, and the id list of each is that of its children in
the map, oldest first.  A context whose removal failed stands for as long as it has a child in the
map.

`free_clean_iff` is the result: `free_context` is clean exactly on contexts without sub-contexts
and on unknown ids, and the id lists are right in every reachable state.
-/

namespace ParrotServe

namespace KvMemory

variable {m : KvMemory} {live : Set CtxRef}

/-! ## Allocation for any object -/

/-- An allocation extends the tables of its object, even of one that was destroyed. -/
lemma allocateOne_grown (m : KvMemory) (r : CtxRef) :
    ∃ bs ss, GrownBy m (m.allocateOne r).2 r bs ss := by
  unfold allocateOne
  dsimp only
  split
  · split
    · exact ⟨[], [], rfl, rfl, fun _ _ => rfl, Extends.refl _⟩
    · exact ⟨_, _, (appendPosition_grown _ r _ _).of_pool⟩
  · split
    · exact ⟨_, _, appendPosition_grown m r _ _⟩
    · exact ⟨[], [], GrownBy.refl m r⟩

lemma allocate_grown (n : ℕ) : ∀ (m : KvMemory) (r : CtxRef),
    ∃ bs ss, GrownBy m (m.allocate r n).2 r bs ss := by
  induction n with
  | zero => exact fun m r => ⟨[], [], GrownBy.refl m r⟩
  | succ n ih =>
      intro m r
      obtain ⟨bs, ss, hone⟩ := allocateOne_grown m r
      rw [allocate]
      rcases ho : m.allocateOne r with ⟨e | ⟨⟩, m'⟩
      · rw [ho] at hone
        exact ⟨bs, ss, hone⟩
      · rw [ho] at hone
        obtain ⟨bs', ss', hrest⟩ := ih m' r
        exact ⟨bs ++ bs', ss ++ ss', hone.trans hrest⟩

/-- The pool gives no block away that a live object holds, whoever asks. -/
lemma allocateOne_owns (h : MemInv m live) (r : CtxRef) :
    (m.allocateOne r).2.kvCacheManager.Owns (m.blocksOf live) := by
  unfold allocateOne
  dsimp only
  split
  · split
    · rename_i ha
      exact h.owns.allocate_error ha
    · rename_i ha
      exact (h.owns.allocate_ok ha).2.mono (Set.subset_insert _ _)
  · split
    · exact h.owns
    · exact h.owns

lemma allocateOne_memInv (h : MemInv m live) (r : CtxRef) : MemInv (m.allocateOne r).2 live := by
  by_cases hr : r ∈ live
  · exact (allocateOne_spec h hr).1
  · obtain ⟨bs, ss, hgrow⟩ := allocateOne_grown m r
    have hpool : MemInv { m with kvCacheManager := (m.allocateOne r).2.kvCacheManager } live :=
      ⟨h.blockSize_pos, h.lt_next, h.paged, h.disjoint, allocateOne_owns h r⟩
    refine hpool.congr hgrow.blockSize rfl hgrow.next.ge fun r' hr' => ?_
    have hne : r' ≠ r := fun he => hr (he ▸ hr')
    rw [hgrow.other r' hne]
    exact ⟨rfl, rfl⟩

lemma allocate_memInv (n : ℕ) : ∀ {m : KvMemory} (r : CtxRef), MemInv m live →
    MemInv (m.allocate r n).2 live := by
  induction n with
  | zero => exact fun _ h => h
  | succ n ih =>
      intro m r h
      have hone := allocateOne_memInv h r
      rw [allocate]
      rcases ho : m.allocateOne r with ⟨e | ⟨⟩, m'⟩
      · rw [ho] at hone
        exact hone
      · rw [ho] at hone
        exact ih r hone

end KvMemory

namespace BuiltinEngine

open TransitionSystem

variable {s s' : BuiltinEngine} {bs : ℕ}

/-! ## The contexts that stand -/

/-- The contexts in the map and their parents. -/
def standing (s : BuiltinEngine) : Set CtxRef :=
  {p | p ∈ s.registered ∨ ∃ r ∈ s.registered, (s.mem.obj r).parentContext = some p}

/-- The contexts in the map whose parent this is, oldest first. -/
def children (s : BuiltinEngine) (p : CtxRef) : List CtxRef :=
  (List.range s.mem.next).filter fun r =>
    s.map (s.mem.obj r).contextId = some r ∧ (s.mem.obj r).parentContext = some p

/-- Their ids. -/
def childIds (s : BuiltinEngine) (p : CtxRef) : List ℕ :=
  (s.children p).map fun r => (s.mem.obj r).contextId

/-- What every run keeps of the forest. -/
structure ForestInv (blockSize : ℕ) (s : BuiltinEngine) : Prop where
  mem : s.mem.MemInv s.standing
  blockSize_eq : s.mem.blockSize = blockSize
  key : ∀ id r, s.map id = some r → (s.mem.obj r).contextId = id
  older : ∀ r ∈ s.registered, ∀ p, (s.mem.obj r).parentContext = some p → p < r
  children : ∀ p ∈ s.standing, (s.mem.obj p).subContextIds = s.childIds p

lemma registered_subset_standing (s : BuiltinEngine) : s.registered ⊆ s.standing :=
  fun _ hr => .inl hr

lemma ForestInv.registered_iff (h : ForestInv bs s) {r : CtxRef} :
    s.map (s.mem.obj r).contextId = some r ↔ r ∈ s.registered := by
  constructor
  · exact fun hr => ⟨_, hr⟩
  · rintro ⟨id, hid⟩
    rwa [h.key id r hid]

lemma ForestInv.mem_children (h : ForestInv bs s) {c p : CtxRef} :
    c ∈ s.children p ↔ c ∈ s.registered ∧ (s.mem.obj c).parentContext = some p := by
  rw [BuiltinEngine.children, List.mem_filter, List.mem_range, decide_eq_true_eq,
    h.registered_iff]
  constructor
  · exact fun hc => hc.2
  · exact fun hc => ⟨h.mem.lt_next c (.inl hc.1), hc⟩

/-- A parent knows the ids of its children in the map. -/
lemma ForestInv.listed (h : ForestInv bs s) {r p : CtxRef} (hr : r ∈ s.registered)
    (hp : (s.mem.obj r).parentContext = some p) :
    (s.mem.obj r).contextId ∈ (s.mem.obj p).subContextIds := by
  rw [h.children p (.inr ⟨r, hr, hp⟩)]
  exact List.mem_map_of_mem (h.mem_children.mpr ⟨hr, hp⟩)

/-- Contexts in the map are told apart by their ids. -/
lemma ForestInv.eq_of_contextId (h : ForestInv bs s) {r r' : CtxRef} (hr : r ∈ s.registered)
    (hr' : r' ∈ s.registered) (he : (s.mem.obj r).contextId = (s.mem.obj r').contextId) :
    r = r' := by
  have hmap := h.registered_iff.mpr hr
  rw [he, h.registered_iff.mpr hr'] at hmap
  exact (Option.some.inj hmap).symm

/-! ## Steps that keep the family -/

/-- Tables may grow, tokens and hidden states change, and the pool with them. -/
lemma ForestInv.of_links (h : ForestInv bs s) (hmap : s'.map = s.map)
    (hbs : s'.mem.blockSize = s.mem.blockSize) (hnext : s'.mem.next = s.mem.next)
    (hlinks : ∀ r, (s'.mem.obj r).contextId = (s.mem.obj r).contextId ∧
      (s'.mem.obj r).parentContext = (s.mem.obj r).parentContext ∧
      (s'.mem.obj r).subContextIds = (s.mem.obj r).subContextIds)
    (hmem : s'.mem.MemInv s.standing) : ForestInv bs s' := by
  have hreg : s'.registered = s.registered := by simp only [registered, hmap]
  have hstanding : s'.standing = s.standing := by
    simp only [standing, hreg, (hlinks _).2.1]
  refine ⟨hstanding ▸ hmem, hbs.trans h.blockSize_eq, fun id r hid => ?_, fun r hr p hp => ?_,
    fun p hp => ?_⟩
  · exact (hlinks r).1.trans (h.key id r (hmap ▸ hid))
  · exact h.older r (hreg ▸ hr) p ((hlinks r).2.1 ▸ hp)
  · rw [hstanding] at hp
    have hids : s'.childIds p = s.childIds p := by
      simp only [childIds, BuiltinEngine.children, hmap, hnext, (hlinks _).1, (hlinks _).2.1]
    rw [hids, (hlinks p).2.2, h.children p hp]

lemma ForestInv.quiet (h : ForestInv bs s) (hq : Quiet s s') : ForestInv bs s' :=
  h.of_links hq.map hq.blockSize hq.next
    (fun r => ⟨(hq.obj r).1, (hq.obj r).2.1, (hq.obj r).2.2.1⟩) (hq.memInv h.mem)

/-- Jobs and the scheduler are not part of the forest. -/
lemma ForestInv.of_eq (h : ForestInv bs s) (hmap : s'.map = s.map) (hmem : s'.mem = s.mem) :
    ForestInv bs s' := by
  refine h.of_links hmap (by rw [hmem]) (by rw [hmem]) (fun r => ?_) (hmem ▸ h.mem)
  rw [hmem]
  exact ⟨rfl, rfl, rfl⟩

/-- Overwriting tokens and hidden state of an object. -/
lemma ForestInv.setObj (h : ForestInv bs s) {r : CtxRef} {c : BlockContext}
    (hc : SameLinks (s.mem.obj r) c) (hblocks : c.tokenKvBlockIds = (s.mem.obj r).tokenKvBlockIds)
    (hslots : c.tokenKvSlotIds = (s.mem.obj r).tokenKvSlotIds) :
    ForestInv bs (s.setMem (s.mem.set r c)) := by
  refine h.of_links rfl rfl rfl (fun r' => ?_) (h.mem.set_of_tables hblocks hslots)
  by_cases he : r' = r
  · subst he
    rw [setMem, KvMemory.set_obj_self]
    exact ⟨hc.1, hc.2.1, hc.2.2.1⟩
  · rw [setMem, KvMemory.set_obj_of_ne _ he]
    exact ⟨rfl, rfl, rfl⟩

/-- New positions for an object, whatever became of it. -/
lemma ForestInv.allocate (h : ForestInv bs s) (r : CtxRef) (n : ℕ) :
    ForestInv bs (s.setMem (s.mem.allocate r n).2) := by
  obtain ⟨bl, sl, hgrow⟩ := KvMemory.allocate_grown n s.mem r
  refine h.of_links rfl hgrow.blockSize hgrow.next (fun r' => ?_)
    (KvMemory.allocate_memInv n r h.mem)
  exact ⟨(hgrow.links r').1, (hgrow.links r').2, (KvMemory.allocate_flags n s.mem r r').1⟩

lemma ForestInv.allocateJob (h : ForestInv bs s) {j : JobRef} {r : CtxRef} {sample : Bool}
    (hok : s.allocateJob j r = .ok (sample, s')) : ForestInv bs s' := by
  rw [BuiltinEngine.allocateJob] at hok
  split at hok
  · cases hok
  · rename_i tokenIds _
    dsimp only at hok
    split at hok
    · cases hok
    · rename_i m ha
      obtain ⟨-, rfl⟩ := Prod.mk.inj (Except.ok.inj hok)
      set c : BlockContext := { s.mem.obj r with
        tokenIds := (s.mem.obj r).tokenIds ++ tokenIds } with hc
      have hset : ForestInv bs (s.setMem (s.mem.set r c)) := h.setObj ⟨rfl, rfl, rfl, rfl⟩ rfl rfl
      have hgrown : ForestInv bs (s.setMem ((s.mem.set r c).allocate r tokenIds.length).2) :=
        hset.allocate r tokenIds.length
      rw [ha] at hgrown
      exact hgrown
  · split at hok
    · cases hok
    · rename_i m ha
      have hgrown := h.allocate r 1
      rw [ha] at hgrown
      split at hok
      · cases hok
      · obtain ⟨-, rfl⟩ := Prod.mk.inj (Except.ok.inj hok)
        exact hgrown
      · obtain ⟨-, rfl⟩ := Prod.mk.inj (Except.ok.inj hok)
        exact hgrown.setObj ⟨rfl, rfl, rfl, rfl⟩ rfl rfl

/-! ## Binding a job -/

/-- A new context is the youngest child of its parent, and of nobody else. -/
lemma withFresh_childIds (s : BuiltinEngine) {j : JobRef} {m : KvMemory} {c : BlockContext}
    (hfree : s.map (s.job j).contextId = none) (hnext : m.next = s.mem.next)
    (hobj : ∀ r, (m.obj r).contextId = (s.mem.obj r).contextId ∧
      (m.obj r).parentContext = (s.mem.obj r).parentContext)
    (hc : c.contextId = (s.job j).contextId) (p : CtxRef) :
    (s.withFresh j m c).childIds p =
      s.childIds p ++ if c.parentContext = some p then [c.contextId] else [] := by
  have hself : (m.push c).obj m.next = c := m.set_obj_self m.next c
  have hold : ∀ r ∈ List.range s.mem.next, (m.push c).obj r = m.obj r := fun r hr =>
    m.set_obj_of_ne (hnext ▸ Nat.ne_of_lt (List.mem_range.mp hr)) c
  -- an object that was there before is in the map as before
  have hmap : ∀ r ∈ List.range s.mem.next, ∀ id,
      (s.withFresh j m c).map id = some r ↔ s.map id = some r := by
    intro r hr id
    rw [withFresh_map_iff]
    constructor
    · rintro (⟨-, rfl⟩ | ⟨-, hid⟩)
      · exact absurd (List.mem_range.mp hr) (hnext ▸ Nat.lt_irrefl _)
      · exact hid
    · refine fun hid => .inr ⟨?_, hid⟩
      rintro rfl
      rw [hfree] at hid
      cases hid
  have hkept : (List.range s.mem.next).filter (fun r => decide
      ((s.withFresh j m c).map ((m.push c).obj r).contextId = some r ∧
        ((m.push c).obj r).parentContext = some p)) = s.children p := by
    refine List.filter_congr fun r hr => ?_
    simp only [hmap r hr, hold r hr, (hobj r).1, (hobj r).2]
  have hnew : [m.next].filter (fun r => decide
      ((s.withFresh j m c).map ((m.push c).obj r).contextId = some r ∧
        ((m.push c).obj r).parentContext = some p)) =
      if c.parentContext = some p then [m.next] else [] := by
    have hin : (s.withFresh j m c).map c.contextId = some m.next :=
      (s.withFresh_map_iff j m c _ _).mpr (.inl ⟨hc, rfl⟩)
    split_ifs with hp
    · exact List.filter_eq_self.mpr (by simp [hself, hin, hp])
    · exact List.filter_eq_nil_iff.mpr (by simp [hself, hp])
  have hids : (s.children p).map (fun r => ((m.push c).obj r).contextId) = s.childIds p := by
    refine List.map_congr_left fun r hr => ?_
    rw [hold r (List.mem_of_mem_filter hr), (hobj r).1]
  have hpush : (s.withFresh j m c).mem = m.push c := rfl
  have hrange : (m.push c).next = s.mem.next + 1 := congrArg (· + 1) hnext
  rw [childIds, BuiltinEngine.children, hpush, hrange, List.range_succ, List.filter_append,
    hkept, List.map_append, hids, ← hnext, hnew]
  congr 1
  split_ifs with hp
  · rw [List.map_singleton, hself]
  · rfl

/-- Registering a new context whose parent, if any, is in the map and has recorded its id. -/
lemma ForestInv.withFresh (h : ForestInv bs s) {j : JobRef} {m : KvMemory} {c : BlockContext}
    (hfree : s.map (s.job j).contextId = none) (hm : m.MemInv s.standing)
    (hbs : m.blockSize = s.mem.blockSize) (hnext : m.next = s.mem.next)
    (hobj : ∀ r, (m.obj r).contextId = (s.mem.obj r).contextId ∧
      (m.obj r).parentContext = (s.mem.obj r).parentContext)
    (hc : c.contextId = (s.job j).contextId ∧ c.tokenKvBlockIds = [] ∧ c.tokenKvSlotIds = [] ∧
      c.subContextIds = [])
    (hparent : ∀ p, c.parentContext = some p → p ∈ s.registered)
    (hsub : ∀ p, (m.obj p).subContextIds = (s.mem.obj p).subContextIds ++
      if c.parentContext = some p then [c.contextId] else []) :
    ForestInv bs (s.withFresh j m c) := by
  have hself : (m.push c).obj m.next = c := m.set_obj_self m.next c
  have hother : ∀ r ∈ s.standing, (m.push c).obj r = m.obj r := fun r hr =>
    m.set_obj_of_ne (Nat.ne_of_lt (hm.lt_next r hr)) c
  have hreg := withFresh_registered (m := m) (c := c) hfree
  have hpar : ∀ r ∈ (s.withFresh j m c).registered, ∀ p,
      ((m.push c).obj r).parentContext = some p →
        p ∈ s.standing ∧ p < r := by
    intro r hr p hp
    rw [hreg] at hr
    rcases hr with rfl | hr
    · rw [hself] at hp
      exact ⟨.inl (hparent p hp), hm.lt_next p (.inl (hparent p hp))⟩
    · rw [hother r (.inl hr), (hobj r).2] at hp
      exact ⟨.inr ⟨r, hr, hp⟩, h.older r hr p hp⟩
  have hstanding : ∀ p ∈ (s.withFresh j m c).standing, p ∈ insert m.next s.standing := by
    rintro p (hp | ⟨r, hr, hp⟩)
    · rw [hreg] at hp
      exact hp.imp_right .inl
    · exact .inr (hpar r hr p hp).1
  have hmem : (m.push c).MemInv (insert m.next s.standing) := hm.push hc.2.1 hc.2.2.1
  refine ⟨hmem.mono hstanding, hbs.trans h.blockSize_eq, fun id r hid => ?_,
    fun r hr p hp => (hpar r hr p hp).2, fun p hp => ?_⟩
  · rcases (s.withFresh_map_iff j m c id r).mp hid with ⟨rfl, rfl⟩ | ⟨-, hid⟩
    · exact (congrArg _ hself).trans hc.1
    · exact (congrArg _ (hother r (.inl ⟨id, hid⟩))).trans ((hobj r).1.trans (h.key id r hid))
  · have hids := s.withFresh_childIds hfree hnext hobj hc.1 p
    rcases hstanding p hp with rfl | hp
    · -- nobody was forked from an object that did not exist
      have hnone : s.childIds m.next = [] := by
        refine List.map_eq_nil_iff.mpr (List.eq_nil_iff_forall_not_mem.mpr fun r hr => ?_)
        obtain ⟨hr, hpr⟩ := h.mem_children.mp hr
        exact Nat.lt_asymm (h.older r hr _ hpr) (hm.lt_next r (.inl hr))
      have hno : c.parentContext ≠ some m.next := fun he =>
        Nat.lt_irrefl _ (hm.lt_next _ (.inl (hparent _ he)))
      rw [hids, hnone, if_neg hno]
      exact (congrArg _ hself).trans hc.2.2.2
    · rw [hids, ← h.children p hp, ← hsub p]
      exact congrArg _ (hother p hp)

/-- Whatever the outcome of a binding, the forest is kept: the constructor does not fail on a
parent in the map. -/
lemma ForestInv.bind (h : ForestInv bs s) {j : JobRef} (ho : BindOutcome s j s') :
    ForestInv bs s' := by
  cases ho with
  | unknownParent => exact h
  | existing _ => exact h.of_eq rfl rfl
  | root hmap _ =>
      exact h.withFresh hmap h.mem rfl rfl (fun _ => ⟨rfl, rfl⟩) ⟨rfl, rfl, rfl, rfl⟩
        (by simp) (by simp)
  | @failed q p m e _ _ hp ha =>
      have hok := KvMemory.adopt_ok h.mem (.inl ⟨q, hp⟩) (s.job j).contextId
      rw [ha] at hok
      cases hok
  | @forked q p m hmap _ hp ha =>
      obtain ⟨hinv, bl, sl, hgrow, hsub, -⟩ :=
        KvMemory.adopt_spec (s.job j).contextId h.mem (.inl ⟨q, hp⟩)
      rw [ha] at hinv hgrow hsub
      refine h.withFresh hmap hinv hgrow.blockSize hgrow.next hgrow.links ⟨rfl, rfl, rfl, rfl⟩
        ?_ fun r => ?_
      · rintro _ ⟨⟩
        exact ⟨q, hp⟩
      · by_cases he : r = p
        · subst he
          rw [if_pos rfl]
          exact hsub
        · have hne : ¬ some p = some r := fun hc => he (Option.some.inj hc).symm
          rw [if_neg hne, List.append_nil]
          exact congrArg _ (hgrow.other r he)

/-! ## Freeing a context -/

lemma ForestInv.childIds_nodup (h : ForestInv bs s) (p : CtxRef) : (s.childIds p).Nodup := by
  have hchildren : (s.children p).Nodup := List.nodup_range.filter _
  refine List.Nodup.map_on (fun r hr r' hr' he => ?_) hchildren
  exact h.eq_of_contextId (h.mem_children.mp hr).1 (h.mem_children.mp hr').1 he

/-- A context that left the map is a child no more. -/
lemma ForestInv.withoutId_childIds (h : ForestInv bs s) {contextId : ℕ} {r : CtxRef}
    {m : KvMemory} (hmap : s.map contextId = some r) (hnext : m.next = s.mem.next)
    (hobj : ∀ r', (m.obj r').contextId = (s.mem.obj r').contextId ∧
      (m.obj r').parentContext = (s.mem.obj r').parentContext) (p : CtxRef) :
    (s.withoutId contextId m).childIds p = if (s.mem.obj r).parentContext = some p
      then (s.childIds p).erase contextId else s.childIds p := by
  have hr : r ∈ s.registered := ⟨contextId, hmap⟩
  have hid : (s.mem.obj r).contextId = contextId := h.key contextId r hmap
  have hne : ∀ c ∈ s.children p, (s.mem.obj c).contextId ≠ contextId ↔ c ≠ r := by
    refine fun c hc => not_congr ⟨fun he => ?_, fun he => he ▸ hid⟩
    exact h.eq_of_contextId (h.mem_children.mp hc).1 hr (he.trans hid.symm)
  have hchildren : (s.withoutId contextId m).children p =
      (s.children p).filter fun c => (s.mem.obj c).contextId ≠ contextId := by
    rw [BuiltinEngine.children, BuiltinEngine.children, List.filter_filter]
    have hmem : (s.withoutId contextId m).mem = m := rfl
    rw [hmem, hnext]
    refine List.filter_congr fun c _ => ?_
    rw [(hobj c).1, (hobj c).2, ← Bool.decide_and]
    refine decide_eq_decide.mpr ?_
    rw [withoutId_map_iff, and_assoc]
  have hids : (s.withoutId contextId m).childIds p =
      ((s.children p).filter fun c => (s.mem.obj c).contextId ≠ contextId).map
        fun c => (s.mem.obj c).contextId := by
    rw [childIds, hchildren]
    exact List.map_congr_left fun c _ => (hobj c).1
  rw [hids]
  split_ifs with hp
  · rw [(h.childIds_nodup p).erase_eq_filter, childIds, List.filter_map]
    congr 1
    refine List.filter_congr fun c _ => ?_
    rw [Bool.eq_iff_iff, decide_eq_true_eq]
    exact bne_iff_ne.symm
  · rw [childIds]
    congr 1
    refine List.filter_eq_self.mpr fun c hc => decide_eq_true ((hne c hc).mpr ?_)
    rintro rfl
    exact hp (h.mem_children.mp hc).2

/-- Fewer contexts in the map, and fewer stand. -/
lemma withoutId_standing {contextId : ℕ} {r : CtxRef} {m : KvMemory}
    (hreg : (s.withoutId contextId m).registered = s.registered \ {r})
    (hobj : ∀ r', (m.obj r').parentContext = (s.mem.obj r').parentContext) {p : CtxRef}
    (hp : p ∈ (s.withoutId contextId m).standing) :
    p ∈ s.standing ∧ (p = r → ∃ c ∈ s.registered, (s.mem.obj c).parentContext = some r) := by
  rcases hp with hp | ⟨c, hc, hp⟩
  · rw [hreg] at hp
    exact ⟨.inl hp.1, fun he => absurd he hp.2⟩
  · rw [hreg] at hc
    have hpar : (s.mem.obj c).parentContext = some p := (hobj c).symm.trans hp
    exact ⟨.inr ⟨c, hc.1, hpar⟩, fun he => ⟨c, hc.1, he ▸ hpar⟩⟩

/-- A context leaves the map, with or without its blocks. -/
lemma ForestInv.freed (h : ForestInv bs s) {contextId : ℕ} {r : CtxRef} {m : KvMemory}
    (hmap : s.map contextId = some r) (hobj : m.obj = (s.mem.unlinked r).obj)
    (hbs : m.blockSize = s.mem.blockSize) (hnext : m.next = s.mem.next)
    (hm : m.MemInv (s.withoutId contextId m).standing) :
    ForestInv bs (s.withoutId contextId m) := by
  have hr : r ∈ s.registered := ⟨contextId, hmap⟩
  have hid : (s.mem.obj r).contextId = contextId := h.key contextId r hmap
  have hreg := withoutId_registered m hmap fun id hid' =>
    (h.key id r hid').symm.trans (h.key contextId r hmap)
  have hext := fun r' => (s.mem.unlinked_grown r r').2.2.2
  have hlinks : ∀ r', (m.obj r').contextId = (s.mem.obj r').contextId ∧
      (m.obj r').parentContext = (s.mem.obj r').parentContext := fun r' => by
    rw [hobj]
    exact ⟨(hext r').contextId, (hext r').parentContext⟩
  refine ⟨hm, hbs.trans h.blockSize_eq, fun id r' hid' => ?_, fun r' hr' p hp => ?_,
    fun p hp => ?_⟩
  · exact (hlinks r').1.trans (h.key id r' ((s.withoutId_map_iff contextId m id r').mp hid').2)
  · rw [hreg] at hr'
    exact h.older r' hr'.1 p ((hlinks r').2.symm.trans hp)
  · have hstand := (withoutId_standing hreg (fun r' => (hlinks r').2) hp).1
    rw [h.withoutId_childIds hmap hnext hlinks p, ← h.children p hstand]
    -- the id leaves the list of the parent, and no other list
    have hsub : ((s.withoutId contextId m).mem.obj p).subContextIds =
        ((s.mem.unlinked r).obj p).subContextIds := congrArg (fun f => (f p).subContextIds) hobj
    rw [hsub, KvMemory.unlinked]
    split
    · rename_i hnone
      rw [hnone]
      rfl
    · rename_i q hq
      by_cases hpq : p = q
      · subst hpq
        rw [if_pos hq, KvMemory.set_obj_self, hid]
      · have hne : (s.mem.obj r).parentContext ≠ some p := fun he =>
          hpq (Option.some.inj (he.symm.trans hq))
        rw [if_neg hne, KvMemory.set_obj_of_ne _ hpq]

/-- The parent of a context in the map is another object and knows its id. -/
lemma ForestInv.known (h : ForestInv bs s) {r : CtxRef} (hr : r ∈ s.registered) (p : CtxRef)
    (hp : (s.mem.obj r).parentContext = some p) :
    p ≠ r ∧ (s.mem.obj r).contextId ∈ (s.mem.obj p).subContextIds :=
  ⟨Nat.ne_of_lt (h.older r hr p hp), h.listed hr hp⟩

/-- A context without sub-contexts goes, and its blocks go back to the pool. -/
lemma ForestInv.free_leaf (h : ForestInv bs s) {contextId : ℕ} {r : CtxRef}
    (hmap : s.map contextId = some r) (hleaf : (s.mem.obj r).subContextIds = []) :
    ∃ pool, s.managerFreeContext contextId = (.ok (s.mem.getThisContextLen r),
        s.withoutId contextId { s.mem.unlinked r with kvCacheManager := pool }) ∧
      pool.freeIds = s.mem.kvCacheManager.freeIds ++
        stride s.mem.blockSize (s.mem.obj r).tokenKvBlockIds ∧
      ForestInv bs (s.withoutId contextId { s.mem.unlinked r with kvCacheManager := pool }) := by
  have hr : r ∈ s.registered := ⟨contextId, hmap⟩
  obtain ⟨pool, hd, hids, hinv⟩ :=
    KvMemory.destruction_spec h.mem (.inl hr) hleaf (h.known hr)
  obtain ⟨hbs, hnext, -, -⟩ := s.mem.unlinked_grown r r
  have hreg := withoutId_registered { s.mem.unlinked r with kvCacheManager := pool } hmap
    fun id hid => (h.key id r hid).symm.trans (h.key contextId r hmap)
  refine ⟨pool, ?_, hids, h.freed hmap rfl hbs hnext (hinv.mono fun p hp => ?_)⟩
  · rw [managerFreeContext, hmap]
    dsimp only
    rw [hd]
    rfl
  · obtain ⟨hstand, hchild⟩ := withoutId_standing hreg
      (fun r' => (s.mem.unlinked_grown r r').2.2.2.parentContext) hp
    refine ⟨hstand, fun he => ?_⟩
    obtain ⟨c, hc, hpar⟩ := hchild he
    have hlisted := h.listed hc hpar
    rw [hleaf] at hlisted
    cases hlisted

/-- A context with sub-contexts leaves the map by an exception. -/
lemma ForestInv.free_parent (h : ForestInv bs s) {contextId : ℕ} {r : CtxRef}
    (hmap : s.map contextId = some r) (hsub : (s.mem.obj r).subContextIds ≠ []) :
    ∃ e, s.managerFreeContext contextId = (.error e, s.withoutId contextId (s.mem.unlinked r)) ∧
      ForestInv bs (s.withoutId contextId (s.mem.unlinked r)) := by
  have hr : r ∈ s.registered := ⟨contextId, hmap⟩
  obtain ⟨e, hd⟩ := KvMemory.destruction_error hsub (h.known hr)
  obtain ⟨hbs, hnext, -, -⟩ := s.mem.unlinked_grown r r
  have hreg := withoutId_registered (s.mem.unlinked r) hmap
    fun id hid => (h.key id r hid).symm.trans (h.key contextId r hmap)
  refine ⟨e, ?_, h.freed hmap rfl hbs hnext ((h.mem.unlinked r).mono fun p hp => ?_)⟩
  · rw [managerFreeContext, hmap]
    dsimp only
    rw [hd]
    rfl
  · exact (withoutId_standing hreg
      (fun r' => (s.mem.unlinked_grown r r').2.2.2.parentContext) hp).1

lemma managerFreeContext_unknown {contextId : ℕ} (hmap : s.map contextId = none) :
    s.managerFreeContext contextId = (.ok 0, s) := by
  rw [managerFreeContext, hmap]

lemma ForestInv.managerFree (h : ForestInv bs s) (contextId : ℕ) :
    ForestInv bs (s.managerFreeContext contextId).2 := by
  cases hmap : s.map contextId with
  | none =>
      rw [managerFreeContext_unknown hmap]
      exact h
  | some r =>
      by_cases hleaf : (s.mem.obj r).subContextIds = []
      · obtain ⟨pool, heq, -, hinv⟩ := h.free_leaf hmap hleaf
        rw [heq]
        exact hinv
      · obtain ⟨e, heq, hinv⟩ := h.free_parent hmap hleaf
        rw [heq]
        exact hinv

/-! ## Every run -/

lemma ForestInv.prepareJob (h : ForestInv bs s) {j : JobRef} {sample : Bool}
    (hok : s.prepareJob j = .ok (sample, s')) : ForestInv bs s' := by
  rw [BuiltinEngine.prepareJob] at hok
  split at hok
  · exact h.allocateJob hok
  · have hbind := h.bind (bindJobContext_outcome s j)
    split at hok
    · cases hok
    · rename_i heq
      rw [heq] at hbind
      split at hok
      · cases hok
      · exact hbind.allocateJob hok

lemma ForestInv.prepareJobs (js : List JobRef) : ∀ {s : BuiltinEngine} {first : List JobRef},
    ForestInv bs s → s.prepareJobs js = .ok (first, s') → ForestInv bs s' := by
  induction js with
  | nil =>
      intro s first h hok
      obtain ⟨-, rfl⟩ := Prod.mk.inj (Except.ok.inj hok)
      exact h
  | cons j js ih =>
      intro s first h hok
      rw [BuiltinEngine.prepareJobs] at hok
      split at hok
      · cases hok
      · rename_i hj
        split at hok
        · cases hok
        · rename_i hjs
          obtain ⟨-, rfl⟩ := Prod.mk.inj (Except.ok.inj hok)
          exact ih (h.prepareJob hj) hjs

/-- The forest after an iteration. -/
lemma ForestInv.engineIter (h : ForestInv bs s) {o : ModelOutput}
    (hi : s.engineIter o = .ok s') : ForestInv bs s' := by
  rcases engineIter_cases hi with rfl | ⟨jobs, s₁, s₂, sched, hf, hup, rfl, -⟩
  · exact h
  · obtain ⟨batch, s₃, first, s₄, s₅, hbatch, -, hprep, hfirst, ids, -, hfwd⟩ :=
      iterForward_cases hf
    have hscheduled : ForestInv bs s₃ := by
      rw [scheduleBatch] at hbatch
      split at hbatch
      · cases hbatch
      · obtain ⟨-, rfl⟩ := Prod.mk.inj (Except.ok.inj hbatch)
        exact h.of_eq rfl rfl
    have hquiet : Quiet s₄ s₂ :=
      ((firstSampling_quiet hfirst).trans (forward_quiet hfwd)).trans (updateJobs_quiet hup)
    exact ((hscheduled.prepareJobs jobs hprep).quiet hquiet).of_eq rfl rfl

/-- The forest is kept by every action. -/
lemma ForestInv.apply (h : ForestInv bs s) (a : Action) : ForestInv bs (s.apply a) := by
  have hadd : ∀ record t, ForestInv bs (s.addJob record t).2 := by
    intro record t
    have hqueued : ForestInv bs (s.queueJob record t) := h.of_eq rfl rfl
    exact hqueued.bind (bindJobContext_outcome _ _)
  cases a with
  | fill sid tid cid pid flag ts t => exact hadd _ t
  | generate sid tid cid pid flag cfg t => exact hadd _ t
  | freeContext cid =>
      rw [BuiltinEngine.apply, freeContext]
      split_ifs
      · exact h
      · exact h.managerFree cid
  | engineIter o =>
      rw [BuiltinEngine.apply]
      split
      · exact h.engineIter ‹_›
      · exact h.of_eq rfl rfl

lemma forestInv_invariant (attnFunc : AttnFunc) (hbs : 0 < bs) (n : ℕ)
    (config : SchedulerConfig) :
    (system attnFunc bs n config).IsInvariantUnder (fun _ _ => True) (ForestInv bs) where
  init := by
    rintro s rfl
    have hnone : ∀ r, r ∉ (start attnFunc bs n config).registered := by
      rintro r ⟨id, hid⟩
      cases hid
    have hstanding : (start attnFunc bs n config).standing =
        (start attnFunc bs n config).registered := by
      refine (registered_subset_standing _).antisymm' ?_
      rintro p (hp | ⟨r, hr, -⟩)
      · exact hp
      · exact absurd hr (hnone r)
    refine ⟨hstanding ▸ (treeInv_start hbs).mem, rfl, fun id r hid => ?_, fun r hr => ?_,
      fun p hp => ?_⟩
    · cases hid
    · exact absurd hr (hnone r)
    · rw [hstanding] at hp
      exact absurd hp (hnone p)
  step s a s' h _ hstep := by
    rw [hstep.2]
    exact h.apply a

/-! ## When a context is freed cleanly -/

/-- What `free_context` owes to its callers: an exception leaves the map, the id lists and the
pool alone; without one the id is gone, exactly the blocks of its context went back to the pool,
and the other contexts in the map have their lengths and slots. -/
structure FreesCleanly (s : BuiltinEngine) (contextId : ℕ) : Prop where
  raised : ∀ e s', s.managerFreeContext contextId = (.error e, s') →
    s'.map = s.map ∧ (∀ r, (s'.mem.obj r).subContextIds = (s.mem.obj r).subContextIds) ∧
      s'.mem.kvCacheManager = s.mem.kvCacheManager
  unknown : ∀ len s', s.managerFreeContext contextId = (.ok len, s') →
    s.map contextId = none → s' = s
  freed : ∀ len s' r, s.managerFreeContext contextId = (.ok len, s') →
    s.map contextId = some r →
      s'.map contextId = none ∧ (∀ id ≠ contextId, s'.map id = s.map id) ∧
      (∃ freed, s'.mem.kvCacheManager.freeIds = s.mem.kvCacheManager.freeIds ++ freed ∧
        s'.mem.kvCacheManager.freeIds.Nodup ∧
        ∀ b, b ∈ freed ↔ b ∈ (s.mem.obj r).tokenKvBlockIds) ∧
      ∀ id ≠ contextId, ∀ r', s.map id = some r' →
        s'.mem.getThisContextLen r' = s.mem.getThisContextLen r' ∧
        s'.mem.getContextLen r' = s.mem.getContextLen r' ∧
        s'.mem.getContextSlotIds r' = s.mem.getContextSlotIds r'

/-- The context, if there is one, has no sub-contexts. -/
def NoSubContexts (s : BuiltinEngine) (contextId : ℕ) : Prop :=
  ∀ r, s.map contextId = some r → (s.mem.obj r).subContextIds = []

/-- A context without sub-contexts is freed cleanly. -/
lemma ForestInv.freesCleanly (h : ForestInv bs s) {contextId : ℕ}
    (hleaf : s.NoSubContexts contextId) : s.FreesCleanly contextId := by
  cases hmap : s.map contextId with
  | none =>
      have heq := managerFreeContext_unknown hmap
      refine ⟨fun e s' hs' => ?_, fun len s' hs' _ => ?_, fun len s' r _ hr => ?_⟩
      · rw [heq] at hs'
        cases hs'
      · rw [heq] at hs'
        exact (Prod.mk.inj hs').2.symm
      · rw [hmap] at hr
        cases hr
  | some r =>
      obtain ⟨pool, heq, hids, hinv⟩ := h.free_leaf hmap (hleaf r hmap)
      refine ⟨fun e s' hs' => ?_, fun len s' _ hnone => ?_, fun len s' r₀ hs' hr => ?_⟩
      · rw [heq] at hs'
        cases hs'
      · rw [hmap] at hnone
        cases hnone
      · obtain rfl := Option.some.inj (hr.symm.trans hmap)
        rw [heq] at hs'
        obtain ⟨-, rfl⟩ := Prod.mk.inj hs'
        have hext := fun a => (s.mem.unlinked_grown r₀ a).2.2.2
        have hblocks : ∀ a, ((s.mem.unlinked r₀).obj a).tokenKvBlockIds =
            (s.mem.obj a).tokenKvBlockIds := fun a => by rw [(hext a).blocks, List.append_nil]
        have hslots : ∀ a, ((s.mem.unlinked r₀).obj a).tokenKvSlotIds =
            (s.mem.obj a).tokenKvSlotIds := fun a => by rw [(hext a).slots, List.append_nil]
        have hgather : ∀ f : BlockContext → List ℕ,
            (∀ a, f ((s.mem.unlinked r₀).obj a) = f (s.mem.obj a)) → ∀ r',
              KvMemory.gather { s.mem.unlinked r₀ with kvCacheManager := pool } f r' =
                s.mem.gather f r' :=
          fun f hf => KvMemory.gather_congr f (fun a => (hext a).parentContext) hf
        refine ⟨Function.update_self .., fun id hne => Function.update_of_ne hne _ _,
          ⟨_, hids, hinv.mem.owns.free_nodup, fun b => ?_⟩, fun id _ r' _ => ⟨?_, ?_, ?_⟩⟩
        · exact (h.mem.paged r₀ (.inl ⟨contextId, hmap⟩)).mem_stride h.mem.blockSize_pos
        · exact congrArg List.length (hblocks r')
        · rw [KvMemory.getContextLen_eq, KvMemory.getContextLen_eq]
          exact congrArg List.length (hgather _ hblocks r')
        · exact hgather _ hslots r'

/-- **When a context is freed cleanly.**  In every reachable state, `free_context` is clean on an
id exactly when its context, if there is one, has no sub-contexts; and the `sub_context_ids` of
a context in the map are the ids of the contexts in the map whose parent it is. -/
theorem free_clean_iff (attnFunc : AttnFunc) (blockSize : ℕ) (hbs : 0 < blockSize)
    (numKvCacheBlocks : ℕ) (config : SchedulerConfig) (s : BuiltinEngine)
    (hs : (system attnFunc blockSize numKvCacheBlocks config).Reachable s) :
    (∀ contextId, s.FreesCleanly contextId ↔ s.NoSubContexts contextId) ∧
      ∀ contextId r, s.map contextId = some r →
        (s.mem.obj r).subContextIds = s.childIds r := by
  have h := (forestInv_invariant attnFunc hbs numKvCacheBlocks config).holds hs
  refine ⟨fun contextId => ⟨fun hclean r hmap => ?_, h.freesCleanly⟩,
    fun contextId r hmap => h.children r (.inl ⟨contextId, hmap⟩)⟩
  by_contra hsub
  obtain ⟨e, heq, -⟩ := h.free_parent hmap hsub
  have hkept := (hclean.raised e _ heq).1
  have hgone : (s.withoutId contextId (s.mem.unlinked r)).map contextId = none :=
    Function.update_self ..
  rw [hkept, hmap] at hgone
  cases hgone

/-- A context that a second one was forked from. -/
def forkedContext : BuiltinEngine :=
  [.fill 0 0 0 none false [7] 0, .fill 0 1 1 (some 0) false [8] 0].foldl apply
    (start .xFormersFillVllmPagedAttentionGenerate 2 8 roomyConfig)

lemma forkedContext_reachable :
    (system .xFormersFillVllmPagedAttentionGenerate 2 8 roomyConfig).Reachable forkedContext :=
  .foldl _ (.init rfl) ⟨rfl, trivial, rfl, trivial, trivial⟩

/-- The fork can be freed, and its parent lists it. -/
theorem free_clean_fork : forkedContext.FreesCleanly 1 ∧
    (forkedContext.mem.obj 0).subContextIds = forkedContext.childIds 0 := by
  obtain ⟨hclean, hlists⟩ := free_clean_iff .xFormersFillVllmPagedAttentionGenerate 2 (by decide) 8
    roomyConfig forkedContext forkedContext_reachable
  refine ⟨(hclean 1).mpr fun r hr => ?_, hlists 0 0 (by decide)⟩
  obtain rfl : r = 1 := Option.some.inj (hr.symm.trans (by decide))
  decide

/-- Its parent leaves the map by an exception. -/
theorem free_parent_unclean : ∃ s,
    (system .xFormersFillVllmPagedAttentionGenerate 2 8 roomyConfig).Reachable s ∧
      (∃ e s', s.managerFreeContext 0 = (.error e, s') ∧ s.map 0 ≠ none ∧ s'.map 0 = none) ∧
        ¬ s.FreesCleanly 0 := by
  obtain ⟨hin, hraised, hout⟩ : forkedContext.map 0 ≠ none ∧
      (forkedContext.managerFreeContext 0).1 =
        .error (.assertionError "Sub-contexts 1 should be deleted first.") ∧
      (forkedContext.managerFreeContext 0).2.map 0 = none := by decide +kernel
  have heq : forkedContext.managerFreeContext 0 =
      (.error (.assertionError "Sub-contexts 1 should be deleted first."),
        (forkedContext.managerFreeContext 0).2) := by rw [← hraised]
  refine ⟨forkedContext, forkedContext_reachable, ⟨_, _, heq, hin, hout⟩, fun hclean => hin ?_⟩
  rw [← (hclean.raised _ _ heq).1]
  exact hout

end BuiltinEngine

end ParrotServe
