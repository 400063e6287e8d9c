import ParrotServe.Properties.EngineTree

/-!
# Block tables and slot ids

The paged kernels do not get slot ids, they get the block ids of a chain with stride
`block_size`, and compute the address of position `p` as
`T[p / block_size] * block_size + p % block_size`.  That agrees with the slot ids when every
ancestor of the context ends on a block boundary, and the code establishes this once: the
constructor of the first child pads its parent.

It is not kept.  A child bound before its parent's tokens are allocated pads an empty parent, a
parent extended after it was forked leaves the boundary, and neither is padded again because
`padded` is already set (`block_tables_misaligned`).  `AlignGuard` is what a request or an
iteration must meet for the boundary to survive; under it the two addressings agree in every
reachable state and for every job of a batch (`block_tables_address_slots`).
-/

namespace ParrotServe
namespace BuiltinEngine

variable {s s' : BuiltinEngine} {bs : ℕ}

/-- The block table of a chain addresses its slot ids. -/
def TableAddresses (m : KvMemory) (r : CtxRef) : Prop :=
  ∀ p < m.getContextLen r, ∃ b,
    (stride m.blockSize (m.getContextBlockIds r))[p / m.blockSize]? = some b ∧
      (m.getContextSlotIds r)[p]? = some (b * m.blockSize + p % m.blockSize)

instance (m : KvMemory) (r : CtxRef) : Decidable (TableAddresses m r) :=
  decidable_of_iff (∀ p < m.getContextLen r,
      ((stride m.blockSize (m.getContextBlockIds r))[p / m.blockSize]?).isSome ∧
      (m.getContextSlotIds r)[p]? = ((stride m.blockSize (m.getContextBlockIds r))[p /
        m.blockSize]?).map fun b => b * m.blockSize + p % m.blockSize) <| by
    refine forall₂_congr fun p _ => ?_
    rw [Option.isSome_iff_exists]
    constructor
    · rintro ⟨⟨b, hb⟩, hslot⟩
      exact ⟨b, hb, by rw [hslot, hb, Option.map_some]⟩
    · rintro ⟨b, hb, hslot⟩
      exact ⟨⟨b, hb⟩, by rw [hslot, hb, Option.map_some]⟩

/-- Every registered context that a registered context was forked from ends on a block
boundary. -/
def Aligned (s : BuiltinEngine) : Prop :=
  ∀ c ∈ s.registered, ∀ p, (s.mem.obj c).parentContext = some p →
    s.mem.blockSize ∣ s.mem.getThisContextLen p

/-- A context that is forked again after it was padded ends on a block boundary. -/
def ForkGuard (s : BuiltinEngine) (contextId : ℕ) (parentContextId : Option ℕ) : Prop :=
  s.map contextId = none → ∀ q p, parentContextId = some q → s.map q = some p →
    (s.mem.obj p).padded = true → s.mem.blockSize ∣ s.mem.getThisContextLen p

/-- The condition on an action under which block boundaries survive: forks of a padded context
find it on a boundary, and an iteration extends a context that was forked by whole blocks. -/
def AlignGuard (s : BuiltinEngine) : Action → Prop
  | .fill _ _ cid pid _ _ _ => ForkGuard s cid pid
  | .generate _ _ cid pid _ _ _ => ForkGuard s cid pid
  | .freeContext cid => FreeGuard s cid
  | .engineIter _ => ∀ batch s₁, s.scheduleBatch = .ok (batch, s₁) →
      ∀ c ∈ s.registered, ∀ p, (s.mem.obj c).parentContext = some p →
        s.mem.blockSize ∣ s.added batch p

/-- On a forest with aligned parents, every chain is addressed by its block table, and ends on a
block boundary when its last context does. -/
lemma TreeInv.addressed (h : TreeInv bs s) (ha : s.Aligned) : ∀ r ∈ s.registered,
    Addressed s.mem.blockSize (s.mem.getContextBlockIds r) (s.mem.getContextSlotIds r) ∧
      (s.mem.blockSize ∣ s.mem.getThisContextLen r →
        s.mem.blockSize ∣ (s.mem.getContextBlockIds r).length) := by
  have hpos := h.mem.blockSize_pos
  refine h.rooted.induction fun r hr ih => ?_
  have hown := Addressed.of_paged (h.mem.paged r hr) hpos
  have hblocks : s.mem.getContextBlockIds r = _ := h.rooted.gather_eq _ hr
  have hslots : s.mem.getContextSlotIds r = _ := h.rooted.gather_eq _ hr
  rcases hp : (s.mem.obj r).parentContext with _ | p
  · rw [hp] at hblocks hslots
    rw [hblocks, hslots, List.nil_append, List.nil_append]
    exact ⟨hown, id⟩
  · rw [hp] at hblocks hslots
    obtain ⟨-, haddr, hdvd⟩ := ih p hp
    have hpd : s.mem.blockSize ∣ (s.mem.getContextBlockIds p).length := hdvd (ha r hr p hp)
    rw [hblocks, hslots]
    exact ⟨haddr.append hpos hown hpd, fun hlen => by
      rw [List.length_append]
      exact Nat.dvd_add hpd hlen⟩

lemma TreeInv.tableAddresses (h : TreeInv bs s) (ha : s.Aligned) {r : CtxRef}
    (hr : r ∈ s.registered) : TableAddresses s.mem r := by
  obtain ⟨hlen, haddr⟩ := (h.addressed ha r hr).1
  intro p hp
  rw [KvMemory.getContextLen_eq] at hp
  obtain ⟨b, hb, hslot⟩ := haddr p _ (List.getElem?_eq_getElem (hlen ▸ hp))
  exact ⟨b, hb, by rw [List.getElem?_eq_getElem (hlen ▸ hp), hslot]⟩

/-! ## The boundary is kept -/

/-- Parents stay aligned when the forest loses contexts or no parent changes length. -/
lemma Aligned.mono (ha : s.Aligned) (hbs : s'.mem.blockSize = s.mem.blockSize)
    (hreg : ∀ c ∈ s'.registered, c ∈ s.registered)
    (hpar : ∀ c, (s'.mem.obj c).parentContext = (s.mem.obj c).parentContext)
    (hlen : ∀ c ∈ s.registered, ∀ p, (s.mem.obj c).parentContext = some p →
      s.mem.blockSize ∣ s.mem.getThisContextLen p →
      s.mem.blockSize ∣ s'.mem.getThisContextLen p) : s'.Aligned := by
  intro c hc p hp
  rw [hbs]
  have hp' : (s.mem.obj c).parentContext = some p := hpar c ▸ hp
  exact hlen c (hreg c hc) p hp' (ha c (hreg c hc) p hp')

/-- What an adoption does to lengths: an object on a block boundary keeps its length, and a parent
whose child was constructed is on a boundary, given that a padded one was. -/
lemma adopt_aligned (h : TreeInv bs s) {p : CtxRef} {i : ℕ} {res : Except PyError Unit}
    {m : KvMemory} (hp : p ∈ s.registered) (had : s.mem.adopt p i = (res, m)) :
    (∀ q, s.mem.blockSize ∣ s.mem.getThisContextLen q →
      s.mem.blockSize ∣ m.getThisContextLen q) ∧
    (res = .ok () →
      ((s.mem.obj p).padded = true → s.mem.blockSize ∣ s.mem.getThisContextLen p) →
      s.mem.blockSize ∣ m.getThisContextLen p) := by
  have hpos := h.mem.blockSize_pos
  obtain ⟨-, bl, sl, hgrow, -, hpadded, hle, hok⟩ := KvMemory.adopt_spec i h.mem hp
  rw [had] at hgrow hpadded hok
  have hlen : m.getThisContextLen p = s.mem.getThisContextLen p + bl.length := by
    have hb : (m.obj p).tokenKvBlockIds = _ := hgrow.self.blocks
    rw [KvMemory.getThisContextLen, hb, List.length_append]
    rfl
  have hkeep : s.mem.blockSize ∣ s.mem.getThisContextLen p →
      s.mem.blockSize ∣ m.getThisContextLen p := fun hd => by
    rw [KvMemory.totalLen_of_dvd hpos hd, Nat.sub_self, Nat.le_zero] at hle
    rwa [hlen, hle, Nat.add_zero]
  refine ⟨fun q hq => ?_, fun hres hg => ?_⟩
  · by_cases he : q = p
    · subst he
      exact hkeep hq
    · have hobj : m.obj q = s.mem.obj q := hgrow.other q he
      simpa only [KvMemory.getThisContextLen, hobj] using hq
  · rcases hpad : (s.mem.obj p).padded with _ | _
    · rw [hlen, (hok hres).2 hpad]
      exact (KvMemory.totalLen_spec hpos _).2
    · exact hkeep (hg hpad)

/-- A new context whose parent, if any, is on a boundary. -/
lemma Aligned.withFresh (ha : s.Aligned) (h : TreeInv bs s) {j : JobRef} {m : KvMemory}
    {c : BlockContext} (hbs : m.blockSize = s.mem.blockSize) (hnext : m.next = s.mem.next)
    (hpar : ∀ r, (m.obj r).parentContext = (s.mem.obj r).parentContext)
    (hkeep : ∀ q, s.mem.blockSize ∣ s.mem.getThisContextLen q →
      s.mem.blockSize ∣ m.getThisContextLen q)
    (hparent : ∀ p, c.parentContext = some p →
      p ∈ s.registered ∧ s.mem.blockSize ∣ m.getThisContextLen p) :
    (s.withFresh j m c).Aligned := by
  have hself : (m.push c).obj m.next = c := m.set_obj_self m.next c
  have hother : ∀ r ∈ s.registered, (m.push c).obj r = m.obj r := fun r hr =>
    m.set_obj_of_ne (Nat.ne_of_lt (hnext ▸ h.mem.lt_next r hr)) c
  intro r hr p hp
  show m.blockSize ∣ ((m.push c).obj p).tokenKvBlockIds.length
  rw [hbs]
  have hcases : r = m.next ∨ r ∈ s.registered := by
    obtain ⟨id, hid⟩ := hr
    simp only [BuiltinEngine.withFresh, Function.update_apply] at hid
    split_ifs at hid
    · exact .inl (Option.some.inj hid).symm
    · exact .inr ⟨id, hid⟩
  rcases hcases with rfl | hr
  · have hp' : c.parentContext = some p := by rw [← hself]; exact hp
    obtain ⟨hpr, hd⟩ := hparent p hp'
    rw [hother p hpr]
    exact hd
  · have hp' : (s.mem.obj r).parentContext = some p := by
      rw [← hpar r, ← hother r hr]
      exact hp
    rw [hother p (h.parent r hr p hp').2]
    exact hkeep p (ha r hr p hp')

lemma Aligned.bind (ha : s.Aligned) (h : TreeInv bs s) {j : JobRef} (ho : BindOutcome s j s')
    (hg : ForkGuard s (s.job j).contextId (s.job j).parentContextId) : s'.Aligned := by
  cases ho with
  | unknownParent => exact ha
  | existing _ => exact ha
  | root _ _ =>
      exact ha.withFresh h rfl rfl (fun _ => rfl) (fun _ hq => hq) (by simp)
  | @failed q p m e _ _ hp had =>
      obtain ⟨-, bl, sl, hgrow, -⟩ := KvMemory.adopt_spec (s.job j).contextId h.mem ⟨q, hp⟩
      rw [had] at hgrow
      exact ha.mono hgrow.blockSize (fun _ hc => hc) (fun c => (hgrow.links c).2)
        fun c _ p' _ hd => (adopt_aligned h ⟨q, hp⟩ had).1 p' hd
  | @forked q p m hmap hq hp had =>
      obtain ⟨-, bl, sl, hgrow, -⟩ := KvMemory.adopt_spec (s.job j).contextId h.mem ⟨q, hp⟩
      rw [had] at hgrow
      obtain ⟨hkeep, hnew⟩ := adopt_aligned h ⟨q, hp⟩ had
      refine ha.withFresh h hgrow.blockSize hgrow.next (fun c => (hgrow.links c).2) hkeep ?_
      rintro _ ⟨⟩
      exact ⟨⟨q, hp⟩, hnew rfl (hg hmap q p hq hp)⟩

lemma Aligned.addJob (ha : s.Aligned) (h : TreeInv bs s) {record : PrimitiveJob}
    (hrec : record.context = none) (t : ℕ)
    (hg : ForkGuard s record.contextId record.parentContextId) :
    (s.addJob record t).2.Aligned := by
  have hjob : (s.queueJob record t).job s.nextJob = record := by
    simp [queueJob, setJob]
  refine Aligned.bind (s := s.queueJob record t) ha (h.queueJob hrec t)
    (bindJobContext_outcome _ s.nextJob) ?_
  rw [hjob]
  exact hg

/-- The order of a batch does not change what it adds. -/
lemma added_fillsFirst (s s₁ : BuiltinEngine) (batch : List JobRef) (r : CtxRef) :
    s.added (s₁.fillsFirst batch) r = s.added batch r :=
  (((s₁.fillsFirst_perm batch).filter _).map _).sum_nat

/-- At the forward pass of an admitted iteration every parent is on a boundary. -/
lemma Aligned.iterForward (ha : s.Aligned) (h : TreeInv bs s) {o : ModelOutput}
    {jobs : List JobRef} (hg : AlignGuard s (.engineIter o))
    (hf : s.iterForward o = .ok (jobs, s')) : s'.Aligned := by
  have hat := h.iterForward hf
  obtain ⟨batch, s₁, first, s₂, s₃, hbatch, hjobs, -⟩ := iterForward_cases hf
  refine ha.mono (hat.tree.blockSize_eq.trans h.blockSize_eq.symm)
    (fun c hc => hat.registered ▸ hc) (fun c => (hat.links c).2.1) fun c hc p hp hd => ?_
  have hadd : s.mem.blockSize ∣ s.added jobs p := by
    rw [hjobs, added_fillsFirst]
    exact hg batch s₁ hbatch c hc p hp
  rw [KvMemory.getThisContextLen, hat.length p]
  exact Nat.dvd_add hd hadd

lemma Aligned.quiet (ha : s.Aligned) (hq : Quiet s s') : s'.Aligned :=
  ha.mono hq.blockSize (fun c hc => hq.registered ▸ hc) (fun c => (hq.obj c).2.1)
    fun c _ p _ hd => by
      simpa only [KvMemory.getThisContextLen, (hq.obj p).2.2.2.2.1] using hd

/-- Every admitted action keeps the boundaries. -/
lemma Aligned.apply (ha : s.Aligned) (h : TreeInv bs s) {a : Action} (hg : AlignGuard s a) :
    (s.apply a).Aligned := by
  cases a with
  | fill sid tid cid pid flag ts t => exact ha.addJob h rfl t hg
  | generate sid tid cid pid flag cfg t => exact ha.addJob h rfl t hg
  | freeContext cid =>
      rcases freeContext_outcome h cid with heq | ⟨r, m, hmap, heq, -, hobj, hbs⟩
      · rw [BuiltinEngine.apply, heq]
        exact ha
      · rw [BuiltinEngine.apply, heq]
        have hext := fun r' => (s.mem.unlinked_grown r r').2.2.2
        refine ha.mono hbs (fun c hc => ?_) (fun c => ?_) fun c _ p _ hd => ?_
        · obtain ⟨id, hid⟩ := hc
          simp only [Function.update_apply] at hid
          split_ifs at hid
          exact ⟨id, hid⟩
        · show (m.obj c).parentContext = _
          rw [hobj, (hext c).parentContext]
        · show s.mem.blockSize ∣ (m.obj p).tokenKvBlockIds.length
          rw [hobj, (hext p).blocks, List.append_nil]
          exact hd
  | engineIter o =>
      simp only [BuiltinEngine.apply]
      split
      · rename_i s₂ hi
        rcases engineIter_cases hi with rfl | ⟨jobs, s₁, s₃, sched, hf, hup, rfl, -⟩
        · exact ha
        · have hup' : s₃.Aligned := (ha.iterForward h hg hf).quiet (updateJobs_quiet hup)
          exact hup'
      · exact ha

/-- The guard on a request's freeing is part of the alignment guard. -/
lemma AlignGuard.freeGuard {a : Action} (hg : AlignGuard s a) :
    ∀ cid, a = .freeContext cid → FreeGuard s cid := by
  rintro cid rfl
  exact hg

lemma aligned_invariant (attnFunc : AttnFunc) (hbs : 0 < bs) (n : ℕ) (config : SchedulerConfig) :
    (system attnFunc bs n config).IsInvariantUnder AlignGuard
      fun s => TreeInv bs s ∧ s.Aligned where
  init s hs := by
    rw [show s = start attnFunc bs n config from hs]
    refine ⟨treeInv_start hbs, fun c hc => ?_⟩
    obtain ⟨id, hid⟩ := hc
    simp [start] at hid
  step s a s' h hg hstep := by
    rw [hstep.2]
    exact ⟨h.1.apply hg.freeGuard, h.2.apply h.1 hg⟩

/-- **Block tables address the slots.**  In every run whose requests and iterations meet
`AlignGuard`, in every state and at every forward pass the block table of a context addresses its
slot ids, and every context that was forked ends on a block boundary. -/
theorem block_tables_address_slots (attnFunc : AttnFunc) (blockSize : ℕ) (hbs : 0 < blockSize)
    (numKvCacheBlocks : ℕ) (config : SchedulerConfig) (s : BuiltinEngine)
    (hs : (system attnFunc blockSize numKvCacheBlocks config).ReachableUnder AlignGuard s) :
    s.mem.blockSize = blockSize ∧
    (∀ id r, s.map id = some r → TableAddresses s.mem r) ∧
    (∀ id c p, s.map id = some c → (s.mem.obj c).parentContext = some p →
      blockSize ∣ s.mem.getThisContextLen p) ∧
    (∀ o jobs s', AlignGuard s (.engineIter o) → s.iterForward o = .ok (jobs, s') →
      ∀ j ∈ jobs, ∃ r, (s'.job j).context = some r ∧ TableAddresses s'.mem r) := by
  obtain ⟨h, ha⟩ := (aligned_invariant attnFunc hbs numKvCacheBlocks config).holds hs
  refine ⟨h.blockSize_eq, fun id r hr => h.tableAddresses ha ⟨id, hr⟩, fun id c p hc hp => ?_,
    fun o jobs s' hg hf j hj => ?_⟩
  · rw [← h.blockSize_eq]
    exact ha c ⟨id, hc⟩ p hp
  · have hat := h.iterForward hf
    obtain ⟨r, hr, hctx⟩ := hat.bound j hj
    exact ⟨r, hctx, hat.tree.tableAddresses (ha.iterForward h hg hf) hr⟩

/-! ## Two requests in the wrong order -/

/-- Limits that admit every batch of the runs below. -/
def roomyConfig : SchedulerConfig where
  maxBatchSize := 8
  maxNumBatchedTokens := 64
  maxTotalTokens := 256

/-- A model that returns zeros. -/
def zeroOutput : ModelOutput := ⟨fun _ => 0, fun _ => 0, fun _ => 0⟩

/-- A parent's Fill and its child's Fill, queued before the first one ran. -/
def queuedFork : BuiltinEngine :=
  [.fill 0 0 0 none false [7] 0, .fill 0 0 1 (some 0) false [8] 1].foldl apply
    (start .xFormersFillVllmPagedAttentionGenerate 2 8 roomyConfig)

/-- The child of a parent queued before it ran: at the forward pass the table sends position 1
to slot 1, while the token was stored in slot 2. -/
theorem block_tables_misaligned :
    (system .xFormersFillVllmPagedAttentionGenerate 2 8 roomyConfig).Reachable queuedFork ∧
      ∃ jobs s', queuedFork.iterForward zeroOutput = .ok (jobs, s') ∧
        ∃ j ∈ jobs, ∃ r, (s'.job j).context = some r ∧ ¬ TableAddresses s'.mem r := by
  refine ⟨.foldl _ (.init rfl) ⟨rfl, trivial, rfl, trivial, trivial⟩, _, _, rfl, 1, ?_, 1, ?_, ?_⟩
  · decide
  · decide
  · decide

/-- The same two requests with the parent's Fill run first meet the guard, and the child's table
addresses its slots: the parent was padded to a boundary. -/
theorem block_tables_address_slots_forked :
    let s := [.fill 0 0 0 none false [7] 0, .engineIter zeroOutput,
        .fill 0 0 1 (some 0) false [8] 1].foldl apply
      (start .xFormersFillVllmPagedAttentionGenerate 2 8 roomyConfig)
    s.map 1 = some 1 ∧ TableAddresses s.mem 1 := by
  refine ⟨by decide, (block_tables_address_slots .xFormersFillVllmPagedAttentionGenerate 2
    (by decide) 8 roomyConfig _ (.foldl _ (.init rfl) ?_)).2.1 1 1 (by decide)⟩
  refine ⟨rfl, ?_, rfl, ?_, rfl, ?_, trivial⟩
  · intro _ q p hq
    simp at hq
  · -- the only registered context is a root
    rintro batch s₁ - c ⟨id, hid⟩ p hp
    have hmap : Function.update (fun _ => none) 0 (some 0) id = some c := hid
    rw [Function.update_apply] at hmap
    split_ifs at hmap
    obtain rfl := Option.some.inj hmap
    exact absurd hp (by decide +revert)
  · rintro - q p hq hp hpad
    obtain rfl := Option.some.inj hq
    obtain rfl : 0 = p := Option.some.inj hp
    exact Bool.noConfusion hpad

end BuiltinEngine
end ParrotServe
