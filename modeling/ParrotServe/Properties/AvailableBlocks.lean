import ParrotServe.Properties.JobIterations
import ParrotServe.Properties.ReferencePath

/-!
# When an iteration does not raise

An iteration of the engine can raise in several places (`parrot/engine/builtin/builtin_runner.py`):
the pool of blocks is exhausted, a context has no hidden state to go on from and no last token, the
tables of the reference path do not match.  `runIter_ok` collects what rules all of them out for a
batch: as many available blocks as its jobs open (`newPages`), contexts of their own, and a start
for each Generate.

`RecyclePool.available` counts the allocations that cannot fail.  An iteration takes at most the
blocks it opens, and freeing a context only adds to them.
-/

namespace ParrotServe

namespace RecyclePool

variable {p : RecyclePool}

/-- The allocations of a pool that cannot fail: those of freed ids, and of the ids below the last
one that was counted out. -/
def available (p : RecyclePool) : ℕ :=
  (if p.debugMode then 0 else p.freeIds.length) + (p.poolSize.getD 0 - 1 - p.curMaxId)

lemma allocate_available (h : 0 < p.available) :
    ∃ id p', p.allocate = (.ok id, p') ∧ p.available ≤ p'.available + 1 := by
  have hfresh : ∀ n, p.poolSize = some n → ¬ n ≤ p.curMaxId + 1 → ∃ k,
      n - 1 - p.curMaxId = k + 1 ∧ n - 1 - (p.curMaxId + 1) = k := fun n _ hlt =>
    ⟨n - 1 - (p.curMaxId + 1), by omega, rfl⟩
  unfold available at h ⊢
  unfold allocate
  dsimp only
  split
  · rename_i id rest hfree hdebug
    refine ⟨_, _, rfl, ?_⟩
    dsimp only
    rw [hfree, hdebug]
    simp only [Bool.false_eq_true, if_false, List.length_cons]
    omega
  · rename_i hnot
    have hnone : (if p.debugMode then 0 else p.freeIds.length) = 0 := by
      cases hdebug : p.debugMode with
      | true => rfl
      | false =>
          cases hfree : p.freeIds with
          | nil => rfl
          | cons id rest => exact absurd hdebug (hnot id rest hfree)
    rw [hnone, Nat.zero_add] at h
    unfold exceedsSize
    dsimp only
    cases hsize : p.poolSize with
    | none =>
        rw [hsize] at h
        exact absurd h (by simp)
    | some n =>
        rw [hsize, Option.getD_some] at h
        have hroom : ¬ n ≤ p.curMaxId + 1 := by omega
        simp only [hroom, decide_false, Bool.false_eq_true, if_false]
        refine ⟨_, _, rfl, ?_⟩
        rw [hnone, Option.getD_some]
        dsimp only
        omega

/-- A freed id is available. -/
lemma free_available (p : RecyclePool) (id : ℕ) : p.available ≤ (p.free id).2.available := by
  unfold free available
  dsimp only
  split_ifs <;> simp

end RecyclePool

namespace KvMemory

variable {m m' : KvMemory} {live : Set CtxRef} {r : CtxRef}

/-- The blocks that can be allocated. -/
def available (m : KvMemory) : ℕ := m.kvCacheManager.available

lemma freeBlocks_available (bs : List ℕ) : ∀ m : KvMemory,
    m.available ≤ (m.freeBlocks bs).2.available := by
  induction bs with
  | nil => exact fun m => le_rfl
  | cons b bs ih =>
      intro m
      have hfree : m.available ≤ (m.kvCacheManager.free b).2.available :=
        RecyclePool.free_available _ b
      rw [freeBlocks]
      split
      · rename_i hb
        rw [hb] at hfree
        exact hfree
      · rename_i hb
        rw [hb] at hfree
        exact le_trans hfree (ih { m with kvCacheManager := _ })

/-- What a destroyed context held is available. -/
lemma destruction_available (m : KvMemory) (r : CtxRef) :
    m.available ≤ (m.destruction r).2.available := by
  have hunlink : (m.unlink r).2.kvCacheManager = m.kvCacheManager := by
    unfold unlink
    dsimp only
    split
    · split
      · rfl
      · rfl
    · split_ifs
      · split
        · rfl
        · rfl
      · rfl
  rw [destruction, available, ← hunlink]
  cases m.unlink r with
  | mk result m' =>
      cases result with
      | error e => exact le_rfl
      | ok u => exact freeBlocks_available _ m'

/-- `_allocate_one` succeeds if the block it opens is available. -/
lemma allocateOne_available (h : MemInv m live) (hr : r ∈ live)
    (hroom : newPages m.blockSize (m.getThisContextLen r) 1 ≤ m.available) :
    (m.allocateOne r).1 = .ok () ∧ m.available ≤
      (m.allocateOne r).2.available + newPages m.blockSize (m.getThisContextLen r) 1 := by
  rw [newPages_one h.blockSize_pos] at hroom ⊢
  unfold getThisContextLen at hroom ⊢
  unfold allocateOne
  dsimp only
  split_ifs at hroom ⊢ with hzero
  · obtain ⟨id, p', hok, hle⟩ := RecyclePool.allocate_available (p := m.kvCacheManager) hroom
    rw [hok]
    exact ⟨rfl, hle⟩
  · have hpaged := h.paged r hr
    have hblocks : (m.obj r).tokenKvBlockIds ≠ [] := fun hnil => hzero (by rw [hnil]; rfl)
    have hslots : (m.obj r).tokenKvSlotIds ≠ [] := fun hnil => by
      have hlen := hpaged.length_eq
      rw [hnil] at hlen
      exact hblocks (List.length_eq_zero_iff.mp hlen.symm)
    rw [List.getLast?_eq_some_getLast hblocks, List.getLast?_eq_some_getLast hslots]
    exact ⟨rfl, le_rfl⟩

/-- `allocate` succeeds if the blocks it opens are available, and takes no others. -/
lemma allocate_available (n : ℕ) : ∀ {m : KvMemory}, MemInv m live → r ∈ live →
    newPages m.blockSize (m.getThisContextLen r) n ≤ m.available →
      (m.allocate r n).1 = .ok () ∧ m.available ≤
        (m.allocate r n).2.available + newPages m.blockSize (m.getThisContextLen r) n := by
  induction n with
  | zero => exact fun _ _ _ => ⟨rfl, Nat.le_add_right _ _⟩
  | succ n ih =>
      intro m h hr hroom
      rw [Nat.add_comm n 1, newPages_add] at hroom ⊢
      obtain ⟨hok, hone⟩ := allocateOne_available h hr (by omega)
      obtain ⟨hinv, bs, ss, hgrown, hlen⟩ := allocateOne_spec h hr
      have hnext : (m.allocateOne r).2.getThisContextLen r = m.getThisContextLen r + 1 := by
        rw [getThisContextLen, hgrown.self.blocks, List.length_append,
          (hlen.resolve_right fun hne => hne.1 hok).2]
        rfl
      have hrest := ih hinv hr (by rw [hnext, hgrown.blockSize]; omega)
      rw [hnext, hgrown.blockSize] at hrest
      rw [Nat.add_comm 1 n, allocate]
      split
      · rename_i heq
        rw [heq] at hok
        cases hok
      · rename_i heq
        rw [heq] at hone hrest
        refine ⟨hrest.1, ?_⟩
        dsimp only at hone hrest
        omega

/-! ## Chains -/

/-- The fields that the recursion of `get_last_hidden_state` reads are the same. -/
def SameState (c c' : BlockContext) : Prop :=
  c'.tokenIds = c.tokenIds ∧ c'.parentContext = c.parentContext ∧
    c'.lastHiddenState = c.lastHiddenState

lemma getLastHiddenState_of_lineage {r : CtxRef}
    (h : ∀ a ∈ m.lineage r, SameState (m.obj a) (m'.obj a)) :
    m'.getLastHiddenState r = m.getLastHiddenState r := by
  have haux : ∀ fuel r, (∀ a ∈ m.lineageAux fuel r, SameState (m.obj a) (m'.obj a)) →
      m'.getLastHiddenStateAux fuel r = m.getLastHiddenStateAux fuel r := by
    intro fuel
    induction fuel with
    | zero => exact fun _ _ => rfl
    | succ fuel ih =>
        intro r hr
        obtain ⟨htokens, hparent, hstate⟩ := hr r (by
          rw [lineageAux]
          exact List.mem_append_right _ (List.mem_singleton_self r))
        rw [getLastHiddenStateAux, getLastHiddenStateAux, htokens, hparent, hstate]
        cases hp : (m.obj r).parentContext with
        | none => rfl
        | some p =>
            have hrest := ih p fun a ha => hr a (by
              rw [lineageAux, hp]
              exact List.mem_append_left _ ha)
            dsimp only
            rw [hrest]
  exact haux (r + 1) r h

/-- A chain ends with the object itself, behind older ones. -/
lemma Rooted.lineage_eq (h : Rooted m live) (hr : r ∈ live) :
    ∃ front, m.lineage r = front ++ [r] ∧ ∀ a ∈ front, a < r := by
  have hlt : ∀ fuel q, q ∈ live → ∀ a ∈ m.lineageAux fuel q, a ≤ q := by
    intro fuel
    induction fuel with
    | zero => exact fun _ _ a ha => absurd ha List.not_mem_nil
    | succ fuel ih =>
        intro q hq a ha
        rw [lineageAux, List.mem_append, List.mem_singleton] at ha
        rcases ha with ha | rfl
        · cases hp : (m.obj q).parentContext with
          | none =>
              rw [hp] at ha
              exact absurd ha List.not_mem_nil
          | some p =>
              rw [hp] at ha
              obtain ⟨hpq, hplive⟩ := h q hq p hp
              exact (ih p hplive a ha).trans hpq.le
        · exact le_rfl
  refine ⟨_, rfl, fun a ha => ?_⟩
  cases hp : (m.obj r).parentContext with
  | none =>
      rw [hp] at ha
      exact absurd ha List.not_mem_nil
  | some p =>
      rw [hp] at ha
      obtain ⟨hpr, hplive⟩ := h r hr p hp
      exact Nat.lt_of_le_of_lt (hlt _ p hplive a ha) hpr

lemma getContextLen_lineage (m : KvMemory) (r : CtxRef) :
    m.getContextLen r = ((m.lineage r).map m.getThisContextLen).sum := by
  rw [getContextLen_eq, getContextBlockIds, gather_eq_lineage, List.length_flatMap]
  rfl

/-- A context that grows behind ancestors which do not. -/
lemma Rooted.getContextLen_grown {m' : KvMemory} {n : ℕ} (h : Rooted m live) (hr : r ∈ live)
    (hparent : ∀ a, (m'.obj a).parentContext = (m.obj a).parentContext)
    (hchain : ∀ a ∈ m.lineage r, a ≠ r → m'.getThisContextLen a = m.getThisContextLen a)
    (hlast : m'.getThisContextLen r = m.getThisContextLen r + n) :
    m'.getContextLen r = m.getContextLen r + n := by
  obtain ⟨front, hlineage, hlt⟩ := h.lineage_eq hr
  have hfront : front.map m'.getThisContextLen = front.map m.getThisContextLen :=
    List.map_congr_left fun a ha => by
      refine hchain a ?_ (hlt a ha).ne
      rw [hlineage]
      exact List.mem_append_left _ ha
  rw [getContextLen_lineage, getContextLen_lineage, lineage_congr hparent, hlineage,
    List.map_append, List.map_append, hfront, List.sum_append, List.sum_append,
    List.map_singleton, List.map_singleton, List.sum_singleton, List.sum_singleton, hlast,
    Nat.add_assoc]

end KvMemory

namespace BuiltinEngine

variable {s s' : BuiltinEngine} {live : Set CtxRef} {j : JobRef} {r : CtxRef}

/-! ## The first loop -/

/-- The blocks that the new positions of a job open. -/
def openedBlocks (s : BuiltinEngine) (j : JobRef) : ℕ :=
  newPages s.mem.blockSize (s.mem.getThisContextLen (s.jobContext j)) (s.job j).numTokens

/-- A Generate goes on from a hidden state, its own last token, or both. -/
def Starts (s : BuiltinEngine) (r : CtxRef) : Prop :=
  ∃ state, s.mem.getLastHiddenState r = .ok state ∧ ((s.mem.obj r).tokenIds = [] → state ≠ none)

lemma allocateJob_ok (h : s.mem.MemInv live) (hr : r ∈ live)
    (hkind : (s.job j).kind ≠ .fill none) (hstarts : (s.job j).isGenerate = true → s.Starts r)
    (hroom : newPages s.mem.blockSize (s.mem.getThisContextLen r) (s.job j).numTokens ≤
      s.mem.available) :
    ∃ sample s', s.allocateJob j r = .ok (sample, s') ∧
      s.mem.available ≤ s'.mem.available +
        newPages s.mem.blockSize (s.mem.getThisContextLen r) (s.job j).numTokens ∧
      ((s.job j).isGenerate = true → (s.mem.obj r).tokenIds = [] → sample = true) := by
  unfold PrimitiveJob.numTokens PrimitiveJob.isGenerate at *
  unfold allocateJob
  cases hk : (s.job j).kind with
  | fill tokenIds =>
      cases tokenIds with
      | none => exact absurd hk hkind
      | some tokenIds =>
          rw [hk] at hroom
          dsimp only at hroom ⊢
          set c : BlockContext :=
            { s.mem.obj r with tokenIds := (s.mem.obj r).tokenIds ++ tokenIds } with hc
          have hlen : (s.mem.set r c).getThisContextLen r = s.mem.getThisContextLen r := by
            rw [KvMemory.getThisContextLen, KvMemory.set_obj_self]
            rfl
          have hinv : (s.mem.set r c).MemInv live := h.set_of_tables rfl rfl
          obtain ⟨hok, hle⟩ := KvMemory.allocate_available tokenIds.length hinv hr (by
            rw [hlen]
            exact hroom)
          rw [hlen] at hle
          split
          · rename_i heq
            rw [heq] at hok
            cases hok
          · rename_i heq
            rw [heq] at hle
            exact ⟨_, _, rfl, hle, fun hgen => absurd hgen Bool.false_ne_true⟩
  | generate cfg =>
      rw [hk] at hroom hstarts
      dsimp only at hroom ⊢
      obtain ⟨state, hstate, hempty⟩ := hstarts rfl
      obtain ⟨hok, hle⟩ := KvMemory.allocate_available 1 h hr hroom
      have hsame := KvMemory.getLastHiddenState_congr
        (fun a => (KvMemory.allocate_tables 1 s.mem r a).2) r
      split
      · rename_i heq
        rw [heq] at hok
        cases hok
      · rename_i heq
        rw [heq] at hle hsame
        dsimp only at hle hsame
        rw [hsame, hstate]
        cases state with
        | none => exact ⟨_, _, rfl, hle, fun _ hnil => absurd rfl (hempty hnil)⟩
        | some state => exact ⟨_, _, rfl, hle, fun _ _ => rfl⟩

/-- The jobs of a batch can be prepared. -/
structure Startable (s : BuiltinEngine) (js : List JobRef) : Prop where
  fills : ∀ j ∈ js, (s.job j).kind ≠ .fill none
  starts : ∀ j ∈ js, (s.job j).isGenerate = true → s.Starts (s.jobContext j)
  /-- No parent is filled in the same batch. -/
  parents : ∀ j ∈ js, ∀ a ∈ s.mem.lineage (s.jobContext j), a ≠ s.jobContext j →
    ∀ j' ∈ js, s.jobContext j' ≠ a

/-- Where the states of a chain stay, so does what a Generate goes on from. -/
lemma Starts.congr (h : s.Starts r)
    (hobj : ∀ a ∈ s.mem.lineage r, KvMemory.SameState (s.mem.obj a) (s'.mem.obj a)) :
    s'.Starts r := by
  obtain ⟨state, hstate, hempty⟩ := h
  refine ⟨state, (KvMemory.getLastHiddenState_of_lineage hobj).trans hstate, ?_⟩
  rwa [(hobj r (KvMemory.self_mem_lineage _ r)).1]

lemma prepareJobs_ok (js : List JobRef) : ∀ {s : BuiltinEngine}, s.mem.MemInv live →
    BoundTo s live js → (js.map fun j => (s.job j).context).Nodup → s.Startable js →
      (js.map s.openedBlocks).sum ≤ s.mem.available →
        ∃ first s', s.prepareJobs js = .ok (first, s') ∧
          s.mem.available ≤ s'.mem.available + (js.map s.openedBlocks).sum ∧
          ∀ j ∈ js, (s.job j).isGenerate = true →
            (s.mem.obj (s.jobContext j)).tokenIds = [] → j ∈ first := by
  induction js with
  | nil =>
      exact fun _ _ _ _ _ => ⟨[], _, rfl, Nat.le_add_right _ _, fun _ hj => absurd hj (by simp)⟩
  | cons x js ih =>
      intro s h hbound hnodup hstart hroom
      obtain ⟨r, hr, hctx⟩ := hbound x List.mem_cons_self
      have hx := jobContext_eq hctx
      rw [List.map_cons, List.sum_cons] at hroom ⊢
      have hopened : s.openedBlocks x =
          newPages s.mem.blockSize (s.mem.getThisContextLen r) (s.job x).numTokens := by
        rw [openedBlocks, hx]
      obtain ⟨sample, s₁, hok, hle, hsample⟩ := allocateJob_ok h hr
        (hstart.fills x List.mem_cons_self)
        (fun hgen => hx ▸ hstart.starts x List.mem_cons_self hgen) (by omega)
      obtain ⟨hinv, hal⟩ := allocateJob_spec h hr hok
      have hjob : s₁.job = s.job := by
        rw [hal.rest]
        rfl
      have hcontext : s₁.jobContext = s.jobContext := by
        funext j
        rw [jobContext, jobContext, hjob]
      rw [List.map_cons, List.nodup_cons] at hnodup
      have hne : ∀ j ∈ js, s.jobContext j ≠ r := by
        intro j hj heq
        obtain ⟨r', -, hctx'⟩ := hbound j (List.mem_cons_of_mem _ hj)
        rw [jobContext_eq hctx'] at heq
        exact hnodup.1 (List.mem_map.mpr ⟨j, hj, by rw [hctx', heq, hctx]⟩)
      have hparent : ∀ a, (s₁.mem.obj a).parentContext = (s.mem.obj a).parentContext := by
        intro a
        by_cases ha : a = r
        · rw [ha]
          exact hal.self.links.2.1
        · rw [hal.other a ha]
      have hlineage := KvMemory.lineage_congr hparent
      have hchain : ∀ j ∈ js, ∀ a ∈ s.mem.lineage (s.jobContext j),
          s₁.mem.obj a = s.mem.obj a := by
        intro j hj a ha
        refine hal.other a fun heq => ?_
        by_cases hown : a = s.jobContext j
        · exact hne j hj (hown.symm.trans heq)
        · exact hstart.parents j (List.mem_cons_of_mem _ hj) a ha hown x List.mem_cons_self
            (hx.trans heq.symm)
      have hblocks : ∀ j ∈ js, s₁.openedBlocks j = s.openedBlocks j := by
        intro j hj
        rw [openedBlocks, openedBlocks, hcontext, hjob, hal.blockSize, KvMemory.getThisContextLen,
          KvMemory.getThisContextLen, hal.other _ (hne j hj)]
      rw [← List.map_congr_left hblocks] at hroom ⊢
      have hstart₁ : s₁.Startable js := by
        refine ⟨fun j hj => ?_, fun j hj hgen => ?_, fun j hj a ha hown j' hj' => ?_⟩
        · rw [hjob]
          exact hstart.fills j (List.mem_cons_of_mem _ hj)
        · rw [hjob] at hgen
          rw [hcontext]
          refine (hstart.starts j (List.mem_cons_of_mem _ hj) hgen).congr fun a ha => ?_
          rw [hchain j hj a ha]
          exact ⟨rfl, rfl, rfl⟩
        · rw [hcontext] at ha hown ⊢
          rw [hlineage] at ha
          exact hstart.parents j (List.mem_cons_of_mem _ hj) a ha hown j'
            (List.mem_cons_of_mem _ hj')
      obtain ⟨first, s', hrest, hle', hfirst⟩ := ih hinv
        (fun j hj => by rw [hjob]; exact hbound j (List.mem_cons_of_mem _ hj))
        (by rw [hjob]; exact hnodup.2) hstart₁ (by omega)
      refine ⟨if sample then x :: first else first, s', ?_, by omega, fun j hj hgen hnil => ?_⟩
      · rw [prepareJobs, prepareJob_eq hctx, hok]
        dsimp only
        rw [hrest]
      · rcases List.mem_cons.mp hj with rfl | hj
        · rw [hx] at hnil
          rw [if_pos (hsample hgen hnil)]
          exact List.mem_cons_self
        · have hmem : j ∈ first := by
            refine hfirst j hj (by rwa [hjob]) ?_
            rw [hcontext, hal.other _ (hne j hj)]
            exact hnil
          split_ifs
          · exact List.mem_cons_of_mem _ hmem
          · exact hmem

/-! ## The rest of an iteration -/

lemma Quiet.available (h : Quiet s s') : s'.mem.available = s.mem.available := by
  rw [KvMemory.available, KvMemory.available, h.pool]

lemma firstSampling_ok {tokens : ℕ → ℕ} (js : List JobRef) : ∀ {s : BuiltinEngine} {i : ℕ},
    (∀ j ∈ js, (s.job j).context ≠ none) → ∃ s', s.firstSampling tokens i js = .ok s' := by
  induction js with
  | nil => exact fun {s i} _ => ⟨s, rfl⟩
  | cons j js ih =>
      intro s i hbound
      obtain ⟨r, hctx⟩ := Option.ne_none_iff_exists'.mp (hbound j List.mem_cons_self)
      obtain ⟨a, ha⟩ : ∃ a, s.putToken j (tokens i) = .ok a := by
        rw [putToken, hctx]
        exact ⟨_, rfl⟩
      obtain ⟨s', hs'⟩ := ih (s := a) (i := i + 1) fun x hx => by
        rw [((putToken_quiet ha).job x).2.1]
        exact hbound x (List.mem_cons_of_mem _ hx)
      exact ⟨s', by rw [firstSampling, ha]; exact hs'⟩

lemma inputIds_exists (js : List JobRef) (h : ∀ j ∈ js, ∃ tokens, s.inputTokens j = .ok tokens) :
    ∃ ids, s.inputIds js = .ok ids := by
  induction js with
  | nil => exact ⟨[], rfl⟩
  | cons j js ih =>
      obtain ⟨tokens, hj⟩ := h j List.mem_cons_self
      obtain ⟨ids, hjs⟩ := ih fun x hx => h x (List.mem_cons_of_mem _ hx)
      exact ⟨tokens ++ ids, by rw [inputIds, hj]; dsimp only; rw [hjs]⟩

/-- The tokens of a job that is no Fill without a list, and no Generate on an empty context. -/
lemma inputTokens_exists (hctx : (s.job j).context = some r) (hkind : (s.job j).kind ≠ .fill none)
    (hown : (s.job j).isGenerate = true → (s.mem.obj r).tokenIds ≠ []) :
    ∃ tokens, s.inputTokens j = .ok tokens := by
  unfold inputTokens
  cases hk : (s.job j).kind with
  | fill tokenIds =>
      cases tokenIds with
      | none => exact absurd hk hkind
      | some tokenIds => exact ⟨tokenIds, rfl⟩
  | generate cfg =>
      have hne := hown (by rw [PrimitiveJob.isGenerate, hk])
      dsimp only
      rw [hctx]
      dsimp only
      rw [KvMemory.getLastTokenId, List.getLast?_eq_some_getLast hne]
      exact ⟨_, rfl⟩

lemma Startable.of_mem {js js' : List JobRef} (h : s.Startable js) (hsub : ∀ j ∈ js', j ∈ js) :
    s.Startable js' :=
  ⟨fun j hj => h.fills j (hsub j hj), fun j hj => h.starts j (hsub j hj),
    fun j hj a ha hne j' hj' => h.parents j (hsub j hj) a ha hne j' (hsub j' hj')⟩

/-- The model runs on a batch that can be prepared. -/
lemma runsModel_ok (h : s.mem.MemInv live) {batch : List JobRef} (hbound : BoundTo s live batch)
    (hnodup : (batch.map fun j => (s.job j).context).Nodup) (hstart : s.Startable batch)
    (hroom : (batch.map s.openedBlocks).sum ≤ s.mem.available) (tokens : ℕ → ℕ) :
    ∃ s₂ ids, s.RunsModel tokens batch s₂ ids ∧
      s.mem.available ≤ s₂.mem.available + (batch.map s.openedBlocks).sum := by
  have hperm := fillsFirst_perm s batch
  have hmem : ∀ j ∈ s.fillsFirst batch, j ∈ batch := fun j => mem_fillsFirst.mp
  have hbound' : BoundTo s live (s.fillsFirst batch) := fun j hj => hbound j (hmem j hj)
  have hnodup' := (hperm.map fun j => (s.job j).context).nodup_iff.mpr hnodup
  rw [← (hperm.map s.openedBlocks).sum_eq] at hroom ⊢
  obtain ⟨first, s₁, hprep, hle, hempty⟩ :=
    prepareJobs_ok _ h hbound' hnodup' (hstart.of_mem hmem) hroom
  have hjob := prepareJobs_job _ hbound'.context hprep
  obtain ⟨hsub, -, hobjs⟩ := prepareJobs_objs _ h hbound' hnodup' hprep
  obtain ⟨s₂, hfirst⟩ : ∃ s₂, s₁.firstSampling tokens 0 first = .ok s₂ :=
    firstSampling_ok first fun j hj => by
      rw [hjob]
      exact hbound'.context j (hsub.subset hj)
  have hquiet := firstSampling_quiet hfirst
  obtain ⟨-, hother, hsampled⟩ := firstSampling_objs first (by
    rw [hjob]
    exact hnodup'.sublist (hsub.map _)) hfirst
  obtain ⟨ids, hids⟩ : ∃ ids, s₂.inputIds (s.fillsFirst batch) = .ok ids := by
    refine inputIds_exists _ fun j hj => ?_
    obtain ⟨r, -, hctx⟩ := hbound' j hj
    obtain ⟨sample, halloc, hiff⟩ := hobjs j hj r hctx
    refine inputTokens_exists (r := r) ?_ ?_ fun hgen => ?_
    · rw [(hquiet.job j).2.1, hjob]
      exact hctx
    · rw [(hquiet.job j).2.2, hjob]
      exact halloc.kind
    · rw [PrimitiveJob.isGenerate, (hquiet.job j).2.2, hjob] at hgen
      by_cases hj' : j ∈ first
      · obtain ⟨t, ht⟩ := hsampled j hj' r (by rwa [hjob])
        rw [ht]
        exact List.append_ne_nil_of_right_ne_nil _ (List.cons_ne_nil _ _)
      · have hown : (s.mem.obj r).tokenIds ≠ [] := fun hnil =>
          hj' (hempty j hj hgen (by rwa [jobContext_eq hctx]))
        rw [hother r fun x hx hxr => hj' ?_, halloc.tokens]
        · exact List.append_ne_nil_of_left_ne_nil hown _
        · rw [hjob] at hxr
          rwa [← List.inj_on_of_nodup_map hnodup' (hsub.subset hx) hj (hxr.trans hctx.symm)]
  exact ⟨s₂, ids, ⟨first, s₁, hprep, hfirst, hids⟩, by rwa [hquiet.available]⟩

/-- The length of a job's context with its input tokens. -/
def grownLen (s : BuiltinEngine) (j : JobRef) : ℕ :=
  s.mem.getContextLen (s.jobContext j) + (s.job j).numTokens

section
variable {s₂ : BuiltinEngine} {ft : ℕ → ℕ} {batch : List JobRef} {ids : List ℕ}

lemma RunsModel.config (hin : s.RunsModel ft batch s₂ ids) (h : s.mem.MemInv live)
    (hbound : BoundTo s live batch) :
    s₂.attnFunc = s.attnFunc ∧ s₂.numKvCacheBlocks = s.numKvCacheBlocks := by
  obtain ⟨first, s₁, hprep, hfirst, -⟩ := hin
  obtain ⟨-, hext⟩ := prepareJobs_spec _ h (fun j hj => hbound j (mem_fillsFirst.mp hj)) hprep
  have hquiet := firstSampling_quiet hfirst
  rw [hquiet.attnFunc, hquiet.numKvCacheBlocks, hext.rest]
  exact ⟨rfl, rfl⟩

/-- When the model runs, a job's context has grown by its input tokens. -/
lemma RunsModel.contextLen (hin : s.RunsModel ft batch s₂ ids) (h : s.mem.MemInv live)
    (hroot : s.mem.Rooted live) (hbound : BoundTo s live batch)
    (hnodup : (batch.map fun j => (s.job j).context).Nodup) (hstart : s.Startable batch)
    (hj : j ∈ batch) : s₂.mem.getContextLen (s₂.jobContext j) = s.grownLen j := by
  have hbound' : BoundTo s live (s.fillsFirst batch) := fun x hx => hbound x (mem_fillsFirst.mp hx)
  obtain ⟨hctx, hlive⟩ := hin.contexts hbound j hj
  obtain ⟨bl, -, hblocks, -, hlen, -⟩ := hin.tables h hbound hnodup j hj
  have hnum := hin.numTokens hbound.context j
  obtain ⟨first, s₁, hprep, hfirst, -⟩ := hin
  obtain ⟨-, hext⟩ := prepareJobs_spec _ h hbound' hprep
  obtain ⟨-, hother, -⟩ := prepareJobs_objs _ h hbound'
    (((fillsFirst_perm s batch).map fun x => (s.job x).context).nodup_iff.mpr hnodup) hprep
  have hquiet := firstSampling_quiet hfirst
  have hself : s.jobContext j = s₂.jobContext j := jobContext_eq hctx
  rw [grownLen, hself]
  refine hroot.getContextLen_grown hlive
    (fun a => (hquiet.obj a).2.1.trans (hext.links a).2.1) (fun a ha hne => ?_) ?_
  · rw [← hself] at ha hne
    rw [KvMemory.getThisContextLen, (hquiet.obj a).2.2.2.2.1, hother a fun x hx hxa => ?_]
    · rfl
    · exact hstart.parents j hj a ha hne x (mem_fillsFirst.mp hx) (jobContext_eq hxa)
  · rw [KvMemory.getThisContextLen, hblocks, List.length_append, hlen, hnum]
    rfl

/-- The movers of the reference path take a batch when the grown contexts fit into the cache. -/
lemma RunsModel.moves (hin : s.RunsModel ft batch s₂ ids) (h : s.mem.MemInv live)
    (hroot : s.mem.Rooted live) (hbound : BoundTo s live batch)
    (hnodup : (batch.map fun j => (s.job j).context).Nodup) (hstart : s.Startable batch)
    (htokens : ∀ j ∈ batch, (s.job j).numTokens ≠ 0)
    (hrows : (batch.map s.grownLen).sum ≤ s.numKvCacheBlocks)
    (hattn : s₂.attnFunc = .xFormersWithBuffer) :
    s₂.Moves (s₂.initIterationState (s₂.fillsFirst batch)) ids := by
  have hall := hin.allotted h hroot hbound hnodup
  have hids := length_inputIds _ (hin.inputs hbound.context)
  have hnum := hin.numTokens hbound.context
  have hperm := fillsFirst_perm s₂ batch
  have hgrown : ∀ j ∈ s₂.fillsFirst batch,
      s₂.mem.getContextLen (s₂.jobContext j) = s.grownLen j := fun j hj =>
    hin.contextLen h hroot hbound hnodup hstart (mem_fillsFirst.mp hj)
  have hmapping : ((s₂.fillsFirst batch).flatMap s₂.blockRow).length =
      s₂.tokenCount (s₂.fillsFirst batch) := by
    rw [List.length_flatMap, tokenCount]
    refine congrArg List.sum (List.map_congr_left fun j hj => ?_)
    have hn := htokens j (mem_fillsFirst.mp hj)
    rw [← hnum j] at hn
    rw [hall.blockRow hj hn, hall.lengthBlocks j hj]
  have htokens' : s₂.tokenCount (s₂.fillsFirst batch) ≤ (batch.map s.grownLen).sum := by
    rw [← (hperm.map s.grownLen).sum_eq, tokenCount]
    refine List.sum_le_sum fun j _ => ?_
    rw [hnum j]
    exact Nat.le_add_left _ _
  have hfetched : ((s₂.fillsFirst batch).flatMap fun j =>
      s₂.mem.getContextBlockIds (s₂.jobContext j)).length = (batch.map s.grownLen).sum := by
    rw [List.length_flatMap, ← (hperm.map s.grownLen).sum_eq]
    exact congrArg List.sum (List.map_congr_left fun j hj =>
      (KvMemory.getContextLen_eq _ _).symm.trans (hgrown j hj))
  have hlens : ((s₂.fillsFirst batch).map fun j =>
      s₂.mem.getContextLen (s₂.jobContext j)).sum = (batch.map s.grownLen).sum := by
    rw [← (hperm.map s.grownLen).sum_eq]
    exact congrArg List.sum (List.map_congr_left hgrown)
  have hblocks := (hin.config h hbound).2
  constructor <;> rw [initIterationState, hattn] <;> dsimp only
  · rw [hids, hmapping, tokenCount]
  · rw [hmapping, hblocks]
    exact htokens'.trans hrows
  · rw [hfetched, hlens]
  · rw [hfetched, hblocks]
    exact hrows

/-- A batch that can be prepared and has no Fill without tokens runs. -/
lemma runIter_ok (h : s.mem.MemInv live) (hroot : s.mem.Rooted live)
    (hbound : BoundTo s live batch) (hnodup : (batch.map fun j => (s.job j).context).Nodup)
    (hne : batch ≠ []) (hstart : s.Startable batch)
    (htokens : ∀ j ∈ batch, (s.job j).numTokens ≠ 0)
    (hroom : (batch.map s.openedBlocks).sum ≤ s.mem.available)
    (hrows : s.attnFunc = .xFormersWithBuffer → (batch.map s.grownLen).sum ≤ s.numKvCacheBlocks)
    (o : ModelOutput) :
    ∃ s', s.runIter o batch = .ok s' ∧
      s.mem.available ≤ s'.mem.available + (batch.map s.openedBlocks).sum := by
  obtain ⟨s₂, ids, hin, hle⟩ := runsModel_ok h hbound hnodup hstart hroom o.firstSamplingTokens
  obtain ⟨s₃, hforward⟩ : ∃ s₃, s₂.forward (s₂.initIterationState (s.fillsFirst batch)) ids =
      .ok s₃ := by
    rw [hin.fillsFirst hbound.context]
    refine ⟨_, forward_ok_iff.mpr ⟨fun hattn => ?_, rfl⟩⟩
    exact hin.moves h hroot hbound hnodup hstart htokens
      (hrows ((hin.config h hbound).1.symm.trans hattn)) hattn
  have hrecord := hin.records hbound.context
  obtain ⟨first, s₁, hprep, hfirst, hids⟩ := hin
  have hcheck : s₂.checkJobs (s.fillsFirst batch) = .ok () := checkJobs_ok_iff.mpr fun _ hnil =>
    hne (List.perm_nil.mp (hnil ▸ (fillsFirst_perm s batch).symm))
  obtain ⟨hmem, hjob⟩ := forward_eq hforward
  obtain ⟨s', hupdate⟩ : ∃ s', s₃.updateJobs o
      ((s.fillsFirst batch).filter fun j => !(s₃.job j).isGenerate).length 0
        (s.fillsFirst batch) = .ok s' :=
    updateJobs_ok _ fun j hj => by
      rw [hjob, (hrecord j).1]
      exact hbound.context j (mem_fillsFirst.mp hj)
  refine ⟨s', ?_, ?_⟩
  · rw [runIter, runIterForward]
    dsimp only
    rw [hprep]
    dsimp only
    rw [hfirst]
    dsimp only
    rw [hcheck]
    dsimp only
    rw [hids]
    dsimp only
    rw [hforward]
    exact hupdate
  · rwa [(updateJobs_quiet hupdate).available, hmem]

end

end BuiltinEngine

end ParrotServe
