import ParrotServe.Model.BuiltinEngine
import ParrotServe.Properties.BlockMemory

/-!
# The context forest of the built-in engine

What every other result about the engine rests on: the registered contexts own disjoint blocks
(`KvMemory.MemInv`), a parent is registered, older than its children and knows their ids, and a
job's context is the one registered under the job's context id.  `TreeInv` is that invariant.

It is preserved by every request and every iteration as long as `free_context` is only used on a
context that has no registered child and no waiting or running job (`FreeGuard`).  The rest of
this file says what each operation does to the forest: `bindJobContext_cases` lists the outcomes
of binding a job, `Quiet` is what an iteration does besides allocating, and `prepareJobs_spec`
counts the positions an iteration allocates.
-/

namespace ParrotServe
namespace BuiltinEngine

variable {s s' : BuiltinEngine}

/-- The contexts in `EngineContextManager.map`. -/
def registered (s : BuiltinEngine) : Set CtxRef := {r | ∃ id, s.map id = some r}

/-- The invariant of the context forest. -/
structure TreeInv (blockSize : ℕ) (s : BuiltinEngine) : Prop where
  mem : s.mem.MemInv s.registered
  blockSize_eq : s.mem.blockSize = blockSize
  key : ∀ id r, s.map id = some r → (s.mem.obj r).contextId = id
  parent : ∀ r ∈ s.registered, ∀ p, (s.mem.obj r).parentContext = some p →
    p < r ∧ p ∈ s.registered
  listed : ∀ r ∈ s.registered, ∀ p, (s.mem.obj r).parentContext = some p →
    (s.mem.obj r).contextId ∈ (s.mem.obj p).subContextIds
  jobs : ∀ j ∈ s.scheduler.jobs, j < s.nextJob ∧
    ∀ r, (s.job j).context = some r → s.map (s.job j).contextId = some r

variable {bs : ℕ}

lemma TreeInv.key_eq (h : TreeInv bs s) {r : CtxRef} (hr : r ∈ s.registered) :
    s.map (s.mem.obj r).contextId = some r := by
  obtain ⟨id, hid⟩ := hr
  rwa [h.key id r hid]

lemma TreeInv.rooted (h : TreeInv bs s) : s.mem.Rooted s.registered := h.parent

/-- Registered contexts are told apart by their ids. -/
lemma TreeInv.eq_of_contextId (h : TreeInv bs s) {r r' : CtxRef} (hr : r ∈ s.registered)
    (hr' : r' ∈ s.registered) (he : (s.mem.obj r).contextId = (s.mem.obj r').contextId) :
    r = r' := by
  have h1 := h.key_eq hr
  rw [he, h.key_eq hr'] at h1
  exact (Option.some.inj h1).symm

/-! ## What the steps of an iteration have in common -/

/-- A relation between engine states that the tokens and hidden states of an iteration keep, as long
as they are those of the jobs in `on`. -/
structure KeptByUpdates (on : JobRef → Prop) (R : BuiltinEngine → BuiltinEngine → Prop) :
    Prop where
  refl : ∀ s, R s s
  trans : ∀ {s s' s''}, R s s' → R s' s'' → R s s''
  putToken : ∀ {s s' j t}, on j → s.putToken j t = .ok s' → R s s'
  fill : ∀ {s : BuiltinEngine} {j r} (h : HiddenState), on j → (s.job j).context = some r →
    R s ((s.setMem (s.mem.set r { s.mem.obj r with lastHiddenState := some h })).setJob j
      { s.job j with finishEvent := true })
  finish : ∀ {s : BuiltinEngine} {j}, on j → R s (s.setJob j { s.job j with finishEvent := true })

section KeptByUpdates

variable {on : JobRef → Prop} {R : BuiltinEngine → BuiltinEngine → Prop}

lemma KeptByUpdates.firstSampling (hR : KeptByUpdates on R) {tokens : ℕ → ℕ} (js : List JobRef) :
    ∀ {s : BuiltinEngine} {i : ℕ}, (∀ j ∈ js, on j) → s.firstSampling tokens i js = .ok s' →
      R s s' := by
  induction js with
  | nil =>
      intro s i _ h
      obtain rfl := Except.ok.inj h
      exact hR.refl _
  | cons j js ih =>
      intro s i hon h
      rw [BuiltinEngine.firstSampling] at h
      split at h
      · cases h
      · rename_i hput
        exact hR.trans (hR.putToken (hon j List.mem_cons_self) hput)
          (ih (fun x hx => hon x (List.mem_cons_of_mem _ hx)) h)

lemma KeptByUpdates.updateJob (hR : KeptByUpdates on R) {o : ModelOutput} {n i : ℕ} {j : JobRef}
    (hon : on j) (h : s.updateJob o n i j = .ok s') : R s s' := by
  rw [BuiltinEngine.updateJob] at h
  split at h
  · cases h
  · rename_i r hctx
    split at h
    · obtain rfl := Except.ok.inj h
      exact hR.fill _ hon hctx
    · split at h
      · cases h
      · rename_i hput
        split at h
        · cases h
        · obtain rfl := Except.ok.inj h
          exact hR.putToken hon hput
        · obtain rfl := Except.ok.inj h
          exact hR.trans (hR.putToken hon hput) (hR.finish hon)

lemma KeptByUpdates.updateJobs (hR : KeptByUpdates on R) {o : ModelOutput} {n : ℕ}
    (js : List JobRef) : ∀ {s : BuiltinEngine} {i : ℕ}, (∀ j ∈ js, on j) →
      s.updateJobs o n i js = .ok s' → R s s' := by
  induction js with
  | nil =>
      intro s i _ h
      obtain rfl := Except.ok.inj h
      exact hR.refl _
  | cons j js ih =>
      intro s i hon h
      rw [BuiltinEngine.updateJobs] at h
      split at h
      · cases h
      · rename_i hup
        exact hR.trans (hR.updateJob (hon j List.mem_cons_self) hup)
          (ih (fun x hx => hon x (List.mem_cons_of_mem _ hx)) h)

end KeptByUpdates

/-! ## Steps that allocate nothing -/

/-- Only tokens, hidden states, the progress of jobs and cache contents differ. -/
structure Quiet (s s' : BuiltinEngine) : Prop where
  map : s'.map = s.map
  scheduler : s'.scheduler = s.scheduler
  nextJob : s'.nextJob = s.nextJob
  attnFunc : s'.attnFunc = s.attnFunc
  numKvCacheBlocks : s'.numKvCacheBlocks = s.numKvCacheBlocks
  blockSize : s'.mem.blockSize = s.mem.blockSize
  pool : s'.mem.kvCacheManager = s.mem.kvCacheManager
  next : s'.mem.next = s.mem.next
  obj : ∀ r, (s'.mem.obj r).contextId = (s.mem.obj r).contextId ∧
    (s'.mem.obj r).parentContext = (s.mem.obj r).parentContext ∧
    (s'.mem.obj r).subContextIds = (s.mem.obj r).subContextIds ∧
    (s'.mem.obj r).padded = (s.mem.obj r).padded ∧
    (s'.mem.obj r).tokenKvBlockIds = (s.mem.obj r).tokenKvBlockIds ∧
    (s'.mem.obj r).tokenKvSlotIds = (s.mem.obj r).tokenKvSlotIds
  job : ∀ j, (s'.job j).contextId = (s.job j).contextId ∧
    (s'.job j).context = (s.job j).context ∧ (s'.job j).kind = (s.job j).kind

lemma Quiet.refl (s : BuiltinEngine) : Quiet s s := by
  constructor <;> simp

lemma Quiet.trans {s'' : BuiltinEngine} (h : Quiet s s') (h' : Quiet s' s'') : Quiet s s'' where
  map := h'.map.trans h.map
  scheduler := h'.scheduler.trans h.scheduler
  nextJob := h'.nextJob.trans h.nextJob
  attnFunc := h'.attnFunc.trans h.attnFunc
  numKvCacheBlocks := h'.numKvCacheBlocks.trans h.numKvCacheBlocks
  blockSize := h'.blockSize.trans h.blockSize
  pool := h'.pool.trans h.pool
  next := h'.next.trans h.next
  obj r := by
    obtain ⟨h1, h2, h3, h4, h5, h6⟩ := h.obj r
    obtain ⟨h1', h2', h3', h4', h5', h6'⟩ := h'.obj r
    exact ⟨h1'.trans h1, h2'.trans h2, h3'.trans h3, h4'.trans h4, h5'.trans h5, h6'.trans h6⟩
  job j := by
    obtain ⟨h1, h2, h3⟩ := h.job j
    obtain ⟨h1', h2', h3'⟩ := h'.job j
    exact ⟨h1'.trans h1, h2'.trans h2, h3'.trans h3⟩

lemma Quiet.registered (h : Quiet s s') : s'.registered = s.registered := by
  simp only [BuiltinEngine.registered, h.map]

lemma Quiet.memInv (h : Quiet s s') {live : Set CtxRef} (hm : s.mem.MemInv live) :
    s'.mem.MemInv live :=
  hm.congr h.blockSize h.pool h.next.ge fun r _ => ⟨(h.obj r).2.2.2.2.1, (h.obj r).2.2.2.2.2⟩

/-- The forest does not see a quiet step. -/
lemma TreeInv.quiet (h : TreeInv bs s) (hq : Quiet s s') : TreeInv bs s' where
  mem := hq.registered ▸ hq.memInv h.mem
  blockSize_eq := hq.blockSize.trans h.blockSize_eq
  key id r hid := (hq.obj r).1.trans (h.key id r (hq.map ▸ hid))
  parent r hr p hp := by
    rw [hq.registered] at hr ⊢
    exact h.parent r hr p ((hq.obj r).2.1 ▸ hp)
  listed r hr p hp := by
    rw [hq.registered] at hr
    rw [(hq.obj r).1, (hq.obj p).2.2.1]
    exact h.listed r hr p ((hq.obj r).2.1 ▸ hp)
  jobs j hj := by
    rw [hq.scheduler] at hj
    obtain ⟨hlt, hctx⟩ := h.jobs j hj
    refine ⟨hq.nextJob ▸ hlt, fun r hr => ?_⟩
    rw [hq.map, (hq.job j).1]
    exact hctx r ((hq.job j).2.1 ▸ hr)

/-- Overwriting tokens and hidden state of an object, and the progress of a job. -/
lemma quiet_set {r : CtxRef} {c : BlockContext} {j : JobRef} {record : PrimitiveJob}
    (hc : c = { s.mem.obj r with tokenIds := c.tokenIds, lastHiddenState := c.lastHiddenState })
    (hj : record.contextId = (s.job j).contextId ∧ record.context = (s.job j).context ∧
      record.kind = (s.job j).kind) :
    Quiet s ((s.setMem (s.mem.set r c)).setJob j record) := by
  refine ⟨rfl, rfl, rfl, rfl, rfl, rfl, rfl, rfl, fun r' => ?_, fun j' => ?_⟩
  · by_cases he : r' = r
    · subst he
      have hobj : ((s.setMem (s.mem.set r' c)).setJob j record).mem.obj r' = c :=
        s.mem.set_obj_self r' c
      rw [hobj, hc]
      exact ⟨rfl, rfl, rfl, rfl, rfl, rfl⟩
    · have hobj : ((s.setMem (s.mem.set r c)).setJob j record).mem.obj r' = s.mem.obj r' :=
        s.mem.set_obj_of_ne he c
      rw [hobj]
      exact ⟨rfl, rfl, rfl, rfl, rfl, rfl⟩
  · by_cases he : j' = j
    · subst he
      have hrec : ((s.setMem (s.mem.set r c)).setJob j' record).job j' = record := by
        simp [setJob]
      rw [hrec]
      exact hj
    · have hrec : ((s.setMem (s.mem.set r c)).setJob j record).job j' = s.job j' := by
        simp [setJob, setMem, he]
      rw [hrec]
      exact ⟨rfl, rfl, rfl⟩

lemma putToken_quiet {j : JobRef} {t : ℕ} (h : s.putToken j t = .ok s') : Quiet s s' := by
  rw [putToken] at h
  dsimp only at h
  split at h
  · simp at h
  · obtain rfl := Except.ok.inj h
    exact quiet_set rfl ⟨rfl, rfl, rfl⟩

lemma checkMove_ok_iff {srcRows destRows srcIndices destIndices : ℕ} :
    checkMove srcRows destRows srcIndices destIndices = .ok () ↔
      srcIndices = destIndices ∧ srcIndices ≤ srcRows ∧ destIndices ≤ destRows := by
  rw [checkMove]
  split_ifs with h₁ h₂ h₃ <;> simp <;> omega

/-- What the movers of the reference path ask of an iteration. -/
structure Moves (s : BuiltinEngine) (st : IterationState) (ids : List ℕ) : Prop where
  length : ids.length = st.slotMapping.length
  cache : st.slotMapping.length ≤ s.numKvCacheBlocks
  buffer : st.fillSlots.length = st.contextLens.sum
  rows : st.fillSlots.length ≤ s.numKvCacheBlocks

lemma checkBuffer_ok_iff {st : IterationState} {ids : List ℕ} :
    s.checkBuffer st ids = .ok () ↔ s.Moves st ids := by
  rw [checkBuffer]
  cases hmove : checkMove ids.length s.numKvCacheBlocks ids.length st.slotMapping.length with
  | error e =>
      refine ⟨fun h => (by cases h), fun h => ?_⟩
      have hok := checkMove_ok_iff.mpr ⟨h.length, le_rfl, h.cache⟩
      rw [hmove] at hok
      cases hok
  | ok _ =>
      obtain ⟨hlength, -, hcache⟩ := checkMove_ok_iff.mp hmove
      dsimp only
      rw [checkMove_ok_iff]
      exact ⟨fun ⟨hbuffer, hrows, _⟩ => ⟨hlength, hcache, hbuffer, hrows⟩,
        fun h => ⟨h.buffer, h.rows, le_rfl⟩⟩

/-- The forward pass stores the input tokens, unless a mover of the reference path refuses. -/
lemma forward_ok_iff {st : IterationState} {ids : List ℕ} :
    s.forward st ids = .ok s' ↔ (s.attnFunc = .xFormersWithBuffer → s.Moves st ids) ∧
      s' = { s with kvCache := writeKv s.kvCache (st.slotMapping.zip ids) } := by
  rw [forward]
  split_ifs with hbuf
  · rw [← checkBuffer_ok_iff]
    cases hcheck : s.checkBuffer st ids with
    | error e => simp [hbuf]
    | ok _ => simp [eq_comm]
  · simp [hbuf, eq_comm]

lemma forward_quiet {st : IterationState} {ids : List ℕ} (h : s.forward st ids = .ok s') :
    Quiet s s' := by
  obtain ⟨-, rfl⟩ := forward_ok_iff.mp h
  constructor <;> simp

/-- The forward pass changes the cache only. -/
lemma forward_eq {st : IterationState} {ids : List ℕ} (h : s.forward st ids = .ok s') :
    s'.mem = s.mem ∧ s'.job = s.job := by
  obtain ⟨-, rfl⟩ := forward_ok_iff.mp h
  exact ⟨rfl, rfl⟩

lemma setJob_finish_quiet (s : BuiltinEngine) (j : JobRef) :
    Quiet s (s.setJob j { s.job j with finishEvent := true }) := by
  refine ⟨rfl, rfl, rfl, rfl, rfl, rfl, rfl, rfl, fun r => ⟨rfl, rfl, rfl, rfl, rfl, rfl⟩,
    fun j' => ?_⟩
  by_cases he : j' = j
  · subst he
    simp [setJob]
  · simp [setJob, he]

lemma quiet_kept : KeptByUpdates (fun _ => True) Quiet where
  refl := Quiet.refl
  trans := Quiet.trans
  putToken _ h := putToken_quiet h
  fill _ _ _ := quiet_set rfl ⟨rfl, rfl, rfl⟩
  finish _ := setJob_finish_quiet _ _

lemma firstSampling_quiet {tokens : ℕ → ℕ} {i : ℕ} {js : List JobRef}
    (h : s.firstSampling tokens i js = .ok s') : Quiet s s' :=
  quiet_kept.firstSampling js (fun _ _ => trivial) h

lemma updateJob_quiet {o : ModelOutput} {n i : ℕ} {j : JobRef}
    (h : s.updateJob o n i j = .ok s') : Quiet s s' :=
  quiet_kept.updateJob trivial h

lemma updateJobs_quiet {o : ModelOutput} {n i : ℕ} {js : List JobRef}
    (h : s.updateJobs o n i js = .ok s') : Quiet s s' :=
  quiet_kept.updateJobs js (fun _ _ => trivial) h

/-! ## The allocations of an iteration -/

/-- The tokens a Fill appends to its context. -/
def filledTokens (record : PrimitiveJob) : List ℕ :=
  match record.kind with
  | .fill (some tokenIds) => tokenIds
  | _ => []

lemma kind_of_generate {record : PrimitiveJob} (h : record.isGenerate = true) :
    ∃ cfg, record.kind = .generate cfg := by
  rw [PrimitiveJob.isGenerate] at h
  split at h
  · cases h
  · exact ⟨_, ‹_›⟩

lemma kind_of_fill {record : PrimitiveJob} (h : record.isGenerate = false) :
    ∃ tokenIds, record.kind = .fill tokenIds := by
  rw [PrimitiveJob.isGenerate] at h
  split at h
  · exact ⟨_, ‹_›⟩
  · cases h

lemma numTokens_generate {record : PrimitiveJob} (h : record.isGenerate = true) :
    record.numTokens = 1 := by
  obtain ⟨cfg, hkind⟩ := kind_of_generate h
  rw [PrimitiveJob.numTokens, hkind]

lemma filledTokens_generate {record : PrimitiveJob} (h : record.isGenerate = true) :
    filledTokens record = [] := by
  obtain ⟨cfg, hkind⟩ := kind_of_generate h
  rw [filledTokens, hkind]

/-- The links and the padding flag of an object are kept. -/
def SameLinks (c c' : BlockContext) : Prop :=
  c'.contextId = c.contextId ∧ c'.parentContext = c.parentContext ∧
    c'.subContextIds = c.subContextIds ∧ c'.padded = c.padded

/-- The effect of `allocateJob` on the context object of a job. -/
structure ObjAllocated (record : PrimitiveJob) (c c' : BlockContext) (sample : Bool) : Prop where
  links : SameLinks c c'
  tables : ∃ bl sl, bl.length = record.numTokens ∧
    c'.tokenKvBlockIds = c.tokenKvBlockIds ++ bl ∧ c'.tokenKvSlotIds = c.tokenKvSlotIds ++ sl
  tokens : c'.tokenIds = c.tokenIds ++ filledTokens record
  hidden : c'.lastHiddenState = if sample then none else c.lastHiddenState
  sample_generate : sample = true → record.isGenerate = true
  sample_iff : record.isGenerate = true → c.tokenIds ≠ [] →
    (sample = true ↔ c.lastHiddenState ≠ none)
  kind : record.kind ≠ .fill none

/-- The effect of `allocateJob`. -/
structure Allocated (s : BuiltinEngine) (j : JobRef) (r : CtxRef) (sample : Bool)
    (s' : BuiltinEngine) : Prop where
  rest : s' = s.setMem s'.mem
  blockSize : s'.mem.blockSize = s.mem.blockSize
  next : s'.mem.next = s.mem.next
  other : ∀ r' ≠ r, s'.mem.obj r' = s.mem.obj r'
  self : ObjAllocated (s.job j) (s.mem.obj r) (s'.mem.obj r) sample

lemma getLastHiddenState_of_ne_nil {m : KvMemory} {r : CtxRef} (h : (m.obj r).tokenIds ≠ []) :
    m.getLastHiddenState r = .ok (m.obj r).lastHiddenState := by
  rw [KvMemory.getLastHiddenState, KvMemory.getLastHiddenStateAux, if_neg h]

/-- A Fill: its tokens go into its context, with a position for each. -/
lemma allocateJob_fill {live : Set CtxRef} {j : JobRef} {r : CtxRef} {tokenIds : List ℕ}
    {m : KvMemory} (h : s.mem.MemInv live) (hr : r ∈ live)
    (hkind : (s.job j).kind = .fill (some tokenIds))
    (ha : (s.mem.set r { s.mem.obj r with
      tokenIds := (s.mem.obj r).tokenIds ++ tokenIds }).allocate r tokenIds.length = (.ok (), m)) :
    m.MemInv live ∧ Allocated s j r false (s.setMem m) := by
  set c : BlockContext := { s.mem.obj r with tokenIds := (s.mem.obj r).tokenIds ++ tokenIds }
  have hset : (s.mem.set r c).MemInv live := h.set_of_tables rfl rfl
  obtain ⟨hinv, bl, sl, hgrow, -, hlen⟩ := KvMemory.allocate_spec tokenIds.length hset hr
  obtain ⟨hsub, hpad⟩ := KvMemory.allocate_flags tokenIds.length (s.mem.set r c) r r
  rw [ha] at hinv hgrow hlen hsub hpad
  rw [KvMemory.set_obj_self] at hsub hpad
  have hself := hgrow.self
  rw [KvMemory.set_obj_self] at hself
  refine ⟨hinv, ⟨rfl, hgrow.blockSize, hgrow.next, fun r' hr' => ?_,
    ⟨hself.contextId, hself.parentContext, hsub, hpad⟩,
    ⟨bl, sl, ?_, hself.blocks, hself.slots⟩, ?_, hself.lastHiddenState, ?_, ?_,
    by simp [hkind]⟩⟩
  · exact (hgrow.other r' hr').trans (s.mem.set_obj_of_ne hr' c)
  · simp only [PrimitiveJob.numTokens, hkind]
    exact hlen rfl
  · simp only [filledTokens, hkind]
    exact hself.tokenIds
  · exact fun hsample => absurd hsample Bool.false_ne_true
  · intro hgen
    simp [PrimitiveJob.isGenerate, hkind] at hgen

/-- A Generate: one position, and its hidden state is taken for the first sampling. -/
lemma allocateJob_generate {live : Set CtxRef} {j : JobRef} {r : CtxRef} {cfg : SamplingConfig}
    {m : KvMemory} {state : Option HiddenState} (h : s.mem.MemInv live) (hr : r ∈ live)
    (hkind : (s.job j).kind = .generate cfg) (ha : s.mem.allocate r 1 = (.ok (), m))
    (hstate : m.getLastHiddenState r = .ok state) :
    (state = none → m.MemInv live ∧ Allocated s j r false (s.setMem m)) ∧
      (state ≠ none → (m.set r { m.obj r with lastHiddenState := none }).MemInv live ∧
        Allocated s j r true (s.setMem (m.set r { m.obj r with lastHiddenState := none }))) := by
  obtain ⟨hinv, bl, sl, hgrow, -, hlen⟩ := KvMemory.allocate_spec 1 h hr
  obtain ⟨hsub, hpad⟩ := KvMemory.allocate_flags 1 s.mem r r
  rw [ha] at hinv hgrow hlen hsub hpad
  have hself := hgrow.self
  have hgen : (s.job j).isGenerate = true := by
    simp only [PrimitiveJob.isGenerate, hkind]
  have hnum : bl.length = (s.job j).numTokens := by
    rw [numTokens_generate hgen]
    exact hlen rfl
  have hfilled := filledTokens_generate hgen
  have hlast : (s.mem.obj r).tokenIds ≠ [] → state = (s.mem.obj r).lastHiddenState := by
    intro hne
    rw [getLastHiddenState_of_ne_nil (by rw [hself.tokenIds]; exact hne),
      hself.lastHiddenState] at hstate
    exact (Except.ok.inj hstate).symm
  refine ⟨fun hnone => ?_, fun hsome => ?_⟩
  · refine ⟨hinv, ⟨rfl, hgrow.blockSize, hgrow.next, hgrow.other,
      ⟨hself.contextId, hself.parentContext, hsub, hpad⟩,
      ⟨bl, sl, hnum, hself.blocks, hself.slots⟩, ?_, hself.lastHiddenState,
      fun hsample => absurd hsample Bool.false_ne_true, fun _ hne => ?_, by simp [hkind]⟩⟩
    · rw [hfilled, List.append_nil]
      exact hself.tokenIds
    · rw [← hlast hne, hnone]
      simp
  · set c : BlockContext := { m.obj r with lastHiddenState := none }
    have hobj : (m.set r c).obj r = c := m.set_obj_self r c
    refine ⟨hinv.set_of_tables rfl rfl, ⟨rfl, hgrow.blockSize, hgrow.next,
      fun r' hr' => (m.set_obj_of_ne hr' c).trans (hgrow.other r' hr'), ?_,
      ⟨bl, sl, hnum, ?_, ?_⟩, ?_, ?_, fun _ => hgen, fun _ hne => ?_, by simp [hkind]⟩⟩
    · exact hobj.symm ▸ ⟨hself.contextId, hself.parentContext, hsub, hpad⟩
    · exact (congrArg _ hobj).trans hself.blocks
    · exact (congrArg _ hobj).trans hself.slots
    · rw [hfilled, List.append_nil]
      exact (congrArg _ hobj).trans hself.tokenIds
    · exact congrArg _ hobj
    · rw [← hlast hne]
      exact iff_of_true rfl hsome

lemma allocateJob_spec {live : Set CtxRef} {j : JobRef} {r : CtxRef} {b : Bool}
    (h : s.mem.MemInv live) (hr : r ∈ live) (hok : s.allocateJob j r = .ok (b, s')) :
    s'.mem.MemInv live ∧ Allocated s j r b s' := by
  rw [allocateJob] at hok
  split at hok
  · cases hok
  · rename_i tokenIds hkind
    dsimp only at hok
    split at hok
    · cases hok
    · rename_i m ha
      obtain ⟨rfl, rfl⟩ := Prod.mk.inj (Except.ok.inj hok)
      exact allocateJob_fill h hr hkind ha
  · rename_i cfg hkind
    split at hok
    · cases hok
    · rename_i m ha
      split at hok
      · cases hok
      · rename_i hnone
        obtain ⟨rfl, rfl⟩ := Prod.mk.inj (Except.ok.inj hok)
        exact (allocateJob_generate h hr hkind ha hnone).1 rfl
      · rename_i hs hsome
        obtain ⟨rfl, rfl⟩ := Prod.mk.inj (Except.ok.inj hok)
        exact (allocateJob_generate h hr hkind ha hsome).2 (Option.some_ne_none hs)

/-- The positions a batch adds to a context. -/
def added (s : BuiltinEngine) (js : List JobRef) (r : CtxRef) : ℕ :=
  ((js.filter fun j => (s.job j).context = some r).map fun j => (s.job j).numTokens).sum

/-- The effect of the first loop of `run_iter` on the forest. -/
structure Extended (s : BuiltinEngine) (js : List JobRef) (s' : BuiltinEngine) : Prop where
  rest : s' = s.setMem s'.mem
  blockSize : s'.mem.blockSize = s.mem.blockSize
  next : s'.mem.next = s.mem.next
  links : ∀ r, SameLinks (s.mem.obj r) (s'.mem.obj r)
  length : ∀ r, (s'.mem.obj r).tokenKvBlockIds.length =
    (s.mem.obj r).tokenKvBlockIds.length + s.added js r

/-- Every job of a batch has a live context. -/
def BoundTo (s : BuiltinEngine) (live : Set CtxRef) (js : List JobRef) : Prop :=
  ∀ j ∈ js, ∃ r ∈ live, (s.job j).context = some r

lemma prepareJob_eq {j : JobRef} {r : CtxRef} (h : (s.job j).context = some r) :
    s.prepareJob j = s.allocateJob j r := by
  rw [prepareJob, h]

lemma prepareJobs_spec {live : Set CtxRef} (js : List JobRef) :
    ∀ {s : BuiltinEngine} {first : List JobRef}, s.mem.MemInv live → BoundTo s live js →
      s.prepareJobs js = .ok (first, s') → s'.mem.MemInv live ∧ Extended s js s' := by
  induction js with
  | nil =>
      intro s first h _ hok
      obtain ⟨-, rfl⟩ := Prod.mk.inj (Except.ok.inj hok)
      exact ⟨h, ⟨rfl, rfl, rfl, fun _ => ⟨rfl, rfl, rfl, rfl⟩, fun _ => by simp [added]⟩⟩
  | cons j js ih =>
      intro s first h hbound hok
      obtain ⟨r, hr, hctx⟩ := hbound j List.mem_cons_self
      rw [prepareJobs, prepareJob_eq hctx] at hok
      split at hok
      · simp at hok
      · rename_i sample s₁ hj
        split at hok
        · simp at hok
        · rename_i first' s₂ hjs
          obtain ⟨-, rfl⟩ := Prod.mk.inj (Except.ok.inj hok)
          obtain ⟨hinv, hal⟩ := allocateJob_spec h hr hj
          have hjob : s₁.job = s.job := by rw [hal.rest]; rfl
          have hbound₁ : BoundTo s₁ live js := fun x hx => by
            rw [hjob]
            exact hbound x (List.mem_cons_of_mem _ hx)
          obtain ⟨hinv', hext⟩ := ih hinv hbound₁ hjs
          refine ⟨hinv', ⟨?_, hext.blockSize.trans hal.blockSize, hext.next.trans hal.next,
            fun r' => ?_, fun r' => ?_⟩⟩
          · rw [hext.rest, hal.rest]
            rfl
          · by_cases he : r' = r
            · subst he
              obtain ⟨h1, h2, h3, h4⟩ := hal.self.links
              obtain ⟨h1', h2', h3', h4'⟩ := hext.links r'
              exact ⟨h1'.trans h1, h2'.trans h2, h3'.trans h3, h4'.trans h4⟩
            · rw [← hal.other r' he]
              exact hext.links r'
          · have hadd : s₁.added js r' = s.added js r' := by
              simp only [added, hjob]
            rw [hext.length r', hadd]
            by_cases he : r' = r
            · subst he
              obtain ⟨bl, sl, hlen, hb, -⟩ := hal.self.tables
              simp only [added, List.filter_cons, hctx, hb, List.length_append, hlen,
                decide_true, if_true, List.map_cons, List.sum_cons]
              omega
            · have hne : ¬ some r = some r' := fun h => he (Option.some.inj h).symm
              rw [hal.other r' he]
              simp only [added, List.filter_cons, hctx, hne, decide_false]
              simp

/-- Longer tables on the same forest. -/
lemma TreeInv.extended (h : TreeInv bs s) {js : List JobRef}
    (hm : s'.mem.MemInv s.registered) (he : Extended s js s') : TreeInv bs s' := by
  have hmap : s'.map = s.map := by rw [he.rest]; rfl
  have hsched : s'.scheduler = s.scheduler := by rw [he.rest]; rfl
  have hjob : s'.job = s.job := by rw [he.rest]; rfl
  have hnext : s'.nextJob = s.nextJob := by rw [he.rest]; rfl
  have hreg : s'.registered = s.registered := by simp only [registered, hmap]
  refine ⟨hreg ▸ hm, he.blockSize.trans h.blockSize_eq, fun id r hid => ?_, fun r hr p hp => ?_,
    fun r hr p hp => ?_, fun j hj => ?_⟩
  · exact (he.links r).1.trans (h.key id r (hmap ▸ hid))
  · rw [hreg] at hr ⊢
    exact h.parent r hr p ((he.links r).2.1 ▸ hp)
  · rw [hreg] at hr
    rw [(he.links r).1, (he.links p).2.2.1]
    exact h.listed r hr p ((he.links r).2.1 ▸ hp)
  · rw [hsched] at hj
    rw [hjob, hnext, hmap]
    exact h.jobs j hj

/-! ## Binding a job -/

/-- The state after a new context `c` on the memory `m` was registered for a job. -/
def withFresh (s : BuiltinEngine) (j : JobRef) (m : KvMemory) (c : BlockContext) :
    BuiltinEngine :=
  { (s.setMem (m.push c)).setJob j { s.job j with context := some m.next } with
    map := Function.update s.map (s.job j).contextId (some m.next) }

/-- What `bind_job_context` can lead to. -/
inductive BindOutcome (s : BuiltinEngine) (j : JobRef) : BuiltinEngine → Prop
  | unknownParent : BindOutcome s j s
  | existing {r : CtxRef} : s.map (s.job j).contextId = some r →
      BindOutcome s j (s.setJob j { s.job j with context := some r })
  | root : s.map (s.job j).contextId = none → (s.job j).parentContextId = none →
      BindOutcome s j (s.withFresh j s.mem { contextId := (s.job j).contextId })
  | failed {q p : ℕ} {m : KvMemory} {e : PyError} : s.map (s.job j).contextId = none →
      (s.job j).parentContextId = some q → s.map q = some p →
      s.mem.adopt p (s.job j).contextId = (.error e, m) → BindOutcome s j (s.setMem m)
  | forked {q p : ℕ} {m : KvMemory} : s.map (s.job j).contextId = none →
      (s.job j).parentContextId = some q → s.map q = some p →
      s.mem.adopt p (s.job j).contextId = (.ok (), m) →
      BindOutcome s j (s.withFresh j m
        { contextId := (s.job j).contextId
          parentContext := some p
          depth := (m.obj p).depth + 1 })

lemma bindJobContext_outcome (s : BuiltinEngine) (j : JobRef) :
    BindOutcome s j (s.bindJobContext j).2 := by
  rw [bindJobContext]
  dsimp only
  split
  · exact .existing ‹_›
  · rename_i hmap
    split
    · rename_i hparent
      exact .root hmap hparent
    · rename_i q hparent
      split
      · exact .unknownParent
      · rename_i p hp
        rw [KvMemory.newContext]
        rcases ha : s.mem.adopt p (s.job j).contextId with ⟨e | ⟨⟩, m⟩
        · exact .failed hmap hparent hp ha
        · exact .forked hmap hparent hp ha

/-- A bound job only differs in its context. -/
lemma setJob_job (s : BuiltinEngine) (j j' : JobRef) (record : PrimitiveJob) :
    (s.setJob j record).job j' = if j' = j then record else s.job j' := by
  simp [setJob, Function.update_apply]

/-- The forest on another memory with the same identities and at least the same links. -/
lemma TreeInv.setMem (h : TreeInv bs s) {m : KvMemory} (hm : m.MemInv s.registered)
    (hbs : m.blockSize = s.mem.blockSize)
    (hobj : ∀ r, (m.obj r).contextId = (s.mem.obj r).contextId ∧
      (m.obj r).parentContext = (s.mem.obj r).parentContext)
    (hsub : ∀ p i, i ∈ (s.mem.obj p).subContextIds → i ∈ (m.obj p).subContextIds) :
    TreeInv bs (s.setMem m) where
  mem := hm
  blockSize_eq := hbs.trans h.blockSize_eq
  key id r hid := (hobj r).1.trans (h.key id r hid)
  parent r hr p hp := h.parent r hr p ((hobj r).2 ▸ hp)
  listed r hr p hp := by
    have hpar : (s.mem.obj r).parentContext = some p := (hobj r).2 ▸ hp
    have hid : ((s.setMem m).mem.obj r).contextId = (s.mem.obj r).contextId := (hobj r).1
    rw [hid]
    exact hsub p _ (h.listed r hr p hpar)
  jobs j hj := h.jobs j hj

/-- The map after a registration. -/
lemma withFresh_map_iff (s : BuiltinEngine) (j : JobRef) (m : KvMemory) (c : BlockContext)
    (id : ℕ) (r : CtxRef) : (s.withFresh j m c).map id = some r ↔
      (id = (s.job j).contextId ∧ r = m.next) ∨
        (id ≠ (s.job j).contextId ∧ s.map id = some r) := by
  simp only [BuiltinEngine.withFresh, Function.update_apply]
  split_ifs with he
  · simp [he, eq_comm]
  · simp [he]

lemma withFresh_registered {j : JobRef} {m : KvMemory} {c : BlockContext}
    (hfree : s.map (s.job j).contextId = none) :
    (s.withFresh j m c).registered = insert m.next s.registered := by
  ext r
  constructor
  · rintro ⟨id, hid⟩
    rcases (s.withFresh_map_iff j m c id r).mp hid with ⟨-, rfl⟩ | ⟨-, hid⟩
    · exact .inl rfl
    · exact .inr ⟨id, hid⟩
  · rintro (rfl | ⟨id, hid⟩)
    · exact ⟨_, (s.withFresh_map_iff j m c _ _).mpr (.inl ⟨rfl, rfl⟩)⟩
    · refine ⟨id, (s.withFresh_map_iff j m c _ _).mpr (.inr ⟨?_, hid⟩)⟩
      rintro rfl
      rw [hfree] at hid
      simp at hid

/-- Registering a new context whose parent, if any, is registered and knows its id. -/
lemma TreeInv.withFresh (h : TreeInv bs s) {j : JobRef} {m : KvMemory} {c : BlockContext}
    (hfree : s.map (s.job j).contextId = none) (hm : m.MemInv s.registered)
    (hbs : m.blockSize = s.mem.blockSize)
    (hobj : ∀ r, (m.obj r).contextId = (s.mem.obj r).contextId ∧
      (m.obj r).parentContext = (s.mem.obj r).parentContext)
    (hsub : ∀ p i, i ∈ (s.mem.obj p).subContextIds → i ∈ (m.obj p).subContextIds)
    (hc : c.contextId = (s.job j).contextId ∧ c.tokenKvBlockIds = [] ∧ c.tokenKvSlotIds = [])
    (hparent : ∀ p, c.parentContext = some p →
      p ∈ s.registered ∧ c.contextId ∈ (m.obj p).subContextIds) :
    TreeInv bs (s.withFresh j m c) := by
  have hlt : ∀ r ∈ s.registered, r < m.next := hm.lt_next
  have hself : (m.push c).obj m.next = c := m.set_obj_self m.next c
  have hother : ∀ r ∈ s.registered, (m.push c).obj r = m.obj r := fun r hr =>
    m.set_obj_of_ne (Nat.ne_of_lt (hlt r hr)) c
  have hmap := s.withFresh_map_iff j m c
  have hreg := withFresh_registered (m := m) (c := c) hfree
  have hmem : (m.push c).MemInv (insert m.next s.registered) := hm.push hc.2.1 hc.2.2
  refine ⟨hreg ▸ hmem, hbs.trans h.blockSize_eq, fun id r hid => ?_, fun r hr p hp => ?_,
    fun r hr p hp => ?_, fun j' hj' => ?_⟩
  · rcases (hmap id r).mp hid with ⟨rfl, rfl⟩ | ⟨-, hid⟩
    · exact (congrArg _ hself).trans hc.1
    · exact (congrArg _ (hother r ⟨id, hid⟩)).trans ((hobj r).1.trans (h.key id r hid))
  · rw [hreg] at hr ⊢
    rcases hr with rfl | hr
    · have hp' : c.parentContext = some p := by rw [← hself]; exact hp
      exact ⟨hlt p (hparent p hp').1, .inr (hparent p hp').1⟩
    · have hp' : (s.mem.obj r).parentContext = some p := by
        rw [← (hobj r).2, ← hother r hr]
        exact hp
      exact ⟨(h.parent r hr p hp').1, .inr (h.parent r hr p hp').2⟩
  · rw [hreg] at hr
    rcases hr with rfl | hr
    · have hp' : c.parentContext = some p := by rw [← hself]; exact hp
      obtain ⟨hpr, hin⟩ := hparent p hp'
      have h1 : ((s.withFresh j m c).mem.obj m.next).contextId = c.contextId :=
        congrArg _ hself
      have h2 : ((s.withFresh j m c).mem.obj p).subContextIds = (m.obj p).subContextIds :=
        congrArg _ (hother p hpr)
      rw [h1, h2]
      exact hin
    · have hp' : (s.mem.obj r).parentContext = some p := by
        rw [← (hobj r).2, ← hother r hr]
        exact hp
      have hpr := (h.parent r hr p hp').2
      have h1 : ((s.withFresh j m c).mem.obj r).contextId = (s.mem.obj r).contextId :=
        (congrArg _ (hother r hr)).trans (hobj r).1
      have h2 : ((s.withFresh j m c).mem.obj p).subContextIds = (m.obj p).subContextIds :=
        congrArg _ (hother p hpr)
      rw [h1, h2]
      exact hsub p _ (h.listed r hr p hp')
  · obtain ⟨hltj, hctx⟩ := h.jobs j' hj'
    have hjob : (s.withFresh j m c).job j' =
        if j' = j then { s.job j with context := some m.next } else s.job j' :=
      setJob_job _ j j' _
    refine ⟨hltj, fun r hr => ?_⟩
    rw [hjob] at hr ⊢
    split_ifs at hr ⊢ with he
    · exact (hmap _ _).mpr (.inl ⟨rfl, (Option.some.inj hr).symm⟩)
    · have hold := hctx r hr
      refine (hmap _ _).mpr (.inr ⟨?_, hold⟩)
      intro hid
      rw [hid, hfree] at hold
      simp at hold

/-- Whatever the outcome of a binding, the forest is kept. -/
lemma TreeInv.bind (h : TreeInv bs s) {j : JobRef} (ho : BindOutcome s j s') :
    TreeInv bs s' := by
  cases ho with
  | unknownParent => exact h
  | @existing r hmap =>
      refine ⟨h.mem, h.blockSize_eq, h.key, h.parent, h.listed, fun j' hj' => ?_⟩
      obtain ⟨hlt, hctx⟩ := h.jobs j' hj'
      refine ⟨hlt, fun r' hr' => ?_⟩
      rw [setJob_job] at hr' ⊢
      split_ifs at hr' ⊢ with he
      · obtain rfl := Option.some.inj hr'
        exact hmap
      · exact hctx r' hr'
  | root hmap _ =>
      exact h.withFresh hmap h.mem rfl (fun _ => ⟨rfl, rfl⟩) (fun _ _ hi => hi)
        ⟨rfl, rfl, rfl⟩ (by simp)
  | @failed q p m e _ _ hp ha =>
      obtain ⟨hinv, bl, sl, hgrow, hsub, -⟩ :=
        KvMemory.adopt_spec (s.job j).contextId h.mem ⟨q, hp⟩
      rw [ha] at hinv hgrow hsub
      exact h.setMem hinv hgrow.blockSize (hgrow.links) (hgrow.sub_mono hsub)
  | @forked q p m hmap _ hp ha =>
      obtain ⟨hinv, bl, sl, hgrow, hsub, -⟩ :=
        KvMemory.adopt_spec (s.job j).contextId h.mem ⟨q, hp⟩
      rw [ha] at hinv hgrow hsub
      refine h.withFresh hmap hinv hgrow.blockSize hgrow.links (hgrow.sub_mono hsub)
        ⟨rfl, rfl, rfl⟩ ?_
      rintro _ ⟨⟩
      refine ⟨⟨q, hp⟩, ?_⟩
      rw [show (m.obj p).subContextIds = _ from hsub]
      exact List.mem_append_right _ List.mem_cons_self

/-! ## The actions of the engine -/

/-- Queueing a job that has no context yet. -/
lemma TreeInv.queueJob (h : TreeInv bs s) {record : PrimitiveJob} (hrec : record.context = none)
    (t : ℕ) : TreeInv bs (s.queueJob record t) := by
  refine ⟨h.mem, h.blockSize_eq, h.key, h.parent, h.listed, fun j hj => ?_⟩
  have hjob : (s.queueJob record t).job j =
      if j = s.nextJob then record else s.job j := setJob_job _ s.nextJob j record
  have hmem : j ∈ s.scheduler.jobs ∨ j = s.nextJob := by
    simp only [BuiltinEngine.queueJob, EngineScheduler.addJob, EngineScheduler.jobs,
      List.mem_append, List.mem_singleton] at hj
    simp only [EngineScheduler.jobs, List.mem_append]
    tauto
  rcases hmem with hj | rfl
  · obtain ⟨hlt, hctx⟩ := h.jobs j hj
    rw [hjob, if_neg (Nat.ne_of_lt hlt)]
    exact ⟨Nat.lt_succ_of_lt hlt, hctx⟩
  · rw [hjob, if_pos rfl, hrec]
    exact ⟨Nat.lt_succ_self _, by simp⟩

/-- `free_context` is used on a context that no registered context was forked from and no
waiting or running job is for. -/
def FreeGuard (s : BuiltinEngine) (contextId : ℕ) : Prop :=
  ∀ r, s.map contextId = some r →
    (∀ c ∈ s.registered, (s.mem.obj c).parentContext ≠ some r) ∧
    ∀ j ∈ s.scheduler.jobs, (s.job j).contextId ≠ contextId

/-- What a guarded `free_context` can lead to: nothing, or the context leaves the map, with or
without its blocks. -/
lemma freeContext_outcome (h : TreeInv bs s) (contextId : ℕ) :
    (s.freeContext contextId).2 = s ∨
    ∃ r m, s.map contextId = some r ∧
      (s.freeContext contextId).2 =
        { s with map := Function.update s.map contextId none, mem := m } ∧
      m.MemInv (s.registered \ {r}) ∧ m.obj = (s.mem.unlinked r).obj ∧
      m.blockSize = s.mem.blockSize := by
  rw [freeContext]
  split_ifs
  · exact .inl rfl
  · rw [managerFreeContext]
    split
    · exact .inl rfl
    · rename_i r hmap
      have hr : r ∈ s.registered := ⟨contextId, hmap⟩
      have hparent : ∀ p, (s.mem.obj r).parentContext = some p →
          p ≠ r ∧ (s.mem.obj r).contextId ∈ (s.mem.obj p).subContextIds := fun p hp =>
        ⟨Nat.ne_of_lt (h.parent r hr p hp).1, h.listed r hr p hp⟩
      have hbs := (s.mem.unlinked_grown r r).1
      right
      by_cases hleaf : (s.mem.obj r).subContextIds = []
      · obtain ⟨pool, hd, -, hinv⟩ := KvMemory.destruction_spec h.mem hr hleaf hparent
        dsimp only
        rw [hd]
        exact ⟨r, _, hmap, rfl, hinv, rfl, hbs⟩
      · obtain ⟨e, hd⟩ := KvMemory.destruction_error hleaf hparent
        dsimp only
        rw [hd]
        exact ⟨r, _, hmap, rfl, (h.mem.unlinked r).mono Set.sdiff_subset, rfl, hbs⟩

/-- The state after an id left the map, on another memory. -/
def withoutId (s : BuiltinEngine) (contextId : ℕ) (m : KvMemory) : BuiltinEngine :=
  { s with map := Function.update s.map contextId none, mem := m }

lemma withoutId_map_iff (s : BuiltinEngine) (contextId : ℕ) (m : KvMemory) (id : ℕ)
    (r : CtxRef) : (s.withoutId contextId m).map id = some r ↔
      id ≠ contextId ∧ s.map id = some r := by
  simp only [withoutId, Function.update_apply]
  split_ifs with he
  · simp [he]
  · simp [he]

lemma withoutId_registered {contextId : ℕ} {r : CtxRef} (m : KvMemory)
    (hmap : s.map contextId = some r) (hkey : ∀ id, s.map id = some r → id = contextId) :
    (s.withoutId contextId m).registered = s.registered \ {r} := by
  ext r'
  constructor
  · rintro ⟨id, hid⟩
    obtain ⟨hne, hid⟩ := (s.withoutId_map_iff contextId m id r').mp hid
    refine ⟨⟨id, hid⟩, ?_⟩
    rintro rfl
    exact hne (hkey id hid)
  · rintro ⟨⟨id, hid⟩, hne⟩
    refine ⟨id, (s.withoutId_map_iff contextId m id r').mpr ⟨?_, hid⟩⟩
    rintro rfl
    exact hne (Option.some.inj (hid.symm.trans hmap))

/-- A context leaves the forest. -/
lemma TreeInv.freed (h : TreeInv bs s) {contextId : ℕ} {r : CtxRef} {m : KvMemory}
    (hmap : s.map contextId = some r) (hm : m.MemInv (s.registered \ {r}))
    (hobj : m.obj = (s.mem.unlinked r).obj) (hbs : m.blockSize = s.mem.blockSize)
    (hg : FreeGuard s contextId) : TreeInv bs (s.withoutId contextId m) := by
  obtain ⟨hchild, hjobs⟩ := hg r hmap
  have hext := fun r' => (s.mem.unlinked_grown r r').2.2.2
  have hmap' := s.withoutId_map_iff contextId m
  have hreg := withoutId_registered m hmap fun id hid =>
    (h.key id _ hid).symm.trans (h.key contextId _ hmap)
  have hpar : ∀ r' p, (m.obj r').parentContext = some p →
      (s.mem.obj r').parentContext = some p := by
    intro r' p hp
    rwa [hobj, (hext r').parentContext] at hp
  refine ⟨hreg ▸ hm, hbs.trans h.blockSize_eq, fun id r' hid => ?_, fun r' hr' p hp => ?_,
    fun r' hr' p hp => ?_, fun j hj => ?_⟩
  · show (m.obj r').contextId = id
    rw [hobj, (hext r').contextId]
    exact h.key id r' ((hmap' id r').mp hid).2
  · rw [hreg] at hr' ⊢
    have hp' := hpar r' p hp
    refine ⟨(h.parent r' hr'.1 p hp').1, (h.parent r' hr'.1 p hp').2, ?_⟩
    rintro rfl
    exact hchild r' hr'.1 hp'
  · rw [hreg] at hr'
    have hp' := hpar r' p hp
    have hlist := h.listed r' hr'.1 p hp'
    show (m.obj r').contextId ∈ (m.obj p).subContextIds
    rw [hobj, (hext r').contextId]
    -- the freed context leaves the list of its own parent only, under its own id
    rcases hq : (s.mem.obj r).parentContext with _ | q
    · simpa only [KvMemory.unlinked, hq] using hlist
    · by_cases hpq : p = q
      · subst hpq
        have hne : (s.mem.obj r').contextId ≠ (s.mem.obj r).contextId := fun he =>
          hr'.2 (h.eq_of_contextId hr'.1 ⟨contextId, hmap⟩ he)
        simp only [KvMemory.unlinked, hq, KvMemory.set_obj_self]
        exact (List.mem_erase_of_ne hne).mpr hlist
      · simp only [KvMemory.unlinked, hq, KvMemory.set_obj_of_ne _ hpq]
        exact hlist
  · obtain ⟨hlt, hctx⟩ := h.jobs j hj
    exact ⟨hlt, fun r' hr' => (hmap' _ _).mpr ⟨hjobs j hj, hctx r' hr'⟩⟩

/-- Rearranging or dropping jobs. -/
lemma TreeInv.reschedule (h : TreeInv bs s) {sched : EngineScheduler}
    (hsub : ∀ j ∈ sched.jobs, j ∈ s.scheduler.jobs) : TreeInv bs { s with scheduler := sched } :=
  ⟨h.mem, h.blockSize_eq, h.key, h.parent, h.listed, fun j hj => h.jobs j (hsub j hj)⟩

/-- The batch of an iteration: held by the scheduler, with contexts of the forest. -/
lemma TreeInv.scheduleBatch (h : TreeInv bs s) {batch : List JobRef}
    (hs : s.scheduleBatch = .ok (batch, s')) :
    TreeInv bs s' ∧ BoundTo s' s'.registered batch ∧
      ∃ sched, s' = { s with scheduler := sched } ∧ sched.runningJobs = batch := by
  rw [BuiltinEngine.scheduleBatch] at hs
  split at hs
  · simp at hs
  · rename_i batch' sched hsched
    obtain ⟨rfl, rfl⟩ := Prod.mk.inj (Except.ok.inj hs)
    obtain ⟨hrun, hperm, hlen⟩ := EngineScheduler.schedule_spec hsched
    have hinv : TreeInv bs { s with scheduler := sched } :=
      h.reschedule fun j hj => hperm.mem_iff.mp hj
    refine ⟨hinv, fun j hj => ?_, sched, rfl, hrun⟩
    have hjs : j ∈ sched.jobs := by
      rw [EngineScheduler.jobs, hrun]
      exact List.mem_append_right _ hj
    obtain ⟨len, hl⟩ := hlen j hj
    rw [jobContextLen] at hl
    split at hl
    · simp at hl
    · rename_i r hctx
      exact ⟨r, ⟨_, (hinv.jobs j hjs).2 r hctx⟩, hctx⟩

lemma checkJobs_ok_iff {jobs : List JobRef} : s.checkJobs jobs = .ok () ↔
    (s.attnFunc = .xFormersFillSharedPromptsGenerate → jobs ≠ []) := by
  rw [checkJobs]
  split_ifs with h
  · simp [h]
  · simpa using h

/-- The parts of `run_iter` up to the forward pass. -/
lemma runIterForward_cases {o : ModelOutput} {batch jobs : List JobRef}
    (hf : s.runIterForward o batch = .ok (jobs, s')) :
    jobs = s.fillsFirst batch ∧ ∃ first s₁, s.prepareJobs jobs = .ok (first, s₁) ∧
      ∃ s₂, s₁.firstSampling o.firstSamplingTokens 0 first = .ok s₂ ∧
        ∃ ids, s₂.inputIds jobs = .ok ids ∧
          s₂.forward (s₂.initIterationState jobs) ids = .ok s' := by
  rw [runIterForward] at hf
  dsimp only at hf
  split at hf
  · simp at hf
  · rename_i first s₁ hprep
    split at hf
    · simp at hf
    · rename_i s₂ hfirst
      split at hf
      · simp at hf
      · split at hf
        · simp at hf
        · rename_i ids hids
          split at hf
          · simp at hf
          · rename_i s₃ hfwd
            obtain ⟨rfl, rfl⟩ := Prod.mk.inj (Except.ok.inj hf)
            exact ⟨rfl, first, s₁, hprep, s₂, hfirst, ids, hids, hfwd⟩

/-- `run_iter` is its forward pass and the update of the jobs. -/
lemma runIter_cases {o : ModelOutput} {batch : List JobRef} (h : s.runIter o batch = .ok s') :
    ∃ jobs s₁, s.runIterForward o batch = .ok (jobs, s₁) ∧
      s₁.updateJobs o (jobs.filter fun j => !(s₁.job j).isGenerate).length 0 jobs = .ok s' := by
  rw [runIter] at h
  split at h
  · cases h
  · rename_i jobs s₁ hfwd
    exact ⟨jobs, s₁, hfwd, h⟩

/-- `schedule`, then `run_iter` up to the point where attention reads the cache. -/
def iterForward (s : BuiltinEngine) (o : ModelOutput) :
    Except PyError (List JobRef × BuiltinEngine) :=
  match s.scheduleBatch with
  | .error e => .error e
  | .ok (batch, s₁) => s₁.runIterForward o batch

/-- An iteration up to the forward pass: the batch that was scheduled, the allocation, and a
quiet rest. -/
lemma iterForward_cases {o : ModelOutput} {jobs : List JobRef}
    (hf : s.iterForward o = .ok (jobs, s')) :
    ∃ batch s₁ first s₂ s₃, s.scheduleBatch = .ok (batch, s₁) ∧ jobs = s₁.fillsFirst batch ∧
      s₁.prepareJobs jobs = .ok (first, s₂) ∧
      s₂.firstSampling o.firstSamplingTokens 0 first = .ok s₃ ∧
      ∃ ids, s₃.inputIds jobs = .ok ids ∧
        s₃.forward (s₃.initIterationState jobs) ids = .ok s' := by
  rw [iterForward] at hf
  split at hf
  · simp at hf
  · rename_i batch s₁ hbatch
    obtain ⟨hjobs, first, s₂, hprep, s₃, hfirst, hrest⟩ := runIterForward_cases hf
    exact ⟨batch, s₁, first, s₂, s₃, hbatch, hjobs, hprep, hfirst, hrest⟩

/-- A completed iteration with jobs. -/
lemma engineIter_running {o : ModelOutput} (hjobs : s.scheduler.isEmpty = false)
    (hi : s.engineIter o = .ok s') :
    ∃ jobs s₁ s₂ sched, s.iterForward o = .ok (jobs, s₁) ∧
      s₁.updateJobs o (jobs.filter fun j => !(s₁.job j).isGenerate).length 0 jobs = .ok s₂ ∧
      s' = { s₂ with scheduler := sched } ∧ ∀ j ∈ sched.jobs, j ∈ s₂.scheduler.jobs := by
  rw [engineIter, if_neg (by simp [hjobs])] at hi
  split at hi
  · simp at hi
  · rename_i batch s₀ hbatch
    split at hi
    · simp at hi
    · rename_i s₂ hrun
      split at hi
      · simp at hi
      · rename_i sched hfin
        obtain rfl := Except.ok.inj hi
        obtain ⟨jobs, s₁, hfwd, hup⟩ := runIter_cases hrun
        refine ⟨jobs, s₁, s₂, sched, ?_, hup, rfl,
          fun j hj => EngineScheduler.jobs_of_finish hfin hj⟩
        rw [iterForward, hbatch]
        exact hfwd

/-- A finished iteration did nothing, or went through its forward pass, updated the jobs and
dropped some. -/
lemma engineIter_cases {o : ModelOutput} (hi : s.engineIter o = .ok s') :
    s' = s ∨ ∃ jobs s₁ s₂ sched, s.iterForward o = .ok (jobs, s₁) ∧
      s₁.updateJobs o (jobs.filter fun j => !(s₁.job j).isGenerate).length 0 jobs = .ok s₂ ∧
      s' = { s₂ with scheduler := sched } ∧ ∀ j ∈ sched.jobs, j ∈ s₂.scheduler.jobs := by
  cases hjobs : s.scheduler.isEmpty with
  | true =>
      rw [engineIter, if_pos hjobs] at hi
      exact .inl (Except.ok.inj hi).symm
  | false => exact .inr (engineIter_running hjobs hi)

/-- `fills_first` reorders a batch. -/
lemma fillsFirst_perm (s : BuiltinEngine) (batch : List JobRef) :
    (s.fillsFirst batch).Perm batch := by
  have hperm := List.filter_append_perm (fun j => !(s.job j).isGenerate) batch
  simpa only [fillsFirst, Bool.not_not] using hperm

lemma mem_fillsFirst {js : List JobRef} {j : JobRef} : j ∈ s.fillsFirst js ↔ j ∈ js :=
  (s.fillsFirst_perm js).mem_iff

/-- The forest at the forward pass, and what the iteration allocated until then. -/
structure AtForward (bs : ℕ) (s : BuiltinEngine) (jobs : List JobRef) (s' : BuiltinEngine) :
    Prop where
  tree : TreeInv bs s'
  bound : BoundTo s' s'.registered jobs
  registered : s'.registered = s.registered
  links : ∀ r, SameLinks (s.mem.obj r) (s'.mem.obj r)
  length : ∀ r, (s'.mem.obj r).tokenKvBlockIds.length =
    (s.mem.obj r).tokenKvBlockIds.length + s.added jobs r
  job : ∀ j, (s'.job j).context = (s.job j).context ∧ (s'.job j).kind = (s.job j).kind
  attnFunc : s'.attnFunc = s.attnFunc

lemma TreeInv.iterForward (h : TreeInv bs s) {o : ModelOutput} {jobs : List JobRef}
    (hf : s.iterForward o = .ok (jobs, s')) : AtForward bs s jobs s' := by
  obtain ⟨batch, s₁, first, s₂, s₃, hbatch, hjobs, hprep, hfirst, ids, -, hfwd⟩ :=
    iterForward_cases hf
  obtain ⟨hinv₁, hbound, sched, rfl, -⟩ := h.scheduleBatch hbatch
  have hbound' : BoundTo { s with scheduler := sched } s.registered jobs := fun j hj => by
    rw [hjobs] at hj
    exact hbound j (mem_fillsFirst.mp hj)
  obtain ⟨hmem₂, hext⟩ := prepareJobs_spec jobs hinv₁.mem hbound' hprep
  have hq : Quiet s₂ s' := (firstSampling_quiet hfirst).trans (forward_quiet hfwd)
  have hreg : s'.registered = s.registered := by
    rw [hq.registered, hext.rest]
    rfl
  have hjob : ∀ j, (s'.job j).context = (s.job j).context ∧
      (s'.job j).kind = (s.job j).kind := by
    intro j
    have hj := hq.job j
    rw [hext.rest] at hj
    exact ⟨hj.2.1, hj.2.2⟩
  have hattn : s'.attnFunc = s.attnFunc := by
    rw [hq.attnFunc, hext.rest]
    rfl
  refine ⟨(hinv₁.extended hmem₂ hext).quiet hq, fun j hj => ?_, hreg, fun r => ?_, fun r => ?_,
    hjob, hattn⟩
  · obtain ⟨r, hr, hctx⟩ := hbound' j hj
    exact ⟨r, hreg ▸ hr, (hjob j).1.trans hctx⟩
  · obtain ⟨h1, h2, h3, h4⟩ := hext.links r
    obtain ⟨q1, q2, q3, q4, -, -⟩ := hq.obj r
    exact ⟨q1.trans h1, q2.trans h2, q3.trans h3, q4.trans h4⟩
  · rw [(hq.obj r).2.2.2.2.1, hext.length r]
    rfl

/-- The forest after an iteration. -/
lemma TreeInv.engineIter (h : TreeInv bs s) {o : ModelOutput} (hi : s.engineIter o = .ok s') :
    TreeInv bs s' := by
  rcases engineIter_cases hi with rfl | ⟨jobs, s₁, s₂, sched, hf, hup, rfl, hsub⟩
  · exact h
  · exact ((h.iterForward hf).tree.quiet (updateJobs_quiet hup)).reschedule hsub

/-- The forest is kept by every action that respects `FreeGuard`. -/
lemma TreeInv.apply (h : TreeInv bs s) {a : Action}
    (hg : ∀ cid, a = .freeContext cid → FreeGuard s cid) : TreeInv bs (s.apply a) := by
  cases a with
  | fill sid tid cid pid flag ts t =>
      exact (h.queueJob rfl t).bind (bindJobContext_outcome _ _)
  | generate sid tid cid pid flag cfg t =>
      exact (h.queueJob rfl t).bind (bindJobContext_outcome _ _)
  | freeContext cid =>
      rcases freeContext_outcome h cid with heq | ⟨r, m, hmap, heq, hm, hobj, hbs⟩
      · rw [BuiltinEngine.apply, heq]
        exact h
      · rw [BuiltinEngine.apply, heq]
        exact h.freed hmap hm hobj hbs (hg cid rfl)
  | engineIter o =>
      simp only [BuiltinEngine.apply]
      split
      · exact h.engineIter ‹_›
      · exact ⟨h.mem, h.blockSize_eq, h.key, h.parent, h.listed, h.jobs⟩

lemma treeInv_start {attnFunc : AttnFunc} {n : ℕ} {config : SchedulerConfig} (hbs : 0 < bs) :
    TreeInv bs (start attnFunc bs n config) := by
  have hnone : ∀ r, r ∉ (start attnFunc bs n config).registered := by
    rintro r ⟨id, hid⟩
    simp [start] at hid
  have hreg : (start attnFunc bs n config).registered = ∅ := Set.eq_empty_of_forall_notMem hnone
  have hblocks : (KvMemory.empty bs (kvCachePool n)).blocksOf ∅ = ∅ := by
    ext b
    simp [KvMemory.blocksOf]
  have hmem : (KvMemory.empty bs (kvCachePool n)).MemInv ∅ := by
    refine ⟨hbs, by simp, by simp, by simp, ?_⟩
    rw [hblocks]
    exact RecyclePool.owns_empty _ _ _
  refine ⟨hreg ▸ hmem, rfl, ?_, fun r hr => (hnone r hr).elim, fun r hr => (hnone r hr).elim, ?_⟩
  · simp [start]
  · simp [start, EngineScheduler.jobs]

end BuiltinEngine
end ParrotServe
