import ParrotServe.Properties.SlotMapping

/-!
# The paged KV view refines the token sequence

At the forward pass of an iteration a job attends to the slots of its ancestor chain.  The
abstract meaning of that chain is a flat token sequence, the concatenation of the `token_ids` of
its contexts, and the cache should hold exactly these tokens at exactly these slots.

Three things break it, and `KvGuard` is their absence: padding a parent that does not end on a
block boundary puts unwritten slots into the chain; a token that was sampled but has no slot yet
(`Pending`) is missing from the view of every context forked from its context, and of a Fill
behind it; and the slot table of a batch with rows of different lengths, read flat, stores tokens
in wrong slots.

`ObjInv` is the state of one context between iterations, `FedBy` its change up to the forward
pass, and `kv_view_refines` the result over runs.
-/

namespace ParrotServe
namespace BuiltinEngine

variable {s s' : BuiltinEngine} {bs : ℕ}

/-- The last token of a context has no slot yet: it was sampled and waits to be fed. -/
def Pending (c : BlockContext) : Prop := c.tokenKvSlotIds.length < c.tokenIds.length

instance (c : BlockContext) : Decidable (Pending c) := inferInstanceAs (Decidable (_ < _))

/-- The slots hold the tokens, as far as there are slots. -/
def Stored (kv : ℕ → Option ℕ) (c : BlockContext) : Prop :=
  ∀ i slot : ℕ, c.tokenKvSlotIds[i]? = some slot → kv slot = c.tokenIds[i]?

/-- A context between two iterations. -/
structure ObjInv (kv : ℕ → Option ℕ) (c : BlockContext) : Prop where
  /-- As many tokens as slots, or one more. -/
  balance : c.tokenIds.length = c.tokenKvSlotIds.length ∨
    c.tokenIds.length = c.tokenKvSlotIds.length + 1
  /-- The slots hold the tokens. -/
  stored : Stored kv c
  /-- After a Fill there is a hidden state to sample from. -/
  settled : ¬ Pending c → c.tokenIds ≠ [] → c.lastHiddenState ≠ none
  /-- After a sampled token there is none. -/
  pending : Pending c → c.lastHiddenState = none

lemma ObjInv.slots_le {kv : ℕ → Option ℕ} {c : BlockContext} (h : ObjInv kv c) :
    c.tokenKvSlotIds.length ≤ c.tokenIds.length := by
  rcases h.balance with h | h <;> omega

lemma ObjInv.length_of_pending {kv : ℕ → Option ℕ} {c : BlockContext} (h : ObjInv kv c)
    (hp : Pending c) : c.tokenIds.length = c.tokenKvSlotIds.length + 1 := by
  rw [Pending] at hp
  exact h.balance.resolve_left (Nat.ne_of_gt hp)

lemma ObjInv.length_of_settled {kv : ℕ → Option ℕ} {c : BlockContext} (h : ObjInv kv c)
    (hp : ¬ Pending c) : c.tokenIds.length = c.tokenKvSlotIds.length := by
  refine h.balance.resolve_right fun hlen => hp ?_
  rw [Pending, hlen]
  exact Nat.lt_succ_self _

/-- Every registered context satisfies `ObjInv`. -/
def KvInv (s : BuiltinEngine) : Prop :=
  ∀ r ∈ s.registered, ObjInv s.kvCache (s.mem.obj r)

/-! ## The condition on a batch -/

/-- The length of a context when the batch has been allocated. -/
def contextLenAfter (s : BuiltinEngine) (batch : List JobRef) (r : CtxRef) : ℕ :=
  ((s.mem.lineage r).map fun a => s.mem.getThisContextLen a + s.added batch a).sum

/-- The length of a job's row in the slot table: its tokens, or, because of the slice `[-0:]`, its
whole context when it has none. -/
def rowLength (s : BuiltinEngine) (batch : List JobRef) (j : JobRef) : ℕ :=
  if (s.job j).numTokens = 0 then s.contextLenAfter batch (s.jobContext j)
  else (s.job j).numTokens

/-- The condition on the batch of an iteration. -/
structure BatchGuard (s : BuiltinEngine) (batch : List JobRef) : Prop where
  /-- Different jobs have different contexts. -/
  distinct : (batch.map fun j => (s.job j).context).Nodup
  /-- A pending token in a job's chain is fed by a Generate of the same batch. -/
  fed : ∀ j ∈ batch, ∀ r, (s.job j).context = some r → ∀ a ∈ s.mem.lineage r,
    Pending (s.mem.obj a) →
      ∃ j' ∈ batch, (s.job j').isGenerate = true ∧ (s.job j').context = some a
  /-- The slot table can be read flat. -/
  aligned : s.attnFunc ≠ .xFormersWithBuffer →
    RowsAligned (((s.fillsFirst batch).map (s.rowLength (s.fillsFirst batch))).foldr max 0)
      ((s.fillsFirst batch).map fun j => (s.job j).numTokens)

/-- A fork finds its parent padded or on a block boundary. -/
def NoPadding (s : BuiltinEngine) (contextId : ℕ) (parentContextId : Option ℕ) : Prop :=
  s.map contextId = none → ∀ q p, parentContextId = some q → s.map q = some p →
    (s.mem.obj p).padded = false → s.mem.blockSize ∣ s.mem.getThisContextLen p

/-- The condition on an action under which the KV view is right. -/
def KvGuard (s : BuiltinEngine) : Action → Prop
  | .fill _ _ cid pid _ _ _ => NoPadding s cid pid
  | .generate _ _ cid pid _ _ _ => NoPadding s cid pid
  | .freeContext cid => FreeGuard s cid
  | .engineIter _ => ∀ batch s₁, s.scheduleBatch = .ok (batch, s₁) → BatchGuard s batch

/-! ## The objects of a batch up to the forward pass -/

/-- With distinct contexts, the first loop of `run_iter` allocates once per context. -/
lemma prepareJobs_objs {live : Set CtxRef} (js : List JobRef) :
    ∀ {s : BuiltinEngine} {first : List JobRef}, s.mem.MemInv live → BoundTo s live js →
      (js.map fun j => (s.job j).context).Nodup → s.prepareJobs js = .ok (first, s') →
      first.Sublist js ∧
      (∀ r, (∀ j ∈ js, (s.job j).context ≠ some r) → s'.mem.obj r = s.mem.obj r) ∧
      ∀ j ∈ js, ∀ r, (s.job j).context = some r → ∃ sample,
        ObjAllocated (s.job j) (s.mem.obj r) (s'.mem.obj r) sample ∧
          (sample = true ↔ j ∈ first) := by
  induction js with
  | nil =>
      intro s first _ _ _ hok
      obtain ⟨rfl, rfl⟩ := Prod.mk.inj (Except.ok.inj hok)
      exact ⟨List.Sublist.refl _, fun _ _ => rfl, fun j hj => by simp at hj⟩
  | cons j js ih =>
      intro s first h hbound hnodup hok
      obtain ⟨r, hr, hctx⟩ := hbound j List.mem_cons_self
      rw [prepareJobs, prepareJob_eq hctx] at hok
      split at hok
      · simp at hok
      · rename_i sample s₁ hj
        split at hok
        · simp at hok
        · rename_i first' s₂ hjs
          obtain ⟨rfl, rfl⟩ := Prod.mk.inj (Except.ok.inj hok)
          obtain ⟨hinv, hal⟩ := allocateJob_spec h hr hj
          have hjob : s₁.job = s.job := by rw [hal.rest]; rfl
          rw [List.map_cons, List.nodup_cons] at hnodup
          have hne : ∀ x ∈ js, (s.job x).context ≠ some r := fun x hx he =>
            hnodup.1 (List.mem_map.mpr ⟨x, hx, he.trans hctx.symm⟩)
          have hbound₁ : BoundTo s₁ live js := fun x hx => by
            rw [hjob]
            exact hbound x (List.mem_cons_of_mem _ hx)
          obtain ⟨hsub, hother, hself⟩ :=
            ih hinv hbound₁ (by rw [hjob]; exact hnodup.2) hjs
          rw [hjob] at hother hself
          have hjmem : j ∉ js := fun hjs' => hne j hjs' hctx
          refine ⟨?_, fun r' hr' => ?_, fun x hx r' hr' => ?_⟩
          · split_ifs
            · exact hsub.cons_cons j
            · exact hsub.cons j
          · have hr'' : r' ≠ r := fun he => hr' j List.mem_cons_self (he ▸ hctx)
            rw [hother r' fun x hx => hr' x (List.mem_cons_of_mem _ hx), hal.other r' hr'']
          · rcases List.mem_cons.mp hx with rfl | hx
            · obtain rfl := Option.some.inj (hctx.symm.trans hr')
              rw [hother r hne]
              refine ⟨sample, hal.self, ?_⟩
              have hnot : x ∉ first' := fun hmem => hjmem (hsub.subset hmem)
              cases sample <;> simp [hnot]
            · obtain ⟨b, hb, hiff⟩ := hself x hx r' hr'
              have hr'' : r' ≠ r := fun he => hne x hx (he ▸ hr')
              rw [hal.other r' hr''] at hb
              refine ⟨b, hb, hiff.trans ?_⟩
              have hxj : x ≠ j := fun he => hjmem (he ▸ hx)
              split_ifs
              · simp [hxj]
              · rfl

/-- First sampling pushes one token per job. -/
lemma firstSampling_objs {tokens : ℕ → ℕ} (js : List JobRef) :
    ∀ {s : BuiltinEngine} {i : ℕ}, (js.map fun j => (s.job j).context).Nodup →
      s.firstSampling tokens i js = .ok s' →
      s'.kvCache = s.kvCache ∧
      (∀ r, (∀ j ∈ js, (s.job j).context ≠ some r) → s'.mem.obj r = s.mem.obj r) ∧
      ∀ j ∈ js, ∀ r, (s.job j).context = some r → ∃ t, s'.mem.obj r =
        { s.mem.obj r with tokenIds := (s.mem.obj r).tokenIds ++ [t] } := by
  induction js with
  | nil =>
      intro s i _ hok
      obtain rfl := Except.ok.inj hok
      exact ⟨rfl, fun _ _ => rfl, fun j hj => by simp at hj⟩
  | cons j js ih =>
      intro s i hnodup hok
      rw [firstSampling] at hok
      split at hok
      · simp at hok
      · rename_i s₁ hput
        have hq := putToken_quiet hput
        rw [putToken] at hput
        dsimp only at hput
        split at hput
        · simp at hput
        · rename_i r hctx
          obtain rfl := Except.ok.inj hput
          rw [List.map_cons, List.nodup_cons] at hnodup
          have hne : ∀ x ∈ js, (s.job x).context ≠ some r := fun x hx he =>
            hnodup.1 (List.mem_map.mpr ⟨x, hx, he.trans hctx.symm⟩)
          have hself' := s.mem.set_obj_self r
            { s.mem.obj r with tokenIds := (s.mem.obj r).tokenIds ++ [tokens i] }
          have hother' := fun r' (hr' : r' ≠ r) => s.mem.set_obj_of_ne hr'
            { s.mem.obj r with tokenIds := (s.mem.obj r).tokenIds ++ [tokens i] }
          have hctxs := fun x => (hq.job x).2.1
          obtain ⟨hkv, hother, hself⟩ := ih (by simpa only [hctxs] using hnodup.2) hok
          simp only [hctxs] at hother hself
          refine ⟨hkv, fun r' hr' => ?_, fun x hx r' hr' => ?_⟩
          · have hr'' : r' ≠ r := fun he => hr' j List.mem_cons_self (he ▸ hctx)
            exact (hother r' fun x hx => hr' x (List.mem_cons_of_mem _ hx)).trans (hother' r' hr'')
          · rcases List.mem_cons.mp hx with rfl | hx
            · obtain rfl := Option.some.inj (hctx.symm.trans hr')
              exact ⟨tokens i, (hother r hne).trans hself'⟩
            · have hr'' : r' ≠ r := fun he => hne x hx (he ▸ hr')
              obtain ⟨t, ht⟩ := hself x hx r' hr'
              exact ⟨t, ht.trans (by
                have hobj := hother' r' hr''
                simp only [setMem, setJob] at hobj ⊢
                rw [hobj])⟩

lemma jobContext_eq {j : JobRef} {r : CtxRef} (hctx : (s.job j).context = some r) :
    s.jobContext j = r := by
  rw [jobContext, hctx]
  rfl

lemma nodup_of_contexts {jobs : List JobRef} {ctx : JobRef → CtxRef}
    (hctx : ∀ j ∈ jobs, (s.job j).context = some (ctx j))
    (hdistinct : (jobs.map fun j => (s.job j).context).Nodup) : (jobs.map ctx).Nodup := by
  refine List.Nodup.of_map some ?_
  rw [List.map_map]
  rw [List.map_congr_left hctx] at hdistinct
  exact hdistinct

/-- The tokens a job feeds, read off its context at the forward pass. -/
def feeds (s : BuiltinEngine) (j : JobRef) : List ℕ :=
  match (s.job j).kind with
  | .fill none => []
  | .fill (some tokenIds) => tokenIds
  | .generate _ => (s.mem.obj (s.jobContext j)).tokenIds.getLast?.toList

/-- What a job feeds, if that raises nothing. -/
lemma inputTokens_ok {j : JobRef} {tokens : List ℕ} (h : s.inputTokens j = .ok tokens) :
    tokens = s.feeds j ∧
      ((s.job j).isGenerate = true → (s.mem.obj (s.jobContext j)).tokenIds ≠ []) := by
  rw [inputTokens] at h
  split at h
  · cases h
  · rename_i tokenIds hkind
    obtain rfl := Except.ok.inj h
    exact ⟨by simp only [feeds, hkind], by simp [PrimitiveJob.isGenerate, hkind]⟩
  · rename_i cfg hkind
    split at h
    · cases h
    · rename_i r hctx
      have hr : s.jobContext j = r := jobContext_eq hctx
      rw [KvMemory.getLastTokenId] at h
      cases hlast : (s.mem.obj r).tokenIds.getLast? with
      | none =>
          rw [hlast] at h
          cases h
      | some t =>
          rw [hlast] at h
          obtain rfl := Except.ok.inj h
          refine ⟨by simp only [feeds, hkind, hr, hlast, Option.toList_some], fun _ hnil => ?_⟩
          rw [hr] at hnil
          rw [hnil] at hlast
          cases hlast

/-- The input ids are what the jobs feed, one after another. -/
lemma inputIds_ok (js : List JobRef) : ∀ {ids : List ℕ}, s.inputIds js = .ok ids →
    ids = js.flatMap s.feeds ∧ ∀ j ∈ js, s.inputTokens j = .ok (s.feeds j) := by
  induction js with
  | nil =>
      intro ids h
      obtain rfl := Except.ok.inj h
      exact ⟨rfl, fun j hj => absurd hj List.not_mem_nil⟩
  | cons j js ih =>
      intro ids h
      rw [inputIds] at h
      split at h
      · cases h
      · rename_i tokens htokens
        split at h
        · cases h
        · rename_i rest hrest
          obtain rfl := Except.ok.inj h
          obtain ⟨hrest', hjobs⟩ := ih hrest
          have hfeeds := (inputTokens_ok htokens).1
          rw [hfeeds] at htokens
          exact ⟨by rw [List.flatMap_cons, hfeeds, hrest'],
            List.forall_mem_cons.mpr ⟨htokens, hjobs⟩⟩

lemma inputIds_spec (js : List JobRef) {ids : List ℕ} (h : s.inputIds js = .ok ids) :
    ids = js.flatMap s.feeds ∧
      ∀ j ∈ js, (s.job j).isGenerate = true → (s.mem.obj (s.jobContext j)).tokenIds ≠ [] := by
  obtain ⟨hids, hjobs⟩ := inputIds_ok js h
  exact ⟨hids, fun j hj => (inputTokens_ok (hjobs j hj)).2⟩

/-- The change of a job's context up to the forward pass: `new` are the tokens fed, in the slots
`sl`, behind the tokens that had slots before. -/
structure FedBy (record : PrimitiveJob) (c c' : BlockContext) (sl new : List ℕ) : Prop where
  slots : c'.tokenKvSlotIds = c.tokenKvSlotIds ++ sl
  length_sl : sl.length = record.numTokens
  length_new : new.length = record.numTokens
  tokens : c'.tokenIds = c.tokenIds.take c.tokenKvSlotIds.length ++ new
  hidden : record.isGenerate = true → c'.lastHiddenState = none

/-- As many tokens as slots at the forward pass. -/
lemma FedBy.balanced {record : PrimitiveJob} {c c' : BlockContext} {sl new : List ℕ}
    (h : FedBy record c c' sl new) (hc : c.tokenKvSlotIds.length ≤ c.tokenIds.length) :
    c'.tokenIds.length = c'.tokenKvSlotIds.length := by
  rw [h.slots, h.tokens, List.length_append, List.length_append, List.length_take, h.length_sl,
    h.length_new]
  omega

/-- A Fill on a settled context appends its tokens with their slots. -/
lemma fedBy_fill {kv : ℕ → Option ℕ} {record : PrimitiveJob} {c c' : BlockContext}
    {sl tokenIds : List ℕ} (hc : ObjInv kv c) (hfill : record.kind = .fill (some tokenIds))
    (ha : ObjAllocated record c c' false) (hsl : c'.tokenKvSlotIds = c.tokenKvSlotIds ++ sl)
    (hlen : sl.length = record.numTokens) (hp : ¬ Pending c) :
    FedBy record c c' sl tokenIds := by
  refine ⟨hsl, hlen, by simp only [PrimitiveJob.numTokens, hfill], ?_, ?_⟩
  · rw [ha.tokens, ← hc.length_of_settled hp, List.take_length]
    simp only [filledTokens, hfill]
  · intro hgen
    simp [PrimitiveJob.isGenerate, hfill] at hgen

lemma take_append_getLast {l : List ℕ} {n : ℕ} (h : l.length = n + 1) :
    l.take n ++ l.getLast?.toList = l := by
  have hne : l ≠ [] := List.ne_nil_of_length_eq_add_one h
  have hdrop := List.dropLast_append_getLast hne
  rw [List.dropLast_eq_take, h, Nat.add_sub_cancel] at hdrop
  rw [List.getLast?_eq_some_getLast hne]
  exact hdrop

/-- A Generate whose context has a token without a slot feeds that token. -/
lemma fedBy_pending {kv : ℕ → Option ℕ} {record : PrimitiveJob} {c c' : BlockContext}
    {sl : List ℕ} (hc : ObjInv kv c) (hp : Pending c) (hgen : record.isGenerate = true)
    (ha : ObjAllocated record c c' false) (hsl : c'.tokenKvSlotIds = c.tokenKvSlotIds ++ sl)
    (hlen : sl.length = record.numTokens) :
    FedBy record c c' sl c'.tokenIds.getLast?.toList := by
  have hlength := hc.length_of_pending hp
  have htokens : c'.tokenIds = c.tokenIds := by
    rw [ha.tokens, filledTokens_generate hgen, List.append_nil]
  refine ⟨hsl, hlen, ?_, ?_, fun _ => ?_⟩
  · have hne : c'.tokenIds ≠ [] := by
      rw [htokens]
      exact List.ne_nil_of_length_eq_add_one hlength
    rw [List.getLast?_eq_some_getLast hne, numTokens_generate hgen]
    rfl
  · rw [htokens, take_append_getLast hlength]
  · rw [ha.hidden, if_neg Bool.false_ne_true, hc.pending hp]

/-- A Generate on a settled context feeds the token that is sampled first. -/
lemma fedBy_sampled {kv : ℕ → Option ℕ} {record : PrimitiveJob} {c c' : BlockContext}
    {sl : List ℕ} {t : ℕ} (hc : ObjInv kv c) (hp : ¬ Pending c)
    (hgen : record.isGenerate = true) (ha : ObjAllocated record c c' true)
    (hsl : c'.tokenKvSlotIds = c.tokenKvSlotIds ++ sl) (hlen : sl.length = record.numTokens) :
    FedBy record c { c' with tokenIds := c'.tokenIds ++ [t] } sl [t] := by
  refine ⟨hsl, hlen, (numTokens_generate hgen).symm, ?_, fun _ => ha.hidden⟩
  rw [ha.tokens, filledTokens_generate hgen, List.append_nil, ← hc.length_of_settled hp,
    List.take_length]

/-- A Generate feeds a token that was pending, or the one sampled from the hidden state. -/
lemma fedBy_generate {kv : ℕ → Option ℕ} {record : PrimitiveJob} {c c₂ c₃ : BlockContext}
    {sl : List ℕ} {sample : Bool} (hc : ObjInv kv c) (hgen : record.isGenerate = true)
    (ha : ObjAllocated record c c₂ sample) (hsl : c₂.tokenKvSlotIds = c.tokenKvSlotIds ++ sl)
    (hlen : sl.length = record.numTokens)
    (h₃ : if sample then ∃ t, c₃ = { c₂ with tokenIds := c₂.tokenIds ++ [t] } else c₃ = c₂)
    (hne : c₃.tokenIds ≠ []) :
    FedBy record c c₃ sl c₃.tokenIds.getLast?.toList := by
  cases sample with
  | false =>
      obtain rfl : c₃ = c₂ := h₃
      -- nothing was sampled: on a settled context there would be no token at all
      have hp : Pending c := by
        by_contra hp
        rw [ha.tokens, filledTokens_generate hgen, List.append_nil] at hne
        exact Bool.false_ne_true ((ha.sample_iff hgen hne).mpr (hc.settled hp hne))
      exact fedBy_pending hc hp hgen ha hsl hlen
  | true =>
      obtain ⟨t, rfl⟩ : ∃ t, c₃ = { c₂ with tokenIds := c₂.tokenIds ++ [t] } := h₃
      have hp : ¬ Pending c := by
        intro hp
        have hcne := List.ne_nil_of_length_eq_add_one (hc.length_of_pending hp)
        exact (ha.sample_iff hgen hcne).mp rfl (hc.pending hp)
      rw [List.getLast?_concat, Option.toList_some]
      exact fedBy_sampled hc hp hgen ha hsl hlen

/-- The jobs of an admitted batch are fed; contexts without a job do not change. -/
lemma prepared_fed (h : TreeInv bs s) (hkv : s.KvInv) {jobs first : List JobRef}
    {s₂ s₃ : BuiltinEngine} {tokens : ℕ → ℕ} {ids : List ℕ}
    (hbound : BoundTo s s.registered jobs)
    (hnodup : (jobs.map fun j => (s.job j).context).Nodup)
    (hfed : ∀ j ∈ jobs, ∀ r, (s.job j).context = some r → Pending (s.mem.obj r) →
      ∃ j' ∈ jobs, (s.job j').isGenerate = true ∧ (s.job j').context = some r)
    (hprep : s.prepareJobs jobs = .ok (first, s₂))
    (hfirst : s₂.firstSampling tokens 0 first = .ok s₃)
    (hids : s₃.inputIds jobs = .ok ids) :
    s₃.kvCache = s.kvCache ∧
    (∀ r, (∀ j ∈ jobs, (s.job j).context ≠ some r) → s₃.mem.obj r = s.mem.obj r) ∧
    ∀ j ∈ jobs, ∀ r, (s.job j).context = some r →
      ∃ sl, FedBy (s.job j) (s.mem.obj r) (s₃.mem.obj r) sl (s₃.feeds j) := by
  obtain ⟨hmem₂, hext⟩ := prepareJobs_spec jobs h.mem hbound hprep
  obtain ⟨hsub, hother, hself⟩ := prepareJobs_objs jobs h.mem hbound hnodup hprep
  have hjob₂ : s₂.job = s.job := by rw [hext.rest]; rfl
  have hkv₂ : s₂.kvCache = s.kvCache := by rw [hext.rest]; rfl
  have hq := firstSampling_quiet hfirst
  have hnodup₂ : (first.map fun j => (s₂.job j).context).Nodup := by
    rw [hjob₂]
    exact (hsub.map _).nodup hnodup
  obtain ⟨hkv₃, hother₃, hself₃⟩ := firstSampling_objs first hnodup₂ hfirst
  rw [hjob₂] at hother₃ hself₃
  -- distinct contexts: a job is determined by its context
  have hinj : ∀ j ∈ jobs, ∀ j' ∈ jobs, (s.job j).context = (s.job j').context → j = j' :=
    fun j hj j' hj' he => List.inj_on_of_nodup_map hnodup hj hj' he
  refine ⟨hkv₃.trans hkv₂, fun r hr => ?_, fun j hj r hctx => ?_⟩
  · rw [hother₃ r fun j hj => hr j (hsub.subset hj), hother r hr]
  · obtain ⟨r', hr', hctx'⟩ := hbound j hj
    obtain rfl := Option.some.inj (hctx.symm.trans hctx')
    obtain ⟨sample, hal, hiff⟩ := hself j hj r hctx
    obtain ⟨bl, sl, hbl, hb, hs⟩ := hal.tables
    have hsl : sl.length = (s.job j).numTokens := by
      have h1 := (h.mem.paged r hr').length_eq
      have h2 := (hmem₂.paged r hr').length_eq
      rw [hb, hs, List.length_append, List.length_append, h1] at h2
      omega
    have hc := hkv r hr'
    have hobj : if sample then ∃ t, s₃.mem.obj r =
        { s₂.mem.obj r with tokenIds := (s₂.mem.obj r).tokenIds ++ [t] }
        else s₃.mem.obj r = s₂.mem.obj r := by
      split_ifs with hb
      · exact hself₃ j (hiff.mp hb) r hctx
      · refine hother₃ r fun j' hj' he => hb (hiff.mpr ?_)
        rwa [hinj j hj j' (hsub.subset hj') (hctx.trans he.symm)]
    have hkind₃ : (s₃.job j).kind = (s.job j).kind := by
      rw [(hq.job j).2.2, hjob₂]
    have hctx₃ : s₃.jobContext j = r := jobContext_eq (by rw [(hq.job j).2.1, hjob₂, hctx])
    refine ⟨sl, ?_⟩
    rcases hkind : (s.job j).kind with (_ | tokenIds) | cfg
    · exact (hal.kind hkind).elim
    · have hb : sample = false := by
        rcases hb : sample with _ | _
        · rfl
        · have := hal.sample_generate hb
          simp [PrimitiveJob.isGenerate, hkind] at this
      subst hb
      have hfeeds : s₃.feeds j = tokenIds := by
        rw [feeds, hkind₃, hkind]
      rw [if_neg (by simp)] at hobj
      rw [hfeeds, hobj]
      refine fedBy_fill hc hkind hal hs hsl fun hp => ?_
      obtain ⟨j', hj', hgen, hctx'⟩ := hfed j hj r hctx hp
      rw [hinj j' hj' j hj (hctx'.trans hctx.symm)] at hgen
      simp [PrimitiveJob.isGenerate, hkind] at hgen
    · have hgen : (s.job j).isGenerate = true := by
        simp [PrimitiveJob.isGenerate, hkind]
      have hfeeds : s₃.feeds j = (s₃.mem.obj r).tokenIds.getLast?.toList := by
        rw [feeds, hkind₃, hkind, hctx₃]
      rw [hfeeds]
      refine fedBy_generate hc hgen hal hs hsl hobj ?_
      have := (inputIds_spec jobs hids).2 j hj (by
        rw [PrimitiveJob.isGenerate, hkind₃, hkind])
      rwa [hctx₃] at this

/-! ## The writes of the forward pass -/

/-- The slots of the tokens a job feeds. -/
def newSlots (s : BuiltinEngine) (j : JobRef) : List ℕ :=
  tokenRow (s.slotRow j) (s.job j).numTokens

lemma lastEntries_append {α : Type} {l l' : List α} {n : ℕ} (hl : l'.length = n) (hn : n ≠ 0) :
    lastEntries (l ++ l') n = l' := by
  rw [lastEntries, if_neg hn, List.length_append, hl, Nat.add_sub_cancel, List.drop_left]

/-- The row of a job in the slot table is its new slots, or the whole chain when it has none. -/
lemma slotRow_spec (h : TreeInv bs s) {j : JobRef} {r : CtxRef} {old sl : List ℕ}
    (hr : r ∈ s.registered) (hctx : (s.job j).context = some r)
    (hslots : (s.mem.obj r).tokenKvSlotIds = old ++ sl)
    (hsl : sl.length = (s.job j).numTokens) :
    s.newSlots j = sl ∧ ((s.job j).numTokens ≠ 0 → s.slotRow j = sl) ∧
      ((s.job j).numTokens = 0 → s.slotRow j = s.mem.getContextSlotIds r) := by
  have hj : s.jobContext j = r := jobContext_eq hctx
  have hrow : (s.job j).numTokens ≠ 0 → s.slotRow j = sl := by
    intro hn
    have hchain : s.mem.getContextSlotIds r = _ := h.rooted.gather_eq _ hr
    rw [slotRow, hj, hchain, hslots, ← List.append_assoc]
    exact lastEntries_append hsl hn
  refine ⟨?_, hrow, fun hn => by rw [slotRow, hj, lastEntries, if_pos hn]⟩
  by_cases hn : (s.job j).numTokens = 0
  · rw [newSlots, tokenRow, if_pos hn]
    rw [hn] at hsl
    exact (List.length_eq_zero_iff.mp hsl).symm
  · rw [newSlots, tokenRow, if_neg hn, hrow hn]

/-- As many slot ids as block ids along a chain. -/
lemma TreeInv.length_chain (h : TreeInv bs s) {r : CtxRef} (hr : r ∈ s.registered) :
    (s.mem.getContextSlotIds r).length =
      ((s.mem.lineage r).map fun a => s.mem.getThisContextLen a).sum := by
  rw [KvMemory.getContextSlotIds, KvMemory.gather_eq_lineage, List.length_flatMap]
  refine congrArg _ (List.map_congr_left fun a ha => ?_)
  exact (h.mem.paged a (h.rooted.mem_of_lineage hr a ha)).length_eq

/-- With blocks of one token a chain's block ids are its slot ids. -/
lemma TreeInv.blocks_eq_slots (h : TreeInv 1 s) {r : CtxRef} (hr : r ∈ s.registered) :
    s.mem.getContextBlockIds r = s.mem.getContextSlotIds r := by
  rw [KvMemory.getContextSlotIds, KvMemory.getContextBlockIds, KvMemory.gather_eq_lineage,
    KvMemory.gather_eq_lineage]
  refine congrArg List.flatten (List.map_congr_left fun a ha => ?_)
  have hp := h.mem.paged a (h.rooted.mem_of_lineage hr a ha)
  rw [h.blockSize_eq] at hp
  exact hp.eq_of_one.symm

lemma maxLength_eq {α : Type} (rows : List (List α)) :
    maxLength rows = (rows.map List.length).foldr max 0 := by
  rw [maxLength, List.foldr_map]

lemma length_le_maxLength {α : Type} {rows : List (List α)} {row : List α} (h : row ∈ rows) :
    row.length ≤ maxLength rows := by
  induction rows with
  | nil => simp at h
  | cons x rows ih =>
      rw [maxLength, List.foldr_cons]
      rcases List.mem_cons.mp h with rfl | h
      · exact Nat.le_max_left _ _
      · exact (ih h).trans (Nat.le_max_right _ _)

/-- The rows of the slot table, as the condition on a batch counts them. -/
structure Rows (s : BuiltinEngine) (jobs : List JobRef) : Prop where
  row : ∀ j ∈ jobs, (s.job j).numTokens ≠ 0 → (s.slotRow j).length = (s.job j).numTokens
  block : s.mem.blockSize = 1 → ∀ j ∈ jobs, s.blockRow j = s.slotRow j
  feeds : ∀ j ∈ jobs, (s.feeds j).length = (s.job j).numTokens
  slots : ∀ j ∈ jobs, (s.newSlots j).length = (s.job j).numTokens

/-- The slots that are paired with the input tokens: job by job, the new slots. -/
lemma slotMapping_take {jobs : List JobRef} {ids : List ℕ} (hrows : Rows s jobs)
    (hids : ids = jobs.flatMap s.feeds)
    (hone : s.attnFunc = .xFormersWithBuffer → s.mem.blockSize = 1)
    (halign : s.attnFunc ≠ .xFormersWithBuffer →
      RowsAligned (maxLength (jobs.map s.slotRow)) (jobs.map fun j => (s.job j).numTokens))
    (hf : s.forward (s.initIterationState jobs) ids = .ok s') :
    (s.initIterationState jobs).slotMapping.take ids.length = jobs.flatMap s.newSlots := by
  have hlen : ids.length = (jobs.map fun j => (s.job j).numTokens).sum := by
    rw [hids, List.length_flatMap]
    exact congrArg _ (List.map_congr_left hrows.feeds)
  -- the table, with the number of tokens of each row
  set table := jobs.map fun j => (s.slotRow j, (s.job j).numTokens) with htable
  have hcounts : table.map Prod.snd = jobs.map fun j => (s.job j).numTokens := by
    rw [htable, List.map_map]
    rfl
  have hrow : ∀ x ∈ table, x.2 ≠ 0 → x.1.length = x.2 := by
    intro x hx
    obtain ⟨j, hj, rfl⟩ := List.mem_map.mp hx
    exact hrows.row j hj
  have htoken : table.flatMap (fun x => tokenRow x.1 x.2) = jobs.flatMap s.newSlots := by
    rw [htable, List.flatMap_map]
    rfl
  by_cases hbuf : s.attnFunc = .xFormersWithBuffer
  · -- one entry per token, checked by the mover
    have hmap : (s.initIterationState jobs).slotMapping = table.flatMap Prod.fst := by
      simp only [initIterationState, hbuf]
      rw [htable, List.flatMap_map]
      exact congrArg List.flatten (List.map_congr_left (hrows.block (hone hbuf)))
    have hmaplen := ((forward_ok_iff.mp hf).1 hbuf).length
    rw [hmaplen, List.take_length, hmap, flatMap_tokenRow hrow, htoken]
    rw [hcounts, ← hlen, hmaplen, hmap]
  · have hmap : (s.initIterationState jobs).slotMapping =
        table.flatMap fun x => padToMax x.1 (maxLength (jobs.map s.slotRow)) 0 := by
      rw [htable, List.flatMap_map]
      rcases hfun : s.attnFunc with _ | _ | _
      · exact (hbuf hfun).elim
      · simp only [initIterationState, hfun, List.flatMap_map]
      · simp only [initIterationState, hfun, List.flatMap_map]
    have htake := take_padded_rows (maxLength (jobs.map s.slotRow)) table hrow
      (fun x hx => by
        obtain ⟨j, hj, rfl⟩ := List.mem_map.mp hx
        exact length_le_maxLength (List.mem_map_of_mem hj))
      (hcounts ▸ halign hbuf)
    rw [hmap, hlen, ← hcounts, htake, htoken]

/-- What an iteration stores: job by job, the fed tokens in the new slots. -/
lemma destination_pairs {jobs : List JobRef} {ids : List ℕ} (hrows : Rows s jobs)
    (hids : ids = jobs.flatMap s.feeds)
    (hone : s.attnFunc = .xFormersWithBuffer → s.mem.blockSize = 1)
    (halign : s.attnFunc ≠ .xFormersWithBuffer →
      RowsAligned (maxLength (jobs.map s.slotRow)) (jobs.map fun j => (s.job j).numTokens))
    (hf : s.forward (s.initIterationState jobs) ids = .ok s') :
    s' = { s with
      kvCache := writeKv s.kvCache (jobs.flatMap fun j => (s.newSlots j).zip (s.feeds j)) } := by
  have hpairs : (jobs.flatMap s.newSlots).zip ids =
      jobs.flatMap fun j => (s.newSlots j).zip (s.feeds j) := by
    rw [hids]
    exact zip_flatMap _ _ jobs fun j hj => (hrows.slots j hj).trans (hrows.feeds j hj).symm
  have htake := slotMapping_take hrows hids hone halign hf
  rw [(forward_ok_iff.mp hf).2, zip_take_length, htake, hpairs]

/-! ## The cache at the forward pass -/

/-- The change of the contexts and the cache up to the forward pass. -/
structure ForwardView (s : BuiltinEngine) (jobs : List JobRef) (s' : BuiltinEngine) : Prop where
  other : ∀ r, (∀ j ∈ jobs, (s.job j).context ≠ some r) → s'.mem.obj r = s.mem.obj r
  fed : ∀ j ∈ jobs, ∀ r, (s.job j).context = some r →
    ∃ sl new, FedBy (s.job j) (s.mem.obj r) (s'.mem.obj r) sl new
  stored : ∀ r ∈ s.registered, Stored s'.kvCache (s'.mem.obj r)

/-- Writing the fed tokens of distinct contexts keeps what was stored and adds them. -/
lemma stored_after_writes (h : TreeInv bs s) (jobs : List JobRef) (old : CtxRef → BlockContext)
    (hbound : BoundTo s s.registered jobs)
    (hnodup : (jobs.map fun j => (s.job j).context).Nodup)
    (hother : ∀ r, (∀ j ∈ jobs, (s.job j).context ≠ some r) → s.mem.obj r = old r)
    (hfed : ∀ j ∈ jobs, ∀ r, (s.job j).context = some r →
      FedBy (s.job j) (old r) (s.mem.obj r) (s.newSlots j) (s.feeds j))
    (hbal : ∀ r ∈ s.registered, (old r).tokenKvSlotIds.length ≤ (old r).tokenIds.length)
    (hstored : ∀ r ∈ s.registered, Stored s.kvCache (old r)) :
    ∀ r ∈ s.registered, Stored (writeKv s.kvCache
      (jobs.flatMap fun j => (s.newSlots j).zip (s.feeds j))) (s.mem.obj r) := by
  set pairs := jobs.flatMap fun j => (s.newSlots j).zip (s.feeds j) with hpairs
  have hlen : ∀ j ∈ jobs, (s.newSlots j).length = (s.feeds j).length := by
    intro j hj
    obtain ⟨r, -, hctx⟩ := hbound j hj
    exact (hfed j hj r hctx).length_sl.trans (hfed j hj r hctx).length_new.symm
  have hfst : pairs.map Prod.fst = jobs.flatMap s.newSlots := by
    rw [hpairs, List.map_flatMap]
    exact congrArg List.flatten (List.map_congr_left fun j hj =>
      List.map_fst_zip (hlen j hj).le)
  have hcontext : ∀ j ∈ jobs, (s.job j).context = some (s.jobContext j) ∧
      s.jobContext j ∈ s.registered := by
    intro j hj
    obtain ⟨r, hr, hctx⟩ := hbound j hj
    rw [jobContext_eq hctx]
    exact ⟨hctx, hr⟩
  -- new slots are slots of the job's own context
  have hnew : ∀ j ∈ jobs, s.newSlots j <:+ (s.mem.obj (s.jobContext j)).tokenKvSlotIds :=
    fun j hj => ⟨_, (hfed j hj _ (hcontext j hj).1).slots.symm⟩
  have hdistinct : (pairs.map Prod.fst).Nodup := by
    rw [hfst]
    exact h.mem.nodup_flatMap (fun j hj => (hcontext j hj).2)
      (nodup_of_contexts (fun j hj => (hcontext j hj).1) hnodup) hnew
  -- a slot written for another context is not a slot of this one
  have hforeign : ∀ r ∈ s.registered, ∀ slot ∈ (s.mem.obj r).tokenKvSlotIds,
      slot ∈ pairs.map Prod.fst → ∃ j ∈ jobs, (s.job j).context = some r ∧ slot ∈ s.newSlots j := by
    intro r hr slot hslot hmem
    rw [hfst, List.mem_flatMap] at hmem
    obtain ⟨j, hj, hjs⟩ := hmem
    obtain ⟨hctx, hreg⟩ := hcontext j hj
    rw [h.mem.eq_of_mem_slots hreg hr ((hnew j hj).subset hjs) hslot] at hctx
    exact ⟨j, hj, hctx, hjs⟩
  intro r hr i slot hslot
  have hmemslot : slot ∈ (s.mem.obj r).tokenKvSlotIds := List.mem_of_getElem? hslot
  by_cases hjob : ∃ j ∈ jobs, (s.job j).context = some r
  · obtain ⟨j, hj, hctx⟩ := hjob
    have hf := hfed j hj r hctx
    have htake : ((old r).tokenIds.take (old r).tokenKvSlotIds.length).length =
        (old r).tokenKvSlotIds.length := by
      rw [List.length_take]
      exact Nat.min_eq_left (hbal r hr)
    have hall := h.mem.nodup_slots hr
    rw [hf.slots] at hslot hall
    rw [hf.tokens]
    rcases Nat.lt_or_ge i (old r).tokenKvSlotIds.length with hi | hi
    · rw [List.getElem?_append_left hi] at hslot
      rw [List.getElem?_append_left (htake.symm ▸ hi), List.getElem?_take_of_lt hi,
        writeKv_of_notMem _ _ ?_, hstored r hr i slot hslot]
      intro hmem
      obtain ⟨j', hj', hctx', hjs⟩ := hforeign r hr slot hmemslot hmem
      have hjj : j' = j := List.inj_on_of_nodup_map hnodup hj' hj (hctx'.trans hctx.symm)
      subst hjj
      exact (List.nodup_append.mp hall).2.2 slot (List.mem_of_getElem? hslot) slot hjs rfl
    · rw [List.getElem?_append_right hi] at hslot
      rw [List.getElem?_append_right (htake.symm ▸ hi), htake]
      have hlt : i - (old r).tokenKvSlotIds.length < (s.feeds j).length := by
        rw [← hlen j hj]
        exact (List.getElem?_eq_some_iff.mp hslot).1
      rw [List.getElem?_eq_getElem hlt]
      refine writeKv_of_mem _ _ hdistinct (List.mem_flatMap.mpr ⟨j, hj, ?_⟩)
      refine List.mem_iff_getElem?.mpr ⟨i - (old r).tokenKvSlotIds.length, ?_⟩
      rw [List.getElem?_zip_eq_some]
      exact ⟨hslot, List.getElem?_eq_getElem hlt⟩
  · have hobj := hother r fun j hj hctx => hjob ⟨j, hj, hctx⟩
    rw [writeKv_of_notMem _ _ fun hmem => ?_]
    · rw [hobj] at hslot ⊢
      exact hstored r hr i slot hslot
    · obtain ⟨j, hj, hctx, -⟩ := hforeign r hr slot hmemslot hmem
      exact hjob ⟨j, hj, hctx⟩

/-- The lengths of the rows of the slot table are what the condition on the batch counts. -/
lemma length_slotRow (h : TreeInv bs s) {s₀ : BuiltinEngine} {jobs : List JobRef} {j : JobRef}
    {r : CtxRef} {old sl : List ℕ} (hr : r ∈ s.registered) (hctx : (s.job j).context = some r)
    (hslots : (s.mem.obj r).tokenKvSlotIds = old ++ sl)
    (hsl : sl.length = (s.job j).numTokens) (hctx₀ : (s₀.job j).context = some r)
    (hnum : (s₀.job j).numTokens = (s.job j).numTokens)
    (hlin : s.mem.lineage r = s₀.mem.lineage r)
    (hlen : ∀ r, s.mem.getThisContextLen r = s₀.mem.getThisContextLen r + s₀.added jobs r) :
    (s.slotRow j).length = s₀.rowLength jobs j := by
  obtain ⟨-, hne, hzero⟩ := slotRow_spec h hr hctx hslots hsl
  have hrow : s₀.jobContext j = r := jobContext_eq hctx₀
  rw [rowLength, hnum, hrow]
  split_ifs with hn
  · rw [hzero hn, h.length_chain hr, contextLenAfter, hlin]
    exact congrArg _ (List.map_congr_left fun a _ => hlen a)
  · rw [hne hn, hsl]

/-- The condition on a batch, in batch order. -/
lemma BatchGuard.distinct_fillsFirst {batch : List JobRef} (hg : BatchGuard s batch) :
    ((s.fillsFirst batch).map fun j => (s.job j).context).Nodup :=
  (((s.fillsFirst_perm batch).map _).nodup_iff).mpr hg.distinct

/-- The engine `s₃` before the forward pass of a batch: the slots are allotted, the first tokens are
sampled, and the cache is that of `s` still. -/
structure FedBatch (bs : ℕ) (s : BuiltinEngine) (jobs : List JobRef) (s₃ : BuiltinEngine) :
    Prop where
  tree : TreeInv bs s₃
  registered : s₃.registered = s.registered
  bound : BoundTo s s.registered jobs
  nodup : (jobs.map fun j => (s.job j).context).Nodup
  kvCache : s₃.kvCache = s.kvCache
  attnFunc : s₃.attnFunc = s.attnFunc
  context : ∀ j, (s₃.job j).context = (s.job j).context
  kind : ∀ j, (s₃.job j).kind = (s.job j).kind
  other : ∀ r, (∀ j ∈ jobs, (s.job j).context ≠ some r) → s₃.mem.obj r = s.mem.obj r
  lengthRow : ∀ j ∈ jobs, (s₃.slotRow j).length = s.rowLength jobs j
  fed : ∀ j ∈ jobs, ∀ r, (s.job j).context = some r →
    FedBy (s.job j) (s.mem.obj r) (s₃.mem.obj r) (s₃.newSlots j) (s₃.feeds j)

namespace FedBatch

variable {s₃ : BuiltinEngine} {jobs : List JobRef}

lemma numTokens (h : FedBatch bs s jobs s₃) (j : JobRef) :
    (s₃.job j).numTokens = (s.job j).numTokens := by
  simp only [PrimitiveJob.numTokens, h.kind]

lemma rows (h : FedBatch bs s jobs s₃) : Rows s₃ jobs := by
  refine ⟨fun j hj hn => ?_, fun hone j hj => ?_, fun j hj => ?_, fun j hj => ?_⟩
  · rw [h.lengthRow j hj, rowLength, ← h.numTokens, if_neg hn]
  · obtain ⟨r, hr, hctx⟩ := h.bound j hj
    have hctx₃ : s₃.jobContext j = r := jobContext_eq ((h.context j).trans hctx)
    have hinv : TreeInv 1 s₃ := by
      rw [h.tree.blockSize_eq] at hone
      exact hone ▸ h.tree
    rw [blockRow, slotRow, hctx₃, hinv.blocks_eq_slots (h.registered ▸ hr)]
  · obtain ⟨r, -, hctx⟩ := h.bound j hj
    rw [h.numTokens]
    exact (h.fed j hj r hctx).length_new
  · obtain ⟨r, -, hctx⟩ := h.bound j hj
    rw [h.numTokens]
    exact (h.fed j hj r hctx).length_sl

/-- The forward pass writes the fed tokens to the new slots. -/
lemma forward_eq (h : FedBatch bs s jobs s₃) {ids : List ℕ} (hids : s₃.inputIds jobs = .ok ids)
    (hone : s.attnFunc = .xFormersWithBuffer → bs = 1)
    (halign : s.attnFunc ≠ .xFormersWithBuffer →
      RowsAligned ((jobs.map (s.rowLength jobs)).foldr max 0)
        (jobs.map fun j => (s.job j).numTokens))
    (hfwd : s₃.forward (s₃.initIterationState jobs) ids = .ok s') :
    s' = { s₃ with
      kvCache := writeKv s₃.kvCache (jobs.flatMap fun j => (s₃.newSlots j).zip (s₃.feeds j)) } := by
  have hmax : maxLength (jobs.map s₃.slotRow) = (jobs.map (s.rowLength jobs)).foldr max 0 := by
    rw [maxLength_eq, List.map_map]
    exact congrArg _ (List.map_congr_left h.lengthRow)
  have hcount : (jobs.map fun j => (s₃.job j).numTokens) = jobs.map fun j => (s.job j).numTokens :=
    List.map_congr_left fun j _ => h.numTokens j
  refine destination_pairs h.rows (inputIds_spec jobs hids).1
    (fun hbuf => h.tree.blockSize_eq.trans (hone (h.attnFunc ▸ hbuf))) (fun hbuf => ?_) hfwd
  rw [hmax, hcount]
  exact halign (h.attnFunc ▸ hbuf)

lemma stored (h : FedBatch bs s jobs s₃) (hkv : s.KvInv) : ∀ r ∈ s.registered,
    Stored (writeKv s₃.kvCache (jobs.flatMap fun j => (s₃.newSlots j).zip (s₃.feeds j)))
      (s₃.mem.obj r) := by
  rw [← h.registered]
  have hkv₃ : ∀ r ∈ s₃.registered, ObjInv s₃.kvCache (s.mem.obj r) := fun r hr => by
    rw [h.kvCache]
    exact hkv r (h.registered ▸ hr)
  refine stored_after_writes h.tree jobs s.mem.obj (fun j hj => ?_) ?_ (fun r hr => ?_)
    (fun j hj r hctx => ?_) (fun r hr => (hkv₃ r hr).slots_le) fun r hr => (hkv₃ r hr).stored
  · obtain ⟨r, hr, hctx⟩ := h.bound j hj
    exact ⟨r, h.registered ▸ hr, (h.context j).trans hctx⟩
  · simpa only [h.context] using h.nodup
  · exact h.other r fun j hj hctx => hr j hj ((h.context j).trans hctx)
  · have hf := h.fed j hj r ((h.context j).symm.trans hctx)
    refine ⟨hf.slots, hf.length_sl.trans (h.numTokens j).symm,
      hf.length_new.trans (h.numTokens j).symm, hf.tokens, fun hgen => hf.hidden ?_⟩
    simpa only [PrimitiveJob.isGenerate, h.kind] using hgen

end FedBatch

/-- The engine before the forward pass of an admitted batch. -/
lemma fedBatch_of_prepared (h : TreeInv bs s) (hkv : s.KvInv) {jobs first : List JobRef}
    {s₂ s₃ : BuiltinEngine} {tokens : ℕ → ℕ} {ids : List ℕ}
    (hbound : BoundTo s s.registered jobs)
    (hnodup : (jobs.map fun j => (s.job j).context).Nodup)
    (hfed : ∀ j ∈ jobs, ∀ r, (s.job j).context = some r → Pending (s.mem.obj r) →
      ∃ j' ∈ jobs, (s.job j').isGenerate = true ∧ (s.job j').context = some r)
    (hprep : s.prepareJobs jobs = .ok (first, s₂))
    (hfirst : s₂.firstSampling tokens 0 first = .ok s₃) (hids : s₃.inputIds jobs = .ok ids)
    (hparent : ∀ r, (s₃.mem.obj r).parentContext = (s.mem.obj r).parentContext)
    (hlength : ∀ r, s₃.mem.getThisContextLen r = s.mem.getThisContextLen r + s.added jobs r) :
    FedBatch bs s jobs s₃ := by
  obtain ⟨hkv₃, hother, hfed⟩ := prepared_fed h hkv hbound hnodup hfed hprep hfirst hids
  obtain ⟨hmem₂, hext⟩ := prepareJobs_spec jobs h.mem hbound hprep
  have hq := firstSampling_quiet hfirst
  have hinv₃ := (h.extended hmem₂ hext).quiet hq
  have hreg₃ : s₃.registered = s.registered := by rw [hq.registered, hext.rest]; rfl
  have hctx₃ : ∀ j, (s₃.job j).context = (s.job j).context := fun j => by
    rw [(hq.job j).2.1, hext.rest]
    rfl
  have hkind₃ : ∀ j, (s₃.job j).kind = (s.job j).kind := fun j => by
    rw [(hq.job j).2.2, hext.rest]
    rfl
  have hnum : ∀ j, (s₃.job j).numTokens = (s.job j).numTokens := fun j => by
    simp only [PrimitiveJob.numTokens, hkind₃]
  refine ⟨hinv₃, hreg₃, hbound, hnodup, hkv₃, by rw [hq.attnFunc, hext.rest]; rfl, hctx₃, hkind₃,
    hother, fun j hj => ?_, fun j hj r hctx => ?_⟩
  · obtain ⟨r, hr, hctx⟩ := hbound j hj
    obtain ⟨sl, hsl⟩ := hfed j hj r hctx
    exact length_slotRow hinv₃ (hreg₃ ▸ hr) ((hctx₃ j).trans hctx) hsl.slots
      (hsl.length_sl.trans (hnum j).symm) hctx (hnum j).symm (KvMemory.lineage_congr hparent r)
      hlength
  · obtain ⟨r', hr', hctx'⟩ := hbound j hj
    obtain rfl := Option.some.inj (hctx.symm.trans hctx')
    obtain ⟨sl, hsl⟩ := hfed j hj r hctx
    obtain ⟨hnew, -⟩ := slotRow_spec hinv₃ (hreg₃ ▸ hr') ((hctx₃ j).trans hctx) hsl.slots
      (hsl.length_sl.trans (hnum j).symm)
    exact hnew ▸ hsl

/-- The engine before the forward pass of an iteration, and the condition on its batch. -/
lemma exists_fedBatch (h : TreeInv bs s) (hkv : s.KvInv) {o : ModelOutput} {jobs : List JobRef}
    (hg : KvGuard s (.engineIter o)) (hf : s.iterForward o = .ok (jobs, s')) :
    ∃ batch sched s₃ ids, BatchGuard s batch ∧ jobs = s.fillsFirst batch ∧
      FedBatch bs { s with scheduler := sched } jobs s₃ ∧ s₃.inputIds jobs = .ok ids ∧
      s₃.forward (s₃.initIterationState jobs) ids = .ok s' := by
  have hat := h.iterForward hf
  obtain ⟨batch, s₁, first, s₂, s₃, hbatch, hjobs, hprep, hfirst, ids, hids, hfwd⟩ :=
    iterForward_cases hf
  have hguard := hg batch s₁ hbatch
  obtain ⟨hinv₁, hbound, sched, rfl, -⟩ := h.scheduleBatch hbatch
  have hjobs : jobs = s.fillsFirst batch := hjobs
  have hbound₁ : BoundTo { s with scheduler := sched } s.registered jobs := fun j hj => by
    rw [hjobs] at hj
    exact hbound j (mem_fillsFirst.mp hj)
  have hnodup : (jobs.map fun j => (s.job j).context).Nodup :=
    hjobs ▸ hguard.distinct_fillsFirst
  have hmem₃ : s'.mem = s₃.mem := (forward_eq hfwd).1
  refine ⟨batch, sched, s₃, ids, hguard, hjobs, fedBatch_of_prepared hinv₁ hkv hbound₁ hnodup
    (fun j hj r hctx hp => ?_) hprep hfirst hids (fun a => hmem₃ ▸ (hat.links a).2.1)
    (hmem₃ ▸ hat.length), hids, hfwd⟩
  rw [hjobs] at hj
  obtain ⟨j', hj', hrest⟩ := hguard.fed j (mem_fillsFirst.mp hj) r hctx r
    (s.mem.self_mem_lineage r) hp
  exact ⟨j', hjobs ▸ mem_fillsFirst.mpr hj', hrest⟩

/-- The contexts and the cache at the forward pass of an admitted batch. -/
lemma forwardView (h : TreeInv bs s) (hkv : s.KvInv)
    (hone : s.attnFunc = .xFormersWithBuffer → bs = 1) {o : ModelOutput} {jobs : List JobRef}
    (hg : KvGuard s (.engineIter o)) (hf : s.iterForward o = .ok (jobs, s')) :
    ForwardView s jobs s' ∧ (jobs.map fun j => (s.job j).context).Nodup ∧
      ∀ j ∈ jobs, ∀ r, (s.job j).context = some r → ∀ a ∈ s.mem.lineage r,
        Pending (s.mem.obj a) → ∃ j' ∈ jobs, (s.job j').context = some a := by
  obtain ⟨batch, sched, s₃, ids, hguard, hjobs, hbatch₃, hids, hfwd⟩ := exists_fedBatch h hkv hg hf
  have heq := hbatch₃.forward_eq hids hone (fun hbuf => hjobs ▸ hguard.aligned hbuf) hfwd
  refine ⟨⟨fun r hr => ?_, fun j hj r hctx => ?_, fun r hr => ?_⟩, hbatch₃.nodup,
    fun j hj r hctx a ha hp => ?_⟩
  · rw [(forward_eq hfwd).1]
    exact hbatch₃.other r hr
  · rw [(forward_eq hfwd).1]
    exact ⟨_, _, hbatch₃.fed j hj r hctx⟩
  · rw [heq]
    exact hbatch₃.stored hkv r hr
  · rw [hjobs] at hj
    obtain ⟨j', hj', -, hctx'⟩ := hguard.fed j (mem_fillsFirst.mp hj) r hctx a ha hp
    exact ⟨j', hjobs ▸ mem_fillsFirst.mpr hj', hctx'⟩

/-! ## The view of a chain -/

/-- A context with as many tokens as slots shows its tokens. -/
lemma Stored.map_eq {kv : ℕ → Option ℕ} {c : BlockContext} (h : Stored kv c)
    (hlen : c.tokenIds.length = c.tokenKvSlotIds.length) :
    c.tokenKvSlotIds.map kv = c.tokenIds.map some := by
  refine List.ext_getElem? fun i => ?_
  rw [List.getElem?_map, List.getElem?_map]
  rcases hs : c.tokenKvSlotIds[i]? with _ | slot
  · rw [List.getElem?_eq_none_iff] at hs
    rw [List.getElem?_eq_none (hlen ▸ hs)]
    rfl
  · have hlt : i < c.tokenIds.length := hlen ▸ (List.getElem?_eq_some_iff.mp hs).1
    rw [Option.map_some, h i slot hs, List.getElem?_eq_getElem hlt]
    rfl

/-- The list of slots a job attends to, as the source takes it. -/
def attendedSlots (m : KvMemory) (r : CtxRef) : List ℕ :=
  (m.getContextSlotIds r).take (m.getContextLen r)

/-- The KV view of a context: its attended slots hold the tokens of its chain. -/
def KvView (s : BuiltinEngine) (r : CtxRef) : Prop :=
  (attendedSlots s.mem r).map s.kvCache = (s.mem.getContextTokenIds r).map some

/-- The view of a chain of balanced contexts. -/
lemma kvView_of_balanced (h : TreeInv bs s) {r : CtxRef} (hr : r ∈ s.registered)
    (hbal : ∀ a ∈ s.mem.lineage r,
      (s.mem.obj a).tokenIds.length = (s.mem.obj a).tokenKvSlotIds.length)
    (hstored : ∀ a ∈ s.registered, Stored s.kvCache (s.mem.obj a)) : KvView s r := by
  have hlen : s.mem.getContextLen r = (s.mem.getContextSlotIds r).length := by
    rw [KvMemory.getContextLen_eq, h.length_chain hr, KvMemory.getContextBlockIds,
      KvMemory.gather_eq_lineage, List.length_flatMap]
    rfl
  rw [KvView, attendedSlots, hlen, List.take_length, KvMemory.getContextSlotIds,
    KvMemory.getContextTokenIds, KvMemory.gather_eq_lineage, KvMemory.gather_eq_lineage,
    List.map_flatMap, List.map_flatMap]
  refine congrArg List.flatten (List.map_congr_left fun a ha => ?_)
  exact (hstored a (h.rooted.mem_of_lineage hr a ha)).map_eq (hbal a ha)

/-- The contexts of the chains of an admitted batch have as many tokens as slots. -/
lemma balanced_of_forward (h : TreeInv bs s) (hkv : s.KvInv)
    (hone : s.attnFunc = .xFormersWithBuffer → bs = 1) {o : ModelOutput} {jobs : List JobRef}
    (hg : KvGuard s (.engineIter o)) (hf : s.iterForward o = .ok (jobs, s')) {j : JobRef}
    (hj : j ∈ jobs) {r : CtxRef} (hctx : (s'.job j).context = some r) :
    ∀ a ∈ s'.mem.lineage r, (s'.mem.obj a).tokenIds.length =
      (s'.mem.obj a).tokenKvSlotIds.length := by
  obtain ⟨hview, -, hpend⟩ := forwardView h hkv hone hg hf
  have hat := h.iterForward hf
  obtain ⟨r', hr, hctx'⟩ := hat.bound j hj
  obtain rfl := Option.some.inj (hctx.symm.trans hctx')
  intro a ha
  have ha' : a ∈ s.mem.lineage r := by
    rwa [KvMemory.lineage_congr (fun a => (hat.links a).2.1) r] at ha
  have hareg : a ∈ s.registered := by
    rw [← hat.registered]
    exact hat.tree.rooted.mem_of_lineage hr a ha
  by_cases hjob : ∃ j' ∈ jobs, (s.job j').context = some a
  · obtain ⟨j', hj', hctx'⟩ := hjob
    obtain ⟨sl, new, hfed⟩ := hview.fed j' hj' a hctx'
    exact hfed.balanced (hkv a hareg).slots_le
  · rw [hview.other a fun j' hj' hctx' => hjob ⟨j', hj', hctx'⟩]
    exact (hkv a hareg).length_of_settled fun hp =>
      hjob (hpend j hj r ((hat.job j).1.symm.trans hctx) a ha' hp)

/-- The view of every job of an admitted batch. -/
lemma kvView_of_forward (h : TreeInv bs s) (hkv : s.KvInv)
    (hone : s.attnFunc = .xFormersWithBuffer → bs = 1) {o : ModelOutput} {jobs : List JobRef}
    (hg : KvGuard s (.engineIter o)) (hf : s.iterForward o = .ok (jobs, s')) :
    ∀ j ∈ jobs, ∃ r, (s'.job j).context = some r ∧ KvView s' r := by
  obtain ⟨hview, -, -⟩ := forwardView h hkv hone hg hf
  have hat := h.iterForward hf
  intro j hj
  obtain ⟨r, hr, hctx⟩ := hat.bound j hj
  exact ⟨r, hctx, kvView_of_balanced hat.tree hr (balanced_of_forward h hkv hone hg hf hj hctx)
    fun a ha => hview.stored a (hat.registered ▸ ha)⟩

/-! ## The invariant of every run -/

/-- The last loop of `run_iter`: a hidden state for a Fill, a sampled token for a Generate. -/
lemma updateJobs_objs {o : ModelOutput} {n : ℕ} (js : List JobRef) :
    ∀ {s : BuiltinEngine} {i : ℕ}, (js.map fun j => (s.job j).context).Nodup →
      s.updateJobs o n i js = .ok s' →
      s'.kvCache = s.kvCache ∧
      (∀ r, (∀ j ∈ js, (s.job j).context ≠ some r) → s'.mem.obj r = s.mem.obj r) ∧
      ∀ j ∈ js, ∀ r, (s.job j).context = some r →
        if (s.job j).isGenerate then ∃ t, s'.mem.obj r =
          { s.mem.obj r with tokenIds := (s.mem.obj r).tokenIds ++ [t] }
        else ∃ hs, s'.mem.obj r = { s.mem.obj r with lastHiddenState := some hs } := by
  induction js with
  | nil =>
      intro s i _ hok
      obtain rfl := Except.ok.inj hok
      exact ⟨rfl, fun _ _ => rfl, fun j hj => by simp at hj⟩
  | cons j js ih =>
      intro s i hnodup hok
      rw [updateJobs] at hok
      split at hok
      · simp at hok
      · rename_i s₁ hup
        have hq := updateJob_quiet hup
        -- the effect of one round
        obtain ⟨r, c, hctx, hkv₁, hmem₁, hc⟩ : ∃ r c, (s.job j).context = some r ∧
            s₁.kvCache = s.kvCache ∧ s₁.mem = s.mem.set r c ∧
            (if (s.job j).isGenerate then ∃ t, c =
              { s.mem.obj r with tokenIds := (s.mem.obj r).tokenIds ++ [t] }
            else ∃ hs, c = { s.mem.obj r with lastHiddenState := some hs }) := by
          rw [updateJob] at hup
          split at hup
          · simp at hup
          · rename_i r hctx
            split at hup
            · rename_i tokenIds hkind
              obtain rfl := Except.ok.inj hup
              refine ⟨r, _, hctx, rfl, rfl, ?_⟩
              rw [if_neg (by simp [PrimitiveJob.isGenerate, hkind])]
              exact ⟨_, rfl⟩
            · rename_i cfg hkind
              split at hup
              · simp at hup
              · rename_i s₂ hput
                rw [putToken, hctx] at hput
                obtain rfl := Except.ok.inj hput
                refine ⟨r, { s.mem.obj r with
                  tokenIds := (s.mem.obj r).tokenIds ++ [o.nextTokens (i - n)] }, hctx, ?_⟩
                rw [if_pos (by simp [PrimitiveJob.isGenerate, hkind])]
                split at hup
                · simp at hup
                · obtain rfl := Except.ok.inj hup
                  exact ⟨rfl, rfl, _, rfl⟩
                · obtain rfl := Except.ok.inj hup
                  exact ⟨rfl, rfl, _, rfl⟩
        rw [List.map_cons, List.nodup_cons] at hnodup
        have hne : ∀ x ∈ js, (s.job x).context ≠ some r := fun x hx he =>
          hnodup.1 (List.mem_map.mpr ⟨x, hx, he.trans hctx.symm⟩)
        have hctxs := fun x => (hq.job x).2.1
        have hgens : ∀ x, (s₁.job x).isGenerate = (s.job x).isGenerate := fun x => by
          simp only [PrimitiveJob.isGenerate, (hq.job x).2.2]
        obtain ⟨hkv, hother, hself⟩ := ih (by simpa only [hctxs] using hnodup.2) hok
        simp only [hctxs, hgens] at hother hself
        refine ⟨hkv.trans hkv₁, fun r' hr' => ?_, fun x hx r' hr' => ?_⟩
        · have hr'' : r' ≠ r := fun he => hr' j List.mem_cons_self (he ▸ hctx)
          rw [hother r' fun x hx => hr' x (List.mem_cons_of_mem _ hx), hmem₁,
            KvMemory.set_obj_of_ne _ hr'']
        · rcases List.mem_cons.mp hx with rfl | hx
          · obtain rfl := Option.some.inj (hctx.symm.trans hr')
            rw [hother r hne, hmem₁, KvMemory.set_obj_self]
            exact hc
          · have hr'' : r' ≠ r := fun he => hne x hx (he ▸ hr')
            have hs := hself x hx r' hr'
            rw [hmem₁, KvMemory.set_obj_of_ne _ hr''] at hs
            exact hs

/-- A context after its job was updated. -/
lemma objInv_updated {kv : ℕ → Option ℕ} {c c' : BlockContext} {gen : Bool}
    (hstored : Stored kv c) (hbal : c.tokenIds.length = c.tokenKvSlotIds.length)
    (hhid : gen = true → c.lastHiddenState = none)
    (hc : if gen then ∃ t, c' = { c with tokenIds := c.tokenIds ++ [t] }
      else ∃ hs, c' = { c with lastHiddenState := some hs }) : ObjInv kv c' := by
  cases gen with
  | true =>
      rw [if_pos rfl] at hc
      obtain ⟨t, rfl⟩ := hc
      have hlen : (c.tokenIds ++ [t]).length = c.tokenKvSlotIds.length + 1 := by
        rw [List.length_append, hbal]
        rfl
      refine ⟨.inr hlen, fun i slot hi => ?_, fun hp => ?_, fun _ => hhid rfl⟩
      · have hlt : i < c.tokenIds.length := hbal ▸ (List.getElem?_eq_some_iff.mp hi).1
        rw [List.getElem?_append_left hlt]
        exact hstored i slot hi
      · exact (hp (by rw [Pending, hlen]; exact Nat.lt_succ_self _)).elim
  | false =>
      rw [if_neg (by simp)] at hc
      obtain ⟨hs, rfl⟩ := hc
      refine ⟨.inl hbal, hstored, fun _ _ => by simp, fun hp => ?_⟩
      exact absurd hp (by rw [Pending, hbal]; exact Nat.lt_irrefl _)

lemma KvInv.engineIter (hkv : s.KvInv) (h : TreeInv bs s)
    (hone : s.attnFunc = .xFormersWithBuffer → bs = 1) {o : ModelOutput}
    (hg : KvGuard s (.engineIter o)) (hi : s.engineIter o = .ok s') : s'.KvInv := by
  rcases engineIter_cases hi with rfl | ⟨jobs, s₁, s₂, sched, hf, hup, rfl, -⟩
  · exact hkv
  · obtain ⟨hview, hnodup, -⟩ := forwardView h hkv hone hg hf
    have hat := h.iterForward hf
    have hq := updateJobs_quiet hup
    have hgen₁ : ∀ j, (s₁.job j).isGenerate = (s.job j).isGenerate := fun j => by
      simp only [PrimitiveJob.isGenerate, (hat.job j).2]
    obtain ⟨hkv₂, hother, hself⟩ :=
      updateJobs_objs jobs (by simpa only [(hat.job _).1] using hnodup) hup
    simp only [(hat.job _).1, hgen₁] at hother hself
    intro r hr
    have hr' : r ∈ s.registered := by
      rw [← hat.registered, ← hq.registered]
      exact hr
    have hstored := hview.stored r hr'
    show ObjInv s₂.kvCache (s₂.mem.obj r)
    rw [hkv₂]
    by_cases hjob : ∃ j ∈ jobs, (s.job j).context = some r
    · obtain ⟨j, hj, hctx⟩ := hjob
      obtain ⟨sl, new, hfed⟩ := hview.fed j hj r hctx
      exact objInv_updated hstored (hfed.balanced (hkv r hr').slots_le) hfed.hidden
        (hself j hj r hctx)
    · have hno : ∀ j ∈ jobs, (s.job j).context ≠ some r := fun j hj hctx => hjob ⟨j, hj, hctx⟩
      rw [hother r hno, hview.other r hno]
      rw [hview.other r hno] at hstored
      exact ⟨(hkv r hr').balance, hstored, (hkv r hr').settled, (hkv r hr').pending⟩

/-- An adoption that needs no padding leaves the parent's tables alone. -/
lemma adopt_no_padding (h : TreeInv bs s) {p : CtxRef} {i : ℕ} {res : Except PyError Unit}
    {m : KvMemory} (hp : p ∈ s.registered) (had : s.mem.adopt p i = (res, m))
    (hg : (s.mem.obj p).padded = false → s.mem.blockSize ∣ s.mem.getThisContextLen p) :
    KvMemory.GrownBy s.mem m p [] [] := by
  obtain ⟨hinv, bl, sl, hgrow, -, hpadded, hle, -⟩ := KvMemory.adopt_spec i h.mem hp
  rw [had] at hinv hgrow hpadded
  have hbl : bl = [] := by
    rcases hpad : (s.mem.obj p).padded with _ | _
    · rw [KvMemory.totalLen_of_dvd h.mem.blockSize_pos (hg hpad), Nat.sub_self,
        Nat.le_zero] at hle
      exact List.length_eq_zero_iff.mp hle
    · exact (hpadded hpad).2.1
  have hsl : sl = [] := by
    have h1 := (h.mem.paged p hp).length_eq
    have h2 := (hinv.paged p hp).length_eq
    have hs : (m.obj p).tokenKvSlotIds = _ := hgrow.self.slots
    have hb : (m.obj p).tokenKvBlockIds = _ := hgrow.self.blocks
    rw [hs, hb, hbl, List.length_append, List.append_nil, h1] at h2
    exact List.length_eq_zero_iff.mp (by omega)
  rwa [hbl, hsl] at hgrow

/-- What `ObjInv` reads of a context. -/
lemma ObjInv.congr {kv : ℕ → Option ℕ} {c c' : BlockContext} (h : ObjInv kv c)
    (hext : KvMemory.Extends c c' [] []) : ObjInv kv c' := by
  have hslots : c'.tokenKvSlotIds = c.tokenKvSlotIds := by rw [hext.slots, List.append_nil]
  refine ⟨by rw [hslots, hext.tokenIds]; exact h.balance, ?_, ?_, ?_⟩
  · rw [Stored, hslots, hext.tokenIds]
    exact h.stored
  · rw [Pending, hslots, hext.tokenIds, hext.lastHiddenState]
    exact h.settled
  · rw [Pending, hslots, hext.tokenIds, hext.lastHiddenState]
    exact h.pending

lemma objInv_empty (kv : ℕ → Option ℕ) {c : BlockContext} (hs : c.tokenKvSlotIds = [])
    (ht : c.tokenIds = []) : ObjInv kv c := by
  refine ⟨.inl (by rw [hs, ht]), fun i slot hi => ?_, fun _ hne => (hne ht).elim, fun hp => ?_⟩
  · simp [hs] at hi
  · simp [Pending, hs, ht] at hp

/-- What an admitted request leaves: the cache, and the tables of the contexts; a context that was
not registered before is empty. -/
structure KeepsTables (s s' : BuiltinEngine) : Prop where
  kvCache : s'.kvCache = s.kvCache
  context : ∀ r ∈ s'.registered,
    ((s'.mem.obj r).tokenKvSlotIds = [] ∧ (s'.mem.obj r).tokenIds = []) ∨
      r ∈ s.registered ∧ KvMemory.Extends (s.mem.obj r) (s'.mem.obj r) [] []

lemma KvInv.keeps (hkv : s.KvInv) (hk : KeepsTables s s') : s'.KvInv := by
  intro r hr
  rw [hk.kvCache]
  rcases hk.context r hr with ⟨hs, ht⟩ | ⟨hr', hext⟩
  · exact objInv_empty _ hs ht
  · exact (hkv r hr').congr hext

/-- Registering an empty context beside contexts whose tables did not change. -/
lemma keepsTables_withFresh (h : TreeInv bs s) {j : JobRef} {m : KvMemory}
    {c : BlockContext} (hnext : m.next = s.mem.next)
    (hext : ∀ r, KvMemory.Extends (s.mem.obj r) (m.obj r) [] [])
    (hs : c.tokenKvSlotIds = []) (ht : c.tokenIds = []) :
    KeepsTables s (s.withFresh j m c) := by
  refine ⟨rfl, ?_⟩
  rintro r ⟨id, hid⟩
  simp only [BuiltinEngine.withFresh, Function.update_apply] at hid
  split_ifs at hid
  · obtain rfl := Option.some.inj hid
    have hobj : (m.push c).obj m.next = c := m.set_obj_self m.next c
    exact .inl ⟨(congrArg _ hobj).trans hs, (congrArg _ hobj).trans ht⟩
  · have hr : r ∈ s.registered := ⟨id, hid⟩
    have hobj : (m.push c).obj r = m.obj r :=
      m.set_obj_of_ne (Nat.ne_of_lt (hnext ▸ h.mem.lt_next r hr)) c
    refine .inr ⟨hr, ?_⟩
    show KvMemory.Extends (s.mem.obj r) ((m.push c).obj r) [] []
    rw [hobj]
    exact hext r

lemma keepsTables_bind (h : TreeInv bs s) {j : JobRef} (ho : BindOutcome s j s')
    (hg : NoPadding s (s.job j).contextId (s.job j).parentContextId) : KeepsTables s s' := by
  have hall : ∀ {p m}, KvMemory.GrownBy s.mem m p [] [] →
      ∀ r, KvMemory.Extends (s.mem.obj r) (m.obj r) [] [] := by
    intro p m hgrow r
    by_cases he : r = p
    · exact he ▸ hgrow.self
    · rw [hgrow.other r he]
      exact KvMemory.Extends.refl _
  cases ho with
  | unknownParent => exact ⟨rfl, fun r hr => .inr ⟨hr, KvMemory.Extends.refl _⟩⟩
  | existing _ => exact ⟨rfl, fun r hr => .inr ⟨hr, KvMemory.Extends.refl _⟩⟩
  | root _ _ => exact keepsTables_withFresh h rfl (fun _ => KvMemory.Extends.refl _) rfl rfl
  | @failed q p m e hmap hq hp had =>
      have hgrow := adopt_no_padding h ⟨q, hp⟩ had (hg hmap q p hq hp)
      exact ⟨rfl, fun r hr => .inr ⟨hr, hall hgrow r⟩⟩
  | @forked q p m hmap hq hp had =>
      have hgrow := adopt_no_padding h ⟨q, hp⟩ had (hg hmap q p hq hp)
      exact keepsTables_withFresh h hgrow.next (hall hgrow) rfl rfl

lemma keepsTables_addJob (h : TreeInv bs s) {record : PrimitiveJob}
    (hrec : record.context = none) (t : ℕ)
    (hg : NoPadding s record.contextId record.parentContextId) :
    KeepsTables s (s.addJob record t).2 := by
  have hjob : (s.queueJob record t).job s.nextJob = record := by
    simp [queueJob, setJob]
  have hbind := keepsTables_bind (s := s.queueJob record t) (h.queueJob hrec t)
    (bindJobContext_outcome _ s.nextJob) (by rw [hjob]; exact hg)
  exact ⟨hbind.kvCache, hbind.context⟩

/-- An admitted request keeps the tables. -/
lemma keepsTables_request (h : TreeInv bs s) {a : Action} (hg : KvGuard s a)
    (hreq : ∀ o, a ≠ .engineIter o) : KeepsTables s (s.apply a) := by
  cases a with
  | fill sid tid cid pid flag ts t => exact keepsTables_addJob h rfl t hg
  | generate sid tid cid pid flag cfg t => exact keepsTables_addJob h rfl t hg
  | freeContext cid =>
      rcases freeContext_outcome h cid with heq | ⟨r, m, -, heq, -, hobj, -⟩
      · rw [BuiltinEngine.apply, heq]
        exact ⟨rfl, fun r hr => .inr ⟨hr, KvMemory.Extends.refl _⟩⟩
      · rw [BuiltinEngine.apply, heq]
        refine ⟨rfl, ?_⟩
        rintro r' ⟨id, hid⟩
        simp only [Function.update_apply] at hid
        split_ifs at hid
        refine .inr ⟨⟨id, hid⟩, ?_⟩
        show KvMemory.Extends (s.mem.obj r') (m.obj r') [] []
        rw [hobj]
        exact (s.mem.unlinked_grown r r').2.2.2
  | engineIter o => exact absurd rfl (hreq o)

/-- Every admitted action keeps the contexts in order. -/
lemma KvInv.apply (hkv : s.KvInv) (h : TreeInv bs s)
    (hone : s.attnFunc = .xFormersWithBuffer → bs = 1) {a : Action} (hg : KvGuard s a) :
    (s.apply a).KvInv := by
  by_cases hiter : ∃ o, a = .engineIter o
  · obtain ⟨o, rfl⟩ := hiter
    simp only [BuiltinEngine.apply]
    split
    · exact hkv.engineIter h hone hg ‹_›
    · exact hkv
  · exact hkv.keeps (keepsTables_request h hg fun o ho => hiter ⟨o, ho⟩)

/-- No action changes the attention function. -/
lemma TreeInv.attnFunc_apply (h : TreeInv bs s) (a : Action) :
    (s.apply a).attnFunc = s.attnFunc := by
  have hbind : ∀ (s : BuiltinEngine) j, (s.bindJobContext j).2.attnFunc = s.attnFunc := by
    intro s j
    have ho := bindJobContext_outcome s j
    generalize (s.bindJobContext j).2 = s' at ho
    cases ho <;> rfl
  cases a with
  | fill sid tid cid pid flag ts t => exact hbind (s.queueJob _ t) s.nextJob
  | generate sid tid cid pid flag cfg t => exact hbind (s.queueJob _ t) s.nextJob
  | freeContext cid =>
      rcases freeContext_outcome h cid with heq | ⟨r, m, -, heq, -⟩
      · rw [BuiltinEngine.apply, heq]
      · rw [BuiltinEngine.apply, heq]
  | engineIter o =>
      simp only [BuiltinEngine.apply]
      split
      · rename_i s₂ hi
        rcases engineIter_cases hi with rfl | ⟨jobs, s₁, s₃, sched, hf, hup, rfl, -⟩
        · rfl
        · exact (updateJobs_quiet hup).attnFunc.trans (h.iterForward hf).attnFunc
      · rfl

/-- The invariant of the runs that meet `KvGuard`. -/
lemma kv_invariant (attnFunc : AttnFunc) (hbs : 0 < bs)
    (hone : attnFunc = .xFormersWithBuffer → bs = 1) (n : ℕ) (config : SchedulerConfig) :
    (system attnFunc bs n config).IsInvariantUnder KvGuard
      fun s => TreeInv bs s ∧ s.KvInv ∧ s.attnFunc = attnFunc where
  init s hs := by
    rw [show s = start attnFunc bs n config from hs]
    refine ⟨treeInv_start hbs, ?_, rfl⟩
    rintro r ⟨id, hid⟩
    simp [start] at hid
  step s a s' h hg hstep := by
    obtain ⟨htree, hkv, hattn⟩ := h
    rw [hstep.2]
    refine ⟨htree.apply ?_, hkv.apply htree (fun hbuf => hone (hattn ▸ hbuf)) hg,
      (htree.attnFunc_apply a).trans hattn⟩
    rintro cid rfl
    exact hg

/-- **The paged view refines the token sequence.**  In every run whose requests and iterations
meet `KvGuard`, at the forward pass of every iteration the slots a job attends to hold, in order,
the tokens of its ancestor chain and of its own context.  The reference attention path comes with
blocks of one token. -/
theorem kv_view_refines (attnFunc : AttnFunc) (blockSize : ℕ) (hbs : 0 < blockSize)
    (hone : attnFunc = .xFormersWithBuffer → blockSize = 1) (numKvCacheBlocks : ℕ)
    (config : SchedulerConfig) (s : BuiltinEngine)
    (hs : (system attnFunc blockSize numKvCacheBlocks config).ReachableUnder KvGuard s)
    (o : ModelOutput) (hg : KvGuard s (.engineIter o)) (jobs : List JobRef) (s' : BuiltinEngine)
    (hf : s.iterForward o = .ok (jobs, s')) :
    ∀ j ∈ jobs, ∃ r, (s'.job j).context = some r ∧
      (attendedSlots s'.mem r).map s'.kvCache = (s'.mem.getContextTokenIds r).map some := by
  obtain ⟨htree, hkv, hattn⟩ :=
    (kv_invariant attnFunc hbs hone numKvCacheBlocks config).holds hs
  exact kvView_of_forward htree hkv (fun hbuf => hone (hattn ▸ hbuf)) hg hf

/-! ## A fork off a block boundary -/

/-- Limits that admit every batch of the runs below. -/
def ampleConfig : SchedulerConfig where
  maxBatchSize := 8
  maxNumBatchedTokens := 64
  maxTotalTokens := 256

/-- A model that returns fives. -/
def fiveOutput : ModelOutput := ⟨fun _ => 5, fun _ => 5, fun _ => 5⟩

/-- A parent of `n` tokens that ran, and the Fill of its child. -/
def forkedAfter (blockSize n : ℕ) : BuiltinEngine :=
  [.fill 0 0 0 none false (List.replicate n 7) 0, .engineIter fiveOutput,
    .fill 0 0 1 (some 0) false [8] 1].foldl apply
      (start .xFormersFillVllmPagedAttentionGenerate blockSize 8 ampleConfig)

/-- The jobs of the next forward pass, and the cache entries job `j` attends to in it. -/
def nextView (s : BuiltinEngine) (j : JobRef) : Option (List JobRef × Option (List (Option ℕ))) :=
  match s.iterForward fiveOutput with
  | .ok (jobs, s') =>
      some (jobs, (s'.job j).context.map fun r => (attendedSlots s'.mem r).map s'.kvCache)
  | .error _ => none

/-- A parent of one token in a block of two: its child attends to a slot nothing was written
to. -/
theorem kv_view_padded :
    (system .xFormersFillVllmPagedAttentionGenerate 2 8 ampleConfig).Reachable
        (forkedAfter 2 1) ∧
      ∃ jobs s', (forkedAfter 2 1).iterForward fiveOutput = .ok (jobs, s') ∧
        ∃ j ∈ jobs, ∃ r, (s'.job j).context = some r ∧ ¬ KvView s' r := by
  refine ⟨.foldl _ (.init rfl) ⟨rfl, trivial, rfl, trivial, rfl, trivial, trivial⟩, ?_⟩
  have hview : nextView (forkedAfter 2 1) 1 = some ([1], some [some 7, none, some 8]) := by
    decide +kernel
  rw [nextView] at hview
  split at hview
  · rename_i jobs s' hf
    obtain ⟨rfl, hread⟩ := Prod.mk.inj (Option.some.inj hview)
    obtain ⟨r, hr, hread⟩ := Option.map_eq_some_iff.mp hread
    refine ⟨[1], s', hf, 1, List.mem_singleton_self _, r, hr, fun hkv => ?_⟩
    -- no token is `none`
    rw [KvView, hread] at hkv
    have hnone : none ∈ (s'.mem.getContextTokenIds r).map some := by simp [← hkv]
    simp at hnone
  · exact absurd hview (by simp)

/-- A batch of one job is in order when nothing in the job's chain is pending. -/
lemma batchGuard_singleton {j : JobRef} {r : CtxRef} (hctx : (s.job j).context = some r)
    (hp : ∀ a ∈ s.mem.lineage r, ¬ Pending (s.mem.obj a)) : BatchGuard s [j] := by
  refine ⟨List.nodup_singleton _, ?_, fun _ => ?_⟩
  · intro j' hj' r' hr' a ha hpend
    obtain rfl := List.mem_singleton.mp hj'
    obtain rfl : r = r' := Option.some.inj (hctx.symm.trans hr')
    exact absurd hpend (hp a ha)
  · have hlen : (s.fillsFirst [j]).length = 1 := (s.fillsFirst_perm [j]).length_eq
    obtain ⟨j', hj'⟩ := List.length_eq_one_iff.mp hlen
    rw [hj']
    -- a single row has no row behind it
    exact .inl (by simp)

/-- With a parent of two tokens the same requests meet the guard, and the child reads what was
written. -/
theorem kv_view_refines_forked :
    ∃ jobs s', (forkedAfter 2 2).iterForward fiveOutput = .ok (jobs, s') ∧ jobs = [1] ∧
      ∀ j ∈ jobs, ∃ r, (s'.job j).context = some r ∧ KvView s' r := by
  have hview : nextView (forkedAfter 2 2) 1 = some ([1], some [some 7, some 7, some 8]) := by
    decide +kernel
  rw [nextView] at hview
  split at hview
  · rename_i jobs s' hf
    obtain ⟨rfl, -⟩ := Prod.mk.inj (Option.some.inj hview)
    refine ⟨[1], s', hf, rfl, kv_view_refines .xFormersFillVllmPagedAttentionGenerate 2
      (by decide) (fun h => by cases h) 8 ampleConfig _ (.foldl _ (.init rfl) ?_) fiveOutput ?_
      [1] s' hf⟩
    · refine ⟨rfl, ?_, rfl, ?_, rfl, ?_, trivial⟩
      · intro _ q p hq
        simp at hq
      · intro batch s₁ hbatch
        obtain rfl : batch = [0] := by
          have hmap := congrArg (fun e => (Except.toOption e).map Prod.fst) hbatch
          exact Option.some.inj (hmap.symm.trans (by decide +kernel))
        exact batchGuard_singleton (r := 0) (by decide +kernel) (by decide +kernel)
      · rintro - q p hq hp -
        obtain rfl := Option.some.inj hq
        obtain rfl : 0 = p := Option.some.inj hp
        decide +kernel
    · intro batch s₁ hbatch
      obtain rfl : batch = [1] := by
        have hmap := congrArg (fun e => (Except.toOption e).map Prod.fst) hbatch
        exact Option.some.inj (hmap.symm.trans (by decide +kernel))
      exact batchGuard_singleton (r := 1) (by decide +kernel) (by decide +kernel)
  · exact absurd hview (by simp)

end BuiltinEngine
end ParrotServe
