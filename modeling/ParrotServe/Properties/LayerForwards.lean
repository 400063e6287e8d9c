import ParrotServe.Model.EngineStorage
import ParrotServe.Properties.CacheLayouts

/-!
# Caching and fetching, layer by layer

`forward` of the attention functions first caches the new keys and values, then fetches those of the
contexts into the buffers of the iteration (`parrot/engine/builtin/attn_func.py`).

The abstract model of the cache is a table of rows: `KvConfig.cached` is the row of a slot after
some layer forwards, the last one that was stored there.  The tensors of a layout hold these rows
after every run of forwards and in every order of the threads (`Forwards.holds`), and a fetch
returns them and touches nothing else (`fetch_returns_cached`).  Since both layouts refine the same
table, the paged path and the reference path agree (`layouts_agree`).
-/

namespace ParrotServe

universe u

variable {α : Type u}

/-- `k[token, head, dim]` and `v[token, head, dim]`. -/
def LayerTokens.at (tokens : LayerTokens α) (c : KvConfig) (token head dim : ℕ) : α × α :=
  (tokens.k.at c token head dim, tokens.v.at c token head dim)

namespace KvConfig

variable {c : KvConfig} {attnFunc : AttnFunc} {layer n : ℕ} {tokens : LayerTokens α}
  {slots slotMapping : List ℕ} {cache cache' buffer buffer' : KvTensors α} {rows : Rows (α × α)}

/-- The sizes of a configuration with an attention function, for which there is a storage. -/
structure Fits (c : KvConfig) (attnFunc : AttnFunc) : Prop extends c.Sound where
  storage : ∃ shapes, c.modelCacheStorage (attnFuncLayoutMap attnFunc) = .ok shapes

/-- The normal layout has blocks of one slot. -/
lemma Fits.normal (hc : c.Fits attnFunc) (h : attnFuncLayoutMap attnFunc = .normal) :
    c.blockSize = 1 := by
  obtain ⟨shapes, hstorage⟩ := hc.storage
  unfold modelCacheStorage at hstorage
  split_ifs at hstorage with hone
  by_contra hne
  exact hone ⟨h, hne⟩

lemma Fits.one (hc : c.Fits attnFunc) (h : attnFunc = .xFormersWithBuffer) : c.blockSize = 1 :=
  hc.normal (by rw [h, attnFuncLayoutMap])

/-- The tensors of a `ModelCacheStorage` hold rows. -/
structure Holds (c : KvConfig) (attnFunc : AttnFunc) (rows : Rows (α × α))
    (cache : KvTensors α) : Prop where
  k : c.Represents (c.keyAddress (attnFuncLayoutMap attnFunc)) Prod.fst rows cache.k
  v : c.Represents (c.valueAddress (attnFuncLayoutMap attnFunc)) Prod.snd rows cache.v

lemma Fits.keys_separate (hc : c.Fits attnFunc) :
    c.Separates (c.keyAddress (attnFuncLayoutMap attnFunc)) :=
  keyAddress_separates hc.toSound hc.normal

lemma Fits.values_separate (hc : c.Fits attnFunc) :
    c.Separates (c.valueAddress (attnFuncLayoutMap attnFunc)) :=
  valueAddress_separates hc.toSound hc.normal

/-- Tokens with slots of their own. -/
structure Slotted (c : KvConfig) (tokens : LayerTokens α) (slotMapping : List ℕ) (n : ℕ) :
    Prop where
  k : tokens.k.numTokens = n
  v : tokens.v.numTokens = n
  kIndexed : c.Indexed tokens.k
  vIndexed : c.Indexed tokens.v
  le : n ≤ slotMapping.length
  slots : c.DistinctSlots (slotMapping.take n)

lemma getD_take {l : List ℕ} {i : ℕ} (h : i < n) : (l.take n).getD i 0 = l.getD i 0 := by
  rw [List.getD_eq_getElem?_getD, List.getD_eq_getElem?_getD, List.getElem?_take_of_lt h]

lemma Slotted.length (h : c.Slotted tokens slotMapping n) : (slotMapping.take n).length = n := by
  rw [List.length_take, Nat.min_eq_left h.le]

/-- **Caching, in both layouts.** -/
lemma Caches.holds (hc : c.Fits attnFunc) (hlayer : layer < c.numLayers)
    (hslots : c.Slotted tokens slotMapping n) (hrows : c.Holds attnFunc rows cache)
    (h : c.Caches attnFunc layer tokens slotMapping cache cache') :
    c.Holds attnFunc (rows.cache layer (slotMapping.take n) (tokens.at c)) cache' := by
  have hreads : ∀ i < n, slotMapping.getD i 0 = (slotMapping.take n).getD i 0 :=
    fun i hi => (getD_take hi).symm
  have hlt : ∀ i < n, slotMapping.getD i 0 < c.numBlocks * c.blockSize := fun i hi => by
    rw [hreads i hi]
    exact hslots.slots.lt _ (getD_mem (hslots.length.symm ▸ hi))
  have hpaged : Launched (c.reshapeKeys layer tokens.k fun i => slotMapping.getD i 0)
        cache.k cache'.k →
      Launched (c.reshapeValues layer tokens.v fun i => slotMapping.getD i 0)
        cache.v cache'.v → attnFuncLayoutMap attnFunc = .vllm →
      c.Holds attnFunc (rows.cache layer (slotMapping.take n) (tokens.at c)) cache' := by
    intro hk hv hlayout
    refine ⟨hrows.k.cache hc.keys_separate hlayer hslots.slots ?_ hk,
      hrows.v.cache hc.values_separate hlayer hslots.slots ?_ hv⟩
    · rw [hslots.length, hlayout]
      refine (reshapeKeys_perm hc.toSound hlayer hslots.kIndexed fun i hi =>
        hlt i (hslots.k ▸ hi)).trans (.of_eq ?_)
      rw [hslots.k]
      exact tokenStores_congr fun i hi _ _ _ _ => ⟨by rw [hreads i hi], rfl⟩
    · rw [hslots.length, hlayout]
      refine (reshapeValues_perm hc.toSound hlayer hslots.vIndexed fun i hi =>
        hlt i (hslots.v ▸ hi)).trans (.of_eq ?_)
      rw [hslots.v]
      exact tokenStores_congr fun i hi _ _ _ _ => ⟨by rw [hreads i hi], rfl⟩
  cases attnFunc with
  | xFormersWithBuffer =>
      obtain ⟨ks, vs, hks, hvs, hk, hv⟩ := h
      obtain ⟨-, rfl⟩ := cacheNormal_ok hks
      obtain ⟨-, rfl⟩ := cacheNormal_ok hvs
      refine ⟨hrows.k.cache hc.keys_separate hlayer hslots.slots (.of_eq ?_) hk,
        hrows.v.cache hc.values_separate hlayer hslots.slots (.of_eq ?_) hv⟩
      · rw [hslots.length, hslots.k]
        exact tokenStores_congr fun i hi _ _ _ _ => ⟨by rw [hreads i hi]; rfl, rfl⟩
      · rw [hslots.length, hslots.v]
        exact tokenStores_congr fun i hi _ _ _ _ => ⟨by rw [hreads i hi]; rfl, rfl⟩
  | xFormersFillVllmPagedAttentionGenerate => exact hpaged h.1 h.2 rfl
  | xFormersFillSharedPromptsGenerate => exact hpaged h.1 h.2 rfl

/-- **Fetching, in both layouts.** -/
lemma Fetches.fetched (hc : c.Sound) (h : c.Fetches attnFunc layer cache slots n buffer buffer') :
    slots.length = n ∧
      c.Fetched (c.keyAddress (attnFuncLayoutMap attnFunc)) layer cache.k slots
        buffer.k buffer'.k ∧
      c.Fetched (c.valueAddress (attnFuncLayoutMap attnFunc)) layer cache.v slots
        buffer.v buffer'.v := by
  cases attnFunc with
  | xFormersWithBuffer =>
      obtain ⟨ks, vs, hks, hvs, hk, hv⟩ := h
      obtain ⟨hlen, rfl⟩ := fetchNormal_ok hks
      obtain ⟨-, rfl⟩ := fetchNormal_ok hvs
      exact ⟨hlen, KvConfig.fetched hk, KvConfig.fetched hv⟩
  | xFormersFillVllmPagedAttentionGenerate | xFormersFillSharedPromptsGenerate =>
      obtain ⟨ks, vs, hks, hvs, hk, hv⟩ := h
      obtain ⟨hlen, rfl⟩ := fetchKeys_ok hc hks
      obtain ⟨-, rfl⟩ := fetchValues_ok hvs
      exact ⟨hlen, KvConfig.fetched hk, KvConfig.fetched hv⟩

/-! ## When slots can be fetched -/

/-- The stores of programs can be performed. -/
lemma exists_launched (stores : List (ℕ × α)) (mem : ℕ → α) : ∃ mem', Launched stores mem mem' :=
  ⟨_, stores, .refl _, rfl⟩

lemma fetchNormal_isOk {mem : ℕ → α} : (∃ stores, c.fetchNormal layer mem n slots = .ok stores) ↔
    slots.length = n ∧ n ≤ c.numBlocks := by
  simp only [fetchNormal, discontinuousMoveTokens, moveChecks, normalStorage, bufferStorage,
    List.length_range, Option.any_some, decide_eq_true_eq]
  constructor
  · rintro ⟨stores, h⟩
    split_ifs at h with hlen hrows
    exact ⟨not_not.mp hlen, by omega⟩
  · rintro ⟨rfl, hle⟩
    exact ⟨_, by rw [if_neg (by omega), if_neg (by omega), if_neg (by omega)]⟩

/-- The reference path can fetch only as many rows as the cache has; the paged path any number. -/
lemma fetches_iff (c : KvConfig) (attnFunc : AttnFunc) (layer : ℕ) (cache : KvTensors α)
    (slots : List ℕ) (n : ℕ) (buffer : KvTensors α) :
    (∃ buffer', c.Fetches attnFunc layer cache slots n buffer buffer') ↔
      slots.length = n ∧ (attnFunc = .xFormersWithBuffer → n ≤ c.numBlocks) := by
  have hpaged : (∃ buffer' : KvTensors α, ∃ ks vs,
      c.moveTokensFromBlockedKCache layer cache.k n slots (List.range n) = .ok ks ∧
        c.moveTokensFromBlockedVCache layer cache.v n slots (List.range n) = .ok vs ∧
        Launched ks buffer.k buffer'.k ∧ Launched vs buffer.v buffer'.v) ↔ slots.length = n := by
    simp only [moveTokensFromBlockedKCache, moveTokensFromBlockedVCache, moveChecks,
      List.length_range]
    constructor
    · rintro ⟨buffer', ks, vs, h, -⟩
      split_ifs at h with hlen
      exact not_not.mp hlen
    · rintro rfl
      simp only [Option.any_none, lt_irrefl, Except.ok.injEq, ne_eq, not_true_eq_false, if_false,
        Bool.false_eq_true]
      obtain ⟨k, hk⟩ := exists_launched _ buffer.k
      obtain ⟨v, hv⟩ := exists_launched _ buffer.v
      exact ⟨⟨k, v⟩, _, _, rfl, rfl, hk, hv⟩
  cases attnFunc with
  | xFormersWithBuffer =>
      constructor
      · rintro ⟨buffer', ks, vs, hks, -⟩
        obtain ⟨hlen, hle⟩ := fetchNormal_isOk.mp ⟨ks, hks⟩
        exact ⟨hlen, fun _ => hle⟩
      · rintro ⟨hlen, hle⟩
        obtain ⟨ks, hks⟩ := fetchNormal_isOk.mpr ⟨hlen, hle rfl⟩
        obtain ⟨vs, hvs⟩ := fetchNormal_isOk.mpr ⟨hlen, hle rfl⟩
        obtain ⟨k, hk⟩ := exists_launched ks buffer.k
        obtain ⟨v, hv⟩ := exists_launched vs buffer.v
        exact ⟨⟨k, v⟩, ks, vs, hks, hvs, hk, hv⟩
  | xFormersFillVllmPagedAttentionGenerate | xFormersFillSharedPromptsGenerate =>
      refine hpaged.trans ⟨fun h => ⟨h, fun hbuf => ?_⟩, fun h => h.1⟩
      cases hbuf

/-! ## Runs -/

/-- A call of `forward` in a layer. -/
structure LayerForward (α : Type u) where
  layer : ℕ
  tokens : LayerTokens α
  slotMapping : List ℕ

/-- The slots its tokens go to. -/
def LayerForward.destinations (f : LayerForward α) : List ℕ :=
  f.slotMapping.take f.tokens.k.numTokens

/-- Its layer exists and its tokens have slots of their own. -/
def LayerForward.Admissible (c : KvConfig) (f : LayerForward α) : Prop :=
  f.layer < c.numLayers ∧ c.Slotted f.tokens f.slotMapping f.tokens.k.numTokens

/-- Calls, one after the other. -/
inductive Forwards (c : KvConfig) (attnFunc : AttnFunc) :
    List (LayerForward α) → KvTensors α → KvTensors α → Prop
  | nil {cache : KvTensors α} : Forwards c attnFunc [] cache cache
  | cons {f : LayerForward α} {fs : List (LayerForward α)} {cache cache' cache'' : KvTensors α} :
      c.Caches attnFunc f.layer f.tokens f.slotMapping cache cache' →
      Forwards c attnFunc fs cache' cache'' → Forwards c attnFunc (f :: fs) cache cache''

/-- What the calls leave in the slots: each call overwrites its own. -/
def cached (c : KvConfig) (fs : List (LayerForward α)) (rows : Rows (α × α)) : Rows (α × α) :=
  fs.foldl (fun rows f => rows.cache f.layer f.destinations (f.tokens.at c)) rows

/-- **Every run of calls does what they mean**, whatever the order of the threads of each. -/
lemma Forwards.holds (hc : c.Fits attnFunc) {fs : List (LayerForward α)}
    (h : Forwards c attnFunc fs cache cache') (hfs : ∀ f ∈ fs, f.Admissible c)
    (hrows : c.Holds attnFunc rows cache) : c.Holds attnFunc (c.cached fs rows) cache' := by
  induction h generalizing rows with
  | nil => exact hrows
  | cons hone _ ih =>
      obtain ⟨hlayer, hslots⟩ := hfs _ List.mem_cons_self
      exact ih (fun f hf => hfs f (List.mem_cons_of_mem _ hf))
        (hone.holds hc hlayer hslots hrows)

/-- Rows that a tensor holds are the rows that are fetched. -/
lemma Holds.fetched (hc : c.Fits attnFunc) (hrows : c.Holds attnFunc rows cache)
    (hlayer : layer < c.numLayers) {i : ℕ} (hslot : slots.getD i 0 < c.numBlocks * c.blockSize)
    (h : c.Fetches attnFunc layer cache slots n buffer buffer') (hi : i < n)
    {row : ℕ → ℕ → α × α} (hrow : rows layer (slots.getD i 0) = some row) {head dim : ℕ}
    (hhead : head < c.numHeads) (hdim : dim < c.headSize) :
    buffer'.k (c.bufferAddress i head dim) = (row head dim).1 ∧
      buffer'.v (c.bufferAddress i head dim) = (row head dim).2 := by
  obtain ⟨rfl, hk, hv⟩ := h.fetched hc.toSound
  have hin : c.InCache layer (slots.getD i 0) head dim :=
    ⟨hlayer, hslot, hhead, hdim⟩
  rw [hk.row i hi head hhead dim hdim, hv.row i hi head hhead dim hdim]
  exact ⟨hrows.k hin hrow, hrows.v hin hrow⟩

/-- Nothing is known of a new cache. -/
def noRows : Rows (α × α) := fun _ _ => none

lemma holds_noRows (c : KvConfig) (attnFunc : AttnFunc) (cache : KvTensors α) :
    c.Holds attnFunc noRows cache :=
  ⟨fun _ _ _ _ _ _ h => (Option.some_ne_none _ h.symm).elim,
    fun _ _ _ _ _ _ h => (Option.some_ne_none _ h.symm).elim⟩

/-- A slot with a row is one of the cache. -/
lemma cached_lt {fs : List (LayerForward α)} (hfs : ∀ f ∈ fs, f.Admissible c)
    (hrows : ∀ layer slot, rows layer slot ≠ none →
      layer < c.numLayers ∧ slot < c.numBlocks * c.blockSize) :
    ∀ layer slot, c.cached fs rows layer slot ≠ none →
      layer < c.numLayers ∧ slot < c.numBlocks * c.blockSize := by
  induction fs generalizing rows with
  | nil => exact hrows
  | cons f fs ih =>
      obtain ⟨hlayer, hslots⟩ := hfs f List.mem_cons_self
      refine ih (fun f hf => hfs f (List.mem_cons_of_mem _ hf)) fun layer slot h => ?_
      simp only [Rows.cache] at h
      split_ifs at h with hnew
      · exact ⟨hnew.1 ▸ hlayer, hslots.slots.lt slot hnew.2⟩
      · exact hrows layer slot h

lemma cached_noRows_lt {fs : List (LayerForward α)} (hfs : ∀ f ∈ fs, f.Admissible c) {slot : ℕ}
    (h : c.cached fs noRows layer slot ≠ none) :
    layer < c.numLayers ∧ slot < c.numBlocks * c.blockSize :=
  cached_lt hfs (fun _ _ h => (h rfl).elim) layer slot h

/-- **What is fetched is what was cached last**, element by element, in the paged and in the normal
layout, after any run of calls; the rest of the buffers is untouched. -/
theorem fetch_returns_cached (c : KvConfig) (attnFunc : AttnFunc) (hc : c.Fits attnFunc)
    (fs : List (LayerForward α)) (hfs : ∀ f ∈ fs, f.Admissible c) (cache cache' : KvTensors α)
    (hrun : Forwards c attnFunc fs cache cache') (layer : ℕ) (slots : List ℕ) (n : ℕ)
    (buffer buffer' : KvTensors α) (h : c.Fetches attnFunc layer cache' slots n buffer buffer') :
    (∀ i < n, ∀ row, c.cached fs noRows layer (slots.getD i 0) = some row →
      ∀ head < c.numHeads, ∀ dim < c.headSize,
        buffer'.k (c.bufferAddress i head dim) = (row head dim).1 ∧
          buffer'.v (c.bufferAddress i head dim) = (row head dim).2) ∧
      ∀ addr, n * (c.numHeads * c.headSize) ≤ addr →
        buffer'.k addr = buffer.k addr ∧ buffer'.v addr = buffer.v addr := by
  have hholds := hrun.holds hc hfs (holds_noRows c attnFunc cache)
  obtain ⟨rfl, hk, hv⟩ := h.fetched hc.toSound
  refine ⟨fun i hi row hrow head hhead dim hdim => ?_,
    fun addr haddr => ⟨hk.rest addr haddr, hv.rest addr haddr⟩⟩
  obtain ⟨hlayer, hslot⟩ := cached_noRows_lt hfs (hrow ▸ Option.some_ne_none row)
  exact hholds.fetched hc hlayer hslot h hi hrow hhead hdim

/-- One layer, two heads of two elements, blocks of two tokens; keys are loaded one by one. -/
def smallConfig : KvConfig where
  numLayers := 1
  numBlocks := 2
  blockSize := 2
  numHeads := 2
  headSize := 2
  elementSize := 16

/-- Two tokens go to the slots 2 and 1. -/
def crossedForward : LayerForward ℕ where
  layer := 0
  tokens := { k := ⟨fun i => 10 + i, 2, 4⟩, v := ⟨fun i => 20 + i, 2, 4⟩ }
  slotMapping := [2, 1]

/-- Tensors of zeros. -/
def zeros : KvTensors ℕ := ⟨fun _ => 0, fun _ => 0⟩

/-- The cache after the tokens went to their slots. -/
def crossedCache : KvTensors ℕ where
  k := scatter zeros.k (smallConfig.reshapeKeys 0 crossedForward.tokens.k ([2, 1].getD · 0))
  v := scatter zeros.v (smallConfig.reshapeValues 0 crossedForward.tokens.v ([2, 1].getD · 0))

lemma smallConfig_fits : smallConfig.Fits .xFormersFillVllmPagedAttentionGenerate where
  blockSize := by decide
  x := by decide
  dvd := by decide
  token := by decide
  layer := by decide
  cache := by decide
  storage := ⟨_, rfl⟩

lemma crossedForward_admissible : ∀ f ∈ [crossedForward], f.Admissible smallConfig := by
  intro f hf
  obtain rfl := List.mem_singleton.mp hf
  exact ⟨by decide, rfl, rfl, by unfold Indexed; decide, by unfold Indexed; decide, by decide,
    by decide, by decide⟩

lemma crossed_forwards : Forwards smallConfig .xFormersFillVllmPagedAttentionGenerate
    [crossedForward] zeros crossedCache :=
  .cons ⟨⟨_, .refl _, rfl⟩, _, .refl _, rfl⟩ .nil

/-- The slots are fetched the other way round. -/
theorem fetch_returns_cached_crossed : ∃ buffer', smallConfig.Fetches
    .xFormersFillVllmPagedAttentionGenerate 0 crossedCache [1, 2] 2 zeros buffer' ∧
      buffer'.k (smallConfig.bufferAddress 0 1 1) = 17 ∧
      buffer'.v (smallConfig.bufferAddress 1 0 1) = 21 := by
  obtain ⟨buffer', h⟩ := (smallConfig.fetches_iff .xFormersFillVllmPagedAttentionGenerate 0
    crossedCache [1, 2] 2 zeros).mpr ⟨rfl, fun h => nomatch h⟩
  have hrows := (fetch_returns_cached smallConfig _ smallConfig_fits [crossedForward]
    crossedForward_admissible zeros crossedCache crossed_forwards 0 [1, 2] 2 zeros buffer' h).1
  exact ⟨buffer', h, (hrows 0 (by decide) _ rfl 1 (by decide) 1 (by decide)).1,
    (hrows 1 (by decide) _ rfl 0 (by decide) 1 (by decide)).2⟩

/-! ## The two layouts -/

/-- The configuration with blocks of one token. -/
def unpaged (c : KvConfig) : KvConfig :=
  { c with numBlocks := c.numBlocks * c.blockSize, blockSize := 1 }

lemma unpaged_layerSize (c : KvConfig) : c.unpaged.layerSize = c.layerSize := by
  simp only [layerSize, unpaged, Nat.mul_one]

lemma Fits.unpaged (hc : c.Fits attnFunc) : c.unpaged.Fits .xFormersWithBuffer where
  blockSize := Nat.one_pos
  x := hc.x
  dvd := hc.dvd
  token := hc.token
  layer := by rw [c.unpaged_layerSize]; exact hc.layer
  cache := by rw [c.unpaged_layerSize]; exact hc.cache
  storage := ⟨_, rfl⟩

lemma unpaged_slots (c : KvConfig) : c.unpaged.numBlocks * c.unpaged.blockSize =
    c.numBlocks * c.blockSize := Nat.mul_one _

lemma LayerForward.Admissible.unpaged {f : LayerForward α} (h : f.Admissible c) :
    f.Admissible c.unpaged :=
  ⟨h.1, h.2.k, h.2.v, h.2.kIndexed, h.2.vIndexed, h.2.le, h.2.slots.nodup, fun slot hslot => by
    rw [unpaged_slots]
    exact h.2.slots.lt slot hslot⟩

/-- **The paged path agrees with the reference path**: after the same calls, in memory of either
layout, the same slots are fetched as the same rows.  The reference path refuses more rows than its
cache has, which the paged path does not. -/
theorem layouts_agree (c : KvConfig) (attnFunc : AttnFunc) (hc : c.Fits attnFunc)
    (hattn : attnFunc ≠ .xFormersWithBuffer) (fs : List (LayerForward α))
    (hfs : ∀ f ∈ fs, f.Admissible c) (paged paged' normal normal' : KvTensors α)
    (hpaged : Forwards c attnFunc fs paged paged')
    (hnormal : Forwards c.unpaged .xFormersWithBuffer fs normal normal') (layer : ℕ)
    (slots : List ℕ) (hslots : ∀ slot ∈ slots, c.cached fs noRows layer slot ≠ none) (n : ℕ)
    (buffer : KvTensors α) :
    (∀ x y, c.Fetches attnFunc layer paged' slots n buffer x →
      c.unpaged.Fetches .xFormersWithBuffer layer normal' slots n buffer y →
        ∀ i < n, ∀ head < c.numHeads, ∀ dim < c.headSize,
          x.k (c.bufferAddress i head dim) = y.k (c.bufferAddress i head dim) ∧
            x.v (c.bufferAddress i head dim) = y.v (c.bufferAddress i head dim)) ∧
      ((∃ y, c.unpaged.Fetches .xFormersWithBuffer layer normal' slots n buffer y) ↔
        (∃ x, c.Fetches attnFunc layer paged' slots n buffer x) ∧
          n ≤ c.numBlocks * c.blockSize) := by
  refine ⟨fun x y hx hy i hi head hhead dim hdim => ?_, ?_⟩
  · have hlen : slots.length = n := (hx.fetched hc.toSound).1
    obtain ⟨row, hrow⟩ := Option.ne_none_iff_exists'.mp
      (hslots (slots.getD i 0) (getD_mem (hlen.symm ▸ hi)))
    obtain ⟨hxk, hxv⟩ := (fetch_returns_cached c attnFunc hc fs hfs paged paged' hpaged layer slots
      n buffer x hx).1 i hi row hrow head hhead dim hdim
    obtain ⟨hyk, hyv⟩ := (fetch_returns_cached c.unpaged _ hc.unpaged fs
      (fun f hf => (hfs f hf).unpaged) normal normal' hnormal layer slots n buffer y hy).1
      i hi row hrow head hhead dim hdim
    exact ⟨hxk.trans hyk.symm, hxv.trans hyv.symm⟩
  · rw [fetches_iff, fetches_iff]
    constructor
    · rintro ⟨hlen, hle⟩
      exact ⟨⟨hlen, fun h => absurd h hattn⟩, hle rfl⟩
    · rintro ⟨⟨hlen, -⟩, hle⟩
      exact ⟨hlen, fun _ => hle⟩

/-- The rows of the two tokens are the same in both layouts, and five rows are refused in the one
that has four. -/
theorem layouts_agree_crossed : ∃ normal' : KvTensors ℕ,
    Forwards smallConfig.unpaged .xFormersWithBuffer [crossedForward] zeros normal' ∧
      (∃ x y, smallConfig.Fetches .xFormersFillVllmPagedAttentionGenerate 0 crossedCache [1, 2] 2
          zeros x ∧
        smallConfig.unpaged.Fetches .xFormersWithBuffer 0 normal' [1, 2] 2 zeros y ∧
        x.k (smallConfig.bufferAddress 0 1 1) = y.k (smallConfig.bufferAddress 0 1 1)) ∧
      ¬ ∃ y,
        smallConfig.unpaged.Fetches .xFormersWithBuffer 0 normal' [1, 2, 1, 2, 1] 5 zeros y := by
  have hnormal : ∃ normal' : KvTensors ℕ,
      Forwards smallConfig.unpaged .xFormersWithBuffer [crossedForward] zeros normal' := by
    obtain ⟨k, hk⟩ := exists_launched _ zeros.k
    obtain ⟨v, hv⟩ := exists_launched _ zeros.v
    exact ⟨⟨k, v⟩, .cons ⟨_, _, rfl, rfl, hk, hv⟩ .nil⟩
  obtain ⟨normal', hnormal⟩ := hnormal
  have hagree := fun slots hslots n => layouts_agree smallConfig _ smallConfig_fits (by decide)
    [crossedForward] crossedForward_admissible zeros crossedCache zeros normal' crossed_forwards
    hnormal 0 slots hslots n zeros
  have hslots : ∀ slot ∈ [1, 2], smallConfig.cached [crossedForward] noRows 0 slot ≠ none := by
    decide
  obtain ⟨x, hx⟩ := (smallConfig.fetches_iff .xFormersFillVllmPagedAttentionGenerate 0
    crossedCache [1, 2] 2 zeros).mpr ⟨rfl, fun h => nomatch h⟩
  obtain ⟨y, hy⟩ := (hagree [1, 2] hslots 2).2.mpr ⟨⟨x, hx⟩, by decide⟩
  refine ⟨normal', hnormal, ⟨x, y, hx, hy, ((hagree [1, 2] hslots 2).1 x y hx hy 0 (by decide) 1
    (by decide) 1 (by decide)).1⟩, fun h => ?_⟩
  exact absurd ((hagree [1, 2, 1, 2, 1] (by decide) 5).2.mp h).2 (by decide)

end KvConfig

end ParrotServe
