import Mathlib.Data.List.GetD
import Mathlib.Data.List.ProdSigma
import ParrotServe.Model.KvLayouts
import ParrotServe.Properties.SlotMapping

/-!
# What the layouts of the KV cache hold

A tensor of the cache represents rows when the address of each slot, layer, head and dimension holds
the element of the row: `KvConfig.Represents`, for the addresses of any layout that separates them
(`KvConfig.Separates`).  The normal layout and that of vLLM do, `keyAddress_separates` and
`valueAddress_separates`, so a launch of stores that is a permutation of one store for each element
of each token changes the rows of the destinations and no other.

What is left for a kernel is then a fact about its index arithmetic: its stores are such a
permutation.  It is proved for `reshape_and_cache` (`reshapeKeys_perm`, `reshapeValues_perm`), whose
threads step through the elements of a token, and for the kernels of `tokens_moving.py`, whose
programs take a block of offsets with a mask.
-/

namespace ParrotServe

universe u

variable {α : Type u}

/-! ## Loops over the elements of tokens -/

/-- The numbers below a product, row by row. -/
lemma range_mul (a b : ℕ) :
    List.range (a * b) = (List.range a).flatMap fun i => (List.range b).map fun j => i * b + j := by
  induction a with
  | zero => rw [Nat.zero_mul]; rfl
  | succ a ih =>
      rw [Nat.add_mul, Nat.one_mul, List.range_add, ih, List.range_succ, List.flatMap_append,
        List.flatMap_singleton]

/-- A block of offsets with a mask. -/
lemma flatMap_mask {β : Type*} {n m : ℕ} (h : n ≤ m) (f : ℕ → List β) :
    ((List.range m).flatMap fun i => if i < n then f i else []) = (List.range n).flatMap f := by
  obtain ⟨k, rfl⟩ := Nat.exists_eq_add_of_le h
  rw [List.range_add, List.flatMap_append, List.flatMap_map]
  have hsame : ((List.range n).flatMap fun i => if i < n then f i else []) =
      (List.range n).flatMap f := List.flatMap_congr fun i hi => if_pos (List.mem_range.mp hi)
  have hnil : ((List.range k).flatMap fun i => if n + i < n then f (n + i) else []) = [] :=
    List.flatMap_eq_nil_iff.mpr fun i _ => if_neg (by omega)
  rw [hsame, hnil, List.append_nil]

lemma flatMap_ite {β γ : Type*} (p : Prop) [Decidable p] (l : List β) (f : β → List γ) :
    (l.flatMap fun b => if p then f b else []) = if p then l.flatMap f else [] := by
  split_ifs
  · rfl
  · exact List.flatMap_eq_nil_iff.mpr fun _ _ => rfl

namespace KvConfig

variable {c : KvConfig} {layer slot head dim : ℕ}

/-- The stores of the tokens of an iteration, element by element. -/
def tokenStores (c : KvConfig) (numTokens : ℕ) (address : ℕ → ℕ → ℕ → ℕ)
    (value : ℕ → ℕ → ℕ → α) : List (ℕ × α) :=
  ((List.range numTokens).product ((List.range c.numHeads).product (List.range c.headSize))).map
    fun i => (address i.1 i.2.1 i.2.2, value i.1 i.2.1 i.2.2)

lemma tokenStores_eq (c : KvConfig) (numTokens : ℕ) (address : ℕ → ℕ → ℕ → ℕ)
    (value : ℕ → ℕ → ℕ → α) : c.tokenStores numTokens address value =
      (List.range numTokens).flatMap fun token => (List.range c.numHeads).flatMap fun head =>
        (List.range c.headSize).map fun dim => (address token head dim, value token head dim) := by
  simp only [tokenStores, List.product, List.map_flatMap, List.map_map, Function.comp_def]

lemma tokenStores_congr {numTokens : ℕ} {address address' : ℕ → ℕ → ℕ → ℕ}
    {value value' : ℕ → ℕ → ℕ → α}
    (h : ∀ token < numTokens, ∀ head < c.numHeads, ∀ dim < c.headSize,
      address token head dim = address' token head dim ∧
        value token head dim = value' token head dim) :
    c.tokenStores numTokens address value = c.tokenStores numTokens address' value' := by
  refine List.map_congr_left fun i hi => ?_
  obtain ⟨token, head, dim⟩ := i
  simp only [List.product, List.mem_flatMap, List.mem_map, Prod.mk.injEq, List.mem_range] at hi
  obtain ⟨_, htoken, _, ⟨_, hhead, _, hdim, rfl, rfl⟩, rfl, rfl, rfl⟩ := hi
  obtain ⟨haddress, hvalue⟩ := h _ htoken _ hhead _ hdim
  rw [haddress, hvalue]

/-- The threads of `reshape_and_cache_kernel` store every element of every token once. -/
lemma reshapeAndCacheKernel_perm (c : KvConfig) (base : ℕ) (tgtIdx : Int32 → Int32 → Int32)
    (tokens : TokenTensor α) (slotMapping : ℕ → ℕ) :
    (c.reshapeAndCacheKernel base tgtIdx tokens slotMapping).Perm
      (c.tokenStores tokens.numTokens
        (fun token head dim => elementAt base
          (tgtIdx (Int32.ofNat (slotMapping token)) (Int32.ofNat (head * c.headSize + dim))))
        (fun token head dim => tokens.data (elementAt 0
          (Int32.ofNat token * Int32.ofNat tokens.stride +
            Int32.ofNat (head * c.headSize + dim))))) := by
  rw [reshapeAndCacheKernel, tokenStores_eq]
  refine List.Perm.flatMap_left _ fun token _ => ?_
  rw [← List.map_flatMap]
  by_cases hpos : 0 < c.numHeads * c.headSize
  · have hthreads : 0 < c.blockDim := lt_min hpos (by omega)
    have hperm := flatMap_rangeStep_perm hthreads (c.numHeads * c.headSize)
    refine (hperm.map _).trans (List.Perm.of_eq ?_)
    rw [range_mul, List.map_flatMap]
    refine List.flatMap_congr fun head _ => ?_
    rw [List.map_map]
    rfl
  · have hzero : c.numHeads * c.headSize = 0 := Nat.eq_zero_of_not_pos hpos
    have hblock : c.blockDim = 0 := by rw [blockDim, hzero]; rfl
    have hnil : ∀ f : ℕ → ℕ → ℕ × α, ((List.range c.numHeads).flatMap fun head =>
        (List.range c.headSize).map fun dim => f head dim) = [] := by
      intro f
      rcases Nat.mul_eq_zero.mp hzero with h | h
      · rw [h]; rfl
      · rw [h]; exact List.flatMap_eq_nil_iff.mpr fun _ _ => rfl
    rw [hblock, hnil]
    exact List.Perm.nil

lemma numHeads_le_blockH (c : KvConfig) : c.numHeads ≤ c.blockH := Nat.le_pow_clog one_lt_two _

/-! ## Addresses -/

/-- The elements of a layer. -/
def layerSize (c : KvConfig) : ℕ := c.numBlocks * c.blockSize * (c.numHeads * c.headSize)

/-- The sizes fit: keys are loaded in vectors, the elements of a token are counted by an `int`, an
`int` is enough for a layer, and a pointer for all of them. -/
structure Sound (c : KvConfig) : Prop where
  blockSize : 0 < c.blockSize
  x : 0 < c.x
  dvd : c.x ∣ c.headSize
  token : c.numHeads * c.headSize ≤ 2 ^ 30
  layer : c.layerSize < 2 ^ 31
  cache : c.numLayers * c.layerSize ≤ 2 ^ 64

/-- The index of an element of a key, in the tensor of all layers. -/
def keyIndex (c : KvConfig) (layer slot head dim : ℕ) : MemLayout → List ℕ
  | .normal => [layer, slot, head, dim]
  | .block => [layer, slot / c.blockSize, head, dim, slot % c.blockSize]
  | .vllm => [layer, slot / c.blockSize, head, dim / c.x, slot % c.blockSize, dim % c.x]

/-- The index of an element of a value. -/
def valueIndex (c : KvConfig) (layer slot head dim : ℕ) : MemLayout → List ℕ
  | .normal => [layer, slot, head, dim]
  | .block | .vllm => [layer, slot / c.blockSize, head, dim, slot % c.blockSize]

/-- Where an element of a key lies. -/
def keyAddress (c : KvConfig) (layout : MemLayout) (layer slot head dim : ℕ) : ℕ :=
  rowMajor (c.kShape layout) (c.keyIndex layer slot head dim layout)

/-- Where an element of a value lies. -/
def valueAddress (c : KvConfig) (layout : MemLayout) (layer slot head dim : ℕ) : ℕ :=
  rowMajor (c.vShape layout) (c.valueIndex layer slot head dim layout)

/-- An element that the cache has. -/
structure InCache (c : KvConfig) (layer slot head dim : ℕ) : Prop where
  layer : layer < c.numLayers
  slot : slot < c.numBlocks * c.blockSize
  head : head < c.numHeads
  dim : dim < c.headSize

/-- Different elements have different addresses. -/
def Separates (c : KvConfig) (address : ℕ → ℕ → ℕ → ℕ → ℕ) : Prop :=
  ∀ ⦃layer slot head dim layer' slot' head' dim'⦄, c.InCache layer slot head dim →
    c.InCache layer' slot' head' dim' →
    address layer slot head dim = address layer' slot' head' dim' →
    layer = layer' ∧ slot = slot' ∧ head = head' ∧ dim = dim'

lemma eq_of_div_mod {m a b : ℕ} (hdiv : a / m = b / m) (hmod : a % m = b % m) : a = b := by
  rw [← Nat.div_add_mod a m, ← Nat.div_add_mod b m, hdiv, hmod]

lemma keyIndex_inShape (hc : c.Sound) {layout : MemLayout}
    (hlayout : layout = .normal → c.blockSize = 1) (h : c.InCache layer slot head dim) :
    InShape (c.kShape layout) (c.keyIndex layer slot head dim layout) := by
  have hblock : slot / c.blockSize < c.numBlocks := Nat.div_lt_of_lt_mul (Nat.mul_comm _ _ ▸ h.slot)
  have hoffset : slot % c.blockSize < c.blockSize := Nat.mod_lt _ hc.blockSize
  cases layout with
  | normal =>
      have hslot : slot < c.numBlocks := by
        have := h.slot
        rwa [hlayout rfl, Nat.mul_one] at this
      exact .cons h.layer (.cons hslot (.cons h.head (.cons h.dim .nil)))
  | block => exact .cons h.layer (.cons hblock (.cons h.head (.cons h.dim (.cons hoffset .nil))))
  | vllm =>
      exact .cons h.layer (.cons hblock (.cons h.head (.cons
        (Nat.div_lt_div_of_lt_of_dvd hc.dvd h.dim)
        (.cons hoffset (.cons (Nat.mod_lt _ hc.x) .nil)))))

lemma valueIndex_inShape (hc : c.Sound) {layout : MemLayout}
    (hlayout : layout = .normal → c.blockSize = 1) (h : c.InCache layer slot head dim) :
    InShape (c.vShape layout) (c.valueIndex layer slot head dim layout) := by
  have hblock : slot / c.blockSize < c.numBlocks := Nat.div_lt_of_lt_mul (Nat.mul_comm _ _ ▸ h.slot)
  have hoffset : slot % c.blockSize < c.blockSize := Nat.mod_lt _ hc.blockSize
  cases layout with
  | normal =>
      have hslot : slot < c.numBlocks := by
        have := h.slot
        rwa [hlayout rfl, Nat.mul_one] at this
      exact .cons h.layer (.cons hslot (.cons h.head (.cons h.dim .nil)))
  | block => exact .cons h.layer (.cons hblock (.cons h.head (.cons h.dim (.cons hoffset .nil))))
  | vllm => exact .cons h.layer (.cons hblock (.cons h.head (.cons h.dim (.cons hoffset .nil))))

lemma keyAddress_separates (hc : c.Sound) {layout : MemLayout}
    (hlayout : layout = .normal → c.blockSize = 1) : c.Separates (c.keyAddress layout) := by
  intro layer slot head dim layer' slot' head' dim' h h' heq
  have hindex := rowMajor_injective (keyIndex_inShape hc hlayout h)
    (keyIndex_inShape hc hlayout h') heq
  cases layout with
  | normal => simpa [keyIndex] using hindex
  | block =>
      simp only [keyIndex, List.cons.injEq, and_true] at hindex
      obtain ⟨hlayer, hblock, hhead, hdim, hoffset⟩ := hindex
      exact ⟨hlayer, eq_of_div_mod hblock hoffset, hhead, hdim⟩
  | vllm =>
      simp only [keyIndex, List.cons.injEq, and_true] at hindex
      obtain ⟨hlayer, hblock, hhead, hvec, hoffset, helement⟩ := hindex
      exact ⟨hlayer, eq_of_div_mod hblock hoffset, hhead, eq_of_div_mod hvec helement⟩

lemma valueAddress_separates (hc : c.Sound) {layout : MemLayout}
    (hlayout : layout = .normal → c.blockSize = 1) : c.Separates (c.valueAddress layout) := by
  intro layer slot head dim layer' slot' head' dim' h h' heq
  have hindex := rowMajor_injective (valueIndex_inShape hc hlayout h)
    (valueIndex_inShape hc hlayout h') heq
  cases layout with
  | normal => simpa [valueIndex] using hindex
  | block =>
      simp only [valueIndex, List.cons.injEq, and_true] at hindex
      obtain ⟨hlayer, hblock, hhead, hdim, hoffset⟩ := hindex
      exact ⟨hlayer, eq_of_div_mod hblock hoffset, hhead, hdim⟩
  | vllm =>
      simp only [valueIndex, List.cons.injEq, and_true] at hindex
      obtain ⟨hlayer, hblock, hhead, hdim, hoffset⟩ := hindex
      exact ⟨hlayer, eq_of_div_mod hblock hoffset, hhead, hdim⟩

/-! ## What the kernels store -/

variable {slots : List ℕ} {stores : List (ℕ × α)} {mem mem' : ℕ → α} {n : ℕ}

lemma div_of_element (hdim : dim < c.headSize) : (head * c.headSize + dim) / c.headSize = head := by
  rw [Nat.add_comm, Nat.add_mul_div_right _ _ (by omega), Nat.div_eq_of_lt hdim, Nat.zero_add]

lemma mod_of_element (hdim : dim < c.headSize) : (head * c.headSize + dim) % c.headSize = dim := by
  rw [Nat.add_comm, Nat.add_mul_mod_self_right, Nat.mod_eq_of_lt hdim]

lemma element_lt (hhead : head < c.numHeads) (hdim : dim < c.headSize) :
    head * c.headSize + dim < c.numHeads * c.headSize :=
  calc head * c.headSize + dim < head * c.headSize + c.headSize := Nat.add_lt_add_left hdim _
    _ = (head + 1) * c.headSize := (Nat.succ_mul _ _).symm
    _ ≤ c.numHeads * c.headSize := Nat.mul_le_mul_right _ hhead

/-- The factors of an element of a layer are small. -/
lemma Sound.small (hc : c.Sound) (h : c.InCache layer slot head dim) :
    slot < 2 ^ 31 ∧ c.blockSize < 2 ^ 31 ∧ c.headSize < 2 ^ 31 ∧
      head * c.headSize + dim < c.numHeads * c.headSize := by
  have htoken : head * c.headSize + dim < c.numHeads * c.headSize := element_lt h.head h.dim
  have hslots : c.numBlocks * c.blockSize ≤ c.layerSize := Nat.le_mul_of_pos_right _ (by omega)
  have hblocks : 0 < c.numBlocks := Nat.pos_of_mul_pos_right (Nat.zero_lt_of_lt h.slot)
  have hblock : c.blockSize ≤ c.numBlocks * c.blockSize := Nat.le_mul_of_pos_left _ hblocks
  have hsize : c.headSize ≤ c.numHeads * c.headSize :=
    Nat.le_mul_of_pos_left _ (Nat.zero_lt_of_lt h.head)
  have hlayer := hc.layer
  have hcount := hc.token
  have hslot := h.slot
  exact ⟨by omega, by omega, by omega, htoken⟩

lemma Sound.kShape_prod (hc : c.Sound) : (c.kShape .vllm).tail.prod = c.layerSize := by
  calc (c.kShape .vllm).tail.prod
      = c.numBlocks * c.blockSize * (c.numHeads * (c.headSize / c.x * c.x)) := by
        simp only [kShape, List.tail_cons, List.prod_cons, List.prod_nil]
        ring
    _ = c.layerSize := by rw [Nat.div_mul_cancel hc.dvd, layerSize]

lemma vShape_prod (c : KvConfig) : (c.vShape .vllm).tail.prod = c.layerSize := by
  simp only [vShape, List.tail_cons, List.prod_cons, List.prod_nil, layerSize]
  ring

/-- The index arithmetic of the kernel is the index of the tensor. -/
lemma tgtKeyIdx_eq (hc : c.Sound) (h : c.InCache layer slot head dim) :
    c.tgtKeyIdx (Int32.ofNat slot) (Int32.ofNat (head * c.headSize + dim)) =
      Int32.ofNat (rowMajor (c.kShape .vllm).tail (c.keyIndex layer slot head dim .vllm).tail) := by
  obtain ⟨hslot, hblock, hsize, htoken⟩ := hc.small h
  have hi : head * c.headSize + dim < 2 ^ 31 := by have := hc.token; omega
  have hx : c.x < 2 ^ 31 := (Nat.le_of_dvd (Nat.zero_lt_of_lt h.dim) hc.dvd).trans_lt hsize
  have hdim : dim < 2 ^ 31 := h.dim.trans hsize
  simp only [tgtKeyIdx, int32_ofNat_div hslot hblock, int32_ofNat_mod hslot hblock,
    int32_ofNat_div hi hsize, int32_ofNat_mod hi hsize, int32_ofNat_div hsize hx,
    div_of_element h.dim, mod_of_element h.dim, int32_ofNat_div hdim hx, int32_ofNat_mod hdim hx,
    ← Int32.ofNat_mul, ← Int32.ofNat_add]
  refine congrArg Int32.ofNat ?_
  simp only [keyIndex, kShape, rowMajor, List.tail_cons, List.prod_cons, List.prod_nil]
  ring

lemma tgtValueIdx_eq (hc : c.Sound) (h : c.InCache layer slot head dim) :
    c.tgtValueIdx (Int32.ofNat slot) (Int32.ofNat (head * c.headSize + dim)) =
      Int32.ofNat
        (rowMajor (c.vShape .vllm).tail (c.valueIndex layer slot head dim .vllm).tail) := by
  obtain ⟨hslot, hblock, hsize, htoken⟩ := hc.small h
  have hi : head * c.headSize + dim < 2 ^ 31 := by have := hc.token; omega
  simp only [tgtValueIdx, int32_ofNat_div hslot hblock, int32_ofNat_mod hslot hblock,
    int32_ofNat_div hi hsize, int32_ofNat_mod hi hsize, div_of_element h.dim,
    mod_of_element h.dim, ← Int32.ofNat_mul, ← Int32.ofNat_add]
  refine congrArg Int32.ofNat ?_
  simp only [valueIndex, vShape, rowMajor, List.tail_cons, List.prod_cons, List.prod_nil]
  ring

/-- Where the kernel stores an element of a key. -/
lemma elementAt_key (hc : c.Sound) (h : c.InCache layer slot head dim) :
    elementAt (layerOffset (c.kShape .vllm) layer)
        (c.tgtKeyIdx (Int32.ofNat slot) (Int32.ofNat (head * c.headSize + dim))) =
      c.keyAddress .vllm layer slot head dim := by
  rw [tgtKeyIdx_eq hc h]
  have hshape : InShape (c.kShape .vllm) (c.keyIndex layer slot head dim .vllm) :=
    keyIndex_inShape hc (fun h => by cases h) h
  obtain ⟨hlayer, hidx⟩ := List.forall₂_cons.mp hshape
  exact elementAt_rowMajor hlayer hidx (hc.kShape_prod ▸ hc.layer) (hc.kShape_prod ▸ hc.cache)

lemma elementAt_value (hc : c.Sound) (h : c.InCache layer slot head dim) :
    elementAt (layerOffset (c.vShape .vllm) layer)
        (c.tgtValueIdx (Int32.ofNat slot) (Int32.ofNat (head * c.headSize + dim))) =
      c.valueAddress .vllm layer slot head dim := by
  rw [tgtValueIdx_eq hc h]
  have hshape : InShape (c.vShape .vllm) (c.valueIndex layer slot head dim .vllm) :=
    valueIndex_inShape hc (fun h => by cases h) h
  obtain ⟨hlayer, hidx⟩ := List.forall₂_cons.mp hshape
  exact elementAt_rowMajor hlayer hidx (c.vShape_prod ▸ hc.layer) (c.vShape_prod ▸ hc.cache)

/-- An `int` is enough for the elements of the tokens. -/
def Indexed (c : KvConfig) (tokens : TokenTensor α) : Prop :=
  ∀ token < tokens.numTokens, token * tokens.stride + c.numHeads * c.headSize ≤ 2 ^ 31

lemma Indexed.load {tokens : TokenTensor α} (h : c.Indexed tokens) {token : ℕ}
    (htoken : token < tokens.numTokens) (hhead : head < c.numHeads) (hdim : dim < c.headSize) :
    tokens.data (elementAt 0 (Int32.ofNat token * Int32.ofNat tokens.stride +
      Int32.ofNat (head * c.headSize + dim))) = tokens.at c token head dim := by
  have hi : head * c.headSize + dim < c.numHeads * c.headSize := element_lt hhead hdim
  have hle := h token htoken
  rw [← Int32.ofNat_mul, ← Int32.ofNat_add, elementAt_ofNat (by omega) (by omega), Nat.zero_add,
    TokenTensor.at, Nat.add_assoc]

lemma reshapeKeys_perm (hc : c.Sound) (hlayer : layer < c.numLayers) {keys : TokenTensor α}
    (hkeys : c.Indexed keys) {slotMapping : ℕ → ℕ}
    (hslots : ∀ token < keys.numTokens, slotMapping token < c.numBlocks * c.blockSize) :
    (c.reshapeKeys layer keys slotMapping).Perm (c.tokenStores keys.numTokens
      (fun token => c.keyAddress .vllm layer (slotMapping token)) (keys.at c)) :=
  (c.reshapeAndCacheKernel_perm _ _ _ _).trans <| .of_eq <| tokenStores_congr
    fun token htoken _ hhead _ hdim =>
      ⟨elementAt_key hc ⟨hlayer, hslots token htoken, hhead, hdim⟩, hkeys.load htoken hhead hdim⟩

lemma reshapeValues_perm (hc : c.Sound) (hlayer : layer < c.numLayers) {values : TokenTensor α}
    (hvalues : c.Indexed values) {slotMapping : ℕ → ℕ}
    (hslots : ∀ token < values.numTokens, slotMapping token < c.numBlocks * c.blockSize) :
    (c.reshapeValues layer values slotMapping).Perm (c.tokenStores values.numTokens
      (fun token => c.valueAddress .vllm layer (slotMapping token)) (values.at c)) :=
  (c.reshapeAndCacheKernel_perm _ _ _ _).trans <| .of_eq <| tokenStores_congr
    fun token htoken _ hhead _ hdim =>
      ⟨elementAt_value hc ⟨hlayer, hslots token htoken, hhead, hdim⟩,
        hvalues.load htoken hhead hdim⟩

/-- Where an element of a row of a buffer lies. -/
def bufferAddress (c : KvConfig) (row head dim : ℕ) : ℕ :=
  row * (c.numHeads * c.headSize) + head * c.headSize + dim

lemma moveChecks_ok {src dest : List ℕ} {srcRows : Option ℕ} {destRows : ℕ}
    {stores' : List (ℕ × α)} (h : moveChecks src dest srcRows destRows stores = .ok stores') :
    src.length = dest.length ∧ stores = stores' := by
  unfold moveChecks at h
  split_ifs at h with hlen
  exact ⟨not_not.mp hlen, Except.ok.inj h⟩

lemma getD_range {n i : ℕ} (h : i < n) : (List.range n).getD i 0 = i := by
  rw [List.getD_eq_getElem _ _ (by rwa [List.length_range]), List.getElem_range]

/-- Programs of which each moves a token. -/
lemma programs_eq (c : KvConfig) {src dest : List ℕ} (hlen : src.length = dest.length)
    (address : ℕ → ℕ → ℕ → ℕ) (value : ℕ → ℕ → ℕ → α) :
    ((src.zip dest).flatMap fun index => (List.range c.numHeads).flatMap fun head =>
      (List.range c.headSize).map fun dim => (address index.2 head dim, value index.1 head dim)) =
      c.tokenStores src.length (fun i => address (dest.getD i 0))
        fun i => value (src.getD i 0) := by
  have hzip : src.zip dest =
      (List.range src.length).map fun i => (src.getD i 0, dest.getD i 0) := by
    refine List.ext_getElem (by simp [hlen]) fun i hi hi' => ?_
    have hsrc : i < src.length := by simpa using hi'
    have hdest : i < dest.length := by omega
    simp [List.getElem?_eq_getElem hsrc, List.getElem?_eq_getElem hdest]
  rw [hzip, List.flatMap_map, tokenStores_eq]

/-- A program that moves a token of the paged keys. -/
lemma keyKernel_eq (hc : c.Sound) (layer : ℕ) (kCache : ℕ → α) (src dest : ℕ) :
    c.moveTokensFromBlockedKCacheKernel layer kCache src dest =
      (List.range c.numHeads).flatMap fun head => (List.range c.headSize).map fun dim =>
        (c.bufferAddress dest head dim, kCache (c.keyAddress .vllm layer src head dim)) := by
  have hsize : c.headSize / c.x * c.x = c.headSize := Nat.div_mul_cancel hc.dvd
  simp only [moveTokensFromBlockedKCacheKernel, flatMap_ite]
  rw [flatMap_mask c.numHeads_le_blockH]
  refine List.flatMap_congr fun head _ => ?_
  have hrange : List.range c.headSize = (List.range (c.headSize / c.x)).flatMap fun vec =>
      (List.range c.x).map fun i => vec * c.x + i := by rw [← range_mul, hsize]
  rw [hrange, List.map_flatMap]
  refine List.flatMap_congr fun vec _ => ?_
  rw [← List.map_eq_flatMap, List.map_map]
  refine List.map_congr_left fun i hi => ?_
  have hdiv : (vec * c.x + i) / c.x = vec := by
    rw [Nat.add_comm, Nat.add_mul_div_right _ _ hc.x, Nat.div_eq_of_lt (List.mem_range.mp hi),
      Nat.zero_add]
  have hmod : (vec * c.x + i) % c.x = i := by
    rw [Nat.add_comm, Nat.add_mul_mod_self_right, Nat.mod_eq_of_lt (List.mem_range.mp hi)]
  simp only [Function.comp_apply, Prod.mk.injEq]
  refine ⟨?_, congrArg kCache ?_⟩
  · simp only [strides, List.prod_cons, List.prod_nil, List.getD_cons_zero, List.getD_cons_succ,
      bufferAddress, Nat.mul_one, hsize]
    ring
  · simp only [keyAddress, keyIndex, layerOffset, kShape, strides, rowMajor, hdiv, hmod,
      List.tail_cons, List.prod_cons, List.prod_nil, List.getD_cons_zero, List.getD_cons_succ]
    ring

/-- A program that moves a token of the paged values. -/
lemma valueKernel_eq (c : KvConfig) (layer : ℕ) (vCache : ℕ → α) (src dest : ℕ) :
    c.moveTokensFromBlockedVCacheKernel layer vCache src dest =
      (List.range c.numHeads).flatMap fun head => (List.range c.headSize).map fun dim =>
        (c.bufferAddress dest head dim, vCache (c.valueAddress .vllm layer src head dim)) := by
  simp only [moveTokensFromBlockedVCacheKernel, flatMap_ite]
  rw [flatMap_mask c.numHeads_le_blockH]
  refine List.flatMap_congr fun head _ => ?_
  rw [← List.map_eq_flatMap]
  refine List.map_congr_left fun dim _ => Prod.ext ?_ (congrArg vCache ?_)
  · simp only [strides, List.prod_cons, List.prod_nil, List.getD_cons_zero, List.getD_cons_succ,
      bufferAddress]
    ring
  · simp only [valueAddress, valueIndex, layerOffset, vShape, strides, rowMajor, List.tail_cons,
      List.prod_cons, List.prod_nil, List.getD_cons_zero, List.getD_cons_succ]
    ring

/-- Where an element of a row of a storage lies. -/
def storageAddress (c : KvConfig) (storage : TokenStorage) (row head dim : ℕ) : ℕ :=
  storage.base + (row * storage.stride + head * c.headSize + dim)

/-- A program that moves a token between storages. -/
lemma tokenKernel_eq (c : KvConfig) (src dest : TokenStorage) (data : ℕ → α) (i j : ℕ) :
    c.discontinuousMoveTokensKernel src dest data i j =
      (List.range c.numHeads).flatMap fun head => (List.range c.headSize).map fun dim =>
        (c.storageAddress dest j head dim, data (c.storageAddress src i head dim)) := by
  simp only [discontinuousMoveTokensKernel, flatMap_ite]
  rw [flatMap_mask c.numHeads_le_blockH]
  refine List.flatMap_congr fun head _ => ?_
  rw [← List.map_eq_flatMap]
  refine List.map_congr_left fun dim _ => ?_
  simp only [strides, List.prod_cons, List.prod_nil, List.getD_cons_zero, List.getD_cons_succ,
    storageAddress, Nat.mul_one, Nat.one_mul, Nat.mul_comm c.headSize head]

lemma storageAddress_normal (c : KvConfig) (layer slot head dim : ℕ) :
    c.storageAddress (c.normalStorage layer) slot head dim =
      c.keyAddress .normal layer slot head dim := by
  simp only [storageAddress, normalStorage, layerOffset, keyAddress, keyIndex, kShape, rowMajor,
    List.tail_cons, List.prod_cons, List.prod_nil]
  ring

lemma storageAddress_buffer (c : KvConfig) (rows row head dim : ℕ) :
    c.storageAddress (c.bufferStorage rows) row head dim = c.bufferAddress row head dim := by
  simp only [storageAddress, bufferStorage, bufferAddress, Nat.zero_add]

lemma storageAddress_tokens (c : KvConfig) (tokens : TokenTensor α) (token head dim : ℕ) :
    tokens.data (c.storageAddress (tokenStorage tokens) token head dim) =
      tokens.at c token head dim := by
  simp only [storageAddress, tokenStorage, Nat.zero_add, TokenTensor.at]

/-- What the reference path caches. -/
lemma cacheNormal_ok {tokens : TokenTensor α} {allocatedIndices : List ℕ}
    (h : c.cacheNormal layer tokens allocatedIndices = .ok stores) :
    allocatedIndices.length = tokens.numTokens ∧ stores = c.tokenStores tokens.numTokens
      (fun token => c.keyAddress .normal layer (allocatedIndices.getD token 0)) (tokens.at c) := by
  obtain ⟨hlen, rfl⟩ := moveChecks_ok h
  simp only [tokenKernel_eq, storageAddress_normal, storageAddress_tokens]
  rw [programs_eq c hlen (c.keyAddress .normal layer) (tokens.at c)]
  rw [List.length_range] at hlen ⊢
  exact ⟨hlen.symm, tokenStores_congr fun token htoken _ _ _ _ => ⟨rfl, by rw [getD_range htoken]⟩⟩

/-- What is fetched into the rows of a buffer. -/
def fetchStores (c : KvConfig) (address : ℕ → ℕ → ℕ → ℕ) (cache : ℕ → α) (slots : List ℕ) :
    List (ℕ × α) :=
  c.tokenStores slots.length c.bufferAddress fun row head dim =>
    cache (address (slots.getD row 0) head dim)

lemma programs_fetch (c : KvConfig) (address : ℕ → ℕ → ℕ → ℕ) (cache : ℕ → α) {rows : ℕ}
    (hlen : slots.length = (List.range rows).length) :
    ((slots.zip (List.range rows)).flatMap fun index =>
      (List.range c.numHeads).flatMap fun head => (List.range c.headSize).map fun dim =>
        (c.bufferAddress index.2 head dim, cache (address index.1 head dim))) =
      c.fetchStores address cache slots := by
  rw [programs_eq c hlen c.bufferAddress fun slot head dim => cache (address slot head dim)]
  rw [List.length_range] at hlen
  exact tokenStores_congr fun row hrow _ _ _ _ => ⟨by rw [getD_range (hlen ▸ hrow)], rfl⟩

lemma fetchNormal_ok {cache : ℕ → α} {rows : ℕ}
    (h : c.fetchNormal layer cache rows slots = .ok stores) :
    slots.length = rows ∧ stores = c.fetchStores (c.keyAddress .normal layer) cache slots := by
  obtain ⟨hlen, rfl⟩ := moveChecks_ok h
  simp only [tokenKernel_eq, storageAddress_normal, storageAddress_buffer]
  exact ⟨hlen.trans List.length_range, programs_fetch c (c.keyAddress .normal layer) cache hlen⟩

lemma fetchKeys_ok (hc : c.Sound) {kCache : ℕ → α} {rows : ℕ}
    (h : c.moveTokensFromBlockedKCache layer kCache rows slots (List.range rows) = .ok stores) :
    slots.length = rows ∧ stores = c.fetchStores (c.keyAddress .vllm layer) kCache slots := by
  obtain ⟨hlen, rfl⟩ := moveChecks_ok h
  simp only [keyKernel_eq hc]
  exact ⟨hlen.trans List.length_range, programs_fetch c (c.keyAddress .vllm layer) kCache hlen⟩

lemma fetchValues_ok {vCache : ℕ → α} {rows : ℕ}
    (h : c.moveTokensFromBlockedVCache layer vCache rows slots (List.range rows) = .ok stores) :
    slots.length = rows ∧ stores = c.fetchStores (c.valueAddress .vllm layer) vCache slots := by
  obtain ⟨hlen, rfl⟩ := moveChecks_ok h
  simp only [valueKernel_eq]
  exact ⟨hlen.trans List.length_range, programs_fetch c (c.valueAddress .vllm layer) vCache hlen⟩

/-! ## What the caches hold -/

variable {address : ℕ → ℕ → ℕ → ℕ → ℕ} {value : ℕ → ℕ → ℕ → α}

/-- Different slots of the cache. -/
structure DistinctSlots (c : KvConfig) (slots : List ℕ) : Prop where
  nodup : slots.Nodup
  lt : ∀ slot ∈ slots, slot < c.numBlocks * c.blockSize

lemma getD_idxOf (h : slot ∈ slots) : slots.getD (slots.idxOf slot) 0 = slot := by
  rw [List.getD_eq_getElem _ _ (List.idxOf_lt_length_of_mem h), List.getElem_idxOf]

lemma getD_mem {i : ℕ} (h : i < slots.length) : slots.getD i 0 ∈ slots := by
  rw [List.getD_eq_getElem _ _ h]
  exact List.getElem_mem h

lemma mem_tokenStores {address : ℕ → ℕ → ℕ → ℕ} {store : ℕ × α} :
    store ∈ c.tokenStores n address value ↔ ∃ token < n, ∃ head < c.numHeads, ∃ dim < c.headSize,
      store = (address token head dim, value token head dim) := by
  rw [tokenStores_eq]
  simp only [List.mem_flatMap, List.mem_range, List.mem_map]
  constructor
  · rintro ⟨token, htoken, head, hhead, dim, hdim, rfl⟩
    exact ⟨token, htoken, head, hhead, dim, hdim, rfl⟩
  · rintro ⟨token, htoken, head, hhead, dim, hdim, rfl⟩
    exact ⟨token, htoken, head, hhead, dim, hdim, rfl⟩

/-- The addresses of tokens differ if those of their elements do. -/
lemma nodup_tokenStores {address : ℕ → ℕ → ℕ → ℕ}
    (hinj : ∀ i j h h' d d', i < n → j < n → h < c.numHeads → h' < c.numHeads → d < c.headSize →
      d' < c.headSize → address i h d = address j h' d' → i = j ∧ h = h' ∧ d = d') :
    ((c.tokenStores n address value).map Prod.fst).Nodup := by
  refine nodup_addresses (fun i : ℕ × ℕ × ℕ => address i.1 i.2.1 i.2.2)
    (List.nodup_range.product (List.nodup_range.product List.nodup_range)) ?_
  rintro ⟨i, h, d⟩ hi ⟨j, h', d'⟩ hj heq
  obtain ⟨hi, hhd⟩ := List.mem_product.mp hi
  obtain ⟨hh, hd⟩ := List.mem_product.mp hhd
  obtain ⟨hj, hhd'⟩ := List.mem_product.mp hj
  obtain ⟨hh', hd'⟩ := List.mem_product.mp hhd'
  rw [List.mem_range] at hi hh hd hj hh' hd'
  obtain ⟨rfl, rfl, rfl⟩ := hinj i j h h' d d' hi hj hh hh' hd hd' heq
  rfl

/-- The elements of the tokens of an iteration go to different addresses. -/
lemma nodup_cacheStores (hsep : c.Separates address) (hlayer : layer < c.numLayers)
    (hslots : c.DistinctSlots slots) : ((c.tokenStores slots.length
      (fun token => address layer (slots.getD token 0)) value).map Prod.fst).Nodup := by
  have hin : ∀ {i h d}, i < slots.length → h < c.numHeads → d < c.headSize →
      c.InCache layer (slots.getD i 0) h d := fun hi hh hd =>
    ⟨hlayer, hslots.lt _ (getD_mem hi), hh, hd⟩
  refine nodup_tokenStores fun i j h h' d d' hi hj hh hh' hd hd' heq => ?_
  obtain ⟨-, hslot, hhead, hdim⟩ := hsep (hin hi hh hd) (hin hj hh' hd') heq
  rw [List.getD_eq_getElem _ _ hi, List.getD_eq_getElem _ _ hj] at hslot
  exact ⟨(hslots.nodup.getElem_inj_iff).mp hslot, hhead, hdim⟩

/-- The rows of a cache: what each slot of a layer holds, if anything is known of it. -/
abbrev Rows (β : Type u) := ℕ → ℕ → Option (ℕ → ℕ → β)

/-- The tokens of an iteration are cached in their slots. -/
def Rows.cache {β : Type u} (rows : Rows β) (layer : ℕ) (slots : List ℕ)
    (tokens : ℕ → ℕ → ℕ → β) : Rows β :=
  fun layer' slot =>
    if layer' = layer ∧ slot ∈ slots then some (tokens (slots.idxOf slot)) else rows layer' slot

/-- A tensor holds one part of the rows. -/
def Represents {β : Type u} (c : KvConfig) (address : ℕ → ℕ → ℕ → ℕ → ℕ) (part : β → α)
    (rows : Rows β) (mem : ℕ → α) : Prop :=
  ∀ ⦃layer slot head dim row⦄, c.InCache layer slot head dim → rows layer slot = some row →
    mem (address layer slot head dim) = part (row head dim)

variable {β : Type u} {part : β → α} {rows : Rows β} {tokens : ℕ → ℕ → ℕ → β}

/-- The threads that cache the tokens of an iteration, in whatever order they run. -/
lemma Represents.cache (h : c.Represents address part rows mem) (hsep : c.Separates address)
    (hlayer : layer < c.numLayers) (hslots : c.DistinctSlots slots)
    (hstores : stores.Perm (c.tokenStores slots.length
      (fun token => address layer (slots.getD token 0))
      fun token head dim => part (tokens token head dim)))
    (hlaunch : Launched stores mem mem') :
    c.Represents address part (rows.cache layer slots tokens) mem' := by
  have hnodup : (stores.map Prod.fst).Nodup :=
    (hstores.map _).nodup_iff.mpr (nodup_cacheStores hsep hlayer hslots)
  intro layer' slot head dim row hin hrow
  rw [Rows.cache] at hrow
  split_ifs at hrow with hnew
  · obtain ⟨rfl, hslot⟩ := hnew
    rw [← Option.some.inj hrow]
    refine hlaunch.at_store hnodup (hstores.mem_iff.mpr (mem_tokenStores.mpr
      ⟨slots.idxOf slot, List.idxOf_lt_length_of_mem hslot, head, hin.head, dim, hin.dim, ?_⟩))
    rw [getD_idxOf hslot]
  · rw [hlaunch.frame fun hmem => ?_, h hin hrow]
    obtain ⟨store, hstore, haddr⟩ := List.mem_map.mp hmem
    obtain ⟨token, htoken, head', hhead', dim', hdim', rfl⟩ :=
      mem_tokenStores.mp (hstores.mem_iff.mp hstore)
    obtain ⟨hlayer', hslot, -, -⟩ :=
      hsep ⟨hlayer, hslots.lt _ (getD_mem htoken), hhead', hdim'⟩ hin haddr
    exact hnew ⟨hlayer'.symm, hslot ▸ getD_mem htoken⟩

/-! ## What is fetched -/

variable {buffer buffer' cache : ℕ → α}

/-- The rows of a buffer are the slots of a cache, and the rest of it is as before. -/
structure Fetched (c : KvConfig) (address : ℕ → ℕ → ℕ → ℕ → ℕ) (layer : ℕ) (cache : ℕ → α)
    (slots : List ℕ) (buffer buffer' : ℕ → α) : Prop where
  row : ∀ i < slots.length, ∀ head < c.numHeads, ∀ dim < c.headSize,
    buffer' (c.bufferAddress i head dim) = cache (address layer (slots.getD i 0) head dim)
  rest : ∀ addr, slots.length * (c.numHeads * c.headSize) ≤ addr → buffer' addr = buffer addr

lemma bufferAddress_eq (c : KvConfig) (rows row head dim : ℕ) : c.bufferAddress row head dim =
    rowMajor [rows, c.numHeads, c.headSize] [row, head, dim] := by
  simp only [bufferAddress, rowMajor, List.prod_cons, List.prod_nil]
  ring

/-- The programs that fetch a list of slots, in whatever order they run. -/
lemma fetched (h : Launched (c.fetchStores (address layer) cache slots) buffer buffer') :
    c.Fetched address layer cache slots buffer buffer' := by
  have hin : ∀ {i head dim}, i < slots.length → head < c.numHeads → dim < c.headSize →
      InShape [slots.length, c.numHeads, c.headSize] [i, head, dim] := fun hi hhead hdim =>
    .cons hi (.cons hhead (.cons hdim .nil))
  have hnodup : ((c.fetchStores (address layer) cache slots).map Prod.fst).Nodup := by
    refine nodup_tokenStores fun i j h h' d d' hi hj hh hh' hd hd' heq => ?_
    rw [bufferAddress_eq c slots.length, bufferAddress_eq c slots.length] at heq
    simpa using rowMajor_injective (hin hi hh hd) (hin hj hh' hd') heq
  refine ⟨fun i hi head hhead dim hdim => h.at_store hnodup (mem_tokenStores.mpr
    ⟨i, hi, head, hhead, dim, hdim, rfl⟩), fun addr haddr => h.frame fun hmem => ?_⟩
  obtain ⟨store, hstore, rfl⟩ := List.mem_map.mp hmem
  obtain ⟨i, hi, head, hhead, dim, hdim, rfl⟩ := mem_tokenStores.mp hstore
  have hlt := rowMajor_lt (hin hi hhead hdim)
  rw [← bufferAddress_eq] at hlt
  simp only [List.prod_cons, List.prod_nil, Nat.mul_one] at hlt
  exact absurd hlt (Nat.not_lt.mpr haddr)

end KvConfig

end ParrotServe
