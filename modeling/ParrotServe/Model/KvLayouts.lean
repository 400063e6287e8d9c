import Mathlib.Data.Nat.Log
import ParrotServe.Framework.StridedMemory
import ParrotServe.Model.BuiltinEngine

/-!
# Layouts of the KV cache

The tensors of `ModelCacheStorage` (`parrot/engine/builtin/mem.py`, `mem_layout.py`) and the kernels
that move keys and values: `reshape_and_cache` of the vendored vLLM
(`3rdparty/vllm/csrc/cache_kernels.cu`), which stores the tokens of an iteration in the paged
layout, `move_tokens_from_blocked_k_cache` and `move_tokens_from_blocked_v_cache`, which fetch the
slots of a context from it, and `discontinuous_move_tokens`, which does both for the normal layout
(`parrot/engine/builtin/kernels/tokens_moving.py`).

A kernel is the list of the stores of all its threads, with the index arithmetic of the source: the
loops over threads of CUDA, and the blocks of offsets with their masks of Triton.  The memory it
loads from is not the memory it stores to, and an element has any type.

`reshape_and_cache_kernel` computes its indices as an `int` of 32 bits, which wraps; the kernels of
Triton load slots of 64 bits, and their indices are natural numbers.  So are the loop variables: the
loop of a thread ends before an `int` wraps if a token has at most `2 ^ 30` elements.
-/

namespace ParrotServe

universe u

variable {α : Type u}

/-- `MemLayout`. -/
inductive MemLayout
  | normal
  | block
  | vllm
  deriving DecidableEq

/-- `ATTN_FUNC_LAYOUT_MAP`. -/
def attnFuncLayoutMap : AttnFunc → MemLayout
  | .xFormersWithBuffer => .normal
  | .xFormersFillVllmPagedAttentionGenerate => .vllm
  | .xFormersFillSharedPromptsGenerate => .vllm

/-- The sizes in the configurations of a model and an engine. -/
structure KvConfig where
  numLayers : ℕ
  numBlocks : ℕ
  blockSize : ℕ
  numHeads : ℕ
  headSize : ℕ
  /-- Bytes. -/
  elementSize : ℕ
  deriving DecidableEq

namespace KvConfig

variable (c : KvConfig)

/-- The elements that are loaded at once. -/
def x : ℕ := 16 / c.elementSize

/-- The shape of `k_cache`. -/
def kShape : MemLayout → List ℕ
  | .normal => [c.numLayers, c.numBlocks, c.numHeads, c.headSize]
  | .block => [c.numLayers, c.numBlocks, c.numHeads, c.headSize, c.blockSize]
  | .vllm => [c.numLayers, c.numBlocks, c.numHeads, c.headSize / c.x, c.blockSize, c.x]

/-- The shape of `v_cache`. -/
def vShape : MemLayout → List ℕ
  | .normal => [c.numLayers, c.numBlocks, c.numHeads, c.headSize]
  | .block | .vllm => [c.numLayers, c.numBlocks, c.numHeads, c.headSize, c.blockSize]

/-- The tensors of `ModelCacheStorage`. -/
def modelCacheStorage (layout : MemLayout) : Except PyError (List ℕ × List ℕ) :=
  if layout = .normal ∧ c.blockSize ≠ 1 then
    .error (.assertionError "Block size must be 1 for normal layout.")
  else .ok (c.kShape layout, c.vShape layout)

end KvConfig

/-- The offset of `cache[layer_idx]`. -/
def layerOffset (shape : List ℕ) (layer : ℕ) : ℕ := layer * shape.tail.prod

/-- Keys or values of the tokens of an iteration: rows of one projection, `stride` apart. -/
structure TokenTensor (α : Type u) where
  data : ℕ → α
  numTokens : ℕ
  stride : ℕ

/-- `tensor[token, head, dim]`. -/
def TokenTensor.at (tensor : TokenTensor α) (c : KvConfig) (token head dim : ℕ) : α :=
  tensor.data (token * tensor.stride + head * c.headSize + dim)

namespace KvConfig

variable (c : KvConfig)

/-! ## `reshape_and_cache` -/

/-- `tgt_key_idx` of a slot and the element `i` of a token. -/
def tgtKeyIdx (slotIdx i : Int32) : Int32 :=
  let numHeads := Int32.ofNat c.numHeads
  let headSize := Int32.ofNat c.headSize
  let blockSize := Int32.ofNat c.blockSize
  let x := Int32.ofNat c.x
  let blockIdx := slotIdx / blockSize
  let blockOffset := slotIdx % blockSize
  let headIdx := i / headSize
  let headOffset := i % headSize
  let xIdx := headOffset / x
  let xOffset := headOffset % x
  blockIdx * numHeads * (headSize / x) * blockSize * x
    + headIdx * (headSize / x) * blockSize * x
    + xIdx * blockSize * x
    + blockOffset * x
    + xOffset

/-- `tgt_value_idx`. -/
def tgtValueIdx (slotIdx i : Int32) : Int32 :=
  let numHeads := Int32.ofNat c.numHeads
  let headSize := Int32.ofNat c.headSize
  let blockSize := Int32.ofNat c.blockSize
  let blockIdx := slotIdx / blockSize
  let blockOffset := slotIdx % blockSize
  let headIdx := i / headSize
  let headOffset := i % headSize
  blockIdx * numHeads * headSize * blockSize
    + headIdx * headSize * blockSize
    + headOffset * blockSize
    + blockOffset

/-- The threads of a block. -/
def blockDim : ℕ := min (c.numHeads * c.headSize) 512

/-- `reshape_and_cache_kernel`, for one of the two caches. -/
def reshapeAndCacheKernel (base : ℕ) (tgtIdx : Int32 → Int32 → Int32) (tokens : TokenTensor α)
    (slotMapping : ℕ → ℕ) : List (ℕ × α) :=
  (List.range tokens.numTokens).flatMap fun tokenIdx =>
    (List.range c.blockDim).flatMap fun threadIdx =>
      (rangeStep threadIdx (c.numHeads * c.headSize) c.blockDim).map fun i =>
        let srcIdx := Int32.ofNat tokenIdx * Int32.ofNat tokens.stride + Int32.ofNat i
        let slotIdx := Int32.ofNat (slotMapping tokenIdx)
        (elementAt base (tgtIdx slotIdx (Int32.ofNat i)), tokens.data (elementAt 0 srcIdx))

/-- What `vllm_reshape_and_cache` stores to `k_cache`. -/
def reshapeKeys (layer : ℕ) (keys : TokenTensor α) (slotMapping : ℕ → ℕ) : List (ℕ × α) :=
  c.reshapeAndCacheKernel (layerOffset (c.kShape .vllm) layer) c.tgtKeyIdx keys slotMapping

/-- What `vllm_reshape_and_cache` stores to `v_cache`. -/
def reshapeValues (layer : ℕ) (values : TokenTensor α) (slotMapping : ℕ → ℕ) : List (ℕ × α) :=
  c.reshapeAndCacheKernel (layerOffset (c.vShape .vllm) layer) c.tgtValueIdx values slotMapping

/-! ## Fetching from the paged layout -/

/-- `BLOCK_H`, `triton.next_power_of_2(num_heads)`. -/
def blockH : ℕ := 2 ^ Nat.clog 2 c.numHeads

/-- The checks of the functions that move tokens; the number of rows of the source is checked in the
normal layout. -/
def moveChecks (srcIndices destIndices : List ℕ) (srcRows : Option ℕ) (destRows : ℕ)
    (stores : List (ℕ × α)) : Except PyError (List (ℕ × α)) :=
  if srcIndices.length ≠ destIndices.length then
    .error (.assertionError "src_indices and dest_indices must have the same shape")
  else if srcRows.any fun rows => decide (rows < srcIndices.length) then
    .error (.assertionError "src_storage is too small")
  else if destRows < destIndices.length then .error (.assertionError "dest_storage is too small")
  else .ok stores

/-- `move_tokens_from_blocked_k_cache_kernel`: the stores of a program. -/
def moveTokensFromBlockedKCacheKernel (layer : ℕ) (kCache : ℕ → α) (srcIndex destIndex : ℕ) :
    List (ℕ × α) :=
  let blockId := srcIndex / c.blockSize
  let blockOffset := srcIndex % c.blockSize
  let cacheStrides := strides (c.kShape .vllm).tail
  let outStrides := strides [0, c.numHeads, c.headSize / c.x, c.x]
  (List.range c.blockH).flatMap fun offsH =>
    (List.range (c.headSize / c.x)).flatMap fun xIdx =>
      (List.range c.x).flatMap fun xOffs =>
        if offsH < c.numHeads then
          [(destIndex * outStrides.getD 0 0 + outStrides.getD 1 0 * offsH
              + outStrides.getD 2 0 * xIdx + outStrides.getD 3 0 * xOffs,
            kCache (layerOffset (c.kShape .vllm) layer + (blockId * cacheStrides.getD 0 0
              + cacheStrides.getD 1 0 * offsH + cacheStrides.getD 2 0 * xIdx
              + cacheStrides.getD 3 0 * blockOffset + cacheStrides.getD 4 0 * xOffs)))]
        else []

/-- `move_tokens_from_blocked_k_cache`. -/
def moveTokensFromBlockedKCache (layer : ℕ) (kCache : ℕ → α) (destRows : ℕ)
    (srcSlotIndices destIndices : List ℕ) : Except PyError (List (ℕ × α)) :=
  moveChecks srcSlotIndices destIndices none destRows
    ((srcSlotIndices.zip destIndices).flatMap fun index =>
      c.moveTokensFromBlockedKCacheKernel layer kCache index.1 index.2)

/-- `move_tokens_from_blocked_v_cache_kernel`: the stores of a program. -/
def moveTokensFromBlockedVCacheKernel (layer : ℕ) (vCache : ℕ → α) (srcIndex destIndex : ℕ) :
    List (ℕ × α) :=
  let blockId := srcIndex / c.blockSize
  let blockOffset := srcIndex % c.blockSize
  let cacheStrides := strides (c.vShape .vllm).tail
  let outStrides := strides [0, c.numHeads, c.headSize]
  (List.range c.blockH).flatMap fun offsH =>
    (List.range c.headSize).flatMap fun offsD =>
      if offsH < c.numHeads then
        [(destIndex * outStrides.getD 0 0 + outStrides.getD 1 0 * offsH
            + outStrides.getD 2 0 * offsD,
          vCache (layerOffset (c.vShape .vllm) layer + (blockId * cacheStrides.getD 0 0
            + cacheStrides.getD 1 0 * offsH + cacheStrides.getD 2 0 * offsD
            + cacheStrides.getD 3 0 * blockOffset)))]
      else []

/-- `move_tokens_from_blocked_v_cache`. -/
def moveTokensFromBlockedVCache (layer : ℕ) (vCache : ℕ → α) (destRows : ℕ)
    (srcSlotIndices destIndices : List ℕ) : Except PyError (List (ℕ × α)) :=
  moveChecks srcSlotIndices destIndices none destRows
    ((srcSlotIndices.zip destIndices).flatMap fun index =>
      c.moveTokensFromBlockedVCacheKernel layer vCache index.1 index.2)

/-! ## Moving tokens in the normal layout -/

/-- A storage of tokens: where it lies in its memory, its rows and its strides. -/
structure TokenStorage where
  base : ℕ
  rows : ℕ
  stride : ℕ

/-- `discontinuous_move_tokens_kernel`: the stores of a program.  The heads of a token are
contiguous in every storage. -/
def discontinuousMoveTokensKernel (src dest : TokenStorage) (data : ℕ → α)
    (srcIndex destIndex : ℕ) : List (ℕ × α) :=
  let tokenStrides := strides [0, c.numHeads, c.headSize]
  (List.range c.blockH).flatMap fun offsH =>
    (List.range c.headSize).flatMap fun offsD =>
      if offsH < c.numHeads then
        [(dest.base + (destIndex * dest.stride + tokenStrides.getD 1 0 * offsH
            + tokenStrides.getD 2 0 * offsD),
          data (src.base + (srcIndex * src.stride + tokenStrides.getD 1 0 * offsH
            + tokenStrides.getD 2 0 * offsD)))]
      else []

/-- `discontinuous_move_tokens`. -/
def discontinuousMoveTokens (src dest : TokenStorage) (data : ℕ → α)
    (srcIndices destIndices : List ℕ) : Except PyError (List (ℕ × α)) :=
  moveChecks srcIndices destIndices (some src.rows) dest.rows
    ((srcIndices.zip destIndices).flatMap fun index =>
      c.discontinuousMoveTokensKernel src dest data index.1 index.2)

/-- `get_k_cache(layer_idx)` in the normal layout, where `v_cache` has the same shape. -/
def normalStorage (layer : ℕ) : TokenStorage where
  base := layerOffset (c.kShape .normal) layer
  rows := c.numBlocks
  stride := c.numHeads * c.headSize

/-- `k_buffer` and `v_buffer`. -/
def bufferStorage (rows : ℕ) : TokenStorage where
  base := 0
  rows
  stride := c.numHeads * c.headSize

/-- The keys or values of an iteration. -/
def tokenStorage (tokens : TokenTensor α) : TokenStorage where
  base := 0
  rows := tokens.numTokens
  stride := tokens.stride

/-- The new keys or values of an iteration are cached, in the normal layout. -/
def cacheNormal (layer : ℕ) (tokens : TokenTensor α) (allocatedIndices : List ℕ) :
    Except PyError (List (ℕ × α)) :=
  c.discontinuousMoveTokens (tokenStorage tokens) (c.normalStorage layer) tokens.data
    (List.range tokens.numTokens) allocatedIndices

/-- The keys or values of the contexts are fetched into a buffer, from the normal layout. -/
def fetchNormal (layer : ℕ) (cache : ℕ → α) (rows : ℕ) (contextIndices : List ℕ) :
    Except PyError (List (ℕ × α)) :=
  c.discontinuousMoveTokens (c.normalStorage layer) (c.bufferStorage rows) cache contextIndices
    (List.range rows)

end KvConfig

end ParrotServe
