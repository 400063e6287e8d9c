import ParrotServe.Framework.Paging
import ParrotServe.Model.RecyclePool
import Mathlib.Logic.Function.Basic

/-!
# Low-level contexts on paged memory

`LowLevelContext` and `BlockContext` (`parrot/engine/context/low_level_context.py`,
`block_context.py`).  A context is an object: other contexts point to it as their parent, jobs
hold it, and it outlives its id.  Objects are therefore identified by a `CtxRef` that is never
reused, and `KvMemory` is the heap of these objects together with what all of them share: the
KV-cache pool and the block size.

An operation that can raise returns its result *and* the memory after it, because a raising
operation keeps its partial effect (a padding that runs out of blocks half way, a child id
already recorded in its parent).

A parent is always an older object, so the recursions to the root take the reference of the
object as fuel; `gather_eq` is the recursion of the source.
-/

namespace ParrotServe

/-- The identity of a context object. -/
abbrev CtxRef := ℕ

/-- A handle to a hidden-state tensor. -/
abbrev HiddenState := ℕ

/-- The attributes of a `BlockContext` (those of `LowLevelContext` first). -/
structure BlockContext where
  contextId : ℕ
  subContextIds : List ℕ := []
  depth : ℕ := 0
  parentContext : Option CtxRef := none
  padded : Bool := false
  paddedLen : ℕ := 0
  tokenKvBlockIds : List ℕ := []
  tokenKvSlotIds : List ℕ := []
  tokenIds : List ℕ := []
  lastHiddenState : Option HiddenState := none
  deriving DecidableEq, Repr

/-- The context objects of an engine, and the pool and block size they share. -/
structure KvMemory where
  blockSize : ℕ
  kvCacheManager : RecyclePool
  /-- The objects; only references below `next` were constructed. -/
  obj : CtxRef → BlockContext
  next : CtxRef

namespace KvMemory

/-- No object, all blocks free. -/
def empty (blockSize : ℕ) (pool : RecyclePool) : KvMemory where
  blockSize := blockSize
  kvCacheManager := pool
  obj _ := { contextId := 0 }
  next := 0

variable (m : KvMemory)

/-- Overwrite one object. -/
def set (r : CtxRef) (c : BlockContext) : KvMemory :=
  { m with obj := Function.update m.obj r c }

@[simp] lemma set_blockSize (r : CtxRef) (c : BlockContext) :
    (m.set r c).blockSize = m.blockSize := rfl

@[simp] lemma set_next (r : CtxRef) (c : BlockContext) : (m.set r c).next = m.next := rfl

@[simp] lemma set_pool (r : CtxRef) (c : BlockContext) :
    (m.set r c).kvCacheManager = m.kvCacheManager := rfl

@[simp] lemma set_obj_self (r : CtxRef) (c : BlockContext) : (m.set r c).obj r = c := by
  simp [set]

lemma set_obj_of_ne {r r' : CtxRef} (h : r' ≠ r) (c : BlockContext) :
    (m.set r c).obj r' = m.obj r' := by
  simp [set, h]

/-! ## Lengths, tables and the walk to the root -/

/-- `get_this_context_len`. -/
def getThisContextLen (r : CtxRef) : ℕ := (m.obj r).tokenKvBlockIds.length

/-- What the ancestors of an object and the object itself contribute, root first. -/
def gatherAux {α : Type} (f : BlockContext → List α) : ℕ → CtxRef → List α
  | 0, _ => []
  | fuel + 1, r =>
      (match (m.obj r).parentContext with
        | none => []
        | some p => gatherAux f fuel p) ++ f (m.obj r)

/-- The recursion `parent.f() + self.f`. -/
def gather {α : Type} (f : BlockContext → List α) (r : CtxRef) : List α :=
  m.gatherAux f (r + 1) r

/-- `get_context_block_ids`. -/
def getContextBlockIds (r : CtxRef) : List ℕ := m.gather BlockContext.tokenKvBlockIds r

/-- `get_context_slot_ids`. -/
def getContextSlotIds (r : CtxRef) : List ℕ := m.gather BlockContext.tokenKvSlotIds r

/-- The token ids along the ancestor chain, root first. -/
def getContextTokenIds (r : CtxRef) : List ℕ := m.gather BlockContext.tokenIds r

/-- The loop of `get_context_len`. -/
def getContextLenAux : ℕ → CtxRef → ℕ
  | 0, _ => 0
  | fuel + 1, r =>
      (match (m.obj r).parentContext with
        | none => 0
        | some p => getContextLenAux fuel p) + m.getThisContextLen r

/-- `get_context_len`. -/
def getContextLen (r : CtxRef) : ℕ := m.getContextLenAux (r + 1) r

/-- `get_last_token_id`, i.e. `self.token_ids[-1]`. -/
def getLastTokenId (r : CtxRef) : Except PyError ℕ :=
  match (m.obj r).tokenIds.getLast? with
  | none => .error .indexError
  | some t => .ok t

/-- The loop of `get_last_hidden_state`: an empty context asks its parent. -/
def getLastHiddenStateAux : ℕ → CtxRef → Except PyError (Option HiddenState)
  | 0, _ => .ok none
  | fuel + 1, r =>
      if (m.obj r).tokenIds = [] then
        match (m.obj r).parentContext with
        | none => .error (.assertionError
            "The parent context should not be None if this is an empty context.")
        | some p => getLastHiddenStateAux fuel p
      else .ok (m.obj r).lastHiddenState

/-- `get_last_hidden_state`. -/
def getLastHiddenState (r : CtxRef) : Except PyError (Option HiddenState) :=
  m.getLastHiddenStateAux (r + 1) r

/-! ## Allocation and padding -/

/-- Append one entry to `token_kv_block_ids` and one to `token_kv_slot_ids`. -/
def appendPosition (r : CtxRef) (blockId slotId : ℕ) : KvMemory :=
  m.set r
    { m.obj r with
      tokenKvBlockIds := (m.obj r).tokenKvBlockIds ++ [blockId]
      tokenKvSlotIds := (m.obj r).tokenKvSlotIds ++ [slotId] }

/-- `_allocate_one`: a new block at a block boundary, the next slot of the last block inside
one. -/
def allocateOne (r : CtxRef) : Except PyError Unit × KvMemory :=
  let c := m.obj r
  if c.tokenKvBlockIds.length % m.blockSize = 0 then
    match m.kvCacheManager.allocate with
    | (.error e, pool) => (.error e, { m with kvCacheManager := pool })
    | (.ok curBlockId, pool) =>
        (.ok (), { m with kvCacheManager := pool }.appendPosition r
          curBlockId (curBlockId * m.blockSize))
  else
    match c.tokenKvBlockIds.getLast?, c.tokenKvSlotIds.getLast? with
    | some curBlockId, some lastSlotId =>
        (.ok (), m.appendPosition r curBlockId (lastSlotId + 1))
    | _, _ => (.error .indexError, m)

/-- `allocate(length)`: `_allocate_one`, `length` times. -/
def allocate (m : KvMemory) (r : CtxRef) : ℕ → Except PyError Unit × KvMemory
  | 0 => (.ok (), m)
  | n + 1 =>
      match m.allocateOne r with
      | (.error e, m') => (.error e, m')
      | (.ok (), m') => m'.allocate r n

/-- `pad_to(length)`.  `padded_len` is recorded before the allocation, `padded` after it. -/
def padTo (r : CtxRef) (length : ℕ) : Except PyError Unit × KvMemory :=
  let curLen := m.getThisContextLen r
  if length < curLen then
    (.error (.assertionError "The length should be larger than the current length."), m)
  else
    let paddedLen := length - curLen
    match (m.set r { m.obj r with paddedLen := paddedLen }).allocate r paddedLen with
    | (.error e, m') => (.error e, m')
    | (.ok (), m') => (.ok (), m'.set r { m'.obj r with padded := true })

/-- The length of a context rounded up to a multiple of the block size. -/
def totalLen (contextLen : ℕ) : ℕ :=
  (contextLen + m.blockSize - 1) / m.blockSize * m.blockSize

/-- `parent_context.sub_context_ids.append(context_id)`. -/
def link (p : CtxRef) (contextId : ℕ) : KvMemory :=
  m.set p { m.obj p with subContextIds := (m.obj p).subContextIds ++ [contextId] }

/-- The part of `BlockContext.__init__` that touches the parent: its id list, and the padding of
a parent that was not padded yet. -/
def adopt (p : CtxRef) (contextId : ℕ) : Except PyError Unit × KvMemory :=
  let m' := m.link p contextId
  if (m'.obj p).padded then (.ok (), m')
  else m'.padTo p (m'.totalLen (m'.getThisContextLen p))

/-- Store a freshly constructed object. -/
def push (c : BlockContext) : KvMemory :=
  { m.set m.next c with next := m.next + 1 }

/-- `BlockContext.__init__`. -/
def newContext (contextId : ℕ) (parent : Option CtxRef) :
    Except PyError CtxRef × KvMemory :=
  match parent with
  | none => (.ok m.next, m.push { contextId := contextId })
  | some p =>
      match m.adopt p contextId with
      | (.error e, m') => (.error e, m')
      | (.ok (), m') =>
          (.ok m'.next, m'.push
            { contextId := contextId
              parentContext := some p
              depth := (m'.obj p).depth + 1 })

/-! ## Destruction -/

/-- `self.kv_cache_manager.free(block_id)` for each block of a list. -/
def freeBlocks (m : KvMemory) : List ℕ → Except PyError Unit × KvMemory
  | [] => (.ok (), m)
  | b :: bs =>
      match m.kvCacheManager.free b with
      | (.error e, pool) => (.error e, { m with kvCacheManager := pool })
      | (.ok (), pool) => { m with kvCacheManager := pool }.freeBlocks bs

/-- `LowLevelContext.destruction`: leave the parent's list, then check that no sub-context is
left. -/
def unlink (r : CtxRef) : Except PyError Unit × KvMemory :=
  let c := m.obj r
  let check (m : KvMemory) : Except PyError Unit × KvMemory :=
    match (m.obj r).subContextIds with
    | [] => (.ok (), m)
    | i :: _ => (.error (.assertionError
        ("Sub-contexts " ++ toString i ++ " should be deleted first.")), m)
  match c.parentContext with
  | none => check m
  | some p =>
      if c.contextId ∈ (m.obj p).subContextIds then
        check (m.set p { m.obj p with
          subContextIds := (m.obj p).subContextIds.erase c.contextId })
      else (.error (.valueError "list.remove(x): x not in list"), m)

/-- `BlockContext.destruction`. -/
def destruction (r : CtxRef) : Except PyError Unit × KvMemory :=
  match m.unlink r with
  | (.error e, m') => (.error e, m')
  | (.ok (), m') => m'.freeBlocks (stride m'.blockSize (m'.obj r).tokenKvBlockIds)

end KvMemory

end ParrotServe
