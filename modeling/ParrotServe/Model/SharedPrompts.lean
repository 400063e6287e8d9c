import ParrotServe.Model.BuiltinEngine

/-!
# Shared prompts

`xFormersFill_SharedPromptsGenerate.init_iteration_state` (`parrot/engine/builtin/attn_func.py`):
the part of the Generates' contexts that all jobs have in common is read through one table, the
`flash_block_table`, and the rest of each context through its own row of `paged_block_tables`.  The
common part is that of the lowest common ancestor of the jobs' contexts, which `_lca` finds by
walking up from the deeper of two contexts.

The loop of `_lca` takes one or two contexts to their parents in every round, and a parent is always
an older object, so the sum of the two references bounds its rounds.
-/

namespace ParrotServe

namespace KvMemory

variable (m : KvMemory)

/-- The loop of `_lca`. -/
def lcaLoop : ℕ → Option CtxRef → Option CtxRef → Except PyError (Option CtxRef)
  | 0, _, _ => .ok none
  | _ + 1, none, _ => .ok none
  | fuel + 1, some r₁, context₂ =>
      if some r₁ = context₂ then .ok (some r₁)
      else
        match context₂ with
        | none => .error .attributeError
        | some r₂ =>
            if (m.obj r₁).depth > (m.obj r₂).depth then
              lcaLoop fuel (m.obj r₁).parentContext (some r₂)
            else if (m.obj r₁).depth < (m.obj r₂).depth then
              lcaLoop fuel (some r₁) (m.obj r₂).parentContext
            else lcaLoop fuel (m.obj r₁).parentContext (m.obj r₂).parentContext

/-- `_lca` of two contexts. -/
def lca (r₁ r₂ : CtxRef) : Except PyError (Option CtxRef) :=
  if r₁ = r₂ then .ok (some r₁) else m.lcaLoop (r₁ + r₂ + 3) (some r₁) (some r₂)

/-- The loop of `get_shared_context_len` over the third, fourth, ... context. -/
def lcaAll : Option CtxRef → List CtxRef → Except PyError (Option CtxRef)
  | l, [] => .ok l
  | none, _ :: _ => .ok none
  | some a, r :: rs =>
      match m.lca a r with
      | .error e => .error e
      | .ok l => lcaAll l rs

/-- `get_shared_context_len`, of the contexts of the jobs. -/
def getSharedContextLen : List CtxRef → Except PyError ℕ
  | [] => .error (.assertionError "")
  | [r] => .ok (m.getContextLen r)
  | r₁ :: r₂ :: rs =>
      match m.lca r₁ r₂ with
      | .error e => .error e
      | .ok l =>
          match m.lcaAll l rs with
          | .error e => .error e
          | .ok none => .ok 0
          | .ok (some a) => .ok (m.getContextLen a)

end KvMemory

/-- The tables of an `IterationState` with shared prompts. -/
structure SharedPromptsState where
  numFillTokens : List ℕ
  slotMapping : List ℕ
  fillSlots : List ℕ
  flashContextLen : ℕ
  /-- Logical block to physical block, of the common part. -/
  flashBlockTable : List ℕ
  /-- Logical block to physical block behind the common part, one row per Generate. -/
  pagedBlockTables : List (List ℕ)
  pagedContextLens : List ℤ
  deriving DecidableEq, Repr

namespace BuiltinEngine

variable (s : BuiltinEngine)

/-- `xFormersFill_SharedPromptsGenerate.init_iteration_state`, for jobs that have contexts and token
lists. -/
def initSharedPrompts (jobs : List JobRef) : Except PyError SharedPromptsState :=
  let blockSize := s.mem.blockSize
  let gens := jobs.filter fun j => (s.job j).isGenerate
  let fills := jobs.filter fun j => !(s.job j).isGenerate
  match s.mem.getSharedContextLen (jobs.map s.jobContext) with
  | .error e => .error e
  | .ok flashContextLen =>
      match jobs with
      | [] => .error .indexError
      | job :: _ =>
          let flashBlockNum := (flashContextLen + blockSize - 1) / blockSize
          let flashPadLen := flashBlockNum * blockSize
          let rows := jobs.map s.slotRow
          let tables := gens.map fun j =>
            stride blockSize ((s.mem.getContextBlockIds (s.jobContext j)).drop flashPadLen)
          .ok
            { numFillTokens := fills.map fun j => (s.job j).numTokens
              slotMapping := rows.flatMap fun row => padToMax row (maxLength rows) 0
              fillSlots := fills.flatMap fun j => s.mem.getContextSlotIds (s.jobContext j)
              flashContextLen
              flashBlockTable := stride blockSize
                ((s.mem.getContextBlockIds (s.jobContext job)).take flashPadLen)
              pagedBlockTables := tables.map fun t => padToMax t (maxLength tables) 0
              pagedContextLens := gens.map fun j =>
                (s.mem.getContextLen (s.jobContext j) : ℤ) - flashContextLen }

end BuiltinEngine

end ParrotServe
