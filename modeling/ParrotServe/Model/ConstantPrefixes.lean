import ParrotServe.Framework.TransitionSystem
import ParrotServe.Model.VariableManager

/-!
# Constant prefixes between the variables and the contexts

A constant prefix lives twice: as a variable of the global namespace, created or touched when a
request is submitted, and as an extra reference to its contexts, taken when a task is bound and
its first node misses the prefix cache.  One step of `ParrotServeCore.serve_loop`
(`parrot/serve/core.py`) ends both: `free_expired_constant_prefix_vars`, then
`free_constant_prefix_contexts` for each variable that was freed.

Requests are submitted and tasks are bound, executed and freed in any order, at any time.  A
request that raises is answered and leaves the variables it has created.  A chain that is bound
consists of nodes of requests that were submitted; their variables are objects that outlive the
namespace.
-/

namespace ParrotServe

/-- The variables, the contexts, and the nodes of the requests. -/
structure ConstantPrefixSystem (α : Type) where
  vars : SemanticVariableManager
  contexts : ContextSystem α
  /-- The nodes of the requests that were submitted. -/
  nodes : List ChainNode

/-- What can happen between two steps of the serve loop, and the step. -/
inductive ConstantPrefixAction (α : Type)
  | registerLocalVarSpace (sessionId : ℕ)
  | freeLocalVarSpace (sessionId : ℕ)
  | createVar (sessionId : ℕ) (varName : Text)
  | submit (sessionId now : ℕ) (cachePrefix : Bool) (kinds : List NodeKind)
  | contexts (a : ContextAction α)
  | serveLoop (curTime : ℕ)

namespace ConstantPrefixSystem

variable {α : Type} (uuid3 : ℕ → Text → VarId) (s : ConstantPrefixSystem α)

/-- No session, no engine. -/
def start (timeout : ℕ) : ConstantPrefixSystem α where
  vars := .new timeout
  contexts := .start
  nodes := []

/-- What the context manager reads of a node with its variable. -/
def chainNode (vars : SemanticVariableManager) (kind : NodeKind) (r : SvRef) : ChainNode where
  varId := (vars.obj r).id
  isGen := kind.isGen
  isConstantPrefix := (vars.obj r).isConstantPrefix

/-- A semantic request: the nodes of its chain get their variables. -/
def submit (sessionId now : ℕ) (cachePrefix : Bool) (kinds : List NodeKind) :
    ConstantPrefixSystem α :=
  match s.vars.createVarsForSemanticRequestChain uuid3 sessionId now cachePrefix kinds with
  | (.error _, vars) => { s with vars }
  | (.ok rs, vars) =>
      { s with vars, nodes := s.nodes ++ List.zipWith (chainNode vars) kinds rs }

/-- `free_constant_prefix_contexts` for each variable. -/
def freeEach : List VarId → ContextWorld α → Except PyError (ContextWorld α)
  | [], w => .ok w
  | v :: vs, w =>
      match w.freeConstantPrefixContexts v with
      | .error e => .error e
      | .ok w => freeEach vs w

/-- The constant-prefix part of a step of `serve_loop`. -/
def serveLoop (curTime : ℕ) : Except PyError (ConstantPrefixSystem α) :=
  match s.vars.freeExpiredConstantPrefixVars curTime with
  | (.error e, _) => .error e
  | (.ok rs, vars) =>
      match freeEach (rs.map fun r => (vars.obj r).id) s.contexts.world with
      | .error e => .error e
      | .ok world => .ok { s with vars, contexts := { s.contexts with world } }

/-- Chains consist of submitted nodes, and constant prefixes expire in the serve loop only. -/
def Enabled : ConstantPrefixAction α → Prop
  | .contexts (.setTaskContexts e chain fuseFill) =>
      s.contexts.Enabled (.setTaskContexts e chain fuseFill) ∧ ∀ node ∈ chain, node ∈ s.nodes
  | .contexts (.freeConstantPrefixContexts _) => False
  | .contexts a => s.contexts.Enabled a
  | _ => True

instance : ∀ a, Decidable (s.Enabled a)
  | .contexts (.setTaskContexts e chain fuseFill) => inferInstanceAs (Decidable
      (s.contexts.Enabled (.setTaskContexts e chain fuseFill) ∧ ∀ node ∈ chain, node ∈ s.nodes))
  | .contexts (.freeConstantPrefixContexts _) => inferInstanceAs (Decidable False)
  | .contexts (.registerEngine e) =>
      inferInstanceAs (Decidable (s.contexts.Enabled (.registerEngine e)))
  | .contexts (.freeTaskContexts t) =>
      inferInstanceAs (Decidable (s.contexts.Enabled (.freeTaskContexts t)))
  | .contexts (.bindJobContext r) =>
      inferInstanceAs (Decidable (s.contexts.Enabled (.bindJobContext r)))
  | .contexts (.fill r payload) =>
      inferInstanceAs (Decidable (s.contexts.Enabled (.fill r payload)))
  | .registerLocalVarSpace _ | .freeLocalVarSpace _ | .createVar _ _ | .submit _ _ _ _
  | .serveLoop _ => inferInstanceAs (Decidable True)

/-- The effect of an action.  An exception in the serve loop or in the coroutine of a task ends
the process; one in a handler is answered. -/
def apply : ConstantPrefixAction α → Except PyError (ConstantPrefixSystem α)
  | .registerLocalVarSpace sessionId =>
      .ok { s with vars := (s.vars.registerLocalVarSpace sessionId).2 }
  | .freeLocalVarSpace sessionId => .ok { s with vars := (s.vars.freeLocalVarSpace sessionId).2 }
  | .createVar sessionId varName =>
      .ok { s with vars := (s.vars.createVar uuid3 sessionId varName).2 }
  | .submit sessionId now cachePrefix kinds => .ok (s.submit uuid3 sessionId now cachePrefix kinds)
  | .contexts a =>
      match s.contexts.apply a with
      | .error e => .error e
      | .ok contexts => .ok { s with contexts }
  | .serveLoop curTime => s.serveLoop curTime

/-- The system. -/
def system (timeout : ℕ) :
    TransitionSystem (ConstantPrefixSystem α) (ConstantPrefixAction α) :=
  .ofExcept (start timeout) Enabled fun s a => s.apply uuid3 a

end ConstantPrefixSystem

end ParrotServe
