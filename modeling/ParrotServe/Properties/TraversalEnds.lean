import ParrotServe.Properties.GraphRuns

/-!
# Traversals end

The recursion of `_traverse` has no bound in the code; the model gives it up at a depth.  That the
recursion ends is then a congruence: two depths that both cover the producer of the variable give
the same answer, and it is not that the recursion was given up (`traverse_congr`).  The induction is
on the producer, because in an ordered graph all that a variable depends on has earlier producers.
-/

namespace ParrotServe

namespace RequestHeap

open GraphObjects SemanticRequest SemanticVariableManager TransitionSystem

variable {uuid3 : ℕ → Text → VarId} {s s' : RequestHeap} {n p : NodeRef} {v : SvRef}

lemma Ordered.traversed (h : s.Ordered) (ht : s.Traversed s') : s'.Ordered :=
  h.inserted ht.inserted

/-! ## Loops of the traversal -/

section Congruence

variable {α : Type} {visit visit' : Visit α} {visitSv visitSv' : Visit SvRef}

/-- Two ways to visit that give the same in this state, and in what traversals make of it. -/
def Agree (visit visit' : Visit α) (s : RequestHeap) (a : α) : Prop :=
  ∀ s', s.Traversed s' → visit a s' = visit' a s' ∧ (visit' a s').1 ≠ .ok none ∧
    s'.Traversed (visit' a s').2

lemma Agree.traversed {a : α} (h : Agree visit visit' s a) (ht : s.Traversed s') :
    Agree visit visit' s' a :=
  fun s'' ht' => h s'' (ht.trans ht')

lemma visitAll_agree (weight : ℕ) (as : List α) : ∀ (depth : ℕ) {s : RequestHeap},
    (∀ a ∈ as, Agree visit visit' s a) →
      visitAll visit weight as depth s = visitAll visit' weight as depth s ∧
        (visitAll visit' weight as depth s).1 ≠ .ok none ∧
        s.Traversed (visitAll visit' weight as depth s).2 := by
  induction as with
  | nil => exact fun _ s _ => ⟨rfl, fun h => (by cases h), .refl s⟩
  | cons a as ih =>
      intro depth s h
      obtain ⟨hone, hrest⟩ := List.forall_mem_cons.mp h
      obtain ⟨heq, hends, ht⟩ := hone s (.refl s)
      rw [visitAll, visitAll, heq]
      cases hvisit : visit' a s with
      | mk result s₁ =>
          rw [hvisit] at hends ht
          rcases result with e | _ | d
          · exact ⟨rfl, fun h => (by cases h), ht⟩
          · exact absurd rfl hends
          · obtain ⟨heq, hends, ht'⟩ := ih (max depth (d + weight)) fun b hb =>
              (hrest b hb).traversed ht
            exact ⟨heq, hends, ht.trans ht'⟩

/-- A node is visited through its variable. -/
lemma visitNode_agree (h : ∀ v, (s.objs.node n).sv = some v → Agree visitSv visitSv' s v) :
    Agree (visitNode visitSv) (visitNode visitSv') s n := by
  intro s₁ ht
  unfold visitNode nodeSv
  rw [ht.objs]
  cases hsv : (s.objs.node n).sv with
  | none => exact ⟨rfl, fun h => (by cases h), .refl s₁⟩
  | some v => exact h v hsv s₁ ht

/-- Producers of the variable of a node are not behind the node. -/
lemma Ordered.producer_le (h : s.Ordered) {q : NodeRef} (hsv : (s.objs.node n).sv = some v)
    (hq : s.producer v = some q) : q ≤ n := by
  have hw := h.producer hq
  cases hgen : (s.objs.node n).isGen with
  | false => exact (h.before hw (.inl ⟨hgen, hsv⟩)).le
  | true => exact (h.once hw (.inl ⟨hgen, hsv⟩)).le

/-- What the chain of a Gen node depends on has earlier producers. -/
lemma visitChain_agree (h : s.Ordered) {c : ChainRef} (hgen : (s.objs.node p).isGen = true)
    (hp : p < s.objs.nextNode) (hc : (s.objs.node p).completionChain = some c)
    (hvisit : ∀ v, (∀ q, s.producer v = some q → q < p) → Agree visitSv visitSv' s v) :
    visitChain visitSv c s = visitChain visitSv' c s ∧
      (visitChain visitSv' c s).1 ≠ .ok none := by
  obtain ⟨first, l, hfirst, hle, hiter, hlt⟩ := h.forward.iterFill hgen hp hc
  have hnode : ∀ n < p, Agree (visitNode visitSv) (visitNode visitSv') s n := fun n hn =>
    visitNode_agree fun v hv => hvisit v fun q hq => (h.producer_le hv hq).trans_lt hn
  obtain ⟨heq, hends, ht⟩ := visitAll_agree 1 l 0 fun n hn => hnode n (hlt n hn)
  unfold visitChain
  rw [hiter]
  dsimp only
  rw [heq]
  cases hall : visitAll (visitNode visitSv') 1 l 0 s with
  | mk result s₁ =>
      rw [hall] at hends ht
      rcases result with e | _ | depth
      · exact ⟨rfl, fun h => by cases h⟩
      · exact absurd rfl hends
      · dsimp only at ht ⊢
        rw [ht.objs, hfirst]
        unfold visitPrev
        dsimp only
        rw [ht.objs]
        cases hprev : (s.objs.node first).edgeAPrevNode with
        | none => exact ⟨rfl, fun h => by cases h⟩
        | some prev =>
            have hlast : prev < p := (h.forward.prev hprev).trans_le hle
            dsimp only
            split_ifs
            · obtain ⟨heq, hends, -⟩ := visitAll_agree 1 [prev] depth fun m hm =>
                List.mem_singleton.mp hm ▸ (hnode prev hlast).traversed ht
              exact ⟨heq, hends⟩
            · exact ⟨rfl, fun h => by cases h⟩

end Congruence

/-! ## The recursion -/

lemma activateAt_ends {criteria : PerformanceCriteria}
    {result : Except PyError (Option ℕ) × RequestHeap} (h : result.1 ≠ .ok none) :
    (activateAt v criteria result).1 ≠ .ok none := by
  obtain ⟨_ | (_ | depth), s₁⟩ := result
  · exact h
  · exact h
  · rw [activateAt, activate]
    split_ifs
    · exact fun h => by cases h
    · exact fun h => by cases h

/-- **Depths that cover the producer of a variable** give the same answer, and there is one. -/
lemma traverse_congr (k : ℕ) : ∀ {depth depth' : ℕ} (var : SvRef) (criteria : PerformanceCriteria)
    (chainGroup : Option GroupRef) {s : RequestHeap}, s.Ordered →
      (∀ q, s.producer var = some q → q < k) → k < depth → k < depth' →
        traverse depth var criteria chainGroup s = traverse depth' var criteria chainGroup s ∧
          (traverse depth' var criteria chainGroup s).1 ≠ .ok none := by
  induction k with
  | zero =>
      intro depth depth' var criteria chainGroup s _ hk hdepth hdepth'
      obtain ⟨d, rfl⟩ := Nat.exists_eq_add_of_lt hdepth
      obtain ⟨d', rfl⟩ := Nat.exists_eq_add_of_lt hdepth'
      have hnone : s.producer var = none := by
        rw [Option.eq_none_iff_forall_ne_some]
        exact fun q hq => Nat.not_lt_zero q (hk q hq)
      rw [traverse, traverse]
      split
      · exact ⟨rfl, fun h => by cases h⟩
      · rw [hnone]
        exact ⟨rfl, fun h => by cases h⟩
  | succ k ih =>
      intro depth depth' var criteria chainGroup s h hk hdepth hdepth'
      obtain ⟨d, rfl⟩ := Nat.exists_eq_add_of_lt hdepth
      obtain ⟨d', rfl⟩ := Nat.exists_eq_add_of_lt hdepth'
      have hd : k < k + 1 + d := by omega
      have hd' : k < k + 1 + d' := by omega
      rw [traverse, traverse]
      split
      · exact ⟨rfl, fun h => by cases h⟩
      · rename_i nextCriteria _
        cases hprod : s.producer var with
        | none => exact ⟨rfl, fun h => by cases h⟩
        | some p =>
            have hp : p ≤ k := Nat.lt_succ_iff.mp (hk p hprod)
            -- whatever is visited has a producer in front of this one
            have hvisit : ∀ (group : Option GroupRef) {s₁ : RequestHeap}, s.Traversed s₁ →
                ∀ v, (∀ q, s₁.producer v = some q → q < p) →
                  Agree (fun v s => traverse (k + 1 + d) v nextCriteria group s)
                    (fun v s => traverse (k + 1 + d') v nextCriteria group s) s₁ v := by
              intro group s₁ ht v hv s₂ ht₂
              obtain ⟨heq, hends⟩ := ih v nextCriteria group (h.traversed (ht.trans ht₂))
                (fun q hq => (hv q (ht₂.producer ▸ hq)).trans_le hp) hd hd'
              exact ⟨heq, hends, traverse_traversed _ _ _ _ _⟩
            dsimp only
            cases hnative : s.native p with
            | none =>
                dsimp only
                rcases h.producer hprod with ⟨hgen, -⟩ | ⟨node, hnode, -⟩
                · cases hchain : s.compChain p with
                  | error e => exact ⟨rfl, fun h => by cases h⟩
                  | ok c =>
                      dsimp only
                      cases s.activation var with
                      | some activated => exact ⟨rfl, fun h => by cases h⟩
                      | none =>
                          have hc : (s.objs.node p).completionChain = some c := by
                            unfold compChain at hchain
                            split_ifs at hchain
                            split at hchain
                            · cases hchain
                            · rename_i hsome
                              rw [hsome, Except.ok.inj hchain]
                          have ht := joinGroup_traversed (s := s) c chainGroup
                          obtain ⟨heq, hends⟩ := visitChain_agree (h.traversed ht)
                            (ht.objs ▸ hgen) (ht.objs ▸ (h.writes (h.producer hprod)).1)
                            (ht.objs ▸ hc) (hvisit (some s.nextGroup) ht)
                          dsimp only
                          rw [heq]
                          exact ⟨rfl, activateAt_ends hends⟩
                · rw [hnative] at hnode
                  cases hnode
            | some node =>
                obtain ⟨heq, hends, -⟩ := visitAll_agree 0 (node.inputVars.map Prod.snd) 0
                  fun v hv => hvisit chainGroup (.refl s) v fun q hq =>
                    h.before (h.producer hq) (.inr ⟨node, hnative, hv⟩)
                dsimp only
                rw [heq]
                exact ⟨rfl, activateAt_ends hends⟩

/-! ## Requests end -/

lemma activateSv_ends (h : s.Ordered) (var : SvRef) (criteria : PerformanceCriteria) :
    (s.activateSv var criteria).1 ≠ .ok none := by
  obtain ⟨-, hends⟩ := traverse_congr s.objs.nextNode var criteria none h
    (fun q hq => (h.writes (h.producer hq)).1) (Nat.lt_succ_self _) (Nat.lt_succ_self _)
  unfold activateSv
  split_ifs
  · exact fun h => by cases h
  · split
    · exact fun h => by cases h
    · rename_i hnone
      rw [hnone] at hends
      exact absurd rfl hends
    · exact fun h => by cases h

lemma activateOutputs_ends (criteria : PerformanceCriteria) (outputs : List SvRef) :
    ∀ {s : RequestHeap}, s.Ordered → (activateOutputs criteria outputs s).1 ≠ .ok none := by
  induction outputs with
  | nil => exact fun _ h => by cases h
  | cons v outputs ih =>
      intro s h
      have hends := activateSv_ends h v criteria
      have ht := activateSv_traversed (s := s) v criteria
      rw [activateOutputs]
      split
      · exact fun h => by cases h
      · rename_i hnone
        rw [hnone] at hends
        exact absurd rfl hends
      · rename_i hok
        rw [hok] at ht
        exact ih (h.traversed ht)

/-- The loops of the insertion end. -/
lemma executorAddRequest_ends (h : s.Ordered) (sessionId : ℕ) {rc : RequestChain}
    (hfirst : rc.firstNode < s.objs.nextNode) :
    (s.executorAddRequest sessionId rc).1 ≠ .ok none := by
  have hinsert : (s.insertAndUpdateRequestChain sessionId rc).1 ≠ .ok none := by
    obtain ⟨l, hl⟩ := h.forward.exists_requestIter hfirst
    unfold insertAndUpdateRequestChain
    split
    · exact fun h => by cases h
    · split_ifs
      · exact fun h => by cases h
      · rw [hl]
        dsimp only
        split <;> exact fun h => by cases h
  unfold executorAddRequest
  split
  · exact fun h => by cases h
  · rename_i hnone
    rw [hnone] at hinsert
    exact absurd rfl hinsert
  · exact fun h => by cases h

/-- A request gets its nodes and variables. -/
lemma addSemanticRequest_builds (uuid3 : ℕ → Text → VarId) (h : s.Ordered)
    (sessionId requestId now : ℕ) (payload : SemanticCallPayload) :
    (ParrotServe.addSemanticRequest uuid3 sessionId requestId now payload s.objs s.vars).1 ≠
      .ok none := by
  unfold ParrotServe.addSemanticRequest
  split
  · exact fun h => by cases h
  · rename_i req _
    rcases h.forward.fromChunkedRequest_total req with
      ⟨-, rc, g, hok, hforward, -, hfirst, hlt⟩ | ⟨-, e, herr⟩
    · obtain ⟨l, hl⟩ := hforward.exists_requestIter (hfirst.trans_lt hlt)
      rw [hok]
      dsimp only
      unfold createVarsForRequestChain
      rw [hl]
      dsimp only
      split
      · exact fun h => by cases h
      · rename_i hnone
        split at hnone <;> cases hnone
      · exact fun h => by cases h
    · rw [herr]
      exact fun h => by cases h

/-- What ends before the answer, ends. -/
lemma answerRequest_ends {sessionId requestId : ℕ}
    {result : Except PyError (Option (List ParamInfo)) × RequestHeap} (h : result.1 ≠ .ok none) :
    (answerRequest sessionId requestId result).1 ≠ .ok none := by
  obtain ⟨_ | (_ | info), s₁⟩ := result
  · exact fun h => by cases h
  · exact absurd rfl h
  · exact fun h => by cases h

/-- **A request ends.** -/
lemma addRequest_ends (h : s.Ordered) (sessionId now : ℕ) (payload : SemanticCallPayload) :
    (s.addRequest uuid3 sessionId now payload).1 ≠ .ok none := by
  have hcount := countRequest_inserted (s := s) sessionId
  have h := h.inserted hcount
  unfold addRequest
  generalize s.countRequest sessionId = counted at h
  obtain ⟨requestId, s₁⟩ := counted
  refine answerRequest_ends ?_
  have hbuilds := addSemanticRequest_builds uuid3 h sessionId requestId now payload
  unfold RequestHeap.addSemanticRequest
  split
  · exact fun h => by cases h
  · rename_i hnone
    rw [hnone] at hbuilds
    exact absurd rfl hbuilds
  · rename_i req vars hok
    obtain ⟨-, hext, hfirst, -⟩ := addSemanticRequest_extended h hok
    have hord := h.extended hext
    have hends := executorAddRequest_ends hord sessionId hfirst
    have hins := (executorAddRequest_inserted hord.forward sessionId hfirst).1
    split
    · exact fun h => by cases h
    · rename_i hnone
      rw [hnone] at hends
      exact absurd rfl hends
    · rename_i info s₂ hadd
      rw [hadd] at hins
      have hord₂ := hord.inserted hins
      have hlast : (s₂.activateLastOutput req).1 ≠ .ok none := by
        unfold activateLastOutput
        split
        · exact fun h => by cases h
        · split
          · exact fun h => by cases h
          · split
            · exact fun h => by cases h
            · split
              · exact fun h => by cases h
              · split
                · exact fun h => by cases h
                · exact activateSv_ends hord₂ _ _
      split
      · exact fun h => by cases h
      · rename_i hnone
        rw [hnone] at hlast
        exact absurd rfl hlast
      · exact fun h => by cases h

/-- **A native request with known ids ends.** -/
lemma addNativeRequest_ends (h : s.Ordered) (hret : s.ReturnedInv) {sessionId : ℕ}
    {request : PyNativeCallRequest}
    (hknown : KnownArguments uuid3 s (.addNativeRequest sessionId request)) :
    (s.addNativeRequest uuid3 sessionId request).1 ≠ .ok none := by
  have hcount := countRequest_inserted (s := s) sessionId
  have h := h.inserted hcount
  have hids : ∀ p ∈ request.parametersMap, p.2.shouldCreate = false →
      Known uuid3 (s.countRequest sessionId).2.vars sessionId (p.2.varId.getD []) :=
    fun p hp hcreate => hcount.vars ▸ known_of_arguments hret (hknown p hp hcreate)
  unfold addNativeRequest
  generalize s.countRequest sessionId = counted at h hids
  obtain ⟨requestId, s₁⟩ := counted
  refine answerRequest_ends ?_
  dsimp only at h hids ⊢
  unfold addPyNativeRequest
  split
  · exact fun h => by cases h
  · rename_i inputVars outputVars vars hok
    obtain ⟨hg, hvars⟩ := createVarsForPynativeFunc_fresh h.bounded _ (.refl _)
      (fun x hx => absurd hx List.not_mem_nil) hok
    have hext : s₁.Extended (newNativeNode { s₁ with vars } { inputVars, outputVars }).2 :=
      newNativeNode_extended h hg ((hvars _ rfl).2 hids ⟨by simp, by simp, by simp⟩)
    have hord := h.extended hext
    dsimp only
    generalize hnew : newNativeNode { s₁ with vars } { inputVars, outputVars } = new at hord ⊢
    have hnode : new.2.native new.1 = some { inputVars, outputVars } :=
      hnew ▸ Function.update_self _ _ _
    have hins := (addNativeFunc_inserted sessionId hnode (hord.native hnode) request).1
    split
    · exact fun h => by cases h
    · rename_i info s₂ hadd
      rw [hadd] at hins
      have hends : (s₂.activateNativeOutputs request { inputVars, outputVars }).1 ≠ .ok none := by
        unfold activateNativeOutputs
        split
        · exact fun h => by cases h
        · split
          · exact fun h => by cases h
          · exact activateOutputs_ends _ _ (hord.inserted hins)
      split
      · exact fun h => by cases h
      · rename_i hnone
        rw [hnone] at hends
        exact absurd rfl hends
      · exact fun h => by cases h

/-! ## Every run -/

/-- The ids in the arguments of a native function were returned to its session. -/
def ReturnedArguments (s : RequestHeap) : Action → Prop
  | .addNativeRequest sessionId request => ∀ p ∈ request.parametersMap,
      p.2.shouldCreate = false →
        ∃ v ∈ (s.sessions sessionId).returned, v.val = p.2.varId.getD []
  | _ => True

instance (s : RequestHeap) : ∀ a, Decidable (s.ReturnedArguments a)
  | .addNativeRequest sessionId request =>
      decidable_of_iff (request.parametersMap.all fun p => p.2.shouldCreate ||
          (s.sessions sessionId).returned.any fun v => decide (v.val = p.2.varId.getD []))
        (by
          simp only [ReturnedArguments, List.all_eq_true, Bool.or_eq_true, List.any_eq_true,
            decide_eq_true_eq]
          refine forall₂_congr fun p _ => ?_
          cases p.2.shouldCreate <;> simp)
  | .registerSession _ | .freeSessionResources _ | .registerSemanticVariable _ _
  | .addRequest .. | .getSemanticVariable _ _ | .set _ _ | .freeExpiredConstantPrefixVars _ =>
      inferInstanceAs (Decidable True)

lemma ReturnedArguments.known {a : Action} (h : s.ReturnedArguments a) :
    KnownArguments uuid3 s a := by
  cases a with
  | addNativeRequest sessionId request => exact fun p hp hcreate => .inl (h p hp hcreate)
  | _ => exact trivial

/-- **The compute graph is acyclic and the traversal ends.**  In every run whose native functions
have known ids, there is no cycle of edges, the recursion of `_traverse` from any variable has one
answer however deep it may go, and no request is stuck in it. -/
theorem graph_acyclic (uuid3 : ℕ → Text → VarId) (timeout : ℕ) {s : RequestHeap}
    (hs : (system uuid3 timeout).ReachableUnder (KnownArguments uuid3) s) :
    (∀ n, ¬ Relation.TransGen s.Edge n n) ∧
      (∀ var criteria chainGroup, ∃ result, result.1 ≠ .ok none ∧ ∀ depth > s.objs.nextNode,
        traverse depth var criteria chainGroup s = result) ∧
      (∀ sessionId now payload, (s.addRequest uuid3 sessionId now payload).1 ≠ .ok none) ∧
      ∀ sessionId request, KnownArguments uuid3 s (.addNativeRequest sessionId request) →
        (s.addNativeRequest uuid3 sessionId request).1 ≠ .ok none := by
  obtain ⟨hord, hret⟩ := (orderedInvariant uuid3 timeout).holds hs
  refine ⟨hord.acyclic, fun var criteria chainGroup => ?_, fun sessionId now payload =>
    addRequest_ends hord sessionId now payload, fun _ _ hknown =>
    addNativeRequest_ends hord hret hknown⟩
  have hall : ∀ depth > s.objs.nextNode, _ := fun depth hdepth =>
    traverse_congr s.objs.nextNode var criteria chainGroup hord
      (fun q hq => (hord.writes (hord.producer hq)).1) hdepth (Nat.lt_succ_self _)
  exact ⟨_, (hall _ (Nat.lt_succ_self _)).2, fun depth hdepth => (hall depth hdepth).1⟩

/-- A native function on an output of `twoOutputs`. -/
def nativeOnOutput : PyNativeCallRequest where
  parametersMap :=
    [(['f'], { name := ['f'], isOutput := false, varId := some (escapeUuid3 1 ['0']).val }),
      (['r'], { name := ['r'], isOutput := true })]

/-- `{{n}}{{o}}` on the output of the native function, to be generated at once. -/
def afterNative : SemanticCallPayload where
  template := some (placeholderSource ['n'] ++ placeholderSource ['o'])
  parameters := some
    [{ name := some ['n'], isOutput := some false,
        varId := some (escapeUuid3 1 ['2']).val },
      { name := some ['o'], isOutput := some true }]
  outputCriteria := some ['l', 'a', 't', 'e', 'n', 'c', 'y']

/-- A session with these requests. -/
def mixedRun : List Action :=
  [.registerSession 0, .addRequest 0 0 SemanticRequest.twoOutputs,
    .addNativeRequest 0 nativeOnOutput, .addRequest 0 0 afterNative]

/-- The state after the run. -/
def mixedState : RequestHeap := mixedRun.foldl (apply escapeUuid3) (start 1)

/-- The output of the first request is read by the native function, and its output by the last
request, which is activated. -/
theorem graph_acyclic_mixed :
    (mixedState.Edge 0 1 ∧ mixedState.Edge 1 4 ∧ mixedState.Edge 4 5 ∧ mixedState.Edge 5 6) ∧
      (mixedState.activation 1).isSome ∧ (∀ n, ¬ Relation.TransGen mixedState.Edge n n) ∧
      ∀ var criteria chainGroup, ∃ result, result.1 ≠ .ok none ∧
        ∀ depth > mixedState.objs.nextNode,
          traverse depth var criteria chainGroup mixedState = result := by
  have hrun : Performs Enabled ReturnedArguments (apply escapeUuid3) (start 1) mixedRun := by
    decide +kernel
  have hs : (system escapeUuid3 1).ReachableUnder (KnownArguments escapeUuid3) mixedState :=
    (ReachableUnder.foldl mixedRun (.init rfl) hrun).mono fun s a h => h.known
  refine ⟨⟨.next (by decide +kernel), .typeB (v := 1) ?_ ?_, .typeB (v := 4) ?_ ?_,
    .next ?_⟩, ?_, (graph_acyclic escapeUuid3 1 hs).1, (graph_acyclic escapeUuid3 1 hs).2.1⟩
  all_goals decide +kernel

end RequestHeap

end ParrotServe
