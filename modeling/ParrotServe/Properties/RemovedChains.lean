import ParrotServe.Properties.GraphIds

/-!
# What is left of a request whose chains are removed

Removing the completion chains of a request should undo its insertion: the nodes, the chains, the
live ids and the edges of the variables should be as before (`InsertionUndone`).

Nothing takes an edge away, and each node of a request has one, so this is never the case: a node
that left the graph stays the producer or a consumer of its variable.  The graph itself is restored
exactly if the request ends with its only output (`OneOutputLast`).  Nodes behind the last output
are in no chain, and with more outputs the later chains do not have their nodes: those of
`from_nodes` are empty, and those of `from_chunked_request` start with a node that left with the
chain before, where `set.remove` raises.
-/

namespace ParrotServe
namespace RequestHeap

open GraphObjects

variable {s s' : RequestHeap} {sessionId : ℕ} {rc : RequestChain} {ns : List NodeRef}
  {ks : List NodeKind}

/-- The graph is as it was. -/
structure GraphRestored (sessionId : ℕ) (s s' : RequestHeap) : Prop where
  nodes : ∀ n, n ∈ (s'.graph sessionId).nodes ↔ n ∈ (s.graph sessionId).nodes
  chains : (s'.graph sessionId).chains = (s.graph sessionId).chains
  liveIds : (s'.graph sessionId).nodeIdPool.liveIds = (s.graph sessionId).nodeIdPool.liveIds

/-- A removal that succeeds, and leaves the graph and the edges as they were in `s`. -/
structure InsertionUndone (sessionId : ℕ) (s : RequestHeap)
    (removal : Except PyError (Option Unit) × RequestHeap) : Prop where
  ok : removal.1 = .ok (some ())
  graph : GraphRestored sessionId s removal.2
  producer : removal.2.producer = s.producer
  consumers : removal.2.consumers = s.consumers

/-- **Run lemma for removals.**  What leaves is found by the iterators of the chains. -/
lemma removeCompletionChains_removed (cs : List ChainRef) : ∀ {s : RequestHeap},
    GraphInv sessionId s → ∃ gone,
      NodesRemoved sessionId gone s (removeCompletionChains sessionId cs s).2 ∧
      ∀ n ∈ gone, ∃ c ∈ cs, ∃ l, s.objs.iter c = .ok (some l) ∧ n ∈ l := by
  induction cs with
  | nil => exact fun h => ⟨[], .refl h, by simp⟩
  | cons c cs ih =>
      intro s h
      obtain ⟨gone, hone, hfound, -⟩ := removeCompletionChain_removed h c
      have hfound' : ∀ n ∈ gone, ∃ c' ∈ c :: cs, ∃ l, s.objs.iter c' = .ok (some l) ∧ n ∈ l :=
        fun n hn => ⟨c, List.mem_cons_self, hfound n hn⟩
      rw [removeCompletionChains]
      generalize s.removeCompletionChain sessionId c = r at *
      obtain ⟨e | _ | _, s₁⟩ := r
      · exact ⟨gone, hone, hfound'⟩
      · exact ⟨gone, hone, hfound'⟩
      · obtain ⟨gone', hrest, hfound''⟩ := ih hone.inv
        refine ⟨gone ++ gone', hone.trans hrest, fun n hn => ?_⟩
        rcases List.mem_append.mp hn with hn | hn
        · exact hfound' n hn
        · obtain ⟨c', hc', l, hl, hmem⟩ := hfound'' n hn
          exact ⟨c', List.mem_cons_of_mem _ hc', l, hone.objs ▸ hl, hmem⟩

/-- The graph is restored when the nodes of the request leave, and no others. -/
lemma InsertedAs.restored (h : InsertedAs sessionId rc ns ks s s') (hs : GraphInv sessionId s)
    {s'' : RequestHeap} (hr : NodesRemoved sessionId ns s' s'')
    (hchains : (s''.graph sessionId).chains = (s.graph sessionId).chains) :
    GraphRestored sessionId s s'' := by
  have hnodes : ∀ n, n ∈ (s''.graph sessionId).nodes ↔ n ∈ (s.graph sessionId).nodes := fun n => by
    rw [hr.nodes, h.nodes]
    exact ⟨fun ⟨hn, hor⟩ => hor.resolve_left hn, fun hn => ⟨fun hns => h.fresh n hns hn, .inr hn⟩⟩
  refine ⟨hnodes, hchains, Set.ext fun id => ?_⟩
  rw [hr.inv.numbered.live, hs.numbered.live]
  refine exists_congr fun n => ?_
  rw [hnodes n]
  refine and_congr_right fun hn => ?_
  rw [hr.ids, h.ids n fun hns => h.fresh n hns hn]

/-- The graph is restored exactly if the request ends with its only output. -/
lemma InsertedAs.restored_iff (h : InsertedAs sessionId rc ns ks s s') (hs : GraphInv sessionId s) :
    ((removeCompletionChains sessionId rc.compChains s').1 = .ok (some ()) ∧
      GraphRestored sessionId s (removeCompletionChains sessionId rc.compChains s').2) ↔
      OneOutputLast ks := by
  refine ⟨fun ⟨_, hrestored⟩ => h.constructed.oneOutputLast fun n hn => ?_, fun hks => ?_⟩
  · -- a node of the request that is not found stays
    obtain ⟨gone, hremoved, hfound⟩ := removeCompletionChains_removed rc.compChains h.inv
    have hgone : n ∈ gone := by
      by_contra hno
      exact h.fresh n hn ((hrestored.nodes n).mp
        ((hremoved.nodes n).mpr ⟨hno, (h.nodes n).mpr (.inl hn)⟩))
    obtain ⟨c, hc, l, hl, hmem⟩ := hfound n hgone
    exact ⟨c, hc, l, yields_of_drain hl, hmem⟩
  · obtain ⟨c, hrc, hyields⟩ := h.oneChain hks
    have hiter : s'.objs.iter c = .ok (some ns) :=
      drain_of_yields hyields (Nat.lt_succ_of_le h.constructed.built.length_le)
    have hnew : c ∉ (s.graph sessionId).chains := fun hc =>
      absurd (h.constructed.chains c (hrc ▸ List.mem_singleton_self c)).1 (hs.chains c hc).not_ge
    obtain ⟨gone, hremoved, -, hall⟩ := removeCompletionChain_removed h.inv c
    obtain ⟨hok, rfl, hchains⟩ := hall ns hiter
      (h.chains ▸ hrc ▸ List.mem_append_right _ (List.mem_singleton_self c))
      h.constructed.built.linked.nodup fun n hn => (h.nodes n).mpr (.inl hn)
    rw [h.chains, hrc, List.erase_append_right _ hnew, List.erase_cons_head,
      List.append_nil] at hchains
    rw [hrc, removeCompletionChains]
    generalize s'.removeCompletionChain sessionId c = r at *
    obtain ⟨r, s₁⟩ := r
    obtain rfl : r = .ok (some ()) := hok
    exact ⟨rfl, h.restored hs hremoved hchains⟩

/-- **Removing the chains of a request never undoes its insertion.**  In every state that insertions
and removals lead to, and for every request that can be inserted there: the edges are not what they
were, and every node of the request stays listed by its variable, in the graph or not.  The graph
is restored exactly if the request ends with its only output. -/
theorem removal_never_undoes_insertion (timeout sessionId : ℕ) {s : RequestHeap}
    (hs : (graphUses timeout sessionId).Reachable s) {source : RequestConstructor}
    (hsource : s.Constructible source) (varOf : NodeRef → SvRef) {rc : RequestChain}
    {s' : RequestHeap} (hok : s.insertRequest sessionId source varOf = (.ok (some rc), s')) :
    ¬ InsertionUndone sessionId s (removeCompletionChains sessionId rc.compChains s') ∧
    (∀ n ∈ (s'.graph sessionId).nodes, n ∉ (s.graph sessionId).nodes →
      (removeCompletionChains sessionId rc.compChains s').2.Lists n) ∧
    (((removeCompletionChains sessionId rc.compChains s').1 = .ok (some ()) ∧
      GraphRestored sessionId s (removeCompletionChains sessionId rc.compChains s').2) ↔
      OneOutputLast (source.kinds s.objs)) := by
  have hinv := (graph_invariant timeout sessionId).holds hs
  obtain ⟨-, hspec⟩ := insertRequest_spec hinv hsource varOf
  rw [hok] at hspec
  obtain ⟨ns, h⟩ := hspec rc rfl
  obtain ⟨gone, hremoved, -⟩ := removeCompletionChains_removed rc.compChains h.inv
  refine ⟨fun hundone => h.edges ⟨?_, ?_⟩, fun n hn hnew => ?_, h.restored_iff hinv⟩
  · exact hremoved.producer.symm.trans hundone.producer
  · exact hremoved.consumers.symm.trans hundone.consumers
  · exact (h.lists n (((h.nodes n).mp hn).resolve_right hnew)).removed hremoved

/-- With a text and one output, both nodes leave, and their variables still list them.  With two of
both, the removal of the second chain raises, and two nodes stay. -/
theorem removal_leaves_edges :
    (∃ rc s', (start 1).insertRequest 0 (.fromChunkedRequest (alternating ["a".toList])) id =
        (.ok (some rc), s') ∧
      ((removeCompletionChains 0 rc.compChains s').2.graph 0).nodes = [] ∧
      (removeCompletionChains 0 rc.compChains s').2.consumers 0 = [0] ∧
      (removeCompletionChains 0 rc.compChains s').2.producer 1 = some 1 ∧
      ¬ InsertionUndone 0 (start 1) (removeCompletionChains 0 rc.compChains s')) ∧
    ∃ rc s', (start 1).insertRequest 0
        (.fromChunkedRequest (alternating ["a".toList, "b".toList])) id = (.ok (some rc), s') ∧
      (removeCompletionChains 0 rc.compChains s').1 = .error (.keyError "0") ∧
      ((removeCompletionChains 0 rc.compChains s').2.graph 0).nodes = [3, 2] := by
  refine ⟨⟨_, _, rfl, rfl, rfl, rfl, fun hundone => ?_⟩, _, _, rfl, rfl, rfl⟩
  have hconsumers := congrFun hundone.consumers 0
  cases hconsumers

/-- The graph of a text and one output is restored, and the edges are not. -/
theorem removal_restores_one_output :
    ∃ rc s', (start 1).insertRequest 0 (.fromChunkedRequest (alternating ["a".toList])) id =
        (.ok (some rc), s') ∧
      ¬ InsertionUndone 0 (start 1) (removeCompletionChains 0 rc.compChains s') ∧
      GraphRestored 0 (start 1) (removeCompletionChains 0 rc.compChains s').2 := by
  obtain ⟨hundone, -, hrestored⟩ := @removal_never_undoes_insertion 1 0 (start 1) (.init rfl)
    (.fromChunkedRequest (alternating ["a".toList])) trivial id _ _ rfl
  have hks : OneOutputLast [.constantFill "text".toList,
      .placeholderGen { name := "a".toList, isOutput := true }] :=
    ⟨[_], _, List.cons_ne_nil _ _, rfl, by simp [NodeKind.isGen], rfl⟩
  exact ⟨_, _, rfl, hundone, (hrestored.mpr hks).2⟩

end RequestHeap
end ParrotServe
