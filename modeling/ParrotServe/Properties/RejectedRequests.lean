import ParrotServe.Properties.SessionRuns

/-!
# Rejected requests

A request goes through parsing, the chain, the variables, the graph and the activation, and each of
them can raise.  The first two write nothing.  The variables are written node by node
(`createVarsLoop_traces`), and whatever raises behind them leaves the first node of the request in
the graph, since only its insertion could have raised before and it does not.

So a rejected request leaves its session untouched exactly when it is rejected early:
`RejectedEarly` reads the payload and the names of the session.
-/

namespace ParrotServe

namespace RequestHeap

open GraphObjects SemanticRequest SemanticVariableManager TransitionSystem

variable {uuid3 : ℕ → Text → VarId} {s s' : RequestHeap} {n : NodeRef}
  {sessionId requestId now : ℕ}

/-! ## The first node of a request -/

lemma insertSemanticNode_enters (sessionId : ℕ) (n : NodeRef) :
    n ∈ ((s.insertSemanticNode sessionId n).2.sessions sessionId).graph.nodes := by
  have henter : n ∈ ((s.enterNode sessionId n).2.sessions sessionId).graph.nodes := by
    rw [(enterNode_nodes sessionId n sessionId).2, if_pos rfl]
    exact List.mem_insert_self
  unfold insertSemanticNode
  split
  · rename_i hok
    rwa [hok] at henter
  · rename_i s₁ hok
    rw [hok] at henter
    split
    · exact henter
    · split_ifs
      · unfold assignProducer
        split
        · exact henter
        · exact henter
      · exact henter

/-- The first node of a request enters the graph, and stays when a later one fails. -/
lemma executorAddRequest_enters (h : s.objs.Forward) (sessionId : ℕ) {rc : RequestChain}
    (hfirst : rc.firstNode < s.objs.nextNode) {v : SvRef}
    (hsv : (s.objs.node rc.firstNode).sv = some v) (hid : s.idInGraph rc.firstNode = none) :
    rc.firstNode ∈ ((s.executorAddRequest sessionId rc).2.sessions sessionId).graph.nodes := by
  obtain ⟨nodes, hnodes⟩ := h.exists_requestIter hfirst
  have hall := (h.requestNodes nodes hfirst (yields_of_drain hnodes)).2
  have hinserted : rc.firstNode ∈
      ((insertNodes sessionId nodes [] s).2.sessions sessionId).graph.nodes := by
    cases nodes with
    | nil =>
        have hstop := yields_of_drain hnodes
        cases hstop
    | cons n rest =>
        obtain ⟨c, hc, -⟩ := yields_of_drain hnodes
        obtain ⟨hn, -⟩ := Prod.mk.inj (Option.some.inj (Except.ok.inj hc))
        have hnode := insertSemanticNode_enters (s := s) sessionId n
        have hins := insertSemanticNode_inserted sessionId (hall n List.mem_cons_self).2
        rw [insertNodes]
        split
        · rename_i hok
          rw [hok] at hnode
          exact hn ▸ hnode
        · rename_i s₁ hok
          rw [hok] at hnode hins
          obtain ⟨hrest, -⟩ := insertNodes_inserted sessionId rest ([] ++ s₁.nodeParamInfo n) s₁
            fun m hm => hins.objs ▸ (hall m (List.mem_cons_of_mem _ hm)).2
          exact hn ▸ hrest.kept hnode
  have hchain : rc.firstNode ∈
      ((s.insertAndUpdateRequestChain sessionId rc).2.sessions sessionId).graph.nodes := by
    unfold insertAndUpdateRequestChain nodeSv
    rw [hsv, hid]
    simp only [Option.isSome_none, Bool.false_eq_true, if_false, hnodes]
    split
    · rename_i hok
      rwa [hok] at hinserted
    · rename_i info s₁ hok
      rw [hok] at hinserted
      have hset : s₁.Inserted (s₁.setGraph sessionId { (s₁.sessions sessionId).graph with
          chains := (s₁.sessions sessionId).graph.chains ++ rc.compChains }) := .setSession rfl rfl
      exact hset.kept hinserted
  unfold executorAddRequest
  split
  · rename_i hok
    rwa [hok] at hchain
  · rename_i hok
    rwa [hok] at hchain
  · rename_i info s₁ hok
    rw [hok] at hchain
    have hset : s₁.Inserted (s₁.startCoroutines sessionId (rc.compChains.map .completionChain)) :=
      .setSession rfl rfl
    exact hset.kept hchain

/-! ## Rejection -/

/-- A semantic request is rejected before it has written anything: the payload is no request, its
body is no chain, or the nodes in front of an unknown id are all there already. -/
def RejectedEarly (uuid3 : ℕ → Text → VarId) (m : SemanticVariableManager)
    (sessionId requestId now : ℕ) (payload : SemanticCallPayload) : Prop :=
  match ChunkedSemanticCallRequest.parseFromPayload requestId sessionId payload with
  | .error _ => True
  | .ok req => ¬ Buildable req ∨
      m.RefusedAt uuid3 sessionId now req.metadata.cachePrefix (req.body.map (chunkKind req))

/-- The classes of the nodes are those of the body. -/
lemma requestIter_kinds {g g' : GraphObjects} {req : ChunkedSemanticCallRequest}
    {rc : RequestChain} (hok : g.fromChunkedRequest req = .ok (some (rc, g')))
    {nodes : List NodeRef} (hiter : g'.requestIter rc = .ok (some nodes)) :
    rc.metadata = req.metadata ∧
      (nodes.map fun n => (g'.node n).kind) = req.body.map (chunkKind req) := by
  obtain ⟨ns, hbuilt, hhead, hmeta, -⟩ := fromChunkedRequest_endsEarly hok
  have hyields : Yields g'.requestChainNext (some rc.firstNode) ns :=
    hhead ▸ hbuilt.linked.yields_request ns [] rfl
  exact ⟨hmeta, (yields_of_drain hiter).unique hyields ▸ hbuilt.kinds⟩

/-- **Up to the executor** a request is rejected early and leaves the variables, or it is not, and
then it succeeds or has written something. -/
lemma addSemanticRequest_traces {g : GraphObjects} {m m' : SemanticVariableManager}
    (h : g.Forward) {ns : SemanticVariableNamespace}
    (hns : m.sessionNamespaces.get? sessionId = some ns) {payload : SemanticCallPayload}
    {result : Except PyError (Option SemanticRequest)}
    (hok : ParrotServe.addSemanticRequest uuid3 sessionId requestId now payload g m =
      (result, m')) :
    (RejectedEarly uuid3 m sessionId requestId now payload ∧ (∃ e, result = .error e) ∧
        m' = m) ∨
      (¬ RejectedEarly uuid3 m sessionId requestId now payload ∧
        ((∃ req, result = .ok (some req)) ∨ Wrote sessionId now m m')) := by
  unfold ParrotServe.addSemanticRequest at hok
  unfold RejectedEarly
  cases hparse : ChunkedSemanticCallRequest.parseFromPayload requestId sessionId payload with
  | error e =>
      rw [hparse] at hok
      obtain ⟨rfl, rfl⟩ := Prod.mk.inj hok
      exact .inl ⟨trivial, ⟨e, rfl⟩, rfl⟩
  | ok req =>
      rw [hparse] at hok
      dsimp only at hok ⊢
      rcases h.fromChunkedRequest_total req with
        ⟨hbuild, rc, g₁, hchain, hforward, -, hfirst, hlt⟩ | ⟨hbuild, e, herr⟩
      · obtain ⟨nodes, hiter⟩ := hforward.exists_requestIter (hfirst.trans_lt hlt)
        obtain ⟨hmeta, hkinds⟩ := requestIter_kinds hchain hiter
        rw [hchain] at hok
        dsimp only at hok
        unfold createVarsForRequestChain createVarsForSemanticRequestChain at hok
        rw [hiter] at hok
        dsimp only at hok
        rw [hmeta, hkinds] at hok
        cases hloop : createVarsLoop uuid3 sessionId now req.metadata.cachePrefix
          (req.body.map (chunkKind req)) [] m with
        | mk result₁ m₁ =>
            rw [hloop] at hok
            rcases createVarsLoop_traces _ hns hloop with
              ⟨hrefused, ⟨e, rfl⟩, rfl⟩ | ⟨hno, hrest⟩
            · obtain ⟨rfl, rfl⟩ := Prod.mk.inj hok
              exact .inl ⟨.inr hrefused, ⟨e, rfl⟩, rfl⟩
            · refine .inr ⟨fun hearly => hearly.elim (fun hb => hb hbuild) hno, ?_⟩
              rcases result₁ with e | rs
              · obtain ⟨rfl, rfl⟩ := Prod.mk.inj hok
                rcases hrest with ⟨rs, hrs⟩ | hwrote
                · cases hrs
                · exact .inr hwrote
              · obtain ⟨rfl, rfl⟩ := Prod.mk.inj hok
                exact .inl ⟨_, rfl⟩
      · rw [herr] at hok
        obtain ⟨rfl, rfl⟩ := Prod.mk.inj hok
        exact .inl ⟨.inl hbuild, ⟨e, rfl⟩, rfl⟩

/-- Nothing of a session has changed: its names with their seeds, the constant prefixes with their
access times, its graph with the edges, what is activated, and what runs. -/
structure Untouched (s s' : RequestHeap) (sessionId : ℕ) : Prop where
  names : SameNames sessionId s.vars s'.vars
  graph : (s'.sessions sessionId).graph = (s.sessions sessionId).graph
  producer : s'.producer = s.producer
  consumers : s'.consumers = s.consumers
  activation : s'.activation = s.activation
  coroutines : (s'.sessions sessionId).coroutines = (s.sessions sessionId).coroutines

lemma answerRequest_error {result : Except PyError (Option (List ParamInfo)) × RequestHeap}
    {e : PyError} (h : answerRequest sessionId requestId result = (.error e, s')) :
    result = (.error e, s') := by
  obtain ⟨_ | (_ | info), s₁⟩ := result
  · rw [answerRequest] at h
    obtain ⟨he, rfl⟩ := Prod.mk.inj h
    rw [Except.error.inj he]
  · cases (Prod.mk.inj h).1
  · cases (Prod.mk.inj h).1

/-- Counting a request does not touch the session. -/
lemma untouched_countRequest (vars : SemanticVariableManager)
    (hvars : SameNames sessionId s.vars vars) :
    s.Untouched { (s.countRequest sessionId).2 with vars } sessionId := by
  have hsession : (s.countRequest sessionId).2.sessions sessionId =
      { s.sessions sessionId with
        requestIdCounter := (s.sessions sessionId).requestIdCounter + 1 } :=
    Function.update_self _ _ _
  refine ⟨hvars, ?_, rfl, rfl, rfl, ?_⟩
  · dsimp only
    rw [hsession]
  · dsimp only
    rw [hsession]

/-- A request that was given its variables leaves its first node in the graph. -/
lemma addSemanticRequest_enters (h : s.Grounded) {payload : SemanticCallPayload}
    {req : SemanticRequest} {vars : SemanticVariableManager}
    (hok : ParrotServe.addSemanticRequest uuid3 sessionId requestId now payload s.objs s.vars =
      (.ok (some req), vars)) :
    s.objs.nextNode ∈ ((s.addSemanticRequest uuid3 sessionId requestId now payload).2.sessions
      sessionId).graph.nodes := by
  obtain ⟨nodes, rs, hnew, -⟩ := addSemanticRequest_newNodes h.forward hok
  have hfirst : req.requestChain.firstNode < req.graph.nextNode := hnew.first.trans_lt hnew.next
  obtain ⟨v, hv⟩ : ∃ v, (req.graph.node req.requestChain.firstNode).sv = some v := by
    have hyields := yields_of_drain hnew.iter
    have hlen := hnew.length
    cases nodes with
    | nil => cases hyields
    | cons n rest =>
        cases rs with
        | nil => cases hlen
        | cons r rs =>
            obtain ⟨c, hc, -⟩ := hyields
            obtain ⟨hn, -⟩ := Prod.mk.inj (Option.some.inj (Except.ok.inj hc))
            exact ⟨r, (hnew.svs hnew.first.ge).mpr (hn ▸ List.mem_cons_self)⟩
  have hid : s.idInGraph req.requestChain.firstNode = none := by
    rw [hnew.first, ← Option.not_isSome_iff_eq_none]
    exact fun hsome => lt_irrefl _ (h.numbered hsome)
  have henters : req.requestChain.firstNode ∈
      ((executorAddRequest { s with vars, objs := req.graph } sessionId
        req.requestChain).2.sessions sessionId).graph.nodes :=
    executorAddRequest_enters hnew.forward sessionId hfirst hv hid
  rw [hnew.first] at henters
  unfold RequestHeap.addSemanticRequest
  rw [hok]
  dsimp only
  split
  · rename_i hadd
    rwa [hadd] at henters
  · rename_i hadd
    rwa [hadd] at henters
  · rename_i info s₁ hadd
    rw [hadd] at henters
    have hkept := (activateLastOutput_traversed (s := s₁) req).inserted.kept henters
    split
    · rename_i hact
      rwa [hact] at hkept
    · rename_i hact
      rwa [hact] at hkept
    · rename_i hact
      rwa [hact] at hkept

/-- **A rejected request leaves its session untouched exactly when it is rejected early.**  In every
reachable state and for every payload of a session that raises. -/
theorem rejected_untouched_iff (uuid3 : ℕ → Text → VarId) (timeout : ℕ) {s s' : RequestHeap}
    (hs : (system uuid3 timeout).Reachable s) {sessionId now : ℕ}
    (hlive : sessionId ∈ s.vars.sessionNamespaces.keys) {payload : SemanticCallPayload}
    {e : PyError} (hraise : s.addRequest uuid3 sessionId now payload = (.error e, s')) :
    s.Untouched s' sessionId ↔ RejectedEarly uuid3 s.vars sessionId
      (s.sessions sessionId).requestIdCounter now payload := by
  have h : s.Grounded := (groundedInvariant uuid3 timeout).holds hs
  have h₁ : (s.countRequest sessionId).2.Grounded :=
    h.inserted (countRequest_inserted sessionId)
  obtain ⟨ns, hns⟩ := s.vars.sessionNamespaces.mem_keys.mp hlive
  have hadd : (s.countRequest sessionId).2.addSemanticRequest uuid3 sessionId
      (s.sessions sessionId).requestIdCounter now payload = (.error e, s') :=
    answerRequest_error hraise
  cases hbuild : ParrotServe.addSemanticRequest uuid3 sessionId
      (s.sessions sessionId).requestIdCounter now payload s.objs s.vars with
  | mk result vars =>
      have htraces := addSemanticRequest_traces h.forward hns hbuild
      rcases result with e₁ | _ | req
      · have hs' : s' = { (s.countRequest sessionId).2 with vars } := by
          unfold RequestHeap.addSemanticRequest at hadd
          dsimp only [countRequest, setSession] at hadd ⊢
          rw [hbuild] at hadd
          exact (Prod.mk.inj hadd).2.symm
        rw [hs']
        rcases htraces with ⟨hearly, -, rfl⟩ | ⟨hno, ⟨req, hreq⟩ | hwrote⟩
        · exact iff_of_true (untouched_countRequest _ ⟨rfl, rfl, rfl⟩) hearly
        · cases hreq
        · exact iff_of_false (fun hun => hwrote.not_same hun.names) hno
      · unfold RequestHeap.addSemanticRequest at hadd
        dsimp only [countRequest, setSession] at hadd
        rw [hbuild] at hadd
        cases (Prod.mk.inj hadd).1
      · rcases htraces with ⟨-, ⟨e₁, he₁⟩, -⟩ | ⟨hno, -⟩
        · cases he₁
        · refine iff_of_false (fun hun => ?_) hno
          have henters := addSemanticRequest_enters h₁ hbuild
          rw [hadd, hun.graph] at henters
          exact lt_irrefl _ (h.placed henters)

/-- A server with one session. -/
def openHeap : RequestHeap := (start 1).registerSession 0

lemma openHeap_reachable : (system escapeUuid3 1).Reachable openHeap :=
  .step (a := .registerSession 0) (.init rfl) trivial ⟨trivial, rfl⟩

/-- `{{n}}{{o}}` on an id that nobody knows. -/
def unknownFirst : SemanticCallPayload where
  template := some (placeholderSource ['n'] ++ placeholderSource ['o'])
  parameters := some
    [{ name := some ['n'], isOutput := some false, varId := some ['u'] },
      { name := some ['o'], isOutput := some true }]

/-- An unknown id in front of everything else is rejected without a trace. -/
theorem rejected_unknown_first : ∃ e s',
    openHeap.addRequest escapeUuid3 0 0 unknownFirst = (.error e, s') ∧
      openHeap.Untouched s' 0 := by
  have hraise : openHeap.addRequest escapeUuid3 0 0 unknownFirst =
      (.error (.parrotAssert "Local variable does not exist."), _) :=
    Prod.ext (by decide +kernel) rfl
  have hlive : 0 ∈ openHeap.vars.sessionNamespaces.keys := by decide +kernel
  have hearly : RejectedEarly escapeUuid3 openHeap.vars 0 0 0 unknownFirst :=
    .inr (.inl ⟨rfl, _, rfl⟩)
  exact ⟨_, _, hraise,
    (rejected_untouched_iff escapeUuid3 1 openHeap_reachable hlive hraise).mpr hearly⟩

/-- `hi{{a}}{{o}}` with a criteria that there is not. -/
def unsupportedCriteria : SemanticCallPayload :=
  { oneOutput with outputCriteria := some ['f', 'a', 's', 't'] }

/-- The criteria is looked at when the variables are made, the nodes are in the graph, and the
coroutine of the chain is started. -/
theorem rejected_request_runs : ∃ e s', (system escapeUuid3 1).Reachable openHeap ∧
    openHeap.addRequest escapeUuid3 0 0 unsupportedCriteria = (.error e, s') ∧
      (openHeap.sessions 0).coroutines = [] ∧
      (s'.sessions 0).coroutines = [.completionChain 0] ∧
      (s'.sessions 0).graph.nodes.length = 3 ∧ s'.vars.next = 3 ∧
      ¬ openHeap.Untouched s' 0 := by
  have hidle : (openHeap.sessions 0).coroutines = [] := by decide +kernel
  have hrun : (openHeap.addRequest escapeUuid3 0 0 unsupportedCriteria).1 =
        .error (.notImplementedError "PerformanceCriteria fast is not supported.") ∧
      ((openHeap.addRequest escapeUuid3 0 0 unsupportedCriteria).2.sessions 0).coroutines =
        [.completionChain 0] ∧
      ((openHeap.addRequest escapeUuid3 0 0 unsupportedCriteria).2.sessions
        0).graph.nodes.length = 3 ∧
      (openHeap.addRequest escapeUuid3 0 0 unsupportedCriteria).2.vars.next = 3 := by
    decide +kernel
  generalize openHeap.addRequest escapeUuid3 0 0 unsupportedCriteria = answer at hrun
  obtain ⟨result, s'⟩ := answer
  obtain ⟨rfl, hstarted, hnodes, hnext⟩ := hrun
  refine ⟨_, s', openHeap_reachable, rfl, hidle, hstarted, hnodes, hnext, fun hun => ?_⟩
  exact List.cons_ne_nil _ _ (hstarted.symm.trans (hun.coroutines.trans hidle))

end RequestHeap

end ParrotServe
