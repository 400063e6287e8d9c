import ParrotServe.Properties.GraphRuns

/-!
# What a new request leaves alone

A request adds nodes, chains and variables, and its Gen nodes become producers.  `Appended` says of
the objects, and `Requested` of the whole heap, that nothing else changes: nodes and chains that
were there stay as they are, with their producers, their activations and their groups.

Behind a run of requests every chain ends in a Gen node of its own (`EndsOnce`).
-/

namespace ParrotServe

namespace GraphObjects

variable {g g' g'' : GraphObjects} {base n : NodeRef}

/-! ## Nodes and chains -/

/-- The nodes before `base` and the chains that were there stay as they are, and new chains do not
end before `base`. -/
structure Appended (base : NodeRef) (g g' : GraphObjects) : Prop where
  nextNode : g.nextNode ≤ g'.nextNode
  nextChain : g.nextChain ≤ g'.nextChain
  node : ∀ n < base, g'.node n = g.node n
  chain : ∀ c < g.nextChain, g'.chain c = g.chain c
  ends : ∀ c n, g.nextChain ≤ c → (g'.chain c).genNode = some n →
    (g.chain c).genNode = some n ∨ base ≤ n

/-- Every chain ends in a node of its own. -/
structure EndsOnce (g : GraphObjects) : Prop where
  bounded : ∀ c n, (g.chain c).genNode = some n → c < g.nextChain ∧ n < g.nextNode
  once : ∀ c c' n, (g.chain c).genNode = some n → (g.chain c').genNode = some n → c = c'

lemma Appended.refl (base : NodeRef) (g : GraphObjects) : Appended base g g :=
  ⟨le_rfl, le_rfl, fun _ _ => rfl, fun _ _ => rfl, fun _ _ _ h => .inl h⟩

lemma Appended.trans (h : Appended base g g') (h' : Appended base g' g'') :
    Appended base g g'' where
  nextNode := h.nextNode.trans h'.nextNode
  nextChain := h.nextChain.trans h'.nextChain
  node n hn := (h'.node n hn).trans (h.node n hn)
  chain c hc := (h'.chain c (hc.trans_le h.nextChain)).trans (h.chain c hc)
  ends c n hc hn := by
    rcases Nat.lt_or_ge c g'.nextChain with hlt | hge
    · exact h.ends c n hc (h'.chain c hlt ▸ hn)
    · exact (h'.ends c n hge hn).elim (h.ends c n hc) .inr

lemma endsOnce_empty : empty.EndsOnce := ⟨fun _ _ h => (by cases h), fun _ _ _ h => (by cases h)⟩

/-- Other nodes, but the same chains. -/
lemma EndsOnce.congr (h : g.EndsOnce) (hnode : g.nextNode ≤ g'.nextNode)
    (hchain : g'.chain = g.chain) (hnext : g'.nextChain = g.nextChain) : g'.EndsOnce where
  bounded c n hn := by
    obtain ⟨hc, hlt⟩ := h.bounded c n (hchain ▸ hn)
    exact ⟨hnext ▸ hc, hlt.trans_le hnode⟩
  once c c' n hn hn' := h.once c c' n (hchain ▸ hn) (hchain ▸ hn')

lemma appended_newNode (hbase : base ≤ g.nextNode) (kind : NodeKind) :
    Appended base g (g.newNode kind).2 :=
  ⟨Nat.le_succ _, le_rfl, fun _ hn => Function.update_of_ne (hn.trans_le hbase).ne _ _,
    fun _ _ => rfl, fun _ _ _ h => .inl h⟩

lemma appended_linkEdgeAWith {prev : NodeRef} (hn : base ≤ n) (hprev : base ≤ prev) :
    Appended base g (g.linkEdgeAWith n prev) := by
  refine ⟨le_rfl, le_rfl, fun m hm => ?_, fun _ _ => rfl, fun _ _ _ h => .inl h⟩
  have hmprev : m ≠ prev := (hm.trans_le hprev).ne
  have hmn : m ≠ n := (hm.trans_le hn).ne
  simp only [linkEdgeAWith, setNode, Function.update_of_ne hmprev, Function.update_of_ne hmn]

lemma Forward.le_of_fillPath (h : g.Forward) {q : NodeRef} (hpath : g.FillPath q n) : q ≤ n := by
  induction hpath with
  | refl => exact le_rfl
  | tail _ hstep ih => exact ih.trans (h.next hstep.2).1.le

/-- A completion chain. -/
lemma newCompletionChain_appended (h : g.Forward) (hends : g.EndsOnce) {first : Option NodeRef}
    {gen : NodeRef} {c : ChainRef} (hfirst : ∀ q, first = some q → base ≤ q) (hgen : base ≤ gen)
    (hlt : gen < g.nextNode) (hnew : ∀ c, (g.chain c).genNode ≠ some gen)
    (hok : g.newCompletionChain first gen = .ok (some (c, g'))) :
    Appended base g g' ∧ g'.EndsOnce := by
  obtain ⟨l, hl, rfl, -, hnextNode, hnextChain, hother, hchain, -⟩ := newCompletionChain_spec hok
  have hbehind : ∀ n ∈ l, base ≤ n := by
    intro n hn
    cases first with
    | none =>
        cases l with
        | nil => exact absurd hn List.not_mem_nil
        | cons x l =>
            obtain ⟨_, hstop, -⟩ := hl
            cases hstop
    | some q => exact (hfirst q rfl).trans (h.le_of_fillPath (h.fillPath l hl hn))
  have hself : (g'.chain g.nextChain).genNode = some gen := by rw [hchain, Function.update_self]
  have hold : ∀ c, c ≠ g.nextChain → g'.chain c = g.chain c := fun c hc => by
    rw [hchain, Function.update_of_ne hc]
  refine ⟨⟨hnextNode.ge, hnextChain ▸ Nat.le_succ _, fun n hn => hother n fun hmem =>
    absurd (hbehind n hmem) hn.not_ge, fun c hc => hold c hc.ne, fun c n _ hn => ?_⟩,
    fun c n hn => ?_, fun c c' n hn hn' => ?_⟩
  · by_cases hc : c = g.nextChain
    · rw [hc, hself] at hn
      exact .inr (Option.some.inj hn ▸ hgen)
    · exact .inl (hold c hc ▸ hn)
  · by_cases hc : c = g.nextChain
    · rw [hc, hself] at hn
      exact ⟨hc ▸ hnextChain ▸ Nat.lt_succ_self _, hnextNode ▸ Option.some.inj hn ▸ hlt⟩
    · obtain ⟨hclt, hnlt⟩ := hends.bounded c n (hold c hc ▸ hn)
      exact ⟨hnextChain ▸ Nat.lt_succ_of_lt hclt, hnextNode ▸ hnlt⟩
  · by_cases hc : c = g.nextChain
    · by_cases hc' : c' = g.nextChain
      · exact hc.trans hc'.symm
      · rw [hc, hself] at hn
        rw [hold c' hc', ← hn] at hn'
        exact absurd hn' (hnew c')
    · by_cases hc' : c' = g.nextChain
      · rw [hc', hself] at hn'
        rw [hold c hc, ← hn'] at hn
        exact absurd hn (hnew c)
      · exact hends.once c c' n (hold c hc ▸ hn) (hold c' hc' ▸ hn')

/-! ## The construction of a request -/

/-- The loop over the chunks of a request. -/
lemma buildChains_appended {req : ChunkedSemanticCallRequest} (chunks : List BodyChunk) :
    ∀ {g : GraphObjects} {prev : NodeRef} {first : Option NodeRef} {rc rc' : RequestChain},
      g.Forward → g.EndsOnce → base ≤ prev → prev < g.nextNode →
      (g.node prev).edgeANextNode = none → (∀ q, first = some q → base ≤ q ∧ q < g.nextNode) →
      buildChains req.newChunkNode nextFirstOfChunks chunks prev first rc g =
        .ok (some (rc', g')) → Appended base g g' ∧ g'.EndsOnce := by
  induction chunks with
  | nil =>
      intro g prev first rc rc' _ hends _ _ _ _ hok
      obtain ⟨-, rfl⟩ := Prod.mk.inj (Option.some.inj (Except.ok.inj hok))
      exact ⟨.refl _ _, hends⟩
  | cons chunk chunks ih =>
      intro g prev first rc rc' h hends hbase hprev hend hfirst hok
      rw [buildChains] at hok
      cases hkind : req.nodeKind chunk with
      | error e =>
          rw [ChunkedSemanticCallRequest.newChunkNode, hkind] at hok
          cases hok
      | ok kind =>
          obtain ⟨hlink, hkept, hn, hlast, hback⟩ := h.linkNewNode hprev hend kind
          have hbase' : base ≤ g.nextNode := hbase.trans hprev.le
          have happ : Appended base g ((g.newNode kind).2.linkEdgeAWith g.nextNode prev) :=
            (appended_newNode hbase' kind).trans (appended_linkEdgeAWith hbase' hbase)
          have hends₁ : ((g.newNode kind).2.linkEdgeAWith g.nextNode prev).EndsOnce :=
            hends.congr hn.le rfl rfl
          have hnew : ∀ c, (((g.newNode kind).2.linkEdgeAWith g.nextNode prev).chain c).genNode ≠
              some g.nextNode :=
            fun c hc => absurd (hends.bounded c _ hc).2 (Nat.lt_irrefl _)
          rw [newChunkNode_eq hkind] at hok
          dsimp only at hok
          generalize (g.newNode kind).2.linkEdgeAWith g.nextNode prev = g₁ at *
          split_ifs at hok
          · obtain ⟨c, g₂, hchain⟩ := hlink.exists_newCompletionChain g.nextNode
              fun q hq => (hfirst q hq).2.trans hn
            obtain ⟨hforward, -, hsame, hedges⟩ := hlink.newCompletionChain
              (fun q hq => (hfirst q hq).2.trans hn) hchain
            obtain ⟨happ₂, hends₂⟩ := newCompletionChain_appended hlink hends₁
              (fun q hq => (hfirst q hq).1) hbase' hn hnew hchain
            rw [hchain] at hok
            dsimp only at hok
            rw [nextFirstOfChunks_eq, (hedges _).2.1, hback] at hok
            obtain ⟨hrest, hends'⟩ := ih hforward hends₂ hbase' (hsame ▸ hn)
              ((hedges _).2.2.trans hlast)
              (fun q hq => Option.some.inj hq ▸ ⟨hbase, (hprev.trans hn).trans_eq hsame.symm⟩) hok
            exact ⟨(happ.trans happ₂).trans hrest, hends'⟩
          · obtain ⟨hrest, hends'⟩ := ih hlink hends₁ hbase' hn hlast
              (fun q hq => ⟨(hfirst q hq).1, (hfirst q hq).2.trans hn⟩) hok
            exact ⟨happ.trans hrest, hends'⟩

/-- **The construction of a request** leaves what was there. -/
lemma fromChunkedRequest_appended (h : g.Forward) (hends : g.EndsOnce)
    {req : ChunkedSemanticCallRequest} {rc : RequestChain}
    (hok : g.fromChunkedRequest req = .ok (some (rc, g'))) :
    Appended g.nextNode g g' ∧ g'.EndsOnce := by
  obtain ⟨chunk, chunks, -, -, -, hloop⟩ := fromChunkedRequest_cases hok
  obtain ⟨hnew, -⟩ := h.newNode (chunkKind req chunk)
  have hnode : (g.newNode (chunkKind req chunk)).2.node g.nextNode =
      { kind := chunkKind req chunk } := Function.update_self _ _ _
  have hn : g.nextNode < (g.newNode (chunkKind req chunk)).2.nextNode := Nat.lt_succ_self _
  obtain ⟨hrest, hends'⟩ := buildChains_appended chunks hnew (hends.congr hn.le rfl rfl) le_rfl hn
    (by rw [hnode]) (fun q hq => Option.some.inj hq ▸ ⟨le_rfl, hn⟩) hloop
  exact ⟨(appended_newNode le_rfl _).trans hrest, hends'⟩

/-- The nodes get their variables. -/
lemma setSvs_appended (l : List (NodeRef × SvRef)) : ∀ {g : GraphObjects},
    (∀ n ∈ l.map Prod.fst, base ≤ n) → Appended base g (g.setSvs l) := by
  induction l with
  | nil => exact fun _ => .refl _ _
  | cons x l ih =>
      intro g hl
      rw [List.map_cons] at hl
      have hx : base ≤ x.1 := hl _ List.mem_cons_self
      have hset : Appended base g (g.setNode x.1 { g.node x.1 with sv := some x.2 }) :=
        ⟨le_rfl, le_rfl, fun n hn => Function.update_of_ne (hn.trans_le hx).ne _ _,
          fun _ _ => rfl, fun _ _ _ h => .inl h⟩
      exact hset.trans (ih fun n hn => hl n (List.mem_cons_of_mem _ hn))

end GraphObjects

namespace RequestHeap

open GraphObjects SemanticVariableManager

variable {uuid3 : ℕ → Text → VarId} {s s' s'' : RequestHeap} {base n : NodeRef} {v : SvRef}
  {sessionId requestId now : ℕ}

/-! ## Insertion -/

/-- Nodes behind `base` become producers, and nothing else is activated or grouped. -/
structure Placed (base : NodeRef) (s s' : RequestHeap) : Prop where
  objs : s'.objs = s.objs
  native : s'.native = s.native
  activation : s'.activation = s.activation
  nextGroup : s'.nextGroup = s.nextGroup
  groupChains : s'.groupChains = s.groupChains
  chainGroups : s'.chainGroups = s.chainGroups
  kept : ∀ {v p}, s.producer v = some p → s'.producer v = some p
  new : ∀ {v p}, s'.producer v = some p → s.producer v = some p ∨ base ≤ p

lemma Placed.refl (base : NodeRef) (s : RequestHeap) : Placed base s s :=
  ⟨rfl, rfl, rfl, rfl, rfl, rfl, fun h => h, .inl⟩

lemma Placed.trans (h : Placed base s s') (h' : Placed base s' s'') : Placed base s s'' where
  objs := h'.objs.trans h.objs
  native := h'.native.trans h.native
  activation := h'.activation.trans h.activation
  nextGroup := h'.nextGroup.trans h.nextGroup
  groupChains := h'.groupChains.trans h.groupChains
  chainGroups := h'.chainGroups.trans h.chainGroups
  kept hp := h'.kept (h.kept hp)
  new hp := (h'.new hp).elim h.new .inr

lemma enterNode_placed (sessionId : ℕ) (n : NodeRef) :
    Placed base s (s.enterNode sessionId n).2 := by
  unfold enterNode
  dsimp only
  split
  · exact ⟨rfl, rfl, rfl, rfl, rfl, rfl, fun h => h, .inl⟩
  · exact ⟨rfl, rfl, rfl, rfl, rfl, rfl, fun h => h, .inl⟩

lemma assignProducer_placed (hn : base ≤ n) : Placed base s (s.assignProducer v n).2 := by
  unfold assignProducer
  split
  · exact .refl _ s
  · rename_i hnone
    refine ⟨rfl, rfl, rfl, rfl, rfl, rfl, fun {w p} hp => ?_, fun {w p} hp => ?_⟩
    · have hne : w ≠ v := by
        rintro rfl
        rw [hnone] at hp
        cases hp
      exact (Function.update_of_ne hne _ _).trans hp
    · dsimp only at hp
      rw [Function.update_apply] at hp
      split_ifs at hp with hw
      · exact .inr (Option.some.inj hp ▸ hn)
      · exact .inl hp

lemma insertSemanticNode_placed (sessionId : ℕ) (hn : base ≤ n) :
    Placed base s (s.insertSemanticNode sessionId n).2 := by
  have henter : Placed base s (s.enterNode sessionId n).2 := enterNode_placed sessionId n
  unfold insertSemanticNode
  split
  · rename_i hok
    rwa [hok] at henter
  · rename_i s₁ hok
    rw [hok] at henter
    split
    · exact henter
    · split_ifs
      · exact henter.trans (assignProducer_placed hn)
      · exact henter.trans ⟨rfl, rfl, rfl, rfl, rfl, rfl, fun h => h, .inl⟩

lemma insertNodes_placed (sessionId : ℕ) (nodes : List NodeRef) :
    ∀ {info : List ParamInfo} {s : RequestHeap}, (∀ n ∈ nodes, base ≤ n) →
      Placed base s (insertNodes sessionId nodes info s).2 := by
  induction nodes with
  | nil => exact fun _ => .refl _ _
  | cons n nodes ih =>
      intro info s hnodes
      have hone := insertSemanticNode_placed (s := s) sessionId (hnodes n List.mem_cons_self)
      unfold insertNodes
      split
      · rename_i hok
        rwa [hok] at hone
      · rename_i hok
        rw [hok] at hone
        exact hone.trans (ih fun m hm => hnodes m (List.mem_cons_of_mem _ hm))

/-- `GraphExecutor.add_request`, for a request whose nodes are behind `base`. -/
lemma executorAddRequest_placed (sessionId : ℕ) {rc : RequestChain}
    (hnodes : ∀ nodes, s.objs.requestIter rc = .ok (some nodes) → ∀ n ∈ nodes, base ≤ n) :
    Placed base s (s.executorAddRequest sessionId rc).2 := by
  have hinsert : Placed base s (s.insertAndUpdateRequestChain sessionId rc).2 := by
    unfold insertAndUpdateRequestChain
    split
    · exact .refl _ s
    · split_ifs
      · exact .refl _ s
      · split
        · exact .refl _ s
        · exact .refl _ s
        · rename_i nodes hiter
          have hall := @insertNodes_placed base sessionId nodes [] s (hnodes nodes hiter)
          split
          · rename_i hok
            rwa [hok] at hall
          · rename_i hok
            rw [hok] at hall
            exact hall.trans ⟨rfl, rfl, rfl, rfl, rfl, rfl, fun h => h, .inl⟩
  unfold executorAddRequest
  split
  · rename_i hok
    rwa [hok] at hinsert
  · rename_i hok
    rwa [hok] at hinsert
  · rename_i hok
    rw [hok] at hinsert
    exact hinsert.trans ⟨rfl, rfl, rfl, rfl, rfl, rfl, fun h => h, .inl⟩

/-! ## Requests -/

/-- New objects, and producers among them. -/
structure Requested (s s' : RequestHeap) : Prop where
  objs : Appended s.objs.nextNode s.objs s'.objs
  endsOnce : s'.objs.EndsOnce
  native : s'.native = s.native
  activation : s'.activation = s.activation
  nextGroup : s'.nextGroup = s.nextGroup
  groupChains : s'.groupChains = s.groupChains
  chainGroups : s'.chainGroups = s.chainGroups
  kept : ∀ {v p}, s.producer v = some p → s'.producer v = some p
  new : ∀ {v p}, s'.producer v = some p → s.producer v = some p ∨ s.objs.nextNode ≤ p

/-- A parsed request has the metadata of its payload. -/
lemma parseFromPayload_metadata {payload : SemanticCallPayload} {req : ChunkedSemanticCallRequest}
    (hok : ChunkedSemanticCallRequest.parseFromPayload requestId sessionId payload = .ok req) :
    req.metadata = payload.metadata := by
  unfold ChunkedSemanticCallRequest.parseFromPayload at hok
  split at hok
  · cases hok
  · cases hok
  · rename_i template parameters _ _
    dsimp only at hok
    split at hok
    · cases hok
    · rename_i parsed hparsed
      obtain rfl := Except.ok.inj hok
      obtain ⟨-, hmeta⟩ := ChunkedSemanticCallRequest.parseParameters_frame _ _ hparsed
      obtain ⟨hloop, -⟩ := ChunkedSemanticCallRequest.parseMatches_frame template
        (finditer 0 0 template) 0 parsed
      refine Eq.trans ?_ (hloop.trans hmeta)
      unfold ChunkedSemanticCallRequest.parseBody
      dsimp only
      split_ifs
      · unfold ChunkedSemanticCallRequest.pushText
        split_ifs <;> rfl
      · rfl

/-- `_add_semantic_request` without a criteria. -/
lemma addSemanticRequest_requested (h : s.Ordered) (hends : s.objs.EndsOnce)
    {payload : SemanticCallPayload} (hcriteria : payload.outputCriteria = none) :
    s.Requested (s.addSemanticRequest uuid3 sessionId requestId now payload).2 := by
  unfold RequestHeap.addSemanticRequest
  split
  · exact ⟨.refl _ _, hends, rfl, rfl, rfl, rfl, rfl, fun h => h, .inl⟩
  · exact ⟨.refl _ _, hends, rfl, rfl, rfl, rfl, rfl, fun h => h, .inl⟩
  · rename_i req vars hok
    obtain ⟨nodes, rs, hnew, -⟩ := addSemanticRequest_newNodes h.forward hok
    obtain ⟨g₁, nodes', rs', hparse, hchain, hiter, -, hgraph⟩ :=
      SemanticRequest.addSemanticRequest_cases hok
    obtain ⟨happ, hends₁⟩ := fromChunkedRequest_appended h.forward hends hchain
    obtain ⟨hforward, -, hfirst, hlt⟩ := h.forward.fromChunkedRequest hchain
    have hrange := (hforward.requestNodes nodes' (hfirst ▸ hlt) (yields_of_drain hiter)).2
    have hset : Appended s.objs.nextNode g₁ req.graph := by
      rw [hgraph]
      refine setSvs_appended _ fun n hn => ?_
      obtain ⟨x, hx, rfl⟩ := List.mem_map.mp hn
      exact hfirst ▸ (hrange x.1 (List.of_mem_zip hx).1).1
    have hends₂ : req.graph.EndsOnce := by
      obtain ⟨-, hchains, hnext, -, -⟩ := setSvs_spec (nodes'.zip rs') g₁
      rw [hgraph]
      exact hends₁.congr hnext.ge hchains (setSvs_chains _ g₁).1
    have hplaced : Placed s.objs.nextNode { s with vars, objs := req.graph }
        (({ s with vars, objs := req.graph } : RequestHeap).executorAddRequest sessionId
          req.requestChain).2 :=
      executorAddRequest_placed sessionId fun l hl n hn => by
        obtain rfl := Option.some.inj (Except.ok.inj (hnew.iter.symm.trans hl))
        exact (hnew.range n hn).1
    have hall : s.Requested (({ s with vars, objs := req.graph } : RequestHeap).executorAddRequest
        sessionId req.requestChain).2 :=
      ⟨hplaced.objs.symm ▸ happ.trans hset, hplaced.objs.symm ▸ hends₂, hplaced.native,
        hplaced.activation, hplaced.nextGroup, hplaced.groupChains, hplaced.chainGroups,
        hplaced.kept, hplaced.new⟩
    split
    · rename_i hadd
      rwa [hadd] at hall
    · rename_i hadd
      rwa [hadd] at hall
    · rename_i info s₁ hadd
      rw [hadd] at hall
      have hnone : req.chunkedRequest.metadata.outputCriteria = none := by
        rw [parseFromPayload_metadata hparse]
        exact hcriteria
      have hlast : s₁.activateLastOutput req = (.ok (some ()), s₁) := by
        rw [activateLastOutput, hnone]
      rw [hlast]
      exact hall

/-- The actions that activate nothing and insert no native function. -/
def InsertsOnly : Action → Prop
  | .addNativeRequest _ _ | .getSemanticVariable _ _ => False
  | .addRequest _ _ payload => payload.outputCriteria = none
  | _ => True

instance : ∀ a, Decidable (InsertsOnly a)
  | .addNativeRequest _ _ | .getSemanticVariable _ _ => inferInstanceAs (Decidable False)
  | .addRequest _ _ payload => inferInstanceAs (Decidable (payload.outputCriteria = none))
  | .registerSession _ | .freeSessionResources _ | .registerSemanticVariable _ _ | .set _ _
  | .freeExpiredConstantPrefixVars _ => inferInstanceAs (Decidable True)

/-- **What such an action leaves alone.** -/
lemma requested_apply (h : s.Ordered) (hends : s.objs.EndsOnce) {a : Action}
    (ha : InsertsOnly a) : s.Requested (s.apply uuid3 a) := by
  have hsame : ∀ {s' : RequestHeap}, s'.objs = s.objs → s'.native = s.native →
      s'.activation = s.activation → s'.nextGroup = s.nextGroup →
      s'.groupChains = s.groupChains → s'.chainGroups = s.chainGroups →
      s'.producer = s.producer → s.Requested s' :=
    fun h₁ h₂ h₃ h₄ h₅ h₆ h₇ => ⟨h₁ ▸ .refl _ _, h₁ ▸ hends, h₂, h₃, h₄, h₅, h₆,
      fun hp => h₇ ▸ hp, fun hp => .inl (h₇ ▸ hp)⟩
  cases a with
  | registerSession sessionId =>
      simp only [RequestHeap.apply, registerSession]
      split
      · exact hsame rfl rfl rfl rfl rfl rfl rfl
      · exact hsame rfl rfl rfl rfl rfl rfl rfl
  | freeSessionResources sessionId => exact hsame rfl rfl rfl rfl rfl rfl rfl
  | registerSemanticVariable sessionId varName =>
      simp only [RequestHeap.apply, registerSemanticVariable]
      split
      · exact hsame rfl rfl rfl rfl rfl rfl rfl
      · exact hsame rfl rfl rfl rfl rfl rfl rfl
  | addRequest sessionId now payload =>
      have hadd : s.Requested ((s.countRequest sessionId).2.addSemanticRequest uuid3 sessionId
          (s.countRequest sessionId).1 now payload).2 := by
        obtain ⟨h₁, h₂, h₃, h₄, h₅, h₆, h₇, h₈, h₉⟩ := addSemanticRequest_requested
          (h.inserted (countRequest_inserted sessionId)) hends ha
        exact ⟨h₁, h₂, h₃, h₄, h₅, h₆, h₇, h₈, h₉⟩
      simp only [RequestHeap.apply, RequestHeap.addRequest]
      generalize (s.countRequest sessionId).2.addSemanticRequest uuid3 sessionId
        (s.countRequest sessionId).1 now payload = result at hadd ⊢
      obtain ⟨_ | (_ | info), s₁⟩ := result
      · exact hadd
      · exact hadd
      · exact ⟨hadd.1, hadd.2, hadd.3, hadd.4, hadd.5, hadd.6, hadd.7, hadd.8, hadd.9⟩
  | addNativeRequest sessionId request => exact ha.elim
  | getSemanticVariable var criteria => exact ha.elim
  | set var content => exact hsame rfl rfl rfl rfl rfl rfl rfl
  | freeExpiredConstantPrefixVars curTime => exact hsame rfl rfl rfl rfl rfl rfl rfl

end RequestHeap

end ParrotServe
