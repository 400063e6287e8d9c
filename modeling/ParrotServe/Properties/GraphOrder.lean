import ParrotServe.Model.SessionRequests
import ParrotServe.Properties.FreshVariables
import ParrotServe.Properties.NodeOrder

/-!
# The compute graph is acyclic

References of nodes are the order of their construction, and every edge of the graph goes from an
earlier node to a later one.  For the edges of type A this is `GraphObjects.Forward`.  An edge of
type B goes from the producer of a variable to its consumers.  Producers are only assigned to
variables that are created in the same request, so whoever reads the variable is a later node of
this request or comes with a later one.  `Ordered` says this of the nodes that read and write a
variable (`Reads`, `Writes`), whether they were inserted or not; insertion only makes producers of
writers and consumers of readers.

A recursion of `_traverse` goes from a variable to variables with earlier producers, so its depth is
at most the number of nodes.
-/

namespace ParrotServe

namespace RequestHeap

open GraphObjects SemanticVariableManager TransitionSystem

variable {uuid3 : ℕ → Text → VarId} {s s' s'' : RequestHeap} {n p c : NodeRef} {v : SvRef}

/-! ## Nodes and variables -/

/-- A fill node, or a native function with the variable as an input. -/
def Reads (s : RequestHeap) (n : NodeRef) (v : SvRef) : Prop :=
  ((s.objs.node n).isGen = false ∧ (s.objs.node n).sv = some v) ∨
    ∃ node, s.native n = some node ∧ v ∈ node.inputVars.map Prod.snd

/-- A Gen node, or a native function with the variable as an output. -/
def Writes (s : RequestHeap) (n : NodeRef) (v : SvRef) : Prop :=
  ((s.objs.node n).isGen = true ∧ (s.objs.node n).sv = some v) ∨
    ∃ node, s.native n = some node ∧ v ∈ node.outputVars.map Prod.snd

/-- Nodes write a variable before others read it, and one node writes it. -/
structure Ordered (s : RequestHeap) : Prop where
  forward : s.objs.Forward
  bounded : s.vars.Bounded
  native : ∀ {n node}, s.native n = some node → n < s.objs.nextNode
  reads : ∀ {n v}, s.Reads n v → n < s.objs.nextNode ∧ v < s.vars.next
  writes : ∀ {n v}, s.Writes n v → n < s.objs.nextNode ∧ v < s.vars.next
  before : ∀ {p c v}, s.Writes p v → s.Reads c v → p < c
  once : ∀ {p p' v}, s.Writes p v → s.Writes p' v → p = p'
  producer : ∀ {v p}, s.producer v = some p → s.Writes p v
  consumer : ∀ {v c}, c ∈ s.consumers v → s.Reads c v

/-- The ids that a session has returned are in its namespace. -/
def ReturnedInv (s : RequestHeap) : Prop :=
  ∀ sessionId ns, s.vars.sessionNamespaces.get? sessionId = some ns →
    ∀ v ∈ (s.sessions sessionId).returned, ∃ r, ns.vars.get? v = some r

/-! ## The edges -/

/-- The edges of the graph. -/
inductive Edge (s : RequestHeap) : NodeRef → NodeRef → Prop
  /-- Type A, as the earlier node keeps it. -/
  | next {n m : NodeRef} : (s.objs.node n).edgeANextNode = some m → Edge s n m
  /-- Type A, as the later node keeps it. -/
  | prev {n m : NodeRef} : (s.objs.node m).edgeAPrevNode = some n → Edge s n m
  /-- Type B. -/
  | typeB {n m : NodeRef} {v : SvRef} : s.producer v = some n → m ∈ s.consumers v → Edge s n m
  /-- `get_prev_producers` of a native function. -/
  | nativeInput {n m : NodeRef} {v : SvRef} {node : NativeFuncNode} : s.native m = some node →
      v ∈ node.inputVars.map Prod.snd → s.producer v = some n → Edge s n m
  /-- `get_next_consumers` of a native function. -/
  | nativeOutput {n m : NodeRef} {v : SvRef} {node : NativeFuncNode} : s.native n = some node →
      v ∈ node.outputVars.map Prod.snd → m ∈ s.consumers v → Edge s n m

/-- **Every edge goes forward.** -/
lemma Ordered.lt_of_edge (h : s.Ordered) {m : NodeRef} (he : s.Edge n m) : n < m := by
  cases he with
  | next hnext => exact (h.forward.next hnext).1
  | prev hprev => exact h.forward.prev hprev
  | typeB hp hc => exact h.before (h.producer hp) (h.consumer hc)
  | nativeInput hnode hv hp => exact h.before (h.producer hp) (.inr ⟨_, hnode, hv⟩)
  | nativeOutput hnode hv hc => exact h.before (.inr ⟨_, hnode, hv⟩) (h.consumer hc)

lemma Ordered.acyclic (h : s.Ordered) (n : NodeRef) : ¬ Relation.TransGen s.Edge n n := by
  intro hcycle
  have hlt : Relation.TransGen (· < ·) n n :=
    Relation.TransGen.mono (fun _ _ he => h.lt_of_edge he) _ _ hcycle
  rw [Relation.transGen_eq_self] at hlt
  exact Nat.lt_irrefl n hlt

/-! ## Insertion -/

/-- Nodes, variables and what they were given stay; writers become producers and readers
consumers, and nodes that there are enter graphs. -/
structure Inserted (s s' : RequestHeap) : Prop where
  vars : s'.vars = s.vars
  objs : s'.objs = s.objs
  native : s'.native = s.native
  returned : ∀ sessionId, (s'.sessions sessionId).returned = (s.sessions sessionId).returned
  producer : ∀ {v p}, s'.producer v = some p → s.producer v = some p ∨ s.Writes p v
  consumer : ∀ {v c}, c ∈ s'.consumers v → c ∈ s.consumers v ∨ s.Reads c v
  kept : ∀ {sessionId n}, n ∈ (s.sessions sessionId).graph.nodes →
    n ∈ (s'.sessions sessionId).graph.nodes
  placed : ∀ {sessionId n}, n ∈ (s'.sessions sessionId).graph.nodes →
    n ∈ (s.sessions sessionId).graph.nodes ∨ n < s.objs.nextNode
  numbered : ∀ {n}, (s'.idInGraph n).isSome → (s.idInGraph n).isSome ∨ n < s.objs.nextNode

namespace Inserted

lemma refl (s : RequestHeap) : s.Inserted s :=
  ⟨rfl, rfl, rfl, fun _ => rfl, fun h => .inl h, fun h => .inl h, fun h => h, fun h => .inl h,
    fun h => .inl h⟩

lemma reads (h : s.Inserted s') : s'.Reads = s.Reads := by
  unfold Reads
  rw [h.objs, h.native]

lemma writes (h : s.Inserted s') : s'.Writes = s.Writes := by
  unfold Writes
  rw [h.objs, h.native]

lemma trans (h : s.Inserted s') (h' : s'.Inserted s'') : s.Inserted s'' where
  vars := h'.vars.trans h.vars
  objs := h'.objs.trans h.objs
  native := h'.native.trans h.native
  returned sessionId := (h'.returned sessionId).trans (h.returned sessionId)
  producer hp := (h'.producer hp).elim h.producer fun hw => .inr (h.writes ▸ hw)
  consumer hc := (h'.consumer hc).elim h.consumer fun hr => .inr (h.reads ▸ hr)
  kept hn := h'.kept (h.kept hn)
  placed hn := (h'.placed hn).elim h.placed fun hlt => .inr (h.objs ▸ hlt)
  numbered hn := (h'.numbered hn).elim h.numbered fun hlt => .inr (h.objs ▸ hlt)

/-- A session is overwritten, but not what it has returned or the nodes of its graph. -/
lemma setSession {sessionId : ℕ} {session : RequestSession}
    (h : session.returned = (s.sessions sessionId).returned)
    (hnodes : session.graph.nodes = (s.sessions sessionId).graph.nodes) :
    s.Inserted (s.setSession sessionId session) := by
  have hsession : ∀ id, ((s.setSession sessionId session).sessions id).returned =
        (s.sessions id).returned ∧
      ((s.setSession sessionId session).sessions id).graph.nodes =
        (s.sessions id).graph.nodes := by
    intro id
    rw [RequestHeap.setSession]
    dsimp only
    rw [Function.update_apply]
    split_ifs with hid
    · rw [h, hnodes, hid]
      exact ⟨rfl, rfl⟩
    · exact ⟨rfl, rfl⟩
  exact ⟨rfl, rfl, rfl, fun id => (hsession id).1, fun h => .inl h, fun h => .inl h,
    fun {id n} hn => (hsession id).2 ▸ hn, fun {id n} hn => .inl ((hsession id).2 ▸ hn),
    fun h => .inl h⟩

end Inserted

lemma Ordered.inserted (h : s.Ordered) (hi : s.Inserted s') : s'.Ordered where
  forward := hi.objs ▸ h.forward
  bounded := hi.vars ▸ h.bounded
  native hn := by
    rw [hi.native] at hn
    exact hi.objs ▸ h.native hn
  reads hr := by
    rw [hi.reads] at hr
    rw [hi.objs, hi.vars]
    exact h.reads hr
  writes hw := by
    rw [hi.writes] at hw
    rw [hi.objs, hi.vars]
    exact h.writes hw
  before hw hr := by
    rw [hi.writes] at hw
    rw [hi.reads] at hr
    exact h.before hw hr
  once hw hw' := by
    rw [hi.writes] at hw hw'
    exact h.once hw hw'
  producer hp := by
    rw [hi.writes]
    exact (hi.producer hp).elim h.producer fun h => h
  consumer hc := by
    rw [hi.reads]
    exact (hi.consumer hc).elim h.consumer fun h => h

lemma ReturnedInv.inserted (h : s.ReturnedInv) (hi : s.Inserted s') : s'.ReturnedInv := by
  intro sessionId ns hns v hv
  rw [hi.vars] at hns
  rw [hi.returned] at hv
  exact h _ _ hns v hv

/-- A node enters the graph of a session. -/
lemma enterNode_nodes (sessionId : ℕ) (n : NodeRef) (id : ℕ) :
    ((s.enterNode sessionId n).2.sessions id).returned = (s.sessions id).returned ∧
      ((s.enterNode sessionId n).2.sessions id).graph.nodes =
        if id = sessionId then (s.sessions id).graph.nodes.insert n
        else (s.sessions id).graph.nodes := by
  unfold enterNode setGraph setSession
  dsimp only
  split
  all_goals
    dsimp only
    rw [Function.update_apply]
    split_ifs with hid
    · rw [hid]
      exact ⟨rfl, rfl⟩
    · exact ⟨rfl, rfl⟩

lemma enterNode_inserted (sessionId : ℕ) (hn : n < s.objs.nextNode) :
    s.Inserted (s.enterNode sessionId n).2 := by
  have hnodes := enterNode_nodes (s := s) sessionId n
  have hrest : (s.enterNode sessionId n).2.vars = s.vars ∧
      (s.enterNode sessionId n).2.objs = s.objs ∧
      (s.enterNode sessionId n).2.native = s.native ∧
      (s.enterNode sessionId n).2.producer = s.producer ∧
      (s.enterNode sessionId n).2.consumers = s.consumers ∧
      ∀ m, ((s.enterNode sessionId n).2.idInGraph m).isSome →
        (s.idInGraph m).isSome ∨ m = n := by
    unfold enterNode
    dsimp only
    split
    · exact ⟨rfl, rfl, rfl, rfl, rfl, fun m hm => .inl hm⟩
    · refine ⟨rfl, rfl, rfl, rfl, rfl, fun m hm => ?_⟩
      dsimp only at hm
      rw [Function.update_apply] at hm
      split_ifs at hm with hmn
      · exact .inr hmn
      · exact .inl hm
  obtain ⟨hvars, hobjs, hnative, hproducer, hconsumers, hids⟩ := hrest
  refine ⟨hvars, hobjs, hnative, fun id => (hnodes id).1, fun h => .inl (hproducer ▸ h),
    fun h => .inl (hconsumers ▸ h), fun {id m} hm => ?_, fun {id m} hm => ?_,
    fun {m} hm => (hids m hm).imp_right fun heq => heq.trans_lt hn⟩
  · rw [(hnodes id).2]
    split_ifs
    · exact List.mem_insert_of_mem hm
    · exact hm
  · rw [(hnodes id).2] at hm
    split_ifs at hm
    · exact (List.mem_insert_iff.mp hm).symm.imp_right fun heq => heq.trans_lt hn
    · exact .inl hm

lemma assignProducer_inserted (h : s.Writes p v) : s.Inserted (s.assignProducer v p).2 := by
  unfold assignProducer
  split
  · exact .refl s
  · refine ⟨rfl, rfl, rfl, fun _ => rfl, fun {w q} hq => ?_, fun h => .inl h, fun h => h,
      fun h => .inl h, fun h => .inl h⟩
    dsimp only at hq
    rw [Function.update_apply] at hq
    split_ifs at hq with hw
    · obtain rfl := Option.some.inj hq
      exact .inr (hw ▸ h)
    · exact .inl hq

lemma addConsumer_inserted (h : s.Reads c v) : s.Inserted (s.addConsumer v c) := by
  refine ⟨rfl, rfl, rfl, fun _ => rfl, fun h => .inl h, fun {w d} hd => ?_, fun h => h,
    fun h => .inl h, fun h => .inl h⟩
  rw [addConsumer] at hd
  dsimp only at hd
  rw [Function.update_apply] at hd
  split_ifs at hd with hw
  · rcases List.mem_append.mp hd with hd | hd
    · exact .inl (hw ▸ hd)
    · obtain rfl := List.mem_singleton.mp hd
      exact .inr (hw ▸ h)
  · exact .inl hd

lemma insertSemanticNode_inserted (sessionId : ℕ) (hn : n < s.objs.nextNode) :
    s.Inserted (s.insertSemanticNode sessionId n).2 := by
  have henter := enterNode_inserted sessionId hn
  unfold insertSemanticNode
  split
  · rename_i hok
    rwa [hok] at henter
  · rename_i s₁ hok
    rw [hok] at henter
    unfold nodeSv
    cases hsv : (s₁.objs.node n).sv with
    | none => exact henter
    | some var =>
        dsimp only
        split_ifs with hgen
        · exact henter.trans (assignProducer_inserted (.inl ⟨hgen, hsv⟩))
        · exact henter.trans
            (addConsumer_inserted (.inl ⟨Bool.eq_false_of_not_eq_true hgen, hsv⟩))

/-- The ids of the param info are those of the placeholders. -/
def InfoOf (s : RequestHeap) (nodes : List NodeRef) (i : ParamInfo) : Prop :=
  ∃ n ∈ nodes, ∃ var, (s.objs.node n).kind.hasPlaceholder = true ∧
    (s.objs.node n).sv = some var ∧ i.varId = (s.vars.obj var).id

lemma nodeParamInfo_of {i : ParamInfo} (hi : i ∈ s.nodeParamInfo n) : s.InfoOf [n] i := by
  unfold nodeParamInfo at hi
  split at hi
  · rename_i parameter var hkind hsv
    obtain rfl := List.mem_singleton.mp hi
    exact ⟨n, List.mem_singleton_self n, var, by rw [hkind]; rfl, hsv, rfl⟩
  · rename_i parameter var hkind hsv
    obtain rfl := List.mem_singleton.mp hi
    exact ⟨n, List.mem_singleton_self n, var, by rw [hkind]; rfl, hsv, rfl⟩
  · exact absurd hi List.not_mem_nil

lemma insertNodes_inserted (sessionId : ℕ) (nodes : List NodeRef) :
    ∀ (info : List ParamInfo) (s : RequestHeap), (∀ n ∈ nodes, n < s.objs.nextNode) →
      s.Inserted (insertNodes sessionId nodes info s).2 ∧
      ∀ result, (insertNodes sessionId nodes info s).1 = .ok result →
        ∀ i ∈ result, i ∈ info ∨ s.InfoOf nodes i := by
  induction nodes with
  | nil =>
      refine fun info s _ => ⟨.refl s, fun result h i hi => .inl ?_⟩
      obtain rfl := Except.ok.inj h
      exact hi
  | cons n nodes ih =>
      intro info s hlt
      obtain ⟨hn, hlt⟩ := List.forall_mem_cons.mp hlt
      have hnode := insertSemanticNode_inserted sessionId hn
      rw [insertNodes]
      split
      · rename_i hok
        rw [hok] at hnode
        exact ⟨hnode, fun _ h => by cases h⟩
      · rename_i s₁ hok
        rw [hok] at hnode
        obtain ⟨hrest, hinfo⟩ := ih (info ++ s₁.nodeParamInfo n) s₁ fun m hm =>
          hnode.objs ▸ hlt m hm
        refine ⟨hnode.trans hrest, fun result h i hi => ?_⟩
        have hsame : s₁.InfoOf = s.InfoOf := by
          unfold InfoOf
          rw [hnode.objs, hnode.vars]
        rcases hinfo result h i hi with hi | hi
        · rcases List.mem_append.mp hi with hi | hi
          · exact .inl hi
          · have hof := nodeParamInfo_of hi
            rw [hsame] at hof
            obtain ⟨m, hm, hrest⟩ := hof
            exact .inr ⟨m, List.mem_singleton.mp hm ▸ List.mem_cons_self, hrest⟩
        · rw [hsame] at hi
          obtain ⟨m, hm, hrest⟩ := hi
          exact .inr ⟨m, List.mem_cons_of_mem _ hm, hrest⟩

/-- `GraphExecutor.add_request`. -/
lemma executorAddRequest_inserted (h : s.objs.Forward) (sessionId : ℕ) {rc : RequestChain}
    (hfirst : rc.firstNode < s.objs.nextNode) :
    s.Inserted (s.executorAddRequest sessionId rc).2 ∧
      ∀ info, (s.executorAddRequest sessionId rc).1 = .ok (some info) →
        ∃ nodes, s.objs.requestIter rc = .ok (some nodes) ∧ ∀ i ∈ info, s.InfoOf nodes i := by
  have hinsert : s.Inserted (s.insertAndUpdateRequestChain sessionId rc).2 ∧
      ∀ info, (s.insertAndUpdateRequestChain sessionId rc).1 = .ok (some info) →
        ∃ nodes, s.objs.requestIter rc = .ok (some nodes) ∧ ∀ i ∈ info, s.InfoOf nodes i := by
    unfold insertAndUpdateRequestChain
    split
    · exact ⟨.refl s, fun _ h => by cases h⟩
    · split_ifs
      · exact ⟨.refl s, fun _ h => by cases h⟩
      · split
        · exact ⟨.refl s, fun _ h => by cases h⟩
        · exact ⟨.refl s, fun _ h => by cases h⟩
        · rename_i nodes hnodes
          obtain ⟨hall, hinfo⟩ := insertNodes_inserted sessionId nodes [] s fun n hn =>
            ((h.requestNodes nodes hfirst (yields_of_drain hnodes)).2 n hn).2
          split
          · rename_i hok
            rw [hok] at hall
            exact ⟨hall, fun _ h => by cases h⟩
          · rename_i info s₁ hok
            rw [hok] at hall hinfo
            refine ⟨hall.trans (.setSession rfl rfl),
              fun info' h => ⟨nodes, hnodes, fun i hi => ?_⟩⟩
            obtain rfl := Option.some.inj (Except.ok.inj h)
            exact (hinfo info rfl i hi).elim (fun h => absurd h List.not_mem_nil) fun h => h
  unfold executorAddRequest
  split
  · rename_i hok
    rw [hok] at hinsert
    exact ⟨hinsert.1, fun _ h => by cases h⟩
  · rename_i hok
    rw [hok] at hinsert
    exact ⟨hinsert.1, fun _ h => by cases h⟩
  · rename_i info s₁ hok
    rw [hok] at hinsert
    exact ⟨hinsert.1.trans (.setSession rfl rfl), fun info' h => hinsert.2 info' (by
      rw [← h])⟩

/-! ## Native functions -/

lemma addConsumers_inserted (l : List SvRef) : ∀ s : RequestHeap, (∀ v ∈ l, s.Reads c v) →
    s.Inserted (l.foldl (fun s var => s.addConsumer var c) s) := by
  induction l with
  | nil => exact fun s _ => .refl s
  | cons v l ih =>
      intro s h
      obtain ⟨hv, hl⟩ := List.forall_mem_cons.mp h
      have hone := addConsumer_inserted hv
      exact hone.trans (ih _ fun w hw => hone.reads ▸ hl w hw)

lemma assignProducers_inserted (l : List SvRef) : ∀ s : RequestHeap, (∀ v ∈ l, s.Writes p v) →
    s.Inserted (assignProducers p l s).2 := by
  induction l with
  | nil => exact fun s _ => .refl s
  | cons v l ih =>
      intro s h
      obtain ⟨hv, hl⟩ := List.forall_mem_cons.mp h
      have hone := assignProducer_inserted hv
      rw [assignProducers]
      split
      · rename_i hok
        rwa [hok] at hone
      · rename_i hok
        rw [hok] at hone
        exact hone.trans (ih _ fun w hw => hone.writes ▸ hl w hw)

lemma insertNativeNode_inserted (sessionId : ℕ) {node : NativeFuncNode}
    (hnode : s.native n = some node) (hn : n < s.objs.nextNode) :
    s.Inserted (s.insertNativeNode sessionId n node).2 := by
  have henter := enterNode_inserted sessionId hn
  unfold insertNativeNode
  split
  · rename_i hok
    rwa [hok] at henter
  · rename_i s₁ hok
    rw [hok] at henter
    have hin := addConsumers_inserted (c := n) (node.inputVars.map Prod.snd) s₁ fun v hv =>
      .inr ⟨node, henter.native ▸ hnode, hv⟩
    refine (henter.trans hin).trans (assignProducers_inserted _ _ fun v hv => ?_)
    exact .inr ⟨node, (henter.trans hin).native ▸ hnode, hv⟩

/-- What a failing map finds when it does not fail. -/
lemma exists_of_mapM_eq_ok {ε α β : Type} {f : α → Except ε β} : ∀ {l : List α} {bs : List β},
    l.mapM f = .ok bs → ∀ b ∈ bs, ∃ a ∈ l, f a = .ok b
  | [], bs, h => by
      obtain rfl := Except.ok.inj h
      exact fun b hb => absurd hb List.not_mem_nil
  | a :: l, bs, h => by
      rw [List.mapM_cons] at h
      cases ha : f a with
      | error e => simp [ha, bind, Except.bind] at h
      | ok b =>
          cases hl : l.mapM f with
          | error e => simp [ha, hl, bind, Except.bind] at h
          | ok rest =>
              simp only [ha, hl, bind, Except.bind, pure, Except.pure, Except.ok.injEq] at h
              obtain rfl := h
              refine List.forall_mem_cons.mpr ⟨⟨a, List.mem_cons_self, ha⟩, fun b' hb' => ?_⟩
              obtain ⟨a', ha', hok⟩ := exists_of_mapM_eq_ok hl b' hb'
              exact ⟨a', List.mem_cons_of_mem _ ha', hok⟩

/-- `PyNativeExecutor.add_native_func`. -/
lemma addNativeFunc_inserted (sessionId : ℕ) {node : NativeFuncNode}
    (hnode : s.native n = some node) (hn : n < s.objs.nextNode) (request : PyNativeCallRequest) :
    s.Inserted (s.addNativeFunc sessionId n node request).2 ∧
      ∀ info, (s.addNativeFunc sessionId n node request).1 = .ok info →
        ∀ i ∈ info, ∃ x ∈ node.inputVars ++ node.outputVars,
          i.varId = (s.vars.obj x.2).id := by
  have hinsert := insertNativeNode_inserted sessionId hnode hn
  have hfunc : s.Inserted (s.insertNativeFuncNode sessionId n node request).2 ∧
      ∀ info, (s.insertNativeFuncNode sessionId n node request).1 = .ok info →
        ∀ i ∈ info, ∃ x ∈ node.inputVars ++ node.outputVars,
          i.varId = (s.vars.obj x.2).id := by
    unfold insertNativeFuncNode
    split
    · rename_i hok
      rw [hok] at hinsert
      exact ⟨hinsert, fun _ h => by cases h⟩
    · rename_i s₁ hok
      rw [hok] at hinsert
      refine ⟨hinsert, fun info h i hi => ?_⟩
      obtain ⟨⟨key, param⟩, -, hlookup⟩ := exists_of_mapM_eq_ok h i hi
      dsimp only at hlookup
      split at hlookup
      · cases hlookup
      · rename_i var hvar
        obtain rfl := Except.ok.inj hlookup
        have hmem : ∀ {l : List (Text × SvRef)}, l.lookup key = some var → (key, var) ∈ l := by
          intro l hl
          obtain ⟨l₁, l₂, rfl, -⟩ := List.lookup_eq_some_iff.mp hl
          exact List.mem_append_right _ List.mem_cons_self
        refine ⟨(key, var), ?_, by rw [paramInfo, hinsert.vars]⟩
        split_ifs at hvar with hout
        · exact List.mem_append_right _ (hmem hvar)
        · exact List.mem_append_left _ (hmem hvar)
  unfold addNativeFunc
  split
  · rename_i hok
    rw [hok] at hfunc
    exact ⟨hfunc.1, fun _ h => by cases h⟩
  · rename_i info s₁ hok
    rw [hok] at hfunc
    exact ⟨hfunc.1.trans (.setSession rfl rfl), fun info' h => hfunc.2 info' (by rw [← h])⟩

/-! ## Traversals -/

/-- A traversal gives variables their criteria and chains their groups, and touches nothing else. -/
structure Traversed (s s' : RequestHeap) : Prop where
  vars : s'.vars = s.vars
  objs : s'.objs = s.objs
  native : s'.native = s.native
  idInGraph : s'.idInGraph = s.idInGraph
  producer : s'.producer = s.producer
  consumers : s'.consumers = s.consumers
  sessions : s'.sessions = s.sessions

namespace Traversed

lemma refl (s : RequestHeap) : s.Traversed s := ⟨rfl, rfl, rfl, rfl, rfl, rfl, rfl⟩

lemma trans (h : s.Traversed s') (h' : s'.Traversed s'') : s.Traversed s'' :=
  ⟨h'.vars.trans h.vars, h'.objs.trans h.objs, h'.native.trans h.native,
    h'.idInGraph.trans h.idInGraph, h'.producer.trans h.producer,
    h'.consumers.trans h.consumers, h'.sessions.trans h.sessions⟩

lemma inserted (h : s.Traversed s') : s.Inserted s' :=
  ⟨h.vars, h.objs, h.native, fun _ => by rw [h.sessions],
    fun hp => .inl (h.producer ▸ hp), fun hc => .inl (h.consumers ▸ hc),
    fun hn => h.sessions ▸ hn, fun hn => .inl (h.sessions ▸ hn),
    fun hn => .inl (h.idInGraph ▸ hn)⟩

end Traversed

lemma joinGroup_traversed (chain : ChainRef) (group : Option GroupRef) :
    s.Traversed (s.joinGroup chain group).newGroup := by
  cases group <;> exact ⟨rfl, rfl, rfl, rfl, rfl, rfl, rfl⟩

lemma activateAt_traversed {criteria : PerformanceCriteria}
    {result : Except PyError (Option ℕ) × RequestHeap} (h : s.Traversed result.2) :
    s.Traversed (activateAt v criteria result).2 := by
  obtain ⟨_ | (_ | depth), s₁⟩ := result
  · exact h
  · exact h
  · refine h.trans ?_
    rw [activateAt, activate]
    split_ifs
    · exact .refl _
    · exact ⟨rfl, rfl, rfl, rfl, rfl, rfl, rfl⟩

section Visits

variable {α : Type} {visit : Visit α} {visitSv : Visit SvRef}

lemma visitAll_traversed (h : ∀ a s, Traversed s (visit a s).2) (weight : ℕ) (as : List α) :
    ∀ (depth : ℕ) (s : RequestHeap), s.Traversed (visitAll visit weight as depth s).2 := by
  induction as with
  | nil => exact fun _ s => .refl s
  | cons a as ih =>
      intro depth s
      have hone := h a s
      rw [visitAll]
      split
      · rename_i hok
        rwa [hok] at hone
      · rename_i hok
        rwa [hok] at hone
      · rename_i hok
        rw [hok] at hone
        exact hone.trans (ih _ _)

lemma visitNode_traversed (h : ∀ v s, Traversed s (visitSv v s).2) (n : NodeRef)
    (s : RequestHeap) : s.Traversed (visitNode visitSv n s).2 := by
  unfold visitNode
  split
  · exact .refl s
  · exact h _ s

lemma visitChain_traversed (h : ∀ v s, Traversed s (visitSv v s).2) (chain : ChainRef)
    (s : RequestHeap) : s.Traversed (visitChain visitSv chain s).2 := by
  unfold visitChain
  split
  · exact .refl s
  · exact .refl s
  · rename_i nodes _
    have hall := visitAll_traversed (visitNode_traversed h) 1 nodes 0 s
    split
    · rename_i hok
      rwa [hok] at hall
    · rename_i hok
      rwa [hok] at hall
    · rename_i hok
      rw [hok] at hall
      split
      · exact hall
      · unfold visitPrev
        split
        · exact hall
        · split_ifs
          · exact hall.trans (visitAll_traversed (visitNode_traversed h) 1 _ _ _)
          · exact hall

end Visits

/-- `_traverse`. -/
lemma traverse_traversed (fuel : ℕ) : ∀ (var : SvRef) (criteria : PerformanceCriteria)
    (chainGroup : Option GroupRef) (s : RequestHeap),
    s.Traversed (traverse fuel var criteria chainGroup s).2 := by
  induction fuel with
  | zero => exact fun _ _ _ s => .refl s
  | succ fuel ih =>
      intro var criteria chainGroup s
      rw [traverse]
      split
      · exact .refl s
      · split
        · exact .refl s
        · split
          · split
            · exact .refl s
            · split
              · exact .refl s
              · exact activateAt_traversed ((joinGroup_traversed _ chainGroup).trans
                  (visitChain_traversed (fun v s => ih v _ _ s) _ _))
          · exact activateAt_traversed (visitAll_traversed (fun v s => ih v _ _ s) 0 _ _ _)

lemma activateSv_traversed (var : SvRef) (criteria : PerformanceCriteria) :
    s.Traversed (s.activateSv var criteria).2 := by
  have htraverse := traverse_traversed (s.objs.nextNode + 1) var criteria none s
  unfold activateSv
  split_ifs
  · exact .refl s
  · split
    · rename_i hok
      rwa [hok] at htraverse
    · rename_i hok
      rwa [hok] at htraverse
    · rename_i hok
      rwa [hok] at htraverse

lemma activateLastOutput_traversed (req : SemanticRequest) :
    s.Traversed (s.activateLastOutput req).2 := by
  unfold activateLastOutput
  split
  · exact .refl s
  · split
    · exact .refl s
    · split
      · exact .refl s
      · split
        · exact .refl s
        · split
          · exact .refl s
          · exact activateSv_traversed _ _

lemma activateOutputs_traversed (criteria : PerformanceCriteria) (outputs : List SvRef) :
    ∀ s : RequestHeap, s.Traversed (activateOutputs criteria outputs s).2 := by
  induction outputs with
  | nil => exact fun s => .refl s
  | cons v outputs ih =>
      intro s
      have hone := activateSv_traversed (s := s) v criteria
      rw [activateOutputs]
      split
      · rename_i hok
        rwa [hok] at hone
      · rename_i hok
        rwa [hok] at hone
      · rename_i hok
        rw [hok] at hone
        exact hone.trans (ih _)

lemma activateNativeOutputs_traversed (request : PyNativeCallRequest) (node : NativeFuncNode) :
    s.Traversed (s.activateNativeOutputs request node).2 := by
  unfold activateNativeOutputs
  split
  · exact .refl s
  · split
    · exact .refl s
    · exact activateOutputs_traversed _ _ s

end RequestHeap

end ParrotServe
