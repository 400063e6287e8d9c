import ParrotServe.Properties.LaterChains
import ParrotServe.Properties.PrefixSharing
import ParrotServe.Properties.RequestBodies
import ParrotServe.Properties.VariableContents

/-!
# What a request means

A request should mean its template: when an output is generated, the engine has read everything in
front of it, constants, inputs and outputs alike (`MeansTemplate`).

`addSemanticRequest_spec` collects what a request is when it is handed to the executor: nodes
linked in the order of the body, each with a variable that fits it.  For a request with one output,
whose chain is the request up to its Gen, what its task reads is what `generates_from_contents`
says (`meansTemplate_of_one_output`).  With more outputs the last one is in no chain
(`not_meansTemplate_of_outputs`).
-/

namespace ParrotServe

open TransitionSystem

/-! ## Nodes with variables -/

namespace GraphObjects

variable {g g' : GraphObjects}

lemma SameEdges.trans {g'' : GraphObjects} (h : SameEdges g g') (h' : SameEdges g' g'') :
    SameEdges g g'' := fun n =>
  ⟨(h' n).1.trans (h n).1, (h' n).2.1.trans (h n).2.1, (h' n).2.2.trans (h n).2.2⟩

/-- Iterators read edges and classes. -/
lemma SameEdges.completionChainNext_eq (h : SameEdges g g') :
    g'.completionChainNext = g.completionChainNext := by
  funext n
  cases n with
  | none => rfl
  | some n =>
      have hprev : g'.prevIsGen n = g.prevIsGen n := by
        rw [prevIsGen, prevIsGen, (h n).2.1]
        cases (g.node n).edgeAPrevNode with
        | none => rfl
        | some p => exact congrArg NodeKind.isGen (h p).1
      rw [completionChainNext, completionChainNext, hprev, (h n).2.2]

lemma SameEdges.requestChainNext_eq (h : SameEdges g g') :
    g'.requestChainNext = g.requestChainNext := by
  funext n
  cases n with
  | none => rfl
  | some n => rw [requestChainNext, requestChainNext, (h n).2.2]

/-- The nodes get their variables and nothing else. -/
lemma setSvs_spec (l : List (NodeRef × SvRef)) : ∀ g : GraphObjects,
    SameEdges g (g.setSvs l) ∧ (g.setSvs l).chain = g.chain ∧
      (g.setSvs l).nextNode = g.nextNode ∧
      (∀ n ∉ l.map Prod.fst, ((g.setSvs l).node n).sv = (g.node n).sv) ∧
      ((l.map Prod.fst).Nodup → ∀ n r, (n, r) ∈ l → ((g.setSvs l).node n).sv = some r) := by
  induction l with
  | nil => exact fun g => ⟨fun _ => ⟨rfl, rfl, rfl⟩, rfl, rfl, fun _ _ => rfl, fun _ _ _ h => by
      simp at h⟩
  | cons x l ih =>
      obtain ⟨a, s⟩ := x
      intro g
      obtain ⟨hedges, hchain, hnext, hother, hsv⟩ :=
        ih (g.setNode a { g.node a with sv := some s })
      have hnode : ∀ n, (g.setNode a { g.node a with sv := some s }).node n =
          if n = a then { g.node a with sv := some s } else g.node n := fun n => by
        simp [setNode, Function.update_apply]
      have hfirst : SameEdges g (g.setNode a { g.node a with sv := some s }) := fun n => by
        rw [hnode]
        split_ifs with hn
        · exact hn ▸ ⟨rfl, rfl, rfl⟩
        · exact ⟨rfl, rfl, rfl⟩
      refine ⟨hfirst.trans hedges, hchain, hnext, fun n hn => ?_, fun hnodup n r hmem => ?_⟩
      · rw [List.map_cons, List.mem_cons, not_or] at hn
        exact (hother n hn.2).trans (by rw [hnode, if_neg hn.1])
      · rw [List.map_cons, List.nodup_cons] at hnodup
        rcases List.mem_cons.mp hmem with heq | hmem
        · obtain ⟨rfl, rfl⟩ := Prod.mk.inj heq
          exact (hother n hnodup.1).trans (by rw [hnode, if_pos rfl])
        · exact hsv hnodup.2 n r hmem

end GraphObjects

namespace SemanticRequest

open GraphObjects SemanticVariableManager

variable {α : Type} {p : Payloads α} {uuid3 : ℕ → Text → VarId} {req : SemanticRequest}
  {m m' : SemanticVariableManager} {g : GraphObjects} {payload : SemanticCallPayload}
  {sessionId requestId now : ℕ}

/-- The nodes of a request, in order. -/
def nodes (req : SemanticRequest) : List NodeRef :=
  match req.graph.requestIter req.requestChain with
  | .ok (some nodes) => nodes
  | _ => []

/-- The class of a node. -/
def kind (req : SemanticRequest) (n : NodeRef) : NodeKind := (req.graph.node n).kind

/-- A request in front of the executor. -/
structure Prepared (req : SemanticRequest) (m' : SemanticVariableManager) : Prop where
  linked : Linked req.graph req.nodes
  head : req.nodes.head? = some req.requestChain.firstNode
  length : req.nodes.length ≤ req.graph.nextNode
  body : req.chunkedRequest.body.mapM req.chunkedRequest.nodeKind = .ok (req.nodes.map req.kind)
  ends : ∀ c ∈ req.requestChain.compChains, req.graph.EndsEarly req.nodes c
  svs : ∀ n ∈ req.nodes, ∃ r, (req.graph.node n).sv = some r

lemma addSemanticRequest_cases
    (hok : addSemanticRequest uuid3 sessionId requestId now payload g m = (.ok (some req), m')) :
    ∃ g₁ nodes rs, ChunkedSemanticCallRequest.parseFromPayload requestId sessionId payload =
        .ok req.chunkedRequest ∧
      g.fromChunkedRequest req.chunkedRequest = .ok (some (req.requestChain, g₁)) ∧
      g₁.requestIter req.requestChain = .ok (some nodes) ∧
      m.createVarsForSemanticRequestChain uuid3 sessionId now req.requestChain.metadata.cachePrefix
        (nodes.map fun n => (g₁.node n).kind) = (.ok rs, m') ∧
      req.graph = g₁.setSvs (nodes.zip rs) := by
  unfold addSemanticRequest at hok
  split at hok
  · simp at hok
  · rename_i chunked hparse
    split at hok
    · simp at hok
    · simp at hok
    · rename_i rc g₁ hchain
      split at hok
      · simp at hok
      · simp at hok
      · rename_i graph m₁ hvars
        simp only [Prod.mk.injEq, Except.ok.injEq, Option.some.injEq] at hok
        obtain ⟨rfl, rfl⟩ := hok
        unfold createVarsForRequestChain at hvars
        split at hvars
        · simp at hvars
        · simp at hvars
        · rename_i nodes hnodes
          split at hvars
          · simp at hvars
          · rename_i rs m₂ hrs
            simp only [Prod.mk.injEq, Except.ok.injEq, Option.some.injEq] at hvars
            obtain ⟨rfl, rfl⟩ := hvars
            exact ⟨g₁, nodes, rs, hparse, hchain, hnodes, hrs, rfl⟩

/-- Inputs are not outputs. -/
lemma inputsOnly_chunkKind {chunked : ChunkedSemanticCallRequest} {chunk : BodyChunk}
    {k : NodeKind} (h : chunked.nodeKind chunk = .ok k) : InputsOnly k := by
  cases chunk with
  | textChunk _ text =>
      obtain rfl := Except.ok.inj h
      trivial
  | placeholderChunk _ name =>
      rw [ChunkedSemanticCallRequest.nodeKind] at h
      split at h
      · cases h
      · obtain rfl := Except.ok.inj h
        split_ifs with hout
        · trivial
        · exact Bool.eq_false_of_not_eq_true hout

lemma addSemanticRequest_spec (hinj : ∀ uuid, Function.Injective (uuid3 uuid))
    (hm : m.ContentInv uuid3)
    (hok : addSemanticRequest uuid3 sessionId requestId now payload g m = (.ok (some req), m')) :
    req.Prepared m' ∧
      (ConstantsApart uuid3 sessionId now req.requestChain.metadata.cachePrefix
          (req.nodes.map req.kind) m →
        ∀ n ∈ req.nodes, ∃ r, (req.graph.node n).sv = some r ∧ m'.Fits (req.kind n) r) := by
  obtain ⟨g₁, nodes, rs, -, hchain, hiter, hvars, hgraph⟩ := addSemanticRequest_cases hok
  obtain ⟨ns, hbuilt, hhead, -, hends, -, hbody⟩ := fromChunkedRequest_endsEarly hchain
  have hyields : Yields g₁.requestChainNext (some req.requestChain.firstNode) ns :=
    hhead ▸ hbuilt.linked.yields_request ns [] rfl
  obtain rfl : nodes = ns := (yields_of_drain hiter).unique hyields
  obtain ⟨-, -, hrs⟩ := createVarsLoop_spec hinj _ hm hvars
  obtain ⟨new, hnew, hlen, hfits⟩ := hrs rs rfl
  rw [List.nil_append] at hnew
  obtain rfl := hnew
  rw [List.length_map] at hlen
  obtain ⟨hedges, hsame, hnext, -, hsv⟩ := setSvs_spec (nodes.zip rs) g₁
  rw [← hgraph] at hedges hsame hnext hsv
  have hfst : (nodes.zip rs).map Prod.fst = nodes := List.map_fst_zip hlen.ge
  rw [hfst] at hsv
  have hnodes : req.nodes = nodes := by
    rw [SemanticRequest.nodes, requestIter, hedges.requestChainNext_eq, hnext]
    rw [requestIter] at hiter
    rw [hiter]
  have hkinds : nodes.map req.kind = nodes.map fun n => (g₁.node n).kind :=
    List.map_congr_left fun n _ => (hedges n).1
  have hzip : ∀ n ∈ nodes, ∃ r, (n, r) ∈ nodes.zip rs := by
    intro n hn
    rw [← hfst] at hn
    obtain ⟨x, hx, rfl⟩ := List.mem_map.mp hn
    exact ⟨x.2, hx⟩
  have hsv' := hsv hbuilt.linked.nodup
  refine ⟨⟨?_, hnodes ▸ hhead, ?_, ?_, fun c hc => ?_, fun n hn => ?_⟩, fun hapart n hn => ?_⟩
  · rw [hnodes]
    exact hbuilt.linked.congr hedges
  · rw [hnodes, hnext]
    exact hbuilt.length_le
  · rw [hnodes, hkinds, hbuilt.kinds, hbody]
  · have hends' : req.graph.EndsEarly (nodes ++ []) c := (hends c hc).append
      (fun n _ => congrArg NodeKind.isGen (hedges n).1) (by rw [hsame]) []
    rwa [List.append_nil, ← hnodes] at hends'
  · obtain ⟨r, hr⟩ := hzip n (hnodes ▸ hn)
    exact ⟨r, hsv' n r hr⟩
  · rw [hnodes] at hn hapart
    rw [hkinds] at hapart
    have hin : ∀ k ∈ nodes.map fun n => (g₁.node n).kind, InputsOnly k := by
      rw [hbuilt.kinds]
      intro k hk
      obtain ⟨chunk, hmem, rfl⟩ := List.mem_map.mp hk
      exact inputsOnly_chunkKind ((nodeKind_of_mapM _ hbody).1 chunk hmem)
    obtain ⟨r, hr⟩ := hzip n hn
    have hall := List.forall₂_map_left_iff.mp (hfits hin hapart)
    refine ⟨r, hsv' n r hr, ?_⟩
    rw [show req.kind n = (g₁.node n).kind from (hedges n).1]
    exact (List.forall₂_iff_zip.mp hall).2 hr

/-! ## What an output should be generated on -/

/-- The variable of a node. -/
def sv (req : SemanticRequest) (n : NodeRef) : SvRef := (req.graph.node n).sv.getD 0

/-- The text of a piece of the template, when the variables have these texts: a constant is itself,
an input its value or the text of the variable it names, an output what was generated for it. -/
def pieceText (text : Text → Text) (req : SemanticRequest) (m : SemanticVariableManager)
    (n : NodeRef) : Text :=
  match req.kind n with
  | .constantFill content => content
  | .placeholderFill param =>
      match param.varId with
      | some id => text id
      | none => param.value.getD []
  | .placeholderGen _ => text (m.obj (req.sv n)).id.val

/-- The engines read the texts of the variables.  A variable of the request that was given its text
keeps it. -/
structure Reads (p : Payloads α) (encode : ℕ → Text → List α) (text : Text → Text)
    (req : SemanticRequest) (m : SemanticVariableManager) : Prop where
  content : ∀ e v, p.content e v = encode e (text v.val)
  known : ∀ n ∈ req.nodes, ∀ c, (m.obj (req.sv n)).content = some c →
    text (m.obj (req.sv n)).id.val = c

/-- **What a template means.**  Every output is generated by the task of a completion chain of the
request.  Whenever such a task sends the Generate of an output, in any run whose calls of
`set_task_contexts` are safe, its context has accumulated the texts of the pieces in front of the
output. -/
def MeansTemplate (p : Payloads α) (encode : ℕ → Text → List α) (text : Text → Text)
    (req : SemanticRequest) (m : SemanticVariableManager) : Prop :=
  ∀ before gen after, req.nodes = before ++ gen :: after → (req.kind gen).isGen = true →
    (∃ c ∈ req.requestChain.compChains, ∃ piece,
      req.graph.iter c = .ok (some piece) ∧ gen ∈ piece) ∧
    ∀ c ∈ req.requestChain.compChains, ∀ chain, req.completionNodes m c = .ok (some chain) →
      ∀ x, (ExecutorState.system p).ReachableUnder (ExecutorState.SafeBinding p) x →
        ∀ t ∈ x.sys.bound, (x.sys.task t).chain = chain →
          ∀ i stage node r, x.phase t = .sent i stage → x.current t i = some (node, r) →
            node.isGen = true → req.chainNode m gen = .ok node →
              x.accumulated r =
                before.flatMap fun n => encode (x.sys.task t).engine (pieceText text req m n)

/-! ## One output -/

/-- A variable that fits its node has the text of the piece. -/
lemma Reads.text_eq {encode : ℕ → Text → List α} {text : Text → Text}
    (h : Reads p encode text req m') {n : NodeRef} (hn : n ∈ req.nodes)
    (hfits : m'.Fits (req.kind n) (req.sv n)) :
    text (m'.obj (req.sv n)).id.val = pieceText text req m' n := by
  obtain ⟨-, hfits⟩ := hfits
  have hknown := h.known n hn
  unfold pieceText
  cases hkind : req.kind n with
  | constantFill content =>
      rw [hkind] at hfits
      exact hknown content hfits
  | placeholderFill param =>
      rw [hkind] at hfits
      dsimp only at hfits ⊢
      cases hid : param.varId with
      | some id =>
          rw [hid] at hfits
          exact congrArg text hfits
      | none =>
          rw [hid] at hfits
          obtain ⟨value, hvalue, hc⟩ := hfits
          rw [hvalue]
          exact hknown value hc
  | placeholderGen param => rfl

/-- What the context manager is told of a chain. -/
lemma completionNodes_eq {c : ChainRef} {piece : List NodeRef}
    (hiter : req.graph.iter c = .ok (some piece))
    (hsvs : ∀ n ∈ piece, ∃ r, (req.graph.node n).sv = some r) :
    req.completionNodes m' c = .ok (some (piece.map fun n =>
      ConstantPrefixSystem.chainNode m' (req.kind n) (req.sv n))) := by
  have hmap : piece.mapM (req.chainNode m') = .ok (piece.map fun n =>
      ConstantPrefixSystem.chainNode m' (req.kind n) (req.sv n)) := by
    refine mapM_eq_ok fun n hn => ?_
    obtain ⟨r, hr⟩ := hsvs n hn
    rw [SemanticRequest.chainNode, sv, hr]
    rfl
  rw [completionNodes, hiter]
  dsimp only
  rw [hmap]

/-- Classes around the only Gen. -/
lemma fills_of_one_output {before after : List NodeRef} {gen : NodeRef}
    (hone : outputs ((before ++ gen :: after).map req.kind) = 1)
    (hgen : (req.kind gen).isGen = true) :
    (∀ n ∈ before, (req.kind n).isGen = false) ∧ ∀ n ∈ after, (req.kind n).isGen = false := by
  rw [outputs, List.map_append, List.map_cons, List.countP_append,
    List.countP_cons_of_pos hgen] at hone
  have hzero : ∀ {l : List NodeRef}, (l.map req.kind).countP NodeKind.isGen = 0 →
      ∀ n ∈ l, (req.kind n).isGen = false := fun h n hn =>
    Bool.eq_false_of_not_eq_true (List.countP_eq_zero.mp h _ (List.mem_map_of_mem hn))
  exact ⟨hzero (by omega), hzero (by omega)⟩

/-- The chain of the only output is the request up to its Gen. -/
lemma single_chain
    (hok : addSemanticRequest uuid3 sessionId requestId now payload g m = (.ok (some req), m'))
    (hprep : req.Prepared m') (hone : outputs (req.nodes.map req.kind) = 1)
    {before after : List NodeRef} {gen : NodeRef} (hsplit : req.nodes = before ++ gen :: after)
    (hgen : (req.kind gen).isGen = true) :
    ∃ c, req.requestChain.compChains = [c] ∧
      req.graph.iter c = .ok (some (before ++ [gen])) := by
  obtain ⟨g₁, ns, rs, -, hchain, hiter, -, hgraph⟩ := addSemanticRequest_cases hok
  obtain ⟨hedges, hsame, hnext, -, -⟩ := setSvs_spec (ns.zip rs) g₁
  rw [← hgraph] at hedges hsame hnext
  obtain ⟨nodes, hbuilt, hhead, -, -, hfirst, hbody⟩ := fromChunkedRequest_endsEarly hchain
  have hks : req.chunkedRequest.body.map (chunkKind req.chunkedRequest) =
      req.nodes.map req.kind := Except.ok.inj (hbody.symm.trans hprep.body)
  have hne : req.nodes.map req.kind ≠ [] := by
    rw [hsplit]
    simp
  obtain ⟨rc, g₂, hok₂, nodes', hyields, hkinds, hchains⟩ :=
    (fromChunkedRequest_partitions_iff g hprep.body (hks ▸ hfirst)).mpr ⟨hne, hone.le⟩
  obtain ⟨rfl, rfl⟩ := Prod.mk.inj (Option.some.inj (Except.ok.inj (hok₂.symm.trans hchain)))
  have hall : nodes' = before ++ gen :: after := by
    rw [← hsplit, ← hedges.requestChainNext_eq] at *
    exact hyields.unique (hprep.head ▸ hprep.linked.yields_request req.nodes [] rfl)
  have hkind : ∀ n, (g₂.node n).isGen = (req.kind n).isGen := fun n =>
    (congrArg NodeKind.isGen (hedges n).1).symm
  rw [hsplit] at hone
  obtain ⟨hbefore, hafter⟩ := fills_of_one_output hone hgen
  rw [hall, cutAfter_append_cons (fun n hn => (hkind n).trans (hbefore n hn))
    ((hkind gen).trans hgen), cutAfter_eq_nil fun n hn => (hkind n).trans (hafter n hn)] at hchains
  obtain ⟨c, cs, hc, hcs, hrc⟩ := List.forall₂_cons_right_iff.mp hchains
  obtain rfl := List.forall₂_nil_right_iff.mp hcs
  refine ⟨c, hrc, ?_⟩
  have hlen : (before ++ [gen]).length ≤ req.graph.nextNode := by
    have := hprep.length
    rw [hsplit, List.length_append, List.length_cons] at this
    rw [List.length_append, List.length_singleton]
    omega
  rw [iter, hsame, hedges.completionChainNext_eq]
  exact drain_of_yields hc.iter (Nat.lt_succ_of_le hlen)

/-- The Fill nodes of a chain that ends with its only Gen. -/
lemma fillVars_chain {before : List NodeRef} {gen : NodeRef}
    (hbefore : ∀ n ∈ before, (req.kind n).isGen = false) (hgen : (req.kind gen).isGen = true) :
    fillVars ((before ++ [gen]).map fun n =>
        ConstantPrefixSystem.chainNode m' (req.kind n) (req.sv n)) =
      before.map fun n => (m'.obj (req.sv n)).id := by
  rw [fillVars, List.filter_map, List.map_map, List.filter_append]
  have hfills : before.filter ((fun node : ChainNode => !node.isGen) ∘ fun n =>
      ConstantPrefixSystem.chainNode m' (req.kind n) (req.sv n)) = before :=
    List.filter_eq_self.mpr fun n hn => by
      simp [ConstantPrefixSystem.chainNode, hbefore n hn]
  rw [hfills, List.filter_cons_of_neg (by simp [ConstantPrefixSystem.chainNode, hgen]),
    List.filter_nil, List.append_nil]
  rfl

/-- **A request with one output means its template.** -/
lemma meansTemplate_of_one_output (hinj : ∀ uuid, Function.Injective (uuid3 uuid))
    (hm : m.ContentInv uuid3)
    (hok : addSemanticRequest uuid3 sessionId requestId now payload g m = (.ok (some req), m'))
    {encode : ℕ → Text → List α} {text : Text → Text} (hreads : Reads p encode text req m')
    (hone : outputs (req.nodes.map req.kind) = 1)
    (hapart : ConstantsApart uuid3 sessionId now req.requestChain.metadata.cachePrefix
      (req.nodes.map req.kind) m) : MeansTemplate p encode text req m' := by
  obtain ⟨hprep, hfits⟩ := addSemanticRequest_spec hinj hm hok
  intro before gen after hsplit hgen
  obtain ⟨c, hchains, hiter⟩ := single_chain hok hprep hone hsplit hgen
  obtain ⟨hbefore, -⟩ := fills_of_one_output (hsplit ▸ hone) hgen
  refine ⟨⟨c, hchains ▸ List.mem_singleton_self c, _, hiter, by simp⟩, ?_⟩
  intro c' hc' chain hchain x hx t ht htask i stage node r hphase hcur hnode _
  obtain rfl : c' = c := List.mem_singleton.mp (hchains ▸ hc')
  have hsub : ∀ n ∈ before ++ [gen], n ∈ req.nodes := fun n hn => by
    rw [hsplit, List.append_cons]
    exact List.mem_append_left _ hn
  rw [completionNodes_eq hiter fun n hn => hprep.svs n (hsub n hn)] at hchain
  obtain rfl := Option.some.inj (Except.ok.inj hchain)
  rw [ExecutorState.generates_from_contents hx t ht i stage node r hphase hcur hnode, htask,
    fillVars_chain hbefore hgen, ServeCoreContextManager.contents, List.flatMap_map]
  refine List.flatMap_congr fun n hn => ?_
  have hmem := hsub n (List.mem_append_left _ hn)
  obtain ⟨r', hr', hfit⟩ := hfits hapart n hmem
  have hsv : req.sv n = r' := by rw [sv, hr', Option.getD_some]
  rw [hreads.content, hreads.text_eq hmem (hsv ▸ hfit)]

/-! ## More outputs -/

/-- Nodes with a Gen have a last one. -/
lemma exists_last_gen {ns : List NodeRef} (h : ∃ n ∈ ns, (req.kind n).isGen = true) :
    ∃ before gen after, ns = before ++ gen :: after ∧ (req.kind gen).isGen = true ∧
      ∀ n ∈ after, (req.kind n).isGen = false := by
  induction ns with
  | nil => simp at h
  | cons a ns ih =>
      by_cases hrest : ∃ n ∈ ns, (req.kind n).isGen = true
      · obtain ⟨before, gen, after, rfl, hgen, hafter⟩ := ih hrest
        exact ⟨a :: before, gen, after, rfl, hgen, hafter⟩
      · obtain ⟨n, hn, hgen⟩ := h
        rcases List.mem_cons.mp hn with rfl | hn
        · exact ⟨[], n, ns, rfl, hgen, fun b hb => Bool.eq_false_of_not_eq_true fun hb' =>
            hrest ⟨b, hb, hb'⟩⟩
        · exact absurd ⟨n, hn, hgen⟩ hrest

/-- **The last of several outputs is not generated at all.** -/
lemma not_meansTemplate_of_outputs (hinj : ∀ uuid, Function.Injective (uuid3 uuid))
    (hm : m.ContentInv uuid3)
    (hok : addSemanticRequest uuid3 sessionId requestId now payload g m = (.ok (some req), m'))
    (encode : ℕ → Text → List α) (text : Text → Text)
    (htwo : 2 ≤ outputs (req.nodes.map req.kind)) : ¬ MeansTemplate p encode text req m' := by
  obtain ⟨hprep, -⟩ := addSemanticRequest_spec hinj hm hok
  have hsome : ∃ n ∈ req.nodes, (req.kind n).isGen = true := by
    obtain ⟨k, hk, hgen⟩ := List.countP_pos_iff.mp (Nat.zero_lt_of_lt htwo)
    obtain ⟨n, hn, rfl⟩ := List.mem_map.mp hk
    exact ⟨n, hn, hgen⟩
  obtain ⟨before, gen, after, hsplit, hgen, hafter⟩ := exists_last_gen hsome
  have hbefore : ∃ n ∈ before, (req.kind n).isGen = true := by
    rw [hsplit, outputs, List.map_append, List.map_cons, List.countP_append,
      List.countP_cons_of_pos hgen] at htwo
    have hzero : (after.map req.kind).countP NodeKind.isGen = 0 := by
      refine List.countP_eq_zero.mpr fun k hk => ?_
      obtain ⟨n, hn, rfl⟩ := List.mem_map.mp hk
      simp [hafter n hn]
    obtain ⟨k, hk, hgen'⟩ := List.countP_pos_iff.mp (show 0 < (before.map req.kind).countP
      NodeKind.isGen by omega)
    obtain ⟨n, hn, rfl⟩ := List.mem_map.mp hk
    exact ⟨n, hn, hgen'⟩
  intro hmeans
  obtain ⟨⟨c, hc, piece, hiter, hmem⟩, -⟩ := hmeans before gen after hsplit hgen
  exact (hprep.ends c hc).not_mem_iter hprep.linked hsplit hgen hafter hbefore
    (yields_of_drain hiter) hmem

/-! ## The result -/

/-- **A request means its template exactly when it has one output**, provided that no constant
spells a seed.  The nodes of a request are the pieces of its template.  With one output, its task
generates it on the texts of all pieces in front of it.  With more, the last output is in no chain
and is never generated. -/
theorem request_means_template (hinj : ∀ uuid, Function.Injective (uuid3 uuid)) (timeout : ℕ)
    (hm : (variableSystem uuid3 timeout).Reachable m)
    (hok : addSemanticRequest uuid3 sessionId requestId now payload g m = (.ok (some req), m'))
    {encode : ℕ → Text → List α} {text : Text → Text} (hreads : Reads p encode text req m') :
    (∃ rest, payload.template =
        some (req.chunkedRequest.body.flatMap BodyChunk.source ++ rest) ∧
      (payload.removePureFill = some false → rest = []) ∧
      req.chunkedRequest.body.mapM req.chunkedRequest.nodeKind =
        .ok (req.nodes.map req.kind)) ∧
    (outputs (req.nodes.map req.kind) = 1 →
      ConstantsApart uuid3 sessionId now req.requestChain.metadata.cachePrefix
        (req.nodes.map req.kind) m → MeansTemplate p encode text req m') ∧
    (2 ≤ outputs (req.nodes.map req.kind) → ¬ MeansTemplate p encode text req m') := by
  have hinv := (variables_invariant hinj timeout _).holds hm
  obtain ⟨hprep, -⟩ := addSemanticRequest_spec hinj hinv hok
  obtain ⟨-, -, -, hparse, -⟩ := addSemanticRequest_cases hok
  obtain ⟨rest, htemplate, hall⟩ := ChunkedSemanticCallRequest.parseFromPayload_source hparse
  exact ⟨⟨rest, htemplate, hall, hprep.body⟩,
    fun hone hapart => meansTemplate_of_one_output hinj hinv hok hreads hone hapart,
    fun htwo => not_meansTemplate_of_outputs hinj hinv hok encode text htwo⟩

/-! ## Requests of one and of two outputs -/

/-- A text without braces, two characters for each. -/
def escape : Text → Text
  | [] => []
  | c :: text =>
      if c = '{' then 'o' :: 'x' :: escape text
      else if c = '}' then 'c' :: 'x' :: escape text
      else 'e' :: c :: escape text

lemma escape_plain (text : Text) : '{' ∉ escape text ∧ '}' ∉ escape text := by
  induction text with
  | nil => simp [escape]
  | cons c text ih =>
      rw [escape]
      split_ifs with hopen hclose
      · simpa using ih
      · simpa using ih
      · simpa [Ne.symm hopen, Ne.symm hclose] using ih

/-- A hash without collisions. -/
def escapeUuid3 (_ : ℕ) (text : Text) : VarId := ⟨escape text, escape_plain text⟩

lemma escapeUuid3_injective (uuid : ℕ) : Function.Injective (escapeUuid3 uuid) := by
  intro text text' h
  replace h : escape text = escape text' := congrArg Subtype.val h
  induction text generalizing text' with
  | nil =>
      cases text' with
      | nil => rfl
      | cons c text' =>
          rw [escape, escape] at h
          split_ifs at h
  | cons c text ih =>
      cases text' with
      | nil =>
          rw [escape, escape] at h
          split_ifs at h
      | cons c' text' =>
          have hcons : c = c' ∧ escape text = escape text' := by
            rw [escape, escape] at h
            split_ifs at h
            all_goals simp_all
          rw [hcons.1, ih hcons.2]

/-- A session without variables. -/
def openSession : SemanticVariableManager := ((new 1).registerLocalVarSpace 0).2

/-- A template with inputs and outputs of these names, each with the value `v`. -/
def templatePayload (template : Text) (inputs outputs : List Text) : SemanticCallPayload where
  template := some template
  parameters := some
    (inputs.map (fun name => { name := some name, isOutput := some false, value := some ['v'] }) ++
      outputs.map fun name => { name := some name, isOutput := some true })

/-- The texts of the variables there are. -/
def textsOf (m : SemanticVariableManager) (id : Text) : Text :=
  (((List.range m.next).find? fun r => decide ((m.obj r).id.val = id)).bind fun r =>
    (m.obj r).content).getD []

/-- Every engine reads texts. -/
def plainTexts (m : SemanticVariableManager) : Payloads Char where
  tokenId _ := true
  content _ v := textsOf m v.val

instance (req : SemanticRequest) (m : SemanticVariableManager) :
    Decidable (Reads (plainTexts m) (fun _ text => text) (textsOf m) req m) :=
  decidable_of_iff (∀ n ∈ req.nodes, ∀ c ∈ (m.obj (req.sv n)).content,
      textsOf m (m.obj (req.sv n)).id.val = c)
    ⟨fun h => ⟨fun _ _ => rfl, h⟩, fun h => h.known⟩

/-- A request of a payload with some property. -/
def AddsWith (payload : SemanticCallPayload)
    (P : SemanticRequest → SemanticVariableManager → Prop) : Prop :=
  match addSemanticRequest escapeUuid3 0 0 0 payload .empty openSession with
  | (.ok (some req), m') => P req m'
  | _ => False

instance (payload : SemanticCallPayload) (P : SemanticRequest → SemanticVariableManager → Prop)
    [∀ req m', Decidable (P req m')] : Decidable (AddsWith payload P) := by
  unfold AddsWith
  split <;> infer_instance

lemma AddsWith.exists {payload : SemanticCallPayload}
    {P : SemanticRequest → SemanticVariableManager → Prop} (h : AddsWith payload P) :
    ∃ req m', addSemanticRequest escapeUuid3 0 0 0 payload .empty openSession =
      (.ok (some req), m') ∧ P req m' := by
  unfold AddsWith at h
  split at h
  · exact ⟨_, _, ‹_›, h⟩
  · exact h.elim

lemma openSession_reachable : (variableSystem escapeUuid3 1).Reachable openSession :=
  .step (a := .registerLocalVarSpace 0) (.init rfl) trivial ⟨trivial, rfl⟩

/-- `hi{{a}}{{o}}` -/
def oneOutput : SemanticCallPayload :=
  templatePayload (['h', 'i'] ++ placeholderSource ['a'] ++ placeholderSource ['o']) [['a']] [['o']]

theorem request_means_one_output : ∃ req m', outputs (req.nodes.map req.kind) = 1 ∧
    MeansTemplate (plainTexts m') (fun _ text => text) (textsOf m') req m' := by
  have hadds : AddsWith oneOutput fun req m' => outputs (req.nodes.map req.kind) = 1 ∧
      ConstantsApart escapeUuid3 0 0 req.requestChain.metadata.cachePrefix
        (req.nodes.map req.kind) openSession ∧
      Reads (plainTexts m') (fun _ text => text) (textsOf m') req m' := by
    decide +kernel
  obtain ⟨req, m', hok, hone, hapart, hreads⟩ := hadds.exists
  exact ⟨req, m', hone, (request_means_template escapeUuid3_injective 1 openSession_reachable hok
    hreads).2.1 hone hapart⟩

/-- `hi{{x}}yo{{y}}` -/
def twoOutputs : SemanticCallPayload :=
  templatePayload (['h', 'i'] ++ placeholderSource ['x'] ++ ['y', 'o'] ++ placeholderSource ['y'])
    [] [['x'], ['y']]

/-- Of two outputs the second is never generated. -/
theorem request_means_two_outputs : ∃ req m',
    addSemanticRequest escapeUuid3 0 0 0 twoOutputs .empty openSession = (.ok (some req), m') ∧
      ¬ MeansTemplate (plainTexts m') (fun _ text => text) (textsOf m') req m' := by
  have hadds : AddsWith twoOutputs fun req _ => 2 ≤ outputs (req.nodes.map req.kind) := by
    decide +kernel
  obtain ⟨req, m', hok, htwo⟩ := hadds.exists
  exact ⟨req, m', hok, not_meansTemplate_of_outputs escapeUuid3_injective
    ((variables_invariant escapeUuid3_injective 1 _).holds openSession_reachable) hok _ _ htwo⟩

/-- `{{a}}0{{o}}` -/
def spelledSeed : SemanticCallPayload :=
  templatePayload (placeholderSource ['a'] ++ ['0'] ++ placeholderSource ['o']) [['a']] [['o']]

/-- The chain of this request: the constant has the variable of the input. -/
def spelledSeedChain : List ChainNode :=
  [{ varId := escapeUuid3 1 ['0'] }, { varId := escapeUuid3 1 ['0'] },
    { varId := escapeUuid3 1 ['1'], isGen := true }]

/-- A run of its task up to the Generate, which finds the input twice. -/
def ReadsTwice (m' : SemanticVariableManager) : Prop :=
  RunsTo ExecutorState.Enabled (ExecutorState.SafeBinding (plainTexts m'))
    (fun x a => x.apply (plainTexts m') a)
    (fun x => 0 ∈ x.sys.bound ∧ (x.sys.task 0).chain = spelledSeedChain ∧
      x.phase 0 = .sent 2 .posted ∧
      x.current 0 2 = some ({ varId := escapeUuid3 1 ['1'], isGen := true }, 2) ∧
      x.accumulated 2 = ['v', 'v'])
    .start
    ([.registerEngine 0, .setSv (escapeUuid3 1 ['0']), .setTaskContexts 0 spelledSeedChain false] ++
      ExecutorState.serve 0 ++ ExecutorState.serve 0 ++ [.step 0])

instance (m' : SemanticVariableManager) : Decidable (ReadsTwice m') :=
  inferInstanceAs (Decidable (RunsTo _ _ _ _ _ _))

/-- A constant that spells the seed of an input is read as the input. -/
theorem constant_spells_seed : ∃ req m',
    addSemanticRequest escapeUuid3 0 0 0 spelledSeed .empty openSession = (.ok (some req), m') ∧
      outputs (req.nodes.map req.kind) = 1 ∧
      ¬ MeansTemplate (plainTexts m') (fun _ text => text) (textsOf m') req m' := by
  have hadds : AddsWith spelledSeed fun req m' => outputs (req.nodes.map req.kind) = 1 ∧
      req.nodes = [0, 1] ++ 2 :: [] ∧ (req.kind 2).isGen = true ∧
      req.requestChain.compChains = [0] ∧
      req.completionNodes m' 0 = .ok (some spelledSeedChain) ∧
      req.chainNode m' 2 = .ok { varId := escapeUuid3 1 ['1'], isGen := true } ∧
      ([0, 1].flatMap fun n => pieceText (textsOf m') req m' n) = ['v', '0'] ∧
      ReadsTwice m' := by
    decide +kernel
  obtain ⟨req, m', hok, hone, hnodes, hgen, hchains, hcompl, hnode, hpieces, hrun⟩ := hadds.exists
  obtain ⟨x, hx, ht, htask, hphase, hcur, hacc⟩ := hrun.reachable _ (.init rfl)
  refine ⟨req, m', hok, hone, fun hmeans => ?_⟩
  have hread := (hmeans _ _ _ hnodes hgen).2 0 (hchains ▸ List.mem_singleton_self 0) _ hcompl x hx
    0 ht htask 2 .posted _ 2 hphase hcur rfl hnode
  rw [hacc, hpieces] at hread
  simp at hread

end SemanticRequest
end ParrotServe
