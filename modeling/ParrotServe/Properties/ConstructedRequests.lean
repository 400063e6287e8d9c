import ParrotServe.Model.RemovedChains
import ParrotServe.Properties.LaterChains
import ParrotServe.Properties.NodeOrder

/-!
# Requests as they are constructed

What the two constructors of `RequestChain` have in common: the nodes are linked in their order, and
the chains are new (`Constructed`).  A node behind a Gen is in no chain, since the iterator stops in
front of it.  So the chains of a request have all its nodes only if it ends with its only output
(`Constructed.oneOutputLast`), and then there is one chain, with all of them
(`Constructed.one_chain`).
-/

namespace ParrotServe

namespace GraphObjects

variable {g g' g₁ : GraphObjects} {ns : List NodeRef} {ks : List NodeKind}

/-! ## Constructed requests -/

/-- A request of the nodes `ns`, with chains that were not there in `g`.  A request without a Gen
behind its first node has no chains. -/
structure Constructed (g g' : GraphObjects) (rc : RequestChain) (ns : List NodeRef)
    (ks : List NodeKind) : Prop where
  built : Built g' ns ks
  first : ns.head? = some rc.firstNode
  nextNode : g.nextNode ≤ g'.nextNode
  nextChain : g.nextChain ≤ g'.nextChain
  chains : ∀ c ∈ rc.compChains, g.nextChain ≤ c ∧ c < g'.nextChain
  unchained : (∀ k ∈ ks.tail, k.isGen = false) → rc.compChains = []

section Build

variable {β : Type} {fetch : GraphObjects → β → Except PyError (NodeRef × GraphObjects)}
  {nextFirst : GraphObjects → NodeRef → Except PyError (Option NodeRef)}
  {kindOf : β → NodeKind} {ready : GraphObjects → List NodeRef → List β → Prop}

/-- More about the entries that can still be fetched. -/
lemma FetchSpec.and (hf : FetchSpec fetch kindOf ready)
    (more : GraphObjects → List NodeRef → List β → Prop)
    (hfetch : ∀ g ns b bs n g', fetch g b = .ok (n, g') → more g ns (b :: bs) →
      more g' (ns ++ [n]) bs)
    (hkeep : ∀ g g' ns bs, more g ns bs → g'.nextNode = g.nextNode → more g' ns bs) :
    FetchSpec fetch kindOf fun g ns bs => ready g ns bs ∧ more g ns bs where
  fetch g ns b bs h := by
    obtain ⟨n, g', hok, hfetched, hready⟩ := hf.fetch g ns b bs h.1
    exact ⟨n, g', hok, hfetched, hready, hfetch g ns b bs n g' hok h.2⟩
  keep g g' ns bs h hsame hnext :=
    ⟨hf.keep g g' ns bs h.1 hsame hnext, hkeep g g' ns bs h.2 hnext⟩

/-- The chains of the loop are new. -/
lemma buildChains_grows (hfetch : ∀ g b n g', fetch g b = .ok (n, g') →
      g.nextNode ≤ g'.nextNode ∧ g'.nextChain = g.nextChain) (bs : List β) :
    ∀ {g g' : GraphObjects} {prev : NodeRef} {first : Option NodeRef} {rc rc' : RequestChain},
      buildChains fetch nextFirst bs prev first rc g = .ok (some (rc', g')) →
      g.nextNode ≤ g'.nextNode ∧ g.nextChain ≤ g'.nextChain ∧
        ∀ c ∈ rc'.compChains, c ∈ rc.compChains ∨ (g.nextChain ≤ c ∧ c < g'.nextChain) := by
  induction bs with
  | nil =>
      intro g g' prev first rc rc' hok
      obtain ⟨rfl, rfl⟩ := Prod.mk.inj (Option.some.inj (Except.ok.inj hok))
      exact ⟨le_rfl, le_rfl, fun c hc => .inl hc⟩
  | cons b bs ih =>
      intro g g' prev first rc rc' hok
      rw [buildChains] at hok
      split at hok
      · cases hok
      · rename_i n g₁ hn
        obtain ⟨hnode, hchain⟩ := hfetch g b n g₁ hn
        dsimp only at hok
        split at hok
        · split at hok
          · cases hok
          · cases hok
          · rename_i c g₂ hnew
            obtain ⟨-, -, hc, -, hnode₂, hchain₂, -⟩ := newCompletionChain_spec hnew
            have hnode₂ : g.nextNode ≤ g₂.nextNode := hnode.trans hnode₂.ge
            have hc : c = g.nextChain := hc.trans hchain
            have hchain₂ : g₂.nextChain = g.nextChain + 1 :=
              hchain₂.trans (congrArg (· + 1) hchain)
            split at hok
            · cases hok
            · obtain ⟨hnode₃, hchain₃, hall⟩ := ih hok
              have hlt : g.nextChain < g'.nextChain :=
                Nat.lt_of_succ_le (hchain₂.ge.trans hchain₃)
              refine ⟨hnode₂.trans hnode₃, hlt.le, fun c' hc' => ?_⟩
              rcases hall c' hc' with hold | ⟨hge, hlt'⟩
              · rcases List.mem_append.mp hold with hold | hold
                · exact .inl hold
                · obtain rfl := List.mem_singleton.mp hold
                  exact .inr ⟨hc.ge, hc ▸ hlt⟩
              · exact .inr ⟨(Nat.le_succ _).trans (hchain₂.ge.trans hge), hlt'⟩
        · obtain ⟨hnode₂, hchain₂, hall⟩ := ih hok
          have hchain₁ : (g₁.linkEdgeAWith n prev).nextChain = g.nextChain := hchain
          rw [hchain₁] at hchain₂ hall
          exact ⟨hnode.trans hnode₂, hchain₂, hall⟩

/-- The loop behind the first node of a request. -/
lemma InLoop.constructed (hf : FetchSpec fetch kindOf ready) (hb : StartsBehind nextFirst)
    (hfetch : ∀ g b n g', fetch g b = .ok (n, g') →
      g.nextNode ≤ g'.nextNode ∧ g'.nextChain = g.nextChain)
    {n : NodeRef} {k : NodeKind} {bs : List β} (h : InLoop ready g₁ [n] [k] n bs)
    (hnode : g.nextNode ≤ g₁.nextNode) (hchain : g₁.nextChain = g.nextChain)
    {rc rc' : RequestChain} (hfirst : rc.firstNode = n) (hrc : rc.compChains = [])
    (hok : buildChains fetch nextFirst bs n (some n) rc g₁ = .ok (some (rc', g'))) :
    ∃ ns last, Constructed g g' rc' ns (k :: bs.map kindOf) ∧
      InLoop ready g' ns (k :: bs.map kindOf) last [] := by
  obtain ⟨new, last, hend, hrc', -, -⟩ := buildChains_built hf hb bs h
    (fun q hq => Option.some.inj hq ▸ List.mem_singleton_self n) hok
  obtain ⟨hnode', hchain', hchains⟩ := buildChains_grows hfetch bs hok
  rw [hrc, hchain] at hchains
  refine ⟨[n] ++ new, last, ⟨hend.built, ?_, hnode.trans hnode', hchain ▸ hchain', fun c hc => ?_,
    fun hfills => ?_⟩, hend⟩
  · rw [hrc', hfirst]
    rfl
  · exact (hchains c hc).resolve_left List.not_mem_nil
  · -- no chain is closed
    obtain ⟨-, g₂, prev, -, hrun, -⟩ := buildChains_fills hf nextFirst [] bs (some n) rc
      (fun b hb => hfills _ (List.mem_map_of_mem hb)) (by simpa using h)
    rw [List.append_nil, hok] at hrun
    obtain ⟨rfl, -⟩ := Prod.mk.inj (Option.some.inj (Except.ok.inj hrun))
    exact hrc

end Build

/-- A request of `from_chunked_request` is made of new nodes. -/
lemma fromChunkedRequest_constructed {req : ChunkedSemanticCallRequest} {rc : RequestChain}
    (hok : g.fromChunkedRequest req = .ok (some (rc, g'))) :
    ∃ ns, Constructed g g' rc ns (req.body.map (chunkKind req)) ∧ ∀ n ∈ ns, g.nextNode ≤ n := by
  obtain ⟨chunk, chunks, hbody, hkinds, -, hloop⟩ := fromChunkedRequest_cases hok
  rw [hbody] at hkinds
  have hfetch : ∀ g₁ b n g₂, req.newChunkNode g₁ b = .ok (n, g₂) →
      n = g₁.nextNode ∧ g₂.nextNode = g₁.nextNode + 1 ∧ g₂.nextChain = g₁.nextChain := by
    intro g₁ b n g₂ hok
    cases hkind : req.nodeKind b with
    | error e => simp [ChunkedSemanticCallRequest.newChunkNode, hkind, bind, Except.bind] at hok
    | ok kind =>
        rw [newChunkNode_eq hkind] at hok
        obtain ⟨rfl, rfl⟩ := Prod.mk.inj (Except.ok.inj hok)
        exact ⟨rfl, rfl, rfl⟩
  have hf := (fetchSpec_chunks req).and
    (fun g₁ ns _ => g.nextNode ≤ g₁.nextNode ∧ ∀ n ∈ ns, g.nextNode ≤ n)
    (fun g₁ ns b bs n g₂ hok h => by
      obtain ⟨rfl, hnext, -⟩ := hfetch g₁ b n g₂ hok
      refine ⟨h.1.trans (hnext ▸ Nat.le_succ _), fun m hm => ?_⟩
      rcases List.mem_append.mp hm with hm | hm
      · exact h.2 m hm
      · exact List.mem_singleton.mp hm ▸ h.1)
    (fun g₁ g₂ ns bs h hnext => by rwa [hnext])
  have hnode : (g.newNode (chunkKind req chunk)).2.node g.nextNode =
      { kind := chunkKind req chunk } := Function.update_self _ _ _
  have hlt : g.nextNode < (g.newNode (chunkKind req chunk)).2.nextNode := Nat.lt_succ_self _
  obtain ⟨ns, last, hns, hend⟩ := InLoop.constructed hf startsBehind_chunks
    (fun g₁ b n g₂ hok => ⟨(hfetch g₁ b n g₂ hok).2.1 ▸ Nat.le_succ _, (hfetch g₁ b n g₂ hok).2.2⟩)
    ⟨built_singleton hnode hlt, rfl, ⟨fun n hn => List.mem_singleton.mp hn ▸ hlt,
      fun c hc => hkinds c (List.mem_cons_of_mem _ hc)⟩, hlt.le,
      fun n hn => (List.mem_singleton.mp hn).ge⟩ hlt.le rfl rfl rfl hloop
  rw [hbody]
  exact ⟨ns, hns, hend.ready.2.2⟩

/-- A request of `from_nodes` is made of these nodes. -/
lemma fromNodes_constructed {nodes : List NodeRef} (hnodes : g.Unused nodes)
    {metadata : SemanticCallMetadata} {rc : RequestChain}
    (hok : g.fromNodes nodes metadata = .ok (some (rc, g'))) :
    Constructed g g' rc nodes (nodes.map fun n => (g.node n).kind) := by
  cases nodes with
  | nil => cases hok
  | cons n nodes =>
      have hf := (fetchSpec_nodes fun m => (g.node m).kind).and
        (fun _ ns rest => ns ++ rest = n :: nodes)
        (fun _ ns b bs m _ hok h => by
          obtain ⟨rfl, -⟩ := Prod.mk.inj (Except.ok.inj hok)
          rw [← h, List.append_assoc]
          rfl)
        (fun _ _ _ _ h _ => h)
      have hrest : ∀ m ∈ nodes, g.node m = { kind := (g.node m).kind } ∧ m < g.nextNode :=
        fun m hm => ⟨hnodes.blank m (List.mem_cons_of_mem _ hm),
          hnodes.bound m (List.mem_cons_of_mem _ hm)⟩
      obtain ⟨ns, last, hns, hend⟩ := InLoop.constructed hf startsBehind_nodes
        (fun _ _ _ _ hok => by
          obtain ⟨-, rfl⟩ := Prod.mk.inj (Except.ok.inj hok)
          exact ⟨le_rfl, rfl⟩)
        ⟨built_singleton (hnodes.blank n List.mem_cons_self) (hnodes.bound n List.mem_cons_self),
          rfl, ⟨hnodes.nodup, hrest⟩, rfl⟩ le_rfl rfl rfl rfl hok
      obtain rfl : ns = n :: nodes := by simpa using hend.ready.2
      exact hns

/-! ## The nodes that chains have -/

/-- The request has one output, behind something else, and the output is its end. -/
def OneOutputLast (ks : List NodeKind) : Prop :=
  ∃ fills gen, fills ≠ [] ∧ ks = fills ++ [gen] ∧ (∀ k ∈ fills, k.isGen = false) ∧
    gen.isGen = true

lemma OneOutputLast.outputs (h : OneOutputLast ks) :
    (∀ k, ks.head? = some k → k.isGen = false) ∧ ks ≠ [] ∧ outputs ks ≤ 1 := by
  obtain ⟨fills, gen, hne, rfl, hfills, hgen⟩ := h
  refine ⟨fun k hk => ?_, List.append_ne_nil_of_right_ne_nil _ (List.cons_ne_nil _ _), ?_⟩
  · rw [List.head?_append_of_ne_nil _ hne] at hk
    exact hfills k (List.mem_of_mem_head? hk)
  · rw [GraphObjects.outputs, List.countP_append, ← GraphObjects.outputs, outputs_eq_zero hfills,
      List.countP_singleton, if_pos hgen]

/-- A node behind a Gen is in no chain. -/
lemma prevIsGen_of_mem_iter {n : NodeRef} : ∀ {l : List NodeRef} {first : Option NodeRef},
    Yields g.completionChainNext first l → n ∈ l → g.prevIsGen n = false
  | [], _, _, hn => absurd hn List.not_mem_nil
  | _ :: _, none, h, _ => by
      obtain ⟨_, hstop, -⟩ := h
      cases hstop
  | x :: l, some q, h, hn => by
      obtain ⟨c, hc, hl⟩ := h
      rw [completionChainNext] at hc
      split_ifs at hc with hq
      · cases hc
      · obtain ⟨rfl, -⟩ := Prod.mk.inj (Option.some.inj (Except.ok.inj hc))
        rcases List.mem_cons.mp hn with rfl | hn
        · exact Bool.eq_false_of_not_eq_true hq
        · exact prevIsGen_of_mem_iter hl hn

/-- **Chains with all nodes of a request.**  There is one, and the request ends with its Gen. -/
lemma Constructed.oneOutputLast {rc : RequestChain} (h : Constructed g g' rc ns ks)
    (hall : ∀ n ∈ ns, ∃ c ∈ rc.compChains, ∃ l,
      Yields g'.completionChainNext (g'.chain c).firstNode l ∧ n ∈ l) : OneOutputLast ks := by
  have hfirst : rc.firstNode ∈ ns := List.mem_of_mem_head? h.first
  have hgen : ∃ k ∈ ks.tail, k.isGen = true := by
    by_contra hno
    push Not at hno
    obtain ⟨c, hc, -⟩ := hall _ hfirst
    rw [h.unchained fun k hk => Bool.eq_false_of_not_eq_true (hno k hk)] at hc
    exact List.not_mem_nil hc
  obtain ⟨k, hk, hkgen⟩ := hgen
  rcases List.eq_nil_or_concat ks with rfl | ⟨fills, gen, rfl⟩
  · exact absurd hk List.not_mem_nil
  rw [List.concat_eq_append] at h hk ⊢
  -- a node with another one behind it is no Gen
  have hfills : ∀ k ∈ fills, k.isGen = false := by
    intro k hk
    obtain ⟨a, b, rfl, ha, hb⟩ := List.map_eq_append_iff.mp h.built.kinds
    obtain ⟨m, rfl, -⟩ := List.map_eq_singleton_iff.mp hb
    obtain ⟨x, hx, rfl⟩ := List.mem_map.mp (ha ▸ hk)
    obtain ⟨l, r, rfl⟩ := List.append_of_mem hx
    obtain ⟨y, r', hy⟩ := List.exists_cons_of_ne_nil (List.append_ne_nil_of_right_ne_nil r
      (List.cons_ne_nil m []))
    have hns : l ++ x :: r ++ [m] = (l ++ [x]) ++ y :: r' := by
      rw [List.append_assoc, List.cons_append, hy, List.append_cons]
    obtain ⟨c, -, piece, hpiece, hmem⟩ := hall y (by rw [hns]; simp)
    have hprev := prevIsGen_of_mem_iter hpiece hmem
    rw [h.built.linked.prevIsGen_eq hns, List.getLast?_concat] at hprev
    exact hprev
  refine ⟨fills, gen, ?_, rfl, hfills, ?_⟩
  · rintro rfl
    exact List.not_mem_nil hk
  · rcases List.mem_append.mp (List.mem_of_mem_tail hk) with hk | hk
    · rw [hfills k hk] at hkgen
      cases hkgen
    · exact List.mem_singleton.mp hk ▸ hkgen

/-- **The chain of a request that ends with its only output** has all its nodes. -/
lemma Constructed.one_chain {rc : RequestChain} (h : Constructed g g' rc ns ks)
    (hks : OneOutputLast ks) (hp : Partitions g' rc ks) : ∃ c, rc.compChains = [c] ∧
      Yields g'.completionChainNext (g'.chain c).firstNode ns := by
  obtain ⟨nodes, hnodes, -, hchains⟩ := hp
  obtain rfl : nodes = ns :=
    hnodes.unique (h.first ▸ h.built.linked.yields_request ns [] rfl)
  obtain ⟨fills, gen, -, rfl, hfills, hgen⟩ := hks
  obtain ⟨a, b, rfl, rfl, hb⟩ := List.map_eq_append_iff.mp h.built.kinds
  obtain ⟨m, rfl, rfl⟩ := List.map_eq_singleton_iff.mp hb
  rw [cutAfter_append_cons (p := fun n => (g'.node n).isGen)
    (fun n hn => hfills _ (List.mem_map_of_mem hn)) hgen] at hchains
  obtain ⟨c, cs, hc, hcs, hrc⟩ := List.forall₂_cons_right_iff.mp hchains
  obtain rfl := List.forall₂_nil_right_iff.mp hcs
  exact ⟨c, hrc, hc.iter⟩

end GraphObjects

/-! ## Both constructors -/

open GraphObjects

/-- The classes of the nodes of a request. -/
def RequestConstructor.kinds (g : GraphObjects) : RequestConstructor → List NodeKind
  | .fromChunkedRequest req => req.body.map (chunkKind req)
  | .fromNodes nodes _ => nodes.map fun n => (g.node n).kind

namespace RequestHeap

variable {s : RequestHeap} {source : RequestConstructor} {rc : RequestChain}
  {objs objs' : GraphObjects} {ns : List NodeRef} {ks : List NodeKind} {varOf : NodeRef → SvRef}

/-- **The nodes of a request** were in no graph before. -/
lemma construct_constructed (h : s.Constructible source)
    (hok : s.objs.construct source = .ok (some (rc, objs))) :
    ∃ ns, Constructed s.objs objs rc ns (source.kinds s.objs) ∧
      ∀ n ∈ ns, s.objs.nextNode ≤ n ∨ s.idInGraph n = none := by
  cases source with
  | fromChunkedRequest req =>
      obtain ⟨ns, hns, hnew⟩ := fromChunkedRequest_constructed hok
      exact ⟨ns, hns, fun n hn => .inl (hnew n hn)⟩
  | fromNodes nodes metadata =>
      have hunused : s.objs.Unused nodes :=
        ⟨h.1, fun n hn => (h.2 n hn).1, fun n hn => (h.2 n hn).2.1⟩
      exact ⟨nodes, fromNodes_constructed hunused hok, fun n hn => .inr (h.2 n hn).2.2⟩

/-- A request with one output at its end has one chain, of all its nodes. -/
lemma construct_one_chain (h : s.Constructible source)
    (hok : s.objs.construct source = .ok (some (rc, objs)))
    (hns : Constructed s.objs objs rc ns (source.kinds s.objs))
    (hks : OneOutputLast (source.kinds s.objs)) : ∃ c, rc.compChains = [c] ∧
      Yields objs.completionChainNext (objs.chain c).firstNode ns := by
  obtain ⟨hhead, hcount⟩ := hks.outputs
  have hex : ∃ rc' objs', s.objs.construct source = .ok (some (rc', objs')) ∧
      Partitions objs' rc' (source.kinds s.objs) := by
    cases source with
    | fromChunkedRequest req =>
        obtain ⟨_, _, -, hkinds, -⟩ := fromChunkedRequest_cases hok
        exact (fromChunkedRequest_partitions_iff s.objs (mapM_eq_ok hkinds) hhead).mpr hcount
    | fromNodes nodes metadata =>
        have hunused : s.objs.Unused nodes :=
          ⟨h.1, fun n hn => (h.2 n hn).1, fun n hn => (h.2 n hn).2.1⟩
        refine (fromNodes_partitions_iff s.objs hunused metadata fun n hn => ?_).mpr
          ⟨fun hnil => hcount.1 (by rw [RequestConstructor.kinds, hnil, List.map_nil]), hcount.2⟩
        refine hhead _ ?_
        rw [RequestConstructor.kinds, List.head?_map, hn]
        rfl
  obtain ⟨rc', objs', hok', hp⟩ := hex
  obtain ⟨rfl, rfl⟩ := Prod.mk.inj (Option.some.inj (Except.ok.inj (hok.symm.trans hok')))
  exact hns.one_chain hks hp

/-- The variables of a request change neither its nodes nor its chains. -/
lemma giveVariables_spec (h : Constructed s.objs objs rc ns ks)
    (hok : giveVariables rc varOf objs = .ok (some objs')) :
    Constructed s.objs objs' rc ns ks ∧ SameEdges objs objs' ∧ objs'.chain = objs.chain ∧
      objs'.requestIter rc = .ok (some ns) ∧ ∀ n ∈ ns, (objs'.node n).sv = some (varOf n) := by
  have hiter : objs.requestIter rc = .ok (some ns) :=
    drain_of_yields (h.first ▸ h.built.linked.yields_request ns [] rfl)
      (Nat.lt_succ_of_le h.built.length_le)
  rw [giveVariables, hiter] at hok
  obtain rfl := Option.some.inj (Except.ok.inj hok)
  have hfst : (ns.map fun n => (n, varOf n)).map Prod.fst = ns := by
    rw [List.map_map]
    exact List.map_id ns
  obtain ⟨hedges, hchain, hnode, -, hsv⟩ := setSvs_spec (ns.map fun n => (n, varOf n)) objs
  obtain ⟨hnextChain, -⟩ := setSvs_chains (ns.map fun n => (n, varOf n)) objs
  rw [hfst] at hsv
  refine ⟨⟨h.built.congr hedges hnode.ge, h.first, h.nextNode.trans hnode.ge,
    h.nextChain.trans hnextChain.ge, fun c hc => ?_, h.unchained⟩, hedges, hchain, ?_, fun n hn =>
    hsv h.built.linked.nodup n _ (List.mem_map_of_mem hn)⟩
  · exact ⟨(h.chains c hc).1, (h.chains c hc).2.trans_eq hnextChain.symm⟩
  · rw [requestIter, hedges.requestChainNext_eq, hnode]
    exact hiter

end RequestHeap

end ParrotServe
