import ParrotServe.Properties.CompletionChains

/-!
# The chains of a request with more outputs

`from_chunked_request` starts the chain that follows an output with the node *before* its Gen node,
and the iterator of a chain ends in front of a node that follows a Gen.  So the chain of a later
output ends with the Gen node of the output before it: every output but the last one is generated
again, and the last one never.

`EndsEarly` is what the loop gives every chain (`buildChains_endsEarly`), and
`EndsEarly.not_mem_iter` what its iterator makes of it.
-/

namespace ParrotServe
namespace GraphObjects

variable {g g' : GraphObjects} {ns : List NodeRef} {ks : List NodeKind}

/-- A loop whose rounds all succeed. -/
lemma mapM_eq_ok {ε α β : Type} {f : α → Except ε β} {k : α → β} : ∀ {l : List α},
    (∀ a ∈ l, f a = .ok (k a)) → l.mapM f = .ok (l.map k)
  | [], _ => rfl
  | a :: l, h => by
      rw [List.mapM_cons, h a List.mem_cons_self,
        mapM_eq_ok fun b hb => h b (List.mem_cons_of_mem _ hb)]
      rfl

/-! ## Iterators that meet a Gen -/

/-- An iterator stops in front of a node that follows a Gen. -/
lemma Linked.stops_behind_gen (h : Linked g ns) {a b : List NodeRef} {gen : NodeRef}
    (hns : ns = a ++ gen :: b) (hgen : (g.node gen).isGen = true) {l : List NodeRef}
    (hl : Yields g.completionChainNext b.head? l) : l = [] := by
  cases l with
  | nil => rfl
  | cons x l =>
      obtain ⟨c, hc, -⟩ := hl
      cases b with
      | nil => simp [completionChainNext] at hc
      | cons n b =>
          have hprev : g.prevIsGen n = true := by
            rw [h.prevIsGen_eq (hns.trans (List.append_cons a gen (n :: b))),
              List.getLast?_concat]
            exact hgen
          simp [completionChainNext, hprev] at hc

/-- An iterator does not come past a Gen. -/
lemma Linked.iter_subset_gen (h : Linked g ns) {gen : NodeRef} (hgen : (g.node gen).isGen = true)
    {b₂ : List NodeRef} (b₁ : List NodeRef) : ∀ {a l : List NodeRef} {q : NodeRef},
      ns = a ++ q :: (b₁ ++ gen :: b₂) → Yields g.completionChainNext (some q) l →
      l ⊆ q :: (b₁ ++ [gen]) := by
  have hstep : ∀ {q x : NodeRef} {a r l : List NodeRef}, ns = a ++ q :: r →
      Yields g.completionChainNext (some q) (x :: l) →
      x = q ∧ Yields g.completionChainNext r.head? l := by
    rintro q x a r l hns ⟨c, hc, hl⟩
    rw [completionChainNext] at hc
    by_cases hp : g.prevIsGen q
    · simp [hp] at hc
    rw [if_neg hp] at hc
    obtain ⟨rfl, rfl⟩ := Prod.mk.inj (Option.some.inj (Except.ok.inj hc))
    exact ⟨rfl, h.next a q r hns ▸ hl⟩
  induction b₁ with
  | nil =>
      intro a l q hns hl
      cases l with
      | nil => exact List.nil_subset _
      | cons x l =>
          obtain ⟨rfl, hrest⟩ := hstep hns hl
          have hns' : ns = (a ++ [x]) ++ gen :: b₂ := by simpa using hns
          refine List.cons_subset_cons _ ?_
          cases l with
          | nil => exact List.nil_subset _
          | cons y l =>
              obtain ⟨rfl, hend⟩ := hstep hns' hrest
              rw [h.stops_behind_gen hns' hgen hend]
              exact List.Subset.refl _
  | cons n b₁ ih =>
      intro a l q hns hl
      cases l with
      | nil => exact List.nil_subset _
      | cons x l =>
          obtain ⟨rfl, hrest⟩ := hstep hns hl
          exact List.cons_subset_cons _ (ih (a := a ++ [x]) (by simpa using hns) hrest)

/-! ## The chains -/

/-- The iterator of a chain meets a Gen.  Either this is the first Gen of the request, or there is
another one behind it. -/
def EndsEarly (g : GraphObjects) (ns : List NodeRef) (c : ChainRef) : Prop :=
  ∃ a q b₁ gen b₂, ns = a ++ q :: (b₁ ++ gen :: b₂) ∧ (g.node gen).isGen = true ∧
    (g.chain c).firstNode = some q ∧
    ((∀ n ∈ a ++ q :: b₁, (g.node n).isGen = false) ∨ ∃ n ∈ b₂, (g.node n).isGen = true)

/-- More nodes. -/
lemma EndsEarly.append {c : ChainRef} (h : g.EndsEarly ns c)
    (hkind : ∀ n ∈ ns, (g'.node n).isGen = (g.node n).isGen)
    (hchain : (g'.chain c).firstNode = (g.chain c).firstNode) (new : List NodeRef) :
    g'.EndsEarly (ns ++ new) c := by
  obtain ⟨a, q, b₁, gen, b₂, rfl, hgen, hfirst, hrest⟩ := h
  refine ⟨a, q, b₁, gen, b₂ ++ new, by simp, ?_, hchain.trans hfirst, hrest.imp ?_ ?_⟩
  · rw [hkind gen (by simp), hgen]
  · intro hall n hn
    have hmem : n ∈ a ++ q :: (b₁ ++ gen :: b₂) := by
      simp only [List.mem_append, List.mem_cons] at hn ⊢
      tauto
    rw [hkind n hmem, hall n hn]
  · rintro ⟨n, hn, hgen'⟩
    exact ⟨n, List.mem_append_left _ hn, by rw [hkind n (by simp [hn]), hgen']⟩

/-- **The last of several outputs is in no chain.** -/
lemma EndsEarly.not_mem_iter {c : ChainRef} (h : g.EndsEarly ns c) (hlinked : Linked g ns)
    {before after : List NodeRef} {gen : NodeRef} (hns : ns = before ++ gen :: after)
    (hgen : (g.node gen).isGen = true) (hafter : ∀ n ∈ after, (g.node n).isGen = false)
    (hbefore : ∃ n ∈ before, (g.node n).isGen = true) {l : List NodeRef}
    (hl : Yields g.completionChainNext (g.chain c).firstNode l) : gen ∉ l := by
  obtain ⟨a, q, b₁, gen', b₂, hsplit, hgen', hfirst, hrest⟩ := h
  intro hmem
  rw [hfirst] at hl
  have hsub := hlinked.iter_subset_gen hgen' b₁ hsplit hl hmem
  have hnodup := hlinked.nodup
  rw [hns] at hnodup
  obtain ⟨-, hnodup', hdisj⟩ := List.nodup_append.mp hnodup
  have hnot : gen ∉ before := fun h => hdisj gen h gen List.mem_cons_self rfl
  have hnot' : gen ∉ after := (List.nodup_cons.mp hnodup').1
  rcases hrest with hall | ⟨n, hn, hgenn⟩
  · -- the chain of the first output
    have heq : gen = gen' := by
      rcases List.mem_append.mp (List.cons_append ▸ hsub) with h | h
      · rw [hall gen (List.mem_append_right _ h)] at hgen
        cases hgen
      · exact List.mem_singleton.mp h
    subst heq
    have hsplit' : before ++ gen :: after = (a ++ q :: b₁) ++ gen :: b₂ := by
      rw [← hns, hsplit]
      simp
    obtain ⟨rfl, -, -⟩ := (List.append_cons_inj_of_notMem hnot hnot').mp hsplit'
    obtain ⟨n, hn, hgenn⟩ := hbefore
    rw [hall n hn] at hgenn
    cases hgenn
  · -- another Gen behind it
    obtain ⟨s, t, hst⟩ := List.append_of_mem hsub
    have hsplit' : before ++ gen :: after = (a ++ s) ++ gen :: (t ++ b₂) := by
      rw [← hns, hsplit, show a ++ q :: (b₁ ++ gen' :: b₂) = a ++ (q :: (b₁ ++ [gen'])) ++ b₂ by
        simp, hst]
      simp
    obtain ⟨-, -, rfl⟩ := (List.append_cons_inj_of_notMem hnot hnot').mp hsplit'
    rw [hafter n (List.mem_append_right _ hn)] at hgenn
    cases hgenn

/-! ## The loop -/

/-- The classes of the nodes so far stay. -/
lemma Built.isGen_eq {new : List NodeRef} {ks' : List NodeKind} (h : Built g ns ks)
    (h' : Built g' (ns ++ new) (ks ++ ks')) : ∀ n ∈ ns, (g'.node n).isGen = (g.node n).isGen := by
  have hkinds := h'.kinds
  rw [List.map_append, ← h.kinds] at hkinds
  have hmap := (List.append_inj hkinds (by simp)).1
  exact fun n hn => congrArg NodeKind.isGen (List.map_inj_left.mp hmap n hn)

/-- The chains so far, and where the next one starts. -/
structure ChainsInv (g : GraphObjects) (ns : List NodeRef) (first : Option NodeRef)
    (compChains : List ChainRef) : Prop where
  chains : ∀ c ∈ compChains, c < g.nextChain ∧ g.EndsEarly ns c
  first : ∃ a q b, first = some q ∧ ns = a ++ q :: b ∧
    ((∀ n ∈ ns, (g.node n).isGen = false) ∨
      ∃ gen b₂, b = gen :: b₂ ∧ (g.node gen).isGen = true)

section Build

variable {β : Type} {fetch : GraphObjects → β → Except PyError (NodeRef × GraphObjects)}
  {kindOf : β → NodeKind} {ready : GraphObjects → List NodeRef → List β → Prop}

/-- A node that is no Gen. -/
lemma ChainsInv.fill {first : Option NodeRef} {cs : List ChainRef} (h : ChainsInv g ns first cs)
    {n : NodeRef} (hkind : ∀ m ∈ ns, (g'.node m).isGen = (g.node m).isGen)
    (hn : (g'.node n).isGen = false) (hchain : g'.chain = g.chain)
    (hnext : g'.nextChain = g.nextChain) : ChainsInv g' (ns ++ [n]) first cs where
  chains c hc := by
    obtain ⟨hlt, hends⟩ := h.chains c hc
    exact ⟨hnext ▸ hlt, hends.append hkind (by rw [hchain]) [n]⟩
  first := by
    obtain ⟨a, q, b, hfirst, rfl, hrest⟩ := h.first
    refine ⟨a, q, b ++ [n], hfirst, by simp, hrest.imp (fun hall m hm => ?_) ?_⟩
    · rcases List.mem_append.mp hm with hm | hm
      · rw [hkind m hm, hall m hm]
      · exact List.mem_singleton.mp hm ▸ hn
    · rintro ⟨gen, b₂, rfl, hgen⟩
      exact ⟨gen, b₂ ++ [n], rfl, by rw [hkind gen (by simp), hgen]⟩

/-- A Gen node, its chain, and the start of the next one in front of it. -/
lemma ChainsInv.gen {first : Option NodeRef} {cs : List ChainRef} (h : ChainsInv g ns first cs)
    {n prev : NodeRef} {c : ChainRef} (hlast : ns.getLast? = some prev)
    (hkind : ∀ m ∈ ns, (g'.node m).isGen = (g.node m).isGen)
    (hn : (g'.node n).isGen = true) (hc : c = g.nextChain)
    (hchain : g'.chain = Function.update g.chain c { firstNode := first, genNode := some n })
    (hnext : g'.nextChain = g.nextChain + 1) :
    ChainsInv g' (ns ++ [n]) (some prev) (cs ++ [c]) where
  chains c' hc' := by
    rcases List.mem_append.mp hc' with hc' | hc'
    · obtain ⟨hlt, hends⟩ := h.chains c' hc'
      refine ⟨hnext ▸ Nat.lt_succ_of_lt hlt, hends.append hkind ?_ [n]⟩
      rw [hchain, Function.update_of_ne (hc ▸ hlt.ne)]
    · obtain rfl := List.mem_singleton.mp hc'
      obtain ⟨a, q, b, hfirst, rfl, hrest⟩ := h.first
      have hchain' : (g'.chain c').firstNode = some q := by
        rw [hchain, Function.update_self, hfirst]
      refine ⟨hnext ▸ hc ▸ Nat.lt_succ_self _, ?_⟩
      rcases hrest with hall | ⟨gen, b₂, rfl, hgen⟩
      · exact ⟨a, q, b, n, [], by simp, hn, hchain', .inl fun m hm => by rw [hkind m hm, hall m hm]⟩
      · exact ⟨a, q, [], gen, b₂ ++ [n], by simp, by rw [hkind gen (by simp), hgen], hchain',
          .inr ⟨n, by simp, hn⟩⟩
  first := by
    obtain ⟨a, rfl⟩ := List.getLast?_eq_some_iff.mp hlast
    exact ⟨a, prev, [n], rfl, by simp, .inr ⟨n, [], rfl, hn⟩⟩

/-- **The chains the loop makes.** -/
lemma buildChains_endsEarly (hf : FetchSpec fetch kindOf ready) (bs : List β) :
    ∀ {g g' : GraphObjects} {ns : List NodeRef} {ks : List NodeKind} {prev : NodeRef}
      {first : Option NodeRef} {rc rc' : RequestChain}, InLoop ready g ns ks prev bs →
      ChainsInv g ns first rc.compChains →
      buildChains fetch nextFirstOfChunks bs prev first rc g = .ok (some (rc', g')) →
      ∃ new, Built g' (ns ++ new) (ks ++ bs.map kindOf) ∧ rc'.firstNode = rc.firstNode ∧
        rc'.metadata = rc.metadata ∧ ∀ c ∈ rc'.compChains, g'.EndsEarly (ns ++ new) c := by
  induction bs with
  | nil =>
      intro g g' ns ks prev first rc rc' h hinv hok
      obtain ⟨rfl, rfl⟩ := Prod.mk.inj (Option.some.inj (Except.ok.inj hok))
      exact ⟨[], by simpa using h.built, rfl, rfl, fun c hc => by
        simpa using (hinv.chains c hc).2⟩
  | cons b bs ih =>
      intro g g' ns ks prev first rc rc' h hinv hok
      obtain ⟨n, g₁, hfetch, -, hloop, hgen, -, -, hchain, hnextChain⟩ := h.link hf
      have hkind := h.built.isGen_eq hloop.built
      rw [buildChains, hfetch] at hok
      dsimp only at hok
      split at hok
      · rename_i hn
        split at hok
        · cases hok
        · cases hok
        · rename_i c g₂ hnew
          obtain ⟨l, hl, hc, hedges, -, hnc, -, hch, -⟩ := newCompletionChain_spec hnew
          have hmem : ∀ q, first = some q → q ∈ ns ++ [n] := by
            obtain ⟨a, q, b', hfirst, rfl, -⟩ := hinv.first
            rintro q' hq'
            obtain rfl := Option.some.inj (hfirst.symm.trans hq')
            simp
          have hloop₂ := hloop.newCompletionChain hf hmem hnew
          have hprev : (g₂.node n).edgeAPrevNode = some prev :=
            (hloop₂.built.linked.prev ns n [] rfl).trans h.last
          have hnext : nextFirstOfChunks g₂ n = .ok (some prev) := by
            rw [nextFirstOfChunks, hprev]
            rfl
          have hsame : ∀ m, (g₂.node m).isGen = ((g₁.linkEdgeAWith n prev).node m).isGen :=
            fun m => congrArg NodeKind.isGen (hedges m).1
          have hinv₂ : ChainsInv g₂ (ns ++ [n]) (some prev) (rc.compChains ++ [c]) :=
            hinv.gen h.last (fun m hm => (hsame m).trans (hkind m hm)) ((hsame n).trans hn)
              (hc.trans hnextChain) (by rw [hch, hchain]) (by rw [hnc, hnextChain])
          rw [hnext] at hok
          obtain ⟨new, hbuilt, hrc, hmeta, hends⟩ := ih hloop₂ hinv₂ hok
          exact ⟨n :: new, by simpa using hbuilt, hrc, hmeta, by simpa using hends⟩
      · rename_i hn
        obtain ⟨new, hbuilt, hrc, hmeta, hends⟩ := ih hloop
          (hinv.fill hkind (Bool.eq_false_of_not_eq_true hn) hchain hnextChain) hok
        exact ⟨n :: new, by simpa using hbuilt, hrc, hmeta, by simpa using hends⟩

end Build

/-! ## Requests -/

/-- The names of a body that became a chain are known. -/
lemma nodeKind_of_buildChains {req : ChunkedSemanticCallRequest} (chunks : List BodyChunk) :
    ∀ {g g' : GraphObjects} {prev : NodeRef} {first : Option NodeRef} {rc rc' : RequestChain},
      buildChains req.newChunkNode nextFirstOfChunks chunks prev first rc g =
        .ok (some (rc', g')) →
      ∀ chunk ∈ chunks, req.nodeKind chunk = .ok (chunkKind req chunk) := by
  induction chunks with
  | nil => simp
  | cons chunk chunks ih =>
      intro g g' prev first rc rc' hok
      rw [buildChains] at hok
      cases hkind : req.nodeKind chunk with
      | error e => simp [ChunkedSemanticCallRequest.newChunkNode, hkind, bind, Except.bind] at hok
      | ok kind =>
          have hchunk : chunkKind req chunk = kind := by
            rw [chunkKind, hkind]
            rfl
          refine List.forall_mem_cons.mpr ⟨by rw [hkind, hchunk], ?_⟩
          split at hok
          · cases hok
          · dsimp only at hok
            split at hok
            · split at hok
              · cases hok
              · cases hok
              · split at hok
                · cases hok
                · exact ih hok
            · exact ih hok

/-- `from_chunked_request` on the bodies it accepts: they do not start with an output, and the loop
runs over the other chunks. -/
lemma fromChunkedRequest_cases {req : ChunkedSemanticCallRequest} {rc : RequestChain}
    (hok : g.fromChunkedRequest req = .ok (some (rc, g'))) :
    ∃ chunk chunks, req.body = chunk :: chunks ∧
      (∀ chunk ∈ req.body, req.nodeKind chunk = .ok (chunkKind req chunk)) ∧
      (chunkKind req chunk).isGen = false ∧
      buildChains req.newChunkNode nextFirstOfChunks chunks g.nextNode (some g.nextNode)
        { requestId := req.requestId, sessionId := req.sessionId, firstNode := g.nextNode,
          metadata := req.metadata } (g.newNode (chunkKind req chunk)).2 =
        .ok (some (rc, g')) := by
  cases hbody : req.body with
  | nil => simp [fromChunkedRequest, hbody] at hok
  | cons chunk chunks =>
      rw [fromChunkedRequest, hbody] at hok
      dsimp only at hok
      cases hkind : req.nodeKind chunk with
      | error e => simp [ChunkedSemanticCallRequest.newChunkNode, hkind, bind, Except.bind] at hok
      | ok kind =>
          obtain rfl : chunkKind req chunk = kind := by
            rw [chunkKind, hkind]
            rfl
          have hfetch : req.newChunkNode g chunk =
              .ok (g.nextNode, (g.newNode (chunkKind req chunk)).2) := by
            rw [ChunkedSemanticCallRequest.newChunkNode, hkind]
            rfl
          have hnode : (g.newNode (chunkKind req chunk)).2.node g.nextNode =
              { kind := chunkKind req chunk } := by
            simp [newNode]
          rw [hfetch] at hok
          simp only [SemanticNode.isGen, hnode] at hok
          split at hok
          · -- an output has no node in front of it
            split at hok
            · cases hok
            · cases hok
            · rename_i c g₂ hnew
              obtain ⟨-, -, -, hedges, -⟩ := newCompletionChain_spec hnew
              have hprev : (g₂.node g.nextNode).edgeAPrevNode = none := by
                rw [(hedges g.nextNode).2.1, hnode]
              rw [nextFirstOfChunks, hprev] at hok
              cases hok
          · rename_i hgen
            exact ⟨chunk, chunks, rfl, List.forall_mem_cons.mpr
              ⟨hkind, nodeKind_of_buildChains chunks hok⟩, Bool.eq_false_of_not_eq_true hgen, hok⟩

/-- The chains of `from_chunked_request`. -/
lemma fromChunkedRequest_endsEarly {req : ChunkedSemanticCallRequest} {rc : RequestChain}
    (hok : g.fromChunkedRequest req = .ok (some (rc, g'))) :
    ∃ ns, Built g' ns (req.body.map (chunkKind req)) ∧ ns.head? = some rc.firstNode ∧
      rc.metadata = req.metadata ∧ (∀ c ∈ rc.compChains, g'.EndsEarly ns c) ∧
      (∀ k, (req.body.map (chunkKind req)).head? = some k → k.isGen = false) ∧
      req.body.mapM req.nodeKind = .ok (req.body.map (chunkKind req)) := by
  obtain ⟨chunk, chunks, hbody, hkinds, hgen, hloop⟩ := fromChunkedRequest_cases hok
  rw [hbody] at hkinds
  have hnode : (g.newNode (chunkKind req chunk)).2.node g.nextNode =
      { kind := chunkKind req chunk } := by
    simp [newNode]
  have hin : InLoop (fun g ns chunks => (∀ n ∈ ns, n < g.nextNode) ∧
        ∀ chunk ∈ chunks, req.nodeKind chunk = .ok (chunkKind req chunk))
      (g.newNode (chunkKind req chunk)).2 [g.nextNode] [chunkKind req chunk] g.nextNode
      chunks := by
    refine ⟨built_singleton hnode (Nat.lt_succ_self _), rfl, fun n hn => ?_,
      fun c hc => hkinds c (List.mem_cons_of_mem _ hc)⟩
    exact List.mem_singleton.mp hn ▸ Nat.lt_succ_self _
  have hinv : ChainsInv (g.newNode (chunkKind req chunk)).2 [g.nextNode] (some g.nextNode) [] := by
    refine ⟨by simp, [], g.nextNode, [], rfl, rfl, .inl fun n hn => ?_⟩
    rw [List.mem_singleton.mp hn, SemanticNode.isGen, hnode]
    exact hgen
  obtain ⟨new, hbuilt, hrc, hmeta, hends⟩ :=
    buildChains_endsEarly (fetchSpec_chunks req) chunks hin hinv hloop
  rw [hbody]
  refine ⟨[g.nextNode] ++ new, hbuilt, by simp [hrc], hmeta, hends, fun k hk => ?_,
    mapM_eq_ok hkinds⟩
  obtain rfl : chunkKind req chunk = k := by simpa using hk
  exact hgen

end GraphObjects
end ParrotServe
