import ParrotServe.Model.TextContexts

/-!
# The chat messages of a text context

`WholeChunks h r flat`: walking from the root to the context `r`, the chunks are `flat`.  The
messages of `get_whole_chat_messages` are the runs of equal roles in this list, although the
messages of each ancestor were merged before: a run that goes on in the child is merged again
(`mergeRuns_mergeRuns_append`).

The merging writes to messages.  They are all objects that the call itself made, `MadeBy`, one for
each message, so that no write shows in a chunk or in another message.

`chat_messages` is the statement over all runs.
-/

namespace ParrotServe

/-- A chunk that goes on with the text of another one. -/
def TextChunk.append (a b : TextChunk) : TextChunk := { a with text := a.text ++ b.text }

lemma TextChunk.role_append (a b : TextChunk) : (a.append b).role = a.role := rfl

lemma TextChunk.text_append (a b : TextChunk) : (a.append b).text = a.text ++ b.text := rfl

namespace TextHeap

variable {h h' h'' : TextHeap}

/-! ## What a call leaves as it was -/

/-- Between the two states objects were made, and written to, but no context and no object that was
there before changed. -/
structure Allocated (h h' : TextHeap) : Prop where
  context : h'.context = h.context
  nextContext : h'.nextContext = h.nextContext
  nextObj_le : h.nextObj ≤ h'.nextObj
  obj : ∀ o < h.nextObj, h'.obj o = h.obj o

lemma Allocated.refl (h : TextHeap) : Allocated h h := ⟨rfl, rfl, Nat.le_refl _, fun _ _ => rfl⟩

lemma Allocated.trans (hh : Allocated h h') (hh' : Allocated h' h'') : Allocated h h'' where
  context := hh'.context.trans hh.context
  nextContext := hh'.nextContext.trans hh.nextContext
  nextObj_le := hh.nextObj_le.trans hh'.nextObj_le
  obj o ho := (hh'.obj o (ho.trans_le hh.nextObj_le)).trans (hh.obj o ho)

/-- Different objects that were made between the two states. -/
structure MadeBy (h h' : TextHeap) (messages : List TextRef) : Prop where
  nodup : messages.Nodup
  le : ∀ o ∈ messages, h.nextObj ≤ o
  lt : ∀ o ∈ messages, o < h'.nextObj

/-- Parents are older than their children, and chunks are there. -/
structure Formed (h : TextHeap) : Prop where
  parent : ∀ r < h.nextContext, ∀ p, (h.context r).parentContext = some p → p < r
  chunk : ∀ r < h.nextContext, ∀ c ∈ (h.context r).textChunks, c < h.nextObj

lemma Formed.allocated (hf : Formed h) (hh : Allocated h h') : Formed h' where
  parent r hr := by
    rw [hh.context]
    exact hf.parent r (hh.nextContext ▸ hr)
  chunk r hr c hc := by
    rw [hh.context] at hc
    exact (hf.chunk r (hh.nextContext ▸ hr) c hc).trans_le hh.nextObj_le

/-- The chunks of a context, as values. -/
def chunks (h : TextHeap) (r : TextCtxRef) : List TextChunk := (h.context r).textChunks.map h.obj

lemma Allocated.chunks (hh : Allocated h h') (hf : Formed h) {r : TextCtxRef}
    (hr : r < h.nextContext) : h'.chunks r = h.chunks r := by
  unfold TextHeap.chunks
  rw [hh.context]
  exact List.map_congr_left fun c hc => hh.obj c (hf.chunk r hr c hc)

/-! ## From the root to the leaf -/

/-- The chunks from the root to a context. -/
inductive WholeChunks (h : TextHeap) : TextCtxRef → List TextChunk → Prop
  | root {r : TextCtxRef} : (h.context r).parentContext = none → WholeChunks h r (h.chunks r)
  | fork {r p : TextCtxRef} {flat : List TextChunk} : (h.context r).parentContext = some p →
      WholeChunks h p flat → WholeChunks h r (flat ++ h.chunks r)

lemma exists_wholeChunks (hf : Formed h) (r : TextCtxRef) (hr : r < h.nextContext) :
    ∃ flat, WholeChunks h r flat := by
  induction r using Nat.strong_induction_on with
  | _ r ih =>
      cases hp : (h.context r).parentContext with
      | none => exact ⟨_, .root hp⟩
      | some p =>
          have hlt := hf.parent r hr p hp
          obtain ⟨flat, hflat⟩ := ih p hlt (hlt.trans hr)
          exact ⟨_, .fork hp hflat⟩

lemma WholeChunks.allocated {r : TextCtxRef} {flat : List TextChunk} (hw : WholeChunks h r flat)
    (hf : Formed h) (hh : Allocated h h') (hr : r < h.nextContext) : WholeChunks h' r flat := by
  induction hw with
  | @root r hp =>
      rw [← hh.chunks hf hr]
      exact .root (hh.context ▸ hp)
  | @fork r p flat hp _ ih =>
      rw [← hh.chunks hf hr]
      exact .fork (hh.context ▸ hp) (ih ((hf.parent r hr p hp).trans hr))

/-- The whole text is the texts of the chunks. -/
lemma WholeChunks.getWholeContextText {r : TextCtxRef} {flat : List TextChunk}
    (hw : WholeChunks h r flat) (hf : Formed h) (hr : r < h.nextContext) :
    h.getWholeContextText r = flat.flatMap TextChunk.text := by
  have htexts : ∀ r, ((h.context r).textChunks.map fun c => (h.obj c).text).flatten =
      (h.chunks r).flatMap TextChunk.text := fun r => by
    rw [chunks, List.flatMap_map, List.flatMap_def]
  have haux : ∀ fuel, r < fuel → h.getWholeContextTextAux fuel r =
      flat.flatMap TextChunk.text := by
    induction hw with
    | @root r hp =>
        intro fuel hfuel
        obtain ⟨fuel, rfl⟩ := Nat.exists_eq_succ_of_ne_zero (Nat.ne_zero_of_lt hfuel)
        simp only [getWholeContextTextAux, hp, htexts, List.nil_append]
    | @fork r p flat hp _ ih =>
        intro fuel hfuel
        obtain ⟨fuel, rfl⟩ := Nat.exists_eq_succ_of_ne_zero (Nat.ne_zero_of_lt hfuel)
        have hlt := hf.parent r hr p hp
        simp only [getWholeContextTextAux, hp, htexts, List.flatMap_append]
        rw [ih (hlt.trans hr) fuel (hlt.trans_le (Nat.le_of_lt_succ hfuel))]
  exact haux (r + 1) (Nat.lt_succ_self r)

/-! ## Making and merging messages -/

lemma newMessages_spec (cs : List TextRef) : ∀ {h : TextHeap}, (∀ c ∈ cs, c < h.nextObj) →
    Allocated h (newMessages cs h).2 ∧ MadeBy h (newMessages cs h).2 (newMessages cs h).1 ∧
      (newMessages cs h).1.map (newMessages cs h).2.obj = cs.map h.obj := by
  induction cs with
  | nil => exact fun {h} _ => ⟨.refl h, ⟨List.nodup_nil, by simp [newMessages],
      by simp [newMessages]⟩, rfl⟩
  | cons c cs ih =>
      intro h hcs
      let h₁ := (h.newObject (h.obj c)).2
      have hobj : ∀ o < h.nextObj, h₁.obj o = h.obj o := fun o ho => Function.update_of_ne ho.ne _ _
      have hh : Allocated h h₁ := ⟨rfl, rfl, Nat.le_succ _, hobj⟩
      obtain ⟨hh', hmade, hmap⟩ := ih (h := h₁) fun c' hc' =>
        (hcs c' (List.mem_cons_of_mem c hc')).trans_le hh.nextObj_le
      have hlt : h.nextObj < h₁.nextObj := Nat.lt_succ_self _
      have hnew : newMessages (c :: cs) h =
          (h.nextObj :: (newMessages cs h₁).1, (newMessages cs h₁).2) := rfl
      rw [hnew]
      refine ⟨hh.trans hh', ⟨List.nodup_cons.mpr ⟨fun hmem => ?_, hmade.nodup⟩, ?_, ?_⟩, ?_⟩
      · exact absurd (hmade.le _ hmem) (Nat.not_le.mpr hlt)
      · intro o ho
        rcases List.mem_cons.mp ho with rfl | ho
        · exact Nat.le_refl _
        · exact hlt.le.trans (hmade.le o ho)
      · intro o ho
        rcases List.mem_cons.mp ho with rfl | ho
        · exact hlt.trans_le hh'.nextObj_le
        · exact hmade.lt o ho
      · have hfirst : (newMessages cs h₁).2.obj h.nextObj = h.obj c :=
          (hh'.obj _ hlt).trans (Function.update_self _ _ _)
        rw [List.map_cons, List.map_cons, hfirst, hmap]
        exact congrArg _ (List.map_congr_left fun c' hc' =>
          hobj c' (hcs c' (List.mem_cons_of_mem c hc')))

/-- What the merging loop does: to the values it is `mergeInto`, and it writes to nothing but the
messages. -/
structure Merged (h : TextHeap) (merged messages : List TextRef)
    (result : List TextRef × TextHeap) : Prop where
  values : result.1.map result.2.obj = (messages.map h.obj).foldl
    (mergeInto TextChunk.role TextChunk.append) (merged.map h.obj)
  sublist : result.1.Sublist (merged ++ messages)
  obj : ∀ o ∉ merged ++ messages, result.2.obj o = h.obj o
  context : result.2.context = h.context
  nextContext : result.2.nextContext = h.nextContext
  nextObj : result.2.nextObj = h.nextObj

/-- A message that is kept. -/
lemma Merged.keep {merged messages : List TextRef} {message : TextRef}
    {result : List TextRef × TextHeap} (hm : Merged h (merged ++ [message]) messages result)
    (hkeep : mergeInto TextChunk.role TextChunk.append (merged.map h.obj) (h.obj message) =
      merged.map h.obj ++ [h.obj message]) : Merged h merged (message :: messages) result where
  values := by rw [hm.values, List.map_cons, List.foldl_cons, hkeep, List.map_append]; rfl
  sublist := by simpa using hm.sublist
  obj o ho := hm.obj o (by simpa using ho)
  context := hm.context
  nextContext := hm.nextContext
  nextObj := hm.nextObj

/-- A message whose content goes to the last one. -/
lemma Merged.addContent {pre messages : List TextRef} {last message : TextRef}
    {result : List TextRef × TextHeap}
    (hm : Merged (h.addContent last (h.obj message).text) (pre ++ [last]) messages result)
    (hnodup : (pre ++ [last] ++ message :: messages).Nodup)
    (hrole : (h.obj last).role = (h.obj message).role) :
    Merged h (pre ++ [last]) (message :: messages) result := by
  have hother : ∀ o ≠ last, (h.addContent last (h.obj message).text).obj o = h.obj o :=
    fun o ho => Function.update_of_ne ho _ _
  obtain ⟨hpre, -, hdisj⟩ := List.nodup_append.mp hnodup
  have hlast : ∀ o ∈ pre, o ≠ last := fun o ho heq =>
    (List.nodup_append.mp hpre).2.2 o ho last (by simp) heq
  have hmessages : ∀ o ∈ messages, o ≠ last := fun o ho heq =>
    hdisj last (by simp) o (List.mem_cons_of_mem _ ho) heq.symm
  have hself : (h.addContent last (h.obj message).text).obj last =
      (h.obj last).append (h.obj message) := Function.update_self _ _ _
  refine ⟨?_, ?_, fun o ho => ?_, hm.context, hm.nextContext, hm.nextObj⟩
  · rw [hm.values, List.map_append, List.map_singleton, hself,
      List.map_congr_left fun o ho => hother o (hlast o ho),
      List.map_congr_left fun o ho => hother o (hmessages o ho), List.map_cons, List.foldl_cons,
      List.map_append, List.map_singleton, mergeInto_concat, if_pos hrole]
  · exact hm.sublist.trans (List.Sublist.append (.refl _) (List.sublist_cons_self _ _))
  · rw [hm.obj o fun hmem => ho ?_]
    · exact hother o fun heq => ho (by simp [heq])
    · rcases List.mem_append.mp hmem with hmem | hmem
      · exact List.mem_append_left _ hmem
      · exact List.mem_append_right _ (List.mem_cons_of_mem _ hmem)

lemma mergeMessages_spec (messages : List TextRef) : ∀ {merged : List TextRef} {h : TextHeap},
    (merged ++ messages).Nodup → Merged h merged messages (mergeMessages merged messages h) := by
  induction messages with
  | nil => exact fun {merged h} _ =>
      ⟨rfl, by rw [List.append_nil]; exact .refl _, fun _ _ => rfl, rfl, rfl, rfl⟩
  | cons message messages ih =>
      intro merged h hnodup
      have hkept : Merged h (merged ++ [message]) messages
          (mergeMessages (merged ++ [message]) messages h) := ih (by simpa using hnodup)
      unfold mergeMessages
      rcases List.eq_nil_or_concat' merged with rfl | ⟨pre, last, rfl⟩
      · exact hkept.keep rfl
      · rw [List.getLast?_concat]
        dsimp only
        split
        · rename_i hrole
          refine Merged.addContent (ih ?_) hnodup hrole
          exact hnodup.sublist (List.Sublist.append (.refl _) (List.sublist_cons_self _ _))
        · rename_i hrole
          refine hkept.keep ?_
          rw [List.map_append, List.map_singleton, mergeInto_concat, if_neg hrole]

/-! ## The recursion -/

/-- What `get_whole_chat_messages` does at a context whose chunks from the root are `flat`. -/
structure Collected (h : TextHeap) (flat : List TextChunk) (result : List TextRef × TextHeap) :
    Prop where
  allocated : Allocated h result.2
  madeBy : MadeBy h result.2 result.1
  values : result.1.map result.2.obj = mergeRuns TextChunk.role TextChunk.append flat

/-- Merging messages that were made since `h`. -/
lemma Collected.of_merge (hh : Allocated h h') {messages : List TextRef}
    (hmade : MadeBy h h' messages) {flat : List TextChunk}
    (hvalues : mergeRuns TextChunk.role TextChunk.append (messages.map h'.obj) =
      mergeRuns TextChunk.role TextChunk.append flat) :
    Collected h flat (mergeMessages [] messages h') := by
  have hm : Merged h' [] messages (mergeMessages [] messages h') :=
    mergeMessages_spec messages hmade.nodup
  have hsub := hm.sublist
  rw [List.nil_append] at hsub
  refine ⟨⟨hm.context.trans hh.context, hm.nextContext.trans hh.nextContext,
    hm.nextObj ▸ hh.nextObj_le, fun o ho => ?_⟩, ⟨hmade.nodup.sublist hsub,
    fun o ho => hmade.le o (hsub.subset ho), fun o ho => ?_⟩, ?_⟩
  · rw [hm.obj o fun hmem => absurd (hmade.le o (by simpa using hmem)) (Nat.not_le.mpr ho)]
    exact hh.obj o ho
  · rw [hm.nextObj]
    exact hmade.lt o (hsub.subset ho)
  · rw [hm.values, List.map_nil, foldl_mergeInto TextChunk.role_append, hvalues]

lemma getWholeChatMessagesAux_spec (fuel : ℕ) : ∀ {r : TextCtxRef} {h : TextHeap}
    {flat : List TextChunk}, r < fuel → Formed h → r < h.nextContext → WholeChunks h r flat →
    Collected h flat (getWholeChatMessagesAux fuel r h) := by
  induction fuel with
  | zero => exact fun hr => absurd hr (Nat.not_lt_zero _)
  | succ fuel ih =>
      intro r h flat hfuel hf hr hw
      obtain ⟨hh, hmade, hmap⟩ := newMessages_spec (h.context r).textChunks (hf.chunk r hr)
      simp only [getWholeChatMessagesAux]
      cases hw with
      | root hp =>
          simp only [hp]
          exact .of_merge hh hmade (by rw [hmap]; rfl)
      | @fork _ p flat hp hw =>
          simp only [hp]
          have hlt := hf.parent r hr p hp
          have hc := ih (hlt.trans_le (Nat.le_of_lt_succ hfuel)) (hf.allocated hh)
            (hh.nextContext ▸ hlt.trans hr) (hw.allocated hf hh (hlt.trans hr))
          refine .of_merge (hh.trans hc.allocated) ?_ ?_
          · -- the parent's messages are younger than those of the child
            refine ⟨List.nodup_append.mpr ⟨hc.madeBy.nodup, hmade.nodup, ?_⟩, ?_, ?_⟩
            · intro o ho o' ho' heq
              exact absurd (hmade.lt o' ho') (Nat.not_lt.mpr (heq ▸ hc.madeBy.le o ho))
            · intro o ho
              rcases List.mem_append.mp ho with ho | ho
              · exact hh.nextObj_le.trans (hc.madeBy.le o ho)
              · exact hmade.le o ho
            · intro o ho
              rcases List.mem_append.mp ho with ho | ho
              · exact hc.madeBy.lt o ho
              · exact (hmade.lt o ho).trans_le hc.allocated.nextObj_le
          · rw [List.map_append, hc.values, mergeRuns_mergeRuns_append TextChunk.role_append,
              List.map_congr_left fun o ho => hc.allocated.obj o (hmade.lt o ho), hmap]
            rfl

/-! ## Runs -/

lemma Formed.newContext (hf : Formed h) {parent : Option TextCtxRef}
    (hp : ∀ p ∈ parent, p < h.nextContext) : Formed (h.newContext parent) where
  parent r hr p hpar := by
    dsimp only [TextHeap.newContext] at hr hpar
    rw [Function.update_apply] at hpar
    split at hpar
    · rename_i heq
      exact heq ▸ hp p hpar
    · rename_i hne
      exact hf.parent r (Nat.lt_of_le_of_ne (Nat.le_of_lt_succ hr) hne) p hpar
  chunk r hr c hc := by
    dsimp only [TextHeap.newContext] at hr hc ⊢
    rw [Function.update_apply] at hc
    split at hc
    · exact absurd hc List.not_mem_nil
    · rename_i hne
      exact hf.chunk r (Nat.lt_of_le_of_ne (Nat.le_of_lt_succ hr) hne) c hc

lemma Formed.appendText (hf : Formed h) {r : TextCtxRef} (content : Text) (roleIsUser : Bool) :
    Formed (h.appendText r content roleIsUser) where
  parent r' hr' p hpar := by
    refine hf.parent r' hr' p ?_
    simp only [TextHeap.appendText, newObject, Function.update_apply] at hpar
    split at hpar
    · rename_i heq
      rw [heq]
      exact hpar
    · exact hpar
  chunk r' hr' c hc := by
    simp only [TextHeap.appendText, newObject, Function.update_apply] at hc ⊢
    split at hc
    · rename_i heq
      rcases List.mem_append.mp hc with hc | hc
      · exact Nat.lt_succ_of_lt (hf.chunk r (heq ▸ hr') c hc)
      · exact List.mem_singleton.mp hc ▸ Nat.lt_succ_self _
    · exact Nat.lt_succ_of_lt (hf.chunk r' hr' c hc)

/-- What a call of `get_whole_chat_messages` does. -/
lemma getWholeChatMessages_spec (hf : Formed h) {r : TextCtxRef} (hr : r < h.nextContext)
    {flat : List TextChunk} (hw : WholeChunks h r flat) :
    Collected h flat (h.getWholeChatMessages r) :=
  getWholeChatMessagesAux_spec (r + 1) (Nat.lt_succ_self r) hf hr hw

lemma formed_invariant : system.IsInvariantUnder (fun _ _ => True) Formed where
  init h h0 := by
    cases h0
    exact ⟨fun r hr => absurd hr (Nat.not_lt_zero r), fun r hr => absurd hr (Nat.not_lt_zero r)⟩
  step h a h' hf _ hst := by
    obtain ⟨hen, rfl⟩ := hst
    cases a with
    | newContext parent => exact hf.newContext hen
    | executeFill r text => exact hf.appendText text true
    | finishGenerate r generatedResult => exact hf.appendText generatedResult false
    | submitGenerate endpoint r =>
        cases endpoint with
        | completion => exact hf
        | chat =>
            obtain ⟨flat, hw⟩ := exists_wholeChunks hf r hen
            exact hf.allocated (getWholeChatMessages_spec hf hen hw).allocated

/-- The chat messages of a context say the same as its whole text: neighbours have different roles,
the contents are the whole text, and the messages are the runs of the chunks from the root.  The
call changes no text. -/
theorem chat_messages {h : TextHeap} (hs : system.Reachable h) {r : TextCtxRef}
    (hr : r < h.nextContext) :
    ∃ flat messages h', WholeChunks h r flat ∧ h.getWholeChatMessages r = (messages, h') ∧
      (messages.map h'.obj).IsChain (fun a b => a.role ≠ b.role) ∧
      (messages.map h'.obj).flatMap TextChunk.text = h.getWholeContextText r ∧
      messages.map h'.obj = mergeRuns TextChunk.role TextChunk.append flat ∧
      h'.nextContext = h.nextContext ∧ ∀ r' < h.nextContext, h'.chunks r' = h.chunks r' ∧
        h'.getWholeContextText r' = h.getWholeContextText r' := by
  have hf := formed_invariant.holds hs
  obtain ⟨flat, hw⟩ := exists_wholeChunks hf r hr
  obtain ⟨messages, h', hcall⟩ : ∃ messages h', h.getWholeChatMessages r = (messages, h') :=
    ⟨_, _, rfl⟩
  have hc := getWholeChatMessages_spec hf hr hw
  rw [hcall] at hc
  refine ⟨flat, messages, h', hw, hcall, ?_, ?_, hc.values, hc.allocated.nextContext,
    fun r' hr' => ?_⟩
  · exact hc.values ▸ isChain_mergeRuns TextChunk.role_append flat
  · rw [hc.values, flatMap_mergeRuns TextChunk.text_append, hw.getWholeContextText hf hr]
  · obtain ⟨flat', hw'⟩ := exists_wholeChunks hf r' hr'
    refine ⟨hc.allocated.chunks hf hr', ?_⟩
    rw [hw'.getWholeContextText hf hr', (hw'.allocated hf hc.allocated hr').getWholeContextText
      (hf.allocated hc.allocated) (hc.allocated.nextContext ▸ hr')]

/-- A context with a prompt of two Fills and an answer, and a fork of it with a Fill. -/
def forkAfterAnswer : List Action :=
  [.newContext none, .executeFill 0 ['a'], .executeFill 0 ['b'], .submitGenerate .chat 0,
    .finishGenerate 0 ['c'], .newContext (some 0), .finishGenerate 1 ['d'], .executeFill 1 ['e']]

/-- Its messages: the answer of the parent goes on in the fork. -/
theorem chat_messages_fork :
    ∃ h r messages h', system.Reachable h ∧ h.getWholeChatMessages r = (messages, h') ∧
      messages.map h'.obj = [⟨['a', 'b'], .user⟩, ⟨['c', 'd'], .assistant⟩, ⟨['e'], .user⟩] ∧
      (messages.map h'.obj).flatMap TextChunk.text = h.getWholeContextText r := by
  have hs : system.Reachable (forkAfterAnswer.foldl apply empty) :=
    TransitionSystem.ReachableUnder.foldl forkAfterAnswer (.init rfl) (by decide +kernel)
  obtain ⟨-, messages, h', -, hcall, -, htext, -⟩ := chat_messages hs (r := 1) (by decide +kernel)
  have hvalues : ((forkAfterAnswer.foldl apply empty).getWholeChatMessages 1).1.map
      ((forkAfterAnswer.foldl apply empty).getWholeChatMessages 1).2.obj =
      [⟨['a', 'b'], .user⟩, ⟨['c', 'd'], .assistant⟩, ⟨['e'], .user⟩] := by decide +kernel
  rw [hcall] at hvalues
  exact ⟨_, 1, messages, h', hs, hcall, hvalues, htext⟩

end TextHeap

end ParrotServe
