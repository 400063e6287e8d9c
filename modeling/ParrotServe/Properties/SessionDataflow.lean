import ParrotServe.Properties.SessionNetwork

/-!
# Contents of variables

The coroutines of all sessions compute the network of variables, in whatever order they are resumed
and whatever requests, clients, the scheduler and the engines do in between.

`PhaseInv` says what a coroutine knows where it waits: the variables it does not wait for any more
are ready, its task was submitted with the contents of its inputs, and its outputs are not ready
before it is finished.  Since a content stays, every other action keeps this.  It follows that a
produced variable holds what its producer was answered for exactly the contents that its inputs
have, whenever one looks (`contents_answered`).  So two runs can only differ where two answers for
equal arguments do.

Coroutines do not wait for each other for ever: above an activated variable that is not ready there
is a source that is not set, a coroutine that was interrupted, a task that the scheduler or an
engine has, or a coroutine that can go on.  They only have finitely many steps to go.
-/

namespace ParrotServe

open GraphObjects SemanticRequest SemanticVariableManager TransitionSystem

namespace RequestHeap

variable {uuid3 : ℕ → Text → VarId} {s s' : RequestHeap} {n p q : NodeRef} {v w : SvRef}
  {c : ChainRef} {co co' : ExecutionCoroutine} {ins : List SvRef}

/-! ## Producers and their coroutines -/

/-- A producer has one coroutine. -/
lemma RunsFor.unique (h : s.RunsFor v p co) (h' : s.RunsFor w p co') : co = co' := by
  cases co with
  | completionChain c =>
      obtain ⟨hnone, -, fills, vars, hchain⟩ := h
      cases co' with
      | completionChain c' =>
          obtain ⟨-, -, fills', vars', hchain'⟩ := h'
          exact congrArg _ (Option.some.inj (hchain.chain.symm.trans hchain'.chain))
      | nativeFunc n =>
          obtain ⟨-, -, node, hnode, -⟩ := h'
          exact absurd (hnone.symm.trans hnode) (by simp)
  | nativeFunc n =>
      obtain ⟨rfl, -, node, hnode, -⟩ := h
      cases co' with
      | completionChain c' => exact absurd (h'.1.symm.trans hnode) (by simp)
      | nativeFunc m => exact congrArg _ h'.1.symm

/-- A coroutine runs for one producer. -/
lemma RunsFor.producer_unique (h : s.RunsFor v p co) (h' : s.RunsFor w q co) : p = q := by
  cases co with
  | completionChain c =>
      obtain ⟨-, -, fills, vars, hchain⟩ := h
      obtain ⟨-, -, fills', vars', hchain'⟩ := h'
      exact Option.some.inj (hchain.genNode.symm.trans hchain'.genNode)
  | nativeFunc n => exact h.1.symm.trans h'.1

/-- `wait_activated` returns when an output is activated. -/
lemma RunsFor.outputActivated (h : s.RunsFor v p co) (hactivated : s.activation v ≠ none) :
    s.outputActivated co = true := by
  have hsome : (s.activation v).isSome = true := Option.isSome_iff_ne_none.mpr hactivated
  cases co with
  | completionChain c =>
      obtain ⟨-, hsv, fills, vars, hchain⟩ := h
      simp only [RequestHeap.outputActivated, hchain.genNode, nodeSv, hsv]
      exact hsome
  | nativeFunc n =>
      obtain ⟨rfl, -, node, hnode, hv, -⟩ := h
      obtain ⟨x, hx, rfl⟩ := List.mem_map.mp hv
      simp only [RequestHeap.outputActivated, hnode]
      exact List.any_eq_true.mpr ⟨x, hx, hsome⟩

/-- The loop over the Fill nodes, whose variables and whose predecessors' variables are inputs. -/
lemma awaitedByNodes_ok {nodes : List NodeRef} : ∀ {vars : List SvRef},
    nodes.map (fun n => (s.objs.node n).sv) = vars.map some → (∀ w ∈ vars, w ∈ ins) →
      (∀ n ∈ nodes, ∀ m, (s.objs.node n).edgeAPrevNode = some m →
        ∃ w ∈ ins, (s.objs.node m).sv = some w) →
      ∃ ws, s.awaitedByNodes nodes = .ok ws ∧ (∀ w ∈ vars, w ∈ ws) ∧ ∀ w ∈ ws, w ∈ ins := by
  induction nodes with
  | nil =>
      intro vars hsvs _ _
      obtain rfl : vars = [] := List.map_eq_nil_iff.mp hsvs.symm
      exact ⟨[], rfl, fun _ h => absurd h List.not_mem_nil, fun _ h => absurd h List.not_mem_nil⟩
  | cons n nodes ih =>
      intro vars hsvs hins hprev
      obtain _ | ⟨v, vars⟩ := vars
      · exact absurd hsvs (by simp)
      rw [List.map_cons, List.map_cons] at hsvs
      obtain ⟨hv, hsvs⟩ := List.cons.inj hsvs
      obtain ⟨ws, hws, hall, hsub⟩ := ih hsvs (fun w hw => hins w (List.mem_cons_of_mem _ hw))
        fun m hm => hprev m (List.mem_cons_of_mem _ hm)
      have hone : ∃ us, s.awaitedByNode n = .ok us ∧ v ∈ us ∧ ∀ w ∈ us, w ∈ ins := by
        have hvar : s.nodeSv n = .ok v := by rw [nodeSv, hv]
        have hvin := hins v List.mem_cons_self
        unfold awaitedByNode
        cases hp : (s.objs.node n).edgeAPrevNode with
        | none => exact ⟨[v], by rw [hvar]; rfl, List.mem_singleton_self v, by simpa using hvin⟩
        | some m =>
            obtain ⟨w, hw, hm⟩ := hprev n List.mem_cons_self m hp
            have hprevVar : s.nodeSv m = .ok w := by rw [nodeSv, hm]
            exact ⟨[w, v], by simp only [hvar, hprevVar]; rfl, by simp, by simp [hw, hvin]⟩
      obtain ⟨us, hus, hmem, hsub'⟩ := hone
      refine ⟨us ++ ws, ?_, fun w hw => ?_, fun w hw => ?_⟩
      · rw [awaitedByNodes, hus, hws]
        rfl
      · rcases List.mem_cons.mp hw with rfl | hw
        · exact List.mem_append_left _ hmem
        · exact List.mem_append_right _ (hall w hw)
      · exact (List.mem_append.mp hw).elim (hsub' w) (hsub w)

/-- A coroutine waits for its inputs, and for nothing else. -/
lemma RunsFor.awaited (h : s.RunsFor v p co) (hp : s.producer v = some p)
    (hins : s.inputsOf v = some ins) :
    ∃ ws, s.awaited co = .ok ws ∧ (∀ w ∈ ins, w ∈ ws) ∧ ∀ w ∈ ws, w ∈ ins := by
  cases co with
  | completionChain c =>
      obtain ⟨hnone, -, fills, vars, hchain⟩ := h
      rw [inputsOf_chain hp hnone hchain] at hins
      obtain rfl := Option.some.inj hins
      rw [RequestHeap.awaited, hchain.iterFill_eq]
      refine awaitedByNodes_ok hchain.svs (fun w hw => hw) fun n hn m hm => ?_
      have hmem : (s.objs.node m).sv ∈ vars.map some :=
        hchain.svs ▸ List.mem_map_of_mem (hchain.prev n hn m hm)
      obtain ⟨w, hw, hsv⟩ := List.mem_map.mp hmem
      exact ⟨w, hw, hsv.symm⟩
  | nativeFunc n =>
      obtain ⟨rfl, -, node, hnode, -⟩ := h
      rw [inputsOf_native hp hnode] at hins
      obtain rfl := Option.some.inj hins
      rw [RequestHeap.awaited, hnode]
      exact ⟨_, rfl, fun w hw => hw, fun w hw => hw⟩

/-- The key of an output. -/
lemma outputKey_eq {node : NativeFuncNode} (hnode : s.native p = some node)
    (hnodup : (node.outputVars.map Prod.snd).Nodup) {x : Text × SvRef} (hx : x ∈ node.outputVars)
    (hp : s.producer x.2 = some p) : s.outputKey x.2 = x.1 := by
  unfold outputKey
  rw [hp, Option.bind_some, hnode]
  dsimp only
  cases hfind : node.outputVars.find? fun output => decide (output.2 = x.2) with
  | none =>
      have := List.find?_eq_none.mp hfind x hx
      simp at this
  | some y =>
      have hy : y.2 = x.2 := by simpa using List.find?_some hfind
      have hmem := List.mem_of_find?_eq_some hfind
      rw [List.inj_on_of_nodup_map hnodup hmem hx hy]
      rfl

/-! ## Only contents differ -/

/-- Only contents differ. -/
structure ContentsOnly (s s' : RequestHeap) : Prop where
  objs : s'.objs = s.objs
  native : s'.native = s.native
  producer : s'.producer = s.producer
  activation : s'.activation = s.activation

namespace ContentsOnly

lemma refl (s : RequestHeap) : s.ContentsOnly s := ⟨rfl, rfl, rfl, rfl⟩

lemma trans {s'' : RequestHeap} (h : s.ContentsOnly s') (h' : s'.ContentsOnly s'') :
    s.ContentsOnly s'' :=
  ⟨h'.objs.trans h.objs, h'.native.trans h.native, h'.producer.trans h.producer,
    h'.activation.trans h.activation⟩

lemma inputsOf_eq (h : s.ContentsOnly s') : s'.inputsOf = s.inputsOf := by
  funext v
  unfold inputsOf consumed
  rw [h.producer, h.native, h.objs]

lemma outputKey_eq (h : s.ContentsOnly s') : s'.outputKey v = s.outputKey v := by
  unfold outputKey
  rw [h.producer, h.native]

lemma runsFor_iff (h : s.ContentsOnly s') : s'.RunsFor v p co ↔ s.RunsFor v p co := by
  cases co <;> simp only [RunsFor, h.objs, h.native]

lemma serves_iff (h : s.ContentsOnly s') : s'.Serves co ↔ s.Serves co := by
  cases co <;> simp only [Serves, RunsFor, h.objs, h.native, h.producer]

lemma awaited_eq (h : s.ContentsOnly s') : s'.awaited co = s.awaited co := by
  have hnodes : ∀ nodes, s'.awaitedByNodes nodes = s.awaitedByNodes nodes := by
    intro nodes
    induction nodes with
    | nil => rfl
    | cons n nodes ih => simp only [awaitedByNodes, awaitedByNode, nodeSv, h.objs, ih]
  cases co <;> simp only [awaited, h.objs, h.native, hnodes]

end ContentsOnly

end RequestHeap

namespace SessionExecution

open RequestHeap

variable {uuid3 : ℕ → Text → VarId} {x x' y z : SessionExecution} {n p q : NodeRef} {v w : SvRef}
  {c : ChainRef} {co co' : ExecutionCoroutine} {ins vs ws : List SvRef} {args : List PyValue}
  {d : PyValue}

/-! ## Contents are read -/

/-- The contents of the nodes are those of their variables. -/
lemma readNodes_eq {nodes : List NodeRef} : ∀ {vars : List SvRef} {args : List PyValue},
    nodes.map (fun n => (x.heap.objs.node n).sv) = vars.map some →
      vars.mapM x.value = some args → x.readNodes nodes = .ok args := by
  induction nodes with
  | nil =>
      intro vars args hsvs hargs
      obtain rfl : vars = [] := List.map_eq_nil_iff.mp hsvs.symm
      obtain rfl : args = [] := by simpa using hargs.symm
      rfl
  | cons n nodes ih =>
      intro vars args hsvs hargs
      obtain _ | ⟨v, vars⟩ := vars
      · exact absurd hsvs (by simp)
      rw [List.map_cons, List.map_cons] at hsvs
      obtain ⟨hv, hsvs⟩ := List.cons.inj hsvs
      obtain ⟨content, rest, hcontent, hrest, rfl⟩ := Network.mapM_cons_eq_some.mp hargs
      have hvar : x.heap.nodeSv n = .ok v := by rw [nodeSv, hv]
      simp only [readNodes, hvar, hcontent, ih hsvs hrest]
      rfl

/-- A chain is submitted with the contents of its inputs. -/
lemma tokenizeChain_ok {fills : List NodeRef} {vars : List SvRef}
    (h : x.heap.objs.GenChain p c fills vars) (hargs : vars.mapM x.value = some args) :
    x.tokenizeChain c = .ok args := by
  rw [tokenizeChain, h.iterFill_eq]
  exact readNodes_eq h.svs hargs

/-- The arguments of a native function are the contents of its inputs. -/
lemma readInputs_eq {vars : List SvRef} : ∀ {args : List PyValue},
    vars.mapM x.value = some args → x.readInputs vars = .ok args := by
  induction vars with
  | nil =>
      intro args hargs
      obtain rfl : args = [] := by simpa using hargs.symm
      rfl
  | cons v vars ih =>
      intro args hargs
      obtain ⟨content, rest, hcontent, hrest, rfl⟩ := Network.mapM_cons_eq_some.mp hargs
      simp only [readInputs, hcontent, ih hrest]
      rfl

/-! ## Contents are set -/

lemma value_eq_none : x.value v = none ↔ x.heap.content v = none ∧ x.other v = none := by
  unfold value
  cases x.heap.content v <;> simp

/-- The contents of the variables `vs` may differ. -/
structure Sets (vs : List SvRef) (x y : SessionExecution) : Prop where
  heap : x.heap.ContentsOnly y.heap
  inv : x.heap.HeapInv → y.heap.HeapInv
  started : y.started = x.started
  phase : y.phase = x.phase
  value : ∀ w ∉ vs, y.value w = x.value w
  other : ∀ w ∉ vs, y.other w = x.other w

lemma Sets.refl (vs : List SvRef) (x : SessionExecution) : Sets vs x x :=
  ⟨.refl _, id, rfl, rfl, fun _ _ => rfl, fun _ _ => rfl⟩

lemma Sets.trans (h : Sets vs x y) (h' : Sets ws y z) : Sets (vs ++ ws) x z where
  heap := h.heap.trans h'.heap
  inv := h'.inv ∘ h.inv
  started := h'.started.trans h.started
  phase := h'.phase.trans h.phase
  value w hw := by
    rw [List.mem_append, not_or] at hw
    rw [h'.value w hw.2, h.value w hw.1]
  other w hw := by
    rw [List.mem_append, not_or] at hw
    rw [h'.other w hw.2, h.other w hw.1]

/-- Values of other variables stay, and these had none. -/
lemma Sets.keeps (h : Sets vs x y) (hvs : ∀ w ∈ vs, x.value w = none) (hd : x.value v = some d) :
    y.value v = some d := by
  have hv : v ∉ vs := fun hv => absurd ((hvs v hv).symm.trans hd) (by simp)
  rw [h.value v hv, hd]

/-- `set` of a string. -/
lemma content_setContent (s : RequestHeap) (v w : SvRef) (text : Text) (h : s.content v = none) :
    RequestHeap.content { s with vars := (s.vars.setContent v text).2 } w =
      if w = v then some text else s.content w := by
  unfold SemanticVariableManager.setContent RequestHeap.content at *
  rw [h]
  dsimp only
  rw [Function.update_apply]
  split_ifs <;> rfl

lemma set_sets (x : SessionExecution) (v : SvRef) (content : PyValue) :
    Sets [v] x (x.set v content).2 := by
  unfold set
  split_ifs with hblank
  · cases content with
    | str text =>
        refine ⟨⟨rfl, rfl, rfl, rfl⟩, fun h => h.setContent (fun _ _ => noVar.id) v text, rfl, rfl,
          fun w hw => ?_, fun _ _ => rfl⟩
        have hw : w ≠ v := by simpa using hw
        have hcontent : RequestHeap.content
            { x.heap with vars := (x.heap.vars.setContent v text).2 } w = x.heap.content w := by
          unfold SemanticVariableManager.setContent RequestHeap.content
          split
          · rfl
          · exact congrArg _ (Function.update_of_ne hw _ _)
        simp only [value, hcontent]
    | none | object ref =>
        refine ⟨.refl _, id, rfl, rfl, fun w hw => ?_, fun w hw => ?_⟩
        all_goals
          have hw : w ≠ v := by simpa using hw
          simp only [value, Function.update_of_ne hw]
  · exact .refl _ _

lemma set_log (x : SessionExecution) (v : SvRef) (content : PyValue) :
    (x.set v content).2.log = x.log := by
  unfold set
  split_ifs
  · cases content <;> rfl
  · rfl

/-- A variable that is not ready is set. -/
lemma set_ok (h : x.value v = none) (content : PyValue) :
    (x.set v content).1 = .ok () ∧ (x.set v content).2.value v = some content := by
  obtain ⟨hcontent, hother⟩ := value_eq_none.mp h
  have hblank : x.isBlank v = true := decide_eq_true (.inl h)
  unfold set
  rw [if_pos hblank]
  cases content with
  | str text =>
      refine ⟨rfl, ?_⟩
      simp only [value, content_setContent x.heap v v text hcontent, if_pos]
  | none | object ref =>
      refine ⟨rfl, ?_⟩
      simp only [value, hcontent, Function.update_self]

/-- The write back of a native function whose outputs are not ready. -/
lemma writeBack_ok (proxies : Text → PyValue) (outputs : List (Text × SvRef)) :
    ∀ {x : SessionExecution}, (outputs.map Prod.snd).Nodup →
      (∀ v ∈ outputs.map Prod.snd, x.value v = none) →
      ∃ y, writeBack proxies outputs x = (.ok (), y) ∧ Sets (outputs.map Prod.snd) x y ∧
        y.log = x.log ∧ ∀ o ∈ outputs, y.value o.2 = some (proxies o.1) := by
  induction outputs with
  | nil => exact fun _ _ => ⟨_, rfl, .refl _ _, rfl, fun _ h => by cases h⟩
  | cons o outputs ih =>
      intro x hnodup hunset
      obtain ⟨key, v⟩ := o
      obtain ⟨hv, hnodup⟩ := List.nodup_cons.mp hnodup
      obtain ⟨hok, hvalue⟩ := set_ok (hunset v List.mem_cons_self) (proxies key)
      have hset : x.set v (proxies key) = (.ok (), (x.set v (proxies key)).2) := Prod.ext hok rfl
      have hsets := set_sets x v (proxies key)
      obtain ⟨y, hrest, hsets', hlog, hall⟩ := ih (x := (x.set v (proxies key)).2) hnodup
        fun w hw => by
          have hne : w ∉ [v] := by
            rw [List.mem_singleton]
            exact fun heq => hv (heq ▸ hw)
          rw [hsets.value w hne]
          exact hunset w (List.mem_cons_of_mem _ hw)
      refine ⟨y, ?_, hsets.trans hsets', hlog.trans (set_log x v _), fun o ho => ?_⟩
      · rw [writeBack, hset]
        exact hrest
      · rcases List.mem_cons.mp ho with rfl | ho
        · rw [hsets'.value v hv, hvalue]
        · exact hall o ho

/-! ## What a coroutine knows -/

/-- The producer of the variable was asked with these arguments, and left this for it. -/
def Answered (x : SessionExecution) (v : SvRef) (args : List PyValue) (d : PyValue) : Prop :=
  ∃ p left, x.heap.producer v = some p ∧ x.log p = some (args, left) ∧ d = left (x.heap.outputKey v)

/-- What holds of a variable, its inputs and its coroutine where this one is. -/
def PhaseInv (x : SessionExecution) (v : SvRef) (p : NodeRef) (co : ExecutionCoroutine)
    (ins : List SvRef) : CoroutinePhase → Prop
  | .awaitActivated | .interrupted => x.value v = none
  | .awaitReady awaited =>
      x.value v = none ∧ (∀ w ∈ awaited, w ∈ ins) ∧
        ∀ w ∈ ins, w ∈ awaited ∨ ∃ d, x.value w = some d
  | .submitted args =>
      x.value v = none ∧ (∃ c, co = .completionChain c) ∧ ins.mapM x.value = some args
  | .executing nodes args =>
      x.value v = none ∧
        (∃ c fills vars rest, co = .completionChain c ∧ x.heap.objs.GenChain p c fills vars ∧
          rest <:+ fills ∧ nodes = rest ++ [p]) ∧
        ins.mapM x.value = some args
  | .finished => ∃ args d, ins.mapM x.value = some args ∧ x.Answered v args d ∧
      x.value v = some d

/-- More contents of other variables do not matter. -/
lemma PhaseInv.mono {phase : CoroutinePhase} (h : x.PhaseInv v p co ins phase)
    (hvalue : y.value v = x.value v)
    (hanswered : ∀ args d, x.Answered v args d → y.Answered v args d)
    (hins : ∀ w ∈ ins, ∀ d, x.value w = some d → y.value w = some d)
    (hchain : ∀ c fills vars, x.heap.objs.GenChain p c fills vars →
      y.heap.objs.GenChain p c fills vars) : y.PhaseInv v p co ins phase := by
  cases phase with
  | awaitActivated => exact hvalue.trans h
  | interrupted => exact hvalue.trans h
  | awaitReady awaited =>
      exact ⟨hvalue.trans h.1, h.2.1, fun w hw =>
        (h.2.2 w hw).imp_right fun ⟨d, hd⟩ => ⟨d, hins w hw d hd⟩⟩
  | submitted args => exact ⟨hvalue.trans h.1, h.2.1, Network.mapM_mono hins h.2.2⟩
  | executing nodes args =>
      obtain ⟨hnone, ⟨c, fills, vars, rest, hco, hgen, hrest⟩, hargs⟩ := h
      exact ⟨hvalue.trans hnone, ⟨c, fills, vars, rest, hco, hchain c fills vars hgen, hrest⟩,
        Network.mapM_mono hins hargs⟩
  | finished =>
      obtain ⟨args, d, hargs, hans, hd⟩ := h
      exact ⟨args, d, Network.mapM_mono hins hargs, hanswered args d hans, hvalue.trans hd⟩

/-- A variable is not ready before its coroutine is finished. -/
lemma PhaseInv.value_eq_none {phase : CoroutinePhase} (h : x.PhaseInv v p co ins phase)
    (hphase : phase ≠ .finished) : x.value v = none := by
  cases phase with
  | awaitActivated => exact h
  | interrupted => exact h
  | finished => exact absurd rfl hphase
  | awaitReady awaited => exact h.1
  | submitted args => exact h.1
  | executing nodes args => exact h.1

/-- All inputs are ready. -/
lemma PhaseInv.exists_args (h : x.PhaseInv v p co ins (.awaitReady [])) :
    ∃ args, ins.mapM x.value = some args :=
  Network.exists_mapM fun w hw => (h.2.2 w hw).resolve_left List.not_mem_nil

/-- Every variable that is produced has its coroutine, and every coroutine variables. -/
structure FlowInv (x : SessionExecution) : Prop where
  heap : x.heap.HeapInv
  serves : ∀ co ∈ x.started, x.heap.Serves co
  flows : ∀ v p, x.heap.producer v = some p → ∃ co ∈ x.started, x.heap.RunsFor v p co ∧
    ∃ ins, x.heap.inputsOf v = some ins ∧ x.PhaseInv v p co ins (x.phase co)
  other : ∀ v, x.other v ≠ none → x.heap.producer v ≠ none

/-- What is known of a variable of the coroutine. -/
lemma FlowInv.phase (h : FlowInv x) (hp : x.heap.producer v = some p)
    (hruns : x.heap.RunsFor v p co) : co ∈ x.started ∧
      ∃ ins, x.heap.inputsOf v = some ins ∧ x.PhaseInv v p co ins (x.phase co) := by
  obtain ⟨co', hstarted, hruns', hphase⟩ := h.flows v p hp
  obtain rfl := hruns.unique hruns'
  exact ⟨hstarted, hphase⟩

/-- The outputs of a coroutine. -/
def Outputs (x : SessionExecution) (co : ExecutionCoroutine) (vs : List SvRef) : Prop :=
  ∀ w ∈ vs, ∃ q, x.heap.producer w = some q ∧ x.heap.RunsFor w q co

lemma FlowInv.outputs_unset (h : FlowInv x) (hvs : x.Outputs co vs)
    (hphase : x.phase co ≠ .finished) : ∀ w ∈ vs, x.value w = none := fun w hw => by
  obtain ⟨q, hq, hruns⟩ := hvs w hw
  obtain ⟨-, ins, -, hinv⟩ := h.phase hq hruns
  exact hinv.value_eq_none hphase

/-- One coroutine goes to another phase, and sets its variables at most. -/
lemma FlowInv.update (h : FlowInv x) {phase : CoroutinePhase} (hsets : Sets vs x y)
    (hvs : x.Outputs co vs) (hunset : ∀ w ∈ vs, x.value w = none)
    (hlog : ∀ v p, x.heap.producer v = some p → ¬ x.heap.RunsFor v p co → y.log p = x.log p)
    (hphase : ∀ v p ins, x.heap.producer v = some p → x.heap.RunsFor v p co →
      x.heap.inputsOf v = some ins → x.PhaseInv v p co ins (x.phase co) →
      y.PhaseInv v p co ins phase) : FlowInv (y.goto co phase) where
  heap := hsets.inv h.heap
  serves co' hco' := hsets.heap.serves_iff.mpr (h.serves co' (hsets.started ▸ hco'))
  flows v p hy := by
    have hp : x.heap.producer v = some p := by
      rw [← hsets.heap.producer]
      exact hy
    obtain ⟨co', hstarted, hruns, ins, hins, hinv⟩ := h.flows v p hp
    refine ⟨co', by rw [← hsets.started] at hstarted; exact hstarted,
      hsets.heap.runsFor_iff.mpr hruns, ins, hsets.heap.inputsOf_eq ▸ hins, ?_⟩
    show y.PhaseInv v p co' ins (Function.update y.phase co phase co')
    rw [Function.update_apply, hsets.phase]
    split_ifs with hco
    · subst hco
      exact hphase v p ins hp hruns hins hinv
    · have hno : ¬ x.heap.RunsFor v p co := fun hruns' => hco (hruns.unique hruns')
      have hv : v ∉ vs := fun hv => by
        obtain ⟨q, hq, hruns'⟩ := hvs v hv
        exact hno (Option.some.inj (hq.symm.trans hp) ▸ hruns')
      refine hinv.mono (hsets.value v hv) ?_ (fun w _ d => hsets.keeps hunset) ?_
      · rintro args d ⟨q, left, hq, hleft, rfl⟩
        obtain rfl := Option.some.inj (hp.symm.trans hq)
        exact ⟨p, left, hsets.heap.producer.symm ▸ hp, (hlog v p hp hno).trans hleft,
          by rw [hsets.heap.outputKey_eq]⟩
      · intro c fills vars hchain
        rw [hsets.heap.objs]
        exact hchain
  other v hv := by
    show y.heap.producer v ≠ none
    rw [hsets.heap.producer]
    by_cases hmem : v ∈ vs
    · obtain ⟨q, hq, -⟩ := hvs v hmem
      rw [hq]
      exact Option.some_ne_none q
    · exact h.other v (hsets.other v hmem ▸ hv)

/-- A coroutine that was started has inputs; if it has a variable, they are those of it. -/
lemma FlowInv.awaited (h : FlowInv x) (hco : co ∈ x.started) :
    ∃ awaited, x.heap.awaited co = .ok awaited ∧
      ∀ v p ins, x.heap.producer v = some p → x.heap.RunsFor v p co →
        x.heap.inputsOf v = some ins →
        (∀ w ∈ ins, w ∈ awaited) ∧ ∀ w ∈ awaited, w ∈ ins := by
  have hall : ∀ awaited, x.heap.awaited co = .ok awaited →
      ∀ v p ins, x.heap.producer v = some p → x.heap.RunsFor v p co →
        x.heap.inputsOf v = some ins →
        (∀ w ∈ ins, w ∈ awaited) ∧ ∀ w ∈ awaited, w ∈ ins := by
    intro awaited hok v p ins hp hruns hins
    obtain ⟨awaited', hok', hall⟩ := hruns.awaited hp hins
    obtain rfl := Except.ok.inj (hok.symm.trans hok')
    exact hall
  have hserves := h.serves co hco
  cases co with
  | completionChain c =>
      obtain ⟨v, p, hp, hruns⟩ := hserves
      obtain ⟨-, ins, hins, -⟩ := h.phase hp hruns
      obtain ⟨awaited, hok, -⟩ := hruns.awaited hp hins
      exact ⟨awaited, hok, hall awaited hok⟩
  | nativeFunc n =>
      obtain ⟨-, node, hnode, -⟩ := hserves
      have hok : x.heap.awaited (.nativeFunc n) = .ok (node.inputVars.map Prod.snd) := by
        rw [RequestHeap.awaited, hnode]
      exact ⟨_, hok, hall _ hok⟩

/-! ## Steps that are left -/

/-- The steps that are left behind a phase, for a coroutine that waits for `total` variables and
executes `nodes` nodes. -/
def stepsBehind (total nodes : ℕ) : CoroutinePhase → ℕ
  | .awaitActivated => total + nodes + 4
  | .awaitReady awaited => awaited.length + nodes + 3
  | .submitted _ => nodes + 2
  | .executing rest _ => rest.length + 1
  | .finished | .interrupted => 0

/-- The number of variables that a coroutine waits for. -/
def awaitedCount (s : RequestHeap) (co : ExecutionCoroutine) : ℕ :=
  match s.awaited co with
  | .error _ => 0
  | .ok awaited => awaited.length

/-- The number of nodes that a coroutine executes. -/
def nodesCount (s : RequestHeap) : ExecutionCoroutine → ℕ
  | .nativeFunc _ => 0
  | .completionChain c =>
      match s.objs.iter c with
      | .ok (some nodes) => nodes.length
      | _ => 0

/-- The steps that a coroutine has to go, at most. -/
def stepsLeft (s : RequestHeap) (co : ExecutionCoroutine) (phase : CoroutinePhase) : ℕ :=
  stepsBehind (awaitedCount s co) (nodesCount s co) phase

/-- The steps that the coroutines, the scheduler and the engines have to go, at most. -/
def pending (x : SessionExecution) : ℕ :=
  (x.started.map fun co => stepsLeft x.heap co (x.phase co)).sum

lemma stepsLeft_congr {s s' : RequestHeap} (h : s.ContentsOnly s') (co : ExecutionCoroutine)
    (phase : CoroutinePhase) : stepsLeft s' co phase = stepsLeft s co phase := by
  rw [stepsLeft, stepsLeft, awaitedCount, awaitedCount, h.awaited_eq]
  cases co <;> simp only [nodesCount, h.objs]

/-! ## The steps of a coroutine -/

/-- No coroutine with a variable was interrupted. -/
def NoneInterrupted (x : SessionExecution) : Prop :=
  ∀ v p co, x.heap.producer v = some p → x.heap.RunsFor v p co → x.phase co ≠ .interrupted

/-- An exception is raised. -/
def Action.raises : Action → Bool
  | .fail _ | .call _ (.error _) => true
  | _ => false

/-- What holds of the contents behind a step that makes no requests. -/
structure Computes (x y : SessionExecution) : Prop where
  heap : x.heap.ContentsOnly y.heap
  sources : ∀ w, x.heap.producer w = none → y.value w = x.value w
  keeps : ∀ w d, x.value w = some d → y.value w = some d

lemma Computes.refl (x : SessionExecution) : Computes x x :=
  ⟨.refl _, fun _ _ => rfl, fun _ _ h => h⟩

lemma Computes.trans (h : Computes x y) (h' : Computes y z) : Computes x z where
  heap := h.heap.trans h'.heap
  sources w hw := (h'.sources w (h.heap.producer ▸ hw)).trans (h.sources w hw)
  keeps w d hd := h'.keeps w d (h.keeps w d hd)

/-- What a step of a coroutine does. -/
structure Steps (a : Action) (x y : SessionExecution) : Prop where
  flow : FlowInv y
  computes : Computes x y
  less : y.pending < x.pending
  sound : a.raises = false → x.NoneInterrupted → y.NoneInterrupted

/-- One coroutine goes on. -/
lemma FlowInv.steps (h : FlowInv x) {a : Action} {phase : CoroutinePhase} (hco : co ∈ x.started)
    (hsets : Sets vs x y) (hvs : x.Outputs co vs) (hunset : ∀ w ∈ vs, x.value w = none)
    (hlog : ∀ v p, x.heap.producer v = some p → ¬ x.heap.RunsFor v p co → y.log p = x.log p)
    (hphase : ∀ v p ins, x.heap.producer v = some p → x.heap.RunsFor v p co →
      x.heap.inputsOf v = some ins → x.PhaseInv v p co ins (x.phase co) →
      y.PhaseInv v p co ins phase)
    (hless : stepsLeft x.heap co phase < stepsLeft x.heap co (x.phase co))
    (hsound : a.raises = false → phase = .interrupted → ∀ v p, ¬ x.heap.RunsFor v p co) :
    Steps a x (y.goto co phase) where
  flow := h.update hsets hvs hunset hlog hphase
  computes := by
    refine ⟨hsets.heap, fun w hw => hsets.value w fun hmem => ?_, fun w d => hsets.keeps hunset⟩
    obtain ⟨q, hq, -⟩ := hvs w hmem
    exact absurd (hw.symm.trans hq) (by simp)
  less := by
    show ((y.goto co phase).started.map _).sum < _
    rw [show (y.goto co phase).started = x.started from hsets.started]
    refine List.sum_lt_sum _ _ (fun co' _ => ?_) ⟨co, hco, ?_⟩
    · show stepsLeft y.heap co' (Function.update y.phase co phase co') ≤ _
      rw [stepsLeft_congr hsets.heap, Function.update_apply, hsets.phase]
      split_ifs with heq
      · exact heq ▸ hless.le
      · exact le_rfl
    · show stepsLeft y.heap co (Function.update y.phase co phase co) < _
      rw [stepsLeft_congr hsets.heap, Function.update_self]
      exact hless
  sound hquiet hnone v p co' hp hruns := by
    have hp : y.heap.producer v = some p := hp
    have hruns : y.heap.RunsFor v p co' := hruns
    rw [hsets.heap.producer] at hp
    rw [hsets.heap.runsFor_iff] at hruns
    show Function.update y.phase co phase co' ≠ .interrupted
    rw [Function.update_apply, hsets.phase]
    split_ifs with heq
    · exact fun hint => hsound hquiet hint v p (heq ▸ hruns)
    · exact hnone v p co' hp hruns

/-- One coroutine goes to another phase. -/
lemma FlowInv.goto (h : FlowInv x) {a : Action} {phase : CoroutinePhase} (hco : co ∈ x.started)
    (hphase : ∀ v p ins, x.heap.producer v = some p → x.heap.RunsFor v p co →
      x.heap.inputsOf v = some ins → x.PhaseInv v p co ins (x.phase co) →
      x.PhaseInv v p co ins phase)
    (hless : stepsLeft x.heap co phase < stepsLeft x.heap co (x.phase co))
    (hsound : a.raises = false → phase ≠ .interrupted) : Steps a x (x.goto co phase) :=
  h.steps hco (.refl [] x) (fun _ hw => absurd hw List.not_mem_nil)
    (fun _ hw => absurd hw List.not_mem_nil) (fun _ _ _ _ => rfl) hphase hless
    fun hquiet hint => absurd hint (hsound hquiet)

/-- `wait_activated` returns. -/
lemma FlowInv.activated (h : FlowInv x) (uuid3 : ℕ → Text → VarId)
    (hen : x.Enabled (.activated co)) :
    Steps (.activated co) x (x.apply uuid3 (.activated co)) := by
  obtain ⟨hco, hphase, -⟩ := hen
  obtain ⟨awaited, hok, hall⟩ := h.awaited hco
  have happly : x.apply uuid3 (.activated co) = x.goto co (.awaitReady awaited) := by
    rw [apply, hok]
  rw [happly]
  refine h.goto hco (fun v p ins hp hruns hins hinv => ?_) ?_ fun _ => by simp
  · obtain ⟨hsub, hsup⟩ := hall v p ins hp hruns hins
    rw [hphase] at hinv
    exact ⟨hinv, hsup, fun w hw => .inl (hsub w hw)⟩
  · rw [hphase, stepsLeft, stepsLeft, awaitedCount, hok]
    simp only [stepsBehind]
    omega

/-- `wait_ready` of a variable returns. -/
lemma FlowInv.ready (h : FlowInv x) (uuid3 : ℕ → Text → VarId) (hen : x.Enabled (.ready co)) :
    Steps (.ready co) x (x.apply uuid3 (.ready co)) := by
  obtain ⟨hco, hnext⟩ := hen
  unfold nextReady at hnext
  split at hnext
  · rename_i w awaited hphase
    have happly : x.apply uuid3 (.ready co) = x.goto co (.awaitReady awaited) := by
      rw [apply, hphase]
      rfl
    rw [happly]
    refine h.goto hco (fun v p ins hp hruns hins hinv => ?_) ?_ fun _ => by simp
    · rw [hphase] at hinv
      obtain ⟨hnone, hsub, hsup⟩ := hinv
      refine ⟨hnone, fun u hu => hsub u (List.mem_cons_of_mem _ hu), fun u hu => ?_⟩
      rcases hsup u hu with hu | hu
      · rcases List.mem_cons.mp hu with rfl | hu
        · exact .inr (Option.isSome_iff_exists.mp hnext)
        · exact .inl hu
      · exact .inr hu
    · rw [hphase, stepsLeft, stepsLeft]
      simp only [stepsBehind, List.length_cons]
      omega
  · cases hnext

/-- The variable that a chain is for, and what is known of it. -/
lemma FlowInv.chain (h : FlowInv x) (hco : .completionChain c ∈ x.started) :
    ∃ v p fills vars, x.heap.producer v = some p ∧ x.heap.RunsFor v p (.completionChain c) ∧
      x.heap.objs.GenChain p c fills vars ∧ x.heap.inputsOf v = some vars ∧
      x.PhaseInv v p (.completionChain c) vars (x.phase (.completionChain c)) ∧
      ∀ v' p', x.heap.producer v' = some p' → x.heap.RunsFor v' p' (.completionChain c) →
        v' = v ∧ p' = p := by
  obtain ⟨v, p, hp, hruns⟩ := h.serves _ hco
  obtain ⟨-, ins, hins, hinv⟩ := h.phase hp hruns
  obtain ⟨hnone, hsv, fills, vars, hchain⟩ := id hruns
  rw [inputsOf_chain hp hnone hchain] at hins
  obtain rfl := Option.some.inj hins
  refine ⟨v, p, fills, vars, hp, hruns, hchain, inputsOf_chain hp hnone hchain, hinv,
    fun v' p' _ hruns' => ?_⟩
  obtain rfl := hruns'.producer_unique hruns
  exact ⟨Option.some.inj (hruns'.2.1.symm.trans hsv), rfl⟩

/-- The task is submitted with the contents of the inputs. -/
lemma FlowInv.submit (h : FlowInv x) (uuid3 : ℕ → Text → VarId) (hen : x.Enabled (.submit c)) :
    Steps (.submit c) x (x.apply uuid3 (.submit c)) := by
  obtain ⟨hco, hready⟩ := hen
  have hphase : x.phase (.completionChain c) = .awaitReady [] := of_decide_eq_true hready
  obtain ⟨v, p, fills, vars, -, -, hchain, hins, hinv, huniq⟩ := h.chain hco
  rw [hphase] at hinv
  obtain ⟨args, hargs⟩ := hinv.exists_args
  have happly : x.apply uuid3 (.submit c) = x.goto (.completionChain c) (.submitted args) := by
    rw [apply, tokenizeChain_ok hchain hargs]
  rw [happly]
  refine h.goto hco (fun v' p' ins' hp' hruns' hins' _ => ?_) ?_ fun _ => by simp
  · obtain ⟨rfl, rfl⟩ := huniq v' p' hp' hruns'
    obtain rfl := Option.some.inj (hins'.symm.trans hins)
    exact ⟨hinv.1, ⟨c, rfl⟩, hargs⟩
  · rw [hphase, stepsLeft, stepsLeft]
    simp only [stepsBehind, List.length_nil]
    omega

/-- The task is scheduled, and executes the nodes of its chain. -/
lemma FlowInv.scheduled (h : FlowInv x) (uuid3 : ℕ → Text → VarId)
    (hen : x.Enabled (.scheduled c)) :
    Steps (.scheduled c) x (x.apply uuid3 (.scheduled c)) := by
  obtain ⟨hco, hsubmitted⟩ := hen
  obtain ⟨v, p, fills, vars, -, -, hchain, hins, hinv, huniq⟩ := h.chain hco
  unfold isSubmitted at hsubmitted
  split at hsubmitted
  · rename_i args hphase
    rw [hphase] at hinv
    have hrest : executingRest (fills ++ [p]) args = .executing (fills ++ [p]) args := by
      cases fills <;> rfl
    have happly : x.apply uuid3 (.scheduled c) =
        x.goto (.completionChain c) (.executing (fills ++ [p]) args) := by
      rw [apply, hphase]
      dsimp only
      rw [hchain.iter_eq, ← hrest]
    rw [happly]
    refine h.goto hco (fun v' p' ins' hp' hruns' hins' _ => ?_) ?_ fun _ => by simp
    · obtain ⟨rfl, rfl⟩ := huniq v' p' hp' hruns'
      obtain rfl := Option.some.inj (hins'.symm.trans hins)
      exact ⟨hinv.1, ⟨c, fills, _, fills, rfl, hchain, List.suffix_refl _, rfl⟩, hinv.2.2⟩
    · rw [hphase, stepsLeft, stepsLeft, nodesCount, hchain.iter_eq]
      simp only [stepsBehind]
      omega
  · cases hsubmitted

/-- The nodes that are left of a chain: the Gen node is the last one. -/
lemma FlowInv.nodes (h : FlowInv x) {isGen : Bool}
    (hco : .completionChain c ∈ x.started) (hcomes : x.comesTo isGen (.completionChain c) = true) :
    ∃ v p vars rest args, x.heap.producer v = some p ∧
      x.heap.RunsFor v p (.completionChain c) ∧ x.heap.inputsOf v = some vars ∧
      x.value v = none ∧ vars.mapM x.value = some args ∧
      x.phase (.completionChain c) = .executing (rest ++ [p]) args ∧ (isGen = true ↔ rest = []) ∧
      (∀ rest', rest' <:+ rest →
        x.PhaseInv v p (.completionChain c) vars (.executing (rest' ++ [p]) args)) ∧
      ∀ v' p', x.heap.producer v' = some p' → x.heap.RunsFor v' p' (.completionChain c) →
        v' = v ∧ p' = p := by
  obtain ⟨v, p, fills, vars, hp, hruns, hchain, hins, hinv, huniq⟩ := h.chain hco
  unfold comesTo at hcomes
  split at hcomes
  · rename_i n nodes args hphase
    rw [hphase] at hinv
    obtain ⟨hunset, ⟨c', fills', vars', rest, hc, hchain', hsuffix, hnodes⟩, hargs⟩ := hinv
    have hn : (x.heap.objs.node n).isGen = isGen := by simpa using hcomes
    refine ⟨v, p, vars, rest, args, hp, hruns, hins, hunset, hargs, hnodes ▸ hphase, ?_,
      fun rest' hrest' => ⟨hunset, ⟨c', fills', vars', rest', hc, hchain', hrest'.trans hsuffix,
        rfl⟩, hargs⟩, huniq⟩
    rw [← hn]
    cases rest with
    | nil =>
        obtain ⟨rfl, -⟩ := List.cons.inj hnodes
        exact ⟨fun _ => rfl, fun _ => hchain'.gen⟩
    | cons m rest =>
        obtain ⟨rfl, -⟩ := List.cons.inj hnodes
        have hfill := hchain'.isFill n (hsuffix.subset List.mem_cons_self)
        exact ⟨fun hgen => absurd (hgen.symm.trans hfill) (by simp),
          fun hnil => absurd hnil (by simp)⟩
  · cases hcomes

/-- The context of a Fill node is ready. -/
lemma FlowInv.nodeDone (h : FlowInv x) (uuid3 : ℕ → Text → VarId)
    (hen : x.Enabled (.nodeDone c)) :
    Steps (.nodeDone c) x (x.apply uuid3 (.nodeDone c)) := by
  obtain ⟨hco, hcomes⟩ := hen
  obtain ⟨v, p, vars, rest, args, -, -, hins, -, -, hphase, hgen, hinv, huniq⟩ :=
    h.nodes hco hcomes
  obtain _ | ⟨n, rest⟩ := rest
  · exact absurd (hgen.mpr rfl) (by simp)
  have happly : x.apply uuid3 (.nodeDone c) =
      x.goto (.completionChain c) (.executing (rest ++ [p]) args) := by
    rw [apply, hphase]
    cases rest <;> rfl
  rw [happly]
  refine h.goto hco (fun v' p' ins' hp' hruns' hins' _ => ?_) ?_ fun _ => by simp
  · obtain ⟨rfl, rfl⟩ := huniq v' p' hp' hruns'
    obtain rfl := Option.some.inj (hins'.symm.trans hins)
    exact hinv rest (List.suffix_cons n rest)
  · rw [hphase, stepsLeft, stepsLeft]
    simp only [stepsBehind, List.length_append, List.length_cons]
    omega

/-- A producer that another coroutine runs for is another one. -/
lemma FlowInv.ne_producer (h : FlowInv x) (hruns : x.heap.RunsFor v p co)
    (hq : x.heap.producer w = some q) (hno : ¬ x.heap.RunsFor w q co) : q ≠ p := by
  rintro rfl
  obtain ⟨co', -, hruns', -⟩ := h.flows w q hq
  exact hno (hruns.unique hruns' ▸ hruns')

/-- What is logged is no content. -/
lemma Sets.logged (x : SessionExecution)
    (log : NodeRef → Option (List PyValue × (Text → PyValue))) : Sets [] x { x with log } :=
  ⟨.refl _, id, rfl, rfl, fun _ _ => rfl, fun _ _ => rfl⟩

/-- `Generate` is answered: the output holds the text that was generated. -/
lemma FlowInv.answer (h : FlowInv x) (uuid3 : ℕ → Text → VarId) {text : Text}
    (hen : x.Enabled (.answer c text)) :
    Steps (.answer c text) x (x.apply uuid3 (.answer c text)) := by
  obtain ⟨hco, hcomes⟩ := hen
  obtain ⟨v, p, vars, rest, args, hp, hruns, hins, hunset, hargs, hphase, hgen, -, huniq⟩ :=
    h.nodes hco hcomes
  obtain rfl : rest = [] := hgen.mp rfl
  let asked : SessionExecution :=
    { x with log := Function.update x.log p (some (args, fun _ => .str text)) }
  have hasked : asked.value v = none := hunset
  obtain ⟨hok, hvalue⟩ := set_ok hasked (.str text)
  have hset : asked.set v (.str text) = (.ok (), (asked.set v (.str text)).2) := Prod.ext hok rfl
  have hsets : Sets [v] x (asked.set v (.str text)).2 :=
    (Sets.logged x _).trans (set_sets asked v (.str text))
  have hlog : (asked.set v (.str text)).2.log = asked.log := set_log asked v (.str text)
  have happly : x.apply uuid3 (.answer c text) =
      (asked.set v (.str text)).2.goto (.completionChain c) .finished := by
    rw [apply, hphase]
    simp only [List.nil_append, SessionExecution.answer, nodeSv, hruns.2.1]
    rw [show asked.set v (.str text) = _ from hset]
    rfl
  rw [happly]
  refine h.steps hco hsets (fun w hw => ?_) (fun w hw => ?_) (fun w q hq hno => ?_)
    (fun v' p' ins' hp' hruns' hins' _ => ?_) ?_ fun _ hint => by cases hint
  · obtain rfl := List.mem_singleton.mp hw
    exact ⟨p, hp, hruns⟩
  · obtain rfl := List.mem_singleton.mp hw
    exact hunset
  · rw [hlog]
    exact Function.update_of_ne (h.ne_producer hruns hq hno) _ _
  · obtain ⟨rfl, rfl⟩ := huniq v' p' hp' hruns'
    obtain rfl := Option.some.inj (hins'.symm.trans hins)
    refine ⟨args, .str text, Network.mapM_mono (fun w _ d => hsets.keeps fun u hu => ?_) hargs,
      ⟨_, fun _ => .str text, hsets.heap.producer.symm ▸ hp, ?_, rfl⟩, hvalue⟩
    · obtain rfl := List.mem_singleton.mp hu
      exact hunset
    · rw [hlog]
      exact Function.update_self _ _ _
  · rw [hphase, stepsLeft, stepsLeft]
    simp only [stepsBehind, List.length_append, List.length_cons]
    omega

/-- An exception interrupts a coroutine that has set nothing. -/
lemma FlowInv.interrupted (h : FlowInv x) {a : Action} (hco : co ∈ x.started)
    (hphase : x.hasEnded co = false) (hsound : a.raises = false → ∀ v p, ¬ x.heap.RunsFor v p co) :
    Steps a x (x.goto co .interrupted) := by
  unfold hasEnded at hphase
  refine h.steps hco (.refl [] x) (fun _ hw => absurd hw List.not_mem_nil)
    (fun _ hw => absurd hw List.not_mem_nil) (fun _ _ _ _ => rfl) (fun v p ins _ _ _ hinv => ?_) ?_
    fun hquiet _ => hsound hquiet
  · refine hinv.value_eq_none fun hfinished => ?_
    rw [hfinished] at hphase
    cases hphase
  · show 0 < stepsBehind _ _ _
    cases hcases : x.phase co with
    | finished =>
        rw [hcases] at hphase
        cases hphase
    | interrupted =>
        rw [hcases] at hphase
        cases hphase
    | awaitActivated => exact Nat.succ_pos _
    | awaitReady awaited => exact Nat.succ_pos _
    | submitted args => exact Nat.succ_pos _
    | executing rest args => exact Nat.succ_pos _

/-- The native function is called with the contents of its inputs, and its outputs hold what it
left; or it raises. -/
lemma FlowInv.call (h : FlowInv x) (uuid3 : ℕ → Text → VarId)
    {result : Except PyError (Text → PyValue)} (hen : x.Enabled (.call n result)) :
    Steps (.call n result) x (x.apply uuid3 (.call n result)) := by
  obtain ⟨hco, hready⟩ := hen
  have hphase : x.phase (.nativeFunc n) = .awaitReady [] := of_decide_eq_true hready
  obtain ⟨hlt, node, hnode, hnodup, hproduced⟩ := h.serves _ hco
  have hruns : ∀ v ∈ node.outputVars.map Prod.snd, x.heap.RunsFor v n (.nativeFunc n) :=
    fun v hv => ⟨rfl, hlt, node, hnode, hv, hnodup⟩
  have hvs : x.Outputs (.nativeFunc n) (node.outputVars.map Prod.snd) :=
    fun v hv => ⟨n, hproduced v hv, hruns v hv⟩
  have hunset := h.outputs_unset hvs (by rw [hphase]; simp)
  have hended : x.hasEnded (.nativeFunc n) = false := by rw [hasEnded, hphase]
  -- The arguments, if there is an output that they are for.
  have hinputs : ∀ v p, x.heap.RunsFor v p (.nativeFunc n) →
      x.heap.inputsOf v = some (node.inputVars.map Prod.snd) ∧
        ∃ args, (node.inputVars.map Prod.snd).mapM x.value = some args := by
    intro v p hruns'
    obtain ⟨rfl, -, node', hnode', hv, -⟩ := hruns'
    obtain rfl := Option.some.inj (hnode.symm.trans hnode')
    have hins := inputsOf_native (hproduced v hv) hnode
    obtain ⟨-, ins, hins', hinv⟩ := h.phase (hproduced v hv) (hruns v hv)
    obtain rfl := Option.some.inj (hins'.symm.trans hins)
    rw [hphase] at hinv
    exact ⟨hins, hinv.exists_args⟩
  rw [apply, SessionExecution.call, hnode]
  dsimp only
  split
  · rename_i e hraise
    refine h.interrupted hco hended fun _ v p hruns' => ?_
    obtain ⟨-, args, hargs⟩ := hinputs v p hruns'
    rw [readInputs_eq hargs] at hraise
    cases hraise
  · rename_i args hread
    cases result with
    | error e => exact h.interrupted hco hended fun hraises => by cases hraises
    | ok proxies =>
        dsimp only
        let asked : SessionExecution :=
          { x with log := Function.update x.log n (some (args, proxies)) }
        obtain ⟨y, hback, hsets, hlog, hall⟩ := writeBack_ok proxies node.outputVars (x := asked)
          hnodup hunset
        rw [show writeBack proxies node.outputVars asked = _ from hback]
        have hsets : Sets (node.outputVars.map Prod.snd) x y := (Sets.logged x _).trans hsets
        refine h.steps hco hsets hvs hunset (fun w q hq hno => ?_)
          (fun v p ins hp hruns' hins hinv => ?_) ?_ fun _ hint => by cases hint
        · have hne : q ≠ n := by
            rintro rfl
            obtain ⟨co', -, hruns', -⟩ := h.flows w q hq
            cases co' with
            | completionChain c => exact absurd (hruns'.1.symm.trans hnode) (by simp)
            | nativeFunc m => exact hno (hruns'.1 ▸ hruns')
          rw [hlog]
          exact Function.update_of_ne hne _ _
        · obtain ⟨hins', args', hargs⟩ := hinputs v p hruns'
          obtain rfl := Option.some.inj (hins'.symm.trans hins)
          obtain rfl := Except.ok.inj ((readInputs_eq hargs).symm.trans hread)
          obtain ⟨rfl, -, node', hnode', hv, -⟩ := hruns'
          obtain rfl := Option.some.inj (hnode.symm.trans hnode')
          obtain ⟨o, ho, rfl⟩ := List.mem_map.mp hv
          refine ⟨args', proxies o.1, Network.mapM_mono (fun w _ d => hsets.keeps hunset) hargs,
            ⟨_, proxies, hsets.heap.producer.symm ▸ hp, ?_, ?_⟩, hall o ho⟩
          · rw [hlog]
            exact Function.update_self _ _ _
          · rw [hsets.heap.outputKey_eq, outputKey_eq hnode hnodup ho hp]
        · rw [hphase, stepsLeft, stepsLeft]
          simp only [stepsBehind]
          omega

/-- **One step** of a coroutine. -/
lemma FlowInv.step (h : FlowInv x) (uuid3 : ℕ → Text → VarId) {a : Action}
    (ha : a.isCoroutine = true) (hen : x.Enabled a) : Steps a x (x.apply uuid3 a) := by
  cases a with
  | request a => cases ha
  | activated co => exact h.activated uuid3 hen
  | ready co => exact h.ready uuid3 hen
  | submit c => exact h.submit uuid3 hen
  | scheduled c => exact h.scheduled uuid3 hen
  | nodeDone c => exact h.nodeDone uuid3 hen
  | answer c text => exact h.answer uuid3 hen
  | call n result => exact h.call uuid3 hen
  | fail co => exact h.interrupted hen.1 hen.2 fun hraises => by cases hraises

/-! ## Requests and clients -/

/-- What the network needs of the requests, at any point of a run. -/
def Admitted (uuid3 : ℕ → Text → VarId) (x : SessionExecution) : Action → Prop
  | .request a => x.heap.Admitted uuid3 a
  | _ => True

lemma not_new_of_runsFor {s : RequestHeap} (h : s.Ordered) (hruns : s.RunsFor v p co) :
    ¬ s.IsNewCoroutine co := by
  cases co with
  | completionChain c =>
      obtain ⟨-, -, fills, vars, hchain⟩ := hruns
      exact (h.forward.chain hchain.gen hchain.chain).1.not_ge
  | nativeFunc n =>
      obtain ⟨rfl, hlt, -⟩ := hruns
      exact hlt.not_ge

/-- What was there before a request. -/
lemma Launches.serves_old {s s' : RequestHeap} {new : List ExecutionCoroutine}
    (h : Launches new s s') (hord : s.Ordered) (hserves : s.Serves co) : s'.Serves co := by
  cases co with
  | completionChain c =>
      obtain ⟨v, p, hp, hruns⟩ := hserves
      exact ⟨v, p, h.kept v p hp,
        hruns.congr hord.forward h.nextNode h.node h.chain h.native⟩
  | nativeFunc n =>
      obtain ⟨hlt, node, hnode, hnodup, hproduced⟩ := hserves
      exact ⟨hlt.trans_le h.nextNode, node, (h.native n hlt).trans hnode, hnodup,
        fun v hv => h.kept v n (hproduced v hv)⟩

/-- What a request leaves of the coroutines and the contents. -/
structure Requested (x y : SessionExecution) : Prop where
  flow : FlowInv y
  keeps : ∀ v d, v < x.heap.vars.next → x.value v = some d → y.value v = some d
  sound : x.NoneInterrupted → y.NoneInterrupted

/-- A client sets a variable that nobody produces. -/
lemma FlowInv.setSource (h : FlowInv x) (uuid3 : ℕ → Text → VarId) {content : Text}
    (hsource : x.heap.producer v = none) :
    Requested x (x.apply uuid3 (.request (.set v content))) := by
  have hsets : Sets [v] x (x.set v (.str content)).2 := set_sets x v (.str content)
  have hlog : (x.set v (.str content)).2.log = x.log := set_log x v (.str content)
  have hother : x.other v = none := by
    by_contra hne
    exact h.other v hne hsource
  have hkeeps : ∀ w d, x.value w = some d → (x.set v (.str content)).2.value w = some d := by
    intro w d hd
    by_cases hw : w = v
    · subst hw
      have hblank : x.isBlank w = false := by
        unfold value at hd
        unfold isBlank value
        cases hcontent : x.heap.content w with
        | none =>
            rw [hcontent] at hd
            exact absurd (hother.symm.trans hd) (by simp)
        | some text => simp
      rw [set, if_neg (by rw [hblank]; simp)]
      exact hd
    · rw [hsets.value w (by simpa using hw), hd]
  show Requested x (x.set v (.str content)).2
  refine ⟨⟨hsets.inv h.heap, fun co hco => ?_, fun w p hp => ?_, fun w hw => ?_⟩,
    fun w d _ => hkeeps w d, fun hnone w p co hp hruns => ?_⟩
  · exact hsets.heap.serves_iff.mpr (h.serves co (hsets.started ▸ hco))
  · rw [hsets.heap.producer] at hp
    obtain ⟨co, hco, hruns, ins, hins, hinv⟩ := h.flows w p hp
    refine ⟨co, hsets.started.symm ▸ hco, hsets.heap.runsFor_iff.mpr hruns, ins,
      hsets.heap.inputsOf_eq ▸ hins, ?_⟩
    have hw : w ∉ [v] := fun hmem => by
      obtain rfl := List.mem_singleton.mp hmem
      exact absurd (hsource.symm.trans hp) (by simp)
    rw [hsets.phase]
    refine hinv.mono (hsets.value w hw) ?_ (fun u _ d => hkeeps u d) fun c fills vars hchain => by
      rw [hsets.heap.objs]
      exact hchain
    rintro args d ⟨q, left, hq, hleft, rfl⟩
    exact ⟨q, left, hsets.heap.producer.symm ▸ hq, by rw [hlog]; exact hleft,
      by rw [hsets.heap.outputKey_eq]⟩
  · rw [hsets.heap.producer]
    by_cases hmem : w ∈ [v]
    · obtain rfl := List.mem_singleton.mp hmem
      have hsame : (x.set w (.str content)).2.other = x.other := by
        unfold set
        split_ifs <;> rfl
      exact absurd hother (hsame ▸ hw)
    · exact h.other w (hsets.other w hmem ▸ hw)
  · rw [hsets.heap.producer] at hp
    rw [hsets.phase]
    exact hnone w p co hp (hsets.heap.runsFor_iff.mp hruns)

/-- A request of a client that sets no variable. -/
lemma apply_request (x : SessionExecution) {a : RequestHeap.Action}
    (hset : ∀ v content, a ≠ .set v content) :
    x.apply uuid3 (.request a) = { x with
      heap := x.heap.apply uuid3 a
      started := x.started ++ x.heap.newCoroutines (x.heap.apply uuid3 a) a
      phase := fun co =>
        if co ∈ x.heap.newCoroutines (x.heap.apply uuid3 a) a then .awaitActivated
        else x.phase co } := by
  cases a with
  | set v content => exact absurd rfl (hset v content)
  | _ => rfl

/-- **Requests and clients** keep what coroutines know. -/
lemma FlowInv.request (h : FlowInv x) {a : RequestHeap.Action}
    (hadmitted : x.heap.Admitted uuid3 a) :
    Requested x (x.apply uuid3 (.request a)) := by
  by_cases hset : ∃ v content, a = .set v content
  · obtain ⟨v, content, rfl⟩ := hset
    exact h.setSource uuid3 hadmitted.2
  push Not at hset
  obtain ⟨hlaunch, -⟩ := h.heap.launches hadmitted hset
  have hord := h.heap.ordered
  have hinv := h.heap.apply a hadmitted
  rw [x.apply_request hset]
  generalize x.heap.newCoroutines (x.heap.apply uuid3 a) a = new at hlaunch ⊢
  generalize x.heap.apply uuid3 a = s at hlaunch hinv ⊢
  have hcontent : ∀ v < x.heap.vars.next, s.content v = x.heap.content v := fun v hv => by
    rw [RequestHeap.content, RequestHeap.content, hlaunch.vars.obj v hv]
  set y : SessionExecution := { x with
    heap := s
    started := x.started ++ new
    phase := fun co => if co ∈ new then .awaitActivated else x.phase co } with hy
  have hvalue : ∀ v < x.heap.vars.next, y.value v = x.value v := fun v hv => by
    simp only [value, hy, hcontent v hv]
  have hold : ∀ v p co, x.heap.producer v = some p → x.heap.RunsFor v p co → co ∉ new :=
    fun v p co _ hruns hmem => not_new_of_runsFor hord hruns (hlaunch.new co hmem)
  refine ⟨⟨hinv, fun co hco => ?_, fun v p hp => ?_, fun v hv => ?_⟩,
    fun v d hv hd => (hvalue v hv).trans hd, fun hnone v p co hp hruns => ?_⟩
  · rcases List.mem_append.mp hco with hco | hco
    · exact Launches.serves_old hlaunch hord (h.serves co hco)
    · exact hlaunch.serves co hco
  · rcases hlaunch.fresh v p hp with hp | ⟨hge, hnone, co, hco, hruns⟩
    · obtain ⟨co, hco, hruns, ins, hins, hphase⟩ := h.flows v p hp
      refine ⟨co, List.mem_append_left _ hco,
        hruns.congr hord.forward hlaunch.nextNode hlaunch.node hlaunch.chain hlaunch.native, ins,
        (hlaunch.inputsOf_eq hord h.heap.runs hp).trans hins, ?_⟩
      show y.PhaseInv v p co ins (if co ∈ new then .awaitActivated else x.phase co)
      rw [if_neg (hold v p co hp hruns)]
      refine hphase.mono (hvalue v (hord.writes (hord.producer hp)).2) ?_ (fun w hw d hd => ?_)
        fun c fills vars hchain =>
          hchain.congr hord.forward hlaunch.nextNode hlaunch.node hlaunch.chain
      · rintro args d ⟨q, left, hq, hleft, rfl⟩
        exact ⟨q, left, hlaunch.kept v q hq, hleft,
          by rw [← hlaunch.outputKey_eq h.heap.runs hp]⟩
      · rw [hvalue w (hord.inputs_before hp hruns hins hw).1, hd]
    · obtain ⟨ins, hins⟩ : ∃ ins, s.inputsOf v = some ins :=
        Option.ne_none_iff_exists'.mp fun hnone =>
          absurd ((inputsOf_eq_none.mp hnone).symm.trans hp) (by simp)
      refine ⟨co, List.mem_append_right _ hco, hruns, ins, hins, ?_⟩
      show y.PhaseInv v p co ins (if co ∈ new then .awaitActivated else x.phase co)
      rw [if_pos hco]
      refine value_eq_none.mpr ⟨hnone, ?_⟩
      by_contra hother
      obtain ⟨q, hq⟩ := Option.ne_none_iff_exists'.mp (h.other v hother)
      exact absurd (hord.writes (hord.producer hq)).2 hge.not_gt
  · obtain ⟨q, hq⟩ := Option.ne_none_iff_exists'.mp (h.other v hv)
    show s.producer v ≠ none
    rw [hlaunch.kept v q hq]
    exact Option.some_ne_none q
  · show (if co ∈ new then CoroutinePhase.awaitActivated else x.phase co) ≠ .interrupted
    split_ifs with hmem
    · simp
    · rcases hlaunch.fresh v p hp with hp | ⟨-, -, co', hco', hruns'⟩
      · obtain ⟨co', -, hruns', -⟩ := h.flows v p hp
        have hsame := hruns'.congr hord.forward hlaunch.nextNode hlaunch.node hlaunch.chain
          hlaunch.native
        exact hnone v p co hp (hruns.unique hsame ▸ hruns')
      · exact absurd (hruns'.unique hruns ▸ hco') hmem

/-! ## Every run -/

lemma flowInv_start (timeout : ℕ) : FlowInv (start timeout) where
  heap := heapInv_start timeout
  serves _ h := absurd h List.not_mem_nil
  flows _ _ h := by cases h
  other _ h := absurd rfl h

/-- What coroutines know holds in every run. -/
lemma flowInvariant (uuid3 : ℕ → Text → VarId) (timeout : ℕ) :
    (system uuid3 timeout).IsInvariantUnder (Admitted uuid3) FlowInv where
  init x h0 := by
    obtain rfl := h0
    exact flowInv_start timeout
  step x a x' h hadmitted hstep := by
    obtain ⟨hen, rfl⟩ := hstep
    cases a with
    | request a => exact (h.request hadmitted).flow
    | _ => exact (h.step uuid3 rfl hen).flow

/-- A content stays. -/
lemma FlowInv.keeps (h : FlowInv x) {a : Action} (hadmitted : x.Admitted uuid3 a)
    (hen : x.Enabled a) (hv : v < x.heap.vars.next) (hd : x.value v = some d) :
    (x.apply uuid3 a).value v = some d := by
  cases a with
  | request a => exact (h.request hadmitted).keeps v d hv hd
  | _ => exact (h.step uuid3 rfl hen).computes.keeps v d hd

/-- What the network needs, and nobody raises. -/
def Peaceful (uuid3 : ℕ → Text → VarId) (x : SessionExecution) (a : Action) : Prop :=
  x.Admitted uuid3 a ∧ a.raises = false

/-- `hi{{x}}` -/
def greeting : SemanticCallPayload :=
  templatePayload (['h', 'i'] ++ placeholderSource ['x']) [] [['x']]

/-- A request, a native function on its output, and a request on the output of that, with a
criteria.  -/
def greetingRun : List Action :=
  [.request (.registerSession 0), .request (.addRequest 0 0 greeting),
    .request (.registerSemanticVariable 0 ['u']), .request (.addNativeRequest 0 nativeOnOutput),
    .request (.addRequest 0 0 afterNative)]

/-- The state behind these requests. -/
def greetingState : SessionExecution :=
  greetingRun.foldl (fun x a => x.apply escapeUuid3 a) (start 1)

/-- The requests of a run that returned the ids it uses, without exceptions. -/
def ReturnedOnly (x : SessionExecution) : Action → Prop
  | .request a => x.heap.ReturnedArguments a ∧ x.heap.SingleWriter a
  | a => a.raises = false

instance (x : SessionExecution) : ∀ a, Decidable (x.ReturnedOnly a)
  | .request _ => inferInstanceAs (Decidable (_ ∧ _))
  | .activated _ | .ready _ | .submit _ | .scheduled _ | .nodeDone _ | .answer _ _ | .call _ _
  | .fail _ => inferInstanceAs (Decidable (_ = false))

lemma ReturnedOnly.peaceful {a : Action} (h : x.ReturnedOnly a) : Peaceful uuid3 x a := by
  cases a with
  | request a => exact ⟨⟨h.1.known, h.2⟩, rfl⟩
  | _ => exact ⟨trivial, h⟩

lemma greetingState_reachable :
    (system escapeUuid3 1).ReachableUnder (Peaceful escapeUuid3) greetingState := by
  have hrun : Performs Enabled ReturnedOnly (fun x a => x.apply escapeUuid3 a) (start 1)
      greetingRun := by
    decide +kernel
  exact ReachableUnder.foldl greetingRun (.init rfl) (hrun.mono fun _ _ h => h.peaceful)

end SessionExecution

end ParrotServe
