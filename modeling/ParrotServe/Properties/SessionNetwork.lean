import ParrotServe.Framework.Dataflow
import ParrotServe.Properties.LaunchedCoroutines

/-!
# The network of variables

The variables of all sessions are a single-assignment network: those without a producer are its
sources, and every other one is computed from what its completion chain or its native function
reads (`inputsOf`).  In an ordered heap it is acyclic, since a producer is constructed behind the
producers of what it reads.

`HeapInv` is what requests keep, if they have at most one output and native functions no initial
values for theirs: every producer has a coroutine that runs for it, and a variable that is activated
has inputs that are (`ActivationClosed`).  `_traverse` activates a variable behind everything it
depends on, so this also holds when it raises half way.
-/

namespace ParrotServe

open GraphObjects SemanticVariableManager

namespace RequestHeap

variable {uuid3 : ℕ → Text → VarId} {s s' s'' : RequestHeap} {n p : NodeRef} {v w : SvRef}
  {c : ChainRef} {sessionId requestId now : ℕ} {new : List ExecutionCoroutine}

/-! ## What a variable is computed from -/

/-- What the producer of a variable reads. -/
def inputsOf (s : RequestHeap) (v : SvRef) : Option (List SvRef) :=
  (s.producer v).map fun p =>
    match s.native p with
    | some node => node.inputVars.map Prod.snd
    | none => ((s.objs.node p).completionChain.map s.consumed).getD []

/-- The name of the proxy for an output of a native function. -/
def outputKey (s : RequestHeap) (v : SvRef) : Text :=
  match (s.producer v).bind s.native with
  | none => []
  | some node =>
      ((node.outputVars.find? fun output => decide (output.2 = v)).map Prod.fst).getD []

/-- The variables of all sessions. -/
def network (s : RequestHeap) : Network SvRef := s.inputsOf

lemma inputsOf_eq_none : s.inputsOf v = none ↔ s.producer v = none := Option.map_eq_none_iff

/-- The variables of the Fill nodes of a chain. -/
lemma consumed_eq {fills : List NodeRef} {vars : List SvRef}
    (h : s.objs.GenChain p c fills vars) : s.consumed c = vars := by
  have hmap : fills.filterMap (fun n => (s.objs.node n).sv) =
      (fills.map fun n => (s.objs.node n).sv).filterMap id := by
    rw [List.filterMap_map]
    rfl
  rw [consumed, h.iterFill_eq]
  dsimp only
  rw [hmap, h.svs, List.filterMap_map]
  exact List.filterMap_some

lemma inputsOf_chain {fills : List NodeRef} {vars : List SvRef} (hp : s.producer v = some p)
    (hnative : s.native p = none) (h : s.objs.GenChain p c fills vars) :
    s.inputsOf v = some vars := by
  rw [inputsOf, hp, Option.map_some, hnative]
  dsimp only
  rw [h.chain, Option.map_some, Option.getD_some, consumed_eq h]

lemma inputsOf_native {node : NativeFuncNode} (hp : s.producer v = some p)
    (hnode : s.native p = some node) : s.inputsOf v = some (node.inputVars.map Prod.snd) := by
  rw [inputsOf, hp, Option.map_some, hnode]

/-- Somebody who reads a variable of the chain, or of the function. -/
lemma GenChain.exists_reads {g : GraphObjects} {fills : List NodeRef} {vars : List SvRef}
    (h : g.GenChain p c fills vars) (hw : w ∈ vars) : ∃ n ∈ fills, (g.node n).sv = some w := by
  have hmem : some w ∈ fills.map fun n => (g.node n).sv := by
    rw [h.svs]
    exact List.mem_map_of_mem hw
  obtain ⟨n, hn, hsv⟩ := List.mem_map.mp hmem
  exact ⟨n, hn, hsv⟩

/-- What a producer reads is there, and has an earlier producer or none. -/
lemma Ordered.inputs_before (h : s.Ordered) {co : ExecutionCoroutine}
    (hp : s.producer v = some p) (hruns : s.RunsFor v p co) {ins : List SvRef}
    (hins : s.inputsOf v = some ins) (hw : w ∈ ins) :
    w < s.vars.next ∧ ∀ q, s.producer w = some q → q < p := by
  cases co with
  | completionChain c =>
      obtain ⟨hnative, -, fills, vars, hchain⟩ := hruns
      rw [inputsOf_chain hp hnative hchain] at hins
      obtain rfl := Option.some.inj hins
      obtain ⟨n, hn, hsv⟩ := GenChain.exists_reads hchain hw
      have hreads : s.Reads n w := .inl ⟨hchain.isFill n hn, hsv⟩
      exact ⟨(h.reads hreads).2, fun q hq =>
        (h.before (h.producer hq) hreads).trans (hchain.before n hn)⟩
  | nativeFunc n =>
      obtain ⟨rfl, -, node, hnode, -⟩ := hruns
      rw [inputsOf_native hp hnode] at hins
      obtain rfl := Option.some.inj hins
      have hreads : s.Reads n w := .inr ⟨node, hnode, hw⟩
      exact ⟨(h.reads hreads).2, fun q hq => h.before (h.producer hq) hreads⟩

/-- Every producer has a coroutine that will set its variable. -/
def ProducersRun (s : RequestHeap) : Prop :=
  ∀ v p, s.producer v = some p → ∃ co, s.RunsFor v p co

/-- **The network is acyclic.** -/
lemma Ordered.acyclic_network (h : s.Ordered) (hruns : s.ProducersRun) : s.network.Acyclic := by
  refine Network.acyclic_of_rank (fun v => (s.producer v).elim 0 (· + 1)) ?_
  rintro w v ⟨ins, hins, hw⟩
  have hins : s.inputsOf v = some ins := hins
  cases hp : s.producer v with
  | none =>
      rw [inputsOf_eq_none.mpr hp] at hins
      cases hins
  | some p =>
      obtain ⟨co, hco⟩ := hruns v p hp
      obtain ⟨-, hbefore⟩ := h.inputs_before hp hco hins hw
      cases hq : s.producer w with
      | none => exact Nat.succ_pos p
      | some q => exact Nat.succ_lt_succ (hbefore q hq)

/-! ## Requests do not change what is computed -/

/-- The inputs of a variable stay. -/
lemma Launches.inputsOf_eq (h : Launches new s s') (hord : s.Ordered) (hruns : s.ProducersRun)
    (hp : s.producer v = some p) : s'.inputsOf v = s.inputsOf v := by
  obtain ⟨co, hco⟩ := hruns v p hp
  have hco' := hco.congr hord.forward h.nextNode h.node h.chain h.native
  have hp' := h.kept v p hp
  cases co with
  | completionChain c =>
      obtain ⟨hnative, -, fills, vars, hchain⟩ := hco
      rw [inputsOf_chain hp hnative hchain]
      exact inputsOf_chain hp' ((h.native p hchain.lt).trans hnative)
        (hchain.congr hord.forward h.nextNode h.node h.chain)
  | nativeFunc n =>
      obtain ⟨rfl, hlt, node, hnode, -⟩ := hco
      rw [inputsOf_native hp hnode]
      exact inputsOf_native hp' ((h.native n hlt).trans hnode)

lemma RunsFor.lt {co : ExecutionCoroutine} (h : s.RunsFor v p co) : p < s.objs.nextNode := by
  cases co with
  | completionChain c => exact h.2.2.choose_spec.choose_spec.lt
  | nativeFunc n => exact h.2.1

/-- The proxy for an output stays. -/
lemma Launches.outputKey_eq (h : Launches new s s') (hruns : s.ProducersRun)
    (hp : s.producer v = some p) : s'.outputKey v = s.outputKey v := by
  obtain ⟨co, hco⟩ := hruns v p hp
  rw [outputKey, outputKey, h.kept v p hp, hp, Option.bind_some, Option.bind_some,
    h.native p hco.lt]

lemma Launches.producersRun (h : Launches new s s') (hord : s.Ordered) (hruns : s.ProducersRun) :
    s'.ProducersRun := by
  intro v p hp
  rcases h.fresh v p hp with hp | ⟨-, -, co, -, hco⟩
  · obtain ⟨co, hco⟩ := hruns v p hp
    exact ⟨co, hco.congr hord.forward h.nextNode h.node h.chain h.native⟩
  · exact ⟨co, hco⟩

/-! ## Activation -/

/-- Nobody has to wait for the activation of the variable: it is activated, or a source. -/
def Settled (s : RequestHeap) (v : SvRef) : Prop := s.producer v = none ∨ s.activation v ≠ none

/-- A variable that is activated has a producer, and what it is computed from is settled. -/
structure ActivationClosed (s : RequestHeap) : Prop where
  produced : ∀ v, s.activation v ≠ none → s.producer v ≠ none
  inputs : ∀ v ins, s.activation v ≠ none → s.inputsOf v = some ins → ∀ w ∈ ins, s.Settled w

lemma Traversed.inputsOf_eq (h : s.Traversed s') : s'.inputsOf = s.inputsOf := by
  funext v
  rw [inputsOf, inputsOf, h.producer, h.native, h.objs, h.consumed_eq]

/-- A walk over the variables `xs`, which ends with the result `r`: if it does not raise, they are
settled behind it. -/
structure Settles (xs : List SvRef) (s : RequestHeap)
    (r : Except PyError (Option ℕ) × RequestHeap) : Prop where
  traversed : s.Traversed r.2
  mono : ∀ x, s.activation x ≠ none → r.2.activation x ≠ none
  closed : s.ActivationClosed → r.2.ActivationClosed
  settled : ∀ depth, r.1 = .ok (some depth) → ∀ x ∈ xs, r.2.Settled x

lemma Settled.mono (h : s.Settled v) (ht : s.Traversed s')
    (hmono : ∀ x, s.activation x ≠ none → s'.activation x ≠ none) : s'.Settled v := by
  unfold Settled
  rw [ht.producer]
  exact h.imp_right (hmono v)

lemma Settles.refl {result : Except PyError (Option ℕ)} {xs : List SvRef}
    (h : ∀ depth, result = .ok (some depth) → ∀ x ∈ xs, s.Settled x) :
    Settles xs s (result, s) := ⟨.refl s, fun _ h => h, fun h => h, h⟩

/-- A walk that raises, or does not end, settles nothing. -/
lemma Settles.fails {xs ys : List SvRef} {r r' : Except PyError (Option ℕ)}
    (h : Settles xs s (r, s')) (hr : ∀ depth, r' ≠ .ok (some depth)) :
    Settles ys s (r', s') :=
  ⟨h.traversed, h.mono, h.closed, fun depth hok => absurd hok (hr depth)⟩

/-- A walk that begins behind changes to the groups. -/
lemma Settles.of_joined {xs : List SvRef} {r : Except PyError (Option ℕ) × RequestHeap}
    (h : Settles xs s' r) (ht : s.Traversed s') (hactivation : s'.activation = s.activation) :
    Settles xs s r where
  traversed := ht.trans h.traversed
  mono x hx := h.mono x (hactivation ▸ hx)
  closed hs := h.closed
    ⟨fun v hv => by
      rw [ht.producer]
      exact hs.produced v (hactivation ▸ hv),
    fun v ins hv hins w hw => (hs.inputs v ins (hactivation ▸ hv) (ht.inputsOf_eq ▸ hins) w hw).mono
      ht fun x hx => hactivation.symm ▸ hx⟩
  settled := h.settled

/-- A second walk. -/
lemma Settles.trans {xs ys : List SvRef} {depth : ℕ}
    {r : Except PyError (Option ℕ) × RequestHeap} (h : Settles xs s (.ok (some depth), s'))
    (h' : Settles ys s' r) : Settles (xs ++ ys) s r where
  traversed := h.traversed.trans h'.traversed
  mono x hx := h'.mono x (h.mono x hx)
  closed hs := h'.closed (h.closed hs)
  settled depth' hok x hx := by
    rcases List.mem_append.mp hx with hx | hx
    · exact (h.settled depth rfl x hx).mono h'.traversed h'.mono
    · exact h'.settled depth' hok x hx

section Visits

variable {α : Type} {visit : Visit α} {visitSv : Visit SvRef}

/-- The loops of `_traverse`; `vars` are the variables of an entry. -/
lemma visitAll_settles {vars : α → List SvRef} (weight : ℕ) (as : List α) :
    ∀ (depth : ℕ) {s : RequestHeap},
      (∀ a ∈ as, ∀ s', s.Traversed s' → Settles (vars a) s' (visit a s')) →
      Settles (as.flatMap vars) s (visitAll visit weight as depth s) := by
  induction as with
  | nil => exact fun _ _ _ => .refl fun _ _ x hx => absurd hx List.not_mem_nil
  | cons a as ih =>
      intro depth s hvisit
      have hone := hvisit a List.mem_cons_self s (.refl s)
      unfold visitAll
      rcases hok : visit a s with ⟨_ | (_ | prevDepth), s₁⟩
      · rw [hok] at hone
        exact hone.fails fun _ h => by cases h
      · rw [hok] at hone
        exact hone.fails fun _ h => by cases h
      · rw [hok] at hone
        rw [List.flatMap_cons]
        exact hone.trans (ih _ fun b hb s' hs' =>
          hvisit b (List.mem_cons_of_mem _ hb) s' (hone.traversed.trans hs'))

/-- Visit `node.sv`. -/
lemma visitNode_settles (hvisit : ∀ v, Settles [v] s (visitSv v s)) (n : NodeRef) :
    Settles (s.objs.node n).sv.toList s (visitNode visitSv n s) := by
  unfold visitNode nodeSv
  cases hsv : (s.objs.node n).sv with
  | none => exact .refl fun _ h => by cases h
  | some v => exact hvisit v

/-- The variables that a completion chain depends on. -/
lemma visitChain_settles (hvisit : ∀ s' v, s.Traversed s' → Settles [v] s' (visitSv v s'))
    (c : ChainRef) : Settles (s.consumed c) s (visitChain visitSv c s) := by
  have hnodes : ∀ (nodes : List NodeRef) (depth : ℕ) {s₁ : RequestHeap}, s.Traversed s₁ →
      Settles (nodes.flatMap fun n => (s.objs.node n).sv.toList) s₁
        (visitAll (visitNode visitSv) 1 nodes depth s₁) := fun nodes depth s₁ hs₁ =>
    visitAll_settles 1 nodes depth fun n _ s' hs' => by
      rw [← (hs₁.trans hs').objs]
      exact visitNode_settles (fun v => hvisit s' v (hs₁.trans hs')) n
  unfold visitChain consumed
  cases hiter : s.objs.iterFill c with
  | error e => exact .refl fun _ h => by cases h
  | ok result =>
      cases result with
      | none => exact .refl fun _ h => by cases h
      | some nodes =>
          have hall := hnodes nodes 0 (.refl s)
          have hvars : (nodes.filterMap fun n => (s.objs.node n).sv) =
              nodes.flatMap fun n => (s.objs.node n).sv.toList :=
            List.filterMap_eq_flatMap_toList _ _
          dsimp only
          rw [hvars]
          rcases hok : visitAll (visitNode visitSv) 1 nodes 0 s with ⟨_ | (_ | depth), s₁⟩
          · rw [hok] at hall
            exact hall.fails fun _ h => by cases h
          · rw [hok] at hall
            exact hall.fails fun _ h => by cases h
          · rw [hok] at hall
            dsimp only
            cases (s₁.objs.chain c).firstNode with
            | none => exact hall.fails fun _ h => by cases h
            | some first =>
                dsimp only [visitPrev]
                cases (s₁.objs.node first).edgeAPrevNode with
                | none => exact hall
                | some prev =>
                    dsimp only
                    split_ifs
                    · have hboth := hall.trans (hnodes [prev] depth hall.traversed)
                      exact ⟨hboth.traversed, hboth.mono, hboth.closed, fun d hd x hx =>
                        hboth.settled d hd x (List.mem_append_left _ hx)⟩
                    · exact hall.fails fun _ h => by cases h

end Visits

/-- A variable is activated behind its inputs. -/
lemma activateAt_settles {ins : List SvRef} {criteria : PerformanceCriteria}
    {r : Except PyError (Option ℕ) × RequestHeap} (hins : s.inputsOf v = some ins)
    (h : Settles ins s r) : Settles [v] s (activateAt v criteria r) := by
  obtain ⟨_ | (_ | depth), s₁⟩ := r
  · exact h.fails fun _ h => by cases h
  · exact h.fails fun _ h => by cases h
  · unfold activateAt activate
    dsimp only
    split_ifs with hsome
    · exact h.fails fun _ h => by cases h
    have ht : s₁.Traversed { s₁ with
        activation := Function.update s₁.activation v (some (criteria, depth)) } :=
      ⟨rfl, rfl, rfl, rfl, rfl, rfl, rfl⟩
    have hmono : ∀ x, s₁.activation x ≠ none →
        Function.update s₁.activation v (some (criteria, depth)) x ≠ none := fun x hx => by
      rw [Function.update_apply]
      split_ifs
      · exact Option.some_ne_none _
      · exact hx
    have hproduced : s₁.producer v ≠ none := by
      rw [h.traversed.producer]
      intro hnone
      rw [inputsOf_eq_none.mpr hnone] at hins
      cases hins
    refine ⟨h.traversed.trans ht, fun x hx => hmono x (h.mono x hx), fun hs => ⟨fun x hx => ?_,
      fun x ins' hx hins' w hw => ?_⟩, fun _ _ x hx => ?_⟩
    · have hx : Function.update s₁.activation v (some (criteria, depth)) x ≠ none := hx
      rw [Function.update_apply] at hx
      split_ifs at hx with hxv
      · exact hxv ▸ hproduced
      · exact (h.closed hs).produced x hx
    · have hx : Function.update s₁.activation v (some (criteria, depth)) x ≠ none := hx
      have hins' : s₁.inputsOf x = some ins' := hins'
      rw [Function.update_apply] at hx
      split_ifs at hx with hxv
      · rw [hxv, h.traversed.inputsOf_eq, hins] at hins'
        obtain rfl := Option.some.inj hins'
        exact (h.settled depth rfl w hw).mono ht hmono
      · exact ((h.closed hs).inputs x ins' hx hins' w hw).mono ht hmono
    · obtain rfl := List.mem_singleton.mp hx
      exact .inr (by
        show Function.update s₁.activation x (some (criteria, depth)) x ≠ none
        rw [Function.update_self]
        exact Option.some_ne_none _)

/-- **`_traverse`** activates a variable behind everything it depends on, also if it raises. -/
lemma traverse_settles (fuel : ℕ) : ∀ (var : SvRef) (criteria : PerformanceCriteria)
    (chainGroup : Option GroupRef) (s : RequestHeap),
    Settles [var] s (traverse fuel var criteria chainGroup s) := by
  induction fuel with
  | zero => exact fun _ _ _ s => .refl fun _ h => by cases h
  | succ fuel ih =>
      intro var criteria chainGroup s
      unfold traverse
      cases backPropagateCriteria criteria with
      | error e => exact .refl fun _ h => by cases h
      | ok nextCriteria =>
          dsimp only
          cases hp : s.producer var with
          | none =>
              refine .refl fun _ _ x hx => ?_
              obtain rfl := List.mem_singleton.mp hx
              exact .inl hp
          | some p =>
              dsimp only
              cases hnative : s.native p with
              | some node =>
                  dsimp only
                  refine activateAt_settles (inputsOf_native hp hnative) ?_
                  have hall : Settles ((node.inputVars.map Prod.snd).flatMap fun v => [v]) s
                      (visitAll (fun v s => traverse fuel v nextCriteria chainGroup s) 0
                        (node.inputVars.map Prod.snd) 0 s) :=
                    visitAll_settles 0 _ 0 fun v _ s' _ => ih v _ _ s'
                  rwa [List.flatMap_singleton'] at hall
              | none =>
                  dsimp only
                  cases hchain : s.compChain p with
                  | error e => exact .refl fun _ h => by cases h
                  | ok c =>
                      dsimp only
                      cases hact : s.activation var with
                      | some activation =>
                          refine .refl fun _ _ x hx => ?_
                          obtain rfl := List.mem_singleton.mp hx
                          exact .inr (by rw [hact]; exact Option.some_ne_none _)
                      | none =>
                          have hins : s.inputsOf var = some (s.consumed c) := by
                            rw [inputsOf, hp, Option.map_some, hnative]
                            dsimp only
                            rw [compChain_eq_ok hchain, Option.map_some, Option.getD_some]
                          have hjoin := joinGroup_traversed (s := s) c chainGroup
                          have hall : Settles ((s.joinGroup c chainGroup).newGroup.consumed c)
                              (s.joinGroup c chainGroup).newGroup (visitChain (fun v s' =>
                                traverse fuel v nextCriteria (some s.nextGroup) s') c
                                (s.joinGroup c chainGroup).newGroup) :=
                            visitChain_settles (fun s' v _ => ih v _ _ s') c
                          rw [hjoin.consumed_eq] at hall
                          exact activateAt_settles hins
                            (hall.of_joined hjoin (newGroup_joinGroup s c chainGroup).2)

lemma activateSv_closed (h : s.ActivationClosed) (v : SvRef) (criteria : PerformanceCriteria) :
    (s.activateSv v criteria).2.ActivationClosed := by
  have hall := traverse_settles (s.objs.nextNode + 1) v criteria none s
  unfold activateSv
  split_ifs
  · exact h
  · split
    all_goals
      rename_i hok
      rw [hok] at hall
      exact hall.closed h

/-- A heap with the same network and the same activations. -/
lemma ActivationClosed.congr (h : s.ActivationClosed) (hobjs : s'.objs = s.objs)
    (hnative : s'.native = s.native) (hproducer : s'.producer = s.producer)
    (hactivation : s'.activation = s.activation) : s'.ActivationClosed := by
  have hinputs : s'.inputsOf = s.inputsOf := by
    funext v
    unfold inputsOf consumed
    rw [hproducer, hnative, hobjs]
  refine ⟨fun v hv => ?_, fun v ins hv hins w hw => ?_⟩
  · rw [hproducer]
    exact h.produced v (hactivation ▸ hv)
  · unfold Settled
    rw [hproducer, hactivation]
    exact h.inputs v ins (hactivation ▸ hv) (hinputs ▸ hins) w hw

lemma Activates.closed (h : Activates s s') (hs : s.ActivationClosed) : s'.ActivationClosed := by
  induction h with
  | refl => exact hs
  | activateSv v criteria _ ih => exact activateSv_closed ih v criteria
  | setSession sessionId session _ _ ih => exact ih.congr rfl rfl rfl rfl

/-- New producers do not come between a variable and its inputs. -/
lemma Launches.closed (h : Launches new s s') (hord : s.Ordered) (hruns : s.ProducersRun)
    (hactivation : s'.activation = s.activation) (hs : s.ActivationClosed) :
    s'.ActivationClosed := by
  refine ⟨fun v hv => ?_, fun v ins hv hins w hw => ?_⟩
  · obtain ⟨p, hp⟩ := Option.ne_none_iff_exists'.mp (hs.produced v (hactivation ▸ hv))
    rw [h.kept v p hp]
    exact Option.some_ne_none p
  · obtain ⟨p, hp⟩ := Option.ne_none_iff_exists'.mp (hs.produced v (hactivation ▸ hv))
    obtain ⟨co, hco⟩ := hruns v p hp
    rw [h.inputsOf_eq hord hruns hp] at hins
    unfold Settled
    rw [hactivation]
    refine (hs.inputs v ins (hactivation ▸ hv) hins w hw).imp_left fun hnone => ?_
    cases hq : s'.producer w with
    | none => rfl
    | some q =>
        rcases h.fresh w q hq with hq | ⟨hge, -⟩
        · rw [hnone] at hq
          cases hq
        · exact absurd (hord.inputs_before hp hco hins hw).1 hge.not_gt

/-! ## All actions -/

/-- Nobody but its producer sets an output: requests have at most one output, native functions bring
no values for theirs, and clients only set variables that nobody produces. -/
def SingleWriter (s : RequestHeap) : Action → Prop
  | .addRequest _ _ payload => SemanticRequest.OneOutput payload
  | .addNativeRequest _ request =>
      ∀ x ∈ request.parametersMap, x.2.isOutput = true → x.2.value = none
  | .set var _ => s.producer var = none
  | _ => True

instance (s : RequestHeap) : ∀ a, Decidable (s.SingleWriter a)
  | .addRequest _ _ payload => inferInstanceAs (Decidable (SemanticRequest.OneOutput payload))
  | .addNativeRequest _ request => inferInstanceAs (Decidable (∀ x ∈ request.parametersMap, _))
  | .set var _ => inferInstanceAs (Decidable (s.producer var = none))
  | .registerSession _ | .freeSessionResources _ | .registerSemanticVariable _ _
  | .getSemanticVariable _ _ | .freeExpiredConstantPrefixVars _ =>
      inferInstanceAs (Decidable True)

/-- What the network needs of the requests: a single writer for each output, and known ids in the
arguments of native functions. -/
def Admitted (uuid3 : ℕ → Text → VarId) (s : RequestHeap) (a : Action) : Prop :=
  KnownArguments uuid3 s a ∧ s.SingleWriter a

/-- What requests keep. -/
structure HeapInv (s : RequestHeap) : Prop where
  ordered : s.Ordered
  returned : s.ReturnedInv
  grounded : s.Grounded
  ends : s.objs.EndsOnce
  pools : s.PoolsOpen
  runs : s.ProducersRun
  closed : s.ActivationClosed

lemma Activates.launches (h : Activates s s') : Launches [] s s' :=
  have hsame := h.same
  .of_same hsame.1 hsame.2.1 hsame.2.2.1 (.of_obj (by rw [hsame.2.2.2.1]) (by rw [hsame.2.2.2.1]))
    hsame.2.2.2.2

/-- `_add_request` answers, and what a request launched stays. -/
lemma answerRequest_activates (sessionId requestId : ℕ)
    (result : Except PyError (Option (List ParamInfo)) × RequestHeap) :
    Activates result.2 (answerRequest sessionId requestId result).2 ∧
      ((answerRequest sessionId requestId result).2.sessions sessionId).coroutines =
        (result.2.sessions sessionId).coroutines := by
  obtain ⟨_ | (_ | info), s₁⟩ := result
  · exact ⟨.refl, rfl⟩
  · exact ⟨.refl, rfl⟩
  · refine ⟨.setSession sessionId _ .refl rfl, ?_⟩
    rw [answerRequest]
    dsimp only
    rw [giveOut, setSession]
    dsimp only
    rw [Function.update_self]

/-- What a request launches, behind the count and in front of the answer. -/
lemma launches_answered {s₀ s₁ : RequestHeap} (hord : s.Ordered) (hruns : s.ProducersRun)
    (hclosed : s.ActivationClosed) (hcount : Launches [] s s₀)
    (hactivation₀ : s₀.activation = s.activation)
    (hcoroutines₀ : (s₀.sessions sessionId).coroutines = (s.sessions sessionId).coroutines)
    (hlaunch : Launches new s₀ s₁) (hactivation : s₁.activation = s₀.activation)
    {result : Except PyError (Option (List ParamInfo)) × RequestHeap}
    (hactivates : s₁.Activates result.2)
    (hcoroutines : (result.2.sessions sessionId).coroutines =
      (s₀.sessions sessionId).coroutines ++ new) :
    let s' := (answerRequest sessionId requestId result).2
    Launches ((s'.sessions sessionId).coroutines.drop (s.sessions sessionId).coroutines.length)
      s s' ∧ s'.ActivationClosed := by
  obtain ⟨hanswer, hsame⟩ := answerRequest_activates sessionId requestId result
  have hall := hactivates.trans hanswer
  have hs₁ := hcount.comp hlaunch
  dsimp only
  rw [hsame, hcoroutines, hcoroutines₀, List.drop_left]
  exact ⟨hs₁.activates hall,
    hall.closed (hs₁.closed hord hruns (hactivation.trans hactivation₀) hclosed)⟩

/-- A session is overwritten, whose pool has no size. -/
lemma Launches.setSession {vars : SemanticVariableManager} (hvars : OnlyNew s.vars vars)
    {session : RequestSession}
    (hsize : s.PoolsOpen → session.graph.nodeIdPool.poolSize = none) :
    Launches [] s ({ s with vars }.setSession sessionId session) :=
  .of_same rfl rfl rfl hvars fun hs id => by
    rw [RequestHeap.setSession]
    dsimp only
    rw [Function.update_apply]
    split_ifs
    · exact hsize hs
    · exact hs id

/-- The count of a request. -/
lemma countRequest_launches (sessionId : ℕ) : Launches [] s (s.countRequest sessionId).2 ∧
    ((s.countRequest sessionId).2.sessions sessionId).coroutines =
      (s.sessions sessionId).coroutines := by
  refine ⟨.setSession (.refl _) fun hs => hs sessionId, ?_⟩
  rw [countRequest, RequestHeap.setSession]
  dsimp only
  rw [Function.update_self]

/-- **One action**, other than a client that sets a variable. -/
lemma HeapInv.launches (h : s.HeapInv) {a : Action} (hadmitted : Admitted uuid3 s a)
    (hset : ∀ var content, a ≠ .set var content) :
    Launches (s.newCoroutines (s.apply uuid3 a) a) s (s.apply uuid3 a) ∧
      (s.apply uuid3 a).ActivationClosed := by
  cases a with
  | registerSession id =>
      have hvars := registerLocalVarSpace_onlyNew (m := s.vars) id
      simp only [RequestHeap.apply, registerSession]
      split
      · rename_i hreg
        rw [hreg] at hvars
        exact ⟨.of_same rfl rfl rfl hvars fun hs => hs, h.closed.congr rfl rfl rfl rfl⟩
      · rename_i hreg
        rw [hreg] at hvars
        exact ⟨.setSession hvars fun _ => rfl, h.closed.congr rfl rfl rfl rfl⟩
  | freeSessionResources id =>
      exact ⟨.setSession (freeLocalVarSpace_onlyNew id) fun _ => rfl,
        h.closed.congr rfl rfl rfl rfl⟩
  | registerSemanticVariable id varName =>
      simp only [RequestHeap.apply, registerSemanticVariable]
      split
      · rename_i hcreate
        exact ⟨.of_same rfl rfl rfl (createVar_onlyNew hcreate) fun hs => hs,
          h.closed.congr rfl rfl rfl rfl⟩
      · rename_i hcreate
        exact ⟨.setSession (createVar_onlyNew hcreate) fun hs => hs id,
          h.closed.congr rfl rfl rfl rfl⟩
  | addRequest id now payload =>
      obtain ⟨hcount, hcoroutines⟩ := countRequest_launches (s := s) id
      have hins := countRequest_inserted (s := s) id
      obtain ⟨s₁, new, hlaunch, hactivation, hactivates, hnew⟩ :=
        addSemanticRequest_launches uuid3 id (s.countRequest id).1 now (h.ordered.inserted hins)
          (h.grounded.inserted hins) h.ends (hcount.pools h.pools) hadmitted.2
      exact launches_answered h.ordered h.runs h.closed hcount rfl hcoroutines hlaunch hactivation
        hactivates hnew
  | addNativeRequest id request =>
      obtain ⟨hcount, hcoroutines⟩ := countRequest_launches (s := s) id
      have hins := countRequest_inserted (s := s) id
      obtain ⟨s₁, new, hlaunch, hactivation, hactivates, hnew⟩ :=
        addPyNativeRequest_launches uuid3 id (h.ordered.inserted hins) (hcount.pools h.pools)
          hadmitted.2
      exact launches_answered h.ordered h.runs h.closed hcount rfl hcoroutines hlaunch hactivation
        hactivates hnew
  | getSemanticVariable var criteria =>
      have hactivates : s.Activates (s.getSemanticVariable var criteria) := by
        unfold getSemanticVariable
        split_ifs
        · split
          · exact .refl
          · exact .activateSv _ _ .refl
        · exact .refl
      exact ⟨hactivates.launches, hactivates.closed h.closed⟩
  | set var content => exact absurd rfl (hset var content)
  | freeExpiredConstantPrefixVars curTime =>
      exact ⟨.of_same rfl rfl rfl (freeExpired_onlyNew curTime _ _ _) fun hs => hs,
        h.closed.congr rfl rfl rfl rfl⟩

/-- A variable is set: the network stays. -/
lemma HeapInv.setContent (h : s.HeapInv) (uuid3 : ℕ → Text → VarId) (var : SvRef)
    (content : Text) : (s.apply uuid3 (.set var content)).HeapInv :=
  have hknown : KnownArguments uuid3 s (.set var content) := trivial
  have hord := ordered_apply h.ordered h.returned _ hknown
  ⟨hord.1, hord.2, grounded_apply h.grounded _, h.ends, h.pools,
    fun v p hp => (h.runs v p hp).imp fun co hco => by cases co <;> exact hco,
    h.closed.congr rfl rfl rfl rfl⟩

/-- **What requests keep.** -/
lemma HeapInv.apply (h : s.HeapInv) (a : Action) (hadmitted : Admitted uuid3 s a) :
    (s.apply uuid3 a).HeapInv := by
  by_cases hset : ∃ var content, a = .set var content
  · obtain ⟨var, content, rfl⟩ := hset
    exact h.setContent uuid3 var content
  · push Not at hset
    obtain ⟨hlaunch, hclosed⟩ := h.launches hadmitted hset
    have hord := ordered_apply h.ordered h.returned a hadmitted.1
    exact ⟨hord.1, hord.2, grounded_apply h.grounded a, hlaunch.ends h.ends, hlaunch.pools h.pools,
      hlaunch.producersRun h.ordered h.runs, hclosed⟩

lemma heapInv_start (timeout : ℕ) : (start timeout).HeapInv where
  ordered := ordered_start timeout
  returned _ _ h := by cases h
  grounded := (groundedInvariant (fun _ _ => noVar.id) timeout).init _ rfl
  ends := endsOnce_empty
  pools _ := rfl
  runs _ _ h := by cases h
  closed := ⟨fun _ h => absurd rfl h, fun _ _ h => absurd rfl h⟩

end RequestHeap

end ParrotServe
