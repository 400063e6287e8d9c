import ParrotServe.Framework.Traversal
import ParrotServe.Properties.InsertedRequests
import ParrotServe.Properties.TraversalEnds

/-!
# Groups of completion chains

`_traverse` makes a `CompChainGroup` for what a chain fills: the chain of every producer it visits
joins it.  It returns early at an activated variable, before the chain of that variable joins, so
the group of a second consumer lacks it.

`Separate` is the condition under which no traversal returns early at a chain of another consumer:
every output that the call enters is the end of the chain its node belongs to, and what this chain
fills is not activated and filled by no other chain that the call enters.  Under it the entered
outputs form a tree, and `traverse_advances` says what a traversal does in it: the chains of
different inputs are traversed independently, and each group is complete when the traversal leaves
it.  `Advances` is what such a traversal leaves alone.

A graph is inserted and activated by turns in `graphSystem`.  Every step keeps complete what is
complete: groups are not touched again, and new requests do not produce old variables.
-/

namespace ParrotServe

namespace RequestHeap

open GraphObjects SemanticRequest TransitionSystem Traversal

variable {uuid3 : ℕ → Text → VarId} {s s' s'' s₀ : RequestHeap} {c d : ChainRef} {p : NodeRef}
  {v w root : SvRef} {group : Option GroupRef} {entered entered' : SvRef → Prop}

/-! ## Chains and what they fill -/

/-- The variables that the Fill nodes of a chain consume. -/
def consumed (s : RequestHeap) (c : ChainRef) : List SvRef :=
  match s.objs.iterFill c with
  | .ok (some nodes) => nodes.filterMap fun n => (s.objs.node n).sv
  | _ => []

/-- The chain that ends in the producer of the variable. -/
def Produces (s : RequestHeap) (d : ChainRef) (w : SvRef) : Prop :=
  ∃ p, s.producer w = some p ∧ (s.objs.chain d).genNode = some p

/-- The chains of the group are those that produce what the chain consumes, and each of them lists
the group. -/
def Gathers (s : RequestHeap) (group : GroupRef) (c : ChainRef) : Prop :=
  (∀ d, d ∈ s.groupChains group ↔ ∃ w ∈ s.consumed c, s.Produces d w) ∧
    ∀ d ∈ s.groupChains group, group ∈ s.chainGroups d

/-- The `comp_chain` of the producer of a variable. -/
def chainOf (s : RequestHeap) (v : SvRef) : Option ChainRef :=
  (s.producer v).bind fun p => (s.objs.node p).completionChain

/-- What is visited from a variable. -/
def dependencies (s : RequestHeap) (v : SvRef) : List SvRef :=
  match s.chainOf v with
  | none => []
  | some c => s.consumed c

/-- A variable with a producer that is not activated. -/
def IsOpen (s : RequestHeap) (v : SvRef) : Prop := s.producer v ≠ none ∧ s.activation v = none

/-- The outputs that the traversal from a variable enters. -/
abbrev Enters (s : RequestHeap) (root v : SvRef) : Prop :=
  Entered s.dependencies s.IsOpen [root] v

/-- The traversal enters outputs whose chain ends in them and starts its request; what such a
chain consumes is not activated and consumed by no other chain of an entered output. -/
structure Separate (s : RequestHeap) (root : SvRef) : Prop where
  own : ∀ v p c, s.Enters root v → s.producer v = some p →
    (s.objs.node p).completionChain = some c → (s.objs.chain c).genNode = some p ∧
      ∀ first, (s.objs.chain c).firstNode = some first →
        (s.objs.node first).edgeAPrevNode = none
  inactive : ∀ v w, s.Enters root v → w ∈ s.dependencies v → s.producer w ≠ none →
    s.activation w = none
  once : ∀ v v' w, s.Enters root v → s.Enters root v' → w ∈ s.dependencies v →
    w ∈ s.dependencies v' → s.producer w ≠ none → v = v'

lemma chainOf_eq (hp : s.producer v = some p) : s.chainOf v = (s.objs.node p).completionChain := by
  rw [chainOf, hp, Option.bind_some]

lemma chainOf_of_unproduced (hv : s.producer v = none) : s.chainOf v = none := by
  rw [chainOf, hv, Option.bind_none]

lemma dependencies_eq (hc : s.chainOf v = some c) : s.dependencies v = s.consumed c := by
  rw [dependencies, hc]

/-- Separate chains, as far as a list that is closed under what is visited. -/
lemma separate_of_closed {l : List SvRef} (hroot : root ∈ l)
    (hclosed : ∀ v ∈ l, ∀ w ∈ s.dependencies v, w ∈ l)
    (hown : ∀ v ∈ l, ∀ p ∈ s.producer v, ∀ c ∈ (s.objs.node p).completionChain,
      (s.objs.chain c).genNode = some p ∧
        ∀ first ∈ (s.objs.chain c).firstNode, (s.objs.node first).edgeAPrevNode = none)
    (hinactive : ∀ v ∈ l, ∀ w ∈ s.dependencies v, s.producer w ≠ none → s.activation w = none)
    (honce : ∀ v ∈ l, ∀ v' ∈ l, ∀ w ∈ s.dependencies v, w ∈ s.dependencies v' →
      s.producer w ≠ none → v = v') : s.Separate root := by
  have hmem : ∀ v, s.Enters root v → v ∈ l := fun v hv =>
    hv.mem_of_closed hclosed fun x hx => List.mem_singleton.mp hx ▸ hroot
  exact ⟨fun v p c hv hp hc => hown v (hmem v hv) p hp c hc,
    fun v w hv hw hp => hinactive v (hmem v hv) w hw hp,
    fun v v' w hv hv' hw hw' hp => honce v (hmem v hv) v' (hmem v' hv') w hw hw' hp⟩

section Traversed

variable (h : s.Traversed s')
include h

lemma Traversed.consumed_eq : s'.consumed = s.consumed := by
  funext c
  rw [consumed, consumed, h.objs]

lemma Traversed.chainOf_eq : s'.chainOf = s.chainOf := by
  funext v
  rw [chainOf, chainOf, h.producer, h.objs]

lemma Traversed.produces_eq : s'.Produces = s.Produces := by
  funext d w
  rw [Produces, Produces, h.producer, h.objs]

end Traversed

/-- What is visited from an output has earlier producers. -/
lemma Ordered.dependencies_rank (h : s.Ordered) (hnative : ∀ n, s.native n = none) (v : SvRef) :
    ∀ w ∈ s.dependencies v,
      (s.producer w).elim 0 (· + 1) < (s.producer v).elim 0 (· + 1) := by
  intro w hw
  cases hp : s.producer v with
  | none =>
      rw [dependencies, chainOf_of_unproduced hp] at hw
      exact absurd hw List.not_mem_nil
  | some p =>
      rw [dependencies, chainOf_eq hp] at hw
      cases hc : (s.objs.node p).completionChain with
      | none =>
          rw [hc] at hw
          exact absurd hw List.not_mem_nil
      | some c =>
          rw [hc] at hw
          obtain ⟨hgen, -⟩ : (s.objs.node p).isGen = true ∧ (s.objs.node p).sv = some v := by
            rcases h.producer hp with hgen | ⟨node, hnode, -⟩
            · exact hgen
            · rw [hnative] at hnode
              cases hnode
          have hlt : p < s.objs.nextNode := (h.writes (h.producer hp)).1
          obtain ⟨_, nodes, -, -, hiter, hbefore⟩ := h.forward.iterFill hgen hlt hc
          dsimp only at hw
          rw [consumed, hiter] at hw
          obtain ⟨n, hn, hsv⟩ := List.mem_filterMap.mp hw
          cases hq : s.producer w with
          | none => exact Nat.succ_pos _
          | some q =>
              exact Nat.succ_lt_succ ((h.producer_le hsv hq).trans_lt (hbefore n hn))

/-! ## What a traversal does -/

/-- The group holds the chains of the producers of the variables. -/
structure Holds (s : RequestHeap) (group : GroupRef) (vars : List SvRef) : Prop where
  chained : ∀ w ∈ vars, s.producer w ≠ none → ∃ d, s.chainOf w = some d
  chains : ∀ d, d ∈ s.groupChains group ↔ ∃ w ∈ vars, s.chainOf w = some d
  lists : ∀ d ∈ s.groupChains group, group ∈ s.chainGroups d

/-- Outputs are activated with groups of their own; of the older groups only one may change. -/
structure Advances (group : Option GroupRef) (entered : SvRef → Prop) (s s' : RequestHeap) :
    Prop where
  traversed : s.Traversed s'
  nextGroup : s.nextGroup ≤ s'.nextGroup
  fresh : (∀ g, s.nextGroup ≤ g → s.groupChains g = []) → ∀ g, s'.nextGroup ≤ g →
    s'.groupChains g = []
  kept : ∀ g < s.nextGroup, group ≠ some g → s'.groupChains g = s.groupChains g
  lists : ∀ {d g}, g ∈ s.chainGroups d → g ∈ s'.chainGroups d
  still : ∀ z, s.activation z ≠ none → s'.activation z ≠ none
  activated : ∀ z, s'.activation z ≠ none → s.activation z ≠ none ∨ entered z ∧
    ∃ c g, s'.chainOf z = some c ∧ s.nextGroup ≤ g ∧ g < s'.nextGroup ∧
      s'.Holds g (s'.consumed c)

lemma Advances.refl (group : Option GroupRef) (s : RequestHeap) :
    Advances group entered s s :=
  ⟨.refl s, le_rfl, fun h => h, fun _ _ _ => rfl, fun h => h, fun _ h => h, fun _ h => .inl h⟩

lemma Advances.mono (h : Advances group entered s s') (hle : ∀ z, entered z → entered' z) :
    Advances group entered' s s' :=
  { h with activated := fun z hz => (h.activated z hz).imp_right fun ⟨he, hg⟩ => ⟨hle z he, hg⟩ }

/-- A group that is left alone. -/
lemma Advances.holds (h : Advances group entered s s') {g : GroupRef} {vars : List SvRef}
    (hg : g < s.nextGroup) (hne : group ≠ some g) (hold : s.Holds g vars) : s'.Holds g vars := by
  refine ⟨fun w hw hp => ?_, fun d => ?_, fun d hd => ?_⟩
  · rw [h.traversed.producer] at hp
    rw [h.traversed.chainOf_eq]
    exact hold.chained w hw hp
  · rw [h.kept g hg hne, h.traversed.chainOf_eq]
    exact hold.chains d
  · rw [h.kept g hg hne] at hd
    exact h.lists (hold.lists d hd)

lemma Advances.trans (h : Advances group entered s s') (h' : Advances group entered s' s'')
    (hgroup : ∀ g, group = some g → g < s.nextGroup) : Advances group entered s s'' where
  traversed := h.traversed.trans h'.traversed
  nextGroup := h.nextGroup.trans h'.nextGroup
  fresh hs := h'.fresh (h.fresh hs)
  kept g hg hne := (h'.kept g (hg.trans_le h.nextGroup) hne).trans (h.kept g hg hne)
  lists hg := h'.lists (h.lists hg)
  still z hz := h'.still z (h.still z hz)
  activated z hz := by
    rcases h'.activated z hz with hz | ⟨he, c, g, hc, hle, hlt, hold⟩
    · refine (h.activated z hz).imp_right fun ⟨he, c, g, hc, hle, hlt, hold⟩ => ⟨he, c, g, ?_, hle,
        hlt.trans_le h'.nextGroup, ?_⟩
      · rwa [h'.traversed.chainOf_eq]
      · -- A group made in the first part is not the one that the second part may change.
        have hne : group ≠ some g := fun heq => absurd (hgroup g heq) hle.not_gt
        rw [h'.traversed.consumed_eq]
        exact h'.holds hlt hne hold
    · exact .inr ⟨he, c, g, hc, h.nextGroup.trans hle, hlt, hold⟩

/-- What joins a new group, and what does not. -/
lemma mem_joinGroup (s : RequestHeap) (c : ChainRef) (group : Option GroupRef) (g : GroupRef) :
    (group ≠ some g → (s.joinGroup c group).newGroup.groupChains g = s.groupChains g) ∧
      (group = some g → ∀ d, d ∈ (s.joinGroup c group).newGroup.groupChains g ↔
        d ∈ s.groupChains g ∨ d = c) ∧
      (group = some g → g ∈ (s.joinGroup c group).newGroup.chainGroups c) ∧
      ∀ d, g ∈ s.chainGroups d → g ∈ (s.joinGroup c group).newGroup.chainGroups d := by
  cases group with
  | none => exact ⟨fun _ => rfl, fun h => (by cases h), fun h => (by cases h), fun _ h => h⟩
  | some group =>
      simp only [joinGroup, newGroup, ne_eq, Option.some.injEq]
      refine ⟨fun hne => Function.update_of_ne (Ne.symm hne) _ _, ?_, ?_, fun d hd => ?_⟩
      · rintro rfl d
        rw [Function.update_self, List.mem_insert_iff, or_comm]
      · rintro rfl
        rw [Function.update_self]
        exact List.mem_append_right _ (List.mem_singleton_self _)
      · rw [Function.update_apply]
        split_ifs with hdc
        · exact List.mem_append_left _ (hdc ▸ hd)
        · exact hd

/-- Joining a group and making one activates nothing. -/
lemma newGroup_joinGroup (s : RequestHeap) (c : ChainRef) (group : Option GroupRef) :
    (s.joinGroup c group).newGroup.nextGroup = s.nextGroup + 1 ∧
      (s.joinGroup c group).newGroup.activation = s.activation := by
  cases group <;> exact ⟨rfl, rfl⟩

section Call

/-! ### One call

`s₀` is the heap in which `activate_sv` is called, for the variable `root`. -/

/-- What a visit of a variable does, for a chain whose group is `group`. -/
structure VisitSpec (s₀ : RequestHeap) (root : SvRef) (group : Option GroupRef)
    (visit : Visit SvRef) : Prop where
  /-- Nothing happens at a variable without a producer, or at an activated one. -/
  skips : ∀ v {s s' depth}, s₀.Traversed s → s.producer v = none ∨ s.activation v ≠ none →
    visit v s = (.ok (some depth), s') → s' = s
  /-- An output below which nothing is activated is activated, and its chain joins the group. -/
  enters : ∀ v {s s' depth}, s₀.Traversed s → s₀.Enters root v →
    (∀ z, s₀.Enters v z → s.activation z = none) →
    (∀ g, s.nextGroup ≤ g → s.groupChains g = []) → (∀ g, group = some g → g < s.nextGroup) →
    visit v s = (.ok (some depth), s') →
      Advances group (s₀.Enters v) s s' ∧ s'.activation v ≠ none ∧
        ∃ c, s₀.chainOf v = some c ∧ ∀ g, group = some g →
          (∀ d, d ∈ s'.groupChains g ↔ d ∈ s.groupChains g ∨ d = c) ∧ g ∈ s'.chainGroups c

/-- The loop over the Fill nodes of a chain has visited `done`. -/
structure Visited (s₀ : RequestHeap) (v : SvRef) (g : GroupRef) (done : List SvRef)
    (s : RequestHeap) : Prop where
  traversed : s₀.Traversed s
  fresh : ∀ g, s.nextGroup ≤ g → s.groupChains g = []
  made : g < s.nextGroup
  dependencies : ∀ w ∈ done, w ∈ s₀.dependencies v
  /-- What is activated below the chain is below something visited. -/
  below : ∀ z, s₀.Enters v z → s.activation z ≠ none → ∃ w ∈ done, s₀.Enters w z
  activated : ∀ w ∈ done, s₀.producer w ≠ none → s.activation w ≠ none
  holds : s.Holds g done

variable (hord : s₀.Ordered) (hnative : ∀ n, s₀.native n = none) (hsep : s₀.Separate root)
include hord hnative hsep

omit hord hnative in
lemma Separate.uniqueConsumers : UniqueConsumers s₀.dependencies s₀.IsOpen [root] :=
  fun y y' z hy hy' hz hz' ho => hsep.once y y' z hy hy' hz hz' ho.1

/-- One more variable is visited. -/
lemma Visited.visit {visit : Visit SvRef} {g : GroupRef} {done : List SvRef} {depth : ℕ}
    (h : Visited s₀ v g done s) (hspec : VisitSpec s₀ root (some g) visit)
    (hv : s₀.Enters root v) (hw : w ∈ s₀.dependencies v)
    (hok : visit w s = (.ok (some depth), s')) :
    Advances (some g) (s₀.Enters v) s s' ∧ Visited s₀ v g (done ++ [w]) s' := by
  have hrank := hord.dependencies_rank hnative
  have hdone : ∀ u ∈ done ++ [w], u ∈ s₀.dependencies v := by
    intro u hu
    rcases List.mem_append.mp hu with hu | hu
    · exact h.dependencies u hu
    · exact List.mem_singleton.mp hu ▸ hw
  have hmem : ∀ {u}, u ∈ done ++ [w] ↔ u ∈ done ∨ u = w := by simp
  by_cases hskip : s.producer w = none ∨ s.activation w ≠ none
  · obtain rfl := hspec.skips w h.traversed hskip hok
    -- An activated producer was visited before: another chain does not consume its variable.
    have hcase : s₀.producer w = none ∨ w ∈ done := by
      rw [h.traversed.producer] at hskip
      by_cases hp : s₀.producer w = none
      · exact .inl hp
      · right
        have hwv : s₀.Enters v w := .input (.root (List.mem_singleton_self _) hv.opened) hw
          ⟨hp, hsep.inactive v w hv hw hp⟩
        obtain ⟨u, hu, hent⟩ := h.below w hwv (hskip.resolve_left hp)
        exact hsep.uniqueConsumers.eq_of_entered hrank hv hw (h.dependencies u hu) hent ▸ hu
    have hsame : ∀ d, (∃ u ∈ done ++ [w], s'.chainOf u = some d) ↔
        ∃ u ∈ done, s'.chainOf u = some d := by
      intro d
      constructor
      · rintro ⟨u, hu, hd⟩
        rcases hmem.mp hu with hu | rfl
        · exact ⟨u, hu, hd⟩
        · refine ⟨u, hcase.resolve_left fun hnone => ?_, hd⟩
          rw [h.traversed.chainOf_eq, chainOf_of_unproduced hnone] at hd
          cases hd
      · rintro ⟨u, hu, hd⟩
        exact ⟨u, hmem.mpr (.inl hu), hd⟩
    refine ⟨.refl _ _, h.traversed, h.fresh, h.made, hdone, fun z hz ha => ?_, fun u hu hp => ?_,
      fun u hu hp => ?_, fun d => (h.holds.chains d).trans (hsame d).symm, h.holds.lists⟩
    · obtain ⟨u, hu, hent⟩ := h.below z hz ha
      exact ⟨u, hmem.mpr (.inl hu), hent⟩
    · rcases hmem.mp hu with hu | rfl
      · exact h.activated u hu hp
      · exact h.activated u (hcase.resolve_left hp) hp
    · rcases hmem.mp hu with hu | rfl
      · exact h.holds.chained u hu hp
      · exact h.holds.chained u (hcase.resolve_left (h.traversed.producer ▸ hp)) hp
  · obtain ⟨hp, ha⟩ := not_or.mp hskip
    rw [not_not] at ha
    rw [h.traversed.producer] at hp
    have hopen : s₀.IsOpen w := ⟨hp, hsep.inactive v w hv hw hp⟩
    have hnew : w ∉ done := fun hd => h.activated w hd hp ha
    have hbelow : ∀ z, s₀.Enters w z → s₀.Enters v z := fun z hz =>
      Entered.descend (.root (List.mem_singleton_self _) hv.opened) hw hz
    have hinactive : ∀ z, s₀.Enters w z → s.activation z = none := by
      intro z hz
      by_contra hz'
      obtain ⟨u, hu, hent⟩ := h.below z (hbelow z hz) hz'
      exact hsep.uniqueConsumers.disjoint hrank hv hw (h.dependencies u hu)
        (fun heq => hnew (heq ▸ hu)) hz hent
    obtain ⟨hadv, hact, c, hc, hjoin⟩ := hspec.enters w h.traversed (hv.input hw hopen) hinactive
      h.fresh (fun g' hg' => Option.some.inj hg' ▸ h.made) hok
    obtain ⟨hgroup, hlist⟩ := hjoin g rfl
    have htrav := h.traversed.trans hadv.traversed
    refine ⟨hadv.mono hbelow, htrav, hadv.fresh h.fresh, h.made.trans_le hadv.nextGroup, hdone,
      fun z hz ha => ?_, fun u hu hp => ?_, fun u hu hp => ?_, fun d => ?_, fun d hd => ?_⟩
    · rcases hadv.activated z ha with ha | ⟨hent, -⟩
      · obtain ⟨u, hu, hent⟩ := h.below z hz ha
        exact ⟨u, hmem.mpr (.inl hu), hent⟩
      · exact ⟨w, hmem.mpr (.inr rfl), hent⟩
    · rcases hmem.mp hu with hu | rfl
      · exact hadv.still u (h.activated u hu hp)
      · exact hact
    · rw [htrav.chainOf_eq]
      rcases hmem.mp hu with hu | rfl
      · have hold := h.holds.chained u hu (hadv.traversed.producer ▸ hp)
        rwa [h.traversed.chainOf_eq] at hold
      · exact ⟨c, hc⟩
    · rw [hgroup, h.holds.chains, htrav.chainOf_eq, h.traversed.chainOf_eq]
      constructor
      · rintro (⟨u, hu, hd⟩ | rfl)
        · exact ⟨u, hmem.mpr (.inl hu), hd⟩
        · exact ⟨w, hmem.mpr (.inr rfl), hc⟩
      · rintro ⟨u, hu, hd⟩
        rcases hmem.mp hu with hu | rfl
        · exact .inl ⟨u, hu, hd⟩
        · exact .inr (Option.some.inj (hd.symm.trans hc))
    · rcases (hgroup d).mp hd with hd | rfl
      · exact hadv.lists (h.holds.lists d hd)
      · exact hlist

/-- The loop over the Fill nodes. -/
lemma Visited.visitAll {visit : Visit SvRef} {g : GroupRef}
    (hspec : VisitSpec s₀ root (some g) visit) (hv : s₀.Enters root v) (nodes : List NodeRef) :
    ∀ {done : List SvRef} {depth depth' : ℕ} {s s' : RequestHeap}, Visited s₀ v g done s →
      (∀ n ∈ nodes, ∀ w, (s₀.objs.node n).sv = some w → w ∈ s₀.dependencies v) →
      visitAll (visitNode visit) 1 nodes depth s = (.ok (some depth'), s') →
      Advances (some g) (s₀.Enters v) s s' ∧
        Visited s₀ v g (done ++ nodes.filterMap fun n => (s₀.objs.node n).sv) s' := by
  induction nodes with
  | nil =>
      intro done depth depth' s s' h _ hok
      obtain ⟨-, rfl⟩ := Prod.mk.inj hok
      rw [List.filterMap_nil, List.append_nil]
      exact ⟨.refl _ _, h⟩
  | cons n nodes ih =>
      intro done depth depth' s s' h hdeps hok
      rw [RequestHeap.visitAll, visitNode, nodeSv, h.traversed.objs] at hok
      cases hsv : (s₀.objs.node n).sv with
      | none =>
          rw [hsv] at hok
          cases hok
      | some w =>
          rw [hsv] at hok
          dsimp only at hok
          rcases hr : visit w s with ⟨e | _ | d, s₁⟩
          · rw [hr] at hok
            cases hok
          · rw [hr] at hok
            cases hok
          · rw [hr] at hok
            obtain ⟨hadv, hone⟩ := h.visit hord hnative hsep hspec hv
              (hdeps n List.mem_cons_self w hsv) hr
            obtain ⟨hrest, hall⟩ := ih hone (fun m hm => hdeps m (List.mem_cons_of_mem _ hm)) hok
            refine ⟨hadv.trans hrest fun g' hg' => Option.some.inj hg' ▸ h.made, ?_⟩
            rw [List.append_assoc] at hall
            simpa only [List.filterMap_cons, hsv, List.singleton_append] using hall

omit hord hsep in
/-- Nothing happens at a variable without a producer, or at an activated one. -/
lemma traverse_skips (fuel : ℕ) (criteria : PerformanceCriteria) (group : Option GroupRef)
    {depth : ℕ} (htrav : s₀.Traversed s) (hv : s.producer v = none ∨ s.activation v ≠ none)
    (hok : traverse fuel v criteria group s = (.ok (some depth), s')) : s' = s := by
  cases fuel with
  | zero => cases hok
  | succ fuel =>
      rw [traverse] at hok
      cases hcriteria : backPropagateCriteria criteria with
      | error e =>
          rw [hcriteria] at hok
          cases hok
      | ok nextCriteria =>
          rw [hcriteria] at hok
          cases hp : s.producer v with
          | none =>
              rw [hp] at hok
              exact (Prod.mk.inj hok).2.symm
          | some p =>
              rw [hp] at hok hv
              obtain ⟨a, ha⟩ := Option.ne_none_iff_exists'.mp (hv.resolve_left fun h => by cases h)
              simp only [htrav.native ▸ hnative p, ha] at hok
              cases hc : s.compChain p with
              | error e =>
                  rw [hc] at hok
                  cases hok
              | ok c =>
                  rw [hc] at hok
                  exact (Prod.mk.inj hok).2.symm

omit hord hnative hsep in
lemma compChain_eq_ok (h : s.compChain p = .ok c) : (s.objs.node p).completionChain = some c := by
  unfold compChain at h
  split_ifs at h
  cases hc : (s.objs.node p).completionChain with
  | none =>
      rw [hc] at h
      cases h
  | some c' =>
      rw [hc] at h
      exact congrArg some (Except.ok.inj h)

/-- The visit of what a chain consumes, when it starts its request. -/
lemma visitChain_visited {visit : Visit SvRef} {g : GroupRef} {depth : ℕ}
    (hspec : VisitSpec s₀ root (some g) visit) (hv : s₀.Enters root v)
    (hp : s₀.producer v = some p) (hc : s₀.chainOf v = some c) (h : Visited s₀ v g [] s)
    (hok : visitChain visit c s = (.ok (some depth), s')) :
    Advances (some g) (s₀.Enters v) s s' ∧ Visited s₀ v g (s₀.dependencies v) s' := by
  have hdeps : s₀.dependencies v = s₀.consumed c := dependencies_eq hc
  unfold visitChain at hok
  rw [h.traversed.objs] at hok
  rcases hiter : s₀.objs.iterFill c with e | _ | nodes
  · rw [hiter] at hok
    cases hok
  · rw [hiter] at hok
    cases hok
  · rw [hiter] at hok
    have hsvs : s₀.dependencies v = nodes.filterMap fun n => (s₀.objs.node n).sv := by
      rw [hdeps, consumed, hiter]
    dsimp only at hok
    rcases hall : visitAll (visitNode visit) 1 nodes 0 s with ⟨e | _ | d, s₁⟩
    · rw [hall] at hok
      cases hok
    · rw [hall] at hok
      cases hok
    · rw [hall] at hok
      obtain ⟨hadv, hvisited⟩ := Visited.visitAll hord hnative hsep hspec hv nodes h
        (fun n hn w hw => hsvs ▸ List.mem_filterMap.mpr ⟨n, hn, hw⟩) hall
      rw [List.nil_append, ← hsvs] at hvisited
      dsimp only at hok
      rw [hvisited.traversed.objs] at hok
      rw [chainOf_eq hp] at hc
      cases hfirst : (s₀.objs.chain c).firstNode with
      | none =>
          rw [hfirst] at hok
          cases hok
      | some first =>
          have hprev := (hsep.own v p c hv hp hc).2 first hfirst
          rw [hfirst] at hok
          dsimp only at hok
          rw [visitPrev, hvisited.traversed.objs, hprev] at hok
          obtain ⟨-, rfl⟩ := Prod.mk.inj hok
          exact ⟨hadv, hvisited⟩

omit hord hnative hsep in
/-- The new group of an output, before anything below it is visited. -/
lemma Visited.start (c : ChainRef) (group : Option GroupRef) (htrav : s₀.Traversed s)
    (hinactive : ∀ z, s₀.Enters v z → s.activation z = none)
    (hfresh : ∀ g, s.nextGroup ≤ g → s.groupChains g = [])
    (hmade : ∀ g, group = some g → g < s.nextGroup) :
    Visited s₀ v s.nextGroup [] (s.joinGroup c group).newGroup := by
  obtain ⟨hnext, hact⟩ := s.newGroup_joinGroup c group
  have hjoined : ∀ g, s.nextGroup ≤ g → (s.joinGroup c group).newGroup.groupChains g = [] :=
    fun g hg => ((s.mem_joinGroup c group g).1
      fun heq => absurd (hmade g heq) hg.not_gt).trans (hfresh g hg)
  refine ⟨htrav.trans (joinGroup_traversed c group),
    fun g hg => hjoined g ((Nat.le_succ _).trans ?_), hnext ▸ Nat.lt_succ_self _,
    fun _ hw => absurd hw List.not_mem_nil, fun z hz ha => ?_,
    fun _ hw => absurd hw List.not_mem_nil, ?_⟩
  · rwa [hnext] at hg
  · rw [hact] at ha
    exact absurd (hinactive z hz) ha
  · have hnil := hjoined _ le_rfl
    exact ⟨fun _ hw => absurd hw List.not_mem_nil, by simp [hnil], by simp [hnil]⟩

omit hord hnative hsep in
/-- The output is activated when everything that its chain consumes was visited. -/
lemma Visited.activate {group : Option GroupRef} {activation : PerformanceCriteria × ℕ}
    (hvisited : Visited s₀ v s.nextGroup (s₀.dependencies v) s')
    (hmade : ∀ g, group = some g → g < s.nextGroup) (hself : s₀.Enters v v)
    (hc : s₀.chainOf v = some c)
    (hadv : Advances (some s.nextGroup) (s₀.Enters v) (s.joinGroup c group).newGroup s') :
    let s'' := { s' with activation := Function.update s'.activation v (some activation) }
    Advances group (s₀.Enters v) s s'' ∧ s''.activation v ≠ none ∧
      ∃ c, s₀.chainOf v = some c ∧ ∀ g, group = some g →
        (∀ d, d ∈ s''.groupChains g ↔ d ∈ s.groupChains g ∨ d = c) ∧ g ∈ s''.chainGroups c := by
  intro s''
  have hjoin := s.mem_joinGroup c group
  have htrav := joinGroup_traversed (s := s) c group
  obtain ⟨hnext, hact⟩ := s.newGroup_joinGroup c group
  have hle : s.nextGroup ≤ (s.joinGroup c group).newGroup.nextGroup := hnext.symm ▸ Nat.le_succ _
  have hactive : ∀ z, s''.activation z ≠ none ↔ z = v ∨ s'.activation z ≠ none := by
    intro z
    by_cases hz : z = v
    · simp [s'', hz]
    · simp [s'', hz]
  have hkept : ∀ {g}, g < s.nextGroup →
      s'.groupChains g = (s.joinGroup c group).newGroup.groupChains g := fun hg =>
    hadv.kept _ (hg.trans_le hle) fun heq => absurd (Option.some.inj heq) hg.ne'
  have hholds : s'.Holds s.nextGroup (s'.consumed c) := by
    rw [hvisited.traversed.consumed_eq, ← dependencies_eq hc]
    exact hvisited.holds
  have hc' : s'.chainOf v = some c := by rw [hvisited.traversed.chainOf_eq, hc]
  refine ⟨⟨htrav.trans (hadv.traversed.trans ⟨rfl, rfl, rfl, rfl, rfl, rfl, rfl⟩),
    hle.trans hadv.nextGroup, fun _ => hvisited.fresh,
    fun g hg hne => (hkept hg).trans ((hjoin g).1 hne),
    fun {d g} hg => hadv.lists ((hjoin g).2.2.2 d hg), fun z hz => ?_, fun z hz => ?_⟩,
    (hactive v).mpr (.inl rfl), c, hc,
    fun g hg => ⟨fun d => ?_, hadv.lists ((hjoin g).2.2.1 hg)⟩⟩
  · exact (hactive z).mpr (.inr (hadv.still z (hact ▸ hz)))
  · rcases (hactive z).mp hz with rfl | hz
    · -- The group of `v` is complete: everything the chain consumes was visited.
      exact .inr ⟨hself, c, s.nextGroup, hc', le_rfl, hvisited.made,
        ⟨hholds.chained, hholds.chains, hholds.lists⟩⟩
    · exact (hadv.activated z hz).imp (fun h => hact ▸ h) fun ⟨he, c, g, hc, hg, hlt, hold⟩ =>
        ⟨he, c, g, hc, hle.trans hg, hlt, ⟨hold.chained, hold.chains, hold.lists⟩⟩
  · exact (hkept (hmade g hg)).symm ▸ (hjoin g).2.1 hg d

/-- **A traversal of separate chains.** -/
lemma traverse_spec (fuel : ℕ) : ∀ (criteria : PerformanceCriteria) (group : Option GroupRef),
    VisitSpec s₀ root group fun v s => traverse fuel v criteria group s := by
  induction fuel with
  | zero => exact fun _ _ => ⟨fun _ _ _ _ _ _ hok => (by cases hok),
      fun _ _ _ _ _ _ _ _ _ hok => by cases hok⟩
  | succ fuel ih =>
      refine fun criteria group => ⟨fun v s s' depth htrav hv hok =>
        traverse_skips hnative (fuel + 1) criteria group htrav hv hok,
        fun v s s' depth htrav hv hinactive hfresh hmade hok => ?_⟩
      have hself : s₀.Enters v v := .root (List.mem_singleton_self _) hv.opened
      obtain ⟨p, hp⟩ := Option.ne_none_iff_exists'.mp hv.opened.1
      rw [traverse, htrav.producer, hp] at hok
      cases hcriteria : backPropagateCriteria criteria with
      | error e =>
          rw [hcriteria] at hok
          cases hok
      | ok nextCriteria =>
      simp only [hcriteria, htrav.native ▸ hnative p, hinactive v hself] at hok
      cases hcomp : s.compChain p with
      | error e =>
          rw [hcomp] at hok
          cases hok
      | ok c =>
      rw [hcomp] at hok
      dsimp only at hok
      have hc : s₀.chainOf v = some c := by
        rw [chainOf_eq hp, ← htrav.objs]
        exact compChain_eq_ok hcomp
      rcases hchain : visitChain
        (fun var s₁ => traverse fuel var nextCriteria (some s.nextGroup) s₁) c
        (s.joinGroup c group).newGroup with ⟨e | _ | d, s₂⟩
      · rw [hchain] at hok
        cases hok
      · rw [hchain] at hok
        cases hok
      rw [hchain, activateAt, activate] at hok
      obtain ⟨hadv, hvisited⟩ := visitChain_visited hord hnative hsep
        (ih nextCriteria (some s.nextGroup)) hv hp hc
        (.start c group htrav hinactive hfresh hmade) hchain
      by_cases hisSome : (s₂.activation v).isSome = true
      · rw [if_pos hisSome] at hok
        cases (Prod.mk.inj hok).1
      rw [if_neg hisSome] at hok
      obtain ⟨-, rfl⟩ := Prod.mk.inj hok
      exact hvisited.activate hmade hself hc hadv

end Call

/-- `activate_sv` of separate chains. -/
lemma activateSv_advances (hord : s.Ordered) (hnative : ∀ n, s.native n = none)
    (hsep : s.Separate v) (hfresh : ∀ g, s.nextGroup ≤ g → s.groupChains g = [])
    {criteria : PerformanceCriteria}
    (hok : s.activateSv v criteria = (.ok (some ()), s')) :
    Advances none (s.Enters v) s s' := by
  unfold activateSv at hok
  by_cases hactive : (s.activation v).isSome = true
  · rw [if_pos hactive] at hok
    cases (Prod.mk.inj hok).1
  rw [if_neg hactive] at hok
  have hspec := traverse_spec hord hnative hsep (s.objs.nextNode + 1) criteria none
  rcases hr : traverse (s.objs.nextNode + 1) v criteria none s with ⟨e | _ | d, s₁⟩
  · rw [hr] at hok
    cases hok
  · rw [hr] at hok
    cases hok
  · rw [hr] at hok
    obtain ⟨-, rfl⟩ := Prod.mk.inj hok
    have hnone : s.activation v = none := Option.not_isSome_iff_eq_none.mp hactive
    by_cases hp : s.producer v = none
    · obtain rfl := hspec.skips v (.refl s) (.inl hp) hr
      exact .refl _ _
    · refine (hspec.enters v (.refl s) (.root (List.mem_singleton_self v) ⟨hp, hnone⟩)
        (fun z hz => hz.opened.2) hfresh (fun _ h => by cases h) hr).1

/-! ## Runs -/

/-- What happens to the graph of a server. -/
inductive GraphAction
  /-- Requests, sessions and variables. -/
  | insert (a : Action)
  | activateSv (var : SvRef) (criteria : PerformanceCriteria)

/-- What is inserted activates nothing by itself, and calls succeed. -/
def GraphEnabled (s : RequestHeap) : GraphAction → Prop
  | .insert a => s.Enabled a ∧ InsertsOnly a
  | .activateSv var criteria => (s.activateSv var criteria).1 = .ok (some ())

instance (s : RequestHeap) : ∀ a, Decidable (s.GraphEnabled a)
  | .insert a => inferInstanceAs (Decidable (s.Enabled a ∧ InsertsOnly a))
  | .activateSv var criteria =>
      inferInstanceAs (Decidable ((s.activateSv var criteria).1 = .ok (some ())))

/-- The effect on the heap. -/
def graphApply (uuid3 : ℕ → Text → VarId) (s : RequestHeap) : GraphAction → RequestHeap
  | .insert a => s.apply uuid3 a
  | .activateSv var criteria => (s.activateSv var criteria).2

/-- Semantic requests and successful activations, in every order. -/
def graphSystem (uuid3 : ℕ → Text → VarId) (timeout : ℕ) :
    TransitionSystem RequestHeap GraphAction :=
  .ofFun (start timeout) GraphEnabled (graphApply uuid3)

/-- Every call meets separate chains. -/
def SeparateChains (s : RequestHeap) : GraphAction → Prop
  | .insert _ => True
  | .activateSv var _ => s.Separate var

/-- What the graph of semantic requests keeps while the chains are separate. -/
structure GroupsInv (s : RequestHeap) : Prop where
  ordered : s.Ordered
  returned : s.ReturnedInv
  endsOnce : s.objs.EndsOnce
  native : ∀ n, s.native n = none
  fresh : ∀ g, s.nextGroup ≤ g → s.groupChains g = []
  produced : ∀ v, s.activation v ≠ none → s.producer v ≠ none
  gathered : ∀ v p c, s.activation v ≠ none → s.producer v = some p →
    (s.objs.chain c).genNode = some p →
      (s.objs.node p).completionChain = some c ∧ ∃ g < s.nextGroup, s.Gathers g c

/-! ### Requests -/

/-- The fill iterator over nodes that stay as they are. -/
lemma yields_appended {g g' : GraphObjects} (h : g.Forward)
    (hnode : ∀ n < g.nextNode, g'.node n = g.node n) : ∀ {l : List NodeRef} {q : NodeRef},
      q < g.nextNode → Yields g.completionChainFillNext (some q) l →
        Yields g'.completionChainFillNext (some q) l
  | [], q, hq, hl => by
      rw [Yields, completionChainFillNext, hnode q hq]
      exact hl
  | n :: l, q, hq, hl => by
      obtain ⟨cursor, hc, hl⟩ := hl
      refine ⟨cursor, ?_, ?_⟩
      · rw [completionChainFillNext, hnode q hq]
        exact hc
      · rw [completionChainFillNext] at hc
        by_cases hgen : (g.node q).isGen = true
        · rw [if_pos hgen] at hc
          cases hc
        rw [if_neg hgen] at hc
        obtain ⟨-, rfl⟩ := Prod.mk.inj (Option.some.inj (Except.ok.inj hc))
        cases hnext : (g.node q).edgeANextNode with
        | none =>
            -- There is no node behind the last one, so the iterator would have raised.
            rw [hnext] at hl
            cases l with
            | nil => cases hl
            | cons m l =>
                obtain ⟨_, hstop, -⟩ := hl
                cases hstop
        | some m =>
            rw [hnext] at hl
            exact yields_appended h hnode (h.next hnext).2.1 hl

/-- What the chain of an old Gen node consumes stays. -/
lemma Requested.consumed_eq (hr : s.Requested s') (hord : s.Ordered)
    (hgen : (s.objs.node p).isGen = true) (hp : p < s.objs.nextNode)
    (hc : (s.objs.node p).completionChain = some c) :
    s'.consumed c = s.consumed c ∧ ∀ w ∈ s.consumed c, ∃ n < p, (s.objs.node n).sv = some w := by
  obtain ⟨hclt, q, hfirst, hpath⟩ := hord.forward.chain hgen hc
  obtain ⟨hle, l, hl, hlt, hlen⟩ := hord.forward.yields hpath hgen
  have hbound : l.length < s.objs.nextNode + 1 :=
    Nat.lt_succ_of_lt ((Nat.le_add_right _ _).trans hlen |>.trans_lt hp)
  have hiter : s.objs.iterFill c = .ok (some l) := by
    rw [GraphObjects.iterFill, hfirst]
    exact drain_of_yields hl hbound
  have hiter' : s'.objs.iterFill c = .ok (some l) := by
    rw [GraphObjects.iterFill, hr.objs.chain c hclt, hfirst]
    exact drain_of_yields (yields_appended hord.forward hr.objs.node (hle.trans_lt hp) hl)
      (hbound.trans_le (Nat.succ_le_succ hr.objs.nextNode))
  refine ⟨?_, fun w hw => ?_⟩
  · rw [consumed, consumed, hiter, hiter']
    exact List.filterMap_congr fun n hn => by rw [hr.objs.node n ((hlt n hn).trans hp)]
  · rw [consumed, hiter] at hw
    obtain ⟨n, hn, hsv⟩ := List.mem_filterMap.mp hw
    exact ⟨n, hlt n hn, hsv⟩

/-- A chain that ends in an old node is an old chain. -/
lemma Requested.genNode_iff (hr : s.Requested s') (hends : s.objs.EndsOnce)
    (hp : p < s.objs.nextNode) :
    (s'.objs.chain c).genNode = some p ↔ (s.objs.chain c).genNode = some p := by
  constructor
  · intro hc
    rcases Nat.lt_or_ge c s.objs.nextChain with hlt | hge
    · rwa [hr.objs.chain c hlt] at hc
    · exact (hr.objs.ends c p hge hc).resolve_right hp.not_ge
  · intro hc
    rwa [hr.objs.chain c (hends.bounded c p hc).1]

/-- **Step lemma for requests.** -/
lemma GroupsInv.insert (h : GroupsInv s) {a : Action} (ha : InsertsOnly a) :
    GroupsInv (s.apply uuid3 a) := by
  have hr : s.Requested (s.apply uuid3 a) := requested_apply h.ordered h.endsOnce ha
  have hknown : KnownArguments uuid3 s a := by
    cases a with
    | addNativeRequest sessionId request => exact ha.elim
    | _ => exact trivial
  obtain ⟨hord', hret'⟩ := ordered_apply h.ordered h.returned a hknown
  generalize s.apply uuid3 a = s' at hr hord' hret'
  refine ⟨hord', hret', hr.endsOnce, fun n => hr.native ▸ h.native n, fun g hg => ?_,
    fun v hv hnone => ?_, fun v p c hv hp hc => ?_⟩
  · rw [hr.groupChains]
    exact h.fresh g (hr.nextGroup ▸ hg)
  · obtain ⟨p, hp⟩ := Option.ne_none_iff_exists'.mp (h.produced v (hr.activation ▸ hv))
    rw [hr.kept hp] at hnone
    cases hnone
  · rw [hr.activation] at hv
    obtain ⟨q, hq⟩ := Option.ne_none_iff_exists'.mp (h.produced v hv)
    obtain rfl : q = p := Option.some.inj ((hr.kept hq).symm.trans hp)
    have hplt : q < s.objs.nextNode := (h.ordered.writes (h.ordered.producer hq)).1
    have hgen : (s.objs.node q).isGen = true := by
      rcases h.ordered.producer hq with hgen | ⟨node, hnode, -⟩
      · exact hgen.1
      · rw [h.native] at hnode
        cases hnode
    obtain ⟨hown, g, hg, hgather⟩ := h.gathered v q c hv hq ((hr.genNode_iff h.endsOnce hplt).mp hc)
    obtain ⟨hconsumed, hread⟩ := hr.consumed_eq h.ordered hgen hplt hown
    refine ⟨hr.objs.node q hplt ▸ hown, g, hr.nextGroup ▸ hg, fun d => ?_, fun d hd => ?_⟩
    · rw [hr.groupChains, hgather.1 d, hconsumed]
      refine exists_congr fun w => and_congr_right fun hw => ?_
      obtain ⟨n, hn, hsv⟩ := hread w hw
      constructor
      · rintro ⟨x, hx, hd⟩
        have hxlt : x < s.objs.nextNode := (h.ordered.writes (h.ordered.producer hx)).1
        exact ⟨x, hr.kept hx, (hr.genNode_iff h.endsOnce hxlt).mpr hd⟩
      · rintro ⟨x, hx, hd⟩
        -- A producer of what an old node consumes is older.
        have hsv' : (s'.objs.node n).sv = some w := by rw [hr.objs.node n (hn.trans hplt), hsv]
        have hxlt : x < s.objs.nextNode :=
          (hord'.producer_le hsv' hx).trans_lt (hn.trans hplt)
        exact ⟨x, (hr.new hx).resolve_right hxlt.not_ge, (hr.genNode_iff h.endsOnce hxlt).mp hd⟩
    · rw [hr.groupChains] at hd
      rw [hr.chainGroups]
      exact hgather.2 d hd

/-! ### Activations -/

/-- A group that holds the chains of what an entered chain consumes gathers them. -/
lemma Separate.gathers (hsep : s.Separate root) (hends : s.objs.EndsOnce) {g : GroupRef}
    (hv : s.Enters root v) (hc : s.chainOf v = some c) (htrav : s.Traversed s')
    (h : s'.Holds g (s'.consumed c)) : s'.Gathers g c := by
  refine ⟨fun d => (h.chains d).trans (exists_congr fun w => and_congr_right fun hw => ?_), h.lists⟩
  have hchained := h.chained w hw
  rw [htrav.consumed_eq] at hw
  rw [htrav.producer, htrav.chainOf_eq] at hchained
  rw [htrav.chainOf_eq, htrav.produces_eq]
  have hdeps : w ∈ s.dependencies v := dependencies_eq hc ▸ hw
  cases hq : s.producer w with
  | none =>
      rw [chainOf_of_unproduced hq]
      exact iff_of_false (fun h => by cases h) fun ⟨_, hx, _⟩ => by cases hq.symm.trans hx
  | some q =>
      have hp : s.producer w ≠ none := fun hnone => by cases hq.symm.trans hnone
      have hent : s.Enters root w := hv.input hdeps ⟨hp, hsep.inactive v w hv hdeps hp⟩
      obtain ⟨d', hd'⟩ := hchained hp
      have hcomp : (s.objs.node q).completionChain = some d' := chainOf_eq hq ▸ hd'
      have hown := (hsep.own w q d' hent hq hcomp).1
      rw [hd']
      constructor
      · intro heq
        obtain rfl := Option.some.inj heq
        exact ⟨q, hq, hown⟩
      · rintro ⟨x, hx, hd⟩
        obtain rfl := Option.some.inj (hq.symm.trans hx)
        rw [hends.once d d' q hd hown]

/-- **Step lemma for activations.** -/
lemma GroupsInv.activateSv (h : GroupsInv s) {criteria : PerformanceCriteria}
    (hsep : s.Separate v) (hok : (s.activateSv v criteria).1 = .ok (some ())) :
    GroupsInv (s.activateSv v criteria).2 := by
  have hadv : Advances none (s.Enters v) s (s.activateSv v criteria).2 :=
    activateSv_advances h.ordered h.native hsep h.fresh (Prod.ext hok rfl)
  generalize (s.activateSv v criteria).2 = s' at hadv
  have htrav := hadv.traversed
  have hgathers : ∀ {g c}, g < s.nextGroup → s.Gathers g c → s'.Gathers g c := by
    intro g c hg hgather
    rw [Gathers, hadv.kept g hg (fun h => by cases h), htrav.consumed_eq, htrav.produces_eq]
    exact ⟨hgather.1, fun d hd => hadv.lists (hgather.2 d hd)⟩
  refine ⟨h.ordered.inserted htrav.inserted, h.returned.inserted htrav.inserted,
    htrav.objs ▸ h.endsOnce, fun n => htrav.native ▸ h.native n, hadv.fresh h.fresh,
    fun z hz => ?_, fun z p c hz hp hc => ?_⟩
  · rw [htrav.producer]
    exact (hadv.activated z hz).elim (h.produced z) fun ⟨he, _⟩ => he.opened.1
  · rw [htrav.producer] at hp
    rw [htrav.objs] at hc ⊢
    rcases hadv.activated z hz with hz | ⟨he, c', g, hc', -, hlt, hholds⟩
    · obtain ⟨hown, g, hg, hgather⟩ := h.gathered z p c hz hp hc
      exact ⟨hown, g, hg.trans_le hadv.nextGroup, hgathers hg hgather⟩
    · rw [htrav.chainOf_eq] at hc'
      have hcomp : (s.objs.node p).completionChain = some c' := chainOf_eq hp ▸ hc'
      obtain rfl := h.endsOnce.once c c' p hc (hsep.own z p c' he hp hcomp).1
      exact ⟨hcomp, g, hlt, hsep.gathers h.endsOnce he hc' htrav hholds⟩

/-! ### Every run -/

/-- **Run lemma.** -/
lemma groups_invariant (uuid3 : ℕ → Text → VarId) (timeout : ℕ) :
    (graphSystem uuid3 timeout).IsInvariantUnder SeparateChains GroupsInv where
  init s h0 := by
    obtain rfl := h0
    exact ⟨ordered_start timeout, fun _ _ h => (by cases h), endsOnce_empty, fun _ => rfl,
      fun _ _ => rfl, fun _ h => absurd rfl h, fun _ _ _ h => absurd rfl h⟩
  step s a s' hs hguard hstep := by
    obtain ⟨hen, rfl⟩ := hstep
    cases a with
    | insert a => exact hs.insert hen.2
    | activateSv var criteria => exact hs.activateSv hguard hen

/-- **Groups are complete while chains are separate.**  In every run of semantic requests and
successful activations in which each call meets separate chains, every chain whose output is
activated has a group, one that was made, of exactly the chains that produce what it consumes, and
they list it. -/
theorem chain_groups_complete (uuid3 : ℕ → Text → VarId) (timeout : ℕ) {s : RequestHeap}
    (hs : (graphSystem uuid3 timeout).ReachableUnder SeparateChains s) {c : ChainRef} {v : SvRef}
    (hc : s.Produces c v) (hv : s.activation v ≠ none) :
    ∃ group < s.nextGroup, s.Gathers group c := by
  have h := (groups_invariant uuid3 timeout).holds hs
  obtain ⟨p, hp, hgen⟩ := hc
  exact (h.gathered v p c hv hp hgen).2

/-- A text, the placeholders of outputs of earlier requests, given by the counters of their ids, and
an output. -/
def onOutputs (text : Text) (inputs : List (Text × Text)) : SemanticCallPayload where
  template := some (text ++ inputs.flatMap (fun input => placeholderSource input.1) ++
    placeholderSource ['o'])
  parameters := some (inputs.map (fun input =>
      { name := some input.1, isOutput := some false,
        varId := some (escapeUuid3 1 input.2).val }) ++
    [{ name := some ['o'], isOutput := some true }])

/-- Two requests, one on the output of the first, and one on both outputs. -/
def sharedProducer : List Action :=
  [.registerSession 0, .addRequest 0 0 (onOutputs ['a'] []), .addRequest 0 0 (onOutputs ['b'] []),
    .addRequest 0 0 (onOutputs [] [(['x'], ['0'])]),
    .addRequest 0 0 (onOutputs [] [(['x'], ['0']), (['y'], ['1'])])]

/-- The requests are inserted, and these outputs are activated. -/
def sharedProducerState (outputs : List SvRef) : RequestHeap :=
  (sharedProducer.map GraphAction.insert ++
    outputs.map (GraphAction.activateSv · .latency)).foldl (graphApply escapeUuid3) (start 1)

/-- The calls come after the requests. -/
def Inserting : GraphAction → Prop
  | .insert _ => True
  | .activateSv _ _ => False

instance : ∀ a, Decidable (Inserting a)
  | .insert _ => inferInstanceAs (Decidable True)
  | .activateSv _ _ => inferInstanceAs (Decidable False)

/-- The two outputs that a request consumes are produced by chains of one group. -/
theorem chain_groups_complete_two : ∃ group < (sharedProducerState [5]).nextGroup,
    (sharedProducerState [5]).Gathers group 3 := by
  have hfacts : Performs GraphEnabled (fun _ a => Inserting a) (graphApply escapeUuid3) (start 1)
        (sharedProducer.map GraphAction.insert) ∧
      (sharedProducerState []).GraphEnabled (.activateSv 5 .latency) ∧
      (sharedProducerState [5]).producer 5 = some 8 ∧
      ((sharedProducerState [5]).objs.chain 3).genNode = some 8 ∧
      (sharedProducerState [5]).activation 5 ≠ none := by
    decide +kernel
  obtain ⟨hinsert, hen, hp, hgen, hv⟩ := hfacts
  have hs : (graphSystem escapeUuid3 1).ReachableUnder SeparateChains (sharedProducerState []) := by
    refine ReachableUnder.mono (fun s a ha => ?_) (.foldl _ (.init rfl) hinsert)
    cases a with
    | insert a => exact trivial
    | activateSv var criteria => exact ha.elim
  have hsep : (sharedProducerState []).SeparateChains (.activateSv 5 .latency) :=
    separate_of_closed (l := [5, 3, 2, 1, 0]) (by decide) (by decide +kernel) (by decide +kernel)
      (by decide +kernel) (by decide +kernel)
  exact chain_groups_complete escapeUuid3 1 (.step hs hsep ⟨hen, rfl⟩) ⟨8, hp, hgen⟩ hv

/-- A request on an output that another request consumes too: when the other one was activated
before, its group lacks the producer. -/
theorem shared_producer_lost : (graphSystem escapeUuid3 1).Reachable (sharedProducerState [4, 5]) ∧
    (sharedProducerState [4, 5]).Produces 3 5 ∧ (sharedProducerState [4, 5]).activation 5 ≠ none ∧
    ¬ ∃ group, (sharedProducerState [4, 5]).Gathers group 3 := by
  have hfacts : Performs GraphEnabled (fun _ _ => True) (graphApply escapeUuid3) (start 1)
        (sharedProducer.map GraphAction.insert ++
          ([4, 5] : List SvRef).map (GraphAction.activateSv · .latency)) ∧
      ((sharedProducerState [4, 5]).producer 5 = some 8 ∧
        ((sharedProducerState [4, 5]).objs.chain 3).genNode = some 8 ∧
        (sharedProducerState [4, 5]).activation 5 ≠ none) ∧
      (1 ∈ (sharedProducerState [4, 5]).consumed 3 ∧ 3 ∈ (sharedProducerState [4, 5]).consumed 3) ∧
      ((sharedProducerState [4, 5]).producer 1 = some 1 ∧
        ((sharedProducerState [4, 5]).objs.chain 0).genNode = some 1 ∧
        (sharedProducerState [4, 5]).chainGroups 0 = [0]) ∧
      (sharedProducerState [4, 5]).producer 3 = some 3 ∧
        ((sharedProducerState [4, 5]).objs.chain 1).genNode = some 3 ∧
        (sharedProducerState [4, 5]).chainGroups 1 = [2] := by
    decide +kernel
  obtain ⟨hrun, ⟨hp, hgen, hv⟩, ⟨hmem₁, hmem₃⟩, ⟨hp₁, hgen₁, hlist₁⟩, hp₃, hgen₃, hlist₃⟩ := hfacts
  refine ⟨.foldl _ (.init rfl) hrun, ⟨8, hp, hgen⟩, hv, fun ⟨g, hiff, hlists⟩ => ?_⟩
  -- The producers are in different groups, and list no other.
  have h₁ := hlists 0 ((hiff 0).mpr ⟨1, hmem₁, 1, hp₁, hgen₁⟩)
  have h₃ := hlists 1 ((hiff 1).mpr ⟨3, hmem₃, 3, hp₃, hgen₃⟩)
  rw [hlist₁, List.mem_singleton] at h₁
  rw [hlist₃, List.mem_singleton] at h₃
  exact absurd (h₁.symm.trans h₃) (by decide)

end RequestHeap

end ParrotServe
