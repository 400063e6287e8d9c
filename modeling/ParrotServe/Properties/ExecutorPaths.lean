import ParrotServe.Model.GraphExecutor
import ParrotServe.Properties.ContextRuns
import Mathlib.Data.List.TakeWhile

/-!
# What the contexts of a task stand for

A cached context stands for the last variable it was cached for, and a root for all of them: its
`Segment`.  Along the path of a list of variables the segments make up the list, so when every
context of the path holds the contents of its segment, what an engine reads along the parents of
the last one is the contents of the list (`KeyPath.accumulated`).

The Fill that `execute` sends at the first node of a context carries exactly the contents of the
context's segment (`KeyPath.fillPayload_eq`): with token ids because those of the fused nodes are
added, and otherwise only if no node was fused.
-/

namespace ParrotServe

lemma FillsThenGen.any_isGen {chain : List ChainNode} (h : FillsThenGen chain) :
    chain.any ChainNode.isGen = true := by
  obtain ⟨node, hlast, hgen⟩ := (Option.any_eq_true _ _).mp h.2
  exact List.any_eq_true.mpr ⟨node, List.mem_of_getLast? hlast, hgen⟩

namespace ServeCoreContextManager

variable {m m' : ServeCoreContextManager} {held : List (List ContextRef)}
  {entries : List ContextRef} {e : ℕ} {α : Type}

/-! ## Segments -/

/-- The variables whose contents a cached context holds itself. -/
def Segment (m : ServeCoreContextManager) (r : ContextRef) (seg : List VarId) : Prop :=
  match (m.obj r).parentContext with
  | none => m.Key r seg
  | some _ => ∃ l v, m.Key r (l ++ [v]) ∧ seg = [v]

lemma Segment.unique {r : ContextRef} {seg seg' : List VarId} (h : m.Segment r seg)
    (h' : m.Segment r seg') : seg = seg' := by
  rw [Segment] at h h'
  cases hp : (m.obj r).parentContext with
  | none =>
      rw [hp] at h h'
      exact h.unique h'
  | some p =>
      rw [hp] at h h'
      obtain ⟨l, v, hk, rfl⟩ := h
      obtain ⟨l', v', hk', rfl⟩ := h'
      exact (List.append_inj' (hk.unique hk') rfl).2

lemma Segment.exists_key {r : ContextRef} {seg : List VarId} (h : m.Segment r seg) :
    ∃ l, m.Key r l := by
  rw [Segment] at h
  cases hp : (m.obj r).parentContext with
  | none =>
      rw [hp] at h
      exact ⟨seg, h⟩
  | some p =>
      rw [hp] at h
      obtain ⟨l, v, hk, -⟩ := h
      exact ⟨_, hk⟩

/-- Segments do not change. -/
lemma Keeps.segment_iff (h : m.Keeps m') {r : ℕ} (hr : r < m.next) (hlive : m'.Live r)
    (seg : List VarId) : m'.Segment r seg ↔ m.Segment r seg := by
  rw [Segment, Segment, h.obj r hr]
  cases (m.obj r).parentContext with
  | none => exact h.key r hr hlive seg
  | some p => simp only [h.key r hr hlive]

lemma KeyPath.exists_segment {fs : List ContextRef} {l : List VarId} (h : m.KeyPath e fs l) :
    ∀ r ∈ fs, ∃ seg, m.Segment r seg := by
  induction h with
  | nil => simp
  | @root c l hne hc he hp hk =>
      intro r hr
      refine ⟨l, ?_⟩
      rw [List.eq_of_mem_replicate hr, Segment, hp]
      exact hk
  | @child fs l x q v hpath hlast hx he hp hk ih =>
      intro r hr
      rcases List.mem_append.mp hr with hr | hr
      · exact ih r hr
      · refine ⟨[v], ?_⟩
        rw [List.mem_singleton.mp hr, Segment, hp]
        exact ⟨l, v, hk, rfl⟩

/-- The contents of a list of variables on an engine. -/
def contents (p : Payloads α) (e : ℕ) (l : List VarId) : List α := l.flatMap (p.content e)

/-! ## The payload of a Fill -/

lemma takeWhile_append_singleton {β : Type*} {q : β → Bool} {b : β} (hb : q b = false) :
    ∀ l : List β, (l ++ [b]).takeWhile q = l.takeWhile q
  | [] => by rw [List.nil_append, List.takeWhile_cons_of_neg (by simp [hb]), List.takeWhile_nil]
  | a :: l => by
      rw [List.cons_append, List.takeWhile_cons, List.takeWhile_cons,
        takeWhile_append_singleton hb l]

lemma takeWhile_congr {β : Type*} {q q' : β → Bool} : ∀ {l : List β},
    (∀ a ∈ l, q a = q' a) → l.takeWhile q = l.takeWhile q'
  | [], _ => rfl
  | a :: l, h => by
      rw [List.takeWhile_cons, List.takeWhile_cons, h a List.mem_cons_self,
        takeWhile_congr fun b hb => h b (List.mem_cons_of_mem a hb)]

/-- At the first node of a context, this node and those behind it with the same context make up
the segment. -/
lemma KeyPath.merged {fs : List ContextRef} {l : List VarId} (h : m.KeyPath e fs l)
    (hs : m.Sound held entries) : ∀ {i : ℕ} {r : ContextRef} {v : VarId}, fs[i]? = some r →
      l[i]? = some v → r ∉ fs.take i →
      m.Segment r (v :: (((fs.zip l).drop (i + 1)).takeWhile fun x =>
        decide ((m.obj x.1).contextId = (m.obj r).contextId)).map Prod.snd) := by
  induction h with
  | nil => simp
  | @root c l hne hc he hp hk =>
      intro i r v hr hv hnew
      obtain ⟨hi, rfl⟩ := List.getElem?_eq_some_iff.mp hr
      rw [List.getElem_replicate] at hnew ⊢
      rw [List.length_replicate] at hi
      obtain rfl : i = 0 := by
        by_contra hi0
        refine hnew ?_
        rw [List.take_replicate, List.mem_replicate]
        exact ⟨by omega, rfl⟩
      obtain ⟨v', l', rfl⟩ := List.exists_cons_of_ne_nil hne
      obtain rfl : v' = v := by simpa using hv
      rw [Segment, hp]
      have hall : ∀ x ∈ (List.replicate l'.length c).zip l',
          decide ((m.obj x.1).contextId = (m.obj c).contextId) = true := by
        intro x hx
        rw [List.eq_of_mem_replicate (List.of_mem_zip hx).1]
        exact decide_eq_true rfl
      rw [List.length_cons, List.replicate_succ, List.zip_cons_cons, List.drop_succ_cons,
        List.drop_zero, List.takeWhile_eq_self_iff.mpr hall, List.map_snd_zip (by simp)]
      exact hk
  | @child fs l x q v hpath hlast hx he hp hk ih =>
      intro i r w hr hw hnew
      have hlen := hpath.length_eq
      have hxnew := hpath.not_mem_child hs hx (hp.trans hlast.symm)
      rw [List.zip_append hlen, List.zip_cons_cons, List.zip_nil_right]
      by_cases hi : i < fs.length
      · rw [List.getElem?_append_left hi] at hr
        rw [List.getElem?_append_left (hlen ▸ hi)] at hw
        rw [List.take_append_of_le_length (Nat.le_of_lt hi)] at hnew
        have hrmem := List.mem_of_getElem? hr
        have hne : decide ((m.obj x).contextId = (m.obj r).contextId) = false := by
          refine decide_eq_false fun hid => hxnew ?_
          rw [hs.eq_of_id hx (hpath.live r hrmem).1 hid]
          exact hrmem
        have hzip : (fs.zip l).length = fs.length := by
          rw [List.length_zip, hlen, Nat.min_self]
        rw [List.drop_append_of_le_length (by omega), takeWhile_append_singleton (b := (x, v)) hne]
        exact ih hr hw hnew
      · have hi' : i = fs.length := by
          obtain ⟨hlt, -⟩ := List.getElem?_eq_some_iff.mp hr
          rw [List.length_append, List.length_singleton] at hlt
          omega
        rw [hi', List.getElem?_concat_length] at hr
        rw [hi', hlen, List.getElem?_concat_length] at hw
        obtain rfl := Option.some.inj hr
        obtain rfl := Option.some.inj hw
        rw [List.drop_of_length_le (by
          rw [List.length_append, List.length_zip, List.length_singleton]
          omega), Segment, hp]
        exact ⟨l, v, hk, rfl⟩

/-- A segment of one variable, for a context that is not fused. -/
lemma KeyPath.segment_of_not_fused {fs : List ContextRef} {l : List VarId}
    (h : m.KeyPath e fs l) : ∀ {i : ℕ} {r : ContextRef} {v : VarId}, fs[i]? = some r →
      l[i]? = some v → ¬ m.Fused r → m.Segment r [v] := by
  induction h with
  | nil => simp
  | @root c l hne hc he hp hk =>
      intro i r v hr hv hno
      obtain ⟨hi, rfl⟩ := List.getElem?_eq_some_iff.mp hr
      rw [List.getElem_replicate] at hno ⊢
      rw [List.length_replicate] at hi
      have hone : l.length = 1 := by
        by_contra hlen
        exact hno ⟨hp, l, by omega, hk⟩
      obtain ⟨w, rfl⟩ := List.length_eq_one_iff.mp hone
      obtain rfl : i = 0 := by simpa using hi
      obtain rfl : w = v := by simpa using hv
      rw [Segment, hp]
      exact hk
  | @child fs l x q v hpath hlast hx he hp hk ih =>
      intro i r w hr hw hno
      have hlen := hpath.length_eq
      by_cases hi : i < fs.length
      · rw [List.getElem?_append_left hi] at hr
        rw [List.getElem?_append_left (hlen ▸ hi)] at hw
        exact ih hr hw hno
      · have hi' : i = fs.length := by
          obtain ⟨hlt, -⟩ := List.getElem?_eq_some_iff.mp hr
          rw [List.length_append, List.length_singleton] at hlt
          omega
        rw [hi', List.getElem?_concat_length] at hr
        rw [hi', hlen, List.getElem?_concat_length] at hw
        obtain rfl := Option.some.inj hr
        obtain rfl := Option.some.inj hw
        rw [Segment, hp]
        exact ⟨l, v, hk, rfl⟩

/-- The last node has a context of its own, or is a Gen. -/
def LastAlone (chain : List ChainNode) (cs : List ContextRef) : Prop :=
  chain.any ChainNode.isGen = true ∨ ∀ r, cs.getLast? = some r → r ∉ cs.dropLast

/-- The loop that adds the tokens of the next nodes stops before the last one. -/
lemma KeyPath.takeWhile_dropLast {fs gs : List ContextRef} {chain : List ChainNode}
    (h : m.KeyPath e fs (fillVars chain)) (hs : m.Sound held entries) (hshape : ChainShape chain)
    (hgs : gs.length = (chain.filter ChainNode.isGen).length) (hlast : LastAlone chain (fs ++ gs))
    {i : ℕ} {r : ContextRef} (hr : fs[i]? = some r) :
    ((((fs ++ gs).zip chain).dropLast.drop (i + 1)).takeWhile fun x =>
        decide ((m.obj x.1).contextId = (m.obj r).contextId)) =
      ((fs.zip (chain.filter fun node => !node.isGen)).drop (i + 1)).takeWhile fun x =>
        decide ((m.obj x.1).contextId = (m.obj r).contextId) := by
  obtain ⟨hsplit, hone⟩ := hshape.split
  set fills := chain.filter fun node => !node.isGen
  set gens := chain.filter ChainNode.isGen with hgens
  have hlen : fs.length = fills.length := h.length_eq.trans (List.length_map _)
  obtain ⟨hi, -⟩ := List.getElem?_eq_some_iff.mp hr
  cases hg : gens with
  | cons g rest =>
      rw [hg, List.length_cons] at hone hgs
      obtain rfl : rest = [] := List.length_eq_zero_iff.mp (by omega)
      obtain ⟨x, rfl⟩ := List.length_eq_one_iff.mp hgs
      rw [hsplit, hg, List.zip_append hlen, List.zip_cons_cons, List.zip_nil_right,
        List.dropLast_concat]
  | nil =>
      rw [hg, List.length_nil] at hgs
      obtain rfl := List.length_eq_zero_iff.mp hgs
      rw [hsplit, hg, List.append_nil, List.append_nil]
      have hnogen : chain.any ChainNode.isGen ≠ true := by
        rw [Ne, List.any_eq_true]
        rintro ⟨node, hmem, hnode⟩
        have : node ∈ gens := List.mem_filter.mpr ⟨hmem, hnode⟩
        simp [hg] at this
      have halone := hlast.resolve_left hnogen
      rw [List.append_nil] at halone
      rcases List.eq_nil_or_concat fs with rfl | ⟨fs', x, rfl⟩
      · simp at hi
      rcases List.eq_nil_or_concat fills with hnil | ⟨fills', v, hfills⟩
      · simp [hnil] at hlen
      rw [List.concat_eq_append] at *
      rw [hfills, List.length_append, List.length_append, List.length_singleton,
        List.length_singleton, Nat.add_right_cancel_iff] at hlen
      rw [hfills, List.zip_append hlen, List.zip_cons_cons, List.zip_nil_right,
        List.dropLast_concat]
      have hzip : (fs'.zip fills').length = fs'.length := by
        rw [List.length_zip, hlen, Nat.min_self]
      rw [List.length_append, List.length_singleton] at hi
      by_cases hlt : i < fs'.length
      · rw [List.drop_append_of_le_length (by omega), takeWhile_append_singleton]
        refine decide_eq_false fun hid => ?_
        have hx := (h.live x (by simp)).1
        rw [List.getElem?_append_left hlt] at hr
        have hmem := List.mem_of_getElem? hr
        have hxr := hs.eq_of_id hx (h.live r (List.mem_append_left _ hmem)).1 hid
        exact halone x List.getLast?_concat (by rw [List.dropLast_concat, hxr]; exact hmem)
      · rw [List.drop_of_length_le (by omega), List.drop_of_length_le (by
          rw [List.length_append, List.length_singleton]
          omega)]

/-- **A Fill carries the contents of its segment**, at the first node of a context that is fused
only with token ids. -/
lemma KeyPath.fillPayload_eq {p : Payloads α} {fs gs : List ContextRef} {task : BoundTask}
    (h : m.KeyPath e fs (fillVars task.chain)) (hs : m.Sound held entries) (he : task.engine = e)
    (hshape : ChainShape task.chain) (hcs : task.contexts = fs ++ gs)
    (hgs : gs.length = (task.chain.filter ChainNode.isGen).length)
    (hlast : LastAlone task.chain task.contexts) {i : ℕ} {r : ContextRef} (hr : fs[i]? = some r)
    (hnew : r ∉ fs.take i) (hfused : m.Fused r → p.tokenId e = true) :
    ∃ seg, m.Segment r seg ∧ fillPayload p m task i = contents p e seg := by
  have hlen : fs.length = (task.chain.filter fun node => !node.isGen).length :=
    h.length_eq.trans (List.length_map _)
  obtain ⟨hi, -⟩ := List.getElem?_eq_some_iff.mp hr
  obtain ⟨node, hnode⟩ : ∃ node, (task.chain.filter fun node => !node.isGen)[i]? = some node :=
    ⟨_, List.getElem?_eq_getElem (hlen ▸ hi)⟩
  have hvar : (fillVars task.chain)[i]? = some node.varId := by
    rw [fillVars, List.getElem?_map, hnode, Option.map_some]
  have hctx : task.contexts[i]? = some r := by
    rw [hcs, List.getElem?_append_left hi, hr]
  have hnode' : task.chain[i]? = some node := by
    rw [hshape.split.1, List.getElem?_append_left (hlen ▸ hi), hnode]
  rw [fillPayload, hctx, hnode']
  dsimp only
  rw [he]
  by_cases htok : p.tokenId e = true
  · refine ⟨_, h.merged hs hr hvar hnew, ?_⟩
    rw [hcs] at hlast
    rw [if_pos htok, hcs, h.takeWhile_dropLast hs hshape hgs hlast hr, contents, fillVars,
      List.flatMap_cons, List.zip_map_right, ← List.map_drop, List.takeWhile_map, List.map_map,
      List.flatMap_map]
    rfl
  · refine ⟨_, h.segment_of_not_fused hr hvar fun hf => htok (hfused hf), ?_⟩
    rw [if_neg htok, contents, List.flatMap_singleton]

/-! ## The contexts of the nodes -/

/-- The context of a Fill node is on the path of the Fill variables. -/
lemma TaskBound.fill_node {chain : List ChainNode} {cs : List ContextRef}
    (h : m.TaskBound e chain cs) (hshape : ChainShape chain) {i : ℕ} {node : ChainNode}
    {r : ContextRef} (hnode : chain[i]? = some node) (hr : cs[i]? = some r)
    (hfill : node.isGen = false) :
    ∃ fs gs, cs = fs ++ gs ∧ m.KeyPath e fs (fillVars chain) ∧
      gs.length = (chain.filter ChainNode.isGen).length ∧ fs[i]? = some r := by
  obtain ⟨fs, gs, hcs, hpath, hgs, -⟩ := h
  refine ⟨fs, gs, hcs, hpath, hgs, ?_⟩
  have hlen : fs.length = (chain.filter fun node => !node.isGen).length :=
    hpath.length_eq.trans (List.length_map _)
  have hlt : i < fs.length := by
    by_contra hge
    rw [hshape.split.1, List.getElem?_append_right (by omega)] at hnode
    have hgen := (List.mem_filter.mp (List.mem_of_getElem? hnode)).2
    rw [hfill] at hgen
    exact Bool.false_ne_true hgen
  rw [hcs, List.getElem?_append_left hlt] at hr
  exact hr

/-- The context of a Gen node is below the path of the Fill variables. -/
lemma TaskBound.gen_node {chain : List ChainNode} {cs : List ContextRef}
    (h : m.TaskBound e chain cs) (hshape : ChainShape chain) {i : ℕ} {node : ChainNode}
    {g : ContextRef} (hnode : chain[i]? = some node) (hr : cs[i]? = some g)
    (hgen : node.isGen = true) :
    ∃ fs, cs = fs ++ [g] ∧ i = fs.length ∧ m.KeyPath e fs (fillVars chain) ∧ m.Live g ∧
      (m.obj g).engine = e ∧ (m.obj g).parentContext = fs.getLast? ∧
      ∀ l, m.Key g l → l = chain.map ChainNode.varId := by
  obtain ⟨fs, gs, hcs, hpath, hgs, hall⟩ := h
  obtain ⟨hsplit, hone⟩ := hshape.split
  have hlen : fs.length = (chain.filter fun node => !node.isGen).length :=
    hpath.length_eq.trans (List.length_map _)
  have hge : fs.length ≤ i := by
    by_contra hlt
    rw [hsplit, List.getElem?_append_left (by omega)] at hnode
    have hno := (List.mem_filter.mp (List.mem_of_getElem? hnode)).2
    rw [hgen] at hno
    exact Bool.false_ne_true hno
  rw [hcs, List.getElem?_append_right hge] at hr
  obtain ⟨hi, hget⟩ := List.getElem?_eq_some_iff.mp hr
  obtain ⟨g', rfl⟩ := List.length_eq_one_iff.mp (show gs.length = 1 by omega)
  obtain rfl := List.mem_singleton.mp (List.mem_of_getElem? hr)
  obtain ⟨hlive, he, hp, hkey⟩ := hall g (List.mem_singleton_self g)
  exact ⟨fs, hcs, by rw [List.length_singleton] at hi; omega, hpath, hlive, he, hp, hkey⟩

/-! ## What an engine reads -/

open ExecutorState

/-- More fuel than the age of a context changes nothing. -/
lemma lineage_fuel (hs : m.Sound held entries) : ∀ (fuel fuel' r : ℕ), m.Live r → r < fuel →
    r < fuel' → lineage m fuel r = lineage m fuel' r := by
  intro fuel
  induction fuel with
  | zero => exact fun _ r _ h => absurd h (Nat.not_lt_zero r)
  | succ fuel ih =>
      intro fuel' r hr hlt hlt'
      obtain ⟨fuel', rfl⟩ := Nat.exists_eq_succ_of_ne_zero (Nat.ne_of_gt (Nat.zero_lt_of_lt hlt'))
      rw [lineage, lineage]
      cases hp : (m.obj r).parentContext with
      | none => rfl
      | some q =>
          have hqr : q < r := hs.parent_lt r q hr hp
          dsimp only
          rw [ih fuel' q (hs.parent_live hr hp) (Nat.lt_of_lt_of_le hqr (Nat.le_of_lt_succ hlt))
            (Nat.lt_of_lt_of_le hqr (Nat.le_of_lt_succ hlt'))]

lemma lineage_root {r : ContextRef} (hp : (m.obj r).parentContext = none) (fuel : ℕ) :
    lineage m (fuel + 1) r = [r] := by
  rw [lineage, hp]

lemma lineage_child (hs : m.Sound held entries) {r q : ℕ} (hr : m.Live r)
    (hp : (m.obj r).parentContext = some q) :
    lineage m (r + 1) r = r :: lineage m (q + 1) q := by
  rw [lineage, hp]
  dsimp only
  rw [lineage_fuel hs r (q + 1) q (hs.parent_live hr hp) (hs.parent_lt r q hr hp)
    (Nat.lt_succ_self q)]

/-- **Along the parents of the last context an engine reads the contents of the path**, when every
context of the path holds the contents of its segment. -/
lemma KeyPath.accumulated {f : ContextRef → List α} {p : Payloads α} {fs : List ContextRef}
    {l : List VarId} (h : m.KeyPath e fs l) (hs : m.Sound held entries)
    (hf : ∀ r ∈ fs, ∀ seg, m.Segment r seg → f r = contents p e seg) :
    ∀ {r : ℕ}, fs.getLast? = some r →
      (lineage m (r + 1) r).reverse.flatMap f = contents p e l := by
  induction h with
  | nil => simp
  | @root c l hne hc he hp hk =>
      intro r hr
      obtain rfl := List.eq_of_mem_replicate (List.mem_of_getLast? hr)
      have hseg : m.Segment r l := by
        rw [Segment, hp]
        exact hk
      rw [lineage_root hp, List.reverse_singleton, List.flatMap_singleton,
        hf r (List.mem_of_getLast? hr) l hseg]
  | @child fs l x q v hpath hlast hx he hp hk ih =>
      intro r hr
      rw [List.getLast?_concat] at hr
      obtain rfl := Option.some.inj hr
      have hseg : m.Segment x [v] := by
        rw [Segment, hp]
        exact ⟨l, v, hk, rfl⟩
      rw [lineage_child hs hx hp, List.reverse_cons, List.flatMap_append,
        ih (fun y hy => hf y (List.mem_append_left _ hy)) hlast, List.flatMap_singleton,
        hf x (by simp) [v] hseg, contents, contents, contents, List.flatMap_append]

/-- Without fused contexts the parents are the path itself. -/
lemma KeyPath.lineage_eq {fs : List ContextRef} {l : List VarId} (h : m.KeyPath e fs l)
    (hs : m.Sound held entries) (hno : ∀ r ∈ fs, ¬ m.Fused r) :
    ∀ {r : ℕ}, fs.getLast? = some r → lineage m (r + 1) r = fs.reverse := by
  induction h with
  | nil => simp
  | @root c l hne hc he hp hk =>
      intro r hr
      have hmem := List.mem_of_getLast? hr
      obtain rfl := List.eq_of_mem_replicate hmem
      have hone : l.length = 1 := by
        by_contra hlen
        have hpos := List.length_pos_iff.mpr hne
        exact hno r hmem ⟨hp, l, by omega, hk⟩
      rw [lineage_root hp, hone]
      rfl
  | @child fs l x q v hpath hlast hx he hp hk ih =>
      intro r hr
      rw [List.getLast?_concat] at hr
      obtain rfl := Option.some.inj hr
      rw [lineage_child hs hx hp, ih (fun y hy => hno y (List.mem_append_left _ hy)) hlast,
        List.reverse_append]
      rfl

end ServeCoreContextManager
end ParrotServe
