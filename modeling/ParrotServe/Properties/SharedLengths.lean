import ParrotServe.Properties.BlockOwnership
import ParrotServe.Properties.SharedPrompts

/-!
# The length of the shared part

`_lca` and `get_shared_context_len` need the depths of the contexts to be their distances from the
root.  The constructor counts them so, and nothing else writes a depth or a parent (`Linked`), so
that the contexts of every run of their operations are a forest (`contextForest_of_reachable`).

In a forest the loop of `_lca` ends, at the deepest context above both.  The length that is shared
is then that of the deepest context above all of them, which is one however the jobs are ordered
(`shared_length_deepest`).
-/

namespace ParrotServe

namespace BlockWorld

open KvMemory TransitionSystem

variable {bs : ℕ} {w : BlockWorld}

/-! ## Depths -/

/-- Roots have depth 0, and the others are one deeper than their parents. -/
structure Depths (w : BlockWorld) : Prop where
  root : ∀ r ∈ w.live, w.mem.parentOf r = none → (w.mem.obj r).depth = 0
  child : ∀ r ∈ w.live, ∀ p, w.mem.parentOf r = some p →
    (w.mem.obj r).depth = (w.mem.obj p).depth + 1

/-- The links of the objects are as they were. -/
def Linked (m m' : KvMemory) : Prop :=
  ∀ r, m'.parentOf r = m.parentOf r ∧ (m'.obj r).depth = (m.obj r).depth

lemma linked_of_grown {m m' : KvMemory} {r : CtxRef} {bl sl : List ℕ}
    (h : GrownBy m m' r bl sl) : Linked m m' := by
  intro r'
  by_cases he : r' = r
  · rw [he]
    exact ⟨h.self.parentContext, h.self.depth⟩
  · rw [parentOf, parentOf, h.other r' he]
    exact ⟨rfl, rfl⟩

/-- Fewer contexts, with the links that they had. -/
lemma Depths.of_linked (h : Depths w) {m' : KvMemory} {live : List CtxRef}
    {orphans : List (CtxRef × ℕ)} (hlink : Linked w.mem m') (hsub : ∀ r ∈ live, r ∈ w.live) :
    Depths { mem := m', live, orphans } where
  root r hr hp := by
    rw [(hlink r).2]
    exact h.root r (hsub r hr) ((hlink r).1.symm.trans hp)
  child r hr p hp := by
    rw [(hlink r).2, (hlink p).2]
    exact h.child r (hsub r hr) p ((hlink r).1.symm.trans hp)

/-- A new context, with the depth that the constructor gives it. -/
lemma Depths.push (h : Depths w) (hinv : Inv bs w) {m' : KvMemory} (hlink : Linked w.mem m')
    (hnext : m'.next = w.mem.next) {c : BlockContext}
    (hroot : c.parentContext = none → c.depth = 0)
    (hchild : ∀ p, c.parentContext = some p → p ∈ w.live ∧ c.depth = (m'.obj p).depth + 1) :
    Depths { w with mem := m'.push c, live := w.mem.next :: w.live } := by
  have hself : (m'.push c).obj w.mem.next = c := by
    rw [← hnext]
    exact m'.set_obj_self m'.next c
  have hother : ∀ r ∈ w.live, (m'.push c).obj r = m'.obj r := fun r hr =>
    m'.set_obj_of_ne (hnext.symm ▸ Nat.ne_of_lt (hinv.mem.lt_next r hr)) c
  refine ⟨fun r hr hp => ?_, fun r hr p hp => ?_⟩
  · rcases List.mem_cons.mp hr with rfl | hr
    · rw [parentOf, hself] at hp
      rw [hself]
      exact hroot hp
    · rw [parentOf, hother r hr] at hp
      rw [hother r hr, (hlink r).2]
      exact h.root r hr ((hlink r).1.symm.trans hp)
  · rcases List.mem_cons.mp hr with rfl | hr
    · rw [parentOf, hself] at hp
      obtain ⟨hlive, hdepth⟩ := hchild p hp
      rw [hself, hother p hlive, hdepth]
    · rw [parentOf, hother r hr] at hp
      have hp' : w.mem.parentOf r = some p := (hlink r).1.symm.trans hp
      rw [hother r hr, hother p (hinv.parent_live r hr p hp'), (hlink r).2, (hlink p).2]
      exact h.child r hr p hp'

lemma Depths.create (h : Depths w) (hinv : Inv bs w) {i : ℕ} {parent : Option CtxRef}
    (hparent : ∀ p, parent = some p → p ∈ w.live) : Depths (w.apply (.create i parent)) := by
  cases parent with
  | none =>
      exact h.push hinv (fun _ => ⟨rfl, rfl⟩) rfl (fun _ => rfl) fun p hp => by cases hp
  | some p =>
      obtain ⟨-, bl, sl, hgrow, -⟩ := adopt_spec i hinv.mem (hparent p rfl)
      rcases ha : w.mem.adopt p i with ⟨_ | ⟨⟩, m'⟩
      · rw [ha] at hgrow
        simp only [apply, newContext, ha]
        exact h.of_linked (linked_of_grown hgrow) fun r hr => hr
      · rw [ha] at hgrow
        simp only [apply, newContext, ha]
        rw [hgrow.next]
        refine h.push hinv (linked_of_grown hgrow) hgrow.next (fun hnone => by cases hnone) ?_
        rintro q ⟨⟩
        exact ⟨hparent p rfl, rfl⟩

lemma Depths.apply (h : Depths w) (hinv : Inv bs w) {a : BlockAction} (ha : w.Enabled a) :
    Depths (w.apply a) := by
  cases a with
  | create i parent => exact h.create hinv ha
  | allocate r n =>
      obtain ⟨-, bl, sl, hgrow, -⟩ := allocate_spec n hinv.mem ha
      exact h.of_linked (linked_of_grown hgrow) fun r hr => hr
  | padTo r n =>
      obtain ⟨-, bl, sl, hgrow, -⟩ := padTo_spec n hinv.mem ha
      exact h.of_linked (linked_of_grown hgrow) fun r hr => hr
  | destroy r =>
      obtain ⟨pool, hd, -⟩ := hinv.destruction_ok ha.1 ha.2
      simp only [BlockWorld.apply, hd]
      refine h.of_linked (fun r' => ?_) fun r' hr' => List.mem_of_mem_erase hr'
      have hext := (w.mem.unlinked_grown r r').2.2.2
      exact ⟨hext.parentContext, hext.depth⟩

/-- The contexts of every run are a forest. -/
lemma contextForest_of_reachable {blockSize : ℕ} (hbs : 0 < blockSize) {pool : RecyclePool}
    (hpool : pool.Owns ∅) (hw : (system blockSize pool).Reachable w) :
    w.mem.ContextForest {r | r ∈ w.live} := by
  have hboth : (system blockSize pool).IsInvariantUnder (fun _ _ => True)
      fun w => Inv blockSize w ∧ Depths w :=
    (inv_invariant hbs hpool).and
      (fun w hw => by
        rw [show w = start blockSize pool from hw]
        exact ⟨fun r hr => absurd hr List.not_mem_nil, fun r hr => absurd hr List.not_mem_nil⟩)
      (fun w a w' hinv hdepths _ hstep => by
        rw [hstep.2]
        exact hdepths.apply hinv hstep.1)
  obtain ⟨hinv, hdepths⟩ := hboth.holds hw
  exact ⟨fun r hr p hp => ⟨hinv.older r hr p hp, hinv.parent_live r hr p hp⟩,
    ⟨hinv.parent_live, hdepths.root, hdepths.child⟩⟩

end BlockWorld

/-! ## Deepest ancestors -/

namespace KvMemory

variable {m : KvMemory} {live : Set CtxRef}

/-- The deepest context that is above all of these, or `none`. -/
def DeepestAbove (m : KvMemory) (rs : List CtxRef) : Option CtxRef → Prop :=
  Deepest (fun r => (m.obj r).depth) fun a => ∀ r ∈ rs, Above m.parentOf a r

/-- The loop of `_lca` ends at the deepest context above both. -/
lemma ContextForest.lca_deepest (h : ContextForest m live) {r₁ r₂ : CtxRef} (hr₁ : r₁ ∈ live)
    (hr₂ : r₂ ∈ live) : ∃ l, m.lcaWithin (r₁ + r₂ + 3) (some r₁) (some r₂) = some (.ok l) ∧
      m.lca r₁ r₂ = .ok l ∧ m.DeepestAbove [r₁, r₂] l := by
  obtain ⟨l, hl, habove⟩ := h.lcaWithin_spec (r₁ + r₂ + 3) (some r₁) (some r₂)
    (fun x hx => Option.some.inj hx ▸ hr₁) (fun x hx => Option.some.inj hx ▸ hr₂)
    (fun hnone => absurd hnone (Option.some_ne_none r₂)) (by
      rw [roundsOf, roundsOf]
      omega)
  simp only [aboveOpt_some] at habove
  refine ⟨l, hl, ?_, h.forest.deepest ?_ fun a => ?_⟩
  · rw [lca]
    split_ifs with heq
    · rw [heq, lcaWithin, if_pos rfl] at hl
      rw [heq]
      exact Option.some.inj hl
    · exact lcaLoop_of_within _ hl
  · rintro x rfl
    exact h.forest.above_mem ((habove x).mp (aboveOpt_some.mpr .refl)).1 hr₁
  · rw [habove, List.forall_mem_cons, List.forall_mem_singleton]

/-- The shared length is that of the deepest context above all jobs. -/
lemma ContextForest.sharedLen_deepest (h : ContextForest m live) {rs : List CtxRef}
    (hne : rs ≠ []) (hrs : ∀ r ∈ rs, r ∈ live) : ∃ l, m.DeepestAbove rs l ∧
      m.getSharedContextLen rs = .ok (l.elim 0 m.getContextLen) := by
  obtain ⟨l, habove, hlen⟩ := h.getSharedContextLen_spec hne hrs
  refine ⟨l, h.forest.deepest ?_ habove, hlen⟩
  rintro x rfl
  obtain ⟨r, hr⟩ := List.exists_mem_of_ne_nil rs hne
  exact h.forest.above_mem ((habove x).mp (aboveOpt_some.mpr .refl) r hr) (hrs r hr)

/-- It is one for the same contexts in another order. -/
lemma ContextForest.sharedLen_perm (h : ContextForest m live) {rs rs' : List CtxRef}
    (hne : rs ≠ []) (hrs : ∀ r ∈ rs, r ∈ live) (hperm : rs.Perm rs') :
    m.getSharedContextLen rs' = m.getSharedContextLen rs := by
  obtain ⟨l, hl, hlen⟩ := h.sharedLen_deepest hne hrs
  have hne' : rs' ≠ [] := by
    rintro rfl
    exact hne hperm.eq_nil
  obtain ⟨l', hl', hlen'⟩ := h.sharedLen_deepest hne' fun r hr => hrs r (hperm.mem_iff.mpr hr)
  have hsame : m.DeepestAbove rs' = m.DeepestAbove rs := by
    simp only [DeepestAbove, hperm.mem_iff]
  rw [hsame] at hl'
  rw [hlen, hlen', hl.unique hl']

end KvMemory

namespace BlockWorld

/-- **The shared length is that of the deepest common ancestor**, in every state of every run of
the operations on contexts. -/
theorem shared_length_deepest (blockSize : ℕ) (hbs : 0 < blockSize) (poolName : String)
    (poolSize : Option ℕ) (debugMode : Bool) (w : BlockWorld)
    (hw : (system blockSize
      { poolName := poolName, poolSize := poolSize, debugMode := debugMode }).Reachable w) :
    (∀ r₁ ∈ w.live, ∀ r₂ ∈ w.live, ∃ l,
      w.mem.lcaWithin (r₁ + r₂ + 3) (some r₁) (some r₂) = some (.ok l) ∧
        w.mem.lca r₁ r₂ = .ok l ∧ w.mem.DeepestAbove [r₁, r₂] l) ∧
    ∀ rs ≠ [], (∀ r ∈ rs, r ∈ w.live) →
      (∃ l, w.mem.DeepestAbove rs l ∧
        w.mem.getSharedContextLen rs = .ok (l.elim 0 w.mem.getContextLen)) ∧
      ∀ rs', rs.Perm rs' → w.mem.getSharedContextLen rs' = w.mem.getSharedContextLen rs := by
  have hforest := contextForest_of_reachable hbs
    (RecyclePool.owns_empty poolName poolSize debugMode) hw
  exact ⟨fun r₁ hr₁ r₂ hr₂ => hforest.lca_deepest hr₁ hr₂, fun rs hne hrs =>
    ⟨hforest.sharedLen_deepest hne hrs, fun rs' hperm => hforest.sharedLen_perm hne hrs hperm⟩⟩

/-- Two contexts forked from one, and a root of its own. -/
theorem shared_length_deepest_forked :
    let w := [.create 0 none, .allocate 0 2, .create 1 (some 0), .create 2 (some 0),
      .allocate 1 1, .create 3 none].foldl apply (start 2 {})
    w.mem.getSharedContextLen [1, 2] = .ok 2 ∧ w.mem.getSharedContextLen [2, 3, 1] = .ok 0 ∧
      w.mem.getSharedContextLen [2, 1] = w.mem.getSharedContextLen [1, 2] := by
  refine ⟨by decide, by decide, ?_⟩
  refine ((shared_length_deepest 2 (by decide) "pool" none false _
    (.foldl _ (.init rfl) ?_)).2 [1, 2] (by decide) (by decide)).2 [2, 1] (by decide)
  exact ⟨by decide, trivial, by decide, trivial, by decide, trivial, by decide, trivial,
    by decide, trivial, by decide, trivial, trivial⟩

end BlockWorld

end ParrotServe
