import ParrotServe.Framework.Forest
import ParrotServe.Model.SharedPrompts
import ParrotServe.Properties.KvView

/-!
# Shared prompts address what plain tables do

With shared prompts a Generate reads its context in two parts: the common part through a table that
is made from the first job's blocks, and the rest through a row of its own.  Position by position
these are the slots that the plain block table over the whole context addresses
(`shared_addresses_plain`).

The common part is the chain of the lowest common ancestor of all contexts of the batch
(`getSharedContextLen_spec`), so every context of the batch begins with the same blocks.  A table
may be cut there when a block ends there.  The ancestor of another context has a child and therefore
ends on a block boundary; a common ancestor that does not is the context of every job of the batch,
and then there is no second part.
-/

namespace ParrotServe

namespace KvMemory

variable {m : KvMemory} {live : Set CtxRef}

/-- `parent_context` of a context. -/
def parentOf (m : KvMemory) (r : CtxRef) : Option CtxRef := (m.obj r).parentContext

/-- Contexts as the constructor links them: each with its parent, which is older, and with the depth
counted from the root. -/
structure ContextForest (m : KvMemory) (live : Set CtxRef) : Prop where
  rooted : m.Rooted live
  forest : Forest m.parentOf (fun r => (m.obj r).depth) live

/-- A context that has children ends on a block boundary. -/
def ParentsAligned (m : KvMemory) (live : Set CtxRef) : Prop :=
  ∀ c ∈ live, ∀ p, m.parentOf c = some p → m.blockSize ∣ m.getThisContextLen p

/-! ## The common ancestor -/

/-- The rounds that are left for a context. -/
def roundsOf : Option CtxRef → ℕ
  | none => 0
  | some r => r + 1

lemma ContextForest.roundsOf_parent (h : ContextForest m live) {r : CtxRef} (hr : r ∈ live) :
    roundsOf (m.obj r).parentContext < roundsOf (some r) := by
  cases hp : (m.obj r).parentContext with
  | none => exact Nat.succ_pos r
  | some p => exact Nat.succ_lt_succ (h.rooted r hr p hp).1

/-- The loop of `_lca`, when it ends within so many rounds. -/
def lcaWithin (m : KvMemory) : ℕ → Option CtxRef → Option CtxRef →
    Option (Except PyError (Option CtxRef))
  | 0, _, _ => none
  | _ + 1, none, _ => some (.ok none)
  | rounds + 1, some r₁, context₂ =>
      if some r₁ = context₂ then some (.ok (some r₁))
      else
        match context₂ with
        | none => some (.error .attributeError)
        | some r₂ =>
            if (m.obj r₁).depth > (m.obj r₂).depth then
              lcaWithin m rounds (m.obj r₁).parentContext (some r₂)
            else if (m.obj r₁).depth < (m.obj r₂).depth then
              lcaWithin m rounds (some r₁) (m.obj r₂).parentContext
            else lcaWithin m rounds (m.obj r₁).parentContext (m.obj r₂).parentContext

/-- A loop that ends is not cut off. -/
lemma lcaLoop_of_within (n : ℕ) : ∀ {c d : Option CtxRef} {r : Except PyError (Option CtxRef)},
    m.lcaWithin n c d = some r → m.lcaLoop n c d = r := by
  induction n with
  | zero => exact fun h => by cases h
  | succ n ih =>
      intro c d r h
      cases c with
      | none => exact Option.some.inj h
      | some r₁ =>
          cases d with
          | none => exact Option.some.inj h
          | some r₂ =>
              rw [lcaWithin] at h
              rw [lcaLoop]
              split_ifs at h ⊢
              · exact Option.some.inj h
              all_goals exact ih h

/-- The loop of `_lca` ends, and it keeps what is above both contexts. -/
lemma ContextForest.lcaWithin_spec (h : ContextForest m live) (fuel : ℕ) : ∀ c d : Option CtxRef,
    (∀ x, c = some x → x ∈ live) → (∀ x, d = some x → x ∈ live) → (d = none → c = none) →
      roundsOf c + roundsOf d < fuel →
      ∃ l, m.lcaWithin fuel c d = some (.ok l) ∧
        ∀ a, AboveOpt m.parentOf a l ↔ AboveOpt m.parentOf a c ∧ AboveOpt m.parentOf a d := by
  induction fuel with
  | zero => exact fun _ _ _ _ _ hlt => absurd hlt (Nat.not_lt_zero _)
  | succ fuel ih =>
      intro c d hc hd hends hlt
      cases c with
      | none =>
          refine ⟨none, by rw [lcaWithin], fun a => ?_⟩
          exact iff_of_false not_aboveOpt_none fun hand => not_aboveOpt_none hand.1
      | some r₁ =>
          have hr₁ := hc r₁ rfl
          have hup₁ := h.roundsOf_parent hr₁
          have hparent₁ : ∀ x, (m.obj r₁).parentContext = some x → x ∈ live :=
            fun x hx => h.forest.mem r₁ hr₁ x hx
          cases d with
          | none => exact absurd (hends rfl) (Option.some_ne_none r₁)
          | some r₂ =>
              have hr₂ := hd r₂ rfl
              have hup₂ := h.roundsOf_parent hr₂
              have hparent₂ : ∀ x, (m.obj r₂).parentContext = some x → x ∈ live :=
                fun x hx => h.forest.mem r₂ hr₂ x hx
              rw [lcaWithin]
              split_ifs with hsame hdeep hshallow
              · exact ⟨some r₁, rfl, fun a => by rw [← hsame, and_self]⟩
              · obtain ⟨l, hl, habove⟩ := ih _ _ hparent₁ hd
                  (fun hnone => absurd hnone (Option.some_ne_none r₂)) (by omega)
                refine ⟨l, hl, fun a => ?_⟩
                rw [habove, aboveOpt_some, aboveOpt_some]
                exact (h.forest.climb_left hr₂ hdeep).symm
              · obtain ⟨l, hl, habove⟩ := ih _ _ hc hparent₂ (fun hnone => by
                  obtain ⟨p, hp⟩ := h.forest.exists_parent hr₂ (Nat.zero_lt_of_lt hshallow)
                  rw [parentOf, hnone] at hp
                  cases hp) (by omega)
                refine ⟨l, hl, fun a => ?_⟩
                rw [habove, aboveOpt_some, aboveOpt_some, and_comm,
                  and_comm (a := Above m.parentOf a r₁)]
                exact (h.forest.climb_left hr₁ hshallow).symm
              · -- two roots are reached together
                have heq : (m.obj r₁).depth = (m.obj r₂).depth := by omega
                have hne : r₁ ≠ r₂ := fun he => hsame (congrArg some he)
                obtain ⟨l, hl, habove⟩ := ih _ _ hparent₁ hparent₂ (fun hnone => by
                  have hzero := h.forest.root r₂ hr₂ hnone
                  cases hp : (m.obj r₁).parentContext with
                  | none => rfl
                  | some p =>
                      have hone := h.forest.child r₁ hr₁ p hp
                      omega) (by omega)
                refine ⟨l, hl, fun a => ?_⟩
                rw [habove, aboveOpt_some, aboveOpt_some]
                exact (h.forest.climb_both hr₁ hr₂ heq hne).symm

/-- The loop of `_lca` ends where both contexts meet. -/
lemma ContextForest.lcaLoop_spec (h : ContextForest m live) (fuel : ℕ) (c d : Option CtxRef)
    (hc : ∀ x, c = some x → x ∈ live) (hd : ∀ x, d = some x → x ∈ live)
    (hends : d = none → c = none) (hlt : roundsOf c + roundsOf d < fuel) :
    ∃ l, m.lcaLoop fuel c d = .ok l ∧
      ∀ a, AboveOpt m.parentOf a l ↔ AboveOpt m.parentOf a c ∧ AboveOpt m.parentOf a d := by
  obtain ⟨l, hl, habove⟩ := h.lcaWithin_spec fuel c d hc hd hends hlt
  exact ⟨l, lcaLoop_of_within fuel hl, habove⟩

/-- `_lca` finds the lowest common ancestor. -/
lemma ContextForest.lca_spec (h : ContextForest m live) {r₁ r₂ : CtxRef} (hr₁ : r₁ ∈ live)
    (hr₂ : r₂ ∈ live) : ∃ l, m.lca r₁ r₂ = .ok l ∧
      ∀ a, AboveOpt m.parentOf a l ↔ Above m.parentOf a r₁ ∧ Above m.parentOf a r₂ := by
  rw [lca]
  split_ifs with heq
  · exact ⟨some r₁, rfl, fun a => by rw [aboveOpt_some, ← heq, and_self]⟩
  · obtain ⟨l, hl, habove⟩ := h.lcaLoop_spec (r₁ + r₂ + 3) (some r₁) (some r₂)
      (fun x hx => Option.some.inj hx ▸ hr₁) (fun x hx => Option.some.inj hx ▸ hr₂)
      (fun hnone => absurd hnone (Option.some_ne_none r₂)) (by
        rw [roundsOf, roundsOf]
        omega)
    refine ⟨l, hl, fun a => ?_⟩
    rw [habove, aboveOpt_some, aboveOpt_some]

lemma ContextForest.lcaAll_spec (h : ContextForest m live) (rs : List CtxRef) :
    ∀ l : Option CtxRef, (∀ x, l = some x → x ∈ live) → (∀ r ∈ rs, r ∈ live) →
      ∃ l', m.lcaAll l rs = .ok l' ∧ ∀ a, AboveOpt m.parentOf a l' ↔
        AboveOpt m.parentOf a l ∧ ∀ r ∈ rs, Above m.parentOf a r := by
  induction rs with
  | nil =>
      intro l _ _
      refine ⟨l, by rw [lcaAll], fun a => ?_⟩
      exact (and_iff_left fun r hr => absurd hr List.not_mem_nil).symm
  | cons r rs ih =>
      intro l hl hrs
      cases l with
      | none =>
          refine ⟨none, by rw [lcaAll], fun a => ?_⟩
          exact iff_of_false not_aboveOpt_none fun hand => not_aboveOpt_none hand.1
      | some b =>
          obtain ⟨l₁, hl₁, habove₁⟩ := h.lca_spec (hl b rfl) (hrs r List.mem_cons_self)
          have hmem : ∀ x, l₁ = some x → x ∈ live := by
            rintro x rfl
            have hx := (habove₁ x).mp (aboveOpt_some.mpr .refl)
            exact h.forest.above_mem hx.1 (hl b rfl)
          obtain ⟨l₂, hl₂, habove₂⟩ := ih l₁ hmem fun x hx => hrs x (List.mem_cons_of_mem _ hx)
          refine ⟨l₂, by rw [lcaAll, hl₁]; exact hl₂, fun a => ?_⟩
          rw [habove₂, habove₁, aboveOpt_some, List.forall_mem_cons, and_assoc]

/-- The shared length is that of the lowest common ancestor of the contexts, or 0 if there is no
common ancestor. -/
lemma ContextForest.getSharedContextLen_spec (h : ContextForest m live) {rs : List CtxRef}
    (hne : rs ≠ []) (hrs : ∀ r ∈ rs, r ∈ live) : ∃ l, (∀ a, AboveOpt m.parentOf a l ↔
      ∀ r ∈ rs, Above m.parentOf a r) ∧
      m.getSharedContextLen rs = .ok (l.elim 0 m.getContextLen) := by
  cases rs with
  | nil => exact absurd rfl hne
  | cons r₁ rest =>
      have hr₁ := hrs r₁ List.mem_cons_self
      cases rest with
      | nil =>
          refine ⟨some r₁, fun a => ?_, rfl⟩
          rw [aboveOpt_some, List.forall_mem_singleton]
      | cons r₂ rs =>
          obtain ⟨l, hl, habove⟩ := h.lca_spec hr₁
            (hrs r₂ (List.mem_cons_of_mem _ List.mem_cons_self))
          have hmem : ∀ x, l = some x → x ∈ live := by
            rintro x rfl
            exact h.forest.above_mem ((habove x).mp (aboveOpt_some.mpr .refl)).1 hr₁
          obtain ⟨l', hl', habove'⟩ := h.lcaAll_spec rs l hmem fun x hx =>
            hrs x (List.mem_cons_of_mem _ (List.mem_cons_of_mem _ hx))
          refine ⟨l', fun a => ?_, ?_⟩
          · rw [habove', habove, List.forall_mem_cons, List.forall_mem_cons, and_assoc]
          · rw [getSharedContextLen, hl]
            dsimp only
            rw [hl']
            cases l' with
            | none => rfl
            | some a => rfl

/-! ## The common part -/

/-- A context begins with the blocks of each of its ancestors. -/
lemma ContextForest.blocks_above (h : ContextForest m live) {a r : CtxRef}
    (ha : Above m.parentOf a r) (hr : r ∈ live) :
    ∃ rest, m.getContextBlockIds r = m.getContextBlockIds a ++ rest := by
  induction ha using Relation.ReflTransGen.head_induction_on with
  | refl => exact ⟨[], (List.append_nil _).symm⟩
  | @head c p hp _ ih =>
      obtain ⟨rest, hrest⟩ := ih (h.forest.mem c hr p hp)
      have hblocks : m.getContextBlockIds c = _ := h.rooted.gather_eq _ hr
      have hparent : (m.obj c).parentContext = some p := hp
      rw [hparent] at hblocks
      dsimp only at hblocks
      refine ⟨rest ++ (m.obj c).tokenKvBlockIds, ?_⟩
      rw [hblocks, ← List.append_assoc, ← hrest]
      rfl

/-- The chain of a context with children ends on a block boundary. -/
lemma ContextForest.dvd_contextLen (h : ContextForest m live) (ha : m.ParentsAligned live)
    {a c : CtxRef} (hc : c ∈ live) (hp : m.parentOf c = some a) :
    m.blockSize ∣ m.getContextLen a := by
  have hchain : ∀ r ∈ live, ∀ c ∈ live, m.parentOf c = some r →
      m.blockSize ∣ m.getContextLen r := by
    refine h.rooted.induction fun r hr ih c hc hcr => ?_
    have hblocks : m.getContextBlockIds r = _ := h.rooted.gather_eq _ hr
    have hown := ha c hc r hcr
    rw [getContextLen_eq, hblocks, List.length_append]
    cases hpr : (m.obj r).parentContext with
    | none => rwa [List.length_nil, Nat.zero_add]
    | some p =>
        have hup := (ih p hpr).2 r hr hpr
        rw [getContextLen_eq] at hup
        exact Nat.dvd_add hup hown
  exact hchain a (h.forest.mem c hc a hp) c hc hp

/-- A context above another one ends on a block boundary, unless it is that one. -/
lemma ContextForest.dvd_or_eq (h : ContextForest m live) (ha : m.ParentsAligned live)
    {a r : CtxRef} (har : Above m.parentOf a r) (hr : r ∈ live) :
    m.blockSize ∣ m.getContextLen a ∨ r = a := by
  by_cases heq : r = a
  · exact .inr heq
  · obtain ⟨x, hx, hxa⟩ := har.exists_child heq
    exact .inl (h.dvd_contextLen ha (h.forest.above_mem hx hr) hxa)

/-- What the shared length cuts off: every context of the batch is that long and begins with the
same blocks, and the cut is on a block boundary or there is nothing behind it. -/
lemma ContextForest.shared_spec (h : ContextForest m live) (ha : m.ParentsAligned live)
    (rs : List CtxRef) (hne : rs ≠ []) (hrs : ∀ r ∈ rs, r ∈ live) :
    ∃ len, m.getSharedContextLen rs = .ok len ∧
      (∀ r ∈ rs, ∃ n, m.getContextLen r = len + n ∧ (m.blockSize ∣ len ∨ n = 0)) ∧
      ∀ r ∈ rs, ∀ r' ∈ rs,
        (m.getContextBlockIds r).take len = (m.getContextBlockIds r').take len := by
  obtain ⟨l, habove, hlen⟩ := h.getSharedContextLen_spec hne hrs
  refine ⟨_, hlen, ?_⟩
  cases l with
  | none =>
      refine ⟨fun r _ => ⟨m.getContextLen r, (Nat.zero_add _).symm, .inl (Nat.dvd_zero _)⟩,
        fun r _ r' _ => ?_⟩
      exact List.take_zero.trans List.take_zero.symm
  | some a =>
      have hall := (habove a).mp (aboveOpt_some.mpr .refl)
      have htake : ∀ r ∈ rs, (m.getContextBlockIds r).take (m.getContextLen a) =
          m.getContextBlockIds a := by
        intro r hr
        obtain ⟨rest, hrest⟩ := h.blocks_above (hall r hr) (hrs r hr)
        rw [hrest, getContextLen_eq, List.take_left]
      refine ⟨fun r hr => ?_, fun r hr r' hr' => (htake r hr).trans (htake r' hr').symm⟩
      obtain ⟨rest, hrest⟩ := h.blocks_above (hall r hr) (hrs r hr)
      refine ⟨rest.length, by
        rw [getContextLen_eq, hrest, List.length_append, ← getContextLen_eq]
        rfl, ?_⟩
      refine (h.dvd_or_eq ha (hall r hr) (hrs r hr)).imp id fun heq => ?_
      rw [heq] at hrest
      exact List.length_eq_zero_iff.mpr (List.append_right_eq_self.mp hrest.symm)

end KvMemory

namespace BuiltinEngine

variable {s : BuiltinEngine} {live : Set CtxRef}

/-- The tables that `xFormersFill_vLLMPagedAttentionGenerate` makes of the same batch. -/
def plainState (s : BuiltinEngine) (jobs : List JobRef) : IterationState :=
  { s with attnFunc := .xFormersFillVllmPagedAttentionGenerate }.initIterationState jobs

/-- For every Generate of the batch, the slots addressed by the shared table and then by its own
row are those addressed by its plain block table, position by position, and there is a block for
each. -/
def AddressesPlain (s : BuiltinEngine) (jobs : List JobRef) (st : SharedPromptsState) : Prop :=
  ∀ (i : ℕ) (j : JobRef), (jobs.filter fun j => (s.job j).isGenerate)[i]? = some j →
    ∃ (row table : List ℕ) (n contextLen : ℕ), st.pagedBlockTables[i]? = some row ∧
      st.pagedContextLens[i]? = some (n : ℤ) ∧
      (s.plainState jobs).blockTables[i]? = some table ∧
      (s.plainState jobs).contextLens[i]? = some contextLen ∧
      contextLen = s.mem.getContextLen (s.jobContext j) ∧
      st.flashContextLen + n = contextLen ∧
      tableSlots s.mem.blockSize st.flashBlockTable st.flashContextLen ++
          tableSlots s.mem.blockSize row n = tableSlots s.mem.blockSize table contextLen ∧
      none ∉ tableSlots s.mem.blockSize table contextLen

/-- A row of a padded table is the row that was padded. -/
lemma padded_row {gens : List JobRef} {i : ℕ} {j : JobRef} (f : JobRef → List ℕ)
    (hj : gens[i]? = some j) : ∃ padding,
      ((gens.map f).map fun t => padToMax t (maxLength (gens.map f)) 0)[i]? =
        some (f j ++ padding) := by
  refine ⟨List.replicate (maxLength (gens.map f) - (f j).length) 0, ?_⟩
  rw [List.getElem?_map, List.getElem?_map, hj]
  rfl

/-- On a context forest whose parents end on block boundaries, shared prompts address what plain
block tables do. -/
theorem shared_addresses_plain (h : s.mem.ContextForest live) (ha : s.mem.ParentsAligned live)
    (hbs : 0 < s.mem.blockSize) {jobs : List JobRef} (hne : jobs ≠ [])
    (hjobs : ∀ j ∈ jobs, s.jobContext j ∈ live) :
    ∃ st, s.initSharedPrompts jobs = .ok st ∧ s.AddressesPlain jobs st := by
  cases jobs with
  | nil => exact absurd rfl hne
  | cons j₀ rest =>
      set jobs := j₀ :: rest with hjobsdef
      obtain ⟨len, hlen, hsplit, hagree⟩ := h.shared_spec ha (jobs.map s.jobContext)
        (fun hnil => hne (List.map_eq_nil_iff.mp hnil)) (by
          intro r hr
          obtain ⟨j, hj, rfl⟩ := List.mem_map.mp hr
          exact hjobs j hj)
      have hpad := (KvMemory.totalLen_spec hbs len).1
      refine ⟨_, by rw [initSharedPrompts, hlen], fun i j hj => ?_⟩
      have hmem : j ∈ jobs := List.mem_of_mem_filter (List.mem_of_getElem? hj)
      obtain ⟨n, hn, hcut⟩ := hsplit _ (List.mem_map.mpr ⟨j, hmem, rfl⟩)
      have hpaged : (s.mem.getContextLen (s.jobContext j) : ℤ) - len = (n : ℤ) := by omega
      have hfirst := hagree _ (List.mem_map.mpr ⟨j₀, List.mem_cons_self, rfl⟩) _
        (List.mem_map.mpr ⟨j, hmem, rfl⟩)
      have hcuts := tableSlots_cut hbs hfirst hpad (KvMemory.totalLen_of_dvd hbs) hcut
      obtain ⟨padding, hrow⟩ := padded_row (fun j => stride s.mem.blockSize
        ((s.mem.getContextBlockIds (s.jobContext j)).drop (s.mem.totalLen len))) hj
      obtain ⟨padding', htable⟩ := padded_row (fun j => stride s.mem.blockSize
        (s.mem.getContextBlockIds (s.jobContext j))) hj
      have hlength : (s.mem.getContextBlockIds (s.jobContext j)).length = len + n := by
        rw [← KvMemory.getContextLen_eq, hn]
      refine ⟨_, _, n, _, hrow, by rw [List.getElem?_map, hj, Option.map_some, hpaged], htable,
        by rw [plainState, initIterationState, List.getElem?_map, hj]; rfl, rfl, hn.symm, ?_, ?_⟩
      · rw [hn, tableSlots_padded hbs (Nat.le_of_eq hlength.symm), ← hcuts]
        congr 1
        refine tableSlots_padded hbs ?_ padding
        rw [List.length_drop, hlength]
        rcases hcut with hdvd | rfl
        · rw [KvMemory.totalLen_of_dvd hbs hdvd]
          omega
        · exact Nat.zero_le _
      · rw [hn, tableSlots_padded hbs (Nat.le_of_eq hlength.symm)]
        intro hnone
        obtain ⟨p, hp, hslot⟩ := List.mem_map.mp hnone
        refine tableSlot_ne_none hbs ?_ hslot
        rw [hlength]
        exact List.mem_range.mp hp

/-- A prompt of three tokens, on blocks of two, and two Generates behind it after one iteration. -/
def sharing : BuiltinEngine :=
  [Action.fill 0 0 0 none false [7, 8, 9] 0, .engineIter fiveOutput,
    .generate 0 1 1 (some 0) true ⟨[], 9⟩ 1, .generate 0 2 2 (some 0) true ⟨[], 9⟩ 2,
    .engineIter fiveOutput].foldl apply (start .xFormersFillSharedPromptsGenerate 2 8 ampleConfig)

theorem shared_addresses_two : ∃ st, sharing.initSharedPrompts [1, 2] = .ok st ∧
    sharing.AddressesPlain [1, 2] st := by
  have hfacts : (∀ r < 3, (sharing.mem.obj r).parentContext = if r = 0 then none else some 0) ∧
      (∀ r < 3, (sharing.mem.obj r).depth = if r = 0 then 0 else 1) ∧
      sharing.mem.blockSize = 2 ∧ sharing.mem.getThisContextLen 0 = 4 ∧
      ∀ j ∈ [1, 2], sharing.jobContext j < 3 := by
    decide +kernel
  obtain ⟨hparent, hdepth, hbs, hlen, hjobs⟩ := hfacts
  have hroot : ∀ r < 3, ∀ p, (sharing.mem.obj r).parentContext = some p → r ≠ 0 ∧ p = 0 := by
    intro r hr p hp
    rw [hparent r hr] at hp
    split_ifs at hp with hzero
    exact ⟨hzero, (Option.some.inj hp).symm⟩
  have hforest : sharing.mem.ContextForest {r | r < 3} := by
    refine ⟨fun r hr p hp => ?_, fun r hr p hp => ?_, fun r hr hp => ?_, fun r hr p hp => ?_⟩
    · obtain ⟨hne, rfl⟩ := hroot r hr p hp
      exact ⟨Nat.pos_of_ne_zero hne, (by decide : 0 < 3)⟩
    · obtain ⟨-, rfl⟩ := hroot r hr p hp
      exact (by decide : 0 < 3)
    · have hparent' := hparent r hr
      rw [show (sharing.mem.obj r).parentContext = none from hp] at hparent'
      split_ifs at hparent' with hzero
      rw [hdepth r hr, if_pos hzero]
    · obtain ⟨hne, rfl⟩ := hroot r hr p hp
      rw [hdepth r hr, if_neg hne, hdepth 0 (by decide), if_pos rfl]
  have haligned : sharing.mem.ParentsAligned {r | r < 3} := by
    intro r hr p hp
    obtain ⟨-, rfl⟩ := hroot r hr p hp
    rw [hbs, hlen]
    decide
  exact shared_addresses_plain hforest haligned (by rw [hbs]; decide) (List.cons_ne_nil _ _) hjobs

end BuiltinEngine

end ParrotServe
