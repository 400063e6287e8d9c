import ParrotServe.Properties.EngineTree

/-!
# One job in an iteration

What `run_iter` does to the tokens and hidden states of one context and to the record of its job,
when the other jobs of the batch are on other contexts.  The scheduler relies on that: different
jobs with the same context id are not present at the same time.

Each of the three loops of `run_iter` is cut at the job (`prepareJobs_append`,
`firstSampling_append`, `updateJobs_append`).  The rounds of the other jobs leave its context and
its record alone (`prepareJobs_elsewhere`, `untouched_kept`), so what is left is its own round.
Nothing here depends on the state of the memory: an allocation only changes the block and slot
tables (`allocate_tables`).
-/

namespace ParrotServe

namespace KvMemory

/-- Two contexts that differ in their tables at most. -/
def SameButTables (c c' : BlockContext) : Prop :=
  c' = { c with
    tokenKvBlockIds := c'.tokenKvBlockIds
    tokenKvSlotIds := c'.tokenKvSlotIds }

lemma SameButTables.trans {c c' c'' : BlockContext} (h : SameButTables c c')
    (h' : SameButTables c' c'') : SameButTables c c'' := by
  rw [SameButTables] at *
  rw [h', h]

lemma SameButTables.tokenIds {c c' : BlockContext} (h : SameButTables c c') :
    c'.tokenIds = c.tokenIds := by
  rw [SameButTables] at h
  rw [h]

lemma SameButTables.lastHiddenState {c c' : BlockContext} (h : SameButTables c c') :
    c'.lastHiddenState = c.lastHiddenState := by
  rw [SameButTables] at h
  rw [h]

lemma SameButTables.parentContext {c c' : BlockContext} (h : SameButTables c c') :
    c'.parentContext = c.parentContext := by
  rw [SameButTables] at h
  rw [h]

variable (m : KvMemory)

lemma appendPosition_tables (r : CtxRef) (b slot : ℕ) (r' : CtxRef) :
    (r' ≠ r → (m.appendPosition r b slot).obj r' = m.obj r') ∧
      SameButTables (m.obj r') ((m.appendPosition r b slot).obj r') := by
  rw [appendPosition]
  by_cases heq : r' = r
  · obtain rfl := heq
    rw [set_obj_self]
    exact ⟨fun hne => absurd rfl hne, rfl⟩
  · rw [set_obj_of_ne _ heq]
    exact ⟨fun _ => rfl, rfl⟩

lemma allocateOne_tables (r r' : CtxRef) :
    (r' ≠ r → (m.allocateOne r).2.obj r' = m.obj r') ∧
      SameButTables (m.obj r') ((m.allocateOne r).2.obj r') := by
  rw [allocateOne]
  split_ifs
  · split
    · exact ⟨fun _ => rfl, rfl⟩
    · exact appendPosition_tables _ r _ _ r'
  · split
    · exact appendPosition_tables _ r _ _ r'
    · exact ⟨fun _ => rfl, rfl⟩

/-- An allocation changes the tables of its context, and nothing else. -/
lemma allocate_tables (n : ℕ) : ∀ (m : KvMemory) (r r' : CtxRef),
    (r' ≠ r → (m.allocate r n).2.obj r' = m.obj r') ∧
      SameButTables (m.obj r') ((m.allocate r n).2.obj r') := by
  induction n with
  | zero => exact fun m r r' => ⟨fun _ => rfl, rfl⟩
  | succ n ih =>
      intro m r r'
      obtain ⟨hother, hsame⟩ := allocateOne_tables m r r'
      rw [allocate]
      split
      · rename_i e m' ho
        rw [ho] at hother hsame
        exact ⟨hother, hsame⟩
      · rename_i m' ho
        rw [ho] at hother hsame
        obtain ⟨hother', hsame'⟩ := ih m' r r'
        exact ⟨fun hne => (hother' hne).trans (hother hne), hsame.trans hsame'⟩

/-- `get_last_hidden_state` reads tokens, hidden states and parents. -/
lemma getLastHiddenState_congr {m m' : KvMemory}
    (h : ∀ r, SameButTables (m.obj r) (m'.obj r)) (r : CtxRef) :
    m'.getLastHiddenState r = m.getLastHiddenState r := by
  have haux : ∀ fuel r, m'.getLastHiddenStateAux fuel r = m.getLastHiddenStateAux fuel r := by
    intro fuel
    induction fuel with
    | zero => exact fun _ => rfl
    | succ fuel ih =>
        intro r
        rw [getLastHiddenStateAux, getLastHiddenStateAux, (h r).tokenIds, (h r).lastHiddenState,
          (h r).parentContext]
        split_ifs
        · cases (m.obj r).parentContext with
          | none => rfl
          | some p => exact ih p
        · rfl
  exact haux _ _

end KvMemory

namespace BuiltinEngine

variable {s s' : BuiltinEngine} {j : JobRef} {r : CtxRef}

/-! ## Cutting the loops -/

lemma prepareJobs_append (xs ys : List JobRef) : ∀ {s : BuiltinEngine} {first : List JobRef},
    s.prepareJobs (xs ++ ys) = .ok (first, s') → ∃ first₁ s₁ first₂,
      s.prepareJobs xs = .ok (first₁, s₁) ∧ s₁.prepareJobs ys = .ok (first₂, s') ∧
        first = first₁ ++ first₂ := by
  induction xs with
  | nil => exact fun {s first} h => ⟨[], s, first, rfl, h, rfl⟩
  | cons x xs ih =>
      intro s first h
      rw [List.cons_append, prepareJobs] at h
      split at h
      · cases h
      · rename_i sample s₀ hx
        split at h
        · cases h
        · rename_i first₀ s₂ hxs
          obtain ⟨rfl, rfl⟩ := Prod.mk.inj (Except.ok.inj h)
          obtain ⟨first₁, s₁, first₂, h₁, h₂, rfl⟩ := ih hxs
          refine ⟨if sample then x :: first₁ else first₁, s₁, first₂, ?_, h₂, ?_⟩
          · rw [prepareJobs, hx]
            dsimp only
            rw [h₁]
          · split_ifs
            · rfl
            · rfl

lemma firstSampling_append {tokens : ℕ → ℕ} (xs ys : List JobRef) :
    ∀ {s : BuiltinEngine} {i : ℕ}, s.firstSampling tokens i (xs ++ ys) = .ok s' →
      ∃ s₁, s.firstSampling tokens i xs = .ok s₁ ∧
        s₁.firstSampling tokens (i + xs.length) ys = .ok s' := by
  induction xs with
  | nil => exact fun {s i} h => ⟨s, rfl, h⟩
  | cons x xs ih =>
      intro s i h
      rw [List.cons_append, firstSampling] at h
      split at h
      · cases h
      · rename_i s₀ hx
        obtain ⟨s₁, h₁, h₂⟩ := ih h
        refine ⟨s₁, by rw [firstSampling, hx]; exact h₁, ?_⟩
        rw [List.length_cons, Nat.add_comm xs.length 1, ← Nat.add_assoc]
        exact h₂

lemma updateJobs_append {o : ModelOutput} {n : ℕ} (xs ys : List JobRef) :
    ∀ {s : BuiltinEngine} {i : ℕ}, s.updateJobs o n i (xs ++ ys) = .ok s' →
      ∃ s₁, s.updateJobs o n i xs = .ok s₁ ∧ s₁.updateJobs o n (i + xs.length) ys = .ok s' := by
  induction xs with
  | nil => exact fun {s i} h => ⟨s, rfl, h⟩
  | cons x xs ih =>
      intro s i h
      rw [List.cons_append, updateJobs] at h
      split at h
      · cases h
      · rename_i s₀ hx
        obtain ⟨s₁, h₁, h₂⟩ := ih h
        refine ⟨s₁, by rw [updateJobs, hx]; exact h₁, ?_⟩
        rw [List.length_cons, Nat.add_comm xs.length 1, ← Nat.add_assoc]
        exact h₂

/-! ## The first loop -/

/-- One round of the first loop, for a job on the context `r`. -/
structure Prepared (s : BuiltinEngine) (j : JobRef) (r : CtxRef) (sample : Bool)
    (s' : BuiltinEngine) : Prop where
  job : s'.job = s.job
  other : ∀ r' ≠ r, s'.mem.obj r' = s.mem.obj r'
  parent : (s'.mem.obj r).parentContext = (s.mem.obj r).parentContext
  tokens : (s'.mem.obj r).tokenIds = (s.mem.obj r).tokenIds ++ filledTokens (s.job j)
  hidden : (s'.mem.obj r).lastHiddenState =
    if sample then none else (s.mem.obj r).lastHiddenState
  fill : (s.job j).isGenerate = false → sample = false
  generate : (s.job j).isGenerate = true →
    ∃ state, s.mem.getLastHiddenState r = .ok state ∧ (sample = true ↔ state ≠ none)

lemma allocateJob_prepared {sample : Bool} (h : s.allocateJob j r = .ok (sample, s')) :
    Prepared s j r sample s' := by
  rw [allocateJob] at h
  split at h
  · cases h
  · rename_i tokenIds hkind
    have hgen : (s.job j).isGenerate = false := by simp only [PrimitiveJob.isGenerate, hkind]
    dsimp only at h
    split at h
    · cases h
    · rename_i m ha
      obtain ⟨rfl, rfl⟩ := Prod.mk.inj (Except.ok.inj h)
      have htables := KvMemory.allocate_tables tokenIds.length (s.mem.set r { s.mem.obj r with
        tokenIds := (s.mem.obj r).tokenIds ++ tokenIds }) r
      rw [ha] at htables
      have hself := (htables r).2
      rw [KvMemory.set_obj_self] at hself
      refine ⟨rfl, fun r' hr' => ?_, hself.parentContext, ?_, ?_, fun _ => rfl, fun hgen' => ?_⟩
      · rw [← KvMemory.set_obj_of_ne s.mem hr']
        exact (htables r').1 hr'
      · simp only [filledTokens, hkind]
        exact hself.tokenIds
      · rw [if_neg Bool.false_ne_true]
        exact hself.lastHiddenState
      · rw [hgen] at hgen'
        cases hgen'
  · rename_i cfg hkind
    have hgen : (s.job j).isGenerate = true := by simp only [PrimitiveJob.isGenerate, hkind]
    have hfilled := filledTokens_generate hgen
    split at h
    · cases h
    · rename_i m ha
      have htables := KvMemory.allocate_tables 1 s.mem r
      rw [ha] at htables
      have hself := (htables r).2
      have hlast := KvMemory.getLastHiddenState_congr (fun r' => (htables r').2) r
      dsimp only at hlast
      have hnot : ¬ (s.job j).isGenerate = false := by
        rw [hgen]
        exact Bool.true_eq_false_eq_False
      split at h
      · cases h
      · rename_i hnone
        obtain ⟨rfl, rfl⟩ := Prod.mk.inj (Except.ok.inj h)
        refine ⟨rfl, fun r' hr' => (htables r').1 hr', hself.parentContext, ?_, ?_,
          fun _ => rfl, fun _ => ⟨none, ?_, ?_⟩⟩
        · rw [hfilled, List.append_nil]
          exact hself.tokenIds
        · rw [if_neg Bool.false_ne_true]
          exact hself.lastHiddenState
        · rw [← hlast]
          exact hnone
        · exact iff_of_false Bool.false_ne_true fun hne => hne rfl
      · rename_i state hsome
        obtain ⟨rfl, rfl⟩ := Prod.mk.inj (Except.ok.inj h)
        have hobj : (m.set r { m.obj r with lastHiddenState := none }).obj r =
            { m.obj r with lastHiddenState := none } := m.set_obj_self r _
        refine ⟨rfl, fun r' hr' => ?_, ?_, ?_, ?_, fun hfill => absurd hfill hnot,
          fun _ => ⟨some state, ?_, ?_⟩⟩
        · exact (m.set_obj_of_ne hr' _).trans ((htables r').1 hr')
        · exact (congrArg _ hobj).trans hself.parentContext
        · rw [hfilled, List.append_nil]
          exact (congrArg _ hobj).trans hself.tokenIds
        · exact congrArg _ hobj
        · rw [← hlast]
          exact hsome
        · exact iff_of_true rfl (Option.some_ne_none _)

/-- The first loop writes no record of a job that has a context. -/
lemma prepareJobs_job (js : List JobRef) : ∀ {s : BuiltinEngine} {first : List JobRef},
    (∀ j ∈ js, (s.job j).context ≠ none) → s.prepareJobs js = .ok (first, s') →
      s'.job = s.job := by
  induction js with
  | nil =>
      intro s first _ h
      obtain ⟨rfl, rfl⟩ := Prod.mk.inj (Except.ok.inj h)
      rfl
  | cons j js ih =>
      intro s first hbound h
      obtain ⟨r, hctx⟩ := Option.ne_none_iff_exists'.mp (hbound j List.mem_cons_self)
      rw [prepareJobs, prepareJob_eq hctx] at h
      split at h
      · cases h
      · rename_i sample s₁ hj
        split at h
        · cases h
        · rename_i first' s₂ hjs
          obtain ⟨rfl, rfl⟩ := Prod.mk.inj (Except.ok.inj h)
          have hjob := (allocateJob_prepared hj).job
          refine (ih (fun x hx => ?_) hjs).trans hjob
          rw [hjob]
          exact hbound x (List.mem_cons_of_mem _ hx)

/-- The jobs have contexts, other than `r`. -/
def Elsewhere (s : BuiltinEngine) (r : CtxRef) (js : List JobRef) : Prop :=
  ∀ x ∈ js, ∃ r' ≠ r, (s.job x).context = some r'

lemma Elsewhere.congr {js : List JobRef} (h : s.Elsewhere r js)
    (hctx : ∀ x, (s'.job x).context = (s.job x).context) : s'.Elsewhere r js := by
  intro x hx
  rw [hctx]
  exact h x hx

/-- The rounds of jobs on other contexts. -/
lemma prepareJobs_elsewhere (js : List JobRef) : ∀ {s : BuiltinEngine} {first : List JobRef},
    s.Elsewhere r js → s.prepareJobs js = .ok (first, s') →
      s'.job = s.job ∧ s'.mem.obj r = s.mem.obj r ∧ ∀ x ∈ first, x ∈ js := by
  induction js with
  | nil =>
      intro s first _ h
      obtain ⟨rfl, rfl⟩ := Prod.mk.inj (Except.ok.inj h)
      exact ⟨rfl, rfl, fun _ hx => hx⟩
  | cons j js ih =>
      intro s first helse h
      obtain ⟨r', hne, hctx⟩ := helse j List.mem_cons_self
      rw [prepareJobs, prepareJob_eq hctx] at h
      split at h
      · cases h
      · rename_i sample s₁ hj
        split at h
        · cases h
        · rename_i first' s₂ hjs
          obtain ⟨rfl, rfl⟩ := Prod.mk.inj (Except.ok.inj h)
          have hround := allocateJob_prepared hj
          have helse₁ : s₁.Elsewhere r js := by
            intro x hx
            rw [hround.job]
            exact helse x (List.mem_cons_of_mem _ hx)
          obtain ⟨hjob, hobj, hfirst⟩ := ih helse₁ hjs
          refine ⟨hjob.trans hround.job, hobj.trans (hround.other r hne.symm), fun x hx => ?_⟩
          split_ifs at hx
          · rcases List.mem_cons.mp hx with rfl | hx
            · exact List.mem_cons_self
            · exact List.mem_cons_of_mem _ (hfirst x hx)
          · exact List.mem_cons_of_mem _ (hfirst x hx)

/-! ## The other loops -/

/-- The contexts of the jobs stay, and neither the record `j` nor the context `r` changes as long as
the jobs in `on` are others. -/
def Untouched (on : JobRef → Prop) (j : JobRef) (r : CtxRef) (s s' : BuiltinEngine) : Prop :=
  (∀ x, (s'.job x).context = (s.job x).context) ∧ (¬ on j → s'.job j = s.job j) ∧
    ((∀ x, on x → (s.job x).context ≠ some r) → s'.mem.obj r = s.mem.obj r)

lemma untouched_set {on : JobRef → Prop} {x : JobRef} {r' : CtxRef} {c : BlockContext}
    {record : PrimitiveJob} (hon : on x) (hctx : (s.job x).context = some r')
    (hrecord : record.context = some r') :
    Untouched on j r s ((s.setMem (s.mem.set r' c)).setJob x record) := by
  refine ⟨fun y => ?_, fun hnot => ?_, fun hothers => ?_⟩
  · rw [setJob_job]
    split_ifs with heq
    · rw [heq, hctx, hrecord]
    · rfl
  · rw [setJob_job, if_neg]
    · rfl
    · rintro rfl
      exact hnot hon
  · refine s.mem.set_obj_of_ne ?_ c
    rintro rfl
    exact hothers x hon hctx

lemma untouched_kept (on : JobRef → Prop) (j : JobRef) (r : CtxRef) :
    KeptByUpdates on (Untouched on j r) where
  refl s := ⟨fun _ => rfl, fun _ => rfl, fun _ => rfl⟩
  trans h h' := by
    refine ⟨fun x => (h'.1 x).trans (h.1 x), fun hnot => (h'.2.1 hnot).trans (h.2.1 hnot),
      fun hothers => (h'.2.2 fun x hx => ?_).trans (h.2.2 hothers)⟩
    rw [h.1 x]
    exact hothers x hx
  putToken hon h := by
    rw [putToken] at h
    dsimp only at h
    split at h
    · cases h
    · rename_i r' hctx
      obtain rfl := Except.ok.inj h
      exact untouched_set hon hctx hctx
  fill _ hon hctx := untouched_set hon hctx hctx
  finish hon := by
    refine ⟨fun y => ?_, fun hnot => ?_, fun _ => rfl⟩
    · rw [setJob_job]
      split_ifs with heq
      · rw [heq]
      · rfl
    · rw [setJob_job, if_neg]
      rintro rfl
      exact hnot hon

/-- The rounds of jobs elsewhere, other than `j`. -/
lemma Untouched.elsewhere {js : List JobRef} (h : Untouched (· ∈ js) j r s s') (hj : j ∉ js)
    (helse : s.Elsewhere r js) : s'.job j = s.job j ∧ s'.mem.obj r = s.mem.obj r := by
  refine ⟨h.2.1 hj, h.2.2 fun x hx heq => ?_⟩
  obtain ⟨r', hne, hctx⟩ := helse x hx
  exact hne (Option.some.inj (hctx.symm.trans heq))

lemma firstSampling_elsewhere {tokens : ℕ → ℕ} {i : ℕ} {js : List JobRef} (hj : j ∉ js)
    (helse : s.Elsewhere r js) (h : s.firstSampling tokens i js = .ok s') :
    s'.job j = s.job j ∧ s'.mem.obj r = s.mem.obj r :=
  ((untouched_kept (· ∈ js) j r).firstSampling js (fun _ hx => hx) h).elsewhere hj helse

lemma updateJobs_elsewhere {o : ModelOutput} {n i : ℕ} {js : List JobRef} (hj : j ∉ js)
    (helse : s.Elsewhere r js) (h : s.updateJobs o n i js = .ok s') :
    s'.job j = s.job j ∧ s'.mem.obj r = s.mem.obj r :=
  ((untouched_kept (· ∈ js) j r).updateJobs js (fun _ hx => hx) h).elsewhere hj helse

/-! ## The job between the others -/

/-- The job of the context `r` stands alone in a batch: the others are on other contexts. -/
structure Alone (s : BuiltinEngine) (r : CtxRef) (pre : List JobRef) (j : JobRef)
    (post : List JobRef) : Prop where
  context : (s.job j).context = some r
  not_mem : j ∉ pre ++ post
  elsewhere : s.Elsewhere r (pre ++ post)

/-- In a batch with distinct contexts, every job stands alone. -/
lemma alone_of_nodup {pre post : List JobRef} (hctx : (s.job j).context = some r)
    (hbound : ∀ x ∈ pre ++ j :: post, (s.job x).context ≠ none)
    (hdistinct : ((pre ++ j :: post).map fun x => (s.job x).context).Nodup) :
    s.Alone r pre j post := by
  rw [List.map_append, List.map_cons, List.nodup_middle, ← List.map_append, List.nodup_cons,
    hctx] at hdistinct
  have hsub : ∀ x ∈ pre ++ post, x ∈ pre ++ j :: post := fun x hx =>
    List.mem_append.mpr ((List.mem_append.mp hx).imp_right (List.mem_cons_of_mem _))
  refine ⟨hctx, fun hj => ?_, fun x hx => ?_⟩
  · exact hdistinct.1 (List.mem_map.mpr ⟨j, hj, hctx⟩)
  · obtain ⟨r', hctx'⟩ := Option.ne_none_iff_exists'.mp (hbound x (hsub x hx))
    refine ⟨r', ?_, hctx'⟩
    rintro rfl
    exact hdistinct.1 (List.mem_map.mpr ⟨x, hx, hctx'⟩)

lemma Alone.congr {pre post : List JobRef} (h : s.Alone r pre j post)
    (hctx : ∀ x, (s'.job x).context = (s.job x).context) : s'.Alone r pre j post :=
  ⟨(hctx j).trans h.context, h.not_mem, h.elsewhere.congr hctx⟩

lemma Alone.pre {pre post : List JobRef} (h : s.Alone r pre j post) :
    j ∉ pre ∧ s.Elsewhere r pre :=
  ⟨fun hj => h.not_mem (List.mem_append_left _ hj),
    fun x hx => h.elsewhere x (List.mem_append_left _ hx)⟩

lemma Alone.post {pre post : List JobRef} (h : s.Alone r pre j post) :
    j ∉ post ∧ s.Elsewhere r post :=
  ⟨fun hj => h.not_mem (List.mem_append_right _ hj),
    fun x hx => h.elsewhere x (List.mem_append_right _ hx)⟩

/-- The first loop, seen from the job: its round, on a memory in which its context is still the
same, and its place among those that need a first sampling. -/
lemma prepareJobs_alone {pre post first : List JobRef} (h : s.Alone r pre j post)
    (hok : s.prepareJobs (pre ++ j :: post) = .ok (first, s')) :
    ∃ sample a b first₁ first₂, Prepared a j r sample b ∧ a.job = s.job ∧
      a.mem.obj r = s.mem.obj r ∧ s'.job = s.job ∧ s'.mem.obj r = b.mem.obj r ∧
      first = first₁ ++ ((if sample then [j] else []) ++ first₂) ∧
      j ∉ first₁ ++ first₂ ∧ ∀ x ∈ first₁ ++ first₂, x ∈ pre ++ post := by
  obtain ⟨first₁, a, first', hpre, hrest, rfl⟩ := prepareJobs_append _ _ hok
  obtain ⟨hjob₁, hobj₁, hsub₁⟩ := prepareJobs_elsewhere pre h.pre.2 hpre
  have hctx : (a.job j).context = some r := by
    rw [hjob₁]
    exact h.context
  rw [prepareJobs, prepareJob_eq hctx] at hrest
  split at hrest
  · cases hrest
  · rename_i sample b hround
    split at hrest
    · cases hrest
    · rename_i first₂ b' hpost
      obtain ⟨rfl, rfl⟩ := Prod.mk.inj (Except.ok.inj hrest)
      have hprepared := allocateJob_prepared hround
      have helse : b.Elsewhere r post := h.post.2.congr fun x => by rw [hprepared.job, hjob₁]
      obtain ⟨hjob₂, hobj₂, hsub₂⟩ := prepareJobs_elsewhere post helse hpost
      have hsub : ∀ x ∈ first₁ ++ first₂, x ∈ pre ++ post := by
        intro x hx
        rcases List.mem_append.mp hx with hx | hx
        · exact List.mem_append_left _ (hsub₁ x hx)
        · exact List.mem_append_right _ (hsub₂ x hx)
      refine ⟨sample, a, b, first₁, first₂, hprepared, hjob₁, hobj₁,
        (hjob₂.trans hprepared.job).trans hjob₁, hobj₂, ?_, fun hj => h.not_mem (hsub j hj), hsub⟩
      split_ifs
      · rfl
      · rfl

/-- A token is put behind the tokens of the context, in the queue and in the count of the job. -/
lemma putToken_eq {t : ℕ} (hctx : (s.job j).context = some r) (h : s.putToken j t = .ok s') :
    s'.mem.obj r = { s.mem.obj r with tokenIds := (s.mem.obj r).tokenIds ++ [t] } ∧
      s'.job j = { s.job j with
        outputQueue := (s.job j).outputQueue ++ [t]
        genLength := (s.job j).genLength + 1 } := by
  rw [putToken] at h
  dsimp only at h
  split at h
  · cases h
  · rename_i r' hctx'
    obtain rfl := Option.some.inj (hctx'.symm.trans hctx)
    obtain rfl := Except.ok.inj h
    refine ⟨s.mem.set_obj_self r' _, ?_⟩
    rw [setJob_job, if_pos rfl]

lemma firstSampling_alone {tokens : ℕ → ℕ} {i : ℕ} {pre post : List JobRef}
    (h : s.Alone r pre j post) (hok : s.firstSampling tokens i (pre ++ j :: post) = .ok s') :
    s'.mem.obj r = { s.mem.obj r with
        tokenIds := (s.mem.obj r).tokenIds ++ [tokens (i + pre.length)] } ∧
      s'.job j = { s.job j with
        outputQueue := (s.job j).outputQueue ++ [tokens (i + pre.length)]
        genLength := (s.job j).genLength + 1 } := by
  obtain ⟨a, hpre, hrest⟩ := firstSampling_append _ _ hok
  obtain ⟨hjob₁, hobj₁⟩ := firstSampling_elsewhere h.pre.1 h.pre.2 hpre
  have hctxs := fun x => ((firstSampling_quiet hpre).job x).2.1
  rw [firstSampling] at hrest
  split at hrest
  · cases hrest
  · rename_i b hput
    obtain ⟨hobj, hjob⟩ := putToken_eq ((hctxs j).trans h.context) hput
    have hctxs' := fun x => (((putToken_quiet hput).job x).2.1).trans (hctxs x)
    obtain ⟨hjob₂, hobj₂⟩ := firstSampling_elsewhere h.post.1 (h.post.2.congr hctxs') hrest
    rw [hobj₂, hobj, hobj₁, hjob₂, hjob, hjob₁]
    exact ⟨rfl, rfl⟩

/-- The last loop, seen from the job: its round, between rounds that leave it alone. -/
lemma updateJobs_alone {o : ModelOutput} {n i : ℕ} {pre post : List JobRef}
    (h : s.Alone r pre j post) (hok : s.updateJobs o n i (pre ++ j :: post) = .ok s') :
    ∃ a b : BuiltinEngine, a.updateJob o n (i + pre.length) j = .ok b ∧ a.job j = s.job j ∧
      a.mem.obj r = s.mem.obj r ∧ s'.job j = b.job j ∧ s'.mem.obj r = b.mem.obj r := by
  obtain ⟨a, hpre, hrest⟩ := updateJobs_append _ _ hok
  obtain ⟨hjob₁, hobj₁⟩ := updateJobs_elsewhere h.pre.1 h.pre.2 hpre
  have hctxs := fun x => ((updateJobs_quiet hpre).job x).2.1
  rw [updateJobs] at hrest
  split at hrest
  · cases hrest
  · rename_i b hround
    have hctxs' := fun x => (((updateJob_quiet hround).job x).2.1).trans (hctxs x)
    obtain ⟨hjob₂, hobj₂⟩ := updateJobs_elsewhere h.post.1 (h.post.2.congr hctxs') hrest
    exact ⟨a, b, hround, hjob₁, hobj₁, hjob₂, hobj₂⟩

/-- The round of a Fill. -/
lemma updateJob_fill {o : ModelOutput} {n i : ℕ} (hctx : (s.job j).context = some r)
    (hfill : (s.job j).isGenerate = false) (h : s.updateJob o n i j = .ok s') :
    s'.mem.obj r = { s.mem.obj r with lastHiddenState := some (o.fillHiddenStates i) } ∧
      s'.job j = { s.job j with finishEvent := true } := by
  rw [updateJob, hctx] at h
  cases hkind : (s.job j).kind with
  | fill tokenIds =>
      rw [hkind] at h
      obtain rfl := Except.ok.inj h
      refine ⟨s.mem.set_obj_self r _, ?_⟩
      rw [setJob_job, if_pos rfl]
  | generate cfg =>
      rw [PrimitiveJob.isGenerate, hkind] at hfill
      cases hfill

/-- `check_stop` right after a token was put. -/
lemma checkStop_eq {cfg : SamplingConfig} {before : List ℕ} {t : ℕ}
    (hctx : (s.job j).context = some r) (htokens : (s.mem.obj r).tokenIds = before ++ [t]) :
    s.checkStop j cfg =
      .ok (decide (t ∈ cfg.stopTokenIds ∨ cfg.maxGenLength ≤ (s.job j).genLength)) := by
  rw [checkStop, hctx]
  dsimp only
  rw [KvMemory.getLastTokenId, htokens, List.getLast?_concat]

/-- The round of a Generate. -/
lemma updateJob_generate {o : ModelOutput} {n i : ℕ} {cfg : SamplingConfig}
    (hctx : (s.job j).context = some r) (hkind : (s.job j).kind = .generate cfg)
    (h : s.updateJob o n i j = .ok s') :
    s'.mem.obj r = { s.mem.obj r with
        tokenIds := (s.mem.obj r).tokenIds ++ [o.nextTokens (i - n)] } ∧
      s'.job j = { s.job j with
        outputQueue := (s.job j).outputQueue ++ [o.nextTokens (i - n)]
        genLength := (s.job j).genLength + 1
        finishEvent := (s.job j).finishEvent || decide (o.nextTokens (i - n) ∈ cfg.stopTokenIds ∨
          cfg.maxGenLength ≤ (s.job j).genLength + 1) } := by
  rw [updateJob, hctx, hkind] at h
  dsimp only at h
  split at h
  · cases h
  · rename_i a hput
    obtain ⟨hobj, hjob⟩ := putToken_eq hctx hput
    have hctx' : (a.job j).context = some r := by
      rw [hjob]
      exact hctx
    rw [checkStop_eq hctx' (congrArg BlockContext.tokenIds hobj), hjob] at h
    split at h
    · cases h
    · rename_i hgo
      obtain rfl := Except.ok.inj h
      refine ⟨hobj, ?_⟩
      rw [hjob, Except.ok.inj hgo, Bool.or_false]
    · rename_i hstop
      obtain rfl := Except.ok.inj h
      refine ⟨hobj, ?_⟩
      rw [setJob_job, if_pos rfl, Except.ok.inj hstop, Bool.or_true]

/-! ## The last loop raises nothing -/

lemma updateJob_ok {o : ModelOutput} {n i : ℕ} (hctx : (s.job j).context = some r) :
    ∃ s', s.updateJob o n i j = .ok s' := by
  rw [updateJob, hctx]
  dsimp only
  cases hkind : (s.job j).kind with
  | fill tokenIds => exact ⟨_, rfl⟩
  | generate cfg =>
      obtain ⟨a, hput⟩ : ∃ a, s.putToken j (o.nextTokens (i - n)) = .ok a := by
        rw [putToken, hctx]
        exact ⟨_, rfl⟩
      obtain ⟨hobj, hjob⟩ := putToken_eq hctx hput
      have hctx' : (a.job j).context = some r := by
        rw [hjob]
        exact hctx
      dsimp only
      rw [hput]
      dsimp only
      rw [checkStop_eq hctx' (congrArg BlockContext.tokenIds hobj)]
      split
      · rename_i he
        cases he
      · exact ⟨_, rfl⟩
      · exact ⟨_, rfl⟩

lemma updateJobs_ok {o : ModelOutput} {n : ℕ} (js : List JobRef) :
    ∀ {s : BuiltinEngine} {i : ℕ}, (∀ j ∈ js, (s.job j).context ≠ none) →
      ∃ s', s.updateJobs o n i js = .ok s' := by
  induction js with
  | nil => exact fun {s i} _ => ⟨s, rfl⟩
  | cons j js ih =>
      intro s i hbound
      obtain ⟨r, hctx⟩ := Option.ne_none_iff_exists'.mp (hbound j List.mem_cons_self)
      obtain ⟨a, ha⟩ := updateJob_ok (o := o) (n := n) (i := i) hctx
      obtain ⟨s', hs'⟩ := ih (s := a) (i := i + 1) fun x hx => by
        rw [((updateJob_quiet ha).job x).2.1]
        exact hbound x (List.mem_cons_of_mem _ hx)
      exact ⟨s', by rw [updateJobs, ha]; exact hs'⟩

end BuiltinEngine

end ParrotServe
