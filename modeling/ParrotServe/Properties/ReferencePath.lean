import ParrotServe.Properties.ReservedSlots
import Mathlib.Algebra.Order.BigOperators.Group.List

/-!
# The reference attention path

`xFormersWithBuffer` moves the new keys and values to `newly_part_block_ids` and reads the whole
contexts back from `whole_ctx_block_ids`.  The first list should have one entry per input token, the
block reserved for it, and that block should be the one at the token's position in its context
(`input_positions`).

The entries of a job are the last blocks of its context, as many as it has tokens.  With no tokens
the slice `[-0:]` is the whole context, so the list is right exactly when every Fill without tokens
is on a context of length 0 (`reference_path_iff`).  With blocks of one token, which this path is
made for, a reserved block is a reserved slot.
-/

namespace ParrotServe

/-- The entries of one part of a concatenation. -/
lemma getElem?_flatMap_split {α β : Type} (f : α → List β) {pre post : List α} {x : α} {k : ℕ}
    (hk : k < (f x).length) :
    ((pre ++ x :: post).flatMap f)[(pre.map fun y => (f y).length).sum + k]? = (f x)[k]? := by
  rw [List.flatMap_append, List.flatMap_cons, ← List.length_flatMap,
    List.getElem?_append_right (Nat.le_add_right _ _), Nat.add_sub_cancel_left,
    List.getElem?_append_left hk]

namespace BuiltinEngine

variable {s s' : BuiltinEngine} {live : Set CtxRef} {jobs pre post : List JobRef} {j : JobRef}

/-- The iteration state of `xFormersWithBuffer`: `newly_part_block_ids` as `slotMapping`,
`whole_ctx_block_ids` as `fillSlots` and `kv_lens` as `contextLens`. -/
def bufferState (s : BuiltinEngine) (jobs : List JobRef) : IterationState :=
  { s with attnFunc := .xFormersWithBuffer }.initIterationState jobs

/-- The `k`-th token of a job, behind the jobs `pre`: the block reserved for it is its entry, and
stands in the context of the job at the token's input position. -/
def TokenPlaced (s s' : BuiltinEngine) (jobs pre : List JobRef) (j : JobRef) (k : ℕ) : Prop :=
  ∃ block position, (s.reservedBlocks s' j)[k]? = some block ∧
    (s'.bufferState jobs).slotMapping[s'.tokenCount pre + k]? = some block ∧
    (s'.inputPositions jobs)[s'.tokenCount pre + k]? = some position ∧
    (s'.mem.getContextBlockIds (s'.jobContext j))[position]? = some block

/-- The reference path writes and reads the right cache rows. -/
structure ReferenceRight (s s' : BuiltinEngine) (jobs : List JobRef) (ids : List ℕ) : Prop where
  /-- One entry per input token. -/
  length_eq : (s'.bufferState jobs).slotMapping.length = ids.length
  /-- The entries are the reserved blocks, in the order of the input tokens. -/
  entries : (s'.bufferState jobs).slotMapping = jobs.flatMap (s.reservedBlocks s')
  placed : ∀ pre j post, jobs = pre ++ j :: post → ∀ k < (s'.job j).numTokens,
    s.TokenPlaced s' jobs pre j k
  /-- What is read back: the contexts of the jobs, with their lengths. -/
  whole : (s'.bufferState jobs).fillSlots =
    jobs.flatMap fun j => s'.mem.getContextBlockIds (s'.jobContext j)
  lengths : (s'.bufferState jobs).contextLens =
    jobs.map fun j => (s'.mem.getContextBlockIds (s'.jobContext j)).length

/-! ## The entries of a job -/

/-- A context ends with the blocks of the job's tokens. -/
lemma Allotted.blocks_eq (h : Allotted s live jobs s') (hj : j ∈ jobs) : ∃ old,
    s'.mem.getContextBlockIds (s'.jobContext j) = old ++ s.reservedBlocks s' j ∧
      s'.mem.getContextLen (s'.jobContext j) = old.length + (s'.job j).numTokens := by
  have hchain : s'.mem.getContextBlockIds (s'.jobContext j) = _ :=
    h.rooted.gather_eq _ (h.live j hj)
  rw [h.blocks j hj, ← List.append_assoc] at hchain
  refine ⟨_, hchain, ?_⟩
  rw [KvMemory.getContextLen_eq, hchain, List.length_append, h.lengthBlocks j hj]

lemma Allotted.blockRow (h : Allotted s live jobs s') (hj : j ∈ jobs)
    (hn : (s'.job j).numTokens ≠ 0) : s'.blockRow j = s.reservedBlocks s' j := by
  obtain ⟨old, hchain, -⟩ := h.blocks_eq hj
  rw [BuiltinEngine.blockRow, hchain]
  exact lastEntries_append (h.lengthBlocks j hj) hn

/-- Without tokens the entries are the whole context. -/
lemma length_blockRow_of_no_tokens (hn : (s'.job j).numTokens = 0) :
    (s'.blockRow j).length = s'.mem.getContextLen (s'.jobContext j) := by
  rw [BuiltinEngine.blockRow, lastEntries, if_pos hn, KvMemory.getContextLen_eq]

lemma Allotted.numTokens_le (h : Allotted s live jobs s') (hj : j ∈ jobs) :
    (s'.job j).numTokens ≤ (s'.blockRow j).length := by
  by_cases hn : (s'.job j).numTokens = 0
  · rw [hn]
    exact Nat.zero_le _
  · rw [h.blockRow hj hn, h.lengthBlocks j hj]

/-- The positions of a job's tokens are the last ones of its context. -/
lemma jobPositions_eq (hkind : (s.job j).kind ≠ .fill none) : s.jobPositions j =
    List.range' (s.mem.getContextLen (s.jobContext j) - (s.job j).numTokens)
      (s.job j).numTokens := by
  rw [jobPositions, PrimitiveJob.numTokens]
  cases h : (s.job j).kind with
  | fill tokenIds =>
      cases tokenIds with
      | none => exact absurd h hkind
      | some tokenIds => rfl
  | generate cfg => rfl

/-- A job that has input tokens has a token list. -/
lemma kind_of_inputIds (js : List JobRef) {ids : List ℕ} (h : s.inputIds js = .ok ids) :
    ∀ j ∈ js, (s.job j).kind ≠ .fill none := by
  intro j hj hkind
  have htokens := (inputIds_ok js h).2 j hj
  rw [inputTokens, hkind] at htokens
  cases htokens

lemma Allotted.placed (h : Allotted s live jobs s')
    (hkind : ∀ j ∈ jobs, (s'.job j).kind ≠ .fill none)
    (hentries : (s'.bufferState jobs).slotMapping = jobs.flatMap (s.reservedBlocks s'))
    (hsplit : jobs = pre ++ j :: post) {k : ℕ} (hk : k < (s'.job j).numTokens) :
    s.TokenPlaced s' jobs pre j k := by
  have hmem : ∀ x ∈ pre ++ j :: post, x ∈ jobs := fun x hx => by rwa [hsplit]
  have hj : j ∈ jobs := hmem j (List.mem_append_right _ List.mem_cons_self)
  obtain ⟨old, hchain, hlen⟩ := h.blocks_eq hj
  have hkb : k < (s.reservedBlocks s' j).length := by
    rw [h.lengthBlocks j hj]
    exact hk
  have hbefore : (pre.map fun x => (s.reservedBlocks s' x).length).sum = s'.tokenCount pre :=
    congrArg List.sum (List.map_congr_left fun x hx =>
      h.lengthBlocks x (hmem x (List.mem_append_left _ hx)))
  have hpositions : ∀ x ∈ jobs, (s'.jobPositions x).length = (s'.job x).numTokens := by
    intro x hx
    rw [jobPositions_eq (hkind x hx), List.length_range']
  have hbefore' : (pre.map fun x => (s'.jobPositions x).length).sum = s'.tokenCount pre :=
    congrArg List.sum (List.map_congr_left fun x hx =>
      hpositions x (hmem x (List.mem_append_left _ hx)))
  refine ⟨(s.reservedBlocks s' j)[k], old.length + k, List.getElem?_eq_getElem hkb, ?_, ?_, ?_⟩
  · rw [hentries, hsplit, ← hbefore, getElem?_flatMap_split _ hkb, List.getElem?_eq_getElem hkb]
  · have hkp : k < (s'.jobPositions j).length := by
      rw [hpositions j hj]
      exact hk
    rw [inputPositions, hsplit, ← hbefore', getElem?_flatMap_split _ hkp,
      jobPositions_eq (hkind j hj), List.getElem?_range' hk, hlen, Nat.add_sub_cancel, Nat.one_mul]
  · rw [hchain, List.getElem?_append_right (Nat.le_add_right _ _), Nat.add_sub_cancel_left,
      List.getElem?_eq_getElem hkb]

/-- The reference path is right exactly if every Fill without tokens is on a context of length 0. -/
theorem reference_path_iff {s₂ : BuiltinEngine} {ft : ℕ → ℕ} {batch : List JobRef}
    {ids : List ℕ} (hm : s.mem.MemInv live) (hroot : s.mem.Rooted live)
    (hbound : BoundTo s live batch) (hdistinct : (batch.map fun j => (s.job j).context).Nodup)
    (hin : s.RunsModel ft batch s₂ ids) :
    s.ReferenceRight s₂ (s₂.fillsFirst batch) ids ↔
      ∀ j ∈ batch, (s₂.job j).numTokens = 0 → s₂.mem.getContextLen (s₂.jobContext j) = 0 := by
  have h := hin.allotted hm hroot hbound hdistinct
  have hinputs := hin.inputs hbound.context
  have hids := length_inputIds _ hinputs
  have hmapping : (s₂.bufferState (s₂.fillsFirst batch)).slotMapping =
      (s₂.fillsFirst batch).flatMap s₂.blockRow := rfl
  constructor
  · intro hright j hj hn
    by_contra hne
    have hlt : ((s₂.fillsFirst batch).map fun x => (s₂.job x).numTokens).sum <
        ((s₂.fillsFirst batch).map fun x => (s₂.blockRow x).length).sum := by
      refine List.sum_lt_sum _ _ (fun x hx => h.numTokens_le hx)
        ⟨j, mem_fillsFirst.mpr hj, ?_⟩
      rw [hn, length_blockRow_of_no_tokens hn]
      exact Nat.pos_of_ne_zero hne
    have heq := hright.length_eq
    rw [hmapping, List.length_flatMap, hids] at heq
    exact absurd heq (Nat.ne_of_gt hlt)
  · intro hempty
    have hentries : (s₂.bufferState (s₂.fillsFirst batch)).slotMapping =
        (s₂.fillsFirst batch).flatMap (s.reservedBlocks s₂) := by
      rw [hmapping]
      refine congrArg List.flatten (List.map_congr_left fun j hj => ?_)
      by_cases hn : (s₂.job j).numTokens = 0
      · have hrow := length_blockRow_of_no_tokens hn
        rw [hempty j (mem_fillsFirst.mp hj) hn] at hrow
        have hreserved := h.lengthBlocks j hj
        rw [hn] at hreserved
        rw [List.length_eq_zero_iff.mp hrow, List.length_eq_zero_iff.mp hreserved]
      · exact h.blockRow hj hn
    refine ⟨?_, hentries, fun pre j post hsplit k hk =>
      h.placed (kind_of_inputIds _ hinputs) hentries hsplit hk, rfl, ?_⟩
    · rw [hentries, List.length_flatMap, hids]
      exact congrArg List.sum (List.map_congr_left h.lengthBlocks)
    · exact List.map_congr_left fun j _ => KvMemory.getContextLen_eq _ _

/-- A Fill without tokens on a new context, and a Fill of two tokens. -/
theorem reference_path_two : ∃ s₂ ids, (twoFills []).RunsModel (fun _ => 0) [0, 1] s₂ ids ∧
    (twoFills []).ReferenceRight s₂ (s₂.fillsFirst [0, 1]) ids := by
  have hview : ((twoFills []).modelState (fun _ => 0) [0, 1]).toOption.map
      (fun x => decide (∀ j ∈ ([0, 1] : List JobRef), (x.1.job j).numTokens = 0 →
        x.1.mem.getContextLen (x.1.jobContext j) = 0)) = some true := by
    decide +kernel
  obtain ⟨⟨s₂, ids⟩, hok, hempty⟩ := Option.map_eq_some_iff.mp hview
  have hin := runsModel_of_modelState hok
  have htree := twoFills_tree []
  exact ⟨s₂, ids, hin, (reference_path_iff htree.mem htree.rooted
    (twoFills_bound [] (by decide +kernel)) (by decide +kernel) hin).mpr (of_decide_eq_true hempty)⟩

/-- The Fill without tokens on context 0 has the whole context as its entries: there are more
entries than input tokens. -/
theorem reference_path_misplaced : ∃ s s₂ ids,
    (system .xFormersWithBuffer 1 8 ampleConfig).Reachable s ∧
    (∀ j ∈ [1, 2, 3], (s.job j).context ≠ none) ∧
    ([1, 2, 3].map fun j => (s.job j).context).Nodup ∧
    s.RunsModel (fun _ => 5) [1, 2, 3] s₂ ids ∧
    ¬ s.ReferenceRight s₂ (s₂.fillsFirst [1, 2, 3]) ids := by
  have hview : ((mixed .xFormersWithBuffer 0).modelState (fun _ => 5) [1, 2, 3]).toOption.map
      (fun x => ((x.1.bufferState (x.1.fillsFirst [1, 2, 3])).slotMapping.length, x.2.length)) =
        some (4, 3) := by
    decide +kernel
  obtain ⟨⟨s₂, ids⟩, hok, hlengths⟩ := Option.map_eq_some_iff.mp hview
  obtain ⟨hmapping, hids⟩ := Prod.mk.inj hlengths
  refine ⟨mixed .xFormersWithBuffer 0, s₂, ids, .foldl _ (.init rfl) (by decide +kernel),
    by decide +kernel, by decide +kernel, runsModel_of_modelState hok, fun hright => ?_⟩
  have heq := hright.length_eq
  dsimp only at hmapping hids
  rw [hmapping, hids] at heq
  cases heq

end BuiltinEngine

end ParrotServe
