import ParrotServe.Properties.OutputRouting
import ParrotServe.Properties.SharedPrompts
import Mathlib.Data.List.TakeWhile

/-!
# The slot of every new token

The paged attention functions build `slot_mapping` with one row per job: the last slots of its
context, as many as it has tokens, padded with zeros to the longest row.  The kernel stores the
`i`-th input token at the `i`-th entry of the table as it lies in memory, row by row.  That entry is
the slot reserved for the token as long as no padding is read before the last token, and no row of a
Fill without tokens, which is its whole context (`l[-0:]` is all of `l`).

`ReadsFlat` says so of the rows.  There is one exception in it, `Covered`: the zeros of the padding
and the contexts of Fills without tokens may list, by chance, all slots that are left (as when one
token is left and its slot is slot 0).  `readsFlat_iff` is the statement about padded tables,
`slot_mapping_reserved_iff` the one about a batch.
-/

namespace ParrotServe

/-! ## Padded tables read flat -/

/-- The slots of the tokens of a table, row by row. -/
def tokenRows (rows : List (List ℕ × ℕ)) : List ℕ := rows.flatMap fun x => tokenRow x.1 x.2

/-- The padded table as it lies in memory. -/
def paddedRows (maxLen : ℕ) (rows : List (List ℕ × ℕ)) : List ℕ :=
  rows.flatMap fun x => padToMax x.1 maxLen 0

/-- The zeros behind a row, and the rows without tokens behind it, happen to list all slots that are
left. -/
def Covered (maxLen : ℕ) (x : List ℕ × ℕ) (rows : List (List ℕ × ℕ)) : Prop :=
  ∃ mid post rest, rows = mid ++ post ∧ (∀ y ∈ mid, y.2 = 0) ∧
    paddedRows maxLen (x :: mid) = tokenRows (x :: rows) ++ rest

/-- Every row that is followed by a token has as many tokens as the longest row has entries, up to a
row behind which all that is left is covered. -/
def ReadsFlat (maxLen : ℕ) : List (List ℕ × ℕ) → Prop
  | [] => True
  | x :: rows => (∀ y ∈ rows, y.2 = 0) ∨ (x.2 = maxLen ∧ ReadsFlat maxLen rows) ∨
      Covered maxLen x rows

section Rows

variable {maxLen : ℕ} {rows : List (List ℕ × ℕ)} {x : List ℕ × ℕ}

lemma tokenRows_cons : tokenRows (x :: rows) = tokenRow x.1 x.2 ++ tokenRows rows := rfl

lemma paddedRows_cons :
    paddedRows maxLen (x :: rows) = padToMax x.1 maxLen 0 ++ paddedRows maxLen rows := rfl

lemma tokenRows_append (xs ys : List (List ℕ × ℕ)) :
    tokenRows (xs ++ ys) = tokenRows xs ++ tokenRows ys := List.flatMap_append

lemma paddedRows_append (xs ys : List (List ℕ × ℕ)) :
    paddedRows maxLen (xs ++ ys) = paddedRows maxLen xs ++ paddedRows maxLen ys :=
  List.flatMap_append

/-- Without tokens there is nothing to read. -/
lemma tokenRows_eq_nil (h : ∀ y ∈ rows, y.2 = 0) : tokenRows rows = [] :=
  List.flatMap_eq_nil_iff.mpr fun y hy => if_pos (h y hy)

/-- A row that is as long as the longest one is not padded. -/
lemma padToMax_full (hlen : x.2 ≠ 0 → x.1.length = x.2) (hmax : x.1.length ≤ maxLen)
    (hfull : x.2 = maxLen) : padToMax x.1 maxLen 0 = tokenRow x.1 x.2 := by
  by_cases hn : x.2 = 0
  · have hrow : x.1 = [] := List.length_eq_zero_iff.mp (by omega)
    rw [tokenRow, if_pos hn, padToMax, hrow, ← hfull, hn]
    rfl
  · rw [tokenRow, if_neg hn, padToMax_of_length ((hlen hn).trans hfull)]

lemma reads_of_readsFlat (hlen : ∀ x ∈ rows, x.2 ≠ 0 → x.1.length = x.2)
    (hmax : ∀ x ∈ rows, x.1.length ≤ maxLen) (h : ReadsFlat maxLen rows) :
    ∃ rest, paddedRows maxLen rows = tokenRows rows ++ rest := by
  induction rows with
  | nil => exact ⟨[], rfl⟩
  | cons x rows ih =>
      have hx := hlen x List.mem_cons_self
      have hxmax := hmax x List.mem_cons_self
      rw [paddedRows_cons, tokenRows_cons]
      rcases h with hzero | ⟨hfull, h⟩ | ⟨mid, post, rest, rfl, -, hrest⟩
      · rw [tokenRows_eq_nil hzero, List.append_nil, padToMax, tokenRow, List.append_assoc]
        split_ifs
        · exact ⟨_, (List.nil_append _).symm⟩
        · exact ⟨_, rfl⟩
      · obtain ⟨rest, hrest⟩ := ih (fun y hy => hlen y (List.mem_cons_of_mem _ hy))
          (fun y hy => hmax y (List.mem_cons_of_mem _ hy)) h
        exact ⟨rest, by rw [padToMax_full hx hxmax hfull, hrest, List.append_assoc]⟩
      · refine ⟨rest ++ paddedRows maxLen post, ?_⟩
        rw [← tokenRows_cons, ← paddedRows_cons, ← List.append_assoc, ← hrest, paddedRows_cons,
          paddedRows_cons, paddedRows_append, List.append_assoc]

/-- The table is read up to the first row with tokens behind a row that is not full, at most. -/
lemma covered_of_reads (hlen : ∀ y ∈ rows, y.2 ≠ 0 → y.1.length = y.2)
    (hmax : x.1.length ≤ maxLen) (hroom : x.2 < maxLen) (hx : x.2 ≠ 0 → x.1.length = x.2)
    (hnodup : (tokenRows (x :: rows)).Nodup)
    (h : ∃ rest, paddedRows maxLen (x :: rows) = tokenRows (x :: rows) ++ rest) :
    Covered maxLen x rows := by
  obtain ⟨rest, h⟩ := h
  have hsplit := List.takeWhile_append_dropWhile (p := fun y : List ℕ × ℕ => decide (y.2 = 0))
    (l := rows)
  have hmid : ∀ y ∈ rows.takeWhile fun y => decide (y.2 = 0), y.2 = 0 := fun y hy =>
    of_decide_eq_true (List.mem_takeWhile_imp (p := fun y : List ℕ × ℕ => decide (y.2 = 0)) hy)
  set mid := rows.takeWhile fun y => decide (y.2 = 0) with hmiddef
  set post := rows.dropWhile fun y => decide (y.2 = 0) with hpostdef
  have htokens : tokenRows (x :: rows) = tokenRow x.1 x.2 ++ tokenRows post := by
    rw [tokenRows_cons, ← hsplit, tokenRows_append, tokenRows_eq_nil hmid, List.nil_append]
  have hpadded : paddedRows maxLen (x :: rows) =
      paddedRows maxLen (x :: mid) ++ paddedRows maxLen post := by
    rw [← paddedRows_append, List.cons_append, hsplit]
  rw [hpadded] at h
  rcases List.append_eq_append_iff.mp h with ⟨left, htokens', hpost⟩ | ⟨rest', hcover, -⟩
  · cases left with
    | nil =>
        rw [List.append_nil] at htokens'
        exact ⟨mid, post, [], hsplit.symm, hmid, by rw [htokens', List.append_nil]⟩
    | cons slot left =>
        -- the first row with tokens is read where its first slot is not expected
        exfalso
        cases hy : post with
        | nil =>
            rw [hy] at hpost
            cases hpost
        | cons y post' =>
            have hyrows : y ∈ rows := by
              rw [← hsplit, hy]
              exact List.mem_append_right _ List.mem_cons_self
            have hyn : y.2 ≠ 0 := by
              have hhead := List.head?_dropWhile_not (fun y : List ℕ × ℕ => decide (y.2 = 0)) rows
              rw [← hpostdef, hy, List.head?_cons] at hhead
              simpa using hhead
            cases hrow : y.1 with
            | nil =>
                have hzero := hlen y hyrows hyn
                rw [hrow] at hzero
                exact hyn hzero.symm
            | cons a more =>
                rw [hy, paddedRows_cons, padToMax, hrow, List.cons_append, List.cons_append,
                  List.cons_append] at hpost
                obtain rfl := (List.cons.inj hpost).1
                have hread : (tokenRows (x :: rows))[(paddedRows maxLen (x :: mid)).length]? =
                    some a := by
                  rw [htokens', List.getElem?_append_right (Nat.le_refl _), Nat.sub_self]
                  rfl
                have hexpected : (tokenRows (x :: rows))[(tokenRow x.1 x.2).length]? = some a := by
                  rw [htokens, hy, tokenRows_cons, tokenRow, tokenRow, if_neg hyn, hrow,
                    List.getElem?_append_right (Nat.le_refl _), Nat.sub_self]
                  rfl
                have heq := (List.getElem?_inj (List.getElem?_eq_some_iff.mp hread).1 hnodup).mp
                  (hread.trans hexpected.symm)
                have hlong : maxLen ≤ (paddedRows maxLen (x :: mid)).length := by
                  rw [paddedRows_cons, List.length_append, length_padToMax hmax]
                  exact Nat.le_add_right _ _
                have hshort : (tokenRow x.1 x.2).length = x.2 := by
                  rw [tokenRow]
                  split_ifs with hn
                  · exact hn.symm
                  · exact hx hn
                omega
  · exact ⟨mid, post, rest', hsplit.symm, hmid, hcover⟩

lemma readsFlat_of_reads (hlen : ∀ x ∈ rows, x.2 ≠ 0 → x.1.length = x.2)
    (hmax : ∀ x ∈ rows, x.1.length ≤ maxLen) (hnodup : (tokenRows rows).Nodup) :
    (∃ rest, paddedRows maxLen rows = tokenRows rows ++ rest) → ReadsFlat maxLen rows := by
  induction rows with
  | nil => exact fun _ => trivial
  | cons x rows ih =>
      intro h
      have hx := hlen x List.mem_cons_self
      have hxmax := hmax x List.mem_cons_self
      have hle : x.2 ≤ maxLen := by
        by_cases hn : x.2 = 0
        · rw [hn]
          exact Nat.zero_le _
        · rw [← hx hn]
          exact hxmax
      rcases Nat.eq_or_lt_of_le hle with hfull | hroom
      · obtain ⟨rest, h⟩ := h
        rw [paddedRows_cons, padToMax_full hx hxmax hfull, tokenRows_cons, List.append_assoc] at h
        rw [tokenRows_cons] at hnodup
        exact .inr (.inl ⟨hfull, ih (fun y hy => hlen y (List.mem_cons_of_mem _ hy))
          (fun y hy => hmax y (List.mem_cons_of_mem _ hy)) (List.nodup_append'.mp hnodup).2.1
          ⟨rest, List.append_cancel_left h⟩⟩)
      · exact .inr (.inr (covered_of_reads (fun y hy => hlen y (List.mem_cons_of_mem _ hy)) hxmax
          hroom hx hnodup h))

/-- A padded table read flat begins with the slots of its tokens exactly if it `ReadsFlat`. -/
theorem readsFlat_iff (hlen : ∀ x ∈ rows, x.2 ≠ 0 → x.1.length = x.2)
    (hmax : ∀ x ∈ rows, x.1.length ≤ maxLen) (hnodup : (tokenRows rows).Nodup) :
    (∃ rest, paddedRows maxLen rows = tokenRows rows ++ rest) ↔ ReadsFlat maxLen rows :=
  ⟨readsFlat_of_reads hlen hmax hnodup, reads_of_readsFlat hlen hmax⟩

end Rows

namespace BuiltinEngine

variable {s s' : BuiltinEngine} {live : Set CtxRef} {jobs : List JobRef} {j : JobRef}

/-! ## What an iteration reserves -/

/-- The slots appended to the context of a job since `s`. -/
def reservedSlots (s s' : BuiltinEngine) (j : JobRef) : List ℕ :=
  (s'.mem.obj (s'.jobContext j)).tokenKvSlotIds.drop
    (s.mem.obj (s'.jobContext j)).tokenKvSlotIds.length

/-- The blocks of these slots. -/
def reservedBlocks (s s' : BuiltinEngine) (j : JobRef) : List ℕ :=
  (s'.mem.obj (s'.jobContext j)).tokenKvBlockIds.drop
    (s.mem.obj (s'.jobContext j)).tokenKvBlockIds.length

/-- The engine `s'` has reserved a slot for every token of the jobs, whose contexts differ. -/
structure Allotted (s : BuiltinEngine) (live : Set CtxRef) (jobs : List JobRef)
    (s' : BuiltinEngine) : Prop where
  mem : s'.mem.MemInv live
  rooted : s'.mem.Rooted live
  live : ∀ j ∈ jobs, s'.jobContext j ∈ live
  distinct : (jobs.map s'.jobContext).Nodup
  slots : ∀ j ∈ jobs, (s'.mem.obj (s'.jobContext j)).tokenKvSlotIds =
    (s.mem.obj (s'.jobContext j)).tokenKvSlotIds ++ s.reservedSlots s' j
  blocks : ∀ j ∈ jobs, (s'.mem.obj (s'.jobContext j)).tokenKvBlockIds =
    (s.mem.obj (s'.jobContext j)).tokenKvBlockIds ++ s.reservedBlocks s' j
  lengthSlots : ∀ j ∈ jobs, (s.reservedSlots s' j).length = (s'.job j).numTokens
  lengthBlocks : ∀ j ∈ jobs, (s.reservedBlocks s' j).length = (s'.job j).numTokens

lemma BoundTo.context (h : BoundTo s live jobs) : ∀ j ∈ jobs, (s.job j).context ≠ none := by
  intro j hj
  obtain ⟨r, -, hctx⟩ := h j hj
  rw [hctx]
  exact Option.some_ne_none r

/-- The jobs have their contexts still when the model runs. -/
lemma RunsModel.contexts {s₂ : BuiltinEngine} {ft : ℕ → ℕ} {batch : List JobRef} {ids : List ℕ}
    (hin : s.RunsModel ft batch s₂ ids) (hbound : BoundTo s live batch) :
    ∀ j ∈ batch, (s.job j).context = some (s₂.jobContext j) ∧ s₂.jobContext j ∈ live := by
  intro j hj
  obtain ⟨r, hr, hctx⟩ := hbound j hj
  have hr₂ : s₂.jobContext j = r :=
    jobContext_eq ((hin.records hbound.context j).1.trans hctx)
  exact ⟨hr₂ ▸ hctx, hr₂ ▸ hr⟩

/-- By then both tables of a job's context have grown by an entry for each of its tokens. -/
lemma RunsModel.tables {s₂ : BuiltinEngine} {ft : ℕ → ℕ} {batch : List JobRef} {ids : List ℕ}
    (hin : s.RunsModel ft batch s₂ ids) (hm : s.mem.MemInv live)
    (hbound : BoundTo s live batch) (hdistinct : (batch.map fun j => (s.job j).context).Nodup) :
    ∀ j ∈ batch, ∃ bl sl,
      (s₂.mem.obj (s₂.jobContext j)).tokenKvBlockIds =
        (s.mem.obj (s₂.jobContext j)).tokenKvBlockIds ++ bl ∧
      (s₂.mem.obj (s₂.jobContext j)).tokenKvSlotIds =
        (s.mem.obj (s₂.jobContext j)).tokenKvSlotIds ++ sl ∧
      bl.length = (s₂.job j).numTokens ∧ sl.length = (s₂.job j).numTokens := by
  intro j hj
  obtain ⟨hctx, hr⟩ := hin.contexts hbound j hj
  have hnum := hin.numTokens hbound.context j
  obtain ⟨first, s₁, hprep, hfirst, -⟩ := hin
  have hbound' : BoundTo s live (s.fillsFirst batch) := fun x hx => hbound x (mem_fillsFirst.mp hx)
  have hnodup : ((s.fillsFirst batch).map fun x => (s.job x).context).Nodup :=
    ((s.fillsFirst_perm batch).map fun x => (s.job x).context).nodup_iff.mpr hdistinct
  obtain ⟨hmem₁, -⟩ := prepareJobs_spec _ hm hbound' hprep
  obtain ⟨-, -, hself⟩ := prepareJobs_objs _ hm hbound' hnodup hprep
  have hq := firstSampling_quiet hfirst
  obtain ⟨sample, hal, -⟩ := hself j (mem_fillsFirst.mpr hj) _ hctx
  obtain ⟨bl, sl, hbl, hb, hs⟩ := hal.tables
  have hlen := (hm.paged _ hr).length_eq
  have hlen₁ := (hmem₁.paged _ hr).length_eq
  rw [hb, hs, List.length_append, List.length_append, hlen] at hlen₁
  refine ⟨bl, sl, (hq.obj _).2.2.2.2.1.trans hb, (hq.obj _).2.2.2.2.2.trans hs, ?_, ?_⟩
  · rw [hnum, hbl]
  · rw [hnum, ← hbl]
    omega

/-- So the engine has allotted the tokens when the model runs. -/
lemma RunsModel.allotted {s₂ : BuiltinEngine} {ft : ℕ → ℕ} {batch : List JobRef} {ids : List ℕ}
    (hin : s.RunsModel ft batch s₂ ids) (hm : s.mem.MemInv live) (hroot : s.mem.Rooted live)
    (hbound : BoundTo s live batch) (hdistinct : (batch.map fun j => (s.job j).context).Nodup) :
    Allotted s live (s₂.fillsFirst batch) s₂ := by
  have hcontexts := hin.contexts hbound
  have htables := hin.tables hm hbound hdistinct
  obtain ⟨first, s₁, hprep, hfirst, -⟩ := hin
  have hbound' : BoundTo s live (s.fillsFirst batch) := fun j hj => hbound j (mem_fillsFirst.mp hj)
  obtain ⟨hmem₁, hext⟩ := prepareJobs_spec _ hm hbound' hprep
  have hq := firstSampling_quiet hfirst
  have hdrop : ∀ {l old new : List ℕ}, l = old ++ new → l.drop old.length = new := by
    rintro _ old new rfl
    exact List.drop_left
  refine ⟨hq.memInv hmem₁, fun r hr p hp => ?_,
    fun j hj => (hcontexts j (mem_fillsFirst.mp hj)).2, ?_, fun j hj => ?_, fun j hj => ?_,
    fun j hj => ?_, fun j hj => ?_⟩
  · rw [(hq.obj r).2.1, (hext.links r).2.1] at hp
    exact hroot r hr p hp
  · exact ((s₂.fillsFirst_perm batch).map s₂.jobContext).nodup_iff.mpr
      (nodup_of_contexts (fun j hj => (hcontexts j hj).1) hdistinct)
  · obtain ⟨bl, sl, -, hs, -⟩ := htables j (mem_fillsFirst.mp hj)
    rw [reservedSlots, hdrop hs, hs]
  · obtain ⟨bl, sl, hb, -⟩ := htables j (mem_fillsFirst.mp hj)
    rw [reservedBlocks, hdrop hb, hb]
  · obtain ⟨bl, sl, -, hs, -, hlen⟩ := htables j (mem_fillsFirst.mp hj)
    rw [reservedSlots, hdrop hs, hlen]
  · obtain ⟨bl, sl, hb, -, hlen, -⟩ := htables j (mem_fillsFirst.mp hj)
    rw [reservedBlocks, hdrop hb, hlen]

/-! ## The rows of a batch -/

/-- The table of a batch: the row of each job, and its number of tokens. -/
def slotRows (s : BuiltinEngine) (jobs : List JobRef) : List (List ℕ × ℕ) :=
  jobs.map fun j => (s.slotRow j, (s.job j).numTokens)

lemma Allotted.slotRow (h : Allotted s live jobs s') (hj : j ∈ jobs)
    (hn : (s'.job j).numTokens ≠ 0) : s'.slotRow j = s.reservedSlots s' j := by
  have hchain : s'.mem.getContextSlotIds (s'.jobContext j) = _ :=
    h.rooted.gather_eq _ (h.live j hj)
  rw [BuiltinEngine.slotRow, hchain, h.slots j hj, ← List.append_assoc]
  exact lastEntries_append (h.lengthSlots j hj) hn

lemma Allotted.reservedSlots_eq_nil (h : Allotted s live jobs s') (hj : j ∈ jobs)
    (hn : (s'.job j).numTokens = 0) : s.reservedSlots s' j = [] := by
  rw [← List.length_eq_zero_iff, h.lengthSlots j hj, hn]

/-- The slots of the tokens of the table are the reserved ones, in the order of the input tokens. -/
lemma Allotted.tokenRows_eq (h : Allotted s live jobs s') :
    tokenRows (s'.slotRows jobs) = jobs.flatMap (s.reservedSlots s') := by
  rw [tokenRows, slotRows, List.flatMap_map]
  refine congrArg List.flatten (List.map_congr_left fun j hj => ?_)
  rw [tokenRow]
  split_ifs with hn
  · exact (h.reservedSlots_eq_nil hj hn).symm
  · exact h.slotRow hj hn

lemma Allotted.length_row (h : Allotted s live jobs s') :
    ∀ x ∈ s'.slotRows jobs, x.2 ≠ 0 → x.1.length = x.2 := by
  intro x hx hn
  obtain ⟨j, hj, rfl⟩ := List.mem_map.mp hx
  rw [h.slotRow hj hn, h.lengthSlots j hj]

lemma slotRows_le_maxLength :
    ∀ x ∈ s.slotRows jobs, x.1.length ≤ maxLength (jobs.map s.slotRow) := by
  intro x hx
  obtain ⟨j, hj, rfl⟩ := List.mem_map.mp hx
  exact length_le_maxLength (List.mem_map_of_mem hj)

/-- No two tokens get the same slot. -/
lemma Allotted.nodup_reserved (h : Allotted s live jobs s') :
    (jobs.flatMap (s.reservedSlots s')).Nodup :=
  h.mem.nodup_flatMap h.live h.distinct fun j hj => ⟨_, (h.slots j hj).symm⟩

/-! ## The slot mapping -/

/-- `slot_mapping`, as one of the paged attention functions builds it. -/
def IsSlotMapping (s : BuiltinEngine) (jobs : List JobRef) (mapping : List ℕ) : Prop :=
  mapping = (s.plainState jobs).slotMapping ∨
    ∃ st, s.initSharedPrompts jobs = .ok st ∧ mapping = st.slotMapping

/-- The slot mappings of the two functions are the same table. -/
lemma IsSlotMapping.eq {mapping : List ℕ} (h : s.IsSlotMapping jobs mapping) :
    mapping = paddedRows (maxLength (jobs.map s.slotRow)) (s.slotRows jobs) := by
  have hplain : (s.plainState jobs).slotMapping =
      paddedRows (maxLength (jobs.map s.slotRow)) (s.slotRows jobs) := by
    show ((jobs.map s.slotRow).flatMap fun row =>
      padToMax row (maxLength (jobs.map s.slotRow)) 0) = _
    rw [paddedRows, slotRows, List.flatMap_map, List.flatMap_map]
  rcases h with rfl | ⟨st, hst, rfl⟩
  · exact hplain
  · rw [← hplain]
    rw [initSharedPrompts] at hst
    split at hst
    · cases hst
    · split at hst
      · cases hst
      · rw [← Except.ok.inj hst]
        rfl

/-- The entries of a slot mapping, up to the last input token, are the slots reserved for the
tokens. -/
def StoresReserved (s s' : BuiltinEngine) (jobs : List JobRef) (ids mapping : List ℕ) : Prop :=
  ∀ i < ids.length, ∃ slot, (jobs.flatMap (s.reservedSlots s'))[i]? = some slot ∧
    mapping[i]? = some slot

/-- As many reserved slots as input tokens. -/
lemma Allotted.length_reserved (h : Allotted s live jobs s') :
    (jobs.flatMap (s.reservedSlots s')).length = s'.tokenCount jobs := by
  rw [List.length_flatMap, tokenCount]
  exact congrArg List.sum (List.map_congr_left h.lengthSlots)

lemma Allotted.stores_iff (h : Allotted s live jobs s') {ids mapping : List ℕ}
    (hids : ids.length = s'.tokenCount jobs) :
    s.StoresReserved s' jobs ids mapping ↔
      ∃ rest, mapping = jobs.flatMap (s.reservedSlots s') ++ rest := by
  have hlen := h.length_reserved.trans hids.symm
  constructor
  · intro hstores
    refine ⟨mapping.drop ids.length, ?_⟩
    have htake : mapping.take ids.length = jobs.flatMap (s.reservedSlots s') := by
      refine List.ext_getElem? fun i => ?_
      rcases Nat.lt_or_ge i ids.length with hi | hi
      · obtain ⟨slot, hslot, hmapping⟩ := hstores i hi
        rw [List.getElem?_take_of_lt hi, hmapping, hslot]
      · rw [List.getElem?_take_eq_none hi, List.getElem?_eq_none (hlen.le.trans hi)]
    rw [← htake, List.take_append_drop]
  · rintro ⟨rest, rfl⟩ i hi
    rw [← hlen] at hi
    exact ⟨_, List.getElem?_eq_getElem hi, by
      rw [List.getElem?_append_left hi, List.getElem?_eq_getElem hi]⟩

/-- The slot mapping of a batch stores every token in its reserved slot exactly if its rows can be
read flat. -/
theorem slot_mapping_reserved_iff {s₂ : BuiltinEngine} {ft : ℕ → ℕ} {batch : List JobRef}
    {ids mapping : List ℕ} (hm : s.mem.MemInv live) (hroot : s.mem.Rooted live)
    (hbound : BoundTo s live batch) (hdistinct : (batch.map fun j => (s.job j).context).Nodup)
    (hin : s.RunsModel ft batch s₂ ids) (hmap : s₂.IsSlotMapping (s₂.fillsFirst batch) mapping) :
    s.StoresReserved s₂ (s₂.fillsFirst batch) ids mapping ↔
      ReadsFlat (maxLength ((s₂.fillsFirst batch).map s₂.slotRow))
        (s₂.slotRows (s₂.fillsFirst batch)) := by
  have h := hin.allotted hm hroot hbound hdistinct
  rw [h.stores_iff (length_inputIds _ (hin.inputs hbound.context)), hmap.eq, ← h.tokenRows_eq]
  refine readsFlat_iff h.length_row slotRows_le_maxLength ?_
  rw [h.tokenRows_eq]
  exact h.nodup_reserved

/-! ## Two batches -/

/-- The engine when the model runs, and the input tokens. -/
def modelState (s : BuiltinEngine) (firstSamplingTokens : ℕ → ℕ) (batch : List JobRef) :
    Except PyError (BuiltinEngine × List ℕ) :=
  match s.prepareJobs (s.fillsFirst batch) with
  | .error e => .error e
  | .ok (first, s₁) =>
      match s₁.firstSampling firstSamplingTokens 0 first with
      | .error e => .error e
      | .ok s₂ =>
          match s₂.inputIds (s.fillsFirst batch) with
          | .error e => .error e
          | .ok ids => .ok (s₂, ids)

lemma runsModel_of_modelState {ft : ℕ → ℕ} {batch : List JobRef} {ids : List ℕ}
    (h : (s.modelState ft batch).toOption = some (s', ids)) : s.RunsModel ft batch s' ids := by
  rw [modelState] at h
  split at h
  · cases h
  · rename_i first s₁ hprep
    split at h
    · cases h
    · rename_i s₂ hfirst
      split at h
      · cases h
      · rename_i ids' hids
        obtain ⟨rfl, rfl⟩ := Prod.mk.inj (Option.some.inj h)
        exact ⟨first, s₁, hprep, hfirst, hids⟩

/-- Two Fills of different contexts wait. -/
def twoFills (tokenIds : List ℕ) : BuiltinEngine :=
  [Action.fill 0 0 0 none true tokenIds 0, .fill 1 1 1 none true [2, 3] 1].foldl apply
    (start .xFormersFillVllmPagedAttentionGenerate 2 8 ampleConfig)

/-- What there is to see of the batch when the model runs. -/
def twoFillsView (tokenIds : List ℕ) : Option (List (List ℕ × ℕ) × List ℕ × List ℕ × List ℕ) :=
  ((twoFills tokenIds).modelState (fun _ => 0) [0, 1]).toOption.map fun x =>
    (x.1.slotRows (x.1.fillsFirst [0, 1]),
      (x.1.fillsFirst [0, 1]).flatMap ((twoFills tokenIds).reservedSlots x.1),
      (x.1.plainState (x.1.fillsFirst [0, 1])).slotMapping, x.2)

/-- The forest is kept by requests and iterations, as long as none frees a context. -/
lemma TreeInv.foldl {bs : ℕ} (as : List Action) : ∀ {s : BuiltinEngine}, TreeInv bs s →
    (∀ a ∈ as, ∀ cid, a ≠ .freeContext cid) → TreeInv bs (as.foldl BuiltinEngine.apply s) := by
  induction as with
  | nil => exact fun h _ => h
  | cons a as ih =>
      intro s h hfree
      exact ih (h.apply fun cid heq => absurd heq (hfree a List.mem_cons_self cid))
        fun x hx => hfree x (List.mem_cons_of_mem _ hx)

lemma twoFills_tree (tokenIds : List ℕ) : TreeInv 2 (twoFills tokenIds) :=
  (treeInv_start (by decide)).foldl _ (by simp)

lemma twoFills_bound (tokenIds : List ℕ)
    (h : ∀ j ∈ [0, 1], ((twoFills tokenIds).job j).context = some j ∧
      (twoFills tokenIds).map j = some j) :
    BoundTo (twoFills tokenIds) (twoFills tokenIds).registered [0, 1] :=
  fun j hj => ⟨j, ⟨j, (h j hj).2⟩, (h j hj).1⟩

lemma twoFills_run {tokenIds : List ℕ} {view : List (List ℕ × ℕ) × List ℕ × List ℕ × List ℕ}
    (h : twoFillsView tokenIds = some view) : ∃ s₂,
      (twoFills tokenIds).RunsModel (fun _ => 0) [0, 1] s₂ view.2.2.2 ∧
      s₂.slotRows (s₂.fillsFirst [0, 1]) = view.1 ∧
      (s₂.fillsFirst [0, 1]).flatMap ((twoFills tokenIds).reservedSlots s₂) = view.2.1 ∧
      (s₂.plainState (s₂.fillsFirst [0, 1])).slotMapping = view.2.2.1 := by
  obtain ⟨⟨s₂, ids⟩, hok, rfl⟩ := Option.map_eq_some_iff.mp h
  exact ⟨s₂, runsModel_of_modelState hok, rfl, rfl, rfl⟩

/-- Two Fills of two tokens. -/
theorem slot_mapping_reserved_two : ∃ s₂ ids,
    (twoFills [7, 8]).RunsModel (fun _ => 0) [0, 1] s₂ ids ∧
    (twoFills [7, 8]).StoresReserved s₂ (s₂.fillsFirst [0, 1]) ids
      (s₂.plainState (s₂.fillsFirst [0, 1])).slotMapping := by
  have hview : twoFillsView [7, 8] =
      some ([([0, 1], 2), ([2, 3], 2)], [0, 1, 2, 3], [0, 1, 2, 3], [7, 8, 2, 3]) := by
    decide +kernel
  have htree := twoFills_tree [7, 8]
  have hbound := twoFills_bound [7, 8] (by decide +kernel)
  have hdistinct : ([0, 1].map fun j => ((twoFills [7, 8]).job j).context).Nodup := by
    decide +kernel
  obtain ⟨s₂, hin, hrows, -, -⟩ := twoFills_run hview
  refine ⟨s₂, _, hin, (slot_mapping_reserved_iff htree.mem htree.rooted hbound hdistinct hin
    (.inl rfl)).mpr ?_⟩
  have hlength : (s₂.fillsFirst [0, 1]).map s₂.slotRow = [[0, 1], [2, 3]] := by
    have hfst := congrArg (List.map Prod.fst) hrows
    rw [slotRows, List.map_map] at hfst
    exact hfst
  rw [hrows, hlength]
  exact .inr (.inl ⟨rfl, .inl fun y hy => absurd hy List.not_mem_nil⟩)

/-- Behind the one token of the first Fill a zero of the padding is read: the second token goes to
slot 0, which is reserved for the first, and the third to the slot of the second. -/
theorem slot_mapping_misplaced : ∃ s s₂ ids,
    (system .xFormersFillVllmPagedAttentionGenerate 2 8 ampleConfig).Reachable s ∧
    (∀ j ∈ [0, 1], (s.job j).context ≠ none) ∧
    ([0, 1].map fun j => (s.job j).context).Nodup ∧
    s.RunsModel (fun _ => 0) [0, 1] s₂ ids ∧
    ¬ s.StoresReserved s₂ (s₂.fillsFirst [0, 1]) ids
      (s₂.plainState (s₂.fillsFirst [0, 1])).slotMapping := by
  have hview : twoFillsView [7] =
      some ([([0], 1), ([2, 3], 2)], [0, 2, 3], [0, 0, 2, 3], [7, 2, 3]) := by
    decide +kernel
  obtain ⟨s₂, hin, -, hreserved, hmapping⟩ := twoFills_run hview
  refine ⟨twoFills [7], s₂, _, .foldl _ (.init rfl) (by decide +kernel), by decide +kernel,
    by decide +kernel, hin, fun hstores => ?_⟩
  obtain ⟨slot, hslot, hentry⟩ := hstores 1 (by decide)
  rw [hreserved] at hslot
  rw [hmapping] at hentry
  cases hslot
  cases hentry

end BuiltinEngine

end ParrotServe
