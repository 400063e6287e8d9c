import Mathlib.Algebra.Order.BigOperators.Group.List
import ParrotServe.Properties.BlockRange
import ParrotServe.Properties.LayerForwards

/-!
# What attention reads

The engine keeps the slots of each context, and the tensors keep the keys and values of the slots.
A token is named by its `Place`, the context and the position in it, so the same token in two
places is told apart.  `StorageInv` connects the two: the slot of a place holds, in every layer, the
row that was computed for the place and its token.  An iteration keeps it because its destinations
are different slots of the cache, those of the places it feeds (`exists_destinations`), and a
request does because it touches no tensor and no slot of a context.

So the rows a layer fetches are those computed for the places of the contexts, in order
(`attention_reads_computed`); and where the paged path skips the fetch, the new rows it uses instead
are those it would have fetched (`skipped_fetch_agrees`).
-/

namespace ParrotServe

universe u

variable {α : Type u}

/-! ## Places -/

/-- A token of a context: the object, and the position among its own tokens. -/
structure Place where
  context : CtxRef
  position : ℕ
  deriving DecidableEq

lemma map_range_getElem? {β : Type*} (l : List β) :
    (List.range l.length).map (fun i => l[i]?) = l.map some := by
  refine List.ext_getElem (by simp) fun i hi hi' => ?_
  rw [List.length_map] at hi'
  simp [List.getElem?_eq_getElem hi']

namespace KvMemory

variable {m : KvMemory} {live : Set CtxRef}

/-- The slot of a place. -/
def slotAt (m : KvMemory) (place : Place) : Option ℕ :=
  (m.obj place.context).tokenKvSlotIds[place.position]?

/-- The token of a place. -/
def tokenAt (m : KvMemory) (place : Place) : Option ℕ :=
  (m.obj place.context).tokenIds[place.position]?

/-- The places of a chain that have slots, root first. -/
def contextPlaces (m : KvMemory) (r : CtxRef) : List Place :=
  (m.lineage r).flatMap fun a => (List.range (m.obj a).tokenKvSlotIds.length).map (Place.mk a)

lemma contextPlaces_slots (m : KvMemory) (r : CtxRef) :
    (m.contextPlaces r).map m.slotAt = (m.getContextSlotIds r).map some := by
  rw [getContextSlotIds, gather_eq_lineage, contextPlaces, List.map_flatMap, List.map_flatMap]
  refine List.flatMap_congr fun a _ => ?_
  rw [List.map_map, ← map_range_getElem?]
  rfl

lemma contextPlaces_tokens {r : CtxRef} (h : ∀ a ∈ m.lineage r,
    (m.obj a).tokenIds.length = (m.obj a).tokenKvSlotIds.length) :
    (m.contextPlaces r).map m.tokenAt = (m.getContextTokenIds r).map some := by
  rw [getContextTokenIds, gather_eq_lineage, contextPlaces, List.map_flatMap, List.map_flatMap]
  refine List.flatMap_congr fun a ha => ?_
  rw [List.map_map, ← map_range_getElem?, h a ha]
  rfl

/-- A slot has one place. -/
lemma MemInv.place_unique (h : m.MemInv live) {p q : Place} (hp : p.context ∈ live)
    (hq : q.context ∈ live) {slot : ℕ} (hslot : m.slotAt p = some slot)
    (hslot' : m.slotAt q = some slot) : p = q := by
  obtain ⟨a, i⟩ := p
  obtain ⟨b, k⟩ := q
  obtain rfl : a = b :=
    h.eq_of_mem_slots hp hq (List.mem_of_getElem? hslot) (List.mem_of_getElem? hslot')
  have hlt : i < (m.obj a).tokenKvSlotIds.length := (List.getElem?_eq_some_iff.mp hslot).1
  have hik := (List.getElem?_inj hlt (h.nodup_slots hp)).mp (hslot.trans hslot'.symm)
  rw [hik]

end KvMemory

namespace BuiltinEngine

variable {s s' : BuiltinEngine} {bs n : ℕ} {jobs : List JobRef}

/-- The places that an iteration feeds, in the order of its input tokens: the last ones of the
context of each job. -/
def inputPlaces (s : BuiltinEngine) (jobs : List JobRef) : List Place :=
  jobs.flatMap fun j => (List.range (s.job j).numTokens).map fun i =>
    ⟨s.jobContext j,
      (s.mem.obj (s.jobContext j)).tokenKvSlotIds.length - (s.job j).numTokens + i⟩

/-- The places that a job feeds have its new slots and its new tokens. -/
lemma FedBy.places {record : PrimitiveJob} {c c' : BlockContext} {sl new : List ℕ}
    (h : FedBy record c c' sl new) (hc : c.tokenKvSlotIds.length ≤ c.tokenIds.length) :
    ((List.range record.numTokens).map fun i =>
        c'.tokenKvSlotIds[c'.tokenKvSlotIds.length - record.numTokens + i]?) = sl.map some ∧
      ((List.range record.numTokens).map fun i =>
        c'.tokenIds[c'.tokenKvSlotIds.length - record.numTokens + i]?) = new.map some := by
  have hold : c'.tokenKvSlotIds.length - record.numTokens = c.tokenKvSlotIds.length := by
    rw [h.slots, List.length_append, h.length_sl, Nat.add_sub_cancel]
  have htake : (c.tokenIds.take c.tokenKvSlotIds.length).length = c.tokenKvSlotIds.length := by
    rw [List.length_take, Nat.min_eq_left hc]
  rw [hold]
  constructor
  · rw [← map_range_getElem?, h.length_sl]
    refine List.map_congr_left fun i _ => ?_
    rw [h.slots, List.getElem?_append_right (Nat.le_add_right _ _), Nat.add_sub_cancel_left]
  · rw [← map_range_getElem?, h.length_new]
    refine List.map_congr_left fun i _ => ?_
    rw [h.tokens, List.getElem?_append_right (htake.le.trans (Nat.le_add_right _ _)), htake,
      Nat.add_sub_cancel_left]

/-- A place of a context that is not fed is as it was. -/
lemma FedBy.place_of_lt {record : PrimitiveJob} {c c' : BlockContext} {sl new : List ℕ}
    (h : FedBy record c c' sl new) {i : ℕ} (hi : i < c.tokenKvSlotIds.length) :
    c'.tokenKvSlotIds[i]? = c.tokenKvSlotIds[i]? ∧
      (c.tokenKvSlotIds.length ≤ c.tokenIds.length → c'.tokenIds[i]? = c.tokenIds[i]?) := by
  refine ⟨by rw [h.slots, List.getElem?_append_left hi], fun hc => ?_⟩
  have htake : i < (c.tokenIds.take c.tokenKvSlotIds.length).length := by
    rw [List.length_take]
    omega
  rw [h.tokens, List.getElem?_append_left htake, List.getElem?_take_of_lt hi]

lemma inputIds_congr (hmem : s'.mem = s.mem) (hjob : s'.job = s.job) (js : List JobRef) :
    s'.inputIds js = s.inputIds js := by
  induction js with
  | nil => rfl
  | cons j js ih =>
      have hone : s'.inputTokens j = s.inputTokens j := by
        unfold inputTokens
        rw [hmem, hjob]
      rw [inputIds, inputIds, hone, ih]

lemma inputPlaces_congr (hmem : s'.mem = s.mem) (hjob : s'.job = s.job) (js : List JobRef) :
    s'.inputPlaces js = s.inputPlaces js := by
  simp only [inputPlaces, jobContext, hmem, hjob]

namespace FedBatch

variable {s₃ : BuiltinEngine} {place : Place}

lemma newSlots_suffix (h : FedBatch bs s jobs s₃) {j : JobRef} (hj : j ∈ jobs) :
    (s₃.job j).context = some (s₃.jobContext j) ∧ s₃.jobContext j ∈ s₃.registered ∧
      s₃.newSlots j <:+ (s₃.mem.obj (s₃.jobContext j)).tokenKvSlotIds := by
  obtain ⟨r, hr, hctx⟩ := h.bound j hj
  have hctx₃ : (s₃.job j).context = some r := (h.context j).trans hctx
  rw [jobContext_eq hctx₃]
  exact ⟨hctx₃, h.registered ▸ hr, _, (h.fed j hj r hctx).slots.symm⟩

/-- The places that a batch feeds. -/
lemma places (h : FedBatch bs s jobs s₃) (hkv : s.KvInv) :
    (s₃.inputPlaces jobs).map s₃.mem.slotAt = (jobs.flatMap s₃.newSlots).map some ∧
      (s₃.inputPlaces jobs).map s₃.mem.tokenAt = (jobs.flatMap s₃.feeds).map some := by
  have hjob : ∀ j ∈ jobs, ((List.range (s₃.job j).numTokens).map fun i => (s₃.mem.obj
      (s₃.jobContext j)).tokenKvSlotIds[(s₃.mem.obj (s₃.jobContext j)).tokenKvSlotIds.length -
        (s₃.job j).numTokens + i]?) = (s₃.newSlots j).map some ∧
      ((List.range (s₃.job j).numTokens).map fun i => (s₃.mem.obj
      (s₃.jobContext j)).tokenIds[(s₃.mem.obj (s₃.jobContext j)).tokenKvSlotIds.length -
        (s₃.job j).numTokens + i]?) = (s₃.feeds j).map some := fun j hj => by
    obtain ⟨r, hr, hctx⟩ := h.bound j hj
    rw [jobContext_eq ((h.context j).trans hctx), h.numTokens]
    exact (h.fed j hj r hctx).places (hkv r hr).slots_le
  simp only [inputPlaces, List.map_flatMap, List.map_map]
  exact ⟨List.flatMap_congr fun j hj => (hjob j hj).1,
    List.flatMap_congr fun j hj => (hjob j hj).2⟩

lemma context_of_place (h : FedBatch bs s jobs s₃) (hplace : place ∈ s₃.inputPlaces jobs) :
    place.context ∈ s₃.registered := by
  obtain ⟨j, hj, hmem⟩ := List.mem_flatMap.mp hplace
  obtain ⟨i, -, rfl⟩ := List.mem_map.mp hmem
  exact (h.newSlots_suffix hj).2.1

/-- The other places. -/
lemma old_place (h : FedBatch bs s jobs s₃) (hkv : s.KvInv) (hreg : place.context ∈ s.registered)
    (hplace : place ∉ s₃.inputPlaces jobs) {slot : ℕ} (hslot : s₃.mem.slotAt place = some slot) :
    s.mem.slotAt place = some slot ∧ s₃.mem.tokenAt place = s.mem.tokenAt place := by
  obtain ⟨r, i⟩ := place
  by_cases hjob : ∃ j ∈ jobs, (s.job j).context = some r
  · obtain ⟨j, hj, hctx⟩ := hjob
    have hf := h.fed j hj r hctx
    have hctx₃ : s₃.jobContext j = r := jobContext_eq ((h.context j).trans hctx)
    have hlen : (s₃.mem.obj r).tokenKvSlotIds.length =
        (s.mem.obj r).tokenKvSlotIds.length + (s₃.job j).numTokens := by
      rw [hf.slots, List.length_append, hf.length_sl, h.numTokens]
    have hi : i < (s.mem.obj r).tokenKvSlotIds.length := by
      by_contra hi
      have hlt : i < (s₃.mem.obj r).tokenKvSlotIds.length :=
        (List.getElem?_eq_some_iff.mp hslot).1
      refine hplace (List.mem_flatMap.mpr ⟨j, hj, List.mem_map.mpr
        ⟨i - (s.mem.obj r).tokenKvSlotIds.length, List.mem_range.mpr (by omega), ?_⟩⟩)
      rw [hctx₃, Place.mk.injEq]
      exact ⟨rfl, by omega⟩
    obtain ⟨hsame, htoken⟩ := hf.place_of_lt hi
    exact ⟨hsame.symm.trans hslot, htoken (hkv r hreg).slots_le⟩
  · have hobj := h.other r fun j hj hctx => hjob ⟨j, hj, hctx⟩
    simp only [KvMemory.slotAt, KvMemory.tokenAt, hobj] at hslot ⊢
    exact ⟨hslot, trivial⟩

end FedBatch

/-! ## The destinations of an iteration -/

/-- What an iteration stores, as it is read from its table: the destinations of the input tokens are
different slots of the cache, those of the places that are fed. -/
structure Destinations (n : ℕ) (s : BuiltinEngine) (jobs : List JobRef) (ids : List ℕ)
    (s' : BuiltinEngine) : Prop where
  input : s'.inputIds jobs = .ok ids
  le : ids.length ≤ (s'.initIterationState jobs).slotMapping.length
  nodup : ((s'.initIterationState jobs).slotMapping.take ids.length).Nodup
  lt : ∀ slot ∈ (s'.initIterationState jobs).slotMapping.take ids.length, slot < n
  slots : (s'.inputPlaces jobs).map s'.mem.slotAt =
    ((s'.initIterationState jobs).slotMapping.take ids.length).map some
  tokens : (s'.inputPlaces jobs).map s'.mem.tokenAt = ids.map some
  registered : ∀ place ∈ s'.inputPlaces jobs, place.context ∈ s'.registered
  old : ∀ place : Place, place.context ∈ s.registered → place ∉ s'.inputPlaces jobs →
    ∀ slot, s'.mem.slotAt place = some slot →
      s.mem.slotAt place = some slot ∧ s'.mem.tokenAt place = s.mem.tokenAt place

/-- The new slots of an admitted batch are the destinations of its tokens. -/
lemma FedBatch.slotMapping {s₃ : BuiltinEngine} {ids : List ℕ} (h : FedBatch bs s jobs s₃)
    (hids : s₃.inputIds jobs = .ok ids) (hone : s.attnFunc = .xFormersWithBuffer → bs = 1)
    (halign : s.attnFunc ≠ .xFormersWithBuffer →
      RowsAligned ((jobs.map (s.rowLength jobs)).foldr max 0)
        (jobs.map fun j => (s.job j).numTokens))
    (hfwd : s₃.forward (s₃.initIterationState jobs) ids = .ok s') :
    (s₃.initIterationState jobs).slotMapping.take ids.length = jobs.flatMap s₃.newSlots := by
  have hmax : maxLength (jobs.map s₃.slotRow) = (jobs.map (s.rowLength jobs)).foldr max 0 := by
    rw [maxLength_eq, List.map_map]
    exact congrArg _ (List.map_congr_left h.lengthRow)
  have hcount : (jobs.map fun j => (s₃.job j).numTokens) = jobs.map fun j => (s.job j).numTokens :=
    List.map_congr_left fun j _ => h.numTokens j
  exact slotMapping_take h.rows (inputIds_spec jobs hids).1
    (fun hbuf => h.tree.blockSize_eq.trans (hone (h.attnFunc ▸ hbuf)))
    (fun hbuf => by rw [hmax, hcount]; exact halign (h.attnFunc ▸ hbuf)) hfwd

/-- The destinations of an admitted batch. -/
lemma exists_destinations (h : TreeInv bs s) (hkv : s.KvInv) (hr : s.InRange n)
    (hone : s.attnFunc = .xFormersWithBuffer → bs = 1) {o : ModelOutput}
    (hg : KvGuard s (.engineIter o)) (hf : s.iterForward o = .ok (jobs, s')) :
    ∃ ids, Destinations (n * bs) s jobs ids s' := by
  obtain ⟨batch, sched, s₃, ids, hguard, hjobs, hbatch, hids, hfwd⟩ := exists_fedBatch h hkv hg hf
  have htake := hbatch.slotMapping hids hone (fun hbuf => hjobs ▸ hguard.aligned hbuf) hfwd
  have hlength : (jobs.flatMap s₃.newSlots).length = ids.length := by
    rw [(inputIds_spec jobs hids).1, List.length_flatMap, List.length_flatMap]
    exact congrArg _ (List.map_congr_left fun j hj =>
      (hbatch.rows.slots j hj).trans (hbatch.rows.feeds j hj).symm)
  have hnodup : (jobs.flatMap s₃.newSlots).Nodup := hbatch.tree.mem.nodup_flatMap
    (fun j hj => (hbatch.newSlots_suffix hj).2.1)
    (nodup_of_contexts (fun j hj => (hbatch.newSlots_suffix hj).1)
      (by simpa only [hbatch.context] using hbatch.nodup))
    fun j hj => (hbatch.newSlots_suffix hj).2.2
  have hrange : s₃.InRange n := by
    have := hr.iterForward hf
    rwa [InRange, (forward_eq hfwd).1] at this
  have hs' := (forward_ok_iff.mp hfwd).2
  have hstate : s'.initIterationState jobs = s₃.initIterationState jobs := by rw [hs']; rfl
  obtain ⟨hmem, hjob⟩ := forward_eq hfwd
  have hreg : s'.registered = s₃.registered := by rw [hs']; rfl
  obtain ⟨hslots, htokens⟩ := hbatch.places hkv
  refine ⟨ids, (inputIds_congr hmem hjob jobs).trans hids, ?_, ?_, ?_, ?_, ?_, ?_, ?_⟩
  · rw [hstate]
    have := congrArg List.length htake
    rw [List.length_take, hlength] at this
    omega
  · rw [hstate, htake]
    exact hnodup
  · rw [hstate, htake]
    intro slot hslot
    obtain ⟨j, hj, hmem⟩ := List.mem_flatMap.mp hslot
    obtain ⟨-, hreg, hsuffix⟩ := hbatch.newSlots_suffix hj
    exact hbatch.tree.slot_lt hrange hreg (hsuffix.subset hmem)
  · rw [hstate, htake, inputPlaces_congr hmem hjob, hmem]
    exact hslots
  · rw [inputPlaces_congr hmem hjob, hmem, (inputIds_spec jobs hids).1]
    exact htokens
  · rw [inputPlaces_congr hmem hjob, hreg]
    exact fun place => hbatch.context_of_place
  · rw [inputPlaces_congr hmem hjob, hmem]
    exact fun place hplace hnew slot hslot => hbatch.old_place hkv hplace hnew hslot

/-! ## The slots of a context -/

/-- The jobs whose contexts are fetched: all of them, or the Fills. -/
def fetchedJobs (s : BuiltinEngine) (jobs : List JobRef) : List JobRef :=
  match s.attnFunc with
  | .xFormersWithBuffer => jobs
  | _ => jobs.filter fun j => !(s.job j).isGenerate

lemma mem_fetchedJobs {j : JobRef} (h : j ∈ s.fetchedJobs jobs) : j ∈ jobs := by
  unfold fetchedJobs at h
  split at h
  · exact h
  · exact List.mem_of_mem_filter h

/-- The texts that are attended to, one behind the other. -/
def fetchedText (s : BuiltinEngine) (jobs : List JobRef) : List ℕ :=
  (s.fetchedJobs jobs).flatMap fun j => s.mem.getContextTokenIds (s.jobContext j)

/-- Their places. -/
def fetchedPlaces (s : BuiltinEngine) (jobs : List JobRef) : List Place :=
  (s.fetchedJobs jobs).flatMap fun j => s.mem.contextPlaces (s.jobContext j)

/-- The slots that are fetched are those of the contexts. -/
lemma fillSlots_eq (h : TreeInv bs s) (hone : s.attnFunc = .xFormersWithBuffer → bs = 1)
    (hbound : BoundTo s s.registered jobs) : (s.initIterationState jobs).fillSlots =
      (s.fetchedJobs jobs).flatMap fun j => s.mem.getContextSlotIds (s.jobContext j) := by
  cases hattn : s.attnFunc with
  | xFormersWithBuffer =>
      simp only [initIterationState, fetchedJobs, hattn]
      have h₁ : TreeInv 1 s := hone hattn ▸ h
      refine List.flatMap_congr fun j hj => ?_
      obtain ⟨r, hr, hctx⟩ := hbound j hj
      rw [jobContext_eq hctx]
      exact h₁.blocks_eq_slots hr
  | xFormersFillVllmPagedAttentionGenerate | xFormersFillSharedPromptsGenerate =>
      simp only [initIterationState, fetchedJobs, hattn]

/-- The slots that are fetched are those of the places. -/
lemma fetchedPlaces_slots (h : TreeInv bs s) (hone : s.attnFunc = .xFormersWithBuffer → bs = 1)
    (hbound : BoundTo s s.registered jobs) : (s.fetchedPlaces jobs).map s.mem.slotAt =
      (s.initIterationState jobs).fillSlots.map some := by
  rw [fillSlots_eq h hone hbound, fetchedPlaces, List.map_flatMap, List.map_flatMap]
  exact List.flatMap_congr fun j _ => s.mem.contextPlaces_slots _

/-- The places of an admitted batch have the texts, token by token. -/
lemma fetchedPlaces_tokens (h : TreeInv bs s) (hkv : s.KvInv)
    (hone : s.attnFunc = .xFormersWithBuffer → bs = 1) {o : ModelOutput}
    (hg : KvGuard s (.engineIter o)) (hf : s.iterForward o = .ok (jobs, s')) :
    (s'.fetchedPlaces jobs).map s'.mem.tokenAt = (s'.fetchedText jobs).map some := by
  rw [fetchedPlaces, fetchedText, List.map_flatMap, List.map_flatMap]
  refine List.flatMap_congr fun j hj => ?_
  have hj := mem_fetchedJobs hj
  obtain ⟨r, -, hctx⟩ := (h.iterForward hf).bound j hj
  rw [jobContext_eq hctx]
  exact KvMemory.contextPlaces_tokens (balanced_of_forward h hkv hone hg hf hj hctx)

/-- The places that are fetched are those of registered contexts. -/
lemma context_of_fetched (h : TreeInv bs s) (hbound : BoundTo s s.registered jobs) {place : Place}
    (hplace : place ∈ s.fetchedPlaces jobs) : place.context ∈ s.registered := by
  obtain ⟨j, hj, hmem⟩ := List.mem_flatMap.mp hplace
  obtain ⟨a, ha, hmem⟩ := List.mem_flatMap.mp hmem
  obtain ⟨i, -, rfl⟩ := List.mem_map.mp hmem
  obtain ⟨r, hr, hctx⟩ := hbound j (mem_fetchedJobs hj)
  rw [jobContext_eq hctx] at ha
  exact h.rooted.mem_of_lineage hr a ha

/-! ## What a step does to the places -/

/-- A request gives no place a slot. -/
lemma KeepsTables.place (hk : KeepsTables s s') {place : Place}
    (hreg : place.context ∈ s'.registered) {slot : ℕ} (hslot : s'.mem.slotAt place = some slot) :
    place.context ∈ s.registered ∧ s.mem.slotAt place = some slot ∧
      s'.mem.tokenAt place = s.mem.tokenAt place := by
  rcases hk.context place.context hreg with ⟨hs, -⟩ | ⟨hreg, hext⟩
  · rw [KvMemory.slotAt, hs] at hslot
    cases hslot
  · rw [KvMemory.slotAt, hext.slots, List.append_nil] at hslot
    exact ⟨hreg, hslot, by rw [KvMemory.tokenAt, KvMemory.tokenAt, hext.tokenIds]⟩

/-- The update of the jobs behind the forward pass gives no place a slot. -/
lemma place_of_updateJobs (h : TreeInv bs s) (hkv : s.KvInv)
    (hone : s.attnFunc = .xFormersWithBuffer → bs = 1) {o : ModelOutput}
    (hg : KvGuard s (.engineIter o)) {s₁ s₂ : BuiltinEngine} {n : ℕ}
    (hf : s.iterForward o = .ok (jobs, s₁)) (hup : s₁.updateJobs o n 0 jobs = .ok s₂)
    {place : Place} (hreg : place.context ∈ s₁.registered) {slot : ℕ}
    (hslot : s₂.mem.slotAt place = some slot) :
    s₁.mem.slotAt place = some slot ∧ s₂.mem.tokenAt place = s₁.mem.tokenAt place := by
  obtain ⟨hview, hnodup, -⟩ := forwardView h hkv hone hg hf
  have hat := h.iterForward hf
  obtain ⟨-, hother, hself⟩ :=
    updateJobs_objs jobs (by simpa only [(hat.job _).1] using hnodup) hup
  obtain ⟨r, i⟩ := place
  simp only [KvMemory.slotAt, KvMemory.tokenAt] at hslot ⊢
  by_cases hjob : ∃ j ∈ jobs, (s₁.job j).context = some r
  · obtain ⟨j, hj, hctx⟩ := hjob
    obtain ⟨sl, new, hfed⟩ := hview.fed j hj r ((hat.job j).1.symm.trans hctx)
    have hbal := hfed.balanced (hkv r (hat.registered ▸ hreg)).slots_le
    have hobj := hself j hj r hctx
    split_ifs at hobj
    · obtain ⟨t, hobj⟩ := hobj
      rw [hobj] at hslot ⊢
      have hlt : i < (s₁.mem.obj r).tokenKvSlotIds.length := (List.getElem?_eq_some_iff.mp hslot).1
      exact ⟨hslot, List.getElem?_append_left (hbal ▸ hlt)⟩
    · obtain ⟨hs, hobj⟩ := hobj
      rw [hobj] at hslot ⊢
      exact ⟨hslot, rfl⟩
  · rw [hother r fun j hj hctx => hjob ⟨j, hj, hctx⟩] at hslot ⊢
    exact ⟨hslot, rfl⟩

/-- An iteration leaves the places as the forward pass of the model did, if there was one. -/
lemma place_of_engineIter (h : TreeInv bs s) (hkv : s.KvInv)
    (hone : s.attnFunc = .xFormersWithBuffer → bs = 1) {o : ModelOutput}
    (hg : KvGuard s (.engineIter o)) (hlive : (s.apply (.engineIter o)).crashed = false) :
    (s.scheduler.isEmpty = true ∧ s.apply (.engineIter o) = s) ∨
      s.scheduler.isEmpty = false ∧ ∃ jobs s₁, s.iterForward o = .ok (jobs, s₁) ∧
        ∀ place : Place, place.context ∈ (s.apply (.engineIter o)).registered →
          ∀ slot, (s.apply (.engineIter o)).mem.slotAt place = some slot →
            place.context ∈ s₁.registered ∧ s₁.mem.slotAt place = some slot ∧
              (s.apply (.engineIter o)).mem.tokenAt place = s₁.mem.tokenAt place := by
  rw [BuiltinEngine.apply] at hlive ⊢
  cases hi : s.engineIter o with
  | error e =>
      rw [hi] at hlive
      cases hlive
  | ok s₁ =>
      dsimp only
      cases hempty : s.scheduler.isEmpty with
      | true =>
          rw [engineIter, if_pos hempty] at hi
          exact .inl ⟨rfl, (Except.ok.inj hi).symm⟩
      | false =>
          obtain ⟨jobs, s₂, s₃, sched, hf, hup, rfl, -⟩ := engineIter_running hempty hi
          refine .inr ⟨rfl, jobs, s₂, hf, fun place hreg slot hslot => ?_⟩
          have hreg : place.context ∈ s₂.registered := (updateJobs_quiet hup).registered ▸ hreg
          exact ⟨hreg, place_of_updateJobs h hkv hone hg hf hup hreg hslot⟩

end BuiltinEngine

namespace EngineStorage

open BuiltinEngine KvConfig

variable {c : KvConfig} {attnFunc : AttnFunc}
  {computed : Place → ℕ → (ℕ → ℕ → ℕ → α × α) → Prop} {x x' : EngineStorage α}
  {jobs : List JobRef} {ids : List ℕ} {s' : BuiltinEngine} {layers : ℕ → LayerTokens α}
  {cache : ℕ → KvTensors α}

/-! ## What the layers compute -/

/-- What an iteration computes for the tokens `ids` that it feeds at `places`. -/
structure Computes (c : KvConfig) (computed : Place → ℕ → (ℕ → ℕ → ℕ → α × α) → Prop)
    (places : List Place) (ids : List ℕ) (layers : ℕ → LayerTokens α) : Prop where
  k : ∀ layer < c.numLayers, (layers layer).k.numTokens = ids.length ∧ c.Indexed (layers layer).k
  v : ∀ layer < c.numLayers, (layers layer).v.numTokens = ids.length ∧ c.Indexed (layers layer).v
  row : ∀ i place token, places[i]? = some place → ids[i]? = some token →
    computed place token fun layer => (layers layer).at c i

/-- The layers compute the keys and values of an iteration. -/
def LayersCompute (c : KvConfig) (computed : Place → ℕ → (ℕ → ℕ → ℕ → α × α) → Prop)
    (x : EngineStorage α) (o : ModelOutput) (layers : ℕ → LayerTokens α) : Prop :=
  ∀ jobs s' ids, x.engine.iterForward o = .ok (jobs, s') → s'.inputIds jobs = .ok ids →
    Computes c computed (s'.inputPlaces jobs) ids layers

/-- The admitted steps. -/
def StorageGuard (c : KvConfig) (computed : Place → ℕ → (ℕ → ℕ → ℕ → α × α) → Prop)
    (x : EngineStorage α) (a : Action α) : Prop :=
  KvGuard x.engine a.action ∧ ∀ o, a.action = .engineIter o → LayersCompute c computed x o a.layers

/-- A slot holds a row, in the layers below. -/
def HoldsRow (c : KvConfig) (attnFunc : AttnFunc) (modelCache : KvTensors α) (slot below : ℕ)
    (row : ℕ → ℕ → ℕ → α × α) : Prop :=
  ∀ layer < below, ∀ head dim, c.InCache layer slot head dim →
    modelCache.k (c.keyAddress (attnFuncLayoutMap attnFunc) layer slot head dim) =
        (row layer head dim).1 ∧
      modelCache.v (c.valueAddress (attnFuncLayoutMap attnFunc) layer slot head dim) =
        (row layer head dim).2

/-- The tensors of an engine: the slot of a place holds the keys and values computed for it. -/
structure StorageInv (c : KvConfig) (attnFunc : AttnFunc)
    (computed : Place → ℕ → (ℕ → ℕ → ℕ → α × α) → Prop) (x : EngineStorage α) : Prop where
  tree : TreeInv c.blockSize x.engine
  kv : x.engine.KvInv
  attn : x.engine.attnFunc = attnFunc
  inRange : x.engine.InRange c.numBlocks
  /-- While the engine runs. -/
  held : x.engine.crashed = false → ∀ place : Place, place.context ∈ x.engine.registered →
    ∀ slot token, x.engine.mem.slotAt place = some slot →
      x.engine.mem.tokenAt place = some token →
      ∃ row, computed place token row ∧ HoldsRow c attnFunc x.modelCache slot c.numLayers row

lemma StorageInv.one (h : StorageInv c attnFunc computed x) (hc : c.Fits attnFunc) :
    x.engine.attnFunc = .xFormersWithBuffer → c.blockSize = 1 :=
  fun hbuf => hc.one (h.attn ▸ hbuf)

/-! ## Through the layers of an iteration -/

/-- The rows before a layer: those below have cached theirs. -/
def rowsBefore (c : KvConfig) (layers : ℕ → LayerTokens α) (slots : List ℕ)
    (old : Rows (α × α)) (n : ℕ) : Rows (α × α) :=
  fun layer slot =>
    if layer < n ∧ slot ∈ slots then some ((layers layer).at c (slots.idxOf slot))
    else old layer slot

lemma rowsBefore_succ (c : KvConfig) (layers : ℕ → LayerTokens α) (slots : List ℕ)
    (old : Rows (α × α)) (n : ℕ) : rowsBefore c layers slots old (n + 1) =
      (rowsBefore c layers slots old n).cache n slots ((layers n).at c) := by
  funext layer slot
  simp only [rowsBefore, Rows.cache]
  by_cases hlayer : layer = n
  · subst hlayer
    simp only [Nat.lt_succ_self, true_and, lt_irrefl, false_and, if_false]
  · have hiff : layer < n + 1 ↔ layer < n := by omega
    simp only [hlayer, false_and, if_false, hiff]

/-- What the tensors hold before each layer. -/
lemma holds_before (hc : c.Fits attnFunc) {slotMapping : List ℕ} {n : ℕ}
    (hslots : ∀ layer < c.numLayers, c.Slotted (layers layer) slotMapping n)
    {old : Rows (α × α)} (hold : c.Holds attnFunc old (cache 0))
    (hlayers : c.CachesLayers attnFunc layers slotMapping cache) : ∀ layer ≤ c.numLayers,
      c.Holds attnFunc (rowsBefore c layers (slotMapping.take n) old layer) (cache layer) := by
  intro layer hle
  induction layer with
  | zero =>
      have hzero : rowsBefore c layers (slotMapping.take n) old 0 = old := by
        funext layer slot
        simp only [rowsBefore, Nat.not_lt_zero, false_and, if_false]
      rw [hzero]
      exact hold
  | succ layer ih =>
      rw [rowsBefore_succ]
      exact (hlayers layer hle).holds hc hle (hslots layer hle) (ih (by omega))

/-- One row of a cache. -/
def rowAt (slot below : ℕ) (row : ℕ → ℕ → ℕ → α × α) : Rows (α × α) :=
  fun layer slot' => if layer < below ∧ slot' = slot then some (row layer) else none

lemma HoldsRow.holds {modelCache : KvTensors α} {slot n : ℕ} {row : ℕ → ℕ → ℕ → α × α}
    (h : HoldsRow c attnFunc modelCache slot n row) :
    c.Holds attnFunc (rowAt slot n row) modelCache := by
  have hrow : ∀ {layer slot' head dim row'}, c.InCache layer slot' head dim →
      rowAt slot n row layer slot' = some row' →
      modelCache.k (c.keyAddress (attnFuncLayoutMap attnFunc) layer slot' head dim) =
          (row' head dim).1 ∧
        modelCache.v (c.valueAddress (attnFuncLayoutMap attnFunc) layer slot' head dim) =
          (row' head dim).2 := by
    intro layer slot' head dim row' hin hsome
    rw [rowAt] at hsome
    split_ifs at hsome with hat
    obtain ⟨hlayer, rfl⟩ := hat
    rw [← Option.some.inj hsome]
    exact h layer hlayer head dim hin
  exact ⟨fun _ _ _ _ _ hin hsome => (hrow hin hsome).1, fun _ _ _ _ _ hin hsome =>
    (hrow hin hsome).2⟩

lemma holdsRow_of_holds {modelCache : KvTensors α} {rows : Rows (α × α)} {slot n : ℕ}
    {row : ℕ → ℕ → ℕ → α × α} (h : c.Holds attnFunc rows modelCache)
    (hrow : ∀ layer < n, layer < c.numLayers → rows layer slot = some (row layer)) :
    HoldsRow c attnFunc modelCache slot n row := fun layer hlayer _ _ hin =>
  ⟨h.k hin (hrow layer hlayer hin.layer), h.v hin (hrow layer hlayer hin.layer)⟩

section Iteration

variable (hc : c.Fits attnFunc)
  (hdest : Destinations (c.numBlocks * c.blockSize) x.engine jobs ids s')
  (hcomputes : Computes c computed (s'.inputPlaces jobs) ids layers)
  (hlayers : c.CachesLayers attnFunc layers (s'.initIterationState jobs).slotMapping cache)

include hdest hcomputes in
lemma slotted : ∀ layer < c.numLayers, c.Slotted (layers layer)
    (s'.initIterationState jobs).slotMapping ids.length := fun layer hlayer =>
  ⟨(hcomputes.k layer hlayer).1, (hcomputes.v layer hlayer).1, (hcomputes.k layer hlayer).2,
    (hcomputes.v layer hlayer).2, hdest.le, hdest.nodup, hdest.lt⟩

include hc hdest hcomputes hlayers in
/-- **The destinations hold the new rows**, in the layers that ran. -/
lemma holdsRow_destination {i slot : ℕ}
    (hslot : ((s'.initIterationState jobs).slotMapping.take ids.length)[i]? = some slot) :
    ∀ l ≤ c.numLayers, HoldsRow c attnFunc (cache l) slot l fun layer => (layers layer).at c i := by
  intro l hl
  have hbefore := holds_before hc (slotted hdest hcomputes)
    (holds_noRows c attnFunc (cache 0)) hlayers l hl
  obtain ⟨hi, hget⟩ := List.getElem?_eq_some_iff.mp hslot
  refine holdsRow_of_holds hbefore fun layer hlayer _ => ?_
  rw [rowsBefore, if_pos ⟨hlayer, List.mem_of_getElem? hslot⟩, ← hget,
    hdest.nodup.idxOf_getElem i hi]

include hc hdest hcomputes hlayers in
/-- **The other slots keep their rows.** -/
lemma holdsRow_other {slot : ℕ} {row : ℕ → ℕ → ℕ → α × α}
    (hslot : slot ∉ (s'.initIterationState jobs).slotMapping.take ids.length)
    (hrow : HoldsRow c attnFunc (cache 0) slot c.numLayers row) :
    ∀ l ≤ c.numLayers, HoldsRow c attnFunc (cache l) slot c.numLayers row := by
  intro l hl
  have hbefore := holds_before hc (slotted hdest hcomputes) hrow.holds hlayers l hl
  refine holdsRow_of_holds hbefore fun layer hlayer _ => ?_
  rw [rowsBefore, if_neg fun hnew => hslot hnew.2, rowAt, if_pos ⟨hlayer, rfl⟩]

end Iteration

/-- **Behind a layer**, and behind those above it, the slot of a place holds what was computed for
it: in this iteration, or before. -/
lemma StorageInv.behind (h : StorageInv c attnFunc computed x)
    (hlive : x.engine.crashed = false) (hc : c.Fits attnFunc)
    (hdest : Destinations (c.numBlocks * c.blockSize) x.engine jobs ids s')
    (htree : TreeInv c.blockSize s') (hreg : s'.registered = x.engine.registered)
    (hcomputes : Computes c computed (s'.inputPlaces jobs) ids layers)
    (hstart : cache 0 = x.modelCache)
    (hlayers : c.CachesLayers attnFunc layers (s'.initIterationState jobs).slotMapping cache)
    {place : Place} (hplace : place.context ∈ s'.registered) {slot token : ℕ}
    (hslot : s'.mem.slotAt place = some slot) (htoken : s'.mem.tokenAt place = some token) :
    ∃ row, computed place token row ∧
      ∀ l ≤ c.numLayers, HoldsRow c attnFunc (cache l) slot l row := by
  by_cases hnew : place ∈ s'.inputPlaces jobs
  · -- the row of a token of this iteration
    obtain ⟨i, hi⟩ := List.mem_iff_getElem?.mp hnew
    have hslots := congrArg (fun l => l[i]?) hdest.slots
    have htokens := congrArg (fun l => l[i]?) hdest.tokens
    simp only [List.getElem?_map, hi, Option.map_some, hslot, htoken] at hslots htokens
    obtain ⟨slot', hslot', heq⟩ := Option.map_eq_some_iff.mp hslots.symm
    obtain ⟨token', htoken', heq'⟩ := Option.map_eq_some_iff.mp htokens.symm
    obtain rfl := Option.some.inj heq
    obtain rfl := Option.some.inj heq'
    exact ⟨fun layer => (layers layer).at c i, hcomputes.row i place _ hi htoken',
      holdsRow_destination hc hdest hcomputes hlayers hslot'⟩
  · -- the row of an older token
    obtain ⟨hslot₀, htoken₀⟩ := hdest.old place (hreg ▸ hplace) hnew slot hslot
    obtain ⟨row, hcomputed, hrow⟩ := h.held hlive place (hreg ▸ hplace) slot token hslot₀
      (htoken₀ ▸ htoken)
    have hother : slot ∉ (s'.initIterationState jobs).slotMapping.take ids.length := by
      intro hmem
      have hsome : some slot ∈ (s'.inputPlaces jobs).map s'.mem.slotAt :=
        hdest.slots ▸ List.mem_map_of_mem hmem
      obtain ⟨place', hplace', hslot'⟩ := List.mem_map.mp hsome
      exact hnew (htree.mem.place_unique hplace (hdest.registered place' hplace') hslot hslot' ▸
        hplace')
    exact ⟨row, hcomputed, fun l hl layer hlayer => holdsRow_other hc hdest hcomputes hlayers hother
      (hstart ▸ hrow) l hl layer (hlayer.trans_le hl)⟩

/-! ## The invariant of every run -/

/-- The layers of an iteration run behind the forward pass of the engine. -/
lemma RunsLayers.forward {o : ModelOutput} (h : x.RunsLayers c o layers cache) :
    cache 0 = x.modelCache ∧ ∃ jobs s', x.engine.iterForward o = .ok (jobs, s') ∧
      c.CachesLayers x.engine.attnFunc layers (s'.initIterationState jobs).slotMapping cache := by
  obtain ⟨hstart, batch, s, jobs, s', hbatch, hrun, hlayers⟩ := h
  exact ⟨hstart, jobs, s', by rw [iterForward, hbatch]; exact hrun, hlayers⟩

lemma runsModel_of_forward {o : ModelOutput} (hjobs : x.engine.scheduler.isEmpty = false)
    (hf : x.engine.iterForward o = .ok (jobs, s')) : x.runsModel o = true := by
  unfold iterForward at hf
  unfold runsModel
  rw [hjobs]
  cases hbatch : x.engine.scheduleBatch with
  | error e =>
      rw [hbatch] at hf
      cases hf
  | ok result =>
      rw [hbatch] at hf
      dsimp only at hf ⊢
      rw [hf]
      rfl

/-- What the slots hold behind the layers of an admitted iteration. -/
lemma StorageInv.ran (h : StorageInv c attnFunc computed x) (hlive : x.engine.crashed = false)
    (hc : c.Fits attnFunc) {o : ModelOutput} (hg : KvGuard x.engine (.engineIter o))
    (hcomputes : LayersCompute c computed x o layers) (hrun : x.RunsLayers c o layers cache)
    (hf : x.engine.iterForward o = .ok (jobs, s')) {place : Place}
    (hplace : place.context ∈ s'.registered) {slot token : ℕ}
    (hslot : s'.mem.slotAt place = some slot) (htoken : s'.mem.tokenAt place = some token) :
    ∃ row, computed place token row ∧
      ∀ l ≤ c.numLayers, HoldsRow c attnFunc (cache l) slot l row := by
  obtain ⟨hstart, jobs', s'', hf', hlayers⟩ := hrun.forward
  obtain ⟨rfl, rfl⟩ := Prod.mk.inj (Except.ok.inj (hf'.symm.trans hf))
  obtain ⟨ids, hdest⟩ := exists_destinations h.tree h.kv h.inRange (h.one hc) hg hf
  have hat := h.tree.iterForward hf
  exact h.behind hlive hc hdest hat.tree hat.registered (hcomputes _ _ ids hf hdest.input) hstart
    (h.attn ▸ hlayers) hplace hslot htoken

/-- **A step keeps what the tensors hold.** -/
lemma StorageInv.step (h : StorageInv c attnFunc computed x) (hc : c.Fits attnFunc)
    {a : Action α} (hg : StorageGuard c computed x a) (hstep : Step c x a x') :
    StorageInv c attnFunc computed x' := by
  obtain ⟨hlive, hengine, htensors⟩ := hstep
  have hfree : ∀ cid, a.action = .freeContext cid → FreeGuard x.engine cid := by
    intro cid ha
    have := hg.1
    rwa [ha] at this
  refine ⟨hengine ▸ h.tree.apply hfree, hengine ▸ h.kv.apply h.tree (h.one hc) hg.1,
    hengine ▸ (h.tree.attnFunc_apply _).trans h.attn, hengine ▸ h.inRange.apply _,
    fun hlive' place hplace slot token hslot htoken => ?_⟩
  rw [hengine] at hlive' hplace hslot htoken
  by_cases hiter : ∃ o, a.action = .engineIter o
  · obtain ⟨o, ha⟩ := hiter
    have hguard := hg.1
    rw [ha] at hlive' hplace hslot htoken htensors hguard
    dsimp only at htensors
    rcases place_of_engineIter h.tree h.kv (h.one hc) hguard hlive' with ⟨hempty, hsame⟩ |
      ⟨hjobs, jobs, s', hf, hsame⟩
    · have hruns : x.runsModel o = false := by rw [runsModel, hempty]; rfl
      rw [if_neg (by rw [hruns]; exact Bool.false_ne_true)] at htensors
      rw [htensors]
      rw [hsame] at hplace hslot htoken
      exact h.held hlive place hplace slot token hslot htoken
    · rw [if_pos (runsModel_of_forward hjobs hf)] at htensors
      obtain ⟨cache, hrun, hend⟩ := htensors
      obtain ⟨hplace, hslot, hsame⟩ := hsame place hplace slot hslot
      obtain ⟨row, hcomputed, hrow⟩ := h.ran hlive hc hguard (hg.2 o ha) hrun hf hplace hslot
        (hsame ▸ htoken)
      exact ⟨row, hcomputed, hend ▸ hrow c.numLayers le_rfl⟩
  · have hrequest : ∀ o, a.action ≠ .engineIter o := fun o ha => hiter ⟨o, ha⟩
    have hsame : x'.modelCache = x.modelCache := by
      split at htensors
      · rename_i o ha
        exact absurd ha (hrequest o)
      · exact htensors
    obtain ⟨hplace, hslot, htoken'⟩ :=
      (keepsTables_request h.tree hg.1 hrequest).place hplace hslot
    rw [hsame]
    exact h.held hlive place hplace slot token hslot (htoken' ▸ htoken)

lemma storageInvariant (hc : c.Fits attnFunc) (config : SchedulerConfig) :
    (system c attnFunc config).IsInvariantUnder (StorageGuard c computed)
      (StorageInv (α := α) c attnFunc computed) where
  init x hx := by
    have hx : x.engine = start attnFunc c.blockSize c.numBlocks config := hx
    have hnone : ∀ r, r ∉ x.engine.registered := by
      rintro r ⟨id, hid⟩
      rw [hx] at hid
      cases hid
    exact ⟨hx ▸ treeInv_start hc.blockSize, fun r hr => absurd hr (hnone r), hx ▸ rfl,
      hx ▸ inRange_start attnFunc c.blockSize c.numBlocks config,
      fun _ place hplace => absurd hplace (hnone _)⟩
  step x a x' h hg hstep := h.step hc hg hstep

/-! ## What attention reads -/

/-- **Attention reads the keys and values of the texts.**  In every run whose requests and
iterations meet `StorageGuard`, whatever the order of the threads of every kernel, the rows that a
layer fetches are, in order, those of the places of the contexts, of the jobs' ancestor chains and
their own: each is the row that this or an earlier iteration computed for the token of that
place. -/
theorem attention_reads_computed (c : KvConfig) (attnFunc : AttnFunc) (hc : c.Fits attnFunc)
    (config : SchedulerConfig) (computed : Place → ℕ → (ℕ → ℕ → ℕ → α × α) → Prop)
    {x : EngineStorage α}
    (hx : (system c attnFunc config).ReachableUnder (StorageGuard c computed) x)
    (hlive : x.engine.crashed = false) {o : ModelOutput} {layers : ℕ → LayerTokens α}
    (hg : StorageGuard c computed x ⟨.engineIter o, layers⟩) {jobs : List JobRef}
    {s' : BuiltinEngine} (hf : x.engine.iterForward o = .ok (jobs, s'))
    {cache : ℕ → KvTensors α} (hrun : x.RunsLayers c o layers cache) {layer : ℕ}
    (hlayer : layer < c.numLayers) {n : ℕ} {buffer buffer' : KvTensors α}
    (hfetch : c.Fetches attnFunc layer (cache (layer + 1)) (s'.initIterationState jobs).fillSlots n
      buffer buffer') :
    (s'.fetchedText jobs).length = n ∧
      (s'.fetchedPlaces jobs).map s'.mem.tokenAt = (s'.fetchedText jobs).map some ∧
      ∀ i place token, (s'.fetchedPlaces jobs)[i]? = some place →
        (s'.fetchedText jobs)[i]? = some token →
        ∃ row, computed place token row ∧ ∀ head < c.numHeads, ∀ dim < c.headSize,
          buffer'.k (c.bufferAddress i head dim) = (row layer head dim).1 ∧
            buffer'.v (c.bufferAddress i head dim) = (row layer head dim).2 := by
  have h := (storageInvariant hc config).holds hx
  have hat := h.tree.iterForward hf
  have hslots := fetchedPlaces_slots hat.tree
    (fun hbuf => h.one hc (hat.attnFunc ▸ hbuf)) hat.bound
  have htexts := fetchedPlaces_tokens h.tree h.kv (h.one hc) hg.1 hf
  obtain ⟨rfl, hk, hv⟩ := hfetch.fetched hc.toSound
  refine ⟨?_, htexts, fun i place token hplace htoken => ?_⟩
  · have hlen := congrArg List.length hslots
    have hlen' := congrArg List.length htexts
    rw [List.length_map, List.length_map] at hlen hlen'
    exact hlen'.symm.trans hlen
  · -- the slot of the place, and its token
    have hreg := context_of_fetched hat.tree hat.bound (List.mem_of_getElem? hplace)
    have hslot := congrArg (fun l => l[i]?) hslots
    have htext := congrArg (fun l => l[i]?) htexts
    simp only [List.getElem?_map, hplace, htoken, Option.map_some, Option.some.injEq] at hslot htext
    obtain ⟨slot, hget, hsome⟩ := Option.map_eq_some_iff.mp hslot.symm
    obtain ⟨hi, hget⟩ := List.getElem?_eq_some_iff.mp hget
    have hread : (s'.initIterationState jobs).fillSlots.getD i 0 = slot := by
      rw [List.getD_eq_getElem _ _ hi, hget]
    obtain ⟨row, hcomputed, hrow⟩ :=
      h.ran hlive hc hg.1 (hg.2 o rfl) hrun hf hreg hsome.symm htext
    refine ⟨row, hcomputed, fun head hhead dim hdim => ?_⟩
    have hlt := hat.tree.slot_lt (h.inRange.iterForward hf) hreg
      (List.mem_of_getElem? hsome.symm)
    rw [hk.row i hi head hhead dim hdim, hv.row i hi head hhead dim hdim, hread]
    exact hrow (layer + 1) hlayer layer (Nat.lt_succ_self layer) head dim
      ⟨hlayer, hlt, hhead, hdim⟩

/-! ## Contexts without a past -/

/-- Pieces that are shorter, and together as long, are as long. -/
lemma length_eq_of_sum {ι : Type*} {f g : ι → ℕ} {l : List ι} (hle : ∀ i ∈ l, f i ≤ g i)
    (hsum : (l.map g).sum = (l.map f).sum) : ∀ i ∈ l, f i = g i := by
  induction l with
  | nil => exact fun i hi => nomatch hi
  | cons i l ih =>
      have hrest : (l.map f).sum ≤ (l.map g).sum :=
        List.sum_le_sum fun k hk => hle k (List.mem_cons_of_mem _ hk)
      have hi := hle i List.mem_cons_self
      rw [List.map_cons, List.map_cons, List.sum_cons, List.sum_cons] at hsum
      intro k hk
      rcases List.mem_cons.mp hk with rfl | hk
      · omega
      · exact ih (fun k hk => hle k (List.mem_cons_of_mem _ hk)) (by omega) k hk

/-- The slots of a chain end with those of its own context. -/
lemma suffix_contextSlots (m : KvMemory) (r : CtxRef) {new : List ℕ}
    (h : new <:+ (m.obj r).tokenKvSlotIds) : new <:+ m.getContextSlotIds r := by
  rw [KvMemory.getContextSlotIds, KvMemory.gather, KvMemory.gatherAux]
  exact h.trans (List.suffix_append _ _)

/-- Slots that are as many as the new tokens of the Fills are the destinations of these. -/
lemma fillSlots_prefix {s : BuiltinEngine} {bs n : ℕ} (h : TreeInv bs s) (hkv : s.KvInv)
    (hone : s.attnFunc = .xFormersWithBuffer → bs = 1) {o : ModelOutput}
    (hattn : s.attnFunc ≠ .xFormersWithBuffer) (hg : KvGuard s (.engineIter o))
    (hf : s.iterForward o = .ok (jobs, s')) (hdest : Destinations n s jobs ids s')
    (hshort : (s'.initIterationState jobs).fillSlots.length =
      (s'.initIterationState jobs).numFillTokens.sum) :
    (s'.initIterationState jobs).fillSlots <+:
      (s'.initIterationState jobs).slotMapping.take ids.length := by
  have hat := h.iterForward hf
  obtain ⟨batch, sched, s₃, ids₃, hguard, hjobs, hbatch, hids₃, hfwd⟩ := exists_fedBatch h hkv hg hf
  obtain ⟨hmem, hjob⟩ := forward_eq hfwd
  obtain rfl : ids₃ = ids := Except.ok.inj
    (((inputIds_congr hmem hjob jobs).trans hids₃).symm.trans hdest.input)
  have hstate : s'.initIterationState jobs = s₃.initIterationState jobs := by
    rw [(forward_ok_iff.mp hfwd).2]
    rfl
  have hattn₃ : s₃.attnFunc ≠ .xFormersWithBuffer := hbatch.attnFunc ▸ hattn
  rw [hstate] at hshort ⊢
  rw [hbatch.slotMapping hids₃ hone (fun hbuf => hjobs ▸ hguard.aligned hbuf) hfwd]
  set fills := jobs.filter fun j => !(s₃.job j).isGenerate with hfills
  -- the Fills are in front
  have hfront : ∃ gens, jobs = fills ++ gens := by
    have hgen : ∀ j, (s₃.job j).isGenerate = (s.job j).isGenerate := fun j => by
      simp only [PrimitiveJob.isGenerate, hbatch.kind]
    refine ⟨batch.filter fun j => (s.job j).isGenerate, ?_⟩
    simp only [hfills, hgen]
    conv_rhs => rw [hjobs]
    rw [hjobs, fillsFirst, List.filter_append, List.filter_filter, List.filter_filter]
    simp
  have hslots : (s₃.initIterationState jobs).fillSlots =
      fills.flatMap fun j => s₃.mem.getContextSlotIds (s₃.jobContext j) := by
    unfold initIterationState
    dsimp only
    split
    · rename_i hbuf
      exact absurd hbuf hattn₃
    · rfl
  have hnum : (s₃.initIterationState jobs).numFillTokens =
      fills.map fun j => (s₃.job j).numTokens := by
    unfold initIterationState
    dsimp only
    split <;> rfl
  have hpiece : ∀ j ∈ fills, s₃.newSlots j <:+ s₃.mem.getContextSlotIds (s₃.jobContext j) ∧
      (s₃.newSlots j).length = (s₃.job j).numTokens := fun j hj =>
    ⟨suffix_contextSlots _ _ (hbatch.newSlots_suffix (List.mem_of_mem_filter hj)).2.2,
      hbatch.rows.slots j (List.mem_of_mem_filter hj)⟩
  have hlengths : ∀ j ∈ fills, (s₃.newSlots j).length =
      (s₃.mem.getContextSlotIds (s₃.jobContext j)).length := by
    refine length_eq_of_sum (fun j hj => (hpiece j hj).1.length_le) ?_
    rw [hslots, hnum, List.length_flatMap] at hshort
    rw [List.map_congr_left fun j hj => (hpiece j hj).2]
    exact hshort
  obtain ⟨gens, hsplit⟩ := hfront
  rw [hslots]
  conv_rhs => rw [hsplit]
  rw [List.flatMap_append, List.flatMap_congr fun j hj =>
    ((hpiece j hj).1.eq_of_length (hlengths j hj)).symm]
  exact List.prefix_append _ _

/-- **Skipping the fetch changes nothing.**  The paged path fetches nothing when the buffers would
be as long as the new tokens of the Fills, and uses the new keys and values in their place.  The
rows that it would have fetched are these, element by element. -/
theorem skipped_fetch_agrees (c : KvConfig) (attnFunc : AttnFunc) (hc : c.Fits attnFunc)
    (hattn : attnFunc ≠ .xFormersWithBuffer) (config : SchedulerConfig)
    (computed : Place → ℕ → (ℕ → ℕ → ℕ → α × α) → Prop) {x : EngineStorage α}
    (hx : (system c attnFunc config).ReachableUnder (StorageGuard c computed) x) {o : ModelOutput}
    {layers : ℕ → LayerTokens α} (hg : StorageGuard c computed x ⟨.engineIter o, layers⟩)
    {jobs : List JobRef} {s' : BuiltinEngine} (hf : x.engine.iterForward o = .ok (jobs, s'))
    {cache : ℕ → KvTensors α} (hrun : x.RunsLayers c o layers cache)
    (hshort : (s'.initIterationState jobs).fillSlots.length =
      (s'.initIterationState jobs).numFillTokens.sum) {layer : ℕ} (hlayer : layer < c.numLayers)
    (buffer : KvTensors α) :
    (∃ buffer', c.Fetches attnFunc layer (cache (layer + 1)) (s'.initIterationState jobs).fillSlots
      (s'.initIterationState jobs).numFillTokens.sum buffer buffer') ∧
    ∀ buffer', c.Fetches attnFunc layer (cache (layer + 1)) (s'.initIterationState jobs).fillSlots
      (s'.initIterationState jobs).numFillTokens.sum buffer buffer' →
      ∀ i < (s'.initIterationState jobs).numFillTokens.sum, ∀ head < c.numHeads,
        ∀ dim < c.headSize,
          buffer'.k (c.bufferAddress i head dim) = (layers layer).k.at c i head dim ∧
            buffer'.v (c.bufferAddress i head dim) = (layers layer).v.at c i head dim := by
  have h := (storageInvariant hc config).holds hx
  refine ⟨(c.fetches_iff _ _ _ _ _ _).mpr ⟨hshort, fun hbuf => absurd hbuf hattn⟩,
    fun buffer' hfetch i hi head hhead dim hdim => ?_⟩
  obtain ⟨-, jobs', s'', hf', hlayers⟩ := hrun.forward
  obtain ⟨rfl, rfl⟩ := Prod.mk.inj (Except.ok.inj (hf'.symm.trans hf))
  obtain ⟨ids, hdest⟩ := exists_destinations h.tree h.kv h.inRange (h.one hc) hg.1 hf
  obtain ⟨rest, hrest⟩ :=
    fillSlots_prefix h.tree h.kv (h.one hc) (h.attn ▸ hattn) hg.1 hf hdest hshort
  rw [← hshort] at hi
  set slots := (s''.initIterationState jobs').fillSlots with hslots
  have hget : slots[i]? = some (slots.getD i 0) := by
    rw [List.getD_eq_getElem _ _ hi, List.getElem?_eq_getElem hi]
  have hslot : ((s''.initIterationState jobs').slotMapping.take ids.length)[i]? =
      some (slots.getD i 0) := by
    rw [← hrest, List.getElem?_append_left hi, hget]
  have hrow := holdsRow_destination hc hdest (hg.2 o rfl _ _ ids hf hdest.input)
    (h.attn ▸ hlayers) hslot (layer + 1) hlayer layer (Nat.lt_succ_self layer) head dim
    ⟨hlayer, hdest.lt _ (List.mem_of_getElem? hslot), hhead, hdim⟩
  obtain ⟨-, hk, hv⟩ := hfetch.fetched hc.toSound
  rw [hk.row i hi head hhead dim hdim, hv.row i hi head hhead dim hdim]
  exact hrow

/-! ## A forked context -/

/-- One layer, eight blocks of two tokens. -/
def forkedConfig : KvConfig where
  numLayers := 1
  numBlocks := 8
  blockSize := 2
  numHeads := 2
  headSize := 2
  elementSize := 16

/-- A layer whose keys repeat the tokens, and whose values tell the places. -/
def echoLayers (places : List Place) (ids : List ℕ) (_ : ℕ) : LayerTokens ℕ where
  k := { data := fun i => ids.getD (i / 4) 0, numTokens := ids.length, stride := 4 }
  v := { data := fun i => (places.map fun place => 100 * place.context + place.position).getD
            (i / 4) 0
         numTokens := ids.length, stride := 4 }

/-- The keys and values of a token in such layers. -/
def Echoes (place : Place) (token : ℕ) (row : ℕ → ℕ → ℕ → ℕ × ℕ) : Prop :=
  ∀ layer, ∀ head < 2, ∀ dim < 2,
    row layer head dim = (token, 100 * place.context + place.position)

lemma echoLayers_compute {places : List Place} {ids : List ℕ} (hlen : ids.length ≤ 100) :
    Computes forkedConfig Echoes places ids (echoLayers places ids) where
  k _ _ := ⟨rfl, fun i (hi : i < ids.length) => show i * 4 + 4 ≤ 2 ^ 31 by omega⟩
  v _ _ := ⟨rfl, fun i (hi : i < ids.length) => show i * 4 + 4 ≤ 2 ^ 31 by omega⟩
  row i place token hplace htoken layer head hhead dim hdim := by
    have hrow : (i * 4 + head * 2 + dim) / 4 = i := by omega
    have htoken : ids.getD i 0 = token := by
      rw [List.getD_eq_getElem?_getD, htoken, Option.getD_some]
    have hplace : (places.map fun place => 100 * place.context + place.position).getD i 0 =
        100 * place.context + place.position := by
      rw [List.getD_eq_getElem?_getD, List.getElem?_map, hplace, Option.map_some, Option.getD_some]
    show (ids.getD ((i * 4 + head * 2 + dim) / 4) 0, (places.map fun place =>
      100 * place.context + place.position).getD ((i * 4 + head * 2 + dim) / 4) 0) = _
    rw [hrow, htoken, hplace]

/-- The places and the input tokens of the next forward pass. -/
def nextInput (s : BuiltinEngine) : Option (List Place × List ℕ) :=
  match s.iterForward fiveOutput with
  | .ok (jobs, s') => (s'.inputIds jobs).toOption.map (s'.inputPlaces jobs, ·)
  | .error _ => none

lemma layersCompute_echo {x : EngineStorage ℕ} {places : List Place} {ids : List ℕ}
    (h : nextInput x.engine = some (places, ids)) (hlen : ids.length ≤ 100) :
    LayersCompute forkedConfig Echoes x fiveOutput (echoLayers places ids) := by
  intro jobs s' ids' hf hids
  rw [nextInput, hf] at h
  dsimp only at h
  rw [hids] at h
  obtain ⟨rfl, rfl⟩ := Prod.mk.inj (Option.some.inj h)
  exact echoLayers_compute hlen

/-- The paged path can always cache. -/
lemma exists_runsLayers (c : KvConfig) {x : EngineStorage α} {o : ModelOutput}
    (layers : ℕ → LayerTokens α)
    (hattn : x.engine.attnFunc = .xFormersFillVllmPagedAttentionGenerate)
    (hf : x.engine.iterForward o = .ok (jobs, s')) : ∃ cache, x.RunsLayers c o layers cache := by
  have hnext : ∀ (layer : ℕ) (kv : KvTensors α), ∃ kv', c.Caches
      .xFormersFillVllmPagedAttentionGenerate layer (layers layer)
      (s'.initIterationState jobs).slotMapping kv kv' := fun layer kv => by
    obtain ⟨k, hk⟩ := exists_launched _ kv.k
    obtain ⟨v, hv⟩ := exists_launched _ kv.v
    exact ⟨⟨k, v⟩, hk, hv⟩
  choose next hnext using hnext
  unfold iterForward at hf
  split at hf
  · cases hf
  · rename_i batch s hbatch
    refine ⟨fun l => Nat.rec x.modelCache next l, rfl, batch, s, jobs, s', hbatch, hf,
      fun layer _ => ?_⟩
    rw [hattn]
    exact hnext layer _

/-- A request of an engine whose tensors stay. -/
lemma reachable_request {config : SchedulerConfig} {x : EngineStorage α}
    (hx : (system c attnFunc config).ReachableUnder (StorageGuard c computed) x)
    (a : BuiltinEngine.Action) (hreq : ∀ o, a ≠ .engineIter o) (hlive : x.engine.crashed = false)
    (hg : KvGuard x.engine a) : (system c attnFunc config).ReachableUnder
      (StorageGuard c computed) ⟨x.engine.apply a, x.modelCache⟩ := by
  have htokens : ℕ → LayerTokens α := fun _ => ⟨⟨x.modelCache.k, 0, 0⟩, ⟨x.modelCache.v, 0, 0⟩⟩
  refine .step hx (a := ⟨a, htokens⟩) ⟨hg, fun o ha => absurd ha (hreq o)⟩ ⟨hlive, rfl, ?_⟩
  dsimp only
  split
  · exact absurd rfl (hreq _)
  · rfl

/-- An iteration of an engine. -/
lemma reachable_iteration {config : SchedulerConfig} {x : EngineStorage α}
    (hx : (system c attnFunc config).ReachableUnder (StorageGuard c computed) x)
    (hlive : x.engine.crashed = false) (hjobs : x.engine.scheduler.isEmpty = false)
    {o : ModelOutput} (hg : StorageGuard c computed x ⟨.engineIter o, layers⟩)
    (hf : x.engine.iterForward o = .ok (jobs, s')) (hrun : x.RunsLayers c o layers cache) :
    (system c attnFunc config).ReachableUnder (StorageGuard c computed)
      ⟨x.engine.apply (.engineIter o), cache c.numLayers⟩ := by
  refine .step hx hg ⟨hlive, rfl, ?_⟩
  dsimp only
  rw [if_pos (runsModel_of_forward hjobs hf)]
  exact ⟨cache, hrun, rfl⟩

/-- A parent of two tokens that did not run. -/
def forkedParent : BuiltinEngine :=
  (start .xFormersFillVllmPagedAttentionGenerate 2 8 ampleConfig).apply
    (.fill 0 0 0 none false [7, 7] 0)

lemma exists_forward {s : BuiltinEngine} {input : List Place × List ℕ}
    (h : nextInput s = some input) : ∃ jobs s', s.iterForward fiveOutput = .ok (jobs, s') := by
  unfold nextInput at h
  split at h
  · exact ⟨_, _, ‹_›⟩
  · cases h

/-- The places of the two tokens of the parent. -/
def parentPlaces : List Place := [⟨0, 0⟩, ⟨0, 1⟩]

lemma forkedParent_input : nextInput forkedParent = some (parentPlaces, [7, 7]) := by decide +kernel

/-- The engine with a parent that did not run. -/
lemma parent_reachable : (system forkedConfig .xFormersFillVllmPagedAttentionGenerate
    ampleConfig).ReachableUnder (StorageGuard forkedConfig Echoes) ⟨forkedParent, zeros⟩ :=
  have hstart : (system forkedConfig .xFormersFillVllmPagedAttentionGenerate
      ampleConfig).ReachableUnder (StorageGuard forkedConfig Echoes)
      ⟨start .xFormersFillVllmPagedAttentionGenerate 2 8 ampleConfig, zeros⟩ := .init rfl
  reachable_request hstart (.fill 0 0 0 none false [7, 7] 0) (fun _ h => nomatch h) rfl
    fun _ _ _ hq => nomatch hq

lemma forkedParent_guard : StorageGuard forkedConfig Echoes ⟨forkedParent, zeros⟩
    ⟨.engineIter fiveOutput, echoLayers parentPlaces [7, 7]⟩ := by
  refine ⟨fun batch s₁ hbatch => ?_, fun o ho => ?_⟩
  · obtain rfl : batch = [0] := by
      have hmap := congrArg (fun e => (Except.toOption e).map Prod.fst) hbatch
      exact Option.some.inj (hmap.symm.trans (by decide +kernel))
    exact batchGuard_singleton (r := 0) (by decide +kernel) (by decide +kernel)
  · cases ho
    exact layersCompute_echo forkedParent_input (by decide)

lemma forkedConfig_fits : forkedConfig.Fits .xFormersFillVllmPagedAttentionGenerate where
  blockSize := by decide
  x := by decide
  dvd := by decide
  token := by decide
  layer := by decide
  cache := by decide
  storage := ⟨_, rfl⟩

/-- The parent has no past: what its layer would fetch is what it computed for its two tokens. -/
theorem skipped_fetch_agrees_parent : ∃ (jobs : List JobRef) (s' : BuiltinEngine)
    (cache : ℕ → KvTensors ℕ) (buffer' : KvTensors ℕ),
    forkedParent.iterForward fiveOutput = .ok (jobs, s') ∧
      (⟨forkedParent, zeros⟩ : EngineStorage ℕ).RunsLayers forkedConfig fiveOutput
        (echoLayers parentPlaces [7, 7]) cache ∧
      forkedConfig.Fetches .xFormersFillVllmPagedAttentionGenerate 0 (cache 1)
        (s'.initIterationState jobs).fillSlots 2 zeros buffer' ∧
      buffer'.k (forkedConfig.bufferAddress 1 1 0) = 7 ∧
      buffer'.v (forkedConfig.bufferAddress 1 1 0) = 1 := by
  obtain ⟨jobs, s', hf⟩ := exists_forward forkedParent_input
  let x : EngineStorage ℕ := ⟨forkedParent, zeros⟩
  obtain ⟨cache, hrun⟩ : ∃ cache, x.RunsLayers forkedConfig fiveOutput
      (echoLayers parentPlaces [7, 7]) cache := exists_runsLayers forkedConfig _ rfl hf
  have hview : (forkedParent.iterForward fiveOutput).toOption.map (fun y =>
      ((y.2.initIterationState y.1).fillSlots.length,
        (y.2.initIterationState y.1).numFillTokens.sum)) = some (2, 2) := by
    decide +kernel
  rw [hf] at hview
  obtain ⟨hslots, htokens⟩ := Prod.mk.inj (Option.some.inj hview)
  obtain ⟨⟨buffer', hfetch⟩, hagree⟩ := skipped_fetch_agrees forkedConfig _ forkedConfig_fits
    (by decide) ampleConfig Echoes parent_reachable forkedParent_guard hf hrun
    (hslots.trans htokens.symm) (show 0 < forkedConfig.numLayers from Nat.one_pos) zeros
  have hrow := hagree buffer' hfetch 1 (by rw [htokens]; decide) 1 (by decide) 0 (by decide)
  exact ⟨jobs, s', cache, buffer', hf, hrun, htokens ▸ hfetch, hrow⟩

/-- The engine that ran a parent of two tokens, in front of the Fill of its child. -/
lemma forked_reachable : ∃ cache : KvTensors ℕ,
    (system forkedConfig .xFormersFillVllmPagedAttentionGenerate ampleConfig).ReachableUnder
      (StorageGuard forkedConfig Echoes) ⟨forkedAfter 2 2, cache⟩ := by
  obtain ⟨jobs, s', hf⟩ := exists_forward forkedParent_input
  let x : EngineStorage ℕ := ⟨forkedParent, zeros⟩
  obtain ⟨cache, hrun⟩ : ∃ cache, x.RunsLayers forkedConfig fiveOutput
      (echoLayers parentPlaces [7, 7]) cache := exists_runsLayers forkedConfig _ rfl hf
  have hran := reachable_iteration parent_reachable rfl rfl forkedParent_guard hf hrun
  have hlive : (forkedParent.apply (.engineIter fiveOutput)).crashed = false := by decide +kernel
  have hmap : (forkedParent.apply (.engineIter fiveOutput)).map 0 = some 0 := by decide +kernel
  have hsize : (forkedParent.apply (.engineIter fiveOutput)).mem.blockSize = 2 := by
    decide +kernel
  have hfull : 2 ∣ (forkedParent.apply (.engineIter fiveOutput)).mem.getThisContextLen 0 := by
    decide +kernel
  refine ⟨cache 1, reachable_request hran (.fill 0 0 1 (some 0) false [8] 1)
    (fun _ h => nomatch h) hlive ?_⟩
  rintro - q p hq hp -
  obtain rfl := Option.some.inj hq
  obtain rfl : 0 = p := Option.some.inj (hmap.symm.trans hp)
  exact hsize ▸ hfull

/-- The child of a parent that ran: its layer reads the rows of the two tokens of the parent, which
it tells apart, and of its own. -/
theorem attention_reads_computed_forked : ∃ (jobs : List JobRef) (s' : BuiltinEngine)
    (buffer' : KvTensors ℕ), (forkedAfter 2 2).iterForward fiveOutput = .ok (jobs, s') ∧
      s'.fetchedText jobs = [7, 7, 8] ∧ s'.fetchedPlaces jobs = [⟨0, 0⟩, ⟨0, 1⟩, ⟨1, 0⟩] ∧
      buffer'.v (forkedConfig.bufferAddress 0 1 0) = 0 ∧
      buffer'.v (forkedConfig.bufferAddress 1 1 0) = 1 ∧
      buffer'.k (forkedConfig.bufferAddress 2 0 1) = 8 := by
  obtain ⟨kv, hx⟩ := forked_reachable
  let x : EngineStorage ℕ := ⟨forkedAfter 2 2, kv⟩
  have hguard : KvGuard (forkedAfter 2 2) (.engineIter fiveOutput) := by
    intro batch s₁ hbatch
    obtain rfl : batch = [1] := by
      have hmap := congrArg (fun e => (Except.toOption e).map Prod.fst) hbatch
      exact Option.some.inj (hmap.symm.trans (by decide +kernel))
    exact batchGuard_singleton (r := 1) (by decide +kernel) (by decide +kernel)
  have hinput : nextInput (forkedAfter 2 2) = some ([⟨1, 0⟩], [8]) := by decide +kernel
  obtain ⟨jobs, s', hf⟩ := exists_forward hinput
  obtain ⟨cache, hrun⟩ : ∃ cache, x.RunsLayers forkedConfig fiveOutput
      (echoLayers [⟨1, 0⟩] [8]) cache := exists_runsLayers forkedConfig _ rfl hf
  have hcompute : LayersCompute forkedConfig Echoes x fiveOutput (echoLayers [⟨1, 0⟩] [8]) :=
    layersCompute_echo hinput (by decide)
  have hview : ((forkedAfter 2 2).iterForward fiveOutput).toOption.map
      (fun y => (y.2.fetchedText y.1, y.2.fetchedPlaces y.1,
        (y.2.initIterationState y.1).fillSlots.length)) =
        some ([7, 7, 8], [⟨0, 0⟩, ⟨0, 1⟩, ⟨1, 0⟩], 3) := by
    decide +kernel
  rw [hf] at hview
  obtain ⟨htext, hrest⟩ := Prod.mk.inj (Option.some.inj hview)
  obtain ⟨hplaces, hlength⟩ := Prod.mk.inj hrest
  obtain ⟨buffer', hfetch⟩ := (forkedConfig.fetches_iff .xFormersFillVllmPagedAttentionGenerate 0
    (cache 1) (s'.initIterationState jobs).fillSlots 3 zeros).mpr ⟨hlength, fun h => nomatch h⟩
  obtain ⟨-, -, hread⟩ := attention_reads_computed forkedConfig _ forkedConfig_fits ampleConfig
    Echoes hx rfl ⟨hguard, fun o ho => by cases ho; exact hcompute⟩ hf hrun Nat.one_pos hfetch
  rw [htext, hplaces] at hread
  have hrow : ∀ i place token, [⟨0, 0⟩, ⟨0, 1⟩, (⟨1, 0⟩ : Place)][i]? = some place →
      [7, 7, 8][i]? = some token → ∀ head < 2, ∀ dim < 2,
        buffer'.k (forkedConfig.bufferAddress i head dim) = token ∧
          buffer'.v (forkedConfig.bufferAddress i head dim) =
            100 * place.context + place.position := by
    intro i place token hplace htoken head hhead dim hdim
    obtain ⟨row, hecho, hrow⟩ := hread i place token hplace htoken
    obtain ⟨hk, hv⟩ := hrow head hhead dim hdim
    rw [hecho 0 head hhead dim hdim] at hk hv
    exact ⟨hk, hv⟩
  exact ⟨jobs, s', buffer', hf, htext, hplaces, (hrow 0 _ _ rfl rfl 1 (by decide) 0 (by decide)).2,
    (hrow 1 _ _ rfl rfl 1 (by decide) 0 (by decide)).2,
    (hrow 2 _ _ rfl rfl 0 (by decide) 1 (by decide)).1⟩

end EngineStorage

end ParrotServe
