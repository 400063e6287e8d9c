import ParrotServe.Model.ContextManager
import Mathlib.Data.List.Infix
import Mathlib.Data.List.Chain
import Mathlib.Data.List.Count
import Mathlib.Data.List.Perm.Basic

/-!
# The context manager as a forest of prefixes

The prefix cache of an engine maps bracketed strings to context ids.  What it means is a forest:
a live context that was cached last for the variables `l` (`Key`) is either the child of the
context of `l` without its last variable, or a root that every non-empty prefix of `l` is mapped
to.  Roots of more than one variable exist because of `fuse_fill`; and because only the hash
cached last is removed with its context, a fused root leaves the hashes of its shorter prefixes
behind.  `Sound` states the forest, the reference counters and the id pool together:

* an entry of the cache that is not the key of its context is *stale*, and so are all entries for
  its prefixes;
* a counter is the number of holders of the context, the tasks that mention it and its entries
  under constant-prefix variables; only the counter of a fused root can be larger.

`KeyPath` lists the contexts of a sequence of variables along this forest.  The lemmas of the
second half say what each elementary operation of the manager does to `Sound`.
-/

namespace ParrotServe

/-! ## Prefix hashes -/

/-- The hash `set_task_contexts` builds up for a list of variables. -/
def hashPrefix (l : List VarId) : Text := l.flatMap hashVarId

@[simp] lemma hashPrefix_nil : hashPrefix [] = [] := rfl

lemma hashPrefix_concat (l : List VarId) (v : VarId) :
    hashPrefix (l ++ [v]) = hashPrefix l ++ hashVarId v := by
  simp [hashPrefix]

lemma hashVarId_append (v : VarId) (t : Text) :
    hashVarId v ++ t = '{' :: '{' :: (v.val ++ '}' :: '}' :: t) := by
  simp [hashVarId]

/-- A text is determined by what follows it, up to a character it does not contain. -/
lemma append_cons_inj {c : Char} : ∀ {a b x y : Text}, c ∉ a → c ∉ b →
    a ++ c :: x = b ++ c :: y → a = b ∧ x = y
  | [], [], _, _, _, _, h => ⟨rfl, (List.cons.inj h).2⟩
  | [], d :: b, _, _, _, hb, h => absurd (List.cons.inj h).1 (by rintro rfl; simp at hb)
  | d :: a, [], _, _, ha, _, h => absurd (List.cons.inj h).1 (by rintro rfl; simp at ha)
  | d :: a, d' :: b, _, _, ha, hb, h => by
      obtain ⟨hd, ht⟩ := List.cons.inj h
      rw [List.mem_cons, not_or] at ha hb
      obtain ⟨hab, hxy⟩ := append_cons_inj ha.2 hb.2 ht
      exact ⟨by rw [hd, hab], hxy⟩

/-- The hash determines the variables. -/
lemma hashPrefix_injective : ∀ {l l' : List VarId}, hashPrefix l = hashPrefix l' → l = l'
  | [], [], _ => rfl
  | [], v :: l', h => by
      rw [hashPrefix, hashPrefix, List.flatMap_cons, hashVarId_append] at h
      simp at h
  | v :: l, [], h => by
      rw [hashPrefix, hashPrefix, List.flatMap_cons, hashVarId_append] at h
      simp at h
  | v :: l, v' :: l', h => by
      rw [hashPrefix, hashPrefix, List.flatMap_cons, List.flatMap_cons, hashVarId_append,
        hashVarId_append, List.cons.injEq, List.cons.injEq] at h
      obtain ⟨hv, ht⟩ := append_cons_inj v.property.2 v'.property.2 h.2.2
      rw [List.cons.injEq] at ht
      rw [Subtype.ext hv, hashPrefix_injective ht.2]

@[simp] lemma hashPrefix_inj {l l' : List VarId} : hashPrefix l = hashPrefix l' ↔ l = l' :=
  ⟨hashPrefix_injective, fun h => h ▸ rfl⟩

namespace ServeCoreContextManager

variable (m : ServeCoreContextManager)

/-! ## The forest -/

/-- The context is the one its id stands for. -/
def Live (r : ContextRef) : Prop := m.contexts (m.obj r).contextId = some r

instance (r : ContextRef) : Decidable (m.Live r) := inferInstanceAs (Decidable (_ = _))

/-- What the cache of an engine has for a list of variables. -/
def cached (engineId : ℕ) (l : List VarId) : Option ℕ :=
  (m.prefixCaches engineId).bind fun c => c.prefixCtxMap (hashPrefix l)

/-- The hash the cache of an engine has for a context id. -/
def reversed (engineId contextId : ℕ) : Option Text :=
  (m.prefixCaches engineId).bind fun c => c.prefixCtxMapReversed contextId

/-- The context was cached last for these variables. -/
def Key (r : ContextRef) (l : List VarId) : Prop :=
  m.reversed (m.obj r).engine (m.obj r).contextId = some (hashPrefix l)

instance (r : ContextRef) (l : List VarId) : Decidable (m.Key r l) :=
  inferInstanceAs (Decidable (_ = _))

/-- A root that was cached for more than one prefix. -/
def Fused (r : ContextRef) : Prop :=
  (m.obj r).parentContext = none ∧ ∃ l, 2 ≤ l.length ∧ m.Key r l

variable {m}

lemma Key.unique {r : ContextRef} {l l' : List VarId} (h : m.Key r l) (h' : m.Key r l') :
    l = l' :=
  hashPrefix_injective (Option.some.inj (h.symm.trans h'))

variable (m)

/-- How the context of the variables `l` hangs in the forest of its engine. -/
def Placed (r : ContextRef) (l : List VarId) : Prop :=
  match (m.obj r).parentContext with
  | none => ∀ l', l' ≠ [] → l' <+: l →
      m.cached (m.obj r).engine l' = some (m.obj r).contextId
  | some p => ∃ l' v, l = l' ++ [v] ∧ l' ≠ [] ∧ m.Live p ∧ (m.obj p).engine = (m.obj r).engine ∧
      m.Key p l'

/-- The prefix caches. -/
structure CachesSound : Prop where
  /-- The keys of the caches are hashes of non-empty lists. -/
  entry : ∀ e c h id, m.prefixCaches e = some c → c.prefixCtxMap h = some id →
    ∃ l, l ≠ [] ∧ h = hashPrefix l
  /-- A reversed entry belongs to a live context, cached for this hash. -/
  own : ∀ e id h, m.reversed e id = some h → ∃ r l, m.contexts id = some r ∧
    (m.obj r).engine = e ∧ l ≠ [] ∧ h = hashPrefix l ∧ m.cached e l = some id ∧ m.Placed r l
  /-- An entry that is no key is stale, and so are all its prefixes. -/
  stale : ∀ e l id, m.cached e l = some id → m.reversed e id ≠ some (hashPrefix l) →
    ∀ l', l' ≠ [] → l' <+: l →
      ∃ id', m.cached e l' = some id' ∧ m.reversed e id' ≠ some (hashPrefix l')

/-- Contexts along one branch of the forest, with repetitions. -/
def Branch (cs : List ContextRef) : Prop :=
  (∀ r, cs.head? = some r → (m.obj r).parentContext = none) ∧
    cs.IsChain fun a b => b = a ∨ (m.obj b).parentContext = some a

/-- The number of references to a context: the lists that mention it, and its entries. -/
def holders (held : List (List ContextRef)) (entries : List ContextRef) (r : ContextRef) : ℕ :=
  held.countP (fun cs => decide (r ∈ cs)) + entries.count r

/-- The state of the manager; `held` are the contexts of the tasks, `entries` those under
constant-prefix variables. -/
structure Sound (held : List (List ContextRef)) (entries : List ContextRef) : Prop where
  pool : m.contextIdPool.Owns {id | (m.contexts id).isSome = true}
  unbounded : m.contextIdPool.poolSize = none
  id_eq : ∀ id r, m.contexts id = some r → (m.obj r).contextId = id
  lt_next : ∀ id r, m.contexts id = some r → r < m.next
  parent_lt : ∀ r p, m.Live r → (m.obj r).parentContext = some p → p < r
  parent_engine : ∀ r p, m.Live r → (m.obj r).parentContext = some p →
    (m.obj p).engine = (m.obj r).engine
  registered : ∀ r, m.Live r → (m.prefixCaches (m.obj r).engine).isSome = true
  caches : m.CachesSound
  held_live : ∀ cs ∈ held, ∀ r ∈ cs, m.Live r
  held_branch : ∀ cs ∈ held, m.Branch cs
  entries_live : ∀ r ∈ entries, m.Live r ∧ (m.obj r).parentContext = none
  counter : ∀ r, m.Live r → ∃ n : ℤ, m.contextRefCounter (m.obj r).contextId = some n ∧ 0 < n ∧
    (holders held entries r : ℤ) ≤ n ∧ (n = holders held entries r ∨ m.Fused r)
  dead : ∀ id, m.contexts id = none →
    m.contextRefCounter id = none ∨ m.contextRefCounter id = some 0

/-! ## Consequences -/

variable {m} {m' : ServeCoreContextManager} {held : List (List ContextRef)}
  {entries : List ContextRef} {e : ℕ}

namespace Sound

lemma perm {held' : List (List ContextRef)} {entries' : List ContextRef}
    (h : m.Sound held entries) (hh : held'.Perm held) (he : entries'.Perm entries) :
    m.Sound held' entries' := by
  have hcount : ∀ r, holders held' entries' r = holders held entries r := fun r => by
    rw [holders, holders, hh.countP_eq, he.count_eq]
  exact { h with
    held_live := fun cs hcs => h.held_live cs (hh.mem_iff.mp hcs)
    held_branch := fun cs hcs => h.held_branch cs (hh.mem_iff.mp hcs)
    entries_live := fun r hr => h.entries_live r (he.mem_iff.mp hr)
    counter := fun r hr => by
      rw [hcount]
      exact h.counter r hr }

lemma live_of_contexts (h : m.Sound held entries) {id : ℕ} {r : ContextRef}
    (hr : m.contexts id = some r) : m.Live r := by
  rw [Live, h.id_eq id r hr]
  exact hr

lemma live_lt (h : m.Sound held entries) {r : ContextRef} (hr : m.Live r) : r < m.next :=
  h.lt_next _ r hr

/-- Live contexts have different ids. -/
lemma eq_of_id (_h : m.Sound held entries) {r r' : ContextRef} (hr : m.Live r) (hr' : m.Live r')
    (hid : (m.obj r).contextId = (m.obj r').contextId) : r = r' := by
  rw [Live, hid] at hr
  exact Option.some.inj (hr.symm.trans hr')

/-- What a key says about its context. -/
lemma key_spec (h : m.Sound held entries) {r : ContextRef} (hr : m.Live r) {l : List VarId}
    (hk : m.Key r l) : l ≠ [] ∧ m.cached (m.obj r).engine l = some (m.obj r).contextId ∧
      m.Placed r l := by
  obtain ⟨r', l', hr', -, hne, heq, hc, hp⟩ := h.caches.own _ _ _ hk
  obtain rfl := hashPrefix_injective heq
  obtain rfl : r' = r := Option.some.inj (hr'.symm.trans hr)
  exact ⟨hne, hc, hp⟩

/-- An entry that is a key. -/
lemma own_cached (h : m.Sound held entries) {l : List VarId} {id : ℕ}
    (hrev : m.reversed e id = some (hashPrefix l)) :
    ∃ r, m.Live r ∧ (m.obj r).engine = e ∧ (m.obj r).contextId = id ∧ m.Key r l := by
  obtain ⟨r, l', hr, he, -, heq, -, -⟩ := h.caches.own _ _ _ hrev
  have hid := h.id_eq id r hr
  refine ⟨r, h.live_of_contexts hr, he, hid, ?_⟩
  rw [Key, he, hid]
  exact hrev

/-- A branch is ordered by age. -/
lemma branch_le (h : m.Sound held entries) {cs : List ContextRef} (hb : m.Branch cs)
    (hlive : ∀ r ∈ cs, m.Live r) : cs.Pairwise (· ≤ ·) := by
  have hchain : cs.IsChain (· ≤ ·) := by
    refine hb.2.imp_of_mem_imp ?_
    rintro a b ha hb' (rfl | hp)
    · exact le_rfl
    · exact Nat.le_of_lt (h.parent_lt b a (hlive b hb') hp)
  exact List.isChain_iff_pairwise.mp hchain

end Sound

/-- A prefix of a branch is a branch. -/
lemma Branch.of_prefix {cs cs' : List ContextRef} (h : m.Branch cs) (hp : cs' <+: cs) :
    m.Branch cs' := by
  obtain ⟨t, rfl⟩ := hp
  refine ⟨fun r hr => h.1 r ?_, h.2.left_of_append⟩
  rw [List.head?_append, hr, Option.some_or]

lemma Branch.congr {cs : List ContextRef} (h : m.Branch cs)
    (hsame : ∀ r ∈ cs, m'.obj r = m.obj r) : m'.Branch cs := by
  refine ⟨fun r hr => ?_, h.2.imp_of_mem_imp fun a b _ hb hab => ?_⟩
  · rw [hsame r (List.mem_of_mem_head? hr)]
    exact h.1 r hr
  · rwa [hsame b hb]

/-- The parent of a context of a branch stands before it. -/
lemma Branch.parent_mem {cs : List ContextRef} (h : m.Branch cs) {r p : ContextRef}
    (hr : r ∈ cs) (hp : (m.obj r).parentContext = some p) : p ∈ cs := by
  induction cs using List.reverseRecOn with
  | nil => simp at hr
  | append_singleton cs x ih =>
      have hpre : m.Branch cs := h.of_prefix (List.prefix_append _ _)
      rcases List.mem_append.mp hr with hr | hr
      · exact List.mem_append_left _ (ih hpre hr)
      · obtain rfl := List.mem_singleton.mp hr
        cases hlast : cs.getLast? with
        | none =>
            obtain rfl := List.getLast?_eq_none_iff.mp hlast
            rw [h.1 r rfl] at hp
            simp at hp
        | some y =>
            have hy : y ∈ cs := List.mem_of_getLast? hlast
            have hrel := (List.isChain_append.mp h.2).2.2 y hlast r rfl
            rcases hrel with rfl | hy'
            · exact List.mem_append_left _ (ih hpre hy)
            · obtain rfl := Option.some.inj (hy'.symm.trans hp)
              exact List.mem_append_left _ hy

/-- Extending a branch. -/
lemma Branch.concat {cs : List ContextRef} (h : m.Branch cs) {r : ContextRef}
    (hr : (cs = [] ∧ (m.obj r).parentContext = none) ∨
      ∃ last, cs.getLast? = some last ∧ (r = last ∨ (m.obj r).parentContext = some last)) :
    m.Branch (cs ++ [r]) := by
  rcases hr with ⟨rfl, hp⟩ | ⟨last, hlast, hrel⟩
  · refine ⟨fun x hx => ?_, List.isChain_singleton r⟩
    obtain rfl : r = x := Option.some.inj hx
    exact hp
  · refine ⟨fun x hx => h.1 x ?_, List.isChain_append.mpr ⟨h.2, List.isChain_singleton r, ?_⟩⟩
    · cases cs with
      | nil => simp at hlast
      | cons a cs => exact hx
    · intro x hx y hy
      obtain rfl := Option.some.inj (hlast.symm.trans hx)
      obtain rfl : r = y := Option.some.inj hy
      exact hrel

/-- What the place of a context depends on. -/
lemma Placed.congr {r : ContextRef} {l : List VarId} (h : m.Placed r l)
    (hr : m'.obj r = m.obj r)
    (hc : ∀ l', l' <+: l → m.cached (m.obj r).engine l' = some (m.obj r).contextId →
      m'.cached (m.obj r).engine l' = some (m.obj r).contextId)
    (hp : ∀ p, (m.obj r).parentContext = some p → m.Live p → ∀ l', m.Key p l' →
      m'.obj p = m.obj p ∧ m'.Live p ∧ m'.Key p l') : m'.Placed r l := by
  rw [Placed] at h ⊢
  rw [hr]
  cases hparent : (m.obj r).parentContext with
  | none =>
      rw [hparent] at h
      exact fun l' hne hpre => hc l' hpre (h l' hne hpre)
  | some p =>
      rw [hparent] at h
      obtain ⟨l', v, hl, hne, hlive, he, hk⟩ := h
      obtain ⟨hobj, hlive', hk'⟩ := hp p hparent hlive l' hk
      exact ⟨l', v, hl, hne, hlive', by rw [hobj, he], hk'⟩

/-! ## The contexts of a list of variables -/

/-- The contexts of the variables `l` on an engine: the last one was cached last for `l`. -/
inductive KeyPath (m : ServeCoreContextManager) (e : ℕ) : List ContextRef → List VarId → Prop
  | nil : KeyPath m e [] []
  | root {r : ContextRef} {l : List VarId} : l ≠ [] → m.Live r → (m.obj r).engine = e →
      (m.obj r).parentContext = none → m.Key r l → KeyPath m e (List.replicate l.length r) l
  | child {cs : List ContextRef} {l : List VarId} {r p : ContextRef} {v : VarId} :
      KeyPath m e cs l → cs.getLast? = some p → m.Live r → (m.obj r).engine = e →
      (m.obj r).parentContext = some p → m.Key r (l ++ [v]) →
      KeyPath m e (cs ++ [r]) (l ++ [v])

namespace KeyPath

variable {cs : List ContextRef} {l : List VarId}

lemma length_eq (h : m.KeyPath e cs l) : cs.length = l.length := by
  induction h with
  | nil => rfl
  | root _ _ _ _ _ => exact List.length_replicate
  | child _ _ _ _ _ _ ih => rw [List.length_append, List.length_append, ih]; rfl

lemma live (h : m.KeyPath e cs l) : ∀ r ∈ cs, m.Live r ∧ (m.obj r).engine = e := by
  induction h with
  | nil => simp
  | root _ hr he _ _ =>
      intro x hx
      rw [List.eq_of_mem_replicate hx]
      exact ⟨hr, he⟩
  | child _ _ hr he _ _ ih =>
      intro x hx
      rcases List.mem_append.mp hx with hx | hx
      · exact ih x hx
      · rw [List.mem_singleton.mp hx]
        exact ⟨hr, he⟩

/-- The last context was cached last for the whole list. -/
lemma last_key (h : m.KeyPath e cs l) {r : ContextRef} (hr : cs.getLast? = some r) :
    m.Key r l := by
  cases h with
  | nil => simp at hr
  | root _ _ _ _ hk =>
      rw [List.eq_of_mem_replicate (List.mem_of_getLast? hr)]
      exact hk
  | child _ _ _ _ _ hk =>
      rw [List.getLast?_concat] at hr
      exact Option.some.inj hr ▸ hk

lemma branch (h : m.KeyPath e cs l) : m.Branch cs := by
  induction h with
  | nil => exact ⟨by simp, List.isChain_nil⟩
  | @root r l _ _ _ hp _ =>
      refine ⟨fun x hx => ?_, List.isChain_replicate_of_rel _ (.inl rfl)⟩
      rw [List.eq_of_mem_replicate (List.mem_of_mem_head? hx)]
      exact hp
  | child _ hlast _ _ hp _ ih => exact ih.concat (.inr ⟨_, hlast, .inr hp⟩)

/-- Every prefix of the variables is cached for the context at its place. -/
lemma cached_take (h : m.KeyPath e cs l) (hs : m.Sound held entries) :
    ∀ i, i < l.length → ∃ r, cs[i]? = some r ∧
      m.cached e (l.take (i + 1)) = some (m.obj r).contextId := by
  induction h with
  | nil => simp
  | @root r l hne hr he hp hk =>
      intro i hi
      obtain ⟨-, -, hplaced⟩ := hs.key_spec hr hk
      rw [Placed, hp] at hplaced
      refine ⟨r, by simp [hi], he ▸ hplaced _ ?_ (List.take_prefix _ _)⟩
      intro hnil
      simp [hne] at hnil
  | @child cs l r p v hpath hlast hr he hp hk ih =>
      intro i hi
      rw [List.length_append, List.length_singleton] at hi
      by_cases hlt : i < l.length
      · obtain ⟨x, hx, hc⟩ := ih i hlt
        refine ⟨x, ?_, ?_⟩
        · rw [List.getElem?_append_left (hpath.length_eq ▸ hlt), hx]
        · rw [List.take_append_of_le_length (by omega), hc]
      · obtain rfl : i = l.length := by omega
        refine ⟨r, by simp [← hpath.length_eq], ?_⟩
        rw [List.take_of_length_le (by simp)]
        exact he ▸ (hs.key_spec hr hk).2.1

/-- A child of the last context is younger than all contexts of the path. -/
lemma not_mem_child (h : m.KeyPath e cs l) (hs : m.Sound held entries) {r : ContextRef}
    (hr : m.Live r) (hp : (m.obj r).parentContext = cs.getLast?) : r ∉ cs := by
  intro hmem
  have hsorted := hs.branch_le h.branch fun c hc => (h.live c hc).1
  cases hlast : cs.getLast? with
  | none =>
      rw [List.getLast?_eq_none_iff.mp hlast] at hmem
      simp at hmem
  | some last =>
      obtain ⟨init, rfl⟩ := List.getLast?_eq_some_iff.mp hlast
      have hlt := hs.parent_lt r last hr (hp.trans hlast)
      have hle : r ≤ last := by
        rcases List.mem_append.mp hmem with hmem | hmem
        · exact (List.pairwise_append.mp hsorted).2.2 r hmem last (by simp)
        · exact Nat.le_of_eq (List.mem_singleton.mp hmem)
      exact Nat.lt_irrefl _ (Nat.lt_of_lt_of_le hlt hle)

/-- A context that is met twice is a fused root. -/
lemma fused_of_mem (h : m.KeyPath e cs l) (hs : m.Sound held entries) {a b : List ContextRef}
    {r : ContextRef} (hcs : cs = a ++ r :: b) (hr : r ∈ a) : m.Fused r := by
  induction h generalizing b with
  | nil => simp at hcs
  | @root x l hne hx he hp hk =>
      have hmem : r ∈ List.replicate l.length x := hcs ▸ by simp
      obtain rfl := List.eq_of_mem_replicate hmem
      refine ⟨hp, l, ?_, hk⟩
      have hlen := congrArg List.length hcs
      have ha := List.length_pos_of_mem hr
      simp at hlen
      omega
  | @child cs l x p v hpath hlast hx he hp hk ih =>
      rcases List.eq_nil_or_concat b with rfl | ⟨b', y, rfl⟩
      · obtain ⟨rfl, hxr⟩ := List.append_inj' hcs rfl
        obtain rfl : x = r := by simpa using hxr
        exact absurd hr (hpath.not_mem_child hs hx (hp.trans hlast.symm))
      · rw [List.concat_eq_append, ← List.cons_append, ← List.append_assoc] at hcs
        exact ih (List.append_inj' hcs rfl).1

/-- What a path depends on. -/
lemma congr {m' : ServeCoreContextManager} (h : m.KeyPath e cs l)
    (hsame : ∀ r ∈ cs, m'.obj r = m.obj r ∧ m'.Live r ∧ ∀ l, m.Key r l → m'.Key r l) :
    m'.KeyPath e cs l := by
  induction h with
  | nil => exact .nil
  | @root r l hne hr he hp hk =>
      obtain ⟨hobj, hlive, hkey⟩ := hsame r (by simp [List.mem_replicate, hne])
      exact .root hne hlive (hobj ▸ he) (hobj ▸ hp) (hkey l hk)
  | @child cs l r p v hpath hlast hr he hp hk ih =>
      obtain ⟨hobj, hlive, hkey⟩ := hsame r (by simp)
      exact .child (ih fun x hx => hsame x (List.mem_append_left _ hx)) hlast hlive (hobj ▸ he)
        (hobj ▸ hp) (hkey _ hk)

end KeyPath

/-- A list of variables with a key has its path. -/
lemma Sound.keyPath_of_key (h : m.Sound held entries) : ∀ (n : ℕ) {l : List VarId}
    {r : ContextRef}, l.length = n → m.Live r → m.Key r l →
      ∃ cs, m.KeyPath (m.obj r).engine cs l ∧ cs.getLast? = some r := by
  intro n
  induction n with
  | zero =>
      intro l r hn hr hk
      exact absurd (List.length_eq_zero_iff.mp hn) (h.key_spec hr hk).1
  | succ n ih =>
      intro l r hn hr hk
      obtain ⟨hne, -, hplaced⟩ := h.key_spec hr hk
      cases hp : (m.obj r).parentContext with
      | none =>
          refine ⟨_, .root hne hr rfl hp hk, ?_⟩
          rw [List.getLast?_replicate, if_neg (by omega)]
      | some p =>
          rw [Placed, hp] at hplaced
          obtain ⟨l', v, rfl, -, hplive, hpe, hpk⟩ := hplaced
          obtain ⟨cs, hcs, hlast⟩ := ih (by simpa using hn) hplive hpk
          exact ⟨cs ++ [r], .child (hpe ▸ hcs) hlast hr rfl hp hk, List.getLast?_concat⟩

/-- The keys of the cache are closed under prefixes. -/
lemma Sound.cached_prefix (h : m.Sound held entries) {l l' : List VarId} {id : ℕ}
    (hc : m.cached e l = some id) (hne : l' ≠ []) (hp : l' <+: l) :
    ∃ id', m.cached e l' = some id' := by
  by_cases hrev : m.reversed e id = some (hashPrefix l)
  · obtain ⟨r, hr, he, -, hk⟩ := h.own_cached hrev
    obtain ⟨cs, hcs, -⟩ := h.keyPath_of_key _ rfl hr hk
    have hlen : 0 < l'.length := List.length_pos_iff.mpr hne
    obtain ⟨x, -, hx⟩ := hcs.cached_take h (l'.length - 1) (by have := hp.length_le; omega)
    rw [Nat.sub_add_cancel hlen, ← List.prefix_iff_eq_take.mp hp, he] at hx
    exact ⟨_, hx⟩
  · obtain ⟨id', hid', -⟩ := h.caches.stale e l id hc hrev l' hne hp
    exact ⟨id', hid'⟩

end ServeCoreContextManager

end ParrotServe
