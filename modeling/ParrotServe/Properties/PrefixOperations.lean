import ParrotServe.Properties.PrefixTree

/-!
# The elementary operations of the context manager

One lemma for each operation that `set_task_contexts` and the freeing functions are made of: what
it returns, that it keeps `Sound` with the references given or taken, and what it leaves alone
(`Keeps`).  Nothing here knows about tasks; the list of contexts a running `set_task_contexts`
has collected is simply one more list of references.
-/

namespace ParrotServe
namespace ServeCoreContextManager

variable {m m' m'' : ServeCoreContextManager} {held : List (List ContextRef)}
  {entries : List ContextRef} {e : ℕ}

/-! ## What operations leave alone -/

/-- Contexts are only added or dropped, and the old ones keep their place. -/
structure Keeps (m m' : ServeCoreContextManager) : Prop where
  next_le : m.next ≤ m'.next
  obj : ∀ r : ℕ, r < m.next → m'.obj r = m.obj r
  live : ∀ r : ℕ, r < m.next → m'.Live r → m.Live r
  key : ∀ r : ℕ, r < m.next → m'.Live r → ∀ l, m'.Key r l ↔ m.Key r l
  registered : ∀ e, (m.prefixCaches e).isSome = true → (m'.prefixCaches e).isSome = true

lemma Keeps.refl (m : ServeCoreContextManager) : m.Keeps m :=
  ⟨Nat.le_refl _, fun _ _ => rfl, fun _ _ h => h, fun _ _ _ _ => Iff.rfl, fun _ h => h⟩

lemma Keeps.trans (h : m.Keeps m') (h' : m'.Keeps m'') : m.Keeps m'' where
  next_le := Nat.le_trans h.next_le h'.next_le
  obj r hr := by rw [h'.obj r (Nat.lt_of_lt_of_le hr h.next_le), h.obj r hr]
  live r hr hl := h.live r hr (h'.live r (Nat.lt_of_lt_of_le hr h.next_le) hl)
  key r hr hl l := by
    have hr' := Nat.lt_of_lt_of_le hr h.next_le
    rw [h'.key r hr' hl, h.key r hr (h'.live r hr' hl)]
  registered e he := h'.registered e (h.registered e he)

/-- A path whose contexts stay is still a path. -/
lemma KeyPath.keeps {cs : List ContextRef} {l : List VarId} (hp : m.KeyPath e cs l)
    (h : m.Keeps m') (hs : m.Sound held entries) (hlive : ∀ r ∈ cs, m'.Live r) :
    m'.KeyPath e cs l :=
  hp.congr fun r hr =>
    have hlt := hs.live_lt (hp.live r hr).1
    ⟨h.obj r hlt, hlive r hr, fun l hl => (h.key r hlt (hlive r hr) l).mpr hl⟩

/-- Every entry of the caches is a key. -/
def AllOwn (m : ServeCoreContextManager) : Prop :=
  ∀ e l id, m.cached e l = some id → m.reversed e id = some (hashPrefix l)

/-! ## Counting references -/

lemma holders_cons (cs : List ContextRef) (held : List (List ContextRef))
    (entries : List ContextRef) (r : ContextRef) :
    holders (cs :: held) entries r = holders held entries r + if r ∈ cs then 1 else 0 := by
  rw [holders, holders, List.countP_cons]
  simp only [decide_eq_true_eq]
  omega

lemma holders_entry (held : List (List ContextRef)) (entries : List ContextRef)
    (x r : ContextRef) :
    holders held (x :: entries) r = holders held entries r + if x = r then 1 else 0 := by
  rw [holders, holders, List.count_cons]
  simp only [beq_iff_eq]
  omega

lemma holders_eq_zero {r : ContextRef} (h : ∀ cs ∈ held, r ∉ cs) (h' : r ∉ entries) :
    holders held entries r = 0 := by
  rw [holders, List.count_eq_zero.mpr h', Nat.add_zero]
  exact List.countP_eq_zero.mpr fun cs hcs => by simpa using h cs hcs

lemma holders_pos {r : ContextRef} (h : 0 < holders held entries r) :
    (∃ cs ∈ held, r ∈ cs) ∨ r ∈ entries := by
  rcases Nat.eq_zero_or_pos (held.countP fun cs => decide (r ∈ cs)) with h0 | hpos
  · rw [holders, h0, Nat.zero_add] at h
    exact .inr (List.count_pos_iff.mp h)
  · obtain ⟨cs, hcs, hr⟩ := List.countP_pos_iff.mp hpos
    exact .inl ⟨cs, hcs, by simpa using hr⟩

/-- Parents outlive their children: whoever holds the child holds the parent. -/
lemma Sound.parent_live {r p : ContextRef} (h : m.Sound held entries) (hr : m.Live r)
    (hp : (m.obj r).parentContext = some p) : m.Live p := by
  obtain ⟨n, -, hpos, -, heq⟩ := h.counter r hr
  have hholders : 0 < holders held entries r := by
    rcases heq with heq | hf
    · omega
    · rw [hf.1] at hp
      simp at hp
  rcases holders_pos hholders with ⟨cs, hcs, hmem⟩ | hmem
  · exact h.held_live cs hcs p ((h.held_branch cs hcs).parent_mem hmem hp)
  · rw [(h.entries_live r hmem).2] at hp
    simp at hp

/-! ## `_add_ref_counter` -/

/-- One more reference to `r`, for a new holder or for a fused root. -/
lemma Sound.bump {held' : List (List ContextRef)} {entries' : List ContextRef} {r : ContextRef}
    (h : m.Sound held entries) (hr : m.Live r)
    (hlive : ∀ cs ∈ held', ∀ x ∈ cs, m.Live x) (hbranch : ∀ cs ∈ held', m.Branch cs)
    (hentries : ∀ x ∈ entries', m.Live x ∧ (m.obj x).parentContext = none)
    (hother : ∀ x, x ≠ r → holders held' entries' x = holders held entries x)
    (hself : holders held' entries' r = holders held entries r + 1 ∨
      (holders held' entries' r = holders held entries r ∧ m.Fused r)) :
    (m.addRefCounter r).Sound held' entries' where
  pool := h.pool
  unbounded := h.unbounded
  id_eq := h.id_eq
  lt_next := h.lt_next
  parent_lt := h.parent_lt
  parent_engine := h.parent_engine
  registered := h.registered
  caches := ⟨h.caches.entry, h.caches.own, h.caches.stale⟩
  held_live := hlive
  held_branch := hbranch
  entries_live := hentries
  counter := by
    intro x hx
    obtain ⟨n, hn, hpos, hle, heq⟩ := h.counter x hx
    by_cases hxr : x = r
    · rw [hxr] at hn hle heq ⊢
      refine ⟨n + 1, ?_, by omega, ?_, ?_⟩
      · show Function.update m.contextRefCounter _ _ (m.obj r).contextId = _
        rw [Function.update_self, hn]
        rfl
      · rcases hself with hself | ⟨hself, -⟩ <;> omega
      · rcases hself with hself | ⟨-, hfused⟩
        · exact heq.imp_left fun heq => by omega
        · exact .inr hfused
    · rw [hother x hxr]
      refine ⟨n, ?_, hpos, hle, heq⟩
      show Function.update m.contextRefCounter _ _ (m.obj x).contextId = _
      rw [Function.update_of_ne fun hid => hxr (h.eq_of_id hx hr hid)]
      exact hn
  dead := by
    intro id hid
    have hne : id ≠ (m.obj r).contextId := by
      rintro rfl
      have hnone : m.contexts (m.obj r).contextId = none := hid
      rw [show m.contexts (m.obj r).contextId = some r from hr] at hnone
      simp at hnone
    show Function.update m.contextRefCounter _ _ id = none ∨
      Function.update m.contextRefCounter _ _ id = some 0
    rw [Function.update_of_ne hne]
    exact h.dead id hid

/-- A reference for a cached context. -/
lemma Sound.addRef {cs : List ContextRef} {r : ContextRef} (h : m.Sound (cs :: held) entries)
    (hr : m.Live r) (hb : m.Branch (cs ++ [r])) (hdup : r ∉ cs ∨ m.Fused r) :
    (m.addRefCounter r).Sound ((cs ++ [r]) :: held) entries := by
  refine h.bump hr ?_ ?_ h.entries_live (fun x hx => ?_) ?_
  · rw [List.forall_mem_cons]
    refine ⟨fun x hx => ?_, fun cs' hcs' => h.held_live cs' (List.mem_cons_of_mem _ hcs')⟩
    rcases List.mem_append.mp hx with hx | hx
    · exact h.held_live cs List.mem_cons_self x hx
    · exact List.mem_singleton.mp hx ▸ hr
  · exact List.forall_mem_cons.mpr
      ⟨hb, fun cs' hcs' => h.held_branch cs' (List.mem_cons_of_mem _ hcs')⟩
  · have hmem : x ∈ cs ++ [r] ↔ x ∈ cs := by simp [hx]
    simp only [holders_cons, hmem]
  · rw [holders_cons, holders_cons, if_pos (by simp)]
    by_cases hmem : r ∈ cs
    · rw [if_pos hmem]
      exact .inr ⟨rfl, hdup.resolve_left fun hno => hno hmem⟩
    · rw [if_neg hmem]
      exact .inl rfl

/-! ## `_new_context` and `_fork_context` -/

/-- `m'` is `m` with one context more, `m.next`, under a free id. -/
structure Adds (m : ServeCoreContextManager) (id e : ℕ) (parent : Option ContextRef)
    (m' : ServeCoreContextManager) : Prop where
  free : m.contexts id = none
  lt_next : ∀ x r, m.contexts x = some r → r < m.next
  obj : m'.obj = Function.update m.obj m.next
    { contextId := id, engine := e, parentContext := parent }
  next : m'.next = m.next + 1
  contexts : m'.contexts = Function.update m.contexts id (some m.next)
  counter : m'.contextRefCounter = Function.update m.contextRefCounter id (some 1)
  pool : m'.contextIdPool.Owns {x | (m'.contexts x).isSome = true}
  poolSize : m'.contextIdPool.poolSize = m.contextIdPool.poolSize
  caches : m'.prefixCaches = m.prefixCaches
  constants : m'.constantPrefixContexts = m.constantPrefixContexts

/-- That is what `_new_context` and `_fork_context` do, when ids and counters are in order. -/
lemma adds_of_createContext {parent : Option ContextRef} {r : ContextRef}
    (hok : m.createContext e parent = .ok (r, m'))
    (hpool : m.contextIdPool.Owns {x | (m.contexts x).isSome = true})
    (hlt : ∀ x r, m.contexts x = some r → r < m.next)
    (hdead : ∀ x, m.contexts x = none →
      m.contextRefCounter x = none ∨ m.contextRefCounter x = some 0) :
    r = m.next ∧ ∃ id, m.Adds id e parent m' := by
  unfold createContext at hok
  split at hok
  · cases hok
  · rename_i id pool halloc
    simp only [Except.ok.injEq, Prod.mk.injEq] at hok
    obtain ⟨rfl, rfl⟩ := hok
    obtain ⟨hfresh, howns⟩ := hpool.allocate_ok halloc
    have hnone : m.contexts id = none := by
      simpa using hfresh
    have hzero : (m.contextRefCounter id).getD 0 = 0 := by
      rcases hdead id hnone with h0 | h0 <;> rw [h0] <;> rfl
    have hsize := RecyclePool.allocate_poolSize m.contextIdPool
    rw [halloc] at hsize
    refine ⟨rfl, id, hnone, hlt, rfl, rfl, rfl, ?_, howns.mono fun x hx => ?_, hsize, rfl, rfl⟩
    · simp [addRefCounter, hzero]
    · change (Function.update m.contexts id (some m.next) x).isSome = true at hx
      rw [Function.update_apply] at hx
      split_ifs at hx with hid
      · exact .inl hid
      · exact .inr hx

namespace Adds

variable {id : ℕ} {parent : Option ContextRef} {cs : List ContextRef} {r : ContextRef}

lemma self (h : m.Adds id e parent m') :
    m'.obj m.next = { contextId := id, engine := e, parentContext := parent } := by
  rw [h.obj, Function.update_self]

lemma other (h : m.Adds id e parent m') (hr : r < m.next) : m'.obj r = m.obj r := by
  rw [h.obj, Function.update_of_ne (Nat.ne_of_lt hr)]

lemma live_lt (h : m.Adds id e parent m') (hr : m.Live r) : r < m.next :=
  h.lt_next _ r hr

lemma id_ne (h : m.Adds id e parent m') (hr : m.Live r) : (m.obj r).contextId ≠ id := by
  intro hid
  rw [Live, hid, h.free] at hr
  cases hr

lemma new (h : m.Adds id e parent m') : m'.Live m.next := by
  rw [Live, h.self, h.contexts, Function.update_self]

lemma live (h : m.Adds id e parent m') (hr : m.Live r) : m'.Live r := by
  rw [Live, h.other (h.live_lt hr), h.contexts, Function.update_of_ne (h.id_ne hr)]
  exact hr

/-- A context under an id is the new one, or was there. -/
lemma cases_of_contexts (h : m.Adds id e parent m') {x : ℕ} (hx : m'.contexts x = some r) :
    (x = id ∧ r = m.next) ∨ (r < m.next ∧ m.contexts x = some r) := by
  rw [h.contexts, Function.update_apply] at hx
  split_ifs at hx with hid
  · exact .inl ⟨hid, (Option.some.inj hx).symm⟩
  · exact .inr ⟨h.lt_next x r hx, hx⟩

lemma cases_of_live (h : m.Adds id e parent m') (hr : m'.Live r) :
    r = m.next ∨ (r < m.next ∧ m.Live r) := by
  rcases h.cases_of_contexts hr with ⟨-, hr⟩ | ⟨hlt, hr⟩
  · exact .inl hr
  · rw [h.other hlt] at hr
    exact .inr ⟨hlt, hr⟩

lemma key_iff (h : m.Adds id e parent m') (hr : r < m.next) (l : List VarId) :
    m'.Key r l ↔ m.Key r l := by
  rw [Key, Key, h.other hr, reversed, reversed, h.caches]

lemma id_eq (h : m.Adds id e parent m')
    (hids : ∀ x r, m.contexts x = some r → (m.obj r).contextId = x) :
    ∀ x r, m'.contexts x = some r → (m'.obj r).contextId = x := by
  intro x r hx
  rcases h.cases_of_contexts hx with ⟨rfl, rfl⟩ | ⟨hlt, hx⟩
  · rw [h.self]
  · rw [h.other hlt]
    exact hids x r hx

lemma lt_next' (h : m.Adds id e parent m') : ∀ x r, m'.contexts x = some r → r < m'.next := by
  intro x r hx
  rw [h.next]
  rcases h.cases_of_contexts hx with ⟨-, rfl⟩ | ⟨hlt, -⟩
  · exact Nat.lt_succ_self _
  · exact Nat.lt_succ_of_lt hlt

/-- The new context joins the list `cs`. -/
lemma held_live (h : m.Adds id e parent m') (hheld : ∀ cs' ∈ cs :: held, ∀ x ∈ cs', m.Live x) :
    ∀ cs' ∈ (cs ++ [m.next]) :: held, ∀ x ∈ cs', m'.Live x := by
  rw [List.forall_mem_cons]
  refine ⟨fun x hx => ?_, fun cs' hcs' x hx =>
    h.live (hheld cs' (List.mem_cons_of_mem _ hcs') x hx)⟩
  rcases List.mem_append.mp hx with hx | hx
  · exact h.live (hheld cs List.mem_cons_self x hx)
  · exact List.mem_singleton.mp hx ▸ h.new

/-- It is held by that list alone. -/
lemma holders_new (h : m.Adds id e parent m')
    (hheld : ∀ cs' ∈ cs :: held, ∀ x ∈ cs', m.Live x) (hentries : ∀ x ∈ entries, m.Live x) :
    holders ((cs ++ [m.next]) :: held) entries m.next = 1 := by
  have hzero : holders held entries m.next = 0 :=
    holders_eq_zero
      (fun cs' hcs' hmem =>
        Nat.lt_irrefl _ (h.live_lt (hheld cs' (List.mem_cons_of_mem _ hcs') _ hmem)))
      fun hmem => Nat.lt_irrefl _ (h.live_lt (hentries _ hmem))
  rw [holders_cons, hzero, if_pos (by simp)]

lemma holders_old (hr : r ≠ m.next) :
    holders ((cs ++ [m.next]) :: held) entries r = holders (cs :: held) entries r := by
  have hmem : r ∈ cs ++ [m.next] ↔ r ∈ cs := by simp [hr]
  simp only [holders_cons, hmem]

lemma counter_new (h : m.Adds id e parent m') :
    m'.contextRefCounter (m'.obj m.next).contextId = some 1 := by
  rw [h.self, h.counter, Function.update_self]

lemma counter_old (h : m.Adds id e parent m') (hr : m.Live r) :
    m'.contextRefCounter (m'.obj r).contextId = m.contextRefCounter (m.obj r).contextId := by
  rw [h.other (h.live_lt hr), h.counter, Function.update_of_ne (h.id_ne hr)]

lemma dead (h : m.Adds id e parent m') (hdead : ∀ x, m.contexts x = none →
      m.contextRefCounter x = none ∨ m.contextRefCounter x = some 0) :
    ∀ x, m'.contexts x = none →
      m'.contextRefCounter x = none ∨ m'.contextRefCounter x = some 0 := by
  intro x hx
  rw [h.contexts, Function.update_apply] at hx
  split_ifs at hx with hid
  rw [h.counter, Function.update_of_ne hid]
  exact hdead x hx

end Adds

/-- The manager after a context was created. -/
structure Created (m : ServeCoreContextManager) (e : ℕ) (parent : Option ContextRef)
    (m' : ServeCoreContextManager) : Prop where
  keeps : m.Keeps m'
  next : m'.next = m.next + 1
  engine : (m'.obj m.next).engine = e
  parent : (m'.obj m.next).parentContext = parent
  new : m'.Live m.next
  live : ∀ r, m.Live r → m'.Live r
  caches : m'.prefixCaches = m.prefixCaches
  constants : m'.constantPrefixContexts = m.constantPrefixContexts
  unnamed : ∀ l, ¬ m'.Key m.next l

lemma Adds.created {id : ℕ} {parent : Option ContextRef} (ha : m.Adds id e parent m')
    (h : m.Sound held entries) : m.Created e parent m' where
  keeps := ⟨ha.next.symm ▸ Nat.le_succ _, fun _ hr => ha.other hr,
    fun _ hr hl => ((ha.cases_of_live hl).resolve_left (Nat.ne_of_lt hr)).2,
    fun _ hr _ l => ha.key_iff hr l, fun _ he => by rwa [ha.caches]⟩
  next := ha.next
  engine := by rw [ha.self]
  parent := by rw [ha.self]
  new := ha.new
  live _ hr := ha.live hr
  caches := ha.caches
  constants := ha.constants
  unnamed l hl := by
    rw [Key, ha.self, reversed, ha.caches] at hl
    obtain ⟨r, -, hr, -⟩ := h.caches.own e id _ hl
    rw [ha.free] at hr
    cases hr

/-- The caches do not know the new context. -/
lemma Adds.cachesSound {id : ℕ} {parent : Option ContextRef} (ha : m.Adds id e parent m')
    (h : m.Sound held entries) : m'.CachesSound := by
  have hcached : ∀ e l, m'.cached e l = m.cached e l := fun e l => by
    rw [cached, cached, ha.caches]
  have hreversed : ∀ e id, m'.reversed e id = m.reversed e id := fun e id => by
    rw [reversed, reversed, ha.caches]
  refine ⟨by rw [ha.caches]; exact h.caches.entry, fun e' id' h' hrev => ?_, fun e' l id' => ?_⟩
  · rw [hreversed] at hrev
    obtain ⟨r, l, hr, he, hne, heq, hc, hplaced⟩ := h.caches.own e' id' h' hrev
    have hlt := h.lt_next id' r hr
    have hid' : id' ≠ id := fun hid => by
      rw [hid, ha.free] at hr
      cases hr
    refine ⟨r, l, ?_, by rw [ha.other hlt, he], hne, heq, (hcached e' l).trans hc,
      hplaced.congr (ha.other hlt) (fun _ _ hc => (hcached _ _).trans hc) fun p hp hpl l' hk => ?_⟩
    · rw [ha.contexts, Function.update_of_ne hid']
      exact hr
    · exact ⟨ha.other (h.live_lt hpl), ha.live hpl, (ha.key_iff (h.live_lt hpl) l').mpr hk⟩
  · simp only [hcached, hreversed]
    exact h.caches.stale e' l id'

/-- A new context, for a task that has the contexts `cs` so far. -/
lemma Sound.create {cs : List ContextRef} {parent : Option ContextRef}
    (h : m.Sound (cs :: held) entries) (hreg : (m.prefixCaches e).isSome = true)
    (hparent : (cs = [] ∧ parent = none) ∨
      ∃ last, cs.getLast? = some last ∧ parent = some last ∧ (m.obj last).engine = e) :
    ∃ m', m.createContext e parent = .ok (m.next, m') ∧ m.Created e parent m' ∧
      m'.Sound ((cs ++ [m.next]) :: held) entries := by
  obtain ⟨id, pool, halloc⟩ := RecyclePool.allocate_unbounded h.unbounded
  obtain ⟨m', hok⟩ : ∃ m', m.createContext e parent = .ok (m.next, m') := by
    rw [createContext, halloc]
    exact ⟨_, rfl⟩
  obtain ⟨-, id, ha⟩ := adds_of_createContext hok h.pool h.lt_next h.dead
  have hparentOf : ∀ p, parent = some p → m.Live p ∧ (m.obj p).engine = e := by
    intro p hp
    rcases hparent with ⟨-, h0⟩ | ⟨last, hlast, hp', he⟩
    · rw [h0] at hp
      cases hp
    · obtain rfl : last = p := Option.some.inj (hp'.symm.trans hp)
      exact ⟨h.held_live cs List.mem_cons_self _ (List.mem_of_getLast? hlast), he⟩
  have hbranch : ∀ cs' ∈ cs :: held, m'.Branch cs' := fun cs' hcs' =>
    (h.held_branch cs' hcs').congr fun x hx => ha.other (h.live_lt (h.held_live cs' hcs' x hx))
  refine ⟨m', hok, ha.created h, ha.pool, ha.poolSize.trans h.unbounded, ha.id_eq h.id_eq,
    ha.lt_next', ?_, ?_, ?_, ha.cachesSound h, ha.held_live h.held_live, ?_, ?_, ?_,
    ha.dead h.dead⟩
  · intro r p hr hp
    rcases ha.cases_of_live hr with rfl | ⟨hlt, hr⟩
    · rw [ha.self] at hp
      exact h.live_lt (hparentOf p hp).1
    · rw [ha.other hlt] at hp
      exact h.parent_lt r p hr hp
  · intro r p hr hp
    rcases ha.cases_of_live hr with rfl | ⟨hlt, hr⟩
    · rw [ha.self] at hp ⊢
      rw [ha.other (h.live_lt (hparentOf p hp).1)]
      exact (hparentOf p hp).2
    · rw [ha.other hlt] at hp ⊢
      rw [ha.other (Nat.lt_trans (h.parent_lt r p hr hp) hlt)]
      exact h.parent_engine r p hr hp
  · intro r hr
    rw [ha.caches]
    rcases ha.cases_of_live hr with rfl | ⟨hlt, hr⟩
    · rw [ha.self]
      exact hreg
    · rw [ha.other hlt]
      exact h.registered r hr
  · refine List.forall_mem_cons.mpr ⟨(hbranch cs List.mem_cons_self).concat ?_,
      fun cs' hcs' => hbranch cs' (List.mem_cons_of_mem _ hcs')⟩
    rw [ha.self]
    rcases hparent with hparent | ⟨last, hlast, hp, -⟩
    · exact .inl hparent
    · exact .inr ⟨last, hlast, .inr hp⟩
  · intro r hr
    obtain ⟨hl, hp⟩ := h.entries_live r hr
    exact ⟨ha.live hl, by rw [ha.other (h.live_lt hl), hp]⟩
  · intro r hr
    rcases ha.cases_of_live hr with rfl | ⟨hlt, hr⟩
    · rw [ha.counter_new, ha.holders_new h.held_live fun x hx => (h.entries_live x hx).1]
      exact ⟨1, rfl, by omega, by omega, .inl rfl⟩
    · rw [ha.counter_old hr, Adds.holders_old (Nat.ne_of_lt hlt)]
      obtain ⟨n, hn, hpos, hle, heq⟩ := h.counter r hr
      refine ⟨n, hn, hpos, hle, heq.imp_right fun hf => ⟨by rw [ha.other hlt]; exact hf.1, ?_⟩⟩
      obtain ⟨l, hl, hk⟩ := hf.2
      exact ⟨l, hl, (ha.key_iff hlt l).mpr hk⟩

/-! ## Constant prefixes -/

/-- The contexts under constant-prefix variables, with repetitions. -/
def constantEntries (m : ServeCoreContextManager) : List ContextRef :=
  m.constantPrefixContexts.flatMap Prod.snd

/-- A dictionary has each key once. -/
def KeysNodup (m : ServeCoreContextManager) : Prop :=
  (m.constantPrefixContexts.map Prod.fst).Nodup

section Dict

variable {d : List (VarId × List ContextRef)} {v : VarId}

lemma map_append_entry_perm (r : ContextRef) (hd : (d.map Prod.fst).Nodup)
    (hv : v ∈ d.map Prod.fst) :
    ((d.map fun en => if en.1 = v then (en.1, en.2 ++ [r]) else en).flatMap Prod.snd).Perm
      (r :: d.flatMap Prod.snd) := by
  induction d with
  | nil => simp at hv
  | cons en d ih =>
      rw [List.map_cons, List.nodup_cons] at hd
      rw [List.map_cons, List.mem_cons] at hv
      rw [List.map_cons, List.flatMap_cons, List.flatMap_cons]
      by_cases hen : en.1 = v
      · have hrest : (d.map fun en => if en.1 = v then (en.1, en.2 ++ [r]) else en) = d := by
          refine (List.map_congr_left fun en' hen' => if_neg fun he => ?_).trans (List.map_id d)
          exact hd.1 (hen ▸ he ▸ List.mem_map_of_mem hen')
        rw [hrest, if_pos hen]
        exact ((List.perm_append_singleton r en.2).append_right _)
      · rw [if_neg hen]
        exact ((ih hd.2 (hv.resolve_left fun he => hen he.symm)).append_left _).trans
          List.perm_middle

lemma filter_entry_perm {rs : List ContextRef} (hd : (d.map Prod.fst).Nodup)
    (hv : d.lookup v = some rs) :
    (d.flatMap Prod.snd).Perm
      (rs ++ (d.filter fun en => decide (en.1 ≠ v)).flatMap Prod.snd) := by
  induction d with
  | nil => simp at hv
  | cons en d ih =>
      obtain ⟨k, l⟩ := en
      rw [List.map_cons, List.nodup_cons] at hd
      rw [List.lookup_cons] at hv
      rw [List.flatMap_cons]
      by_cases hk : v = k
      · have hrest : (d.filter fun en => decide (en.1 ≠ v)) = d := by
          refine List.filter_eq_self.mpr fun en hen => ?_
          rw [decide_eq_true_eq]
          intro he
          have hmem : en.1 ∈ d.map Prod.fst := List.mem_map_of_mem hen
          exact hd.1 (hk ▸ he ▸ hmem)
        rw [beq_iff_eq.mpr hk] at hv
        obtain rfl : l = rs := Option.some.inj hv
        rw [List.filter_cons_of_neg (by simp [hk]), hrest]
      · rw [beq_false_of_ne hk] at hv
        rw [List.filter_cons_of_pos (by simpa using fun he => hk he.symm), List.flatMap_cons]
        exact ((ih hd.2 hv).append_left l).trans (List.perm_append_comm_assoc _ _ _)

/-- The dictionary with an entry for the variable. -/
def withKey (d : List (VarId × List ContextRef)) (v : VarId) : List (VarId × List ContextRef) :=
  if (d.lookup v).isSome then d else d ++ [(v, [])]

lemma isSome_lookup_iff (d : List (VarId × List ContextRef)) (v : VarId) :
    (d.lookup v).isSome = true ↔ v ∈ d.map Prod.fst := by
  rw [List.lookup_isSome_iff, List.mem_map]
  refine ⟨fun ⟨en, hen, he⟩ => ⟨en, hen, (eq_of_beq he).symm⟩, fun ⟨en, hen, he⟩ => ⟨en, hen, ?_⟩⟩
  exact beq_iff_eq.mpr he.symm

lemma withKey_spec (hd : (d.map Prod.fst).Nodup) (v : VarId) :
    ((withKey d v).map Prod.fst).Nodup ∧ v ∈ (withKey d v).map Prod.fst ∧
      (withKey d v).flatMap Prod.snd = d.flatMap Prod.snd := by
  have hlookup := isSome_lookup_iff d v
  rw [withKey]
  by_cases hv : (d.lookup v).isSome = true
  · rw [if_pos hv]
    exact ⟨hd, hlookup.mp hv, rfl⟩
  · rw [if_neg hv, List.map_append, List.flatMap_append]
    refine ⟨List.nodup_append.mpr ⟨hd, List.nodup_singleton v, ?_⟩, by simp, by simp⟩
    rintro a ha b hb rfl
    obtain rfl : a = v := List.mem_singleton.mp hb
    exact hv (hlookup.mpr ha)

lemma keys_map_append_entry (r : ContextRef) (hd : (d.map Prod.fst).Nodup) :
    ((d.map fun en => if en.1 = v then (en.1, en.2 ++ [r]) else en).map Prod.fst).Nodup := by
  rw [List.map_map, List.map_congr_left (g := Prod.fst)]
  · exact hd
  · intro en _
    rw [Function.comp_apply]
    split_ifs <;> rfl

end Dict

/-- The manager after an entry was made under a constant-prefix variable. -/
structure EntryAdded (m : ServeCoreContextManager) (r : ContextRef)
    (m' : ServeCoreContextManager) : Prop where
  keeps : m.Keeps m'
  obj : m'.obj = m.obj
  next : m'.next = m.next
  contexts : m'.contexts = m.contexts
  caches : m'.prefixCaches = m.prefixCaches
  entries : m'.constantEntries.Perm (r :: m.constantEntries)
  keys : m'.KeysNodup

/-- A new context of a constant-prefix variable. -/
lemma Sound.addConstantPrefix {v : VarId} {r : ContextRef} (h : m.Sound held entries)
    (hr : m.Live r) (hp : (m.obj r).parentContext = none) (hkeys : m.KeysNodup)
    (hnew : r ∉ m.constantEntries) :
    ∃ m', m.addConstantPrefix v r = .ok m' ∧ m.EntryAdded r m' ∧
      m'.Sound held (r :: entries) := by
  set d := withKey m.constantPrefixContexts v with hd
  have hdkeys : (d.map Prod.fst).Nodup ∧ v ∈ d.map Prod.fst ∧
      d.flatMap Prod.snd = m.constantEntries := withKey_spec hkeys v
  have hassert : r ∉ (d.lookup v).getD [] := by
    intro hmem
    cases hl : d.lookup v with
    | none => simp [hl] at hmem
    | some rs =>
        rw [hl] at hmem
        have hin : r ∈ d.flatMap Prod.snd :=
          (filter_entry_perm hdkeys.1 hl).mem_iff.mpr (List.mem_append_left _ hmem)
        exact hnew (hdkeys.2.2 ▸ hin)
  have hbump : (m.addRefCounter r).Sound held (r :: entries) := h.bump hr h.held_live h.held_branch
    (List.forall_mem_cons.mpr ⟨⟨hr, hp⟩, h.entries_live⟩)
    (fun x hx => by rw [holders_entry, if_neg hx.symm, Nat.add_zero])
    (.inl (by rw [holders_entry, if_pos rfl]))
  refine ⟨addRefCounter { m with constantPrefixContexts :=
      (d.map fun en => if en.1 = v then (en.1, en.2 ++ [r]) else en) } r, ?_, ?_, ?_⟩
  · have hassert' : parrotAssert (decide (r ∉ (d.lookup v).getD []))
        "Context should not be in the ref map." = .ok () := by
      rw [decide_eq_true hassert]
      rfl
    rw [ServeCoreContextManager.addConstantPrefix]
    dsimp only
    rw [← withKey, ← hd, hassert']
    rfl
  · refine ⟨⟨Nat.le_refl _, fun _ _ => rfl, fun _ _ h => h, fun _ _ _ _ => Iff.rfl,
      fun _ h => h⟩, rfl, rfl, rfl, rfl, ?_, ?_⟩
    · exact (map_append_entry_perm r hdkeys.1 hdkeys.2.1).trans (.cons _ (.of_eq hdkeys.2.2))
    · exact keys_map_append_entry r hdkeys.1
  · exact ⟨hbump.pool, hbump.unbounded, hbump.id_eq, hbump.lt_next, hbump.parent_lt,
      hbump.parent_engine, hbump.registered,
      ⟨hbump.caches.entry, hbump.caches.own, hbump.caches.stale⟩, hbump.held_live,
      hbump.held_branch, hbump.entries_live, hbump.counter, hbump.dead⟩

/-! ## `cache_prefix_context` -/

/-- The manager after the context `r` was cached for `l`. -/
structure Named (m : ServeCoreContextManager) (e : ℕ) (r : ContextRef) (l : List VarId)
    (m' : ServeCoreContextManager) : Prop where
  obj : m'.obj = m.obj
  next : m'.next = m.next
  contexts : m'.contexts = m.contexts
  counter : m'.contextRefCounter = m.contextRefCounter
  pool : m'.contextIdPool = m.contextIdPool
  constants : m'.constantPrefixContexts = m.constantPrefixContexts
  registered : ∀ e, (m'.prefixCaches e).isSome = (m.prefixCaches e).isSome
  entry : ∀ e' c h id, m'.prefixCaches e' = some c → c.prefixCtxMap h = some id →
    (e' = e ∧ h = hashPrefix l) ∨
      ∃ c', m.prefixCaches e' = some c' ∧ c'.prefixCtxMap h = some id
  cached : ∀ e' l', m'.cached e' l' =
    if e' = e ∧ l' = l then some (m.obj r).contextId else m.cached e' l'
  reversed : ∀ e' id, m'.reversed e' id =
    if e' = e ∧ id = (m.obj r).contextId then some (hashPrefix l) else m.reversed e' id

/-- Caching a hash that is not in the cache. -/
lemma cachePrefix_ok {r : ContextRef} {l : List VarId} (hreg : (m.prefixCaches e).isSome = true)
    (hnone : m.cached e l = none) :
    ∃ m', m.cachePrefix e (hashPrefix l) (m.obj r).contextId = .ok m' ∧ m.Named e r l m' := by
  obtain ⟨c, hc⟩ := Option.isSome_iff_exists.mp hreg
  have hmap : c.prefixCtxMap (hashPrefix l) = none := by
    rw [ServeCoreContextManager.cached, hc] at hnone
    exact hnone
  have hcaches : ∀ c' e', Function.update m.prefixCaches e (some c') e' =
      if e' = e then some c' else m.prefixCaches e' := fun c' e' => Function.update_apply _ _ _ _
  refine ⟨{ m with prefixCaches := Function.update m.prefixCaches e (some {
      prefixCtxMap := Function.update c.prefixCtxMap (hashPrefix l) (some (m.obj r).contextId)
      prefixCtxMapReversed :=
        Function.update c.prefixCtxMapReversed (m.obj r).contextId (some (hashPrefix l)) }) },
    ?_, rfl, rfl, rfl, rfl, rfl, rfl, fun e' => ?_, fun e' c' h id hc' hh => ?_, fun e' l' => ?_,
    fun e' id => ?_⟩
  · simp only [cachePrefix, hc, PrefixCache.cachePrefixContext, hmap]
    rfl
  · dsimp only
    rw [hcaches]
    split_ifs with he
    · rw [he, hc]
      rfl
    · rfl
  · dsimp only at hc'
    rw [hcaches] at hc'
    split_ifs at hc' with he
    · obtain rfl := Option.some.inj hc'
      dsimp only at hh
      rw [Function.update_apply] at hh
      split_ifs at hh with hl
      · exact .inl ⟨he, hl⟩
      · exact .inr ⟨c, he ▸ hc, hh⟩
    · exact .inr ⟨c', hc', hh⟩
  · rw [ServeCoreContextManager.cached]
    dsimp only
    rw [hcaches]
    by_cases he : e' = e
    · rw [if_pos he, ServeCoreContextManager.cached, he, hc]
      show Function.update c.prefixCtxMap _ _ _ = if _ then _ else c.prefixCtxMap _
      rw [Function.update_apply]
      simp
    · rw [if_neg he, if_neg fun h => he h.1]
      rfl
  · rw [ServeCoreContextManager.reversed]
    dsimp only
    rw [hcaches]
    by_cases he : e' = e
    · rw [if_pos he, ServeCoreContextManager.reversed, he, hc]
      show Function.update c.prefixCtxMapReversed _ _ _ = if _ then _ else c.prefixCtxMapReversed _
      rw [Function.update_apply]
      simp
    · rw [if_neg he, if_neg fun h => he h.1]
      rfl

lemma Named.live_iff {r : ContextRef} {l : List VarId} (hn : m.Named e r l m') (x : ContextRef) :
    m'.Live x ↔ m.Live x := by
  rw [Live, hn.obj, hn.contexts]
  exact Iff.rfl

/-- The keys after a context was cached. -/
lemma Named.key_iff {r : ContextRef} {l : List VarId} (hn : m.Named e r l m')
    (hs : m.Sound held entries) (hr : m.Live r) (he : (m.obj r).engine = e) {x : ContextRef}
    (hx : m.Live x) (l' : List VarId) : m'.Key x l' ↔ if x = r then l' = l else m.Key x l' := by
  rw [Key, hn.obj, hn.reversed]
  by_cases hxr : x = r
  · rw [if_pos hxr, hxr, if_pos ⟨he, rfl⟩, Option.some.injEq, hashPrefix_inj, eq_comm]
  · rw [if_neg hxr, if_neg fun h => hxr (hs.eq_of_id hx hr h.2)]
    exact Iff.rfl

/-- What a context must be to be cached for `l`: new in the forest, or a root without children
whose key is extended. -/
structure Nameable (m : ServeCoreContextManager) (e : ℕ) (r : ContextRef) (l : List VarId) :
    Prop where
  live : m.Live r
  engine : (m.obj r).engine = e
  uncached : m.cached e l = none
  childless : ∀ c, m.Live c → (m.obj c).parentContext ≠ some r
  place : (∃ v, l = [v] ∧ (m.obj r).parentContext = none ∧ ∀ l', ¬ m.Key r l') ∨
    (∃ l' v, l = l' ++ [v] ∧ (m.obj r).parentContext = none ∧ m.Key r l') ∨
    ∃ p l' v, l = l' ++ [v] ∧ l' ≠ [] ∧ (m.obj r).parentContext = some p ∧ m.Live p ∧
      (m.obj p).engine = e ∧ m.Key p l' ∧ ∀ l'', ¬ m.Key r l''

lemma Nameable.ne_nil {r : ContextRef} {l : List VarId} (ha : m.Nameable e r l) : l ≠ [] := by
  rcases ha.place with ⟨v, rfl, -⟩ | ⟨l', v, rfl, -⟩ | ⟨p, l', v, rfl, -⟩ <;> simp

/-- The own cached list of the context is the one that is extended, and it is a root's. -/
lemma Nameable.extends {r : ContextRef} {l l' : List VarId} (ha : m.Nameable e r l)
    (hk : m.Key r l') : ∃ v, l = l' ++ [v] ∧ (m.obj r).parentContext = none := by
  rcases ha.place with ⟨v, -, -, hno⟩ | ⟨l'', v, rfl, hp, hk'⟩ | ⟨p, l'', v, -, -, -, -, -, -, hno⟩
  · exact absurd hk (hno l')
  · obtain rfl := hk.unique hk'
    exact ⟨v, rfl, hp⟩
  · exact absurd hk (hno l')

/-- What was cached stays cached. -/
lemma Named.cached_of_cached {r : ContextRef} {l : List VarId} (hn : m.Named e r l m')
    (hnone : m.cached e l = none) {e' : ℕ} {l' : List VarId} {id : ℕ}
    (hc : m.cached e' l' = some id) : m'.cached e' l' = some id := by
  rw [hn.cached, if_neg]
  · exact hc
  · rintro ⟨rfl, rfl⟩
    rw [hnone] at hc
    simp at hc

/-- The cached context has its place in the forest. -/
lemma Sound.named_placed {r : ContextRef} {l : List VarId} (h : m.Sound held entries)
    (ha : m.Nameable e r l) (hn : m.Named e r l m') : m'.Placed r l := by
  rcases ha.place with ⟨v, rfl, hp, -⟩ | ⟨l', v, rfl, hp, hk⟩ |
    ⟨p, l', v, rfl, hl', hp, hpl, hpe, hpk, -⟩
  · rw [Placed, hn.obj, hp]
    intro l' hl' hpre
    have hlen := hpre.length_le
    have hpos := List.length_pos_iff.mpr hl'
    obtain rfl : l' = [v] := hpre.eq_of_length (by simp at hlen ⊢; omega)
    rw [hn.cached, if_pos ⟨ha.engine, rfl⟩]
  · rw [Placed, hn.obj, hp]
    intro l'' hl'' hpre
    by_cases heq : l'' = l' ++ [v]
    · rw [heq, hn.cached, if_pos ⟨ha.engine, rfl⟩]
    · have hpl := (h.key_spec ha.live hk).2.2
      rw [Placed, hp] at hpl
      refine hn.cached_of_cached ha.uncached (hpl l'' hl'' ?_)
      exact (List.prefix_concat_iff.mp hpre).resolve_left heq
  · rw [Placed, hn.obj, hp]
    refine ⟨l', v, rfl, hl', (hn.live_iff p).mpr hpl, hpe.trans ha.engine.symm, ?_⟩
    have hpr : p ≠ r := Nat.ne_of_lt (h.parent_lt r p ha.live hp)
    rw [hn.key_iff h ha.live ha.engine hpl, if_neg hpr]
    exact hpk

/-- Caching keeps the caches.  An entry is stale because it was, or because the key of the root
moved on. -/
lemma Sound.named_caches {r : ContextRef} {l : List VarId} (h : m.Sound held entries)
    (ha : m.Nameable e r l) (hn : m.Named e r l m') : m'.CachesSound := by
  have hcached {e' : ℕ} {l' : List VarId} {id : ℕ} (hc : m.cached e' l' = some id) :
      m'.cached e' l' = some id := hn.cached_of_cached ha.uncached hc
  refine ⟨?_, ?_, ?_⟩
  · intro e' c h' id hc hh
    rcases hn.entry e' c h' id hc hh with ⟨-, rfl⟩ | ⟨c', hc', hh'⟩
    · exact ⟨l, ha.ne_nil, rfl⟩
    · exact h.caches.entry e' c' h' id hc' hh'
  · intro e' id h' hrev
    rw [hn.reversed] at hrev
    split_ifs at hrev with hcase
    · obtain ⟨rfl, rfl⟩ := hcase
      obtain rfl := Option.some.inj hrev
      refine ⟨r, l, ?_, by rw [hn.obj]; exact ha.engine, ha.ne_nil, rfl, ?_, h.named_placed ha hn⟩
      · rw [hn.contexts]
        exact ha.live
      · rw [hn.cached, if_pos ⟨rfl, rfl⟩]
    · obtain ⟨x, l', hx, he, hl', heq, hc, hp⟩ := h.caches.own e' id h' hrev
      have hxl := h.live_of_contexts hx
      refine ⟨x, l', hn.contexts ▸ hx, by rw [hn.obj]; exact he, hl', heq, hcached hc,
        hp.congr (by rw [hn.obj]) (fun _ _ hc => hcached hc) fun p hpar hpl l'' hk => ?_⟩
      have hpr : p ≠ r := fun heq => ha.childless x hxl (heq ▸ hpar)
      refine ⟨by rw [hn.obj], (hn.live_iff p).mpr hpl, ?_⟩
      rw [hn.key_iff h ha.live ha.engine hpl, if_neg hpr]
      exact hk
  · intro e' l₂ id hc hrev l₁ hl₁ hpre
    rw [hn.cached] at hc
    split_ifs at hc with hcase
    · obtain rfl := Option.some.inj hc
      rw [hn.reversed, if_pos ⟨hcase.1, rfl⟩, hcase.2] at hrev
      exact absurd rfl hrev
    by_cases hold : m.reversed e' id = some (hashPrefix l₂)
    · rw [hn.reversed] at hrev
      split_ifs at hrev with hid
      · obtain ⟨rfl, rfl⟩ := hid
        have hk : m.Key r l₂ := by
          rw [Key, ha.engine]
          exact hold
        obtain ⟨v, rfl, hp⟩ := ha.extends hk
        have hpl := (h.key_spec ha.live hk).2.2
        rw [Placed, hp, ha.engine] at hpl
        refine ⟨_, hcached (hpl l₁ hl₁ hpre), ?_⟩
        rw [hn.reversed, if_pos ⟨rfl, rfl⟩, Ne, Option.some.injEq, hashPrefix_inj]
        rintro rfl
        have hlen := hpre.length_le
        rw [List.length_append, List.length_singleton] at hlen
        omega
      · exact absurd hold hrev
    · obtain ⟨id', hid', hno⟩ := h.caches.stale e' l₂ id hc hold l₁ hl₁ hpre
      refine ⟨id', hcached hid', ?_⟩
      rw [hn.reversed]
      split_ifs with hcase'
      · rw [Ne, Option.some.injEq, hashPrefix_inj]
        rintro rfl
        rw [hcase'.1, ha.uncached] at hid'
        simp at hid'
      · exact hno

/-- A root that was cached for more than one prefix stays one. -/
lemma Sound.named_fused {r : ContextRef} {l : List VarId} (h : m.Sound held entries)
    (ha : m.Nameable e r l) (hn : m.Named e r l m') {x : ContextRef} (hx : m.Live x)
    (hf : m.Fused x) : m'.Fused x := by
  obtain ⟨hp, l', hlen, hk⟩ := hf
  have hkey := fun l' => hn.key_iff h ha.live ha.engine hx l'
  refine ⟨by rw [hn.obj]; exact hp, ?_⟩
  by_cases hxr : x = r
  · obtain ⟨v, rfl, -⟩ := ha.extends (hxr ▸ hk)
    refine ⟨_, ?_, (hkey _).mpr (by rw [if_pos hxr])⟩
    rw [List.length_append]
    exact Nat.le_add_right_of_le hlen
  · exact ⟨l', hlen, (hkey l').mpr (by rw [if_neg hxr]; exact hk)⟩

/-- Caching keeps the forest. -/
lemma Sound.named {r : ContextRef} {l : List VarId} (h : m.Sound held entries)
    (ha : m.Nameable e r l) (hn : m.Named e r l m') : m'.Sound held entries := by
  refine ⟨hn.pool ▸ hn.contexts ▸ h.pool, hn.pool ▸ h.unbounded, ?_, ?_, ?_, ?_, ?_,
    h.named_caches ha hn, ?_, ?_, ?_, ?_, ?_⟩
  · rw [hn.contexts, hn.obj]
    exact h.id_eq
  · rw [hn.contexts, hn.next]
    exact h.lt_next
  · intro r p hr
    rw [hn.obj]
    exact h.parent_lt r p ((hn.live_iff r).mp hr)
  · intro r p hr
    rw [hn.obj]
    exact h.parent_engine r p ((hn.live_iff r).mp hr)
  · intro r hr
    rw [hn.registered, hn.obj]
    exact h.registered r ((hn.live_iff r).mp hr)
  · intro cs hcs x hx
    exact (hn.live_iff x).mpr (h.held_live cs hcs x hx)
  · exact fun cs hcs => (h.held_branch cs hcs).congr fun _ _ => by rw [hn.obj]
  · intro x hx
    rw [hn.obj]
    exact ⟨(hn.live_iff x).mpr (h.entries_live x hx).1, (h.entries_live x hx).2⟩
  · intro x hx
    have hxl := (hn.live_iff x).mp hx
    obtain ⟨n, hcount, hpos, hle, heq⟩ := h.counter x hxl
    exact ⟨n, by rw [hn.obj, hn.counter]; exact hcount, hpos, hle,
      heq.imp_right (h.named_fused ha hn hxl)⟩
  · rw [hn.contexts, hn.counter]
    exact h.dead

/-- Caching a context that had no key. -/
lemma AllOwn.named {r : ContextRef} {l : List VarId} (h : m.AllOwn) (he : (m.obj r).engine = e)
    (hno : ∀ l', ¬ m.Key r l') (hn : m.Named e r l m') : m'.AllOwn := by
  intro e' l' id hc
  rw [hn.cached] at hc
  rw [hn.reversed]
  split_ifs at hc with hcase
  · rw [if_pos ⟨hcase.1, (Option.some.inj hc).symm⟩, hcase.2]
  · have hrev := h e' l' id hc
    rw [if_neg]
    · exact hrev
    · rintro ⟨rfl, rfl⟩
      exact hno l' (by rw [Key, he]; exact hrev)

/-! ## Dropping a context -/

/-- The references left when one to `r` was taken back. -/
structure Taken (m : ServeCoreContextManager) (held : List (List ContextRef))
    (entries : List ContextRef) (r : ContextRef) (held' : List (List ContextRef))
    (entries' : List ContextRef) : Prop where
  live : ∀ cs ∈ held', ∀ x ∈ cs, m.Live x
  branch : ∀ cs ∈ held', m.Branch cs
  roots : ∀ x ∈ entries', m.Live x ∧ (m.obj x).parentContext = none
  count : ∀ x, holders held' entries' x + (if x = r then 1 else 0) = holders held entries x

/-- A reference that is not the last one. -/
lemma Sound.release {held' : List (List ContextRef)} {entries' : List ContextRef}
    {r : ContextRef} {n : ℤ} (h : m.Sound held entries) (hr : m.Live r)
    (hn : m.contextRefCounter (m.obj r).contextId = some n) (hpos : 0 < n - 1)
    (ht : m.Taken held entries r held' entries') :
    ({ m with contextRefCounter :=
        Function.update m.contextRefCounter (m.obj r).contextId (some (n - 1)) } :
      ServeCoreContextManager).Sound held' entries' where
  pool := h.pool
  unbounded := h.unbounded
  id_eq := h.id_eq
  lt_next := h.lt_next
  parent_lt := h.parent_lt
  parent_engine := h.parent_engine
  registered := h.registered
  caches := ⟨h.caches.entry, h.caches.own, h.caches.stale⟩
  held_live := ht.live
  held_branch := ht.branch
  entries_live := ht.roots
  counter := by
    intro x hx
    obtain ⟨k, hk, hkpos, hle, heq⟩ := h.counter x hx
    have hcount := ht.count x
    by_cases hxr : x = r
    · rw [hxr] at hk hle heq hcount ⊢
      obtain rfl := Option.some.inj (hn.symm.trans hk)
      rw [if_pos rfl] at hcount
      refine ⟨n - 1, ?_, hpos, by omega, heq.imp_left fun heq => by omega⟩
      show Function.update m.contextRefCounter _ _ (m.obj r).contextId = _
      rw [Function.update_self]
    · rw [if_neg hxr, Nat.add_zero] at hcount
      rw [hcount]
      refine ⟨k, ?_, hkpos, hle, heq⟩
      show Function.update m.contextRefCounter _ _ (m.obj x).contextId = _
      rw [Function.update_of_ne fun hid => hxr (h.eq_of_id hx hr hid)]
      exact hk
  dead := by
    intro id hid
    have hne : id ≠ (m.obj r).contextId := by
      rintro rfl
      have hnone : m.contexts (m.obj r).contextId = none := hid
      rw [show m.contexts (m.obj r).contextId = some r from hr] at hnone
      simp at hnone
    show Function.update m.contextRefCounter _ _ id = none ∨
      Function.update m.contextRefCounter _ _ id = some 0
    rw [Function.update_of_ne hne]
    exact h.dead id hid

/-- A context whose last reference is taken back has no child. -/
lemma Sound.childless_of_last {held' : List (List ContextRef)} {entries' : List ContextRef}
    {r : ContextRef} {n : ℤ} (h : m.Sound held entries) (hr : m.Live r)
    (hn : m.contextRefCounter (m.obj r).contextId = some n) (hlast : ¬ 0 < n - 1)
    (ht : m.Taken held entries r held' entries') :
    holders held' entries' r = 0 ∧ ∀ c, m.Live c → (m.obj c).parentContext ≠ some r := by
  have hzero : holders held' entries' r = 0 := by
    obtain ⟨k, hk, -, hle, -⟩ := h.counter r hr
    obtain rfl := Option.some.inj (hn.symm.trans hk)
    have := ht.count r
    rw [if_pos rfl] at this
    omega
  refine ⟨hzero, fun c hc hp => ?_⟩
  have hne : c ≠ r := fun he => Nat.lt_irrefl _ (he ▸ h.parent_lt c r hc hp)
  obtain ⟨k, -, hkpos, -, heq⟩ := h.counter c hc
  have hcount := ht.count c
  rw [if_neg hne, Nat.add_zero] at hcount
  have hpos : 0 < holders held' entries' c := by
    rcases heq with heq | hf
    · omega
    · rw [hf.1] at hp
      simp at hp
  rcases holders_pos hpos with ⟨cs, hcs, hmem⟩ | hmem
  · -- whoever holds the child holds the parent
    have hrcs := (ht.branch cs hcs).parent_mem hmem hp
    have hcountP : 0 < held'.countP fun cs => decide (r ∈ cs) :=
      List.countP_pos_iff.mpr ⟨cs, hcs, by simpa using hrcs⟩
    rw [holders] at hzero
    omega
  · rw [(ht.roots c hmem).2] at hp
    simp at hp

/-- The manager after `r` was dropped. -/
structure Dropped (m : ServeCoreContextManager) (r : ContextRef)
    (m' : ServeCoreContextManager) : Prop where
  obj : m'.obj = m.obj
  next : m'.next = m.next
  constants : m'.constantPrefixContexts = m.constantPrefixContexts
  contexts : m'.contexts = Function.update m.contexts (m.obj r).contextId none
  counter : ∀ id, id ≠ (m.obj r).contextId → m'.contextRefCounter id = m.contextRefCounter id
  counter_self : m'.contextRefCounter (m.obj r).contextId = some 0
  pool : m'.contextIdPool.Owns ({id | (m.contexts id).isSome = true} \ {(m.obj r).contextId})
  unbounded : m'.contextIdPool.poolSize = none
  registered : ∀ e, (m'.prefixCaches e).isSome = (m.prefixCaches e).isSome
  entry : ∀ e c h id, m'.prefixCaches e = some c → c.prefixCtxMap h = some id →
    ∃ c', m.prefixCaches e = some c' ∧ c'.prefixCtxMap h = some id
  cached : ∀ e l, m'.cached e l =
    if e = (m.obj r).engine ∧ m.Key r l then none else m.cached e l
  reversed : ∀ e id, m'.reversed e id =
    if e = (m.obj r).engine ∧ id = (m.obj r).contextId then none else m.reversed e id

lemma Dropped.live_iff {r : ContextRef} (hd : m.Dropped r m') (hs : m.Sound held entries)
    (hr : m.Live r) (x : ContextRef) : m'.Live x ↔ m.Live x ∧ x ≠ r := by
  rw [Live, hd.obj, hd.contexts, Function.update_apply]
  by_cases hid : (m.obj x).contextId = (m.obj r).contextId
  · rw [if_pos hid]
    refine ⟨fun h => by simp at h, fun h => absurd (hs.eq_of_id h.1 hr hid) h.2⟩
  · rw [if_neg hid]
    exact ⟨fun h => ⟨h, fun he => hid (he ▸ rfl)⟩, fun h => h.1⟩

lemma Dropped.key_iff {r : ContextRef} (hd : m.Dropped r m') (hs : m.Sound held entries)
    (hr : m.Live r) {x : ContextRef} (hx : m.Live x) (hne : x ≠ r) (l : List VarId) :
    m'.Key x l ↔ m.Key x l := by
  rw [Key, hd.obj, hd.reversed, if_neg fun h => hne (hs.eq_of_id hx hr h.2)]
  exact Iff.rfl

lemma Dropped.keeps {r : ContextRef} (hd : m.Dropped r m') (hs : m.Sound held entries)
    (hr : m.Live r) : m.Keeps m' where
  next_le := hd.next.ge
  obj x _ := by rw [hd.obj]
  live x _ hx := ((hd.live_iff hs hr x).mp hx).1
  key x _ hx l := by
    obtain ⟨hxl, hne⟩ := (hd.live_iff hs hr x).mp hx
    exact hd.key_iff hs hr hxl hne l
  registered e he := by rw [hd.registered, he]

lemma AllOwn.dropped {r : ContextRef} (h : m.AllOwn) (hd : m.Dropped r m') : m'.AllOwn := by
  intro e l id hc
  rw [hd.cached] at hc
  split_ifs at hc with hcase
  have hrev := h e l id hc
  rw [hd.reversed, if_neg]
  · exact hrev
  · rintro ⟨rfl, rfl⟩
    exact hcase ⟨rfl, hrev⟩

/-- Only the entries of the dropped context go: the others' hashes are not among them. -/
lemma Dropped.cachesSound {r : ContextRef} (hd : m.Dropped r m') (h : m.Sound held entries)
    (hr : m.Live r) (hchild : ∀ c, m.Live c → (m.obj c).parentContext ≠ some r) :
    m'.CachesSound := by
  have hcached : ∀ e l id, m.cached e l = some id → ¬ (e = (m.obj r).engine ∧ m.Key r l) →
      m'.cached e l = some id := fun e l id hc hno => by rw [hd.cached, if_neg hno, hc]
  refine ⟨?_, ?_, ?_⟩
  · intro e c h' id hc hh
    obtain ⟨c', hc', hh'⟩ := hd.entry e c h' id hc hh
    exact h.caches.entry e c' h' id hc' hh'
  · intro e id h' hrev
    rw [hd.reversed] at hrev
    split_ifs at hrev with hcase
    obtain ⟨x, l, hx, he, hl, heq, hc, hp⟩ := h.caches.own e id h' hrev
    have hxl := h.live_of_contexts hx
    have hid := h.id_eq id x hx
    have hxr : x ≠ r := fun hxr => hcase ⟨by rw [← he, hxr], by rw [← hid, hxr]⟩
    -- the hash of `r` is mapped to `r`, so it is no hash that `x` needs
    have hneed : ∀ l', m.cached e l' = some id → ¬ (e = (m.obj r).engine ∧ m.Key r l') := by
      rintro l' hc' ⟨he', hk⟩
      rw [he', (h.key_spec hr hk).2.1, Option.some.injEq, ← hid] at hc'
      exact hxr (h.eq_of_id hr hxl hc').symm
    refine ⟨x, l, ?_, by rw [hd.obj, he], hl, heq, hcached _ _ _ hc (hneed l hc),
      hp.congr (by rw [hd.obj]) (fun l' _ hc' => ?_) fun p hpar hpl l' hk => ?_⟩
    · have := (hd.live_iff h hr x).mpr ⟨hxl, hxr⟩
      rwa [Live, hd.obj, hid] at this
    · rw [he, hid] at hc' ⊢
      exact hcached _ _ _ hc' (hneed l' hc')
    · have hpr : p ≠ r := fun he => hchild x hxl (he ▸ hpar)
      exact ⟨by rw [hd.obj], (hd.live_iff h hr p).mpr ⟨hpl, hpr⟩,
        (hd.key_iff h hr hpl hpr l').mpr hk⟩
  · intro e l id hc hrev l' hl' hpre
    rw [hd.cached] at hc
    split_ifs at hc with hcase
    have hold : m.reversed e id ≠ some (hashPrefix l) := by
      intro hold
      rw [hd.reversed] at hrev
      split_ifs at hrev with hid
      · obtain ⟨rfl, rfl⟩ := hid
        exact hcase ⟨rfl, hold⟩
      · exact hrev hold
    obtain ⟨id', hid', hno⟩ := h.caches.stale e l id hc hold l' hl' hpre
    refine ⟨id', hcached _ _ _ hid' ?_, ?_⟩
    · rintro ⟨rfl, hk⟩
      rw [(h.key_spec hr hk).2.1, Option.some.injEq] at hid'
      exact hno (hid' ▸ hk)
    · rw [hd.reversed]
      split_ifs
      · simp
      · exact hno

/-- Dropping a context without children and holders keeps the forest. -/
lemma Sound.dropped {held' : List (List ContextRef)} {entries' : List ContextRef}
    {r : ContextRef} (h : m.Sound held entries) (hr : m.Live r)
    (ht : m.Taken held entries r held' entries') (hzero : holders held' entries' r = 0)
    (hchild : ∀ c, m.Live c → (m.obj c).parentContext ≠ some r) (hd : m.Dropped r m') :
    m'.Sound held' entries' := by
  have hlive := hd.live_iff h hr
  refine ⟨hd.pool.mono fun x hx => ?_, hd.unbounded, ?_, ?_, ?_, ?_, ?_,
    hd.cachesSound h hr hchild, ?_, ?_, ?_, ?_, ?_⟩
  · rw [Set.mem_ofPred_eq, hd.contexts, Function.update_apply] at hx
    split_ifs at hx with hid
    · simp at hx
    · exact ⟨hx, hid⟩
  · intro id x hx
    rw [hd.contexts, Function.update_apply] at hx
    split_ifs at hx
    rw [hd.obj]
    exact h.id_eq id x hx
  · intro id x hx
    rw [hd.contexts, Function.update_apply] at hx
    split_ifs at hx
    rw [hd.next]
    exact h.lt_next id x hx
  · intro x p hx
    rw [hd.obj]
    exact h.parent_lt x p ((hlive x).mp hx).1
  · intro x p hx
    rw [hd.obj]
    exact h.parent_engine x p ((hlive x).mp hx).1
  · intro x hx
    rw [hd.registered, hd.obj]
    exact h.registered x ((hlive x).mp hx).1
  · intro cs hcs x hx
    refine (hlive x).mpr ⟨ht.live cs hcs x hx, fun he => ?_⟩
    have : 0 < held'.countP fun cs => decide (r ∈ cs) :=
      List.countP_pos_iff.mpr ⟨cs, hcs, by simpa using he ▸ hx⟩
    rw [holders] at hzero
    omega
  · exact fun cs hcs => (ht.branch cs hcs).congr fun _ _ => by rw [hd.obj]
  · intro x hx
    obtain ⟨hxl, hp⟩ := ht.roots x hx
    refine ⟨(hlive x).mpr ⟨hxl, fun he => ?_⟩, by rw [hd.obj, hp]⟩
    have : 0 < entries'.count r := List.count_pos_iff.mpr (he ▸ hx)
    rw [holders] at hzero
    omega
  · intro x hx
    obtain ⟨hxl, hxr⟩ := (hlive x).mp hx
    obtain ⟨n, hn, hpos, hle, heq⟩ := h.counter x hxl
    have hcount := ht.count x
    rw [if_neg hxr, Nat.add_zero] at hcount
    rw [hcount]
    refine ⟨n, ?_, hpos, hle, heq.imp_right fun hf => ⟨by rw [hd.obj]; exact hf.1, ?_⟩⟩
    · rw [hd.obj, hd.counter _ fun hid => hxr (h.eq_of_id hxl hr hid), hn]
    · obtain ⟨l, hl, hk⟩ := hf.2
      exact ⟨l, hl, (hd.key_iff h hr hxl hxr l).mpr hk⟩
  · intro id hid
    rw [hd.contexts, Function.update_apply] at hid
    split_ifs at hid with he
    · rw [he]
      exact .inr hd.counter_self
    · rw [hd.counter id he]
      exact h.dead id hid

end ServeCoreContextManager
end ParrotServe
