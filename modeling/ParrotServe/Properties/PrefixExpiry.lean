import ParrotServe.Model.ConstantPrefixes
import ParrotServe.Properties.ContextCounts
import ParrotServe.Properties.ContextRuns

/-!
# Expiry of constant prefixes

The serve loop frees the variables of constant prefixes that were not requested for a while, and
then the contexts under each of them.  The two tables have different life cycles.  A variable
exists from the submission of a request; its contexts are recorded when a task that starts with it
is bound and misses the prefix cache.  A variable that was never bound has no entry, and
`free_constant_prefix_contexts` asserts that it has one.  A task that is bound after its variable
has expired makes an entry that no later step removes, because the variable is not registered.

`VarsInv` is the state of the variables: the access times are those of the registered constant
prefixes.  `freeExpired_ok` is the specification of the first half of the step, `freeEach_ok` and
`freeEach_error` that of the second.  `ExpiryInv` adds the contexts, and that every entry is under
a registered variable (`NoStaleHold`).

`prefix_expiry` is the statement over runs, with the exact condition for a single step.
-/

namespace ParrotServe

open ServeCoreContextManager

/-! ## The registered variables -/

namespace SemanticVariableManager

variable {m m' : SemanticVariableManager}

/-- The ids of the registered constant prefixes. -/
def constantPrefixes (m : SemanticVariableManager) : List VarId :=
  m.constantPrefixNamespace.vars.keys

/-- The constant prefixes that expire at a time. -/
def expiredVars (m : SemanticVariableManager) (curTime : ℕ) : List VarId :=
  (m.constantPrefixLastAccessTime.entries.filter fun entry =>
    m.expired curTime entry.2).map Prod.fst

/-- The constant prefixes in the namespace and among the access times. -/
structure VarsInv (m : SemanticVariableManager) : Prop where
  times : ∀ v, v ∈ m.constantPrefixLastAccessTime.keys ↔ v ∈ m.constantPrefixes
  ids : ∀ v r, m.constantPrefixNamespace.vars.get? v = some r →
    r < m.next ∧ (m.obj r).id = v ∧ (m.obj r).seed = noneSeed

lemma VarsInv.new (timeout : ℕ) : (SemanticVariableManager.new timeout).VarsInv :=
  ⟨fun _ => Iff.rfl, fun _ _ h => (by cases h)⟩

/-- What the operations on sessions leave alone. -/
structure SamePrefixes (m m' : SemanticVariableManager) : Prop where
  constantPrefixNamespace : m'.constantPrefixNamespace = m.constantPrefixNamespace
  times : m'.constantPrefixLastAccessTime = m.constantPrefixLastAccessTime
  next : m.next ≤ m'.next
  obj : ∀ r < m.next, (m'.obj r).id = (m.obj r).id ∧ (m'.obj r).seed = (m.obj r).seed

lemma SamePrefixes.refl (m : SemanticVariableManager) : m.SamePrefixes m :=
  ⟨rfl, rfl, le_rfl, fun _ _ => ⟨rfl, rfl⟩⟩

lemma SamePrefixes.trans {m'' : SemanticVariableManager} (h : m.SamePrefixes m')
    (h' : m'.SamePrefixes m'') : m.SamePrefixes m'' where
  constantPrefixNamespace := h'.constantPrefixNamespace.trans h.constantPrefixNamespace
  times := h'.times.trans h.times
  next := h.next.trans h'.next
  obj r hr := by
    obtain ⟨hid, hseed⟩ := h.obj r hr
    obtain ⟨hid', hseed'⟩ := h'.obj r (hr.trans_le h.next)
    exact ⟨hid'.trans hid, hseed'.trans hseed⟩

lemma SamePrefixes.constantPrefixes_eq (h : m.SamePrefixes m') :
    m'.constantPrefixes = m.constantPrefixes := by
  rw [constantPrefixes, h.constantPrefixNamespace, constantPrefixes]

lemma VarsInv.same (h : m.VarsInv) (hs : m.SamePrefixes m') : m'.VarsInv where
  times v := by
    rw [hs.times, hs.constantPrefixes_eq]
    exact h.times v
  ids v r hv := by
    rw [hs.constantPrefixNamespace] at hv
    obtain ⟨hlt, hid, hseed⟩ := h.ids v r hv
    obtain ⟨hid', hseed'⟩ := hs.obj r hlt
    exact ⟨hlt.trans_le hs.next, hid'.trans hid, hseed'.trans hseed⟩

/-! ### Creating variables -/

/-- A new object changes nothing else. -/
lemma samePrefixes_newVar (m : SemanticVariableManager) (sv : SemanticVariable) :
    m.SamePrefixes (m.newVar sv).2 where
  constantPrefixNamespace := rfl
  times := rfl
  next := Nat.le_succ _
  obj r hr := by
    have hobj : (m.newVar sv).2.obj r = m.obj r := Function.update_of_ne hr.ne _ _
    rw [hobj]
    exact ⟨rfl, rfl⟩

lemma samePrefixes_setContent (m : SemanticVariableManager) (r : SvRef) (content : Text) :
    m.SamePrefixes (m.setContent r content).2 := by
  unfold setContent
  cases (m.obj r).content with
  | some _ => exact .refl m
  | none =>
      refine ⟨rfl, rfl, le_rfl, fun r' _ => ?_⟩
      dsimp only
      rw [Function.update_apply]
      split_ifs with hr
      · exact hr ▸ ⟨rfl, rfl⟩
      · exact ⟨rfl, rfl⟩

variable (uuid3 : ℕ → Text → VarId)

/-- A content that has a variable. -/
lemma newVarByContent_hit {ns : SemanticVariableNamespace} {content : Text} {r : SvRef}
    (h : ns.vars.get? (uuid3 ns.namespaceUuid content) = some r) (isConstantPrefix : Bool) :
    m.newVarByContent uuid3 ns content isConstantPrefix = (r, ns, m) := by
  simp only [newVarByContent, h]

/-- The variable of a new content. -/
def contentVar (ns : SemanticVariableNamespace) (content : Text) (isConstantPrefix : Bool) :
    SemanticVariable where
  name := constantName
  id := uuid3 ns.namespaceUuid content
  isConstantPrefix := isConstantPrefix
  seed := noneSeed
  content := some content

lemma newVarByContent_miss {ns : SemanticVariableNamespace} {content : Text}
    (h : ns.vars.get? (uuid3 ns.namespaceUuid content) = none) (isConstantPrefix : Bool) :
    m.newVarByContent uuid3 ns content isConstantPrefix =
      (m.next, { ns with vars := ns.vars.set (uuid3 ns.namespaceUuid content) m.next },
        (m.newVar (contentVar uuid3 ns content isConstantPrefix)).2) := by
  simp only [newVarByContent, h, newVar, contentVar]

lemma samePrefixes_newVarByContent (m : SemanticVariableManager) (ns : SemanticVariableNamespace)
    (content : Text) (isConstantPrefix : Bool) :
    m.SamePrefixes (m.newVarByContent uuid3 ns content isConstantPrefix).2.2 := by
  cases h : ns.vars.get? (uuid3 ns.namespaceUuid content) with
  | some r =>
      rw [newVarByContent_hit uuid3 h]
      exact .refl m
  | none =>
      rw [newVarByContent_miss uuid3 h]
      exact samePrefixes_newVar m _

lemma samePrefixes_newVarByName (m : SemanticVariableManager) (ns : SemanticVariableNamespace)
    (name : Text) (isConstantPrefix : Bool) :
    m.SamePrefixes (m.newVarByName uuid3 ns name isConstantPrefix).2.2 := by
  unfold newVarByName
  rcases ns.seedPool.allocate with ⟨e | seed, pool⟩
  · exact .refl m
  · dsimp only
    split_ifs
    · exact .refl m
    · exact samePrefixes_newVar m _

/-- Updating the namespace of a session. -/
lemma SamePrefixes.withSession (h : m.SamePrefixes m')
    (sessions : Dict ℕ SemanticVariableNamespace) (uuid : ℕ) :
    m.SamePrefixes { m' with sessionNamespaces := sessions, nextUuid := uuid } :=
  ⟨h.constantPrefixNamespace, h.times, h.next, h.obj⟩

lemma samePrefixes_createLocalVarByName (m : SemanticVariableManager) (sessionId : ℕ)
    (varName : Text) : m.SamePrefixes (m.createLocalVarByName uuid3 sessionId varName).2 := by
  unfold createLocalVarByName
  cases m.sessionNamespaces.get? sessionId with
  | none => exact .refl m
  | some ns => exact (samePrefixes_newVarByName uuid3 m ns varName false).withSession _ _

lemma samePrefixes_getLocalVarByContent (m : SemanticVariableManager) (sessionId : ℕ)
    (content : Text) : m.SamePrefixes (m.getLocalVarByContent uuid3 sessionId content).2 := by
  unfold getLocalVarByContent
  cases m.sessionNamespaces.get? sessionId with
  | none => exact .refl m
  | some ns => exact (samePrefixes_newVarByContent uuid3 m ns content false).withSession _ _

lemma samePrefixes_createVar (m : SemanticVariableManager) (sessionId : ℕ) (varName : Text) :
    m.SamePrefixes (m.createVar uuid3 sessionId varName).2 := by
  unfold createVar
  split_ifs
  · exact samePrefixes_createLocalVarByName uuid3 m sessionId varName
  · exact .refl m

/-- Submitting a request keeps the invariant and every registered constant prefix. -/
structure Registers (m m' : SemanticVariableManager) : Prop where
  inv : m.VarsInv → m'.VarsInv
  mono : ∀ v ∈ m.constantPrefixes, v ∈ m'.constantPrefixes

lemma Registers.refl (m : SemanticVariableManager) : m.Registers m := ⟨id, fun _ h => h⟩

lemma Registers.trans {m'' : SemanticVariableManager} (h : m.Registers m')
    (h' : m'.Registers m'') : m.Registers m'' :=
  ⟨h'.inv ∘ h.inv, fun v hv => h'.mono v (h.mono v hv)⟩

lemma SamePrefixes.registers (h : m.SamePrefixes m') : m.Registers m' :=
  ⟨fun hm => hm.same h, fun _ hv => h.constantPrefixes_eq ▸ hv⟩

/-- A constant prefix is looked up or created, and its access time is set. -/
lemma registers_getConstantPrefixVar (m : SemanticVariableManager) (now : ℕ) (content : Text) :
    m.Registers (m.getConstantPrefixVar uuid3 now content).2 := by
  rw [getConstantPrefixVar]
  set ns := m.constantPrefixNamespace with hns
  cases hget : ns.vars.get? (uuid3 ns.namespaceUuid content) with
  | some r =>
      rw [newVarByContent_hit uuid3 hget]
      refine ⟨fun hm => ⟨fun v => ?_, hm.ids⟩, fun v hv => hv⟩
      rw [Dict.mem_keys_set, hm.times v, (hm.ids _ r hget).2.1]
      change v = uuid3 ns.namespaceUuid content ∨ v ∈ ns.vars.keys ↔ v ∈ ns.vars.keys
      exact or_iff_right_of_imp fun h => h ▸ Dict.mem_keys_of_get? _ hget
  | none =>
      rw [newVarByContent_miss uuid3 hget]
      set sv := contentVar uuid3 ns content true with hsv
      have hnew : (m.newVar sv).2.obj m.next = sv := Function.update_self _ _ _
      have hid : sv.id = uuid3 ns.namespaceUuid content := rfl
      dsimp only
      refine ⟨fun hm => ⟨fun v => ?_, fun v r hv => ?_⟩, fun v hv => ?_⟩
      · rw [constantPrefixes, hnew, hid, Dict.mem_keys_set, Dict.mem_keys_set]
        exact or_congr_right (hm.times v)
      · dsimp only at hv
        rw [Dict.get?_set] at hv
        split_ifs at hv with hvar
        · obtain rfl := Option.some.inj hv
          exact ⟨Nat.lt_succ_self _, by rw [hnew, hid, hvar], by rw [hnew, hsv, contentVar]⟩
        · obtain ⟨hlt, hid, hseed⟩ := hm.ids v r hv
          obtain ⟨hid', hseed'⟩ := (samePrefixes_newVar m sv).obj r hlt
          exact ⟨hlt.trans (Nat.lt_succ_self _), hid'.trans hid, hseed'.trans hseed⟩
      · rw [constantPrefixes, Dict.mem_keys_set]
        exact .inr hv

lemma registers_createVarForNode (m : SemanticVariableManager) (sessionId now : ℕ)
    (constantPrefixFlag : Bool) (kind : NodeKind) :
    m.Registers (m.createVarForNode uuid3 sessionId now constantPrefixFlag kind).2 := by
  cases kind with
  | constantFill text =>
      rw [createVarForNode]
      split_ifs
      · exact registers_getConstantPrefixVar uuid3 m now text
      · exact (samePrefixes_getLocalVarByContent uuid3 m sessionId text).registers
  | placeholderFill param =>
      rw [createVarForNode]
      split_ifs
      · have hcreate := samePrefixes_createLocalVarByName uuid3 m sessionId param.name
        rcases hr : m.createLocalVarByName uuid3 sessionId param.name with ⟨e | r, m'⟩
        · exact (hr ▸ hcreate).registers
        · rw [hr] at hcreate
          cases param.value with
          | none => exact hcreate.registers
          | some value =>
              have hset := hcreate.trans (samePrefixes_setContent m' r value)
              dsimp only
              rcases hr' : m'.setContent r value with ⟨e | u, m''⟩
              · exact (hr' ▸ hset).registers
              · exact (hr' ▸ hset).registers
      · exact .refl m
  | placeholderGen param =>
      exact (samePrefixes_createLocalVarByName uuid3 m sessionId param.name).registers

lemma registers_createVarsLoop (sessionId now : ℕ) (kinds : List NodeKind) :
    ∀ (flag : Bool) (rs : List SvRef) (m : SemanticVariableManager),
      m.Registers (createVarsLoop uuid3 sessionId now flag kinds rs m).2 := by
  induction kinds with
  | nil => exact fun _ _ m => .refl m
  | cons kind kinds ih =>
      intro flag rs m
      rw [createVarsLoop]
      set flag' : Bool := if kind.hasPlaceholder then false else flag
      have hnode := registers_createVarForNode uuid3 m sessionId now flag' kind
      rcases hr : m.createVarForNode uuid3 sessionId now flag' kind with ⟨e | r, m'⟩
      · rw [hr] at hnode
        exact hnode
      · rw [hr] at hnode
        exact hnode.trans (ih flag' (rs ++ [r]) m')

/-! ### Expiry -/

/-- What the first half of the step does to the registered variables. -/
structure Expires (m : SemanticVariableManager) (vs : List VarId) (rs : List SvRef)
    (m' : SemanticVariableManager) : Prop where
  inv : m'.VarsInv
  ids : (rs.map fun r => (m'.obj r).id) = vs
  obj : m'.obj = m.obj
  timeout : m'.constantPrefixVarTimeout = m.constantPrefixVarTimeout
  left : ∀ v, v ∈ m'.constantPrefixes ↔ v ∈ m.constantPrefixes ∧ v ∉ vs

/-- The loop of `free_expired_constant_prefix_vars` never raises. -/
lemma freeExpired_ok (curTime : ℕ) (items : List (VarId × ℕ)) :
    ∀ (ret : List SvRef) {m : SemanticVariableManager}, m.VarsInv →
      (items.map Prod.fst).Nodup → (∀ item ∈ items, item.1 ∈ m.constantPrefixes) →
      ∃ rs m', freeExpired curTime items ret m = (.ok (ret ++ rs), m') ∧
        m.Expires ((items.filter fun item => m.expired curTime item.2).map Prod.fst) rs m' := by
  induction items with
  | nil =>
      intro ret m hm _ _
      exact ⟨[], m, by rw [List.append_nil, freeExpired], hm, rfl, rfl, rfl, fun v => by simp⟩
  | cons item items ih =>
      rintro ret m hm hnodup hmem
      obtain ⟨v, time⟩ := item
      obtain ⟨hv, hnodup'⟩ := List.nodup_cons.mp hnodup
      have hmem' : ∀ item ∈ items, item.1 ∈ m.constantPrefixes := fun item hi =>
        hmem item (List.mem_cons_of_mem _ hi)
      rw [freeExpired]
      by_cases hexp : m.expired curTime time
      · obtain ⟨r, hr⟩ := (Dict.mem_keys _).mp (hmem _ List.mem_cons_self)
        obtain ⟨hlt, hid, hseed⟩ := hm.ids v r hr
        have hkey : v ∈ m.constantPrefixNamespace.vars.keys := Dict.mem_keys_of_get? _ hr
        have hfree : m.constantPrefixNamespace.freeVar (m.obj r) =
            (.ok (), { m.constantPrefixNamespace with
              vars := m.constantPrefixNamespace.vars.erase v }) := by
          rw [SemanticVariableNamespace.freeVar, hid, if_neg (not_not_intro hkey), if_pos hseed]
        set m₁ : SemanticVariableManager := { m with
          constantPrefixNamespace := { m.constantPrefixNamespace with
            vars := m.constantPrefixNamespace.vars.erase v }
          constantPrefixLastAccessTime := m.constantPrefixLastAccessTime.erase v } with hm₁
        have hleft : ∀ x, x ∈ m₁.constantPrefixes ↔ x ∈ m.constantPrefixes ∧ x ≠ v := fun x => by
          rw [constantPrefixes, hm₁, Dict.mem_keys_erase, constantPrefixes]
        have hinv : m₁.VarsInv := by
          refine ⟨fun x => ?_, fun x r' hx => ?_⟩
          · rw [hleft, hm₁, Dict.mem_keys_erase, hm.times]
          · have hne : x ≠ v := by
              rintro rfl
              simp [hm₁] at hx
            exact hm.ids x r' (by rwa [hm₁, Dict.get?_erase_ne _ hne] at hx)
        obtain ⟨rs, m', hok, hi, hids, hobj, htimeout, hleft'⟩ := ih (ret ++ [r]) hinv hnodup'
          fun item hi => (hleft _).mpr ⟨hmem' item hi, fun h =>
            hv (List.mem_map.mpr ⟨item, hi, h⟩)⟩
        have hfilter : (((v, time) :: items).filter fun item => m.expired curTime item.2).map
            Prod.fst = v :: (items.filter fun item => m₁.expired curTime item.2).map Prod.fst := by
          rw [List.filter_cons, if_pos hexp, List.map_cons]
          rfl
        refine ⟨r :: rs, m', ?_, hi, ?_, hobj, htimeout, fun x => ?_⟩
        · rw [if_pos hexp, hr]
          dsimp only
          rw [hfree]
          dsimp only
          rw [if_pos ((hm.times v).mpr hkey), hok, List.append_assoc, List.singleton_append]
        · rw [hfilter, List.map_cons, hids, hobj, hid]
        · rw [hleft', hleft, hfilter, List.mem_cons, not_or, and_assoc]
      · obtain ⟨rs, m', hok, h⟩ := ih ret hm hnodup' hmem'
        refine ⟨rs, m', by rw [if_neg hexp, hok], ?_⟩
        rw [List.filter_cons, if_neg hexp]
        exact h

/-- `free_expired_constant_prefix_vars` frees exactly what has expired. -/
lemma VarsInv.freeExpiredConstantPrefixVars (h : m.VarsInv) (curTime : ℕ) :
    ∃ rs m', m.freeExpiredConstantPrefixVars curTime = (.ok rs, m') ∧
      m.Expires (m.expiredVars curTime) rs m' := by
  obtain ⟨rs, m', hok, hexp⟩ := freeExpired_ok curTime m.constantPrefixLastAccessTime.entries []
    h m.constantPrefixLastAccessTime.nodup fun item hi =>
      (h.times item.1).mp (List.mem_map_of_mem hi)
  exact ⟨rs, m', hok, hexp⟩

end SemanticVariableManager

/-! ## The entries of the constant prefixes -/

namespace ServeCoreContextManager

variable {m m' : ServeCoreContextManager} {e : ℕ} {fuseFill : Bool} {st st' : BindState}
  {node : ChainNode}

/-- The variables that have contexts. -/
def prefixKeys (m : ServeCoreContextManager) : List VarId := m.constantPrefixContexts.map Prod.fst

lemma createContext_constants {parent : Option ContextRef} {r : ContextRef}
    (hok : m.createContext e parent = .ok (r, m')) :
    m'.constantPrefixContexts = m.constantPrefixContexts := by
  unfold createContext at hok
  split at hok
  · simp at hok
  · simp only [Except.ok.injEq, Prod.mk.injEq] at hok
    obtain ⟨-, rfl⟩ := hok
    rfl

lemma addConstantPrefix_keys {v : VarId} {r : ContextRef}
    (hok : m.addConstantPrefix v r = .ok m') : ∀ x ∈ m'.prefixKeys, x ∈ m.prefixKeys ∨ x = v := by
  rw [addConstantPrefix] at hok
  dsimp only at hok
  rw [← withKey] at hok
  cases hassert : parrotAssert
      (decide (r ∉ ((withKey m.constantPrefixContexts v).lookup v).getD []))
      "Context should not be in the ref map." with
  | error e =>
      rw [hassert] at hok
      cases hok
  | ok u =>
      rw [hassert] at hok
      obtain rfl := Except.ok.inj hok
      intro x hx
      have hx' : x ∈ (withKey m.constantPrefixContexts v).map Prod.fst := by
        obtain ⟨entry, hentry, rfl⟩ := List.mem_map.mp hx
        obtain ⟨entry', hentry', rfl⟩ := List.mem_map.mp hentry
        refine List.mem_map.mpr ⟨entry', hentry', ?_⟩
        split_ifs <;> rfl
      rw [withKey] at hx'
      split_ifs at hx'
      · exact .inl hx'
      · rw [List.map_append, List.mem_append] at hx'
        exact hx'.imp id List.mem_singleton.mp

/-- Behind the first node of a chain no entry is made. -/
lemma assignContext_constants {hash : Text} (hne : st.contexts ≠ [])
    (hok : assignContext e fuseFill st hash node = .ok st') :
    st'.mgr.constantPrefixContexts = st.mgr.constantPrefixContexts := by
  obtain ⟨last, hlast⟩ := Option.isSome_iff_exists.mp (List.getLast?_isSome.mpr hne)
  rw [assignContext, contextForNode, hlast] at hok
  dsimp only at hok
  have hsame : ∀ {r : ContextRef} {m : ServeCoreContextManager},
      (if (fuseFill && !node.isGen) = true then .ok (last, st.mgr)
        else st.mgr.forkContext last) = Except.ok (ε := PyError) (r, m) →
      m.constantPrefixContexts = st.mgr.constantPrefixContexts := by
    intro r m h
    split_ifs at h
    · obtain ⟨-, rfl⟩ := Prod.mk.inj (Except.ok.inj h)
      rfl
    · exact createContext_constants h
  split at hok
  · simp at hok
  · rename_i r m hctx
    have hm := hsame hctx
    split_ifs at hok
    · obtain rfl := Except.ok.inj hok
      exact hm
    · split at hok
      · simp at hok
      · rename_i m₁ hcache
        obtain rfl := Except.ok.inj hok
        exact (cachePrefix_frame hcache).2.2.2.2.2.trans hm

/-- The loop body: a hit, or a new assignment. -/
lemma bindNode_cases (hok : bindNode e fuseFill st node = .ok st') :
    (st'.mgr.constantPrefixContexts = st.mgr.constantPrefixContexts ∧ st'.contexts ≠ []) ∨
      ((st.prefixNoCacheFlag = true ∨
          (st.mgr.prefixCaches e).bind (·.prefixCtxMap (st.prefixHash ++ hashVarId node.varId)) =
            none) ∧
        assignContext e fuseFill st (st.prefixHash ++ hashVarId node.varId) node = .ok st') := by
  rw [bindNode] at hok
  split_ifs at hok with hflag
  · exact .inr ⟨.inl hflag, hok⟩
  · split at hok
    · simp at hok
    · rename_i cache hcache
      split at hok
      · rename_i hnone
        exact .inr ⟨.inr (by rw [hcache]; exact hnone), hok⟩
      · split at hok
        · simp at hok
        · obtain rfl := Except.ok.inj hok
          exact .inl ⟨rfl, by simp⟩

lemma assignContext_contexts {hash : Text} (hok : assignContext e fuseFill st hash node = .ok st') :
    st'.contexts ≠ [] := by
  rw [assignContext] at hok
  split at hok
  · simp at hok
  · dsimp only at hok
    split_ifs at hok
    · obtain rfl := Except.ok.inj hok
      simp
    · split at hok
      · simp at hok
      · obtain rfl := Except.ok.inj hok
        simp

lemma bindNodes_constants (nodes : List ChainNode) : ∀ {st st' : BindState}, st.contexts ≠ [] →
    bindNodes e fuseFill nodes st = .ok st' →
    st'.mgr.constantPrefixContexts = st.mgr.constantPrefixContexts := by
  induction nodes with
  | nil =>
      intro st st' _ hok
      obtain rfl := Except.ok.inj hok
      rfl
  | cons node nodes ih =>
      intro st st' hne hok
      rw [bindNodes] at hok
      split at hok
      · simp at hok
      · rename_i st₁ hnode
        rcases bindNode_cases hnode with ⟨hsame, hne'⟩ | ⟨-, hassign⟩
        · exact (ih hne' hok).trans hsame
        · exact (ih (assignContext_contexts hassign) hok).trans
            (assignContext_constants hne hassign)

/-- The entry a call makes: under the variable of the first node, if that is a constant prefix
and misses the cache of the engine. -/
def EntryMade (m : ServeCoreContextManager) (e : ℕ) (chain : List ChainNode) (v : VarId) : Prop :=
  ∃ node, chain.head? = some node ∧ node.isConstantPrefix = true ∧ node.varId = v ∧
    m.cached e [v] = none

/-- The first node makes the entry. -/
lemma assignContext_first {nodes : List ChainNode}
    (hmiss : (m.prefixCaches e).bind (·.prefixCtxMap (hashVarId node.varId)) = none)
    (hok : assignContext e fuseFill { mgr := m } (hashVarId node.varId) node = .ok st') :
    ∀ v ∈ st'.mgr.prefixKeys, v ∈ m.prefixKeys ∨ m.EntryMade e (node :: nodes) v := by
  have hcached : m.cached e [node.varId] = none := by
    rw [ServeCoreContextManager.cached, hashPrefix, List.flatMap_singleton]
    exact hmiss
  have hctx : ∀ {r : ContextRef} {m₁ : ServeCoreContextManager},
      m.contextForNode e fuseFill [] node = .ok (r, m₁) →
      ∀ v ∈ m₁.prefixKeys, v ∈ m.prefixKeys ∨ m.EntryMade e (node :: nodes) v := by
    intro r m₁ h v hv
    simp only [contextForNode, List.getLast?_nil] at h
    split at h
    · simp at h
    · rename_i r₀ m₀ hnew
      have hsame := createContext_constants hnew
      split_ifs at h with hprefix
      · split at h
        · simp at h
        · rename_i m₂ hadd
          obtain ⟨-, rfl⟩ := Prod.mk.inj (Except.ok.inj h)
          rcases addConstantPrefix_keys hadd v hv with hv | rfl
          · exact .inl (by rwa [prefixKeys, hsame] at hv)
          · exact .inr ⟨node, rfl, hprefix, rfl, hcached⟩
      · obtain ⟨-, rfl⟩ := Prod.mk.inj (Except.ok.inj h)
        exact .inl (by rwa [prefixKeys, hsame] at hv)
  rw [assignContext] at hok
  split at hok
  · simp at hok
  · rename_i r m₁ hnode
    dsimp only at hok
    split_ifs at hok
    · obtain rfl := Except.ok.inj hok
      exact hctx hnode
    · split at hok
      · simp at hok
      · rename_i m₂ hcache
        obtain rfl := Except.ok.inj hok
        intro v hv
        rw [prefixKeys, (cachePrefix_frame hcache).2.2.2.2.2] at hv
        exact hctx hnode v hv

lemma setTaskContexts_keys {chain : List ChainNode} {cs : List ContextRef}
    (hok : m.setTaskContexts e chain fuseFill = .ok (cs, m')) :
    ∀ v ∈ m'.prefixKeys, v ∈ m.prefixKeys ∨ m.EntryMade e chain v := by
  rw [setTaskContexts] at hok
  split at hok
  · simp at hok
  · split at hok
    · simp at hok
    · rename_i st hbind
      obtain ⟨-, rfl⟩ := Prod.mk.inj (Except.ok.inj hok)
      cases chain with
      | nil =>
          obtain rfl := Except.ok.inj hbind
          exact fun v hv => .inl hv
      | cons node nodes =>
          rw [bindNodes] at hbind
          split at hbind
          · simp at hbind
          · rename_i st₁ hnode
            intro v hv
            rcases bindNode_cases hnode with ⟨hsame, hne⟩ | ⟨hmiss, hassign⟩
            · rw [prefixKeys, bindNodes_constants nodes hne hbind, hsame] at hv
              exact .inl hv
            · rw [prefixKeys,
                bindNodes_constants nodes (assignContext_contexts hassign) hbind] at hv
              exact assignContext_first (hmiss.resolve_left (by simp)) hassign v hv

end ServeCoreContextManager

/-! ## The serve loop -/

namespace ContextSystem

variable {α : Type} {s : ContextSystem α}

/-- `free_constant_prefix_contexts` removes the entry of its variable. -/
lemma freeConstantPrefixContexts_constants {w w' : ContextWorld α} {v : VarId}
    {held : List (List ContextRef)} (h : w.Sound held w.mgr.constantEntries)
    (hkeys : w.mgr.KeysNodup) (hok : w.freeConstantPrefixContexts v = .ok w') :
    w'.mgr.constantPrefixContexts =
      w.mgr.constantPrefixContexts.filter fun entry => decide (entry.1 ≠ v) := by
  rw [ContextWorld.freeConstantPrefixContexts] at hok
  cases hv : w.mgr.constantPrefixContexts.lookup v with
  | none => simp [hv] at hok
  | some rs =>
      have hsound : w.Sound held (rs ++ (w.mgr.constantPrefixContexts.filter
          fun entry => decide (entry.1 ≠ v)).flatMap Prod.snd) :=
        ⟨h.mgr.perm (.refl _) (filter_entry_perm hkeys hv).symm, h.engines, h.orphaned⟩
      obtain ⟨w₁, hfree, -, hfrees⟩ := ContextWorld.freeAll_ok rs hsound
      rw [hv] at hok
      simp only [hfree] at hok
      obtain rfl := Except.ok.inj hok
      rw [← hfrees.constants]

end ContextSystem

namespace ConstantPrefixSystem

variable {α : Type} {s s' : ConstantPrefixSystem α} {c : ContextSystem α}

lemma prefixKeys_filter {m m' : ServeCoreContextManager} {v : VarId}
    (h : m'.constantPrefixContexts =
      m.constantPrefixContexts.filter fun entry => decide (entry.1 ≠ v)) (x : VarId) :
    x ∈ m'.prefixKeys ↔ x ∈ m.prefixKeys ∧ x ≠ v := by
  rw [prefixKeys, h, prefixKeys]
  simp only [List.mem_map, List.mem_filter, decide_eq_true_eq]
  constructor
  · rintro ⟨entry, ⟨hentry, hne⟩, rfl⟩
    exact ⟨⟨entry, hentry, rfl⟩, hne⟩
  · rintro ⟨⟨entry, hentry, rfl⟩, hne⟩
    exact ⟨entry, ⟨hentry, hne⟩, rfl⟩

/-- The second half of the step, when every variable has contexts. -/
lemma freeEach_ok (vs : List VarId) : ∀ {c : ContextSystem α}, c.SystemInv → vs.Nodup →
    (∀ v ∈ vs, v ∈ c.world.mgr.prefixKeys) →
    ∃ w, freeEach vs c.world = .ok w ∧ ContextSystem.SystemInv { c with world := w } ∧
      ∀ v, v ∈ w.mgr.prefixKeys ↔ v ∈ c.world.mgr.prefixKeys ∧ v ∉ vs := by
  induction vs with
  | nil => exact fun hc _ _ => ⟨_, rfl, hc, fun v => by simp⟩
  | cons v vs ih =>
      intro c hc hnodup hmem
      obtain ⟨hv, hnodup'⟩ := List.nodup_cons.mp hnodup
      obtain ⟨rs, hrs⟩ := Option.isSome_iff_exists.mp
        ((isSome_lookup_iff _ v).mpr (hmem v List.mem_cons_self))
      obtain ⟨w, hok, -, -, -, -, hinv⟩ := hc.freeConstantPrefixContexts hrs
      have hkeys := prefixKeys_filter
        (ContextSystem.freeConstantPrefixContexts_constants hc.world hc.keys hok)
      obtain ⟨w', hok', hinv', hkeys'⟩ := ih hinv hnodup' fun x hx =>
        (hkeys x).mpr ⟨hmem x (List.mem_cons_of_mem _ hx), fun h => hv (h ▸ hx)⟩
      refine ⟨w', ?_, hinv', fun x => ?_⟩
      · rw [freeEach, hok]
        exact hok'
      · rw [hkeys', hkeys, List.mem_cons, not_or, and_assoc]

/-- The second half of the step, when a variable has no contexts. -/
lemma freeEach_error (vs : List VarId) : ∀ {c : ContextSystem α}, c.SystemInv → vs.Nodup →
    (∃ v ∈ vs, v ∉ c.world.mgr.prefixKeys) →
    freeEach vs c.world =
      .error (.parrotAssert "Constant prefix variable should have contexts.") := by
  induction vs with
  | nil => exact fun _ _ ⟨v, hv, _⟩ => absurd hv (List.not_mem_nil)
  | cons v vs ih =>
      rintro c hc hnodup ⟨x, hx, hno⟩
      obtain ⟨hv, hnodup'⟩ := List.nodup_cons.mp hnodup
      cases hrs : c.world.mgr.constantPrefixContexts.lookup v with
      | none => rw [freeEach, ContextWorld.freeConstantPrefixContexts, hrs]
      | some rs =>
          obtain ⟨w, hok, -, -, -, -, hinv⟩ := hc.freeConstantPrefixContexts hrs
          have hkeys := prefixKeys_filter
            (ContextSystem.freeConstantPrefixContexts_constants hc.world hc.keys hok)
          have hvk : v ∈ c.world.mgr.prefixKeys := (isSome_lookup_iff _ v).mp (by rw [hrs]; rfl)
          have hxs : x ∈ vs := (List.mem_cons.mp hx).resolve_left fun h => hno (h ▸ hvk)
          rw [freeEach, hok]
          exact ih hinv hnodup' ⟨x, hxs, fun h => hno ((hkeys x).mp h).1⟩

/-! ## The invariant -/

/-- No context has the extra reference of a variable that has expired: every entry is under a
registered variable. -/
def NoStaleHold (s : ConstantPrefixSystem α) : Prop :=
  ∀ v ∈ s.contexts.world.mgr.prefixKeys, v ∈ s.vars.constantPrefixes

/-- The variables, the contexts, and the entries between them. -/
structure ExpiryInv (s : ConstantPrefixSystem α) : Prop where
  vars : s.vars.VarsInv
  contexts : s.contexts.SystemInv
  held : s.NoStaleHold

/-- The variables that expire have contexts. -/
def ExpiringHaveContexts (s : ConstantPrefixSystem α) (curTime : ℕ) : Prop :=
  ∀ v ∈ s.vars.expiredVars curTime, v ∈ s.contexts.world.mgr.prefixKeys

/-- The condition on a step: a task is bound to contexts of its own variables, and makes an entry
only under a registered variable; a variable that expires has contexts. -/
def ExpiryGuard (s : ConstantPrefixSystem α) : ConstantPrefixAction α → Prop
  | .contexts (.setTaskContexts e chain fuseFill) =>
      s.contexts.world.mgr.BindGuard e chain fuseFill ∧
        ∀ v, s.contexts.world.mgr.EntryMade e chain v → v ∈ s.vars.constantPrefixes
  | .serveLoop curTime => s.ExpiringHaveContexts curTime
  | _ => True

/-- The step of the serve loop succeeds exactly when the variables that expire have contexts. -/
lemma ExpiryInv.serveLoop (h : s.ExpiryInv) (curTime : ℕ) :
    (s.ExpiringHaveContexts curTime → ∃ s', s.serveLoop curTime = .ok s' ∧ s'.ExpiryInv) ∧
      (¬ s.ExpiringHaveContexts curTime → s.serveLoop curTime =
        .error (.parrotAssert "Constant prefix variable should have contexts.")) := by
  obtain ⟨rs, vars, hok, hexp⟩ := h.vars.freeExpiredConstantPrefixVars curTime
  have hnodup : (s.vars.expiredVars curTime).Nodup :=
    s.vars.constantPrefixLastAccessTime.nodup.sublist (List.filter_sublist.map Prod.fst)
  rw [ConstantPrefixSystem.serveLoop, hok]
  dsimp only
  rw [hexp.ids]
  constructor
  · intro hall
    obtain ⟨w, hfree, hinv, hkeys⟩ := freeEach_ok _ h.contexts hnodup hall
    rw [hfree]
    refine ⟨_, rfl, hexp.inv, hinv, fun v hv => ?_⟩
    obtain ⟨hkey, hnot⟩ := (hkeys v).mp hv
    exact (hexp.left v).mpr ⟨h.held v hkey, hnot⟩
  · intro hnot
    rw [ExpiringHaveContexts] at hnot
    push Not at hnot
    rw [freeEach_error _ h.contexts hnodup hnot]

/-- The other actions of the context manager leave the entries alone. -/
lemma prefixKeys_contexts {a : ContextAction α} (h : c.SystemInv) (hen : c.Enabled a)
    (hset : ∀ e chain fuseFill, a ≠ .setTaskContexts e chain fuseFill)
    (hfree : ∀ v, a ≠ .freeConstantPrefixContexts v) {c' : ContextSystem α}
    (hok : c.apply a = .ok c') : c'.world.mgr.prefixKeys = c.world.mgr.prefixKeys := by
  cases a with
  | registerEngine e =>
      obtain rfl := Except.ok.inj hok
      rfl
  | setTaskContexts e chain fuseFill => exact absurd rfl (hset e chain fuseFill)
  | freeTaskContexts t =>
      obtain ⟨w, hfreed, hfrees, -⟩ := h.freeTaskContexts hen
      simp only [ContextSystem.apply, hfreed] at hok
      obtain rfl := Except.ok.inj hok
      exact congrArg (List.map Prod.fst) hfrees.constants
  | freeConstantPrefixContexts v => exact absurd rfl (hfree v)
  | bindJobContext r =>
      simp only [ContextSystem.apply] at hok
      cases hbind : c.bindJobContext r with
      | error e =>
          rw [hbind] at hok
          obtain rfl := Except.ok.inj hok
          rfl
      | ok c₁ =>
          rw [hbind] at hok
          obtain rfl := Except.ok.inj hok
          rw [ContextSystem.SystemInv.mgr_bindJobContext hbind]
  | fill r payload =>
      obtain rfl := Except.ok.inj hok
      rfl

/-- The actions of the context manager. -/
lemma ExpiryInv.contexts_apply (h : s.ExpiryInv) {a : ContextAction α}
    (hen : s.Enabled (.contexts a)) (hg : s.ExpiryGuard (.contexts a)) :
    ∃ c, s.contexts.apply a = .ok c ∧ ExpiryInv { s with contexts := c } := by
  have hparts : s.contexts.Enabled a ∧ s.contexts.Guarded a ∧
      ∀ v, a ≠ .freeConstantPrefixContexts v := by
    cases a with
    | setTaskContexts e chain fuseFill => exact ⟨hen.1, hg.1, fun v hv => by cases hv⟩
    | freeConstantPrefixContexts v => exact hen.elim
    | _ => exact ⟨hen, trivial, fun v hv => by cases hv⟩
  obtain ⟨hen', hg', hfree⟩ := hparts
  obtain ⟨c, hok, hkeeps⟩ := (h.contexts.apply hen' hg').resolve_right
    fun ⟨v, hv, _⟩ => hfree v hv
  refine ⟨c, hok, h.vars, hkeeps.inv, fun v hv => ?_⟩
  by_cases hset : ∃ e chain fuseFill, a = .setTaskContexts e chain fuseFill
  · obtain ⟨e, chain, fuseFill, rfl⟩ := hset
    simp only [ContextSystem.apply] at hok
    split at hok
    · simp at hok
    · rename_i cs m hbind
      obtain rfl := Except.ok.inj hok
      rcases setTaskContexts_keys hbind v hv with hv | hmade
      · exact h.held v hv
      · exact hg.2 v hmade
  · have hkeys := prefixKeys_contexts h.contexts hen'
      (fun e chain fuseFill ha => hset ⟨e, chain, fuseFill, ha⟩) hfree hok
    exact h.held v (hkeys ▸ hv)

/-- An operation on the variables that forgets no constant prefix. -/
lemma ExpiryInv.registers (h : s.ExpiryInv) {vars : SemanticVariableManager}
    (hr : s.vars.Registers vars) (nodes : List ChainNode) :
    ExpiryInv { s with vars, nodes } :=
  ⟨hr.inv h.vars, h.contexts, fun v hv => hr.mono v (h.held v hv)⟩

open SemanticVariableManager in
/-- **Step lemma.**  Every step that meets the condition succeeds and keeps the invariant. -/
lemma ExpiryInv.apply (uuid3 : ℕ → Text → VarId) (h : s.ExpiryInv) {a : ConstantPrefixAction α}
    (hen : s.Enabled a) (hg : s.ExpiryGuard a) : ∃ s', s.apply uuid3 a = .ok s' ∧ s'.ExpiryInv := by
  cases a with
  | registerLocalVarSpace sessionId =>
      have hsame : s.vars.SamePrefixes (s.vars.registerLocalVarSpace sessionId).2 := by
        unfold registerLocalVarSpace
        split_ifs
        · exact .refl _
        · exact (SamePrefixes.refl s.vars).withSession _ _
      exact ⟨_, rfl, h.registers hsame.registers s.nodes⟩
  | freeLocalVarSpace sessionId =>
      have hsame : s.vars.SamePrefixes (s.vars.freeLocalVarSpace sessionId).2 := by
        unfold freeLocalVarSpace
        split_ifs
        · exact (SamePrefixes.refl s.vars).withSession _ _
        · exact .refl _
      exact ⟨_, rfl, h.registers hsame.registers s.nodes⟩
  | createVar sessionId varName =>
      exact ⟨_, rfl, h.registers (samePrefixes_createVar uuid3 s.vars sessionId varName).registers
        s.nodes⟩
  | submit sessionId now cachePrefix kinds =>
      have hr := registers_createVarsLoop uuid3 sessionId now kinds cachePrefix [] s.vars
      refine ⟨_, rfl, ?_⟩
      rw [submit, createVarsForSemanticRequestChain]
      rcases hloop : createVarsLoop uuid3 sessionId now cachePrefix kinds [] s.vars with
        ⟨e | rs, vars⟩
      · rw [hloop] at hr
        exact h.registers hr s.nodes
      · rw [hloop] at hr
        exact h.registers hr _
  | contexts a =>
      obtain ⟨c, hok, hinv⟩ := h.contexts_apply hen hg
      exact ⟨_, by rw [ConstantPrefixSystem.apply, hok], hinv⟩
  | serveLoop curTime => exact (h.serveLoop curTime).1 hg

/-- **Run lemma.**  The invariant holds in every state of a run whose steps meet the condition. -/
lemma expiry_invariant (uuid3 : ℕ → Text → VarId) (timeout : ℕ)
    (hs : (system uuid3 timeout).ReachableUnder ExpiryGuard s) : s.ExpiryInv := by
  refine TransitionSystem.IsInvariantUnder.holds ⟨fun s₀ h₀ => ?_, fun s₁ a s₂ h₁ hg hstep => ?_⟩ hs
  · obtain rfl : s₀ = start timeout := h₀
    exact ⟨.new timeout, .start, fun v hv => absurd hv (List.not_mem_nil)⟩
  · obtain ⟨s', hok, hinv⟩ := h₁.apply uuid3 hstep.1 hg
    obtain rfl := Except.ok.inj (hok.symm.trans hstep.2)
    exact hinv

/-- **Expiry of constant prefixes.**  In every state of a run in which a task is bound to contexts
of its own variables and while its constant prefix is registered, and in which what expires has
contexts: no context has the extra reference of a variable that has expired, and the next step of
the serve loop succeeds and leaves none, exactly when every variable that expires in it has
contexts. -/
theorem prefix_expiry (uuid3 : ℕ → Text → VarId) (timeout : ℕ)
    (hs : (system uuid3 timeout).ReachableUnder ExpiryGuard s) :
    s.NoStaleHold ∧ ∀ curTime,
      (∃ s', s.serveLoop curTime = .ok s' ∧ s'.NoStaleHold) ↔ s.ExpiringHaveContexts curTime := by
  have hinv := expiry_invariant uuid3 timeout hs
  refine ⟨hinv.held, fun curTime => ⟨fun ⟨s', hok, _⟩ => ?_, fun hall => ?_⟩⟩
  · by_contra hnot
    rw [(hinv.serveLoop curTime).2 hnot] at hok
    simp at hok
  · obtain ⟨s', hok, hinv'⟩ := (hinv.serveLoop curTime).1 hall
    exact ⟨s', hok, hinv'.held⟩

instance (s : ConstantPrefixSystem α) (curTime : ℕ) : Decidable (s.ExpiringHaveContexts curTime) :=
  inferInstanceAs (Decidable (∀ v ∈ s.vars.expiredVars curTime, _))

instance (m : ServeCoreContextManager) (e : ℕ) (chain : List ChainNode) (vs : List VarId) :
    Decidable (∀ v, m.EntryMade e chain v → v ∈ vs) :=
  decidable_of_iff (∀ node ∈ chain.head?, node.isConstantPrefix = true →
      m.cached e [node.varId] = none → node.varId ∈ vs)
    ⟨fun h _ ⟨node, hnode, hprefix, hv, hnone⟩ => hv ▸ h node hnode hprefix (hv ▸ hnone),
      fun h node hnode hprefix hnone => h node.varId ⟨node, hnode, hprefix, rfl, hnone⟩⟩

instance (s : ConstantPrefixSystem α) : ∀ a, Decidable (s.ExpiryGuard a)
  | .contexts (.setTaskContexts e chain fuseFill) => inferInstanceAs (Decidable
      (s.contexts.world.mgr.BindGuard e chain fuseFill ∧
        ∀ v, s.contexts.world.mgr.EntryMade e chain v → v ∈ s.vars.constantPrefixes))
  | .serveLoop curTime => inferInstanceAs (Decidable (s.ExpiringHaveContexts curTime))
  | .contexts (.registerEngine _) | .contexts (.freeTaskContexts _)
  | .contexts (.freeConstantPrefixContexts _) | .contexts (.bindJobContext _)
  | .contexts (.fill _ _) | .registerLocalVarSpace _ | .freeLocalVarSpace _ | .createVar _ _
  | .submit _ _ _ _ => inferInstanceAs (Decidable True)

/-- A hash that keeps contents without braces apart. -/
def plainUuid3 (_ : ℕ) (content : Text) : VarId :=
  ⟨content.filter fun c => c != '{' && c != '}', by simp, by simp⟩

/-- A session, and a request of a constant prefix and an output. -/
def submitted : List (ConstantPrefixAction Unit) :=
  [.registerLocalVarSpace 0,
    .submit 0 0 true [.constantFill ['a'], .placeholderGen { name := ['g'], isOutput := true }]]

/-- Its chain. -/
def submittedChain : List ChainNode :=
  [{ varId := plainUuid3 0 ['a'], isConstantPrefix := true },
    { varId := plainUuid3 1 ['0'], isGen := true }]

/-- The request is executed on an engine, and its prefix expires afterwards. -/
theorem prefix_expiry_executed : ∃ s : ConstantPrefixSystem Unit,
    s.vars.constantPrefixes = [plainUuid3 0 ['a']] ∧
      ∃ s', s.serveLoop 1000000001 = .ok s' ∧ s'.NoStaleHold := by
  have hrun : TransitionSystem.RunsTo Enabled ExpiryGuard (fun s a => s.apply plainUuid3 a)
      (fun s => s.vars.constantPrefixes = [plainUuid3 0 ['a']] ∧
        s.ExpiringHaveContexts 1000000001) (start 1)
      (submitted ++ [.contexts (.registerEngine 0),
        .contexts (.setTaskContexts 0 submittedChain false), .contexts (.freeTaskContexts 0)]) := by
    decide +kernel
  obtain ⟨s, hs, hvars, hall⟩ := hrun.reachable _ (.init rfl)
  exact ⟨s, hvars, ((prefix_expiry plainUuid3 1 hs).2 1000000001).mpr hall⟩

/-- A request that is submitted and never scheduled: its prefix expires without contexts. -/
theorem expiry_without_contexts : ∃ s : ConstantPrefixSystem Unit,
    (system plainUuid3 1).Reachable s ∧ s.serveLoop 1000000001 =
      .error (.parrotAssert "Constant prefix variable should have contexts.") := by
  have hrun : TransitionSystem.RunsTo Enabled ExpiryGuard (fun s a => s.apply plainUuid3 a)
      (fun s => ¬ s.ExpiringHaveContexts 1000000001) (start 1) submitted := by
    decide +kernel
  obtain ⟨s, hs, hnot⟩ := hrun.reachable _ (.init rfl)
  exact ⟨s, hs.reachable, ((expiry_invariant plainUuid3 1 hs).serveLoop _).2 hnot⟩

end ConstantPrefixSystem

end ParrotServe
