import ParrotServe.Model.SemanticRequests
import ParrotServe.Properties.PrefixExpiry

/-!
# The contents of variables

A namespace finds a variable under the hash of its content, or under the hash of the decimal
numeral of its seed.  Both kinds share one table, so a constant that spells a seed is given the
variable of a placeholder.  `ContentInv` says how every entry came about; it holds in every run
(`variables_invariant`), and with it `createVarForNode_fits` is the specification of a node's
variable: a constant has its own text unless it spells a seed that the session has counted out.

Variables never change an id or a text once they have one (`KeepsVars`), so what holds of the
variable of a node when it is created holds when an engine reads it (`createVarsLoop_fits`).
-/

namespace ParrotServe
namespace SemanticVariableManager

open TransitionSystem

variable (uuid3 : ℕ → Text → VarId) {m m' m'' : SemanticVariableManager}
  {ns : SemanticVariableNamespace}

/-! ## What is kept -/

/-- The variables there are keep their ids, and their texts when they have one. -/
structure KeepsVars (m m' : SemanticVariableManager) : Prop where
  next : m.next ≤ m'.next
  id : ∀ r < m.next, (m'.obj r).id = (m.obj r).id
  content : ∀ r < m.next, ∀ text, (m.obj r).content = some text →
    (m'.obj r).content = some text

lemma KeepsVars.of_obj (hobj : m'.obj = m.obj) (hnext : m'.next = m.next) : m.KeepsVars m' :=
  ⟨hnext.ge, fun _ _ => by rw [hobj], fun _ _ _ h => by rw [hobj, h]⟩

lemma KeepsVars.refl (m : SemanticVariableManager) : m.KeepsVars m := .of_obj rfl rfl

lemma KeepsVars.trans (h : m.KeepsVars m') (h' : m'.KeepsVars m'') : m.KeepsVars m'' where
  next := h.next.trans h'.next
  id r hr := (h'.id r (hr.trans_le h.next)).trans (h.id r hr)
  content r hr text hc := h'.content r (hr.trans_le h.next) text (h.content r hr text hc)

lemma keepsVars_newVar (m : SemanticVariableManager) (sv : SemanticVariable) :
    m.KeepsVars (m.newVar sv).2 := by
  have hobj : ∀ r < m.next, (m.newVar sv).2.obj r = m.obj r := fun r hr =>
    Function.update_of_ne hr.ne _ _
  exact ⟨Nat.le_succ _, fun r hr => by rw [hobj r hr], fun r hr _ h => by rw [hobj r hr, h]⟩

lemma keepsVars_setContent (m : SemanticVariableManager) (r : SvRef) (content : Text) :
    m.KeepsVars (m.setContent r content).2 := by
  unfold setContent
  cases hc : (m.obj r).content with
  | some _ => exact .refl m
  | none =>
      refine ⟨le_rfl, fun r' _ => ?_, fun r' _ text h => ?_⟩
      · dsimp only
        rw [Function.update_apply]
        split_ifs with hr
        · rw [hr]
        · rfl
      · have hne : r' ≠ r := by
          rintro rfl
          rw [hc] at h
          cases h
        dsimp only
        rw [Function.update_of_ne hne, h]

/-! ## How entries came about -/

/-- Hashed by its content. -/
def CreatedByContent (m : SemanticVariableManager) (uuid : ℕ) (r : SvRef) : Prop :=
  ∃ text, (m.obj r).id = uuid3 uuid text ∧ (m.obj r).content = some text

/-- Hashed by a seed. -/
def CreatedBySeed (m : SemanticVariableManager) (ns : SemanticVariableNamespace) (r : SvRef) :
    Prop :=
  ∃ seed < ns.seedPool.curMaxId, (m.obj r).id = uuid3 ns.namespaceUuid (Nat.toDigits 10 seed)

/-- The namespace of a session. -/
structure NamespaceInv (m : SemanticVariableManager) (ns : SemanticVariableNamespace) : Prop where
  ids : ∀ v r, ns.vars.get? v = some r → r < m.next ∧ (m.obj r).id = v
  created : ∀ v r, ns.vars.get? v = some r →
    m.CreatedByContent uuid3 ns.namespaceUuid r ∨ m.CreatedBySeed uuid3 ns r
  seeds : ∀ seed ∈ ns.seedPool.freeIds, seed < ns.seedPool.curMaxId

/-- The variables of all namespaces. -/
structure ContentInv (m : SemanticVariableManager) : Prop where
  prefixes : ∀ v r, m.constantPrefixNamespace.vars.get? v = some r →
    r < m.next ∧ (m.obj r).id = v ∧
      m.CreatedByContent uuid3 m.constantPrefixNamespace.namespaceUuid r
  sessions : ∀ sessionId ns, m.sessionNamespaces.get? sessionId = some ns →
    m.NamespaceInv uuid3 ns

variable {uuid3}

lemma CreatedByContent.keeps {uuid : ℕ} {r : SvRef} (h : m.CreatedByContent uuid3 uuid r)
    (hk : m.KeepsVars m') (hr : r < m.next) : m'.CreatedByContent uuid3 uuid r := by
  obtain ⟨text, hid, hc⟩ := h
  exact ⟨text, (hk.id r hr).trans hid, hk.content r hr text hc⟩

lemma CreatedBySeed.keeps {r : SvRef} (h : m.CreatedBySeed uuid3 ns r) (hk : m.KeepsVars m')
    (hr : r < m.next) : m'.CreatedBySeed uuid3 ns r := by
  obtain ⟨seed, hlt, hid⟩ := h
  exact ⟨seed, hlt, (hk.id r hr).trans hid⟩

lemma NamespaceInv.keeps (h : m.NamespaceInv uuid3 ns) (hk : m.KeepsVars m') :
    m'.NamespaceInv uuid3 ns where
  ids v r hv := by
    obtain ⟨hr, hid⟩ := h.ids v r hv
    exact ⟨hr.trans_le hk.next, (hk.id r hr).trans hid⟩
  created v r hv := by
    obtain ⟨hr, -⟩ := h.ids v r hv
    exact (h.created v r hv).imp (fun hc => hc.keeps hk hr) fun hs => hs.keeps hk hr
  seeds := h.seeds

lemma ContentInv.keeps (h : m.ContentInv uuid3) (hk : m.KeepsVars m')
    (hglobal : m'.constantPrefixNamespace = m.constantPrefixNamespace)
    (hsessions : m'.sessionNamespaces = m.sessionNamespaces) : m'.ContentInv uuid3 where
  prefixes v r hv := by
    rw [hglobal] at hv ⊢
    obtain ⟨hr, hid, hc⟩ := h.prefixes v r hv
    exact ⟨hr.trans_le hk.next, (hk.id r hr).trans hid, hc.keeps hk hr⟩
  sessions sessionId ns hns := (h.sessions sessionId ns (hsessions ▸ hns)).keeps hk

/-- A session gets another namespace. -/
lemma ContentInv.setSession (h : m.ContentInv uuid3) (hns : m.NamespaceInv uuid3 ns)
    (sessionId uuid : ℕ) : ({ m with
      sessionNamespaces := m.sessionNamespaces.set sessionId ns
      nextUuid := uuid } : SemanticVariableManager).ContentInv uuid3 where
  prefixes := h.prefixes
  sessions id ns' hns' := by
    dsimp only at hns'
    rw [Dict.get?_set] at hns'
    split_ifs at hns'
    · obtain rfl := Option.some.inj hns'
      exact ⟨hns.ids, hns.created, hns.seeds⟩
    · have hold := h.sessions id ns' hns'
      exact ⟨hold.ids, hold.created, hold.seeds⟩

/-! ## Creating variables -/

lemma newVar_obj (m : SemanticVariableManager) (sv : SemanticVariable) :
    (m.newVar sv).2.obj m.next = sv := Function.update_self _ _ _

/-- A new entry. -/
lemma NamespaceInv.newVar (h : m.NamespaceInv uuid3 ns) {sv : SemanticVariable} (v : VarId)
    (hid : sv.id = v)
    (hcreated : (m.newVar sv).2.CreatedByContent uuid3 ns.namespaceUuid m.next ∨
      (m.newVar sv).2.CreatedBySeed uuid3 ns m.next) :
    (m.newVar sv).2.NamespaceInv uuid3 { ns with vars := ns.vars.set v m.next } := by
  have hold := h.keeps (keepsVars_newVar m sv)
  refine ⟨fun v' r hv => ?_, fun v' r hv => ?_, h.seeds⟩
  all_goals
    dsimp only at hv
    rw [Dict.get?_set] at hv
    split_ifs at hv with heq
  · obtain rfl := Option.some.inj hv
    exact ⟨Nat.lt_succ_self _, by rw [newVar_obj, hid, heq]⟩
  · exact hold.ids v' r hv
  · obtain rfl := Option.some.inj hv
    exact hcreated
  · exact hold.created v' r hv

/-- The pool counts on. -/
lemma NamespaceInv.withPool (h : m.NamespaceInv uuid3 ns) {pool : RecyclePool}
    (hmax : ns.seedPool.curMaxId ≤ pool.curMaxId)
    (hfree : ∀ seed ∈ pool.freeIds, seed ∈ ns.seedPool.freeIds) :
    m.NamespaceInv uuid3 { ns with seedPool := pool } where
  ids := h.ids
  created v r hv := (h.created v r hv).imp id fun ⟨seed, hlt, hid⟩ => ⟨seed, hlt.trans_le hmax, hid⟩
  seeds seed hs := (h.seeds seed (hfree seed hs)).trans_le hmax

/-- What is known of an allocation, whether it raises or not. -/
lemma allocate_counts {pool pool' : RecyclePool} {result : Except PyError ℕ}
    (h : pool.allocate = (result, pool')) : pool.curMaxId ≤ pool'.curMaxId ∧
      (∀ seed ∈ pool'.freeIds, seed ∈ pool.freeIds) ∧
      ∀ seed, result = .ok seed → (∀ seed ∈ pool.freeIds, seed < pool.curMaxId) →
        seed < pool'.curMaxId := by
  cases result with
  | error e =>
      obtain ⟨hfree, hmax⟩ := RecyclePool.allocate_error_cases h
      exact ⟨hmax ▸ Nat.le_succ _, fun _ hs => hfree ▸ hs, fun _ he => by cases he⟩
  | ok seed =>
      rcases RecyclePool.allocate_cases h with ⟨rest, hfree, hrest, hmax⟩ | ⟨rfl, hfree, hmax⟩
      · refine ⟨hmax.ge, fun s hs => ?_, fun s hs hall => ?_⟩
        · rw [hfree]
          exact List.mem_cons_of_mem _ (hrest ▸ hs)
        · obtain rfl := Except.ok.inj hs
          rw [hmax]
          exact hall _ (hfree ▸ List.mem_cons_self)
      · refine ⟨hmax ▸ Nat.le_succ _, fun s hs => hfree ▸ hs, fun s hs _ => ?_⟩
        obtain rfl := Except.ok.inj hs
        omega

/-- `new_var_by_name`, whether it raises or not. -/
lemma newVarByName_spec (h : m.NamespaceInv uuid3 ns) (name : Text) (isConstantPrefix : Bool)
    {result : Except PyError SvRef} {ns' : SemanticVariableNamespace}
    (hok : m.newVarByName uuid3 ns name isConstantPrefix = (result, ns', m')) :
    m.KeepsVars m' ∧ m'.NamespaceInv uuid3 ns' ∧
      m'.constantPrefixNamespace = m.constantPrefixNamespace ∧
      m'.sessionNamespaces = m.sessionNamespaces ∧
      ∀ r, result = .ok r → r < m'.next ∧ (m'.obj r).content = none := by
  unfold newVarByName at hok
  split at hok
  · rename_i e pool hpool
    obtain ⟨hmax, hfree, -⟩ := allocate_counts hpool
    simp only [Prod.mk.injEq] at hok
    obtain ⟨rfl, rfl, rfl⟩ := hok
    exact ⟨.refl m, h.withPool hmax hfree, rfl, rfl, fun _ he => by cases he⟩
  · rename_i seed pool hpool
    obtain ⟨hmax, hfree, hseed⟩ := allocate_counts hpool
    have hns := h.withPool hmax hfree
    dsimp only at hok
    split_ifs at hok
    · simp only [Prod.mk.injEq] at hok
      obtain ⟨rfl, rfl, rfl⟩ := hok
      exact ⟨.refl m, hns, rfl, rfl, fun _ he => by cases he⟩
    · simp only [Prod.mk.injEq] at hok
      obtain ⟨rfl, rfl, rfl⟩ := hok
      refine ⟨keepsVars_newVar m _, hns.newVar _ rfl (.inr ⟨seed, hseed seed rfl h.seeds, ?_⟩), rfl,
        rfl, fun r hr => ?_⟩
      · rw [newVar_obj]
      · obtain rfl := Except.ok.inj hr
        exact ⟨Nat.lt_succ_self _, congrArg SemanticVariable.content (newVar_obj m _)⟩

/-- A content that spells no seed of a namespace. -/
def SpellsNoSeed (ns : SemanticVariableNamespace) (content : Text) : Prop :=
  ∀ seed < ns.seedPool.curMaxId, Nat.toDigits 10 seed ≠ content

/-- `new_var_by_content` in the namespace of a session. -/
lemma newVarByContent_spec (hinj : ∀ uuid, Function.Injective (uuid3 uuid))
    (h : m.NamespaceInv uuid3 ns) (content : Text) (isConstantPrefix : Bool) {r : SvRef}
    {ns' : SemanticVariableNamespace}
    (hok : m.newVarByContent uuid3 ns content isConstantPrefix = (r, ns', m')) :
    m.KeepsVars m' ∧ m'.NamespaceInv uuid3 ns' ∧
      m'.constantPrefixNamespace = m.constantPrefixNamespace ∧
      m'.sessionNamespaces = m.sessionNamespaces ∧ r < m'.next ∧
      (SpellsNoSeed ns content → (m'.obj r).content = some content) := by
  cases hget : ns.vars.get? (uuid3 ns.namespaceUuid content) with
  | some r' =>
      rw [newVarByContent_hit uuid3 hget] at hok
      simp only [Prod.mk.injEq] at hok
      obtain ⟨rfl, rfl, rfl⟩ := hok
      obtain ⟨hlt, hid⟩ := h.ids _ _ hget
      refine ⟨.refl m, h, rfl, rfl, hlt, fun hno => ?_⟩
      rcases h.created _ _ hget with ⟨text, hid', hc⟩ | ⟨seed, hseed, hid'⟩
      · obtain rfl := hinj _ (hid.symm.trans hid')
        exact hc
      · exact absurd (hinj _ (hid.symm.trans hid')).symm (hno seed hseed)
  | none =>
      rw [newVarByContent_miss uuid3 hget] at hok
      simp only [Prod.mk.injEq] at hok
      obtain ⟨rfl, rfl, rfl⟩ := hok
      refine ⟨keepsVars_newVar m _, h.newVar _ rfl (.inl ⟨content, ?_, ?_⟩), rfl, rfl,
        Nat.lt_succ_self _, fun _ => ?_⟩
      all_goals
        rw [newVar_obj]
        rfl

lemma createLocalVarByName_spec (h : m.ContentInv uuid3) {sessionId : ℕ} {varName : Text}
    {result : Except PyError SvRef}
    (hok : m.createLocalVarByName uuid3 sessionId varName = (result, m')) :
    m.KeepsVars m' ∧ m'.ContentInv uuid3 ∧
      ∀ r, result = .ok r → r < m'.next ∧ (m'.obj r).content = none := by
  unfold createLocalVarByName at hok
  split at hok
  · simp only [Prod.mk.injEq] at hok
    obtain ⟨rfl, rfl⟩ := hok
    exact ⟨.refl m, h, fun _ he => by cases he⟩
  · rename_i ns hns
    rcases hnew : m.newVarByName uuid3 ns varName false with ⟨result', ns', m₁⟩
    obtain ⟨hk, hinv, hglobal, hsessions, hr⟩ := newVarByName_spec (h.sessions _ _ hns) _ _ hnew
    rw [hnew] at hok
    simp only [Prod.mk.injEq] at hok
    obtain ⟨rfl, rfl⟩ := hok
    exact ⟨⟨hk.next, hk.id, hk.content⟩,
      (h.keeps hk hglobal hsessions).setSession hinv sessionId m₁.nextUuid, hr⟩

lemma getLocalVarByContent_spec (hinj : ∀ uuid, Function.Injective (uuid3 uuid))
    (h : m.ContentInv uuid3) {sessionId : ℕ} {content : Text} {result : Except PyError SvRef}
    (hok : m.getLocalVarByContent uuid3 sessionId content = (result, m')) :
    m.KeepsVars m' ∧ m'.ContentInv uuid3 ∧ ∀ r, result = .ok r → r < m'.next ∧
      ((∀ ns, m.sessionNamespaces.get? sessionId = some ns → SpellsNoSeed ns content) →
        (m'.obj r).content = some content) := by
  unfold getLocalVarByContent at hok
  split at hok
  · simp only [Prod.mk.injEq] at hok
    obtain ⟨rfl, rfl⟩ := hok
    exact ⟨.refl m, h, fun _ he => by cases he⟩
  · rename_i ns hns
    rcases hnew : m.newVarByContent uuid3 ns content false with ⟨r', ns', m₁⟩
    obtain ⟨hk, hinv, hglobal, hsessions, hlt, hc⟩ :=
      newVarByContent_spec hinj (h.sessions _ _ hns) _ _ hnew
    rw [hnew] at hok
    simp only [Prod.mk.injEq] at hok
    obtain ⟨rfl, rfl⟩ := hok
    refine ⟨⟨hk.next, hk.id, hk.content⟩,
      (h.keeps hk hglobal hsessions).setSession hinv sessionId m₁.nextUuid, fun r hr => ?_⟩
    obtain rfl := Except.ok.inj hr
    exact ⟨hlt, fun hno => hc (hno ns hns)⟩

/-- A constant prefix is found by its text. -/
lemma getConstantPrefixVar_spec (hinj : ∀ uuid, Function.Injective (uuid3 uuid))
    (h : m.ContentInv uuid3) {now : ℕ} {content : Text} {r : SvRef}
    (hok : m.getConstantPrefixVar uuid3 now content = (r, m')) :
    m.KeepsVars m' ∧ m'.ContentInv uuid3 ∧ r < m'.next ∧ (m'.obj r).content = some content := by
  rw [getConstantPrefixVar] at hok
  set ns := m.constantPrefixNamespace with hns
  cases hget : ns.vars.get? (uuid3 ns.namespaceUuid content) with
  | some r' =>
      rw [newVarByContent_hit uuid3 hget] at hok
      simp only [Prod.mk.injEq] at hok
      obtain ⟨rfl, rfl⟩ := hok
      obtain ⟨hlt, hid, text, hid', hc⟩ := h.prefixes _ _ hget
      obtain rfl := hinj _ (hid.symm.trans hid')
      exact ⟨.of_obj rfl rfl, ⟨h.prefixes, fun id ns' hns' =>
        (h.sessions id ns' hns').keeps (.of_obj rfl rfl)⟩, hlt, hc⟩
  | none =>
      rw [newVarByContent_miss uuid3 hget] at hok
      simp only [Prod.mk.injEq] at hok
      obtain ⟨rfl, rfl⟩ := hok
      have hk := keepsVars_newVar m (contentVar uuid3 ns content true)
      have hobj := newVar_obj m (contentVar uuid3 ns content true)
      have hid : ((m.newVar (contentVar uuid3 ns content true)).2.obj m.next).id =
          uuid3 ns.namespaceUuid content := congrArg SemanticVariable.id hobj
      have hc : ((m.newVar (contentVar uuid3 ns content true)).2.obj m.next).content =
          some content := congrArg SemanticVariable.content hobj
      refine ⟨⟨hk.next, hk.id, hk.content⟩, ⟨fun v r hv => ?_, fun id ns' hns' => ?_⟩,
        Nat.lt_succ_self _, hc⟩
      · dsimp only at hv
        rw [Dict.get?_set] at hv
        split_ifs at hv with heq
        · obtain rfl := Option.some.inj hv
          exact ⟨Nat.lt_succ_self _, hid.trans heq.symm, content, hid, hc⟩
        · obtain ⟨hlt, hid', hold⟩ := h.prefixes v r hv
          obtain ⟨text, ht, htc⟩ := hold.keeps hk hlt
          exact ⟨hlt.trans_le hk.next, (hk.id r hlt).trans hid', text, ht, htc⟩
      · have hold := (h.sessions id ns' hns').keeps hk
        exact ⟨hold.ids, hold.created, hold.seeds⟩

lemma setContent_spec (h : m.ContentInv uuid3) {r : SvRef} {content : Text}
    {result : Except PyError Unit} (hok : m.setContent r content = (result, m')) :
    m.KeepsVars m' ∧ m'.ContentInv uuid3 ∧
      (result = .ok () → m'.next = m.next ∧ (m'.obj r).content = some content) := by
  have hk := keepsVars_setContent m r content
  rw [hok] at hk
  unfold setContent at hok
  split at hok
  · simp only [Prod.mk.injEq] at hok
    obtain ⟨rfl, rfl⟩ := hok
    exact ⟨hk, h, fun he => by cases he⟩
  · simp only [Prod.mk.injEq] at hok
    obtain ⟨rfl, rfl⟩ := hok
    exact ⟨hk, h.keeps hk rfl rfl, fun _ => ⟨rfl, by simp⟩⟩

/-! ## The variables of a request -/

/-- The variable of a node: a constant has its text, an input its value or the id it was given. -/
def Fits (m : SemanticVariableManager) (kind : NodeKind) (r : SvRef) : Prop :=
  r < m.next ∧
    match kind with
    | .constantFill text => (m.obj r).content = some text
    | .placeholderFill param =>
        match param.varId with
        | some id => (m.obj r).id.val = id
        | none => ∃ value, param.value = some value ∧ (m.obj r).content = some value
    | .placeholderGen _ => True

lemma Fits.keeps {kind : NodeKind} {r : SvRef} (h : m.Fits kind r) (hk : m.KeepsVars m') :
    m'.Fits kind r := by
  obtain ⟨hr, h⟩ := h
  refine ⟨hr.trans_le hk.next, ?_⟩
  cases kind with
  | constantFill text => exact hk.content r hr text h
  | placeholderFill param =>
      dsimp only at h ⊢
      cases hid : param.varId with
      | some id =>
          rw [hid] at h
          exact (congrArg Subtype.val (hk.id r hr)).trans h
      | none =>
          rw [hid] at h
          obtain ⟨value, hvalue, hc⟩ := h
          exact ⟨value, hvalue, hk.content r hr value hc⟩
  | placeholderGen _ => trivial

/-- A constant outside the constant prefix spells no seed that its session has counted out. -/
def NodeApart (m : SemanticVariableManager) (sessionId : ℕ) (constantPrefixFlag : Bool) :
    NodeKind → Prop
  | .constantFill text => constantPrefixFlag = false →
      ∀ ns, m.sessionNamespaces.get? sessionId = some ns → SpellsNoSeed ns text
  | _ => True

instance (m : SemanticVariableManager) (sessionId : ℕ) (constantPrefixFlag : Bool) :
    ∀ kind, Decidable (m.NodeApart sessionId constantPrefixFlag kind)
  | .constantFill text => decidable_of_iff (constantPrefixFlag = false →
      ∀ ns ∈ m.sessionNamespaces.get? sessionId, ∀ seed < ns.seedPool.curMaxId,
        Nat.toDigits 10 seed ≠ text) Iff.rfl
  | .placeholderFill _ | .placeholderGen _ => inferInstanceAs (Decidable True)

/-- Inputs are not outputs. -/
def InputsOnly : NodeKind → Prop
  | .placeholderFill param => param.isOutput = false
  | _ => True

/-- The variable of an input that was given by its id. -/
lemma getLocalVarById_spec (h : m.ContentInv uuid3) {sessionId : ℕ} {varId : Text} {r : SvRef}
    (hok : m.getLocalVarById sessionId varId = .ok r) : r < m.next ∧ (m.obj r).id.val = varId := by
  unfold getLocalVarById at hok
  split at hok
  · cases hok
  · rename_i ns hns
    split at hok
    · cases hok
    · rename_i r' hget
      obtain rfl := Except.ok.inj hok
      unfold SemanticVariableNamespace.getVarById at hget
      split_ifs at hget with hbraces
      obtain ⟨hlt, hid⟩ := (h.sessions _ _ hns).ids _ _ hget
      exact ⟨hlt, congrArg Subtype.val hid⟩

/-- `should_create` of an input. -/
lemma shouldCreate_eq {param : SemanticFunctionParameter} (h : param.isOutput = false) :
    param.shouldCreate = param.varId.isNone := by
  rw [SemanticFunctionParameter.shouldCreate, h, SemanticFunctionParameter.hasVar, Bool.false_or,
    Option.not_isSome]

/-- The variable of an input, whether the loop raises or not. -/
lemma createVarForFill_spec (h : m.ContentInv uuid3) {sessionId now : ℕ} {flag : Bool}
    {param : SemanticFunctionParameter} {result : Except PyError SvRef}
    (hok : m.createVarForNode uuid3 sessionId now flag (.placeholderFill param) = (result, m')) :
    m.KeepsVars m' ∧ m'.ContentInv uuid3 ∧ ∀ r, result = .ok r → param.isOutput = false →
      m'.Fits (.placeholderFill param) r := by
  rw [createVarForNode] at hok
  split_ifs at hok with hcreate
  · split at hok
    · rename_i e m₁ hnew
      obtain ⟨hk, hinv, -⟩ := createLocalVarByName_spec h hnew
      simp only [Prod.mk.injEq] at hok
      obtain ⟨rfl, rfl⟩ := hok
      exact ⟨hk, hinv, fun _ he => by cases he⟩
    · rename_i r₁ m₁ hnew
      obtain ⟨hk, hinv, hr⟩ := createLocalVarByName_spec h hnew
      obtain ⟨hlt, -⟩ := hr r₁ rfl
      split at hok
      · simp only [Prod.mk.injEq] at hok
        obtain ⟨rfl, rfl⟩ := hok
        exact ⟨hk, hinv, fun _ he => by cases he⟩
      · rename_i value hvalue
        split at hok
        · rename_i e m₂ hset
          obtain ⟨hk', hinv', -⟩ := setContent_spec hinv hset
          simp only [Prod.mk.injEq] at hok
          obtain ⟨rfl, rfl⟩ := hok
          exact ⟨hk.trans hk', hinv', fun _ he => by cases he⟩
        · rename_i m₂ hset
          obtain ⟨hk', hinv', hc⟩ := setContent_spec hinv hset
          obtain ⟨hnext, hc⟩ := hc rfl
          simp only [Prod.mk.injEq] at hok
          obtain ⟨rfl, rfl⟩ := hok
          refine ⟨hk.trans hk', hinv', fun r he hin => ?_⟩
          obtain rfl := Except.ok.inj he
          rw [shouldCreate_eq hin, Option.isNone_iff_eq_none] at hcreate
          refine ⟨hnext ▸ hlt, ?_⟩
          simp only [hcreate]
          exact ⟨value, hvalue, hc⟩
  · simp only [Prod.mk.injEq] at hok
    obtain ⟨rfl, rfl⟩ := hok
    refine ⟨.refl m, h, fun r he hin => ?_⟩
    rw [shouldCreate_eq hin, Option.isNone_iff_eq_none] at hcreate
    obtain ⟨id, hvar⟩ := Option.ne_none_iff_exists'.mp hcreate
    obtain ⟨hlt, hid⟩ := getLocalVarById_spec h he
    refine ⟨hlt, ?_⟩
    simp only [hvar]
    rwa [hvar] at hid

/-- The body of the loop, whether it raises or not. -/
lemma createVarForNode_spec (hinj : ∀ uuid, Function.Injective (uuid3 uuid))
    (h : m.ContentInv uuid3) {sessionId now : ℕ} {flag : Bool} {kind : NodeKind}
    {result : Except PyError SvRef}
    (hok : m.createVarForNode uuid3 sessionId now flag kind = (result, m')) :
    m.KeepsVars m' ∧ m'.ContentInv uuid3 ∧ ∀ r, result = .ok r → InputsOnly kind →
      m.NodeApart sessionId flag kind → m'.Fits kind r := by
  cases kind with
  | constantFill text =>
      rw [createVarForNode] at hok
      split_ifs at hok with hflag
      · rcases hget : m.getConstantPrefixVar uuid3 now text with ⟨r', m₁⟩
        obtain ⟨hk, hinv, hlt, hc⟩ := getConstantPrefixVar_spec hinj h hget
        rw [hget] at hok
        simp only [Prod.mk.injEq] at hok
        obtain ⟨rfl, rfl⟩ := hok
        refine ⟨hk, hinv, fun r hr _ _ => ?_⟩
        obtain rfl := Except.ok.inj hr
        exact ⟨hlt, hc⟩
      · obtain ⟨hk, hinv, hr⟩ := getLocalVarByContent_spec hinj h hok
        refine ⟨hk, hinv, fun r he _ hapart => ?_⟩
        obtain ⟨hlt, hc⟩ := hr r he
        exact ⟨hlt, hc (hapart (by simpa using hflag))⟩
  | placeholderFill param =>
      obtain ⟨hk, hinv, hfits⟩ := createVarForFill_spec h hok
      exact ⟨hk, hinv, fun r he hin _ => hfits r he hin⟩
  | placeholderGen param =>
      obtain ⟨hk, hinv, hr⟩ := createLocalVarByName_spec h hok
      exact ⟨hk, hinv, fun r he _ _ => ⟨(hr r he).1, trivial⟩⟩

/-- No constant of a request is given the variable of a placeholder. -/
def ConstantsApart (uuid3 : ℕ → Text → VarId) (sessionId now : ℕ) : Bool → List NodeKind →
    SemanticVariableManager → Prop
  | _, [], _ => True
  | flag, kind :: kinds, m =>
      let flag := if kind.hasPlaceholder then false else flag
      m.NodeApart sessionId flag kind ∧
        ConstantsApart uuid3 sessionId now flag kinds
          (m.createVarForNode uuid3 sessionId now flag kind).2

instance ConstantsApart.decidable (uuid3 : ℕ → Text → VarId) (sessionId now : ℕ) :
    ∀ flag kinds m, Decidable (ConstantsApart uuid3 sessionId now flag kinds m)
  | _, [], _ => inferInstanceAs (Decidable True)
  | flag, kind :: kinds, m =>
      let flag := if kind.hasPlaceholder then false else flag
      have : Decidable (ConstantsApart uuid3 sessionId now flag kinds
          (m.createVarForNode uuid3 sessionId now flag kind).2) :=
        ConstantsApart.decidable uuid3 sessionId now _ _ _
      inferInstanceAs (Decidable (m.NodeApart sessionId flag kind ∧ _))

/-- The loop over the nodes, whether it raises or not. -/
lemma createVarsLoop_spec (hinj : ∀ uuid, Function.Injective (uuid3 uuid)) {sessionId now : ℕ}
    (kinds : List NodeKind) : ∀ {flag : Bool} {rs : List SvRef} {m m' : SemanticVariableManager}
      {result : Except PyError (List SvRef)}, m.ContentInv uuid3 →
      createVarsLoop uuid3 sessionId now flag kinds rs m = (result, m') →
      m.KeepsVars m' ∧ m'.ContentInv uuid3 ∧ ∀ rs', result = .ok rs' → ∃ new, rs' = rs ++ new ∧
        new.length = kinds.length ∧ ((∀ kind ∈ kinds, InputsOnly kind) →
          ConstantsApart uuid3 sessionId now flag kinds m → List.Forall₂ m'.Fits kinds new) := by
  induction kinds with
  | nil =>
      intro flag rs m m' result h hok
      rw [createVarsLoop, Prod.mk.injEq] at hok
      obtain ⟨rfl, rfl⟩ := hok
      refine ⟨.refl m, h, fun rs' he => ⟨[], ?_, rfl, fun _ _ => .nil⟩⟩
      rw [List.append_nil, Except.ok.inj he]
  | cons kind kinds ih =>
      intro flag rs m m' result h hok
      rw [createVarsLoop] at hok
      set flag' : Bool := if kind.hasPlaceholder then false else flag with hflag
      rcases hnode : m.createVarForNode uuid3 sessionId now flag' kind with ⟨e | r, m₁⟩
      · obtain ⟨hk, hinv, -⟩ := createVarForNode_spec hinj h hnode
        rw [hnode] at hok
        simp only [Prod.mk.injEq] at hok
        obtain ⟨rfl, rfl⟩ := hok
        exact ⟨hk, hinv, fun _ he => by cases he⟩
      · obtain ⟨hk, hinv, hfits⟩ := createVarForNode_spec hinj h hnode
        rw [hnode] at hok
        obtain ⟨hk', hinv', hrest⟩ := ih hinv hok
        refine ⟨hk.trans hk', hinv', fun rs' he => ?_⟩
        obtain ⟨new, rfl, hlen, hall⟩ := hrest rs' he
        refine ⟨r :: new, by rw [List.append_assoc, List.singleton_append], by simp [hlen],
          fun hin hapart => ?_⟩
        rw [ConstantsApart, ← hflag, hnode] at hapart
        exact .cons ((hfits r rfl (hin kind List.mem_cons_self) hapart.1).keeps hk')
          (hall (fun k hmem => hin k (List.mem_cons_of_mem _ hmem)) hapart.2)

/-! ## Runs -/

/-- A parameter of a native call, whether it raises or not. -/
lemma createVarForParam_spec (h : m.ContentInv uuid3) {sessionId : ℕ} {key : Text}
    {param : NativeFunctionParameter} {result : Except PyError SvRef}
    (hok : m.createVarForParam uuid3 sessionId key param = (result, m')) :
    m'.ContentInv uuid3 := by
  unfold createVarForParam at hok
  split_ifs at hok
  · split at hok
    · rename_i e m₁ hnew
      obtain ⟨-, hinv, -⟩ := createLocalVarByName_spec h hnew
      simp only [Prod.mk.injEq] at hok
      exact hok.2 ▸ hinv
    · rename_i r₁ m₁ hnew
      obtain ⟨-, hinv, -⟩ := createLocalVarByName_spec h hnew
      split at hok
      · simp only [Prod.mk.injEq] at hok
        exact hok.2 ▸ hinv
      · split at hok
        all_goals
          rename_i hset
          obtain ⟨-, hinv', -⟩ := setContent_spec hinv hset
          simp only [Prod.mk.injEq] at hok
          exact hok.2 ▸ hinv'
  · simp only [Prod.mk.injEq] at hok
    exact hok.2 ▸ h

lemma createVarsForPynativeFunc_spec {sessionId : ℕ}
    (params : List (Text × NativeFunctionParameter)) :
    ∀ {inputVars outputVars : List (Text × SvRef)} {m : SemanticVariableManager},
      m.ContentInv uuid3 →
      (createVarsForPynativeFunc uuid3 sessionId params inputVars outputVars m).2.ContentInv
        uuid3 := by
  induction params with
  | nil => exact fun h => h
  | cons param params ih =>
      obtain ⟨key, param⟩ := param
      intro inputVars outputVars m h
      rw [createVarsForPynativeFunc]
      rcases hnew : m.createVarForParam uuid3 sessionId key param with ⟨e | r, m₁⟩
      · exact createVarForParam_spec h hnew
      · have hinv := createVarForParam_spec h hnew
        dsimp only
        split_ifs
        · exact ih hinv
        · exact ih hinv

/-- Freeing a variable removes entries. -/
lemma freeVar_vars (ns : SemanticVariableNamespace) (sv : SemanticVariable) :
    (ns.freeVar sv).2.namespaceUuid = ns.namespaceUuid ∧
      ∀ v r, (ns.freeVar sv).2.vars.get? v = some r → ns.vars.get? v = some r := by
  have herase : ∀ v r, (ns.vars.erase sv.id).get? v = some r → ns.vars.get? v = some r := by
    intro v r hv
    rw [Dict.get?_erase] at hv
    split_ifs at hv
    exact hv
  unfold SemanticVariableNamespace.freeVar
  by_cases hmem : sv.id ∉ ns.vars.keys
  · rw [if_pos hmem]
    exact ⟨rfl, fun _ _ h => h⟩
  rw [if_neg hmem]
  by_cases hseed : sv.seed = noneSeed
  · rw [if_pos hseed]
    exact ⟨rfl, herase⟩
  rw [if_neg hseed]
  rcases ns.seedPool.free sv.seed with ⟨e | u, pool⟩
  · exact ⟨rfl, fun _ _ h => h⟩
  · exact ⟨rfl, herase⟩

/-- A constant prefix is freed. -/
lemma ContentInv.freeVar (h : m.ContentInv uuid3) (sv : SemanticVariable)
    (times : Dict VarId ℕ) : ({ m with
      constantPrefixNamespace := (m.constantPrefixNamespace.freeVar sv).2
      constantPrefixLastAccessTime := times } : SemanticVariableManager).ContentInv uuid3 := by
  obtain ⟨huuid, hvars⟩ := freeVar_vars m.constantPrefixNamespace sv
  refine ⟨fun v r hv => ?_, fun id ns hns => ?_⟩
  · obtain ⟨hlt, hid, hc⟩ := h.prefixes v r (hvars v r hv)
    exact ⟨hlt, hid, huuid ▸ hc⟩
  · have hold := h.sessions id ns hns
    exact ⟨hold.ids, hold.created, hold.seeds⟩

lemma ContentInv.freeExpired (curTime : ℕ) (items : List (VarId × ℕ)) :
    ∀ {ret : List SvRef} {m : SemanticVariableManager}, m.ContentInv uuid3 →
      (SemanticVariableManager.freeExpired curTime items ret m).2.ContentInv uuid3 := by
  induction items with
  | nil => exact fun h => h
  | cons item items ih =>
      obtain ⟨v, time⟩ := item
      intro ret m h
      rw [SemanticVariableManager.freeExpired]
      by_cases hexp : m.expired curTime time
      · rw [if_pos hexp]
        cases m.constantPrefixNamespace.vars.get? v with
        | none => exact h
        | some r =>
            have hfree := h.freeVar (m.obj r) m.constantPrefixLastAccessTime
            have hfree' := h.freeVar (m.obj r) (m.constantPrefixLastAccessTime.erase v)
            dsimp only
            rcases hok : m.constantPrefixNamespace.freeVar (m.obj r) with ⟨e | u, ns⟩
            · rw [hok] at hfree
              exact hfree
            · rw [hok] at hfree hfree'
              dsimp only
              split_ifs
              · exact ih hfree'
              · exact hfree
      · rw [if_neg hexp]
        exact ih h

lemma contentInv_new (timeout : ℕ) : (new timeout).ContentInv uuid3 :=
  ⟨fun _ _ h => (by cases h), fun _ _ h => (by cases h)⟩

lemma namespaceInv_new (uuid : ℕ) : m.NamespaceInv uuid3 { namespaceUuid := uuid } where
  ids v r hv := by simp at hv
  created v r hv := by simp at hv
  seeds seed hs := by simp at hs

/-- Every action keeps the invariant. -/
lemma ContentInv.apply (hinj : ∀ uuid, Function.Injective (uuid3 uuid)) (h : m.ContentInv uuid3)
    (a : VariableAction) : (m.apply uuid3 a).ContentInv uuid3 := by
  cases a with
  | registerLocalVarSpace sessionId =>
      rw [SemanticVariableManager.apply, registerLocalVarSpace]
      split_ifs
      · exact h
      · exact h.setSession (namespaceInv_new _) sessionId _
  | freeLocalVarSpace sessionId =>
      rw [SemanticVariableManager.apply, freeLocalVarSpace]
      split_ifs
      · refine ⟨h.prefixes, fun id ns hns => ?_⟩
        dsimp only at hns
        rw [Dict.get?_erase] at hns
        split_ifs at hns
        have hold := h.sessions id ns hns
        exact ⟨hold.ids, hold.created, hold.seeds⟩
      · exact h
  | createVar sessionId varName =>
      rw [SemanticVariableManager.apply, createVar]
      split_ifs
      · exact (createLocalVarByName_spec h rfl).2.1
      · exact h
  | createVarsForSemanticRequestChain sessionId now cachePrefix kinds =>
      exact (createVarsLoop_spec hinj kinds h rfl).2.1
  | createVarsForPynativeFunc sessionId params => exact createVarsForPynativeFunc_spec params h
  | set r content => exact (setContent_spec h rfl).2.1
  | freeExpiredConstantPrefixVars curTime => exact h.freeExpired curTime _

/-- How the entries came about, in every run. -/
lemma variables_invariant (hinj : ∀ uuid, Function.Injective (uuid3 uuid)) (timeout : ℕ)
    (guard : SemanticVariableManager → VariableAction → Prop) :
    (variableSystem uuid3 timeout).IsInvariantUnder guard (ContentInv uuid3) where
  init _ h := h ▸ contentInv_new timeout
  step _ a _ h _ hstep := hstep.2 ▸ h.apply hinj a

end SemanticVariableManager
end ParrotServe
