import ParrotServe.Properties.VariableContents

/-!
# Fresh variables

References of variables are the order in which they were created.  A request creates variables
and looks others up, and what it does to the namespaces is `Grown`: a session finds what it found
before, and what else it finds is new and has a hash of its namespace as its id.

So an output has a variable behind all that were there before, and behind those of the nodes in
front of it (`createVarsLoop_fresh`).  A native function has the same when the ids in its arguments
were known before: without that an input could be the id of an output of the same call
(`createVarsForPynativeFunc_fresh`).
-/

namespace ParrotServe

namespace SemanticVariableManager

variable {uuid3 : ℕ → Text → VarId} {m m' m'' : SemanticVariableManager}
  {ns ns' ns'' : SemanticVariableNamespace} {sessionId : ℕ}

/-! ## What requests do to the namespaces -/

/-- All variables that are found were created, and those of a session have the ids under which they
are found. -/
structure Bounded (m : SemanticVariableManager) : Prop where
  prefixes : ∀ {v r}, m.constantPrefixNamespace.vars.get? v = some r → r < m.next
  sessions : ∀ {sessionId ns}, m.sessionNamespaces.get? sessionId = some ns →
    ∀ {v r}, ns.vars.get? v = some r → r < m.next ∧ (m.obj r).id = v

/-- A namespace with more entries, for variables that are new. -/
structure NsGrown (uuid3 : ℕ → Text → VarId) (m m' : SemanticVariableManager)
    (ns ns' : SemanticVariableNamespace) : Prop where
  uuid : ns'.namespaceUuid = ns.namespaceUuid
  old : ∀ {v r}, ns.vars.get? v = some r → ns'.vars.get? v = some r
  new : ∀ {v r}, ns'.vars.get? v = some r → ns.vars.get? v = some r ∨
    (m.next ≤ r ∧ r < m'.next ∧ (m'.obj r).id = v ∧ ∃ text, v = uuid3 ns.namespaceUuid text)

lemma NsGrown.refl (m m' : SemanticVariableManager) (ns : SemanticVariableNamespace) :
    NsGrown uuid3 m m' ns ns :=
  ⟨rfl, fun h => h, fun h => .inl h⟩

/-- What a request does to the namespaces. -/
structure Grown (uuid3 : ℕ → Text → VarId) (m m' : SemanticVariableManager) : Prop where
  next : m.next ≤ m'.next
  id : ∀ r < m.next, (m'.obj r).id = (m.obj r).id
  prefixes : ∀ {v r}, m'.constantPrefixNamespace.vars.get? v = some r →
    m.constantPrefixNamespace.vars.get? v = some r ∨ r < m'.next
  sessions : ∀ {sessionId ns}, m.sessionNamespaces.get? sessionId = some ns →
    ∃ ns', m'.sessionNamespaces.get? sessionId = some ns' ∧ NsGrown uuid3 m m' ns ns'
  back : ∀ {sessionId ns'}, m'.sessionNamespaces.get? sessionId = some ns' →
    ∃ ns, m.sessionNamespaces.get? sessionId = some ns ∧ NsGrown uuid3 m m' ns ns'

lemma Grown.refl (m : SemanticVariableManager) : Grown uuid3 m m where
  next := le_rfl
  id _ _ := rfl
  prefixes h := .inl h
  sessions h := ⟨_, h, .refl _ _ _⟩
  back h := ⟨_, h, .refl _ _ _⟩

lemma NsGrown.trans (h : NsGrown uuid3 m m' ns ns') (h' : NsGrown uuid3 m' m'' ns' ns'')
    (hg : Grown uuid3 m m') (hg' : Grown uuid3 m' m'') : NsGrown uuid3 m m'' ns ns'' where
  uuid := h'.uuid.trans h.uuid
  old hv := h'.old (h.old hv)
  new hv := by
    rcases h'.new hv with hv | ⟨hmid, hlt, hid, text, ht⟩
    · rcases h.new hv with hv | ⟨hle, hlt, hid, ht⟩
      · exact .inl hv
      · exact .inr ⟨hle, hlt.trans_le hg'.next, (hg'.id _ hlt).trans hid, ht⟩
    · exact .inr ⟨hg.next.trans hmid, hlt, hid, text, h.uuid ▸ ht⟩

lemma Grown.trans (h : Grown uuid3 m m') (h' : Grown uuid3 m' m'') : Grown uuid3 m m'' where
  next := h.next.trans h'.next
  id r hr := (h'.id r (hr.trans_le h.next)).trans (h.id r hr)
  prefixes hv := by
    rcases h'.prefixes hv with hv | hlt
    · exact (h.prefixes hv).imp_right fun hlt => hlt.trans_le h'.next
    · exact .inr hlt
  sessions hns := by
    obtain ⟨ns', hns', hg⟩ := h.sessions hns
    obtain ⟨ns'', hns'', hg'⟩ := h'.sessions hns'
    exact ⟨ns'', hns'', hg.trans hg' h h'⟩
  back hns := by
    obtain ⟨ns', hns', hg'⟩ := h'.back hns
    obtain ⟨ns, hns, hg⟩ := h.back hns'
    exact ⟨ns, hns, hg.trans hg' h h'⟩

lemma Bounded.grown (hb : m.Bounded) (h : Grown uuid3 m m') : m'.Bounded where
  prefixes hv := (h.prefixes hv).elim (fun hv => (hb.prefixes hv).trans_le h.next) fun h => h
  sessions hns v r hv := by
    obtain ⟨ns, hns, hg⟩ := h.back hns
    rcases hg.new hv with hv | ⟨-, hlt, hid, -⟩
    · obtain ⟨hlt, hid⟩ := hb.sessions hns hv
      exact ⟨hlt.trans_le h.next, (h.id r hlt).trans hid⟩
    · exact ⟨hlt, hid⟩

/-- A session gets its namespace back with more entries. -/
lemma grown_setSession {obj : SvRef → SemanticVariable} {next : SvRef}
    (hns : m.sessionNamespaces.get? sessionId = some ns) (hnext : m.next ≤ next)
    (hids : ∀ r < m.next, (obj r).id = (m.obj r).id)
    (hg : NsGrown uuid3 m { m with obj, next } ns ns') :
    Grown uuid3 m { m with
      obj, next, sessionNamespaces := m.sessionNamespaces.set sessionId ns' } where
  next := hnext
  id := hids
  prefixes h := .inl h
  sessions {id ns₁} h := by
    dsimp only
    rw [Dict.get?_set]
    split_ifs with hid
    · rw [hid, hns] at h
      obtain rfl := Option.some.inj h
      exact ⟨ns', rfl, hg.uuid, hg.old, hg.new⟩
    · exact ⟨ns₁, h, .refl _ _ _⟩
  back {id ns₁} h := by
    dsimp only at h
    rw [Dict.get?_set] at h
    split_ifs at h with hid
    · obtain rfl := Option.some.inj h
      exact ⟨ns, hid ▸ hns, hg.uuid, hg.old, hg.new⟩
    · exact ⟨ns₁, h, .refl _ _ _⟩

/-- A new variable does not touch the others. -/
lemma newVar_ids (sv : SemanticVariable) : ∀ r < m.next,
    (Function.update m.obj m.next sv r).id = (m.obj r).id := fun r hr => by
  rw [Function.update_of_ne hr.ne]

/-- A new entry. -/
lemma nsGrown_newVar {sv : SemanticVariable} {text : Text}
    (hid : sv.id = uuid3 ns.namespaceUuid text) (hnew : ns.vars.get? sv.id = none)
    (pool : RecyclePool) : NsGrown uuid3 m (m.newVar sv).2 ns
      { ns with seedPool := pool, vars := ns.vars.set sv.id m.next } where
  uuid := rfl
  old {w r} hw := by
    dsimp only
    rw [Dict.get?_set_ne, hw]
    rintro rfl
    rw [hnew] at hw
    cases hw
  new {w r} hw := by
    dsimp only at hw
    rw [Dict.get?_set] at hw
    split_ifs at hw with hwv
    · obtain rfl := Option.some.inj hw
      refine .inr ⟨le_rfl, Nat.lt_succ_self _, ?_, text, hwv.trans hid⟩
      rw [newVar_obj, hwv]
    · exact .inl hw

/-- Only texts change. -/
lemma Grown.of_obj {obj : SvRef → SemanticVariable} (h : ∀ r, (obj r).id = (m.obj r).id) :
    Grown uuid3 m { m with obj } where
  next := le_rfl
  id r _ := h r
  prefixes h := .inl h
  sessions h := ⟨_, h, .refl _ _ _⟩
  back h := ⟨_, h, .refl _ _ _⟩

lemma setContent_grown (r : SvRef) (content : Text) :
    Grown uuid3 m (m.setContent r content).2 := by
  unfold setContent
  split
  · exact .refl m
  · refine .of_obj fun r' => ?_
    rw [Function.update_apply]
    split_ifs with hr
    · rw [hr]
    · rfl

/-- The variable is one of the session. -/
def Finds (m : SemanticVariableManager) (sessionId : ℕ) (r : SvRef) : Prop :=
  ∃ ns v, m.sessionNamespaces.get? sessionId = some ns ∧ ns.vars.get? v = some r

lemma Finds.grown {r : SvRef} (h : m.Finds sessionId r) (hg : Grown uuid3 m m') :
    m'.Finds sessionId r := by
  obtain ⟨ns, v, hns, hv⟩ := h
  obtain ⟨ns', hns', hgrown⟩ := hg.sessions hns
  exact ⟨ns', v, hns', hgrown.old hv⟩

/-! ## Creating a variable -/

/-- `new_var_by_name`: the variable is the newest one. -/
lemma newVarByName_fresh {name : Text} {isConstantPrefix : Bool} {result : Except PyError SvRef}
    (hok : m.newVarByName uuid3 ns name isConstantPrefix = (result, ns', m')) :
    ∃ obj next, m' = { m with obj, next } ∧ m.next ≤ next ∧
      (∀ r < m.next, (obj r).id = (m.obj r).id) ∧ NsGrown uuid3 m m' ns ns' ∧
      ∀ r, result = .ok r → r = m.next ∧ r < next ∧ ∃ v, ns'.vars.get? v = some r := by
  have hpool : ∀ pool, NsGrown uuid3 m m ns { ns with seedPool := pool } := fun _ =>
    ⟨rfl, fun h => h, fun h => .inl h⟩
  unfold newVarByName at hok
  split at hok
  · simp only [Prod.mk.injEq] at hok
    obtain ⟨rfl, rfl, rfl⟩ := hok
    exact ⟨_, _, rfl, le_rfl, fun _ _ => rfl, hpool _, fun _ h => by cases h⟩
  · rename_i seed pool _
    dsimp only at hok
    split_ifs at hok with hmem
    · simp only [Prod.mk.injEq] at hok
      obtain ⟨rfl, rfl, rfl⟩ := hok
      exact ⟨_, _, rfl, le_rfl, fun _ _ => rfl, hpool _, fun _ h => by cases h⟩
    · simp only [Prod.mk.injEq] at hok
      obtain ⟨rfl, rfl, rfl⟩ := hok
      refine ⟨_, _, rfl, Nat.le_succ _, newVar_ids _,
        nsGrown_newVar rfl ((Dict.get?_eq_none _).mpr hmem) pool, fun r hr => ?_⟩
      obtain rfl := Except.ok.inj hr
      exact ⟨rfl, Nat.lt_succ_self _, _, Dict.get?_set_self _ _ _⟩

/-- `_create_local_var_by_name`. -/
lemma createLocalVarByName_fresh {varName : Text} {result : Except PyError SvRef}
    (hok : m.createLocalVarByName uuid3 sessionId varName = (result, m')) : Grown uuid3 m m' ∧
      ∀ r, result = .ok r → r = m.next ∧ r < m'.next ∧ m'.Finds sessionId r := by
  unfold createLocalVarByName at hok
  split at hok
  · obtain ⟨rfl, rfl⟩ := Prod.mk.inj hok
    exact ⟨.refl m, fun _ h => by cases h⟩
  · rename_i ns hns
    cases hnew : m.newVarByName uuid3 ns varName false with
    | mk result' rest =>
        obtain ⟨ns', m₁⟩ := rest
        obtain ⟨obj, next, rfl, hle, hids, hg, hr⟩ := newVarByName_fresh hnew
        rw [hnew] at hok
        obtain ⟨rfl, rfl⟩ := Prod.mk.inj hok
        refine ⟨grown_setSession hns hle hids hg, fun r h => ?_⟩
        obtain ⟨heq, hlt, v, hv⟩ := hr r h
        exact ⟨heq, hlt, ns', v, Dict.get?_set_self _ _ _, hv⟩

/-- `_get_local_var_by_content`. -/
lemma getLocalVarByContent_fresh (hb : m.Bounded) {content : Text} {result : Except PyError SvRef}
    (hok : m.getLocalVarByContent uuid3 sessionId content = (result, m')) :
    Grown uuid3 m m' ∧ ∀ r, result = .ok r → r < m'.next := by
  unfold getLocalVarByContent at hok
  split at hok
  · obtain ⟨rfl, rfl⟩ := Prod.mk.inj hok
    exact ⟨.refl m, fun _ h => by cases h⟩
  · rename_i ns hns
    cases hget : ns.vars.get? (uuid3 ns.namespaceUuid content) with
    | some r =>
        rw [newVarByContent_hit uuid3 hget] at hok
        obtain ⟨rfl, rfl⟩ := Prod.mk.inj hok
        refine ⟨grown_setSession hns le_rfl (fun _ _ => rfl) (.refl _ _ _), fun r' hr => ?_⟩
        obtain rfl := Except.ok.inj hr
        exact (hb.sessions hns hget).1
    | none =>
        rw [newVarByContent_miss uuid3 hget] at hok
        obtain ⟨rfl, rfl⟩ := Prod.mk.inj hok
        refine ⟨grown_setSession hns (Nat.le_succ _) (newVar_ids _)
          (nsGrown_newVar rfl hget ns.seedPool), fun r hr => ?_⟩
        obtain rfl := Except.ok.inj hr
        exact Nat.lt_succ_self _

/-- `_get_constant_prefix_var`. -/
lemma getConstantPrefixVar_fresh (hb : m.Bounded) {now : ℕ} {content : Text} {r : SvRef}
    (hok : m.getConstantPrefixVar uuid3 now content = (r, m')) :
    Grown uuid3 m m' ∧ r < m'.next := by
  unfold getConstantPrefixVar at hok
  cases hget : m.constantPrefixNamespace.vars.get?
    (uuid3 m.constantPrefixNamespace.namespaceUuid content) with
  | some r' =>
      rw [newVarByContent_hit uuid3 hget] at hok
      obtain ⟨rfl, rfl⟩ := Prod.mk.inj hok
      exact ⟨⟨le_rfl, fun _ _ => rfl, fun h => .inl h, fun h => ⟨_, h, .refl _ _ _⟩,
        fun h => ⟨_, h, .refl _ _ _⟩⟩, hb.prefixes hget⟩
  | none =>
      rw [newVarByContent_miss uuid3 hget] at hok
      obtain ⟨rfl, rfl⟩ := Prod.mk.inj hok
      refine ⟨⟨Nat.le_succ _, newVar_ids _, fun {v r} h => ?_, fun h => ⟨_, h, .refl _ _ _⟩,
        fun h => ⟨_, h, .refl _ _ _⟩⟩, Nat.lt_succ_self _⟩
      dsimp only at h
      rw [Dict.get?_set] at h
      split_ifs at h
      · obtain rfl := Option.some.inj h
        exact .inr (Nat.lt_succ_self _)
      · exact .inl h

/-- `_get_local_var_by_id`. -/
lemma getLocalVarById_found {varId : Text} {r : SvRef}
    (hok : m.getLocalVarById sessionId varId = .ok r) : ∃ ns v,
      m.sessionNamespaces.get? sessionId = some ns ∧ v.val = varId ∧ ns.vars.get? v = some r := by
  unfold getLocalVarById at hok
  split at hok
  · cases hok
  · rename_i ns hns
    split at hok
    · cases hok
    · rename_i r' hr
      obtain rfl := Except.ok.inj hok
      unfold SemanticVariableNamespace.getVarById at hr
      split_ifs at hr with hid
      exact ⟨ns, ⟨varId, hid⟩, hns, rfl, hr⟩

/-! ## The variables of a request -/

/-- The variable of a node: that of a placeholder is one of the session, and that of a Gen is
new. -/
lemma createVarForNode_fresh (hb : m.Bounded) {now : ℕ} {flag : Bool} {kind : NodeKind}
    {result : Except PyError SvRef}
    (hok : m.createVarForNode uuid3 sessionId now flag kind = (result, m')) :
    Grown uuid3 m m' ∧ ∀ r, result = .ok r → r < m'.next ∧
      (kind.hasPlaceholder = true → m'.Finds sessionId r) ∧ (kind.isGen = true → m.next ≤ r) := by
  cases kind with
  | constantFill text =>
      simp only [createVarForNode] at hok
      split_ifs at hok
      · cases hget : m.getConstantPrefixVar uuid3 now text with
        | mk r' m₁ =>
            obtain ⟨hg, hr⟩ := getConstantPrefixVar_fresh hb hget
            rw [hget] at hok
            obtain ⟨rfl, rfl⟩ := Prod.mk.inj hok
            refine ⟨hg, fun r h => ?_⟩
            obtain rfl := Except.ok.inj h
            exact ⟨hr, fun h => (by cases h), fun h => by cases h⟩
      · obtain ⟨hg, hr⟩ := getLocalVarByContent_fresh hb hok
        exact ⟨hg, fun r h => ⟨hr r h, fun h => (by cases h), fun h => by cases h⟩⟩
  | placeholderFill param =>
      simp only [createVarForNode] at hok
      split at hok
      · split at hok
        · rename_i e m₁ hcreate
          obtain ⟨rfl, rfl⟩ := Prod.mk.inj hok
          exact ⟨(createLocalVarByName_fresh hcreate).1, fun _ h => by cases h⟩
        · rename_i r m₁ hcreate
          obtain ⟨hg, hr⟩ := createLocalVarByName_fresh hcreate
          obtain ⟨-, hlt, hfinds⟩ := hr r rfl
          split at hok
          · obtain ⟨rfl, rfl⟩ := Prod.mk.inj hok
            exact ⟨hg, fun _ h => by cases h⟩
          · rename_i value _
            have hset : Grown uuid3 m₁ (m₁.setContent r value).2 := setContent_grown r value
            split at hok
            · rename_i hcontent
              rw [hcontent] at hset
              obtain ⟨rfl, rfl⟩ := Prod.mk.inj hok
              exact ⟨hg.trans hset, fun _ h => by cases h⟩
            · rename_i hcontent
              rw [hcontent] at hset
              obtain ⟨rfl, rfl⟩ := Prod.mk.inj hok
              refine ⟨hg.trans hset, fun r' h => ?_⟩
              obtain rfl := Except.ok.inj h
              exact ⟨hlt.trans_le hset.next, fun _ => hfinds.grown hset, fun h => by cases h⟩
      · obtain ⟨rfl, rfl⟩ := Prod.mk.inj hok
        refine ⟨.refl m, fun r h => ?_⟩
        obtain ⟨ns, v, hns, -, hv⟩ := getLocalVarById_found h
        exact ⟨(hb.sessions hns hv).1, fun _ => ⟨ns, v, hns, hv⟩, fun h => by cases h⟩
  | placeholderGen param =>
      obtain ⟨hg, hr⟩ := createLocalVarByName_fresh hok
      refine ⟨hg, fun r h => ?_⟩
      obtain ⟨heq, hlt, hfinds⟩ := hr r h
      exact ⟨hlt, fun _ => hfinds, fun _ => heq.ge⟩

/-- The outputs of a request have variables that are new when their turn comes. -/
def FreshOutputsFrom : SvRef → List NodeKind → List SvRef → SvRef → Prop
  | low, [], [], high => low ≤ high
  | low, kind :: kinds, r :: rs, high => (kind.isGen = true → low ≤ r) ∧
      ∃ mid, low ≤ mid ∧ r < mid ∧ FreshOutputsFrom mid kinds rs high
  | _, _, _, _ => False

/-- **The variables of a semantic request.** -/
lemma createVarsLoop_fresh {now : ℕ} (kinds : List NodeKind) :
    ∀ {flag : Bool} {rs : List SvRef} {m m' : SemanticVariableManager}
      {result : Except PyError (List SvRef)}, m.Bounded →
      createVarsLoop uuid3 sessionId now flag kinds rs m = (result, m') →
      Grown uuid3 m m' ∧ ∀ rs', result = .ok rs' → ∃ new, rs' = rs ++ new ∧
        FreshOutputsFrom m.next kinds new m'.next ∧
        ∀ x ∈ kinds.zip new, x.1.hasPlaceholder = true → m'.Finds sessionId x.2 := by
  induction kinds with
  | nil =>
      intro flag rs m m' result _ hok
      obtain ⟨rfl, rfl⟩ := Prod.mk.inj hok
      refine ⟨.refl m, fun rs' h => ⟨[], ?_, le_rfl, fun x hx => absurd hx List.not_mem_nil⟩⟩
      rw [List.append_nil, Except.ok.inj h]
  | cons kind kinds ih =>
      intro flag rs m m' result hb hok
      simp only [createVarsLoop] at hok
      split at hok
      · rename_i e m₁ hnode
        obtain ⟨rfl, rfl⟩ := Prod.mk.inj hok
        exact ⟨(createVarForNode_fresh hb hnode).1, fun _ h => by cases h⟩
      · rename_i r m₁ hnode
        obtain ⟨hg, hr⟩ := createVarForNode_fresh hb hnode
        obtain ⟨hlt, hfinds, hgen⟩ := hr r rfl
        obtain ⟨hg', hrs⟩ := ih (hb.grown hg) hok
        refine ⟨hg.trans hg', fun rs' h => ?_⟩
        obtain ⟨new, rfl, hnew, hall⟩ := hrs rs' h
        refine ⟨r :: new, by simp, ⟨hgen, m₁.next, hg.next, hlt, hnew⟩, ?_⟩
        rw [List.zip_cons_cons]
        exact List.forall_mem_cons.mpr ⟨fun h => (hfinds h).grown hg', hall⟩

/-! ## The variables of a native function -/

/-- The variable of a parameter. -/
lemma createVarForParam_fresh {key : Text} {param : NativeFunctionParameter}
    {result : Except PyError SvRef}
    (hok : m.createVarForParam uuid3 sessionId key param = (result, m')) :
    Grown uuid3 m m' ∧ ∀ r, result = .ok r → m'.Finds sessionId r ∧
      (param.shouldCreate = true → r = m.next ∧ r < m'.next) ∧
      (param.shouldCreate = false → ∃ ns v, m.sessionNamespaces.get? sessionId = some ns ∧
        v.val = param.varId.getD [] ∧ ns.vars.get? v = some r) := by
  unfold createVarForParam at hok
  split at hok
  · rename_i hcreate
    have hno : param.shouldCreate ≠ false := by
      rw [hcreate]
      exact Bool.noConfusion
    split at hok
    · rename_i e m₁ hvar
      obtain ⟨rfl, rfl⟩ := Prod.mk.inj hok
      exact ⟨(createLocalVarByName_fresh hvar).1, fun _ h => by cases h⟩
    · rename_i r m₁ hvar
      obtain ⟨hg, hr⟩ := createLocalVarByName_fresh hvar
      obtain ⟨heq, hlt, hfinds⟩ := hr r rfl
      split at hok
      · obtain ⟨rfl, rfl⟩ := Prod.mk.inj hok
        refine ⟨hg, fun r' h => ?_⟩
        obtain rfl := Except.ok.inj h
        exact ⟨hfinds, fun _ => ⟨heq, hlt⟩, fun h => absurd h hno⟩
      · rename_i value _
        have hset : Grown uuid3 m₁ (m₁.setContent r value).2 := setContent_grown r value
        split at hok
        · rename_i hcontent
          rw [hcontent] at hset
          obtain ⟨rfl, rfl⟩ := Prod.mk.inj hok
          exact ⟨hg.trans hset, fun _ h => by cases h⟩
        · rename_i hcontent
          rw [hcontent] at hset
          obtain ⟨rfl, rfl⟩ := Prod.mk.inj hok
          refine ⟨hg.trans hset, fun r' h => ?_⟩
          obtain rfl := Except.ok.inj h
          exact ⟨hfinds.grown hset, fun _ => ⟨heq, hlt.trans_le hset.next⟩, fun h => absurd h hno⟩
  · rename_i hcreate
    obtain ⟨rfl, rfl⟩ := Prod.mk.inj hok
    refine ⟨.refl m, fun r h => ?_⟩
    obtain ⟨ns, v, hns, hid, hv⟩ := getLocalVarById_found h
    exact ⟨⟨ns, v, hns, hv⟩, fun h => absurd h hcreate, fun _ => ⟨ns, v, hns, hid, hv⟩⟩

/-- An id that the session knows, or that is no id of its namespace. -/
def Known (uuid3 : ℕ → Text → VarId) (m : SemanticVariableManager) (sessionId : ℕ) (varId : Text) :
    Prop :=
  ∀ ns v, m.sessionNamespaces.get? sessionId = some ns → v.val = varId →
    (∃ r, ns.vars.get? v = some r) ∨ ∀ text, v ≠ uuid3 ns.namespaceUuid text

/-- What was known is still found, and nothing new is found for it. -/
lemma Known.lt (hb : m.Bounded) (hg : Grown uuid3 m m') {varId : Text} {v : VarId} {r : SvRef}
    (hknown : Known uuid3 m sessionId varId)
    (hns : m'.sessionNamespaces.get? sessionId = some ns') (hid : v.val = varId)
    (hv : ns'.vars.get? v = some r) : r < m.next := by
  obtain ⟨ns, hns, hgrown⟩ := hg.back hns
  rcases hgrown.new hv with hold | ⟨-, -, -, text, hash⟩
  · exact (hb.sessions hns hold).1
  · rcases hknown ns v hns hid with ⟨r', hr'⟩ | hno
    · have hsame := (hgrown.old hr').symm.trans hv
      exact Option.some.inj hsame ▸ (hb.sessions hns hr').1
    · exact absurd hash (hno text)

/-- The variables of a native function so far: its outputs are new, and none is an input. -/
structure OutputsApart (low : SvRef) (inputVars outputVars : List (Text × SvRef)) (high : SvRef) :
    Prop where
  inputs : ∀ x ∈ inputVars, x.2 < high
  outputs : ∀ y ∈ outputVars, low ≤ y.2 ∧ y.2 < high
  apart : ∀ x ∈ inputVars, ∀ y ∈ outputVars, x.2 ≠ y.2

/-- One more output, created above everything so far. -/
lemma OutputsApart.output {low r high : SvRef} {inputVars outputVars : List (Text × SvRef)}
    (h : OutputsApart low inputVars outputVars r) (key : Text) (hlow : low ≤ r) (hlt : r < high) :
    OutputsApart low inputVars (outputVars ++ [(key, r)]) high := by
  refine ⟨fun x hx => (h.inputs x hx).trans hlt, fun y hy => ?_, fun x hx y hy => ?_⟩
  · rcases List.mem_append.mp hy with hy | hy
    · exact ⟨(h.outputs y hy).1, (h.outputs y hy).2.trans hlt⟩
    · obtain rfl := List.mem_singleton.mp hy
      exact ⟨hlow, hlt⟩
  · rcases List.mem_append.mp hy with hy | hy
    · exact h.apart x hx y hy
    · obtain rfl := List.mem_singleton.mp hy
      exact (h.inputs x hx).ne

/-- One more input that is no output. -/
lemma OutputsApart.input {low r high high' : SvRef} {inputVars outputVars : List (Text × SvRef)}
    (h : OutputsApart low inputVars outputVars high) (key : Text) (hle : high ≤ high')
    (hlt : r < high') (hne : ∀ y ∈ outputVars, r ≠ y.2) :
    OutputsApart low (inputVars ++ [(key, r)]) outputVars high' := by
  refine ⟨fun x hx => ?_, fun y hy => ⟨(h.outputs y hy).1, (h.outputs y hy).2.trans_le hle⟩,
    fun x hx y hy => ?_⟩
  · rcases List.mem_append.mp hx with hx | hx
    · exact (h.inputs x hx).trans_le hle
    · obtain rfl := List.mem_singleton.mp hx
      exact hlt
  · rcases List.mem_append.mp hx with hx | hx
    · exact h.apart x hx y hy
    · obtain rfl := List.mem_singleton.mp hx
      exact hne y hy

/-- **The variables of a native function** whose arguments are known ids. -/
lemma createVarsForPynativeFunc_fresh {m₀ : SemanticVariableManager} (hb : m₀.Bounded)
    (params : List (Text × NativeFunctionParameter)) :
    ∀ {inputVars outputVars : List (Text × SvRef)} {m m' : SemanticVariableManager}
      {result : Except PyError (List (Text × SvRef) × List (Text × SvRef))},
      Grown uuid3 m₀ m → (∀ x ∈ inputVars ++ outputVars, m.Finds sessionId x.2) →
      createVarsForPynativeFunc uuid3 sessionId params inputVars outputVars m = (result, m') →
      Grown uuid3 m₀ m' ∧ ∀ vars, result = .ok vars →
        (∀ x ∈ vars.1 ++ vars.2, m'.Finds sessionId x.2) ∧
        ((∀ p ∈ params, p.2.shouldCreate = false →
            Known uuid3 m₀ sessionId (p.2.varId.getD [])) →
          OutputsApart m₀.next inputVars outputVars m.next →
            OutputsApart m₀.next vars.1 vars.2 m'.next) := by
  induction params with
  | nil =>
      intro inputVars outputVars m m' result hg hfound hok
      obtain ⟨rfl, rfl⟩ := Prod.mk.inj hok
      refine ⟨hg, fun vars h => ?_⟩
      obtain rfl := Except.ok.inj h
      exact ⟨hfound, fun _ hapart => hapart⟩
  | cons p params ih =>
      obtain ⟨key, param⟩ := p
      intro inputVars outputVars m m' result hg hall hok
      rw [createVarsForPynativeFunc] at hok
      split at hok
      · rename_i e m₁ hvar
        obtain ⟨rfl, rfl⟩ := Prod.mk.inj hok
        exact ⟨hg.trans (createVarForParam_fresh hvar).1, fun _ h => by cases h⟩
      · rename_i r m₁ hvar
        obtain ⟨hg₁, hr⟩ := createVarForParam_fresh hvar
        obtain ⟨hfinds, hcreated, hfound⟩ := hr r rfl
        have hg' := hg.trans hg₁
        have hold : ∀ x, x ∈ inputVars ∨ x ∈ outputVars ∨ x = (key, r) →
            m₁.Finds sessionId x.2 := by
          rintro x (hx | hx | rfl)
          · exact (hall x (List.mem_append_left _ hx)).grown hg₁
          · exact (hall x (List.mem_append_right _ hx)).grown hg₁
          · exact hfinds
        have hin : ∀ x ∈ (inputVars ++ [(key, r)]) ++ outputVars, m₁.Finds sessionId x.2 := by
          intro x hx
          rw [List.mem_append, List.mem_append, List.mem_singleton] at hx
          exact hold x (by tauto)
        have hex : ∀ x ∈ inputVars ++ (outputVars ++ [(key, r)]), m₁.Finds sessionId x.2 := by
          intro x hx
          rw [List.mem_append, List.mem_append, List.mem_singleton] at hx
          exact hold x hx
        split_ifs at hok with hout
        · -- an output is created
          obtain ⟨hgrown, hrest⟩ := ih hg' hex hok
          refine ⟨hgrown, fun vars hvars => ?_⟩
          obtain ⟨hlast, happly⟩ := hrest vars hvars
          refine ⟨hlast, fun hknown hapart => ?_⟩
          obtain ⟨rfl, hlt⟩ := hcreated (by rw [SemanticFunctionParameter.shouldCreate, hout]; rfl)
          exact happly (fun q hq => hknown q (List.mem_cons_of_mem _ hq))
            (hapart.output key hg.next hlt)
        · obtain ⟨hgrown, hrest⟩ := ih hg' hin hok
          refine ⟨hgrown, fun vars hvars => ?_⟩
          obtain ⟨hlast, happly⟩ := hrest vars hvars
          refine ⟨hlast, fun hknown hapart => ?_⟩
          have hnew : r < m₁.next ∧ ∀ y ∈ outputVars, r ≠ y.2 := by
            cases hcreate : param.shouldCreate with
            | true =>
                obtain ⟨rfl, hlt⟩ := hcreated hcreate
                exact ⟨hlt, fun y hy => (hapart.outputs y hy).2.ne'⟩
            | false =>
                obtain ⟨ns, v, hns, hid, hv⟩ := hfound hcreate
                have hlt : r < m₀.next :=
                  (hknown _ List.mem_cons_self hcreate).lt hb hg hns hid hv
                exact ⟨hlt.trans_le hg'.next,
                  fun y hy => (hlt.trans_le (hapart.outputs y hy).1).ne⟩
          exact happly (fun q hq => hknown q (List.mem_cons_of_mem _ hq))
            (hapart.input key hg₁.next hnew.1 hnew.2)

/-! ## Expiry -/

/-- A constant prefix is freed. -/
lemma freeVar_grown (sv : SemanticVariable) (times : Dict VarId ℕ) : Grown uuid3 m { m with
    constantPrefixNamespace := (m.constantPrefixNamespace.freeVar sv).2
    constantPrefixLastAccessTime := times } where
  next := le_rfl
  id _ _ := rfl
  prefixes h := .inl ((freeVar_vars m.constantPrefixNamespace sv).2 _ _ h)
  sessions h := ⟨_, h, rfl, fun h => h, fun h => .inl h⟩
  back h := ⟨_, h, rfl, fun h => h, fun h => .inl h⟩

lemma freeExpired_grown (curTime : ℕ) (items : List (VarId × ℕ)) :
    ∀ (ret : List SvRef) (m : SemanticVariableManager),
      Grown uuid3 m (freeExpired curTime items ret m).2 := by
  induction items with
  | nil => exact fun _ m => .refl m
  | cons item items ih =>
      obtain ⟨v, time⟩ := item
      intro ret m
      rw [freeExpired]
      by_cases hexp : m.expired curTime time
      · rw [if_pos hexp]
        cases m.constantPrefixNamespace.vars.get? v with
        | none => exact .refl m
        | some r =>
            have hfree : Grown uuid3 m _ :=
              freeVar_grown (m.obj r) m.constantPrefixLastAccessTime
            have hfree' : Grown uuid3 m _ :=
              freeVar_grown (m.obj r) (m.constantPrefixLastAccessTime.erase v)
            dsimp only
            rcases hok : m.constantPrefixNamespace.freeVar (m.obj r) with ⟨e | u, ns⟩
            · rw [hok] at hfree
              exact hfree
            · rw [hok] at hfree hfree'
              dsimp only
              split_ifs
              · exact hfree'.trans (ih _ _)
              · exact hfree
      · rw [if_neg hexp]
        exact ih _ _

end SemanticVariableManager

end ParrotServe
