import ParrotServe.Properties.FreshVariables

/-!
# What a failed creation of variables leaves

The loop over the nodes of a request writes as it goes, and an exception stops it half way.
Nothing it has written goes back: a seed stays allocated, an entry stays in its namespace, and an
access time stays at the time of the request (`Later`).  So the variables are as before exactly
when no node has written anything (`createVarsLoop_traces`): the nodes in front are all there
already (`AlreadyThere`), and the loop stops at an id that is unknown (`RefusedAt`).
-/

namespace ParrotServe

/-- Assigning a value to the key that has it. -/
lemma Dict.set_of_get? {κ ν : Type} [DecidableEq κ] {d : Dict κ ν} {k : κ} {v : ν}
    (h : d.get? k = some v) : d.set k v = d := by
  refine Dict.ext ?_
  rw [Dict.entries_set_of_mem d v (d.mem_keys_of_get? h)]
  conv_rhs => rw [← List.map_id d.entries]
  refine List.map_congr_left fun e he => ?_
  split_ifs with hk
  · have hv := (d.mem_entries.mp he).symm.trans (hk ▸ h)
    exact Prod.ext rfl (Option.some.inj hv).symm
  · rfl

/-- The counter of allocations moves, whether there is an id or not. -/
lemma RecyclePool.allocate_num (p : RecyclePool) :
    p.allocate.2.allocatedNum = p.allocatedNum + 1 := by
  unfold RecyclePool.allocate
  dsimp only
  split
  · rfl
  · split_ifs <;> rfl

namespace SemanticVariableManager

variable {uuid3 : ℕ → Text → VarId} {m m' m'' : SemanticVariableManager}
  {ns ns' : SemanticVariableNamespace} {sessionId now : ℕ}

/-! ## Nothing goes back -/

/-- What a request writes for a session stays, and so do its access times. -/
structure Later (sessionId now : ℕ) (m m' : SemanticVariableManager) : Prop where
  session : ∀ {ns}, m.sessionNamespaces.get? sessionId = some ns →
    ∃ ns', m'.sessionNamespaces.get? sessionId = some ns' ∧
      ns.seedPool.allocatedNum ≤ ns'.seedPool.allocatedNum ∧
      ∀ v, (ns.vars.get? v).isSome → (ns'.vars.get? v).isSome
  prefixes : ∀ v, (m.constantPrefixNamespace.vars.get? v).isSome →
    (m'.constantPrefixNamespace.vars.get? v).isSome
  times : ∀ v, m.constantPrefixLastAccessTime.get? v = some now →
    m'.constantPrefixLastAccessTime.get? v = some now

lemma Later.refl (m : SemanticVariableManager) : Later sessionId now m m :=
  ⟨fun h => ⟨_, h, le_rfl, fun _ h => h⟩, fun _ h => h, fun _ h => h⟩

lemma Later.trans (h : Later sessionId now m m') (h' : Later sessionId now m' m'') :
    Later sessionId now m m'' where
  session hns := by
    obtain ⟨ns', hns', hle, hkeep⟩ := h.session hns
    obtain ⟨ns'', hns'', hle', hkeep'⟩ := h'.session hns'
    exact ⟨ns'', hns'', hle.trans hle', fun v hv => hkeep' v (hkeep v hv)⟩
  prefixes v hv := h'.prefixes v (h.prefixes v hv)
  times v hv := h'.times v (h.times v hv)

/-- Something was written: a seed, a variable of the session, a constant prefix, or an access. -/
inductive Wrote (sessionId now : ℕ) (m m' : SemanticVariableManager) : Prop
  | seed {ns ns' : SemanticVariableNamespace} : m.sessionNamespaces.get? sessionId = some ns →
      m'.sessionNamespaces.get? sessionId = some ns' →
      ns.seedPool.allocatedNum < ns'.seedPool.allocatedNum → Wrote sessionId now m m'
  | localVar {ns ns' : SemanticVariableNamespace} {v : VarId} :
      m.sessionNamespaces.get? sessionId = some ns →
      m'.sessionNamespaces.get? sessionId = some ns' →
      ns.vars.get? v = none → (ns'.vars.get? v).isSome → Wrote sessionId now m m'
  | constantPrefix {v : VarId} : m.constantPrefixNamespace.vars.get? v = none →
      (m'.constantPrefixNamespace.vars.get? v).isSome → Wrote sessionId now m m'
  | access {v : VarId} : m.constantPrefixLastAccessTime.get? v ≠ some now →
      m'.constantPrefixLastAccessTime.get? v = some now → Wrote sessionId now m m'

lemma Wrote.later (h : Wrote sessionId now m m') (h' : Later sessionId now m' m'') :
    Wrote sessionId now m m'' := by
  cases h with
  | seed hns hns' hlt =>
      obtain ⟨ns'', hns'', hle, -⟩ := h'.session hns'
      exact .seed hns hns'' (hlt.trans_le hle)
  | localVar hns hns' hnone hsome =>
      obtain ⟨ns'', hns'', -, hkeep⟩ := h'.session hns'
      exact .localVar hns hns'' hnone (hkeep _ hsome)
  | constantPrefix hnone hsome => exact .constantPrefix hnone (h'.prefixes _ hsome)
  | access hne heq => exact .access hne (h'.times _ heq)

/-- The namespace of the session, with its seeds, and the constant prefixes with their access
times. -/
structure SameNames (sessionId : ℕ) (m m' : SemanticVariableManager) : Prop where
  session : m'.sessionNamespaces.get? sessionId = m.sessionNamespaces.get? sessionId
  prefixes : m'.constantPrefixNamespace = m.constantPrefixNamespace
  times : m'.constantPrefixLastAccessTime = m.constantPrefixLastAccessTime

lemma Wrote.not_same (h : Wrote sessionId now m m') : ¬ SameNames sessionId m m' := by
  rintro ⟨hsession, hprefixes, htimes⟩
  cases h with
  | seed hns hns' hlt =>
      rw [hsession, hns] at hns'
      exact absurd (Option.some.inj hns' ▸ hlt) (lt_irrefl _)
  | localVar hns hns' hnone hsome =>
      rw [hsession, hns] at hns'
      rw [← Option.some.inj hns', hnone] at hsome
      cases hsome
  | constantPrefix hnone hsome =>
      rw [hprefixes, hnone] at hsome
      cases hsome
  | access hne heq => exact hne (htimes ▸ heq)

/-! ## One node -/

/-- The node finds its variable, and there is nothing to write for it. -/
def AlreadyThere (uuid3 : ℕ → Text → VarId) (m : SemanticVariableManager) (sessionId now : ℕ)
    (constantPrefixFlag : Bool) : NodeKind → Prop
  | .constantFill text =>
      if constantPrefixFlag then
        ∃ r, m.constantPrefixNamespace.vars.get?
            (uuid3 m.constantPrefixNamespace.namespaceUuid text) = some r ∧
          m.constantPrefixLastAccessTime.get? (m.obj r).id = some now
      else
        ∃ ns r, m.sessionNamespaces.get? sessionId = some ns ∧
          ns.vars.get? (uuid3 ns.namespaceUuid text) = some r
  | .placeholderFill param => param.shouldCreate = false ∧
      ∃ r, m.getLocalVarById sessionId (param.varId.getD []) = .ok r
  | .placeholderGen _ => False

/-- The node has an id that the session does not know. -/
def UnknownId (m : SemanticVariableManager) (sessionId : ℕ) : NodeKind → Prop
  | .placeholderFill param => param.shouldCreate = false ∧
      ∃ e, m.getLocalVarById sessionId (param.varId.getD []) = .error e
  | _ => False

/-- What a call does to the names: nothing when there is nothing to write, and something else. -/
inductive Traces (uuid3 : ℕ → Text → VarId) (sessionId now : ℕ) (flag : Bool) (kind : NodeKind)
    (m m' : SemanticVariableManager) : Except PyError SvRef → Prop
  | found (r : SvRef) : m.AlreadyThere uuid3 sessionId now flag kind → m' = m →
      Traces uuid3 sessionId now flag kind m m' (.ok r)
  | unknown (e : PyError) : m.UnknownId sessionId kind → m' = m →
      Traces uuid3 sessionId now flag kind m m' (.error e)
  | wrote (result : Except PyError SvRef) : ¬ m.AlreadyThere uuid3 sessionId now flag kind →
      ¬ m.UnknownId sessionId kind → Later sessionId now m m' → Wrote sessionId now m m' →
      Traces uuid3 sessionId now flag kind m m' result

/-- The session gets its namespace back with more in it. -/
lemma later_setSession {obj : SvRef → SemanticVariable} {next : SvRef}
    (hns : m.sessionNamespaces.get? sessionId = some ns)
    (hle : ns.seedPool.allocatedNum ≤ ns'.seedPool.allocatedNum)
    (hkeep : ∀ v, (ns.vars.get? v).isSome → (ns'.vars.get? v).isSome) :
    Later sessionId now m { m with
      obj, next, sessionNamespaces := m.sessionNamespaces.set sessionId ns' } := by
  refine ⟨fun {ns₀} h => ⟨ns', Dict.get?_set_self _ _ _, ?_⟩, fun _ h => h, fun _ h => h⟩
  rw [hns] at h
  obtain rfl := Option.some.inj h
  exact ⟨hle, hkeep⟩

/-- `_create_local_var_by_name` takes a seed, whether it fails or not. -/
lemma createLocalVarByName_wrote {varName : Text} {result : Except PyError SvRef}
    (hns : m.sessionNamespaces.get? sessionId = some ns)
    (hok : m.createLocalVarByName uuid3 sessionId varName = (result, m')) :
    Later sessionId now m m' ∧ Wrote sessionId now m m' := by
  unfold createLocalVarByName at hok
  rw [hns] at hok
  dsimp only at hok
  cases hnew : m.newVarByName uuid3 ns varName false with
  | mk result' rest =>
      obtain ⟨ns', m₁⟩ := rest
      obtain ⟨obj, next, rfl, -, -, hgrown, -⟩ := newVarByName_fresh hnew
      rw [hnew] at hok
      obtain ⟨rfl, rfl⟩ := Prod.mk.inj hok
      have hseed : ns'.seedPool.allocatedNum = ns.seedPool.allocatedNum + 1 := by
        have hnum := ns.seedPool.allocate_num
        unfold newVarByName at hnew
        split at hnew
        · rename_i hpool
          rw [hpool] at hnum
          simp only [Prod.mk.injEq] at hnew
          obtain ⟨-, rfl, -⟩ := hnew
          exact hnum
        · rename_i hpool
          rw [hpool] at hnum
          dsimp only at hnew
          split_ifs at hnew
          all_goals
            simp only [Prod.mk.injEq] at hnew
            obtain ⟨-, rfl, -⟩ := hnew
            exact hnum
      have hlt : ns.seedPool.allocatedNum < ns'.seedPool.allocatedNum := by omega
      refine ⟨later_setSession hns hlt.le fun v hv => ?_,
        .seed hns (Dict.get?_set_self _ _ _) hlt⟩
      obtain ⟨r, hr⟩ := Option.isSome_iff_exists.mp hv
      rw [hgrown.old hr]
      rfl

/-- A constant outside of the prefix. -/
lemma getLocalVarByContent_traces {text : Text} {result : Except PyError SvRef}
    (hns : m.sessionNamespaces.get? sessionId = some ns)
    (hok : m.getLocalVarByContent uuid3 sessionId text = (result, m')) :
    Traces uuid3 sessionId now false (.constantFill text) m m' result := by
  unfold getLocalVarByContent at hok
  rw [hns] at hok
  dsimp only at hok
  cases hget : ns.vars.get? (uuid3 ns.namespaceUuid text) with
  | some r =>
      rw [newVarByContent_hit uuid3 hget] at hok
      obtain ⟨rfl, rfl⟩ := Prod.mk.inj hok
      refine .found r ⟨ns, r, hns, hget⟩ ?_
      dsimp only
      rw [Dict.set_of_get? hns]
  | none =>
      rw [newVarByContent_miss uuid3 hget] at hok
      obtain ⟨rfl, rfl⟩ := Prod.mk.inj hok
      refine .wrote _ ?_ (fun h => h) (later_setSession hns le_rfl fun v hv => ?_)
        (.localVar hns (Dict.get?_set_self _ _ _) hget ?_)
      · rintro ⟨ns', r, hns', hr⟩
        rw [hns] at hns'
        rw [← Option.some.inj hns', hget] at hr
        cases hr
      · dsimp only
        rw [Dict.get?_set]
        split_ifs
        · rfl
        · exact hv
      · dsimp only
        rw [Dict.get?_set_self]
        rfl

/-- A constant of the prefix. -/
lemma getConstantPrefixVar_traces {text : Text} {r : SvRef}
    (hok : m.getConstantPrefixVar uuid3 now text = (r, m')) :
    Traces uuid3 sessionId now true (.constantFill text) m m' (.ok r) := by
  have htimes : ∀ (times : Dict VarId ℕ) (k v : VarId), times.get? v = some now →
      (times.set k now).get? v = some now := by
    intro times k v hv
    rw [Dict.get?_set]
    split_ifs
    · rfl
    · exact hv
  unfold getConstantPrefixVar at hok
  cases hget : m.constantPrefixNamespace.vars.get?
    (uuid3 m.constantPrefixNamespace.namespaceUuid text) with
  | some r' =>
      rw [newVarByContent_hit uuid3 hget] at hok
      obtain ⟨rfl, rfl⟩ := Prod.mk.inj hok
      by_cases htime : m.constantPrefixLastAccessTime.get? (m.obj r').id = some now
      · refine .found r' ⟨r', hget, htime⟩ ?_
        rw [Dict.set_of_get? htime]
      · refine .wrote _ ?_ (fun h => h) ⟨fun h => ⟨_, h, le_rfl, fun _ h => h⟩, fun _ h => h,
          htimes _ _⟩ (.access htime (Dict.get?_set_self _ _ _))
        rintro ⟨r, hr, hthere⟩
        rw [hget] at hr
        obtain rfl := Option.some.inj hr
        exact htime hthere
  | none =>
      rw [newVarByContent_miss uuid3 hget] at hok
      obtain ⟨rfl, rfl⟩ := Prod.mk.inj hok
      refine .wrote _ ?_ (fun h => h) ⟨fun h => ⟨_, h, le_rfl, fun _ h => h⟩, fun v hv => ?_,
        htimes _ _⟩ (.constantPrefix hget ?_)
      · rintro ⟨r, hr, -⟩
        rw [hget] at hr
        cases hr
      · dsimp only
        rw [Dict.get?_set]
        split_ifs
        · rfl
        · exact hv
      · dsimp only
        rw [Dict.get?_set_self]
        rfl

/-- **The variable of a node**: what the call does to the names. -/
lemma createVarForNode_traces {flag : Bool} {kind : NodeKind} {result : Except PyError SvRef}
    (hns : m.sessionNamespaces.get? sessionId = some ns)
    (hok : m.createVarForNode uuid3 sessionId now flag kind = (result, m')) :
    Traces uuid3 sessionId now flag kind m m' result := by
  cases kind with
  | constantFill text =>
      simp only [createVarForNode] at hok
      cases flag with
      | false => exact getLocalVarByContent_traces hns hok
      | true =>
          cases hget : m.getConstantPrefixVar uuid3 now text with
          | mk r m₁ =>
              rw [hget] at hok
              obtain ⟨rfl, rfl⟩ := Prod.mk.inj hok
              exact getConstantPrefixVar_traces hget
  | placeholderFill param =>
      simp only [createVarForNode] at hok
      split at hok
      · rename_i hcreate
        have hthere : ¬ param.shouldCreate = false := by
          rw [hcreate]
          exact Bool.noConfusion
        cases hvar : m.createLocalVarByName uuid3 sessionId param.name with
        | mk result₁ m₁ =>
            obtain ⟨hlater, hwrote⟩ : Later sessionId now m m₁ ∧ Wrote sessionId now m m₁ :=
              createLocalVarByName_wrote hns hvar
            have hall : ∀ m₂ result₂, Later sessionId now m₁ m₂ →
                Traces uuid3 sessionId now flag (.placeholderFill param) m m₂ result₂ :=
              fun m₂ result₂ h => .wrote _ (fun hh => hthere hh.1) (fun hh => hthere hh.1)
                (hlater.trans h) (hwrote.later h)
            rw [hvar] at hok
            rcases result₁ with e | r
            · obtain ⟨rfl, rfl⟩ := Prod.mk.inj hok
              exact hall _ _ (.refl _)
            · dsimp only at hok
              split at hok
              · obtain ⟨rfl, rfl⟩ := Prod.mk.inj hok
                exact hall _ _ (.refl _)
              · rename_i value _
                have hset : Later sessionId now m₁ (m₁.setContent r value).2 := by
                  unfold setContent
                  split
                  · exact .refl _
                  · exact ⟨fun h => ⟨_, h, le_rfl, fun _ h => h⟩, fun _ h => h, fun _ h => h⟩
                split at hok
                · rename_i hcontent
                  rw [hcontent] at hset
                  obtain ⟨rfl, rfl⟩ := Prod.mk.inj hok
                  exact hall _ _ hset
                · rename_i hcontent
                  rw [hcontent] at hset
                  obtain ⟨rfl, rfl⟩ := Prod.mk.inj hok
                  exact hall _ _ hset
      · rename_i hcreate
        have hcreate := Bool.eq_false_of_not_eq_true hcreate
        obtain ⟨rfl, rfl⟩ := Prod.mk.inj hok
        cases hget : m.getLocalVarById sessionId (param.varId.getD []) with
        | error e => exact .unknown e ⟨hcreate, e, hget⟩ rfl
        | ok r => exact .found r ⟨hcreate, r, hget⟩ rfl
  | placeholderGen param =>
      obtain ⟨hlater, hwrote⟩ := createLocalVarByName_wrote hns hok
      exact .wrote _ (fun h => h) (fun h => h) hlater hwrote

/-! ## The loop -/

/-- The loop stops at an id that is unknown, and all nodes in front are there already. -/
def RefusedAt (uuid3 : ℕ → Text → VarId) (m : SemanticVariableManager) (sessionId now : ℕ) :
    Bool → List NodeKind → Prop
  | _, [] => False
  | flag, kind :: kinds =>
      let flag := if kind.hasPlaceholder then false else flag
      m.UnknownId sessionId kind ∨
        (m.AlreadyThere uuid3 sessionId now flag kind ∧
          RefusedAt uuid3 m sessionId now flag kinds)

lemma createVarsLoop_later {kinds : List NodeKind} : ∀ {flag : Bool} {rs : List SvRef}
    {ns : SemanticVariableNamespace} {m m' : SemanticVariableManager}
    {result : Except PyError (List SvRef)}, m.sessionNamespaces.get? sessionId = some ns →
      createVarsLoop uuid3 sessionId now flag kinds rs m = (result, m') →
      Later sessionId now m m' := by
  induction kinds with
  | nil =>
      intro flag rs ns m m' result _ hok
      obtain ⟨rfl, rfl⟩ := Prod.mk.inj hok
      exact .refl m
  | cons kind kinds ih =>
      intro flag rs ns m m' result hns hok
      rw [createVarsLoop] at hok
      cases hnode : m.createVarForNode uuid3 sessionId now
        (if kind.hasPlaceholder then false else flag) kind with
      | mk result₁ m₁ =>
          have hlater : Later sessionId now m m₁ := by
            cases createVarForNode_traces hns hnode with
            | found r _ hsame => exact hsame ▸ .refl _
            | unknown e _ hsame => exact hsame ▸ .refl _
            | wrote _ _ _ hlater _ => exact hlater
          rw [hnode] at hok
          rcases result₁ with e | r
          · obtain ⟨rfl, rfl⟩ := Prod.mk.inj hok
            exact hlater
          · obtain ⟨ns₁, hns₁, -⟩ := hlater.session hns
            exact hlater.trans (ih hns₁ hok)

/-- **The loop over the nodes**: it is refused and leaves nothing, or it is not, and then it
succeeds or has written something. -/
lemma createVarsLoop_traces (kinds : List NodeKind) : ∀ {flag : Bool} {rs : List SvRef}
    {result : Except PyError (List SvRef)}, m.sessionNamespaces.get? sessionId = some ns →
      createVarsLoop uuid3 sessionId now flag kinds rs m = (result, m') →
      (m.RefusedAt uuid3 sessionId now flag kinds ∧ (∃ e, result = .error e) ∧ m' = m) ∨
        (¬ m.RefusedAt uuid3 sessionId now flag kinds ∧
          ((∃ rs', result = .ok rs') ∨ Wrote sessionId now m m')) := by
  induction kinds with
  | nil =>
      intro flag rs result _ hok
      obtain ⟨rfl, rfl⟩ := Prod.mk.inj hok
      exact .inr ⟨fun h => h, .inl ⟨rs, rfl⟩⟩
  | cons kind kinds ih =>
      intro flag rs result hns hok
      rw [createVarsLoop] at hok
      rw [RefusedAt]
      generalize (if kind.hasPlaceholder then false else flag) = flag at hok ⊢
      cases hnode : m.createVarForNode uuid3 sessionId now flag kind with
      | mk result₁ m₁ =>
          have htraces := createVarForNode_traces hns hnode
          rw [hnode] at hok
          cases htraces with
          | found r hthere hsame =>
              rw [hsame] at hok
              have hknown : ¬ m.UnknownId sessionId kind := by
                intro hunknown
                cases kind with
                | placeholderFill param =>
                    obtain ⟨-, e, he⟩ := hunknown
                    obtain ⟨-, r, hr⟩ := hthere
                    rw [he] at hr
                    cases hr
                | _ => exact hunknown
              rcases ih hns hok with ⟨hrefused, hrest⟩ | ⟨hno, hrest⟩
              · exact .inl ⟨.inr ⟨hthere, hrefused⟩, hrest⟩
              · exact .inr ⟨fun h => h.elim hknown fun h => hno h.2, hrest⟩
          | unknown e hunknown hsame =>
              obtain ⟨rfl, rfl⟩ := Prod.mk.inj hok
              exact .inl ⟨.inl hunknown, ⟨e, rfl⟩, hsame⟩
          | wrote _ hthere hknown hlater hwrote =>
              refine .inr ⟨fun h => h.elim hknown fun h => hthere h.1, .inr ?_⟩
              rcases result₁ with e | r
              · obtain ⟨rfl, rfl⟩ := Prod.mk.inj hok
                exact hwrote
              · obtain ⟨ns₁, hns₁, -⟩ := hlater.session hns
                exact hwrote.later (createVarsLoop_later hns₁ hok)

/-- The loop gives a variable to every node. -/
lemma createVarsLoop_length (kinds : List NodeKind) : ∀ {flag : Bool} {rs rs' : List SvRef}
    {m m' : SemanticVariableManager},
      createVarsLoop uuid3 sessionId now flag kinds rs m = (.ok rs', m') →
      rs'.length = rs.length + kinds.length := by
  induction kinds with
  | nil =>
      intro flag rs rs' m m' hok
      obtain ⟨h, -⟩ := Prod.mk.inj hok
      rw [← Except.ok.inj h]
      rfl
  | cons kind kinds ih =>
      intro flag rs rs' m m' hok
      simp only [createVarsLoop] at hok
      split at hok
      · cases hok
      · rw [ih hok, List.length_append, List.length_singleton, List.length_cons]
        omega

end SemanticVariableManager

end ParrotServe
