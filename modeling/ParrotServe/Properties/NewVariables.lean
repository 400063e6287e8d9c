import ParrotServe.Properties.FreshVariables

/-!
# The variables that a request makes

A request only makes variables: those that were there stay as they are (`OnlyNew`), contents
included.  The output of a request is among the new ones and has no content, since nobody but its
producer sets it: `createVarsLoop_outputs` for the Gen nodes of a semantic request, and
`createVarsForPynativeFunc_outputs` for the outputs of a native function, if the call brings no
initial value for them.
-/

namespace ParrotServe

namespace SemanticVariableManager

variable {uuid3 : ℕ → Text → VarId} {m m' m'' : SemanticVariableManager} {sessionId now : ℕ}
  {r : SvRef}

/-- The variables that were there stay as they are. -/
structure OnlyNew (m m' : SemanticVariableManager) : Prop where
  next : m.next ≤ m'.next
  obj : ∀ r < m.next, m'.obj r = m.obj r

lemma OnlyNew.refl (m : SemanticVariableManager) : OnlyNew m m := ⟨le_rfl, fun _ _ => rfl⟩

lemma OnlyNew.trans (h : OnlyNew m m') (h' : OnlyNew m' m'') : OnlyNew m m'' where
  next := h.next.trans h'.next
  obj r hr := (h'.obj r (hr.trans_le h.next)).trans (h.obj r hr)

/-- Namespaces, pools and clocks are not variables. -/
lemma OnlyNew.of_obj (hobj : m'.obj = m.obj) (hnext : m'.next = m.next) : OnlyNew m m' :=
  ⟨hnext.ge, fun _ _ => by rw [hobj]⟩

lemma onlyNew_newVar (m : SemanticVariableManager) (sv : SemanticVariable) :
    OnlyNew m (m.newVar sv).2 :=
  ⟨Nat.le_succ _, fun _ hr => Function.update_of_ne hr.ne _ _⟩

/-- A new variable is given its content. -/
lemma OnlyNew.setContent (h : OnlyNew m m') (hr : m.next ≤ r) (content : Text) :
    OnlyNew m (m'.setContent r content).2 := by
  unfold SemanticVariableManager.setContent
  split
  · exact h
  · refine ⟨h.next, fun r' hr' => ?_⟩
    rw [← h.obj r' hr']
    exact Function.update_of_ne (hr'.trans_le hr).ne _ _

/-! ## One variable -/

lemma newVarByContent_onlyNew (ns : SemanticVariableNamespace) (content : Text)
    (isConstantPrefix : Bool) :
    OnlyNew m (m.newVarByContent uuid3 ns content isConstantPrefix).2.2 := by
  unfold newVarByContent
  dsimp only
  split
  · exact .refl m
  · exact onlyNew_newVar m _

/-- `new_var_by_name`: the variable is the newest one, without a content. -/
lemma newVarByName_onlyNew {ns ns' : SemanticVariableNamespace} {name : Text}
    {isConstantPrefix : Bool} {result : Except PyError SvRef}
    (hok : m.newVarByName uuid3 ns name isConstantPrefix = (result, ns', m')) : OnlyNew m m' ∧
      ∀ r, result = .ok r → r = m.next ∧ r < m'.next ∧ (m'.obj r).content = none := by
  unfold newVarByName at hok
  split at hok
  · simp only [Prod.mk.injEq] at hok
    obtain ⟨rfl, rfl, rfl⟩ := hok
    exact ⟨.refl m, fun _ h => by cases h⟩
  · dsimp only at hok
    split_ifs at hok
    · simp only [Prod.mk.injEq] at hok
      obtain ⟨rfl, rfl, rfl⟩ := hok
      exact ⟨.refl m, fun _ h => by cases h⟩
    · simp only [Prod.mk.injEq] at hok
      obtain ⟨rfl, rfl, rfl⟩ := hok
      refine ⟨onlyNew_newVar m _, fun r hr => ?_⟩
      obtain rfl := Except.ok.inj hr
      exact ⟨rfl, Nat.lt_succ_self _, congrArg SemanticVariable.content
        (Function.update_self m.next _ m.obj)⟩

lemma getConstantPrefixVar_onlyNew (now : ℕ) (content : Text) :
    OnlyNew m (m.getConstantPrefixVar uuid3 now content).2 :=
  (newVarByContent_onlyNew m.constantPrefixNamespace content true).trans (.of_obj rfl rfl)

lemma getLocalVarByContent_onlyNew (sessionId : ℕ) (content : Text) :
    OnlyNew m (m.getLocalVarByContent uuid3 sessionId content).2 := by
  unfold getLocalVarByContent
  split
  · exact .refl m
  · exact (newVarByContent_onlyNew _ content false).trans (.of_obj rfl rfl)

/-- `_create_local_var_by_name`: the variable is the newest one, without a content. -/
lemma createLocalVarByName_onlyNew {varName : Text} {result : Except PyError SvRef}
    (hok : m.createLocalVarByName uuid3 sessionId varName = (result, m')) : OnlyNew m m' ∧
      ∀ r, result = .ok r → r = m.next ∧ r < m'.next ∧ (m'.obj r).content = none := by
  unfold createLocalVarByName at hok
  split at hok
  · obtain ⟨rfl, rfl⟩ := Prod.mk.inj hok
    exact ⟨.refl m, fun _ h => by cases h⟩
  · rename_i ns _
    dsimp only at hok
    obtain ⟨hnew, hr⟩ :=
      newVarByName_onlyNew (rfl : m.newVarByName uuid3 ns varName false = _)
    obtain ⟨rfl, rfl⟩ := Prod.mk.inj hok
    exact ⟨hnew.trans (.of_obj rfl rfl), hr⟩

/-! ## The variables of a semantic request -/

/-- The variable of a node: that of a Gen has no content. -/
lemma createVarForNode_onlyNew {flag : Bool} {kind : NodeKind} {result : Except PyError SvRef}
    (hok : m.createVarForNode uuid3 sessionId now flag kind = (result, m')) : OnlyNew m m' ∧
      ∀ r, result = .ok r → kind.isGen = true → r < m'.next ∧ (m'.obj r).content = none := by
  cases kind with
  | constantFill text =>
      refine ⟨?_, fun _ _ h => by cases h⟩
      simp only [createVarForNode] at hok
      split_ifs at hok
      · obtain ⟨-, rfl⟩ := Prod.mk.inj hok
        exact getConstantPrefixVar_onlyNew now text
      · rw [← show (m.getLocalVarByContent uuid3 sessionId text).2 = m' by rw [hok]]
        exact getLocalVarByContent_onlyNew sessionId text
  | placeholderFill param =>
      refine ⟨?_, fun _ _ h => by cases h⟩
      simp only [createVarForNode] at hok
      split_ifs at hok
      · split at hok
        · rename_i hvar
          obtain ⟨-, rfl⟩ := Prod.mk.inj hok
          exact (createLocalVarByName_onlyNew hvar).1
        · rename_i r m₁ hvar
          obtain ⟨hnew, hr⟩ := createLocalVarByName_onlyNew hvar
          split at hok
          · obtain ⟨-, rfl⟩ := Prod.mk.inj hok
            exact hnew
          · rename_i value _
            have hset := hnew.setContent (hr r rfl).1.ge value
            split at hok
            · rename_i hcontent
              obtain ⟨-, rfl⟩ := Prod.mk.inj hok
              rwa [hcontent] at hset
            · rename_i hcontent
              obtain ⟨-, rfl⟩ := Prod.mk.inj hok
              rwa [hcontent] at hset
      · obtain ⟨-, rfl⟩ := Prod.mk.inj hok
        exact .refl m
  | placeholderGen param =>
      obtain ⟨hnew, hr⟩ := createLocalVarByName_onlyNew hok
      exact ⟨hnew, fun r h _ => (hr r h).2⟩

/-- **The variables of a semantic request.** -/
lemma createVarsLoop_outputs (kinds : List NodeKind) :
    ∀ {flag : Bool} {rs : List SvRef} {m m' : SemanticVariableManager}
      {result : Except PyError (List SvRef)},
      createVarsLoop uuid3 sessionId now flag kinds rs m = (result, m') → OnlyNew m m' ∧
        ∀ rs', result = .ok rs' → ∃ new, rs' = rs ++ new ∧
          ∀ x ∈ kinds.zip new, x.1.isGen = true → (m'.obj x.2).content = none := by
  induction kinds with
  | nil =>
      intro flag rs m m' result hok
      obtain ⟨rfl, rfl⟩ := Prod.mk.inj hok
      refine ⟨.refl m, fun rs' h => ⟨[], ?_, fun x hx => absurd hx List.not_mem_nil⟩⟩
      rw [List.append_nil, Except.ok.inj h]
  | cons kind kinds ih =>
      intro flag rs m m' result hok
      simp only [createVarsLoop] at hok
      split at hok
      · rename_i e m₁ hnode
        obtain ⟨rfl, rfl⟩ := Prod.mk.inj hok
        exact ⟨(createVarForNode_onlyNew hnode).1, fun _ h => by cases h⟩
      · rename_i r m₁ hnode
        obtain ⟨hnew, hgen⟩ := createVarForNode_onlyNew hnode
        obtain ⟨hnew', hrs⟩ := ih hok
        refine ⟨hnew.trans hnew', fun rs' h => ?_⟩
        obtain ⟨new, rfl, hall⟩ := hrs rs' h
        refine ⟨r :: new, by simp, ?_⟩
        rw [List.zip_cons_cons]
        refine List.forall_mem_cons.mpr ⟨fun hk => ?_, hall⟩
        obtain ⟨hlt, hnone⟩ := hgen r rfl hk
        rw [hnew'.obj r hlt]
        exact hnone

/-! ## The variables of a native function -/

/-- The variable of a parameter: that of an output without an initial value has no content. -/
lemma createVarForParam_onlyNew {key : Text} {param : NativeFunctionParameter}
    {result : Except PyError SvRef}
    (hok : m.createVarForParam uuid3 sessionId key param = (result, m')) : OnlyNew m m' ∧
      ∀ r, result = .ok r → param.isOutput = true → param.value = none →
        r = m.next ∧ r < m'.next ∧ (m'.obj r).content = none := by
  unfold createVarForParam at hok
  split_ifs at hok with hcreate
  · split at hok
    · rename_i hvar
      obtain ⟨rfl, rfl⟩ := Prod.mk.inj hok
      exact ⟨(createLocalVarByName_onlyNew hvar).1, fun _ h => by cases h⟩
    · rename_i r m₁ hvar
      obtain ⟨hnew, hr⟩ := createLocalVarByName_onlyNew hvar
      split at hok
      · obtain ⟨rfl, rfl⟩ := Prod.mk.inj hok
        exact ⟨hnew, fun r' h _ _ => Except.ok.inj h ▸ hr r rfl⟩
      · rename_i value hvalue
        have hset := hnew.setContent (hr r rfl).1.ge value
        refine ⟨?_, fun _ _ _ hnone => absurd (hvalue.symm.trans hnone) (by simp)⟩
        split at hok
        · rename_i hcontent
          obtain ⟨-, rfl⟩ := Prod.mk.inj hok
          rwa [hcontent] at hset
        · rename_i hcontent
          obtain ⟨-, rfl⟩ := Prod.mk.inj hok
          rwa [hcontent] at hset
  · obtain ⟨-, rfl⟩ := Prod.mk.inj hok
    refine ⟨.refl m, fun _ _ hout _ => absurd ?_ hcreate⟩
    rw [SemanticFunctionParameter.shouldCreate, hout, Bool.true_or]

/-- The outputs made so far: different new variables without contents. -/
structure Outputs (low : SvRef) (outputVars : List (Text × SvRef)) (m : SemanticVariableManager) :
    Prop where
  nodup : (outputVars.map Prod.snd).Nodup
  range : ∀ x ∈ outputVars, low ≤ x.2 ∧ x.2 < m.next
  unset : ∀ x ∈ outputVars, (m.obj x.2).content = none

lemma Outputs.onlyNew {low : SvRef} {outputVars : List (Text × SvRef)}
    (h : Outputs low outputVars m) (hnew : OnlyNew m m') : Outputs low outputVars m' where
  nodup := h.nodup
  range x hx := ⟨(h.range x hx).1, (h.range x hx).2.trans_le hnew.next⟩
  unset x hx := by
    rw [hnew.obj x.2 (h.range x hx).2]
    exact h.unset x hx

/-- The newest variable is one more output. -/
lemma Outputs.concat {low : SvRef} {outputVars : List (Text × SvRef)} {key : Text}
    (h : Outputs low outputVars m) (hnew : OnlyNew m m') (hlow : low ≤ m.next)
    (hlt : m.next < m'.next) (hnone : (m'.obj m.next).content = none) :
    Outputs low (outputVars ++ [(key, m.next)]) m' where
  nodup := by
    rw [List.map_append, List.map_singleton, List.nodup_append]
    refine ⟨h.nodup, List.nodup_singleton _, fun v hv w hw => ?_⟩
    obtain ⟨x, hx, rfl⟩ := List.mem_map.mp hv
    rw [List.mem_singleton.mp hw]
    exact (h.range x hx).2.ne
  range x hx := by
    rcases List.mem_append.mp hx with hx | hx
    · exact (h.onlyNew hnew).range x hx
    · obtain rfl := List.mem_singleton.mp hx
      exact ⟨hlow, hlt⟩
  unset x hx := by
    rcases List.mem_append.mp hx with hx | hx
    · exact (h.onlyNew hnew).unset x hx
    · obtain rfl := List.mem_singleton.mp hx
      exact hnone

/-- **The variables of a native function.** -/
lemma createVarsForPynativeFunc_outputs (low : SvRef)
    (params : List (Text × NativeFunctionParameter)) :
    ∀ {inputVars outputVars : List (Text × SvRef)} {m m' : SemanticVariableManager}
      {result : Except PyError (List (Text × SvRef) × List (Text × SvRef))},
      createVarsForPynativeFunc uuid3 sessionId params inputVars outputVars m = (result, m') →
      OnlyNew m m' ∧ ∀ ins outs, result = .ok (ins, outs) →
        (∀ key param, (key, param) ∈ params →
          ∃ r, (key, r) ∈ if param.isOutput then outs else ins) ∧
        inputVars ⊆ ins ∧ outputVars ⊆ outs ∧
        ((∀ x ∈ params, x.2.isOutput = true → x.2.value = none) → low ≤ m.next →
          Outputs low outputVars m → Outputs low outs m') := by
  induction params with
  | nil =>
      intro inputVars outputVars m m' result hok
      obtain ⟨rfl, rfl⟩ := Prod.mk.inj hok
      refine ⟨.refl m, fun ins outs h => ?_⟩
      obtain ⟨rfl, rfl⟩ := Prod.mk.inj (Except.ok.inj h)
      exact ⟨fun _ _ h => absurd h List.not_mem_nil, List.Subset.refl _, List.Subset.refl _,
        fun _ _ h => h⟩
  | cons x params ih =>
      obtain ⟨key, param⟩ := x
      intro inputVars outputVars m m' result hok
      simp only [createVarsForPynativeFunc] at hok
      split at hok
      · rename_i e m₁ hvar
        obtain ⟨rfl, rfl⟩ := Prod.mk.inj hok
        exact ⟨(createVarForParam_onlyNew hvar).1, fun _ _ h => by cases h⟩
      · rename_i r m₁ hvar
        obtain ⟨hnew, hr⟩ := createVarForParam_onlyNew hvar
        split_ifs at hok with hout
        · obtain ⟨hnew', hrest⟩ := ih hok
          refine ⟨hnew.trans hnew', fun ins outs h => ?_⟩
          obtain ⟨hkeys, hins, houts, hall⟩ := hrest ins outs h
          obtain ⟨hold, hlast⟩ := List.append_subset.mp houts
          refine ⟨fun key' param' hmem => ?_, hins, hold, fun hvalues hlow h => ?_⟩
          · rcases List.mem_cons.mp hmem with heq | hmem
            · obtain ⟨rfl, rfl⟩ := Prod.mk.inj heq
              rw [if_pos hout]
              exact ⟨r, hlast (List.mem_singleton_self _)⟩
            · exact hkeys key' param' hmem
          · obtain ⟨heq, hlt, hnone⟩ := hr r rfl hout (hvalues _ List.mem_cons_self hout)
            subst heq
            exact hall (fun x hx => hvalues x (List.mem_cons_of_mem _ hx))
              (hlow.trans hnew.next) (h.concat hnew hlow hlt hnone)
        · obtain ⟨hnew', hrest⟩ := ih hok
          refine ⟨hnew.trans hnew', fun ins outs h => ?_⟩
          obtain ⟨hkeys, hins, houts, hall⟩ := hrest ins outs h
          obtain ⟨hold, hlast⟩ := List.append_subset.mp hins
          refine ⟨fun key' param' hmem => ?_, hold, houts, fun hvalues hlow h => ?_⟩
          · rcases List.mem_cons.mp hmem with heq | hmem
            · obtain ⟨rfl, rfl⟩ := Prod.mk.inj heq
              rw [if_neg hout]
              exact ⟨r, hlast (List.mem_singleton_self _)⟩
            · exact hkeys key' param' hmem
          · exact hall (fun x hx => hvalues x (List.mem_cons_of_mem _ hx))
              (hlow.trans hnew.next) (h.onlyNew hnew)

/-! ## Namespaces -/

/-- Prefixes that expire are forgotten by their namespace only. -/
lemma freeExpired_onlyNew (curTime : ℕ) (items : List (VarId × ℕ)) :
    ∀ (ret : List SvRef) (m : SemanticVariableManager),
      OnlyNew m (freeExpired curTime items ret m).2 := by
  induction items with
  | nil => exact fun _ m => .refl m
  | cons item items ih =>
      intro ret m
      unfold freeExpired
      split
      · split
        · exact .refl m
        · split
          · exact .of_obj rfl rfl
          · split
            · have hrest := ih (ret ++ [‹SvRef›]) { m with
                constantPrefixNamespace := ‹SemanticVariableNamespace›
                constantPrefixLastAccessTime := m.constantPrefixLastAccessTime.erase item.1 }
              exact ⟨hrest.next, hrest.obj⟩
            · exact .of_obj rfl rfl
      · exact ih ret m

lemma registerLocalVarSpace_onlyNew (sessionId : ℕ) :
    OnlyNew m (m.registerLocalVarSpace sessionId).2 := by
  unfold registerLocalVarSpace
  split_ifs
  · exact .refl m
  · exact .of_obj rfl rfl

lemma freeLocalVarSpace_onlyNew (sessionId : ℕ) :
    OnlyNew m (m.freeLocalVarSpace sessionId).2 := by
  unfold freeLocalVarSpace
  split_ifs
  · exact .of_obj rfl rfl
  · exact .refl m

lemma createVar_onlyNew {varName : Text} {result : Except PyError SvRef}
    (hok : m.createVar uuid3 sessionId varName = (result, m')) : OnlyNew m m' := by
  unfold createVar at hok
  split_ifs at hok
  · exact (createLocalVarByName_onlyNew hok).1
  · obtain ⟨-, rfl⟩ := Prod.mk.inj hok
    exact .refl m

end SemanticVariableManager

end ParrotServe
