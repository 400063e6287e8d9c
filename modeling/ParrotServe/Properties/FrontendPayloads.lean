import ParrotServe.Properties.TemplateRoundTrips

/-!
# The payloads of the frontend on the server

What `to_request_payload` sends and what the parameter classes of the server accept.  The entries
of a payload are those of the parameters whose argument is a variable (and, for a native function,
those of all others), and an entry is refused when it is an output with a variable id, or an input
without a value.  The first is what a preallocated output that is registered becomes, the second a
native argument `None`: `payloads_accepted` says that there is nothing else, besides a function
that declares a name twice.

`setBindings_spec` is where bindings come from, so that the condition is one on the arguments.
-/

namespace ParrotServe

namespace PFunc

/-! ## Where bindings come from -/

/-- What `_set_value` stores. -/
def storedValue (param : Parameter) (value : Argument) : Argument :=
  match param.typ, value with
  | .inputLoc, .object o => .semanticVariable { name := param.name, content := some o.str }
  | _, value => value

lemma setValue_eq {param : Parameter} {value : Argument} {b b' : Dict Text Argument}
    (h : setValue param value b = .ok b') : b' = b.set param.name (storedValue param value) := by
  unfold setValue at h
  unfold storedValue
  generalize param.typ = typ at h ⊢
  cases typ <;> cases value
  all_goals
    first
      | exact (Except.ok.inj h).symm
      | cases h

/-- A variable is stored as it is. -/
lemma storedValue_variable (param : Parameter) (v : SemanticVariable) :
    storedValue param (.semanticVariable v) = .semanticVariable v := by
  unfold storedValue
  split
  · rename_i h
    cases h
  · rfl

/-- What is stored for another object is no registered variable. -/
lemma storedValue_object {param : Parameter} {o : PyObject} {v : SemanticVariable}
    (h : storedValue param (.object o) = .semanticVariable v) : v.isRegistered = false := by
  unfold storedValue at h
  split at h
  · obtain rfl := Argument.semanticVariable.inj h
    rfl
  · cases h

lemma setPositional_spec {funcName : Text} {b' : Dict Text Argument} (args : List Argument) :
    ∀ {inputs : List Parameter} {b : Dict Text Argument},
      setPositional funcName args inputs b = .ok b' →
      ∀ n arg, b'.get? n = some arg → b.get? n = some arg ∨ ∃ q ∈ inputs, q.name = n := by
  induction args with
  | nil =>
      intro inputs b h n arg hn
      rw [setPositional] at h
      obtain rfl := Except.ok.inj h
      exact .inl hn
  | cons value args ih =>
      intro inputs b h n arg hn
      cases inputs with
      | nil => cases h
      | cons param inputs =>
          rw [setPositional] at h
          split at h
          · cases h
          · rename_i b₁ hset
            obtain rfl := setValue_eq hset
            rcases ih h n arg hn with hold | ⟨q, hq, hname⟩
            · rw [Dict.get?_set] at hold
              split_ifs at hold with he
              · exact .inr ⟨param, List.mem_cons_self, he.symm⟩
              · exact .inl hold
            · exact .inr ⟨q, List.mem_cons_of_mem _ hq, hname⟩

/-- The keyword arguments: bindings are kept, variables are bound, and nothing else. -/
lemma setKeywords_spec {funcName : Text} {params : List Parameter} {b' : Dict Text Argument}
    (kwargs : List (Text × Argument)) : ∀ {b : Dict Text Argument},
      setKeywords funcName (paramsMap params) kwargs b = .ok b' →
      (∀ n arg, b.get? n = some arg → b'.get? n = some arg) ∧
      (∀ n v, (n, Argument.semanticVariable v) ∈ kwargs →
        b'.get? n = some (.semanticVariable v)) ∧
      ∀ n v, b'.get? n = some (.semanticVariable v) → b.get? n = some (.semanticVariable v) ∨
        (n, Argument.semanticVariable v) ∈ kwargs ∨ v.isRegistered = false := by
  induction kwargs with
  | nil =>
      intro b h
      obtain rfl := Except.ok.inj h
      exact ⟨fun _ _ hn => hn, fun _ _ hn => absurd hn List.not_mem_nil, fun _ _ hn => .inl hn⟩
  | cons kwarg kwargs ih =>
      obtain ⟨name, value⟩ := kwarg
      intro b h
      rw [setKeywords] at h
      split_ifs at h with hbound
      split at h
      · cases h
      · rename_i param hparam
        obtain ⟨-, rfl⟩ := paramsMap_name hparam
        split at h
        · cases h
        · rename_i b₁ hset
          obtain rfl := setValue_eq hset
          obtain ⟨hkeep, hvars, horigin⟩ := ih h
          refine ⟨fun n arg hn => hkeep n arg ?_, fun n v hn => ?_, fun n v hn => ?_⟩
          · have hne : n ≠ param.name := by
              rintro rfl
              exact hbound (b.mem_keys_of_get? hn)
            rwa [Dict.get?_set_ne _ _ hne]
          · rcases List.mem_cons.mp hn with he | hn
            · obtain ⟨rfl, rfl⟩ := Prod.mk.inj he
              refine hkeep _ _ ?_
              rw [Dict.get?_set_self, storedValue_variable]
            · exact hvars n v hn
          · rcases horigin n v hn with hold | hnew | hfresh
            · rw [Dict.get?_set] at hold
              split_ifs at hold with he
              · have hstored := Option.some.inj hold
                cases value with
                | semanticVariable w =>
                    rw [storedValue_variable] at hstored
                    exact .inr (.inl (List.mem_cons.mpr (.inl (Prod.ext he hstored.symm))))
                | object o => exact .inr (.inr (storedValue_object hstored))
              · exact .inl hold
            · exact .inr (.inl (List.mem_cons_of_mem _ hnew))
            · exact .inr (.inr hfresh)

/-- New output variables are not registered. -/
lemma createOutputVars_spec (outputs : List Parameter) :
    ∀ (b : Dict Text Argument) (vars : List SemanticVariable),
      let b' := (createOutputVars outputs b vars).1
      (∀ n arg, b.get? n = some arg → b'.get? n = some arg) ∧
      ∀ n v, b'.get? n = some (.semanticVariable v) →
        b.get? n = some (.semanticVariable v) ∨ v.isRegistered = false := by
  induction outputs with
  | nil => exact fun b vars => ⟨fun _ _ hn => hn, fun _ _ hn => .inl hn⟩
  | cons param outputs ih =>
      intro b vars
      rw [createOutputVars]
      split_ifs with hbound
      · exact ih b vars
      · obtain ⟨hkeep, horigin⟩ := ih (b.set param.name (.semanticVariable { name := param.name }))
          (vars ++ [{ name := param.name }])
        refine ⟨fun n arg hn => hkeep n arg ?_, fun n v hn => ?_⟩
        · have hne : n ≠ param.name := by
            rintro rfl
            exact hbound (b.mem_keys_of_get? hn)
          rwa [Dict.get?_set_ne _ _ hne]
        · rcases horigin n v hn with hold | hfresh
          · rw [Dict.get?_set] at hold
            split_ifs at hold with he
            · obtain rfl := Argument.semanticVariable.inj (Option.some.inj hold)
              exact .inr rfl
            · exact .inl hold
          · exact .inr hfresh

/-- Where the bindings of a call come from: a variable that is a keyword argument is bound, and a
registered one that is bound is a keyword argument, or belongs to an input of that name. -/
lemma setBindings_spec {f : BasicFunction} {args : List Argument} {kwargs : List (Text × Argument)}
    {call : BasicCall} (h : f.setBindings args kwargs = .ok call) :
    (∀ n v, (n, Argument.semanticVariable v) ∈ kwargs →
      call.bindings.get? n = some (.semanticVariable v)) ∧
    ∀ n v, call.bindings.get? n = some (.semanticVariable v) → v.isRegistered = true →
      (n, Argument.semanticVariable v) ∈ kwargs ∨ ∃ q ∈ f.inputs, q.name = n := by
  unfold BasicFunction.setBindings at h
  split at h
  · cases h
  · rename_i b₁ hpos
    split at h
    · cases h
    · rename_i b₂ hkw
      obtain rfl := Except.ok.inj h
      obtain ⟨hkeep, hvars, horigin⟩ := setKeywords_spec kwargs hkw
      obtain ⟨hkeep', horigin'⟩ := createOutputVars_spec f.outputs b₂ []
      refine ⟨fun n v hn => hkeep' n _ (hvars n v hn), fun n v hn hreg => ?_⟩
      rcases horigin' n v hn with hn | hfresh
      · rcases horigin n v hn with hn | hn | hfresh
        · rcases setPositional_spec args hpos n _ hn with hn | hq
          · simp at hn
          · exact .inr hq
        · exact .inl hn
        · rw [hfresh] at hreg
          cases hreg
      · rw [hfresh] at hreg
        cases hreg

/-! ## The entries of a payload -/

/-- The variable that is bound to a parameter. -/
def boundVariable (bindings : Dict Text Argument) (param : Parameter) : Option SemanticVariable :=
  match bindings.get? param.name with
  | some (.semanticVariable v) => some v
  | _ => none

lemma boundVariable_eq_some {b : Dict Text Argument} {param : Parameter} {v : SemanticVariable} :
    boundVariable b param = some v ↔ b.get? param.name = some (.semanticVariable v) := by
  unfold boundVariable
  split
  · rename_i w h
    rw [h, Option.some.injEq, Option.some.injEq, Argument.semanticVariable.injEq]
  · rename_i h
    exact ⟨fun hv => (by cases hv), fun hv => absurd hv (h v)⟩

/-- The parameters whose argument is a variable: those a semantic call sends. -/
def sent (bindings : Dict Text Argument) (params : List Parameter) : List Parameter :=
  params.filter fun param => (boundVariable bindings param).isSome

/-- The names and texts of the other parameters, which a semantic call renders. -/
def objects (bindings : Dict Text Argument) (params : List Parameter) : List (Text × Text) :=
  params.filterMap fun param =>
    match bindings.get? param.name with
    | some (.object o) => some (param.name, o.str)
    | _ => none

/-- Render the objects one after the other. -/
def renderObjects (objects : List (Text × Text)) (template : Text) : Text :=
  objects.foldl (fun t o => Tokens.replace (placeholderSource o.1) o.2 t) template

/-- The id and the initial value of a parameter's variable, as they are sent. -/
def SendsVariable (param : Parameter) (v : SemanticVariable) (varId initial : Option Text) : Prop :=
  if v.isRegistered then varId = v.id ∧ initial = none
  else varId = none ∧ (initial = none ↔ param.isOutput = true)

lemma variableEntry_sends {handler : Handler} {param : Parameter} {v : SemanticVariable}
    {varId initial : Option Text} (h : variableEntry handler param v = .ok (varId, initial)) :
    SendsVariable param v varId initial := by
  unfold variableEntry at h
  unfold SendsVariable
  split_ifs at h ⊢ with hreg hout
  · obtain ⟨rfl, rfl⟩ := Prod.mk.inj (Except.ok.inj h)
    exact ⟨rfl, rfl⟩
  · obtain ⟨rfl, rfl⟩ := Prod.mk.inj (Except.ok.inj h)
    exact ⟨rfl, fun _ => hout, fun _ => rfl⟩
  · split at h
    · cases h
    · obtain ⟨rfl, rfl⟩ := Prod.mk.inj (Except.ok.inj h)
      exact ⟨rfl, fun hnone => (by cases hnone), fun hnone => absurd hnone hout⟩

/-- The entry of a parameter in a semantic payload. -/
structure SemanticEntry (bindings : Dict Text Argument) (param : Parameter)
    (entry : ParameterPayload) : Prop where
  name : entry.name = some param.name
  isOutput : entry.isOutput = some param.isOutput
  otherKeys : entry.otherKeys = []
  samplingConfig : entry.samplingConfig =
    if param.isOutput then some samplingConfigFields else none
  sends : ∃ v, boundVariable bindings param = some v ∧
    SendsVariable param v entry.varId entry.value

lemma renderSemantic_spec {handler : Handler} {b : Dict Text Argument}
    {result : Text × List ParameterPayload} (params : List Parameter) :
    ∀ {template : Text} {parameters : List ParameterPayload},
      renderSemantic handler b params (template, parameters) = .ok result →
      result.1 = renderObjects (objects b params) template ∧ ∃ entries,
        result.2 = parameters ++ entries ∧
          List.Forall₂ (SemanticEntry b) (sent b params) entries := by
  induction params with
  | nil =>
      intro template parameters h
      obtain rfl := Except.ok.inj h
      exact ⟨rfl, [], (List.append_nil _).symm, .nil⟩
  | cons param params ih =>
      intro template parameters h
      rw [renderSemantic] at h
      split at h
      · cases h
      · rename_i value hvalue
        split at h
        · cases h
        · rename_i sampling v hsampling
          have hbound : boundVariable b param = some v := boundVariable_eq_some.mpr hvalue
          have hsent : sent b (param :: params) = param :: sent b params :=
            List.filter_cons_of_pos (by rw [hbound]; rfl)
          have hobjects : objects b (param :: params) = objects b params := by
            simp only [objects, List.filterMap_cons, hvalue]
          split at h
          · cases h
          · rename_i varId initial hentry
            obtain ⟨htemplate, entries, hentries, hall⟩ := ih h
            rw [List.append_assoc, List.singleton_append] at hentries
            rw [hsent, hobjects]
            refine ⟨htemplate, _, hentries, .cons ⟨rfl, rfl, rfl, ?_, v, hbound,
              variableEntry_sends hentry⟩ hall⟩
            unfold samplingEntry at hsampling
            split_ifs at hsampling ⊢
            · exact (Except.ok.inj hsampling).symm
            · exact (Except.ok.inj hsampling).symm
        · rename_i o _
          have hbound : boundVariable b param = none := by
            simp only [boundVariable, hvalue]
          have hsent : sent b (param :: params) = sent b params :=
            List.filter_cons_of_neg (by simp [hbound])
          have hobjects :
              objects b (param :: params) = (param.name, o.str) :: objects b params := by
            simp only [objects, List.filterMap_cons, hvalue]
          rw [hsent, hobjects]
          exact ih h

/-- The server refuses the entry of a registered output, and no other. -/
lemma SemanticEntry.construct_iff {b : Dict Text Argument} {param : Parameter}
    {entry : ParameterPayload} (h : SemanticEntry b param entry) :
    (∃ parsed, entry.construct = .ok parsed) ↔
      ∀ v, boundVariable b param = some v → param.isOutput = true → v.isRegistered = false := by
  obtain ⟨v, hv, hsends⟩ := h.sends
  have hkeys : samplingConfigFields.all (samplingConfigFields.contains ·) = true :=
    List.all_eq_true.mpr fun key hkey => List.contains_iff_mem.mpr hkey
  have hcond : (∀ v, boundVariable b param = some v → param.isOutput = true →
      v.isRegistered = false) ↔ (param.isOutput = true → v.isRegistered = false) := by
    rw [hv]
    constructor
    · exact fun h => h v rfl
    · rintro h w hw
      exact Option.some.inj hw ▸ h
  obtain ⟨name, isOutput, varId, value, samplingConfig, otherKeys⟩ := entry
  obtain ⟨rfl, rfl, rfl, rfl, -⟩ := h
  rw [hcond]
  unfold SendsVariable at hsends
  cases hreg : v.isRegistered with
  | true =>
      obtain ⟨id, hid⟩ := Option.isSome_iff_exists.mp hreg
      rw [hreg, if_pos rfl, hid] at hsends
      obtain ⟨rfl, rfl⟩ := hsends
      cases param.isOutput with
      | true =>
          have herror : (ParameterPayload.mk (some param.name) (some true) (some id) none
              (some samplingConfigFields) []).construct =
              .error (.valueError "Output parameter should not have var_id.") := by
            simp only [ParameterPayload.construct, ParameterPayload.postInit, hkeys]
            rfl
          refine ⟨?_, fun hfresh => absurd (hfresh rfl) Bool.noConfusion⟩
          rintro ⟨parsed, hok⟩
          rw [if_pos rfl, herror] at hok
          cases hok
      | false => exact ⟨fun _ hout => (by cases hout), fun _ => ⟨_, rfl⟩⟩
  | false =>
      rw [hreg, if_neg Bool.false_ne_true] at hsends
      obtain ⟨rfl, hvalue⟩ := hsends
      refine ⟨fun _ _ => rfl, fun _ => ?_⟩
      cases hout : param.isOutput with
      | true =>
          obtain rfl := hvalue.mpr hout
          refine ⟨⟨param.name, true, none, none⟩, ?_⟩
          simp only [ParameterPayload.construct, ParameterPayload.postInit, hkeys, if_true]
          rfl
      | false =>
          obtain ⟨text, rfl⟩ := Option.ne_none_iff_exists'.mp fun hnone =>
            Bool.false_ne_true (hout ▸ hvalue.mp hnone)
          exact ⟨_, rfl⟩

/-- The entry of a parameter in a native payload. -/
structure NativeEntry (bindings : Dict Text Argument) (param : Parameter)
    (entry : NativeParameterPayload) : Prop where
  name : entry.name = some param.name
  isOutput : entry.isOutput = some param.isOutput
  sends : (∃ v initial, boundVariable bindings param = some v ∧
      SendsVariable param v entry.varId initial ∧
      entry.value = (initial.map PyObject.other).getD .none) ∨
    (bindings.get? param.name = some (.object entry.value) ∧ entry.varId = none)

lemma renderNative_spec {handler : Handler} {b : Dict Text Argument}
    {result : List NativeParameterPayload} (params : List Parameter) :
    ∀ {parameters : List NativeParameterPayload},
      renderNative handler b params parameters = .ok result →
      ∃ entries, result = parameters ++ entries ∧ List.Forall₂ (NativeEntry b) params entries := by
  induction params with
  | nil =>
      intro parameters h
      obtain rfl := Except.ok.inj h
      exact ⟨[], (List.append_nil _).symm, .nil⟩
  | cons param params ih =>
      intro parameters h
      rw [renderNative] at h
      dsimp only at h
      split at h
      · cases h
      · rename_i o hvalue
        obtain ⟨entries, hentries, hall⟩ := ih h
        rw [List.append_assoc, List.singleton_append] at hentries
        exact ⟨_, hentries, .cons ⟨rfl, rfl, .inr ⟨hvalue, rfl⟩⟩ hall⟩
      · rename_i v hvalue
        split at h
        · cases h
        · rename_i varId initial hentry
          obtain ⟨entries, hentries, hall⟩ := ih h
          rw [List.append_assoc, List.singleton_append] at hentries
          exact ⟨_, hentries, .cons ⟨rfl, rfl, .inl ⟨v, initial, boundVariable_eq_some.mpr hvalue,
            variableEntry_sends hentry, rfl⟩⟩ hall⟩

/-- The server refuses the entry of a registered output, and that of an input that is `None`, and
no other. -/
lemma NativeEntry.construct_iff {b : Dict Text Argument} {param : Parameter}
    {entry : NativeParameterPayload} (h : NativeEntry b param entry) :
    (∃ parsed, entry.construct = .ok parsed) ↔
      (∀ v, boundVariable b param = some v → param.isOutput = true → v.isRegistered = false) ∧
        (param.isOutput = false → b.get? param.name ≠ some (.object .none)) := by
  obtain ⟨name, isOutput, varId, value⟩ := entry
  obtain ⟨rfl, rfl, hsends⟩ := h
  rcases hsends with ⟨v, initial, hv, hsends, rfl⟩ | ⟨hobject, rfl⟩
  · have hno : b.get? param.name ≠ some (.object .none) := by
      rw [boundVariable_eq_some.mp hv]
      exact fun h => by cases h
    have hcond : (∀ v, boundVariable b param = some v → param.isOutput = true →
        v.isRegistered = false) ↔ (param.isOutput = true → v.isRegistered = false) := by
      rw [hv]
      constructor
      · exact fun h => h v rfl
      · rintro h w hw
        exact Option.some.inj hw ▸ h
    rw [hcond, and_iff_left fun _ => hno]
    unfold SendsVariable at hsends
    cases hreg : v.isRegistered with
    | true =>
        obtain ⟨id, hid⟩ := Option.isSome_iff_exists.mp hreg
        rw [hreg, if_pos rfl, hid] at hsends
        obtain ⟨rfl, rfl⟩ := hsends
        cases param.isOutput with
        | true =>
            refine ⟨?_, fun hfresh => absurd (hfresh rfl) Bool.noConfusion⟩
            rintro ⟨parsed, hok⟩
            cases hok
        | false => exact ⟨fun _ hout => (by cases hout), fun _ => ⟨_, rfl⟩⟩
    | false =>
        rw [hreg, if_neg Bool.false_ne_true] at hsends
        obtain ⟨rfl, hvalue⟩ := hsends
        refine ⟨fun _ _ => rfl, fun _ => ?_⟩
        cases hout : param.isOutput with
        | true => exact ⟨_, rfl⟩
        | false =>
            obtain ⟨text, rfl⟩ := Option.ne_none_iff_exists'.mp fun hnone =>
              Bool.false_ne_true (hout ▸ hvalue.mp hnone)
            exact ⟨_, rfl⟩
  · have hvar : boundVariable b param = none := by
      simp only [boundVariable, hobject]
    rw [hvar, hobject]
    cases param.isOutput with
    | true => exact ⟨fun _ => ⟨fun _ h => (by cases h), fun h => (by cases h)⟩, fun _ => ⟨_, rfl⟩⟩
    | false =>
        cases value with
        | none =>
            refine ⟨?_, fun h => absurd rfl (h.2 rfl)⟩
            rintro ⟨parsed, hok⟩
            cases hok
        | other text =>
            exact ⟨fun _ => ⟨fun _ h => (by cases h), fun _ h => (by cases h)⟩, fun _ => ⟨_, rfl⟩⟩

/-- The loop over the parameters of a native request. -/
lemma parseNativeParameters_loop : ParameterLoop NativeParameterPayload.construct
    NativeParameterPayload.name (fun m : List (Text × NativeParameter) => m.map Prod.fst)
    parseNativeParameters := by
  have hname : ∀ {p : NativeParameterPayload} {parsed : NativeParameter},
      p.construct = .ok parsed → p.name = some parsed.name := by
    intro p parsed h
    unfold NativeParameterPayload.construct at h
    split at h
    · rename_i name isOutput hname _
      split_ifs at h
      obtain rfl := Except.ok.inj h
      exact hname
    · cases h
  refine ⟨fun _ => rfl, fun m p ps e hp => ⟨coreUserError e, by rw [parseNativeParameters, hp]⟩,
    fun p parsed hp => ⟨parsed.name, hname hp⟩, fun m p ps parsed name hp hn hdup => ?_,
    fun m p ps parsed name hp hn hdup => ?_⟩
  · obtain rfl := Option.some.inj ((hname hp).symm.trans hn)
    refine ⟨.parrotAssert "Duplicate parameter name.", ?_⟩
    rw [parseNativeParameters, hp]
    exact if_pos hdup
  · obtain rfl := Option.some.inj ((hname hp).symm.trans hn)
    refine ⟨m ++ [(parsed.name, parsed)], by simp, ?_⟩
    rw [parseNativeParameters, hp]
    exact if_neg hdup

/-! ## Accepted payloads -/

/-- No output is preallocated by a registered variable. -/
def FreshOutputs (f : BasicFunction) (kwargs : List (Text × Argument)) : Prop :=
  ∀ param ∈ f.outputs, ∀ v, (param.name, Argument.semanticVariable v) ∈ kwargs →
    v.isRegistered = false

/-- The names of the sent parameters, as the entries have them. -/
lemma names_of_forall₂ {α : Type} {name : α → Option Text} {R : Parameter → α → Prop}
    (hname : ∀ {param entry}, R param entry → name entry = some param.name)
    {params : List Parameter} {entries : List α} (h : List.Forall₂ R params entries) :
    entries.map name = (params.map Parameter.name).map some := by
  induction h with
  | nil => rfl
  | cons hd _ ih => rw [List.map_cons, List.map_cons, List.map_cons, hname hd, ih]

/-- Something about each entry is something about each parameter. -/
lemma forall_of_forall₂ {α : Type} {P : α → Prop} {Q : Parameter → Prop} {R : Parameter → α → Prop}
    (hiff : ∀ {param entry}, R param entry → (P entry ↔ Q param))
    {params : List Parameter} {entries : List α} (h : List.Forall₂ R params entries) :
    (∀ entry ∈ entries, P entry) ↔ ∀ param ∈ params, Q param := by
  induction h with
  | nil => simp
  | cons hd _ ih => rw [List.forall_mem_cons, List.forall_mem_cons, hiff hd, ih]

/-- When the sent names are distinct, registered outputs can only be keyword arguments. -/
lemma freshOutputs_iff {f : BasicFunction} {args : List Argument} {kwargs : List (Text × Argument)}
    {call : BasicCall} (hcall : f.setBindings args kwargs = .ok call)
    (hnodup : ((sent call.bindings f.params).map Parameter.name).Nodup) :
    (∀ param ∈ sent call.bindings f.params, ∀ v, boundVariable call.bindings param = some v →
      param.isOutput = true → v.isRegistered = false) ↔ FreshOutputs f kwargs := by
  obtain ⟨hbound, horigin⟩ := setBindings_spec hcall
  have hout : ∀ param, param ∈ f.outputs ↔ param ∈ f.params ∧ param.isOutput = true := by
    intro param
    simp [BasicFunction.outputs, Parameter.isOutput]
  constructor
  · intro h param hparam v hv
    obtain ⟨hmem, houtput⟩ := (hout param).mp hparam
    have hvar := boundVariable_eq_some.mpr (hbound _ v hv)
    exact h param (List.mem_filter.mpr ⟨hmem, by rw [hvar]; rfl⟩) v hvar houtput
  · intro h param hparam v hv houtput
    by_contra hreg
    rw [Bool.not_eq_false] at hreg
    obtain ⟨hmem, hsome⟩ := List.mem_filter.mp hparam
    rcases horigin param.name v (boundVariable_eq_some.mp hv) hreg with hkw | ⟨q, hq, hname⟩
    · rw [h param ((hout param).mpr ⟨hmem, houtput⟩) v hkw] at hreg
      cases hreg
    · -- an input of the same name is sent too
      obtain ⟨hqmem, hqtyp⟩ := List.mem_filter.mp hq
      have hqvar : boundVariable call.bindings q = some v := by
        rw [boundVariable_eq_some, hname]
        exact boundVariable_eq_some.mp hv
      have heq := List.inj_on_of_nodup_map hnodup
        (List.mem_filter.mpr ⟨hqmem, by rw [hqvar]; rfl⟩) hparam hname
      rw [heq] at hqtyp
      simp only [Parameter.isOutput, beq_iff_eq] at houtput
      simp [houtput] at hqtyp

/-- What `to_request_payload` builds. -/
lemma toRequestPayload_spec {f : SemanticFunction} {handler : Handler} {b : Dict Text Argument}
    {payload : SemanticCallPayload} (h : f.toRequestPayload handler b = .ok payload) :
    payload.template = some (renderObjects (objects b f.params) (toTemplateStr f.body)) ∧
      payload.metadata = f.metadata ∧ ∃ parameters, payload.parameters = some parameters ∧
        List.Forall₂ (SemanticEntry b) (sent b f.params) parameters := by
  unfold SemanticFunction.toRequestPayload at h
  split at h
  · cases h
  · rename_i template parameters hrender
    obtain rfl := Except.ok.inj h
    obtain ⟨htemplate, entries, hparameters, hentries⟩ := renderSemantic_spec _ hrender
    rw [List.nil_append] at hparameters
    exact ⟨congrArg some htemplate, rfl, entries, congrArg some hparameters, hentries⟩

/-- Which semantic payloads are parsed. -/
lemma semantic_accepted_iff {f : SemanticFunction} {handler : Handler} {args : List Argument}
    {kwargs : List (Text × Argument)} {call : BasicCall} {payload : SemanticCallPayload}
    (hcall : f.toBasicFunction.setBindings args kwargs = .ok call)
    (hpayload : f.toRequestPayload handler call.bindings = .ok payload) (requestId sessionId : ℕ) :
    (∃ req, ChunkedSemanticCallRequest.parseFromPayload requestId sessionId payload = .ok req) ↔
      FreshOutputs f.toBasicFunction kwargs ∧
        ((sent call.bindings f.params).map Parameter.name).Nodup := by
  obtain ⟨htemplate, -, parameters, hparameters, hentries⟩ := toRequestPayload_spec hpayload
  have hnames : parameters.map ParameterPayload.name =
      ((sent call.bindings f.params).map Parameter.name).map some :=
    names_of_forall₂ (fun h => h.name) hentries
  have hentry : (∀ p ∈ parameters, ∃ parsed, p.construct = .ok parsed) ↔ _ :=
    forall_of_forall₂ (fun h => h.construct_iff) hentries
  rw [ChunkedSemanticCallRequest.parseFromPayload_ok_iff requestId sessionId htemplate hparameters,
    hnames, List.nodup_map_iff (Option.some_injective _), hentry]
  exact and_congr_left fun hnodup => freshOutputs_iff hcall hnodup

/-- Which native parameters are accepted. -/
lemma native_accepted_iff {f : BasicFunction} {handler : Handler} {args : List Argument}
    {kwargs : List (Text × Argument)} {call : BasicCall} {parameters : List NativeParameterPayload}
    (hcall : f.setBindings args kwargs = .ok call)
    (hpayload : f.toRequestPayload handler call.bindings = .ok parameters) :
    (∃ m, parseNativeParameters [] parameters = .ok m) ↔
      FreshOutputs f kwargs ∧ (f.params.map Parameter.name).Nodup ∧
        ∀ param ∈ f.inputs, call.bindings.get? param.name ≠ some (.object .none) := by
  obtain ⟨entries, hparameters, hentries⟩ := renderNative_spec _ hpayload
  rw [List.nil_append] at hparameters
  have hloop := parseNativeParameters_loop.ok_iff parameters []
  simp only [List.map_nil, List.not_mem_nil, false_imp_iff, implies_true, and_true] at hloop
  have hinputs : (∀ param ∈ f.params, param.isOutput = false →
      call.bindings.get? param.name ≠ some (.object .none)) ↔
        ∀ param ∈ f.inputs, call.bindings.get? param.name ≠ some (.object .none) := by
    simp [BasicFunction.inputs, Parameter.isOutput]
  have hsent : (∀ param ∈ f.params, ∀ v, boundVariable call.bindings param = some v →
      param.isOutput = true → v.isRegistered = false) ↔
        ∀ param ∈ sent call.bindings f.params, ∀ v, boundVariable call.bindings param = some v →
          param.isOutput = true → v.isRegistered = false := by
    refine ⟨fun h param hparam => h param (List.mem_filter.mp hparam).1,
      fun h param hparam v hv => h param (List.mem_filter.mpr ⟨hparam, ?_⟩) v hv⟩
    rw [hv]
    rfl
  have hfresh : (f.params.map Parameter.name).Nodup → ((∀ param ∈ f.params, ∀ v,
      boundVariable call.bindings param = some v → param.isOutput = true →
        v.isRegistered = false) ↔ FreshOutputs f kwargs) := fun hnodup =>
    hsent.trans (freshOutputs_iff hcall (hnodup.sublist (List.filter_sublist.map _)))
  rw [hloop, hparameters, names_of_forall₂ (fun h => h.name) hentries,
    List.nodup_map_iff (Option.some_injective _),
    forall_of_forall₂ (fun h => h.construct_iff) hentries]
  constructor
  · rintro ⟨hok, hnodup⟩
    exact ⟨(hfresh hnodup).mp fun p hp => (hok p hp).1, hnodup,
      hinputs.mp fun p hp => (hok p hp).2⟩
  · rintro ⟨hfresh', hnodup, hnone⟩
    exact ⟨fun p hp => ⟨(hfresh hnodup).mpr hfresh' p hp, hinputs.mpr hnone p hp⟩, hnodup⟩

/-- **What the server accepts of the payloads the frontend builds.**  A semantic payload is parsed
exactly when no output is preallocated by a registered variable and no sent name comes twice; the
parameters of a native payload are accepted exactly when moreover no input is `None`. -/
theorem payloads_accepted (handler : Handler) (args : List Argument)
    (kwargs : List (Text × Argument)) (call : BasicCall) :
    (∀ f : SemanticFunction, f.toBasicFunction.setBindings args kwargs = .ok call →
      ∀ payload, f.toRequestPayload handler call.bindings = .ok payload → ∀ requestId sessionId,
        ((∃ req,
          ChunkedSemanticCallRequest.parseFromPayload requestId sessionId payload = .ok req) ↔
          FreshOutputs f.toBasicFunction kwargs ∧
            ((sent call.bindings f.params).map Parameter.name).Nodup)) ∧
    ∀ f : BasicFunction, f.setBindings args kwargs = .ok call →
      ∀ parameters, f.toRequestPayload handler call.bindings = .ok parameters →
        ((∃ m, parseNativeParameters [] parameters = .ok m) ↔
          FreshOutputs f kwargs ∧ (f.params.map Parameter.name).Nodup ∧
            ∀ param ∈ f.inputs, call.bindings.get? param.name ≠ some (.object .none)) :=
  ⟨fun _ hcall _ hpayload requestId sessionId =>
    semantic_accepted_iff hcall hpayload requestId sessionId,
  fun _ hcall _ hpayload => native_accepted_iff hcall hpayload⟩

/-! ## A preallocated output -/

/-- A function of one input and one output. -/
def askFunction : SemanticFunction where
  name := ['a', 's', 'k']
  params := [⟨['x'], .inputLoc, none⟩, ⟨['y'], .outputLoc, some ⟨[], 16⟩⟩]
  metadata := {}
  body := [.parameterLoc 0 ⟨['x'], .inputLoc, none⟩, .constant 1 [' '],
    .parameterLoc 2 ⟨['y'], .outputLoc, some ⟨[], 16⟩⟩]

/-- A call whose output is preallocated by a registered variable: the payload is built, and the
server refuses it. -/
theorem registered_output_refused : ∃ call payload,
    askFunction.setBindings [.object (.other ['1'])]
      [(['y'], .semanticVariable { name := ['y'], id := some ['7'] })] = .ok call ∧
    askFunction.toRequestPayload none call.bindings = .ok payload ∧
    ¬ ∃ req, ChunkedSemanticCallRequest.parseFromPayload 0 0 payload = .ok req := by
  refine ⟨_, _, rfl, rfl, ?_⟩
  rintro ⟨req, h⟩
  cases h

/-- The same call without the variable is accepted, and so is that of a native function with the
same parameters. -/
theorem payloads_accepted_fresh :
    (∃ call payload, askFunction.setBindings [.object (.other ['1'])] [] = .ok call ∧
      askFunction.toRequestPayload none call.bindings = .ok payload ∧
      ∃ req, ChunkedSemanticCallRequest.parseFromPayload 0 0 payload = .ok req) ∧
    ∃ call parameters, askFunction.toBasicFunction.setBindings [.object (.other ['1'])] [] =
        .ok call ∧
      askFunction.toBasicFunction.toRequestPayload none call.bindings = .ok parameters ∧
      ∃ m, parseNativeParameters [] parameters = .ok m := by
  have hfresh : FreshOutputs askFunction.toBasicFunction [] := fun _ _ _ hv =>
    absurd hv List.not_mem_nil
  have haccepted := payloads_accepted none [.object (.other ['1'])] []
  exact ⟨⟨_, _, rfl, rfl, ((haccepted _).1 askFunction rfl _ rfl 0 0).mpr ⟨hfresh, by decide⟩⟩,
    _, _, rfl, rfl, ((haccepted _).2 askFunction.toBasicFunction rfl _ rfl).mpr
      ⟨hfresh, by decide, by decide⟩⟩

end PFunc

end ParrotServe
