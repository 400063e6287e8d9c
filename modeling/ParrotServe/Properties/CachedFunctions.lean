import ParrotServe.Model.NativeCalls

/-!
# Cached native functions

The executor of a session keeps the last function that it executed under every name, and uses it
for a call that brings none.  Over any calls the cache is the function of the code that was executed
last under the name (`CacheMatches`), and a node without a function is executed like one with that
function (`execute_cached`).

No call gets there without a function.  The parser assigns the code only when the payload has it and
reads it in any case, so that a call without code is refused, cached or not
(`submit_without_code`), and a sequence of calls is treated as documented exactly when all of them
bring their code: `cached_calls_iff`.
-/

namespace ParrotServe

/-- A result that was mapped. -/
lemma exists_of_map_ok {ε α β : Type*} {x : Except ε α} {f : α → β} {b : β}
    (h : x.map f = .ok b) : ∃ a, x = .ok a ∧ f a = b := by
  cases x with
  | error e => cases h
  | ok a => exact ⟨a, rfl, Except.ok.inj h⟩

namespace VariableStore

/-- The executor's cache is none of what a write touches. -/
lemma setVar_funcCache (s : VariableStore) (r : SvRef) (content : PyValue) :
    (s.setVar r content).2.funcCache = s.funcCache := rfl

lemma writeBack_funcCache (proxies : Text → PyValue) (outputs : List (Text × SvRef)) :
    ∀ s : VariableStore, (writeBack proxies outputs s).2.funcCache = s.funcCache := by
  induction outputs with
  | nil => exact fun _ => rfl
  | cons output outputs ih =>
      intro s
      rw [writeBack]
      split
      · rename_i e s' hset
        rw [← s.setVar_funcCache output.2 (proxies output.1), hset]
      · rename_i s' hset
        rw [ih s', ← s.setVar_funcCache output.2 (proxies output.1), hset]

/-- The cache after an execution. -/
lemma execute_funcCache (s : VariableStore) (node : NativeFuncCall) :
    (s.execute node).2.funcCache =
      match s.runFunction node with
      | .error _ => s.funcCache
      | .ok (_, funcCache) => funcCache := by
  cases hrun : s.runFunction node with
  | error e => rw [execute, hrun]
  | ok result => rw [execute, hrun, writeBack_funcCache]

/-- **A cached function is executed like one that comes with its node.** -/
theorem execute_cached (s : VariableStore) (node : NativeFuncCall) {func : NativeFunction}
    (hnone : node.executableFunc = none) (hcache : s.funcCache node.funcName = some func) :
    s.execute node = s.execute { node with executableFunc := some func } := by
  have hupdate : Function.update s.funcCache node.funcName (some func) = s.funcCache := by
    rw [← hcache, Function.update_eq_self]
  have hrun : s.runFunction node = s.runFunction { node with executableFunc := some func } := by
    rw [runFunction, runFunction]
    simp only [hnone, hcache, hupdate]
  rw [execute, execute, hrun]

/-- What an execution puts into the cache. -/
lemma runFunction_cache {s : VariableStore} {node : NativeFuncCall} {proxies : Text → PyValue}
    {cache : Text → Option NativeFunction} (h : s.runFunction node = .ok (proxies, cache)) :
    cache = match node.executableFunc with
      | some func => Function.update s.funcCache node.funcName (some func)
      | none => s.funcCache := by
  rw [runFunction] at h
  split at h
  · cases h
  · cases hfunc : node.executableFunc with
    | some func =>
        rw [hfunc] at h
        obtain ⟨_, _, hresult⟩ := exists_of_map_ok h
        exact (Prod.mk.inj hresult).2.symm
    | none =>
        rw [hfunc] at h
        dsimp only at h
        split at h
        · cases h
        · obtain ⟨_, _, hresult⟩ := exists_of_map_ok h
          exact (Prod.mk.inj hresult).2.symm

end VariableStore

namespace NativeCalls

namespace NativeSession

variable {loader : Loader}

/-! ## Refused calls -/

/-- The local variable has a value when the payload has a code. -/
lemma assignFuncCode_ok {payload : Payload} {funcCode : Option loader.Code}
    (h : loader.assignFuncCode payload = .ok (some funcCode)) : ∃ serialized code,
      payload.funcCode = some serialized ∧ loader.deserialize serialized = .ok code ∧
        funcCode = some code := by
  rw [Loader.assignFuncCode] at h
  split at h
  · cases h
  · rename_i serialized hcode
    obtain ⟨code, hload, hsome⟩ := exists_of_map_ok h
    exact ⟨serialized, code, hcode, hload, (Option.some.inj hsome).symm⟩

/-- The name of an accepted call is that of its payload, and its function is made of its code. -/
lemma parse_ok {payload : Payload} {request : PyNativeCallRequest}
    (h : loader.parseFromPayload payload = .ok request) :
    payload.funcName = some request.funcName ∧ ∃ serialized code func,
      payload.funcCode = some serialized ∧ loader.deserialize serialized = .ok code ∧
        loader.functionType code request.funcName = .ok func ∧
          request.executableFunc = some func := by
  rw [Loader.parseFromPayload] at h
  split at h
  · cases h
  · rename_i funcName parameters hpre
    have hname : payload.funcName = some funcName := by
      rw [Payload.preprocess] at hpre
      split at hpre
      · cases hpre
      · cases hpre
      · rename_i name params hname _
        obtain ⟨rfl, -⟩ := Prod.mk.inj (Except.ok.inj hpre)
        exact hname
    split at h
    · cases h
    · cases h
    · rename_i funcCode hassign
      obtain ⟨serialized, code, hcode, hload, rfl⟩ := assignFuncCode_ok hassign
      split at h
      · cases h
      · rename_i executableFunc hfunc
        obtain ⟨func, htype, rfl⟩ := exists_of_map_ok hfunc
        obtain ⟨parametersMap, _, rfl⟩ := exists_of_map_ok h
        exact ⟨hname, serialized, code, func, hcode, hload, htype, rfl⟩

/-- A call without code is refused. -/
lemma submit_without_code (loader : Loader) (s : NativeSession) {payload : Payload}
    (h : payload.funcCode = none) : ∃ e s', s.submit loader payload = (.error e, s') := by
  rw [submit]
  split
  · exact ⟨_, _, rfl⟩
  · rename_i request hparse
    obtain ⟨-, serialized, -, -, hcode, -⟩ := parse_ok hparse
    rw [h] at hcode
    cases hcode

/-! ## The cache -/

/-- The cache has the functions of the codes that were executed last. -/
def CacheMatches (loader : Loader) (s : NativeSession) : Prop :=
  ∀ name, match s.executed name with
    | none => s.store.funcCache name = none
    | some serialized => ∃ code func, loader.deserialize serialized = .ok code ∧
        loader.functionType code name = .ok func ∧ s.store.funcCache name = some func

/-- The variables of a call do not touch the cache. -/
lemma createVars_cache (params : List (Text × PFunc.NativeParameter)) :
    ∀ (inputVars outputVars : List (Text × SvRef)) (s : NativeSession),
      (createVars params inputVars outputVars s).2.store.funcCache = s.store.funcCache ∧
        (createVars params inputVars outputVars s).2.executed = s.executed := by
  have hparam : ∀ (s : NativeSession) (param : PFunc.NativeParameter),
      (s.createVarForParam param).2.store.funcCache = s.store.funcCache ∧
        (s.createVarForParam param).2.executed = s.executed := by
    intro s param
    rw [createVarForParam]
    split_ifs
    · exact ⟨rfl, rfl⟩
    · dsimp only
      split
      · rename_i e store hset
        exact ⟨by rw [← s.store.setVar_funcCache s.next (valueOf param.value), hset], rfl⟩
      · rename_i store hset
        exact ⟨by rw [← s.store.setVar_funcCache s.next (valueOf param.value), hset], rfl⟩
    · exact ⟨rfl, rfl⟩
  induction params with
  | nil => exact fun _ _ _ => ⟨rfl, rfl⟩
  | cons entry params ih =>
      intro inputVars outputVars s
      obtain ⟨key, param⟩ := entry
      obtain ⟨hcache, hexecuted⟩ := hparam s param
      rw [createVars]
      split
      · rename_i e s' hvar
        rw [hvar] at hcache hexecuted
        exact ⟨hcache, hexecuted⟩
      · rename_i r s' hvar
        rw [hvar] at hcache hexecuted
        rw [← hcache, ← hexecuted]
        split_ifs
        · exact ih _ _ s'
        · exact ih _ _ s'

/-- Nothing is executed when a call is submitted. -/
lemma submit_cache (loader : Loader) (s : NativeSession) (payload : Payload) :
    (s.submit loader payload).2.store.funcCache = s.store.funcCache ∧
      (s.submit loader payload).2.executed = s.executed := by
  rw [submit]
  split
  · exact ⟨rfl, rfl⟩
  · rename_i request _
    have hvars := createVars_cache request.parametersMap [] [] s
    split
    · rename_i hcreate
      rwa [hcreate] at hvars
    · rename_i hcreate
      rwa [hcreate] at hvars

/-- The node of a call has the function of its code. -/
lemma submit_ok {s s' : NativeSession} {payload : Payload} {node : NativeFuncCall}
    (h : s.submit loader payload = (.ok node, s')) : ∃ serialized code func,
      payload.funcCode = some serialized ∧ loader.deserialize serialized = .ok code ∧
        loader.functionType code node.funcName = .ok func ∧ node.executableFunc = some func := by
  rw [submit] at h
  split at h
  · cases (Prod.mk.inj h).1
  · rename_i request hparse
    obtain ⟨-, hfunc⟩ := parse_ok hparse
    split at h
    · cases (Prod.mk.inj h).1
    · obtain rfl := Except.ok.inj (Prod.mk.inj h).1
      exact hfunc

lemma record_error {s : NativeSession} {node : NativeFuncCall} {e : PyError}
    (h : s.store.runFunction node = .error e) (funcCode : Option Text) :
    s.record node funcCode = s := by
  unfold record
  rw [h]

lemma record_ok {s : NativeSession} {node : NativeFuncCall}
    {result : (Text → PyValue) × (Text → Option NativeFunction)}
    (h : s.store.runFunction node = .ok result) (serialized : Text) :
    s.record node (some serialized) =
      { s with executed := Function.update s.executed node.funcName (some serialized) } := by
  unfold record
  rw [h]

/-- A call puts its function into the cache when it is executed. -/
lemma CacheMatches.call {s : NativeSession} (h : CacheMatches loader s) (payload : Payload) :
    CacheMatches loader (s.call loader payload) := by
  obtain ⟨hcache, hexecuted⟩ := submit_cache loader s payload
  rw [NativeSession.call]
  split
  · rename_i e s' hsubmit
    rw [hsubmit] at hcache hexecuted
    intro name
    rw [hexecuted, hcache]
    exact h name
  · rename_i node s' hsubmit
    rw [hsubmit] at hcache hexecuted
    obtain ⟨serialized, code, func, hcode, hload, htype, hfunc⟩ := submit_ok hsubmit
    intro name
    dsimp only
    rw [VariableStore.execute_funcCache]
    cases hrun : s'.store.runFunction node with
    | error e =>
        dsimp only
        rw [record_error hrun, hexecuted, hcache]
        exact h name
    | ok result =>
        dsimp only
        rw [hcode, record_ok hrun, VariableStore.runFunction_cache hrun, hfunc, hexecuted, hcache]
        dsimp only
        by_cases hname : name = node.funcName
        · rw [hname, Function.update_self, Function.update_self]
          exact ⟨code, func, hload, htype, rfl⟩
        · rw [Function.update_of_ne hname, Function.update_of_ne hname]
          exact h name

/-- The cache after any calls. -/
lemma cacheMatches_run (loader : Loader) (ids : SvRef → VarId) (calls : List Payload) :
    CacheMatches loader (calls.foldl (NativeSession.call · loader) (start ids)) := by
  have hrun : ∀ (calls : List Payload) (s : NativeSession), CacheMatches loader s →
      CacheMatches loader (calls.foldl (NativeSession.call · loader) s) := by
    intro calls
    induction calls with
    | nil => exact fun s h => h
    | cons payload calls ih => exact fun s h => ih _ (h.call payload)
  exact hrun calls _ fun name => rfl

/-- After any calls, a node without a function is executed with the code executed last. -/
theorem execute_last_code (ids : SvRef → VarId) (calls : List Payload) (node : NativeFuncCall)
    (serialized : Text) (hnone : node.executableFunc = none)
    (hlast : (calls.foldl (NativeSession.call · loader) (start ids)).executed node.funcName =
      some serialized) :
    ∃ code func, loader.deserialize serialized = .ok code ∧
      loader.functionType code node.funcName = .ok func ∧
      (calls.foldl (NativeSession.call · loader) (start ids)).store.execute node =
        (calls.foldl (NativeSession.call · loader) (start ids)).store.execute
          { node with executableFunc := some func } := by
  have hmatch := cacheMatches_run loader ids calls node.funcName
  rw [hlast] at hmatch
  obtain ⟨code, func, hload, htype, hcache⟩ := hmatch
  exact ⟨code, func, hload, htype, VariableStore.execute_cached _ node hnone hcache⟩

/-! ## Sequences of calls -/

/-- A call is accepted, and produces what it does with the code executed last under its name. -/
def LikeFresh (loader : Loader) (s : NativeSession) (payload : Payload) : Prop :=
  (∃ node s', s.submit loader payload = (.ok node, s')) ∧
    ∀ name serialized, payload.funcName = some name → s.executed name = some serialized →
      (s.call loader payload).store.vars =
        (s.call loader { payload with funcCode := some serialized }).store.vars

/-- The calls without code of a sequence, executed one after another, are like fresh ones.  This
asks nothing of the first call of a name: without code it is refused like any other. -/
def CachedLikeFresh (loader : Loader) : NativeSession → List Payload → Prop
  | _, [] => True
  | s, payload :: calls => (payload.funcCode = none → LikeFresh loader s payload) ∧
      CachedLikeFresh loader (s.call loader payload) calls

/-- **Cached functions can be called exactly by calls that bring their code.** -/
theorem cached_calls_iff (loader : Loader) (ids : SvRef → VarId) (calls : List Payload) :
    CachedLikeFresh loader (start ids) calls ↔ ∀ payload ∈ calls, payload.funcCode ≠ none := by
  have hany : ∀ (calls : List Payload) (s : NativeSession),
      CachedLikeFresh loader s calls ↔ ∀ payload ∈ calls, payload.funcCode ≠ none := by
    intro calls
    induction calls with
    | nil => exact fun s => iff_of_true trivial fun p hp => absurd hp List.not_mem_nil
    | cons payload calls ih =>
        intro s
        rw [CachedLikeFresh, ih, List.forall_mem_cons]
        refine and_congr_left fun _ => ⟨fun hlike hcode => ?_, fun hne hcode => absurd hcode hne⟩
        obtain ⟨⟨node, s', hsubmit⟩, -⟩ := hlike hcode
        obtain ⟨e, s'', hrefused⟩ := submit_without_code loader s hcode
        rw [hsubmit] at hrefused
        cases (Prod.mk.inj hrefused).1
  exact hany calls _

end NativeSession

/-- Functions whose code is their result. -/
def constantLoader : Loader where
  Code := Text
  deserialize serialized := .ok serialized
  functionType code _ := .ok fun _ _ => .ok fun _ => .str code

/-- A function that is called with its code and then without. -/
def calledTwice : List Payload :=
  let parameters := [{ name := some ['y'], isOutput := some true }]
  [{ funcName := some ['f'], parameters := some parameters, funcCode := some ['c'] },
    { funcName := some ['f'], parameters := some parameters }]

/-- Ids that are told apart by their length. -/
def unaryIds (r : SvRef) : VarId :=
  ⟨List.replicate r 'v', by simp [List.mem_replicate]⟩

/-- The second call is refused, although its function is cached. -/
theorem cached_call_refused :
    ((NativeSession.start unaryIds).call constantLoader calledTwice[0]).executed ['f'] =
        some ['c'] ∧
      ((NativeSession.start unaryIds).call constantLoader calledTwice[0]).store.vars 0 =
        { id := unaryIds 0, content := .str ['c'], readyEvent := true } ∧
      ¬ NativeSession.CachedLikeFresh constantLoader (NativeSession.start unaryIds)
        calledTwice := by
  refine ⟨rfl, rfl, fun h => ?_⟩
  obtain ⟨⟨node, s', hsubmit⟩, -⟩ := h.2.1 rfl
  cases (Prod.mk.inj hsubmit).1

end NativeCalls

end ParrotServe
