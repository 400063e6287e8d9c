import ParrotServe.Properties.EngineRegistry

/-!
# Late messages of engines that were swept

An engine id is handed out again after a sweep, and a message carries nothing but the id.  So a
message on behalf of a swept registration, a late heartbeat or the exception of a task that was
executing on it, is rejected exactly when no engine has its id at that moment.  Otherwise it is
taken for a message about the engine that got the id: `stale_engine_ids` is the equivalence, in
every state any run reaches, and `late_exception` is such a run.

`Identified` is what all calls preserve, also those that raise half way: an engine is registered
under its own id, and a later registration never got the id of an engine that is still there.
-/

namespace ParrotServe

namespace EngineManager

variable {m m' : EngineManager}

/-- `m'` has the engines of `m`. -/
structure SameEngines (m m' : EngineManager) : Prop where
  obj : m'.obj = m.obj
  next : m'.next = m.next
  engines : m'.engines = m.engines
  engineIdPool : m'.engineIdPool = m.engineIdPool

/-- What the ids of the engines mean. -/
structure Identified (m : EngineManager) : Prop where
  /-- An engine is registered under its own id. -/
  engineId : ∀ e g, m.engines.get? e = some g → (m.obj g).engineId = e
  /-- Engines are older than the next one. -/
  lt_next : ∀ e g, m.engines.get? e = some g → g < m.next
  /-- The pool does not hand out the id of an engine. -/
  owns : m.engineIdPool.Owns {e | e ∈ m.engines.keys}
  /-- A later registration has another id. -/
  later : ∀ e h, m.engines.get? e = some h → ∀ g, h < g → g < m.next → (m.obj g).engineId ≠ e

/-! ## Every call keeps the ids -/

lemma Identified.congr (hi : Identified m) (hs : SameEngines m m') : Identified m' where
  engineId := by rw [hs.obj, hs.engines]; exact hi.engineId
  lt_next := by rw [hs.next, hs.engines]; exact hi.lt_next
  owns := by rw [hs.engineIdPool, hs.engines]; exact hi.owns
  later := by rw [hs.obj, hs.engines, hs.next]; exact hi.later

lemma Identified.setEngine (hi : Identified m) {g : EngineRef} {engine : ExecutionEngine}
    (hs : SameEngine (m.obj g) engine) : Identified (m.setEngine g engine) where
  engineId e h hget := (setEngine_same hs h).1.trans (hi.engineId e h hget)
  lt_next := hi.lt_next
  owns := hi.owns
  later e h hget k hk hlt := by
    rw [(setEngine_same hs k).1]
    exact hi.later e h hget k hk hlt

lemma registerModel_same (fromPretrained : Text → Except PyError HFTokenizer) (m : EngineManager)
    (model : LanguageModel) : SameEngines m (registerModel fromPretrained m model).2 := by
  unfold registerModel
  split
  · split <;> exact ⟨rfl, rfl, rfl, rfl⟩
  · dsimp only
    split
    · exact ⟨rfl, rfl, rfl, rfl⟩
    · split <;> exact ⟨rfl, rfl, rfl, rfl⟩

lemma removeModel_same (name : Text) : SameEngines m (m.removeModel name).2 := by
  unfold removeModel
  split
  · exact ⟨rfl, rfl, rfl, rfl⟩
  · dsimp only
    split
    · split
      · exact ⟨rfl, rfl, rfl, rfl⟩
      · split
        · exact ⟨rfl, rfl, rfl, rfl⟩
        · split <;> exact ⟨rfl, rfl, rfl, rfl⟩
    · exact ⟨rfl, rfl, rfl, rfl⟩

lemma Identified.registerEngine (hi : Identified m)
    (fromPretrained : Text → Except PyError HFTokenizer) (config : EngineConfig) (now : ℤ) :
    Identified (registerEngine fromPretrained m config now).2 := by
  unfold EngineManager.registerEngine
  split
  · exact hi
  · rename_i model _
    have hs := registerModel_same fromPretrained m model
    split
    · rename_i heq
      rw [heq] at hs
      exact hi.congr hs
    · rename_i model' m₁ heq
      rw [heq] at hs
      have hi₁ : Identified m₁ := hi.congr hs
      split
      · rename_i ha
        exact { hi₁ with owns := hi₁.owns.allocate_error ha }
      · rename_i engineId pool ha
        obtain ⟨hnew, howns⟩ := hi₁.owns.allocate_ok ha
        have hnew : engineId ∉ m₁.engines.keys := hnew
        have hold : ∀ k, k < m₁.next → Function.update m₁.obj m₁.next
            { engineId, config, model := model' } k = m₁.obj k := fun k hk =>
          Function.update_of_ne hk.ne _ _
        refine ⟨fun e g hget => ?_, fun e g hget => ?_, howns.mono fun e he => ?_,
          fun e g hget k hgk hk => ?_⟩
        · rw [Dict.get?_set] at hget
          dsimp only
          split at hget
          · cases hget
            rw [Function.update_self]
            exact (‹e = engineId›).symm
          · rw [hold g (hi₁.lt_next e g hget)]
            exact hi₁.engineId e g hget
        · rw [Dict.get?_set] at hget
          split at hget
          · cases hget
            exact Nat.lt_succ_self _
          · exact Nat.lt_succ_of_lt (hi₁.lt_next e g hget)
        · simpa using he
        · rw [Dict.get?_set] at hget
          dsimp only at hk ⊢
          split at hget
          · cases hget
            exact (Nat.lt_irrefl _ (hgk.trans_le (Nat.lt_succ_iff.mp hk))).elim
          · rename_i hne
            rcases Nat.lt_succ_iff_lt_or_eq.mp hk with hlt | rfl
            · rw [hold k hlt]
              exact hi₁.later e g hget k hgk hlt
            · rw [Function.update_self]
              exact fun heq' => hne heq'.symm

lemma Identified.erase (hi : Identified m) (e : ℕ) :
    Identified { m with engines := m.engines.erase e } := by
  have hsub : ∀ x g, (m.engines.erase e).get? x = some g → m.engines.get? x = some g := by
    intro x g hget
    rw [Dict.get?_erase] at hget
    split at hget
    · cases hget
    · exact hget
  exact {
    engineId := fun x g hget => hi.engineId x g (hsub x g hget)
    lt_next := fun x g hget => hi.lt_next x g (hsub x g hget)
    owns := hi.owns.mono fun x hx => (m.engines.mem_keys_erase.mp hx).1
    later := fun x h hget => hi.later x h (hsub x h hget) }

lemma Identified.removeEngine (hi : Identified m) (engineId : ℕ) :
    Identified (m.removeEngine engineId).2 := by
  unfold EngineManager.removeEngine
  split
  · exact hi
  · rename_i g hget
    have hkey : engineId ∈ m.engines.keys := m.engines.mem_keys_of_get? hget
    have hs := removeModel_same (m := { m with engines := m.engines.erase engineId })
      (m.obj g).modelName
    have hi' := (hi.erase engineId).congr hs
    split
    · rename_i heq
      rw [heq] at hi'
      exact hi'
    · rename_i m₁ heq
      rw [heq] at hi' hs
      split
      · exact hi'
      · have hfree : (m₁.engineIdPool.free engineId).2.Owns {e | e ∈ m₁.engines.keys} := by
          rw [hs.engineIdPool, hs.engines]
          refine (hi.owns.free_ok hkey).2.2.mono fun e he => ?_
          exact m.engines.mem_keys_erase.mp he
        dsimp only
        split
        · rename_i hpool
          rw [hpool] at hfree
          exact { hi' with owns := hfree }
        · rename_i hpool
          rw [hpool] at hfree
          split <;> exact { hi' with owns := hfree }

lemma Identified.sweepEngines (l : List (ℕ × EngineRef)) : ∀ {m : EngineManager}, Identified m →
    Identified (EngineManager.sweepEngines l m).2 := by
  induction l with
  | nil => exact fun hi => hi
  | cons e l ih =>
      intro m hi
      unfold EngineManager.sweepEngines
      split
      · exact ih hi
      · have hi' := hi.removeEngine e.1
        split
        · rename_i heq
          rw [heq] at hi'
          exact hi'
        · rename_i heq
          rw [heq] at hi'
          exact ih hi'

lemma Identified.expireEngines (now : ℤ) (l : List (ℕ × ℤ)) : ∀ {m : EngineManager},
    Identified m → Identified (EngineManager.expireEngines now l m).2 := by
  induction l with
  | nil => exact fun hi => hi
  | cons e l ih =>
      intro m hi
      unfold EngineManager.expireEngines
      split
      · exact hi
      · split
        · exact ih (hi.setEngine ⟨rfl, rfl, rfl⟩)
        · exact ih hi

lemma Identified.perform (hi : Identified m)
    (fromPretrained : Text → Except PyError HFTokenizer) (a : Action) :
    Identified (perform fromPretrained m a).2 := by
  cases a with
  | registerEngine config now =>
      have h := hi.registerEngine fromPretrained config now
      simp only [EngineManager.perform]
      split <;> simp_all
  | engineHeartbeat engineId info now =>
      simp only [EngineManager.perform, engineHeartbeat]
      split
      · exact hi
      · rename_i g _
        have h : Identified (m.setEngine g ((m.obj g).updateRealtimeRuntimeInfo info)) :=
          hi.setEngine ⟨rfl, rfl, rfl⟩
        exact ⟨h.engineId, h.lt_next, h.owns, h.later⟩
  | updateExpiredEngines now => exact hi.expireEngines now _
  | sweepNotRunningEngines => exact hi.sweepEngines _
  | raiseException engineId exception =>
      simp only [EngineManager.perform, raiseException]
      split
      · exact hi
      · exact hi.setEngine ⟨rfl, rfl, rfl⟩

lemma identified_invariant (fromPretrained : Text → Except PyError HFTokenizer) (timeout : ℤ) :
    (system fromPretrained timeout).IsInvariantUnder (fun _ _ => True) Identified where
  init s hs := by
    cases hs
    have h := registry_start timeout
    exact ⟨h.engineId, fun e g hget => by simp [start] at hget, h.owns,
      fun e g hget => by simp [start] at hget⟩
  step s a s' hi _ hst := hst.2 ▸ hi.perform fromPretrained a

/-! ## Stale messages -/

/-- A message on behalf of a registration: it carries its id. -/
def OnBehalf (m : EngineManager) (g : EngineRef) : Action → Prop
  | .engineHeartbeat engineId _ _ => engineId = (m.obj g).engineId
  | .raiseException engineId _ => engineId = (m.obj g).engineId
  | _ => False

instance (m : EngineManager) (g : EngineRef) : ∀ a, Decidable (OnBehalf m g a)
  | .engineHeartbeat engineId _ _ => inferInstanceAs (Decidable (engineId = _))
  | .raiseException engineId _ => inferInstanceAs (Decidable (engineId = _))
  | .registerEngine _ _ => .isFalse id
  | .updateExpiredEngines _ => .isFalse id
  | .sweepNotRunningEngines => .isFalse id

/-- What a message may change of an engine stayed as it was. -/
structure Untouched (m m' : EngineManager) (h : EngineRef) : Prop where
  status : (m'.obj h).status = (m.obj h).status
  badException : (m'.obj h).badException = (m.obj h).badException
  runtimeInfo : (m'.obj h).realTimeRuntimeInfo = (m.obj h).realTimeRuntimeInfo
  lastSeen : m'.engineLastSeenTime.get? (m.obj h).engineId =
    m.engineLastSeenTime.get? (m.obj h).engineId

/-- A call that raises and does nothing. -/
def Rejected (fromPretrained : Text → Except PyError HFTokenizer) (m : EngineManager)
    (a : Action) : Prop :=
  (∃ e, (perform fromPretrained m a).1 = .error e) ∧ (perform fromPretrained m a).2 = m

/-- A message with an id that no engine has is rejected. -/
lemma rejected_of_not_mem (fromPretrained : Text → Except PyError HFTokenizer)
    {g : EngineRef} {a : Action} (ha : OnBehalf m g a)
    (hid : (m.obj g).engineId ∉ m.engines.keys) : Rejected fromPretrained m a := by
  have hnone := m.engines.get?_eq_none.mpr hid
  cases a with
  | engineHeartbeat engineId info now =>
      cases (show engineId = (m.obj g).engineId from ha)
      simp only [Rejected, EngineManager.perform, engineHeartbeat, hnone]
      exact ⟨⟨_, rfl⟩, trivial⟩
  | raiseException engineId exception =>
      cases (show engineId = (m.obj g).engineId from ha)
      simp only [Rejected, EngineManager.perform, raiseException, hnone]
      exact ⟨⟨_, rfl⟩, trivial⟩
  | registerEngine _ _ => exact ha.elim
  | updateExpiredEngines _ => exact ha.elim
  | sweepNotRunningEngines => exact ha.elim

/-- The engine that has the id of a swept registration registered later. -/
lemma Identified.lt_of_swept (hi : Identified m) {g h : EngineRef} (hg : g < m.next)
    (hswept : g ∉ m.engines.values) (hget : m.engines.get? (m.obj g).engineId = some h) :
    g < h := by
  rcases Nat.lt_trichotomy g h with hlt | rfl | hgt
  · exact hlt
  · exact absurd (m.engines.mem_values.mpr ⟨_, hget⟩) hswept
  · exact absurd rfl (hi.later _ h hget g hgt hg)

/-- There is always another exception. -/
lemma exists_exception_ne (e : Option PyError) : ∃ e', e ≠ some e' := by
  by_cases he : e = some .indexError
  · exact ⟨.typeError, by rw [he]; simp⟩
  · exact ⟨_, he⟩

/-- In every state a run reaches, no message on behalf of a swept registration touches an engine
registered later if and only if no engine has its id; and then these messages are rejected. -/
theorem stale_engine_ids (fromPretrained : Text → Except PyError HFTokenizer) (timeout : ℤ)
    {m : EngineManager} (hm : (system fromPretrained timeout).Reachable m) {g : EngineRef}
    (hg : g < m.next) (hswept : g ∉ m.engines.values) :
    ((∀ a, OnBehalf m g a → ∀ h ∈ m.engines.values, g < h →
        Untouched m (perform fromPretrained m a).2 h) ↔
      (m.obj g).engineId ∉ m.engines.keys) ∧
    ((m.obj g).engineId ∉ m.engines.keys →
      ∀ a, OnBehalf m g a → Rejected fromPretrained m a) := by
  refine ⟨⟨fun hall hid => ?_, fun hid a ha h _ _ => ?_⟩, fun hid a ha =>
    rejected_of_not_mem fromPretrained ha hid⟩
  · have hi := (identified_invariant fromPretrained timeout).holds hm
    obtain ⟨h, hget⟩ := m.engines.mem_keys.mp hid
    obtain ⟨e, he⟩ := exists_exception_ne (m.obj h).badException
    have huntouched := hall (.raiseException (m.obj g).engineId e) rfl h
      (m.engines.mem_values.mpr ⟨_, hget⟩) (hi.lt_of_swept hg hswept hget)
    have hbad := huntouched.badException
    simp only [EngineManager.perform, raiseException, hget, setEngine_obj, if_true] at hbad
    exact he hbad.symm
  · rw [(rejected_of_not_mem fromPretrained ha hid).2]
    exact ⟨rfl, rfl, rfl, rfl⟩

/-- An engine registers, misses its heartbeats and is swept; some time later another registers. -/
def replaceEngine (later : List Action) : List Action :=
  [.registerEngine { model := ['a'], tokenizer := ['t'] } 0, .updateExpiredEngines 6000000000,
    .sweepNotRunningEngines] ++ later

/-- Nobody has the id before the next engine registers. -/
theorem stale_engine_ids_swept :
    Rejected charTokenizer
      ((replaceEngine []).foldl (fun m a => (perform charTokenizer m a).2) (start 3))
      (.raiseException 0 .indexError) := by
  have hm : (system charTokenizer 3).Reachable _ :=
    .foldl (replaceEngine []) (.init rfl) (by decide +kernel)
  have hid : ((List.foldl (fun m a => (perform charTokenizer m a).2) (start 3)
      (replaceEngine [])).obj 0).engineId ∉ (List.foldl (fun m a =>
        (perform charTokenizer m a).2) (start 3) (replaceEngine [])).engines.keys := by
    decide +kernel
  exact (stale_engine_ids charTokenizer 3 hm (g := 0) (by decide +kernel) (by decide +kernel)).2
    hid _ (by decide +kernel)

/-- The exception of a task on a swept engine is blamed on the engine that got its id. -/
theorem late_exception :
    ∃ m g a h, (system charTokenizer 3).Reachable m ∧ g < m.next ∧ g ∉ m.engines.values ∧
      OnBehalf m g a ∧ h ∈ m.engines.values ∧ g < h ∧
      ¬ Untouched m (perform charTokenizer m a).2 h := by
  refine ⟨_, 0, .raiseException 0 .indexError, 1, .foldl (replaceEngine
    [.registerEngine { model := ['b'], tokenizer := ['u'] } 9000000000]) (.init rfl)
    (by decide +kernel), by decide +kernel, by decide +kernel, by decide +kernel,
    by decide +kernel, by decide, fun h => ?_⟩
  exact absurd h.status (by decide +kernel)

end EngineManager

end ParrotServe
