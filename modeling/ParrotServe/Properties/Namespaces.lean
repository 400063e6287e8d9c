import ParrotServe.Properties.RequestMeaning

/-!
# Constants and placeholders of one namespace

A `SemanticVariableNamespace` under `new_var_by_content`, `new_var_by_name` and `free_var`, in
any order, with any variable object that was ever returned given back to `free_var`.

The two kinds of variables share one table, under the hash of a text and under the hash of the
numeral of a seed.  `Apart` is the condition on a call under which they stay apart: a text is not
the numeral of the seed of a placeholder that is in the namespace, and the numeral of the next
seed is not the content of a constant that is there.  In every run of such calls every call does
what it promises (`calls_apart`).

`CallsInv` carries the proof.  The seeds of the placeholders in the namespace are owned by the
pool, so a seed comes again only after its placeholder has gone; a seed may also be lost, as
`NONE_SEED` is one, but never given out twice.
-/

namespace ParrotServe

open SemanticVariableManager SemanticRequest TransitionSystem

/-- The two ways of asking for a variable. -/
inductive NewVar
  | byContent (content : Text)
  | byName (name : Text)
  deriving DecidableEq

/-- A call that asked for a variable, with what its caller can see. -/
structure NewVarCall where
  call : NewVar
  result : Except PyError SvRef
  /-- The variable was in the namespace before. -/
  wasThere : Bool
  /-- The content of the variable when the call returned, if it is ready. -/
  content : Option Text
  deriving DecidableEq

/-- A namespace with the variable objects, and the calls so far. -/
structure NamespaceCalls where
  ns : SemanticVariableNamespace
  heap : SemanticVariableManager
  history : List NewVarCall

namespace NamespaceCalls

/-- What can happen to a namespace. -/
inductive Action
  | newVarByContent (content : Text) (isConstantPrefix : Bool)
  | newVarByName (name : Text) (isConstantPrefix : Bool)
  | freeVar (r : SvRef)

/-- A new namespace. -/
def start : NamespaceCalls where
  ns := { namespaceUuid := 0 }
  heap := .new 0
  history := []

variable (uuid3 : ℕ → Text → VarId) (s : NamespaceCalls)

/-- Only variables that were returned are freed. -/
def Enabled : Action → Prop
  | .freeVar r => r < s.heap.next
  | _ => True

instance : ∀ a, Decidable (s.Enabled a)
  | .newVarByContent _ _ | .newVarByName _ _ => inferInstanceAs (Decidable True)
  | .freeVar r => inferInstanceAs (Decidable (r < s.heap.next))

/-- The effect of a call. -/
def apply : Action → NamespaceCalls
  | .newVarByContent content isConstantPrefix =>
      let (r, ns, heap) := s.heap.newVarByContent uuid3 s.ns content isConstantPrefix
      { ns, heap, history := s.history ++ [{
          call := .byContent content
          result := .ok r
          wasThere := decide (r ∈ s.ns.vars.values)
          content := (heap.obj r).content }] }
  | .newVarByName name isConstantPrefix =>
      match s.heap.newVarByName uuid3 s.ns name isConstantPrefix with
      | (.error e, ns, heap) =>
          { ns, heap, history := s.history ++ [{
              call := .byName name
              result := .error e
              wasThere := false
              content := none }] }
      | (.ok r, ns, heap) =>
          { ns, heap, history := s.history ++ [{
              call := .byName name
              result := .ok r
              wasThere := decide (r ∈ s.ns.vars.values)
              content := (heap.obj r).content }] }
  | .freeVar r => { s with ns := (s.ns.freeVar (s.heap.obj r)).2 }

/-- Every order of these calls. -/
def system : TransitionSystem NamespaceCalls Action :=
  .ofFun start Enabled fun s a => s.apply uuid3 a

end NamespaceCalls

/-! ## What the calls promise -/

/-- A call by content returns a ready variable with that content; a call by name returns a
variable that was not in the namespace and is not ready. -/
def NewVarCall.Keeps (c : NewVarCall) : Prop :=
  match c.call with
  | .byContent content => (∃ r, c.result = .ok r) ∧ c.content = some content
  | .byName _ => (∃ r, c.result = .ok r) ∧ c.wasThere = false ∧ c.content = none

lemma NewVarCall.keeps_byContent {content : Text} {r : SvRef} {wasThere : Bool}
    {ready : Option Text} (hready : ready = some content) :
    NewVarCall.Keeps { call := .byContent content, result := .ok r, wasThere, content := ready } :=
  ⟨⟨r, rfl⟩, hready⟩

lemma NewVarCall.keeps_byName {name : Text} {r : SvRef} {wasThere : Bool} {ready : Option Text}
    (hnew : wasThere = false) (hready : ready = none) :
    NewVarCall.Keeps { call := .byName name, result := .ok r, wasThere, content := ready } :=
  ⟨⟨r, rfl⟩, hnew, hready⟩

/-- Two calls that return the same variable asked for the same content. -/
def NewVarCall.Distinct (c c' : NewVarCall) : Prop :=
  ∀ r, c.result = .ok r → c'.result = .ok r →
    ∃ content, c.call = .byContent content ∧ c'.call = .byContent content

namespace NamespaceCalls

variable {uuid3 : ℕ → Text → VarId} {s s' : NamespaceCalls}

/-- Constants and placeholders never collided so far. -/
structure NeverCollide (s : NamespaceCalls) : Prop where
  keeps : ∀ c ∈ s.history, c.Keeps
  distinct : s.history.Pairwise NewVarCall.Distinct

/-- The text of a call is not the numeral of the seed of a placeholder in the namespace, and the
numeral of the next seed is not the content of a constant in the namespace. -/
def Apart (s : NamespaceCalls) : Action → Prop
  | .newVarByContent content _ => ∀ r ∈ s.ns.vars.values,
      (s.heap.obj r).content = none → Nat.toDigits 10 (s.heap.obj r).seed ≠ content
  | .newVarByName _ _ => ∀ seed ∈ s.ns.seedPool.allocate.1.toOption, ∀ r ∈ s.ns.vars.values,
      (s.heap.obj r).content ≠ some (Nat.toDigits 10 seed)
  | .freeVar _ => True

instance : ∀ a, Decidable (s.Apart a)
  | .newVarByContent content _ => inferInstanceAs (Decidable (∀ r ∈ s.ns.vars.values,
      (s.heap.obj r).content = none → Nat.toDigits 10 (s.heap.obj r).seed ≠ content))
  | .newVarByName _ _ => inferInstanceAs (Decidable (∀ seed ∈ s.ns.seedPool.allocate.1.toOption,
      ∀ r ∈ s.ns.vars.values, (s.heap.obj r).content ≠ some (Nat.toDigits 10 seed)))
  | .freeVar _ => inferInstanceAs (Decidable True)

/-! ## The invariant -/

/-- Hashed by its content, which it has from the start. -/
def IsConstant (uuid3 : ℕ → Text → VarId) (s : NamespaceCalls) (r : SvRef) : Prop :=
  ∃ text, (s.heap.obj r).id = uuid3 s.ns.namespaceUuid text ∧
    (s.heap.obj r).content = some text ∧ (s.heap.obj r).seed = noneSeed

/-- Hashed by its seed. -/
def IsPlaceholder (uuid3 : ℕ → Text → VarId) (s : NamespaceCalls) (r : SvRef) : Prop :=
  (s.heap.obj r).id = uuid3 s.ns.namespaceUuid (Nat.toDigits 10 (s.heap.obj r).seed) ∧
    (s.heap.obj r).content = none ∧ (s.heap.obj r).seed < s.ns.seedPool.curMaxId

/-- The seeds of the placeholders in the namespace. -/
def seeds (s : NamespaceCalls) : Set ℕ :=
  {seed | ∃ r ∈ s.ns.vars.values, (s.heap.obj r).content = none ∧ (s.heap.obj r).seed = seed}

/-- What a call says about a variable that there is now. -/
def Recorded (s : NamespaceCalls) (c : NewVarCall) : Prop :=
  ∀ r, c.result = .ok r → r < s.heap.next ∧
    (s.heap.obj r).content = match c.call with
      | .byContent content => some content
      | .byName _ => none

/-- The variables, the table, the pool and the calls of a namespace. -/
structure CallsInv (uuid3 : ℕ → Text → VarId) (s : NamespaceCalls) : Prop where
  kinds : ∀ r < s.heap.next, s.IsConstant uuid3 r ∨ s.IsPlaceholder uuid3 r
  entries : ∀ v r, s.ns.vars.get? v = some r → r < s.heap.next ∧ (s.heap.obj r).id = v
  pool : s.ns.seedPool.Owns s.seeds
  unbounded : s.ns.seedPool.poolSize = none
  recorded : ∀ c ∈ s.history, s.Recorded c

/-- A call is recorded. -/
lemma CallsInv.record (h : s.CallsInv uuid3) {c : NewVarCall} (hc : s.Recorded c) :
    CallsInv uuid3 { s with history := s.history ++ [c] } where
  kinds := h.kinds
  entries := h.entries
  pool := h.pool
  unbounded := h.unbounded
  recorded c' hc' := by
    rcases List.mem_append.mp hc' with hold | hnew
    · exact h.recorded c' hold
    · obtain rfl := List.mem_singleton.mp hnew
      exact hc

/-- A call that keeps its promise, and returns no variable of another kind of call. -/
lemma NeverCollide.record (h : s.NeverCollide) {c : NewVarCall} (hc : c.Keeps)
    (hdistinct : ∀ c' ∈ s.history, c'.Distinct c) (ns : SemanticVariableNamespace)
    (heap : SemanticVariableManager) :
    NeverCollide { ns, heap, history := s.history ++ [c] } where
  keeps c' hc' := by
    rcases List.mem_append.mp hc' with hold | hnew
    · exact h.keeps c' hold
    · obtain rfl := List.mem_singleton.mp hnew
      exact hc
  distinct := by
    refine List.pairwise_append.mpr ⟨h.distinct, List.pairwise_singleton _ _, ?_⟩
    intro c' hc' c'' hc''
    obtain rfl := List.mem_singleton.mp hc''
    exact hdistinct c' hc'

/-! ## A new variable -/

/-- A new variable in the table. -/
def enter (s : NamespaceCalls) (sv : SemanticVariable) (pool : RecyclePool) : NamespaceCalls :=
  { s with
    ns := { s.ns with vars := s.ns.vars.set sv.id s.heap.next, seedPool := pool }
    heap := (s.heap.newVar sv).2 }

lemma enter_obj_new (s : NamespaceCalls) (sv : SemanticVariable) (pool : RecyclePool) :
    (s.enter sv pool).heap.obj s.heap.next = sv := newVar_obj s.heap sv

lemma enter_obj_old (s : NamespaceCalls) (sv : SemanticVariable) (pool : RecyclePool) {r : SvRef}
    (hr : r < s.heap.next) : (s.enter sv pool).heap.obj r = s.heap.obj r :=
  Function.update_of_ne hr.ne _ _

/-- The seeds of the placeholders: one more, if the new variable is a placeholder. -/
lemma seeds_enter (h : s.CallsInv uuid3) (sv : SemanticVariable) (pool : RecyclePool) {seed : ℕ}
    (hseed : seed ∈ (s.enter sv pool).seeds) :
    seed ∈ s.seeds ∨ (sv.content = none ∧ seed = sv.seed) := by
  obtain ⟨r, hr, hc, rfl⟩ := hseed
  obtain ⟨v, hv⟩ := (Dict.mem_values _).mp hr
  simp only [enter] at hv
  rw [Dict.get?_set] at hv
  split_ifs at hv
  · obtain rfl := Option.some.inj hv
    rw [enter_obj_new] at hc ⊢
    exact .inr ⟨hc, rfl⟩
  · have hlt := (h.entries v r hv).1
    rw [enter_obj_old s sv pool hlt] at hc ⊢
    exact .inl ⟨r, (Dict.mem_values _).mpr ⟨v, hv⟩, hc, rfl⟩

lemma CallsInv.enter (h : s.CallsInv uuid3) {sv : SemanticVariable} {pool : RecyclePool}
    (hkind : (s.enter sv pool).IsConstant uuid3 s.heap.next ∨
      (s.enter sv pool).IsPlaceholder uuid3 s.heap.next)
    (hmax : s.ns.seedPool.curMaxId ≤ pool.curMaxId) (hpool : pool.Owns (s.enter sv pool).seeds)
    (hunbounded : pool.poolSize = none) : (s.enter sv pool).CallsInv uuid3 where
  kinds r hr := by
    rcases Nat.lt_succ_iff_lt_or_eq.mp hr with hlt | rfl
    · refine (h.kinds r hlt).imp ?_ ?_
      · intro hconst
        unfold IsConstant
        rw [enter_obj_old s sv pool hlt]
        exact hconst
      · rintro ⟨hid, hc, hseed⟩
        unfold IsPlaceholder
        rw [enter_obj_old s sv pool hlt]
        exact ⟨hid, hc, hseed.trans_le hmax⟩
    · exact hkind
  entries v r hv := by
    simp only [NamespaceCalls.enter] at hv
    rw [Dict.get?_set] at hv
    split_ifs at hv with heq
    · obtain rfl := Option.some.inj hv
      rw [enter_obj_new]
      exact ⟨Nat.lt_succ_self _, heq.symm⟩
    · obtain ⟨hlt, hid⟩ := h.entries v r hv
      rw [enter_obj_old s sv pool hlt]
      exact ⟨Nat.lt_succ_of_lt hlt, hid⟩
  pool := hpool
  unbounded := hunbounded
  recorded c hc r hr := by
    obtain ⟨hlt, hcontent⟩ := h.recorded c hc r hr
    rw [enter_obj_old s sv pool hlt]
    exact ⟨Nat.lt_succ_of_lt hlt, hcontent⟩

/-- An earlier call returned an earlier variable. -/
lemma CallsInv.distinct_new (h : s.CallsInv uuid3) {c c' : NewVarCall} (hc' : c' ∈ s.history)
    (hc : c.result = .ok s.heap.next) : c'.Distinct c := by
  intro r hr' hr
  obtain rfl := Except.ok.inj (hc.symm.trans hr)
  exact absurd (h.recorded c' hc' _ hr').1 (Nat.lt_irrefl _)

/-! ## The three calls -/

/-- What is found under the hash of a text is the constant with that text. -/
lemma content_of_found (hinj : ∀ uuid, Function.Injective (uuid3 uuid)) (h : s.CallsInv uuid3)
    {content : Text} {flag : Bool} (hapart : s.Apart (.newVarByContent content flag)) {r : SvRef}
    (hget : s.ns.vars.get? (uuid3 s.ns.namespaceUuid content) = some r) :
    (s.heap.obj r).content = some content := by
  obtain ⟨hlt, hid⟩ := h.entries _ _ hget
  rcases h.kinds r hlt with ⟨text, hid', hc, -⟩ | ⟨hid', hc, -⟩
  · rw [hc, hinj _ (hid'.symm.trans hid)]
  · exact absurd (hinj _ (hid'.symm.trans hid))
      (hapart r ((Dict.mem_values _).mpr ⟨_, hget⟩) hc)

lemma newVarByContent_step (hinj : ∀ uuid, Function.Injective (uuid3 uuid))
    (h : s.CallsInv uuid3) (hn : s.NeverCollide) {content : Text} {flag : Bool}
    (hapart : s.Apart (.newVarByContent content flag)) :
    (s.apply uuid3 (.newVarByContent content flag)).CallsInv uuid3 ∧
      (s.apply uuid3 (.newVarByContent content flag)).NeverCollide := by
  cases hget : s.ns.vars.get? (uuid3 s.ns.namespaceUuid content) with
  | some r =>
      have hcontent := content_of_found hinj h hapart hget
      simp only [apply, newVarByContent_hit uuid3 hget]
      constructor
      · refine h.record fun r' hr' => ?_
        obtain rfl := Except.ok.inj hr'
        exact ⟨(h.entries _ _ hget).1, hcontent⟩
      · refine hn.record (NewVarCall.keeps_byContent hcontent) (fun c' hc' r' hr' hr => ?_) _ _
        obtain rfl := Except.ok.inj hr
        -- the earlier call returned a variable with this content, so it asked for it
        have hcontent' := (h.recorded c' hc' r hr').2
        rw [hcontent] at hcontent'
        cases hcall : c'.call with
        | byContent content' =>
            rw [hcall] at hcontent'
            obtain rfl := Option.some.inj hcontent'
            exact ⟨content, rfl, rfl⟩
        | byName name =>
            rw [hcall] at hcontent'
            cases hcontent'
  | none =>
      have hmiss := newVarByContent_miss (m := s.heap) uuid3 hget flag
      set sv := contentVar uuid3 s.ns content flag with hsv
      have hobj := enter_obj_new s sv s.ns.seedPool
      have henter : (s.enter sv s.ns.seedPool).CallsInv uuid3 := by
        refine h.enter (.inl ⟨content, ?_, ?_, ?_⟩) le_rfl ?_ h.unbounded
        · rw [hobj]
          rfl
        · rw [hobj]
          rfl
        · rw [hobj]
          rfl
        · refine h.pool.mono fun seed hseed => (seeds_enter h _ _ hseed).resolve_right ?_
          rintro ⟨hnone, -⟩
          cases hnone
      have hcontent : ((s.heap.newVar sv).2.obj s.heap.next).content = some content :=
        congrArg SemanticVariable.content hobj
      simp only [apply, hmiss]
      constructor
      · refine henter.record fun r hr => ?_
        obtain rfl := Except.ok.inj hr
        exact ⟨Nat.lt_succ_self _, hcontent⟩
      · exact hn.record (NewVarCall.keeps_byContent hcontent)
          (fun c' hc' => h.distinct_new hc' rfl) _ _

/-- Seeds with the same numeral are the same. -/
lemma numeral_injective : Function.Injective (Nat.toDigits 10) :=
  Function.LeftInverse.injective (g := fun digits => Nat.ofDigitChars 10 digits 0) fun _ =>
    Nat.ofDigitChars_ten_toDigits

/-- The next seed is no placeholder's, and its numeral is no constant's content. -/
lemma newVarByName_misses (hinj : ∀ uuid, Function.Injective (uuid3 uuid)) (h : s.CallsInv uuid3)
    {name : Text} {flag : Bool} (hapart : s.Apart (.newVarByName name flag)) {seed : ℕ}
    {pool : RecyclePool} (hpool : s.ns.seedPool.allocate = (.ok seed, pool)) :
    uuid3 s.ns.namespaceUuid (Nat.toDigits 10 seed) ∉ s.ns.vars.keys := by
  intro hmem
  obtain ⟨r, hget⟩ := s.ns.vars.mem_keys.mp hmem
  have hvalue := (Dict.mem_values _).mpr ⟨_, hget⟩
  obtain ⟨hlt, hid⟩ := h.entries _ _ hget
  rcases h.kinds r hlt with ⟨text, hid', hc, -⟩ | ⟨hid', hc, -⟩
  · obtain rfl := hinj _ (hid'.symm.trans hid)
    exact hapart seed (by rw [hpool]; rfl) r hvalue hc
  · have hseed := numeral_injective (hinj _ (hid'.symm.trans hid))
    exact (h.pool.allocate_ok hpool).1 ⟨r, hvalue, hc, hseed⟩

lemma newVarByName_step (hinj : ∀ uuid, Function.Injective (uuid3 uuid)) (h : s.CallsInv uuid3)
    (hn : s.NeverCollide) {name : Text} {flag : Bool}
    (hapart : s.Apart (.newVarByName name flag)) :
    (s.apply uuid3 (.newVarByName name flag)).CallsInv uuid3 ∧
      (s.apply uuid3 (.newVarByName name flag)).NeverCollide := by
  obtain ⟨seed, pool, hpool⟩ := RecyclePool.allocate_unbounded h.unbounded
  have hnot := newVarByName_misses hinj h hapart hpool
  obtain ⟨-, howns⟩ := h.pool.allocate_ok hpool
  obtain ⟨hmax, -, hlt⟩ := allocate_counts hpool
  set sv : SemanticVariable := {
    name
    id := uuid3 s.ns.namespaceUuid (Nat.toDigits 10 seed)
    isConstantPrefix := flag
    seed } with hsv
  have hok : s.heap.newVarByName uuid3 s.ns name flag = (.ok s.heap.next,
      { s.ns with vars := s.ns.vars.set sv.id s.heap.next, seedPool := pool },
      (s.heap.newVar sv).2) := by
    simp only [newVarByName, hpool, if_neg hnot]
    rfl
  have hobj := enter_obj_new s sv pool
  have henter : (s.enter sv pool).CallsInv uuid3 := by
    refine h.enter (.inr ⟨?_, ?_, ?_⟩) hmax ?_ ?_
    · rw [hobj]
      rfl
    · rw [hobj]
    · rw [hobj]
      exact hlt seed rfl h.pool.free_lt
    · refine howns.mono fun seed' hseed' => ?_
      rcases seeds_enter h _ _ hseed' with hold | ⟨-, rfl⟩
      · exact .inr hold
      · exact .inl rfl
    · have := s.ns.seedPool.allocate_poolSize
      rw [hpool] at this
      exact this.trans h.unbounded
  have hcontent : ((s.heap.newVar sv).2.obj s.heap.next).content = none :=
    congrArg SemanticVariable.content hobj
  have hnew : s.heap.next ∉ s.ns.vars.values := by
    intro hmem
    obtain ⟨v, hv⟩ := (Dict.mem_values _).mp hmem
    exact absurd (h.entries v _ hv).1 (Nat.lt_irrefl _)
  simp only [apply, hok]
  constructor
  · refine henter.record fun r hr => ?_
    obtain rfl := Except.ok.inj hr
    exact ⟨Nat.lt_succ_self _, hcontent⟩
  · exact hn.record (NewVarCall.keeps_byName (decide_eq_false hnew) hcontent)
      (fun c' hc' => h.distinct_new hc' rfl) _ _

/-- The table loses entries, and the pool counts on. -/
lemma CallsInv.withTable (h : s.CallsInv uuid3) {vars : Dict VarId SvRef} {pool : RecyclePool}
    (hsub : ∀ v r, vars.get? v = some r → s.ns.vars.get? v = some r)
    (hmax : pool.curMaxId = s.ns.seedPool.curMaxId) (hunbounded : pool.poolSize = none)
    (hpool : pool.Owns (seeds { s with ns := { s.ns with vars, seedPool := pool } })) :
    CallsInv uuid3 { s with ns := { s.ns with vars, seedPool := pool } } where
  kinds r hr := (h.kinds r hr).imp id fun ⟨hid, hc, hseed⟩ => ⟨hid, hc, hseed.trans_eq hmax.symm⟩
  entries v r hv := h.entries v r (hsub v r hv)
  pool := hpool
  unbounded := hunbounded
  recorded := h.recorded

lemma seeds_withTable {vars : Dict VarId SvRef} {pool : RecyclePool}
    (hsub : ∀ v r, vars.get? v = some r → s.ns.vars.get? v = some r) :
    seeds { s with ns := { s.ns with vars, seedPool := pool } } ⊆ s.seeds := by
  rintro seed ⟨r, hr, hc, rfl⟩
  obtain ⟨v, hv⟩ := (Dict.mem_values _).mp hr
  exact ⟨r, (Dict.mem_values _).mpr ⟨v, hsub v r hv⟩, hc, rfl⟩

/-- No other placeholder in the namespace has the seed of a placeholder. -/
lemma seed_not_mem (h : s.CallsInv uuid3) {r : SvRef} (hr : s.IsPlaceholder uuid3 r)
    {vars : Dict VarId SvRef} {pool : RecyclePool}
    (hvars : vars = s.ns.vars.erase (s.heap.obj r).id) :
    (s.heap.obj r).seed ∉ seeds { s with ns := { s.ns with vars, seedPool := pool } } := by
  rintro ⟨r', hr', hc, hseed⟩
  obtain ⟨v, hv⟩ := (Dict.mem_values _).mp hr'
  dsimp only at hv hc hseed
  rw [hvars, Dict.get?_erase] at hv
  split_ifs at hv with hne
  obtain ⟨hlt, hid⟩ := h.entries v r' hv
  rcases h.kinds r' hlt with ⟨text, -, hsome, -⟩ | ⟨hid', -, -⟩
  · rw [hc] at hsome
    cases hsome
  · exact hne (by rw [← hid, hid', hseed, hr.1])

/-- `free_var` with a variable that is in the namespace, has gone, or has a successor there. -/
lemma freeVar_step (h : s.CallsInv uuid3) {r : SvRef} (hr : r < s.heap.next) :
    (s.apply uuid3 (.freeVar r)).CallsInv uuid3 := by
  have herase : ∀ v r', (s.ns.vars.erase (s.heap.obj r).id).get? v = some r' →
      s.ns.vars.get? v = some r' := by
    intro v r' hv
    rw [Dict.get?_erase] at hv
    split_ifs at hv
    exact hv
  simp only [apply, SemanticVariableNamespace.freeVar]
  by_cases hmem : (s.heap.obj r).id ∈ s.ns.vars.keys
  case neg =>
    rw [if_pos hmem]
    exact h
  rw [if_neg (not_not.mpr hmem)]
  by_cases hseed : (s.heap.obj r).seed = noneSeed
  · rw [if_pos hseed]
    refine h.withTable herase rfl h.unbounded (h.pool.mono (seeds_withTable herase))
  · rw [if_neg hseed]
    have hkind : s.IsPlaceholder uuid3 r := by
      rcases h.kinds r hr with ⟨_, -, -, hnone⟩ | hkind
      · exact absurd hnone hseed
      · exact hkind
    by_cases hfree : (s.heap.obj r).seed ∈ s.ns.seedPool.freeIds
    · -- a placeholder that has gone: `ValueError`, and only a counter moves
      simp only [RecyclePool.free, if_pos hfree]
      refine h.withTable (fun _ _ hv => hv) rfl h.unbounded ?_
      exact ⟨h.pool.lt_max, h.pool.not_free, h.pool.free_lt, h.pool.free_nodup⟩
    · have howns : s.ns.seedPool.Owns (insert (s.heap.obj r).seed s.seeds) := by
        refine ⟨?_, ?_, h.pool.free_lt, h.pool.free_nodup⟩
        · rintro seed (rfl | hold)
          · exact hkind.2.2
          · exact h.pool.lt_max seed hold
        · rintro seed (rfl | hold)
          · exact hfree
          · exact h.pool.not_free seed hold
      have howns' := (howns.free_ok (Set.mem_insert _ _)).2.2
      simp only [RecyclePool.free, if_neg hfree] at howns' ⊢
      refine h.withTable herase rfl h.unbounded (howns'.mono fun seed hseed' => ⟨?_, ?_⟩)
      · exact .inr (seeds_withTable herase hseed')
      · rintro rfl
        exact seed_not_mem h hkind rfl hseed'

/-- In every run whose calls keep the two kinds of variables apart, they never collide. -/
theorem calls_apart (hinj : ∀ uuid, Function.Injective (uuid3 uuid))
    (hs : (system uuid3).ReachableUnder Apart s) : s.NeverCollide := by
  have hinv : (system uuid3).IsInvariantUnder Apart fun s => s.CallsInv uuid3 ∧ s.NeverCollide := by
    constructor
    · rintro s rfl
      refine ⟨⟨fun r hr => absurd hr (Nat.not_lt_zero r), fun v r hv => ?_, ?_, rfl,
        fun c hc => ?_⟩, ⟨fun c hc => ?_, List.Pairwise.nil⟩⟩
      · cases hv
      · refine (RecyclePool.owns_empty "SemanticVariable" none false).mono ?_
        rintro seed ⟨r, hr, -⟩
        cases hr
      · cases hc
      · cases hc
    · rintro s a s' ⟨h, hn⟩ hapart ⟨hen, rfl⟩
      cases a with
      | newVarByContent content flag => exact newVarByContent_step hinj h hn hapart
      | newVarByName name flag => exact newVarByName_step hinj h hn hapart
      | freeVar r => exact ⟨freeVar_step h hen, ⟨hn.keeps, hn.distinct⟩⟩
  exact (hinv.holds hs).2

/-- What a list of calls makes of a new namespace. -/
def run (as : List Action) : NamespaceCalls := as.foldl (fun s a => s.apply escapeUuid3 a) start

theorem calls_apart_hi : (run [.newVarByContent ['h', 'i'] false, .newVarByName ['x'] false,
    .newVarByName ['y'] false, .freeVar 1, .newVarByContent ['h', 'i'] false,
    .newVarByContent ['0'] false]).NeverCollide :=
  calls_apart escapeUuid3_injective (.foldl _ (.init rfl) (by decide +kernel))

/-- The constant that spells the seed of a placeholder is the placeholder, which is not ready; and
a placeholder whose seed spells a constant cannot be created. -/
theorem calls_collide :
    (∃ s, (system escapeUuid3).Reachable s ∧ ∃ c ∈ s.history,
      c.call = .byContent ['0'] ∧ c.result = .ok 0 ∧ c.content = none ∧ ¬ s.NeverCollide) ∧
      ∃ s, (system escapeUuid3).Reachable s ∧ ∃ c ∈ s.history, c.call = .byName ['x'] ∧
        c.result = .error (.parrotAssert "SV ID already exists.") ∧ ¬ s.NeverCollide := by
  refine ⟨⟨run [.newVarByName ['x'] false, .newVarByContent ['0'] false],
    .foldl _ (.init rfl) (by decide +kernel),
    { call := .byContent ['0'], result := .ok 0, wasThere := true, content := none },
    by decide +kernel, rfl, rfl, rfl, fun h => ?_⟩,
    run [.newVarByContent ['0'] false, .newVarByName ['x'] false],
    .foldl _ (.init rfl) (by decide +kernel),
    { call := .byName ['x'], result := .error (.parrotAssert "SV ID already exists.")
      wasThere := false, content := none },
    by decide +kernel, rfl, rfl, fun h => ?_⟩
  · obtain ⟨-, hready⟩ := h.keeps
      { call := .byContent ['0'], result := .ok 0, wasThere := true, content := none }
      (by decide +kernel)
    cases hready
  · obtain ⟨⟨r, hok⟩, -⟩ := h.keeps
      { call := .byName ['x'], result := .error (.parrotAssert "SV ID already exists.")
        wasThere := false, content := none } (by decide +kernel)
    cases hok

end NamespaceCalls

end ParrotServe
