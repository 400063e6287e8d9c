import ParrotServe.Properties.ExecutorInvariant
import ParrotServe.Properties.ReferenceCounts

/-!
# What a Generate finds

When a task sends its Generate, the contexts of its Fill nodes are the parents of the Gen context,
and the engine reads their payloads from the root down.  `generates_from_contents` is the result
for every run whose calls of `set_task_contexts` meet `SafeBinding`: the engine reads the contents
of the task's own Fill nodes in order, whoever filled the contexts.

For tasks that do not ask for `fuse_fill` the condition is no condition, and every Fill node has a
context of its own that received one Fill (`prefix_sharing`).  With `fuse_fill` it is one: on an
engine without token ids only the first Fill of a fused context is sent (`fused_fills_lost`).
-/

namespace ParrotServe
namespace ExecutorState

open ServeCoreContextManager ContextSystem TransitionSystem

variable {α : Type} {p : Payloads α} {x x' : ExecutorState α} {t : TaskRef} {i : ℕ}
  {stage : Stage} {node : ChainNode} {g : ContextRef}

/-! ## The invariant of runs -/

lemma ExecutorInv.start : ExecutorInv p (ExecutorState.start : ExecutorState α) := by
  have hlive : ∀ r : ContextRef, ¬ ServeCoreContextManager.empty.Live r := fun r hr => by
    simp [Live, ServeCoreContextManager.empty] at hr
  refine ⟨.start, fun r _ hr => absurd hr (hlive r), fun r hr => absurd hr (hlive r), ?_, ?_,
    fun r hr => absurd hr (hlive r), fun r _ hr => absurd hr (hlive r), ?_, ?_⟩
  all_goals simp [ExecutorState.start, ContextSystem.start]

/-- The invariant of every run whose calls are safe. -/
lemma safeBinding_invariant :
    (system p).IsInvariantUnder (SafeBinding p) (ExecutorInv p) where
  init _ h := h ▸ .start
  step _ _ _ h hg hstep := (h.apply hstep.1 hg hstep.2).1

/-- The chains end in a Gen node, and `fuse_fill` is off. -/
def DefaultTasks (_ : ExecutorState α) : ExecutorAction → Prop
  | .setTaskContexts _ chain fuseFill => FillsThenGen chain ∧ fuseFill = false
  | _ => True

instance (x : ExecutorState α) : ∀ a, Decidable (x.DefaultTasks a)
  | .setTaskContexts _ chain fuseFill =>
      inferInstanceAs (Decidable (FillsThenGen chain ∧ fuseFill = false))
  | .registerEngine _ | .setSv _ | .step _ | .resume _ | .arrive _ | .execute _ | .answer _
  | .fail _ | .freeTaskContexts _ | .freeConstantPrefixContexts _ =>
      inferInstanceAs (Decidable True)

lemma unfused_of_default {a : ExecutorAction} (h : x.DefaultTasks a) : x.Unfused a := by
  cases a with
  | setTaskContexts e chain fuseFill =>
      rintro ⟨hf, -⟩
      rw [h.2] at hf
      exact Bool.false_ne_true hf
  | _ => trivial

lemma safeBinding_of_default {a : ExecutorAction} (hown : x.sys.world.mgr.AllOwn)
    (h : x.DefaultTasks a) : x.SafeBinding p a := by
  have hno := unfused_of_default h
  cases a with
  | setTaskContexts e chain fuseFill =>
      exact ⟨bindGuard_of_allOwn hown hno, fun hf => absurd hf hno, .inl h.1.any_isGen⟩
  | _ => trivial

/-- The invariant of every run that does not ask for `fuse_fill`. -/
lemma default_invariant : (system p).IsInvariantUnder DefaultTasks
    fun x => ExecutorInv p x ∧ x.sys.world.mgr.AllOwn where
  init x h := by
    obtain rfl := h
    refine ⟨.start, fun e l id hc => ?_⟩
    simp [ExecutorState.start, ContextSystem.start, ServeCoreContextManager.cached,
      ServeCoreContextManager.empty] at hc
  step x a x' h hg hstep := by
    obtain ⟨hinv, hown⟩ := h
    obtain ⟨hinv', hown'⟩ := hinv.apply hstep.1 (safeBinding_of_default hown hg) hstep.2
    exact ⟨hinv', hown' (unfused_of_default hg) hown⟩

/-! ## What is above a Gen context -/

/-- The contexts of the Fill nodes, when the Generate of a task is sent. -/
lemma ExecutorInv.gen_path (h : ExecutorInv p x) (ht : t ∈ x.sys.bound)
    (hi : x.phase t = .sent i stage) (hcur : x.current t i = some (node, g))
    (hgen : node.isGen = true) : ∃ fs, (x.sys.task t).contexts.take i = fs ∧
      x.sys.world.mgr.KeyPath (x.sys.task t).engine fs (fillVars (x.sys.task t).chain) ∧
      x.sys.world.mgr.Live g ∧ (x.sys.world.mgr.obj g).parentContext = fs.getLast? ∧
      x.filled g = [] ∧ ∀ r ∈ fs, x.readyEvent r = true ∧ ∃ seg, x.sys.world.mgr.Segment r seg ∧
        x.sys.world.received r = some [contents p (x.sys.task t).engine seg] := by
  obtain ⟨hshape, -, hprog, hsent⟩ := h.tasks t ht
  obtain ⟨node', g', hcur', -, -, hdel⟩ := hsent i stage hi
  rw [hcur, Option.some.injEq, Prod.mk.injEq] at hcur'
  obtain ⟨rfl, rfl⟩ := hcur'
  obtain ⟨hchain, hctx⟩ := current_eq_some.mp hcur
  obtain ⟨fs, hcs, rfl, hpath, hlive, -, hp, -⟩ :=
    (h.sys.tasks t ht).gen_node hshape hchain hctx hgen
  have htake : (x.sys.task t).contexts.take fs.length = fs := by
    rw [hcs, List.take_left' rfl]
  refine ⟨fs, htake, hpath, hlive, hp, ?_, fun r hr => ?_⟩
  · cases stage with
    | posted => exact hdel
    | bound => rw [filled, show x.sys.world.received g = some [] from hdel]; rfl
    | executed =>
        rw [Delivered, if_pos hgen] at hdel
        rw [filled, hdel]
        rfl
  · have hready := hprog fs.length (by rw [hi, Phase.node]) r (htake.symm ▸ hr)
    obtain ⟨hlive, he⟩ := hpath.live r hr
    obtain ⟨seg, hseg⟩ := hpath.exists_segment r hr
    exact ⟨hready, seg, hseg, he ▸ h.ready r seg hlive hready hseg⟩

/-- **Under a Generate are the contents of its task's Fill nodes**, in order, nothing missing,
repeated or added. -/
lemma ExecutorInv.accumulated_gen (h : ExecutorInv p x) (ht : t ∈ x.sys.bound)
    (hi : x.phase t = .sent i stage) (hcur : x.current t i = some (node, g))
    (hgen : node.isGen = true) :
    x.accumulated g = contents p (x.sys.task t).engine (fillVars (x.sys.task t).chain) := by
  obtain ⟨fs, -, hpath, hlive, hp, hfilled, hall⟩ := h.gen_path ht hi hcur hgen
  have hs := h.sys.world.mgr
  rw [accumulated]
  cases hlast : fs.getLast? with
  | none =>
      obtain rfl := List.getLast?_eq_none_iff.mp hlast
      have hnil : fillVars (x.sys.task t).chain = [] :=
        List.length_eq_zero_iff.mp hpath.length_eq.symm
      rw [lineage_root (hp.trans hlast), hnil]
      simp [hfilled, contents]
  | some q =>
      rw [lineage_child hs hlive (hp.trans hlast), List.reverse_cons, List.flatMap_append,
        List.flatMap_singleton, hfilled, List.flatten_nil, List.append_nil]
      refine hpath.accumulated hs (fun r hr seg hseg => ?_) hlast
      obtain ⟨-, seg', hseg', hrec⟩ := hall r hr
      obtain rfl := hseg.unique hseg'
      rw [filled, hrec]
      simp

/-! ## The results -/

/-- Whatever is sent as a Generate has the contents of the Fill nodes of its task under it. -/
def GeneratesFromContents (p : Payloads α) (x : ExecutorState α) : Prop :=
  ∀ t ∈ x.sys.bound, ∀ i stage node g, x.phase t = .sent i stage →
    x.current t i = some (node, g) → node.isGen = true →
      x.accumulated g = contents p (x.sys.task t).engine (fillVars (x.sys.task t).chain)

/-- **Prefix sharing is correct in every interleaving**, for chains `Fill* Gen` without
`fuse_fill`.  When the Generate of a task is sent, at node `i`, the parents of its context are the
contexts of the nodes before `i`, which are the Fill nodes; each of them is ready and has received
one payload; and from the root down the payloads are the contents of the Fill nodes in order. -/
theorem prefix_sharing (hx : (system p).ReachableUnder DefaultTasks x) (ht : t ∈ x.sys.bound)
    (hi : x.phase t = .sent i stage) (hcur : x.current t i = some (node, g))
    (hgen : node.isGen = true) :
    ancestors x.sys.world.mgr g = ((x.sys.task t).contexts.take i).reverse ∧
      (∀ r ∈ (x.sys.task t).contexts.take i, x.readyEvent r = true ∧
        ∃ payload, x.sys.world.received r = some [payload]) ∧
      x.accumulated g = contents p (x.sys.task t).engine (fillVars (x.sys.task t).chain) := by
  obtain ⟨h, hown⟩ := default_invariant.holds hx
  obtain ⟨fs, htake, hpath, hlive, hp, -, hall⟩ := h.gen_path ht hi hcur hgen
  have hs := h.sys.world.mgr
  rw [htake]
  refine ⟨?_, fun r hr => ?_, h.accumulated_gen ht hi hcur hgen⟩
  · rw [ancestors]
    cases hlast : fs.getLast? with
    | none =>
        obtain rfl := List.getLast?_eq_none_iff.mp hlast
        rw [lineage_root (hp.trans hlast)]
        rfl
    | some q =>
        rw [lineage_child hs hlive (hp.trans hlast), List.tail_cons]
        exact hpath.lineage_eq hs
          (fun r hr => not_fused_of_allOwn hs hown (hpath.live r hr).1) hlast
  · obtain ⟨hready, seg, -, hrec⟩ := hall r hr
    exact ⟨hready, _, hrec⟩

/-- The text of a variable is its id, as tokens or as text. -/
def letters (tokenId : Bool) : Payloads Char where
  tokenId _ := tokenId
  content _ v := v.val

/-- An engine, the variables of the shared Fills, and a first task. -/
def firstTask (fuseFill : Bool) : List ExecutorAction :=
  [.registerEngine 0, .setSv (letter 'a'), .setSv (letter 'b'),
    .setTaskContexts 0 (sharedChain false (letter 'x')) fuseFill]

/-- A task sends the primitive of its node, which is answered. -/
def serve (t : TaskRef) : List ExecutorAction := [.step t, .arrive t, .execute t, .answer t]

/-- A second task with the same Fills waits for the first and then fills the rest. -/
theorem prefix_sharing_second : ∃ x : ExecutorState Char,
    ancestors x.sys.world.mgr 3 = [1, 0] ∧ x.accumulated 3 = ['a', 'b'] := by
  have hrun : RunsTo Enabled DefaultTasks (fun x a => x.apply (letters true) a)
      (fun x : ExecutorState Char => 1 ∈ x.sys.bound ∧ x.phase 1 = .sent 2 .posted ∧
        x.current 1 2 = some ({ varId := letter 'y', isGen := true }, 3) ∧
        (x.sys.task 1).contexts = [0, 1, 3] ∧
        (x.sys.task 1).chain = sharedChain false (letter 'y')) start
      (firstTask false ++ [.setTaskContexts 0 (sharedChain false (letter 'y')) false, .step 0,
        .step 1, .arrive 0, .execute 0, .answer 0, .resume 1] ++ serve 1 ++ [.step 1]) := by
    decide +kernel
  obtain ⟨x, hx, ht, hi, hcur, hcs, hchain⟩ := hrun.reachable _ (.init rfl)
  obtain ⟨hanc, -, hacc⟩ := prefix_sharing hx ht hi hcur rfl
  rw [hcs] at hanc
  rw [hchain] at hacc
  exact ⟨x, hanc, hacc⟩

/-- **With safe bindings `fuse_fill` changes nothing an engine reads.**  In every run in which each
call of `set_task_contexts` finds as its longest cached prefix the key of a context, fuses Fills
only with token ids and only behind no or all of the chain's Fills, and gives the last Fill of a
chain without a Gen a context of its own, every Generate is sent on top of the contents of its
task's own Fill nodes in order. -/
theorem generates_from_contents (hx : (system p).ReachableUnder (SafeBinding p) x) :
    x.GeneratesFromContents p :=
  fun _ ht _ _ _ _ hi hcur hgen =>
    (safeBinding_invariant.holds hx).accumulated_gen ht hi hcur hgen

/-- Two fused Fills as tokens: the second is sent with the first. -/
theorem generates_from_contents_fused : ∃ x : ExecutorState Char,
    x.phase 0 = .sent 2 .posted ∧ x.accumulated 1 = ['a', 'b'] := by
  have hrun : RunsTo Enabled (SafeBinding (letters true)) (fun x a => x.apply (letters true) a)
      (fun x : ExecutorState Char => 0 ∈ x.sys.bound ∧ x.phase 0 = .sent 2 .posted ∧
        x.current 0 2 = some ({ varId := letter 'x', isGen := true }, 1) ∧
        (x.sys.task 0).chain = sharedChain false (letter 'x')) start
      (firstTask true ++ serve 0 ++ [.step 0, .step 0]) := by
    decide +kernel
  obtain ⟨x, hx, ht, hi, hcur, hchain⟩ := hrun.reachable _ (.init rfl)
  have hacc := generates_from_contents hx 0 ht 2 .posted _ _ hi hcur rfl
  rw [hchain] at hacc
  exact ⟨x, hi, hacc⟩

/-- No primitive fails. -/
def NoFailure (_ : ExecutorState α) : ExecutorAction → Prop
  | .fail _ => False
  | _ => True

instance (x : ExecutorState α) : ∀ a, Decidable (x.NoFailure a)
  | .fail _ => inferInstanceAs (Decidable False)
  | .registerEngine _ | .setSv _ | .setTaskContexts .. | .step _ | .resume _ | .arrive _
  | .execute _ | .answer _ | .freeTaskContexts _ | .freeConstantPrefixContexts _ =>
      inferInstanceAs (Decidable True)

/-- Two fused Fills as text: the second is skipped, because its context is ready. -/
theorem fused_fills_lost : ¬ ∀ x : ExecutorState Char,
    (system (letters false)).ReachableUnder NoFailure x →
      x.GeneratesFromContents (letters false) := by
  intro h
  have hrun : RunsTo Enabled NoFailure (fun x a => x.apply (letters false) a)
      (fun x : ExecutorState Char => 0 ∈ x.sys.bound ∧ x.phase 0 = .sent 2 .posted ∧
        x.current 0 2 = some ({ varId := letter 'x', isGen := true }, 1) ∧
        (x.sys.task 0).chain = sharedChain false (letter 'x') ∧ x.accumulated 1 = ['a']) start
      (firstTask true ++ serve 0 ++ [.step 0, .step 0]) := by
    decide +kernel
  obtain ⟨x, hx, ht, hi, hcur, hchain, hlost⟩ := hrun.reachable _ (.init rfl)
  have hacc := h x hx 0 ht 2 .posted _ _ hi hcur rfl
  rw [hchain, hlost] at hacc
  simp [contents, letters, sharedChain, fillVars, letter] at hacc

end ExecutorState
end ParrotServe
