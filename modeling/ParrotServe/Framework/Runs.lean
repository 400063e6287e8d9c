import Mathlib.Data.List.SplitBy
import Mathlib.Tactic.Lemma

/-!
# Merging runs of equal keys

A loop that appends each element to the last one it kept when both have the same key, and keeps it
otherwise: `mergeInto`.  `mergeRuns` says what it computes: the list is split into its runs of equal
keys and each run becomes one element, `foldl_mergeInto`.

Neighbours in the result have different keys, `isChain_mergeRuns`; so a result that is merged again
stays as it is, and merging one in front of other elements is merging what it came from,
`mergeRuns_mergeRuns_append`.

Nothing in this module refers to the repository being modelled.
-/

namespace ParrotServe

variable {α κ : Type*} [DecidableEq κ] (key : α → κ) (app : α → α → α)

/-- One round of the loop. -/
def mergeInto (merged : List α) (x : α) : List α :=
  match merged.getLast? with
  | some last => if key last = key x then merged.dropLast ++ [app last x] else merged ++ [x]
  | none => merged ++ [x]

/-- A run becomes one element. -/
def joinRun : List α → List α
  | [] => []
  | a :: run => [run.foldl app a]

/-- The runs of equal keys, each as one element. -/
def mergeRuns (l : List α) : List α :=
  (l.splitBy fun a b => decide (key a = key b)).flatMap (joinRun app)

variable {key app}

@[simp] lemma mergeRuns_nil : mergeRuns key app ([] : List α) = [] := rfl

lemma mergeInto_concat (merged : List α) (last x : α) :
    mergeInto key app (merged ++ [last]) x =
      if key last = key x then merged ++ [app last x] else merged ++ [last] ++ [x] := by
  simp [mergeInto]

/-- The loop against the loop of `splitBy`: the completed groups and the current one. -/
lemma foldl_mergeInto_eq (hkey : ∀ a b, key (app a b) = key a) (l : List α) :
    ∀ (b : α) (g : List α) (gs : List (List α)) (c : α), joinRun app (b :: g).reverse = [c] →
      key c = key b →
      l.foldl (mergeInto key app) (gs.reverse.flatMap (joinRun app) ++ [c]) =
        (List.splitBy.loop (fun a b => decide (key a = key b)) l b g gs).flatMap (joinRun app) := by
  induction l with
  | nil =>
      intro b g gs c hc hb
      simp only [List.foldl_nil, List.splitBy.loop, List.reverse_cons, List.flatMap_append,
        List.flatMap_singleton]
      rw [← List.reverse_cons, hc]
  | cons x l ih =>
      intro b g gs c hc hb
      rw [List.foldl_cons, mergeInto_concat, List.splitBy.loop]
      by_cases hx : key b = key x
      · rw [if_pos (hb.trans hx), decide_eq_true hx]
        refine ih x (b :: g) gs (app c x) ?_ ((hkey c x).trans (hb.trans hx))
        obtain ⟨a, run, hrun⟩ : ∃ a run, (b :: g).reverse = a :: run :=
          List.exists_cons_of_ne_nil (by simp)
        rw [hrun, joinRun, List.cons.injEq] at hc
        rw [List.reverse_cons, hrun, List.cons_append, joinRun, List.foldl_append, hc.1]
        rfl
      · rw [if_neg fun h => hx (hb.symm.trans h), decide_eq_false hx]
        have hgs : (((b :: g).reverse :: gs).reverse.flatMap (joinRun app)) =
            gs.reverse.flatMap (joinRun app) ++ [c] := by
          rw [List.reverse_cons, List.flatMap_append, List.flatMap_singleton, hc]
        rw [← hgs]
        exact ih x [] ((b :: g).reverse :: gs) x rfl rfl

/-- The loop computes the runs. -/
lemma foldl_mergeInto (hkey : ∀ a b, key (app a b) = key a) (l : List α) :
    l.foldl (mergeInto key app) [] = mergeRuns key app l := by
  cases l with
  | nil => rfl
  | cons x l => exact foldl_mergeInto_eq hkey l x [] [] x rfl rfl

/-- No round puts two equal keys next to each other. -/
lemma isChain_mergeInto (hkey : ∀ a b, key (app a b) = key a) {merged : List α}
    (h : merged.IsChain fun a b => key a ≠ key b) (x : α) :
    (mergeInto key app merged x).IsChain fun a b => key a ≠ key b := by
  rcases List.eq_nil_or_concat' merged with rfl | ⟨pre, last, rfl⟩
  · exact List.isChain_singleton x
  · rw [mergeInto_concat]
    split
    · rw [List.isChain_append] at h ⊢
      refine ⟨h.1, List.isChain_singleton _, fun a ha b hb => ?_⟩
      obtain rfl : app last x = b := by simpa using hb
      rw [hkey]
      exact h.2.2 a ha last (by simp)
    · rename_i hne
      refine List.isChain_append.mpr ⟨h, List.isChain_singleton _, fun a ha b hb => ?_⟩
      obtain rfl : last = a := by simpa using ha
      obtain rfl : x = b := by simpa using hb
      exact hne

lemma isChain_mergeRuns (hkey : ∀ a b, key (app a b) = key a) (l : List α) :
    (mergeRuns key app l).IsChain fun a b => key a ≠ key b := by
  rw [← foldl_mergeInto hkey]
  exact List.foldlRecOn l _ List.isChain_nil fun _ h x _ => isChain_mergeInto hkey h x

/-- The loop copies a list without equal neighbours. -/
lemma foldl_mergeInto_of_isChain (l : List α) : ∀ merged : List α,
    (merged ++ l).IsChain (fun a b => key a ≠ key b) →
      l.foldl (mergeInto key app) merged = merged ++ l := by
  induction l with
  | nil => exact fun merged _ => (List.append_nil merged).symm
  | cons x l ih =>
      intro merged h
      have hstep : mergeInto key app merged x = merged ++ [x] := by
        rcases List.eq_nil_or_concat' merged with rfl | ⟨pre, last, rfl⟩
        · rfl
        · have hne : key last ≠ key x :=
            (List.isChain_append.mp h).2.2 last (by simp) x (by simp)
          rw [mergeInto_concat, if_neg hne]
      rw [List.foldl_cons, hstep, ih (merged ++ [x]) (by simpa using h)]
      simp

lemma mergeRuns_of_isChain (hkey : ∀ a b, key (app a b) = key a) {l : List α}
    (h : l.IsChain fun a b => key a ≠ key b) : mergeRuns key app l = l := by
  rw [← foldl_mergeInto hkey]
  exact foldl_mergeInto_of_isChain l [] h

/-- What was merged before may be merged again with what comes after it. -/
lemma mergeRuns_mergeRuns_append (hkey : ∀ a b, key (app a b) = key a) (l l' : List α) :
    mergeRuns key app (mergeRuns key app l ++ l') = mergeRuns key app (l ++ l') := by
  have hagain := mergeRuns_of_isChain hkey (isChain_mergeRuns hkey l)
  rw [← foldl_mergeInto hkey (_ ++ _), ← foldl_mergeInto hkey (l ++ l'), List.foldl_append,
    List.foldl_append, foldl_mergeInto hkey, foldl_mergeInto hkey, hagain]

/-- Merging keeps what the elements are made of. -/
lemma flatMap_mergeRuns {β : Type*} {f : α → List β} (hf : ∀ a b, f (app a b) = f a ++ f b)
    (l : List α) : (mergeRuns key app l).flatMap f = l.flatMap f := by
  have hfold : ∀ (run : List α) (a : α), f (run.foldl app a) = f a ++ run.flatMap f := by
    intro run
    induction run with
    | nil => exact fun a => (List.append_nil _).symm
    | cons x run ih =>
        intro a
        rw [List.foldl_cons, ih, hf, List.flatMap_cons, List.append_assoc]
  have hrun : ∀ run : List α, (joinRun app run).flatMap f = run.flatMap f := by
    intro run
    cases run with
    | nil => rfl
    | cons a run => rw [joinRun, List.flatMap_singleton, hfold, List.flatMap_cons]
  have hsplit := List.flatten_splitBy (fun a b => decide (key a = key b)) l
  calc (mergeRuns key app l).flatMap f
      = (l.splitBy fun a b => decide (key a = key b)).flatMap fun run =>
          (joinRun app run).flatMap f := List.flatMap_assoc
    _ = (l.splitBy fun a b => decide (key a = key b)).flatMap fun run => run.flatMap f := by
        simp only [hrun]
    _ = l.flatMap f := by
        conv_rhs => rw [← hsplit, List.flatten_eq_flatMap, List.flatMap_assoc]
        rfl

end ParrotServe
