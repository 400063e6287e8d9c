import ParrotServe.Properties.FrontendPayloads
import Mathlib.Data.List.DropRight

/-!
# Python objects in templates

A call renders its objects by replacing the placeholders of one parameter after the other in the
whole template, and the server parses what comes out.  An object's text is not protected: if it
contains a placeholder, or completes one with what is next to it, the next replacement or the
server reads it as one.

`joinTexts` is the reading that is wanted, with every object in its place and adjacent texts
merged.  `LiteralObjects` says that this reading shows all placeholders of its text, and under it
the replacements are the insertion of the objects (`renderObjects_eq`) and the server finds the
wanted pieces.  `objects_inserted` has both directions.
-/

namespace ParrotServe

namespace PFunc

open Tokens

/-! ## Pieces with merged texts -/

/-- A text in front of segments. -/
def prependText (t : Text) : List (Text × Text) × Text → List (Text × Text) × Text
  | ([], last) => ([], t ++ last)
  | (s :: segs, last) => ((t ++ s.1, s.2) :: segs, last)

/-- The segments of pieces, with adjacent texts merged, and the last text. -/
def joinTexts : List Piece → List (Text × Text) × Text
  | [] => ([], [])
  | .text t :: ps => prependText t (joinTexts ps)
  | .placeholder name :: ps => (([], name) :: (joinTexts ps).1, (joinTexts ps).2)

/-- The text in front of the first placeholder. -/
def firstText : List (Text × Text) × Text → Text
  | ([], last) => last
  | (s :: _, _) => s.1

/-- No placeholder occurs in the texts. -/
def FreeTexts (S : List (Text × Text) × Text) : Prop :=
  (∀ s ∈ S.1, Free IsName placeholderSource s.1) ∧ Free IsName placeholderSource S.2

/-- A piece with a text for its placeholder. -/
def renderPiece (f : Text → Text) : Piece → Text
  | .text t => t
  | .placeholder name => f name

lemma renderPiece_joinTexts (f : Text → Text) (ps : List Piece) :
    ((joinTexts ps).1.flatMap fun s => s.1 ++ f s.2) ++ (joinTexts ps).2 =
      ps.flatMap (renderPiece f) := by
  induction ps with
  | nil => rfl
  | cons p ps ih =>
      rw [List.flatMap_cons, ← ih]
      cases p with
      | placeholder name => simp [joinTexts, renderPiece]
      | text t =>
          rw [joinTexts]
          generalize joinTexts ps = S
          obtain ⟨_ | ⟨s, segs⟩, last⟩ := S
          · rfl
          · simp [prependText, renderPiece]

lemma source_joinTexts (ps : List Piece) :
    source placeholderSource (joinTexts ps).1 ++ (joinTexts ps).2 = ps.flatMap Piece.source := by
  rw [source, renderPiece_joinTexts]
  refine List.flatMap_congr fun p _ => ?_
  cases p <;> rfl

/-- The pieces of segments have these segments. -/
lemma joinTexts_pieces (segs : List (Text × Text)) (last : Text) :
    joinTexts (segmentPieces segs ++ textPiece last) = (segs, last) := by
  have htext : ∀ t ps, joinTexts (textPiece t ++ ps) = prependText t (joinTexts ps) := by
    intro t ps
    unfold textPiece
    split_ifs with hne
    · rfl
    · rw [not_not.mp hne, List.nil_append]
      generalize joinTexts ps = S
      obtain ⟨_ | ⟨s, segs⟩, last⟩ := S <;> rfl
  induction segs with
  | nil =>
      have hlast := htext last []
      rw [List.append_nil] at hlast
      rw [segmentPieces_nil, List.nil_append, hlast, joinTexts, prependText, List.append_nil]
  | cons s segs ih =>
      rw [segmentPieces_cons, List.append_assoc, htext, List.cons_append, joinTexts, ih,
        prependText,
        List.append_nil]

/-- The segments' names are placeholders of the pieces. -/
lemma mem_joinTexts {ps : List Piece} {s : Text × Text} (hs : s ∈ (joinTexts ps).1) :
    Piece.placeholder s.2 ∈ ps := by
  induction ps generalizing s with
  | nil => exact absurd hs List.not_mem_nil
  | cons p ps ih =>
      cases p with
      | placeholder name =>
          rcases List.mem_cons.mp hs with rfl | hs
          · exact List.mem_cons_self
          · exact List.mem_cons_of_mem _ (ih hs)
      | text t =>
          refine List.mem_cons_of_mem _ ?_
          rw [joinTexts] at hs
          generalize joinTexts ps = S at hs ih
          obtain ⟨_ | ⟨s', segs⟩, last⟩ := S
          · exact absurd hs List.not_mem_nil
          · rcases List.mem_cons.mp hs with rfl | hs
            · exact ih (s := s') List.mem_cons_self
            · exact ih (List.mem_cons_of_mem _ hs)

lemma freeTexts_prependText {t : Text} {S : List (Text × Text) × Text} :
    FreeTexts (prependText t S) ↔
      Free IsName placeholderSource (t ++ firstText S) ∧ FreeTexts S := by
  have hpart : ∀ {u}, Free IsName placeholderSource (t ++ u) → Free IsName placeholderSource u :=
    fun h => h.of_part (List.suffix_append t _).isInfix
  obtain ⟨_ | ⟨s, segs⟩, last⟩ := S
  · simp only [FreeTexts, prependText, firstText, List.not_mem_nil, false_imp_iff, implies_true,
      true_and]
    exact ⟨fun h => ⟨h, hpart h⟩, fun h => h.1⟩
  · simp only [FreeTexts, prependText, firstText, List.forall_mem_cons]
    exact ⟨fun h => ⟨h.1.1, ⟨hpart h.1.1, h.1.2⟩, h.2⟩, fun h => ⟨⟨h.1, h.2.1.2⟩, h.2.2⟩⟩

/-! ## Inserting texts -/

/-- Placeholders are kept or become texts. -/
structure Fills (g : Piece → Piece) : Prop where
  text : ∀ t, g (.text t) = .text t
  placeholder : ∀ name, g (.placeholder name) = .placeholder name ∨
    ∃ t, g (.placeholder name) = .text t

lemma firstText_prependText (t : Text) (S : List (Text × Text) × Text) :
    firstText (prependText t S) = t ++ firstText S := by
  obtain ⟨_ | ⟨s, segs⟩, last⟩ := S <;> rfl

lemma suffix_prependText (t : Text) (S : List (Text × Text) × Text) :
    S.2 <:+ (prependText t S).2 := by
  obtain ⟨_ | ⟨s, segs⟩, last⟩ := S
  · exact List.suffix_append t last
  · exact List.suffix_refl _

/-- What is inserted only makes the texts longer. -/
lemma Fills.longer {g : Piece → Piece} (hg : Fills g) (ps : List Piece) :
    firstText (joinTexts ps) <+: firstText (joinTexts (ps.map g)) ∧
      (joinTexts ps).2 <:+ (joinTexts (ps.map g)).2 ∧
      ((joinTexts ps).1 = [] → joinTexts (ps.map g) = joinTexts ps) ∧
      (FreeTexts (joinTexts (ps.map g)) → FreeTexts (joinTexts ps)) := by
  induction ps with
  | nil => exact ⟨List.prefix_refl _, List.suffix_refl _, fun _ => rfl, fun h => h⟩
  | cons p ps ih =>
      obtain ⟨hfirst, hlast, hnone, hfree⟩ := ih
      rw [List.map_cons]
      cases p with
      | text t =>
          rw [hg.text, joinTexts, joinTexts, firstText_prependText, firstText_prependText,
            freeTexts_prependText, freeTexts_prependText]
          have hsame : (prependText t (joinTexts ps)).1 = [] → (joinTexts ps).1 = [] := by
            generalize joinTexts ps = S
            obtain ⟨_ | ⟨s, segs⟩, last⟩ := S
            · exact fun h => h
            · exact fun h => absurd h (List.cons_ne_nil _ _)
          refine ⟨(List.prefix_append_right_inj t).mpr hfirst, ?_,
            fun h => congrArg (prependText t) (hnone (hsame h)), fun h => ⟨h.1.of_part
              ((List.prefix_append_right_inj t).mpr hfirst).isInfix, hfree h.2⟩⟩
          by_cases hnil : (joinTexts ps).1 = []
          · rw [hnone hnil]
          · have hkept : (prependText t (joinTexts ps)).2 = (joinTexts ps).2 := by
              generalize joinTexts ps = S at hnil
              obtain ⟨_ | ⟨s, segs⟩, last⟩ := S
              · exact absurd rfl hnil
              · rfl
            rw [hkept]
            exact hlast.trans (suffix_prependText t _)
      | placeholder name =>
          have hnil := free_nil placeholders_selfDelimiting
          rcases hg.placeholder name with hkept | ⟨t, htext⟩
          · rw [hkept]
            simp only [joinTexts]
            refine ⟨List.prefix_refl _, hlast, fun h => absurd h (List.cons_ne_nil _ _),
              fun h => ?_⟩
            obtain ⟨hsegs, hend⟩ := h
            have hrest := hfree ⟨(List.forall_mem_cons.mp hsegs).2, hend⟩
            exact ⟨List.forall_mem_cons.mpr ⟨hnil, hrest.1⟩, hrest.2⟩
          · rw [htext]
            simp only [joinTexts]
            refine ⟨List.nil_prefix, hlast.trans (suffix_prependText t _),
              fun h => absurd h (List.cons_ne_nil _ _), fun h => ?_⟩
            have hrest := hfree (freeTexts_prependText.mp h).2
            exact ⟨List.forall_mem_cons.mpr ⟨hnil, hrest.1⟩, hrest.2⟩

/-- Insert a text for a placeholder. -/
def substText (name value : Text) : Piece → Piece
  | .text t => .text t
  | .placeholder n => if n = name then .text value else .placeholder n

/-- Insert the texts of objects for their placeholders. -/
def insertObjects (objects : List (Text × Text)) : Piece → Piece
  | .text t => .text t
  | .placeholder n =>
      match objects.lookup n with
      | some value => .text value
      | none => .placeholder n

lemma insertObjects_fills (objs : List (Text × Text)) : Fills (insertObjects objs) where
  text _ := rfl
  placeholder name := by
    rw [insertObjects]
    split
    · exact .inr ⟨_, rfl⟩
    · exact .inl rfl

/-- Inserting all objects is inserting the first, and then the others. -/
lemma insertObjects_cons (name value : Text) (objs : List (Text × Text)) (p : Piece) :
    insertObjects ((name, value) :: objs) p = insertObjects objs (substText name value p) := by
  cases p with
  | text t => rfl
  | placeholder n =>
      rw [substText, insertObjects, List.lookup_cons]
      by_cases hn : n = name
      · rw [if_pos hn, hn, beq_self_eq_true]
        rfl
      · rw [if_neg hn, beq_false_of_ne hn]
        rfl

/-- One replacement, in front of a text that does not continue the last text. -/
lemma replace_pieces {name value x : Text} (hname : IsName name) (ps : List Piece)
    (hholes : ∀ n, Piece.placeholder n ∈ ps → IsName n) (hfree : FreeTexts (joinTexts ps))
    (hx : x = [] ∨ (joinTexts ps).2 = []) :
    Tokens.replace (placeholderSource name) value (ps.flatMap Piece.source ++ x) =
      (ps.map (substText name value)).flatMap Piece.source ++
        Tokens.replace (placeholderSource name) value x := by
  have hlast : Tokens.replace (placeholderSource name) value ((joinTexts ps).2 ++ x) =
      (joinTexts ps).2 ++ Tokens.replace (placeholderSource name) value x := by
    rcases hx with rfl | hnil
    · rw [List.append_nil, replace_nil, List.append_nil]
      exact replace_of_absent (hfree.2 name hname)
    · rw [hnil]
      rfl
  have hsubst : (ps.map (substText name value)).flatMap Piece.source =
      ps.flatMap (renderPiece fun n => if n = name then value else placeholderSource n) := by
    rw [List.flatMap_map]
    refine List.flatMap_congr fun p _ => ?_
    cases p with
    | text t => rfl
    | placeholder n =>
        simp only [substText, renderPiece]
        split_ifs <;> rfl
  rw [← source_joinTexts, List.append_assoc,
    replace_source placeholders_selfDelimiting hname _ _ fun s hs =>
      ⟨hfree.1 s hs name hname, hholes _ (mem_joinTexts hs)⟩,
    hlast, ← List.append_assoc, hsubst, ← renderPiece_joinTexts]

/-! ## Rendering all objects -/

/-- An object whose name no placeholder can have does not occur, in braces, when its turn comes. -/
def Inert : List (Text × Text) → Text → Prop
  | [], _ => True
  | (name, value) :: objs, template =>
      (¬ IsName name → ¬ placeholderSource name <:+: template) ∧
        Inert objs (Tokens.replace (placeholderSource name) value template)

lemma inert_of_names {objs : List (Text × Text)} (h : ∀ o ∈ objs, IsName o.1) :
    ∀ template, Inert objs template := by
  induction objs with
  | nil => exact fun _ => trivial
  | cons o objs ih =>
      obtain ⟨ho, hrest⟩ := List.forall_mem_cons.mp h
      exact fun template => ⟨fun hno => absurd ho hno, ih hrest _⟩

/-- **Rendering is insertion** when the wanted pieces show all placeholders of their text. -/
lemma renderObjects_eq (objs : List (Text × Text)) : ∀ (ps : List Piece) (x : Text),
    (∀ n, Piece.placeholder n ∈ ps → IsName n) →
    FreeTexts (joinTexts (ps.map (insertObjects objs))) →
    (x = [] ∨ (joinTexts (ps.map (insertObjects objs))).2 = []) →
    Inert objs (ps.flatMap Piece.source ++ x) →
      renderObjects objs (ps.flatMap Piece.source ++ x) =
        (ps.map (insertObjects objs)).flatMap Piece.source ++ renderObjects objs x := by
  induction objs with
  | nil =>
      intro ps x _ _ _ _
      have hid : ps.map (insertObjects []) = ps := by
        refine (List.map_congr_left fun p _ => ?_).trans (List.map_id ps)
        cases p <;> rfl
      rw [hid]
      rfl
  | cons o objs ih =>
      obtain ⟨name, value⟩ := o
      intro ps x hholes hfree hx hinert
      have hmap : ps.map (insertObjects ((name, value) :: objs)) =
          (ps.map (substText name value)).map (insertObjects objs) := by
        rw [List.map_map]
        exact List.map_congr_left fun p _ => insertObjects_cons name value objs p
      obtain ⟨-, hlast, -, hpull⟩ := (insertObjects_fills ((name, value) :: objs)).longer ps
      have hholes' : ∀ n, Piece.placeholder n ∈ ps.map (substText name value) → IsName n := by
        intro n hn
        obtain ⟨p, hp, he⟩ := List.mem_map.mp hn
        cases p with
        | text t => cases he
        | placeholder m =>
            rw [substText] at he
            split_ifs at he
            obtain rfl := Piece.placeholder.inj he
            exact hholes m hp
      have hx' : x = [] ∨ (joinTexts ps).2 = [] := hx.imp_right fun hnil => by
        rw [hnil] at hlast
        exact List.suffix_nil.mp hlast
      have hstep : Tokens.replace (placeholderSource name) value (ps.flatMap Piece.source ++ x) =
          (ps.map (substText name value)).flatMap Piece.source ++
            Tokens.replace (placeholderSource name) value x := by
        by_cases hname : IsName name
        · exact replace_pieces hname ps hholes (hpull hfree) hx'
        · -- nothing is replaced, and no piece has this name
          have hno := hinert.1 hname
          have hxno : ¬ placeholderSource name <:+: x := fun h =>
            hno (h.trans (List.suffix_append _ x).isInfix)
          have hps : ps.map (substText name value) = ps := by
            refine (List.map_congr_left fun p hp => ?_).trans (List.map_id ps)
            cases p with
            | text t => rfl
            | placeholder n =>
                have hne : n ≠ name := fun he => hname (he ▸ hholes n hp)
                exact if_neg hne
          rw [replace_of_absent hno, replace_of_absent hxno, hps]
      have hinert' := hinert.2
      rw [hstep] at hinert'
      rw [hmap] at hfree hx ⊢
      have hrest := ih (ps.map (substText name value))
        (Tokens.replace (placeholderSource name) value x) hholes' hfree
        (hx.imp_left fun hnil => by rw [hnil, replace_nil]) hinert'
      exact (congrArg (renderObjects objs) hstep).trans hrest

/-! ## The wanted body -/

/-- A piece of a function body, without its number. -/
def FuncBodyPiece.piece : FuncBodyPiece → Piece
  | .constant _ text => .text text
  | .parameterLoc _ param => .placeholder param.name

lemma toTemplateStr_pieces (body : List FuncBodyPiece) :
    toTemplateStr body = (body.map FuncBodyPiece.piece).flatMap Piece.source := by
  rw [toTemplateStr, List.flatMap_map]
  refine List.flatMap_congr fun piece _ => ?_
  cases piece <;> rfl

/-- The segments of a body with its objects inserted. -/
def wanted (objs : List (Text × Text)) (body : List FuncBodyPiece) : List (Text × Text) × Text :=
  joinTexts ((body.map FuncBodyPiece.piece).map (insertObjects objs))

/-- The pieces that the server should find: the last text only when it is not pruned. -/
def wantedPieces (objs : List (Text × Text)) (f : SemanticFunction) : List Piece :=
  segmentPieces (wanted objs f.body).1 ++
    if f.metadata.removePureFill then [] else textPiece (wanted objs f.body).2

/-- A piece that is a text when the objects are inserted. -/
def becomesText (objs : List (Text × Text)) (p : Piece) : Bool :=
  match insertObjects objs p with
  | .text _ => true
  | .placeholder _ => false

/-- The template behind the last placeholder that stays one. -/
def tailTemplate (objs : List (Text × Text)) (body : List FuncBodyPiece) : Text :=
  ((body.map FuncBodyPiece.piece).rtakeWhile (becomesText objs)).flatMap Piece.source

/-- The wanted reading shows all placeholders: locations have names that placeholders can have, no
placeholder occurs in the texts, neither in the last one, or in what becomes of it when it is
pruned; and parameters with other names replace nothing. -/
structure LiteralObjects (objs : List (Text × Text)) (f : SemanticFunction) : Prop where
  locs : ∀ name, Piece.placeholder name ∈ f.body.map FuncBodyPiece.piece → IsName name
  texts : ∀ s ∈ (wanted objs f.body).1, Free IsName placeholderSource s.1
  last : Free IsName placeholderSource
    (if f.metadata.removePureFill then renderObjects objs (tailTemplate objs f.body)
      else (wanted objs f.body).2)
  inert : Inert objs (toTemplateStr f.body)

lemma joinTexts_concat_text (ps : List Piece) (t : Text) :
    joinTexts (ps ++ [.text t]) = ((joinTexts ps).1, (joinTexts ps).2 ++ t) := by
  induction ps with
  | nil => simp [joinTexts, prependText]
  | cons p ps ih =>
      cases p with
      | placeholder name => rw [List.cons_append, joinTexts, ih, joinTexts]
      | text u =>
          rw [List.cons_append, joinTexts, ih, joinTexts]
          generalize joinTexts ps = S
          obtain ⟨_ | ⟨s, segs⟩, last⟩ := S
          · simp [prependText]
          · rfl

lemma joinTexts_concat_placeholder (ps : List Piece) (name : Text) :
    joinTexts (ps ++ [.placeholder name]) =
      ((joinTexts ps).1 ++ [((joinTexts ps).2, name)], []) := by
  induction ps with
  | nil => rfl
  | cons p ps ih =>
      cases p with
      | placeholder n => rw [List.cons_append, joinTexts, ih, joinTexts, List.cons_append]
      | text u =>
          rw [List.cons_append, joinTexts, ih, joinTexts]
          generalize joinTexts ps = S
          obtain ⟨_ | ⟨s, segs⟩, last⟩ := S <;> rfl

/-- Up to the last placeholder that stays one there are all the segments, and no last text. -/
lemma joinTexts_kept (objs : List (Text × Text)) (ps : List Piece) :
    joinTexts ((ps.rdropWhile (becomesText objs)).map (insertObjects objs)) =
      ((joinTexts (ps.map (insertObjects objs))).1, []) := by
  induction ps using List.reverseRecOn with
  | nil => rfl
  | append_singleton ps p ih =>
      rw [List.map_append, List.map_singleton]
      cases hp : insertObjects objs p with
      | text t =>
          have hpos : becomesText objs p = true := by
            rw [becomesText, hp]
          rw [List.rdropWhile_concat_pos _ _ _ hpos, ih, joinTexts_concat_text]
      | placeholder name =>
          have hneg : ¬ becomesText objs p = true := by
            rw [becomesText, hp]
            exact Bool.false_ne_true
          rw [List.rdropWhile_concat_neg _ _ _ hneg, List.map_append, List.map_singleton, hp,
            joinTexts_concat_placeholder]

lemma renderObjects_nil (objs : List (Text × Text)) : renderObjects objs [] = [] := by
  induction objs with
  | nil => rfl
  | cons o objs ih => exact ih

/-- What is rendered: the wanted segments, and behind them the last text or what becomes of the
tail. -/
lemma renderObjects_body {objs : List (Text × Text)} {body : List FuncBodyPiece} (pruned : Bool)
    (hlocs : ∀ name, Piece.placeholder name ∈ body.map FuncBodyPiece.piece → IsName name)
    (htexts : ∀ s ∈ (wanted objs body).1, Free IsName placeholderSource s.1)
    (hlast : pruned = false → Free IsName placeholderSource (wanted objs body).2)
    (hinert : Inert objs (toTemplateStr body)) :
    renderObjects objs (toTemplateStr body) = source placeholderSource (wanted objs body).1 ++
      if pruned then renderObjects objs (tailTemplate objs body) else (wanted objs body).2 := by
  rw [toTemplateStr_pieces] at hinert ⊢
  unfold wanted at htexts hlast ⊢
  generalize hps : body.map FuncBodyPiece.piece = ps at hlocs htexts hlast hinert ⊢
  cases pruned with
  | false =>
      have hrender := renderObjects_eq objs ps [] hlocs ⟨htexts, hlast rfl⟩ (.inl rfl) (by
        rwa [List.append_nil])
      rw [List.append_nil, renderObjects_nil, List.append_nil] at hrender
      rw [hrender, if_neg Bool.false_ne_true, source_joinTexts]
  | true =>
      have hsplit : ps = ps.rdropWhile (becomesText objs) ++ ps.rtakeWhile (becomesText objs) :=
        (List.rdropWhile_append_rtakeWhile ..).symm
      have hkept := joinTexts_kept objs ps
      have hrender := renderObjects_eq objs (ps.rdropWhile (becomesText objs))
        ((ps.rtakeWhile (becomesText objs)).flatMap Piece.source)
        (fun n hn => hlocs n (List.rdropWhile_prefix _ _ |>.mem hn))
        (by
          rw [hkept]
          exact ⟨htexts, free_nil placeholders_selfDelimiting⟩)
        (.inr (by rw [hkept])) (by rwa [← List.flatMap_append, ← hsplit])
      have hsource := source_joinTexts
        ((ps.rdropWhile (becomesText objs)).map (insertObjects objs))
      rw [hkept, List.append_nil] at hsource
      rw [← List.flatMap_append, ← hsplit, ← hsource] at hrender
      rw [hrender, if_pos rfl, tailTemplate, hps]

/-! ## What the server finds -/

/-- The names of the segments are those of the placeholders. -/
lemma exists_mem_joinTexts {ps : List Piece} {name : Text} (h : Piece.placeholder name ∈ ps) :
    ∃ s ∈ (joinTexts ps).1, s.2 = name := by
  induction ps with
  | nil => exact absurd h List.not_mem_nil
  | cons p ps ih =>
      cases p with
      | placeholder n =>
          rcases List.mem_cons.mp h with he | h
          · exact ⟨_, List.mem_cons_self, (Piece.placeholder.inj he).symm⟩
          · obtain ⟨s, hs, hname⟩ := ih h
            exact ⟨s, List.mem_cons_of_mem _ hs, hname⟩
      | text t =>
          rcases List.mem_cons.mp h with he | h
          · cases he
          · obtain ⟨s, hs, hname⟩ := ih h
            rw [joinTexts]
            generalize joinTexts ps = S at hs
            obtain ⟨_ | ⟨s', segs⟩, last⟩ := S
            · exact absurd hs List.not_mem_nil
            · rcases List.mem_cons.mp hs with rfl | hs
              · exact ⟨_, List.mem_cons_self, hname⟩
              · exact ⟨s, List.mem_cons_of_mem _ hs, hname⟩

/-- Locations of a literal reading that stay placeholders have names that placeholders can have. -/
lemma LiteralObjects.clean {objs : List (Text × Text)} {f : SemanticFunction}
    (h : LiteralObjects objs f) : Clean IsName placeholderSource (wanted objs f.body).1 := by
  refine fun s hs => ⟨h.texts s hs, ?_⟩
  obtain ⟨p, hp, he⟩ := List.mem_map.mp (mem_joinTexts hs)
  cases p with
  | text t => cases he
  | placeholder n =>
      rw [insertObjects] at he
      split at he
      · cases he
      · obtain rfl := Piece.placeholder.inj he
        exact h.locs _ hp

/-- The template of a literal reading is parsed to the wanted pieces. -/
lemma LiteralObjects.parsed {objs : List (Text × Text)} {f : SemanticFunction}
    {payload : SemanticCallPayload} {requestId sessionId : ℕ} {req : ChunkedSemanticCallRequest}
    (h : LiteralObjects objs f)
    (htemplate : payload.template = some (renderObjects objs (toTemplateStr f.body)))
    (hmeta : payload.metadata = f.metadata)
    (hreq : ChunkedSemanticCallRequest.parseFromPayload requestId sessionId payload = .ok req) :
    req.HasPieces (wantedPieces objs f) := by
  have hlast := h.last
  have hrender := renderObjects_body f.metadata.removePureFill h.locs h.texts
    (fun hflag => by rwa [hflag, if_neg Bool.false_ne_true] at hlast) h.inert
  rw [hrender] at htemplate
  have hpieces := ChunkedSemanticCallRequest.parseFromPayload_pieces htemplate h.clean hlast hreq
  rw [hmeta] at hpieces
  unfold wantedPieces
  cases hflag : f.metadata.removePureFill with
  | true =>
      rw [hflag, if_pos rfl] at hpieces
      rwa [if_pos rfl]
  | false =>
      rw [hflag, if_neg Bool.false_ne_true, if_neg Bool.false_ne_true] at hpieces
      rwa [if_neg Bool.false_ne_true]

/-- Chunks tell their pieces. -/
lemma chunks_injective {ps qs : List Piece} (h : ps.mapIdx Piece.chunk = qs.mapIdx Piece.chunk) :
    ps = qs := by
  have hinj : ∀ i, Function.Injective (Piece.chunk i) := by
    intro i p q hpq
    cases p <;> cases q <;> cases hpq <;> rfl
  refine List.ext_getElem? fun i => ?_
  have hi := congrArg (fun l => l[i]?) h
  simp only [List.getElem?_mapIdx] at hi
  exact Option.map_injective (hinj i) hi

/-- What a lookup finds is an entry. -/
lemma mem_of_lookup {objs : List (Text × Text)} {name value : Text}
    (h : objs.lookup name = some value) : (name, value) ∈ objs := by
  obtain ⟨before, after, rfl, -⟩ := List.lookup_eq_some_iff.mp h
  exact List.mem_append_right _ List.mem_cons_self

/-- A template that is parsed to the wanted pieces has a literal reading, when placeholders can
have the names of the objects. -/
lemma literal_of_parsed {objs : List (Text × Text)} {f : SemanticFunction}
    {payload : SemanticCallPayload} {requestId sessionId : ℕ} {req : ChunkedSemanticCallRequest}
    (hnames : ∀ o ∈ objs, IsName o.1)
    (htemplate : payload.template = some (renderObjects objs (toTemplateStr f.body)))
    (hmeta : payload.metadata = f.metadata)
    (hreq : ChunkedSemanticCallRequest.parseFromPayload requestId sessionId payload = .ok req)
    (hpieces : req.HasPieces (wantedPieces objs f)) : LiteralObjects objs f := by
  obtain ⟨segs, last, hclean, hlast, hsource⟩ := exists_split placeholders_selfDelimiting
    (renderObjects objs (toTemplateStr f.body))
  rw [← hsource] at htemplate
  have hfound := ChunkedSemanticCallRequest.parseFromPayload_pieces htemplate hclean hlast hreq
  have heq := chunks_injective (hpieces.symm.trans hfound)
  rw [hmeta, wantedPieces] at heq
  have hsegs : (wanted objs f.body).1 = segs ∧
      (f.metadata.removePureFill = false → (wanted objs f.body).2 = last) := by
    cases hflag : f.metadata.removePureFill with
    | true =>
        rw [hflag, if_pos rfl, if_pos rfl] at heq
        have hjoin := congrArg joinTexts heq
        have hnil : textPiece [] = [] := rfl
        rw [← hnil, joinTexts_pieces, joinTexts_pieces] at hjoin
        exact ⟨(Prod.mk.inj hjoin).1, fun h => Bool.noConfusion h⟩
    | false =>
        rw [hflag, if_neg Bool.false_ne_true, if_neg Bool.false_ne_true] at heq
        have hjoin := congrArg joinTexts heq
        rw [joinTexts_pieces, joinTexts_pieces] at hjoin
        exact ⟨(Prod.mk.inj hjoin).1, fun _ => (Prod.mk.inj hjoin).2⟩
  have hlocs : ∀ name, Piece.placeholder name ∈ f.body.map FuncBodyPiece.piece → IsName name := by
    intro name hname
    cases hlookup : objs.lookup name with
    | some value => exact hnames _ (mem_of_lookup hlookup)
    | none =>
        have hstay : Piece.placeholder name ∈
            (f.body.map FuncBodyPiece.piece).map (insertObjects objs) :=
          List.mem_map.mpr ⟨_, hname, by simp only [insertObjects, hlookup]⟩
        obtain ⟨s, hs, rfl⟩ := exists_mem_joinTexts hstay
        exact (hclean s (hsegs.1 ▸ hs)).2
  have htexts : ∀ s ∈ (wanted objs f.body).1, Free IsName placeholderSource s.1 := fun s hs =>
    (hclean s (hsegs.1 ▸ hs)).1
  refine ⟨hlocs, htexts, ?_, inert_of_names hnames _⟩
  cases hflag : f.metadata.removePureFill with
  | true =>
      have hrender := renderObjects_body true hlocs htexts (fun h => Bool.noConfusion h)
        (inert_of_names hnames _)
      rw [← hsource, hsegs.1, if_pos rfl] at hrender
      rw [if_pos rfl, ← List.append_cancel_left hrender]
      exact hlast
  | false =>
      rw [if_neg Bool.false_ne_true, hsegs.2 hflag]
      exact hlast

/-- **Objects as literal text.**  The server parses the payload of a call to the pieces of the
function body with every object inserted, adjacent texts merged and the last one dropped when it is
pruned, if the parameters are accepted and the wanted reading shows all its placeholders; and only
then, when placeholders can have the names of the parameters that are given objects. -/
theorem objects_inserted (handler : Handler) (f : SemanticFunction) (args : List Argument)
    (kwargs : List (Text × Argument)) (call : BasicCall)
    (hcall : f.toBasicFunction.setBindings args kwargs = .ok call) (payload : SemanticCallPayload)
    (hpayload : f.toRequestPayload handler call.bindings = .ok payload)
    (requestId sessionId : ℕ) :
    let objs := objects call.bindings f.params
    let accepted := FreshOutputs f.toBasicFunction kwargs ∧
      ((sent call.bindings f.params).map Parameter.name).Nodup
    let inserted := ∃ req, ChunkedSemanticCallRequest.parseFromPayload requestId sessionId payload =
      .ok req ∧ req.HasPieces (wantedPieces objs f)
    (accepted ∧ LiteralObjects objs f → inserted) ∧
      ((∀ o ∈ objs, IsName o.1) → inserted → accepted ∧ LiteralObjects objs f) := by
  intro objs accepted inserted
  have hiff := semantic_accepted_iff hcall hpayload requestId sessionId
  obtain ⟨htemplate, hmeta, -⟩ := toRequestPayload_spec hpayload
  constructor
  · rintro ⟨haccepted, hliteral⟩
    obtain ⟨req, hreq⟩ := hiff.mpr haccepted
    exact ⟨req, hreq, hliteral.parsed htemplate hmeta hreq⟩
  · rintro hnames ⟨req, hreq, hpieces⟩
    exact ⟨hiff.mp ⟨req, hreq⟩, literal_of_parsed hnames htemplate hmeta hreq hpieces⟩

/-! ## An object that is a placeholder -/

/-- A function of one object and one output. -/
def showFunction : SemanticFunction where
  name := ['s', 'h', 'o', 'w']
  params := [⟨['x'], .inputPyobj, none⟩, ⟨['y'], .outputLoc, some ⟨[], 16⟩⟩]
  metadata := {}
  body := [.parameterLoc 0 ⟨['x'], .inputPyobj, none⟩, .constant 1 [' '],
    .parameterLoc 2 ⟨['y'], .outputLoc, some ⟨[], 16⟩⟩]

/-- A call with an object whose text is the placeholder of the output: the payload is built and the
server accepts it, but it finds the output twice, and no text of the object. -/
theorem object_read_as_placeholder : ∃ call payload,
    showFunction.setBindings [.object (.other ['{', '{', 'y', '}', '}'])] [] = .ok call ∧
    showFunction.toRequestPayload none call.bindings = .ok payload ∧
    (∃ req, ChunkedSemanticCallRequest.parseFromPayload 0 0 payload = .ok req ∧
      req.HasPieces [.placeholder ['y'], .text [' '], .placeholder ['y']]) ∧
    ¬ ∃ req, ChunkedSemanticCallRequest.parseFromPayload 0 0 payload = .ok req ∧
      req.HasPieces (wantedPieces (objects call.bindings showFunction.params) showFunction) := by
  refine ⟨_, _, rfl, rfl, ⟨_, rfl, rfl⟩, ?_⟩
  rintro ⟨req, hreq, hpieces⟩
  cases hreq
  unfold ChunkedSemanticCallRequest.HasPieces at hpieces
  exact absurd (congrArg List.length hpieces) (by decide)

/-- A text without opening braces has no placeholders. -/
lemma free_of_not_mem_brace {t : Text} (h : '{' ∉ t) : Free IsName placeholderSource t :=
  fun _ _ hi => h (hi.mem List.mem_cons_self)

/-- The same call with a number is parsed to the number and the output. -/
theorem objects_inserted_number : ∃ call payload,
    showFunction.setBindings [.object (.other ['1'])] [] = .ok call ∧
    showFunction.toRequestPayload none call.bindings = .ok payload ∧
    ∃ req, ChunkedSemanticCallRequest.parseFromPayload 0 0 payload = .ok req ∧
      req.HasPieces [.text ['1', ' '], .placeholder ['y']] := by
  have hfresh : FreshOutputs showFunction.toBasicFunction [] := fun _ _ _ hv =>
    absurd hv List.not_mem_nil
  have hx : IsName ['x'] := ⟨rfl, fun d hd => absurd hd List.not_mem_nil⟩
  have hy : IsName ['y'] := ⟨rfl, fun d hd => absurd hd List.not_mem_nil⟩
  have hliteral : LiteralObjects [(['x'], ['1'])] showFunction := by
    refine ⟨?_, ?_, ?_, inert_of_names (by simpa using hx) _⟩
    · intro name hname
      simp only [showFunction, FuncBodyPiece.piece, List.map_cons, List.map_nil, List.mem_cons,
        Piece.placeholder.injEq, reduceCtorEq, List.not_mem_nil, or_false, false_or] at hname
      rcases hname with rfl | rfl
      · exact hx
      · exact hy
    · intro s hs
      obtain rfl := List.mem_singleton.mp hs
      exact free_of_not_mem_brace (by decide)
    · exact free_of_not_mem_brace (by decide)
  have hinserted := objects_inserted none showFunction [.object (.other ['1'])] [] _ rfl _ rfl 0 0
  exact ⟨_, _, rfl, rfl, hinserted.1 ⟨⟨hfresh, by decide⟩, hliteral⟩⟩

end PFunc

end ParrotServe
