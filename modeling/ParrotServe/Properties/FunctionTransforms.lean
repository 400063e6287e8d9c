import ParrotServe.Model.PromptTransforms
import ParrotServe.Properties.TemplateRoundTrips

/-!
# Transforms of declared functions

A mutator looks up the parameter of every location by its name.  In a function that was parsed
from a template the location has the parameter of that name (`Declared`, `ofBodyStr_declared`), so
that a mutator which keeps the parameters keeps the locations (`transform_eq`).  A formatter then
maps the texts of the constants, `standardFormatter_eq`.
-/

namespace ParrotServe

namespace PFunc

/-! ## Declared functions -/

/-- Locations of parameters of this map. -/
def Declares (params : Dict Text Parameter) (body : List FuncBodyPiece) : Prop :=
  ∀ idx param, .parameterLoc idx param ∈ body → params.get? param.name = some param

/-- The locations of a function are its parameters, as `parse_func_body` asserts. -/
def SemanticFunction.Declared (f : SemanticFunction) : Prop :=
  Declares (paramsMap f.params) f.body

section Declares

variable {params : Dict Text Parameter} {body body' : List FuncBodyPiece}

lemma Declares.mono (h : Declares params body) (hsub : body' ⊆ body) : Declares params body' :=
  fun idx param hmem => h idx param (hsub hmem)

lemma Declares.pushConstant (h : Declares params body) (t : Text) :
    Declares params (pushToBody (.constant · t) body) := by
  intro idx param hmem
  rcases List.mem_append.mp hmem with hmem | hmem
  · exact h idx param hmem
  · simp at hmem

lemma Declares.pushLoc (h : Declares params body) {param : Parameter}
    (hparam : params.get? param.name = some param) :
    Declares params (pushToBody (.parameterLoc · param) body) := by
  intro idx q hmem
  rcases List.mem_append.mp hmem with hmem | hmem
  · exact h idx q hmem
  · obtain ⟨-, rfl⟩ := FuncBodyPiece.parameterLoc.inj (List.mem_singleton.mp hmem)
    exact hparam

/-- One location that is parsed. -/
lemma declares_pushLoc {st st' : ParseState} (h : Declares params st.ret) {t : Text}
    {param : Parameter} (hparam : params.get? param.name = some param)
    (hpush : (st.pushConstant t).pushLoc param = .ok st') : Declares params st'.ret := by
  have hconst : Declares params (st.pushConstant t).ret := by
    unfold ParseState.pushConstant
    split_ifs
    · exact h.pushConstant t
    · exact h
  rw [ParseState.pushLoc] at hpush
  split at hpush
  · split at hpush
    · cases hpush
    · obtain rfl := Except.ok.inj hpush
      exact hconst.pushLoc hparam
  · obtain rfl := Except.ok.inj hpush
    exact hconst.pushLoc hparam

/-- The loop of `parse_func_body`, when the map has the parameters under their names. -/
lemma declares_parseMatches {bodyStr : Text}
    (hnames : ∀ name param, params.get? name = some param → param.name = name)
    (found : List (ℕ × ℕ)) : ∀ {lastPos : ℕ} {st : ParseState} {r : ParseState × ℕ},
      parseMatches bodyStr params lastPos found st = .ok r → Declares params st.ret →
        Declares params r.1.ret := by
  induction found with
  | nil =>
      intro lastPos st r h hst
      obtain rfl := Except.ok.inj h
      exact hst
  | cons span found ih =>
      intro lastPos st r h hst
      obtain ⟨start, stop⟩ := span
      simp only [parseMatches] at h
      split at h
      · cases h
      · rename_i param hparam
        split at h
        · cases h
        · rename_i st' hpush
          rw [← hnames _ _ hparam] at hparam
          exact ih h (declares_pushLoc hst hparam hpush)

end Declares

/-- A function that is parsed from a template is declared. -/
theorem ofBodyStr_declared {name : Text} {params : List Parameter} {funcBodyStr : Text}
    {metadata : SemanticCallMetadata} {f : SemanticFunction}
    (h : SemanticFunction.ofBodyStr name params funcBodyStr metadata = .ok f) : f.Declared := by
  rw [SemanticFunction.ofBodyStr] at h
  split at h
  · cases h
  · rename_i body hparse
    obtain rfl := Except.ok.inj h
    rw [parseFuncBody] at hparse
    split at hparse
    · cases hparse
    · rename_i st lastPos hloop
      have hst : Declares (paramsMap params) st.ret :=
        declares_parseMatches (fun _ _ h => (paramsMap_name h).2) _ hloop
          (fun _ _ hmem => absurd hmem List.not_mem_nil)
      split_ifs at hparse <;> obtain rfl := Except.ok.inj hparse
      · exact hst.mono (List.take_subset _ _)
      · exact hst.pushConstant _
      · exact hst

/-! ## Mutators that keep the parameters -/

/-- A piece whose constant is visited. -/
def FuncMutator.mapPiece (m : FuncMutator) : FuncBodyPiece → FuncBodyPiece
  | .constant idx text => m.visitConstant idx text
  | .parameterLoc idx param => .parameterLoc idx param

lemma FuncMutator.visitBody_eq (m : FuncMutator) {remap : Dict Text Parameter}
    (body : List FuncBodyPiece) : ∀ newBody, Declares remap body →
      m.visitBody remap body newBody = .ok (newBody ++ body.map m.mapPiece) := by
  induction body with
  | nil => exact fun newBody _ => by rw [List.map_nil, List.append_nil]; rfl
  | cons piece body ih =>
      intro newBody h
      have hpiece : m.visitBodyPiece remap piece = .ok (m.mapPiece piece) := by
        cases piece with
        | constant idx text => rfl
        | parameterLoc idx param =>
            rw [FuncMutator.visitBodyPiece, FuncMutator.visitParamLoc,
              h idx param List.mem_cons_self]
            rfl
      rw [FuncMutator.visitBody, hpiece]
      simp only
      rw [ih _ (h.mono (List.subset_cons_self _ _)), List.map_cons, List.append_assoc]
      rfl

/-- A mutator that keeps the parameters of a declared function. -/
lemma FuncMutator.transform_eq (m : FuncMutator) (hm : m.visitParameter = id)
    {f : SemanticFunction} (hf : f.Declared) :
    m.transform f = m.visitFunc { f with body := f.body.map m.mapPiece } := by
  have hremap : m.paramRemap f.params = paramsMap f.params := by
    rw [FuncMutator.paramRemap, hm]
    rfl
  rw [FuncMutator.transform, hremap, m.visitBody_eq f.body [] hf, hm]
  simp

/-! ## Formatters -/

/-- A piece with another text. -/
def FuncBodyPiece.mapText (h : Text → Text) : FuncBodyPiece → FuncBodyPiece
  | .constant idx text => .constant idx (h text)
  | .parameterLoc idx param => .parameterLoc idx param

/-- A function with other texts in its constants. -/
def SemanticFunction.mapText (h : Text → Text) (f : SemanticFunction) : SemanticFunction :=
  { f with body := f.body.map (FuncBodyPiece.mapText h) }

lemma mem_mapText_loc {h : Text → Text} {body : List FuncBodyPiece} {idx : ℕ} {param : Parameter} :
    .parameterLoc idx param ∈ body.map (FuncBodyPiece.mapText h) ↔
      .parameterLoc idx param ∈ body := by
  rw [List.mem_map]
  constructor
  · rintro ⟨piece, hpiece, heq⟩
    cases piece with
    | constant idx text => cases heq
    | parameterLoc idx param => exact heq ▸ hpiece
  · exact fun hmem => ⟨_, hmem, rfl⟩

lemma mem_mapText_constant {h : Text → Text} {body : List FuncBodyPiece} {idx : ℕ} {text : Text} :
    .constant idx text ∈ body.map (FuncBodyPiece.mapText h) ↔
      ∃ source, .constant idx source ∈ body ∧ text = h source := by
  rw [List.mem_map]
  constructor
  · rintro ⟨piece, hpiece, heq⟩
    cases piece with
    | constant idx source =>
        obtain ⟨rfl, rfl⟩ := FuncBodyPiece.constant.inj heq
        exact ⟨source, hpiece, rfl⟩
    | parameterLoc idx param => cases heq
  · rintro ⟨source, hmem, rfl⟩
    exact ⟨_, hmem, rfl⟩

lemma SemanticFunction.Declared.mapText {f : SemanticFunction} (hf : f.Declared)
    (h : Text → Text) : (f.mapText h).Declared :=
  fun idx param hmem => hf idx param (mem_mapText_loc.mp hmem)

lemma SemanticFunction.mapText_mapText (f : SemanticFunction) (h h' : Text → Text) :
    (f.mapText h).mapText h' = f.mapText fun t => h' (h t) := by
  simp only [SemanticFunction.mapText, List.map_map]
  congr 1
  refine List.map_congr_left fun piece _ => ?_
  cases piece <;> rfl

lemma SemanticFunction.mapText_eq_self {f : SemanticFunction} {h : Text → Text}
    (hkeep : ∀ idx text, .constant idx text ∈ f.body → h text = text) : f.mapText h = f := by
  have hbody : f.body.map (FuncBodyPiece.mapText h) = f.body := by
    refine (List.map_congr_left fun piece hmem => ?_).trans (List.map_id f.body)
    cases piece with
    | constant idx text => rw [FuncBodyPiece.mapText, hkeep idx text hmem, id]
    | parameterLoc idx param => rfl
  rw [SemanticFunction.mapText, hbody]

lemma promptFormatter_transform (pairs : List (Text × Text)) {f : SemanticFunction}
    (hf : f.Declared) :
    (promptFormatter pairs).transform f = .ok (f.mapText (formatText pairs)) := by
  have hpiece : (promptFormatter pairs).mapPiece = FuncBodyPiece.mapText (formatText pairs) := by
    funext piece
    cases piece <;> rfl
  rw [FuncMutator.transform_eq _ rfl hf, hpiece]
  rfl

/-- What `standard_formatter` does to a text. -/
def standardText (t : Text) : Text :=
  formatText (spaceCounts.map fun i => (List.replicate i ' ', [' ']))
    (formatText [(['\n'], [' '])] (formatText pyIndents t))

/-- On a declared function the formatter maps the texts. -/
theorem standardFormatter_eq {f : SemanticFunction} (hf : f.Declared) :
    standardFormatter f = .ok (f.mapText standardText) := by
  simp only [standardFormatter, sequential, pyIndentRemover, squashIntoOneLine, alwaysOneSpace,
    promptFormatter_transform _ hf, promptFormatter_transform _ (hf.mapText _),
    SemanticFunction.mapText_mapText]
  unfold standardText
  rfl

end PFunc

end ParrotServe
