import ParrotServe.Properties.FunctionTransforms

/-!
# Conversations

A `ConversationTemplate` walks over a body with one flag and pushes constants between its pieces.
`transcript` is the walk with a mark for every piece that is pushed, and `visitPieces_eq` says that
the loop pushes exactly these.  The marks then show what a conversation is (`Conversation`): without
the inserted constants it is the body, an output location stands between the assistant's header and
the separator (`Framed`), and a header of the user opens each of the `rounds`, the groups of pieces
that end with an output location.

No property of the texts is used.  An inserted constant may well be equal to one of the body.
-/

namespace ParrotServe

namespace PFunc

/-! ## Rounds -/

/-- The groups of pieces up to an output location, and the pieces behind the last one. -/
def rounds : List FuncBodyPiece → List (List FuncBodyPiece)
  | [] => []
  | piece :: body =>
      if piece.isOutputLoc then [piece] :: rounds body
      else
        match rounds body with
        | [] => [[piece]]
        | round :: rest => (piece :: round) :: rest

/-- What the groups of a body are. -/
structure IsRounds (body : List FuncBodyPiece) (rs : List (List FuncBodyPiece)) : Prop where
  flatten : rs.flatten = body
  ne_nil : ∀ r ∈ rs, r ≠ []
  /-- Only the last piece of a group is an output location, -/
  inner : ∀ r ∈ rs, ∀ piece ∈ r.dropLast, piece.isOutputLoc = false
  /-- and it is one in all groups but the last. -/
  ends : ∀ r ∈ rs.dropLast, ∃ piece, r.getLast? = some piece ∧ piece.isOutputLoc = true

lemma isRounds (body : List FuncBodyPiece) : IsRounds body (rounds body) := by
  induction body with
  | nil => exact ⟨rfl, by simp [rounds], by simp [rounds], by simp [rounds]⟩
  | cons piece body ih =>
      rw [rounds]
      split_ifs with hout
      · refine ⟨by rw [List.flatten_cons, ih.flatten]; rfl,
          List.forall_mem_cons.mpr ⟨by simp, ih.ne_nil⟩,
          List.forall_mem_cons.mpr ⟨by simp, ih.inner⟩, fun r hr => ?_⟩
        cases hrs : rounds body with
        | nil => simp [hrs] at hr
        | cons r' rs =>
            rw [hrs, List.dropLast_cons_cons, ← hrs] at hr
            rcases List.mem_cons.mp hr with rfl | hr
            · exact ⟨piece, rfl, hout⟩
            · exact ih.ends r hr
      · cases hrs : rounds body with
        | nil =>
            have hnil : body = [] := by rw [← ih.flatten, hrs]; rfl
            exact ⟨by simp [hnil], by simp, by simp, by simp⟩
        | cons r rs =>
            rw [hrs] at ih
            obtain ⟨hne, hrest⟩ := List.forall_mem_cons.mp ih.ne_nil
            obtain ⟨hinner, hinners⟩ := List.forall_mem_cons.mp ih.inner
            refine ⟨by rw [List.flatten_cons, List.cons_append, ← List.flatten_cons, ih.flatten],
              List.forall_mem_cons.mpr ⟨by simp, hrest⟩,
              List.forall_mem_cons.mpr ⟨?_, hinners⟩, ?_⟩
            · rw [List.dropLast_cons_of_ne_nil hne]
              exact List.forall_mem_cons.mpr ⟨by simpa using hout, hinner⟩
            · intro r' hr'
              have hends := ih.ends
              cases rs with
              | nil => simp at hr'
              | cons r'' rs =>
                  rw [List.dropLast_cons_cons] at hr' hends
                  obtain ⟨⟨last, hlast, hlout⟩, hends⟩ := List.forall_mem_cons.mp hends
                  rcases List.mem_cons.mp hr' with rfl | hr'
                  · exact ⟨last, by rw [List.getLast?_cons, hlast]; rfl, hlout⟩
                  · exact hends r' hr'

/-! ## Marks -/

/-- Where a piece of a conversation comes from. -/
inductive Mark
  | system
  | user
  | assistant
  | separator
  | original (piece : FuncBodyPiece)
  deriving DecidableEq, Repr

/-- The piece of the body. -/
def Mark.original? : Mark → Option FuncBodyPiece
  | .original piece => some piece
  | _ => none

/-- A piece with what is pushed around it. -/
def around (piece : FuncBodyPiece) : List Mark :=
  if piece.isOutputLoc then [.assistant, .original piece, .separator] else [.original piece]

/-- One round of a conversation. -/
def roundMarks (round : List FuncBodyPiece) : List Mark := .user :: round.flatMap around

/-- What the loop pushes. -/
def transcript : Bool → List FuncBodyPiece → List Mark
  | _, [] => []
  | flag, piece :: body =>
      (if flag then [.user] else []) ++ (around piece ++ transcript piece.isOutputLoc body)

/-- A round begins with the user. -/
lemma transcript_true {body : List FuncBodyPiece} (h : body ≠ []) :
    transcript true body = .user :: transcript false body := by
  obtain ⟨piece, body, rfl⟩ := List.exists_cons_of_ne_nil h
  rfl

/-- The transcript, round by round. -/
lemma transcript_rounds (body : List FuncBodyPiece) :
    transcript true body = (rounds body).flatMap roundMarks := by
  induction body with
  | nil => rfl
  | cons piece body ih =>
      rw [transcript, rounds]
      cases hout : piece.isOutputLoc with
      | true =>
          rw [ih, if_pos rfl, if_pos rfl, List.flatMap_cons, roundMarks, List.flatMap_singleton]
          simp
      | false =>
          rw [if_neg Bool.false_ne_true]
          cases hrs : rounds body with
          | nil =>
              have hnil : body = [] := by
                rw [← (isRounds body).flatten, hrs]
                rfl
              rw [hnil]
              simp [transcript, roundMarks]
          | cons r rs =>
              have hne : body ≠ [] := by
                rintro rfl
                cases hrs
              rw [transcript_true hne, hrs, List.flatMap_cons, roundMarks, List.cons_append,
                List.cons.injEq, and_iff_right rfl] at ih
              rw [ih, List.flatMap_cons, roundMarks, List.flatMap_cons]
              simp

/-- Without what is pushed around them the pieces are left. -/
lemma transcript_originals (body : List FuncBodyPiece) : ∀ flag,
    (transcript flag body).filterMap Mark.original? = body := by
  induction body with
  | nil => exact fun _ => rfl
  | cons piece body ih =>
      intro flag
      have hflag : (if flag then [Mark.user] else []).filterMap Mark.original? = [] := by
        cases flag <;> rfl
      have haround : (around piece).filterMap Mark.original? = [piece] := by
        unfold around
        split_ifs <;> rfl
      rw [transcript, List.filterMap_append, List.filterMap_append, hflag, haround, ih]
      rfl

/-- Output locations stand between the assistant's header and the separator. -/
def Framed (marks : List Mark) : Prop :=
  ∀ a piece b, marks = a ++ .original piece :: b → piece.isOutputLoc = true →
    (∃ a', a = a' ++ [.assistant]) ∧ ∃ b', b = .separator :: b'

section Framed

variable {marks : List Mark}

lemma Framed.cons (h : Framed marks) {m : Mark}
    (hm : ∀ piece, m = .original piece → piece.isOutputLoc = false) : Framed (m :: marks) := by
  intro a piece b heq hout
  cases a with
  | nil =>
      rw [List.nil_append, List.cons.injEq] at heq
      rw [hm piece heq.1] at hout
      cases hout
  | cons x a =>
      rw [List.cons_append, List.cons.injEq] at heq
      obtain ⟨⟨a', rfl⟩, hb⟩ := h a piece b heq.2 hout
      exact ⟨⟨x :: a', rfl⟩, hb⟩

lemma Framed.output (h : Framed marks) (piece : FuncBodyPiece) :
    Framed (.assistant :: .original piece :: .separator :: marks) := by
  have hsep : Framed (.separator :: marks) := h.cons fun _ h => by cases h
  intro a piece' b heq hout
  rcases a with - | ⟨x, - | ⟨y, a⟩⟩
  · cases heq
  · simp only [List.cons_append, List.nil_append, List.cons.injEq] at heq
    exact ⟨⟨[], by rw [heq.1]; rfl⟩, marks, heq.2.2.symm⟩
  · simp only [List.cons_append, List.cons.injEq] at heq
    obtain ⟨⟨a', rfl⟩, hb⟩ := hsep a piece' b heq.2.2 hout
    exact ⟨⟨x :: y :: a', rfl⟩, hb⟩

lemma framed_transcript (body : List FuncBodyPiece) : ∀ flag, Framed (transcript flag body) := by
  induction body with
  | nil => exact fun _ a piece b heq => absurd heq (by simp [transcript])
  | cons piece body ih =>
      intro flag
      have haround : Framed (around piece ++ transcript piece.isOutputLoc body) := by
        unfold around
        split_ifs with hout
        · exact (ih _).output piece
        · refine (ih _).cons fun piece' heq => ?_
          rw [← Mark.original.inj heq]
          simpa using hout
      rw [transcript]
      cases flag with
      | true => exact haround.cons fun _ h => by cases h
      | false => exact haround

end Framed

/-! ## The loop -/

/-- `idx`. -/
def FuncBodyPiece.idx : FuncBodyPiece → ℕ
  | .constant idx _ => idx
  | .parameterLoc idx _ => idx

namespace ConversationTemplate

variable (self : ConversationTemplate) (text : Text)

/-- The header of a role, behind a separator. -/
def header (sep : Text) (i : ℕ) : Text := sep ++ (self.roles[i]?).getD [] ++ [':', ' ']

/-- What a mark stands for, when this is the formatted system message. -/
def markPiece (idx : ℕ) : Mark → FuncBodyPiece
  | .system => .constant idx (text ++ self.sep)
  | .user => .constant idx (self.header [] 0)
  | .assistant => .constant idx (self.header self.sep 1)
  | .separator => .constant idx self.separator
  | .original piece => piece.withIdx idx

/-- The body that a list of marks stands for. -/
def render (marks : List Mark) : List FuncBodyPiece := marks.mapIdx (self.markPiece text)

lemma push_render (marks : List Mark) (m : Mark) :
    pushToBody (self.markPiece text · m) (self.render text marks) =
      self.render text (marks ++ [m]) := by
  rw [pushToBody, render, render, List.mapIdx_concat, List.length_mapIdx]

variable {self text} {marks : List Mark} {newBody : List FuncBodyPiece}

lemma pushRole_eq {sep : Text} {i : ℕ} {body : List FuncBodyPiece}
    (h : self.pushRole sep i body = .ok newBody) :
    newBody = pushToBody (.constant · (self.header sep i)) body := by
  rw [pushRole] at h
  split at h
  · cases h
  · rename_i role hrole
    rw [header, hrole]
    exact (Except.ok.inj h).symm

lemma pushUser_eq {flag : Bool} (h : self.pushUser flag (self.render text marks) = .ok newBody) :
    newBody = self.render text (marks ++ if flag then [.user] else []) := by
  cases flag with
  | true => exact (pushRole_eq h).trans (self.push_render text _ .user)
  | false =>
      rw [if_neg Bool.false_ne_true, List.append_nil]
      exact (Except.ok.inj h).symm

/-- A piece with what is around it. -/
lemma pushAssistant_eq {piece : FuncBodyPiece}
    (h : self.pushAssistant piece.isOutputLoc (self.render text marks) = .ok newBody) :
    self.pushSeparator piece.isOutputLoc (pushToBody piece.withIdx newBody) =
      self.render text (marks ++ around piece) := by
  have hpiece : ∀ ms, pushToBody piece.withIdx (self.render text ms) =
      self.render text (ms ++ [.original piece]) := fun ms =>
    self.push_render text ms (.original piece)
  rw [around]
  cases hout : piece.isOutputLoc with
  | true =>
      rw [hout] at h
      obtain rfl : newBody = self.render text (marks ++ [Mark.assistant]) :=
        (pushRole_eq h).trans (self.push_render text _ .assistant)
      rw [hpiece, if_pos rfl]
      refine (self.push_render text _ .separator).trans ?_
      simp
  | false =>
      rw [hout] at h
      obtain rfl := Except.ok.inj h
      exact hpiece marks

/-- The loop pushes the transcript. -/
lemma visitPieces_eq (body : List FuncBodyPiece) : ∀ {flag marks newBody},
    self.visitPieces body flag (self.render text marks) = .ok newBody →
      newBody = self.render text (marks ++ transcript flag body) := by
  induction body with
  | nil =>
      intro flag marks newBody h
      rw [transcript, List.append_nil]
      exact (Except.ok.inj h).symm
  | cons piece body ih =>
      intro flag marks newBody h
      rw [visitPieces] at h
      split at h
      · cases h
      · rename_i b₁ huser
        obtain rfl := pushUser_eq huser
        split at h
        · cases h
        · rename_i b₂ hassistant
          rw [pushAssistant_eq hassistant] at h
          rw [ih h, transcript, List.append_assoc, List.append_assoc]

/-- With two roles the loop does not fail. -/
lemma exists_visitPieces (hroles : 2 ≤ self.roles.length) (body : List FuncBodyPiece) :
    ∀ flag start, ∃ newBody, self.visitPieces body flag start = .ok newBody := by
  have hrole : ∀ sep i b, i < 2 → ∃ b', self.pushRole sep i b = .ok b' := by
    intro sep i b hi
    rw [pushRole, List.getElem?_eq_getElem (by omega)]
    exact ⟨_, rfl⟩
  have huser : ∀ flag b, ∃ b', self.pushUser flag b = .ok b' := by
    intro flag b
    cases flag with
    | true => exact hrole [] 0 b (by omega)
    | false => exact ⟨b, rfl⟩
  have hassistant : ∀ flag b, ∃ b', self.pushAssistant flag b = .ok b' := by
    intro flag b
    cases flag with
    | true => exact hrole self.sep 1 b (by omega)
    | false => exact ⟨b, rfl⟩
  induction body with
  | nil => exact fun flag start => ⟨start, rfl⟩
  | cons piece body ih =>
      intro flag start
      obtain ⟨b₁, h₁⟩ := huser flag start
      obtain ⟨b₂, h₂⟩ := hassistant piece.isOutputLoc b₁
      rw [visitPieces, h₁]
      simp only [h₂]
      exact ih _ _

/-! ## Conversations -/

/-- The body of a conversation. -/
structure Conversation (self : ConversationTemplate) (text : Text)
    (body newBody : List FuncBodyPiece) : Prop where
  /-- Constants of the template are inserted into the body, a header of the user before each
  round. -/
  pieces : ∃ marks rs, newBody = self.render text marks ∧ marks.filterMap Mark.original? = body ∧
    IsRounds body rs ∧ marks = .system :: rs.flatMap roundMarks
  indices : newBody.map FuncBodyPiece.idx = List.range newBody.length
  /-- Each output location stands between the header of the assistant and the separator. -/
  outputs : ∀ a piece b, newBody = a ++ piece :: b → piece.isOutputLoc = true →
    (∃ a' i, a = a' ++ [.constant i (self.header self.sep 1)]) ∧
      ∃ i b', b = .constant i self.separator :: b'

lemma idx_markPiece (m : Mark) (idx : ℕ) : (self.markPiece text idx m).idx = idx := by
  cases m with
  | original piece => cases piece <;> rfl
  | _ => rfl

lemma original_of_isOutputLoc {m : Mark} {idx : ℕ}
    (h : (self.markPiece text idx m).isOutputLoc = true) :
    ∃ piece, m = .original piece ∧ piece.isOutputLoc = true := by
  cases m with
  | original piece =>
      refine ⟨piece, rfl, ?_⟩
      cases piece <;> exact h
  | _ => cases h

/-- What the marks of a body show. -/
lemma Framed.outputs (h : Framed marks) {a b : List FuncBodyPiece} {piece : FuncBodyPiece}
    (heq : self.render text marks = a ++ piece :: b) (hout : piece.isOutputLoc = true) :
    (∃ a' i, a = a' ++ [.constant i (self.header self.sep 1)]) ∧
      ∃ i b', b = .constant i self.separator :: b' := by
  obtain ⟨ma, mb, rfl, rfl, hrest⟩ := List.mapIdx_eq_append_iff.mp heq
  obtain ⟨m, mb, rfl, rfl, rfl⟩ := List.mapIdx_eq_cons_iff.mp hrest
  obtain ⟨source, rfl, hsource⟩ := original_of_isOutputLoc hout
  obtain ⟨⟨a, rfl⟩, b, rfl⟩ := h ma source mb rfl hsource
  exact ⟨⟨a.mapIdx (self.markPiece text), a.length, List.mapIdx_concat⟩, _, _, List.mapIdx_cons⟩

/-- The marks of the whole body. -/
lemma conversation_render (body : List FuncBodyPiece) :
    Conversation self text body (self.render text (.system :: transcript true body)) where
  pieces := ⟨_, rounds body, rfl, transcript_originals body true, isRounds body,
    congrArg _ (transcript_rounds body)⟩
  indices := by
    refine List.ext_getElem (by simp) fun i hi _ => ?_
    rw [List.getElem_map, List.getElem_range]
    simp only [render, List.getElem_mapIdx, idx_markPiece]
  outputs _ _ _ heq hout :=
    Framed.outputs ((framed_transcript body true).cons fun _ h => by cases h) heq hout

variable (self) (otherMarkup : Text → Except PyError Text)

/-- The default template is the message itself. -/
lemma systemText_default (h : self.systemTemplate = '{' :: systemField) :
    self.systemText otherMarkup = .ok self.systemMessage := by
  have hend : formatFrom otherMarkup self.systemMessage systemField.length systemField = .ok [] :=
    rfl
  rw [systemText, h, formatFrom, if_pos ⟨rfl, List.prefix_refl _⟩, hend]
  exact congrArg Except.ok (List.append_nil _)

/-- **A template makes a conversation of every function, with nothing but text around the
pieces.**  It needs a system message that can be formatted and two roles. -/
theorem transform_conversation (f : SemanticFunction) (hf : f.Declared) :
    (∀ text, self.systemText otherMarkup = .ok text → 2 ≤ self.roles.length →
      ∃ g, (self.mutator otherMarkup).transform f = .ok g) ∧
    ∀ g, (self.mutator otherMarkup).transform f = .ok g →
      g.toBasicFunction = f.toBasicFunction ∧ g.metadata = f.metadata ∧
      ∃ text, self.systemText otherMarkup = .ok text ∧ self.Conversation text f.body g.body := by
  have htransform : (self.mutator otherMarkup).transform f = self.visitFunc otherMarkup f := by
    have hpiece : (self.mutator otherMarkup).mapPiece = id := by
      funext piece
      cases piece <;> rfl
    rw [FuncMutator.transform_eq _ rfl hf, hpiece, List.map_id]
    rfl
  rw [htransform, visitFunc]
  constructor
  · intro text htext hroles
    obtain ⟨newBody, hloop⟩ := exists_visitPieces hroles f.body true
      (pushToBody (.constant · (text ++ self.sep)) [])
    rw [htext]
    simp only [hloop]
    exact ⟨_, rfl⟩
  · intro g hg
    split at hg
    · cases hg
    · rename_i text htext
      split at hg
      · cases hg
      · rename_i newBody hloop
        obtain rfl := Except.ok.inj hg
        refine ⟨rfl, rfl, text, htext, ?_⟩
        have hbody : newBody = self.render text ([.system] ++ transcript true f.body) :=
          visitPieces_eq f.body hloop
        rw [hbody]
        exact conversation_render f.body

/-- A prompt with two outputs. -/
def showAndTell : SemanticFunction where
  name := ['f']
  params := [{ name := ['a'], typ := .inputLoc }, { name := ['c'], typ := .outputLoc },
    { name := ['d'], typ := .outputLoc }]
  metadata := {}
  body := [.constant 0 "Show ".toList, .parameterLoc 1 { name := ['a'], typ := .inputLoc },
    .parameterLoc 2 { name := ['c'], typ := .outputLoc }, .constant 3 "And else. ".toList,
    .parameterLoc 4 { name := ['d'], typ := .outputLoc }]

/-- The Vicuna template. -/
theorem vicuna_conversation : ∃ g,
    (vicunaTemplate.mutator fun _ => .error (.keyError "")).transform showAndTell = .ok g ∧
      vicunaTemplate.Conversation vicunaTemplate.systemMessage showAndTell.body g.body := by
  have hdeclared : showAndTell.Declared := by
    intro idx param hmem
    simp only [showAndTell, List.mem_cons, reduceCtorEq, List.not_mem_nil, or_false, false_or,
      FuncBodyPiece.parameterLoc.injEq] at hmem
    rcases hmem with ⟨-, rfl⟩ | ⟨-, rfl⟩ | ⟨-, rfl⟩ <;> rfl
  have htext := vicunaTemplate.systemText_default (fun _ => .error (.keyError "")) rfl
  have h := vicunaTemplate.transform_conversation (fun _ => .error (.keyError ""))
    showAndTell hdeclared
  obtain ⟨g, hg⟩ := h.1 _ htext (by decide)
  obtain ⟨-, -, text, htext', hconv⟩ := h.2 g hg
  obtain rfl := Except.ok.inj (htext.symm.trans htext')
  exact ⟨g, hg, hconv⟩

end ConversationTemplate

end PFunc

end ParrotServe
