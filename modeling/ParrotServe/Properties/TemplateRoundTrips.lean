import ParrotServe.Model.FrontendFunctions
import ParrotServe.Properties.Templates

/-!
# Templates between the frontend and the server

`parse_func_body` and `parse_from_payload` scan with the same expression and prune differently:
the frontend drops every piece after the last output location, the server the text after the last
placeholder.  What the frontend keeps is the body of a prefix of the segments of the template,
ending with a placeholder, so that its text, read again, has the same segments and nothing behind
them (`template_round_trip`).
-/

namespace ParrotServe

namespace PFunc

open Tokens

/-! ## Parameters -/

/-- The map of the parameters has them under their names. -/
lemma paramsMap_name {params : List Parameter} {name : Text} {param : Parameter}
    (h : (paramsMap params).get? name = some param) : param ∈ params ∧ param.name = name := by
  have hfold : ∀ (ps : List Parameter) (d : Dict Text Parameter),
      (∀ n p, d.get? n = some p → p ∈ params ∧ p.name = n) → (∀ p ∈ ps, p ∈ params) →
        ∀ n p, (ps.foldl (fun d p => d.set p.name p) d).get? n = some p →
          p ∈ params ∧ p.name = n := by
    intro ps
    induction ps with
    | nil => exact fun d hd _ => hd
    | cons q ps ih =>
        intro d hd hps
        refine ih _ (fun n p hp => ?_) fun p hp => hps p (List.mem_cons_of_mem _ hp)
        rw [Dict.get?_set] at hp
        split_ifs at hp with hn
        · obtain rfl := Option.some.inj hp
          exact ⟨hps q List.mem_cons_self, hn.symm⟩
        · exact hd n p hp
  exact hfold params Dict.empty (by simp) (fun p hp => hp) name param h

/-! ## Bodies as chunks -/

/-- A piece of a function body as the server would have it. -/
def FuncBodyPiece.chunk : FuncBodyPiece → BodyChunk
  | .constant idx text => .textChunk idx text
  | .parameterLoc idx param => .placeholderChunk idx param.name

/-- The body consists of these pieces, numbered from zero. -/
def HasPieces (body : List FuncBodyPiece) (ps : List Piece) : Prop :=
  body.map FuncBodyPiece.chunk = ps.mapIdx Piece.chunk

lemma HasPieces.length {body : List FuncBodyPiece} {ps : List Piece} (h : HasPieces body ps) :
    body.length = ps.length := by
  have hlen := congrArg List.length h
  rwa [List.length_map, List.length_mapIdx] at hlen

lemma HasPieces.pushConstant {body : List FuncBodyPiece} {ps : List Piece} (h : HasPieces body ps)
    (t : Text) : HasPieces (pushToBody (.constant · t) body) (ps ++ [.text t]) := by
  rw [HasPieces, pushToBody, List.map_append, h, List.mapIdx_concat, h.length]
  rfl

lemma HasPieces.pushLoc {body : List FuncBodyPiece} {ps : List Piece} (h : HasPieces body ps)
    (param : Parameter) :
    HasPieces (pushToBody (.parameterLoc · param) body) (ps ++ [.placeholder param.name]) := by
  rw [HasPieces, pushToBody, List.map_append, h, List.mapIdx_concat, h.length]
  rfl

/-- The first pieces of a body. -/
lemma HasPieces.take {body : List FuncBodyPiece} {ps qs : List Piece}
    (h : HasPieces body (ps ++ qs)) : HasPieces (body.take ps.length) ps := by
  rw [HasPieces, List.map_take, h, List.mapIdx_append, List.take_left' (List.length_mapIdx ..)]

/-- The template of a body is the source of its pieces. -/
lemma toTemplateStr_eq {body : List FuncBodyPiece} {ps : List Piece} (h : HasPieces body ps) :
    toTemplateStr body = ps.flatMap Piece.source := by
  have hbody : toTemplateStr body = (body.map FuncBodyPiece.chunk).flatMap BodyChunk.source := by
    rw [toTemplateStr, List.flatMap_map]
    refine List.flatMap_congr fun piece _ => ?_
    cases piece <;> rfl
  rw [hbody, h]
  exact source_chunks ps 0

/-! ## The loop of `parse_func_body` -/

/-- The state of the loop behind these segments: their pieces, and a prefix of them up to the last
output location. -/
structure Parsed (st : ParseState) (segs : List (Text × Text)) : Prop where
  ret : HasPieces st.ret (segmentPieces segs)
  kept : ∃ kept, kept <+: segs ∧
    (st.lastOutputLocIdx + 1).toNat = (segmentPieces kept).length

/-- One round of the loop. -/
lemma Parsed.push {st st' : ParseState} {segs : List (Text × Text)} (h : Parsed st segs) {t : Text}
    {param : Parameter} (hpush : (st.pushConstant t).pushLoc param = .ok st') :
    Parsed st' (segs ++ [(t, param.name)]) := by
  have hconst : HasPieces (st.pushConstant t).ret (segmentPieces segs ++ textPiece t) ∧
      (st.pushConstant t).lastOutputLocIdx = st.lastOutputLocIdx := by
    unfold ParseState.pushConstant textPiece
    split_ifs with hne
    · exact ⟨h.ret.pushConstant t, rfl⟩
    · rw [List.append_nil]
      exact ⟨h.ret, rfl⟩
  have hpieces : segmentPieces (segs ++ [(t, param.name)]) =
      segmentPieces segs ++ textPiece t ++ [.placeholder param.name] := by
    simp
  have hret := hconst.1.pushLoc param
  rw [← hpieces] at hret
  rw [ParseState.pushLoc] at hpush
  split at hpush
  · split at hpush
    · cases hpush
    · obtain rfl := Except.ok.inj hpush
      refine ⟨hret, _, List.prefix_refl _, ?_⟩
      simp only [Int.sub_add_cancel, Int.toNat_natCast, hret.length]
  · obtain rfl := Except.ok.inj hpush
    obtain ⟨kept, hkept, hlen⟩ := h.kept
    exact ⟨hret, kept, hkept.trans (List.prefix_append _ _), by rw [← hlen, hconst.2]⟩

/-- The whole loop, over the spans of segments. -/
lemma parseMatches_spans {bodyStr last : Text} {params : List Parameter}
    {st' : ParseState} {lastPos : ℕ} (segs : List (Text × Text)) :
    ∀ {st : ParseState} (before : Text) (done : List (Text × Text)), Parsed st done →
      bodyStr = before ++ (source placeholderSource segs ++ last) →
      parseMatches bodyStr (paramsMap params) before.length (spans before.length segs) st =
        .ok (st', lastPos) →
      Parsed st' (done ++ segs) ∧ lastPos + last.length = bodyStr.length ∧
        bodyStr.drop lastPos = last := by
  induction segs with
  | nil =>
      intro st before done h hbody hparse
      obtain ⟨rfl, rfl⟩ := Prod.mk.inj (Except.ok.inj hparse)
      rw [List.append_nil, hbody]
      exact ⟨h, by simp, List.drop_left' rfl⟩
  | cons s segs ih =>
      obtain ⟨t, name⟩ := s
      intro st before done h hbody hparse
      have hsplit : bodyStr =
          before ++ t ++ placeholderSource name ++ (source placeholderSource segs ++ last) := by
        rw [hbody]
        simp only [source_cons, List.append_assoc]
      have htext : slice bodyStr before.length (before.length + t.length) = t := by
        rw [hsplit, List.append_assoc, List.append_assoc]
        exact slice_middle before t _
      have hname : slice bodyStr (before.length + t.length + 2)
          (before.length + t.length + (name.length + 4) - 2) = name := by
        rw [hsplit, ← List.length_append]
        exact slice_placeholder (before ++ t) name _
      simp only [spans, parseMatches] at hparse
      rw [htext, hname] at hparse
      split at hparse
      · cases hparse
      · rename_i param hparam
        obtain ⟨-, rfl⟩ := paramsMap_name hparam
        split at hparse
        · cases hparse
        · rename_i st₁ hpush
          have hlen : (before ++ t ++ placeholderSource param.name).length =
              before.length + t.length + (param.name.length + 4) := by
            rw [List.length_append, List.length_append, length_placeholderSource]
          rw [← hlen] at hparse
          have hrest := ih _ _ (h.push hpush) hsplit hparse
          rwa [List.append_assoc, List.singleton_append] at hrest

/-- **The body of a function** is that of its template's segments, with the last text, or of a
prefix of the segments when `remove_pure_fill` is on. -/
lemma parseFuncBody_pieces {bodyStr : Text} {params : List Parameter} {removePureFill : Bool}
    {body : List FuncBodyPiece}
    (h : parseFuncBody bodyStr (paramsMap params) removePureFill = .ok body) :
    ∃ segs last, Clean IsName placeholderSource segs ∧ Free IsName placeholderSource last ∧
      source placeholderSource segs ++ last = bodyStr ∧
      if removePureFill then ∃ kept, kept <+: segs ∧ HasPieces body (segmentPieces kept)
      else HasPieces body (segmentPieces segs ++ textPiece last) := by
  obtain ⟨segs, last, hclean, hlast, hsource⟩ := exists_split placeholders_selfDelimiting bodyStr
  refine ⟨segs, last, hclean, hlast, hsource, ?_⟩
  have hfound : finditer 0 0 bodyStr = spans 0 segs := by
    rw [← hsource]
    exact finditer_source hlast segs hclean 0
  unfold parseFuncBody at h
  rw [hfound] at h
  split at h
  · cases h
  · rename_i st lastPos hparse
    have hstart : Parsed {} [] := ⟨rfl, [], List.prefix_refl _, rfl⟩
    obtain ⟨hparsed, hlen, hdrop⟩ := parseMatches_spans segs [] [] hstart hsource.symm hparse
    rw [List.nil_append] at hparsed
    cases removePureFill with
    | true =>
        rw [if_pos rfl] at h ⊢
        obtain rfl := Except.ok.inj h
        obtain ⟨kept, hkept, hk⟩ := hparsed.kept
        obtain ⟨rest, rfl⟩ := hkept
        have hret := hparsed.ret
        rw [segmentPieces_append] at hret
        exact ⟨kept, List.prefix_append _ _, hk ▸ hret.take⟩
    | false =>
        rw [if_neg Bool.false_ne_true] at h ⊢
        rw [hdrop] at h
        unfold textPiece
        split_ifs at h with hpos
        · obtain rfl := Except.ok.inj h
          have hne : last ≠ [] := by
            rintro rfl
            rw [List.length_nil] at hlen
            omega
          rw [if_pos hne]
          exact hparsed.ret.pushConstant last
        · obtain rfl := Except.ok.inj h
          have hnil : last = [] := List.length_eq_zero_iff.mp (by omega)
          rw [if_neg (not_not.mpr hnil), List.append_nil]
          exact hparsed.ret

/-! ## The round trip -/

/-- An entry of a payload is for a declared parameter, and the server accepts it. -/
def Describes (parameter : ParameterPayload) (param : Parameter) : Prop :=
  parameter.name = some param.name ∧ parameter.isOutput = some param.isOutput ∧
    ∃ parsed, parameter.construct = .ok parsed

/-- Entries for the declared parameters are accepted together. -/
lemma describes_accepted {parameters : List ParameterPayload} {params : List Parameter}
    (h : List.Forall₂ Describes parameters (paramsMap params).values) :
    (∀ p ∈ parameters, ∃ parsed, p.construct = .ok parsed) ∧
      (parameters.map ParameterPayload.name).Nodup := by
  have hnames : (paramsMap params).values.map Parameter.name = (paramsMap params).keys := by
    rw [Dict.values, Dict.keys, List.map_map]
    refine List.map_congr_left fun e he => ?_
    exact (paramsMap_name ((paramsMap params).mem_entries.mp he)).2
  generalize hvalues : (paramsMap params).values = values at h hnames
  have hboth : (∀ p ∈ parameters, ∃ parsed, p.construct = .ok parsed) ∧
      parameters.map ParameterPayload.name = (values.map Parameter.name).map some := by
    clear hvalues hnames
    induction h with
    | nil => simp
    | cons hd _ ih =>
        rw [List.forall_mem_cons, List.map_cons, List.map_cons, List.map_cons, hd.1, ih.2]
        exact ⟨⟨hd.2.2, ih.1⟩, rfl⟩
  refine ⟨hboth.1, ?_⟩
  rw [hboth.2, hnames]
  exact (paramsMap params).nodup_keys.map (Option.some_injective _)

/-- **Template text survives the round trip.**  The server parses the template of a function body,
with the same flag and entries for the same parameters, to the pieces of that body at the same
positions; and without pruning both bodies are the template in pieces. -/
theorem template_round_trip (bodyStr : Text) (params : List Parameter) (removePureFill : Bool)
    (body : List FuncBodyPiece)
    (hbody : parseFuncBody bodyStr (paramsMap params) removePureFill = .ok body)
    (requestId sessionId : ℕ) (payload : SemanticCallPayload)
    (htemplate : payload.template = some (toTemplateStr body))
    (hflag : payload.removePureFill = some removePureFill) (parameters : List ParameterPayload)
    (hparameters : payload.parameters = some parameters)
    (hdescribes : List.Forall₂ Describes parameters (paramsMap params).values) :
    ∃ req, ChunkedSemanticCallRequest.parseFromPayload requestId sessionId payload = .ok req ∧
      req.body = body.map FuncBodyPiece.chunk ∧
        (removePureFill = false → toTemplateStr body = bodyStr ∧
          req.body.flatMap BodyChunk.source = bodyStr) := by
  obtain ⟨segs, last, hclean, hlast, hsource, hpieces⟩ := parseFuncBody_pieces hbody
  obtain ⟨req, hok⟩ := (ChunkedSemanticCallRequest.parseFromPayload_ok_iff requestId sessionId
    htemplate hparameters).mpr (describes_accepted hdescribes)
  have hmeta : payload.metadata.removePureFill = removePureFill := by
    rw [SemanticCallPayload.metadata, hflag]
    rfl
  cases removePureFill with
  | true =>
      rw [if_pos rfl] at hpieces
      obtain ⟨kept, hkept, hpieces⟩ := hpieces
      have hstr : toTemplateStr body = source placeholderSource kept ++ [] := by
        rw [toTemplateStr_eq hpieces, source_segmentPieces, List.append_nil]
      have hbodies := ChunkedSemanticCallRequest.parseFromPayload_pieces
        (htemplate.trans (congrArg some hstr)) (hclean.sublist hkept.sublist)
        (free_nil placeholders_selfDelimiting) hok
      rw [hmeta, if_pos rfl, List.append_nil] at hbodies
      exact ⟨req, hok, hbodies.trans hpieces.symm, fun h => Bool.noConfusion h⟩
  | false =>
      rw [if_neg Bool.false_ne_true] at hpieces
      have hstr : toTemplateStr body = source placeholderSource segs ++ last := by
        rw [toTemplateStr_eq hpieces, List.flatMap_append, source_segmentPieces,
          source_textPiece]
      have hbodies := ChunkedSemanticCallRequest.parseFromPayload_pieces
        (htemplate.trans (congrArg some hstr)) hclean hlast hok
      rw [hmeta, if_neg Bool.false_ne_true] at hbodies
      have hsame : req.body = body.map FuncBodyPiece.chunk := hbodies.trans hpieces.symm
      refine ⟨req, hok, hsame, fun _ => ⟨hstr.trans hsource, ?_⟩⟩
      obtain ⟨rest, hrest, hall⟩ := ChunkedSemanticCallRequest.parseFromPayload_source hok
      have hnil := hall hflag
      rw [hnil, List.append_nil, htemplate, hstr, hsource] at hrest
      exact (Option.some.inj hrest).symm

/-- An opening brace in front of a placeholder stays text, and what follows the last output is
dropped on both sides. -/
theorem template_round_trip_braces :
    let params : List Parameter := [⟨['x'], .inputLoc, none⟩, ⟨['y'], .outputLoc, none⟩]
    let body : List FuncBodyPiece := [.constant 0 ['{'], .parameterLoc 1 ⟨['x'], .inputLoc, none⟩,
      .constant 2 [' '], .parameterLoc 3 ⟨['y'], .outputLoc, none⟩]
    let payload : SemanticCallPayload :=
      { template := some (toTemplateStr body)
        parameters := some [{ name := some ['x'], isOutput := some false, value := some ['1'] },
          { name := some ['y'], isOutput := some true }]
        removePureFill := some true }
    parseFuncBody ['{', '{', '{', 'x', '}', '}', ' ', '{', '{', 'y', '}', '}', '}', '{']
        (paramsMap params) true = .ok body ∧
      ∃ req, ChunkedSemanticCallRequest.parseFromPayload 0 0 payload = .ok req ∧
        req.body = body.map FuncBodyPiece.chunk := by
  intro params body payload
  have hbody : parseFuncBody ['{', '{', '{', 'x', '}', '}', ' ', '{', '{', 'y', '}', '}', '}', '{']
      (paramsMap params) true = .ok body := by decide +kernel
  obtain ⟨req, hok, hsame, -⟩ := template_round_trip _ params true body hbody 0 0 payload rfl rfl
    _ rfl (.cons ⟨rfl, rfl, _, rfl⟩ (.cons ⟨rfl, rfl, _, rfl⟩ .nil))
  exact ⟨hbody, req, hok, hsame⟩

end PFunc

end ParrotServe
