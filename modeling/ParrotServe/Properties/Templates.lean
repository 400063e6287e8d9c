import ParrotServe.Framework.Tokens
import ParrotServe.Properties.RequestBodies

/-!
# Templates

Placeholders are tokens that never overlap (`placeholders_selfDelimiting`): a name has no brace in
it, so that only a whole placeholder begins with two.  A template therefore has one reading, and
what the scan finds is read off its segments (`finditer_source`), from which `parseBody_pieces`
gives the chunks of a parsed request: the texts that are not empty and the placeholders, in order,
numbered from zero.
-/

namespace ParrotServe

open Tokens

/-! ## Placeholders are tokens -/

lemma IsName.nameChars {name : Text} (h : IsName name) : ∀ d ∈ name, isNameChar d = true := by
  cases name with
  | nil => exact h.elim
  | cons c cs =>
      refine List.forall_mem_cons.mpr ⟨?_, h.2⟩
      have hc := h.1
      simp only [isNameStart, isNameChar, Char.isAlphanum, Bool.or_eq_true] at hc ⊢
      exact hc.imp_left .inl

lemma brace_not_nameChar : isNameChar '{' = false ∧ isNameChar '}' = false := by decide

/-- A name and what follows it are told apart by the braces. -/
lemma IsName.takeWhile {name : Text} (h : IsName name) (x : Text) :
    (name ++ '}' :: x).takeWhile isNameChar = name := by
  rw [List.takeWhile_append_of_pos h.nameChars,
    List.takeWhile_cons_of_neg (by simp [brace_not_nameChar.2]), List.append_nil]

/-- Behind its first character no end of a placeholder begins with two opening braces. -/
lemma placeholder_suffix {m w y x : Text} (hm : IsName m)
    (hsplit : placeholderSource m = w ++ y) (hw : w ≠ []) : y ≠ '{' :: '{' :: x := by
  rintro rfl
  have hnot : '{' ∉ m ++ ['}', '}'] := by
    intro hd
    rcases List.mem_append.mp hd with hd | hd
    · have hchar := hm.nameChars _ hd
      rw [brace_not_nameChar.1] at hchar
      cases hchar
    · simp at hd
  obtain ⟨a, w, rfl⟩ := List.exists_cons_of_ne_nil hw
  have htail := (List.cons.inj hsplit).2
  cases w with
  | nil =>
      refine hnot ?_
      rw [(List.cons.inj htail).2]
      exact List.mem_cons_self
  | cons b w =>
      refine hnot ?_
      rw [(List.cons.inj htail).2]
      simp

/-- Occurrences of placeholders never overlap. -/
lemma placeholders_selfDelimiting : SelfDelimiting IsName placeholderSource where
  ne_nil n := List.cons_ne_nil _ _
  eq_of_prefix {m n} hm hn h := by
    simp only [placeholderSource, List.cons_prefix_cons, true_and] at h
    obtain ⟨x, hx⟩ := h
    have htake := congrArg (List.takeWhile isNameChar) hx
    rw [List.append_assoc, List.cons_append, hm.takeWhile, hn.takeWhile] at htake
    exact htake
  apart {m n w y} hm hn hsplit hw hy := by
    refine ⟨fun h => ?_, fun h => ?_⟩
    · -- a beginning of a placeholder is one opening brace, or has two of them
      obtain ⟨c, y, rfl⟩ := List.exists_cons_of_ne_nil hy
      obtain ⟨rfl, hrest⟩ := List.cons_prefix_cons.mp h
      cases y with
      | nil =>
          have hlast := congrArg List.getLast? hsplit
          have hend : placeholderSource m = '{' :: '{' :: (m ++ ['}']) ++ ['}'] := by
            simp [placeholderSource]
          rw [hend, List.getLast?_concat, List.getLast?_concat] at hlast
          exact absurd hlast (by decide)
      | cons d y =>
          obtain ⟨rfl, -⟩ := List.cons_prefix_cons.mp hrest
          exact placeholder_suffix hm hsplit hw rfl
    · obtain ⟨x, rfl⟩ := h
      exact placeholder_suffix hm hsplit hw rfl

/-! ## What the scan finds -/

/-- The expression matches a placeholder, whatever follows. -/
lemma matchLength_placeholder {name : Text} (h : IsName name) (x : Text) :
    matchLength (placeholderSource name ++ x) = some (name.length + 4) := by
  cases name with
  | nil => exact h.elim
  | cons c cs =>
      have hdrop : (cs ++ '}' :: '}' :: x).dropWhile isNameChar = '}' :: '}' :: x := by
        rw [List.dropWhile_append_of_pos h.2,
          List.dropWhile_cons_of_neg (by simp [brace_not_nameChar.2])]
      have htake : (cs ++ '}' :: '}' :: x).takeWhile isNameChar = cs := by
        rw [List.takeWhile_append_of_pos h.2,
          List.takeWhile_cons_of_neg (by simp [brace_not_nameChar.2]), List.append_nil]
      have hsplit :
          placeholderSource (c :: cs) ++ x = '{' :: '{' :: c :: (cs ++ '}' :: '}' :: x) := by
        simp [placeholderSource]
      rw [hsplit, matchLength, if_pos h.1, hdrop, htake]
      rfl

/-- It matches nothing where no placeholder begins. -/
lemma matchLength_eq_none {s : Text} (h : ∀ name, IsName name → ¬ placeholderSource name <+: s) :
    matchLength s = none := by
  cases hs : matchLength s with
  | none => rfl
  | some k =>
      obtain ⟨name, rest, hname, rfl, -⟩ := matchLength_eq_some hs
      exact absurd (List.prefix_append _ rest) (h name hname)

/-- The rest of a match is skipped. -/
lemma finditer_skip (u x : Text) : ∀ pos,
    finditer pos u.length (u ++ x) = finditer (pos + u.length) 0 x := by
  induction u with
  | nil => exact fun pos => rfl
  | cons c u ih =>
      intro pos
      rw [List.length_cons, List.cons_append, finditer, ih, Nat.add_right_comm, Nat.add_assoc]

/-- A text in which no placeholder begins is passed. -/
lemma finditer_append (x t : Text) : ∀ pos,
    (∀ u w, t = u ++ w → w ≠ [] → ∀ name, IsName name → ¬ placeholderSource name <+: w ++ x) →
      finditer pos 0 (t ++ x) = finditer (pos + t.length) 0 x := by
  induction t with
  | nil => exact fun pos _ => rfl
  | cons c t ih =>
      intro pos h
      have hhead : matchLength (c :: (t ++ x)) = none :=
        matchLength_eq_none (h [] (c :: t) rfl (List.cons_ne_nil c t))
      rw [List.cons_append, finditer, hhead]
      dsimp only
      rw [ih (pos + 1) fun u w ht => h (c :: u) w (by rw [ht, List.cons_append]),
        List.length_cons, Nat.add_right_comm, Nat.add_assoc]

/-- A placeholder is found. -/
lemma finditer_placeholder {name : Text} (h : IsName name) (x : Text) (pos : ℕ) :
    finditer pos 0 (placeholderSource name ++ x) =
      (pos, pos + (name.length + 4)) :: finditer (pos + (name.length + 4)) 0 x := by
  have hmatch := matchLength_placeholder h x
  have hsplit : placeholderSource name ++ x = '{' :: ('{' :: (name ++ ['}', '}']) ++ x) := rfl
  have hlen : ('{' :: (name ++ ['}', '}'])).length = name.length + 4 - 1 := by
    simp
  rw [hsplit] at hmatch ⊢
  rw [finditer, hmatch]
  dsimp only
  rw [← hlen, finditer_skip, hlen]
  congr 2
  omega

/-- The spans of the placeholders of segments. -/
def spans : ℕ → List (Text × Text) → List (ℕ × ℕ)
  | _, [] => []
  | pos, (t, name) :: segs =>
      let start := pos + t.length
      (start, start + (name.length + 4)) :: spans (start + (name.length + 4)) segs

/-- **What the scan finds** are the placeholders of the segments. -/
lemma finditer_source {last : Text} (hlast : Free IsName placeholderSource last)
    (segs : List (Text × Text)) : Clean IsName placeholderSource segs → ∀ pos,
      finditer pos 0 (source placeholderSource segs ++ last) = spans pos segs := by
  have hd := placeholders_selfDelimiting
  induction segs with
  | nil =>
      intro _ pos
      have hnone : finditer pos 0 (last ++ []) = finditer (pos + last.length) 0 [] :=
        finditer_append [] last pos fun u w ht _ name hname hpre => by
          rw [List.append_nil] at hpre
          exact hlast name hname (ht ▸ hpre.isInfix.trans (List.suffix_append u w).isInfix)
      rw [List.append_nil] at hnone
      rw [source_nil, List.nil_append, hnone]
      rfl
  | cons s segs ih =>
      intro hclean pos
      obtain ⟨t, name⟩ := s
      obtain ⟨⟨hfree, hname⟩, hrest⟩ := clean_cons.mp hclean
      rw [source_cons, List.append_assoc, List.append_assoc, finditer_append _ t pos fun u w ht hw
        m hm => hd.not_prefix_before hm hname hw fun hpre => hfree m hm
          (ht ▸ hpre.isInfix.trans (List.suffix_append u w).isInfix),
        finditer_placeholder hname, ih hrest]
      rfl

/-! ## The pieces of a template -/

/-- A piece of a template: a text, or a placeholder by its name. -/
inductive Piece
  | text (t : Text)
  | placeholder (name : Text)
  deriving DecidableEq, Repr

/-- A text as a piece, unless it is empty. -/
def textPiece (t : Text) : List Piece := if t ≠ [] then [.text t] else []

/-- The pieces of segments. -/
def segmentPieces (segs : List (Text × Text)) : List Piece :=
  segs.flatMap fun s => textPiece s.1 ++ [.placeholder s.2]

@[simp] lemma segmentPieces_nil : segmentPieces [] = [] := rfl

@[simp] lemma segmentPieces_cons (s : Text × Text) (segs : List (Text × Text)) :
    segmentPieces (s :: segs) = textPiece s.1 ++ (.placeholder s.2 :: segmentPieces segs) := by
  simp [segmentPieces]

@[simp] lemma segmentPieces_append (segs segs' : List (Text × Text)) :
    segmentPieces (segs ++ segs') = segmentPieces segs ++ segmentPieces segs' :=
  List.flatMap_append

/-- The chunk of a piece at a position. -/
def Piece.chunk (i : ℕ) : Piece → BodyChunk
  | .text t => .textChunk i t
  | .placeholder name => .placeholderChunk i name

/-- The text of a piece in its template. -/
def Piece.source : Piece → Text
  | .text t => t
  | .placeholder name => placeholderSource name

@[simp] lemma source_textPiece (t : Text) : (textPiece t).flatMap Piece.source = t := by
  unfold textPiece
  split_ifs with hne
  · rw [List.flatMap_singleton]
    rfl
  · exact (not_not.mp hne).symm

/-- The source of the pieces of segments is that of the segments. -/
lemma source_segmentPieces (segs : List (Text × Text)) :
    (segmentPieces segs).flatMap Piece.source = source placeholderSource segs := by
  induction segs with
  | nil => rfl
  | cons s segs ih =>
      rw [segmentPieces_cons, source_cons, List.flatMap_append, source_textPiece,
        List.flatMap_cons, ih]
      rfl

/-- The chunks of pieces have their source, wherever the numbers begin. -/
lemma source_chunks (ps : List Piece) : ∀ k,
    (ps.mapIdx fun i => Piece.chunk (i + k)).flatMap BodyChunk.source =
      ps.flatMap Piece.source := by
  induction ps with
  | nil => exact fun _ => rfl
  | cons p ps ih =>
      intro k
      have hrest := ih (k + 1)
      rw [List.mapIdx_cons, List.flatMap_cons, List.flatMap_cons]
      simp only [Nat.add_right_comm _ 1 k, Nat.add_assoc] at hrest ⊢
      rw [hrest]
      cases p <;> rfl

/-- `text[start:stop]` of a middle part. -/
lemma slice_middle (a t b : Text) : slice (a ++ (t ++ b)) a.length (a.length + t.length) = t := by
  rw [slice, ← List.append_assoc, ← List.length_append, List.take_left' rfl, List.drop_left' rfl]

namespace ChunkedSemanticCallRequest

variable {req : ChunkedSemanticCallRequest} {ps : List Piece} {template : Text}

/-- The body consists of these pieces, numbered from zero. -/
def HasPieces (req : ChunkedSemanticCallRequest) (ps : List Piece) : Prop :=
  req.body = ps.mapIdx Piece.chunk

lemma HasPieces.pushText (h : req.HasPieces ps) (t : Text) :
    (req.pushText t).HasPieces (ps ++ textPiece t) := by
  unfold ChunkedSemanticCallRequest.pushText textPiece
  split_ifs with hne
  · rw [HasPieces, pushChunk, h, List.mapIdx_concat, List.length_mapIdx]
    rfl
  · rwa [List.append_nil]

lemma HasPieces.pushPlaceholder (h : req.HasPieces ps) (name : Text) :
    (req.pushChunk .placeholderChunk name).HasPieces (ps ++ [.placeholder name]) := by
  rw [HasPieces, pushChunk, h, List.mapIdx_concat, List.length_mapIdx]
  rfl

/-- The loop over the spans of segments. -/
lemma parseMatches_spans (last : Text) (segs : List (Text × Text)) :
    ∀ {req : ChunkedSemanticCallRequest} {ps : List Piece} (before : Text), req.HasPieces ps →
      let template := before ++ (source placeholderSource segs ++ last)
      let result := parseMatches template before.length (spans before.length segs) req
      result.1.HasPieces (ps ++ segmentPieces segs) ∧ template.drop result.2 = last := by
  induction segs with
  | nil =>
      intro req ps before h
      refine ⟨by rwa [segmentPieces_nil, List.append_nil], ?_⟩
      exact List.drop_left' rfl
  | cons s segs ih =>
      obtain ⟨t, name⟩ := s
      intro req ps before h
      have hsplit : before ++ (source placeholderSource ((t, name) :: segs) ++ last) =
          before ++ t ++ placeholderSource name ++ (source placeholderSource segs ++ last) := by
        simp only [source_cons, List.append_assoc]
      have htext : slice (before ++ t ++ placeholderSource name ++
          (source placeholderSource segs ++ last)) before.length (before.length + t.length) =
            t := by
        rw [List.append_assoc, List.append_assoc]
        exact slice_middle before t _
      have hname := slice_placeholder (before ++ t) name (source placeholderSource segs ++ last)
      have hrest := ih (before ++ t ++ placeholderSource name)
        ((h.pushText t).pushPlaceholder name)
      rw [List.length_append, List.length_append, length_placeholderSource] at hrest
      rw [List.length_append] at hname
      have hps : ps ++ segmentPieces ((t, name) :: segs) =
          ps ++ textPiece t ++ [.placeholder name] ++ segmentPieces segs := by
        simp
      rw [hsplit, hps]
      simp only [spans, parseMatches, htext, hname]
      exact hrest

/-- **The pieces of a body** are those of the template's segments, and its last text when
`remove_pure_fill` is off. -/
lemma parseBody_pieces {segs : List (Text × Text)} {last : Text} (hbody : req.body = [])
    (hclean : Clean IsName placeholderSource segs) (hlast : Free IsName placeholderSource last) :
    (req.parseBody (source placeholderSource segs ++ last)).HasPieces
      (segmentPieces segs ++ if req.metadata.removePureFill then [] else textPiece last) := by
  have hreq : req.HasPieces [] := hbody
  obtain ⟨hpieces, hdrop⟩ := parseMatches_spans last segs [] hreq
  have hfound := finditer_source hlast segs hclean 0
  obtain ⟨hmeta, -⟩ := parseMatches_frame (source placeholderSource segs ++ last)
    (spans 0 segs) 0 req
  rw [List.nil_append, List.length_nil, List.nil_append] at hpieces
  rw [List.nil_append, List.length_nil] at hdrop
  unfold parseBody
  rw [hfound]
  generalize parseMatches (source placeholderSource segs ++ last) 0 (spans 0 segs) req = result
    at hpieces hdrop hmeta
  obtain ⟨parsed, lastPos⟩ := result
  dsimp only at hpieces hdrop hmeta ⊢
  rw [hmeta]
  cases req.metadata.removePureFill with
  | true => simpa using hpieces
  | false =>
      rw [hdrop]
      simpa using hpieces.pushText last

end ChunkedSemanticCallRequest

/-! ## Requests that the server accepts -/

/-- An accepted parameter keeps its name. -/
lemma construct_name {p : ParameterPayload} {parsed : SemanticFunctionParameter}
    (h : p.construct = .ok parsed) : p.name = some parsed.name := by
  unfold ParameterPayload.construct at h
  split at h
  · rename_i name isOutput hname _ _
    rw [hname]
    cases hpost : p.postInit isOutput with
    | error e =>
        rw [hpost] at h
        cases h
    | ok u =>
        rw [hpost] at h
        obtain rfl := Except.ok.inj h
        rfl
  · cases h

/-- A loop over parameters that refuses some by themselves, and a name that comes twice. -/
structure ParameterLoop {σ α β : Type} (construct : α → Except PyError β) (nameOf : α → Option Text)
    (keys : σ → List Text) (loop : σ → List α → Except PyError σ) : Prop where
  nil : ∀ s, loop s [] = .ok s
  refused : ∀ s p ps e, construct p = .error e → ∃ e', loop s (p :: ps) = .error e'
  named : ∀ p parsed, construct p = .ok parsed → ∃ name, nameOf p = some name
  twice : ∀ s p ps parsed name, construct p = .ok parsed → nameOf p = some name →
    name ∈ keys s → ∃ e, loop s (p :: ps) = .error e
  next : ∀ s p ps parsed name, construct p = .ok parsed → nameOf p = some name →
    name ∉ keys s → ∃ s', keys s' = keys s ++ [name] ∧ loop s (p :: ps) = loop s' ps

/-- Such a loop accepts parameters when each is accepted by itself, and no name comes twice. -/
lemma ParameterLoop.ok_iff {σ α β : Type} {construct : α → Except PyError β}
    {nameOf : α → Option Text} {keys : σ → List Text} {loop : σ → List α → Except PyError σ}
    (h : ParameterLoop construct nameOf keys loop) (ps : List α) :
    ∀ s, (∃ s', loop s ps = .ok s') ↔ (∀ p ∈ ps, ∃ parsed, construct p = .ok parsed) ∧
      (ps.map nameOf).Nodup ∧ ∀ p ∈ ps, ∀ name ∈ keys s, nameOf p ≠ some name := by
  have hrefuse : ∀ {s : σ} {ps : List α}, (∃ e, loop s ps = .error e) →
      ¬ ∃ s', loop s ps = .ok s' := by
    rintro s ps ⟨e, he⟩ ⟨s', hs'⟩
    rw [he] at hs'
    cases hs'
  induction ps with
  | nil => exact fun s => ⟨fun _ => by simp, fun _ => ⟨s, h.nil s⟩⟩
  | cons p ps ih =>
      intro s
      rw [List.forall_mem_cons, List.map_cons, List.nodup_cons, List.forall_mem_cons]
      rcases hp : construct p with e | parsed
      · refine ⟨fun hok => absurd hok (hrefuse (h.refused s p ps e hp)), ?_⟩
        rintro ⟨⟨⟨parsed, hparsed⟩, -⟩, -⟩
        cases hparsed
      · obtain ⟨name, hname⟩ := h.named p parsed hp
        by_cases hdup : name ∈ keys s
        · exact ⟨fun hok => absurd hok (hrefuse (h.twice s p ps parsed name hp hname hdup)),
            fun hok => absurd hname (hok.2.2.1 _ hdup)⟩
        · obtain ⟨s', hkeys, hloop⟩ := h.next s p ps parsed name hp hname hdup
          rw [hloop, ih s', hkeys]
          simp only [List.mem_append, List.mem_singleton]
          constructor
          · rintro ⟨hok, hnodup, hdisj⟩
            refine ⟨⟨⟨parsed, rfl⟩, hok⟩, ⟨?_, hnodup⟩, ?_, ?_⟩
            · intro hmem
              obtain ⟨q, hq, hqname⟩ := List.mem_map.mp hmem
              exact hdisj q hq name (.inr rfl) (hqname.trans hname)
            · rintro other hmem he
              rw [hname] at he
              exact hdup (Option.some.inj he ▸ hmem)
            · exact fun q hq other hmem => hdisj q hq other (.inl hmem)
          · rintro ⟨⟨-, hok⟩, ⟨hnot, hnodup⟩, -, hdisj⟩
            refine ⟨hok, hnodup, fun q hq other hmem => ?_⟩
            rcases hmem with hmem | rfl
            · exact hdisj q hq other hmem
            · exact fun he => hnot (List.mem_map.mpr ⟨q, hq, he.trans hname.symm⟩)

/-- The loop over the parameters of a semantic request. -/
lemma parseParameters_loop : ParameterLoop ParameterPayload.construct ParameterPayload.name
    (fun req : ChunkedSemanticCallRequest => req.parametersMap.map Prod.fst)
    ChunkedSemanticCallRequest.parseParameters where
  nil _ := rfl
  refused req p ps e hp :=
    ⟨coreUserError e, by rw [ChunkedSemanticCallRequest.parseParameters, hp]⟩
  named p parsed hp := ⟨parsed.name, construct_name hp⟩
  twice req p ps parsed name hp hname hdup := by
    obtain rfl := Option.some.inj ((construct_name hp).symm.trans hname)
    refine ⟨.parrotAssert "Duplicate parameter name.", ?_⟩
    rw [ChunkedSemanticCallRequest.parseParameters, hp]
    exact if_pos hdup
  next req p ps parsed name hp hname hdup := by
    obtain rfl := Option.some.inj ((construct_name hp).symm.trans hname)
    refine ⟨{ req with parametersMap := req.parametersMap ++ [(parsed.name, parsed)] }, ?_, ?_⟩
    · simp
    · rw [ChunkedSemanticCallRequest.parseParameters, hp]
      exact if_neg hdup

namespace ChunkedSemanticCallRequest

/-- A payload is parsed when its parameters are accepted. -/
lemma parseFromPayload_ok_iff {payload : SemanticCallPayload} {template : Text}
    {parameters : List ParameterPayload} (requestId sessionId : ℕ)
    (htemplate : payload.template = some template)
    (hparameters : payload.parameters = some parameters) :
    (∃ req, parseFromPayload requestId sessionId payload = .ok req) ↔
      (∀ p ∈ parameters, ∃ parsed, p.construct = .ok parsed) ∧
        (parameters.map ParameterPayload.name).Nodup := by
  have hiff := parseParameters_loop.ok_iff parameters
    ({ requestId, sessionId, metadata := payload.metadata } : ChunkedSemanticCallRequest)
  simp only [List.map_nil, List.not_mem_nil, false_imp_iff, implies_true, and_true] at hiff
  unfold parseFromPayload
  rw [htemplate, hparameters, ← hiff]
  dsimp only
  cases hparsed : ({ requestId, sessionId, metadata := payload.metadata } :
      ChunkedSemanticCallRequest).parseParameters parameters with
  | error e =>
      constructor
      · rintro ⟨req, h⟩
        cases h
      · rintro ⟨req, h⟩
        cases h
  | ok parsed => exact ⟨fun _ => ⟨parsed, rfl⟩, fun _ => ⟨_, rfl⟩⟩

/-- A parsed request has the pieces of its template. -/
lemma parseFromPayload_pieces {payload : SemanticCallPayload} {segs : List (Text × Text)}
    {last : Text} {requestId sessionId : ℕ} {req : ChunkedSemanticCallRequest}
    (htemplate : payload.template = some (source placeholderSource segs ++ last))
    (hclean : Clean IsName placeholderSource segs) (hlast : Free IsName placeholderSource last)
    (h : parseFromPayload requestId sessionId payload = .ok req) : req.HasPieces
      (segmentPieces segs ++ if payload.metadata.removePureFill then [] else textPiece last) := by
  unfold parseFromPayload at h
  rw [htemplate] at h
  split at h
  · cases h
  · cases h
  · rename_i template parameters ht _
    obtain rfl := Option.some.inj ht
    dsimp only at h
    split at h
    · cases h
    · rename_i parsed hparsed
      obtain rfl := Except.ok.inj h
      obtain ⟨hbody, hmeta⟩ := parseParameters_frame _ _ hparsed
      rw [← show parsed.metadata = payload.metadata from hmeta]
      exact parseBody_pieces hbody hclean hlast

end ChunkedSemanticCallRequest

end ParrotServe
