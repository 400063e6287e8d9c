import ParrotServe.Properties.Templates
import Mathlib.Data.List.Chain

/-!
# Canonical request bodies

`parse_from_payload` gives a template one body.  Its chunks are numbered by their index, no text is
empty or holds a placeholder, and two texts are never next to each other (`Canonical`): the
pieces of a template's segments have these properties, as a placeholder ends every segment.  The
chunks are the template up to the end of its last placeholder, and all of it when
`remove_pure_fill` is off.

`split_prefix_chunk` cuts the first text in two and renumbers what follows.  It may leave an empty
text, and it always leaves two texts side by side, but the numbers and the text of the body stay
right, however often it is called.

`parseFromPayload_canonical` is the result.
-/

namespace ParrotServe

open Tokens

/-! ## Numbers, and what makes a body canonical -/

/-- `pos_id`. -/
def BodyChunk.posId : BodyChunk → ℕ
  | .textChunk posId _ => posId
  | .placeholderChunk posId _ => posId

/-- A `TextChunk`. -/
def BodyChunk.IsText : BodyChunk → Prop
  | .textChunk _ _ => True
  | .placeholderChunk _ _ => False

/-- The number of a chunk is its index. -/
def Numbered (body : List BodyChunk) : Prop :=
  ∀ (i : ℕ) (chunk : BodyChunk), body[i]? = some chunk → chunk.posId = i

/-- A body as the parser builds it. -/
structure Canonical (body : List BodyChunk) : Prop where
  numbered : Numbered body
  nonempty : ∀ posId text, .textChunk posId text ∈ body → text ≠ []
  unmatched : ∀ posId text, .textChunk posId text ∈ body → finditer 0 0 text = []
  apart : body.IsChain fun c d => ¬ (c.IsText ∧ d.IsText)

/-- The end of the last placeholder of a template. -/
def placeholdersEnd (template : Text) : ℕ :=
  ((finditer 0 0 template).getLast?.map Prod.snd).getD 0

/-! ## Pieces -/

lemma Piece.posId_chunk (i : ℕ) (p : Piece) : (p.chunk i).posId = i := by
  cases p <;> rfl

/-- Pieces are numbered from zero. -/
lemma numbered_pieces (ps : List Piece) : Numbered (ps.mapIdx Piece.chunk) := by
  intro i chunk h
  rw [List.getElem?_mapIdx] at h
  obtain ⟨p, -, rfl⟩ := Option.map_eq_some_iff.mp h
  exact p.posId_chunk i

/-- The texts among the chunks are the texts among the pieces. -/
lemma text_mem_pieces {ps : List Piece} {posId : ℕ} {text : Text}
    (h : .textChunk posId text ∈ ps.mapIdx Piece.chunk) : .text text ∈ ps := by
  obtain ⟨i, hi, hchunk⟩ := List.mem_mapIdx.mp h
  have hp : ps[i] = .text text := by
    cases hpiece : ps[i] with
    | text t =>
        rw [hpiece] at hchunk
        obtain ⟨-, rfl⟩ := BodyChunk.textChunk.inj hchunk
        rfl
    | placeholder name =>
        rw [hpiece] at hchunk
        cases hchunk
  exact hp ▸ List.getElem_mem hi

/-- A text piece. -/
def Piece.IsText : Piece → Prop
  | .text _ => True
  | .placeholder _ => False

lemma Piece.isText_chunk (i : ℕ) (p : Piece) : (p.chunk i).IsText ↔ p.IsText := by
  cases p <;> rfl

/-- A text next to nothing, or in front of a placeholder. -/
lemma chain_textPiece (t : Text) {ps : List Piece}
    (hps : ps.IsChain fun p q => ¬ (p.IsText ∧ q.IsText)) (hhead : ∀ p ∈ ps.head?, ¬ p.IsText) :
    (textPiece t ++ ps).IsChain fun p q => ¬ (p.IsText ∧ q.IsText) := by
  unfold textPiece
  split_ifs with hne
  · rw [List.singleton_append, List.isChain_cons]
    exact ⟨fun q hq hboth => hhead q hq hboth.2, hps⟩
  · exact hps

/-- Every segment ends with a placeholder, so that no two texts meet. -/
lemma chain_segmentPieces (last : Text) (segs : List (Text × Text)) :
    (segmentPieces segs ++ textPiece last).IsChain fun p q => ¬ (p.IsText ∧ q.IsText) := by
  induction segs with
  | nil =>
      have h := chain_textPiece last List.isChain_nil (by simp)
      rwa [List.append_nil] at h
  | cons s segs ih =>
      rw [segmentPieces_cons, List.append_assoc, List.cons_append]
      refine chain_textPiece s.1 (List.isChain_cons.mpr ⟨fun q _ hboth => hboth.1, ih⟩) ?_
      rintro p hp
      obtain rfl := Option.some.inj hp
      exact id

/-- The texts among the pieces of clean segments. -/
lemma text_mem_segments {segs : List (Text × Text)} {last text : Text}
    (hclean : Clean IsName placeholderSource segs) (hlast : Free IsName placeholderSource last)
    (h : .text text ∈ segmentPieces segs ++ textPiece last) :
    text ≠ [] ∧ Free IsName placeholderSource text := by
  have hpiece : ∀ t, .text text ∈ textPiece t → text ≠ [] ∧ text = t := by
    intro t ht
    unfold textPiece at ht
    split_ifs at ht with hne
    · obtain rfl := Piece.text.inj (List.mem_singleton.mp ht)
      exact ⟨hne, rfl⟩
    · cases ht
  rcases List.mem_append.mp h with h | h
  · obtain ⟨s, hs, hmem⟩ := List.mem_flatMap.mp h
    rcases List.mem_append.mp hmem with hmem | hmem
    · obtain ⟨hne, rfl⟩ := hpiece _ hmem
      exact ⟨hne, (hclean s hs).1⟩
    · cases List.mem_singleton.mp hmem
  · obtain ⟨hne, rfl⟩ := hpiece _ h
    exact ⟨hne, hlast⟩

/-- The expression matches nothing in a text without placeholders. -/
lemma finditer_free {t : Text} (h : Free IsName placeholderSource t) : finditer 0 0 t = [] :=
  finditer_source h [] (List.forall_mem_nil _) 0

/-- Pieces of clean segments make a canonical body. -/
lemma canonical_pieces {segs : List (Text × Text)} {last : Text}
    (hclean : Clean IsName placeholderSource segs) (hlast : Free IsName placeholderSource last) :
    Canonical ((segmentPieces segs ++ textPiece last).mapIdx Piece.chunk) where
  numbered := numbered_pieces _
  nonempty posId text h := (text_mem_segments hclean hlast (text_mem_pieces h)).1
  unmatched posId text h :=
    finditer_free (text_mem_segments hclean hlast (text_mem_pieces h)).2
  apart := by
    have hpieces := chain_segmentPieces last segs
    rw [List.isChain_iff_getElem] at hpieces ⊢
    intro i hi hboth
    simp only [List.getElem_mapIdx, Piece.isText_chunk] at hboth
    exact hpieces i (by simpa using hi) hboth

/-- The spans of segments end with them. -/
lemma spans_end (segs : List (Text × Text)) : ∀ pos,
    ((spans pos segs).getLast?.map Prod.snd).getD pos =
      pos + (source placeholderSource segs).length := by
  induction segs with
  | nil => exact fun pos => rfl
  | cons s segs ih =>
      obtain ⟨t, name⟩ := s
      intro pos
      have hrest := ih (pos + t.length + (name.length + 4))
      rw [spans, List.getLast?_cons]
      simp only [Option.map_some, Option.getD_some, source_cons, List.length_append,
        length_placeholderSource]
      cases hlast : (spans (pos + t.length + (name.length + 4)) segs).getLast? with
      | none =>
          rw [hlast] at hrest
          simp only [Option.map_none, Option.getD_none] at hrest ⊢
          omega
      | some span =>
          rw [hlast] at hrest
          simp only [Option.map_some, Option.getD_some] at hrest ⊢
          omega

/-- The segments of a template end with its last placeholder. -/
lemma placeholdersEnd_source {segs : List (Text × Text)} {last : Text}
    (hclean : Clean IsName placeholderSource segs) (hlast : Free IsName placeholderSource last) :
    placeholdersEnd (source placeholderSource segs ++ last) =
      (source placeholderSource segs).length := by
  rw [placeholdersEnd, finditer_source hlast segs hclean, spans_end, Nat.zero_add]

/-! ## Splits -/

namespace ChunkedSemanticCallRequest

variable {req req' : ChunkedSemanticCallRequest}

/-- An accepted split cuts the first text in two. -/
lemma splitPrefixChunk_body {splitPos : ℤ} (h : req.splitPrefixChunk splitPos = .ok req') :
    ∃ posId first second following, req.body = .textChunk posId (first ++ second) :: following ∧
      req'.body = .textChunk posId first :: .textChunk 1 second ::
        following.map BodyChunk.incrPosId := by
  unfold splitPrefixChunk at h
  split at h
  · cases h
  · cases h
  · rename_i posId prefixText following hbody
    split_ifs at h with hpos
    obtain rfl := Except.ok.inj h
    refine ⟨posId, prefixText.take splitPos.toNat, prefixText.drop splitPos.toNat, following,
      ?_, rfl⟩
    rw [List.take_append_drop, hbody]

lemma splitPrefixChunk_numbered {splitPos : ℤ} (hnum : Numbered req.body)
    (h : req.splitPrefixChunk splitPos = .ok req') : Numbered req'.body := by
  obtain ⟨posId, first, second, following, hbody, hbody'⟩ := splitPrefixChunk_body h
  rw [hbody] at hnum
  rw [hbody']
  intro i chunk hchunk
  rcases i with - | i
  · obtain rfl := Option.some.inj hchunk
    exact hnum 0 (.textChunk posId (first ++ second)) rfl
  · rcases i with - | i
    · obtain rfl := Option.some.inj hchunk
      rfl
    · -- a later chunk was one place further to the left
      simp only [List.getElem?_cons_succ, List.getElem?_map] at hchunk
      obtain ⟨old, hold, rfl⟩ := Option.map_eq_some_iff.mp hchunk
      have hposId := hnum (i + 1) old hold
      cases old <;> exact congrArg (· + 1) hposId

lemma source_incrPosId (chunk : BodyChunk) : chunk.incrPosId.source = chunk.source := by
  cases chunk <;> rfl

lemma splitPrefixChunk_source {splitPos : ℤ} (h : req.splitPrefixChunk splitPos = .ok req') :
    req'.body.flatMap BodyChunk.source = req.body.flatMap BodyChunk.source := by
  obtain ⟨posId, first, second, following, hbody, hbody'⟩ := splitPrefixChunk_body h
  have hfollowing : (following.map BodyChunk.incrPosId).flatMap BodyChunk.source =
      following.flatMap BodyChunk.source := by
    rw [List.flatMap_map]
    exact List.flatMap_congr fun chunk _ => source_incrPosId chunk
  rw [hbody, hbody', List.flatMap_cons, List.flatMap_cons, List.flatMap_cons, hfollowing,
    ← List.append_assoc]
  rfl

/-- Any number of accepted splits. -/
lemma splits_keep (splits : List ℤ) : ∀ {req req' : ChunkedSemanticCallRequest},
    splits.foldlM splitPrefixChunk req = .ok req' → Numbered req.body →
      Numbered req'.body ∧
        req'.body.flatMap BodyChunk.source = req.body.flatMap BodyChunk.source := by
  induction splits with
  | nil =>
      intro req req' h hnum
      obtain rfl := Except.ok.inj h
      exact ⟨hnum, rfl⟩
  | cons splitPos splits ih =>
      intro req req' h hnum
      rw [List.foldlM_cons] at h
      cases hsplit : req.splitPrefixChunk splitPos with
      | error e =>
          rw [hsplit] at h
          cases h
      | ok between =>
          rw [hsplit] at h
          obtain ⟨hnum', hsource⟩ := ih h (splitPrefixChunk_numbered hnum hsplit)
          exact ⟨hnum', hsource.trans (splitPrefixChunk_source hsplit)⟩

/-! ## The result -/

/-- **Request bodies are canonical, and splits keep their numbers and their text.**  The body of a
template is numbered from zero, without empty or adjacent texts and without a placeholder in a
text.  It is the template up to the end of its last placeholder, or the whole template when
`remove_pure_fill` is off. -/
theorem parseFromPayload_canonical (requestId sessionId : ℕ) (payload : SemanticCallPayload)
    (template : Text) (htemplate : payload.template = some template)
    (req : ChunkedSemanticCallRequest)
    (h : parseFromPayload requestId sessionId payload = .ok req) :
    Canonical req.body ∧
      req.body.flatMap BodyChunk.source =
        (if payload.metadata.removePureFill then template.take (placeholdersEnd template)
          else template) ∧
      ∀ (splits : List ℤ) (req' : ChunkedSemanticCallRequest),
        splits.foldlM splitPrefixChunk req = .ok req' →
          Numbered req'.body ∧
            req'.body.flatMap BodyChunk.source = req.body.flatMap BodyChunk.source := by
  obtain ⟨segs, last, hclean, hlast, rfl⟩ := exists_split placeholders_selfDelimiting template
  have hpieces := parseFromPayload_pieces htemplate hclean hlast h
  have hsource := source_chunks (segmentPieces segs ++
    if payload.metadata.removePureFill then [] else textPiece last) 0
  rw [List.flatMap_append, source_segmentPieces] at hsource
  simp only [Nat.add_zero] at hsource
  rw [placeholdersEnd_source hclean hlast, List.take_left' rfl, hpieces, hsource]
  have hcanonical : Canonical req.body := by
    rw [hpieces]
    cases payload.metadata.removePureFill with
    | true => exact canonical_pieces hclean (free_nil placeholders_selfDelimiting)
    | false => exact canonical_pieces hclean hlast
  rw [hpieces] at hcanonical
  refine ⟨hcanonical, ?_, fun splits req' hsplits => ?_⟩
  · split_ifs
    · exact List.append_nil _
    · rw [source_textPiece]
  · have hkeep := splits_keep splits hsplits (hpieces ▸ hcanonical.numbered)
    rwa [hpieces, hsource] at hkeep

/-- A text is split, and split again at its very beginning; the text behind the last placeholder
is dropped. -/
theorem parseFromPayload_canonical_splits :
    let template : Text := ['i', 'n'] ++ placeholderSource ['a'] ++ placeholderSource ['b'] ++ ['.']
    let payload : SemanticCallPayload :=
      { template := some template
        parameters := some [{ name := some ['a'], isOutput := some false, value := some ['1'] },
          { name := some ['b'], isOutput := some true }] }
    let body : List BodyChunk :=
      [.textChunk 0 [], .textChunk 1 ['i'], .textChunk 2 ['n'], .placeholderChunk 3 ['a'],
        .placeholderChunk 4 ['b']]
    ∃ req req', parseFromPayload 0 0 payload = .ok req ∧
      [1, 0].foldlM splitPrefixChunk req = .ok req' ∧ req'.body = body ∧ Canonical req.body ∧
        Numbered body ∧ body.flatMap BodyChunk.source = template.take 12 := by
  intro template payload body
  let parameter (name : Text) (isOutput : Bool) (value : Option Text) :
      Text × SemanticFunctionParameter := (name, { name, isOutput, value })
  let req : ChunkedSemanticCallRequest :=
    { requestId := 0
      sessionId := 0
      metadata := {}
      body := [.textChunk 0 ['i', 'n'], .placeholderChunk 1 ['a'], .placeholderChunk 2 ['b']]
      parametersMap := [parameter ['a'] false (some ['1']), parameter ['b'] true none] }
  obtain ⟨hparsed, hsplits, hend⟩ : parseFromPayload 0 0 payload = .ok req ∧
      [1, 0].foldlM splitPrefixChunk req = .ok { req with body } ∧
        placeholdersEnd template = 12 := by decide +kernel
  obtain ⟨hcanonical, hsource, hkeep⟩ :=
    parseFromPayload_canonical 0 0 payload template rfl req hparsed
  obtain ⟨hnum, hbody⟩ := hkeep [1, 0] { req with body } hsplits
  refine ⟨req, { req with body }, hparsed, hsplits, rfl, hcanonical, hnum, hbody.trans ?_⟩
  rw [hsource, hend]
  rfl

end ChunkedSemanticCallRequest

end ParrotServe
