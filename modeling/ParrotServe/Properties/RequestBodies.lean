import ParrotServe.Model.RequestParser
import Mathlib.Data.List.TakeWhile
import Mathlib.Tactic.Linarith

/-!
# Request bodies

The body of a parsed request is its template in pieces.  `Found` says what the regular expression
finds: spans from left to right without overlap, each of them a placeholder.  `finditer_found` is
the scan, `parseMatches_source` the loop over the matches: the sources of the pieces so far are the
template up to `last_pos`.

`parseFromPayload_source` is the result: the sources of all pieces are the template up to the end
of its last placeholder, and beyond it when `remove_pure_fill` is off.
-/

namespace ParrotServe

/-! ## Matches -/

/-- A placeholder with its braces. -/
def placeholderSource (name : Text) : Text := '{' :: '{' :: (name ++ ['}', '}'])

@[simp] lemma length_placeholderSource (name : Text) :
    (placeholderSource name).length = name.length + 4 := by
  simp [placeholderSource]

/-- A name that a placeholder can have. -/
def IsName : Text → Prop
  | [] => False
  | c :: cs => isNameStart c = true ∧ ∀ d ∈ cs, isNameChar d = true

instance : ∀ name, Decidable (IsName name)
  | [] => inferInstanceAs (Decidable False)
  | c :: cs => inferInstanceAs (Decidable (isNameStart c = true ∧ ∀ d ∈ cs, isNameChar d = true))

/-- What the regular expression matches at the beginning of a text. -/
lemma matchLength_eq_some {s : Text} {n : ℕ} (h : matchLength s = some n) :
    ∃ name rest, IsName name ∧ s = placeholderSource name ++ rest ∧ n = name.length + 4 := by
  unfold matchLength at h
  split at h
  · rename_i c rest
    split at h
    · rename_i hstart
      split at h
      · rename_i tail htail
        have hrest : rest = rest.takeWhile isNameChar ++ '}' :: '}' :: tail := by
          rw [← htail, List.takeWhile_append_dropWhile]
        refine ⟨c :: rest.takeWhile isNameChar, tail, ⟨hstart, fun d hd => ?_⟩, ?_, ?_⟩
        · exact List.mem_takeWhile_imp hd
        · conv_lhs => rw [hrest]
          simp [placeholderSource]
        · simpa using (Option.some.inj h).symm
      · cases h
    · cases h
  · cases h

/-- Spans of a template from a position on, each of them a placeholder. -/
def Found (template : Text) : ℕ → List (ℕ × ℕ) → Prop
  | _, [] => True
  | pos, (start, stop) :: found =>
      pos ≤ start ∧ (∃ name before after, template = before ++ placeholderSource name ++ after ∧
        start = before.length ∧ stop = start + (name.length + 4)) ∧ Found template stop found

lemma Found.mono {template : Text} {pos pos' : ℕ} {found : List (ℕ × ℕ)}
    (h : Found template pos found) (hle : pos' ≤ pos) : Found template pos' found := by
  cases found with
  | nil => trivial
  | cons span found => exact ⟨hle.trans h.1, h.2⟩

/-- The scan from any place of a template, inside the last match or behind it. -/
lemma finditer_found (rest : Text) : ∀ (before : Text) (skip : ℕ),
    Found (before ++ rest) (before.length + skip) (finditer before.length skip rest) := by
  induction rest with
  | nil =>
      intro before skip
      cases skip <;> trivial
  | cons c rest ih =>
      intro before skip
      have hnext := ih (before ++ [c])
      rw [List.append_assoc, List.singleton_append, List.length_append, List.length_singleton]
        at hnext
      cases skip with
      | succ skip =>
          have h := hnext skip
          rw [Nat.add_right_comm] at h
          exact h
      | zero =>
          rw [finditer]
          cases hmatch : matchLength (c :: rest) with
          | none => exact (hnext 0).mono (Nat.le_succ _)
          | some n =>
              obtain ⟨name, after, -, hsplit, rfl⟩ := matchLength_eq_some hmatch
              refine ⟨le_rfl, ⟨name, before, after, by rw [hsplit, List.append_assoc], rfl, rfl⟩,
                (hnext (name.length + 3)).mono ?_⟩
              omega

/-! ## The loop over the matches -/

/-- What a piece is in the template. -/
def BodyChunk.source : BodyChunk → Text
  | .textChunk _ text => text
  | .placeholderChunk _ name => placeholderSource name

/-- The pieces so far are the template up to a position. -/
def ChunkedSemanticCallRequest.Covers (req : ChunkedSemanticCallRequest) (template : Text)
    (pos : ℕ) : Prop :=
  req.body.flatMap BodyChunk.source = template.take pos

lemma take_append_slice (template : Text) {start stop : ℕ} (h : start ≤ stop) :
    template.take start ++ slice template start stop = template.take stop := by
  have htake : template.take start = (template.take stop).take start := by
    rw [List.take_take, Nat.min_eq_left h]
  rw [htake, slice, List.take_append_drop]

/-- The name and the end of a placeholder. -/
lemma slice_placeholder (before name after : Text) :
    slice (before ++ placeholderSource name ++ after) (before.length + 2)
      (before.length + (name.length + 4) - 2) = name := by
  have hsplit : before ++ placeholderSource name ++ after =
      (before ++ ['{', '{'] ++ name) ++ ('}' :: '}' :: after) := by
    simp [placeholderSource]
  have hlen : before.length + (name.length + 4) - 2 = (before ++ ['{', '{'] ++ name).length := by
    simp
    omega
  rw [slice, hsplit, hlen, List.take_left' rfl, List.drop_left' (by simp)]

namespace ChunkedSemanticCallRequest

variable {req : ChunkedSemanticCallRequest} {template : Text}

@[simp] lemma source_pushText (text : Text) :
    (req.pushText text).body.flatMap BodyChunk.source =
      req.body.flatMap BodyChunk.source ++ text := by
  unfold pushText
  split_ifs with hne
  · rw [pushChunk, List.flatMap_append, List.flatMap_singleton]
    rfl
  · rw [not_not] at hne
    rw [hne, List.append_nil]

@[simp] lemma source_pushPlaceholder (name : Text) :
    (req.pushChunk .placeholderChunk name).body.flatMap BodyChunk.source =
      req.body.flatMap BodyChunk.source ++ placeholderSource name := by
  rw [pushChunk, List.flatMap_append, List.flatMap_singleton]
  rfl

lemma Covers.pushText {pos start : ℕ} (h : req.Covers template pos) (hle : pos ≤ start) :
    (req.pushText (slice template pos start)).Covers template start := by
  rw [Covers, source_pushText, h, take_append_slice template hle]

lemma Covers.pushPlaceholder {before name after : Text}
    (h : req.Covers (before ++ placeholderSource name ++ after) before.length) :
    (req.pushChunk .placeholderChunk (slice (before ++ placeholderSource name ++ after)
      (before.length + 2) (before.length + (name.length + 4) - 2))).Covers
        (before ++ placeholderSource name ++ after) (before.length + (name.length + 4)) := by
  have hlen : before.length + (name.length + 4) = (before ++ placeholderSource name).length := by
    rw [List.length_append, length_placeholderSource]
  rw [slice_placeholder, Covers, source_pushPlaceholder, h, hlen, List.take_left' rfl,
    List.append_assoc, List.take_left' rfl]

/-- The loop over the matches. -/
lemma parseMatches_source (found : List (ℕ × ℕ)) : ∀ {pos : ℕ} {req : ChunkedSemanticCallRequest},
    Found template pos found → req.Covers template pos →
      let result := parseMatches template pos found req
      result.1.Covers template result.2 := by
  induction found with
  | nil => exact fun _ hreq => hreq
  | cons span found ih =>
      obtain ⟨start, stop⟩ := span
      rintro pos req ⟨hle, ⟨name, before, after, rfl, rfl, rfl⟩, hfound⟩ hreq
      exact ih hfound (hreq.pushText hle).pushPlaceholder

/-- Parsing the body touches nothing else. -/
lemma parseMatches_frame (template : Text) (found : List (ℕ × ℕ)) :
    ∀ (pos : ℕ) (req : ChunkedSemanticCallRequest),
    let result := parseMatches template pos found req
    result.1.metadata = req.metadata ∧ result.1.parametersMap = req.parametersMap := by
  induction found with
  | nil => exact fun _ _ => ⟨rfl, rfl⟩
  | cons span found ih =>
      obtain ⟨start, stop⟩ := span
      intro pos req
      obtain ⟨hmeta, hparams⟩ := ih stop ((req.pushText (slice template pos start)).pushChunk
        .placeholderChunk (slice template (start + 2) (stop - 2)))
      refine ⟨hmeta.trans ?_, hparams.trans ?_⟩
      all_goals
        simp only [pushChunk, ChunkedSemanticCallRequest.pushText]
        split_ifs <;> rfl

/-- The pieces of a body are the template up to a position, and all of it when `remove_pure_fill`
is off. -/
lemma parseBody_source (template : Text) (hbody : req.body = []) : ∃ rest,
    (req.parseBody template).body.flatMap BodyChunk.source ++ rest = template ∧
      (req.metadata.removePureFill = false → rest = []) := by
  have hfound : Found template 0 (finditer 0 0 template) := finditer_found template [] 0
  have hreq : req.Covers template 0 := by
    rw [Covers, hbody]
    rfl
  have hloop := parseMatches_source _ hfound hreq
  obtain ⟨hmeta, -⟩ := parseMatches_frame template (finditer 0 0 template) 0 req
  unfold parseBody
  generalize parseMatches template 0 (finditer 0 0 template) req = result at hloop hmeta
  obtain ⟨parsed, lastPos⟩ := result
  dsimp only at hloop hmeta ⊢
  rw [← hmeta]
  cases parsed.metadata.removePureFill with
  | true =>
      refine ⟨template.drop lastPos, ?_, fun h => (Bool.noConfusion h)⟩
      rw [Bool.not_true, if_neg Bool.false_ne_true, hloop, List.take_append_drop]
  | false =>
      refine ⟨[], ?_, fun _ => rfl⟩
      rw [Bool.not_false, if_pos rfl, source_pushText, hloop, List.take_append_drop,
        List.append_nil]

/-- Reading the parameters leaves the body empty and the metadata alone. -/
lemma parseParameters_frame (parameters : List ParameterPayload) :
    ∀ (req : ChunkedSemanticCallRequest) {req' : ChunkedSemanticCallRequest},
      req.parseParameters parameters = .ok req' →
      req'.body = req.body ∧ req'.metadata = req.metadata := by
  induction parameters with
  | nil =>
      intro req req' h
      obtain rfl := Except.ok.inj h
      exact ⟨rfl, rfl⟩
  | cons parameter parameters ih =>
      intro req req' h
      rw [parseParameters] at h
      split at h
      · cases h
      · split at h
        · cases h
        · rename_i parsed _ _
          exact ih { req with
            parametersMap := req.parametersMap ++ [(parsed.name, parsed)] } h

/-- **The body of a request is its template**, up to the end of the last placeholder, and beyond it
when `remove_pure_fill` is off. -/
theorem parseFromPayload_source {requestId sessionId : ℕ} {payload : SemanticCallPayload}
    (h : parseFromPayload requestId sessionId payload = .ok req) : ∃ rest,
      payload.template = some (req.body.flatMap BodyChunk.source ++ rest) ∧
        (payload.removePureFill = some false → rest = []) := by
  unfold parseFromPayload at h
  split at h
  · cases h
  · cases h
  · rename_i template parameters htemplate _
    dsimp only at h
    split at h
    · cases h
    · rename_i parsed hparsed
      obtain rfl := Except.ok.inj h
      obtain ⟨hbody, hmeta⟩ := parseParameters_frame _ _ hparsed
      obtain ⟨rest, hrest, hall⟩ := parseBody_source template hbody
      refine ⟨rest, htemplate.trans (congrArg some hrest.symm), fun hflag => hall ?_⟩
      rw [hmeta]
      simp [SemanticCallPayload.metadata, hflag]

end ChunkedSemanticCallRequest

end ParrotServe
