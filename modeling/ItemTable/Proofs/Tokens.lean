import ItemTable.Proofs.Template
import Mathlib.Data.List.TakeWhile

/-!
# Tokens of templates

A token is a name between braces, without braces inside and not empty.  `Cuts` says how the
tokens of a text are found: the one that starts first is taken, and the search goes on behind
it.  Rendering replaces these tokens and copies the parts between them.
-/

namespace ItemTable

/-- A text without the blanks at its ends. -/
structure Text.IsTrimmed (text trimmed : List Char) : Prop where
  surrounded : ∃ front back, text = front ++ trimmed ++ back ∧
    (∀ c ∈ front, isBlank c = true) ∧ ∀ c ∈ back, isBlank c = true
  head : ∀ c ∈ trimmed.head?, isBlank c = false
  last : ∀ c ∈ trimmed.getLast?, isBlank c = false

theorem Text.isBlank_of_head?_dropWhile (text : List Char) :
    ∀ c ∈ (text.dropWhile isBlank).head?, isBlank c = false := by
  intro c first
  have unblank := List.head?_dropWhile_not isBlank text
  rw [Option.mem_def.mp first] at unblank
  exact unblank

theorem Text.isTrimmed_trim (text : List Char) : IsTrimmed text (trim text) := by
  have front := List.takeWhile_append_dropWhile (p := isBlank) (l := text)
  generalize opened : text.dropWhile isBlank = behind at front
  have back := List.takeWhile_append_dropWhile (p := isBlank) (l := behind.reverse)
  have behind_eq : behind =
      trim text ++ (behind.reverse.takeWhile isBlank).reverse := by
    rw [trim, opened, ← List.reverse_append, back, List.reverse_reverse]
  refine ⟨⟨text.takeWhile isBlank, (behind.reverse.takeWhile isBlank).reverse, ?_, ?_, ?_⟩, ?_, ?_⟩
  · rw [List.append_assoc, ← behind_eq, front]
  · exact fun c member => List.mem_takeWhile_imp member
  · exact fun c member => List.mem_takeWhile_imp (List.mem_reverse.mp member)
  · intro c first
    refine isBlank_of_head?_dropWhile text c ?_
    rw [opened, behind_eq, List.head?_append, Option.mem_def.mp first]
    rfl
  · intro c last
    rw [trim, List.getLast?_reverse] at last
    exact isBlank_of_head?_dropWhile _ c last

/-- The distinct names of a list, in the order of their first appearances. -/
structure FirstAppearances (names distinct : List String) : Prop where
  nodup : distinct.Nodup
  mem_iff : ∀ name, name ∈ distinct ↔ name ∈ names
  ordered : distinct.Pairwise fun earlier later =>
    ∃ before after, names = before ++ earlier :: after ∧ later ∉ before

/-- A name that appears before another one among some of the names does so among all. -/
theorem exists_append_of_filter {names before after : List String} {keep : String → Bool}
    {earlier later : String} (split : names.filter keep = before ++ earlier :: after)
    (kept : keep later = true) (absent : later ∉ before) :
    ∃ front back, names = front ++ earlier :: back ∧ later ∉ front := by
  obtain ⟨front, rest, rfl, filtered, filteredRest⟩ := List.filter_eq_append_iff.mp split
  obtain ⟨dropped, back, rfl, unkept, -, -⟩ := List.filter_eq_cons_iff.mp filteredRest
  refine ⟨front ++ dropped, back, by rw [List.append_assoc], ?_⟩
  intro member
  rcases List.mem_append.mp member with inFront | inDropped
  · exact absent (filtered ▸ List.mem_filter.mpr ⟨inFront, kept⟩)
  · exact unkept later inDropped kept

theorem ordered_eraseDups (names : List String) :
    names.eraseDups.Pairwise fun earlier later =>
      ∃ before after, names = before ++ earlier :: after ∧ later ∉ before := by
  match names with
  | [] => exact .nil
  | first :: names =>
      rw [List.eraseDups_cons]
      refine .cons (fun later member => ⟨[], names, rfl, List.not_mem_nil⟩) ?_
      refine (ordered_eraseDups (names.filter fun name => !name == first)).imp_of_mem ?_
      rintro earlier later - member ⟨before, after, split, absent⟩
      have kept := (List.mem_filter.mp (List.mem_eraseDups.mp member)).2
      obtain ⟨front, back, rfl, unseen⟩ := exists_append_of_filter split kept absent
      refine ⟨first :: front, back, rfl, ?_⟩
      rw [List.mem_cons, not_or]
      exact ⟨by simpa using kept, unseen⟩
termination_by names.length
decreasing_by
  have shorter := List.length_filter_le (fun name => !name == first) names
  rw [List.length_cons]
  omega

theorem firstAppearances_eraseDups (names : List String) :
    FirstAppearances names names.eraseDups :=
  ⟨nodup_eraseDups names, fun _ => List.mem_eraseDups, ordered_eraseDups names⟩

namespace Template

/-- What stands between the braces of a token. -/
structure IsContent (content : List Char) : Prop where
  nonempty : content ≠ []
  unopened : '\x7b' ∉ content
  unclosed : '\x7d' ∉ content

/-- Whether a token stands at the start of a text. -/
def StartsToken (text : List Char) : Prop :=
  ∃ content rest, IsContent content ∧ text = '\x7b' :: content ++ '\x7d' :: rest

/-- A part of a text: a token, or characters between tokens. -/
inductive Segment
  | copied (text : List Char)
  | token (content : List Char)

namespace Segment

/-- The characters of a part. -/
def text : Segment → List Char
  | copied text => text
  | token content => '\x7b' :: content ++ ['\x7d']

/-- The name of the field that a part stands for. -/
def name? : Segment → Option String
  | copied _ => none
  | token content => some (String.ofList (Text.trim content))

/-- The pieces of a part. -/
def pieces : Segment → List TemplatePiece
  | copied text => text.map .char
  | token content => [.field (String.ofList (Text.trim content))]

/-- A part with its token replaced by the text of the field that it names, which is empty for a
field that is absent or null. -/
def replaced (document : Document) : Segment → List Char
  | copied text => text
  | token content =>
      match document.get? (String.ofList (Text.trim content)) with
      | none => []
      | some .null => []
      | some value => value.displayText.toList

end Segment

/-- The first token of a text, with what stands before and behind it. -/
structure FirstToken (text before content rest : List Char) : Prop where
  isContent : IsContent content
  split : text = before ++ ('\x7b' :: content ++ '\x7d' :: rest)
  leftmost : ∀ front back, text = front ++ back → front.length < before.length →
    ¬ StartsToken back

/-- The parts of a text: up to its first token, this token, and the parts behind it. -/
inductive Cuts : List Char → List Segment → Prop
  | rest {text : List Char}
      (none : ∀ before after, text = before ++ after → ¬ StartsToken after) :
      Cuts text [.copied text]
  | token {text before content rest : List Char} {segments : List Segment}
      (first : FirstToken text before content rest) (cuts : Cuts rest segments) :
      Cuts text (.copied before :: .token content :: segments)

section Pieces

variable {content rest text before after : List Char} {c : Char} {segments : List Segment}

theorem piecesFrom_opened_of_close {opened : List Char} (unopened : '\x7b' ∉ content)
    (unclosed : '\x7d' ∉ content) (nonempty : opened ≠ [] ∨ content ≠ []) :
    piecesFrom (some opened) (content ++ '\x7d' :: rest) =
      .field (String.ofList (Text.trim (opened.reverse ++ content))) :: piecesFrom none rest := by
  induction content generalizing opened with
  | nil =>
      have some : opened.isEmpty = false := by simpa using nonempty
      simp [piecesFrom, some]
  | cons c content induction =>
      rw [List.mem_cons, not_or] at unopened unclosed
      rw [List.cons_append, piecesFrom, if_neg (Ne.symm unopened.1), if_neg (Ne.symm unclosed.1),
        induction unopened.2 unclosed.2 (Or.inl (List.cons_ne_nil _ _))]
      simp

/-- A brace that opens no token is copied. -/
theorem piecesFrom_opened_of_stray {opened : List Char}
    (stray : ∀ content rest, text = content ++ '\x7d' :: rest → '\x7b' ∉ content →
      '\x7d' ∉ content → opened = [] ∧ content = []) :
    piecesFrom (some opened) text =
      .char '\x7b' :: (opened.reverse.map .char ++ piecesFrom none text) := by
  induction text generalizing opened with
  | nil => simp [piecesFrom]
  | cons c text induction =>
      rw [piecesFrom, piecesFrom]
      split
      · rfl
      · next notOpening =>
          split
          · next closing =>
              subst closing
              obtain ⟨rfl, -⟩ := stray [] text rfl List.not_mem_nil List.not_mem_nil
              rfl
          · next notClosing =>
              rw [induction]
              · simp
              · intro content rest same unopened unclosed
                have longer := stray (c :: content) rest (by rw [same]; rfl)
                  (by simp [unopened, Ne.symm notOpening]) (by simp [unclosed, Ne.symm notClosing])
                cases longer.2

theorem piecesFrom_token (isContent : IsContent content) :
    piecesFrom none ('\x7b' :: content ++ '\x7d' :: rest) =
      .field (String.ofList (Text.trim content)) :: piecesFrom none rest := by
  rw [List.cons_append, piecesFrom, if_pos rfl, piecesFrom_opened_of_close isContent.unopened
    isContent.unclosed (Or.inr isContent.nonempty)]
  rfl

theorem piecesFrom_cons_of_not_starts (none : ¬ StartsToken (c :: text)) :
    piecesFrom .none (c :: text) = .char c :: piecesFrom .none text := by
  rw [piecesFrom]
  split
  · next opening =>
      subst opening
      rw [piecesFrom_opened_of_stray]
      · rfl
      · intro content rest same unopened unclosed
        refine ⟨rfl, ?_⟩
        cases content with
        | nil => rfl
        | cons c content =>
            refine absurd ⟨c :: content, rest, ⟨List.cons_ne_nil _ _, unopened, unclosed⟩, ?_⟩ none
            rw [same]
            rfl
  · rfl

theorem piecesFrom_append (none : ∀ front back, before ++ after = front ++ back →
      front.length < before.length → ¬ StartsToken back) :
    piecesFrom .none (before ++ after) = before.map .char ++ piecesFrom .none after := by
  induction before with
  | nil => rfl
  | cons c before induction =>
      have here := none [] (c :: before ++ after) rfl (Nat.zero_lt_succ _)
      rw [List.cons_append] at here ⊢
      rw [piecesFrom_cons_of_not_starts here, induction]
      · rfl
      · intro front back same shorter
        exact none (c :: front) back (by rw [List.cons_append, same]; rfl)
          (Nat.succ_lt_succ shorter)

/-- Scanning a text finds its parts. -/
theorem Cuts.piecesFrom_eq (cuts : Cuts text segments) :
    piecesFrom none text = segments.flatMap Segment.pieces := by
  induction cuts with
  | @rest text none =>
      have copied : piecesFrom .none (text ++ []) = text.map .char ++ piecesFrom .none [] :=
        piecesFrom_append fun front back same _ =>
          none front back (by rw [← same, List.append_nil])
      rw [List.append_nil] at copied
      rw [copied]
      simp [Segment.pieces, piecesFrom]
  | token first _ induction =>
      obtain ⟨isContent, rfl, leftmost⟩ := first
      rw [piecesFrom_append leftmost, piecesFrom_token isContent, induction]
      rfl

end Pieces

section Cuts

variable {content rest text before : List Char} {c : Char} {segments other : List Segment}

/-- Characters before the first token do not change the parts behind them. -/
theorem Cuts.exists_cons (none : ¬ StartsToken (c :: text)) (cuts : Cuts text segments) :
    ∃ segments, Cuts (c :: text) segments := by
  cases cuts with
  | rest later =>
      refine ⟨_, .rest ?_⟩
      intro before after same
      cases before with
      | nil =>
          rw [List.nil_append] at same
          exact same ▸ none
      | cons d before => exact later before after (List.cons.inj same).2
  | @token _ before content rest segments first cuts =>
      have moved : FirstToken (c :: text) (c :: before) content rest := by
        refine ⟨first.isContent, by rw [first.split]; rfl, ?_⟩
        intro front back same shorter
        cases front with
        | nil =>
            rw [List.nil_append] at same
            exact same ▸ none
        | cons d front =>
            exact first.leftmost front back (List.cons.inj same).2 (Nat.lt_of_succ_lt_succ shorter)
      exact ⟨_, .token moved cuts⟩

/-- Every text has parts. -/
theorem exists_cuts (text : List Char) : ∃ segments, Cuts text segments := by
  match text with
  | [] =>
      refine ⟨_, .rest ?_⟩
      rintro before after same ⟨content, rest, -, starts⟩
      rw [(List.nil_eq_append_iff.mp same).2] at starts
      cases starts
  | c :: text =>
      by_cases starts : StartsToken (c :: text)
      · obtain ⟨content, rest, isContent, same⟩ := starts
        have shorter : rest.length < text.length + 1 := by
          have lengths := congrArg List.length same
          simp only [List.length_cons, List.length_append] at lengths
          omega
        obtain ⟨segments, cuts⟩ := exists_cuts rest
        have first : FirstToken (c :: text) [] content rest := ⟨isContent, same, by simp⟩
        exact ⟨_, .token first cuts⟩
      · obtain ⟨segments, cuts⟩ := exists_cuts text
        exact cuts.exists_cons starts
termination_by text.length

theorem FirstToken.starts (first : FirstToken text before content rest) :
    StartsToken ('\x7b' :: content ++ '\x7d' :: rest) :=
  ⟨content, rest, first.isContent, rfl⟩

theorem content_eq_takeWhile (isContent : IsContent content) :
    (content ++ '\x7d' :: rest).takeWhile (· ≠ '\x7d') = content := by
  rw [List.takeWhile_append_of_pos, List.takeWhile_cons_of_neg (by simp), List.append_nil]
  intro c member
  rw [decide_eq_true_eq]
  rintro rfl
  exact isContent.unclosed member

theorem FirstToken.unique {otherBefore otherContent otherRest : List Char}
    (first : FirstToken text before content rest)
    (second : FirstToken text otherBefore otherContent otherRest) :
    before = otherBefore ∧ content = otherContent ∧ rest = otherRest := by
  have notLater : ¬ before.length < otherBefore.length := fun shorter =>
    second.leftmost before _ first.split shorter first.starts
  have notEarlier : ¬ otherBefore.length < before.length := fun shorter =>
    first.leftmost otherBefore _ second.split shorter second.starts
  obtain ⟨rfl, tokens⟩ := List.append_inj (first.split.symm.trans second.split) (by omega)
  have contents : content ++ '\x7d' :: rest = otherContent ++ '\x7d' :: otherRest :=
    (List.cons.inj tokens).2
  obtain rfl : content = otherContent := by
    calc
      content = (content ++ '\x7d' :: rest).takeWhile (· ≠ '\x7d') :=
        (content_eq_takeWhile first.isContent).symm
      _ = (otherContent ++ '\x7d' :: otherRest).takeWhile (· ≠ '\x7d') := by rw [contents]
      _ = otherContent := content_eq_takeWhile second.isContent
  exact ⟨rfl, rfl, (List.cons.inj (List.append_cancel_left contents)).2⟩

theorem Cuts.unique (cuts : Cuts text segments) (otherCuts : Cuts text other) :
    segments = other := by
  induction cuts generalizing other with
  | rest none =>
      cases otherCuts with
      | rest => rfl
      | token first _ => exact absurd first.starts (none _ _ first.split)
  | token first _ induction =>
      cases otherCuts with
      | rest none => exact absurd first.starts (none _ _ first.split)
      | token second later =>
          obtain ⟨rfl, rfl, rfl⟩ := first.unique second
          rw [induction later]

theorem Cuts.text_eq (cuts : Cuts text segments) : segments.flatMap Segment.text = text := by
  induction cuts with
  | rest none => simp [Segment.text]
  | token first _ induction =>
      rw [first.split, List.flatMap_cons, List.flatMap_cons, induction]
      simp [Segment.text]

end Cuts

section Rendering

variable {template : Template} {segments : List Segment}

theorem Cuts.render_eq (cuts : Cuts template.source.toList segments) (document : Document) :
    template.render document = String.ofList (segments.flatMap (Segment.replaced document)) := by
  rw [render, pieces, cuts.piecesFrom_eq, List.flatMap_assoc]
  congr 2
  funext segment
  cases segment with
  | copied text => simp [Segment.pieces, Segment.replaced, List.flatMap_map]
  | token content =>
      rw [Segment.pieces, List.flatMap_singleton]
      rfl

theorem filterMap_pieces (segments : List Segment) :
    (segments.flatMap Segment.pieces).filterMap TemplatePiece.name? =
      segments.filterMap Segment.name? := by
  induction segments with
  | nil => rfl
  | cons segment segments induction =>
      rw [List.flatMap_cons, List.filterMap_append, induction]
      cases segment with
      | copied text =>
          have unnamed : (text.map TemplatePiece.char).filterMap TemplatePiece.name? = [] := by
            simp [List.filterMap_eq_nil_iff, TemplatePiece.name?]
          rw [Segment.pieces, unnamed]
          rfl
      | token content => rfl

theorem Cuts.references_eq (cuts : Cuts template.source.toList segments) :
    template.references = (segments.filterMap Segment.name?).eraseDups := by
  rw [references, pieces, cuts.piecesFrom_eq, filterMap_pieces]

/-- Rendering replaces the tokens of a template, found from the left without overlap, by the
fields under their trimmed names, and copies all other characters.  So it depends on nothing but
the references. -/
theorem rendering_replaces_tokens (template : Template) :
    ∃ segments, Cuts template.source.toList segments ∧
      (∀ other, Cuts template.source.toList other → other = segments) ∧
      segments.flatMap Segment.text = template.source.toList ∧
      (∀ content, Text.IsTrimmed content (Text.trim content)) ∧
      (∀ document, template.render document =
        String.ofList (segments.flatMap (Segment.replaced document))) ∧
      FirstAppearances (segments.filterMap Segment.name?) template.references ∧
      (∀ left right : Document,
        (∀ name ∈ template.references, left.get? name = right.get? name) →
          template.render left = template.render right) ∧
      ∀ document : Document, template.isSatisfiedBy document = true ↔
        ∀ name ∈ segments.filterMap Segment.name?, ∃ value,
          document.get? name = some value ∧ value ≠ .null := by
  obtain ⟨segments, cuts⟩ := exists_cuts template.source.toList
  have appearances := firstAppearances_eraseDups (segments.filterMap Segment.name?)
  rw [← cuts.references_eq] at appearances
  refine ⟨segments, cuts, fun other otherCuts => otherCuts.unique cuts, cuts.text_eq,
    Text.isTrimmed_trim, cuts.render_eq, appearances, ?_, ?_⟩
  · intro left right agree
    exact render_congr_of_get? agree
  · intro document
    rw [isSatisfiedBy_iff]
    exact forall_congr' fun name => by rw [appearances.mem_iff]

/-- Braces that open no token are copied, and names are trimmed. -/
example : Template.render ⟨"\x7b\x7b id \x7d-\x7b\x7d\x7bno\x7d"⟩ [("id", .string "é")] =
    "\x7bé-\x7b\x7d" := by
  decide +kernel

end Rendering

end Template

end ItemTable
