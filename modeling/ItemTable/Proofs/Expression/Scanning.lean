import ItemTable.Proofs.Expression.Occurrences
import ItemTable.Proofs.Template
import Mathlib.Data.String.Basic
import Mathlib.Data.List.TakeWhile

/-!
# Scanning for placeholders

`scan?` looks for placeholders in a loop over byte offsets, cutting the text at each of them; a
cut out of range, or inside a character, would end it without a result.  It always has a
result, which is that of `placeholders`: the longest stretches of the text that are a sigil
with placeholder characters behind it.
-/

namespace ItemTable

namespace Text

variable {test : Char → Bool} {text front back : List Char} {offset : Nat}

/-- A text cut at a byte offset, which must not lie behind its end or inside a character. -/
def cutAt? : Nat → List Char → Option (List Char × List Char)
  | 0, text => some ([], text)
  | _ + 1, [] => none
  | offset + 1, c :: rest =>
      if c.utf8Size ≤ offset + 1 then
        (cutAt? (offset + 1 - c.utf8Size) rest).map fun (front, back) => (c :: front, back)
      else none

/-- The byte offset of the first character that passes a test. -/
def offsetOf? (test : Char → Bool) : List Char → Option Nat
  | [] => none
  | c :: rest => if test c then some 0 else (offsetOf? test rest).map (c.utf8Size + ·)

theorem cutAt?_utf8Len (front back : List Char) :
    cutAt? (String.utf8Len front) (front ++ back) = some (front, back) := by
  induction front with
  | nil => rw [String.utf8Len_nil, List.nil_append, cutAt?]
  | cons c front induction =>
      obtain ⟨offset, same⟩ := Nat.exists_eq_add_one_of_ne_zero (Nat.ne_of_gt c.utf8Size_pos)
      have cut : String.utf8Len (c :: front) = (String.utf8Len front + offset) + 1 := by
        rw [String.utf8Len_cons, same, Nat.add_assoc]
      have behind : String.utf8Len front + offset + 1 - c.utf8Size = String.utf8Len front := by omega
      rw [cut, List.cons_append, cutAt?, if_pos (by omega), behind, induction]
      rfl

theorem append_of_cutAt? (cut : cutAt? offset text = some (front, back)) : text = front ++ back := by
  induction text generalizing offset front with
  | nil =>
      cases offset <;> cases cut
      rfl
  | cons c text induction =>
      cases offset with
      | zero =>
          cases cut
          rfl
      | succ offset =>
          rw [cutAt?] at cut
          split at cut
          · obtain ⟨⟨first, rest⟩, cutRest, same⟩ := Option.map_eq_some_iff.mp cut
            cases same
            rw [induction cutRest, List.cons_append]
          · cases cut

/-- A cut behind the start takes at least one character off. -/
theorem length_lt_of_cutAt? (cut : cutAt? offset text = some (front, back)) (positive : 0 < offset) :
    back.length < text.length := by
  have nonempty : front ≠ [] := by
    rintro rfl
    obtain ⟨offset, rfl⟩ := Nat.exists_eq_add_one_of_ne_zero (Nat.ne_of_gt positive)
    cases text with
    | nil => cases cut
    | cons c text =>
        rw [cutAt?] at cut
        split at cut
        · obtain ⟨⟨first, rest⟩, -, same⟩ := Option.map_eq_some_iff.mp cut
          cases same
        · cases cut
  have taken := List.length_pos_iff.mpr nonempty
  rw [append_of_cutAt? cut, List.length_append]
  omega

theorem offsetOf?_eq_none (fails : ∀ c ∈ text, test c = false) : offsetOf? test text = none := by
  induction text with
  | nil => rfl
  | cons c text induction =>
      rw [offsetOf?, fails c List.mem_cons_self, induction fun d later =>
        fails d (List.mem_cons_of_mem c later)]
      rfl

theorem offsetOf?_append {c : Char} (fails : ∀ d ∈ front, test d = false) (passes : test c = true)
    (back : List Char) :
    offsetOf? test (front ++ c :: back) = some (String.utf8Len front) := by
  induction front with
  | nil => rw [List.nil_append, offsetOf?, if_pos passes, String.utf8Len_nil]
  | cons d front induction =>
      rw [List.cons_append, offsetOf?, fails d List.mem_cons_self, induction fun e later =>
        fails e (List.mem_cons_of_mem d later), String.utf8Len_cons, Nat.add_comm]
      rfl

end Text

namespace Fragment

variable {sigil : Char} {text before after : List Char} {word : String}

/-- The byte offset at which a placeholder ends: `tail` starts with the sigil, and `word` is what
stands behind it. -/
def stopOffset (tail word : List Char) : Nat :=
  match Text.offsetOf? (fun c => !isPlaceholderChar c) word with
  | none => String.utf8Len tail
  | some offset => offset + 1

/-- The placeholder that ends at an offset; a sigil alone is none. -/
def upTo? (stop : Nat) (tail : List Char) : Option (List String) :=
  if 1 < stop then (Text.cutAt? stop tail).map fun (front, _) => [String.ofList front]
  else some []

/-- One turn of the scan: what it finds and the text that is left, or nothing when no sigil is
left.  There is no turn at all if the text cannot be cut where the scan cuts it. -/
def scanTurn? (sigil : Char) (text : List Char) : Option (Option (List String × List Char)) :=
  match Text.offsetOf? (· == sigil) text with
  | none => some none
  | some start => do
      let (_, tail) ← Text.cutAt? start text
      let (_, word) ← Text.cutAt? 1 tail
      let found ← upTo? (stopOffset tail word) tail
      let (_, rest) ← Text.cutAt? (max (stopOffset tail word) 1) tail
      some (some (found, rest))

/-- The scan goes on with less text. -/
theorem length_lt_of_scanTurn? {found : List String} {rest : List Char}
    (turn : scanTurn? sigil text = some (some (found, rest))) : rest.length < text.length := by
  rw [scanTurn?] at turn
  split at turn
  · cases turn
  · next start _ =>
      simp only [Option.bind_eq_bind, Option.bind_eq_some_iff] at turn
      obtain ⟨⟨front, tail⟩, cut, ⟨_, word⟩, -, _, -, ⟨_, _⟩, cutRest, ⟨⟩⟩ := turn
      have shorter := Text.length_lt_of_cutAt? cutRest (by omega)
      rw [Text.append_of_cutAt? cut, List.length_append]
      exact Nat.lt_of_lt_of_le shorter (Nat.le_add_left _ _)

/-- The placeholders of a text in the order of the scan. -/
def scan? (sigil : Char) (text : List Char) : Option (List String) :=
  match _turn : scanTurn? sigil text with
  | none => none
  | some none => some []
  | some (some (found, rest)) => (scan? sigil rest).map (found ++ ·)
termination_by text.length
decreasing_by exact length_lt_of_scanTurn? _turn

theorem scan?_of_turn {found : List String} {rest : List Char}
    (turn : scanTurn? sigil text = some (some (found, rest))) :
    scan? sigil text = (scan? sigil rest).map (found ++ ·) := by
  rw [scan?.eq_def]
  split
  · next failed => cases turn.symm.trans failed
  · next ended => cases turn.symm.trans ended
  · next moved =>
      cases turn.symm.trans moved
      rfl

theorem scan?_of_end (turn : scanTurn? sigil text = some none) : scan? sigil text = some [] := by
  rw [scan?.eq_def]
  split
  · next failed => cases turn.symm.trans failed
  · rfl
  · next moved => cases turn.symm.trans moved

theorem scanTurn?_of_not_mem (absent : sigil ∉ text) : scanTurn? sigil text = some none := by
  rw [scanTurn?, Text.offsetOf?_eq_none]
  intro c member
  rw [beq_eq_false_iff_ne]
  rintro rfl
  exact absent member

theorem stopOffset_eq (ascii : sigil.utf8Size = 1) (after : List Char) :
    stopOffset (sigil :: after) after =
      String.utf8Len (sigil :: after.takeWhile isPlaceholderChar) := by
  have whole := List.takeWhile_append_dropWhile (p := isPlaceholderChar) (l := after)
  have placed : ∀ c ∈ after.takeWhile isPlaceholderChar, (!isPlaceholderChar c) = false := by
    intro c member
    rw [List.mem_takeWhile_imp member]
    rfl
  rw [stopOffset]
  cases stops : after.dropWhile isPlaceholderChar with
  | nil =>
      rw [stops, List.append_nil] at whole
      rw [whole] at placed
      rw [Text.offsetOf?_eq_none placed, whole]
  | cons c behind =>
      have ends : (!isPlaceholderChar c) = true := by
        have unplaced := List.head?_dropWhile_not isPlaceholderChar after
        rw [stops] at unplaced
        simpa using unplaced
      have found := Text.offsetOf?_append placed ends behind
      rw [← stops, whole] at found
      simp only [found, String.utf8Len_cons, ascii]

/-- A turn finds the longest run of placeholder characters behind the first sigil. -/
theorem scanTurn?_append (ascii : sigil.utf8Size = 1) (absent : sigil ∉ before)
    (after : List Char) :
    scanTurn? sigil (before ++ sigil :: after) =
      some (some (if after.takeWhile isPlaceholderChar = [] then []
          else [String.ofList (sigil :: after.takeWhile isPlaceholderChar)],
        after.dropWhile isPlaceholderChar)) := by
  have misses : ∀ c ∈ before, (c == sigil) = false := by
    intro c member
    rw [beq_eq_false_iff_ne]
    rintro rfl
    exact absent member
  have cutSigil : Text.cutAt? 1 (sigil :: after) = some ([sigil], after) := by
    have cut := Text.cutAt?_utf8Len [sigil] after
    rwa [String.utf8Len_cons, ascii, String.utf8Len_nil] at cut
  have cutWord : Text.cutAt? (String.utf8Len (sigil :: after.takeWhile isPlaceholderChar))
      (sigil :: after) =
        some (sigil :: after.takeWhile isPlaceholderChar, after.dropWhile isPlaceholderChar) := by
    have cut := Text.cutAt?_utf8Len (sigil :: after.takeWhile isPlaceholderChar)
      (after.dropWhile isPlaceholderChar)
    rwa [List.cons_append, List.takeWhile_append_dropWhile] at cut
  have stop_ge : 1 ≤ String.utf8Len (sigil :: after.takeWhile isPlaceholderChar) := by
    rw [String.utf8Len_cons, ascii]
    omega
  rw [scanTurn?, Text.offsetOf?_append misses (beq_self_eq_true sigil)]
  have bare : 1 < String.utf8Len (sigil :: after.takeWhile isPlaceholderChar) ↔
      after.takeWhile isPlaceholderChar ≠ [] := by
    rw [String.utf8Len_cons, ascii, Nat.lt_add_left_iff_pos, Nat.pos_iff_ne_zero, ne_eq,
      String.utf8Len_eq_zero]
  simp only [Text.cutAt?_utf8Len, cutSigil, stopOffset_eq ascii, Option.bind_eq_bind,
    Option.bind_some, upTo?, Nat.max_eq_left stop_ge, cutWord, bare, Option.map_some]
  by_cases empty : after.takeWhile isPlaceholderChar = []
  · simp [empty]
  · simp [empty]

/-- Placeholders hold no other placeholders. -/
theorem occurrences_dropWhile (mark : isPlaceholderChar sigil = false) (after : List Char) :
    occurrences sigil (after.dropWhile isPlaceholderChar) = occurrences sigil after := by
  have absent : sigil ∉ after.takeWhile isPlaceholderChar := by
    intro member
    rw [List.mem_takeWhile_imp member] at mark
    cases mark
  have skipped := occurrences_append_of_not_mem absent (after.dropWhile isPlaceholderChar)
  rw [List.takeWhile_append_dropWhile] at skipped
  exact skipped.symm

theorem occurrences_append_cons (absent : sigil ∉ before) :
    occurrences sigil (before ++ sigil :: after) =
      (if after.takeWhile isPlaceholderChar = [] then []
        else [String.ofList (sigil :: after.takeWhile isPlaceholderChar)]) ++
      occurrences sigil after := by
  rw [occurrences_append_of_not_mem absent, occurrences]
  by_cases empty : after.takeWhile isPlaceholderChar = []
  · simp [empty]
  · simp [empty]

/-- The scan has a result, and finds the placeholders of the text in order. -/
theorem scan?_eq (ascii : sigil.utf8Size = 1) (mark : isPlaceholderChar sigil = false)
    (text : List Char) : scan? sigil text = some (occurrences sigil text) := by
  by_cases present : sigil ∈ text
  · obtain ⟨before, after, rfl, absent⟩ := List.eq_append_cons_of_mem present
    have turn := scanTurn?_append ascii absent after
    have shorter := length_lt_of_scanTurn? turn
    rw [scan?_of_turn turn, scan?_eq ascii mark, occurrences_dropWhile mark,
      occurrences_append_cons absent]
    rfl
  · have none := occurrences_append_of_not_mem present []
    rw [List.append_nil, occurrences_nil] at none
    rw [scan?_of_end (scanTurn?_of_not_mem present), none]
termination_by text.length

/-- A stretch of a text that is a placeholder, and lies in no longer stretch that is one. -/
def IsMaximalIn (sigil : Char) (text : List Char) (placeholder : String) : Prop :=
  IsPlaceholder sigil placeholder ∧ ∃ before after,
    text = before ++ placeholder.toList ++ after ∧
    ∀ outer front back, IsPlaceholder sigil outer → text = front ++ outer.toList ++ back →
      front <+: before → back <:+ after → front = before ∧ back = after

theorem not_mem_tail (mark : isPlaceholderChar sigil = false) {placeholder : String}
    (written : IsPlaceholder sigil placeholder) : sigil ∉ placeholder.toList.tail := by
  obtain ⟨word, same, -, placed⟩ := written
  rw [same, List.tail_cons]
  intro member
  rw [placed sigil member] at mark
  cases mark

/-- A placeholder lies in no longer one if none of its characters stands behind it. -/
theorem isMaximalIn_iff (mark : isPlaceholderChar sigil = false) {placeholder : String} :
    IsMaximalIn sigil text placeholder ↔ IsPlaceholder sigil placeholder ∧
      ∃ before after, text = before ++ placeholder.toList ++ after ∧ Stops after := by
  refine and_congr_right fun written => exists_congr fun before => exists_congr fun after =>
    and_congr_right fun split => ?_
  obtain ⟨word, same, nonempty, placed⟩ := id written
  constructor
  · intro maximal
    cases after with
    | nil => exact stops_nil
    | cons c after =>
        refine stops_cons (Bool.eq_false_iff.mpr fun placedNext => ?_)
        have longer : IsPlaceholder sigil (String.ofList (sigil :: (word ++ [c]))) := by
          refine ⟨word ++ [c], String.toList_ofList, by simp, ?_⟩
          intro d member
          rcases List.mem_append.mp member with inWord | last
          · exact placed d inWord
          · exact List.mem_singleton.mp last ▸ placedNext
        obtain ⟨-, shorter⟩ := maximal _ before after longer
          (by rw [split, same, String.toList_ofList]; simp) (List.prefix_refl _)
          (List.suffix_cons _ _)
        exact List.cons_ne_self _ _ shorter.symm
  · rintro stops outer front back outerWritten outerSplit ⟨inner, rfl⟩ ⟨innerBack, rfl⟩
    have whole : outer.toList = inner ++ placeholder.toList ++ innerBack := by
      have sides : front ++ outer.toList ++ back =
          front ++ (inner ++ placeholder.toList ++ innerBack) ++ back := by
        simpa using outerSplit.symm.trans split
      exact List.append_cancel_left (List.append_cancel_right sides)
    have alone := not_mem_tail mark outerWritten
    rw [whole, same] at alone
    obtain rfl : inner = [] := by
      cases inner with
      | nil => rfl
      | cons d inner => simp at alone
    obtain rfl : innerBack = [] := by
      cases innerBack with
      | nil => rfl
      | cons d innerBack =>
          obtain ⟨outerWord, outerSame, -, outerPlaced⟩ := outerWritten
          rw [outerSame, same] at whole
          have placedNext := outerPlaced d (by rw [(List.cons.inj whole).2]; simp)
          rw [stops d rfl] at placedNext
          cases placedNext
    simp

/-- The scan finds the maximal placeholders. -/
theorem mem_occurrences_iff (mark : isPlaceholderChar sigil = false) {placeholder : String} :
    placeholder ∈ occurrences sigil text ↔ IsMaximalIn sigil text placeholder := by
  rw [isMaximalIn_iff mark]
  constructor
  · intro member
    induction text with
    | nil => cases member
    | cons c text induction =>
        have found : placeholder ∈ occurrences sigil text ∨
            c = sigil ∧ text.takeWhile isPlaceholderChar ≠ [] ∧
              placeholder = String.ofList (c :: text.takeWhile isPlaceholderChar) := by
          rw [occurrences] at member
          split at member
          · next here =>
              rw [Bool.and_eq_true, beq_iff_eq, Bool.not_eq_true', List.isEmpty_eq_false_iff] at here
              rcases List.mem_cons.mp member with same | later
              · exact Or.inr ⟨here.1, here.2, same⟩
              · exact Or.inl later
          · exact Or.inl member
        rcases found with later | ⟨rfl, nonempty, rfl⟩
        · obtain ⟨written, before, after, rfl, stops⟩ := induction later
          exact ⟨written, c :: before, after, rfl, stops⟩
        · have stops : Stops (text.dropWhile isPlaceholderChar) := by
            intro d first
            have unplaced := List.head?_dropWhile_not isPlaceholderChar text
            rw [Option.mem_def.mp first] at unplaced
            exact unplaced
          refine ⟨⟨_, String.toList_ofList, nonempty, fun _ => List.mem_takeWhile_imp⟩,
            [], text.dropWhile isPlaceholderChar, ?_, stops⟩
          rw [String.toList_ofList, List.nil_append, List.cons_append,
            List.takeWhile_append_dropWhile]
  · rintro ⟨written, before, after, rfl, stops⟩
    have starts : Stops (placeholder.toList ++ after) := by
      obtain ⟨word, same, -⟩ := written
      rw [same]
      exact stops_cons mark
    rw [List.append_assoc, occurrences_append sigil before starts,
      occurrences_placeholder mark written stops]
    simp

/-- The distinct members of a list of names, sorted. -/
theorem pairwise_sorted (names : List String) :
    (names.eraseDups.mergeSort fun left right => left ≤ right).Pairwise (· < ·) := by
  have ordered : (names.eraseDups.mergeSort fun left right => left ≤ right).Pairwise
      fun left right => decide (left ≤ right) = true :=
    List.pairwise_mergeSort (by simpa using fun _ _ _ => le_trans) (by simpa using le_total) _
  have distinct := (List.mergeSort_perm names.eraseDups
    fun left right => decide (left ≤ right)).nodup_iff.mpr (nodup_eraseDups names)
  refine (ordered.and distinct).imp ?_
  rintro left right ⟨atMost, different⟩
  exact lt_of_le_of_ne (by simpa using atMost) different

theorem mem_placeholders_iff (mark : isPlaceholderChar sigil = false) {text placeholder : String} :
    placeholder ∈ placeholders sigil text ↔ IsMaximalIn sigil text.toList placeholder := by
  rw [placeholders, List.mem_mergeSort, List.mem_eraseDups, mem_occurrences_iff mark]

/-- The scan of a text, as a sorted list of what it finds. -/
def scanPlaceholders? (sigil : Char) (text : String) : Option (List String) :=
  (scan? sigil text.toList).map fun found =>
    found.eraseDups.mergeSort fun left right => left ≤ right

section Unresolved

variable {α : Type} {entries : Entries α} {expression : String}

/-- The placeholders of a text that have no binding. -/
def unbound (sigil : Char) (expression : String) (entries : Entries α) : List String :=
  (placeholders sigil expression).filter fun placeholder => !entries.contains placeholder

theorem mem_unbound_iff (mark : isPlaceholderChar sigil = false) {placeholder : String} :
    placeholder ∈ unbound sigil expression entries ↔
      IsMaximalIn sigil expression.toList placeholder ∧ entries.get? placeholder = none := by
  rw [unbound, List.mem_filter, mem_placeholders_iff mark, Entries.contains, Bool.not_eq_true',
    Option.isSome_eq_false_iff, Option.isNone_iff_eq_none]

theorem unbound_eq_nil_iff (mark : isPlaceholderChar sigil = false) :
    unbound sigil expression entries = [] ↔
      ∀ placeholder, IsMaximalIn sigil expression.toList placeholder →
        ∃ bound, entries.get? placeholder = some bound := by
  rw [List.eq_nil_iff_forall_not_mem]
  simp only [mem_unbound_iff mark, not_and, ← ne_eq, Option.ne_none_iff_exists']

theorem pairwise_unbound : (unbound sigil expression entries).Pairwise (· < ·) :=
  (pairwise_sorted _).filter _

theorem unresolved_eq (fragment : Fragment) :
    fragment.unresolved = unbound '#' fragment.expression fragment.names ++
      unbound ':' fragment.expression fragment.values :=
  rfl

end Unresolved

/-- The scan of a text ends with a result for either sigil, without a cut out of range: the
maximal placeholders of the text, sorted.  The unresolved placeholders of a fragment are those
of its expression that have no binding, names before values and each sorted, and a fragment is
resolved exactly when every placeholder has a binding. -/
theorem scan_finds_placeholders :
    (∀ sigil text, sigil = '#' ∨ sigil = ':' → ∃ found, scanPlaceholders? sigil text = some found ∧
      found = placeholders sigil text ∧ found.Pairwise (· < ·) ∧
        ∀ placeholder, placeholder ∈ found ↔ IsMaximalIn sigil text.toList placeholder) ∧
    ∀ fragment : Fragment, ∃ names values, fragment.unresolved = names ++ values ∧
      names.Pairwise (· < ·) ∧ values.Pairwise (· < ·) ∧
      (∀ name, name ∈ names ↔ IsMaximalIn '#' fragment.expression.toList name ∧
        fragment.names.get? name = none) ∧
      (∀ value, value ∈ values ↔ IsMaximalIn ':' fragment.expression.toList value ∧
        fragment.values.get? value = none) ∧
      (fragment.isResolved = true ↔
        (∀ name, IsMaximalIn '#' fragment.expression.toList name →
          ∃ bound, fragment.names.get? name = some bound) ∧
        ∀ value, IsMaximalIn ':' fragment.expression.toList value →
          ∃ bound, fragment.values.get? value = some bound) := by
  constructor
  · intro sigil text isSigil
    have plain : sigil.utf8Size = 1 ∧ isPlaceholderChar sigil = false := by
      rcases isSigil with rfl | rfl <;> decide
    refine ⟨placeholders sigil text, ?_, rfl, pairwise_sorted _, fun placeholder =>
      mem_placeholders_iff plain.2⟩
    rw [scanPlaceholders?, scan?_eq plain.1 plain.2]
    rfl
  · intro fragment
    have resolved : fragment.isResolved = true ↔
        unbound '#' fragment.expression fragment.names = [] ∧
          unbound ':' fragment.expression fragment.values = [] := by
      rw [isResolved, List.isEmpty_iff, unresolved_eq, List.append_eq_nil_iff]
    refine ⟨_, _, unresolved_eq fragment, pairwise_unbound, pairwise_unbound,
      fun name => mem_unbound_iff (by decide), fun value => mem_unbound_iff (by decide), ?_⟩
    rw [resolved, unbound_eq_nil_iff (by decide), unbound_eq_nil_iff (by decide)]

/-- A repeated sigil, a sigil at the end, and text that is not ASCII. -/
theorem scan_finds_placeholders_of_note :
    placeholders '#' "é##f1é = #f1 #" = ["#f1"] ∧
      ∃ found, scanPlaceholders? '#' "é##f1é = #f1 #" = some found ∧
        found = placeholders '#' "é##f1é = #f1 #" ∧ found.Pairwise (· < ·) ∧
        ∀ placeholder, placeholder ∈ found ↔
          IsMaximalIn '#' "é##f1é = #f1 #".toList placeholder :=
  ⟨by decide +kernel, scan_finds_placeholders.1 '#' "é##f1é = #f1 #" (Or.inl rfl)⟩

end Fragment

end ItemTable
