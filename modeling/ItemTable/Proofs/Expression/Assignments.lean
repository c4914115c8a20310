import ItemTable.Expression.Update
import ItemTable.Proofs.Request.Fragments

/-!
# Execution of update statements

The store reads an update text as `SET` and assignments with commas between them.  It
takes every value from the item as it was before the statement, and it refuses a
statement that assigns an attribute twice.

The statement that sets the fields of a document is read back as one assignment for
each field.
-/

namespace ItemTable

/-! ## Reading update texts -/

/-- Where an assignment takes its value from. -/
inductive Source (β : Type)
  | operand (operand : β)
  /-- The value of an attribute, and the operand only if there is none. -/
  | ifNotExists (name : String) (operand : β)

structure Assignment (β : Type) where
  name : String
  source : Source β

namespace Source

def ifNotExistsName : String := "if_not_exists"

def resolve? (names : Entries String) (values : Entries Value) :
    Source String → Option (Source Value)
  | operand placeholder => (values.get? placeholder).map operand
  | ifNotExists name placeholder =>
      (names.get? name).bind fun name => (values.get? placeholder).map (ifNotExists name)

/-- The value that a source takes from an item. -/
def value (item : Document) : Source Value → Value
  | operand value => value
  | ifNotExists name value => (item.get? name).getD value

def read : List Token → Option (Source String × List Token)
  | .value placeholder :: rest => some (operand placeholder, rest)
  | .function function :: .opening :: .name name :: .comma :: .value placeholder ::
      .closing :: rest =>
      if function = ifNotExistsName then some (ifNotExists name placeholder, rest) else none
  | _ => none

end Source

namespace Assignment

def resolve? (names : Entries String) (values : Entries Value) (assignment : Assignment String) :
    Option (Assignment Value) :=
  (names.get? assignment.name).bind fun name =>
    (assignment.source.resolve? names values).map fun source => { name, source }

def resolveAll? (names : Entries String) (values : Entries Value) :
    List (Assignment String) → Option (List (Assignment Value))
  | [] => some []
  | assignment :: rest =>
      (assignment.resolve? names values).bind fun assignment =>
        (resolveAll? names values rest).map (assignment :: ·)

def read : List Token → Option (Assignment String × List Token)
  | .name name :: .comparison .eq :: rest =>
      (Source.read rest).map fun (source, rest) => ({ name, source }, rest)
  | _ => none

/-- Reads at most `count` assignments with commas between them. -/
def readAll : Nat → List Token → Option (List (Assignment String))
  | 0, _ => none
  | count + 1, tokens =>
      match read tokens with
      | some (assignment, []) => some [assignment]
      | some (assignment, .comma :: rest) => (readAll count rest).map (assignment :: ·)
      | _ => none

/-- The assignments of an update text. -/
def parse? (text : List Char) : Option (List (Assignment String)) :=
  match Token.words text with
  | ['S', 'E', 'T'] :: words =>
      (Token.ofWords? words).bind fun tokens => readAll tokens.length tokens
  | _ => none

end Assignment

/-- The item after assignments, unless an attribute is assigned twice. -/
def Document.execute? (item : Document) (assignments : List (Assignment Value)) :
    Option Document :=
  if (assignments.map (·.name)).Nodup then
    some (item.putAll (assignments.map fun assignment =>
      (assignment.name, assignment.source.value item)))
  else none

namespace UpdateRequest

def assignments? (request : UpdateRequest) : Option (List (Assignment Value)) :=
  match request.update with
  | none => some []
  | some text =>
      (Assignment.parse? text.toList).bind
        (Assignment.resolveAll? request.bindings.names request.bindings.values)

def execute? (request : UpdateRequest) (item : Document) : Option Document :=
  request.assignments?.bind item.execute?

end UpdateRequest

/-! ## Printed assignments -/

namespace Source

def text : Source String → List Char
  | operand placeholder => placeholder.toList
  | ifNotExists name placeholder =>
      ifNotExistsName.toList ++ '(' :: (name.toList ++ [',', ' '] ++ placeholder.toList ++ [')'])

def tokens : Source String → List Token
  | operand placeholder => [.value placeholder]
  | ifNotExists name placeholder =>
      [.function ifNotExistsName, .opening, .name name, .comma, .value placeholder, .closing]

def IsWritten : Source String → Prop
  | operand placeholder => IsPlaceholder ':' placeholder
  | ifNotExists name placeholder => IsPlaceholder '#' name ∧ IsPlaceholder ':' placeholder

variable {source : Source String}

theorem ofText?_text {rest : List Char} {tokens : List Token} (written : source.IsWritten)
    (ends : Token.Delimited rest) (tail : Token.ofText? rest = some tokens) :
    Token.ofText? (source.text ++ rest) = some (source.tokens ++ tokens) := by
  cases source with
  | operand placeholder => exact Token.ofText?_value written ends tail
  | ifNotExists name placeholder =>
      obtain ⟨nameWritten, placeholderWritten⟩ := written
      have isFunction : ifNotExistsName.toList.all Token.isFunctionChar = true := by decide
      simp only [text, Source.tokens, List.append_assoc, List.cons_append, List.nil_append]
      refine Token.ofText?_function (by decide) (List.all_eq_true.mp isFunction)
        (Token.delimited_cons rfl) ?_
      refine Token.ofText?_mark rfl (by decide) rfl ?_
      refine Token.ofText?_name nameWritten (Token.delimited_cons rfl) ?_
      refine Token.ofText?_mark rfl (by decide) rfl ?_
      rw [Token.ofText?_blank]
      refine Token.ofText?_value placeholderWritten (Token.delimited_cons rfl) ?_
      exact Token.ofText?_mark rfl (by decide) rfl tail

theorem read_tokens (source : Source String) (rest : List Token) :
    read (source.tokens ++ rest) = some (source, rest) := by
  cases source <;> rfl

end Source

namespace Assignment

def text (assignment : Assignment String) : List Char :=
  assignment.name.toList ++ [' ', '=', ' '] ++ assignment.source.text

def tokens (assignment : Assignment String) : List Token :=
  .name assignment.name :: .comparison .eq :: assignment.source.tokens

def allTokens : List (Assignment String) → List Token
  | [] => []
  | [assignment] => assignment.tokens
  | assignment :: next :: rest => assignment.tokens ++ .comma :: allTokens (next :: rest)

structure IsWritten (assignment : Assignment String) : Prop where
  name : IsPlaceholder '#' assignment.name
  source : assignment.source.IsWritten

variable {assignments : List (Assignment String)}

theorem ofText?_text {assignment : Assignment String} {rest : List Char} {tokens : List Token}
    (written : assignment.IsWritten) (ends : Token.Delimited rest)
    (tail : Token.ofText? rest = some tokens) :
    Token.ofText? (assignment.text ++ rest) = some (assignment.tokens ++ tokens) := by
  simp only [text, Assignment.tokens, List.append_assoc, List.cons_append, List.nil_append]
  refine Token.ofText?_name written.name (Token.delimited_cons rfl) ?_
  rw [Token.ofText?_blank]
  have sourceRead := Source.ofText?_text written.source ends tail
  have equality : Token.ofWord? ['='] = some (.comparison .eq) := rfl
  have nonempty : (['='] : List Char) ≠ [] := by decide
  refine Token.ofText?_word nonempty (Token.isSeparator_eq_false_of_all rfl)
    (Token.delimited_cons rfl) equality ?_
  rw [Token.ofText?_blank, sourceRead]

theorem ofText?_join (written : ∀ assignment ∈ assignments, assignment.IsWritten) :
    Token.ofText? (Piece.join [',', ' '] (assignments.map text)) =
      some (allTokens assignments) := by
  induction assignments with
  | nil => rfl
  | cons assignment others induction =>
      have headWritten := written assignment List.mem_cons_self
      have othersRead := induction fun other member =>
        written other (List.mem_cons_of_mem _ member)
      cases others with
      | nil =>
          have nothing : Token.ofText? [] = some [] := rfl
          simpa [Piece.join, allTokens] using
            ofText?_text headWritten Token.delimited_nil nothing
      | cons next others =>
          simp only [List.map_cons, Piece.join, allTokens, List.append_assoc, List.cons_append,
            List.nil_append] at othersRead ⊢
          refine ofText?_text headWritten (Token.delimited_cons rfl) ?_
          refine Token.ofText?_mark rfl (by decide) rfl ?_
          rw [Token.ofText?_blank, othersRead]

theorem read_tokens (assignment : Assignment String) (rest : List Token) :
    read (assignment.tokens ++ rest) = some (assignment, rest) := by
  simp only [tokens, List.cons_append, read]
  rw [Source.read_tokens]
  rfl

theorem length_le_allTokens (assignments : List (Assignment String)) :
    assignments.length ≤ (allTokens assignments).length := by
  induction assignments with
  | nil => simp
  | cons assignment others induction =>
      cases others with
      | nil => simp [allTokens, tokens]
      | cons next others =>
          simp only [allTokens, List.length_cons, List.length_append, tokens] at induction ⊢
          omega

theorem readAll_allTokens (nonempty : assignments ≠ []) {count : Nat}
    (enough : assignments.length ≤ count) :
    readAll count (allTokens assignments) = some assignments := by
  induction assignments generalizing count with
  | nil => exact absurd rfl nonempty
  | cons assignment others induction =>
      cases count with
      | zero => simp at enough
      | succ count =>
          cases others with
          | nil =>
              have headRead := read_tokens assignment []
              rw [List.append_nil] at headRead
              rw [allTokens, readAll, headRead]
          | cons next others =>
              have othersRead := induction (by simp) (Nat.le_of_succ_le_succ enough)
              rw [allTokens, readAll, read_tokens]
              simp only
              rw [othersRead]
              rfl

/-- Reading the text of assignments gives the assignments back. -/
theorem parse?_text (nonempty : assignments ≠ [])
    (written : ∀ assignment ∈ assignments, assignment.IsWritten) :
    parse? (['S', 'E', 'T', ' '] ++ Piece.join [',', ' '] (assignments.map text)) =
      some assignments := by
  have split : Token.words (['S', 'E', 'T', ' '] ++ Piece.join [',', ' '] (assignments.map text)) =
      ['S', 'E', 'T'] :: Token.words (Piece.join [',', ' '] (assignments.map text)) := by
    have first : (['S', 'E', 'T'] : List Char) ≠ [] := by decide
    exact Token.words_append first (Token.isSeparator_eq_false_of_all rfl)
      (Token.delimited_cons rfl)
  have scanned := ofText?_join written
  rw [Token.ofText?] at scanned
  rw [parse?, split]
  simp only
  rw [scanned, Option.bind_some]
  exact readAll_allTokens nonempty (length_le_allTokens assignments)

example : parse? "SET #u1 = :u1, #u2 = if_not_exists(#u2, :u2)".toList =
    some [{ name := "#u1", source := .operand ":u1" },
      { name := "#u2", source := .ifNotExists "#u2" ":u2" }] := rfl

end Assignment

/-! ## Statements of documents -/

namespace Document

variable {document : Document} {isExact : String → Bool} {fragment : Fragment}

/-- The assignments that set the fields of a document, of which those that are not exact
keep what an item has. -/
def assignments (document : Document) (isExact : String → Bool) : List (Assignment Value) :=
  document.map fun field =>
    { name := field.1
      source := if isExact field.1 then .operand field.2 else .ifNotExists field.1 field.2 }

def numberedAssignment (isExact : String → Bool) (entry : (String × Value) × Nat) :
    Assignment String :=
  let name := String.ofList (Placeholder.nameChars ['u'] entry.2)
  let value := String.ofList (Placeholder.valueChars ['u'] entry.2)
  { name, source := if isExact entry.1.1 then .operand value else .ifNotExists name value }

theorem numberedAssignment_text (isExact : String → Bool) (entry : (String × Value) × Nat) :
    (numberedAssignment isExact entry).text = setClause (isExact entry.1.1) entry.2 := by
  simp only [Assignment.text, numberedAssignment, String.toList_ofList]
  cases isExact entry.1.1 with
  | true => simp [setClause, Source.text]
  | false => simp [setClause, Source.text, Source.ifNotExistsName]

theorem numberedAssignment_isWritten (isExact : String → Bool) (entry : (String × Value) × Nat) :
    (numberedAssignment isExact entry).IsWritten := by
  have stemmed : Placeholder.IsStem ['u'] := by simp [Placeholder.IsStem]
  have nameWritten : IsPlaceholder '#' (String.ofList (Placeholder.nameChars ['u'] entry.2)) :=
    Placeholder.isPlaceholder_ofList stemmed (by simp) '#' entry.2
  have valueWritten : IsPlaceholder ':' (String.ofList (Placeholder.valueChars ['u'] entry.2)) :=
    Placeholder.isPlaceholder_ofList stemmed (by simp) ':' entry.2
  refine ⟨nameWritten, ?_⟩
  simp only [numberedAssignment]
  split
  · exact valueWritten
  · exact ⟨nameWritten, valueWritten⟩

theorem resolveAll?_numberedAssignments {names : Entries String} {values : Entries Value}
    (numbered : List ((String × Value) × Nat))
    (namesExtend : names.Extends (numbered.map fun entry =>
      (String.ofList (Placeholder.nameChars ['u'] entry.2), entry.1.1)))
    (valuesExtend : values.Extends (numbered.map fun entry =>
      (String.ofList (Placeholder.valueChars ['u'] entry.2), entry.1.2))) :
    Assignment.resolveAll? names values (numbered.map (numberedAssignment isExact)) =
      some (assignments (numbered.map Prod.fst) isExact) := by
  induction numbered with
  | nil => rfl
  | cons entry numbered induction =>
      have nameFound := namesExtend _ _ List.mem_cons_self
      have valueFound := valuesExtend _ _ List.mem_cons_self
      have others := induction
        (fun name value member => namesExtend name value (List.mem_cons_of_mem _ member))
        (fun name value member => valuesExtend name value (List.mem_cons_of_mem _ member))
      have first : (numberedAssignment isExact entry).resolve? names values =
          some { name := entry.1.1,
                 source := if isExact entry.1.1 then .operand entry.1.2
                   else .ifNotExists entry.1.1 entry.1.2 } := by
        simp only [Assignment.resolve?, numberedAssignment, nameFound, Option.bind_some]
        split <;> simp [Source.resolve?, nameFound, valueFound]
      rw [List.map_cons, Assignment.resolveAll?, first, others]
      rfl

/-- The statement of a document is read back as the assignments of its fields, also where
its bindings are part of larger ones. -/
theorem setStatement?_assignments {bindings : Bindings}
    (printed : document.setStatement? isExact = some fragment)
    (extended : bindings.Extends fragment) :
    (Assignment.parse? fragment.expression.toList).bind
        (Assignment.resolveAll? bindings.names bindings.values) =
      some (document.assignments isExact) := by
  have nonempty : (document.zipIdx 1).map (numberedAssignment isExact) ≠ [] := by
    rintro empty
    rw [setStatement?, List.map_eq_nil_iff.mp empty] at printed
    cases printed
  rw [setStatement?_eq_some printed] at extended ⊢
  have texts : (document.zipIdx 1).map (fun entry => setClause (isExact entry.1.1) entry.2) =
      ((document.zipIdx 1).map (numberedAssignment isExact)).map Assignment.text := by
    rw [List.map_map]
    exact List.map_congr_left fun entry _ => (numberedAssignment_text isExact entry).symm
  have written : ∀ assignment ∈ (document.zipIdx 1).map (numberedAssignment isExact),
      assignment.IsWritten := by
    intro assignment member
    obtain ⟨entry, -, rfl⟩ := List.mem_map.mp member
    exact numberedAssignment_isWritten isExact entry
  rw [String.toList_ofList, texts, Assignment.parse?_text nonempty written, Option.bind_some,
    resolveAll?_numberedAssignments _ extended.names extended.values, List.zipIdx_map_fst]

/-- The value that a field is set to in an item. -/
def setValue (isExact : String → Bool) (item : Document) (name : String) (value : Value) :
    Value :=
  if isExact name then value else (item.get? name).getD value

/-- Setting the fields of a document changes no other attribute, and keeps what is there of
those that are not exact. -/
theorem execute?_assignments (distinct : document.names.Nodup) (isExact : String → Bool)
    (item : Document) :
    ∃ updated, item.execute? (document.assignments isExact) = some updated ∧
      ∀ name, updated.get? name =
        ((document.get? name).map (setValue isExact item name)).or (item.get? name) := by
  have assigned : (document.assignments isExact).map (·.name) = document.names := by
    simp [assignments, Entries.names]
  have put : (document.assignments isExact).map (fun assignment =>
      (assignment.name, assignment.source.value item)) =
      document.map fun field => (field.1, setValue isExact item field.1 field.2) := by
    rw [assignments, List.map_map]
    refine List.map_congr_left fun field _ => ?_
    simp only [Function.comp_apply, setValue]
    split <;> rfl
  rw [execute?, assigned, if_pos distinct, put]
  refine ⟨_, rfl, fun name => ?_⟩
  rw [Entries.get?_putAll item (by rwa [Entries.names_map]), Entries.get?_map]

end Document

namespace UpdateRequest

variable {document : Document} {isExact : String → Bool} {fragment : Fragment}

theorem assignments?_eq {request : UpdateRequest}
    (printed : document.setStatement? isExact = some fragment)
    (update : request.update = some fragment.expression)
    (extended : request.bindings.Extends fragment) :
    request.assignments? = some (document.assignments isExact) := by
  rw [assignments?, update]
  exact Document.setStatement?_assignments printed extended

theorem assignments?_withUpdate (printed : document.setStatement? isExact = some fragment)
    (tableName : String) (key : Document) :
    (UpdateRequest.withUpdate { tableName, key } fragment).assignments? =
      some (document.assignments isExact) :=
  assignments?_eq printed rfl
    (Bindings.extends_absorb (Document.setStatement?_isLettered printed).closed)

/-- A guard that is bound behind the statement leaves its assignments as they are. -/
theorem assignments?_withCondition (printed : document.setStatement? isExact = some fragment)
    (tableName : String) (key : Document) (guard : Fragment) :
    ((UpdateRequest.withUpdate { tableName, key } fragment).withCondition guard).assignments? =
      some (document.assignments isExact) :=
  assignments?_eq printed rfl
    ((Bindings.extends_absorb (Document.setStatement?_isLettered printed).closed).absorb guard)

end UpdateRequest

end ItemTable
