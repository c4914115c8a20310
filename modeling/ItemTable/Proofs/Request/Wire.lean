import ItemTable.Proofs.Json.Records
import ItemTable.Request.Wire

/-!
# Wire texts read back

The text of a value, of a document, of a fragment or of a request is read as what was written.

A request is a record whose fields are optional or leave out what is empty.  Each field is
written as a value or not at all, and read from its own name, so absent fields and empty
bindings need no cases beyond their own.  Bindings are looked up by placeholder, so the order
in which they are written does not matter.
-/

namespace ItemTable

namespace Bindings

/-- Bindings that can be written: every placeholder stands for one thing, and at most `room`
containers nest in the object of the values. -/
structure IsWritable (room : Nat) (bindings : Bindings) : Prop where
  names : bindings.names.names.Nodup
  values : (Value.map bindings.values).IsWritable room

/-- Bindings under which every placeholder stands for equal things. -/
structure Same (bindings other : Bindings) : Prop where
  names : ∀ placeholder, other.names.get? placeholder = bindings.names.get? placeholder
  values : ∀ placeholder, Option.Rel Value.SameInOrder
    (bindings.values.get? placeholder) (other.values.get? placeholder)

/-- The bindings in some order. -/
structure Reorders (bindings other : Bindings) : Prop where
  names : other.names.Perm bindings.names
  values : other.values.Perm bindings.values

theorem Reorders.refl (bindings : Bindings) : bindings.Reorders bindings :=
  ⟨.refl _, .refl _⟩

/-- The bindings as they are read back. -/
def readBack (bindings : Bindings) : Bindings :=
  { names := bindings.names
    values := Value.readBackFields bindings.values }

variable {bindings other : Bindings} {room : Nat}

theorem IsWritable.room_ne_zero (writable : bindings.IsWritable room) : room ≠ 0 :=
  (Value.isPlain_map.mp writable.values.plain).1

theorem IsWritable.reorder (writable : bindings.IsWritable room)
    (reorders : bindings.Reorders other) : other.IsWritable room := by
  obtain ⟨names, ⟨plain, distinct⟩⟩ := writable
  rw [Value.isPlain_map] at plain
  rw [Value.isDistinct_map] at distinct
  have sameValues := reorders.values
  refine ⟨?_, Value.isPlain_map.mpr ⟨plain.1, ?_⟩, Value.isDistinct_map.mpr ⟨?_, ?_⟩⟩
  · exact (reorders.names.map Prod.fst).nodup_iff.mpr names
  · exact fun name value member => plain.2 name value (sameValues.mem_iff.mp member)
  · exact (sameValues.map Prod.fst).nodup_iff.mpr distinct.1
  · exact fun name value member => distinct.2 name value (sameValues.mem_iff.mp member)

/-- Bindings that are written in some order are read back as the same ones. -/
theorem IsWritable.same_reorder (writable : bindings.IsWritable room)
    (reorders : bindings.Reorders other) : bindings.Same other.readBack := by
  obtain ⟨names, values⟩ := writable
  have distinct := Value.isDistinct_map.mp values.distinct
  have plain := Value.isPlain_map.mp values.plain
  constructor
  · exact Entries.get?_of_perm reorders.names names
  · intro placeholder
    rw [readBack, Value.get?_readBackFields, Entries.get?_of_perm reorders.values distinct.1]
    cases found : bindings.values.get? placeholder with
    | none => exact .none
    | some value =>
        have member := Entries.mem_of_get? found
        have writable : value.IsWritable (room - 1) :=
          ⟨plain.2 _ _ member, distinct.2 _ _ member⟩
        exact .some writable.sameInOrder

end Bindings

namespace Fragment

variable {names : Entries String} {values : Entries Value} {room : Nat}

/-- The bindings of a fragment. -/
def bindings (fragment : Fragment) : Bindings :=
  ⟨fragment.names, fragment.values⟩

/-- Bindings of names as a value. -/
def namesValue (names : Entries String) : Value :=
  .map (names.map fun entry => (entry.1, .string entry.2))

theorem wireNames_eq (names : Entries String) : wireNames names = (namesValue names).wireChars := by
  have each : ∀ entries : Entries String,
      Value.wireFields (entries.map fun entry => (entry.1, .string entry.2)) =
        entries.map fun entry => (entry.1, Json.writeText entry.2) := by
    intro entries
    induction entries with
    | nil => rfl
    | cons entry entries induction =>
        rw [List.map_cons, Value.wireFields, induction]
        rfl
  rw [wireNames, namesValue, Value.wireChars, each]

theorem wireValues_eq (values : Entries Value) :
    wireValues values = (Value.map values).wireChars := by
  rw [wireValues, Value.wireChars]

theorem isPlain_namesValue (inside : room ≠ 0) (names : Entries String) :
    (namesValue names).isPlain room = true := by
  rw [namesValue, Value.isPlain_map]
  refine ⟨inside, fun name value member => ?_⟩
  obtain ⟨entry, -, same⟩ := List.mem_map.mp member
  cases same
  rfl

theorem namesOfJson?_namesValue (inside : room ≠ 0) (distinct : names.names.Nodup) :
    namesOfJson? room (namesValue names).toJson = some names := by
  have each : ∀ name thing, (name, thing) ∈ names →
      Json.text? (room - 1) (Value.string thing).toJson = some (id thing) := fun _ _ _ => rfl
  have read := Json.entries?_toJson Json.text? Value.string id inside each
  rw [namesOfJson?, namesValue, read, Option.map_some]
  simp only [id, List.map_id']
  rw [Entries.ofList_of_nodup distinct]

theorem valuesOfJson?_toJson (writable : (Value.map values).IsWritable room) :
    valuesOfJson? room (Value.map values).toJson = some (Value.readBackFields values) := by
  have distinct := Value.isDistinct_map.mp writable.distinct
  have plain := Value.isPlain_map.mp writable.plain
  have each : ∀ name value, (name, value) ∈ values →
      Value.ofJson? (room - 1) (id value).toJson = some value.readBack := fun name value member =>
    Value.ofJson?_toJson value (plain.2 name value member) (distinct.2 name value member)
  have read := Json.entries?_toJson Value.ofJson? id Value.readBack plain.1 each
  have once : (Entries.names (Value.readBackFields values)).Nodup := by
    rw [Value.names_readBackFields]
    exact distinct.1
  simp only [id, List.map_id'] at read
  rw [valuesOfJson?, read, ← Value.readBackFields_eq_map, Option.map_some,
    Entries.ofList_of_nodup once]

/-- The fields of a fragment, each as a value. -/
def fields (fragment : Fragment) : Entries (Option Value) :=
  [("expression", some (.string fragment.expression)),
    ("names", some (namesValue fragment.names)),
    ("values", some (.map fragment.values))]

theorem read?_wireText {fragment : Fragment}
    (writable : fragment.bindings.IsWritable (Json.depthLimit - 1)) :
    Json.read? ofJson? fragment.wireText =
      some { fragment with values := Value.readBackFields fragment.values } := by
  refine Json.read?_of_fields fragment.fields (by simp [Entries.names, fields]) ?plain ?same ?reads
  case plain =>
    have plain : (Value.map fragment.values).isPlain (Json.depthLimit - 1) = true :=
      writable.values.plain
    simp [fields, isPlain_namesValue writable.room_ne_zero, plain]
  case same =>
    rw [Document.wireFields_present]
    simp [fields, wireNames_eq, wireValues_eq, Value.wireChars]
  case reads =>
    rintro tree record isRecord ⟨-, inside, found⟩
    rw [← inside] at writable
    change tree.record? Json.depthLimit ["expression", "names", "values"] = some record at isRecord
    have names := Json.Record.defaulted_of_tree? [] (found "names")
      (namesOfJson?_namesValue writable.room_ne_zero writable.names)
    have values := Json.Record.defaulted_of_tree? [] (found "values")
      (valuesOfJson?_toJson writable.values)
    rw [ofJson?, isRecord]
    simp only [Option.bind_eq_bind, Option.bind_some,
      Json.Record.required_text (found "expression"), names, values]

end Fragment

theorem Document.wireChars_eq (document : Document) :
    document.wireChars = (Value.map document).wireChars := by
  rw [Document.wireChars, Value.wireChars]

theorem textField_eq (name : String) (text : Option String) :
    textField name text =
      (text.map Value.string).toList.map fun value => (name, value.wireChars) := by
  cases text <;> rfl

theorem forwardField_eq (forward : Option Bool) :
    forwardField forward =
      (forward.map Value.bool).toList.map fun value => ("ScanIndexForward", value.wireChars) := by
  cases forward <;> rfl

theorem limitField_eq {limit : Option Nat} (fits : ∀ value ∈ limit, value < 4294967296) :
    limitField limit =
      (limit.map Value.ofNat).toList.map fun value => ("Limit", value.wireChars) := by
  cases limit with
  | none => rfl
  | some limit =>
      have small : limit < 1000000000000000 := Nat.lt_trans (fits limit rfl) (by decide)
      have text : (Value.ofNat limit).wireChars = Nat.toDigits 10 limit := by
        rw [Value.ofNat, Value.wireChars_number (by rw [Number.shortInt?_ofInt (by omega)]; rfl),
          Value.written_ofNat small, Number.integerText, if_neg (by omega), Int.natAbs_natCast]
      simp [limitField, text]

namespace Bindings

variable {bindings : Bindings} {record : Json.Record} {room : Nat}

/-- Bindings of names as a value, unless there are none. -/
def namesHeld (bindings : Bindings) : Option Value :=
  if bindings.names.isEmpty then none else some (Fragment.namesValue bindings.names)

/-- Bindings of values as a value, unless there are none. -/
def valuesHeld (bindings : Bindings) : Option Value :=
  if bindings.values.isEmpty then none else some (.map bindings.values)

theorem namesField_eq (bindings : Bindings) :
    namesField bindings.names = bindings.namesHeld.toList.map fun value =>
      ("ExpressionAttributeNames", value.wireChars) := by
  rw [namesField, namesHeld, Fragment.wireNames_eq]
  split <;> rfl

theorem valuesField_eq (bindings : Bindings) :
    valuesField bindings.values = bindings.valuesHeld.toList.map fun value =>
      ("ExpressionAttributeValues", value.wireChars) := by
  rw [valuesField, valuesHeld, Fragment.wireValues_eq]
  split <;> rfl

theorem isPlainIfHeld_names (inside : room ≠ 0) (bindings : Bindings) :
    Value.IsPlainIfHeld room bindings.namesHeld := by
  rw [namesHeld]
  split
  · rintro value ⟨⟩
  · exact Value.isPlainIfHeld_some.mpr (Fragment.isPlain_namesValue inside bindings.names)

theorem IsWritable.isPlainIfHeld_values (writable : bindings.IsWritable room) :
    Value.IsPlainIfHeld room bindings.valuesHeld := by
  rw [valuesHeld]
  split
  · rintro value ⟨⟩
  · exact Value.isPlainIfHeld_some.mpr writable.values.plain

/-- Names are read as they were written; where there were none, none are read. -/
theorem defaulted_names (inside : record.room ≠ 0) (distinct : bindings.names.names.Nodup)
    (found : record.tree? "ExpressionAttributeNames" = bindings.namesHeld.map Value.toJson) :
    record.defaulted "ExpressionAttributeNames" [] Fragment.namesOfJson? =
      some bindings.names := by
  rw [namesHeld] at found
  split at found
  · next empty =>
      rw [Json.Record.defaulted, found, List.isEmpty_iff.mp empty]
      rfl
  · exact Json.Record.defaulted_of_tree? [] found
      (Fragment.namesOfJson?_namesValue inside distinct)

theorem defaulted_values (writable : (Value.map bindings.values).IsWritable record.room)
    (found : record.tree? "ExpressionAttributeValues" = bindings.valuesHeld.map Value.toJson) :
    record.defaulted "ExpressionAttributeValues" [] Fragment.valuesOfJson? =
      some (Value.readBackFields bindings.values) := by
  rw [valuesHeld] at found
  split at found
  · next empty =>
      rw [Json.Record.defaulted, found, List.isEmpty_iff.mp empty]
      rfl
  · exact Json.Record.defaulted_of_tree? [] found (Fragment.valuesOfJson?_toJson writable)

theorem ofRecord?_eq (writable : bindings.IsWritable record.room)
    (names : record.tree? "ExpressionAttributeNames" = bindings.namesHeld.map Value.toJson)
    (values : record.tree? "ExpressionAttributeValues" = bindings.valuesHeld.map Value.toJson) :
    ofRecord? record = some bindings.readBack := by
  rw [ofRecord?, defaulted_names writable.room_ne_zero writable.names names,
    defaulted_values writable.values values]
  rfl

end Bindings

namespace PutRequest

/-- The fields of a request, each as a value if it is there. -/
def fields (request : PutRequest) : Entries (Option Value) :=
  [("TableName", some (.string request.tableName)),
    ("Item", some (.map request.item)),
    ("ConditionExpression", request.condition.map .string),
    ("ExpressionAttributeNames", request.bindings.namesHeld),
    ("ExpressionAttributeValues", request.bindings.valuesHeld)]

theorem wireFields_eq (request : PutRequest) :
    request.wireFields = Value.wireFields (Document.present request.fields) := by
  rw [Document.wireFields_present]
  simp [wireFields, fields, Bindings.wireFields, textField_eq, Bindings.namesField_eq,
    Bindings.valuesField_eq, Document.wireChars_eq, Value.wireChars, Json.writeText]

theorem read?_wireFields {request : PutRequest}
    (item : (Value.map request.item).IsWritable (Json.depthLimit - 1))
    (bindings : request.bindings.IsWritable (Json.depthLimit - 1)) :
    Json.read? ofJson? (String.ofList (Json.writeObject request.wireFields)) =
      some { request with
        item := Value.readBackFields request.item
        bindings := request.bindings.readBack } := by
  refine Json.read?_of_fields request.fields (by simp [Entries.names, fields]) ?plain
    (wireFields_eq request) ?reads
  case plain => simp [fields, item.plain, Bindings.isPlainIfHeld_names bindings.room_ne_zero,
    bindings.isPlainIfHeld_values]
  case reads =>
    rintro tree record isRecord ⟨isObject, inside, found⟩
    rw [← inside] at item bindings
    change tree.record? Json.depthLimit
      ["TableName", "Item", "ConditionExpression", "ExpressionAttributeNames",
        "ExpressionAttributeValues"] = some record at isRecord
    rw [ofJson?, isRecord]
    simp only [Option.bind_eq_bind, Option.bind_some,
      Json.Record.required_text (found "TableName"),
      Json.Record.required_document item (found "Item"),
      Json.Record.optional_text isObject (found "ConditionExpression"),
      Bindings.ofRecord?_eq bindings (found _) (found _)]

end PutRequest

namespace UpdateRequest

def fields (request : UpdateRequest) : Entries (Option Value) :=
  [("TableName", some (.string request.tableName)),
    ("Key", some (.map request.key)),
    ("UpdateExpression", request.update.map .string),
    ("ConditionExpression", request.condition.map .string),
    ("ExpressionAttributeNames", request.bindings.namesHeld),
    ("ExpressionAttributeValues", request.bindings.valuesHeld)]

theorem wireFields_eq (request : UpdateRequest) :
    request.wireFields = Value.wireFields (Document.present request.fields) := by
  rw [Document.wireFields_present]
  simp [wireFields, fields, Bindings.wireFields, textField_eq, Bindings.namesField_eq,
    Bindings.valuesField_eq, Document.wireChars_eq, Value.wireChars, Json.writeText]

theorem read?_wireFields {request : UpdateRequest}
    (key : (Value.map request.key).IsWritable (Json.depthLimit - 1))
    (bindings : request.bindings.IsWritable (Json.depthLimit - 1)) :
    Json.read? ofJson? (String.ofList (Json.writeObject request.wireFields)) =
      some { request with
        key := Value.readBackFields request.key
        bindings := request.bindings.readBack } := by
  refine Json.read?_of_fields request.fields (by simp [Entries.names, fields]) ?plain
    (wireFields_eq request) ?reads
  case plain => simp [fields, key.plain, Bindings.isPlainIfHeld_names bindings.room_ne_zero,
    bindings.isPlainIfHeld_values]
  case reads =>
    rintro tree record isRecord ⟨isObject, inside, found⟩
    rw [← inside] at key bindings
    change tree.record? Json.depthLimit
      ["TableName", "Key", "UpdateExpression", "ConditionExpression",
        "ExpressionAttributeNames", "ExpressionAttributeValues"] = some record at isRecord
    rw [ofJson?, isRecord]
    simp only [Option.bind_eq_bind, Option.bind_some,
      Json.Record.required_text (found "TableName"),
      Json.Record.required_document key (found "Key"),
      Json.Record.optional_text isObject (found "UpdateExpression"),
      Json.Record.optional_text isObject (found "ConditionExpression"),
      Bindings.ofRecord?_eq bindings (found _) (found _)]

end UpdateRequest

namespace DeleteRequest

def fields (request : DeleteRequest) : Entries (Option Value) :=
  [("TableName", some (.string request.tableName)),
    ("Key", some (.map request.key)),
    ("ConditionExpression", request.condition.map .string),
    ("ExpressionAttributeNames", request.bindings.namesHeld),
    ("ExpressionAttributeValues", request.bindings.valuesHeld)]

theorem wireFields_eq (request : DeleteRequest) :
    request.wireFields = Value.wireFields (Document.present request.fields) := by
  rw [Document.wireFields_present]
  simp [wireFields, fields, Bindings.wireFields, textField_eq, Bindings.namesField_eq,
    Bindings.valuesField_eq, Document.wireChars_eq, Value.wireChars, Json.writeText]

theorem read?_wireFields {request : DeleteRequest}
    (key : (Value.map request.key).IsWritable (Json.depthLimit - 1))
    (bindings : request.bindings.IsWritable (Json.depthLimit - 1)) :
    Json.read? ofJson? (String.ofList (Json.writeObject request.wireFields)) =
      some { request with
        key := Value.readBackFields request.key
        bindings := request.bindings.readBack } := by
  refine Json.read?_of_fields request.fields (by simp [Entries.names, fields]) ?plain
    (wireFields_eq request) ?reads
  case plain => simp [fields, key.plain, Bindings.isPlainIfHeld_names bindings.room_ne_zero,
    bindings.isPlainIfHeld_values]
  case reads =>
    rintro tree record isRecord ⟨isObject, inside, found⟩
    rw [← inside] at key bindings
    change tree.record? Json.depthLimit
      ["TableName", "Key", "ConditionExpression", "ExpressionAttributeNames",
        "ExpressionAttributeValues"] = some record at isRecord
    rw [ofJson?, isRecord]
    simp only [Option.bind_eq_bind, Option.bind_some,
      Json.Record.required_text (found "TableName"),
      Json.Record.required_document key (found "Key"),
      Json.Record.optional_text isObject (found "ConditionExpression"),
      Bindings.ofRecord?_eq bindings (found _) (found _)]

end DeleteRequest

namespace GetRequest

def fields (request : GetRequest) : Entries (Option Value) :=
  [("TableName", some (.string request.tableName)),
    ("Key", some (.map request.key)),
    ("ProjectionExpression", request.projection.map .string),
    ("ExpressionAttributeNames", Bindings.namesHeld ⟨request.names, []⟩)]

theorem wireFields_eq (request : GetRequest) :
    request.wireFields = Value.wireFields (Document.present request.fields) := by
  have names := Bindings.namesField_eq ⟨request.names, []⟩
  rw [Document.wireFields_present]
  simp [wireFields, fields, textField_eq, names, Document.wireChars_eq, Value.wireChars,
    Json.writeText]

theorem read?_wireFields {request : GetRequest}
    (key : (Value.map request.key).IsWritable (Json.depthLimit - 1))
    (distinct : request.names.names.Nodup) :
    Json.read? ofJson? (String.ofList (Json.writeObject request.wireFields)) =
      some { request with key := Value.readBackFields request.key } := by
  refine Json.read?_of_fields request.fields (by simp [Entries.names, fields]) ?plain
    (wireFields_eq request) ?reads
  case plain => simp [fields, key.plain, Bindings.isPlainIfHeld_names Json.inside_ne_zero]
  case reads =>
    rintro tree record isRecord ⟨isObject, inside, found⟩
    rw [← inside] at key
    change tree.record? Json.depthLimit
      ["TableName", "Key", "ProjectionExpression", "ExpressionAttributeNames"] =
        some record at isRecord
    rw [ofJson?, isRecord]
    simp only [Option.bind_eq_bind, Option.bind_some,
      Json.Record.required_text (found "TableName"),
      Json.Record.required_document key (found "Key"),
      Json.Record.optional_text isObject (found "ProjectionExpression"),
      Bindings.defaulted_names (inside ▸ Json.inside_ne_zero) distinct (found _)]

end GetRequest

namespace QueryRequest

def fields (request : QueryRequest) : Entries (Option Value) :=
  [("TableName", some (.string request.tableName)),
    ("IndexName", request.index.map .string),
    ("KeyConditionExpression", some (.string request.keyCondition)),
    ("FilterExpression", request.filter.map .string),
    ("ProjectionExpression", request.projection.map .string),
    ("ExpressionAttributeNames", request.bindings.namesHeld),
    ("ExpressionAttributeValues", request.bindings.valuesHeld),
    ("ScanIndexForward", request.forward.map .bool),
    ("Limit", request.limit.map .ofNat)]

theorem wireFields_eq {request : QueryRequest}
    (fits : ∀ limit ∈ request.limit, limit < 4294967296) :
    request.wireFields = Value.wireFields (Document.present request.fields) := by
  rw [Document.wireFields_present]
  simp [wireFields, fields, Bindings.wireFields, textField_eq, forwardField_eq, limitField_eq fits,
    Bindings.namesField_eq, Bindings.valuesField_eq, Value.wireChars, Json.writeText]

theorem read?_wireFields {request : QueryRequest}
    (bindings : request.bindings.IsWritable (Json.depthLimit - 1))
    (fits : ∀ limit ∈ request.limit, limit < 4294967296) :
    Json.read? ofJson? (String.ofList (Json.writeObject request.wireFields)) =
      some { request with bindings := request.bindings.readBack } := by
  refine Json.read?_of_fields request.fields (by simp [Entries.names, fields]) ?plain
    (wireFields_eq fits) ?reads
  case plain => simp [fields, Bindings.isPlainIfHeld_names bindings.room_ne_zero,
    bindings.isPlainIfHeld_values, Value.isPlainIfHeld_count fits]
  case reads =>
    rintro tree record isRecord ⟨isObject, inside, found⟩
    rw [← inside] at bindings
    change tree.record? Json.depthLimit
      ["TableName", "IndexName", "KeyConditionExpression", "FilterExpression",
        "ProjectionExpression", "ExpressionAttributeNames", "ExpressionAttributeValues",
        "ScanIndexForward", "Limit"] = some record at isRecord
    rw [ofJson?, isRecord]
    simp only [Option.bind_eq_bind, Option.bind_some,
      Json.Record.required_text (found "TableName"),
      Json.Record.optional_text isObject (found "IndexName"),
      Json.Record.required_text (found "KeyConditionExpression"),
      Json.Record.optional_text isObject (found "FilterExpression"),
      Json.Record.optional_text isObject (found "ProjectionExpression"),
      Bindings.ofRecord?_eq bindings (found _) (found _),
      Json.Record.optional_flag isObject (found "ScanIndexForward"),
      Json.Record.optional_count fits isObject (found "Limit")]

end QueryRequest

namespace ScanRequest

def fields (request : ScanRequest) : Entries (Option Value) :=
  [("TableName", some (.string request.tableName)),
    ("IndexName", request.index.map .string),
    ("FilterExpression", request.filter.map .string),
    ("ProjectionExpression", request.projection.map .string),
    ("ExpressionAttributeNames", request.bindings.namesHeld),
    ("ExpressionAttributeValues", request.bindings.valuesHeld),
    ("Limit", request.limit.map .ofNat)]

theorem wireFields_eq {request : ScanRequest}
    (fits : ∀ limit ∈ request.limit, limit < 4294967296) :
    request.wireFields = Value.wireFields (Document.present request.fields) := by
  rw [Document.wireFields_present]
  simp [wireFields, fields, Bindings.wireFields, textField_eq, limitField_eq fits,
    Bindings.namesField_eq, Bindings.valuesField_eq, Value.wireChars, Json.writeText]

theorem read?_wireFields {request : ScanRequest}
    (bindings : request.bindings.IsWritable (Json.depthLimit - 1))
    (fits : ∀ limit ∈ request.limit, limit < 4294967296) :
    Json.read? ofJson? (String.ofList (Json.writeObject request.wireFields)) =
      some { request with bindings := request.bindings.readBack } := by
  refine Json.read?_of_fields request.fields (by simp [Entries.names, fields]) ?plain
    (wireFields_eq fits) ?reads
  case plain => simp [fields, Bindings.isPlainIfHeld_names bindings.room_ne_zero,
    bindings.isPlainIfHeld_values, Value.isPlainIfHeld_count fits]
  case reads =>
    rintro tree record isRecord ⟨isObject, inside, found⟩
    rw [← inside] at bindings
    change tree.record? Json.depthLimit
      ["TableName", "IndexName", "FilterExpression", "ProjectionExpression",
        "ExpressionAttributeNames", "ExpressionAttributeValues", "Limit"] = some record at isRecord
    rw [ofJson?, isRecord]
    simp only [Option.bind_eq_bind, Option.bind_some,
      Json.Record.required_text (found "TableName"),
      Json.Record.optional_text isObject (found "IndexName"),
      Json.Record.optional_text isObject (found "FilterExpression"),
      Json.Record.optional_text isObject (found "ProjectionExpression"),
      Bindings.ofRecord?_eq bindings (found _) (found _),
      Json.Record.optional_count fits isObject (found "Limit")]

end ScanRequest

namespace Json

variable {value : Value} {document : Document} {room : Nat}

theorem read?_wireText (writable : value.IsWritable depthLimit) :
    read? Value.ofJson? value.wireText = some value.readBack := by
  rw [read?, Value.parse?_wireText writable.plain, Option.bind_some,
    Value.ofJson?_toJson value writable.plain writable.distinct]

theorem read?_document_wireText (writable : (Value.map document).IsWritable depthLimit) :
    read? Document.ofJson? document.wireText = some (Value.readBackFields document) := by
  have text : document.wireText = (Value.map document).wireText := by
    rw [Document.wireText, Value.wireText, Document.wireChars_eq]
  rw [read?, text, Value.parse?_wireText writable.plain, Option.bind_some, Document.ofJson?,
    Value.ofJson?_toJson _ writable.plain writable.distinct]
  rfl

end Json

/-- The text of a value or a document, and of a fragment or a request with its bindings in any
order, is read as an equal one.  Values are built from null, booleans, integers of magnitude
below `10 ^ 15`, strings, lists and documents, nested no deeper than texts may be. -/
theorem wire_texts_read_back :
    (∀ value : Value, value.IsWritable Json.depthLimit →
      ∃ other, Json.read? Value.ofJson? value.wireText = some other ∧
        value.SameInOrder other) ∧
    (∀ document : Document, (Value.map document).IsWritable Json.depthLimit →
      ∃ other, Json.read? Document.ofJson? document.wireText = some other ∧
        (Value.map document).SameInOrder (.map other)) ∧
    (∀ (fragment : Fragment) (order : Bindings),
      fragment.bindings.IsWritable (Json.depthLimit - 1) → fragment.bindings.Reorders order →
      ∃ names values,
        Json.read? Fragment.ofJson?
            (Fragment.wireText { fragment with names := order.names, values := order.values }) =
          some { fragment with names, values } ∧
        fragment.bindings.Same ⟨names, values⟩) ∧
    (∀ (request : PutRequest) (order : Bindings),
      (Value.map request.item).IsWritable (Json.depthLimit - 1) →
      request.bindings.IsWritable (Json.depthLimit - 1) → request.bindings.Reorders order →
      ∃ item bindings,
        Json.read? PutRequest.ofJson? (String.ofList (Json.writeObject
            (PutRequest.wireFields { request with bindings := order }))) =
          some { request with item, bindings } ∧
        (Value.map request.item).SameInOrder (.map item) ∧ request.bindings.Same bindings) ∧
    (∀ (request : UpdateRequest) (order : Bindings),
      (Value.map request.key).IsWritable (Json.depthLimit - 1) →
      request.bindings.IsWritable (Json.depthLimit - 1) → request.bindings.Reorders order →
      ∃ key bindings,
        Json.read? UpdateRequest.ofJson? (String.ofList (Json.writeObject
            (UpdateRequest.wireFields { request with bindings := order }))) =
          some { request with key, bindings } ∧
        (Value.map request.key).SameInOrder (.map key) ∧ request.bindings.Same bindings) ∧
    (∀ (request : DeleteRequest) (order : Bindings),
      (Value.map request.key).IsWritable (Json.depthLimit - 1) →
      request.bindings.IsWritable (Json.depthLimit - 1) → request.bindings.Reorders order →
      ∃ key bindings,
        Json.read? DeleteRequest.ofJson? (String.ofList (Json.writeObject
            (DeleteRequest.wireFields { request with bindings := order }))) =
          some { request with key, bindings } ∧
        (Value.map request.key).SameInOrder (.map key) ∧ request.bindings.Same bindings) ∧
    (∀ (request : GetRequest) (order : Entries String),
      (Value.map request.key).IsWritable (Json.depthLimit - 1) →
      request.names.names.Nodup → order.Perm request.names →
      ∃ key names,
        Json.read? GetRequest.ofJson? (String.ofList (Json.writeObject
            (GetRequest.wireFields { request with names := order }))) =
          some { request with key, names } ∧
        (Value.map request.key).SameInOrder (.map key) ∧
        ∀ placeholder, names.get? placeholder = request.names.get? placeholder) ∧
    (∀ (request : QueryRequest) (order : Bindings),
      request.bindings.IsWritable (Json.depthLimit - 1) → request.bindings.Reorders order →
      (∀ limit ∈ request.limit, limit < 4294967296) →
      ∃ bindings,
        Json.read? QueryRequest.ofJson? (String.ofList (Json.writeObject
            (QueryRequest.wireFields { request with bindings := order }))) =
          some { request with bindings } ∧
        request.bindings.Same bindings) ∧
    (∀ (request : ScanRequest) (order : Bindings),
      request.bindings.IsWritable (Json.depthLimit - 1) → request.bindings.Reorders order →
      (∀ limit ∈ request.limit, limit < 4294967296) →
      ∃ bindings,
        Json.read? ScanRequest.ofJson? (String.ofList (Json.writeObject
            (ScanRequest.wireFields { request with bindings := order }))) =
          some { request with bindings } ∧
        request.bindings.Same bindings) := by
  refine ⟨?value, ?document, ?fragment, ?put, ?update, ?delete, ?get, ?query, ?scan⟩
  case value =>
    intro value writable
    exact ⟨_, Json.read?_wireText writable, writable.sameInOrder⟩
  case document =>
    intro document writable
    exact ⟨_, Json.read?_document_wireText writable, writable.sameInOrder⟩
  case fragment =>
    intro fragment order writable reorders
    exact ⟨_, _, Fragment.read?_wireText (writable.reorder reorders),
      writable.same_reorder reorders⟩
  case put =>
    intro request order item bindings reorders
    exact ⟨_, _, PutRequest.read?_wireFields item (bindings.reorder reorders), item.sameInOrder,
      bindings.same_reorder reorders⟩
  case update =>
    intro request order key bindings reorders
    exact ⟨_, _, UpdateRequest.read?_wireFields key (bindings.reorder reorders), key.sameInOrder,
      bindings.same_reorder reorders⟩
  case delete =>
    intro request order key bindings reorders
    exact ⟨_, _, DeleteRequest.read?_wireFields key (bindings.reorder reorders), key.sameInOrder,
      bindings.same_reorder reorders⟩
  case get =>
    intro request order key distinct reorders
    have distinctOrder := (reorders.map Prod.fst).nodup_iff.mpr distinct
    exact ⟨_, _, GetRequest.read?_wireFields key distinctOrder, key.sameInOrder,
      Entries.get?_of_perm reorders distinct⟩
  case query =>
    intro request order bindings reorders fits
    exact ⟨_, QueryRequest.read?_wireFields (bindings.reorder reorders) fits,
      bindings.same_reorder reorders⟩
  case scan =>
    intro request order bindings reorders fits
    exact ⟨_, ScanRequest.read?_wireFields (bindings.reorder reorders) fits,
      bindings.same_reorder reorders⟩

/-- A stay of a guest, with a name that is escaped and rooms inside a list. -/
def stay : Document :=
  [("guest", .string "Ada \"A\"\n"),
    ("nights", .number (.ofInt (-2))),
    ("rooms", .list [.null, .bool true, .map [("floor", .number (.ofInt 3)), ("door", .null)]])]

/-- A fragment about stays. -/
def likeStay : Fragment :=
  { expression := "#room = :stay OR #guest = :none"
    names := [("#room", "rooms"), ("#guest", "guest")]
    values := [(":stay", .map stay), (":none", .map [])] }

/-- The bindings of the fragment in another order. -/
def turned : Bindings :=
  { names := [("#guest", "guest"), ("#room", "rooms")]
    values := [(":none", .map []), (":stay", .map stay)] }

/-- The request that stores a stay. -/
def newStay : PutRequest :=
  { tableName := "stays", item := stay }

/-- The request that changes a stay. -/
def changedStay : UpdateRequest :=
  { tableName := "stays"
    key := stay
    update := some "SET #guest = :none"
    bindings := ⟨likeStay.names, likeStay.values⟩ }

/-- The request that deletes a stay. -/
def endedStay : DeleteRequest :=
  { tableName := "stays", key := stay, condition := some "" }

/-- The request that reads one attribute of a stay. -/
def guestOfStay : GetRequest :=
  { tableName := "stays", key := stay, projection := some "#guest", names := likeStay.names }

/-- Some stays, the latest first. -/
def latestStays : QueryRequest :=
  { tableName := "stays"
    keyCondition := likeStay.expression
    bindings := ⟨likeStay.names, likeStay.values⟩
    forward := some false
    limit := some 10 }

/-- All stays of an index. -/
def allStays : ScanRequest :=
  { tableName := "stays", index := some "by guest" }

theorem wire_texts_read_back_of_stay :
    (∃ other, Json.read? Value.ofJson? (Value.map stay).wireText = some other ∧
      (Value.map stay).SameInOrder other) ∧
    (∃ other, Json.read? Document.ofJson? stay.wireText = some other ∧
      (Value.map stay).SameInOrder (.map other)) ∧
    (∃ names values,
      Json.read? Fragment.ofJson?
          (Fragment.wireText { likeStay with names := turned.names, values := turned.values }) =
        some { likeStay with names, values } ∧
      likeStay.bindings.Same ⟨names, values⟩) ∧
    (∃ item bindings,
      Json.read? PutRequest.ofJson? (String.ofList (Json.writeObject newStay.wireFields)) =
        some { newStay with item, bindings } ∧
      (Value.map stay).SameInOrder (.map item) ∧ newStay.bindings.Same bindings) ∧
    (∃ key bindings,
      Json.read? UpdateRequest.ofJson? (String.ofList (Json.writeObject
          (UpdateRequest.wireFields { changedStay with bindings := turned }))) =
        some { changedStay with key, bindings } ∧
      (Value.map stay).SameInOrder (.map key) ∧ changedStay.bindings.Same bindings) ∧
    (∃ key bindings,
      Json.read? DeleteRequest.ofJson? (String.ofList (Json.writeObject endedStay.wireFields)) =
        some { endedStay with key, bindings } ∧
      (Value.map stay).SameInOrder (.map key) ∧ endedStay.bindings.Same bindings) ∧
    (∃ key names,
      Json.read? GetRequest.ofJson? (String.ofList (Json.writeObject
          (GetRequest.wireFields { guestOfStay with names := turned.names }))) =
        some { guestOfStay with key, names } ∧
      (Value.map stay).SameInOrder (.map key) ∧
      ∀ placeholder, names.get? placeholder = guestOfStay.names.get? placeholder) ∧
    (∃ bindings,
      Json.read? QueryRequest.ofJson? (String.ofList (Json.writeObject
          (QueryRequest.wireFields { latestStays with bindings := turned }))) =
        some { latestStays with bindings } ∧
      latestStays.bindings.Same bindings) ∧
    ∃ bindings,
      Json.read? ScanRequest.ofJson? (String.ofList (Json.writeObject allStays.wireFields)) =
        some { allStays with bindings } ∧
      allStays.bindings.Same bindings := by
  have reorders : likeStay.bindings.Reorders turned := ⟨.swap _ _ _, .swap _ _ _⟩
  obtain ⟨value, document, fragment, put, update, delete, get, query, scan⟩ := wire_texts_read_back
  refine ⟨value (.map stay) ⟨rfl, rfl⟩, document stay ⟨rfl, rfl⟩,
    fragment likeStay turned ⟨by decide, rfl, rfl⟩ reorders,
    put newStay _ ⟨rfl, rfl⟩ ⟨.nil, rfl, rfl⟩ (.refl _),
    update changedStay turned ⟨rfl, rfl⟩ ⟨by decide, rfl, rfl⟩ reorders,
    delete endedStay _ ⟨rfl, rfl⟩ ⟨.nil, rfl, rfl⟩ (.refl _),
    get guestOfStay turned.names ⟨rfl, rfl⟩ (by decide) reorders.names,
    query latestStays turned ⟨by decide, rfl, rfl⟩ reorders ?limited,
    scan allStays _ ⟨.nil, rfl, rfl⟩ (.refl _) ?unlimited⟩
  case limited =>
    rintro limit ⟨⟩
    decide
  case unlimited =>
    rintro limit ⟨⟩

end ItemTable
