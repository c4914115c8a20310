import ItemTable.Coercion.Error
import ItemTable.Value.Date
import ItemTable.Value.Text

/-!
# Stored values

One value is stored by its property's `set` transform and then by its type; it is
read back by its type and then by the `get` transform.  Of the types only dates
are stored in another form.  Null is stored and read as it is.
-/

namespace ItemTable.PropertyTraits

/-- Runs user code on a value. -/
def transform (point : ExtensionPoint) (code : Option Transform) (value : Value) :
    Except CoercionError Value :=
  match code with
  | none => .ok value
  | some run => (run value).mapError fun source => .hook "" point source

/-- The stored form of a date. -/
def storeDate (format : DateFormat) (value : Value) : Except CoercionError Value :=
  match value with
  | .date instant => .ok (instant.toStored format)
  | other => .error (.typeMismatch "" .date other.kind)

/-- The stored form of a value of a type. -/
def storeType (type : AttributeType) (format : DateFormat) (value : Value) :
    Except CoercionError Value :=
  match type with
  | .date => if value.isNull then .ok value else storeDate format value
  | _ => .ok value

/-- The stored form of a value of a property. -/
def store (traits : PropertyTraits) (value : Value) : Except CoercionError Value :=
  if value.isNull then .ok value
  else do
    let value ← transform .set traits.set value
    storeType traits.type traits.format value

/-- The domain form of a stored date. -/
def loadDate (value : Value) : Except CoercionError Value :=
  match value with
  | .date instant => .ok (.date instant)
  | .number _ | .string _ =>
      match value.toInstant? with
      | some instant => .ok (.date instant)
      | none => .error (.invalidDate "" value.displayText)
  | other => .error (.typeMismatch "" .date other.kind)

/-- The domain form of a stored value of a property. -/
def load (traits : PropertyTraits) (value : Value) : Except CoercionError Value := do
  let value ← match traits.type with
    | .date => loadDate value
    | _ => .ok value
  transform .get traits.get value

end ItemTable.PropertyTraits
