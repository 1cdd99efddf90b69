import Hydration.Json.Reader
import Hydration.Template.Schema

/-!
# Template/Decode — reading a template from a document

A record is read from an object, its members in the order they come, or from an array, its fields
in declared order. Members with unknown names are passed over; fields left out get their defaults.
A tagged record is held back until its tag is known: the whole of it is read as plain JSON first,
and only then as the record its tag names.

Reading stops at the first error. In a document that breaks off (`Json/Draft`) the break is an error
like any other, met when reading comes to it.
-/

namespace Hydration.Template

open Document

/-! ## Errors -/

/-- **What a document can be refused for.** -/
inductive DecodeError where
  | missingField (name : String)
  | duplicateField (name : String)
  | unknownVariant (name : String) (expected : List String)
  /-- A value of the wrong kind. -/
  | invalidType
  /-- A number out of range. -/
  | invalidValue
  /-- An array with too few or too many fields. -/
  | invalidLength
  /-- The text is not JSON. -/
  | defective (defect : Defect)
deriving DecidableEq, Repr

namespace DecodeError

/-- A name in backquotes. -/
def quoted (name : String) : String := "`" ++ name ++ "`"

/-- The message of an error. -/
def message : DecodeError → String
  | .missingField name => "missing field " ++ quoted name
  | .duplicateField name => "duplicate field " ++ quoted name
  | .unknownVariant name expected =>
    "unknown variant " ++ quoted name ++ ", expected one of " ++
      String.intercalate ", " (expected.map quoted)
  | .invalidType => "invalid type"
  | .invalidValue => "invalid value"
  | .invalidLength => "invalid length"
  | .defective .malformed => "malformed text"
  | .defective _ => "unexpected end of text"

end DecodeError

/-- Refuses what has a defect. -/
def refuse? : Option Defect → Except DecodeError Unit
  | none => .ok ()
  | some defect => .error (.defective defect)

/-- **The state a document is read in.** -/
inductive Medium where
  /-- The document is being scanned from a text. -/
  | stream
  /-- The document is a value. -/
  | value
  /-- The document was held back with the tagged record around it. -/
  | held
deriving DecidableEq, Repr

/-! ## Fields -/

/-- **What was read so far for each field of a list.** -/
def Slots : List Field → Type
  | [] => Unit
  | field :: fields => Option field.type.Carrier × Slots fields

/-- Nothing was read yet. -/
def Slots.empty : (fields : List Field) → Slots fields
  | [] => ()
  | _ :: fields => (none, Slots.empty fields)

/-- **Reads a member into the field it names**; a name that fits no field is skipped. -/
def Slots.put (key : String) (skip : Except DecodeError Unit)
    (read : (type : FieldType) → Except DecodeError type.Carrier) :
    (fields : List Field) → Slots fields → Except DecodeError (Slots fields)
  | [], () => do
    skip
    return ()
  | field :: fields, (slot, slots) =>
    if field.name = key then
      match slot with
      | some _ => .error (.duplicateField key)
      | none => do return (some (← read field.type), slots)
    else do return (slot, ← Slots.put key skip read fields slots)

/-- **The values of all fields**, those not read by default. -/
def Slots.finish : (fields : List Field) → Slots fields → Except DecodeError (Values fields)
  | [], () => .ok ()
  | field :: fields, (slot, slots) =>
    match slot <|> field.default with
    | some value => do return (value, ← Slots.finish fields slots)
    | none => .error (.missingField field.name)

/-- The default of every field that an array leaves off at its end. -/
def remainder : (fields : List Field) → Except DecodeError (Values fields)
  | [] => .ok ()
  | field :: fields =>
    match field.default with
    | some value => do return (value, ← remainder fields)
    | none => .error .invalidLength

/-! ## Documents -/

variable {φ : Type} [Flawed φ]

/-- An array goes on behind its last field. A text is not followed there: what it goes on with is
out of place, unless the text just ends. -/
def surplus : Medium → Document φ → DecodeError
  | .stream, .flawed flaw =>
    if Flawed.onRead flaw = .unclosed then .defective .unclosed else .defective .malformed
  | .stream, _ => .defective .malformed
  | _, _ => .invalidLength

/-- Passes over a member that no field is named for. -/
def skipMember : Document φ → Except DecodeError Unit
  | .flawed flaw =>
    if Flawed.inKey flaw then .error (.defective (Flawed.onRead flaw))
    else refuse? (Flawed.onSkip flaw)
  | document => refuse? document.skipDefect?

/-- **The variant a tag names.** In a record held back, a tag may also be a position in the list of
variants. -/
def readTag (medium : Medium) (union : Union) : Document φ → Except DecodeError (Variant union)
  | .string name =>
    match union.variants.find? (·.name == name) with
    | some variant => .ok variant
    | none => .error (.unknownVariant name union.names)
  | .number (.integer (.ofNat position)) =>
    if medium = .held then
      match union.variants[position]? with
      | some variant => .ok variant
      | none => .error .invalidValue
    else .error .invalidType
  | .flawed flaw => .error (.defective (Flawed.onRead flaw))
  | _ => .error .invalidType

/-- **The tag of an object**, all its members read as plain JSON on the way. -/
def findTag (medium : Medium) (union : Union) :
    Option (Variant union) → List (String × Document φ) → Except DecodeError (Variant union)
  | none, [] => .error (.missingField "type")
  | some variant, [] => .ok variant
  | found, (key, value) :: members =>
    if key = "type" then
      if found.isSome then .error (.duplicateField "type")
      else do findTag medium union (some (← readTag medium union value)) members
    else do
      let _ ← value.toJson.mapError .defective
      findTag medium union found members

/-- Reads a field of any type, given how to read one value and how to read a list. -/
def FieldType.accept (one : (base : Base) → Except DecodeError base.Carrier)
    (list : (base : Base) → Except DecodeError (List base.Carrier)) :
    (type : FieldType) → Except DecodeError type.Carrier
  | .one base => one base
  | .optional base => some <$> one base
  | .list base => list base

/-- Reads one value by its base type, where no list fits. -/
def FieldType.acceptOne (one : (base : Base) → Except DecodeError base.Carrier)
    (type : FieldType) : Except DecodeError type.Carrier :=
  type.accept one fun _ => .error .invalidType

/-- Reads null, where it fits. -/
def FieldType.acceptNull : (type : FieldType) → Except DecodeError type.Carrier
  | .optional _ => .ok none
  | _ => .error .invalidType

/-- Reads a truth value, where it fits. -/
def Base.ofBool (value : Bool) : (base : Base) → Except DecodeError base.Carrier
  | .boolean => .ok value
  | _ => .error .invalidType

/-- Reads a string, where it fits. -/
def Base.ofString (value : String) : (base : Base) → Except DecodeError base.Carrier
  | .string => .ok value
  | _ => .error .invalidType

/-- Reads a number, where it fits: an offset is an integer of at most 64 bits. -/
def Base.ofNumber (value : JsonNumber) : (base : Base) → Except DecodeError base.Carrier
  | .number => .ok value.toBinary64
  | .size =>
    match value with
    | .integer (.ofNat n) => if n < Nat.pow 2 64 then .ok n else .error .invalidType
    | .integer (.negSucc _) => .error .invalidValue
    | .real _ => .error .invalidType
  | _ => .error .invalidType

mutual

/-- **Reads a document as a field of the given type.** -/
def read (medium : Medium) : Document φ → (type : FieldType) → Except DecodeError type.Carrier
  | .null, type => type.acceptNull
  | .boolean value, type => type.acceptOne (Base.ofBool value)
  | .number value, type => type.acceptOne (Base.ofNumber value)
  | .string value, type => type.acceptOne (Base.ofString value)
  | .array items, type => type.accept
    (fun
      | .record kind => kind.build <$> readPositional medium items kind.fields
      | .union union =>
        match items with
        | [] => .error (.missingField "type")
        | tag :: items => do
          let variant ← readTag medium union tag
          let _ ← (itemsToJson items).mapError .defective
          return variant.inject (variant.kind.build (← readPositional .held items variant.kind.fields))
      | _ => .error .invalidType)
    (readItems medium items)
  | .object members, type => type.acceptOne fun
    | .record kind => do
      let slots ← readMembers medium members kind.fields (Slots.empty _)
      return kind.build (← slots.finish)
    | .union union => do
      let variant ← findTag medium union none members
      let slots ← readMembers .held members variant.kind.fields (Slots.empty _)
      return variant.inject (variant.kind.build (← slots.finish))
    | _ => .error .invalidType
  | .flawed flaw, _ => .error (.defective (Flawed.onRead flaw))

/-- Reads the items of a list. -/
def readItems (medium : Medium) :
    List (Document φ) → (base : Base) → Except DecodeError (List base.Carrier)
  | [], _ => .ok []
  | item :: items, base => do
    let value ← read medium item (.one base)
    return value :: (← readItems medium items base)

/-- Reads fields in declared order from an array. -/
def readPositional (medium : Medium) :
    List (Document φ) → (fields : List Field) → Except DecodeError (Values fields)
  | [], fields => remainder fields
  | item :: _, [] => .error (surplus medium item)
  | item :: items, field :: fields => do
    let value ← read medium item field.type
    return (value, ← readPositional medium items fields)

/-- Reads fields by name from the members of an object. -/
def readMembers (medium : Medium) : List (String × Document φ) →
    (fields : List Field) → Slots fields → Except DecodeError (Slots fields)
  | [], _, slots => .ok slots
  | (key, value) :: members, fields, slots => do
    let slots ← Slots.put key (skipMember value) (read medium value) fields slots
    readMembers medium members fields slots

end

/-- **Reads a record from a JSON value.** -/
def Kind.ofJson (kind : Kind) (json : Json) : Except DecodeError kind.Carrier :=
  read .value json (.one (.record kind))

/-- **Reads a template from a JSON value**, the members of its objects in the order they come. -/
def ofJson (json : Json) : Except DecodeError Template := Kind.ofJson .template json

/-- The levels of arrays and objects that are read in a text. -/
def levelLimit : Nat := 127

/-- **Reads a template from JSON text**, in the order of the text. -/
def ofText (text : String) : Except DecodeError Template := do
  let scanned := Json.scanText text
  let template ← read .stream (scanned.draft.within levelLimit) (.one (.record .template))
  if scanned.ended then return template else throw (.defective .malformed)

end Hydration.Template
