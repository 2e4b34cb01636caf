import JavaOutline.Settings.Basic
import JavaOutline.Toml.Document

/-!
# Settings from a document

Settings are read from a TOML document with the sections `logging` and `conversion`. Every field
has a default, and an unknown one is refused. In place of a section there may be an array with the
values of its fields in order; fields without a value keep their defaults. The first fault in the
order of the document is reported.
-/

namespace JavaOutline

/-- Why a value is no setting. -/
inductive FieldError where
  | unknownField (name : String) (expected : List String)
  | invalidType (found : Toml) (expected : String)

/-- Why a document gives no settings. -/
inductive SettingsError where
  /-- The document is not TOML. -/
  | malformed
  /-- A value is no setting. -/
  | field (error : FieldError)

/-- The wording of a fault. -/
def FieldError.message : FieldError → String
  | .unknownField name expected =>
    "unknown field `" ++ name ++ "`, expected "
      ++ " or ".intercalate (expected.map fun name => "`" ++ name ++ "`")
  | .invalidType found expected => "invalid type: " ++ found.title ++ ", expected " ++ expected

/-- The wording of a fault, where it does not depend on how TOML is read. -/
def SettingsError.message? : SettingsError → Option String
  | .malformed => none
  | .field error => some ("failed to parse toml config: " ++ error.message)

namespace Toml

/-- The text that a value is. -/
def asString : Toml → Except FieldError String
  | .string text => .ok text
  | other => .error (.invalidType other "a string")

/-- The truth value that a value is. -/
def asBool : Toml → Except FieldError Bool
  | .boolean value => .ok value
  | other => .error (.invalidType other "a boolean")

/-- The only field that a date or a time has. -/
def datetimeField : String := "$__toml_private_datetime"

/-- Reads a section with the given fields. `set` changes the field of a position; the fields of a
table are found by name, and those of an array by their order. -/
def asSection {α : Type} (title : String) (fields : List String)
    (set : Nat → Toml → α → Except FieldError α) (default : α) : Toml → Except FieldError α
  | .table entries =>
    entries.foldlM (fun values (name, value) =>
      match fields.idxOf? name with
      | some position => set position value values
      | none => .error (.unknownField name fields)) default
  | .array items =>
    ((items.take fields.length).zipIdx).foldlM
      (fun values (value, position) => set position value values) default
  | .datetime => .error (.unknownField datetimeField fields)
  | other => .error (.invalidType other ("struct " ++ title))

end Toml

/-- Reads the section `logging`. -/
def LoggingSettings.ofToml (value : Toml) : Except FieldError LoggingSettings :=
  value.asSection "LoggingConfig" ["level", "json"]
    (fun position value settings =>
      if position = 0 then value.asString.map fun level => { settings with level }
      else value.asBool.map fun json => { settings with json })
    {}

/-- Reads the section `conversion`. -/
def ConversionSettings.ofToml (value : Toml) : Except FieldError ConversionSettings :=
  value.asSection "ConversionOptions" ["verify_ranges"]
    (fun _ value settings => value.asBool.map fun verifyRanges => { settings with verifyRanges })
    {}

/-- Reads the sections of a document. -/
def Settings.ofEntries (entries : List (String × Toml)) : Except FieldError Settings :=
  (Toml.table entries).asSection "DistillConfig" ["logging", "conversion"]
    (fun position value settings =>
      if position = 0 then
        (LoggingSettings.ofToml value).map fun logging => { settings with logging }
      else (ConversionSettings.ofToml value).map fun conversion => { settings with conversion })
    {}

/-- Reads settings from a document. -/
def Settings.read (text : String) : Except SettingsError Settings :=
  match Toml.read? text.toList with
  | none => .error .malformed
  | some entries => (ofEntries entries).mapError .field

/-- What a path leads to. -/
inductive FileContent where
  | missing
  | directory
  | bytes (content : ByteArray)

/-- Why settings cannot be loaded from a path. -/
inductive LoadError where
  | notFound
  | isADirectory
  /-- The file is not UTF-8. -/
  | invalidData
  | settings (error : SettingsError)

/-- Loads settings from what a path leads to. -/
def Settings.load : FileContent → Except LoadError Settings
  | .missing => .error .notFound
  | .directory => .error .isADirectory
  | .bytes content =>
    match String.fromUTF8? content with
    | none => .error .invalidData
    | some text => (read text).mapError .settings

end JavaOutline
