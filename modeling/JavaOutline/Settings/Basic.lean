import JavaOutline.Log.Filter

/-!
# Settings

The settings of the program. A level by itself applies to the program's own targets, and leaves
all others at warnings; any other text is a list of directives. Directives from the environment
come after those of the settings, and so replace them for the targets that they name.
-/

namespace JavaOutline

/-- What is reported, and how. -/
structure LoggingSettings where
  /-- A level, or directives. -/
  level : String := "info"
  /-- Whether events are written as JSON. -/
  json : Bool := false
  deriving DecidableEq, Repr

/-- How methods are outlined. -/
structure ConversionSettings where
  /-- Whether extents are checked against the source. -/
  verifyRanges : Bool := true
  deriving DecidableEq, Repr

/-- All settings. -/
structure Settings where
  /-- What is reported, and how. -/
  logging : LoggingSettings := {}
  /-- How methods are outlined. -/
  conversion : ConversionSettings := {}
  deriving DecidableEq, Repr

/-- The limit that a text names as a whole: the name of a limit in either case, `warning`, or
nothing, which stands for `info`. -/
def bareLimit? (text : List Char) : Option Limit :=
  let name := asciiLower text
  if name = "" then some (some .info)
  else if name = "warning" then some (some .warn)
  else Limit.all.find? (·.name = name)

namespace LoggingSettings

/-- The directives of the settings. -/
def directives (settings : LoggingSettings) : String :=
  let level := trimWhiteSpace settings.level.toList
  match bareLimit? level with
  | some limit =>
    let own := [outlineTarget, readingTarget].map fun target => (Directive.mk (some target) limit)
    ",".intercalate ((Directive.mk none (some .warn) :: own).map (·.text))
  | none => String.ofList level

/-- The filter of the settings and of the directives of the environment, if there are any. -/
def filter (settings : LoggingSettings) (environment : Option String) : Filter :=
  let extra := trimWhiteSpace (environment.getD "").toList
  let directives := settings.directives.toList
  .ofText (if extra.isEmpty then directives else directives ++ ',' :: extra)

end LoggingSettings

/-- The reporting of events in a process: the settings it was installed with, if it was. -/
structure Reporting where
  /-- The settings in force. -/
  installed : Option LoggingSettings := none

/-- Installs the reporting of events and says whether that changed anything: only the first
installation in a process does. -/
def Reporting.install (reporting : Reporting) (settings : LoggingSettings) : Bool × Reporting :=
  match reporting.installed with
  | none => (true, ⟨some settings⟩)
  | some _ => (false, reporting)

end JavaOutline
