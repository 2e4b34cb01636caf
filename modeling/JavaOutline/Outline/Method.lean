import JavaOutline.Outline.Branch
import JavaOutline.Outline.Build
import JavaOutline.Reading.Declaration

/-!
# Outlining a method

`outlineMethod` reads a file, finds the first method or constructor of a name, and outlines its
body below a root that stands for the declaration.
-/

namespace JavaOutline

/-- Why a method has no outline. -/
inductive Refusal where
  /-- The file has no method of this name. -/
  | methodNotFound (name : String)
  /-- The body could not be outlined. -/
  | stopped (stop : Stop)
  deriving DecidableEq, Repr

/-- The wording of a refusal. -/
def Refusal.message : Refusal → Except Fault String
  | .methodNotFound name => return "method `" ++ name ++ "` not found"
  | .stopped (.rejected rejection) => rejection.message
  | .stopped (.fault fault) => return fault.message

/-- What came of outlining a method: the outline or a refusal, and the events on the way. -/
structure OutlineRun where
  /-- The outline or the refusal. -/
  result : Except Refusal Outline
  /-- The events in order. -/
  events : List Event

/-- Reads a file, with the event that says so. -/
def readUnit (source : Source) : CompilationUnit × Event :=
  let unit := CompilationUnit.read source
  (unit, .read unit.types.length source.size)

/-- The root of the outline of a method. -/
def Method.root (method : Method) : Entity :=
  ⟨method.name.text, .method, (method.span.extent?).getD ⟨0, 0⟩⟩

/-- Outlines the first method of a name. -/
def outlineMethod (source : Source) (name : String) (verify : Bool) : OutlineRun :=
  let (unit, event) := readUnit source
  match unit.findMethod? name with
  | none => ⟨.error (.methodNotFound name), [event]⟩
  | some method =>
    let draft : Draft := ⟨.ofRoot method.root, #[event]⟩
    match (outlineBody ⟨source, verify⟩ 0 method).run.run draft with
    | (.ok (), draft) =>
      ⟨.ok draft.outline,
        (draft.events.push (.outlinedMethod name draft.outline.size)).toList⟩
    | (.error stop, draft) => ⟨.error (.stopped stop), draft.events.toList⟩

end JavaOutline
