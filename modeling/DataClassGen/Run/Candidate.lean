import DataClassGen.Diagnostic
import DataClassGen.Element.Basic
import DataClassGen.Options

/-!
# Candidates

The value classes of a round, wherever they are nested, and the rules on where a value class may
be nested. A value class that is nested in a type that is none cannot stay there, and a type that
is no value class, no builder and no enum cannot stay in a value class.
-/

namespace DataClassGen

namespace TypeElement

mutual

/-- The value classes among a type and the types nested in it, outer ones first. A type that does
not say what it is declared in is declared in the type it is nested in. -/
def valueClasses (outer : Option EnclosingType) : TypeElement → List TypeElement
  | ⟨qualifiedName, package, kind, modifiers, annotations, doc, superclass, interfaces,
      typeParameters, fields, methods, nestedTypes, enclosing⟩ =>
    let element : TypeElement := ⟨qualifiedName, package, kind, modifiers, annotations, doc,
      superclass, interfaces, typeParameters, fields, methods, nestedTypes, enclosing <|> outer⟩
    (if element.isValueClass then [element] else []) ++
      valueClassesOfAll (some element.asEnclosing) nestedTypes

/-- The value classes among some types and the types nested in them, in order. -/
def valueClassesOfAll (outer : Option EnclosingType) : List TypeElement → List TypeElement
  | [] => []
  | element :: elements => valueClasses outer element ++ valueClassesOfAll outer elements

end

end TypeElement

/-- The value classes of a round, in the order in which they are taken up. -/
def Round.valueClasses (round : Round) : List TypeElement :=
  TypeElement.valueClassesOfAll none round.elements

/-! ### Where a value class goes -/

/-- What is reported of a value class in a type that is none. -/
def nestedUnderOther : String :=
  "Cannot convert nested classes to Kotlin safely. Please move this to top-level first."

/-- What is reported of a type in a value class that cannot stay there. -/
def nestedOther : String :=
  "Cannot convert non-autovalue nested classes to Kotlin safely. Please move this to top-level first."

/-- What is reported of a value class to convert in one that is not. -/
def enclosingNotTargeted : String :=
  "Nested class is targeted but its enclosing class is not. Add the enclosing class to avkTargets to convert it."

/-- Where a value class is converted. -/
inductive Placement where
  /-- Into a file of its own. -/
  | ownFile
  /-- In the class around it. -/
  | insideEnclosing
  /-- Nowhere. -/
  | nowhere
  deriving DecidableEq, Repr

namespace Placement

/-- Where a class goes that says itself whether it is nested. -/
def ofTopLevel (isTopLevel : Bool) : Placement := if isTopLevel then .ownFile else .insideEnclosing

end Placement

namespace TypeElement

/-- The value class is nested in a value class that is not to be converted. -/
def isCutOff (options : Options) (element : TypeElement) : Bool :=
  match element.enclosing with
  | some enclosing =>
    enclosing.isValueClass && !options.isTargeted enclosing.simpleName element.outermostSimpleName
  | none => false

/-- The types in a value class that cannot stay there. -/
def misplacedTypes (element : TypeElement) : List TypeElement :=
  element.nestedTypes.filter fun t => !t.isBuilder && !t.isEnum && !t.isValueClass

/-- The place of a value class by what is around it, and what is reported of that. -/
def outerPlacement (options : Options) (element : TypeElement) : Placement × Log :=
  let about (severity : Severity) (message : String) : Log :=
    [{ severity, message, element := some element.qualifiedName }]
  if element.isCutOff options then (.nowhere, about .warning enclosingNotTargeted)
  else if element.enclosing.all (·.isValueClass) then (.ofTopLevel element.isTopLevel, [])
  else if options.ignoreNested then (.ownFile, about .warning nestedUnderOther)
  else (.nowhere, about .error nestedUnderOther)

/-- The place of a value class, and what is reported of it. -/
def placement (options : Options) (element : TypeElement) : Placement × Log :=
  match element.outerPlacement options with
  | (.nowhere, log) => (.nowhere, log)
  | (place, log) =>
    let misplaced := element.misplacedTypes
    (if misplaced.isEmpty then place else .nowhere,
      log ++ misplaced.map fun t =>
        { severity := .error, message := nestedOther, element := some t.qualifiedName })

end TypeElement

end DataClassGen
