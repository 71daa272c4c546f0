import DataClassGen.Source.Name

/-!
# Classes and types in Kotlin sources

A class has a package and the names of the classes it is nested in, outermost first, with its
own at the end. A type is a class with type arguments or a type parameter, and may be nullable.

A canonical name does not say where its package ends. `ClassName.ofCanonical` takes the names from
the first capitalized one on for classes; `ClassName.inPackage` is told the package.
-/

namespace DataClassGen.Source

/-- A class by its package and its simple names, outermost first. -/
structure ClassName where
  package : String
  simpleNames : List String
  deriving DecidableEq, Repr

/-- The package of the built-in classes. -/
def builtinPackage : String := "kotlin"

namespace ClassName

/-- A class that is nested in no other. -/
def topLevelOf (package simpleName : String) : ClassName := ⟨package, [simpleName]⟩

/-- A built-in class. -/
def builtin (simpleName : String) : ClassName := topLevelOf builtinPackage simpleName

/-- A class nested in this one. -/
def nested (c : ClassName) (simpleName : String) : ClassName :=
  { c with simpleNames := c.simpleNames ++ [simpleName] }

/-- The segment begins with a capital. -/
def isCapitalized (segment : String) : Bool :=
  match segment.toList with
  | [] => false
  | c :: _ => Text.isCapital c

/-- The class of a canonical name: the segments before the first capitalized one are its package;
without a capitalized one, all segments but the last are. -/
def ofCanonical (canonical : String) : ClassName :=
  let segments := Text.split '.' canonical
  let cut :=
    match segments.findIdx? isCapitalized with
    | some i => i
    | none => segments.length - 1
  ⟨Text.joinWith "." (segments.take cut), segments.drop cut⟩

/-- What a canonical name has behind its package, if it is in that package. -/
def relative? (package canonical : String) : Option String :=
  if package.isEmpty then some canonical else Text.after? (package ++ ".") canonical

/-- The class of a canonical name in a given package; by its capitals if it is not in there. -/
def inPackage (package canonical : String) : ClassName :=
  match relative? package canonical with
  | some relative =>
    if relative.isEmpty then ofCanonical canonical else ⟨package, Text.split '.' relative⟩
  | none => ofCanonical canonical

/-- The class's own name. -/
def simpleName (c : ClassName) : String := c.simpleNames.getLast?.getD ""

/-- The outermost class around this one, or itself. -/
def topLevel (c : ClassName) : ClassName := { c with simpleNames := c.simpleNames.take 1 }

/-- The class directly around this one. -/
def enclosing? (c : ClassName) : Option ClassName :=
  if c.simpleNames.length < 2 then none
  else some { c with simpleNames := c.simpleNames.dropLast }

/-- The package and all names, with dots between them. -/
def canonical (c : ClassName) : String :=
  let names := Text.joinWith "." c.simpleNames
  if c.package.isEmpty then names else c.package ++ "." ++ names

end ClassName

/-- A use of a type. The bounds of a type parameter matter only where it is declared. -/
inductive TypeName where
  /-- A class with its type arguments. -/
  | named (cls : ClassName) (args : List TypeName) (isNullable : Bool)
  /-- A type parameter with its bounds. -/
  | parameter (name : String) (bounds : List TypeName) (isNullable : Bool)

namespace TypeName

mutual

/-- The types are the same. -/
def same : TypeName → TypeName → Bool
  | .named c args n, .named c' args' n' => c == c' && sameAll args args' && n == n'
  | .parameter v bounds n, .parameter v' bounds' n' => v == v' && sameAll bounds bounds' && n == n'
  | _, _ => false

/-- The types are the same, one by one. -/
def sameAll : List TypeName → List TypeName → Bool
  | [], [] => true
  | t :: ts, u :: us => same t u && sameAll ts us
  | _, _ => false

end

mutual

theorem same_iff : ∀ t u : TypeName, same t u = true ↔ t = u
  | .named c args n, .named c' args' n' => by
    simp [same, sameAll_iff args args', and_assoc]
  | .parameter v bounds n, .parameter v' bounds' n' => by
    simp [same, sameAll_iff bounds bounds', and_assoc]
  | .named .., .parameter .. => by simp [same]
  | .parameter .., .named .. => by simp [same]

theorem sameAll_iff : ∀ ts us : List TypeName, sameAll ts us = true ↔ ts = us
  | [], [] => by simp [sameAll]
  | [], _ :: _ => by simp [sameAll]
  | _ :: _, [] => by simp [sameAll]
  | t :: ts, u :: us => by simp [sameAll, same_iff t u, sameAll_iff ts us]

end

instance : DecidableEq TypeName := fun t u => decidable_of_iff _ (same_iff t u)

/-- A class without type arguments. -/
def ofClass (cls : ClassName) : TypeName := .named cls [] false

/-- A built-in class without type arguments. -/
def builtin (simpleName : String) : TypeName := ofClass (.builtin simpleName)

/-- The type has a null value. -/
def isNullable : TypeName → Bool
  | .named _ _ isNullable | .parameter _ _ isNullable => isNullable

/-- The type with or without a null value. -/
def withNull (isNullable : Bool) : TypeName → TypeName
  | .named cls args _ => .named cls args isNullable
  | .parameter name bounds _ => .parameter name bounds isNullable

/-- The class of the type, whatever its arguments. -/
def class? : TypeName → Option ClassName
  | .named cls _ _ => some cls
  | .parameter .. => none

/-- The type arguments. -/
def args : TypeName → List TypeName
  | .named _ args _ => args
  | .parameter .. => []

/-- The built-in class of this name, without type arguments. -/
def isBuiltin (simpleName : String) : TypeName → Bool
  | .named cls [] _ => cls == .builtin simpleName
  | _ => false

mutual

/-- The classes that occur in the type, outermost first. -/
def classes : TypeName → List ClassName
  | .named cls args _ => cls :: classesAll args
  | .parameter _ bounds _ => classesAll bounds

/-- The classes that occur in the types. -/
def classesAll : List TypeName → List ClassName
  | [] => []
  | t :: ts => classes t ++ classesAll ts

end

mutual

/-- The type with canonical names. -/
def shown : TypeName → String
  | .named cls args isNullable =>
    cls.canonical ++
      (if args.isEmpty then "" else "<" ++ Text.joinWith ", " (shownAll args) ++ ">") ++
      (if isNullable then "?" else "")
  | .parameter name _ isNullable => name ++ (if isNullable then "?" else "")

/-- The types with canonical names. -/
def shownAll : List TypeName → List String
  | [] => []
  | t :: ts => shown t :: shownAll ts

end

end TypeName

end DataClassGen.Source
