import DataClassGen.Text.Split

/-!
# Paths

A path is a text whose segments are divided by slashes; one that begins with a slash starts at the
root of the file tree, any other at the working directory. Empty segments and the segment `.` stay
where they are, the segment `..` goes up.

`parent?` and `push` take a path apart and extend it as texts; they look at no file tree.
-/

namespace DataClassGen

namespace Path

/-- The segment that stays where it is. -/
def here : String := "."

/-- The segment that goes up. -/
def up : String := ".."

/-- The path starts at the root. -/
def isRooted (path : String) : Bool := Text.beginsWith "/" path

/-- The segments between the slashes, with those that stay where they are. -/
def segments (path : String) : List String := Text.split '/' path

/-- The segment goes somewhere. -/
def moves (segment : String) : Bool := !segment.isEmpty && segment != here

/-- The segments that go somewhere. -/
def steps (path : String) : List String := (segments path).filter moves

/-- How many bytes a path can have. -/
def byteLimit : Nat := 4095

/-- The path can be followed at all, wherever it leads: it is not too long, and it has no
character that would end it early. -/
def isUsable (path : String) : Bool :=
  path.utf8ByteSize ≤ byteLimit && !path.toList.contains (Char.ofNat 0)

/-- The directory that a path leads through last and the name behind it; none for the root and the
empty path. Segments that stay where they are count for nothing at the end of either. -/
def parent? (path : String) : Option (String × String) :=
  match (segments path).reverse.dropWhile (!moves ·) with
  | name :: before =>
    let before := Text.joinWith "/" (before.dropWhile (!moves ·)).reverse
    some (if !before.isEmpty then before else if isRooted path then "/" else here, name)
  | [] => if path.isEmpty || isRooted path then none else some (here, here)

/-- The path one segment further on. A segment that starts at the root takes the place of the
whole path, and no slash is put in behind one. -/
def push (path segment : String) : String :=
  if isRooted segment then segment
  else if path.isEmpty || path.toList.getLast? == some '/' then path ++ segment
  else path ++ "/" ++ segment

/-- The path of the source file of a top-level type: in the directories named for the segments of
its package, under the directory of the sources. -/
def ofSource (srcDir package name : String) : String :=
  push (((Text.split '.' package).filter (!·.isEmpty)).foldl push srcDir) (name ++ ".kt")

/-- The directory of a path keeps the segments before its last name as they are. -/
example : parent? "/a//b/./c/." = some ("/a//b", "c") := by decide +kernel

/-- A name by itself is in the directory where paths start. -/
example : parent? "c" = some (".", "c") ∧ parent? "/c" = some ("/", "c") ∧ parent? "/" = none := by
  decide +kernel

/-- The path of a type in a package of one segment. -/
example : ofSource "out" "test" "Foo" = "out/test/Foo.kt" := by decide +kernel

/-- The path of a type in the unnamed package. -/
example : ofSource "out/" "" "Foo" = "out/Foo.kt" := by decide +kernel

end Path

end DataClassGen
