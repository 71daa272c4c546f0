import DataClassGen.Failure
import DataClassGen.Text.Bytes

/-!
# Access to files

What a run needs of the files around it: reading a whole file and writing one in a single stroke.
The run is written for any monad that has these two, so that it works on the files of a machine and
on a file tree that is a value alike.
-/

namespace DataClassGen

/-- Access to files. -/
structure FileAccess (m : Type → Type) where
  /-- The contents of a file. -/
  read : String → ExceptT Failure m Bytes
  /-- A file with these contents in place of what was there, its directories made where they are
  missing. A reader sees the old contents or the new ones, and nothing in between. -/
  write : String → String → ExceptT Failure m Unit

end DataClassGen
