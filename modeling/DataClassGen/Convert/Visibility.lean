import DataClassGen.Element.Basic
import DataClassGen.Source.Declaration

/-!
# Visibility

From where a converted declaration can be used. What was visible in its package only is visible in
its module.
-/

namespace DataClassGen

open Source

/-- The visibility of a declaration with these modifiers. -/
def visibilityOf (modifiers : List Modifier) : DeclModifier :=
  if modifiers.contains .publicAccess then .publicAccess
  else if modifiers.contains .protectedAccess then .protectedAccess
  else if modifiers.contains .privateAccess then .privateAccess
  else .internalAccess

/-- The visibility of a declaration that can only be public or internal. -/
def publicOrInternal (modifiers : List Modifier) : DeclModifier :=
  if modifiers.contains .publicAccess then .publicAccess else .internalAccess

theorem isVisibility_visibilityOf (modifiers : List Modifier) :
    (visibilityOf modifiers).isVisibility = true := by
  unfold visibilityOf
  repeat' split
  all_goals rfl

end DataClassGen
