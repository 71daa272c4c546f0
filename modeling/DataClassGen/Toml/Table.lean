import DataClassGen.Keyed
import DataClassGen.Toml.Basic

/-!
# Building tables

How the entries of a TOML document add up. A table comes about in one of three ways: as part of
the path of a header, by a header of its own, or by a dotted key. A header may open a table once,
and only one that is so far part of a path. A dotted key may lead through any table that no header
opened, and through the last table of an array; but the table that it adds to must have come about
by a dotted key. Nothing may be added to a value.
-/

namespace DataClassGen.Toml

/-- How a table came about. -/
inductive Origin where
  /-- On the path of a header. -/
  | path
  /-- By its own header. -/
  | header
  /-- By a dotted key. -/
  | dotted
  deriving DecidableEq, Repr

/-- A part of a document that is being read. -/
inductive Node where
  /-- A value, to which nothing can be added. -/
  | value (value : Value)
  /-- A table. -/
  | table (origin : Origin) (entries : List (String × Node))
  /-- An array of tables, last first. -/
  | tables (reversed : List (List (String × Node)))

/-- The entries of a table that is being read, in the order of their keys. -/
abbrev Entries := List (String × Node)

/-- The table at the end of a path of keys, changed by `change`, which is told how the table came
about. A table on the way that is not there yet comes about as `origin`; the one that the path
starts from came about as `start`. -/
def descend (origin : Origin) (change : Origin → Entries → Option Entries) (start : Origin) :
    List String → Entries → Option Entries
  | [], entries => change start entries
  | key :: keys, entries =>
    match entries.lookup key with
    | none =>
      (descend origin change origin keys []).map fun inner =>
        insertByKey key (.table origin inner) entries
    | some (.table was inner) =>
      if origin = .dotted && was = .header then none
      else
        (descend origin change was keys inner).map fun inner =>
          insertByKey key (.table was inner) entries
    | some (.tables (last :: others)) =>
      (descend origin change .header keys last).map fun last =>
        insertByKey key (.tables (last :: others)) entries
    | some _ => none

/-- The entries with a value at the end of a dotted key. -/
def assign (keys : List String) (value : Value) (entries : Entries) : Option Entries :=
  match keys.getLast? with
  | none => none
  | some last =>
    descend .dotted (fun was entries =>
      match was, entries.lookup last with
      | .dotted, none => some (insertByKey last (.value value) entries)
      | _, _ => none) .dotted keys.dropLast entries

/-- The entries with a table opened by a header. -/
def openTable (keys : List String) (entries : Entries) : Option Entries :=
  match keys.getLast? with
  | none => none
  | some last =>
    descend .path (fun _ entries =>
      match entries.lookup last with
      | none => some (insertByKey last (.table .header []) entries)
      | some (.table .path inner) => some (insertByKey last (.table .header inner) entries)
      | some _ => none) .header keys.dropLast entries

/-- The entries with a table added to an array of tables. -/
def openArrayTable (keys : List String) (entries : Entries) : Option Entries :=
  match keys.getLast? with
  | none => none
  | some last =>
    descend .path (fun _ entries =>
      match entries.lookup last with
      | none => some (insertByKey last (.tables [[]]) entries)
      | some (.tables reversed) => some (insertByKey last (.tables ([] :: reversed)) entries)
      | some _ => none) .header keys.dropLast entries

/-- The entries with a value below the table that a header opened. -/
def assignUnder (header keys : List String) (value : Value) (entries : Entries) :
    Option Entries :=
  descend .path (fun _ => assign keys value) .header header entries

mutual

/-- The value that a part of a document ends up as. -/
def Node.toValue : Node → Value
  | .value value => value
  | .table _ entries => .table (entryValues entries)
  | .tables reversed => .array (tableValues reversed).reverse

/-- The values of entries. -/
def entryValues : Entries → List (String × Value)
  | [] => []
  | (key, node) :: entries => (key, node.toValue) :: entryValues entries

/-- The values of tables. -/
def tableValues : List Entries → List Value
  | [] => []
  | entries :: tables => .table (entryValues entries) :: tableValues tables

end

end DataClassGen.Toml
