import DataClassGen.Command.Definition
import DataClassGen.Command.Invocation
import DataClassGen.Command.Program
import DataClassGen.Convert.Annotation
import DataClassGen.Convert.Doc
import DataClassGen.Convert.Signature
import DataClassGen.Convert.Type
import DataClassGen.Convert.Visibility
import DataClassGen.Diagnostic
import DataClassGen.Element.Basic
import DataClassGen.Element.Decode
import DataClassGen.Element.Encode
import DataClassGen.Failure
import DataClassGen.Files.Access
import DataClassGen.Files.Path
import DataClassGen.Files.Tree
import DataClassGen.Json.Basic
import DataClassGen.Json.Printer
import DataClassGen.Json.Reader
import DataClassGen.Json.Record
import DataClassGen.Keyed
import DataClassGen.Lifecycle
import DataClassGen.LogLevel
import DataClassGen.Main
import DataClassGen.Model.Builder
import DataClassGen.Model.Class
import DataClassGen.Model.Enum
import DataClassGen.Model.Property
import DataClassGen.Model.Reporting
import DataClassGen.Numeric.Binary64
import DataClassGen.Numeric.Shortest
import DataClassGen.Options
import DataClassGen.Proofs.Command.Checking
import DataClassGen.Proofs.Command.FailedRuns
import DataClassGen.Proofs.Command.KnownOptions
import DataClassGen.Proofs.Convert.Arrays
import DataClassGen.Proofs.Convert.CommentMarks
import DataClassGen.Proofs.Convert.DocComments
import DataClassGen.Proofs.Convert.Types
import DataClassGen.Proofs.Convert.WrittenValues
import DataClassGen.Proofs.Element.ReadingBack
import DataClassGen.Proofs.Element.Values
import DataClassGen.Proofs.Entries
import DataClassGen.Proofs.Failing
import DataClassGen.Proofs.Files.SourcePaths
import DataClassGen.Proofs.Json.Records
import DataClassGen.Proofs.Meaning.Bodies
import DataClassGen.Proofs.Meaning.Builders
import DataClassGen.Proofs.Meaning.Changes
import DataClassGen.Proofs.Meaning.Evaluation
import DataClassGen.Proofs.Meaning.Exclusion
import DataClassGen.Proofs.Meaning.FirstValues
import DataClassGen.Proofs.Meaning.Guards
import DataClassGen.Proofs.Meaning.Inversion
import DataClassGen.Proofs.Meaning.Syntax
import DataClassGen.Proofs.Model.Accessors
import DataClassGen.Proofs.Model.BuilderFunctions
import DataClassGen.Proofs.Model.BuilderMethods
import DataClassGen.Proofs.Model.ConstructorLists
import DataClassGen.Proofs.Model.Contexts
import DataClassGen.Proofs.Model.Creators
import DataClassGen.Proofs.Model.Declaration
import DataClassGen.Proofs.Model.Defaults
import DataClassGen.Proofs.Model.Enums
import DataClassGen.Proofs.Model.GetterNames
import DataClassGen.Proofs.Model.Markers
import DataClassGen.Proofs.Model.Members
import DataClassGen.Proofs.Model.Methods
import DataClassGen.Proofs.Model.Overloads
import DataClassGen.Proofs.Model.PropertyNames
import DataClassGen.Proofs.Model.Redaction
import DataClassGen.Proofs.Model.Setters
import DataClassGen.Proofs.Model.Varargs
import DataClassGen.Proofs.Model.Visibility
import DataClassGen.Proofs.Names
import DataClassGen.Proofs.Run.Accounts
import DataClassGen.Proofs.Run.ClassNames
import DataClassGen.Proofs.Run.CompleteRounds
import DataClassGen.Proofs.Run.Composition
import DataClassGen.Proofs.Run.CompositionRuns
import DataClassGen.Proofs.Run.Evaluation
import DataClassGen.Proofs.Run.Frames
import DataClassGen.Proofs.Run.Generation
import DataClassGen.Proofs.Run.Intake
import DataClassGen.Proofs.Run.Leftovers
import DataClassGen.Proofs.Run.MovedRoots
import DataClassGen.Proofs.Run.NestedTypes
import DataClassGen.Proofs.Run.Output
import DataClassGen.Proofs.Run.Overwriting
import DataClassGen.Proofs.Run.Places
import DataClassGen.Proofs.Run.Repetition
import DataClassGen.Proofs.Run.Rounds
import DataClassGen.Proofs.Run.Skipping
import DataClassGen.Proofs.Run.States
import DataClassGen.Proofs.Run.Steps
import DataClassGen.Proofs.Run.Stopping
import DataClassGen.Proofs.Run.Stranded
import DataClassGen.Proofs.Run.Targets
import DataClassGen.Proofs.Run.Trees
import DataClassGen.Proofs.Run.Union
import DataClassGen.Proofs.Run.Written
import DataClassGen.Proofs.Source.CleanedFiles
import DataClassGen.Proofs.Source.Cleaning
import DataClassGen.Proofs.Source.CleaningAgain
import DataClassGen.Proofs.Source.CompactDocs
import DataClassGen.Proofs.Source.DocBlocks
import DataClassGen.Proofs.Source.Escaping
import DataClassGen.Proofs.Source.Imports
import DataClassGen.Proofs.Source.LetterCase
import DataClassGen.Proofs.Source.LineTexts
import DataClassGen.Proofs.Source.Literals
import DataClassGen.Proofs.Source.LookUp
import DataClassGen.Proofs.Source.References
import DataClassGen.Run.Candidate
import DataClassGen.Run.Registry
import DataClassGen.Run.Session
import DataClassGen.Source.Cleanup
import DataClassGen.Source.Code
import DataClassGen.Source.Declaration
import DataClassGen.Source.Layout
import DataClassGen.Source.Name
import DataClassGen.Source.TypeName
import DataClassGen.Source.Writer
import DataClassGen.Text.Blank
import DataClassGen.Text.Bytes
import DataClassGen.Text.CaseTable
import DataClassGen.Text.Letter
import DataClassGen.Text.LetterTable
import DataClassGen.Text.Split
import DataClassGen.Toml.Basic
import DataClassGen.Toml.Moment
import DataClassGen.Toml.Reader
import DataClassGen.Toml.Table
