import SliceRecords.Code.Block
import SliceRecords.Code.Body
import SliceRecords.Code.Codec
import SliceRecords.Code.Declaration
import SliceRecords.Code.Identifier
import SliceRecords.Code.Literal
import SliceRecords.Code.RecordStruct
import SliceRecords.Code.ScopedName
import SliceRecords.Code.SourceFile
import SliceRecords.Code.TypeText
import SliceRecords.Command.Options
import SliceRecords.Command.Plan
import SliceRecords.Command.Run
import SliceRecords.Command.Session
import SliceRecords.Dispatch
import SliceRecords.Document.Build
import SliceRecords.Document.Check
import SliceRecords.Document.File
import SliceRecords.Document.Load
import SliceRecords.Document.Repetition
import SliceRecords.Document.Violation
import SliceRecords.Instruction
import SliceRecords.Json.Basic
import SliceRecords.Json.Display
import SliceRecords.Json.Order
import SliceRecords.Json.Printer
import SliceRecords.Json.Reader
import SliceRecords.Layout
import SliceRecords.Main
import SliceRecords.Model.Basic
import SliceRecords.Model.Dump
import SliceRecords.Model.Encoding
import SliceRecords.Model.Outline
import SliceRecords.Model.Primitive
import SliceRecords.Model.TypeRef
import SliceRecords.Number.Basic
import SliceRecords.Number.Double
import SliceRecords.Number.Shortest
import SliceRecords.Sorting.Merge
import SliceRecords.Sorting.Run
import SliceRecords.Sorting.Search
import SliceRecords.Sorting.Sort
import SliceRecords.Storage.FileSystem
import SliceRecords.Storage.Path
import SliceRecords.Text.Blank
import SliceRecords.Text.Digit
import SliceRecords.Text.Hex
import SliceRecords.Text.Lowercase
import SliceRecords.Text.Printable
import SliceRecords.Text.Quoted
import SliceRecords.Text.Trim
import SliceRecords.Proofs.Instruction.Equality
import SliceRecords.Proofs.Layout.Synthesis
import SliceRecords.Proofs.Dispatch.Selection
import SliceRecords.Proofs.Result
import SliceRecords.Proofs.Document.Checks
import SliceRecords.Proofs.Document.Types
import SliceRecords.Proofs.Document.Soundness
import SliceRecords.Proofs.Code.Rendering
import SliceRecords.Proofs.Code.Declarations
import SliceRecords.Proofs.Model.Outline
import SliceRecords.Proofs.Layout.TagOrder
import SliceRecords.Proofs.Code.Names
import SliceRecords.Proofs.Document.Generation
import SliceRecords.Proofs.Dispatch.Mirror
import SliceRecords.Proofs.Text.Calls
import SliceRecords.Proofs.Code.Path
import SliceRecords.Proofs.Number.Notation
import SliceRecords.Proofs.Code.Calls
import SliceRecords.Proofs.Code.Codecs
import SliceRecords.Proofs.Code.FieldCalls
import SliceRecords.Proofs.Code.BlockCalls
import SliceRecords.Proofs.Layout.Evolution
import SliceRecords.Proofs.Instruction.Bare
import SliceRecords.Proofs.Layout.Canonical
import SliceRecords.Proofs.Code.WireCode
import SliceRecords.Proofs.Document.Grammar
import SliceRecords.Proofs.Document.Acceptance
import SliceRecords.Proofs.Code.PascalCase
import SliceRecords.Proofs.Code.References
import SliceRecords.Proofs.Code.Files
import SliceRecords.Proofs.Text.NormalLines
import SliceRecords.Proofs.Code.BlockText
import SliceRecords.Proofs.Code.Composition
import SliceRecords.Proofs.Code.Arms
import SliceRecords.Proofs.Code.Numerals
import SliceRecords.Proofs.Document.Faithfulness
import SliceRecords.Proofs.Code.Modularity
import SliceRecords.Proofs.Command.Performing
import SliceRecords.Proofs.Code.Stacking
import SliceRecords.Proofs.Storage.Effects
import SliceRecords.Proofs.Command.Loading
import SliceRecords.Proofs.Command.Outputs
import SliceRecords.Proofs.Code.Nesting
import SliceRecords.Proofs.Code.OneLine
import SliceRecords.Proofs.Code.BodyIndentation
import SliceRecords.Proofs.Code.Indentation
import SliceRecords.Proofs.Layout.Parts
import SliceRecords.Proofs.Model.Encodings
import SliceRecords.Proofs.Dispatch.Shapes
import SliceRecords.Proofs.Text.Hex
import SliceRecords.Proofs.Code.StringLiterals
import SliceRecords.Proofs.Code.JoinedWords
import SliceRecords.Proofs.Code.Constructors
import SliceRecords.Proofs.Code.MemberNames
import SliceRecords.Proofs.Code.TypeNames
import SliceRecords.Proofs.Sorting.Naturality
import SliceRecords.Proofs.Code.Undocumented
import SliceRecords.Proofs.Code.CommentLines
import SliceRecords.Proofs.Code.Interspersed
import SliceRecords.Proofs.Code.Documentation
import SliceRecords.Proofs.Model.TypeShapes
import SliceRecords.Proofs.Code.Members
import SliceRecords.Proofs.Document.Messages
import SliceRecords.Proofs.Document.Reports
import SliceRecords.Proofs.Json.Equality
import SliceRecords.Proofs.Model.Dump
import SliceRecords.Proofs.Code.NormalForm
