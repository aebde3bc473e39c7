import TestScaffold.CSharp.Chart
import TestScaffold.CSharp.Grammar
import TestScaffold.CSharp.Lexer
import TestScaffold.CSharp.Outline
import TestScaffold.CSharp.Token
import TestScaffold.CSharp.Tree
import TestScaffold.Command.Form
import TestScaffold.Command.Markup
import TestScaffold.Command.Screen
import TestScaffold.Command.Session
import TestScaffold.Command.Usage
import TestScaffold.Datum
import TestScaffold.Datum.Display
import TestScaffold.Datum.Equality
import TestScaffold.Datum.FormatError
import TestScaffold.Datum.Merge
import TestScaffold.Datum.Plain
import TestScaffold.Files.Discovery
import TestScaffold.Files.Disk
import TestScaffold.Files.Path
import TestScaffold.Files.Pattern
import TestScaffold.Files.Staging
import TestScaffold.Files.Store
import TestScaffold.Fixture.Assembly
import TestScaffold.Fixture.Basic
import TestScaffold.Fixture.Layout
import TestScaffold.Fixture.Naming
import TestScaffold.Fixture.Setup
import TestScaffold.Fixture.TestBody
import TestScaffold.Fixture.Usings
import TestScaffold.Logging
import TestScaffold.Main
import TestScaffold.Name
import TestScaffold.Number.Binary64
import TestScaffold.Number.Calendar
import TestScaffold.Number.Numeral
import TestScaffold.Proofs.CSharp.Children
import TestScaffold.Proofs.CSharp.Classes
import TestScaffold.Proofs.CSharp.Closing
import TestScaffold.Proofs.CSharp.Code
import TestScaffold.Proofs.CSharp.Completeness
import TestScaffold.Proofs.CSharp.Derivation
import TestScaffold.Proofs.CSharp.Formals
import TestScaffold.Proofs.CSharp.Heads
import TestScaffold.Proofs.CSharp.Items
import TestScaffold.Proofs.CSharp.Lexemes
import TestScaffold.Proofs.CSharp.Lexing
import TestScaffold.Proofs.CSharp.Lines
import TestScaffold.Proofs.CSharp.Members
import TestScaffold.Proofs.CSharp.Namespaces
import TestScaffold.Proofs.CSharp.Neighbours
import TestScaffold.Proofs.CSharp.Nesting
import TestScaffold.Proofs.CSharp.Nodes
import TestScaffold.Proofs.CSharp.Parameters
import TestScaffold.Proofs.CSharp.Phrase
import TestScaffold.Proofs.CSharp.Places
import TestScaffold.Proofs.CSharp.Sheet
import TestScaffold.Proofs.CSharp.Signatures
import TestScaffold.Proofs.CSharp.Soundness
import TestScaffold.Proofs.CSharp.Spelling
import TestScaffold.Proofs.CSharp.Steps
import TestScaffold.Proofs.CSharp.Walking
import TestScaffold.Proofs.Command.Acceptance
import TestScaffold.Proofs.Command.Generate
import TestScaffold.Proofs.Command.Markup
import TestScaffold.Proofs.Command.Repetition
import TestScaffold.Proofs.Command.Report
import TestScaffold.Proofs.Command.Screens
import TestScaffold.Proofs.Command.Tables
import TestScaffold.Proofs.Command.Verbatim
import TestScaffold.Proofs.Files.Below
import TestScaffold.Proofs.Files.Directories
import TestScaffold.Proofs.Files.Discovery
import TestScaffold.Proofs.Files.Gaps
import TestScaffold.Proofs.Files.PathText
import TestScaffold.Proofs.Files.Reading
import TestScaffold.Proofs.Files.SameDirectories
import TestScaffold.Proofs.Files.SameFile
import TestScaffold.Proofs.Files.Searching
import TestScaffold.Proofs.Files.Selecting
import TestScaffold.Proofs.Files.Stability
import TestScaffold.Proofs.Files.Staging
import TestScaffold.Proofs.Files.Writing
import TestScaffold.Proofs.Fixture.Acceptance
import TestScaffold.Proofs.Fixture.Bodies
import TestScaffold.Proofs.Fixture.Braces
import TestScaffold.Proofs.Fixture.Contents
import TestScaffold.Proofs.Fixture.Decoding
import TestScaffold.Proofs.Fixture.Directives
import TestScaffold.Proofs.Fixture.FanOut
import TestScaffold.Proofs.Fixture.Literals
import TestScaffold.Proofs.Fixture.Members
import TestScaffold.Proofs.Fixture.Merging
import TestScaffold.Proofs.Fixture.Naming
import TestScaffold.Proofs.Fixture.Numbering
import TestScaffold.Proofs.Fixture.Pages
import TestScaffold.Proofs.Fixture.Parts
import TestScaffold.Proofs.Fixture.Refusals
import TestScaffold.Proofs.Fixture.Rendering
import TestScaffold.Proofs.Fixture.Replies
import TestScaffold.Proofs.Fixture.ResultTypes
import TestScaffold.Proofs.Fixture.Scope
import TestScaffold.Proofs.Fixture.Structure
import TestScaffold.Proofs.Fixture.Synthesis
import TestScaffold.Proofs.Fixture.TestShape
import TestScaffold.Proofs.Fixture.UsingLines
import TestScaffold.Proofs.Fixture.UsingText
import TestScaffold.Proofs.Fixture.Wiring
import TestScaffold.Proofs.Fixture.Words
import TestScaffold.Proofs.Lists
import TestScaffold.Proofs.Logging.Handlers
import TestScaffold.Proofs.Logging.Levels
import TestScaffold.Proofs.Number.Notation
import TestScaffold.Proofs.Run.Accounting
import TestScaffold.Proofs.Run.Collisions
import TestScaffold.Proofs.Run.Confinement
import TestScaffold.Proofs.Run.Cut
import TestScaffold.Proofs.Run.Drafts
import TestScaffold.Proofs.Run.Inputs
import TestScaffold.Proofs.Run.Kinds
import TestScaffold.Proofs.Run.Log
import TestScaffold.Proofs.Run.Order
import TestScaffold.Proofs.Run.Outlets
import TestScaffold.Proofs.Run.OutputPath
import TestScaffold.Proofs.Run.Rehearsal
import TestScaffold.Proofs.Run.Repetition
import TestScaffold.Proofs.Run.Steps
import TestScaffold.Proofs.Settings.Description
import TestScaffold.Proofs.Settings.Faults
import TestScaffold.Proofs.Settings.Fields
import TestScaffold.Proofs.Settings.Layers
import TestScaffold.Proofs.Settings.Merging
import TestScaffold.Proofs.Settings.Nesting
import TestScaffold.Proofs.Settings.Overlays
import TestScaffold.Proofs.Settings.PlainText
import TestScaffold.Proofs.Settings.Plans
import TestScaffold.Proofs.Settings.Readings
import TestScaffold.Proofs.Settings.Reordering
import TestScaffold.Proofs.Settings.Sample
import TestScaffold.Proofs.Settings.Unset
import TestScaffold.Proofs.Settings.Variables
import TestScaffold.Proofs.Source.Arguments
import TestScaffold.Proofs.Source.Commas
import TestScaffold.Proofs.Source.ReturnType
import TestScaffold.Proofs.Text.Blanks
import TestScaffold.Proofs.Text.Pieces
import TestScaffold.Proofs.Text.Words
import TestScaffold.Proofs.Toml.Printing
import TestScaffold.Run.Draft
import TestScaffold.Run.Failure
import TestScaffold.Run.Outcome
import TestScaffold.Run.Reading
import TestScaffold.Run.Writing
import TestScaffold.Schema.Catalog
import TestScaffold.Schema.Check
import TestScaffold.Schema.Fault
import TestScaffold.Schema.Fixture
import TestScaffold.Schema.Settings
import TestScaffold.Schema.Source
import TestScaffold.Settings.Basic
import TestScaffold.Settings.Environment
import TestScaffold.Settings.Load
import TestScaffold.Settings.Sample
import TestScaffold.Source.Basic
import TestScaffold.Source.ReturnType
import TestScaffold.Text.CharClass
import TestScaffold.Text.CharTable
import TestScaffold.Text.Hex
import TestScaffold.Text.Likeness
import TestScaffold.Text.Lines
import TestScaffold.Text.Quoted
import TestScaffold.Text.Words
import TestScaffold.Toml.Document
import TestScaffold.Toml.Printer
import TestScaffold.Toml.Scalar
import TestScaffold.Yaml.Cursor
import TestScaffold.Yaml.Document
import TestScaffold.Yaml.Node
import TestScaffold.Yaml.Scalar
import TestScaffold.Yaml.Tag
import TestScaffold.Yaml.Token
