import JupiterMigration.Batch
import JupiterMigration.CommandLine
import JupiterMigration.CommandLine.Arguments
import JupiterMigration.CommandLine.Check
import JupiterMigration.CommandLine.Convert
import JupiterMigration.CommandLine.Request
import JupiterMigration.CommandLine.Shell
import JupiterMigration.Configuration
import JupiterMigration.Configuration.Project
import JupiterMigration.Configuration.Setting
import JupiterMigration.Configuration.Validation
import JupiterMigration.Conversion
import JupiterMigration.Difference
import JupiterMigration.Difference.Alignment
import JupiterMigration.ExpectedException.ClassMigration
import JupiterMigration.ExpectedException.Collection
import JupiterMigration.ExpectedException.Expectation
import JupiterMigration.ExpectedException.Plan
import JupiterMigration.ExpectedException.Recipe
import JupiterMigration.Files.Path
import JupiterMigration.Files.Pattern
import JupiterMigration.Files.Tree
import JupiterMigration.Imports
import JupiterMigration.Java.Grammar
import JupiterMigration.Java.Lexer
import JupiterMigration.Java.Numeral
import JupiterMigration.Java.Phrase
import JupiterMigration.Java.Reading
import JupiterMigration.Java.Rule
import JupiterMigration.Java.Source
import JupiterMigration.Java.Token
import JupiterMigration.Journal
import JupiterMigration.Journal.Document
import JupiterMigration.Layout
import JupiterMigration.Main
import JupiterMigration.Marker
import JupiterMigration.Marker.Pattern
import JupiterMigration.Parameterized.ClassMigration
import JupiterMigration.Parameterized.Collection
import JupiterMigration.Parameterized.Facts
import JupiterMigration.Parameterized.Plan
import JupiterMigration.Parameterized.Recipe
import JupiterMigration.Proofs.AnnotationRemoval
import JupiterMigration.Proofs.Batch
import JupiterMigration.Proofs.Binding
import JupiterMigration.Proofs.Binding.FreshName
import JupiterMigration.Proofs.Collection
import JupiterMigration.Proofs.Collection.OwnFacts
import JupiterMigration.Proofs.CommandLine
import JupiterMigration.Proofs.CommandLine.Convert
import JupiterMigration.Proofs.CommandLine.Destination
import JupiterMigration.Proofs.CommandLine.Directory
import JupiterMigration.Proofs.Configuration
import JupiterMigration.Proofs.Configuration.Project
import JupiterMigration.Proofs.Conversion
import JupiterMigration.Proofs.Conversion.SecondRun
import JupiterMigration.Proofs.Detection
import JupiterMigration.Proofs.Files
import JupiterMigration.Proofs.Grammar.Body
import JupiterMigration.Proofs.Grammar.CompilationUnit
import JupiterMigration.Proofs.Grammar.Derivation
import JupiterMigration.Proofs.Grammar.Filled
import JupiterMigration.Proofs.Grammar.ImportPhrase
import JupiterMigration.Proofs.Grammar.Lookahead
import JupiterMigration.Proofs.Grammar.Names
import JupiterMigration.Proofs.Grammar.Opening
import JupiterMigration.Proofs.Grammar.Shape
import JupiterMigration.Proofs.Grammar.Written
import JupiterMigration.Proofs.Identity
import JupiterMigration.Proofs.Imports
import JupiterMigration.Proofs.Imports.Changes
import JupiterMigration.Proofs.Imports.Coverage
import JupiterMigration.Proofs.Imports.Exchange
import JupiterMigration.Proofs.Imports.Order
import JupiterMigration.Proofs.Imports.ReadBack
import JupiterMigration.Proofs.Imports.Removals
import JupiterMigration.Proofs.InPlace
import JupiterMigration.Proofs.InPlace.Annotations
import JupiterMigration.Proofs.InPlace.Classes
import JupiterMigration.Proofs.InPlace.Copies
import JupiterMigration.Proofs.InPlace.ExpectedException
import JupiterMigration.Proofs.InPlace.Parameterized
import JupiterMigration.Proofs.InPlace.Plans
import JupiterMigration.Proofs.Indentation
import JupiterMigration.Proofs.Indentation.Reversal
import JupiterMigration.Proofs.Initialization
import JupiterMigration.Proofs.Initialization.Call
import JupiterMigration.Proofs.Initialization.FieldTypes
import JupiterMigration.Proofs.Initialization.Plan
import JupiterMigration.Proofs.Initialization.Positions
import JupiterMigration.Proofs.Isolation
import JupiterMigration.Proofs.Isolation.Runs
import JupiterMigration.Proofs.Isolation.Uniform
import JupiterMigration.Proofs.Lambda
import JupiterMigration.Proofs.Lambda.Keeping
import JupiterMigration.Proofs.Leads
import JupiterMigration.Proofs.Leads.Shelter
import JupiterMigration.Proofs.LineEnds
import JupiterMigration.Proofs.Mentions
import JupiterMigration.Proofs.Naming
import JupiterMigration.Proofs.Nesting
import JupiterMigration.Proofs.Numbering
import JupiterMigration.Proofs.Numbering.Erasure
import JupiterMigration.Proofs.Numbering.Order
import JupiterMigration.Proofs.Placement
import JupiterMigration.Proofs.Printing
import JupiterMigration.Proofs.Reading
import JupiterMigration.Proofs.Reading.Statements
import JupiterMigration.Proofs.Reading.Types
import JupiterMigration.Proofs.Recording
import JupiterMigration.Proofs.Renumbering
import JupiterMigration.Proofs.Renumbering.ExpectedException
import JupiterMigration.Proofs.Renumbering.Facts
import JupiterMigration.Proofs.Renumbering.Numbering
import JupiterMigration.Proofs.Renumbering.Parameterized
import JupiterMigration.Proofs.Renumbering.Stages
import JupiterMigration.Proofs.Renumbering.Tree
import JupiterMigration.Proofs.Report
import JupiterMigration.Proofs.Revision
import JupiterMigration.Proofs.Revision.Basic
import JupiterMigration.Proofs.Revision.ExpectedException
import JupiterMigration.Proofs.Revision.Imports
import JupiterMigration.Proofs.Revision.Parameterized
import JupiterMigration.Proofs.Scanning
import JupiterMigration.Proofs.Scanning.Order
import JupiterMigration.Proofs.Scanning.Reading
import JupiterMigration.Proofs.Session
import JupiterMigration.Proofs.Session.Pairs
import JupiterMigration.Proofs.Signature
import JupiterMigration.Proofs.Snippet
import JupiterMigration.Proofs.Snippet.Statement
import JupiterMigration.Proofs.Steps
import JupiterMigration.Proofs.Synthesis
import JupiterMigration.Proofs.Synthesis.Outcome
import JupiterMigration.Proofs.Template
import JupiterMigration.Proofs.TextBlocks
import JupiterMigration.Proofs.Tokens
import JupiterMigration.Proofs.Tokens.Apart
import JupiterMigration.Proofs.Tokens.Words
import JupiterMigration.Proofs.Trace
import JupiterMigration.Proofs.Traversal
import JupiterMigration.Proofs.Traversal.Agreement
import JupiterMigration.Proofs.Traversal.Departures
import JupiterMigration.Proofs.Traversal.Sharing
import JupiterMigration.Proofs.Usage
import JupiterMigration.Proofs.Usage.Overlooked
import JupiterMigration.Recipe
import JupiterMigration.Recipe.Stages
import JupiterMigration.Snippet
import JupiterMigration.Template
import JupiterMigration.Text.Blank
import JupiterMigration.Text.Digits
import JupiterMigration.Text.Escaped
import JupiterMigration.Text.Lines
import JupiterMigration.Text.Lowercase
import JupiterMigration.Text.Quoted
import JupiterMigration.Text.Ranges
import JupiterMigration.Text.Search
import JupiterMigration.Text.Utf8
import JupiterMigration.Text.Word
import JupiterMigration.Toml.Document
import JupiterMigration.Toml.Scalar
import JupiterMigration.Toml.Text
import JupiterMigration.Toml.Value
import JupiterMigration.Tree.Basic
import JupiterMigration.Tree.Edit
import JupiterMigration.Tree.Names
import JupiterMigration.Tree.Node
import JupiterMigration.Tree.Numbering
import JupiterMigration.Tree.Traversal
import JupiterMigration.Tree.Usage
import JupiterMigration.TypeScope
