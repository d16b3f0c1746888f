import PhpMigration.CommandLine.Arguments
import PhpMigration.CommandLine.Basic
import PhpMigration.Configuration
import PhpMigration.Conversion.Basic
import PhpMigration.Conversion.Plausible
import PhpMigration.Core.Document
import PhpMigration.Core.Node
import PhpMigration.Document.Block
import PhpMigration.Document.Json
import PhpMigration.Document.JsonText
import PhpMigration.Document.Need
import PhpMigration.Document.Shown
import PhpMigration.Document.Tree
import PhpMigration.Document.Value
import PhpMigration.Environment
import PhpMigration.Failure
import PhpMigration.Failure.Document
import PhpMigration.Http.Body
import PhpMigration.Http.Resource
import PhpMigration.Http.Surface
import PhpMigration.Http.Target
import PhpMigration.Incident
import PhpMigration.JavaScript.Document
import PhpMigration.JavaScript.Node
import PhpMigration.JavaScript.Printer
import PhpMigration.JavaScript.Quoted
import PhpMigration.Lowering.Basic
import PhpMigration.Lowering.Operator
import PhpMigration.Main
import PhpMigration.Number.Double
import PhpMigration.Number.Numeral
import PhpMigration.Number.Quotient
import PhpMigration.Number.Reading
import PhpMigration.Number.Shortest
import PhpMigration.Parsing.Lalr
import PhpMigration.Path
import PhpMigration.Php.Document
import PhpMigration.Php.Grammar.Basic
import PhpMigration.Php.Grammar.Declaration
import PhpMigration.Php.Grammar.Expression
import PhpMigration.Php.Grammar.Literal
import PhpMigration.Php.Grammar.Statement
import PhpMigration.Php.Lexer
import PhpMigration.Php.Node
import PhpMigration.Php.Parser
import PhpMigration.Php.ToCore
import PhpMigration.Php.Token
import PhpMigration.Project.Analysis
import PhpMigration.Project.Boilerplate
import PhpMigration.Project.Claims
import PhpMigration.Project.Discovery
import PhpMigration.Project.FileTree
import PhpMigration.Project.Ledger
import PhpMigration.Project.Outline
import PhpMigration.Project.Report
import PhpMigration.Project.Review
import PhpMigration.Project.Run
import PhpMigration.Project.Skeleton
import PhpMigration.Project.Workshop
import PhpMigration.Remote.Breaker
import PhpMigration.Remote.Chat
import PhpMigration.Remote.Delegate
import PhpMigration.Remote.Endpoint
import PhpMigration.Remote.Fence
import PhpMigration.Remote.Instructions
import PhpMigration.Remote.Offline
import PhpMigration.Remote.Refusal
import PhpMigration.Remote.Router
import PhpMigration.Retry
import PhpMigration.Role
import PhpMigration.Settings
import PhpMigration.Table
import PhpMigration.Text.Blank
import PhpMigration.Text.Case
import PhpMigration.Text.Cited
import PhpMigration.Text.Letter
import PhpMigration.Text.Lines
import PhpMigration.Text.Printable
import PhpMigration.Text.Search
import PhpMigration.Text.Utf8
import PhpMigration.Text.Wide
import PhpMigration.Proofs.JavaScript.Grammar
import PhpMigration.Proofs.JavaScript.Parse
import PhpMigration.Proofs.JavaScript.Legal
import PhpMigration.Proofs.JavaScript.Lexer
import PhpMigration.Proofs.JavaScript.Operand
import PhpMigration.Proofs.JavaScript.Spelling
import PhpMigration.Proofs.JavaScript.Head
import PhpMigration.Proofs.JavaScript.Program
import PhpMigration.Proofs.Conversion.Lowerable
import PhpMigration.Proofs.Conversion.Convertible
import PhpMigration.Proofs.Conversion.Local
import PhpMigration.Proofs.Conversion.Grouping
import PhpMigration.Proofs.Conversion.Choice
import PhpMigration.Proofs.Conversion.Keys
import PhpMigration.Proofs.Remote.Breaker
import PhpMigration.Proofs.Remote.Delegate
import PhpMigration.Proofs.Remote.Session
import PhpMigration.Proofs.Remote.Traffic
import PhpMigration.Proofs.Project.Ledger
import PhpMigration.Proofs.Project.History
import PhpMigration.Proofs.Project.Moves
import PhpMigration.Proofs.Project.Place
import PhpMigration.Proofs.Project.FileTree
import PhpMigration.Proofs.Project.Skeleton
import PhpMigration.Proofs.Project.Begin
import PhpMigration.Proofs.Project.Interleaving
import PhpMigration.Proofs.Project.Isolation
import PhpMigration.Proofs.Project.Overlap
import PhpMigration.Proofs.Project.Claims
import PhpMigration.Proofs.Project.Delivery
import PhpMigration.Proofs.Project.Discovery
import PhpMigration.Proofs.Project.Course
import PhpMigration.Proofs.Project.InTurn
import PhpMigration.Proofs.Project.Account
import PhpMigration.Proofs.Project.Grants
import PhpMigration.Proofs.Lowering.Walk
import PhpMigration.Proofs.Lowering.Bodies
import PhpMigration.Proofs.Conversion.WellSorted
import PhpMigration.Proofs.Lowering.Marks
import PhpMigration.Proofs.Lowering.Meaning
import PhpMigration.Proofs.Lowering.Preservation
import PhpMigration.Proofs.Project.Output
import PhpMigration.Proofs.Project.Predicted
import PhpMigration.Proofs.Project.Scaffold
import PhpMigration.Proofs.Project.Schedule
import PhpMigration.Proofs.Project.Journey
import PhpMigration.Proofs.Project.Service
import PhpMigration.Proofs.Project.Fallback
import PhpMigration.Proofs.Project.Review
import PhpMigration.Proofs.Project.Rediscovery
import PhpMigration.Proofs.Project.Foresight
import PhpMigration.Proofs.Project.InOrder
import PhpMigration.Proofs.Project.Rerun
import PhpMigration.Proofs.Project.Idempotence
import PhpMigration.Proofs.Project.Stop
import PhpMigration.Proofs.Remote.Fence
import PhpMigration.Proofs.Retry
import PhpMigration.Proofs.Project.Agreement
import PhpMigration.Proofs.JavaScript.Placement
import PhpMigration.Proofs.Text.Pieces
import PhpMigration.Proofs.Text.Case
import PhpMigration.Proofs.Role
import PhpMigration.Proofs.Project.Outline
import PhpMigration.Proofs.Project.Forecast
import PhpMigration.Proofs.Number.Difference
import PhpMigration.Proofs.Remote.Routing
import PhpMigration.Proofs.JavaScript.OneLine
import PhpMigration.Proofs.JavaScript.Layout
import PhpMigration.Proofs.Project.Laying
import PhpMigration.Proofs.Project.Sections
import PhpMigration.Proofs.Http.Answers
