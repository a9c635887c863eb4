import BalMediation.Archive
import BalMediation.Bal
import BalMediation.Bracket
import BalMediation.CommandLine.Arguments
import BalMediation.CommandLine.Run
import BalMediation.Console.Emoji
import BalMediation.Console.Emoji.Names
import BalMediation.Console.Literal
import BalMediation.Console.Markup
import BalMediation.Console.Outline
import BalMediation.Console.Style
import BalMediation.Console.Table
import BalMediation.Console.Wrap
import BalMediation.Context
import BalMediation.Edit
import BalMediation.Error
import BalMediation.FileSystem
import BalMediation.Fragment
import BalMediation.Fragment.Templated
import BalMediation.Kind
import BalMediation.Main
import BalMediation.Mediation
import BalMediation.Node
import BalMediation.Patch
import BalMediation.Path
import BalMediation.Position
import BalMediation.Project
import BalMediation.Proofs.Actions
import BalMediation.Proofs.Agreement
import BalMediation.Proofs.Appending
import BalMediation.Proofs.Balance
import BalMediation.Proofs.Batches
import BalMediation.Proofs.Blocks
import BalMediation.Proofs.Branches
import BalMediation.Proofs.Commands
import BalMediation.Proofs.Concatenation
import BalMediation.Proofs.Conflicts
import BalMediation.Proofs.Coverage
import BalMediation.Proofs.Cycles
import BalMediation.Proofs.Faults
import BalMediation.Proofs.FileTrees
import BalMediation.Proofs.Footprints
import BalMediation.Proofs.Gluing
import BalMediation.Proofs.Groups
import BalMediation.Proofs.Identifiers
import BalMediation.Proofs.Insets
import BalMediation.Proofs.Interiors
import BalMediation.Proofs.Lines
import BalMediation.Proofs.Listings
import BalMediation.Proofs.Lookahead
import BalMediation.Proofs.Lookups
import BalMediation.Proofs.Mending
import BalMediation.Proofs.Nesting
import BalMediation.Proofs.Parameters
import BalMediation.Proofs.Paths
import BalMediation.Proofs.Phrases
import BalMediation.Proofs.Plans
import BalMediation.Proofs.Printing
import BalMediation.Proofs.Projects
import BalMediation.Proofs.Quotes
import BalMediation.Proofs.Reading
import BalMediation.Proofs.ReadingModules
import BalMediation.Proofs.Records
import BalMediation.Proofs.Remaking
import BalMediation.Proofs.Rendering
import BalMediation.Proofs.RequestParameters
import BalMediation.Proofs.Rescanning
import BalMediation.Proofs.ResourcePaths
import BalMediation.Proofs.Resources
import BalMediation.Proofs.ReturnTypes
import BalMediation.Proofs.Seams
import BalMediation.Proofs.Segments
import BalMediation.Proofs.Sequencing
import BalMediation.Proofs.ServicePaths
import BalMediation.Proofs.Sites
import BalMediation.Proofs.Skeletons
import BalMediation.Proofs.Spacing
import BalMediation.Proofs.Spans
import BalMediation.Proofs.Statements
import BalMediation.Proofs.Tables
import BalMediation.Proofs.Tiling
import BalMediation.Proofs.Unfinished
import BalMediation.Proofs.Verbatim
import BalMediation.Proofs.Visits
import BalMediation.Proofs.Weaving
import BalMediation.Proofs.WellFormed
import BalMediation.Proofs.Words
import BalMediation.Proxy
import BalMediation.ResourcePath
import BalMediation.Settings
import BalMediation.Settings.WholeNumber
import BalMediation.Shape
import BalMediation.Shape.Cursor
import BalMediation.Shape.Function
import BalMediation.Shape.Member
import BalMediation.Shape.Module
import BalMediation.Shape.Service
import BalMediation.Snippet
import BalMediation.Snippet.Bundled
import BalMediation.Template
import BalMediation.Text.Basic
import BalMediation.Text.Digit
import BalMediation.Text.Identifier
import BalMediation.Text.Letter
import BalMediation.Text.Lowercase
import BalMediation.Text.Mark
import BalMediation.Text.Printable
import BalMediation.Text.Quoted
import BalMediation.Text.Ranges
import BalMediation.Text.Uppercase
import BalMediation.Text.Width
import BalMediation.Token
import BalMediation.Token.Lexer
import BalMediation.Tree
import BalMediation.Workspace
