import C3Lens.Answer.Completion
import C3Lens.Answer.Declaration
import C3Lens.Answer.Signature
import C3Lens.CommandLine
import C3Lens.Compiler.Report
import C3Lens.Cursor.Word
import C3Lens.Document.Basic
import C3Lens.Document.Id
import C3Lens.Domain.Basic
import C3Lens.Domain.Direction
import C3Lens.Domain.Punycode
import C3Lens.Domain.Spelling
import C3Lens.Files.Path
import C3Lens.Files.Tree
import C3Lens.Files.Url
import C3Lens.Files.Url.Authority
import C3Lens.Files.Url.Host
import C3Lens.Files.Url.Percent
import C3Lens.Files.Url.Route
import C3Lens.Json.Basic
import C3Lens.Json.Numeral
import C3Lens.Json.Parser
import C3Lens.Json.Printer
import C3Lens.Json.Quoted
import C3Lens.Library.Cache
import C3Lens.Lookup.Path
import C3Lens.Lookup.Viewpoint
import C3Lens.Main
import C3Lens.Message.Client
import C3Lens.Message.Parameters
import C3Lens.Message.Parts
import C3Lens.Message.Reply
import C3Lens.Message.Request
import C3Lens.Message.Shape
import C3Lens.Outline.Declarations
import C3Lens.Outline.Scope
import C3Lens.Outline.Types
import C3Lens.Outline.Unit
import C3Lens.Proofs.Answer.Completion
import C3Lens.Proofs.Answer.Declaration
import C3Lens.Proofs.Answer.Itself
import C3Lens.Proofs.Answer.Private
import C3Lens.Proofs.Blueprint.FrontEnd
import C3Lens.Proofs.Compiler.Report
import C3Lens.Proofs.Cursor.Call
import C3Lens.Proofs.Cursor.Word
import C3Lens.Proofs.Cursor.Written
import C3Lens.Proofs.Files.Path
import C3Lens.Proofs.Files.Url.File
import C3Lens.Proofs.Files.Write
import C3Lens.Proofs.Json.Written
import C3Lens.Proofs.Library.Borrowed
import C3Lens.Proofs.Library.Cache
import C3Lens.Proofs.Library.Interchange
import C3Lens.Proofs.Lookup.Behind
import C3Lens.Proofs.Lookup.Distinct
import C3Lens.Proofs.Lookup.Locals
import C3Lens.Proofs.Lookup.Names
import C3Lens.Proofs.Lookup.Private
import C3Lens.Proofs.Lookup.Unique
import C3Lens.Proofs.Lookup.Visible
import C3Lens.Proofs.NameIndex
import C3Lens.Proofs.NameQuery
import C3Lens.Proofs.Outline.Declarations
import C3Lens.Proofs.Outline.Delimited
import C3Lens.Proofs.Outline.Moved
import C3Lens.Proofs.Outline.Names
import C3Lens.Proofs.Outline.Paths
import C3Lens.Proofs.Outline.Recovered
import C3Lens.Proofs.Outline.Regions
import C3Lens.Proofs.Outline.Site
import C3Lens.Proofs.Outline.Storable
import C3Lens.Proofs.Outline.Unit
import C3Lens.Proofs.Pending
import C3Lens.Proofs.Service.Buffer
import C3Lens.Proofs.Service.OneDocument
import C3Lens.Proofs.Service.Published
import C3Lens.Proofs.Service.Run
import C3Lens.Proofs.Settings
import C3Lens.Proofs.Symbol.Hoisting
import C3Lens.Proofs.Symbol.Inlining
import C3Lens.Proofs.Symbol.Names
import C3Lens.Proofs.Symbol.Resolution
import C3Lens.Proofs.Symbol.Site
import C3Lens.Proofs.Symbol.Spelling
import C3Lens.Proofs.Symbol.Written
import C3Lens.Proofs.SymbolStore.Binding
import C3Lens.Proofs.SymbolStore.Delete
import C3Lens.Proofs.SymbolStore.Inheritance
import C3Lens.Proofs.SymbolStore.Inlines
import C3Lens.Proofs.SymbolStore.Lasting
import C3Lens.Proofs.SymbolStore.Modules
import C3Lens.Proofs.SymbolStore.Occurrences
import C3Lens.Proofs.SymbolStore.Order
import C3Lens.Proofs.SymbolStore.Outcome
import C3Lens.Proofs.SymbolStore.Private
import C3Lens.Proofs.SymbolStore.Register
import C3Lens.Proofs.SymbolStore.Relieved
import C3Lens.Proofs.SymbolStore.Rename
import C3Lens.Proofs.SymbolStore.Resolved
import C3Lens.Proofs.SymbolStore.Settle
import C3Lens.Proofs.SymbolStore.Shadow
import C3Lens.Proofs.SymbolStore.TypeOrder
import C3Lens.Proofs.SymbolStore.Waiting
import C3Lens.Proofs.Syntax.Alone
import C3Lens.Proofs.Syntax.Cursors
import C3Lens.Proofs.Syntax.ModulePath
import C3Lens.Proofs.Syntax.Parse
import C3Lens.Proofs.Syntax.Place
import C3Lens.Proofs.Table
import C3Lens.Proofs.Text.Blank
import C3Lens.Proofs.Text.Boundary
import C3Lens.Proofs.Text.Line
import C3Lens.Proofs.Text.Utf8
import C3Lens.Proofs.Trie
import C3Lens.Proofs.TypeSyntax.Lookahead
import C3Lens.Proofs.TypeSyntax.Shown
import C3Lens.Proofs.Workspace.Afresh
import C3Lens.Proofs.Workspace.Agreement
import C3Lens.Proofs.Workspace.Directory
import C3Lens.Proofs.Workspace.Documents
import C3Lens.Proofs.Workspace.Entries
import C3Lens.Proofs.Workspace.Names
import C3Lens.Proofs.Workspace.Private
import C3Lens.Proofs.Workspace.Refresh
import C3Lens.Proofs.Workspace.Rename
import C3Lens.Proofs.Workspace.Run
import C3Lens.Proofs.Workspace.Shelves
import C3Lens.Proofs.Workspace.Sites
import C3Lens.Proofs.Workspace.Sources
import C3Lens.Proofs.Workspace.Spelling
import C3Lens.Service.Basic
import C3Lens.Service.Exchange
import C3Lens.Service.Notice
import C3Lens.Service.Request
import C3Lens.Settings
import C3Lens.Symbol.Comment
import C3Lens.Symbol.Declaration
import C3Lens.Symbol.Decode
import C3Lens.Symbol.Encode
import C3Lens.Symbol.Module
import C3Lens.Symbol.ModulePath
import C3Lens.Symbol.TypeRef
import C3Lens.Symbol.View
import C3Lens.Syntax.Grammar.Aggregates
import C3Lens.Syntax.Grammar.Bodies
import C3Lens.Syntax.Grammar.Declarations
import C3Lens.Syntax.Grammar.Lookahead
import C3Lens.Syntax.Grammar.Reader
import C3Lens.Syntax.Grammar.Types
import C3Lens.Syntax.Kind
import C3Lens.Syntax.Parse
import C3Lens.Syntax.Token
import C3Lens.Syntax.Tree
import C3Lens.Table
import C3Lens.Text.Blank
import C3Lens.Text.Composition
import C3Lens.Text.Hex
import C3Lens.Text.Line
import C3Lens.Text.Utf8
import C3Lens.Text.Word
import C3Lens.Trie
import C3Lens.Workspace.Basic
import C3Lens.Workspace.NameIndex
import C3Lens.Workspace.SymbolStore
