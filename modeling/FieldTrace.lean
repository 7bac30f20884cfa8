import FieldTrace.Command.Arguments
import FieldTrace.Command.Basic
import FieldTrace.Command.Request
import FieldTrace.Config.Basic
import FieldTrace.Config.Environment
import FieldTrace.Config.SettingsFile
import FieldTrace.Distinct
import FieldTrace.Hierarchy.Accessor
import FieldTrace.Hierarchy.Build
import FieldTrace.Hierarchy.CallTree
import FieldTrace.Hierarchy.Callers
import FieldTrace.Hierarchy.Category
import FieldTrace.Hierarchy.Expansion
import FieldTrace.Index.Basic
import FieldTrace.Index.CallSite
import FieldTrace.Index.Declaration
import FieldTrace.Index.Inheritance
import FieldTrace.Index.Lookup
import FieldTrace.Index.Naming
import FieldTrace.Index.Registry
import FieldTrace.Index.Scope
import FieldTrace.Index.Typing
import FieldTrace.Index.Usage
import FieldTrace.Main
import FieldTrace.Mapping.Crossing
import FieldTrace.Mapping.Detection
import FieldTrace.Mapping.Resolution
import FieldTrace.Mapping.Site
import FieldTrace.Project.FileTree
import FieldTrace.Project.Listing
import FieldTrace.Proofs.CacheAccounting
import FieldTrace.Proofs.CacheHistories
import FieldTrace.Proofs.CallEdges
import FieldTrace.Proofs.CallerGroups
import FieldTrace.Proofs.CallerNodes
import FieldTrace.Proofs.Cancellation
import FieldTrace.Proofs.Children
import FieldTrace.Proofs.Closure
import FieldTrace.Proofs.Composition
import FieldTrace.Proofs.Contexts
import FieldTrace.Proofs.Counterparts
import FieldTrace.Proofs.Counting
import FieldTrace.Proofs.Coverage
import FieldTrace.Proofs.CrossingLimits
import FieldTrace.Proofs.Crossings
import FieldTrace.Proofs.Declarations
import FieldTrace.Proofs.DetectionScopes
import FieldTrace.Proofs.Dispatch
import FieldTrace.Proofs.Edges
import FieldTrace.Proofs.EntryPatterns
import FieldTrace.Proofs.FieldLookups
import FieldTrace.Proofs.FileOrder
import FieldTrace.Proofs.GlyphSubstitution
import FieldTrace.Proofs.Growth
import FieldTrace.Proofs.Integrity
import FieldTrace.Proofs.JobInterleavings
import FieldTrace.Proofs.JobTurns
import FieldTrace.Proofs.KeyedTables
import FieldTrace.Proofs.Lineage
import FieldTrace.Proofs.Link
import FieldTrace.Proofs.Memoization
import FieldTrace.Proofs.Memory
import FieldTrace.Proofs.NextTypes
import FieldTrace.Proofs.Outcome
import FieldTrace.Proofs.OverloadSelection
import FieldTrace.Proofs.Overloads
import FieldTrace.Proofs.Paths
import FieldTrace.Proofs.PlainTyping
import FieldTrace.Proofs.Positions
import FieldTrace.Proofs.Pruning
import FieldTrace.Proofs.Qualification
import FieldTrace.Proofs.RecordedCalls
import FieldTrace.Proofs.Recording
import FieldTrace.Proofs.Recursion
import FieldTrace.Proofs.Registration
import FieldTrace.Proofs.Relations
import FieldTrace.Proofs.Reversal
import FieldTrace.Proofs.Runs
import FieldTrace.Proofs.SeedTexts
import FieldTrace.Proofs.Shadowing
import FieldTrace.Proofs.Simulation
import FieldTrace.Proofs.Spans
import FieldTrace.Proofs.Strategies
import FieldTrace.Proofs.Subtyping
import FieldTrace.Proofs.Traversals
import FieldTrace.Proofs.Truncation
import FieldTrace.Proofs.TypeArguments
import FieldTrace.Proofs.TypeResolution
import FieldTrace.Proofs.TypingEnds
import FieldTrace.Proofs.TypingOrder
import FieldTrace.Proofs.Unfolding
import FieldTrace.Proofs.Usages
import FieldTrace.Proofs.Walks
import FieldTrace.Proofs.Widening
import FieldTrace.Rose
import FieldTrace.Run.Access
import FieldTrace.Run.Basic
import FieldTrace.Run.Cache
import FieldTrace.Run.Job
import FieldTrace.Run.Settings
import FieldTrace.Seed
import FieldTrace.Sorting
import FieldTrace.Symbol
import FieldTrace.Syntax.Kind
import FieldTrace.Syntax.Language
import FieldTrace.Syntax.Source
import FieldTrace.Syntax.Tree
import FieldTrace.Table
import FieldTrace.Terminal.Action
import FieldTrace.Terminal.CellWidth
import FieldTrace.Terminal.Emoji
import FieldTrace.Terminal.EmojiTable
import FieldTrace.Terminal.Glyph
import FieldTrace.Terminal.Grapheme
import FieldTrace.Terminal.JsonView
import FieldTrace.Terminal.Line
import FieldTrace.Terminal.Markup
import FieldTrace.Terminal.Style
import FieldTrace.Terminal.TableView
import FieldTrace.Terminal.TreeView
import FieldTrace.Terminal.Wrap
import FieldTrace.Text.Blank
import FieldTrace.Text.Case
import FieldTrace.Text.CodeRun
import FieldTrace.Text.Identifier
import FieldTrace.Text.Integer
import FieldTrace.Text.Printable
import FieldTrace.Text.Quoted
import FieldTrace.Text.Split
import FieldTrace.Text.Utf8
import FieldTrace.Total
import FieldTrace.Tracer
