import CreatorMigration.BoundedCall
import CreatorMigration.Command.Arguments
import CreatorMigration.Command.Run
import CreatorMigration.Config.Basic
import CreatorMigration.Config.Document
import CreatorMigration.Config.Files
import CreatorMigration.Config.Reader
import CreatorMigration.Config.Toml
import CreatorMigration.Config.Value
import CreatorMigration.Dictionary
import CreatorMigration.Disk
import CreatorMigration.Edit
import CreatorMigration.Json
import CreatorMigration.Main
import CreatorMigration.Migration.Action
import CreatorMigration.Migration.ActionClass
import CreatorMigration.Migration.Clause
import CreatorMigration.Migration.Outcome
import CreatorMigration.Migration.Pass
import CreatorMigration.Migration.Pipeline
import CreatorMigration.Migration.Reducer
import CreatorMigration.Migration.Replacement
import CreatorMigration.Migration.Run
import CreatorMigration.Migration.Site
import CreatorMigration.Naming
import CreatorMigration.Ordered
import CreatorMigration.Path.Basic
import CreatorMigration.Path.Relative
import CreatorMigration.Pattern.Basic
import CreatorMigration.Pattern.Reader
import CreatorMigration.Preflight
import CreatorMigration.Project.Basic
import CreatorMigration.Project.Error
import CreatorMigration.Project.Files
import CreatorMigration.Project.Imports
import CreatorMigration.Project.Reference
import CreatorMigration.Project.Resolution
import CreatorMigration.Project.Update
import CreatorMigration.Proofs.BoundedCall
import CreatorMigration.Proofs.CallForms
import CreatorMigration.Proofs.Command.Writes
import CreatorMigration.Proofs.Disk
import CreatorMigration.Proofs.Edit
import CreatorMigration.Proofs.Edit.Nesting
import CreatorMigration.Proofs.Edit.Outermost
import CreatorMigration.Proofs.Edit.Splice
import CreatorMigration.Proofs.Migration.Breaks
import CreatorMigration.Proofs.Migration.ConciseBodies
import CreatorMigration.Proofs.Migration.Discriminators
import CreatorMigration.Proofs.Migration.DryRun
import CreatorMigration.Proofs.Migration.EffectFields
import CreatorMigration.Proofs.Migration.EnumAccesses
import CreatorMigration.Proofs.Migration.Exports
import CreatorMigration.Proofs.Migration.FactoryNames
import CreatorMigration.Proofs.Migration.Fallthrough
import CreatorMigration.Proofs.Migration.FilterArguments
import CreatorMigration.Proofs.Migration.Filtering
import CreatorMigration.Proofs.Migration.Footprint
import CreatorMigration.Proofs.Migration.Gate
import CreatorMigration.Proofs.Migration.HandlerParameters
import CreatorMigration.Proofs.Migration.LabelGroups
import CreatorMigration.Proofs.Migration.PassRounds
import CreatorMigration.Proofs.Migration.Payloads
import CreatorMigration.Proofs.Migration.Phases
import CreatorMigration.Proofs.Migration.Plans
import CreatorMigration.Proofs.Migration.Refusals
import CreatorMigration.Proofs.Migration.Registration
import CreatorMigration.Proofs.Migration.Removals
import CreatorMigration.Proofs.Migration.Replacement
import CreatorMigration.Proofs.Migration.Rewriting
import CreatorMigration.Proofs.Migration.Rounds
import CreatorMigration.Proofs.Migration.Schedule
import CreatorMigration.Proofs.Migration.Scopes
import CreatorMigration.Proofs.Migration.SecondRun
import CreatorMigration.Proofs.Migration.Settled
import CreatorMigration.Proofs.Migration.Sites
import CreatorMigration.Proofs.Migration.SitesLeft
import CreatorMigration.Proofs.Migration.Spellings
import CreatorMigration.Proofs.Migration.Stages
import CreatorMigration.Proofs.Migration.Surroundings
import CreatorMigration.Proofs.Migration.TextsOnly
import CreatorMigration.Proofs.Migration.UnionRounds
import CreatorMigration.Proofs.Migration.Unions
import CreatorMigration.Proofs.Migration.WrappedEffects
import CreatorMigration.Proofs.Migration.WrittenSites
import CreatorMigration.Proofs.Naming
import CreatorMigration.Proofs.Path.Joined
import CreatorMigration.Proofs.Path.Location
import CreatorMigration.Proofs.Path.Normal
import CreatorMigration.Proofs.Path.Order
import CreatorMigration.Proofs.Path.Specifier
import CreatorMigration.Proofs.Project.ActsOnTexts
import CreatorMigration.Proofs.Project.Alignment
import CreatorMigration.Proofs.Project.Changes
import CreatorMigration.Proofs.Project.Collisions
import CreatorMigration.Proofs.Project.Directories
import CreatorMigration.Proofs.Project.Exporters
import CreatorMigration.Proofs.Project.Failures
import CreatorMigration.Proofs.Project.Frame
import CreatorMigration.Proofs.Project.Listing
import CreatorMigration.Proofs.Project.Loading
import CreatorMigration.Proofs.Project.Lookup
import CreatorMigration.Proofs.Project.Marks
import CreatorMigration.Proofs.Project.Persistence
import CreatorMigration.Proofs.Project.Reconciled
import CreatorMigration.Proofs.Project.References
import CreatorMigration.Proofs.Project.Resolution
import CreatorMigration.Proofs.Project.Saving
import CreatorMigration.Proofs.Project.Spellings
import CreatorMigration.Proofs.Project.Texts
import CreatorMigration.Proofs.Project.TextsOnly
import CreatorMigration.Proofs.Project.Units
import CreatorMigration.Proofs.Store.Parts
import CreatorMigration.Proofs.Store.Spellings
import CreatorMigration.Proofs.Text.Case
import CreatorMigration.Proofs.Text.Cuts
import CreatorMigration.Proofs.Text.Lowering
import CreatorMigration.Proofs.Text.Parts
import CreatorMigration.Proofs.Text.Trim
import CreatorMigration.Proofs.Tree.Alike
import CreatorMigration.Proofs.Tree.Bars
import CreatorMigration.Proofs.Tree.Clauses
import CreatorMigration.Proofs.Tree.Continuation
import CreatorMigration.Proofs.Tree.Covering
import CreatorMigration.Proofs.Tree.Covering.Expressions
import CreatorMigration.Proofs.Tree.Covering.Statements
import CreatorMigration.Proofs.Tree.Covering.Types
import CreatorMigration.Proofs.Tree.Gaps
import CreatorMigration.Proofs.Tree.Laminar
import CreatorMigration.Proofs.Tree.Leaves
import CreatorMigration.Proofs.Tree.LeftEdge
import CreatorMigration.Proofs.Tree.Lexemes
import CreatorMigration.Proofs.Tree.Members
import CreatorMigration.Proofs.Tree.Names
import CreatorMigration.Proofs.Tree.NodeAt
import CreatorMigration.Proofs.Tree.Placement
import CreatorMigration.Proofs.Tree.Places
import CreatorMigration.Proofs.Tree.Tokens
import CreatorMigration.Proofs.Tree.Unions
import CreatorMigration.Proofs.Unit.Bindings
import CreatorMigration.Proofs.Unit.BlankLines
import CreatorMigration.Proofs.Unit.Code
import CreatorMigration.Proofs.Unit.Contents
import CreatorMigration.Proofs.Unit.Crowding
import CreatorMigration.Proofs.Unit.Declared
import CreatorMigration.Proofs.Unit.Exports
import CreatorMigration.Proofs.Unit.ImportEdits
import CreatorMigration.Proofs.Unit.Removal
import CreatorMigration.Proofs.Unit.Spans
import CreatorMigration.Report
import CreatorMigration.Span
import CreatorMigration.Store
import CreatorMigration.Table
import CreatorMigration.Text.Basic
import CreatorMigration.Text.Case
import CreatorMigration.Text.Classes
import CreatorMigration.Text.Names
import CreatorMigration.Text.Quoted
import CreatorMigration.Tree.Grammar.Basic
import CreatorMigration.Tree.Grammar.Classes
import CreatorMigration.Tree.Grammar.Expression
import CreatorMigration.Tree.Grammar.Modules
import CreatorMigration.Tree.Grammar.Name
import CreatorMigration.Tree.Grammar.Parameter
import CreatorMigration.Tree.Grammar.Statements
import CreatorMigration.Tree.Grammar.Types
import CreatorMigration.Tree.Kind
import CreatorMigration.Tree.Node
import CreatorMigration.Tree.Parse
import CreatorMigration.Tree.Query
import CreatorMigration.Tree.Shape
import CreatorMigration.Tree.Token
import CreatorMigration.Tree.Token.Lexer
import CreatorMigration.Unit.Basic
import CreatorMigration.Unit.Declaration
import CreatorMigration.Unit.Import
import CreatorMigration.Unit.Names
import CreatorMigration.Unit.Removal
