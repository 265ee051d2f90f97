import GraphGate.Aql.Fragment
import GraphGate.Aql.Query
import GraphGate.Aql.Rendering
import GraphGate.Base64
import GraphGate.Catalogue
import GraphGate.CommandLine.FileTree
import GraphGate.CommandLine.Files
import GraphGate.CommandLine.Form
import GraphGate.CommandLine.Invocation
import GraphGate.CommandLine.Resemblance
import GraphGate.CommandLine.Run
import GraphGate.Compilation.Arguments
import GraphGate.Compilation.Compiler
import GraphGate.Compilation.Generator
import GraphGate.Compilation.Unsupported
import GraphGate.Config.Host
import GraphGate.Config.Settings
import GraphGate.Config.Toml
import GraphGate.Decimal.Binary64
import GraphGate.Decimal.Shortest
import GraphGate.Engine
import GraphGate.Fetching
import GraphGate.GraphQL.Document
import GraphGate.GraphQL.Grammar
import GraphGate.GraphQL.Literal
import GraphGate.GraphQL.QueryGrammar
import GraphGate.GraphQL.SchemaGrammar
import GraphGate.GraphQL.Token
import GraphGate.Integer64
import GraphGate.Json.Basic
import GraphGate.Json.Parser
import GraphGate.Json.Printer
import GraphGate.Main
import GraphGate.Proofs.Aql.Naming
import GraphGate.Proofs.Aql.Nodes
import GraphGate.Proofs.Aql.Placeholders
import GraphGate.Proofs.Aql.RenderedText
import GraphGate.Proofs.Aql.Variables
import GraphGate.Proofs.Compilation.Acceptance
import GraphGate.Proofs.Compilation.Agreement
import GraphGate.Proofs.Compilation.Closing
import GraphGate.Proofs.Compilation.Fields
import GraphGate.Proofs.Compilation.Scoping
import GraphGate.Proofs.Merging
import GraphGate.Proofs.Request.Answers
import GraphGate.Proofs.Request.Occurrences
import GraphGate.Proofs.Request.Placement
import GraphGate.Proofs.Request.TypeConditions
import GraphGate.Proofs.Response.Completion
import GraphGate.Proofs.Response.Conformance
import GraphGate.Proofs.Response.Execution
import GraphGate.Proofs.Response.Explanation
import GraphGate.Proofs.Response.Placement
import GraphGate.Proofs.Response.Traversal
import GraphGate.Proofs.Schema.Aliases
import GraphGate.Proofs.Schema.Building
import GraphGate.Proofs.Schema.Canonical
import GraphGate.Proofs.Schema.Checks
import GraphGate.Proofs.Schema.Extensions
import GraphGate.Proofs.Schema.PossibleTypes
import GraphGate.Proofs.Schema.Resolution
import GraphGate.Proofs.Schema.WellFormed
import GraphGate.Proofs.SelectionTree
import GraphGate.Proofs.Store.Answer
import GraphGate.Proofs.Store.Evaluation
import GraphGate.Proofs.Store.Fitting
import GraphGate.Proofs.Store.Selecting
import GraphGate.Proofs.Store.Simulation
import GraphGate.Proofs.Success
import GraphGate.Provisioning.Creator
import GraphGate.Provisioning.Plan
import GraphGate.Reader
import GraphGate.Request.Error
import GraphGate.Request.Expansion
import GraphGate.Request.Handling
import GraphGate.Response.Error
import GraphGate.Response.Node
import GraphGate.Response.Path
import GraphGate.Response.Shaping
import GraphGate.Schema.Builder
import GraphGate.Schema.Declaration
import GraphGate.Schema.Directive
import GraphGate.Schema.Discriminator
import GraphGate.Schema.Error
import GraphGate.Schema.Loading
import GraphGate.Schema.Model
import GraphGate.Selection
import GraphGate.Storage.Collection
import GraphGate.Storage.Command
import GraphGate.Storage.Dialogue
import GraphGate.Storage.Error
import GraphGate.Storage.Http.Body
import GraphGate.Storage.Http.Call
import GraphGate.Storage.Http.Client
import GraphGate.Storage.Http.Exchange
import GraphGate.Storage.Http.Network
import GraphGate.Storage.Http.Script
import GraphGate.Storage.Http.Status
import GraphGate.Storage.Http.Target
import GraphGate.Storage.Http.Wire
import GraphGate.Storage.Memory
import GraphGate.Table
import GraphGate.TextReader
import GraphGate.TypeRef
import GraphGate.Proofs.Provisioning.Requirements
import GraphGate.Proofs.Storage.Sharing
import GraphGate.Proofs.Storage.Disturbance
import GraphGate.Proofs.Provisioning.Ensuring
import GraphGate.Proofs.Provisioning.Phases
import GraphGate.Proofs.Provisioning.Convergence
import GraphGate.Proofs.Provisioning.Planning
import GraphGate.Proofs.Provisioning.Concurrency
import GraphGate.Proofs.Provisioning.Overtaking
import GraphGate.Proofs.Schema.Rearrangement
import GraphGate.Proofs.Schema.Resemblance
import GraphGate.Proofs.Provisioning.PlanOrder
import GraphGate.Proofs.Schema.Registering
import GraphGate.Proofs.Schema.Agreement
import GraphGate.Proofs.Provisioning.Calls
import GraphGate.Proofs.Provisioning.CompletedPhases
import GraphGate.Proofs.Compilation.Sources
import GraphGate.Proofs.Provisioning.Additions
import GraphGate.Proofs.Provisioning.QueriedCollections
import GraphGate.Proofs.Aql.Blanks
import GraphGate.Proofs.Compilation.Values
import GraphGate.Proofs.Compilation.ChainOrder
import GraphGate.Proofs.Siblings
import GraphGate.Proofs.Compilation.SiblingOrder
import GraphGate.Proofs.Aql.ProjectionOrder
import GraphGate.Proofs.Response.SiblingOrder
import GraphGate.Proofs.Response.Containment
import GraphGate.Proofs.Request.Asking
import GraphGate.Proofs.Request.Inlining
import GraphGate.Proofs.Request.Spreads
import GraphGate.Proofs.Compilation.TypeConditions
import GraphGate.Proofs.Request.QueryFields
import GraphGate.Proofs.Pruning
import GraphGate.Proofs.Compilation.Owners
import GraphGate.Proofs.Compilation.Pruning
import GraphGate.Proofs.Compilation.Scans
import GraphGate.Proofs.Compilation.StoredFields
import GraphGate.Proofs.Aql.QueryParts
import GraphGate.Proofs.Compilation.Shadowing
import GraphGate.Proofs.Compilation.Filters
import GraphGate.Proofs.Request.SkippedParts
import GraphGate.Proofs.Request.Skipping
import GraphGate.Proofs.Provisioning.Exactness
import GraphGate.Proofs.Schema.Repetitions
import GraphGate.Proofs.Storage.Http.Searching
import GraphGate.Proofs.Storage.Http.Failover
import GraphGate.Proofs.Schema.Directives
import GraphGate.Proofs.Schema.Recording
import GraphGate.Proofs.PiecewiseMerging
import GraphGate.Proofs.Config.HostEntries
import GraphGate.Proofs.Storage.Http.Draining
import GraphGate.Proofs.Storage.Http.Mirroring
