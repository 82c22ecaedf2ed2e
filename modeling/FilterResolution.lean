import FilterResolution.Data.KeyMap
import FilterResolution.Filter.Decode
import FilterResolution.Filter.Entity
import FilterResolution.Filter.Error
import FilterResolution.Filter.Node
import FilterResolution.Filter.Path
import FilterResolution.Filter.Predicate
import FilterResolution.Filter.Spec
import FilterResolution.Filter.Value
import FilterResolution.Json.Doc
import FilterResolution.Json.Error
import FilterResolution.Json.Number
import FilterResolution.Json.Reader
import FilterResolution.Json.Stream
import FilterResolution.Number.Binary64
import FilterResolution.Number.Layout
import FilterResolution.Number.Scale
import FilterResolution.Number.Shortest
import FilterResolution.Probe.FieldPath
import FilterResolution.Probe.Resolve
import FilterResolution.Scripting.Basic
import FilterResolution.Scripting.Decode
import FilterResolution.Text.Escaped
import FilterResolution.Text.Quote
import FilterResolution.Virtual.Config
import FilterResolution.Virtual.Container
import FilterResolution.Virtual.Context
import FilterResolution.Virtual.Error
import FilterResolution.Virtual.Event
import FilterResolution.Virtual.FieldPath
import FilterResolution.Virtual.Loader
import FilterResolution.Virtual.Registry
import FilterResolution.Virtual.Report
import FilterResolution.Virtual.Resolver
import FilterResolution.Virtual.Run
import FilterResolution.Proofs.Outcome
import FilterResolution.Proofs.Registry
import FilterResolution.Proofs.PathMatch
import FilterResolution.Proofs.ContainerPaths
import FilterResolution.Proofs.Settled
import FilterResolution.Proofs.Walk
import FilterResolution.Proofs.Batches
import FilterResolution.Proofs.Resolution
import FilterResolution.Proofs.Containers
import FilterResolution.Proofs.Contexts
import FilterResolution.Proofs.FieldPaths
import FilterResolution.Proofs.JsonScalars
import FilterResolution.Proofs.JsonDocs
import FilterResolution.Proofs.FilterDocs
import FilterResolution.Proofs.JsonStreams
import FilterResolution.Proofs.SpecJson
import FilterResolution.Proofs.PredicateWalk
import FilterResolution.Proofs.RegistryBuild
import FilterResolution.Proofs.Loading
import FilterResolution.Proofs.Grouping
import FilterResolution.Proofs.EqualityReading
import FilterResolution.Proofs.KeyOrder
import FilterResolution.Proofs.SortedSpecs
