import WeakComponents.Components.Phase
import WeakComponents.Components.Run
import WeakComponents.Graph.Tabulated
import WeakComponents.Projection.Builder
import WeakComponents.Proofs.UnionFind.Climbing
import WeakComponents.Proofs.UnionFind.Operations
import WeakComponents.Proofs.Connectivity
import WeakComponents.Proofs.UnionFind.Classes
import WeakComponents.Proofs.UnionFind.Origin
import WeakComponents.Proofs.UnionFind.Runs
import WeakComponents.Proofs.Batches
import WeakComponents.Proofs.Components.Settlement
import WeakComponents.Proofs.Components.Following
import WeakComponents.Proofs.Components.Schedule
import WeakComponents.Proofs.IdMap
import WeakComponents.Proofs.Projection.Rows
import WeakComponents.Proofs.Projection.Numbering
import WeakComponents.Proofs.Projection.Relationships
import WeakComponents.Proofs.Components.Answer
import WeakComponents.Proofs.Components.Seeds
import WeakComponents.Proofs.Projection.Columns
import WeakComponents.Proofs.Components.Projected
import WeakComponents.Proofs.Projection.Memory
import WeakComponents.Proofs.Components.Correctness
import WeakComponents.Proofs.Components.Course
import WeakComponents.Proofs.IdMap.FirstSight
import WeakComponents.Proofs.IdMap.Runs
import WeakComponents.Proofs.Projection.Calls
import WeakComponents.Proofs.Projection.Lists
import WeakComponents.Proofs.Projection.Unweighted
import WeakComponents.Proofs.Projection.Dangling
import WeakComponents.Proofs.Components.Causes
import WeakComponents.Proofs.Components.Interrupted
import WeakComponents.Proofs.Components.Crew
import WeakComponents.Proofs.Components.Surfacing
import WeakComponents.Proofs.Graph.Visitors
import WeakComponents.Proofs.Projection.Readable
import WeakComponents.Proofs.Projection.CommonNeighbors
import WeakComponents.Proofs.Text.ByteOrder
import WeakComponents.Proofs.Table
import WeakComponents.Proofs.Schema
import WeakComponents.Proofs.Projection.Settings
import WeakComponents.Proofs.Projection.Properties
import WeakComponents.Proofs.Projection.Traversals
import WeakComponents.Proofs.Projection.Weights
import WeakComponents.Proofs.Projection.Limits
import WeakComponents.Proofs.UnionFind.Requests
import WeakComponents.Proofs.UnionFind.Counting
import WeakComponents.Proofs.Components.Successful
import WeakComponents.Proofs.Projection.Ranks
import WeakComponents.Proofs.Components.SmallestIds
import WeakComponents.Proofs.Components.Sizes
import WeakComponents.Proofs.Components.Rows
import WeakComponents.Proofs.Partition
import WeakComponents.Proofs.Dispatch.Calls
import WeakComponents.Proofs.Dispatch.Workers
import WeakComponents.Proofs.Projection.Entries
import WeakComponents.Proofs.Projection.Counters
import WeakComponents.Proofs.Outcomes
import WeakComponents.Proofs.Components.Arguments
import WeakComponents.Proofs.Components.Objections
import WeakComponents.Proofs.Schema.Observed
import WeakComponents.Proofs.Json.Quoting
import WeakComponents.Proofs.Json.Objects
import WeakComponents.Proofs.Schema.Stored
import WeakComponents.Proofs.Decimal
import WeakComponents.Proofs.Json.Naturals
import WeakComponents.Proofs.NodeId
import WeakComponents.Proofs.IdMap.Flags
import WeakComponents.Proofs.Limits
import WeakComponents.Proofs.Components.Accepted
