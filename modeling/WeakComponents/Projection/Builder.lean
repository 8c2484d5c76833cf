import WeakComponents.Limits
import WeakComponents.Projection.Basic

/-!
# Building projections

A builder collects nodes, labels, properties and relationships in any order. Building sorts the
ids and drops repeated ones, so that slots follow the order of ids; relationships with an end that
is not among the nodes are skipped; and a projection beyond the limits is refused.
-/

namespace WeakComponents.Projection

structure PropertySetting where
  node : NodeId
  key : String
  value : PropertyValue

/-- A relationship between ids, with a weight if it was given one. -/
structure Relationship where
  source : NodeId
  target : NodeId
  weight : Option Float

structure Builder where
  nodes : Array NodeId
  /-- The last label given to a node. -/
  labels : Std.HashMap NodeId String
  properties : Array PropertySetting
  relationships : Array Relationship
  loadDirection : LoadDirection
  /-- The weight of relationships without one in a weighted projection. -/
  defaultWeight : Float
  maxNodes : UInt64
  maxMemory : UInt64

namespace Builder

def empty : Builder where
  nodes := #[]
  labels := ∅
  properties := #[]
  relationships := #[]
  loadDirection := .outgoing
  defaultWeight := 1.0
  maxNodes := (Limits.standard 1).maxVertices
  maxMemory := (Limits.standard 1).maxProjectionMemory

instance : Inhabited Builder := ⟨empty⟩

/-- Takes the limits on nodes and memory from a configuration. -/
def withLimits (builder : Builder) (limits : Limits) : Builder :=
  { builder with maxNodes := limits.maxVertices, maxMemory := limits.maxProjectionMemory }

def load (builder : Builder) (direction : LoadDirection) : Builder :=
  { builder with loadDirection := direction }

def withDefaultWeight (builder : Builder) (weight : Float) : Builder :=
  { builder with defaultWeight := weight }

def withMaxNodes (builder : Builder) (count : UInt64) : Builder :=
  { builder with maxNodes := count }

def node (builder : Builder) (id : NodeId) : Builder :=
  { builder with nodes := builder.nodes.push id }

def addNodes (builder : Builder) (ids : List NodeId) : Builder :=
  { builder with nodes := builder.nodes ++ ids }

def labeledNode (builder : Builder) (id : NodeId) (label : String) : Builder :=
  { builder with nodes := builder.nodes.push id, labels := builder.labels.insert id label }

def nodeProperty (builder : Builder) (id : NodeId) (key : String) (value : PropertyValue) :
    Builder :=
  { builder with
    nodes := builder.nodes.push id, properties := builder.properties.push ⟨id, key, value⟩ }

def relationship (builder : Builder) (source target : NodeId) : Builder :=
  { builder with relationships := builder.relationships.push ⟨source, target, none⟩ }

def addRelationships (builder : Builder) (pairs : List (NodeId × NodeId)) : Builder :=
  pairs.foldl (fun builder pair ↦ builder.relationship pair.1 pair.2) builder

/-- Adds a relationship with a weight, which makes the projection a weighted one. -/
def weightedRelationship (builder : Builder) (source target : NodeId) (weight : Float) : Builder :=
  { builder with relationships := builder.relationships.push ⟨source, target, some weight⟩ }

/-- One thing that a builder is told. -/
inductive Call where
  | node (id : NodeId)
  | nodes (ids : List NodeId)
  | labeledNode (id : NodeId) (label : String)
  | nodeProperty (id : NodeId) (key : String) (value : PropertyValue)
  | relationship (source target : NodeId)
  | relationships (pairs : List (NodeId × NodeId))
  | weightedRelationship (source target : NodeId) (weight : Float)
  | load (direction : LoadDirection)
  | defaultWeight (weight : Float)
  | maxNodes (count : UInt64)
  | limits (limits : Limits)

def perform (builder : Builder) : Call → Builder
  | .node id => builder.node id
  | .nodes ids => builder.addNodes ids
  | .labeledNode id label => builder.labeledNode id label
  | .nodeProperty id key value => builder.nodeProperty id key value
  | .relationship source target => builder.relationship source target
  | .relationships pairs => builder.addRelationships pairs
  | .weightedRelationship source target weight =>
    builder.weightedRelationship source target weight
  | .load direction => builder.load direction
  | .defaultWeight weight => builder.withDefaultWeight weight
  | .maxNodes count => builder.withMaxNodes count
  | .limits limits => builder.withLimits limits

/-- The builder that was told all of `calls`, in order. -/
def ofCalls (calls : List Call) : Builder :=
  calls.foldl perform empty

/-- Drops every id that repeats the one before it, `previous` being the one before the list. -/
def dropRepeats (previous : NodeId) : List NodeId → List NodeId
  | [] => []
  | id :: rest => if id = previous then dropRepeats previous rest else id :: dropRepeats id rest

/-- The ids of the nodes in ascending order, each once. -/
def distinctNodes (builder : Builder) : List NodeId :=
  match NodeId.sort builder.nodes.toList with
  | [] => []
  | id :: rest => id :: dropRepeats id rest

def idMapOf (ids : List NodeId) : IdMap :=
  (IdMap.ofList ids).compact

def labelOf (builder : Builder) (id : NodeId) : String :=
  (builder.labels[id]?).getD Schema.allNodesLabel

/-- The labels of all nodes and the types observed for their properties. -/
def schemaOf (builder : Builder) (ids : List NodeId) : Schema :=
  let labeled := ids.foldl (fun schema id ↦ schema.addLabel (builder.labelOf id)) .empty
  builder.properties.foldl
    (fun schema setting ↦
      schema.addProperty (builder.labelOf setting.node) setting.key setting.value.numberType)
    labeled

/-- The type of each property: floating if any value given for it is. -/
def columnTypes (builder : Builder) : Table NumberType :=
  builder.properties.foldl
    (fun types setting ↦ types.upsert setting.key fun
      | some known => known.widen setting.value.numberType
      | none => setting.value.numberType)
    .empty

/-- Puts what `read` takes from a setting of `key` into the cell of its node. -/
def put {α : Type} (idMap : IdMap) (key : String) (read : PropertyValue → Option α)
    (cells : Array (Option α)) (setting : PropertySetting) : Array (Option α) :=
  if setting.key = key then
    match idMap.slotOf? setting.node, read setting.value with
    | some slot, some value => cells.setIfInBounds slot.toNat (some value)
    | _, _ => cells
  else cells

/-- The cells of a property, each the last value that `read` accepts for its node. -/
def cells {α : Type} (builder : Builder) (idMap : IdMap) (key : String)
    (read : PropertyValue → Option α) : Array (Option α) :=
  builder.properties.foldl (put idMap key read) (Array.replicate idMap.size none)

def column (builder : Builder) (idMap : IdMap) (key : String) : NumberType → PropertyColumn
  | .integer => .long (builder.cells idMap key fun
      | .long value => some value
      | .double _ => none)
  | .floating => .double (builder.cells idMap key fun value ↦ some value.toFloat)

def columns (builder : Builder) (idMap : IdMap) : Table PropertyColumn :=
  builder.columnTypes.mapEntries (builder.column idMap)

/-- Whether any relationship was given a weight. -/
def isWeighted (builder : Builder) : Bool :=
  builder.relationships.any fun relationship ↦ relationship.weight.isSome

/-- The relationships between nodes, in the order in which they were added. -/
def edges (builder : Builder) (idMap : IdMap) : List Edge :=
  builder.relationships.toList.filterMap fun relationship ↦
    match idMap.slotOf? relationship.source, idMap.slotOf? relationship.target with
    | some source, some target =>
      some ⟨source, target, relationship.weight.getD builder.defaultWeight⟩
    | _, _ => none

def outgoingRows (direction : LoadDirection) (nodeCount : Nat) (edges : List Edge)
    (weighted : Bool) : Option Adjacency :=
  match direction with
  | .outgoing | .both => some (.ofEdges nodeCount edges weighted)
  | .incoming => none
  | .undirected => some (.ofEdges nodeCount (edges.flatMap Edge.bothEnds) weighted)

def incomingRows (direction : LoadDirection) (nodeCount : Nat) (edges : List Edge)
    (weighted : Bool) : Option Adjacency :=
  match direction with
  | .incoming | .both => some (.ofEdges nodeCount (edges.map Edge.reverse) weighted)
  | .outgoing | .undirected => none

/-- The projection of the distinct ids of the nodes, whatever the memory it takes. -/
def assemble (builder : Builder) (ids : List NodeId) : Projection :=
  let idMap := idMapOf ids
  let edges := builder.edges idMap
  { nodeCount := idMap.size
    relationshipCount := edges.length
    loadDirection := builder.loadDirection
    outgoing := outgoingRows builder.loadDirection idMap.size edges builder.isWeighted
    incoming := incomingRows builder.loadDirection idMap.size edges builder.isWeighted
    idMap
    columns := builder.columns idMap
    schema := builder.schemaOf ids }

/-- Builds the projection, unless it has too many nodes or takes too much memory. -/
def build (builder : Builder) : Except EngineError Projection :=
  let ids := builder.distinctNodes
  if builder.maxNodes.toNat < ids.length then
    .error (.limitExceeded "node" builder.maxNodes)
  else
    let projection := builder.assemble ids
    if builder.maxMemory.toNat < projection.memorySize then
      .error (.limitExceeded "memory" builder.maxMemory)
    else .ok projection

end Builder

end WeakComponents.Projection
