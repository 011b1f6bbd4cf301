import ReportFlow.Event
import ReportFlow.Definition.Condition

/-!
The catalog of entities, their attributes and their relationships, from which an editor offers the
relations that a link can follow.
-/

namespace ReportFlow

structure EntityInfo where
  logicalName : String
  displayName : String
  primaryId : String
  primaryName : String
  deriving DecidableEq

namespace EntityInfo

def codec : Codec EntityInfo :=
  .record "EntityMetadata"
    (.cons (.required "logicalName" .string) <| .cons (.required "displayName" .string) <|
      .cons (.required "primaryId" .string) <| .cons (.required "primaryName" .string) .nil)
    (fun e => (e.logicalName, e.displayName, e.primaryId, e.primaryName, ()))
    (fun (logicalName, displayName, primaryId, primaryName, _) =>
      ⟨logicalName, displayName, primaryId, primaryName⟩)

end EntityInfo

inductive AttributeType where
  | string
  | dateTime
  | lookup
  | optionSet
  | integer
  | decimal
  deriving DecidableEq, Repr

namespace AttributeType

def values : List AttributeType := [.string, .dateTime, .lookup, .optionSet, .integer, .decimal]

def name : AttributeType → String
  | string => "String"
  | dateTime => "DateTime"
  | lookup => "Lookup"
  | optionSet => "OptionSet"
  | integer => "Integer"
  | decimal => "Decimal"

def codec : Codec AttributeType := .variant values name

end AttributeType

structure AttributeInfo where
  logicalName : String
  displayName : String
  type : AttributeType
  targets : Option (List String)
  deriving DecidableEq

namespace AttributeInfo

def codec : Codec AttributeInfo :=
  .record "AttributeMetadata"
    (.cons (.required "logicalName" .string) <| .cons (.required "displayName" .string) <|
      .cons (.required "type" AttributeType.codec) <|
      .cons (.optional "targets" (.list .string)) .nil)
    (fun a => (a.logicalName, a.displayName, a.type, a.targets, ()))
    (fun (logicalName, displayName, type, targets, _) => ⟨logicalName, displayName, type, targets⟩)

end AttributeInfo

/-- A relationship between a record and the many records that refer to it. -/
structure ReferenceInfo where
  schemaName : String
  referencingAttribute : String
  referencedEntity : String
  referencedAttribute : String
  displayName : String
  deriving DecidableEq

namespace ReferenceInfo

def codec : Codec ReferenceInfo :=
  .record "RelationshipMetadata"
    (.cons (.required "schemaName" .string) <| .cons (.required "referencingAttribute" .string) <|
      .cons (.required "referencedEntity" .string) <|
      .cons (.required "referencedAttribute" .string) <|
      .cons (.required "displayName" .string) .nil)
    (fun r => (r.schemaName, r.referencingAttribute, r.referencedEntity, r.referencedAttribute,
      r.displayName, ()))
    (fun (schemaName, referencingAttribute, referencedEntity, referencedAttribute, displayName, _) =>
      ⟨schemaName, referencingAttribute, referencedEntity, referencedAttribute, displayName⟩)

/-- From a record to the one it refers to. -/
def toOne (r : ReferenceInfo) : Relation :=
  ⟨.manyToOne, r.schemaName, r.referencingAttribute, r.referencedAttribute, r.referencedEntity⟩

/-- From a record to those that refer to it. -/
def toMany (r : ReferenceInfo) : Relation :=
  ⟨.oneToMany, r.schemaName, r.referencedAttribute, r.referencingAttribute, r.referencedEntity⟩

end ReferenceInfo

structure IntersectInfo where
  schemaName : String
  entity1 : String
  entity2 : String
  intersectEntity : String
  deriving DecidableEq

namespace IntersectInfo

def codec : Codec IntersectInfo :=
  .record "ManyToManyRelationship"
    (.cons (.required "schemaName" .string) <| .cons (.required "entity1" .string) <|
      .cons (.required "entity2" .string) <| .cons (.required "intersectEntity" .string) .nil)
    (fun r => (r.schemaName, r.entity1, r.entity2, r.intersectEntity, ()))
    (fun (schemaName, entity1, entity2, intersectEntity, _) =>
      ⟨schemaName, entity1, entity2, intersectEntity⟩)

/-- The relation to the side opposite to an entity. -/
def relationFrom (r : IntersectInfo) (entity : String) : Relation :=
  ⟨.manyToMany, r.schemaName, entity, r.intersectEntity,
    if r.entity1 = entity then r.entity2 else r.entity1⟩

end IntersectInfo

structure Relationships where
  manyToOne : List ReferenceInfo
  oneToMany : List ReferenceInfo
  manyToMany : List IntersectInfo
  deriving DecidableEq

namespace Relationships

def empty : Relationships := ⟨[], [], []⟩

def codec : Codec Relationships :=
  .record "Relationships"
    (.cons (.defaulted "manyToOne" (.list ReferenceInfo.codec) []) <|
      .cons (.defaulted "oneToMany" (.list ReferenceInfo.codec) []) <|
      .cons (.defaulted "manyToMany" (.list IntersectInfo.codec) []) .nil)
    (fun r => (r.manyToOne, r.oneToMany, r.manyToMany, ()))
    (fun (manyToOne, oneToMany, manyToMany, _) => ⟨manyToOne, oneToMany, manyToMany⟩)

end Relationships

structure EntityGraph where
  attributes : List AttributeInfo
  relationships : Relationships
  deriving DecidableEq

namespace EntityGraph

def codec : Codec EntityGraph :=
  .record "EntityGraph"
    (.cons (.defaulted "attributes" (.list AttributeInfo.codec) []) <|
      .cons (.defaulted "relationships" Relationships.codec .empty) .nil)
    (fun g => (g.attributes, g.relationships, ()))
    (fun (attributes, relationships, _) => ⟨attributes, relationships⟩)

/-- To one, to many, then many to many. -/
def relations (g : EntityGraph) (entity : String) : List Relation :=
  g.relationships.manyToOne.map (·.toOne) ++ g.relationships.oneToMany.map (·.toMany) ++
    g.relationships.manyToMany.map (·.relationFrom entity)

end EntityGraph

/-- Graphs stand in ascending order of the logical names of their entities. -/
structure Catalog where
  entities : List EntityInfo
  graphs : List (String × EntityGraph)
  deriving DecidableEq

namespace Catalog

def empty : Catalog := ⟨[], []⟩

def codec : Codec Catalog :=
  .record "InMemoryMetadata"
    (.cons (.defaulted "entities" (.list EntityInfo.codec) []) <|
      .cons (.defaulted "graphs" (.map EntityGraph.codec) []) .nil)
    (fun c => (c.entities, c.graphs, ()))
    (fun (entities, graphs, _) => ⟨entities, graphs⟩)

def withEntity (c : Catalog) (entity : EntityInfo) (graph : EntityGraph) : Catalog :=
  ⟨c.entities ++ [entity], Keyed.put entity.logicalName graph c.graphs⟩

def graph? (c : Catalog) (entity : String) : Option EntityGraph := Keyed.get? entity c.graphs

/-- Every relation that a link at an entity could follow; none for an unknown entity. -/
def candidates (c : Catalog) (entity : String) : List Relation :=
  match c.graph? entity with
  | none => []
  | some g => g.relations entity

def candidateEvents (c : Catalog) (entity : String) : List Event :=
  match c.graph? entity with
  | none => [.debug ("No metadata for entity '" ++ entity ++ "'")]
  | some _ => []

def find? (c : Catalog) (entity schemaName : String) : Option Relation :=
  (c.candidates entity).find? (·.schemaName == schemaName)

end Catalog

end ReportFlow
