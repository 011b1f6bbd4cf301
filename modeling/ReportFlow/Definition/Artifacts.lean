import ReportFlow.Definition.Condition

/-!
What a definition carries for others: advice on its size, and plans made outside of this library.
-/

namespace ReportFlow

structure RowEstimate where
  base : UInt64
  orgAvg : Option Double
  expandEstimate : Option UInt64
  deriving DecidableEq

namespace RowEstimate

def codec : Codec RowEstimate :=
  .record "RowEstimate"
    (.cons (.required "base" .uint64) <| .cons (.optional "orgAvg" .double) <|
      .cons (.optional "expandEstimate" .uint64) .nil)
    (fun r => (r.base, r.orgAvg, r.expandEstimate, ()))
    (fun (base, orgAvg, expandEstimate, _) => ⟨base, orgAvg, expandEstimate⟩)

end RowEstimate

/-- Advice only; nothing may depend on it. -/
structure Hints where
  rowEstimate : Option RowEstimate
  warnings : List String
  executionTime : Option Double
  deriving DecidableEq

namespace Hints

def none : Hints := ⟨.none, [], .none⟩

def codec : Codec Hints :=
  .record "Hints"
    (.cons (.optional "rowEstimate" RowEstimate.codec) <|
      .cons (.defaulted "warnings" (.list .string) []) <|
      .cons (.optional "estimatedExecutionTime" .double) .nil)
    (fun h => (h.rowEstimate, h.warnings, h.executionTime, ()))
    (fun (rowEstimate, warnings, executionTime, _) => ⟨rowEstimate, warnings, executionTime⟩)

end Hints

structure SnapshotRef where
  id : String
  version : String
  lcid : UInt32
  deriving DecidableEq

namespace SnapshotRef

def codec : Codec SnapshotRef :=
  .record "MetadataSnapshotRef"
    (.cons (.required "id" .string) <| .cons (.required "version" .string) <|
      .cons (.required "lcid" .uint32) .nil)
    (fun s => (s.id, s.version, s.lcid, ()))
    (fun (id, version, lcid, _) => ⟨id, version, lcid⟩)

end SnapshotRef

structure ChildPlan where
  targetEntity : String
  parentKey : String
  columns : List String
  orderBy : Option (List SortKey)
  filters : Option (List CaptionedCondition)
  deriving DecidableEq

namespace ChildPlan

def codec : Codec ChildPlan :=
  .record "ChildPlan"
    (.cons (.required "targetEntity" .string) <| .cons (.required "parentKey" .string) <|
      .cons (.required "select" (.list .string)) <|
      .cons (.optional "orderBy" (.list SortKey.codec)) <|
      .cons (.optional "filters" (.list CaptionedCondition.codec)) .nil)
    (fun p => (p.targetEntity, p.parentKey, p.columns, p.orderBy, p.filters, ()))
    (fun (targetEntity, parentKey, columns, orderBy, filters, _) =>
      ⟨targetEntity, parentKey, columns, orderBy, filters⟩)

end ChildPlan

/-- Plans of the execution engine, carried along unchanged. -/
structure Artifacts where
  compilerVersion : String
  compiledAt : String
  snapshot : SnapshotRef
  primaryFetch : Option String
  aggregateFetches : Option (List (String × String))
  childPlans : Option (List (String × ChildPlan))
  deriving DecidableEq

namespace Artifacts

def codec : Codec Artifacts :=
  .record "Artifacts"
    (.cons (.required "compilerVersion" .string) <| .cons (.required "compiledAt" .string) <|
      .cons (.required "metadataSnapshot" SnapshotRef.codec) <|
      .cons (.optional "primaryFetchXml" .string) <|
      .cons (.optional "aggregateFetches" (.map .string)) <|
      .cons (.optional "childPlans" (.map ChildPlan.codec)) .nil)
    (fun a => (a.compilerVersion, a.compiledAt, a.snapshot, a.primaryFetch, a.aggregateFetches,
      a.childPlans, ()))
    (fun (compilerVersion, compiledAt, snapshot, primaryFetch, aggregateFetches, childPlans, _) =>
      ⟨compilerVersion, compiledAt, snapshot, primaryFetch, aggregateFetches, childPlans⟩)

end Artifacts

end ReportFlow
