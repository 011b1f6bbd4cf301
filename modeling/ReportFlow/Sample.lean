import ReportFlow.Definition.Basic
import ReportFlow.Sources

/-!
Definitions to start from: an empty one, and a sample with nodes of every kind.
-/

namespace ReportFlow

/-- A first version with an empty graph. Reads the clock once and mints one id. -/
def Definition.blank (name primaryEntity : String) (s : Sources) : Definition × Sources :=
  ({ schemaVersion := currentSchema
     id := s.nextId "report"
     name := name
     description := ""
     owner := .standard
     categoryId := none
     tags := []
     primaryEntity := primaryEntity
     createdAt := s.now
     updatedAt := s.now
     reportVersion := 1
     security := .standard
     parameters := []
     graph := .empty
     layout := .standard
     limits := .standard
     hints := ⟨some ⟨0, none, some 0⟩, [], none⟩
     artifacts := none }, s.tick.mint)

namespace Sample

def parameter (name : String) (type : ParameterType) (value : Json) (label : String) : Parameter :=
  ⟨name, type, some value, none, none, label, none, none, none⟩

def parameters : List Parameter :=
  [parameter "OnlyActive" .boolean (.bool true) "Only active employees",
    parameter "HiredAfter" .date (.string "2018-01-01") "Hire date >= ?",
    { parameter "MaxConcat" .number (.number (.integer 5)) "Max orgs to list" with
      min := some (.ofNat 1), max := some (.ofNat 50) }]

def node (id : String) (x y : Nat) (data : NodeData) : ReportNode :=
  ⟨id, data, some ⟨.ofNat x, .ofNat y⟩⟩

def condition (attr : String) (operator : Operator) (value : Json) : CaptionedCondition :=
  ⟨⟨attr, operator, value⟩, none⟩

def policy (kind : PolicyKind) : Policy RowCap :=
  ⟨kind, none, none, none, none, none, none, none, none⟩

def column (key title : String) (width : Option UInt32) : SheetColumn :=
  ⟨key, title, width, none, none, none⟩

def organizations : Relation :=
  ⟨.oneToMany, "employee_orginfos", "employeeid", "employeeid", "orginfo"⟩

def reviews : Relation :=
  { organizations with schemaName := "employee_reviews", target := "performancereview" }

def newestFirst : List SortKey := [⟨"startdate", true⟩]

def employees : EntityData where
  entity := "employee"
  attributes := ["employeeid", "fullname", "email", "hiredate", "departmentid.name"]
  orderBy := [⟨"fullname", false⟩]
  timezone := some .user
  top := none

def activeOnes : FilterData where
  logic := .all
  conditions :=
    [{ condition "statecode" .eq (.number (.integer 0)) with label := some "Active" },
      condition "hiredate" .onOrAfter (.string "@HiredAfter")]
  groups := some [⟨.any,
    [condition "departmentid.name" .eq (.string "R&D"),
      condition "departmentid.name" .eq (.string "IT")]⟩]

def joinedOrganizations : LinkData where
  relation := some organizations
  joinType := .outer
  aliasName := "org"
  childFilters := some []
  childOrderBy := some newestFirst
  childTop := some 25
  childFields := ["orginfoid", "name", "type", "startdate"]
  manyPolicy := some ⟨{ policy .concat with
    field := some "name", delimiter := some "; ", orderBy := some newestFirst,
    top := some (.parameter "@MaxConcat") }, some "Organizations"⟩

def reviewSummary : LinkData where
  relation := some reviews
  joinType := .outer
  aliasName := "rev"
  childFilters := none
  childOrderBy := none
  childTop := none
  childFields := ["reviewid", "title", "rating", "period"]
  manyPolicy := some ⟨{ policy .summarize with
    measures := some [⟨.count, none, "ReviewCount"⟩, ⟨.avg, some "rating", "AvgRating"⟩],
    groupBy := some [] }, none⟩

def organizationSheet : LinkData where
  relation := some organizations
  joinType := .outer
  aliasName := "orgAll"
  childFilters := none
  childOrderBy := none
  childTop := none
  childFields := ["orginfoid", "employeeid", "name", "type", "startdate"]
  manyPolicy := some ⟨{ policy .childSheet with
    sheetName := some "OrganizationInfo",
    columns := some ["employeeid", "name", "type", "startdate"],
    orderBy := some newestFirst }, none⟩

def expressions : TransformData :=
  ⟨[⟨"YearOfHire", "year(hiredate)"⟩, ⟨"EmailDomain", "rightOf(email,'@')"⟩]⟩

def mainSheet : SheetData where
  name := "Employees"
  mode := .main
  columns :=
    [column "fullname" "Employee" (some 28),
      column "email" "Email" (some 32),
      { column "YearOfHire" "Hire Year" (some 12) with
        format := some .number, align := some .center },
      column "departmentid.name" "Department" (some 20),
      { column "Organizations" "Organizations (latest first)" (some 40) with wrap := some true },
      { column "ReviewCount" "Reviews" (some 10) with
        format := some .number, align := some .right },
      { column "AvgRating" "Avg Rating" (some 12) with
        format := some .oneDecimal, align := some .right }]
  freeze := some ⟨some 1, some 1⟩
  styles := some ⟨some true, some true, some true⟩
  hyperlinks := some ⟨some true⟩

def summarySheet : SheetData where
  name := "ReviewSummary"
  mode := .aggregate
  columns :=
    [column "employeeid" "EmployeeId" (some 18),
      { column "ReviewCount" "Total Reviews" none with format := some .number },
      { column "AvgRating" "Average Rating" none with format := some .twoDecimals }]
  freeze := none
  styles := none
  hyperlinks := none

def nodes : List ReportNode :=
  [node "n_entity" 50 50 (.entity employees),
    node "n_filter" 350 50 (.filter activeOnes),
    node "n_link_org" 650 50 (.link joinedOrganizations),
    node "n_link_review" 650 200 (.link reviewSummary),
    node "n_link_org_childsheet" 650 350 (.link organizationSheet),
    node "n_transform" 950 50 (.transform expressions),
    node "n_sheet_main" 1250 150 (.sheet mainSheet),
    node "n_sheet_reviews" 1250 350 (.sheet summarySheet),
    node "n_export" 1550 250
      (.output ⟨.xlsx, .multiSheet, "Employees_\x7byyyyMMdd_HHmm\x7d.xlsx", some true⟩)]

def edges : List ReportEdge :=
  [⟨"n_entity", "n_filter", none⟩, ⟨"n_filter", "n_link_org", none⟩,
    ⟨"n_filter", "n_link_review", none⟩, ⟨"n_filter", "n_transform", none⟩,
    ⟨"n_link_org", "n_sheet_main", none⟩, ⟨"n_link_review", "n_sheet_main", none⟩,
    ⟨"n_link_org_childsheet", "n_sheet_main", none⟩, ⟨"n_transform", "n_sheet_main", none⟩,
    ⟨"n_sheet_main", "n_export", none⟩, ⟨"n_sheet_reviews", "n_export", none⟩]

/-- Three and a fifth. -/
def averageOrganizations : Double := ⟨0x400999999999999a, by decide⟩

def hints : Hints where
  rowEstimate := some ⟨7542, some averageOrganizations, some 24134⟩
  warnings := ["Concatenate limited to @MaxConcat items per employee."]
  executionTime := none

def artifacts : Artifacts where
  compilerVersion := "rg-compile/1.0.0"
  compiledAt := "2025-10-12T09:35:00Z"
  snapshot := ⟨"snap-2025-10-12", "2025.10.12-01", 1033⟩
  primaryFetch := some "<fetch ...> ... </fetch>"
  aggregateFetches := some [("n_link_review", "<fetch aggregate=\"true\" ...> ... </fetch>")]
  childPlans := some [("OrganizationInfo",
    ⟨"orginfo", "employeeid", ["employeeid", "name", "type", "startdate"], some newestFirst, none⟩)]

end Sample

/-- A fresh copy of the sample. Reads the clock once and mints one id. -/
def Definition.sample (s : Sources) : Definition × Sources :=
  ({ schemaVersion := currentSchema
     id := s.nextId "sample-report"
     name := "Employees + Orgs + Reviews (Master)"
     description := "Main employee export with organization info (concat + child sheet) " ++
       "and review summary."
     owner := ⟨"00000000-0000-0000-0000-000000000001", "Report Admin"⟩
     categoryId := none
     tags := ["hr", "employees", "kpi"]
     primaryEntity := "employee"
     createdAt := s.now
     updatedAt := s.now
     reportVersion := 1
     security := .standard
     parameters := Sample.parameters
     graph := ⟨Sample.nodes, Sample.edges⟩
     layout := ⟨.multiSheet, ["Employees", "OrganizationInfo", "ReviewSummary"], some .standard⟩
     limits := .standard
     hints := Sample.hints
     artifacts := some Sample.artifacts }, s.tick.mint)

end ReportFlow
