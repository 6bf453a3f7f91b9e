import Mathlib.Data.List.AList
import Mathlib.Data.List.Infix
import Mathlib.Data.String.Basic

/-!
The shared data types of the knowledge and memory systems (`mk_core::types`): layers, knowledge
entries, memory entries, and the results of a governance check.
-/

namespace Aeterna

abbrev HashMap (K V : Type) : Type := AList (fun _ : K => V)

def containsText (text pattern : String) : Bool := decide (pattern.toList <:+: text.toList)

inductive Json where
  | null
  | bool (value : Bool)
  | num (value : Int)
  | str (value : String)
  | arr (items : List Json)
  | obj (fields : List (String × Json))

structure TenantId where
  text : String
  nonempty : text ≠ ""
  short : text.utf8ByteSize ≤ 100

def TenantId.new (id : String) : Option TenantId :=
  if accepted : id ≠ "" ∧ id.utf8ByteSize ≤ 100 then some ⟨id, accepted.1, accepted.2⟩ else none

inductive KnowledgeLayer where
  | tenant | org | team | project
  deriving DecidableEq, Repr

/-- The four layers in the order `sync_all`, `detect_conflicts` and `get_by_path` walk them. -/
def KnowledgeLayer.walk : List KnowledgeLayer := [.tenant, .org, .team, .project]

theorem KnowledgeLayer.mem_walk (layer : KnowledgeLayer) : layer ∈ walk := by
  cases layer <;> decide

def KnowledgeLayer.precedence : KnowledgeLayer → Nat
  | .project => 1
  | .team => 2
  | .org => 3
  | .tenant => 4

def KnowledgeLayer.debug : KnowledgeLayer → String
  | .tenant => "Tenant"
  | .org => "Org"
  | .team => "Team"
  | .project => "Project"

inductive MemoryLayer where
  | agent | user | session | project | team | org | tenant
  deriving DecidableEq, Repr

def mapLayer : KnowledgeLayer → MemoryLayer
  | .tenant => .tenant
  | .org => .org
  | .team => .team
  | .project => .project

inductive KnowledgeType where
  | adr | policy | pattern | spec | hindsight
  deriving DecidableEq, Repr

def KnowledgeType.debug : KnowledgeType → String
  | .adr => "Adr"
  | .policy => "Policy"
  | .pattern => "Pattern"
  | .spec => "Spec"
  | .hindsight => "Hindsight"

inductive KnowledgeStatus where
  | draft | proposed | accepted | deprecated | superseded | rejected
  deriving DecidableEq, Repr

def KnowledgeStatus.debug : KnowledgeStatus → String
  | .draft => "Draft"
  | .proposed => "Proposed"
  | .accepted => "Accepted"
  | .deprecated => "Deprecated"
  | .superseded => "Superseded"
  | .rejected => "Rejected"

inductive SummaryDepth where
  | sentence | paragraph | detailed
  deriving DecidableEq, Repr

structure LayerSummary where
  depth : SummaryDepth
  content : String
  tokenCount : Nat
  generatedAt : Int
  sourceHash : String
  contentHash : Option String
  personalized : Bool
  personalizationContext : Option String

structure KnowledgeEntry where
  (path content : String)
  layer : KnowledgeLayer
  kind : KnowledgeType
  status : KnowledgeStatus
  summaries : HashMap SummaryDepth LayerSummary := ∅
  metadata : HashMap String Json := ∅
  commitHash : Option String := none
  author : Option String := none
  updatedAt : Int := 0

/-- What `sync_entry` stores in the metadata of a pointer memory. -/
structure KnowledgePointer where
  sourceType : KnowledgeType
  (sourceId contentHash : String)
  syncedAt : Int
  sourceLayer : KnowledgeLayer
  isOrphaned : Bool

structure MemoryEntry where
  (id content : String)
  layer : MemoryLayer
  knowledgePointer : Option KnowledgePointer
  (createdAt updatedAt : Int)

abbrev MemoryStore : Type := MemoryLayer × String → Option MemoryEntry

inductive ConstraintSeverity where
  | info | warn | block
  deriving DecidableEq, Repr

structure PolicyViolation where
  severity : ConstraintSeverity
  message : String

structure ValidationResult where
  isValid : Bool
  violations : List PolicyViolation

def ValidationResult.firstBlock (result : ValidationResult) : Option String :=
  (result.violations.find? (fun violation => violation.severity = .block)).map (·.message)

structure Fault where
  message : String
  landed : Bool := false

end Aeterna
