import Aeterna.Core.Types
import Aeterna.Lib.JsonText

/-!
Promotion requests, relations and the callers of the promotion lifecycle (`mk_core::types`), with the
JSON texts in which requests and relations are stored.
-/

namespace Aeterna
open Lib

inductive Role where
  | viewer | developer | techLead | architect | admin | tenantAdmin | agent | platformAdmin
  deriving DecidableEq, Repr

def Role.precedence : Role → Nat
  | .viewer => 0
  | .agent => 0
  | .developer => 1
  | .techLead => 2
  | .architect => 3
  | .admin => 4
  | .platformAdmin => 5
  | .tenantAdmin => 6

def Role.debug : Role → String
  | .viewer => "Viewer"
  | .developer => "Developer"
  | .techLead => "TechLead"
  | .architect => "Architect"
  | .admin => "Admin"
  | .tenantAdmin => "TenantAdmin"
  | .agent => "Agent"
  | .platformAdmin => "PlatformAdmin"

inductive RoleIdentifier where
  | known (role : Role)
  | custom (name : String)
  deriving DecidableEq, Repr

def RoleIdentifier.rank : RoleIdentifier → Nat
  | .known role => role.precedence
  | .custom _ => 0

structure TenantContext where
  tenantId : String
  userId : String := "default"
  agentId : Option String := none
  roles : List RoleIdentifier := []
  targetTenantId : Option String := none
  deriving DecidableEq, Repr

/-- `highest_precedence_role`: the last of the highest, as `max_by_key` picks it. -/
def TenantContext.highestPrecedenceRole (ctx : TenantContext) : Option RoleIdentifier :=
  ctx.roles.foldl (fun best role =>
    match best with
    | none => some role
    | some other => if other.rank ≤ role.rank then some role else some other) none

inductive KnowledgeVariantRole where
  | canonical | specialization | applicability | exception | clarification | superseded
  deriving DecidableEq, Repr

def KnowledgeVariantRole.debug : KnowledgeVariantRole → String
  | .canonical => "Canonical"
  | .specialization => "Specialization"
  | .applicability => "Applicability"
  | .exception => "Exception"
  | .clarification => "Clarification"
  | .superseded => "Superseded"

inductive KnowledgeRelationType where
  | promotedFrom | promotedTo | specializes | applicableFrom | exceptionTo | clarifies | supersedes | supersededBy
  | derivedFrom
  deriving DecidableEq, Repr

def KnowledgeRelationType.debug : KnowledgeRelationType → String
  | .promotedFrom => "PromotedFrom"
  | .promotedTo => "PromotedTo"
  | .specializes => "Specializes"
  | .applicableFrom => "ApplicableFrom"
  | .exceptionTo => "ExceptionTo"
  | .clarifies => "Clarifies"
  | .supersedes => "Supersedes"
  | .supersededBy => "SupersededBy"
  | .derivedFrom => "DerivedFrom"

/-- A relation; the promotion lifecycle always leaves its `metadata` empty. -/
structure KnowledgeRelation where
  (id sourceId targetId : String)
  relationType : KnowledgeRelationType
  (tenantId createdBy : String)
  createdAt : Int
  deriving DecidableEq, Repr

inductive PromotionMode where
  | full | partial_
  deriving DecidableEq, Repr

def PromotionMode.debug : PromotionMode → String
  | .full => "Full"
  | .partial_ => "Partial"

inductive PromotionRequestStatus where
  | draft | pendingReview | approved | rejected | applied | cancelled
  deriving DecidableEq, Repr

def PromotionRequestStatus.debug : PromotionRequestStatus → String
  | .draft => "Draft"
  | .pendingReview => "PendingReview"
  | .approved => "Approved"
  | .rejected => "Rejected"
  | .applied => "Applied"
  | .cancelled => "Cancelled"

inductive PromotionDecision where
  | approveAsReplacement | approveAsSpecialization | approveAsApplicability | approveAsException
  | approveAsClarification | reject | needsRefinement | retargetLayer
  deriving DecidableEq, Repr

def PromotionDecision.debug : PromotionDecision → String
  | .approveAsReplacement => "ApproveAsReplacement"
  | .approveAsSpecialization => "ApproveAsSpecialization"
  | .approveAsApplicability => "ApproveAsApplicability"
  | .approveAsException => "ApproveAsException"
  | .approveAsClarification => "ApproveAsClarification"
  | .reject => "Reject"
  | .needsRefinement => "NeedsRefinement"
  | .retargetLayer => "RetargetLayer"

structure PromotionRequest where
  (id sourceItemId : String)
  sourceLayer : KnowledgeLayer
  sourceStatus : KnowledgeStatus
  targetLayer : KnowledgeLayer
  promotionMode : PromotionMode
  sharedContent : String
  residualContent : Option String
  residualRole : Option KnowledgeVariantRole
  justification : Option String
  status : PromotionRequestStatus
  (requestedBy tenantId sourceVersion : String)
  latestDecision : Option PromotionDecision
  (promotedItemId residualItemId : Option String)
  (createdAt updatedAt : Int)
  deriving DecidableEq, Repr

def PromotionRequest.validateLayerDirection (request : PromotionRequest) : Except String Unit :=
  if request.sourceLayer = .tenant then .error "tenant-layer knowledge cannot be promoted higher"
  else if request.targetLayer.precedence ≤ request.sourceLayer.precedence then
    .error "target_layer must be strictly higher than source_layer"
  else if request.sourceStatus ≠ .accepted then .error "only accepted knowledge can be promoted"
  else .ok ()

def KnowledgeLayer.json : Wire KnowledgeLayer :=
  .name [.tenant, .org, .team, .project] (by intro a; cases a <;> decide) KnowledgeLayer.debug
    (by intro a b same; cases a <;> cases b <;> first | rfl | exact absurd same (by decide))

def KnowledgeStatus.json : Wire KnowledgeStatus :=
  .name [.draft, .proposed, .accepted, .deprecated, .superseded, .rejected] (by intro a; cases a <;> decide)
    KnowledgeStatus.debug (by intro a b same; cases a <;> cases b <;> first | rfl | exact absurd same (by decide))

def KnowledgeVariantRole.json : Wire KnowledgeVariantRole :=
  .name [.canonical, .specialization, .applicability, .exception, .clarification, .superseded]
    (by intro a; cases a <;> decide) KnowledgeVariantRole.debug
    (by intro a b same; cases a <;> cases b <;> first | rfl | exact absurd same (by decide))

def KnowledgeRelationType.json : Wire KnowledgeRelationType :=
  .name [.promotedFrom, .promotedTo, .specializes, .applicableFrom, .exceptionTo, .clarifies, .supersedes,
      .supersededBy, .derivedFrom] (by intro a; cases a <;> decide) KnowledgeRelationType.debug
    (by intro a b same; cases a <;> cases b <;> first | rfl | exact absurd same (by decide))

def PromotionMode.json : Wire PromotionMode :=
  .name [.full, .partial_] (by intro a; cases a <;> decide) PromotionMode.debug
    (by intro a b same; cases a <;> cases b <;> first | rfl | exact absurd same (by decide))

def PromotionRequestStatus.json : Wire PromotionRequestStatus :=
  .name [.draft, .pendingReview, .approved, .rejected, .applied, .cancelled] (by intro a; cases a <;> decide)
    PromotionRequestStatus.debug
    (by intro a b same; cases a <;> cases b <;> first | rfl | exact absurd same (by decide))

def PromotionDecision.json : Wire PromotionDecision :=
  .name [.approveAsReplacement, .approveAsSpecialization, .approveAsApplicability, .approveAsException,
      .approveAsClarification, .reject, .needsRefinement, .retargetLayer] (by intro a; cases a <;> decide)
    PromotionDecision.debug
    (by intro a b same; cases a <;> cases b <;> first | rfl | exact absurd same (by decide))

def KnowledgeRelation.json : Wire KnowledgeRelation :=
  ((Wire.string.after "\x7b\"id\":").both
    ((Wire.string.after ",\"sourceId\":").both
    ((Wire.string.after ",\"targetId\":").both
    ((KnowledgeRelationType.json.after ",\"relationType\":").both
    ((Wire.string.after ",\"tenantId\":").both
    ((Wire.string.after ",\"createdBy\":").both
    (((Wire.intThen ',' rfl).after ",\"createdAt\":").before "\"metadata\":\x7b\x7d\x7d"))))))).via
    (fun (id, sourceId, targetId, relationType, tenantId, createdBy, createdAt) =>
      { id, sourceId, targetId, relationType, tenantId, createdBy, createdAt })
    (fun r => (r.id, r.sourceId, r.targetId, r.relationType, r.tenantId, r.createdBy, r.createdAt))
    (fun _ => rfl)

def PromotionRequest.json : Wire PromotionRequest :=
  ((Wire.string.after "\x7b\"id\":").both
    ((Wire.string.after ",\"sourceItemId\":").both
    ((KnowledgeLayer.json.after ",\"sourceLayer\":").both
    ((KnowledgeStatus.json.after ",\"sourceStatus\":").both
    ((KnowledgeLayer.json.after ",\"targetLayer\":").both
    ((PromotionMode.json.after ",\"promotionMode\":").both
    ((Wire.string.after ",\"sharedContent\":").both
    (((Wire.string.orNull (fun _ => rfl)).after ",\"residualContent\":").both
    (((KnowledgeVariantRole.json.orNull (fun _ => rfl)).after ",\"residualRole\":").both
    (((Wire.string.orNull (fun _ => rfl)).after ",\"justification\":").both
    ((PromotionRequestStatus.json.after ",\"status\":").both
    ((Wire.string.after ",\"requestedBy\":").both
    ((Wire.string.after ",\"tenantId\":").both
    ((Wire.string.after ",\"sourceVersion\":").both
    (((PromotionDecision.json.orNull (fun _ => rfl)).after ",\"latestDecision\":").both
    (((Wire.string.orNull (fun _ => rfl)).after ",\"promotedItemId\":").both
    (((Wire.string.orNull (fun _ => rfl)).after ",\"residualItemId\":").both
    (((Wire.intThen ',' rfl).after ",\"createdAt\":").both
    ((Wire.intThen '}' rfl).after "\"updatedAt\":"))))))))))))))))))).via
    (fun (id, sourceItemId, sourceLayer, sourceStatus, targetLayer, promotionMode, sharedContent, residualContent,
        residualRole, justification, status, requestedBy, tenantId, sourceVersion, latestDecision, promotedItemId,
        residualItemId, createdAt, updatedAt) =>
      { id, sourceItemId, sourceLayer, sourceStatus, targetLayer, promotionMode, sharedContent, residualContent,
        residualRole, justification, status, requestedBy, tenantId, sourceVersion, latestDecision, promotedItemId,
        residualItemId, createdAt, updatedAt })
    (fun r => (r.id, r.sourceItemId, r.sourceLayer, r.sourceStatus, r.targetLayer, r.promotionMode, r.sharedContent,
      r.residualContent, r.residualRole, r.justification, r.status, r.requestedBy, r.tenantId, r.sourceVersion,
      r.latestDecision, r.promotedItemId, r.residualItemId, r.createdAt, r.updatedAt))
    (fun _ => rfl)

end Aeterna
