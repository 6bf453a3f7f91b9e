import Aeterna.Knowledge.Repository
import Aeterna.Knowledge.Requests
import Aeterna.Lib.Programs

/-!
The promotion lifecycle of `KnowledgeManager` (`knowledge/src/manager.rs`): requests, their review and their
application, as programs over the calls to the repository, the governance engine, the clock and the id generator.
-/

namespace Aeterna
open Lib

inductive KnowledgeManagerError where
  | repository (message : String)
  | governance (message : String)
  | governanceInternal (message : String)
  | promotionNotFound (id : String)
  | invalidPromotionTransition (message : String)
  | stalePromotion (version : String)
  | duplicateRelation (sourceId targetId : String)
  | sourceNotFound (id : String)
  | validation (message : String)
  | tenantMismatch (tenantId : String)
  | forbiddenCrossTenant
  | authorization (message : String)
  | confidentialContent
  | optimisticConflict (version : Int)
  | conflictingPromotion (sourceId status : String)
  deriving DecidableEq, Repr

/-- What `enforce_promotion_policy` hands to the governance engine. -/
structure PolicyContext where
  (action content : String)
  layer : KnowledgeLayer
  residualContent : Option String
  deriving DecidableEq, Repr

inductive ManagerCall where
  | getPromotionRequest (tenantId id : String)
  | listPromotionRequests (tenantId : String)
  | storePromotionRequest (tenantId : String) (request : PromotionRequest)
  | get (tenantId : String) (layer : KnowledgeLayer) (path : String)
  | store (tenantId : String) (entry : KnowledgeEntry) (message : String)
  | getRelationsForItem (tenantId itemId : String)
  | storeRelation (tenantId : String) (relation : KnowledgeRelation)
  | validateWithContext (ctx : TenantContext) (layer : KnowledgeLayer) (context : PolicyContext)
  | timestamp
  | newId

abbrev ManagerCall.Answer : ManagerCall → Type
  | getPromotionRequest _ _ => Except String (Option PromotionRequest)
  | listPromotionRequests _ => Except String (List PromotionRequest)
  | storePromotionRequest _ _ => Except String PromotionRequest
  | get _ _ _ => Except String (Option KnowledgeEntry)
  | store _ _ _ => Except String String
  | getRelationsForItem _ _ => Except String (List KnowledgeRelation)
  | storeRelation _ _ => Except String KnowledgeRelation
  | validateWithContext _ _ _ => Except String ValidationResult
  | timestamp => Int
  | newId => String

abbrev ManagerM : Type → Type := Program ManagerCall ManagerCall.Answer KnowledgeManagerError

namespace KnowledgeManager
open Program (ask orFail failIf forSome)

section
variable (ctx : TenantContext)

/-- `enforce_cross_tenant_context` and then the tenant check of `enforce_tenant_match`. -/
def enforceTenantMatch (tenantId : String) : ManagerM Unit := do
  failIf (ctx.targetTenantId.any (· ≠ ctx.tenantId)) .forbiddenCrossTenant
  failIf (ctx.tenantId ≠ tenantId) (.tenantMismatch tenantId)

def enforceReviewerLayerAuthority (targetLayer : KnowledgeLayer) : ManagerM Unit :=
  match ctx.highestPrecedenceRole with
  | some (.known role) =>
    let allowed := match role with
      | .platformAdmin | .tenantAdmin | .admin => true
      | .architect => targetLayer = .team || targetLayer = .org
      | .techLead => targetLayer = .team
      | _ => false
    failIf (allowed = false) (.authorization
      ("Role " ++ role.debug ++ " is not authorized to review promotions targeting " ++ targetLayer.debug))
  | _ => Program.fail (.authorization "No reviewer role available for promotion lifecycle action")

def sensitivePatterns : List String :=
  ["password", "secret", "api_key", "apikey", "private_key", "privatekey", "token", "credential", "access_key",
    "auth_key"]

section
variable (toLowercase : String → String)

def containsSensitiveContent (content : String) : Bool :=
  sensitivePatterns.any (fun pattern => containsText (toLowercase content) pattern)

def enforcePromotionPolicy (targetLayer : KnowledgeLayer) (sharedContent : String) (residualContent : Option String)
    (action : String) : ManagerM Unit := do
  failIf (containsSensitiveContent toLowercase sharedContent ∨
    residualContent.any (containsSensitiveContent toLowercase)) .confidentialContent
  let answer ← ask (.validateWithContext ctx targetLayer ⟨action, sharedContent, targetLayer, residualContent⟩)
  let validation ← orFail .governanceInternal answer
  let blocking := (validation.violations.filter (fun violation => violation.severity = .block)).map (·.message)
  failIf (blocking ≠ []) (.governance ("; ".intercalate blocking))

end

variable (promotionId : String) (request : PromotionRequest)

def loadPromotion : ManagerM PromotionRequest := do
  let answer ← ask (.getPromotionRequest ctx.tenantId promotionId)
  match ← orFail .repository answer with
  | some request => pure request
  | none => Program.fail (.promotionNotFound promotionId)

def findInLayers (id : String) : List KnowledgeLayer → ManagerM (Option KnowledgeEntry)
  | [] => pure none
  | layer :: rest => do
    let answer ← ask (.get ctx.tenantId layer id)
    match ← orFail .repository answer with
    | some entry => pure (some entry)
    | none => findInLayers id rest

def findSource (id : String) : ManagerM KnowledgeEntry := do
  match ← findInLayers ctx id [.project, .team, .org, .tenant] with
  | some entry => pure entry
  | none => Program.fail (.sourceNotFound id)

def assignId : ManagerM String :=
  if request.id = "" then ask ManagerCall.newId else pure request.id

section
variable (toLowercase : String → String)

def createPromotionRequest (request : PromotionRequest) : ManagerM PromotionRequest := do
  enforceTenantMatch ctx request.tenantId
  orFail .validation request.validateLayerDirection
  let entry ← findSource ctx request.sourceItemId
  let currentVersion := entry.commitHash.getD ""
  failIf (request.sourceVersion ≠ "" ∧ currentVersion ≠ request.sourceVersion) (.stalePromotion request.sourceVersion)
  enforcePromotionPolicy ctx toLowercase request.targetLayer request.sharedContent request.residualContent
    "promotion_submit"
  let id ← assignId request
  let now ← ask .timestamp
  let answer ← ask (.storePromotionRequest ctx.tenantId { request with
    id := id
    sourceVersion := currentVersion
    createdAt := now
    updatedAt := now
    status := .pendingReview })
  orFail .repository answer

def checkVersion (clientVersion : Option Int) (request : PromotionRequest) : ManagerM Unit :=
  failIf (clientVersion.any (· ≠ request.updatedAt)) (.optimisticConflict request.updatedAt)

def checkSourceVersion (request : PromotionRequest) : ManagerM Unit :=
  if request.sourceVersion = "" then pure ()
  else do
    let source ← findSource ctx request.sourceItemId
    failIf (source.commitHash.getD "" ≠ request.sourceVersion) (.stalePromotion request.sourceVersion)

def conflicts (request other : PromotionRequest) : Bool :=
  other.id ≠ request.id && other.sourceItemId = request.sourceItemId &&
    (other.status = .approved || other.status = .applied)

def approvePromotion (promotionId : String) (decision : PromotionDecision) (clientVersion : Option Int) :
    ManagerM PromotionRequest := do
  let request ← loadPromotion ctx promotionId
  enforceTenantMatch ctx request.tenantId
  enforceReviewerLayerAuthority ctx request.targetLayer
  enforcePromotionPolicy ctx toLowercase request.targetLayer request.sharedContent request.residualContent
    "promotion_approve"
  checkVersion clientVersion request
  if request.status = .approved then pure request
  else do
    failIf (request.status ≠ .pendingReview) (.invalidPromotionTransition
      ("cannot approve a request in " ++ request.status.debug ++ " state"))
    failIf (decision = .reject ∨ decision = .needsRefinement)
      (.invalidPromotionTransition "use reject_promotion for Reject/NeedsRefinement decisions")
    checkSourceVersion ctx request
    let listed ← ask (.listPromotionRequests ctx.tenantId)
    let allPromotions ← orFail .repository listed
    match allPromotions.find? (conflicts request) with
    | some other => Program.fail (.conflictingPromotion request.sourceItemId other.status.debug)
    | none => do
      let now ← ask .timestamp
      let answer ← ask (.storePromotionRequest ctx.tenantId
        { request with status := .approved, latestDecision := some decision, updatedAt := now })
      orFail .repository answer

end

/-- `reject_promotion`; its `reason` goes to an event only. -/
def rejectPromotion (clientVersion : Option Int) : ManagerM PromotionRequest := do
  let request ← loadPromotion ctx promotionId
  enforceTenantMatch ctx request.tenantId
  enforceReviewerLayerAuthority ctx request.targetLayer
  checkVersion clientVersion request
  if request.status = .rejected then pure request
  else do
    failIf (request.status ≠ .pendingReview) (.invalidPromotionTransition
      ("cannot reject a request in " ++ request.status.debug ++ " state"))
    let now ← ask .timestamp
    let answer ← ask (.storePromotionRequest ctx.tenantId
      { request with status := .rejected, latestDecision := some .reject, updatedAt := now })
    orFail .repository answer

def retargetPromotion (newTargetLayer : KnowledgeLayer) (clientVersion : Option Int) : ManagerM PromotionRequest := do
  let request ← loadPromotion ctx promotionId
  enforceTenantMatch ctx request.tenantId
  enforceReviewerLayerAuthority ctx request.targetLayer
  checkVersion clientVersion request
  failIf (request.status ≠ .pendingReview) (.invalidPromotionTransition
    ("cannot retarget a request in " ++ request.status.debug ++ " state"))
  orFail .validation { request with targetLayer := newTargetLayer }.validateLayerDirection
  enforceReviewerLayerAuthority ctx newTargetLayer
  let now ← ask .timestamp
  let answer ← ask (.storePromotionRequest ctx.tenantId
    { request with targetLayer := newTargetLayer, latestDecision := some .retargetLayer, updatedAt := now })
  orFail .repository answer

def createRelation (relation : KnowledgeRelation) : ManagerM Unit := do
  enforceTenantMatch ctx relation.tenantId
  let listed ← ask (.getRelationsForItem ctx.tenantId relation.sourceId)
  let existing ← orFail .repository listed
  failIf (existing.any (fun r => r.targetId = relation.targetId && r.relationType = relation.relationType))
    (.duplicateRelation relation.sourceId relation.targetId)
  let answer ← ask (.storeRelation ctx.tenantId relation)
  let _ ← orFail .repository answer
  pure ()

def relate (now : Int) (sourceId targetId : String) (relationType : KnowledgeRelationType) : ManagerM Unit := do
  let id ← ask .newId
  createRelation ctx
    { id, sourceId, targetId, relationType, tenantId := ctx.tenantId, createdBy := ctx.userId, createdAt := now }

def variantRelationType : Option PromotionDecision → Option KnowledgeRelationType
  | some .approveAsSpecialization => some .specializes
  | some .approveAsApplicability => some .applicableFrom
  | some .approveAsException => some .exceptionTo
  | some .approveAsClarification => some .clarifies
  | some .approveAsReplacement => some .supersedes
  | _ => none

def persistPromotionRelations (sourceId promotedId : String) (residualId : Option String)
    (decision : Option PromotionDecision) (now : Int) : ManagerM Unit := do
  relate ctx now sourceId promotedId .promotedTo
  relate ctx now promotedId sourceId .promotedFrom
  forSome (variantRelationType decision) (relate ctx now promotedId sourceId)
  forSome residualId (fun residualId => relate ctx now sourceId residualId .derivedFrom)

def updateStatus (layer : KnowledgeLayer) (path : String) (status : KnowledgeStatus) (message : String) :
    ManagerM Unit := do
  let answer ← ask (.get ctx.tenantId layer path)
  match ← orFail .repository answer with
  | none => Program.fail (.repository ("Invalid path: " ++ path))
  | some entry =>
    let now ← ask .timestamp
    let answer ← ask (.store ctx.tenantId { entry with status := status, updatedAt := now } message)
    let _ ← orFail .repository answer
    pure ()

def promotedEntry (source : KnowledgeEntry) (promotedPath : String) (now : Int) : KnowledgeEntry where
  path := promotedPath
  content := request.sharedContent
  layer := request.targetLayer
  kind := source.kind
  status := .accepted
  summaries := source.summaries
  metadata := (source.metadata.insert "variant_role" (.str KnowledgeVariantRole.canonical.debug)).insert
    "promoted_from_id" (.str request.sourceItemId)
  commitHash := none
  author := some ctx.userId
  updatedAt := now

def residualEntry (source : KnowledgeEntry) (residualPath content : String) (now : Int) : KnowledgeEntry where
  path := residualPath
  content := content
  layer := source.layer
  kind := source.kind
  status := .accepted
  metadata := ((∅ : HashMap String Json).insert "variant_role"
    (.str (request.residualRole.getD .specialization).debug)).insert "residual_from_id" (.str request.sourceItemId)
  commitHash := none
  author := some ctx.userId
  updatedAt := now

/-- What `apply_promotion` does to the source: the path of the residual entry, if it stores one. -/
def settleSource (request : PromotionRequest) (source : KnowledgeEntry) (now : Int) : ManagerM (Option String) :=
  match request.promotionMode with
  | .full => do
    updateStatus ctx source.layer source.path .superseded
      ("[supersede] promoted to " ++ request.targetLayer.debug)
    pure none
  | .partial_ =>
    match request.residualContent with
    | none => pure none
    | some content =>
      if content = "" then pure none
      else do
        let residualId ← ask .newId
        let residualPath := "residual/" ++ residualId
        let answer ← ask (.store ctx.tenantId (residualEntry ctx request source residualPath content now)
          ("[residual] " ++ promotionId))
        let _ ← orFail .repository answer
        pure (some residualPath)

def applyPromotion : ManagerM PromotionRequest := do
  let request ← loadPromotion ctx promotionId
  enforceTenantMatch ctx request.tenantId
  if request.status = .applied then pure request
  else do
    failIf (request.status ≠ .approved) (.invalidPromotionTransition
      ("cannot apply a request in " ++ request.status.debug ++ " state; must be Approved first"))
    let source ← findSource ctx request.sourceItemId
    let now ← ask .timestamp
    let promotedId ← ask .newId
    let promotedPath := "promoted/" ++ promotedId
    let answer ← ask (.store ctx.tenantId (promotedEntry ctx request source promotedPath now)
      ("[promote] " ++ promotionId))
    let _ ← orFail .repository answer
    let residual ← settleSource ctx promotionId request source now
    persistPromotionRelations ctx request.sourceItemId promotedPath residual request.latestDecision now
    let answer ← ask (.storePromotionRequest ctx.tenantId { request with
      promotedItemId := some promotedPath
      residualItemId := residual.or request.residualItemId
      status := .applied
      updatedAt := now })
    orFail .repository answer

end

end KnowledgeManager

end Aeterna
