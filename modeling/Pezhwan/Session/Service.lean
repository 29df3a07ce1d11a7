import Pezhwan.Runtime
import Pezhwan.Atomic.Collection

namespace Pezhwan.Session
open Atomic

inductive SessionStatus where
  | active | rotating | revoked | replaced | expired
  deriving DecidableEq, Repr

def SessionStatus.isSettled (status : SessionStatus) : Bool :=
  [SessionStatus.replaced,.revoked,.expired].contains status

structure Device where
  ip : String
  userAgent : String
  deviceLabel : String
  deriving DecidableEq, Repr

structure SessionDoc where
  id : String
  userId : String
  tenantId : String
  applicationId : String
  status : SessionStatus
  familyId : String
  currentRefreshTokenHash : String
  replacedBySessionId : Option String
  device : Option Device
  lastActiveAt : Nat
  expiresAt : Nat
  revokedAt : Option Nat
  deriving DecidableEq, Repr

-- History of the collection. No operation reads it.
inductive Entry where
  | created (call : CallId) (doc : SessionDoc)
  | claimed (call : CallId) (doc : SessionDoc)
  | inserted (call : CallId) (child parent : SessionDoc)
  | presented (call : CallId) (doc : SessionDoc)
  | familyRevoked (call : CallId) (familyId : String)
  | allRevoked (call : CallId) (userId : String) (applicationId tenantId : Option String)
  deriving DecidableEq, Repr

def Entry.call : Entry → CallId
  | .created call _ | .claimed call _ | .inserted call _ _ | .presented call _
  | .familyRevoked call _ | .allRevoked call _ _ _ => call

structure Store where
  docs : List SessionDoc
  log : List Entry

structure World where
  base : Base
  store : Store

def baseLens : Lens World Base := ⟨World.base,fun b w => {w with base := b},fun _ _ => rfl,fun _ => rfl,fun _ _ _ => rfl⟩
def storeLens : Lens World Store := ⟨World.store,fun s w => {w with store := s},fun _ _ => rfl,fun _ => rfl,fun _ _ _ => rfl⟩

structure SessionContext where
  userId : String
  tenantId : String
  applicationId : String
  ip : Option String
  userAgent : Option String
  deviceLabel : Option String
  deriving DecidableEq, Repr

structure RefreshContext where
  ip : Option String
  userAgent : Option String
  deviceLabel : Option String
  tenantId : Option String
  applicationId : Option String
  deriving DecidableEq, Repr

structure CreatedSession where
  sessionId : String
  userId : String
  tenantId : String
  applicationId : String
  familyId : String
  refreshToken : String
  refreshTokenHash : String
  expiresAt : Nat
  deriving DecidableEq, Repr

structure SessionService where
  random : Random
  hashRefreshToken : String → String
  hash_injective : Function.Injective hashRefreshToken
  refreshTokenTtlMs : Nat
  maxActiveSessions : Nat
  -- topology answer of the connection, and how often the driver repeats a
  -- transaction by itself before it reports the error
  transactionsSupported : Bool
  driverRetries : Nat

abbrev Program (α : Type) := Prog CallId World Error α

def base (p : Prog CallId Base Error α) : Program α := p.zoom baseLens

def op (f : CallId → World → Except MongoError (α × World)) : Program α := mongo World.base f

def read (f : List SessionDoc → α) : Program α := op fun _ w => .ok (f w.store.docs,w)

def World.withDocs (w : World) (docs : List SessionDoc) (entries : List Entry) : World :=
  {w with store := ⟨docs,w.store.log ++ entries⟩}

-- The unique indexes, on _id and on currentRefreshTokenHash.
def clash (a b : SessionDoc) : Bool := a.id = b.id || a.currentRefreshTokenHash = b.currentRefreshTokenHash

-- Model.create: the driver assigns the _id, a unique index may refuse.
def insertStep (random : Random) (doc : SessionDoc) (entry : CallId → SessionDoc → Entry) (i : CallId) (w : World) :
    Except MongoError (SessionDoc × World) :=
  let doc := {doc with id := random.fresh w.base.draws.length}
  if w.store.docs.any (clash doc) then .error duplicateKey
  else .ok (doc,⟨{w.base with draws := w.base.draws ++ [i]},⟨w.store.docs ++ [doc],w.store.log ++ [entry i doc]⟩⟩)

def insert (random : Random) (doc : SessionDoc) (entry : CallId → SessionDoc → Entry) : Program SessionDoc :=
  op (insertStep random doc entry)

def SessionDoc.revoke (now : Nat) (doc : SessionDoc) : SessionDoc :=
  {doc with status := .revoked,revokedAt := some now}

-- updateOne({ _id }, ...)
def updateById (id : String) (f : Nat → SessionDoc → SessionDoc) : Program Unit :=
  op fun _ w => .ok ((),w.withDocs (Collection.updateOne (fun doc => doc.id = id) (f w.base.now) w.store.docs) [])

def SESSION_CACHE_TTL_SECONDS : Nat := 30

def cacheLiveness (sessionId : String) : Program Unit :=
  base (cacheSet (.session sessionId) (.text "1") SESSION_CACHE_TTL_SECONDS)

def revoke (sessionId : String) : Program Unit := do
  updateById sessionId SessionDoc.revoke
  base (cacheDel (.session sessionId))

-- sort({ lastActiveAt: 1 }) followed by the first row; ties keep scan order.
def oldest (docs : List SessionDoc) : Option SessionDoc :=
  docs.foldl (fun best doc => match best with
    | none => some doc
    | some first => if doc.lastActiveAt < first.lastActiveAt then some doc else some first) none

def activeOf (userId applicationId : String) (doc : SessionDoc) : Bool :=
  doc.userId = userId && doc.applicationId = applicationId && doc.status = .active

def enforceSessionLimit (service : SessionService) (userId applicationId : String) : Program Unit := do
  let count ← read fun docs => (docs.filter (activeOf userId applicationId)).length
  if service.maxActiveSessions ≤ count then
    match ← read fun docs => oldest (docs.filter (activeOf userId applicationId)) with
    | some doc => revoke doc.id
    | none => pure ()

def create (service : SessionService) (ctx : SessionContext) : Program CreatedSession := do
  enforceSessionLimit service ctx.userId ctx.applicationId
  let familyId ← base (draw service.random)
  let refreshToken ← base (draw service.random)
  let now ← base clock
  let refreshTokenHash := service.hashRefreshToken refreshToken
  let expiresAt := now + service.refreshTokenTtlMs
  let doc ← insert service.random
    {id := "",userId := ctx.userId,tenantId := ctx.tenantId,applicationId := ctx.applicationId,
     status := .active,familyId,currentRefreshTokenHash := refreshTokenHash,replacedBySessionId := none,
     device := some ⟨ctx.ip.getD "",ctx.userAgent.getD "",ctx.deviceLabel.getD "Unknown device"⟩,
     lastActiveAt := now,expiresAt,revokedAt := none} .created
  cacheLiveness doc.id
  pure {sessionId := doc.id,userId := doc.userId,tenantId := doc.tenantId,applicationId := doc.applicationId,
        familyId,refreshToken,refreshTokenHash,expiresAt}

def revokeFamily (familyId : String) : Program Unit := do
  let sessions ← read fun docs => docs.filter (fun doc => doc.familyId = familyId)
  op fun i w => .ok ((),w.withDocs (Collection.updateMany (fun doc => doc.familyId = familyId)
    (SessionDoc.revoke w.base.now) w.store.docs) [.familyRevoked i familyId])
  Prog.forEach (fun doc => base (cacheDel (.session doc.id))) sessions

def ownedBy (userId : String) (applicationId tenantId : Option String) (doc : SessionDoc) : Bool :=
  doc.userId = userId && doc.status = .active && (truthy applicationId).all (doc.applicationId = ·) &&
    (truthy tenantId).all (doc.tenantId = ·)

def revokeAll (userId : String) (applicationId tenantId : Option String) : Program Unit := do
  let docs ← read fun docs => docs.filter (ownedBy userId applicationId tenantId)
  op fun i w => .ok ((),w.withDocs (Collection.updateMany (ownedBy userId applicationId tenantId)
    (SessionDoc.revoke w.base.now) w.store.docs) [.allRevoked i userId (truthy applicationId) (truthy tenantId)])
  Prog.forEach (fun doc => base (cacheDel (.session doc.id))) docs

def presents (hash : String) (ctx : RefreshContext) (doc : SessionDoc) : Bool :=
  doc.currentRefreshTokenHash = hash && (truthy ctx.tenantId).all (doc.tenantId = ·) &&
    (truthy ctx.applicationId).all (doc.applicationId = ·)

-- findOneAndUpdate({ ..., status: 'active' }, { status: 'rotating' }, { new: true })
def claim (hash : String) (ctx : RefreshContext) : Program (Option SessionDoc) :=
  op fun i w =>
    let matched := fun doc => presents hash ctx doc && decide (doc.status = .active)
    let rotate := fun doc : SessionDoc => {doc with status := .rotating,revokedAt := some w.base.now}
    match w.store.docs.find? matched with
    | some doc => .ok (some (rotate doc),
        w.withDocs (Collection.updateOne matched rotate w.store.docs) [.claimed i (rotate doc)])
    | none => .ok (none,w)

def findPresented (hash : String) (ctx : RefreshContext) : Program (Option SessionDoc) :=
  op fun i w => match w.store.docs.find? (presents hash ctx) with
    | some doc => .ok (some doc,w.withDocs w.store.docs (if doc.status.isSettled then [.presented i doc] else []))
    | none => .ok (none,w)

def reuseDetected : Error :=
  .pezhwan .session "Refresh token reuse detected — session revoked" "REFRESH_TOKEN_REUSE"
def tokenUnknown : Error := .pezhwan .session "Refresh token is not recognized" "REFRESH_TOKEN_UNKNOWN"

def SessionDoc.replace (childId : String) (now : Nat) (doc : SessionDoc) : SessionDoc :=
  {doc with status := .replaced,replacedBySessionId := some childId,revokedAt := some now}

def txBody (service : SessionService) (parent child : SessionDoc) : Program String := do
  let newSession ← insert service.random child (fun i doc => .inserted i doc parent)
  let parentState ← read fun docs => (Collection.lookup SessionDoc.id parent.id docs).map SessionDoc.status
  if parentState = some .rotating then
    updateById parent.id (SessionDoc.replace newSession.id)
    pure newSession.id
  else Prog.throw reuseDetected

def commit (snapshot copy : Store) : Program Unit :=
  op fun _ w => match Collection.merge SessionDoc.id clash snapshot.docs copy.docs w.store.docs with
    | some docs => .ok ((),w.withDocs docs (copy.log.drop snapshot.log.length))
    | none => .error writeConflict

-- ClientSession.withTransaction of the driver: repeats on the transient label.
def driverTransaction (body : Program α) : Nat → Program α
  | 0 => body.transaction storeLens commit
  | retries+1 => do
    match ← (body.transaction storeLens commit).attempt with
    | .ok out => pure out
    | .error (.mongo e) => if e.transientLabel then driverTransaction body retries else Prog.throw (.mongo e)
    | .error e => Prog.throw e

def MAX_ATTEMPTS : Nat := 3

-- `left` is MAX_ATTEMPTS - attempt.
def attempts (service : SessionService) (work : Program α) : Nat → Program α
  | 0 => do
    match ← (driverTransaction work service.driverRetries).attempt with
    | .ok out => pure out
    | .error err =>
      if err.isSessionError || isTransientTransactionError err then Prog.throw err else work
  | left+1 => do
    match ← (driverTransaction work service.driverRetries).attempt with
    | .ok out => pure out
    | .error err =>
      if !err.isSessionError && isTransientTransactionError err then attempts service work left
      else Prog.throw err

def withTransaction (service : SessionService) (work : Program α) : Program α :=
  if service.transactionsSupported then attempts service work (MAX_ATTEMPTS-1) else work

def childOf (session : SessionDoc) (ctx : RefreshContext) (hash : String) (now expiresAt : Nat) : SessionDoc :=
  {session with
    id := "",status := .active,currentRefreshTokenHash := hash,replacedBySessionId := none,
    device := some ⟨(ctx.ip.or (session.device.map Device.ip)).getD "",
      (ctx.userAgent.or (session.device.map Device.userAgent)).getD "",
      (ctx.deviceLabel.or (session.device.map Device.deviceLabel)).getD "Unknown device"⟩,
    lastActiveAt := now,expiresAt,revokedAt := none}

def rotate (service : SessionService) (session : SessionDoc) (ctx : RefreshContext) : Program CreatedSession := do
  let now ← base clock
  let refreshToken ← base (draw service.random)
  let refreshTokenHash := service.hashRefreshToken refreshToken
  let expiresAt := now + service.refreshTokenTtlMs
  let sessionId ← withTransaction service (txBody service session (childOf session ctx refreshTokenHash now expiresAt))
  cacheLiveness session.id
  cacheLiveness sessionId
  pure {sessionId,userId := session.userId,tenantId := session.tenantId,applicationId := session.applicationId,
        familyId := session.familyId,refreshToken,refreshTokenHash,expiresAt}

def refresh (service : SessionService) (presentedRefreshToken : String) (ctx : RefreshContext) :
    Program CreatedSession := do
  let hash := service.hashRefreshToken presentedRefreshToken
  match ← claim hash ctx with
  | some session => rotate service session ctx
  | none => match ← findPresented hash ctx with
    | none => Prog.throw tokenUnknown
    | some existing =>
      if existing.status.isSettled then revokeFamily existing.familyId
      Prog.throw reuseDetected

def listActive (userId : String) (applicationId : Option String) : Program (List SessionDoc) := do
  let docs ← read fun docs => docs.filter (ownedBy userId applicationId none)
  pure (docs.mergeSort fun a b => b.lastActiveAt ≤ a.lastActiveAt)

def isSessionActive (sessionId : String) : Program Bool := do
  if (← base (cacheGet (.session sessionId))) = some (.text "1") then pure true
  else
    let now ← base clock
    match ← read (Collection.lookup SessionDoc.id sessionId) with
    | none => pure false
    | some doc =>
      if doc.status = .active ∧ now < doc.expiresAt then
        cacheLiveness sessionId
        pure true
      else pure false

def touch (sessionId : String) : Program Unit := do
  updateById sessionId fun now doc => {doc with lastActiveAt := now}
  cacheLiveness sessionId

inductive Call where
  | create (ctx : SessionContext)
  | refresh (presentedRefreshToken : String) (ctx : RefreshContext)
  | revoke (sessionId : String)
  | revokeFamily (familyId : String)
  | revokeAll (userId : String) (applicationId tenantId : Option String)
  | listActive (userId : String) (applicationId : Option String)
  | isSessionActive (sessionId : String)
  | touch (sessionId : String)
  deriving DecidableEq

inductive Reply where
  | session (created : CreatedSession)
  | done
  | listing (docs : List SessionDoc)
  | live (answer : Bool)
  deriving DecidableEq

def program (service : SessionService) : Call → Program Reply
  | .create ctx => Reply.session <$> create service ctx
  | .refresh token ctx => Reply.session <$> refresh service token ctx
  | .revoke id => (fun _ => Reply.done) <$> revoke id
  | .revokeFamily family => (fun _ => Reply.done) <$> revokeFamily family
  | .revokeAll user application tenant => (fun _ => Reply.done) <$> revokeAll user application tenant
  | .listActive user application => Reply.listing <$> listActive user application
  | .isSessionActive id => Reply.live <$> isSessionActive id
  | .touch id => (fun _ => Reply.done) <$> touch id

-- Time passes, the store fails and recovers, the cache loses or gains entries,
-- and the TTL index removes sessions whose expiry has passed.
inductive Surroundings : World → World → Prop where
  | tick (later : w.base.now ≤ now) : Surroundings w {w with base := {w.base with now}}
  | fault (error : Option MongoError) : Surroundings w {w with base := {w.base with fault := error}}
  | cache (content : Cache) : Surroundings w {w with base := {w.base with cache := content}}
  | expire (kept : List SessionDoc) (fewer : kept.Sublist w.store.docs)
      (due : ∀ doc ∈ w.store.docs, doc ∉ kept → doc.expiresAt ≤ w.base.now) :
      Surroundings w {w with store := {w.store with docs := kept}}

def empty (now : Nat) : World := ⟨⟨now,[],none,[]⟩,⟨[],[]⟩⟩

end Pezhwan.Session
