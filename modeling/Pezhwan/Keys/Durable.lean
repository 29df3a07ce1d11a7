import Pezhwan.Atomic.Collection
import Pezhwan.Keys.Store
import Pezhwan.Atomic.Effect

-- Signing keys in the database.
namespace Pezhwan.Keys.Durable
open Atomic Collection

inductive KeyDocStatus where
  | STAGED
  | ACTIVE
  | VERIFY_ONLY
  | RETIRED
  | REVOKED
  deriving DecidableEq

structure KeyDoc where
  kid : String
  tenantId : String
  algorithm : JwtAlgorithm
  publicKey : String
  privateKey : Option String
  status : KeyDocStatus
  createdAt : Int
  activatedAt : Option Int
  retiredAt : Option Int
  revokedAt : Option Int
  expiresAt : Int
  deriving DecidableEq

-- A query leaves the private key out.
def KeyDoc.selected (doc : KeyDoc) : KeyDoc := {doc with privateKey := none}

-- The key collection, and how many more operations the database serves.
structure World where
  now : Int
  keys : List KeyDoc
  served : Option Nat

abbrev M := Fallible String World

def db (f : Int → List KeyDoc → Except String (α × List KeyDoc)) : M α := fun w =>
  if w.served = some 0 then (.error "connection lost",w)
  else
    let next := {w with served := w.served.map (· - 1)}
    match f w.now w.keys with
    | .ok (value,keys) => (.ok value,{next with keys})
    | .error e => (.error e,next)

def read (f : List KeyDoc → α) : M α := db fun _ keys => .ok (f keys,keys)

def activeOf (tenantId : String) (doc : KeyDoc) : Bool := doc.tenantId = tenantId && doc.status = .ACTIVE

def usable (doc : KeyDoc) : Bool := doc.status = .ACTIVE || doc.status = .VERIFY_ONLY

structure KeyStoreService where
  defaultTtlMs : Int

namespace KeyStoreService
variable (crypto : Crypto) (service : KeyStoreService)

def keyPair (algorithm : JwtAlgorithm) (seed : Nat) : String × String :=
  match algorithm with
  | .ES256 => crypto.generateKeyPair .ES256 seed
  | .EdDSA => crypto.generateKeyPair .EdDSA seed
  | _ => crypto.generateKeyPair .RS256 seed

-- The unique index is on the tenant and the kid.
def generateKey (tenantId : String) (algorithm : JwtAlgorithm) (ttlMs : Option Int) (draw : Draw) : M KeyDoc := db fun now keys =>
  let pair := keyPair crypto algorithm draw.seed
  let doc : KeyDoc := ⟨draw.uuid,tenantId,algorithm,pair.1,some pair.2,.STAGED,now,none,none,none,
    now + ttlMs.getD service.defaultTtlMs⟩
  if tenantId = "" then .error "Key validation failed: tenantId: Path `tenantId` is required."
  else if keys.any fun other => other.tenantId = tenantId && other.kid = draw.uuid then .error "E11000 duplicate key error"
  else .ok (doc,keys ++ [doc])

def demote (doc : KeyDoc) : KeyDoc := {doc with status := .VERIFY_ONLY}

def staged (kid tenantId : String) (doc : KeyDoc) : Bool := doc.kid = kid && doc.tenantId = tenantId && doc.status = .STAGED

def promote (now : Int) (doc : KeyDoc) : KeyDoc := {doc with status := .ACTIVE,activatedAt := some now}

def activateKey (kid tenantId : String) : M (Option KeyDoc) := db fun now keys =>
  let demoted := updateMany (activeOf tenantId) demote keys
  .ok ((demoted.find? (staged kid tenantId)).map fun doc => (promote now doc).selected,
    updateOne (staged kid tenantId) (promote now) demoted)

def named (kid tenantId : String) (doc : KeyDoc) : Bool := doc.kid = kid && doc.tenantId = tenantId

def retire (now : Int) (doc : KeyDoc) : KeyDoc := {doc with status := .RETIRED,retiredAt := some now}

def retireKey (kid tenantId : String) : M Bool := db fun now keys =>
  let found := fun doc => named kid tenantId doc && usable doc
  .ok ((keys.find? found).isSome,updateOne found (retire now) keys)

def revoke (now : Int) (doc : KeyDoc) : KeyDoc := {doc with status := .REVOKED,revokedAt := some now}

def revokeKey (kid tenantId : String) : M Bool := db fun now keys =>
  let found := fun doc => named kid tenantId doc && doc.status ≠ .REVOKED
  .ok ((keys.find? found).isSome,updateOne found (revoke now) keys)

def getActiveKey (tenantId : String) : M (Option KeyDoc) := read fun keys =>
  (keys.find? (activeOf tenantId)).map KeyDoc.selected

def verificationKeys (tenantId : String) (keys : List KeyDoc) : List KeyDoc :=
  (keys.filter fun doc => doc.tenantId = tenantId && usable doc).map KeyDoc.selected

def getVerificationKeys (tenantId : String) : M (List KeyDoc) := read (verificationKeys tenantId)

def cleanupExpired : M Nat := db fun now keys =>
  let gone := fun doc : KeyDoc => decide (doc.expiresAt ≤ now) && !usable doc
  .ok ((keys.filter gone).length,keys.filter fun doc => !gone doc)

-- The ACTIVE key that was activated first; a missing date comes first.
def oldestActive (tenantId : String) (keys : List KeyDoc) : Option KeyDoc :=
  ((keys.filter (activeOf tenantId)).mergeSort fun a b => match a.activatedAt,b.activatedAt with
    | none,_ => true
    | some _,none => false
    | some x,some y => x ≤ y).head?

def rotateKey (tenantId : String) (algorithm : JwtAlgorithm) (draw : Draw) : M (Option KeyDoc) := do
  let active ← read (oldestActive tenantId)
  match active with
  | some active => let _ ← retireKey active.kid tenantId
  | none => pure ()
  let newKey ← generateKey crypto service tenantId algorithm none draw
  activateKey newKey.kid tenantId

end KeyStoreService

inductive Call where
  | generateKey (tenantId : String) (algorithm : JwtAlgorithm) (ttlMs : Option Int) (draw : Draw)
  | activateKey (kid tenantId : String)
  | retireKey (kid tenantId : String)
  | revokeKey (kid tenantId : String)
  | rotateKey (tenantId : String) (algorithm : JwtAlgorithm) (draw : Draw)
  | cleanupExpired

inductive Answer where
  | key (doc : Option KeyDoc)
  | changed (found : Bool)
  | deleted (count : Nat)
  deriving DecidableEq

-- A call, and how many of its operations the database serves.
structure Request where
  call : Call
  served : Option Nat

variable (crypto : Crypto) (service : KeyStoreService)

def run : Call → M Answer
  | .generateKey tenantId algorithm ttlMs draw =>
    (fun doc => .key (some doc)) <$> KeyStoreService.generateKey crypto service tenantId algorithm ttlMs draw
  | .activateKey kid tenantId => .key <$> KeyStoreService.activateKey kid tenantId
  | .retireKey kid tenantId => .changed <$> KeyStoreService.retireKey kid tenantId
  | .revokeKey kid tenantId => .changed <$> KeyStoreService.revokeKey kid tenantId
  | .rotateKey tenantId algorithm draw => .key <$> KeyStoreService.rotateKey crypto service tenantId algorithm draw
  | .cleanupExpired => .deleted <$> KeyStoreService.cleanupExpired

def perform (request : Request) (w : World) : Except String Answer × World :=
  run crypto service request.call {w with served := request.served}

-- Time passes, and the TTL index removes keys that have expired.
def Passes (s t : World) : Prop :=
  s.now ≤ t.now ∧ ∃ keep, t.keys = s.keys.filter keep ∧ ∀ doc ∈ s.keys, t.now < doc.expiresAt → keep doc = true

abbrev Lived (initial : World → Prop) (log : List (Entry Request World (Except String Answer))) (w : World) : Prop :=
  History (perform crypto service) Passes initial log w

end Pezhwan.Keys.Durable
