import Pezhwan.Runtime
import Pezhwan.Json

namespace Pezhwan.Audit
open Atomic

inductive AuditHashAlgorithm where
  | sha256 | sha3_256
  deriving DecidableEq, Repr

inductive Severity where
  | info | warning | critical
  deriving DecidableEq, Repr

structure AuditEntryInput where
  eventType : String
  severity : Option Severity
  tenantId : Option String
  applicationId : Option String
  userId : Option String
  sessionId : Option String
  ip : Option String
  userAgent : Option String
  metadata : Option Json

structure AuditLogDoc where
  timestamp : Nat
  eventType : String
  severity : Severity
  tenantId : Option String
  applicationId : Option String
  userId : Option String
  sessionId : Option String
  ip : Option String
  userAgent : Option String
  metadata : Json
  sequence : Nat
  hash : String
  prevHash : String
  expireAt : Option Nat

structure AuditSequenceDoc where
  seq : Nat
  lastHash : Option String
  deriving DecidableEq, Repr

structure AuditEntry where
  sequence : Nat
  prevHash : String
  hash : String
  data : AuditEntryInput

structure SinkRecord where
  id : String
  timestamp : Nat
  eventType : String
  severity : Severity
  tenantId : Option String
  applicationId : Option String
  userId : Option String
  sessionId : Option String
  ip : Option String
  channelHash : Option String
  sequence : Option Nat

structure Store where
  counter : Option AuditSequenceDoc
  entries : List AuditLogDoc

-- `replicaSet` is what the topology of the connection says at the moment.
-- `direct` lists the calls that took a sequence number outside a transaction;
-- no operation reads it.
structure World where
  base : Base
  store : Store
  replicaSet : Bool
  retentionMs : Option Rat
  sent : List SinkRecord
  direct : List CallId

def baseLens : Lens World Base :=
  ⟨World.base,fun b w => {w with base := b},fun _ _ => rfl,fun _ => rfl,fun _ _ _ => rfl⟩
def storeLens : Lens World Store :=
  ⟨World.store,fun s w => {w with store := s},fun _ _ => rfl,fun _ => rfl,fun _ _ _ => rfl⟩

-- createHash(algorithm).update(...).digest('hex'): hexadecimal, never empty.
structure AuditService where
  random : Random
  digest : AuditHashAlgorithm → String → String
  digest_nonempty : ∀ algorithm text, digest algorithm text ≠ ""
  hashAlgorithm : AuditHashAlgorithm
  sink : Bool
  driverRetries : Nat

abbrev Program (α : Type) := Prog CallId World Error α

def base (p : Prog CallId Base Error α) : Program α := p.zoom baseLens

def op (f : CallId → World → Except MongoError (α × World)) : Program α := mongo World.base f

def AUDIT_CHAIN_ROOT : String := String.ofList (List.replicate 64 '0')

def orEmpty : Option Json → Json
  | none | some .null => .object []
  | some json => json

def canonicalData (input : AuditEntryInput) : String :=
  (Json.object [("t",.string input.eventType),("i",.string (input.ip.getD "")),("u",.string (input.userId.getD "")),
    ("m",orEmpty input.metadata)]).stringify

def chainHash (service : AuditService) (prevHash : String) (data : AuditEntryInput) : String :=
  service.digest service.hashAlgorithm (prevHash ++ canonicalData data)

-- expireAt under the retention in force: the date drops a fraction of a
-- millisecond.
def expiry (now : Nat) (retentionMs : Option Rat) : Option Nat :=
  (retentionMs.filter (· ≠ 0)).map fun ms => now + ms.floor.toNat

def buildDoc (now : Nat) (retentionMs : Option Rat) (input : AuditEntryInput) (sequence : Nat)
    (prevHash hash : String) : AuditLogDoc where
  timestamp := now
  eventType := input.eventType
  severity := input.severity.getD .info
  tenantId := input.tenantId
  applicationId := input.applicationId
  userId := input.userId
  sessionId := input.sessionId
  ip := input.ip
  userAgent := input.userAgent
  metadata := orEmpty input.metadata
  sequence
  hash
  prevHash
  expireAt := expiry now retentionMs

def incremented (counter : Option AuditSequenceDoc) : AuditSequenceDoc :=
  match counter with
  | some doc => {doc with seq := doc.seq + 1}
  | none => ⟨1,none⟩

def tail (entries : List AuditLogDoc) : Option AuditLogDoc :=
  entries.foldl (fun best doc => match best with
    | none => some doc
    | some last => if last.sequence < doc.sequence then some doc else some last) none

def create (doc : World → AuditLogDoc) : Program Unit :=
  op fun _ w =>
    if w.store.entries.any (fun old => old.sequence = (doc w).sequence) then .error duplicateKey
    else .ok ((),{w with store := {w.store with entries := w.store.entries ++ [doc w]}})

def getNextSequence : Program Nat :=
  op fun i w =>
    let counter := incremented w.store.counter
    .ok (counter.seq,{w with store := {w.store with counter := some counter},direct := w.direct ++ [i]})

def readTail : Program (Option AuditLogDoc) := op fun _ w => .ok (tail w.store.entries,w)

def tailHash (last : Option AuditLogDoc) (otherwise : String) : String :=
  (truthy (last.map AuditLogDoc.hash)).getD otherwise

def writeEntryBestEffort (service : AuditService) (input : AuditEntryInput) : Program AuditEntry := do
  let sequence ← getNextSequence
  let last ← readTail.attempt
  let prevHash := match last with
    | .ok last => tailHash last AUDIT_CHAIN_ROOT
    | .error _ => AUDIT_CHAIN_ROOT
  let hash := chainHash service prevHash input
  create fun w => buildDoc w.base.now w.retentionMs input sequence prevHash hash
  pure ⟨sequence,prevHash,hash,input⟩

def predecessor (counter : AuditSequenceDoc) : Program String :=
  match truthy counter.lastHash with
  | some lastHash => pure lastHash
  | none => do
    let last ← readTail
    pure (tailHash last AUDIT_CHAIN_ROOT)

def writeEntryInSession (service : AuditService) (input : AuditEntryInput) : Program AuditEntry := do
  let counter ← op fun _ w =>
    let counter := incremented w.store.counter
    .ok (counter,{w with store := {w.store with counter := some counter}})
  let prevHash ← predecessor counter
  let hash := chainHash service prevHash input
  create fun w => buildDoc w.base.now w.retentionMs input counter.seq prevHash hash
  op fun _ w => .ok ((),{w with store := {w.store with
    counter := w.store.counter.map fun doc => {doc with lastHash := some hash}}})
  pure ⟨counter.seq,prevHash,hash,input⟩

-- First committer wins on the counter document; an inserted entry must not
-- break the unique index.
def commit (snapshot copy : Store) : Program Unit :=
  op fun _ w =>
    let inserted := copy.entries.drop snapshot.entries.length
    if (copy.counter ≠ snapshot.counter ∧ w.store.counter ≠ snapshot.counter) ∨
        inserted.any (fun doc => w.store.entries.any (fun old => old.sequence = doc.sequence)) = true then
      .error writeConflict
    else .ok ((),{w with store := ⟨if copy.counter ≠ snapshot.counter then copy.counter else w.store.counter,
      w.store.entries ++ inserted⟩})

def writeEntry (service : AuditService) (input : AuditEntryInput) : Program AuditEntry :=
  withTransaction storeLens commit World.replicaSet service.driverRetries ⟨3,fun _ => false⟩ fun session =>
    if session then writeEntryInSession service input else writeEntryBestEffort service input

def forward (service : AuditService) (input : AuditEntryInput) (entry : Option AuditEntry) : Program Unit :=
  if service.sink then do
    let id ← base (draw service.random)
    let now ← base clock
    Prog.atomic fun _ w => ((),{w with sent := w.sent ++ [{
      id,timestamp := now,eventType := input.eventType,severity := input.severity.getD .info,
      tenantId := input.tenantId,applicationId := input.applicationId,userId := input.userId,
      sessionId := input.sessionId,ip := input.ip,channelHash := entry.map AuditEntry.hash,
      sequence := entry.map AuditEntry.sequence}]})
  else pure ()

def log (service : AuditService) (input : AuditEntryInput) : Program Unit := do
  let written ← (writeEntry service input).attempt
  forward service input written.toOption

-- Time passes, the store fails and recovers, the topology is rediscovered and
-- the retention window is set.
inductive Surroundings : World → World → Prop where
  | tick (later : w.base.now ≤ now) : Surroundings w {w with base := {w.base with now}}
  | fault (error : Option MongoError) : Surroundings w {w with base := {w.base with fault := error}}
  | topology (replicaSet : Bool) : Surroundings w {w with replicaSet}
  | retain (retentionMs : Option Rat) : Surroundings w {w with retentionMs}

def empty (now : Nat) : World := ⟨⟨now,[],none,[]⟩,⟨none,[]⟩,true,none,[],[]⟩

end Pezhwan.Audit
