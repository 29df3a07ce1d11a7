import Pezhwan.Audit.Modes
import Pezhwan.Json.Text
import Mathlib.Data.List.Sort

-- The chain verifier, scripts/verify-audit-chain.mjs.
namespace Pezhwan.Audit

def canonicalJson (entry : AuditLogDoc) : Json :=
  .object [("t",.string entry.eventType),("i",.string (entry.ip.getD "")),("u",.string (entry.userId.getD "")),
    ("m",orEmpty (some entry.metadata))]

-- The verifier hashes with SHA-256.
def verifierHash (digest : AuditHashAlgorithm → String → String) (prevHash : String) (entry : AuditLogDoc) : String :=
  digest .sha256 (prevHash ++ (canonicalJson entry).stringify)

structure Verification where
  prev : Option AuditLogDoc
  checked : Nat
  anchored : Nat
  fails : List String

def abbreviated (hash : String) : String := String.ofList (hash.toList.take 12)

def linkFails (prev entry : AuditLogDoc) : List String :=
  (if entry.sequence ≤ prev.sequence then
    ["sequence fork at " ++ toString entry.sequence ++ ": not strictly after " ++ toString prev.sequence] else []) ++
  (if entry.prevHash ≠ prev.hash then
    ["chain broken at sequence " ++ toString entry.sequence ++ ": prevHash does not match entry " ++
      toString prev.sequence ++ " hash"] else [])

def hashFails (expectedHash : String) (entry : AuditLogDoc) : List String :=
  if entry.hash ≠ expectedHash then
    ["hash mismatch at sequence " ++ toString entry.sequence ++ ": stored " ++ abbreviated entry.hash ++ "… ≠ recomputed " ++
      abbreviated expectedHash ++ "…"] else []

def Verification.check (digest : AuditHashAlgorithm → String → String) (v : Verification) (entry : AuditLogDoc) :
    Verification where
  prev := some entry
  checked := v.checked + 1
  anchored := if entry.prevHash = AUDIT_CHAIN_ROOT then v.anchored + 1 else v.anchored
  fails := v.fails ++ (match v.prev with
    | none => []
    | some prev => linkFails prev entry) ++ hashFails (verifierHash digest entry.prevHash entry) entry

def verifyLoop (digest : AuditHashAlgorithm → String → String) (chain : List AuditLogDoc) : Verification :=
  chain.foldl (Verification.check digest) ⟨none,0,0,[]⟩

-- find().sort({ sequence: 1 })
def inOrder (entries : List AuditLogDoc) : List AuditLogDoc :=
  entries.insertionSort fun one two => one.sequence ≤ two.sequence

def Passes (digest : AuditHashAlgorithm → String → String) (chain : List AuditLogDoc) : Prop :=
  (verifyLoop digest chain).fails = []

def Accepted (digest : AuditHashAlgorithm → String → String) (entries : List AuditLogDoc) : Prop :=
  Passes digest (inOrder entries)

instance (digest : AuditHashAlgorithm → String → String) (chain : List AuditLogDoc) : Decidable (Passes digest chain) :=
  inferInstanceAs (Decidable (_ = []))

instance (digest : AuditHashAlgorithm → String → String) (entries : List AuditLogDoc) :
    Decidable (Accepted digest entries) := inferInstanceAs (Decidable (Passes digest _))

section
variable {digest : AuditHashAlgorithm → String → String} {hash : String → AuditLogDoc → String}

-- What the loop asks of the entries behind `prev`, for a way to hash an entry
-- behind its predecessor.
def Verified (hash : String → AuditLogDoc → String) : Option AuditLogDoc → List AuditLogDoc → Prop
  | _,[] => True
  | prev,entry :: rest => (∀ before, prev = some before → before.sequence < entry.sequence ∧ entry.prevHash = before.hash) ∧
      entry.hash = hash entry.prevHash entry ∧ Verified hash (some entry) rest

theorem linkFails_none : linkFails prev entry = [] ↔ prev.sequence < entry.sequence ∧ entry.prevHash = prev.hash := by
  unfold linkFails
  by_cases fork : entry.sequence ≤ prev.sequence <;> by_cases broken : entry.prevHash = prev.hash <;>
    simp [fork,broken]
  omega

theorem hashFails_none : hashFails expectedHash entry = [] ↔ entry.hash = expectedHash := by
  unfold hashFails
  by_cases mismatch : entry.hash = expectedHash <;> simp [mismatch]

theorem loop_verified (v : Verification) (entries : List AuditLogDoc) :
    (entries.foldl (Verification.check digest) v).fails = [] ↔ v.fails = [] ∧ Verified (verifierHash digest) v.prev entries := by
  induction entries generalizing v with
  | nil => simp [Verified]
  | cons entry rest ih =>
    rw [List.foldl_cons,ih]
    simp only [Verification.check,List.append_eq_nil_iff,hashFails_none,Verified]
    cases v.prev with
    | none => simp [and_assoc]
    | some before => simp [and_assoc,linkFails_none]

theorem passes_iff : Passes digest chain ↔ Verified (verifierHash digest) none chain := by
  unfold Passes verifyLoop
  rw [loop_verified]
  simp

theorem inOrder_ascending (ascending : Ascending entries) : inOrder entries = entries := by
  apply List.Pairwise.insertionSort_eq
  exact ascending.imp Nat.le_of_lt

theorem accepted_iff (ascending : Ascending entries) : Accepted digest entries ↔ Verified (verifierHash digest) none entries := by
  unfold Accepted
  rw [inOrder_ascending ascending,passes_iff]

theorem verified_later (verified : Verified hash prev entries) : Verified hash none entries := by
  cases entries with
  | nil => trivial
  | cons entry rest => exact ⟨fun before same => absurd same.symm (Option.some_ne_none before),verified.2⟩

theorem verified_behind {front : List AuditLogDoc} (verified : Verified hash prev (front ++ entries)) :
    Verified hash none entries := by
  induction front generalizing prev with
  | nil => exact verified_later verified
  | cons entry front ih => exact ih verified.2.2

theorem verified_append (verified : Verified hash prev entries) (hashed : doc.hash = hash doc.prevHash doc)
    (linked : ∀ last, (entries.getLast?.or prev) = some last → last.sequence < doc.sequence ∧ doc.prevHash = last.hash) :
    Verified hash prev (entries ++ [doc]) := by
  induction entries generalizing prev with
  | nil => exact ⟨linked,hashed,trivial⟩
  | cons entry rest ih =>
    refine ⟨verified.1,verified.2.1,ih verified.2.2 ?_⟩
    intro last found
    apply linked
    cases rest with
    | nil => simpa using found
    | cons next rest =>
      rw [List.getLast?_cons_cons]
      obtain ⟨tip,there⟩ := Option.isSome_iff_exists.mp (List.getLast?_isSome.mpr (List.cons_ne_nil next rest))
      rw [there] at found ⊢
      exact found

end
end Pezhwan.Audit

-- What the last hash of an accepted log says about its entries.
namespace Pezhwan.Audit

-- The fields of a security event, as buildDoc stores them.
structure SameEvent (one two : AuditLogDoc) : Prop where
  eventType : one.eventType = two.eventType
  severity : one.severity = two.severity
  tenantId : one.tenantId = two.tenantId
  applicationId : one.applicationId = two.applicationId
  userId : one.userId = two.userId
  sessionId : one.sessionId = two.sessionId
  ip : one.ip = two.ip
  userAgent : one.userAgent = two.userAgent
  timestamp : one.timestamp = two.timestamp
  metadata : one.metadata = two.metadata

def isNull : Json → Bool
  | .null => true
  | _ => false

-- What the canonical form leaves out: six fields, and whether a value it writes
-- as empty is there.
structure SameUnhashed (one two : AuditLogDoc) : Prop where
  severity : one.severity = two.severity
  tenantId : one.tenantId = two.tenantId
  applicationId : one.applicationId = two.applicationId
  sessionId : one.sessionId = two.sessionId
  userAgent : one.userAgent = two.userAgent
  timestamp : one.timestamp = two.timestamp
  userId : one.userId.isSome = two.userId.isSome
  ip : one.ip.isSome = two.ip.isSome
  metadata : isNull one.metadata = isNull two.metadata

-- What the canonical form says.
structure SameHashed (one two : AuditLogDoc) : Prop where
  eventType : one.eventType = two.eventType
  userId : one.userId.getD "" = two.userId.getD ""
  ip : one.ip.getD "" = two.ip.getD ""
  metadata : orEmpty (some one.metadata) = orEmpty (some two.metadata)

theorem same_given {one two : Option String} (value : one.getD "" = two.getD "") (given : one.isSome = two.isSome) :
    one = two := by
  cases one <;> cases two <;> simp_all

theorem same_metadata {one two : Json} (value : orEmpty (some one) = orEmpty (some two))
    (null : isNull one = isNull two) : one = two := by
  cases one <;> cases two <;> simp_all [orEmpty,isNull]

theorem same_event (hashed : SameHashed one two) : SameEvent one two ↔ SameUnhashed one two := by
  constructor
  · intro same
    exact ⟨same.severity,same.tenantId,same.applicationId,same.sessionId,same.userAgent,same.timestamp,
      by rw [same.userId],by rw [same.ip],by rw [same.metadata]⟩
  · intro same
    exact ⟨hashed.eventType,same.severity,same.tenantId,same.applicationId,same_given hashed.userId same.userId,
      same.sessionId,same_given hashed.ip same.ip,same.userAgent,same.timestamp,
      same_metadata hashed.metadata same.metadata⟩

section
variable {digest : AuditHashAlgorithm → String → String} (injective : Function.Injective (digest .sha256))
include injective

theorem verifierHash_split (same : verifierHash digest p one = verifierHash digest q two) :
    p = q ∧ SameHashed one two := by
  have texts := congrArg String.toList (injective same)
  rw [String.toList_append,String.toList_append] at texts
  obtain ⟨front,canonical⟩ := Json.object_behind texts
  refine ⟨String.toList_injective front,?_⟩
  simp only [Json.object.injEq,List.cons.injEq,Prod.mk.injEq,Json.string.injEq,true_and,and_true] at canonical
  obtain ⟨eventType,ip,userId,metadata⟩ := canonical
  exact ⟨eventType,userId,ip,metadata⟩

theorem verified_same {prev before : Option AuditLogDoc} {log other : List AuditLogDoc} (verified : Verified (verifierHash digest) prev log)
    (also : Verified (verifierHash digest) before other) (length : log.length = other.length)
    (tip : log.getLast?.map AuditLogDoc.hash = other.getLast?.map AuditLogDoc.hash) :
    List.Forall₂ SameHashed log other ∧ log.head?.map AuditLogDoc.prevHash = other.head?.map AuditLogDoc.prevHash := by
  induction log generalizing other prev before with
  | nil =>
    cases other with
    | nil => exact ⟨.nil,rfl⟩
    | cons _ _ => cases length
  | cons entry rest ih =>
    cases other with
    | nil => cases length
    | cons doc more =>
      obtain ⟨_,hashed,later⟩ := verified
      obtain ⟨_,alsoHashed,alsoLater⟩ := also
      have lengths : rest.length = more.length := by simpa using length
      -- the entries behind this one fix its hash
      have hashes : List.Forall₂ SameHashed rest more ∧ entry.hash = doc.hash := by
        cases rest with
        | nil =>
          cases more with
          | nil => exact ⟨.nil,by simpa using tip⟩
          | cons _ _ => cases lengths
        | cons next rest =>
          cases more with
          | nil => cases lengths
          | cons following more =>
            simp only [List.getLast?_cons_cons] at tip
            obtain ⟨same,first⟩ := ih later alsoLater lengths tip
            have linked := (later.1 entry rfl).2
            have alsoLinked := (alsoLater.1 doc rfl).2
            rw [List.head?_cons,List.head?_cons,Option.map_some,Option.map_some,Option.some.injEq,linked,alsoLinked] at first
            exact ⟨same,first⟩
      obtain ⟨same,equal⟩ := hashes
      rw [hashed,alsoHashed] at equal
      obtain ⟨front,here⟩ := verifierHash_split injective equal
      exact ⟨.cons here same,by simpa using front⟩

end

theorem forall_same {log other : List AuditLogDoc} (hashed : List.Forall₂ SameHashed log other) :
    List.Forall₂ SameEvent log other ↔ List.Forall₂ SameUnhashed log other := by
  induction hashed with
  | nil => simp
  | cons here _ ih => simp only [List.forall₂_cons,same_event here,ih]

-- Two logs that pass the loop with the same number of entries and the same last
-- hash agree on what is hashed, so they hold the same events exactly when they
-- agree on what is not.
theorem tamper_evident (digest : AuditHashAlgorithm → String → String) (injective : Function.Injective (digest .sha256))
    (log other : List AuditLogDoc) (passes : Passes digest log) (also : Passes digest other)
    (length : log.length = other.length)
    (tip : log.getLast?.map AuditLogDoc.hash = other.getLast?.map AuditLogDoc.hash) :
    List.Forall₂ SameHashed log other ∧ (List.Forall₂ SameEvent log other ↔ List.Forall₂ SameUnhashed log other) := by
  obtain ⟨same,_⟩ := verified_same injective (passes_iff.mp passes) (passes_iff.mp also) length tip
  exact ⟨same,forall_same same⟩

theorem sampleAudit_injective : Function.Injective (sampleAudit.digest .sha256) := by
  intro one two same
  have chars := congrArg String.toList same
  simp only [sampleAudit,String.toList_ofList,List.cons.injEq,true_and] at chars
  exact String.toList_injective chars

-- One critical event of a tenant, in a log of its own.
def sampleEntry (tenantId : String) (severity : Severity) : AuditLogDoc :=
  let event := buildDoc 0 none ⟨"LOGIN_FAILED",some severity,some tenantId,none,some "u",none,none,none,none⟩ 1
    AUDIT_CHAIN_ROOT ""
  {event with hash := verifierHash sampleAudit.digest AUDIT_CHAIN_ROOT event}

theorem sampleEntry_passes (tenantId : String) (severity : Severity) : Passes sampleAudit.digest [sampleEntry tenantId severity] := by
  refine passes_iff.mpr ⟨?_,?_,trivial⟩
  · intro before same
    cases same
  · simp only [sampleEntry,verifierHash,canonicalJson,buildDoc]

theorem sampleEntry_hash (tenantId other : String) (severity lower : Severity) :
    (sampleEntry tenantId severity).hash = (sampleEntry other lower).hash := by
  simp only [sampleEntry,verifierHash,canonicalJson,buildDoc]

theorem tamper_evident_once : List.Forall₂ SameHashed [sampleEntry "a" .critical] [sampleEntry "b" .info] ∧
    (List.Forall₂ SameEvent [sampleEntry "a" .critical] [sampleEntry "b" .info] ↔
      List.Forall₂ SameUnhashed [sampleEntry "a" .critical] [sampleEntry "b" .info]) :=
  tamper_evident sampleAudit.digest sampleAudit_injective [sampleEntry "a" .critical] [sampleEntry "b" .info]
    (sampleEntry_passes "a" .critical) (sampleEntry_passes "b" .info) rfl (congrArg some (sampleEntry_hash "a" "b" .critical .info))

theorem moved_event_passes : ∃ digest log other, Function.Injective (digest AuditHashAlgorithm.sha256) ∧
    Passes digest log ∧ Passes digest other ∧ log.length = other.length ∧
    log.getLast?.map AuditLogDoc.hash = other.getLast?.map AuditLogDoc.hash ∧ ¬ List.Forall₂ SameEvent log other := by
  refine ⟨sampleAudit.digest,[sampleEntry "a" .critical],[sampleEntry "b" .info],sampleAudit_injective,
    sampleEntry_passes "a" .critical,sampleEntry_passes "b" .info,rfl,congrArg some (sampleEntry_hash "a" "b" .critical .info),?_⟩
  intro same
  cases same with
  | cons here _ =>
    have moved : some "a" = some "b" := here.tenantId
    simp at moved

end Pezhwan.Audit
