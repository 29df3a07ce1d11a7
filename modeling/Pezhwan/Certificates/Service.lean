import Pezhwan.Numeric.Base64
import Pezhwan.Json

namespace Pezhwan.Certificates
open Numeric

structure CertificateConfig where
  trustedCAs : Option (List String) := none
  requireChainVerification : Option Bool := none
  enableCrlCheck : Option Bool := none
  enableOcspCheck : Option Bool := none
  failClosedOnRevocationError : Option Bool := none
  maxChainDepth : Option ℤ := none

structure PresentedCertificate where
  chainPem : Option (List String) := none
  certThumbprint : Option String := none

structure CertificatePrincipal where
  subjectCN : Option String := none
  subjectDN : String
  issuerCN : Option String := none
  sanDns : List String := []
  sanEmail : List String := []
  sanUpn : Option String := none
  sanUri : Option String := none
  serialNumber : Option String := none
  notBefore : Option ℤ := none
  notAfter : Option ℤ := none
  thumbprintSha256 : String
  deriving DecidableEq, Repr

structure CertificateVerificationResult where
  verified : Bool
  principal : Option CertificatePrincipal
  error : Option String := none
  deriving DecidableEq, Repr

-- The error is the message of what the checker throws.
abbrev RevocationChecker := CertificatePrincipal → List String → Except String Bool

structure AuditEntry where
  thumbprint : String
  cn : Option String
  deriving DecidableEq, Repr

-- What the platform and the deployment give: a hash, a checker if one is set, and an audit
-- log if there is one, which may fail to write.
structure Collaborators where
  sha256 : Bytes → Bytes
  revocationChecker : Option RevocationChecker := none
  audit : Option (AuditEntry → Except String Unit) := none

structure CertificateService where
  trustedCAs : List String
  requireChainVerification : Bool
  enableCrlCheck : Bool
  enableOcspCheck : Bool
  failClosedOnRevocationError : Bool
  maxChainDepth : ℤ
  collaborators : Collaborators

-- One verification: what it answers or is rejected with, and what the checker was asked and said.
structure Verification where
  outcome : Except String CertificateVerificationResult
  consulted : List (CertificatePrincipal × List String × Except String Bool) := []

-- The text without what one of the patterns matches, read once from the left.
def removed (patterns : List (List Char)) : ℕ → List Char → List Char
  | _,[] => []
  | n + 1,_ :: rest => removed patterns n rest
  | 0,c :: rest =>
    match patterns.find? fun pattern => pattern.isPrefixOf (c :: rest) with
    | some pattern => removed patterns (pattern.length - 1) rest
    | none => c :: removed patterns 0 rest

def decodeDer (pem : String) : Bytes :=
  let begun := removed ["-----BEGIN CERTIFICATE-----".toList] 0 pem.toList
  let ended := removed ["-----END CERTIFICATE-----".toList] 0 begun
  let trustedBegun := removed ["-----BEGIN TRUSTED CERTIFICATE-----".toList,"-----BEGIN CERTIFICATE-----".toList] 0 ended
  let cleaned := removed ["-----END TRUSTED CERTIFICATE-----".toList,"-----END CERTIFICATE-----".toList] 0 trustedBegun
  Base64.decode (cleaned.filter fun c => !isSpace c)

def base64url (bytes : Bytes) : String :=
  String.ofList (((Base64.encode bytes).filter (· != '=')).map fun c => if c = '+' then '-' else if c = '/' then '_' else c)

-- No field is read off the certificate but its hash.
def parsePrincipal (thumbprintSha256 : String) : CertificatePrincipal :=
  {subjectDN := "der:" ++ String.ofList (thumbprintSha256.toList.take 16), thumbprintSha256 := thumbprintSha256}

def createStaticRevocationChecker (revokedThumbprints : Except String (List String)) : RevocationChecker :=
  fun principal _ => revokedThumbprints.map fun list => list.contains principal.thumbprintSha256

namespace CertificateService

def new (config : CertificateConfig) (collaborators : Collaborators) : CertificateService where
  trustedCAs := config.trustedCAs.getD []
  requireChainVerification := config.requireChainVerification.getD true
  enableCrlCheck := config.enableCrlCheck.getD false
  enableOcspCheck := config.enableOcspCheck.getD false
  failClosedOnRevocationError := config.failClosedOnRevocationError.getD true
  maxChainDepth := config.maxChainDepth.getD 5
  collaborators := collaborators

def thumbprint (sha256 : Bytes → Bytes) (pem : String) : String := base64url (sha256 (decodeDer pem))

variable (service : CertificateService)

def decode (pem : String) : CertificatePrincipal := parsePrincipal (thumbprint service.collaborators.sha256 pem)

def isTrustedSelfSigned (_leaf : CertificatePrincipal) : Bool := service.trustedCAs.isEmpty

def verifyChain (chain : List String) (leaf : CertificatePrincipal) : Bool :=
  if 0 < service.maxChainDepth ∧ service.maxChainDepth < chain.length then false
  else if chain.length = 1 ∧ leaf.issuerCN = leaf.subjectCN then service.isTrustedSelfSigned leaf
  else true

def fail (message : String) (leaf : CertificatePrincipal) : CertificateVerificationResult := ⟨false,some leaf,some message⟩

-- Without a log nothing is written.
def record (leaf : CertificatePrincipal) : Except String Unit :=
  match service.collaborators.audit with
  | none => .ok ()
  | some log => log ⟨leaf.thumbprintSha256,leaf.subjectCN⟩

def accept (leaf : CertificatePrincipal) : Except String CertificateVerificationResult :=
  (service.record leaf).map fun _ => ⟨true,some leaf,none⟩

-- The third check and what follows it.
def checkRevocation (chain : List String) (leaf : CertificatePrincipal) : Verification :=
  match service.collaborators.revocationChecker with
  | none => ⟨service.accept leaf,[]⟩
  | some isRevoked =>
    if !(service.enableCrlCheck || service.enableOcspCheck) then ⟨service.accept leaf,[]⟩
    else
      let answer := isRevoked leaf chain
      let consulted := [(leaf,chain,answer)]
      match answer with
      | .ok true => ⟨.ok (fail "Certificate revoked" leaf),consulted⟩
      | .ok false => ⟨service.accept leaf,consulted⟩
      | .error message =>
        if service.failClosedOnRevocationError then ⟨.ok (fail ("Revocation check failed: " ++ message) leaf),consulted⟩
        else ⟨service.accept leaf,consulted⟩

def verify (presented : PresentedCertificate) (now : ℤ) : Verification :=
  match presented.chainPem.getD [] with
  | [] =>
    match presented.certThumbprint.filter (· != "") with
    | some thumbprint => ⟨.ok ⟨true,some {subjectDN := "thumbprint:" ++ thumbprint, thumbprintSha256 := thumbprint},none⟩,[]⟩
    | none => ⟨.ok ⟨false,none,some "No certificate presented"⟩,[]⟩
  | leafPem :: intermediates =>
    let chain := leafPem :: intermediates
    let leaf := service.decode leafPem
    if leaf.notBefore.any (now < ·) then ⟨.ok (fail "Certificate not yet valid" leaf),[]⟩
    else if leaf.notAfter.any (· < now) then ⟨.ok (fail "Certificate expired" leaf),[]⟩
    else if service.requireChainVerification && !service.verifyChain chain leaf then
      ⟨.ok (fail "Certificate chain verification failed" leaf),[]⟩
    else service.checkRevocation chain leaf

def mapSubject (principal : CertificatePrincipal) : Option String :=
  match principal.sanEmail,principal.sanUpn.filter (· != ""),principal.sanUri.filter (· != ""),principal.sanDns with
  | email :: _,_,_,_ => some email
  | [],some upn,_,_ => some upn
  | [],none,some uri,_ => some uri
  | [],none,none,dns :: _ => some dns
  | [],none,none,[] => principal.subjectCN

-- `signs certificate issuer`: the issuer's key has signed the certificate.
variable (signs : String → String → Prop)

-- Each certificate is signed by the next, and the last one is or is signed by a trusted one.
def Trusted (trustedCAs : List String) : List String → Prop
  | [] => False
  | [last] => last ∈ trustedCAs ∨ ∃ ca ∈ trustedCAs,signs last ca
  | certificate :: issuer :: rest => signs certificate issuer ∧ Trusted trustedCAs (issuer :: rest)

def RequiresTrust : Prop := service.requireChainVerification = true ∧ service.trustedCAs ≠ []

def ChecksRevocation : Prop := service.enableCrlCheck = true ∨ service.enableOcspCheck = true

def FailsClosed (presented : PresentedCertificate) (now : ℤ) : Prop :=
  ∀ result, (service.verify presented now).outcome = .ok result → result.verified = true →
    (service.RequiresTrust → Trusted signs service.trustedCAs (presented.chainPem.getD [])) ∧
      (service.ChecksRevocation → ∃ leaf, result.principal = some leaf ∧
        (leaf,presented.chainPem.getD [],.ok false) ∈ (service.verify presented now).consulted)

-- A chain is refused for its length alone: one that is too long, and one of one certificate.
def ChainRefused (chain : List String) : Prop :=
  service.requireChainVerification = true ∧
    (0 < service.maxChainDepth ∧ service.maxChainDepth < chain.length ∨ chain.length = 1 ∧ service.trustedCAs ≠ [])

def LogFails (leaf : CertificatePrincipal) : Prop := ∃ message, service.record leaf = .error message

def answer (leaf : CertificatePrincipal) (chain : List String) : Option (Except String Bool) :=
  service.collaborators.revocationChecker.map fun isRevoked => isRevoked leaf chain

-- The checker refuses: the certificate is revoked, or there is no saying and that counts against it.
def Withheld (leaf : CertificatePrincipal) (chain : List String) : Prop :=
  service.ChecksRevocation ∧
    (service.answer leaf chain = some (.ok true) ∨
      service.failClosedOnRevocationError = true ∧ ∃ message, service.answer leaf chain = some (.error message))

def Earned (leaf : CertificatePrincipal) (chain : List String) : Prop :=
  (service.RequiresTrust → Trusted signs service.trustedCAs chain) ∧
    (service.ChecksRevocation → service.answer leaf chain = some (.ok false))

-- When a verification keeps its word: it refuses, or the chain is what the code takes it for.
def KeepsWord (presented : PresentedCertificate) : Prop :=
  match presented.chainPem.getD [] with
  | [] => presented.certThumbprint.filter (· != "") = none ∨ ¬service.RequiresTrust ∧ ¬service.ChecksRevocation
  | leafPem :: intermediates =>
    let chain := leafPem :: intermediates
    let leaf := service.decode leafPem
    service.ChainRefused chain ∨ service.LogFails leaf ∨ service.Withheld leaf chain ∨ service.Earned signs leaf chain

theorem accept_ok (leaf : CertificatePrincipal) (result : CertificateVerificationResult) :
    service.accept leaf = .ok result ↔ ¬service.LogFails leaf ∧ result = ⟨true,some leaf,none⟩ := by
  unfold accept LogFails
  cases service.record leaf with
  | error message => simp [Except.map]
  | ok _ => simp [Except.map,eq_comm]

theorem verifyChain_false (chain : List String) (leafPem : String) :
    (service.requireChainVerification && !service.verifyChain chain (service.decode leafPem)) = true ↔ service.ChainRefused chain := by
  have named : (service.decode leafPem).issuerCN = (service.decode leafPem).subjectCN := rfl
  rw [Bool.and_eq_true,Bool.not_eq_true',ChainRefused]
  refine and_congr_right fun _ => ?_
  simp only [verifyChain,named,and_true]
  split_ifs with deep single
  · exact iff_of_true rfl (.inl deep)
  · rw [or_iff_right deep,and_iff_right single,isTrustedSelfSigned,List.isEmpty_eq_false_iff]
  · exact iff_of_false not_false (not_or.mpr ⟨deep,fun both => single both.1⟩)

-- What the third check comes to: it is left out without a checker, and else follows the answer.
inductive Checked (chain : List String) (leaf : CertificatePrincipal) : Verification → Prop where
  | skipped (off : service.ChecksRevocation → service.answer leaf chain = none) : Checked chain leaf ⟨service.accept leaf,[]⟩
  | withheld (held : service.Withheld leaf chain) (message : String) (other : answered ≠ .ok false) :
      Checked chain leaf ⟨.ok (fail message leaf),[(leaf,chain,answered)]⟩
  | asked (on : service.ChecksRevocation) (said : service.answer leaf chain = some answered) (passed : ¬service.Withheld leaf chain) :
      Checked chain leaf ⟨service.accept leaf,[(leaf,chain,answered)]⟩

theorem checkRevocation_cases (chain : List String) (leaf : CertificatePrincipal) :
    service.Checked chain leaf (service.checkRevocation chain leaf) := by
  unfold checkRevocation
  split
  · rename_i none
    exact .skipped fun _ => by rw [answer,none]; rfl
  · rename_i isRevoked held
    have said : service.answer leaf chain = some (isRevoked leaf chain) := by rw [answer,held]; rfl
    split
    · rename_i off
      refine .skipped fun on => ?_
      rw [Bool.not_eq_true',Bool.or_eq_false_iff] at off
      rcases on with crl | ocsp
      · exact absurd crl (by rw [off.1]; exact Bool.false_ne_true)
      · exact absurd ocsp (by rw [off.2]; exact Bool.false_ne_true)
    · rename_i on
      have checks : service.ChecksRevocation := by
        rwa [Bool.not_eq_true',Bool.not_eq_false,Bool.or_eq_true] at on
      generalize isRevoked leaf chain = answered at said
      match answered,said with
      | .ok true,said => exact .withheld ⟨checks,.inl said⟩ _ (fun other => nomatch other)
      | .ok false,said =>
        refine .asked checks said ?_
        rintro ⟨_,revoked | ⟨_,_,silent⟩⟩
        · rw [said] at revoked
          cases revoked
        · rw [said] at silent
          cases silent
      | .error message,said =>
        dsimp only
        split
        · rename_i closed
          exact .withheld ⟨checks,.inr ⟨closed,message,said⟩⟩ _ (fun other => nomatch other)
        · rename_i opened
          refine .asked checks said ?_
          rintro ⟨_,revoked | ⟨closed,_⟩⟩
          · rw [said] at revoked
            cases revoked
          · exact opened closed

theorem verify_chain (presented : PresentedCertificate) (now : ℤ) (given : presented.chainPem.getD [] = leafPem :: intermediates) :
    (service.ChainRefused (leafPem :: intermediates) ∧ ∃ message,
        service.verify presented now = ⟨.ok (fail message (service.decode leafPem)),[]⟩) ∨
      ¬service.ChainRefused (leafPem :: intermediates) ∧
        service.verify presented now = service.checkRevocation (leafPem :: intermediates) (service.decode leafPem) := by
  have early : (service.decode leafPem).notBefore.any (now < ·) = false := rfl
  have late : (service.decode leafPem).notAfter.any (· < now) = false := rfl
  have refused := service.verifyChain_false (leafPem :: intermediates) leafPem
  simp only [verify,given,early,late,Bool.false_eq_true,if_false]
  split_ifs with deep
  · exact .inl ⟨refused.mp deep,_,rfl⟩
  · exact .inr ⟨mt refused.mpr deep,rfl⟩

theorem accept_sound (leaf : CertificatePrincipal) (chain : List String) (consulted : List (CertificatePrincipal × List String × Except String Bool)) :
    (∀ result, service.accept leaf = .ok result → result.verified = true →
      (service.RequiresTrust → Trusted signs service.trustedCAs chain) ∧
        (service.ChecksRevocation → ∃ principal, result.principal = some principal ∧ (principal,chain,.ok false) ∈ consulted)) ↔
    service.LogFails leaf ∨ (service.RequiresTrust → Trusted signs service.trustedCAs chain) ∧
      (service.ChecksRevocation → (leaf,chain,.ok false) ∈ consulted) := by
  simp only [accept_ok,or_iff_not_imp_left]
  constructor
  · intro sound works
    obtain ⟨trust,revocation⟩ := sound _ ⟨works,rfl⟩ rfl
    refine ⟨trust,fun checks => ?_⟩
    obtain ⟨_,⟨rfl⟩,listed⟩ := revocation checks
    exact listed
  · rintro sound result ⟨works,rfl⟩ _
    obtain ⟨trust,revocation⟩ := sound works
    exact ⟨trust,fun checks => ⟨leaf,rfl,revocation checks⟩⟩

theorem fails_closed_iff (presented : PresentedCertificate) (now : ℤ) :
    service.FailsClosed signs presented now ↔ service.KeepsWord signs presented := by
  unfold FailsClosed KeepsWord
  cases given : presented.chainPem.getD [] with
  | nil =>
    simp only [verify,given,Trusted]
    cases presented.certThumbprint.filter (· != "") with
    | none =>
      refine iff_of_true ?_ (.inl rfl)
      rintro result ⟨rfl⟩ refused
      cases refused
    | some thumbprint =>
      rw [or_iff_right (fun none => nomatch none)]
      constructor
      · intro sound
        obtain ⟨trust,revocation⟩ := sound _ rfl rfl
        exact ⟨trust,fun checks => by simpa using revocation checks⟩
      · rintro ⟨trust,revocation⟩ result _ _
        exact ⟨fun requires => trust requires,fun checks => absurd checks revocation⟩
  | cons leafPem intermediates =>
    rcases service.verify_chain presented now given with ⟨refused,message,run⟩ | ⟨passed,run⟩
    · rw [run]
      refine iff_of_true ?_ (.inl refused)
      rintro result ⟨rfl⟩ refused
      cases refused
    · rw [run]
      dsimp only
      rw [or_iff_right passed]
      generalize service.decode leafPem = leaf
      generalize leafPem :: intermediates = chain
      generalize ran : service.checkRevocation chain leaf = verification
      have checked := ran ▸ service.checkRevocation_cases chain leaf
      cases checked with
      | skipped off =>
        have silent : ∀ {said}, service.ChecksRevocation → service.answer leaf chain ≠ some said := by
          intro said checks other
          rw [off checks] at other
          cases other
        have passes : ¬service.Withheld leaf chain := by
          rintro ⟨checks,revoked | ⟨_,_,unknown⟩⟩
          · exact silent checks revoked
          · exact silent checks unknown
        rw [accept_sound,or_iff_right passes]
        refine or_congr_right (and_congr_right fun _ => ?_)
        exact forall_congr' fun checks => iff_of_false List.not_mem_nil (silent checks)
      | withheld held message other =>
        refine iff_of_true ?_ (.inr (.inl held))
        rintro result ⟨rfl⟩ refused
        cases refused
      | asked on said passes =>
        rw [accept_sound,or_iff_right passes]
        refine or_congr_right (and_congr_right fun _ => forall_congr' fun _ => ?_)
        rw [said,List.mem_singleton,Option.some.injEq,Prod.mk.injEq,Prod.mk.injEq]
        exact ⟨fun same => same.2.2.symm,fun same => ⟨rfl,rfl,same.symm⟩⟩

end CertificateService

theorem unsigned_chain_verified :
    (let service := CertificateService.new {trustedCAs := some ["ca"]} {sha256 := fun bytes => bytes}
     service.requireChainVerification = true ∧ service.trustedCAs = ["ca"] ∧
      ∃ leaf, (service.verify {chainPem := some ["leaf","other"]} 0).outcome = .ok ⟨true,some leaf,none⟩) ∧
    ¬∀ signs service presented now, CertificateService.FailsClosed service signs presented now := by
  refine ⟨⟨rfl,rfl,_,rfl⟩,?_⟩
  intro all
  let service := CertificateService.new {trustedCAs := some ["ca"]} {sha256 := fun bytes => bytes}
  have sound := all (fun _ _ => False) service {chainPem := some ["leaf","other"]} 0 _ rfl rfl
  exact (sound.1 ⟨rfl,by decide⟩).1

end Pezhwan.Certificates
