import Pezhwan.Atomic.Dict
import Pezhwan.Numeric.Bytes
import Pezhwan.Auth.Engine
import Pezhwan.Json

-- The CBOR decoding of the WebAuthn module.
namespace Pezhwan.WebAuthn
open Atomic

abbrev Buffer := Numeric.Bytes

-- A number that may be undefined or NaN: arithmetic keeps it so, as an index it
-- finds nothing, in bit operations it counts as zero.
abbrev Number := Option Nat

def plus (a b : Number) : Number := a.bind fun x => b.map (x + ·)

def byteAt (buf : Buffer) (offset : Number) : Option UInt8 := offset.bind fun i => buf[i]?

def bitsAt (buf : Buffer) (offset : Number) : UInt8 := (byteAt buf offset).getD 0

-- A bound that is NaN counts as zero, too.
def subarray (buf : Buffer) (start stop : Number) : Buffer := (buf.take (stop.getD 0)).drop (start.getD 0)

structure Decoded (α : Type) where
  value : α
  bytesRead : Number

def twoBytes (buf : Buffer) (offset : Number) : Nat :=
  (bitsAt buf offset).toNat <<< 8 ||| (bitsAt buf (plus offset (some 1))).toNat

def cborDecodeUInt (buf : Buffer) (offset : Number) : Except String (Decoded Number) :=
  let additionalInfo := bitsAt buf offset &&& 0x1f
  if additionalInfo < 24 then .ok ⟨some additionalInfo.toNat,some 1⟩
  else if additionalInfo = 24 then .ok ⟨(byteAt buf (plus offset (some 1))).map UInt8.toNat,some 2⟩
  else if additionalInfo = 25 then .ok ⟨some (twoBytes buf (plus offset (some 1))),some 3⟩
  else .error "CBOR: unsupported uint size"

def cborDecodeBytes (buf : Buffer) (offset : Number) : Except String (Decoded Buffer) := do
  let len ← cborDecodeUInt buf offset
  pure ⟨subarray buf (plus offset len.bytesRead) (plus (plus offset len.bytesRead) len.value),plus len.bytesRead len.value⟩

abbrev CborMap := Dict (Option Int) Buffer

def cborDecodeEntries (buf : Buffer) : Nat → Number → CborMap → Except String (Decoded CborMap)
  | 0,pos,map => .ok ⟨map,pos⟩
  | n + 1,pos,map => do
    let key ← cborDecodeUInt buf pos
    let val ← cborDecodeBytes buf (plus pos key.bytesRead)
    cborDecodeEntries buf n (plus (plus pos key.bytesRead) val.bytesRead) (map.set (key.value.map Int.ofNat) val.value)

def cborDecodeMap (buf : Buffer) (offset : Number) : Except String (Decoded CborMap) := do
  let numEntries ← cborDecodeUInt buf offset
  let entries ← cborDecodeEntries buf (numEntries.value.getD 0) (plus offset numEntries.bytesRead) Dict.empty
  pure ⟨entries.value,entries.bytesRead.bind fun pos => offset.map (pos - ·)⟩

theorem bind_ok {read : Except ε α} {next : α → Except ε β} :
    (read >>= next) = .ok result ↔ ∃ value, read = .ok value ∧ next value = .ok result := by
  cases read with
  | error e => simp [bind,Except.bind]
  | ok value => simp [bind,Except.bind]

theorem entries_nonnegative (looped : cborDecodeEntries buf n pos map = .ok decoded)
    (before : ∀ key, map.get? (some (Int.negSucc key)) = none) (key : Nat) :
    decoded.value.get? (some (Int.negSucc key)) = none := by
  induction n generalizing pos map with
  | zero =>
    cases looped
    exact before key
  | succ n ih =>
    unfold cborDecodeEntries at looped
    obtain ⟨name,_,rest⟩ := bind_ok.mp looped
    obtain ⟨val,_,again⟩ := bind_ok.mp rest
    refine ih again ?_
    intro other
    rw [Dict.get?_set_ne]
    · exact before other
    · cases name.value with
      | none => simp
      | some value => simp

theorem decodeMap_nonnegative (read : cborDecodeMap buf offset = .ok decoded) (key : Nat) :
    decoded.value.get? (some (Int.negSucc key)) = none := by
  unfold cborDecodeMap at read
  obtain ⟨count,_,rest⟩ := bind_ok.mp read
  obtain ⟨entries,looped,same⟩ := bind_ok.mp rest
  cases same
  exact entries_nonnegative looped (fun _ => rfl) key

-- The ceremonies as the crypto package verifies them.
open Auth (codeUnits)

-- The keys that the signature functions of Node are given.
inductive Key where
  | der (spki : Buffer)
  | bytes (raw : Buffer)
  deriving DecidableEq, Repr

-- What the code takes from Node. `parse` fails with the message of the
-- SyntaxError, `verify` is a verifier of createVerify and has no answer where it throws.
structure Node where
  random : Random
  trim : String → String
  sha256 : Buffer → Buffer
  base64 : String → Buffer
  utf8 : Buffer → String
  parse : String → Except String Json
  verify : (algorithm : String) → Key → (data signature : Buffer) → Option Bool

inductive AuthenticatorAttachment where
  | platform | «cross-platform»
  deriving DecidableEq, Repr

inductive UserVerification where
  | required | preferred | discouraged
  deriving DecidableEq, Repr

inductive ResidentKey where
  | required | preferred | discouraged
  deriving DecidableEq, Repr

inductive AttestationConveyance where
  | none | indirect | direct
  deriving DecidableEq, Repr

namespace COSEAlgorithm
def ES256 : Int := -7
def RS256 : Int := -257
end COSEAlgorithm

structure PublicKeyCredentialDescriptor where
  id : String
  transports : Option (List String)
  deriving DecidableEq, Repr

structure AuthenticatorSelection where
  authenticatorAttachment : Option AuthenticatorAttachment
  residentKey : ResidentKey
  requireResidentKey : Bool
  userVerification : UserVerification
  deriving DecidableEq, Repr

structure PublicKeyCredentialCreationOptions where
  rpName : String
  rpId : Option String
  userId : String
  userName : String
  userDisplayName : String
  challenge : String
  pubKeyCredParams : List Int
  timeout : Nat
  excludeCredentials : List PublicKeyCredentialDescriptor
  authenticatorSelection : AuthenticatorSelection
  attestation : AttestationConveyance
  deriving DecidableEq, Repr

structure PublicKeyCredentialRequestOptions where
  challenge : String
  timeout : Nat
  rpId : Option String
  allowCredentials : List PublicKeyCredentialDescriptor
  userVerification : UserVerification
  deriving DecidableEq, Repr

-- The fields of a stored credential that the verifier is handed.
structure WebAuthnCredential where
  credentialId : String
  publicKey : String
  counter : Nat
  transports : List String
  createdAt : Nat
  deriving DecidableEq, Repr

structure RegistrationResult where
  id : String
  attestationObject : String
  clientDataJSON : String
  getTransports : Option (List String)
  deriving DecidableEq, Repr

structure AuthenticationResult where
  id : String
  authenticatorData : String
  clientDataJSON : String
  signature : String
  deriving DecidableEq, Repr

structure AttestedCredentialData where
  aaguid : Buffer
  credentialId : Buffer
  credentialPublicKey : Buffer
  deriving DecidableEq, Repr

structure AuthenticatorData where
  rpIdHash : Buffer
  flags : Option UInt8
  signCount : Buffer
  attestedCredentialData : Option AttestedCredentialData
  deriving DecidableEq, Repr

structure ParsedAttestation extends AuthenticatorData where
  fmt : String
  attStmt : Buffer
  deriving DecidableEq, Repr

structure WebAuthnVerificationResult where
  verified : Bool
  credentialId : Option String := none
  newCounter : Option Nat := none
  credentialPublicKey : Option String := none
  attestationFormat : Option String := none
  error : Option String := none
  deriving DecidableEq, Repr

def refused (error : String) : Except String WebAuthnVerificationResult :=
  .ok {verified := false,error := some error}

def FLAG_UP : UInt8 := 0x01
def FLAG_AT : UInt8 := 0x40

-- An absent flags byte has no flag.
def flagged (flags : Option UInt8) (flag : UInt8) : Bool := flags.getD 0 &&& flag ≠ 0

def base64UrlToBuffer (node : Node) (str : String) : Buffer :=
  let base64 := str.toList.map fun c => if c = '-' then '+' else if c = '_' then '/' else c
  node.base64 (String.ofList (base64 ++ List.replicate ((4 - (codeUnits (String.ofList base64)).length % 4) % 4) '='))

def bufferToBase64Url (buf : Buffer) : String := Auth.AuthEngine.base64url (buf.map UInt8.toNat)

def utf8Bytes (text : String) : Buffer := text.toUTF8.data.toList

-- The options of a ceremony, for a challenge just drawn.
def generateRegistrationOptions (challenge rpName : String) (rpId : Option String) (userId userName userDisplayName : String)
    (excludeCredentials : List String) (userVerification : UserVerification) (residentKey : ResidentKey)
    (attestation : AttestationConveyance) (timeout : Nat) : PublicKeyCredentialCreationOptions where
  rpName := rpName
  rpId := rpId
  userId := bufferToBase64Url (utf8Bytes userId)
  userName := userName
  userDisplayName := userDisplayName
  challenge := challenge
  pubKeyCredParams := [COSEAlgorithm.ES256,COSEAlgorithm.RS256]
  timeout := timeout
  excludeCredentials := excludeCredentials.map fun id => ⟨id,none⟩
  authenticatorSelection := ⟨none,residentKey,residentKey = .required,userVerification⟩
  attestation := attestation

def generateAuthenticationOptions (challenge : String) (rpId : Option String) (allowCredentials : List String)
    (userVerification : UserVerification) (timeout : Nat) : PublicKeyCredentialRequestOptions where
  challenge := challenge
  timeout := timeout
  rpId := rpId
  allowCredentials := allowCredentials.map fun id => ⟨id,some ["internal"]⟩
  userVerification := userVerification

def parseAuthenticatorData (buf : Buffer) : AuthenticatorData where
  rpIdHash := subarray buf (some 0) (some 32)
  flags := byteAt buf (some 32)
  signCount := subarray buf (some 33) (some 37)
  attestedCredentialData :=
    if flagged (byteAt buf (some 32)) FLAG_AT then
      let credIdLen := twoBytes buf (some 53)
      some ⟨subarray buf (some 37) (some 53),subarray buf (some 55) (some (55 + credIdLen)),buf.drop (55 + credIdLen)⟩
    else none

def emptyAttestation : ParsedAttestation := ⟨⟨List.replicate 32 0,some 0,List.replicate 4 0,none⟩,"",[]⟩

def parseAttestationObject (node : Node) (buf : Buffer) : Except String ParsedAttestation := do
  let map := (← cborDecodeMap buf (some 0)).value
  let data := match map.get? (some 3) with
    | some authData => parseAuthenticatorData authData
    | none => emptyAttestation.toAuthenticatorData
  pure ⟨data,((map.get? (some 1)).map node.utf8).getD "",(map.get? (some 2)).getD []⟩

def trimLeadingZero : Buffer → Buffer
  | first :: second :: rest => if first = 0 then trimLeadingZero (second :: rest) else first :: second :: rest
  | buf => buf

def wrapInteger (buf : Buffer) : Buffer :=
  if bitsAt buf (some 0) &&& 0x80 ≠ 0 then [0x02,UInt8.ofNat (buf.length + 1),0x00] ++ buf
  else [0x02,UInt8.ofNat buf.length] ++ buf

def rawToDerSignature (raw : Buffer) : Buffer :=
  let rDer := wrapInteger (trimLeadingZero (subarray raw (some 0) (some 32)))
  let sDer := wrapInteger (trimLeadingZero (subarray raw (some 32) (some 64)))
  [0x30,UInt8.ofNat (rDer.length + sDer.length)] ++ rDer ++ sDer

def buildRSAPublicKeyDER (n e : Buffer) : Buffer :=
  let seqPayload := wrapInteger (trimLeadingZero n) ++ wrapInteger (trimLeadingZero e)
  [0x30,UInt8.ofNat seqPayload.length] ++ seqPayload

section
variable (node : Node)

def verifyEC256Signature (data signature x y : Buffer) : Bool :=
  (node.verify "SHA256" (.der (0x04 :: x ++ y)) data (rawToDerSignature signature)).getD false

def verifyRS256Signature (data signature n e : Buffer) : Bool :=
  (node.verify "RSA-SHA256" (.bytes (buildRSAPublicKeyDER n e)) data signature).getD false

-- The algorithm that the first byte of the field names.
def algorithmId (alg : Buffer) : Option Int :=
  (byteAt alg (some 0)).map fun first => if 0x20 ≤ first then -(Int.ofNat (first &&& 0x1f).toNat) - 1 else Int.ofNat first.toNat

def verifyCOSESignature (publicKeyBuf data signature : Buffer) : Except String Bool := do
  let keyMap := (← cborDecodeMap publicKeyBuf (some 0)).value
  match keyMap.get? (some 1),keyMap.get? (some 3) with
  | some kty,some alg =>
    let ktyValue := bitsAt kty (some 0) &&& 0x1f
    let algId := algorithmId alg
    if ktyValue = 2 ∧ algId = some COSEAlgorithm.ES256 then
      match keyMap.get? (some (-2)),keyMap.get? (some (-3)) with
      | some x,some y => pure (verifyEC256Signature node data signature x y)
      | _,_ => pure false
    else if ktyValue = 3 ∧ algId = some COSEAlgorithm.RS256 then
      match keyMap.get? (some (-1)),keyMap.get? (some (-2)) with
      | some n,some e => pure (verifyRS256Signature node data signature n e)
      | _,_ => pure false
    else pure false
  | _,_ => pure false

end

-- A member of what JSON.parse returned: only null has no members.
def property (name : String) : Json → Except String (Option Json)
  | .null => .error s!"Cannot read properties of null (reading '{name}')"
  | .object fields => .ok ((fields.find? fun field => field.1 = name).map Prod.snd)
  | _ => .ok none

def isText (text : String) : Option Json → Bool
  | some (.string value) => value = text
  | _ => false

def misfit (type challenge origin : String) (clientData : Json) : Except String (Option String) := do
  if !isText type (← property "type" clientData) then pure (some "Invalid clientData type")
  else if !isText challenge (← property "challenge" clientData) then pure (some "Challenge mismatch")
  else if !isText origin (← property "origin" clientData) then pure (some "Origin mismatch")
  else pure none

def readUInt32BE (buf : Buffer) : Except String Nat :=
  if buf.length < 4 then .error "Attempt to access memory outside buffer bounds"
  else .ok (Numeric.numberOfBytes (buf.take 4))

def verifyRegistrationResponse (node : Node) (challenge origin rpId : String) (registrationResult : RegistrationResult) :
    Except String WebAuthnVerificationResult := do
  let clientData ← node.parse (node.utf8 (node.base64 registrationResult.clientDataJSON))
  match ← misfit "webauthn.create" challenge origin clientData with
  | some error => refused error
  | none =>
    let attData ← parseAttestationObject node (base64UrlToBuffer node registrationResult.attestationObject)
    if attData.rpIdHash ≠ node.sha256 (utf8Bytes rpId) then refused "rpIdHash mismatch"
    else if !flagged attData.flags FLAG_UP then refused "User Presence not verified"
    else
      let counter ← readUInt32BE attData.signCount
      pure {
        verified := true
        credentialId := some registrationResult.id
        newCounter := some counter
        credentialPublicKey := some (match attData.attestedCredentialData with
          | some attested => String.ofList (Numeric.hexOfBytes attested.credentialPublicKey)
          | none => "")
        attestationFormat := some attData.fmt}

-- The bytes that the authenticator signs.
def signedData (node : Node) (authenticationResult : AuthenticationResult) : Buffer :=
  base64UrlToBuffer node authenticationResult.authenticatorData ++
    node.sha256 (node.base64 authenticationResult.clientDataJSON)

-- How a signature is checked: the package does it by verifyCOSESignature. What
-- follows is said of any check where it does not depend on this one.
abbrev SignatureCheck := (publicKeyBuf data signature : Buffer) → Except String Bool

def verifyAuthenticationResponse (node : Node) (verifySignature : SignatureCheck) (challenge origin rpId : String)
    (authenticationResult : AuthenticationResult) (credential : WebAuthnCredential) :
    Except String WebAuthnVerificationResult := do
  let clientData ← node.parse (node.utf8 (node.base64 authenticationResult.clientDataJSON))
  match ← misfit "webauthn.get" challenge origin clientData with
  | some error => refused error
  | none =>
    let authData := parseAuthenticatorData (base64UrlToBuffer node authenticationResult.authenticatorData)
    if authData.rpIdHash ≠ node.sha256 (utf8Bytes rpId) then refused "rpIdHash mismatch"
    else if !flagged authData.flags FLAG_UP then refused "User Presence not verified"
    else
      let newCounter ← readUInt32BE authData.signCount
      if credential.counter ≠ 0 ∧ newCounter ≤ credential.counter then refused "Counter did not increase"
      else
        let verified ← verifySignature (Numeric.bytesOfHex credential.publicKey.toList) (signedData node authenticationResult)
          (base64UrlToBuffer node authenticationResult.signature)
        if !verified then refused "Signature verification failed"
        else pure {verified := true,credentialId := some credential.credentialId,newCounter := some newCounter}

-- What an assertion that verifies has passed, and that none verifies by the
-- signature check of the package.
variable {node : Node} {verifySignature : SignatureCheck} {challenge origin rpId : String}
  {request : AuthenticationResult} {credential : WebAuthnCredential}

def authDataOf (node : Node) (request : AuthenticationResult) : AuthenticatorData :=
  parseAuthenticatorData (base64UrlToBuffer node request.authenticatorData)

def presented (node : Node) (request : AuthenticationResult) : Except String Nat :=
  readUInt32BE (authDataOf node request).signCount

def signs (node : Node) (verifySignature : SignatureCheck) (request : AuthenticationResult) (publicKey : String) :
    Except String Bool :=
  verifySignature (Numeric.bytesOfHex publicKey.toList) (signedData node request) (base64UrlToBuffer node request.signature)

-- The client data name the ceremony.
def Fits (node : Node) (type challenge origin clientDataJSON : String) : Prop :=
  ∃ clientData, node.parse (node.utf8 (node.base64 clientDataJSON)) = .ok clientData ∧
    property "type" clientData = .ok (some (.string type)) ∧
    property "challenge" clientData = .ok (some (.string challenge)) ∧
    property "origin" clientData = .ok (some (.string origin))

structure Asserted (node : Node) (verifySignature : SignatureCheck) (challenge origin rpId : String)
    (request : AuthenticationResult) (credential : WebAuthnCredential) (newCounter : Nat) : Prop where
  fits : Fits node "webauthn.get" challenge origin request.clientDataJSON
  rpIdHash : (authDataOf node request).rpIdHash = node.sha256 (utf8Bytes rpId)
  userPresent : flagged (authDataOf node request).flags FLAG_UP = true
  counted : presented node request = .ok newCounter
  increased : credential.counter = 0 ∨ credential.counter < newCounter
  signed : signs node verifySignature request credential.publicKey = .ok true

theorem isText_iff {member : Option Json} : isText text member = true ↔ member = some (.string text) := by
  unfold isText
  split
  · rename_i value
    simp
  · rename_i other
    simp only [Bool.false_eq_true,false_iff]
    exact other text

theorem misfit_none {clientData : Json} : misfit type challenge origin clientData = .ok none ↔
    property "type" clientData = .ok (some (.string type)) ∧
      property "challenge" clientData = .ok (some (.string challenge)) ∧
      property "origin" clientData = .ok (some (.string origin)) := by
  have member : ∀ {name text} {next : Except String (Option String)} {reason : String},
      (property name clientData >>= fun value => if !isText text value then pure (some reason) else next) = .ok none ↔
        property name clientData = .ok (some (.string text)) ∧ next = .ok none := by
    intro name text next reason
    rw [bind_ok]
    constructor
    · intro both
      obtain ⟨value,found,rest⟩ := both
      split at rest
      · cases rest
      · rename_i fits
        simp only [Bool.not_eq_true',Bool.not_eq_false] at fits
        rw [isText_iff.mp fits] at found
        exact ⟨found,rest⟩
    · intro both
      obtain ⟨found,rest⟩ := both
      refine ⟨_,found,?_⟩
      rw [isText_iff.mpr rfl]
      exact rest
  unfold misfit
  rw [member,member,member]
  simp [pure,Except.pure]

theorem verified_iff {result : WebAuthnVerificationResult} :
    verifyAuthenticationResponse node verifySignature challenge origin rpId request credential = .ok result ∧
        result.verified = true ↔
      ∃ newCounter, Asserted node verifySignature challenge origin rpId request credential newCounter ∧
        result = {verified := true,credentialId := some credential.credentialId,newCounter := some newCounter} := by
  constructor
  · intro both
    obtain ⟨verified,passed⟩ := both
    unfold verifyAuthenticationResponse at verified
    obtain ⟨clientData,parsed,fitted⟩ := bind_ok.mp verified
    obtain ⟨mismatch,compared,checked⟩ := bind_ok.mp fitted
    cases mismatch with
    | some error =>
      cases checked
      cases passed
    | none =>
      dsimp only at checked
      split at checked
      · cases checked
        cases passed
      rename_i hashed
      split at checked
      · cases checked
        cases passed
      rename_i present
      obtain ⟨read,counted,compared'⟩ := bind_ok.mp checked
      split at compared'
      · cases compared'
        cases passed
      rename_i increased
      obtain ⟨signed,signature,final⟩ := bind_ok.mp compared'
      split at final
      · cases final
        cases passed
      rename_i genuine
      cases final
      refine ⟨read,⟨⟨clientData,parsed,misfit_none.mp compared⟩,?_,?_,counted,?_,?_⟩,rfl⟩
      · exact Decidable.of_not_not hashed
      · simpa [authDataOf] using present
      · omega
      · simp only [Bool.not_eq_true',Bool.not_eq_false] at genuine
        rw [genuine] at signature
        exact signature
  · intro both
    obtain ⟨newCounter,⟨⟨clientData,parsed,fits⟩,hashed,present,counted,increased,signed⟩,rfl⟩ := both
    refine ⟨?_,rfl⟩
    unfold verifyAuthenticationResponse
    refine bind_ok.mpr ⟨clientData,parsed,bind_ok.mpr ⟨none,misfit_none.mpr fits,?_⟩⟩
    unfold authDataOf at hashed present
    unfold presented authDataOf at counted
    unfold signs at signed
    have fewer : ¬ (credential.counter ≠ 0 ∧ newCounter ≤ credential.counter) := by omega
    simp [hashed,present,counted,signed,bind,Except.bind,pure,Except.pure,fewer]

theorem verifyCOSESignature_never (node : Node) (publicKeyBuf data signature : Buffer) :
    verifyCOSESignature node publicKeyBuf data signature ≠ .ok true := by
  intro signed
  unfold verifyCOSESignature at signed
  obtain ⟨decoded,read,answer⟩ := bind_ok.mp signed
  have missing := decodeMap_nonnegative read
  have x : decoded.value.get? (some (-2)) = none := missing 1
  have n : decoded.value.get? (some (-1)) = none := missing 0
  dsimp only at answer
  split at answer
  · rw [x,n] at answer
    split at answer
    · cases answer
    · split at answer
      · cases answer
      · cases answer
  · cases answer

theorem never_asserted (asserted : Asserted node (verifyCOSESignature node) challenge origin rpId request credential newCounter) :
    False := verifyCOSESignature_never node _ _ _ asserted.signed

end Pezhwan.WebAuthn
