import Pezhwan.WebAuthn.Ceremony
import Pezhwan.Numeric.Base64
import Pezhwan.Numeric.Der

-- The keys of a credential: what a registration stores, what is read out of a COSE
-- key, and the encoding of the RSA key that is handed to Node.
namespace Pezhwan.WebAuthn
open Numeric

section
variable (node : Node) (registrationResult : RegistrationResult)

-- What is to be stored is in the attested data: the id and the key of the credential.
def StoresAttested (result : WebAuthnVerificationResult) : Prop :=
  ∃ parsed attested, parseAttestationObject node (base64UrlToBuffer node registrationResult.attestationObject) = .ok parsed ∧
    flagged parsed.flags FLAG_AT = true ∧ parsed.attestedCredentialData = some attested ∧
    result.credentialId = some (bufferToBase64Url attested.credentialId) ∧ attested.credentialPublicKey ≠ [] ∧
    result.credentialPublicKey = some (String.ofList (hexOfBytes attested.credentialPublicKey))

-- The authenticator data that a response carries.
def Carries (authData : Buffer) : Prop :=
  ∃ decoded, cborDecodeMap (base64UrlToBuffer node registrationResult.attestationObject) (some 0) = .ok decoded ∧
    decoded.value.get? (some 3) = some authData

-- The flag is set, there are bytes behind the credential id, and the client names the
-- credential by these.
def Presents (authData : Buffer) : Prop :=
  flagged (byteAt authData (some 32)) FLAG_AT = true ∧ 55 + twoBytes authData (some 53) < authData.length ∧
    registrationResult.id = bufferToBase64Url ((authData.drop 55).take (twoBytes authData (some 53)))

theorem parseAuthenticatorData_attested (flag : flagged (byteAt authData (some 32)) FLAG_AT = true) :
    (parseAuthenticatorData authData).attestedCredentialData =
      some ⟨subarray authData (some 37) (some 53),(authData.drop 55).take (twoBytes authData (some 53)),
        authData.drop (55 + twoBytes authData (some 53))⟩ := by
  unfold parseAuthenticatorData
  simp only [flag,if_true,subarray,Option.getD_some,List.drop_take,Nat.add_sub_cancel_left]

theorem verified_parts (answered : verifyRegistrationResponse node challenge origin rpId registrationResult = .ok result)
    (verified : result.verified = true) :
    ∃ parsed, parseAttestationObject node (base64UrlToBuffer node registrationResult.attestationObject) = .ok parsed ∧
      result.credentialId = some registrationResult.id ∧
      result.credentialPublicKey = some (match parsed.attestedCredentialData with
        | some attested => String.ofList (hexOfBytes attested.credentialPublicKey)
        | none => "") := by
  unfold verifyRegistrationResponse at answered
  obtain ⟨clientData,_,fitted⟩ := bind_ok.mp answered
  obtain ⟨mismatch,_,checked⟩ := bind_ok.mp fitted
  cases mismatch with
  | some error =>
    cases checked
    cases verified
  | none =>
    obtain ⟨attData,parsed,checked⟩ := bind_ok.mp checked
    split at checked
    · cases checked
      cases verified
    split at checked
    · cases checked
      cases verified
    obtain ⟨counter,_,stored⟩ := bind_ok.mp checked
    cases stored
    exact ⟨attData,parsed,rfl,rfl⟩

theorem carried_parts (parsed : parseAttestationObject node (base64UrlToBuffer node registrationResult.attestationObject) = .ok data) :
    (∀ authData, Carries node registrationResult authData → data.toAuthenticatorData = parseAuthenticatorData authData) ∧
      (data.attestedCredentialData ≠ none → ∃ authData, Carries node registrationResult authData) := by
  obtain ⟨decoded,mapped,read⟩ := bind_ok.mp parsed
  cases read
  refine ⟨?_,?_⟩
  · intro authData carried
    obtain ⟨other,again,found⟩ := carried
    rw [mapped] at again
    cases again
    simp only [found]
  · intro attested
    cases shown : decoded.value.get? (some 3) with
    | none =>
      rw [shown] at attested
      exact absurd rfl attested
    | some authData => exact ⟨authData,decoded,mapped,shown⟩

theorem registration_stores_attested_iff
    (answered : verifyRegistrationResponse node challenge origin rpId registrationResult = .ok result)
    (verified : result.verified = true) :
    StoresAttested node registrationResult result ↔
      ∃ authData, Carries node registrationResult authData ∧ Presents registrationResult authData := by
  obtain ⟨parsed,read,id,key⟩ := verified_parts node registrationResult answered verified
  obtain ⟨same,some_⟩ := carried_parts node registrationResult read
  refine ⟨?_,?_⟩
  · intro stored
    obtain ⟨data,attested,again,flag,found,named,nonempty,_⟩ := stored
    rw [read] at again
    cases again
    obtain ⟨authData,carried⟩ := some_ (by rw [found]; exact Option.some_ne_none _)
    rw [same authData carried] at flag found
    rw [parseAuthenticatorData_attested flag] at found
    cases found
    rw [id] at named
    refine ⟨authData,carried,flag,?_,Option.some.inj named⟩
    by_contra short
    exact nonempty (List.drop_eq_nil_iff.mpr (Nat.not_lt.mp short))
  · intro presented
    obtain ⟨authData,carried,flag,longer,named⟩ := presented
    have found := parseAuthenticatorData_attested flag
    rw [← same authData carried] at found
    have flags : parsed.flags = byteAt authData (some 32) := congrArg AuthenticatorData.flags (same authData carried)
    refine ⟨parsed,_,read,by rw [flags]; exact flag,found,by rw [id,named],?_,by rw [key,found]⟩
    intro none
    exact absurd (List.drop_eq_nil_iff.mp none) (Nat.not_le.mpr longer)

def registrationText : String :=
  "\x7b\"type\":\"webauthn.create\",\"challenge\":\"x\",\"origin\":\"https://auth.example.com\"\x7d"

def registrationNode : Node := {sampleNode with
  base64 := fun text => Base64.decode text.toList
  parse := fun text =>
    if text = registrationText then
      .ok (.object [("type",.string "webauthn.create"),("challenge",.string "x"),("origin",.string "https://auth.example.com")])
    else .error "Unexpected token"}

def registrationOf (id attestationObject : String) : RegistrationResult where
  id := id
  attestationObject := attestationObject
  clientDataJSON :=
    "eyJ0eXBlIjoid2ViYXV0aG4uY3JlYXRlIiwiY2hhbGxlbmdlIjoieCIsIm9yaWdpbiI6Imh0dHBzOi8vYXV0aC5leGFtcGxlLmNvbSJ9"
  getTransports := none

-- The key a0 under the id 9.
def attestedRegistration : RegistrationResult :=
  registrationOf "CQ" "ogFkbm9uZQNYOcIEyFT_5fNaO4Ugi9mJxg0cVtVs_ZpuL1jyi5bRfgczQQAAAAcAAAAAAAAAAAAAAAAAAAAAAAEJoA"

-- A response without attested data: the flag is not set.
def sampleRegistration : RegistrationResult :=
  registrationOf "anything" "ogFkbm9uZQNYJcIEyFT_5fNaO4Ugi9mJxg0cVtVs_ZpuL1jyi5bRfgczAQAAAAc"

def verifiedAs (id key : String) : WebAuthnVerificationResult where
  verified := true
  credentialId := some id
  newCounter := some 7
  credentialPublicKey := some key
  attestationFormat := some "none"

theorem registered_of (answered : (verifyRegistrationResponse registrationNode "x" "https://auth.example.com" "auth.example.com"
      registration).toOption = some result) :
    verifyRegistrationResponse registrationNode "x" "https://auth.example.com" "auth.example.com" registration = .ok result := by
  cases shown : verifyRegistrationResponse registrationNode "x" "https://auth.example.com" "auth.example.com" registration with
  | error e =>
    rw [shown] at answered
    cases answered
  | ok other =>
    rw [shown] at answered
    rw [Option.some.inj answered]

end

theorem registration_stores_attested_iff_key :
    (verifiedAs "CQ" "a0").verified = true ∧ (StoresAttested registrationNode attestedRegistration (verifiedAs "CQ" "a0") ↔
      ∃ authData, Carries registrationNode attestedRegistration authData ∧ Presents attestedRegistration authData) :=
  ⟨rfl,registration_stores_attested_iff registrationNode attestedRegistration (registered_of (by decide +kernel)) rfl⟩

theorem registration_unattested :
    ¬∀ node challenge origin rpId registrationResult result,
      verifyRegistrationResponse node challenge origin rpId registrationResult = .ok result → result.verified = true →
        StoresAttested node registrationResult result := by
  intro stores
  obtain ⟨data,attested,_,_,_,_,nonempty,key⟩ := stores _ _ _ _ sampleRegistration (verifiedAs "anything" "")
    (registered_of (by decide +kernel)) rfl
  have spelled : hexOfBytes attested.credentialPublicKey = hexOfBytes [] := String.ofList_injective (Option.some.inj key).symm
  exact nonempty (hexOfBytes_injective spelled)

-- The shortest head of an item below 65536, as a canonical encoder writes it.
def canonicalHead (major : Nat) (argument : Nat) : Buffer :=
  if argument < 24 then [UInt8.ofNat (32 * major + argument)]
  else if argument < 256 then [UInt8.ofNat (32 * major + 24),UInt8.ofNat argument]
  else UInt8.ofNat (32 * major + 25) :: bigEndian 2 argument

inductive CoseItem where
  | int (value : Int)
  | bytes (contents : Buffer)
  deriving DecidableEq, Repr

def CoseItem.canonical : CoseItem → Buffer
  | .int (.ofNat n) => canonicalHead 0 n
  | .int (.negSucc n) => canonicalHead 1 n
  | .bytes contents => canonicalHead 2 contents.length ++ contents

def canonicalMap (entries : List (Int × CoseItem)) : Buffer :=
  canonicalHead 5 entries.length ++ entries.flatMap fun entry => (CoseItem.int entry.1).canonical ++ entry.2.canonical

-- The two kinds of key that the package supports.
inductive COSEKey where
  | ec2 (x y : Buffer) (x_sized : x.length = 32) (y_sized : y.length = 32)
  | rsa (n e : Buffer) (n_sized : n.length < 65536) (e_sized : e.length < 65536)

namespace COSEKey

def canonical : COSEKey → Buffer
  | ec2 x y _ _ => canonicalMap [(1,.int 2),(3,.int COSEAlgorithm.ES256),(-1,.int 1),(-2,.bytes x),(-3,.bytes y)]
  | rsa n e _ _ => canonicalMap [(1,.int 3),(3,.int COSEAlgorithm.RS256),(-1,.bytes n),(-2,.bytes e)]

def kty : COSEKey → UInt8
  | ec2 .. => 2
  | rsa .. => 3

def alg : COSEKey → Int
  | ec2 .. => COSEAlgorithm.ES256
  | rsa .. => COSEAlgorithm.RS256

-- The two byte strings under their labels.
def first : COSEKey → Int × Buffer
  | ec2 x _ _ _ => (-2,x)
  | rsa n _ _ _ => (-1,n)

def second : COSEKey → Int × Buffer
  | ec2 _ y _ _ => (-3,y)
  | rsa _ e _ _ => (-2,e)

-- What verifyCOSESignature takes from the decoded map is the key.
def ObtainedFrom (key : COSEKey) (map : CborMap) : Prop :=
  (map.get? (some 1)).map (fun kty => bitsAt kty (some 0) &&& 0x1f) = some key.kty ∧
  (map.get? (some 3)).bind algorithmId = some key.alg ∧
  map.get? (some key.first.1) = some key.first.2 ∧ map.get? (some key.second.1) = some key.second.2

def DecodedCorrectly (key : COSEKey) : Prop :=
  ∃ decoded, cborDecodeMap key.canonical (some 0) = .ok decoded ∧ key.ObtainedFrom decoded.value

theorem second_label (key : COSEKey) : ∃ label, key.second.1 = Int.negSucc label := by
  cases key with
  | ec2 => exact ⟨2,rfl⟩
  | rsa => exact ⟨1,rfl⟩

theorem unobtained (key : COSEKey) {buf : Buffer} (read : cborDecodeMap buf offset = .ok decoded) :
    ¬key.ObtainedFrom decoded.value := by
  intro obtained
  obtain ⟨label,negative⟩ := key.second_label
  have found := obtained.2.2.2
  rw [negative,decodeMap_nonnegative read label] at found
  cases found

theorem key_never_decoded (key : COSEKey) : ¬key.DecodedCorrectly := by
  intro correct
  obtain ⟨decoded,read,obtained⟩ := correct
  exact key.unobtained read obtained

def sampleKey : COSEKey := .ec2 (List.replicate 32 7) (List.replicate 32 9) rfl rfl

theorem key_misread :
    (¬∀ key : COSEKey, key.DecodedCorrectly) ∧
      (cborDecodeMap sampleKey.canonical (some 0)).toOption.bind (·.value.get? (some 1)) = some [0x03,0x26] := by
  refine ⟨?_,by decide +kernel⟩
  intro correct
  obtain ⟨decoded,read,obtained⟩ := correct sampleKey
  exact sampleKey.unobtained read obtained

end COSEKey

-- The contents of the integer that is wrapped.
def signed (buf : Buffer) : Buffer := if bitsAt buf (some 0) &&& 0x80 ≠ 0 then 0x00 :: buf else buf

theorem wrapInteger_eq (buf : Buffer) :
    wrapInteger buf = 0x02 :: UInt8.ofNat (signed buf).length :: signed buf := by
  unfold wrapInteger signed
  split <;> rfl

theorem trimLeadingZero_ne (some_ : buf ≠ []) : trimLeadingZero buf ≠ [] := by
  induction buf using trimLeadingZero.induct with
  | case1 second rest ih =>
    rw [trimLeadingZero,if_pos rfl]
    exact ih (List.cons_ne_nil _ _)
  | case2 first second rest nonzero =>
    rw [trimLeadingZero,if_neg nonzero]
    exact List.cons_ne_nil _ _
  | case3 buf short => simpa [trimLeadingZero] using some_

theorem trimLeadingZero_value (buf : Buffer) : numberOfBytes (trimLeadingZero buf) = numberOfBytes buf := by
  induction buf using trimLeadingZero.induct with
  | case1 second rest ih =>
    rw [trimLeadingZero,if_pos rfl,ih,Der.numberOfBytes_cons 0,UInt8.toNat_zero,Nat.zero_mul,Nat.zero_add]
  | case2 first second rest nonzero => rw [trimLeadingZero,if_neg nonzero]
  | case3 buf short => simp [trimLeadingZero]

theorem trimLeadingZero_head (trimmed : trimLeadingZero buf = first :: second :: rest) : first ≠ 0 := by
  induction buf using trimLeadingZero.induct with
  | case1 second rest ih =>
    rw [trimLeadingZero,if_pos rfl] at trimmed
    exact ih trimmed
  | case2 first second rest nonzero =>
    rw [trimLeadingZero,if_neg nonzero] at trimmed
    cases trimmed
    exact nonzero
  | case3 buf short =>
    simp only [trimLeadingZero] at trimmed
    exact (short _ _ _ trimmed).elim

theorem signed_integer (some_ : buf ≠ []) :
    Der.Minimal (signed (trimLeadingZero buf)) ∧ Der.integerOf (signed (trimLeadingZero buf)) = numberOfBytes buf := by
  have nonempty := trimLeadingZero_ne some_
  have value := trimLeadingZero_value buf
  cases trimmed : trimLeadingZero buf with
  | nil => exact absurd trimmed nonempty
  | cons first rest =>
    rw [trimmed] at value
    have top : bitsAt (first :: rest) (some 0) &&& 0x80 ≠ 0 ↔ 128 ≤ first.toNat := high_bit first
    unfold signed
    split
    · rename_i high
      have high := top.mp high
      refine ⟨⟨?_,?_⟩,?_⟩
      · intro low
        exact absurd (UInt8.lt_iff_toNat_lt.mp low.2) (Nat.not_lt.mpr high)
      · intro ones
        exact absurd ones.1 (by decide)
      · rw [← value,Der.integerOf,if_pos (by decide),Der.numberOfBytes_cons 0,UInt8.toNat_zero,Nat.zero_mul,Nat.zero_add]
    · rename_i low
      have small : first < 0x80 := UInt8.lt_iff_toNat_lt.mpr (Nat.not_le.mp fun high => low (top.mpr high))
      refine ⟨?_,?_⟩
      · cases rest with
        | nil => trivial
        | cons second rest =>
          refine ⟨?_,?_⟩
          · intro zero
            exact trimLeadingZero_head trimmed zero.1
          · intro ones
            rw [ones.1] at small
            exact absurd small (by decide)
      · rw [Der.integerOf,if_pos small,value]

-- The bytes of the two integers, their heads included.
def keyLength (n e : Buffer) : Nat :=
  (signed (trimLeadingZero n)).length + (signed (trimLeadingZero e)).length + 4

theorem buildRSAPublicKeyDER_eq (n e : Buffer) :
    ∃ payload, payload = wrapInteger (trimLeadingZero n) ++ wrapInteger (trimLeadingZero e) ∧ payload.length = keyLength n e ∧
      buildRSAPublicKeyDER n e = 0x30 :: UInt8.ofNat payload.length :: payload := by
  refine ⟨_,rfl,?_,rfl⟩
  rw [wrapInteger_eq,wrapInteger_eq]
  simp only [List.length_append,List.length_cons,keyLength]
  omega

theorem rsa_key_short (some_n : n ≠ []) (some_e : e ≠ []) (short : keyLength n e < 128) :
    Der.readPair (buildRSAPublicKeyDER n e) = some ((numberOfBytes n : ℤ),(numberOfBytes e : ℤ)) := by
  obtain ⟨payload,spelled,sized,built⟩ := buildRSAPublicKeyDER_eq n e
  obtain ⟨minimal_n,value_n⟩ := signed_integer some_n
  obtain ⟨minimal_e,value_e⟩ := signed_integer some_e
  unfold keyLength at sized short
  have whole := Der.readElement_short 0x30 payload [] (by omega)
  have one := Der.readInteger_short (signed (trimLeadingZero n)) (wrapInteger (trimLeadingZero e)) (by omega) minimal_n
  have two := Der.readInteger_short (signed (trimLeadingZero e)) [] (by omega) minimal_e
  rw [List.append_nil] at whole two
  rw [wrapInteger_eq (trimLeadingZero n)] at spelled
  rw [List.cons_append,List.cons_append] at spelled
  rw [← wrapInteger_eq] at two
  unfold Der.readPair
  rw [built,whole,Option.bind_some,spelled,one,Option.bind_some,two,Option.bind_some,value_n,value_e]
  rfl

theorem rsa_key_long (some_n : n ≠ []) (some_e : e ≠ []) (long : 128 ≤ keyLength n e) :
    Der.readPair (buildRSAPublicKeyDER n e) ≠ some ((numberOfBytes n : ℤ),(numberOfBytes e : ℤ)) := by
  intro read
  obtain ⟨payload,_,sized,built⟩ := buildRSAPublicKeyDER_eq n e
  obtain ⟨minimal_n,value_n⟩ := signed_integer some_n
  obtain ⟨minimal_e,value_e⟩ := signed_integer some_e
  rw [built] at read
  obtain ⟨sequence,whole,read⟩ := Option.bind_eq_some_iff.mp read
  obtain ⟨one,first,read⟩ := Option.bind_eq_some_iff.mp read
  obtain ⟨two,second,read⟩ := Option.bind_eq_some_iff.mp read
  split at read
  · rename_i nothing
    obtain ⟨same_n,same_e⟩ := Prod.mk.inj (Option.some.inj read)
    obtain ⟨contents_n,fewest_n,number_n,size_n⟩ := Der.readInteger_parts first
    obtain ⟨contents_e,fewest_e,number_e,size_e⟩ := Der.readInteger_parts second
    have enough_n : (signed (trimLeadingZero n)).length ≤ contents_n.length :=
      Der.minimal_length minimal_n fewest_n (by omega) (by omega)
    have enough_e : (signed (trimLeadingZero e)).length ≤ contents_e.length :=
      Der.minimal_length minimal_e fewest_e (by omega) (by omega)
    have fits : payload.length < 128 ∨ sequence.1.length < payload.length := by
      apply Der.readElement_whole
      rw [whole,← nothing.2]
    unfold keyLength at sized long
    omega
  · cases read

theorem rsa_key_reads_iff (some_n : n ≠ []) (some_e : e ≠ []) :
    Der.readPair (buildRSAPublicKeyDER n e) = some ((numberOfBytes n : ℤ),(numberOfBytes e : ℤ)) ↔ keyLength n e < 128 := by
  refine ⟨?_,rsa_key_short some_n some_e⟩
  intro read
  by_contra long
  exact rsa_key_long some_n some_e (Nat.not_lt.mp long) read

theorem rsa_key_reads_small :
    Der.readPair (buildRSAPublicKeyDER [0x00,0xc1] [0x01,0x00,0x01]) = some (193,65537) :=
  (rsa_key_reads_iff (by decide) (by decide)).mpr (by decide)

theorem rsa_key_unreadable :
    ¬∀ n e : Buffer, n ≠ [] → e ≠ [] →
      Der.readPair (buildRSAPublicKeyDER n e) = some ((numberOfBytes n : ℤ),(numberOfBytes e : ℤ)) := by
  intro reads
  exact rsa_key_long (n := List.replicate 256 0xff) (e := [0x01,0x00,0x01]) (by decide) (by decide) (by decide +kernel)
    (reads _ _ (by decide) (by decide))

end Pezhwan.WebAuthn
