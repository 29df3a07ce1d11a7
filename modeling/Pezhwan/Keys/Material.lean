import Pezhwan.Atomic.Dict

-- Signing keys and their material.
namespace Pezhwan.Keys
open Atomic

inductive JwtAlgorithm where
  | RS256
  | ES256
  | EdDSA
  | HS256
  deriving DecidableEq

inductive PqAlgorithm where
  | MLDSA65
  | MLDSA87
  deriving DecidableEq

inductive JwtSigningAlgorithm where
  | classical (algorithm : JwtAlgorithm)
  | pure (algorithm : PqAlgorithm)
  | hybridRS256
  | hybridES256
  deriving DecidableEq

def isHybrid : JwtSigningAlgorithm → Bool
  | .hybridRS256 => true
  | .hybridES256 => true
  | _ => false

def isPurePq : JwtSigningAlgorithm → Bool
  | .pure _ => true
  | _ => false

-- The classical leg of a hybrid algorithm, a classical algorithm itself.
def classicalAlgorithmOf : JwtSigningAlgorithm → JwtAlgorithm
  | .classical algorithm => algorithm
  | .hybridES256 => .ES256
  | _ => .RS256

structure DilithiumParams where
  publicKeyBytes : Nat
  privateKeyBytes : Nat

def dlParamsFor : PqAlgorithm → DilithiumParams
  | .MLDSA87 => ⟨2592,4896⟩
  | .MLDSA65 => ⟨1952,4032⟩

inductive KeyStatus where
  | GENERATED
  | STAGED
  | ACTIVE
  | VERIFY_ONLY
  | RETIRED
  | REVOKED
  deriving DecidableEq

structure SigningKeyMaterial where
  publicKey : Option String
  privateKey : Option String
  pqPublicKey : Option String
  pqPrivateKey : Option String
  deriving DecidableEq

structure SigningKey extends SigningKeyMaterial where
  kid : String
  algorithm : JwtSigningAlgorithm
  createdAt : Int
  status : KeyStatus
  activatedAt : Option Int
  retiredAt : Option Int
  revokedAt : Option Int
  expiresAt : Int
  deriving DecidableEq

-- A key as it comes from outside: any of its fields may be missing.
structure RestoredKey extends SigningKeyMaterial where
  kid : Option String
  algorithm : Option JwtSigningAlgorithm
  createdAt : Option Int
  status : Option KeyStatus
  activatedAt : Option Int
  retiredAt : Option Int
  revokedAt : Option Int
  expiresAt : Option Int
  deriving DecidableEq

def SigningKey.stored (key : SigningKey) : RestoredKey where
  toSigningKeyMaterial := key.toSigningKeyMaterial
  kid := some key.kid
  algorithm := some key.algorithm
  createdAt := some key.createdAt
  status := some key.status
  activatedAt := key.activatedAt
  retiredAt := key.retiredAt
  revokedAt := key.revokedAt
  expiresAt := some key.expiresAt

-- The public parts of a key that node:crypto exports as a JWK.
structure Exported where
  kty : Option String
  n : Option String
  e : Option String
  crv : Option String
  x : Option String
  y : Option String

-- node:crypto and the ML-DSA library: keys are PEM or base64url texts, a public
-- key is known by its SPKI bytes, a private key by those of its public half.
structure Crypto where
  generateKeyPair : JwtAlgorithm → Nat → String × String
  keygen : PqAlgorithm → Nat → String × String
  createPublicKey : String → Except String String
  createPrivateKey : String → Except String String
  exportJwk : String → Except String Exported
  decodedLength : String → Nat
  generated_nonempty : ∀ algorithm seed, (generateKeyPair algorithm seed).1 ≠ "" ∧ (generateKeyPair algorithm seed).2 ≠ ""
  generated_matches : ∀ algorithm seed, ∃ spki, createPublicKey (generateKeyPair algorithm seed).1 = .ok spki ∧
    createPrivateKey (generateKeyPair algorithm seed).2 = .ok spki
  keygen_nonempty : ∀ algorithm seed, (keygen algorithm seed).1 ≠ "" ∧ (keygen algorithm seed).2 ≠ ""
  keygen_lengths : ∀ algorithm seed, decodedLength (keygen algorithm seed).1 = (dlParamsFor algorithm).publicKeyBytes ∧
    decodedLength (keygen algorithm seed).2 = (dlParamsFor algorithm).privateKeyBytes

-- An empty text counts as missing.
def present (value : Option String) : Option String := value.filter (· ≠ "")

@[simp] theorem present_some (nonempty : text ≠ "") : present (some text) = some text := by
  simp [present,nonempty]

namespace Crypto
variable (crypto : Crypto)

def generateKeyPairForAlgorithm (algorithm : JwtAlgorithm) (seed : Nat) : Except String SigningKeyMaterial :=
  match algorithm with
  | .HS256 => .error "JWT algorithm HS256 is symmetric and cannot back a public JWKS signing key"
  | _ => let pair := crypto.generateKeyPair algorithm seed
    .ok ⟨some pair.1,some pair.2,none,none⟩

def generateSigningKeyPair (algorithm : JwtSigningAlgorithm) (seed : Nat) : Except String SigningKeyMaterial :=
  match algorithm with
  | .pure variant => let pair := crypto.keygen variant seed
    .ok ⟨none,none,some pair.1,some pair.2⟩
  | .classical algorithm => crypto.generateKeyPairForAlgorithm algorithm seed
  | hybrid => do
    let classical ← crypto.generateKeyPairForAlgorithm (classicalAlgorithmOf hybrid) seed
    let pair := crypto.keygen .MLDSA65 seed
    .ok {classical with pqPublicKey := some pair.1,pqPrivateKey := some pair.2}

def validatePqLeg (value : Option String) (expectedBytes : Nat) (label : String) : Except String Unit :=
  match present value with
  | none => .error s!"Missing {label} for PQ/hybrid signing key"
  | some text =>
    let length := crypto.decodedLength text
    if length ≠ expectedBytes then
      .error s!"Invalid {label} length for PQ signing key: expected {expectedBytes}, got {length}"
    else .ok ()

def validatePemLegs (material : SigningKeyMaterial) : Except String Unit :=
  match present material.publicKey,present material.privateKey with
  | some publicKey,some privateKey => do
    let spki ← crypto.createPublicKey publicKey
    let derived ← crypto.createPrivateKey privateKey
    if derived ≠ spki then .error "public/private key material do not match" else .ok ()
  | _,_ => .error "Missing PEM key material"

-- The checks of a restored key's material.
def validateMaterial (algorithm : JwtSigningAlgorithm) (material : SigningKeyMaterial) : Except String Unit :=
  match algorithm with
  | .pure variant => do
    let params := dlParamsFor variant
    crypto.validatePqLeg material.pqPublicKey params.publicKeyBytes "public key"
    crypto.validatePqLeg material.pqPrivateKey params.privateKeyBytes "private key"
  | algorithm => do
    crypto.validatePemLegs material
    if isHybrid algorithm then
      let params := dlParamsFor .MLDSA65
      crypto.validatePqLeg material.pqPublicKey params.publicKeyBytes "PQ public key"
      crypto.validatePqLeg material.pqPrivateKey params.privateKeyBytes "PQ private key"

def Valid (algorithm : JwtSigningAlgorithm) (material : SigningKeyMaterial) : Prop :=
  crypto.validateMaterial algorithm material = .ok ()

variable {crypto}

theorem validatePqLeg_ok (nonempty : text ≠ "") (length : crypto.decodedLength text = expected) (label : String) :
    crypto.validatePqLeg (some text) expected label = .ok () := by
  simp [validatePqLeg,nonempty,length]

theorem validatePemLegs_generated (algorithm : JwtAlgorithm) (seed : Nat) (pqPublicKey pqPrivateKey : Option String) :
    crypto.validatePemLegs ⟨some (crypto.generateKeyPair algorithm seed).1,some (crypto.generateKeyPair algorithm seed).2,
      pqPublicKey,pqPrivateKey⟩ = .ok () := by
  obtain ⟨spki,own,derived⟩ := crypto.generated_matches algorithm seed
  obtain ⟨filled,filled'⟩ := crypto.generated_nonempty algorithm seed
  simp [validatePemLegs,filled,filled',own,derived,bind,Except.bind]

theorem generatePem_shape (generated : crypto.generateKeyPairForAlgorithm algorithm seed = .ok material) :
    material = ⟨some (crypto.generateKeyPair algorithm seed).1,some (crypto.generateKeyPair algorithm seed).2,none,none⟩ ∧
      algorithm ≠ .HS256 := by
  unfold generateKeyPairForAlgorithm at generated
  split at generated
  · cases generated
  · rename_i asymmetric
    cases generated
    exact ⟨rfl,fun same => asymmetric same⟩

theorem generated_valid (generated : crypto.generateSigningKeyPair algorithm seed = .ok material) :
    crypto.Valid algorithm material := by
  have pq := fun variant => crypto.keygen_nonempty variant seed
  have lengths := fun variant => crypto.keygen_lengths variant seed
  unfold Valid validateMaterial
  cases algorithm with
  | pure variant =>
    cases generated
    simp only [validatePqLeg_ok (pq variant).1 (lengths variant).1,validatePqLeg_ok (pq variant).2 (lengths variant).2]
    rfl
  | classical algorithm =>
    rw [(generatePem_shape generated).1]
    simp only [validatePemLegs_generated]
    rfl
  | hybridRS256 | hybridES256 =>
    cases generated
    simp only [validatePemLegs_generated,validatePqLeg_ok (pq .MLDSA65).1 (lengths .MLDSA65).1,
      validatePqLeg_ok (pq .MLDSA65).2 (lengths .MLDSA65).2]
    rfl

theorem generates (algorithm : JwtSigningAlgorithm) (seed : Nat) :
    (∃ material, crypto.generateSigningKeyPair algorithm seed = .ok material) ↔ algorithm ≠ .classical .HS256 := by
  cases algorithm with
  | classical algorithm => cases algorithm <;> simp [generateSigningKeyPair,generateKeyPairForAlgorithm]
  | pure => simp [generateSigningKeyPair]
  | hybridRS256 => exact ⟨fun _ => nofun,fun _ => ⟨_,rfl⟩⟩
  | hybridES256 => exact ⟨fun _ => nofun,fun _ => ⟨_,rfl⟩⟩

theorem validatePemLegs_legs (passed : crypto.validatePemLegs material = .ok ()) : ∃ publicKey privateKey spki,
    material.publicKey = some publicKey ∧ material.privateKey = some privateKey ∧
      crypto.createPublicKey publicKey = .ok spki ∧ crypto.createPrivateKey privateKey = .ok spki := by
  unfold validatePemLegs at passed
  split at passed
  · rename_i publicKey privateKey found found'
    obtain ⟨known,_⟩ := Option.filter_eq_some_iff.mp found
    obtain ⟨known',_⟩ := Option.filter_eq_some_iff.mp found'
    cases made : crypto.createPublicKey publicKey with
    | error e => rw [made] at passed; cases passed
    | ok spki =>
      cases derived : crypto.createPrivateKey privateKey with
      | error e => rw [made,derived] at passed; cases passed
      | ok spki' =>
        simp only [made,derived,bind,Except.bind] at passed
        split at passed
        · cases passed
        · rename_i equal
          rw [not_not.mp equal] at derived
          exact ⟨publicKey,privateKey,spki,known,known',made,derived⟩
  · cases passed

theorem validatePqLeg_present (passed : crypto.validatePqLeg value expected label = .ok ()) : ∃ text, value = some text := by
  unfold validatePqLeg at passed
  split at passed
  · cases passed
  · rename_i found
    exact ⟨_,(Option.filter_eq_some_iff.mp found).1⟩

-- The ML-DSA variant of a key that has such a leg.
def pqVariant? : JwtSigningAlgorithm → Option PqAlgorithm
  | .classical _ => none
  | .pure algorithm => some algorithm
  | _ => some .MLDSA65

theorem bind_ok {x : Except String Unit} {f : Unit → Except String Unit} (passed : (x >>= f) = .ok ()) :
    x = .ok () ∧ f () = .ok () := by
  cases x with
  | ok => exact ⟨rfl,passed⟩
  | error e => cases passed

theorem valid_pem (valid : crypto.Valid algorithm material) (leg : isPurePq algorithm = false) : ∃ publicKey privateKey spki,
    material.publicKey = some publicKey ∧ material.privateKey = some privateKey ∧
      crypto.createPublicKey publicKey = .ok spki ∧ crypto.createPrivateKey privateKey = .ok spki := by
  apply validatePemLegs_legs
  unfold Valid validateMaterial at valid
  cases algorithm with
  | pure => cases leg
  | classical => exact (bind_ok valid).1
  | hybridRS256 => exact (bind_ok valid).1
  | hybridES256 => exact (bind_ok valid).1

theorem valid_pq (valid : crypto.Valid algorithm material) (leg : pqVariant? algorithm = some variant) : ∃ publicKey privateKey,
    material.pqPublicKey = some publicKey ∧ material.pqPrivateKey = some privateKey := by
  unfold Valid validateMaterial at valid
  cases algorithm with
  | classical => cases leg
  | pure =>
    obtain ⟨first,second⟩ := bind_ok valid
    obtain ⟨publicKey,known⟩ := validatePqLeg_present first
    obtain ⟨privateKey,known'⟩ := validatePqLeg_present second
    exact ⟨publicKey,privateKey,known,known'⟩
  | hybridRS256 | hybridES256 =>
    obtain ⟨first,second⟩ := bind_ok (bind_ok valid).2
    obtain ⟨publicKey,known⟩ := validatePqLeg_present first
    obtain ⟨privateKey,known'⟩ := validatePqLeg_present second
    exact ⟨publicKey,privateKey,known,known'⟩

end Crypto

-- Keys that are numbered texts.
def numbered (kind : Char) (seed : Nat) : String := String.ofList (kind :: List.replicate seed '1')

theorem numbered_nonempty (kind : Char) (seed : Nat) : numbered kind seed ≠ "" := by
  intro same
  have texts := congrArg String.toList same
  simp [numbered] at texts

def numberedOf (kind : Char) (text : String) : Except String String :=
  match text.toList with
  | first :: rest => if first = kind then .ok (String.ofList rest) else .error "unsupported"
  | [] => .error "unsupported"

theorem numberedOf_numbered (kind : Char) (seed : Nat) :
    numberedOf kind (numbered kind seed) = .ok (String.ofList (List.replicate seed '1')) := by
  simp [numberedOf,numbered]

def sampleCrypto : Crypto where
  generateKeyPair _ seed := (numbered 'p' seed,numbered 'k' seed)
  keygen
    | .MLDSA65,seed => (numbered 'a' seed,numbered 'b' seed)
    | .MLDSA87,seed => (numbered 'c' seed,numbered 'd' seed)
  createPublicKey := numberedOf 'p'
  createPrivateKey := numberedOf 'k'
  exportJwk spki := .ok ⟨some "RSA",some spki,some "AQAB",none,none,none⟩
  decodedLength text := match text.toList.head? with
    | some 'a' => 1952
    | some 'b' => 4032
    | some 'c' => 2592
    | some 'd' => 4896
    | _ => 0
  generated_nonempty _ seed := ⟨numbered_nonempty 'p' seed,numbered_nonempty 'k' seed⟩
  generated_matches _ seed := ⟨_,numberedOf_numbered 'p' seed,numberedOf_numbered 'k' seed⟩
  keygen_nonempty algorithm seed := by cases algorithm <;> exact ⟨numbered_nonempty _ seed,numbered_nonempty _ seed⟩
  keygen_lengths algorithm seed := by cases algorithm <;> simp [numbered,dlParamsFor]

end Pezhwan.Keys
