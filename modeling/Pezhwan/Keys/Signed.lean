import Pezhwan.Keys.Tokens

-- A signed token verifies with its key.
namespace Pezhwan.Keys
open Atomic
variable {crypto : Crypto} {scheme : Scheme crypto}

-- The ML-DSA legs of the key, if it has such, belong together.
def Paired (scheme : Scheme crypto) (key : SigningKey) : Prop :=
  ∀ algorithm, Crypto.pqVariant? key.algorithm = some algorithm → ∀ pub priv, key.pqPublicKey = some pub →
    key.pqPrivateKey = some priv → scheme.pqKey pub = scheme.pqPublicOf algorithm priv

-- The lifecycle of a key aside.
structure SameKey (key key' : SigningKey) : Prop where
  kid : key'.kid = key.kid
  algorithm : key'.algorithm = key.algorithm
  material : key'.toSigningKeyMaterial = key.toSigningKeyMaterial
  expiresAt : key'.expiresAt = key.expiresAt

theorem SameKey.refl (key : SigningKey) : SameKey key key := ⟨rfl,rfl,rfl,rfl⟩

theorem SameKey.marked (same : SameKey key key') (mark : KeyStore.Mark)
    (kept : ∀ key, (mark.change key).expiresAt = key.expiresAt) : SameKey key (mark.change key') :=
  ⟨(mark.kid key').trans same.kid,(mark.algorithm key').trans same.algorithm,(mark.material key').trans same.material,
    (kept key').trans same.expiresAt⟩

theorem verifyToken_same (same : SameKey key key') (token : Token) (nowSec : Int) (options : VerifyOptions) :
    verifyToken scheme token key' nowSec options = verifyToken scheme token key nowSec options := by
  have pub : key'.publicKey = key.publicKey := congrArg SigningKeyMaterial.publicKey same.material
  have pqPub : key'.pqPublicKey = key.pqPublicKey := congrArg SigningKeyMaterial.pqPublicKey same.material
  unfold verifyToken
  rw [same.algorithm,same.kid,pub,pqPub]

theorem bind_some {x : Except VerifyError α} {f : α → Except VerifyError β} (told : (x >>= f) = .ok value) :
    ∃ a, x = .ok a ∧ f a = .ok value := by
  cases x with
  | ok a => exact ⟨a,rfl,told⟩
  | error e => cases told

theorem bind_unit {x : Except VerifyError Unit} {f : Unit → Except VerifyError α} (told : (x >>= f) = .ok value) :
    f () = .ok value := (bind_some told).choose_spec.2

theorem verifyToken_claims (verified : verifyToken scheme token key nowSec options = .ok claims) : claims = token.claims := by
  unfold verifyToken at verified
  split at verified
  · cases bind_unit (bind_unit (bind_unit verified))
    rfl
  case h_6 => cases verified
  all_goals
    cases bind_unit (bind_unit (bind_unit (bind_unit verified)))
    rfl

theorem signed_header (signed : signToken scheme key claims = .ok token) :
    token.header.kid = some key.kid ∧ token.claims = claims := by
  unfold signToken at signed
  split at signed
  · cases legged : leg key.pqPrivateKey with
    | error e => rw [legged] at signed; cases signed
    | ok priv => rw [legged] at signed; cases signed; exact ⟨rfl,rfl⟩
  · rename_i algorithm _
    cases legged : leg key.privateKey with
    | error e => rw [legged] at signed; cases signed
    | ok priv =>
      rw [legged] at signed
      simp only [bind,Except.bind] at signed
      split at signed
      · cases signed
      · cases signed; exact ⟨rfl,rfl⟩
  · cases legged : leg key.privateKey with
    | error e => rw [legged] at signed; cases signed
    | ok priv =>
      cases legged' : leg key.pqPrivateKey with
      | error e => rw [legged,legged'] at signed; cases signed
      | ok pqPriv =>
        rw [legged,legged'] at signed
        simp only [bind,Except.bind] at signed
        split at signed
        · cases signed
        · cases signed; exact ⟨rfl,rfl⟩

theorem checked_some (known : value = some text) (matching : String → Bool) :
    checked value matching = if matching text then .ok () else .error invalidSignature := by
  simp [checked,known]

theorem pure_token (kind : key.algorithm = .pure algorithm) (known : key.pqPrivateKey = some priv)
    (signed : signToken scheme key claims = .ok token) :
    token = ⟨⟨.pure algorithm,some key.kid,none⟩,claims,[scheme.pqSign algorithm priv ⟨.pure algorithm,some key.kid,none⟩ claims]⟩ := by
  unfold signToken at signed
  simp only [kind,known,leg] at signed
  cases signed
  rfl

theorem classical_token (kind : key.algorithm = .classical algorithm) (known : key.privateKey = some priv)
    (signed : signToken scheme key claims = .ok token) : ∃ signature,
    scheme.sign algorithm priv ⟨.classical algorithm,some key.kid,none⟩ claims = .ok signature ∧
      token = ⟨⟨.classical algorithm,some key.kid,none⟩,claims,[signature]⟩ := by
  unfold signToken at signed
  simp only [kind,known,leg,bind,Except.bind] at signed
  split at signed
  · cases signed
  · rename_i signature made
    cases signed
    exact ⟨signature,made,rfl⟩

theorem hybrid_token (hybrid : isHybrid key.algorithm = true) (known : key.privateKey = some priv)
    (known' : key.pqPrivateKey = some pqPriv) (signed : signToken scheme key claims = .ok token) : ∃ signature header,
    header = ⟨key.algorithm,some key.kid,some (key.kid ++ "-pqc")⟩ ∧
    scheme.sign (classicalAlgorithmOf key.algorithm) priv header claims = .ok signature ∧
      token = ⟨header,claims,[signature,scheme.pqSign .MLDSA65 pqPriv header claims]⟩ := by
  unfold signToken at signed
  split at signed
  · rename_i kind
    rw [kind] at hybrid
    cases hybrid
  · rename_i kind
    rw [kind] at hybrid
    cases hybrid
  · simp only [known,known',leg,bind,Except.bind] at signed
    split at signed
    · cases signed
    · rename_i signature made
      cases signed
      exact ⟨signature,_,rfl,made,rfl⟩

theorem verifies_all {x : Except VerifyError Unit} {y : Except VerifyError Unit} {claims : TokenClaims} (first : x = .ok ())
    (second : y = .ok ()) : (do x; y; .ok claims : Except VerifyError TokenClaims) = .ok claims := by
  rw [first,second]
  rfl

theorem hybrid_verified (hybrid : isHybrid key.algorithm = true) (header : token.header.alg = key.algorithm)
    (pqcKid : token.header.pqcKid = some (key.kid ++ "-pqc")) (segments : token.signatures = [classical,pq]) (nowSec : Int)
    (options : VerifyOptions) : verifyToken scheme token key nowSec options = (do
      checked key.publicKey fun pub => scheme.verify (classicalAlgorithmOf key.algorithm) pub token.header token.claims classical
      checked key.pqPublicKey fun pub => scheme.pqVerify .MLDSA65 pub token.header token.claims pq
      assertJwtClaims nowSec token.claims options
      .ok token.claims) := by
  unfold verifyToken
  cases kind : key.algorithm with
  | classical => rw [kind] at hybrid; cases hybrid
  | pure => rw [kind] at hybrid; cases hybrid
  | hybridRS256 | hybridES256 =>
    rw [kind] at header
    simp only [segments,refuse,header,pqcKid,ne_eq,not_true,or_self,if_false]
    rfl

theorem paired_iff (variant : Crypto.pqVariant? key.algorithm = some algorithm) (known : key.pqPublicKey = some pub)
    (known' : key.pqPrivateKey = some priv) : Paired scheme key ↔ scheme.pqKey pub = scheme.pqPublicOf algorithm priv := by
  constructor
  · exact fun paired => paired algorithm variant pub priv known known'
  · intro same algorithm' variant' pub' priv' own own'
    rw [variant] at variant'
    rw [known] at own
    rw [known'] at own'
    cases variant'; cases own; cases own'
    exact same

theorem verify_hybrid (valid : crypto.Valid key.algorithm key.toSigningKeyMaterial) (hybrid : isHybrid key.algorithm = true)
    (signed : signToken scheme key claims = .ok token) (nowSec : Int) (options : VerifyOptions) :
    (Paired scheme key → assertJwtClaims nowSec claims options = .ok () →
      verifyToken scheme token key nowSec options = .ok claims) ∧
    (¬ Paired scheme key → ∃ e, verifyToken scheme token key nowSec options = .error e) := by
  have impure : isPurePq key.algorithm = false ∧ Crypto.pqVariant? key.algorithm = some .MLDSA65 := by
    cases kind : key.algorithm <;> rw [kind] at hybrid <;> cases hybrid <;> exact ⟨rfl,rfl⟩
  obtain ⟨pub,priv,spki,known,known',made,derived⟩ := Crypto.valid_pem valid impure.1
  obtain ⟨pqPub,pqPriv,found,found'⟩ := Crypto.valid_pq valid impure.2
  obtain ⟨signature,header,shape,signs,rfl⟩ := hybrid_token hybrid known' found' signed
  have matching := scheme.pqVerifies .MLDSA65 pqPub pqPriv header claims
  rw [paired_iff impure.2 found found',hybrid_verified hybrid (by rw [shape]) (by rw [shape]) rfl]
  simp only [checked_some known,checked_some found,scheme.verifies made derived signs,if_true]
  constructor
  · intro paired timely
    rw [matching.mpr paired,timely]
    rfl
  · intro unpaired
    rw [Bool.eq_false_iff.mpr fun verified => unpaired (matching.mp verified)]
    exact ⟨_,rfl⟩

theorem verify_signed (valid : crypto.Valid key.algorithm key.toSigningKeyMaterial) (signed : signToken scheme key claims = .ok token)
    (nowSec : Int) (options : VerifyOptions) :
    (Paired scheme key → assertJwtClaims nowSec claims options = .ok () → libraryClaims nowSec claims options = .ok () →
      verifyToken scheme token key nowSec options = .ok claims) ∧
    (¬ Paired scheme key → ∃ e, verifyToken scheme token key nowSec options = .error e) := by
  cases kind : key.algorithm with
  | pure algorithm =>
    have variant : Crypto.pqVariant? key.algorithm = some algorithm := by rw [kind]; rfl
    obtain ⟨pub,priv,known,known'⟩ := Crypto.valid_pq valid variant
    obtain rfl := pure_token kind known' signed
    have matching := scheme.pqVerifies algorithm pub priv ⟨.pure algorithm,some key.kid,none⟩ claims
    rw [paired_iff variant known known']
    unfold verifyToken
    simp only [kind,refuse,ne_eq,not_true,if_false,checked_some known]
    constructor
    · intro paired timely _
      rw [matching.mpr paired,timely]
      rfl
    · intro unpaired
      rw [Bool.eq_false_iff.mpr fun verified => unpaired (matching.mp verified)]
      exact ⟨_,rfl⟩
  | classical algorithm =>
    obtain ⟨pub,priv,spki,known,known',made,derived⟩ := Crypto.valid_pem valid (by rw [kind]; rfl)
    obtain ⟨signature,signs,rfl⟩ := classical_token kind known' signed
    have verified := scheme.verifies made derived signs
    have nonempty := scheme.signed_nonempty signs
    constructor
    · intro _ timely timely'
      unfold verifyToken
      cases algorithm with
      | EdDSA =>
        simp only [kind,refuse,nonempty,ne_eq,not_true,if_false,checked_some known,verified,if_true]
        exact verifies_all rfl timely
      | RS256 | ES256 | HS256 =>
        simp only [kind,refuse,nonempty,ne_eq,not_true,if_false,checked_some known,verified,if_true]
        exact verifies_all rfl timely'
    · intro unpaired
      refine absurd ?_ unpaired
      intro algorithm' variant
      rw [kind] at variant
      cases variant
  | hybridRS256 | hybridES256 =>
    obtain ⟨verifies,fails⟩ := verify_hybrid valid (by rw [kind]; rfl) signed nowSec options
    exact ⟨fun paired timely _ => verifies paired timely,fails⟩

end Pezhwan.Keys
