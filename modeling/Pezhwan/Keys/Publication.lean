import Mathlib.Data.List.Pairwise
import Pezhwan.Keys.Store

-- What is published, and what verifies.
namespace Pezhwan.Keys
open Atomic

structure JwkJson where
  kty : String
  kid : String
  n : Option String
  e : Option String
  crv : Option String
  x : Option String
  y : Option String
  alg : JwtSigningAlgorithm
  keyOps : Option (List String)
  deriving DecidableEq

variable {crypto : Crypto}

def publicKeyToJwk (crypto : Crypto) (publicKeyPem : Option String) (kid : String) (algorithm : JwtAlgorithm) : Except String JwkJson :=
  match publicKeyPem with
  | none => .error "The \"key\" argument must be of type string"
  | some pem => do
    let spki ← crypto.createPublicKey pem
    let jwk ← crypto.exportJwk spki
    let kty := jwk.kty.getD "RSA"
    let blank : JwkJson := ⟨kty,kid,none,none,none,none,none,.classical algorithm,none⟩
    .ok (if kty = "RSA" then {blank with n := jwk.n,e := jwk.e}
      else if kty = "EC" then {blank with crv := jwk.crv,x := jwk.x,y := jwk.y}
      else if kty = "OKP" then {blank with crv := jwk.crv,x := jwk.x}
      else blank)

def PqAlgorithm.name : PqAlgorithm → String
  | .MLDSA65 => "ML-DSA-65"
  | .MLDSA87 => "ML-DSA-87"

def pqPublicKeyToJwk (pqPublicKey : Option String) (kid : String) (algorithm : PqAlgorithm) : JwkJson :=
  ⟨"ML-DSA",kid,none,none,some algorithm.name,pqPublicKey,none,.pure algorithm,some ["verify"]⟩

namespace KeyStore

def pqcKid (kid : String) : String := kid ++ "-pqc"

-- The entries of one key.
def entriesOf (crypto : Crypto) (key : SigningKey) : Except String (List JwkJson) :=
  match key.algorithm with
  | .pure algorithm => .ok [pqPublicKeyToJwk key.pqPublicKey key.kid algorithm]
  | algorithm => do
    let classical ← publicKeyToJwk crypto key.publicKey key.kid (classicalAlgorithmOf algorithm)
    if isHybrid algorithm then .ok [classical,pqPublicKeyToJwk key.pqPublicKey (pqcKid key.kid) .MLDSA65]
    else .ok [classical]

def published (now : Int) (key : SigningKey) : Bool :=
  !decide (key.expiresAt ≤ now) && (key.status = .ACTIVE || key.status = .VERIFY_ONLY)

def jwksOf (crypto : Crypto) (now : Int) : List SigningKey → Except String (List JwkJson)
  | [] => .ok []
  | key :: rest =>
    if published now key then do
      let entries ← entriesOf crypto key
      let more ← jwksOf crypto now rest
      .ok (entries ++ more)
    else jwksOf crypto now rest

def jwks (store : KeyStore crypto) (now : Int) : Except String (List JwkJson) := jwksOf crypto now store.all

-- The kids under which a key is published.
def kidsOf (key : SigningKey) : List String :=
  if isHybrid key.algorithm then [key.kid,pqcKid key.kid] else [key.kid]

theorem published_iff : published now key = true ↔ now < key.expiresAt ∧ (key.status = .ACTIVE ∨ key.status = .VERIFY_ONLY) := by
  simp [published]

-- Node can export the public key; it cannot for every key that it can parse.
def Exports (crypto : Crypto) (key : SigningKey) : Prop :=
  ∃ pem spki jwk, key.publicKey = some pem ∧ crypto.createPublicKey pem = .ok spki ∧ crypto.exportJwk spki = .ok jwk

theorem publicKeyToJwk_ok {algorithm : JwtAlgorithm} (made : publicKeyToJwk crypto publicKey kid algorithm = .ok entry) :
    entry.kid = kid ∧ ∃ pem spki jwk, publicKey = some pem ∧ crypto.createPublicKey pem = .ok spki ∧
      crypto.exportJwk spki = .ok jwk := by
  cases publicKey with
  | none => cases made
  | some pem =>
    cases known : crypto.createPublicKey pem with
    | error e => simp only [publicKeyToJwk,known] at made; cases made
    | ok spki =>
      cases exported : crypto.exportJwk spki with
      | error e => simp only [publicKeyToJwk,known,exported,bind,Except.bind] at made; cases made
      | ok jwk =>
        simp only [publicKeyToJwk,known,exported,bind,Except.bind] at made
        cases made
        refine ⟨?_,pem,spki,jwk,rfl,known,exported⟩
        split
        · rfl
        · split
          · rfl
          · split <;> rfl

theorem publicKeyToJwk_exports (exports : Exports crypto key) (kid : String) (algorithm : JwtAlgorithm) :
    ∃ entry, publicKeyToJwk crypto key.publicKey kid algorithm = .ok entry := by
  obtain ⟨pem,spki,jwk,filled,known,exported⟩ := exports
  exact ⟨_,by simp only [publicKeyToJwk,filled,known,exported,bind,Except.bind]; rfl⟩

theorem entriesOf_ok (made : entriesOf crypto key = .ok entries) :
    entries.map JwkJson.kid = kidsOf key ∧ (isPurePq key.algorithm = false → Exports crypto key) := by
  unfold entriesOf at made
  unfold kidsOf
  cases kind : key.algorithm with
  | pure algorithm =>
    rw [kind] at made
    cases made
    exact ⟨rfl,nofun⟩
  | classical algorithm | hybridRS256 | hybridES256 =>
    simp only [kind] at made
    cases classical : publicKeyToJwk crypto key.publicKey key.kid _ with
    | error e => rw [classical] at made; cases made
    | ok entry =>
      rw [classical] at made
      cases made
      obtain ⟨kid,exports⟩ := publicKeyToJwk_ok classical
      exact ⟨by simp [isHybrid,kid,pqPublicKeyToJwk],fun _ => exports⟩

theorem entriesOf_exports (exports : isPurePq key.algorithm = false → Exports crypto key) :
    ∃ entries, entriesOf crypto key = .ok entries := by
  unfold entriesOf
  cases kind : key.algorithm with
  | pure algorithm => exact ⟨_,rfl⟩
  | classical algorithm | hybridRS256 | hybridES256 =>
    obtain ⟨entry,made⟩ := publicKeyToJwk_exports (exports (by rw [kind]; rfl)) key.kid (classicalAlgorithmOf key.algorithm)
    rw [kind] at made
    exact ⟨_,by simp only [made]; rfl⟩

theorem jwksOf_ok {keys : List SigningKey} (made : jwksOf crypto now keys = .ok entries) :
    entries.map JwkJson.kid = (keys.filter (published now)).flatMap kidsOf ∧
      ∀ key ∈ keys, published now key = true → isPurePq key.algorithm = false → Exports crypto key := by
  induction keys generalizing entries with
  | nil =>
    cases made
    refine ⟨rfl,?_⟩
    intro key listed
    cases listed
  | cons key rest ih =>
    unfold jwksOf at made
    by_cases shown : published now key = true
    · rw [if_pos shown] at made
      cases first : entriesOf crypto key with
      | error e => rw [first] at made; cases made
      | ok own =>
        cases others : jwksOf crypto now rest with
        | error e => rw [first,others] at made; cases made
        | ok more =>
          rw [first,others] at made
          cases made
          obtain ⟨names,exports⟩ := entriesOf_ok first
          obtain ⟨kids,rest_⟩ := ih others
          refine ⟨by rw [List.map_append,names,kids,List.filter_cons_of_pos shown,List.flatMap_cons],?_⟩
          intro other listed
          rcases List.mem_cons.mp listed with rfl | later
          · exact fun _ => exports
          · exact rest_ other later
    · rw [if_neg shown] at made
      obtain ⟨kids,rest_⟩ := ih made
      refine ⟨by rw [List.filter_cons_of_neg shown,kids],?_⟩
      intro other listed shown'
      rcases List.mem_cons.mp listed with rfl | later
      · exact absurd shown' shown
      · exact rest_ other later shown'

theorem jwksOf_exports {keys : List SigningKey}
    (exports : ∀ key ∈ keys, published now key = true → isPurePq key.algorithm = false → Exports crypto key) :
    ∃ entries, jwksOf crypto now keys = .ok entries := by
  induction keys with
  | nil => exact ⟨[],rfl⟩
  | cons key rest ih =>
    obtain ⟨more,made⟩ := ih fun other listed => exports other (List.mem_cons_of_mem _ listed)
    unfold jwksOf
    by_cases shown : published now key = true
    · obtain ⟨entries,own⟩ := entriesOf_exports (exports key List.mem_cons_self shown)
      exact ⟨entries ++ more,by rw [if_pos shown,own,made]; rfl⟩
    · exact ⟨more,by rw [if_neg shown,made]⟩

theorem mem_kidsOf : kid ∈ kidsOf key ↔ kid = key.kid ∨ isHybrid key.algorithm = true ∧ kid = pqcKid key.kid := by
  unfold kidsOf
  split
  · rename_i hybrid
    simp [hybrid]
  · rename_i plain
    simp [plain]

theorem mem_jwks (store : KeyStore crypto) (made : store.jwks now = .ok entries) : kid ∈ entries.map JwkJson.kid ↔
    ∃ key, store.get? key.kid = some key ∧ published now key = true ∧
      (kid = key.kid ∨ isHybrid key.algorithm = true ∧ kid = pqcKid key.kid) := by
  rw [(jwksOf_ok made).1]
  simp only [List.mem_flatMap,List.mem_filter,mem_all,mem_kidsOf]
  exact ⟨fun ⟨key,⟨stored,shown⟩,named⟩ => ⟨key,stored,shown,named⟩,fun ⟨key,stored,shown,named⟩ => ⟨key,⟨stored,shown⟩,named⟩⟩

theorem pqcKid_injective (same : pqcKid kid = pqcKid other) : kid = other := by
  have texts := congrArg String.toList same
  simp only [pqcKid,String.toList_append] at texts
  exact String.toList_inj.mp (List.append_cancel_right texts)

theorem pqcKid_ne (kid : String) : pqcKid kid ≠ kid := by
  intro same
  have lengths := congrArg (fun text => text.toList.length) same
  simp [pqcKid] at lengths

theorem kidsOf_nodup (key : SigningKey) : (kidsOf key).Nodup := by
  unfold kidsOf
  split
  · simp [(pqcKid_ne key.kid).symm]
  · exact List.nodup_singleton _

-- No kid of a published key is derived from one.
def Apart (store : KeyStore crypto) (now : Int) : Prop :=
  ∀ a ∈ store.all, ∀ b ∈ store.all, published now a = true → published now b = true → isHybrid a.algorithm = true → pqcKid a.kid ≠ b.kid

theorem jwks_nodup {store : KeyStore crypto} : ((store.all.filter (published now)).flatMap kidsOf).Nodup ↔ store.Apart now := by
  rw [List.nodup_flatMap]
  constructor
  · rintro ⟨_,disjoint⟩ a one b other shown shown' hybrid same
    have different : a ≠ b := by
      rintro rfl
      exact pqcKid_ne a.kid same
    have symmetric : Std.Symm (Function.onFun List.Disjoint kidsOf) := ⟨fun _ _ apart _ here there => apart there here⟩
    have apart := disjoint.forall (List.mem_filter.mpr ⟨one,shown⟩) (List.mem_filter.mpr ⟨other,shown'⟩) different
    exact apart (mem_kidsOf.mpr (.inr ⟨hybrid,rfl⟩)) (mem_kidsOf.mpr (.inl same))
  · intro apart
    refine ⟨fun key _ => kidsOf_nodup key,?_⟩
    have distinct : (store.all.filter (published now)).Pairwise fun key key' => key.kid ≠ key'.kid :=
      List.pairwise_map.mp (store.all_distinct.sublist (List.filter_sublist.map SigningKey.kid))
    apply distinct.imp_of_mem
    intro key key' one other different kid here there
    obtain ⟨held,shown⟩ := List.mem_filter.mp one
    obtain ⟨held',shown'⟩ := List.mem_filter.mp other
    rcases mem_kidsOf.mp here with own | ⟨hybrid,own⟩
    · rcases mem_kidsOf.mp there with own' | ⟨hybrid',own'⟩
      · exact different (own.symm.trans own')
      · exact apart key' held' key held shown' shown hybrid' (own'.symm.trans own)
    · rcases mem_kidsOf.mp there with own' | ⟨hybrid',own'⟩
      · exact apart key held key' held' shown shown' hybrid (own.symm.trans own')
      · exact different (pqcKid_injective (own.symm.trans own'))

-- What verifies here and what is published are the same kids, each once.
def Agrees (store : KeyStore crypto) (now : Int) : Prop :=
  ∃ entries, store.jwks now = .ok entries ∧ (∀ kid, (store.byKid now kid).isSome = true ↔ kid ∈ entries.map JwkJson.kid) ∧
    (entries.map JwkJson.kid).Nodup

-- A key that verifies and is left out of the list.
def unlisted (now : Int) (key : SigningKey) : Bool :=
  decide (now < key.expiresAt) && (key.status = .GENERATED || key.status = .STAGED || key.status = .RETIRED)

-- Every published key can be exported, and the kids of the keys left out are those
-- that published hybrid keys add.
structure Listable (store : KeyStore crypto) (now : Int) : Prop where
  exports : ∀ key ∈ store.all, published now key = true → isPurePq key.algorithm = false → Exports crypto key
  leftOut : ∀ kid, (∃ key ∈ store.all, unlisted now key = true ∧ kid = key.kid) ↔
    ∃ key ∈ store.all, published now key = true ∧ isHybrid key.algorithm = true ∧ kid = pqcKid key.kid

theorem published_listed (shown : published now key = true) : unlisted now key = false := by
  obtain ⟨_,status⟩ := published_iff.mp shown
  unfold unlisted
  rcases status with active | verifies
  · simp [active]
  · simp [verifies]

theorem byKid_isSome (store : KeyStore crypto) : (store.byKid now kid).isSome = true ↔
    ∃ key ∈ store.all, (published now key = true ∨ unlisted now key = true) ∧ kid = key.kid := by
  have accepts : ∀ key : SigningKey, key.status ≠ .REVOKED ∧ now < key.expiresAt ↔
      published now key = true ∨ unlisted now key = true := by
    intro key
    rw [published_iff,unlisted]
    cases key.status <;> simp
  rw [Option.isSome_iff_exists]
  constructor
  · rintro ⟨key,accepted⟩
    obtain ⟨stored,live⟩ := byKid_some.mp accepted
    have own := store.named kid key stored
    exact ⟨key,mem_all.mpr (own.symm ▸ stored),(accepts key).mp live,own.symm⟩
  · rintro ⟨key,listed,status,rfl⟩
    exact ⟨key,byKid_some.mpr ⟨mem_all.mp listed,(accepts key).mpr status⟩⟩

theorem same_kid {store : KeyStore crypto} (one : key ∈ store.all) (other : key' ∈ store.all) (same : key.kid = key'.kid) :
    key = key' := by
  have stored := mem_all.mp one
  rw [same,mem_all.mp other] at stored
  exact (Option.some.inj stored).symm

theorem jwks_agrees_iff (store : KeyStore crypto) (now : Int) : store.Agrees now ↔ store.Listable now := by
  constructor
  · rintro ⟨entries,made,agree,nodup⟩
    obtain ⟨kids,exports⟩ := jwksOf_ok made
    rw [kids] at nodup
    have apart := jwks_nodup.mp nodup
    refine ⟨exports,fun kid => ⟨?_,?_⟩⟩
    · rintro ⟨key,listed,left,rfl⟩
      obtain ⟨other,stored,shown,own | derived⟩ :=
        (mem_jwks store made).mp ((agree key.kid).mp ((byKid_isSome store).mpr ⟨key,listed,.inr left,rfl⟩))
      · rw [same_kid listed (mem_all.mpr stored) own,published_listed shown] at left
        cases left
      · exact ⟨other,mem_all.mpr stored,shown,derived⟩
    · rintro ⟨key,listed,shown,hybrid,rfl⟩
      obtain ⟨other,held,status | left,same⟩ := (byKid_isSome store).mp
        ((agree (pqcKid key.kid)).mpr ((mem_jwks store made).mpr ⟨key,mem_all.mp listed,shown,.inr ⟨hybrid,rfl⟩⟩))
      · exact absurd same (apart key listed other held shown status hybrid)
      · exact ⟨other,held,left,same⟩
  · rintro ⟨exports,leftOut⟩
    obtain ⟨entries,made⟩ := jwksOf_exports exports
    refine ⟨entries,made,fun kid => ?_,?_⟩
    · rw [byKid_isSome,mem_jwks store made]
      constructor
      · rintro ⟨key,listed,shown | left,rfl⟩
        · exact ⟨key,mem_all.mp listed,shown,.inl rfl⟩
        · obtain ⟨other,held,shown,derived⟩ := (leftOut key.kid).mp ⟨key,listed,left,rfl⟩
          exact ⟨other,mem_all.mp held,shown,.inr derived⟩
      · rintro ⟨key,stored,shown,own | derived⟩
        · exact ⟨key,mem_all.mpr stored,.inl shown,own⟩
        · obtain ⟨other,held,left,same⟩ := (leftOut kid).mpr ⟨key,mem_all.mpr stored,shown,derived⟩
          exact ⟨other,held,.inr left,same⟩
    · rw [(jwksOf_ok made).1,jwks_nodup]
      intro a one b other shown shown' hybrid same
      obtain ⟨key,held,left,own⟩ := (leftOut b.kid).mpr ⟨a,one,shown,hybrid,same.symm⟩
      rw [← same_kid other held own,published_listed shown'] at left
      cases left

end KeyStore

theorem staged_key_unpublished : ¬ ∀ (crypto : Crypto) (key : RestoredKey) (now : Int),
    (KeyStore.addKeyWithMaterial key now (.new (.classical .RS256) : KeyStore crypto)).2.Agrees now := by
  intro agrees
  let key : RestoredKey := ⟨⟨some "p1",some "k1",none,none⟩,some "a",some (.classical .RS256),some 0,some .STAGED,none,none,none,some 10⟩
  let store := (KeyStore.addKeyWithMaterial key 0 (.new (.classical .RS256) : KeyStore sampleCrypto)).2
  have shown : (match store.jwks 0 with
      | .ok entries => entries.isEmpty
      | .error _ => false) = true := by decide +kernel
  have accepted : (store.byKid 0 "a").isSome = true := by decide +kernel
  obtain ⟨entries,made,agree,_⟩ := agrees sampleCrypto key 0
  change store.jwks 0 = _ at made
  rw [made] at shown
  have listed := (agree "a").mp accepted
  rw [List.isEmpty_iff.mp shown] at listed
  cases listed

end Pezhwan.Keys
