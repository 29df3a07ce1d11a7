import Pezhwan.Keys.Material

-- The signing keys in memory.
namespace Pezhwan.Keys
open Atomic

def SigningKey.unexpired (now : Int) (key : SigningKey) : Bool := now < key.expiresAt

def SigningKey.signs (now : Int) (key : SigningKey) : Bool := key.status = .ACTIVE && key.unexpired now

def SigningKey.verifies (now : Int) (key : SigningKey) : Bool := key.status ≠ .REVOKED && key.unexpired now

-- A new identifier, of hexadecimal digits and dashes, and the entropy for new
-- material.
structure Draw where
  uuid : String
  seed : Nat
  nonempty : uuid ≠ ""
  digits : ∀ c ∈ uuid.toList, c.isAlphanum = true ∨ c = '-'

def firstDraw : Draw := ⟨"a",1,by decide,by simp⟩

def secondDraw : Draw := ⟨"b",2,by decide,by simp⟩

-- Every key is under its own kid and has material that was checked.
structure KeyStore (crypto : Crypto) where
  algorithm : JwtSigningAlgorithm
  keys : Dict String SigningKey
  named : ∀ kid key, keys.get? kid = some key → key.kid = kid
  valid : ∀ kid key, keys.get? kid = some key → crypto.Valid key.algorithm key.toSigningKeyMaterial

abbrev Op (crypto : Crypto) (α : Type) := KeyStore crypto → Except String α × KeyStore crypto

def defaultTtlMs : Int := 30 * 24 * 60 * 60 * 1000

namespace KeyStore
variable {crypto : Crypto}

def new (algorithm : JwtSigningAlgorithm) : KeyStore crypto where
  algorithm := algorithm
  keys := .empty
  named := by
    intro kid key stored
    rw [Dict.get?_empty] at stored
    cases stored
  valid := by
    intro kid key stored
    rw [Dict.get?_empty] at stored
    cases stored

def all (store : KeyStore crypto) : List SigningKey := store.keys.values

def get? (store : KeyStore crypto) (kid : String) : Option SigningKey := store.keys.get? kid

def put (store : KeyStore crypto) (key : SigningKey) (valid : crypto.Valid key.algorithm key.toSigningKeyMaterial) :
    KeyStore crypto where
  algorithm := store.algorithm
  keys := store.keys.set key.kid key
  named := by
    intro kid found stored
    rw [Dict.get?_set] at stored
    split at stored
    · rename_i same
      cases stored
      exact same.symm
    · exact store.named kid found stored
  valid := by
    intro kid found stored
    rw [Dict.get?_set] at stored
    split at stored
    · cases stored
      exact valid
    · exact store.valid kid found stored

def retain (store : KeyStore crypto) (keep : SigningKey → Bool) : KeyStore crypto where
  algorithm := store.algorithm
  keys := store.keys.filter fun _ key => keep key
  named := by
    intro kid key stored
    rw [Dict.get?_filter,Option.filter_eq_some_iff] at stored
    exact store.named kid key stored.1
  valid := by
    intro kid key stored
    rw [Dict.get?_filter,Option.filter_eq_some_iff] at stored
    exact store.valid kid key stored.1

-- A change of the lifecycle fields only.
structure Mark where
  change : SigningKey → SigningKey
  kid : ∀ key, (change key).kid = key.kid
  algorithm : ∀ key, (change key).algorithm = key.algorithm
  material : ∀ key, (change key).toSigningKeyMaterial = key.toSigningKeyMaterial

def mark (store : KeyStore crypto) (kid : String) (mark : Mark) : KeyStore crypto where
  algorithm := store.algorithm
  keys := store.keys.modify kid mark.change
  named := by
    intro k key stored
    rw [Dict.get?_modify] at stored
    split at stored
    · obtain ⟨old,found,rfl⟩ := Option.map_eq_some_iff.mp stored
      rw [mark.kid]
      exact store.named k old found
    · exact store.named k key stored
  valid := by
    intro k key stored
    rw [Dict.get?_modify] at stored
    split at stored
    · obtain ⟨old,found,rfl⟩ := Option.map_eq_some_iff.mp stored
      rw [mark.algorithm,mark.material]
      exact store.valid k old found
    · exact store.valid k key stored

def prune (store : KeyStore crypto) (now : Int) : KeyStore crypto := store.retain fun key => !decide (key.expiresAt < now)

def clear (store : KeyStore crypto) : KeyStore crypto := new store.algorithm

def freshKey (algorithm : JwtSigningAlgorithm) (kid : String) (material : SigningKeyMaterial) (now ttlMs : Int) : SigningKey where
  toSigningKeyMaterial := material
  kid := kid
  algorithm := algorithm
  createdAt := now
  status := .ACTIVE
  activatedAt := some now
  retiredAt := none
  revokedAt := none
  expiresAt := now + ttlMs

def addKey (kid : String) (ttlMs : Int) (seed : Nat) (now : Int) : Op crypto SigningKey := fun store =>
  match generated : crypto.generateSigningKeyPair store.algorithm seed with
  | .error e => (.error e,store)
  | .ok material =>
    let key := freshKey store.algorithm kid material now ttlMs
    (.ok key,(store.put key (Crypto.generated_valid generated)).prune now)

-- addKey()
def addFreshKey (draw : Draw) (now : Int) : Op crypto SigningKey := addKey draw.uuid defaultTtlMs draw.seed now

-- The newest key that may sign.
def active? (store : KeyStore crypto) (now : Int) : Option SigningKey :=
  (store.all.mergeSort fun a b => b.createdAt ≤ a.createdAt).find? (SigningKey.signs now)

def current (draw : Draw) (now : Int) : Op crypto SigningKey := fun store =>
  match store.active? now with
  | some active => (.ok active,store)
  | none => addFreshKey draw now store

def byKid (store : KeyStore crypto) (now : Int) (kid : String) : Option SigningKey :=
  (store.get? kid).filter (SigningKey.verifies now)

def restored (key : RestoredKey) (kid : String) (createdAt expiresAt : Int) : SigningKey where
  toSigningKeyMaterial := key.toSigningKeyMaterial
  kid := kid
  algorithm := key.algorithm.getD (.classical .RS256)
  createdAt := createdAt
  status := key.status.getD .ACTIVE
  activatedAt := some (key.activatedAt.getD createdAt)
  retiredAt := key.retiredAt
  revokedAt := key.revokedAt
  expiresAt := expiresAt

def addKeyWithMaterial (key : RestoredKey) (now : Int) : Op crypto Unit := fun store =>
  match present key.kid,key.createdAt,key.expiresAt with
  | some kid,some createdAt,some expiresAt =>
    let adopted := restored key kid createdAt expiresAt
    match checked : crypto.validateMaterial adopted.algorithm adopted.toSigningKeyMaterial with
    | .error message =>
      (.error s!"Cannot restore an incomplete signing key (invalid {kid} key material): {message}",store)
    | .ok () => (.ok (),(store.put adopted checked).prune now)
  | _,_,_ => (.error "Cannot restore an incomplete signing key",store)

def retired (now : Int) : Mark where
  change key := {key with status := .VERIFY_ONLY,retiredAt := some now}
  kid _ := rfl
  algorithm _ := rfl
  material _ := rfl

def revoked (now : Int) : Mark where
  change key := {key with status := .REVOKED,revokedAt := some now}
  kid _ := rfl
  algorithm _ := rfl
  material _ := rfl

def cannotRetire (kid : String) : String := s!"Cannot retire unknown or revoked signing key \"{kid}\""

def retire (kid : String) (now : Int) : Op crypto Unit := fun store =>
  if (store.get? kid).all fun key => key.status = .REVOKED then (.error (cannotRetire kid),store)
  else (.ok (),store.mark kid (retired now))

def revoke (kid : String) (now : Int) : Op crypto Unit := fun store =>
  match store.get? kid with
  | none => (.error s!"Cannot revoke unknown signing key \"{kid}\"",store)
  | some _ => (.ok (),store.mark kid (revoked now))

section
variable {store : KeyStore crypto}

@[simp] theorem get?_new (algorithm : JwtSigningAlgorithm) (kid : String) : (new algorithm : KeyStore crypto).get? kid = none := rfl

theorem get?_put (key : SigningKey) (valid : crypto.Valid key.algorithm key.toSigningKeyMaterial) (kid : String) :
    (store.put key valid).get? kid = if kid = key.kid then some key else store.get? kid := Dict.get?_set _ _ _ _

theorem get?_prune (now : Int) (kid : String) :
    (store.prune now).get? kid = (store.get? kid).filter fun key => !decide (key.expiresAt < now) := Dict.get?_filter _ _ _

theorem get?_mark (kid : String) (mark : Mark) (k : String) :
    (store.mark kid mark).get? k = if k = kid then (store.get? k).map mark.change else store.get? k := Dict.get?_modify _ _ _ _

theorem mem_all : key ∈ store.all ↔ store.get? key.kid = some key := by
  unfold all get?
  rw [Dict.mem_values]
  constructor
  · rintro ⟨kid,stored⟩
    rwa [store.named kid key stored]
  · exact fun stored => ⟨_,stored⟩

theorem all_distinct (store : KeyStore crypto) : (store.all.map SigningKey.kid).Nodup := by
  have same : store.all.map SigningKey.kid = store.keys.entries.map Prod.fst := by
    unfold all Dict.values
    rw [List.map_map]
    apply List.map_congr_left
    rintro ⟨kid,key⟩ listed
    exact store.named kid key (Dict.get?_iff.mpr listed)
  rw [same]
  exact store.keys.distinct

theorem byKid_some : store.byKid now kid = some key ↔
    store.get? kid = some key ∧ key.status ≠ .REVOKED ∧ now < key.expiresAt := by
  simp [byKid,Option.filter_eq_some_iff,SigningKey.verifies,SigningKey.unexpired]

theorem active?_some (found : store.active? now = some key) :
    store.get? key.kid = some key ∧ key.status = .ACTIVE ∧ now < key.expiresAt := by
  have listed := List.mem_of_find?_eq_some found
  have signs := List.find?_some found
  simp only [SigningKey.signs,SigningKey.unexpired,Bool.and_eq_true,decide_eq_true_eq] at signs
  exact ⟨mem_all.mp (List.mem_mergeSort.mp listed),signs⟩

theorem active?_sole (stored : store.get? key.kid = some key) (active : key.status = .ACTIVE) (unexpired : now < key.expiresAt)
    (sole : ∀ other, store.get? other.kid = some other → other.status = .ACTIVE → now < other.expiresAt → other = key) :
    store.active? now = some key := by
  cases found : store.active? now with
  | none =>
    have missed := List.find?_eq_none.mp found key (List.mem_mergeSort.mpr (mem_all.mpr stored))
    simp [SigningKey.signs,SigningKey.unexpired,active,unexpired] at missed
  | some other =>
    obtain ⟨here,signs,lasts⟩ := active?_some found
    rw [sole other here signs lasts]

theorem addKey_symmetric (none : store.algorithm = .classical .HS256) (kid : String) (ttlMs : Int) (seed : Nat) (now : Int) :
    ∃ e, addKey kid ttlMs seed now store = (.error e,store) := by
  unfold addKey
  split
  · rename_i e _
    exact ⟨e,rfl⟩
  · rename_i material generated
    exact absurd none ((Crypto.generates store.algorithm seed).mp ⟨material,generated⟩)

theorem addKey_pair (asymmetric : store.algorithm ≠ .classical .HS256) (kid : String) (ttlMs : Int) (seed : Nat) (now : Int) :
    ∃ key after, addKey kid ttlMs seed now store = (.ok key,after) ∧ key.kid = kid ∧ key.status = .ACTIVE ∧
      key.createdAt = now ∧ key.expiresAt = now + ttlMs ∧ key.algorithm = store.algorithm ∧ after.algorithm = store.algorithm ∧
      ∀ k, after.get? k = (if k = kid then some key else store.get? k).filter fun key => !decide (key.expiresAt < now) := by
  unfold addKey
  split
  · rename_i e generated
    obtain ⟨material,made⟩ := (Crypto.generates store.algorithm seed).mpr asymmetric
    rw [made] at generated
    cases generated
  · refine ⟨_,_,rfl,rfl,rfl,rfl,rfl,rfl,rfl,fun k => ?_⟩
    rw [get?_prune,get?_put]
    rfl

end
end KeyStore
end Pezhwan.Keys
