import Pezhwan.Atomic.Dict
import Pezhwan.Numeric.Bytes

namespace Pezhwan.CryptoKeys
open Atomic Numeric

inductive Purpose where
  | encryption | signing | mac
  deriving DecidableEq, Repr

inductive Status where
  | ACTIVE | RETIRED | DESTROYED
  deriving DecidableEq, Repr

-- A date that is none has no time.
structure CryptoKey where
  id : String
  material : Bytes
  createdAt : Option ℤ
  expiresAt : Option ℤ := none
  purpose : Purpose
  status : Status
  algorithm : String
  deriving DecidableEq, Repr

-- Every key stands under its own id.
structure CryptoKeyStore where
  keys : Dict String CryptoKey
  named : ∀ {id key}, keys.get? id = some key → key.id = id

-- What the platform gives a new key: its random id and material, and the time.
structure Draw where
  id : String
  material : Bytes
  now : ℤ

-- one > other: never so with a date that is none.
def after : Option ℤ → Option ℤ → Bool
  | some one,some other => other < one
  | _,_ => false

-- One turn of the loop over the keys.
def newer (purpose : Purpose) (latest : Option CryptoKey) (key : CryptoKey) : Option CryptoKey :=
  if key.status = .ACTIVE ∧ key.purpose = purpose then
    match latest with
    | none => some key
    | some old => if after key.createdAt old.createdAt then some key else latest
  else latest

namespace CryptoKeyStore

def empty : CryptoKeyStore := ⟨.empty,fun found => nomatch found⟩

variable (store : CryptoKeyStore)

def write (keyId : String) (key : CryptoKey) (same : key.id = keyId) : CryptoKeyStore where
  keys := store.keys.set keyId key
  named := by
    intro id other found
    rw [Dict.get?_set] at found
    split at found
    · rename_i here
      cases found
      rw [here,same]
    · exact store.named found

def addKey (key : CryptoKey) : CryptoKeyStore := store.write key.id key rfl

def getKey (keyId : String) : Option CryptoKey := (store.keys.get? keyId).filter fun key => key.status ≠ .DESTROYED

def getActiveKey (purpose : Purpose) : Option CryptoKey := store.keys.values.foldl (newer purpose) none

def retireKey (keyId : String) : Bool × CryptoKeyStore :=
  match found : store.keys.get? keyId with
  | none => (false,store)
  | some key =>
    if key.status ≠ .ACTIVE then (false,store)
    else (true,store.write keyId {key with status := .RETIRED} (show key.id = keyId from store.named found))

def destroyKey (keyId : String) : Bool × CryptoKeyStore :=
  match found : store.keys.get? keyId with
  | none => (false,store)
  | some key => (true,store.write keyId {key with status := .DESTROYED, material := []}
    (show key.id = keyId from store.named found))

def listKeys (purpose : Option Purpose) (status : Option Status) : List CryptoKey :=
  store.keys.values.filter fun key => purpose.all (key.purpose = ·) && status.all (key.status = ·)

def generateKey (purpose : Purpose) (id : Option String) (draw : Draw) : CryptoKey × CryptoKeyStore :=
  let key : CryptoKey := ⟨id.getD draw.id,draw.material,some draw.now,none,purpose,.ACTIVE,"AES-256-GCM"⟩
  (key,store.addKey key)

def rotateKey (purpose : Purpose) (draw : Draw) : CryptoKey × CryptoKeyStore :=
  match store.getActiveKey purpose with
  | none => store.generateKey purpose none draw
  | some current => (store.retireKey current.id).2.generateKey purpose none draw

end CryptoKeyStore

inductive Op where
  | addKey (key : CryptoKey)
  | generateKey (purpose : Purpose) (id : Option String) (draw : Draw)
  | retireKey (keyId : String)
  | destroyKey (keyId : String)
  | rotateKey (purpose : Purpose) (draw : Draw)

def step (store : CryptoKeyStore) : Op → CryptoKeyStore
  | .addKey key => store.addKey key
  | .generateKey purpose id draw => (store.generateKey purpose id draw).2
  | .retireKey keyId => (store.retireKey keyId).2
  | .destroyKey keyId => (store.destroyKey keyId).2
  | .rotateKey purpose draw => (store.rotateKey purpose draw).2

def run (ops : List Op) : CryptoKeyStore := ops.foldl step .empty

namespace CryptoKeyStore
variable {store : CryptoKeyStore} {purpose : Purpose} {key : CryptoKey}

def Active (store : CryptoKeyStore) (purpose : Purpose) (key : CryptoKey) : Prop :=
  store.keys.get? key.id = some key ∧ key.status = .ACTIVE ∧ key.purpose = purpose

theorem active_listed : store.Active purpose key ↔ key ∈ store.keys.values ∧ key.status = .ACTIVE ∧ key.purpose = purpose := by
  refine and_congr_left fun _ => ?_
  rw [Dict.mem_values]
  constructor
  · exact fun found => ⟨key.id,found⟩
  · rintro ⟨id,found⟩
    rwa [store.named found]

theorem newer_cases (purpose : Purpose) (latest : Option CryptoKey) (key : CryptoKey) :
    (newer purpose latest key = latest ∧ (latest ≠ none ∨ ¬(key.status = .ACTIVE ∧ key.purpose = purpose))) ∨
      (newer purpose latest key = some key ∧ key.status = .ACTIVE ∧ key.purpose = purpose) := by
  unfold newer
  split
  · rename_i candidate
    cases latest with
    | none => exact .inr ⟨rfl,candidate⟩
    | some old =>
      dsimp only
      split
      · exact .inr ⟨rfl,candidate⟩
      · exact .inl ⟨rfl,.inl (Option.some_ne_none old)⟩
  · rename_i other
    exact .inl ⟨rfl,.inr other⟩

theorem newer_none {keys : List CryptoKey} {latest : Option CryptoKey} (none : keys.foldl (newer purpose) latest = none) :
    latest = .none ∧ ∀ key ∈ keys, ¬(key.status = .ACTIVE ∧ key.purpose = purpose) := by
  induction keys generalizing latest with
  | nil => exact ⟨none,fun key listed => absurd listed List.not_mem_nil⟩
  | cons first rest ih =>
    obtain ⟨before,later⟩ := ih none
    rcases newer_cases purpose latest first with ⟨same,either⟩ | ⟨taken,_⟩
    · rw [same] at before
      exact ⟨before,List.forall_mem_cons.mpr ⟨either.resolve_left (not_not.mpr before),later⟩⟩
    · rw [before] at taken
      cases taken

theorem newer_some {keys : List CryptoKey} {latest : Option CryptoKey} (found : keys.foldl (newer purpose) latest = some key) :
    latest = some key ∨ key ∈ keys ∧ key.status = .ACTIVE ∧ key.purpose = purpose := by
  induction keys generalizing latest with
  | nil => exact .inl found
  | cons first rest ih =>
    rcases ih found with before | ⟨listed,candidate⟩
    · rcases newer_cases purpose latest first with ⟨same,_⟩ | ⟨taken,candidate⟩
      · exact .inl (same ▸ before)
      · rw [before] at taken
        cases taken
        exact .inr ⟨List.mem_cons_self,candidate⟩
    · exact .inr ⟨List.mem_cons_of_mem first listed,candidate⟩

theorem getActiveKey_none (none : store.getActiveKey purpose = none) (key : CryptoKey) : ¬store.Active purpose key := by
  intro active
  obtain ⟨listed,candidate⟩ := active_listed.mp active
  exact (newer_none none).2 key listed candidate

theorem getActiveKey_some (found : store.getActiveKey purpose = some key) : store.Active purpose key := by
  rcases newer_some found with other | listed
  · cases other
  · exact active_listed.mpr listed

theorem active_same {one other : CryptoKey} (first : store.Active purpose one) (second : store.Active purpose other) (named : one.id = other.id) :
    one = other := by
  have found := first.1
  rw [named,second.1] at found
  exact (Option.some.inj found).symm

-- The key of the purpose that comes in, and the one that goes.
def drawn (purpose : Purpose) (draw : Draw) : CryptoKey := ⟨draw.id,draw.material,some draw.now,none,purpose,.ACTIVE,"AES-256-GCM"⟩

theorem retireKey_get? (active : store.Active purpose key) (id : String) :
    (store.retireKey key.id).2.keys.get? id = if id = key.id then some {key with status := .RETIRED} else store.keys.get? id := by
  obtain ⟨found,status,_⟩ := active
  unfold retireKey
  split
  · rename_i none
    rw [found] at none
    cases none
  · rename_i other other_found
    rw [found] at other_found
    cases other_found
    rw [if_neg (not_not.mpr status)]
    exact Dict.get?_set _ _ _ _

theorem rotateKey_key (store : CryptoKeyStore) (purpose : Purpose) (draw : Draw) : (store.rotateKey purpose draw).1 = drawn purpose draw := by
  unfold rotateKey
  split <;> rfl

theorem rotateKey_get? (store : CryptoKeyStore) (purpose : Purpose) (draw : Draw) (id : String) :
    (store.rotateKey purpose draw).2.keys.get? id =
      if id = draw.id then some (drawn purpose draw)
      else (store.getActiveKey purpose).elim (store.keys.get? id) fun current =>
        if id = current.id then some {current with status := .RETIRED} else store.keys.get? id := by
  unfold rotateKey
  cases found : store.getActiveKey purpose with
  | none => exact Dict.get?_set _ _ _ _
  | some current =>
    refine (Dict.get?_set _ _ _ _).trans ?_
    rw [retireKey_get? (getActiveKey_some found)]
    rfl

-- What a rotation is for. A key that was in use stays for what was encrypted with it.
structure Rotated (before after : CryptoKeyStore) (purpose : Purpose) (key : CryptoKey) : Prop where
  current : after.getActiveKey purpose = some key
  active : after.Active purpose key
  only : ∀ other, after.Active purpose other → other = key
  others : ∀ id other, other.purpose ≠ purpose → (before.keys.get? id = some other ↔ after.keys.get? id = some other)
  kept : ∀ old, before.Active purpose old → after.getKey old.id = some {old with status := .RETIRED}

-- At most one key of the purpose is in use, and the id drawn is neither its id nor that of
-- another purpose's key.
structure Rotatable (store : CryptoKeyStore) (purpose : Purpose) (draw : Draw) : Prop where
  single : ∀ one other, store.Active purpose one → store.Active purpose other → one = other
  apart : ∀ key, store.keys.get? draw.id = some key → key.purpose = purpose ∧ key.status ≠ .ACTIVE

theorem rotated_rotatable {draw : Draw}
    (rotated : Rotated store (store.rotateKey purpose draw).2 purpose (store.rotateKey purpose draw).1) : store.Rotatable purpose draw := by
  have after := store.rotateKey_get? purpose draw
  -- A key that is kept is retired, so it is neither the one drawn nor one left as it was.
  have retired : ∀ old, store.Active purpose old → old.id ≠ draw.id ∧ ∃ current, store.getActiveKey purpose = some current ∧ old = current := by
    intro old active
    have kept := (Option.filter_eq_some_iff.mp (rotated.kept old active)).1
    rw [after] at kept
    split at kept
    · have status : Status.ACTIVE = Status.RETIRED := congrArg CryptoKey.status (Option.some.inj kept)
      cases status
    · rename_i other
      refine ⟨other,?_⟩
      cases found : store.getActiveKey purpose with
      | none => exact absurd active (getActiveKey_none found old)
      | some current =>
        refine ⟨current,rfl,?_⟩
        by_cases same : old.id = current.id
        · exact active_same active (getActiveKey_some found) same
        · rw [found,Option.elim_some,if_neg same,active.1] at kept
          have status := active.2.1
          rw [Option.some.inj kept] at status
          cases status
  constructor
  · intro one other first second
    obtain ⟨_,_,found,rfl⟩ := retired one first
    obtain ⟨_,_,again,rfl⟩ := retired other second
    exact Option.some.inj (found.symm.trans again)
  · intro key found
    have named := store.named found
    by_cases same : key.purpose = purpose
    · refine ⟨same,fun status => ?_⟩
      exact (retired key ⟨named ▸ found,status,same⟩).1 named
    · have still := (rotated.others draw.id key same).mp found
      rw [after,if_pos rfl] at still
      exact absurd (congrArg CryptoKey.purpose (Option.some.inj still)).symm same

theorem rotatable_rotated {draw : Draw} (ready : store.Rotatable purpose draw) :
    Rotated store (store.rotateKey purpose draw).2 purpose (store.rotateKey purpose draw).1 := by
  have after := store.rotateKey_get? purpose draw
  rw [rotateKey_key]
  have active : (store.rotateKey purpose draw).2.Active purpose (drawn purpose draw) := ⟨(after draw.id).trans (if_pos rfl),rfl,rfl⟩
  have only : ∀ other, (store.rotateKey purpose draw).2.Active purpose other → other = drawn purpose draw := by
    rintro other ⟨found,status,same⟩
    rw [after] at found
    split at found
    · exact (Option.some.inj found).symm
    · exfalso
      cases current : store.getActiveKey purpose with
      | none =>
        rw [current] at found
        exact getActiveKey_none current other ⟨found,status,same⟩
      | some key =>
        rw [current,Option.elim_some] at found
        split at found
        · rw [← Option.some.inj found] at status
          cases status
        · rename_i differs
          exact differs (congrArg CryptoKey.id (ready.single other key ⟨found,status,same⟩ (getActiveKey_some current)))
  refine ⟨?_,active,only,?_,?_⟩
  · cases current : (store.rotateKey purpose draw).2.getActiveKey purpose with
    | none => exact absurd active (getActiveKey_none current _)
    | some key => rw [only key (getActiveKey_some current)]
  · intro id other differs
    rw [after]
    split
    · rename_i here
      subst here
      refine iff_of_false (fun found => differs (ready.apart other found).1) ?_
      rintro ⟨rfl⟩
      exact differs rfl
    · cases current : store.getActiveKey purpose with
      | none => exact Iff.rfl
      | some key =>
        have held := getActiveKey_some current
        rw [Option.elim_some]
        split
        · rename_i here
          subst here
          rw [held.1]
          refine iff_of_false ?_ ?_
          · rintro ⟨rfl⟩
            exact differs held.2.2
          · rintro ⟨rfl⟩
            exact differs held.2.2
        · exact Iff.rfl
  · intro old held
    have apart : old.id ≠ draw.id := fun same => (ready.apart old (same ▸ held.1)).2 held.2.1
    rw [getKey,after,if_neg apart]
    cases current : store.getActiveKey purpose with
    | none => exact absurd held (getActiveKey_none current old)
    | some key =>
      have same := ready.single old key held (getActiveKey_some current)
      subst same
      rw [Option.elim_some,if_pos rfl]
      rfl

end CryptoKeyStore

open CryptoKeyStore

theorem rotates_iff (ops : List Op) (purpose : Purpose) (draw : Draw) :
    Rotated (run ops) ((run ops).rotateKey purpose draw).2 purpose ((run ops).rotateKey purpose draw).1 ↔
      (run ops).Rotatable purpose draw :=
  ⟨rotated_rotatable,rotatable_rotated⟩

theorem second_key_current :
    let draw := fun n => (⟨toString (n : ℕ),[],0⟩ : Draw)
    let store := run [.generateKey .encryption none (draw 1),.generateKey .encryption none (draw 2)]
    ((store.rotateKey .encryption (draw 3)).1.id = "3" ∧
      ((store.rotateKey .encryption (draw 3)).2.getActiveKey .encryption).map CryptoKey.id = some "2") ∧
    ¬∀ ops purpose draw, Rotated (run ops) ((run ops).rotateKey purpose draw).2 purpose ((run ops).rotateKey purpose draw).1 := by
  intro draw store
  have current : ((store.rotateKey .encryption (draw 3)).2.getActiveKey .encryption).map CryptoKey.id = some "2" := by decide +kernel
  refine ⟨⟨by decide +kernel,current⟩,?_⟩
  intro all
  rw [(all _ .encryption (draw 3)).current] at current
  exact absurd current (by decide +kernel)

end Pezhwan.CryptoKeys
