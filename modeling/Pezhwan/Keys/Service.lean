import Pezhwan.Keys.Store
import Pezhwan.Atomic.Effect

-- Signing keys that are persisted.
namespace Pezhwan.Keys
open Atomic

-- What is in a `.pem` file of the key directory.
inductive FileContent where
  | empty
  | corrupt (reason : String)
  | key (key : RestoredKey)
  deriving DecidableEq

-- How the disk serves one call: readdir lists the files in any order.
structure Disk where
  reads : Bool
  mkdir : Bool
  writes : String → Bool
  order : List (String × FileContent) → List (String × FileContent)
  listing : ∀ files, (order files).Perm files

-- Files by their names without `.pem`. The memory adapter keeps the objects of
-- the keys; the mark says whether the store still has that very object.
inductive Adapter where
  | file (files : Dict String FileContent)
  | memory (keys : List (SigningKey × Bool))

def isKeyId (kid : String) : Bool :=
  kid ≠ "" && kid.toList.all fun c => c.isAlphanum || c = '_' || c = '-'

def loadFiles : List (String × FileContent) → Except String (List RestoredKey) × List String
  | [] => (.ok [],[])
  | (name,.empty) :: rest => let (keys,unlinked) := loadFiles rest
    (keys,name :: unlinked)
  | (name,.corrupt reason) :: _ => (.error s!"Failed to load signing key file '{name}.pem': {reason}",[])
  | (_,.key key) :: rest => let (keys,unlinked) := loadFiles rest
    (keys.map (key :: ·),unlinked)

def saveFiles (disk : Disk) : List SigningKey → Dict String FileContent → Except String Unit × Dict String FileContent
  | [],files => (.ok (),files)
  | key :: rest,files =>
    if !isKeyId key.kid then (.error s!"Invalid signing key id \"{key.kid}\"",files)
    else if !disk.writes key.kid then (.error "write failed",files)
    else saveFiles disk rest (files.set key.kid (.key key.stored))

namespace Adapter

def load (disk : Disk) : Adapter → Except String (List RestoredKey) × Adapter
  | .file files =>
    if !disk.reads then (.error "read failed",.file files)
    else
      let (keys,unlinked) := loadFiles (disk.order files.entries)
      (keys,.file (files.filter fun name _ => name ∉ unlinked))
  | .memory keys => (.ok (keys.map fun entry => entry.1.stored),.memory keys)

def save (disk : Disk) (keys : List SigningKey) : Adapter → Except String Unit × Adapter
  | .file files =>
    if !disk.mkdir then (.error "mkdir failed",.file files)
    else
      let (saved,written) := saveFiles disk keys files
      (saved,.file written)
  | .memory _ => (.ok (),.memory (keys.map fun key => (key,true)))

-- The keys that a later load finds.
def persisted : Adapter → List RestoredKey
  | .file files => files.values.filterMap fun content => match content with
    | .key key => some key
    | _ => none
  | .memory keys => keys.map fun entry => entry.1.stored

def files : Adapter → Option (Dict String FileContent)
  | .file files => some files
  | .memory _ => none

def mark (kid : String) (mark : KeyStore.Mark) : Adapter → Adapter
  | .file files => .file files
  | .memory keys => .memory (keys.map fun entry => if entry.2 && entry.1.kid = kid then (mark.change entry.1,true) else entry)

-- The store keeps only some of its objects.
def release (still : String → Bool) : Adapter → Adapter
  | .file files => .file files
  | .memory keys => .memory (keys.map fun entry => (entry.1,entry.2 && still entry.1.kid))

@[simp] theorem files_mark (kid : String) (change : KeyStore.Mark) (adapter : Adapter) :
    (adapter.mark kid change).files = adapter.files := by
  cases adapter <;> rfl

@[simp] theorem files_release (still : String → Bool) (adapter : Adapter) : (adapter.release still).files = adapter.files := by
  cases adapter <;> rfl

end Adapter

structure KeyStoreService (crypto : Crypto) where
  store : KeyStore crypto
  adapter : Adapter

abbrev M (crypto : Crypto) := Fallible String (KeyStoreService crypto)

namespace KeyStoreService
variable {crypto : Crypto}

-- A call of the store that may put a new object under `kid`.
def putting (kid : String) (op : Op crypto α) : M crypto α := fun service =>
  match op service.store with
  | (.error e,_) => (.error e,service)
  | (.ok value,store) => (.ok value,⟨store,service.adapter.release fun k => k ≠ kid && (store.get? k).isSome⟩)

-- A call of the store that changes the object under `kid`.
def marking (kid : String) (mark : KeyStore.Mark) (op : Op crypto Unit) : M crypto Unit := fun service =>
  match op service.store with
  | (.error e,_) => (.error e,service)
  | (.ok (),store) => (.ok (),⟨store,service.adapter.mark kid mark⟩)

def addKey (kid : String) (ttlMs : Int) (seed : Nat) (now : Int) : M crypto SigningKey :=
  putting kid (KeyStore.addKey kid ttlMs seed now)

def addFreshKey (draw : Draw) (now : Int) : M crypto SigningKey := putting draw.uuid (KeyStore.addFreshKey draw now)

def current (draw : Draw) (now : Int) : M crypto SigningKey := fun service =>
  match service.store.active? now with
  | some active => (.ok active,service)
  | none => addFreshKey draw now service

def addKeyWithMaterial (key : RestoredKey) (now : Int) : M crypto Unit :=
  putting (key.kid.getD "") (KeyStore.addKeyWithMaterial key now)

def retire (kid : String) (now : Int) : M crypto Unit := marking kid (KeyStore.retired now) (KeyStore.retire kid now)

def revoke (kid : String) (now : Int) : M crypto Unit := marking kid (KeyStore.revoked now) (KeyStore.revoke kid now)

def clear : M crypto Unit := fun service => (.ok (),⟨service.store.clear,service.adapter.release fun _ => false⟩)

def load (disk : Disk) : M crypto (List RestoredKey) := fun service =>
  let (keys,adapter) := service.adapter.load disk
  (keys,{service with adapter})

def save (disk : Disk) : M crypto Unit := fun service =>
  let (saved,adapter) := service.adapter.save disk service.store.all
  (saved,{service with adapter})

def ensureKey (draw : Draw) (now : Int) : M crypto Unit := do
  if (← get).store.all.length = 0 then
    let _ ← addFreshKey draw now

def restoreAll (now : Int) : List RestoredKey → M crypto Unit
  | [] => pure ()
  | key :: rest => do
    addKeyWithMaterial key now
    restoreAll now rest

def init (draw : Draw) (disk : Disk) (now : Int) : M crypto Unit := do
  let persisted ← load disk
  restoreAll now persisted
  if (← get).store.all.length = 0 then
    let _ ← addFreshKey draw now
    save disk

def rotate (draw : Draw) (disk : Disk) (now : Int) : M crypto Unit := do
  let previous := (← get).store.all.find? fun key => key.status = .ACTIVE
  let _ ← addFreshKey draw now
  match previous with
  | some previous => retire previous.kid now
  | none => pure ()
  save disk

end KeyStoreService

inductive Call where
  | addKey (kid : String) (ttlMs : Int) (seed : Nat)
  | addKeyWithMaterial (key : RestoredKey)
  | retire (kid : String)
  | revoke (kid : String)
  | clear
  | current (draw : Draw)
  | ensureKey (draw : Draw)
  | init (draw : Draw) (disk : Disk)
  | rotate (draw : Draw) (disk : Disk)

structure World (crypto : Crypto) where
  now : Int
  service : KeyStoreService crypto

namespace World
variable {crypto : Crypto}

def run (now : Int) : Call → M crypto (Option SigningKey)
  | .addKey kid ttlMs seed => some <$> KeyStoreService.addKey kid ttlMs seed now
  | .addKeyWithMaterial key => (fun _ => none) <$> KeyStoreService.addKeyWithMaterial key now
  | .retire kid => (fun _ => none) <$> KeyStoreService.retire kid now
  | .revoke kid => (fun _ => none) <$> KeyStoreService.revoke kid now
  | .clear => (fun _ => none) <$> KeyStoreService.clear
  | .current draw => some <$> KeyStoreService.current draw now
  | .ensureKey draw => (fun _ => none) <$> KeyStoreService.ensureKey draw now
  | .init draw disk => (fun _ => none) <$> KeyStoreService.init draw disk now
  | .rotate draw disk => (fun _ => none) <$> KeyStoreService.rotate draw disk now

def perform (call : Call) (w : World crypto) : Except String (Option SigningKey) × World crypto :=
  let (answer,service) := run w.now call w.service
  (answer,⟨w.now,service⟩)

def Passes (s t : World crypto) : Prop := s.now ≤ t.now ∧ t.service = s.service

abbrev Lived (initial : World crypto → Prop) (log : List (Entry Call (World crypto) (Except String (Option SigningKey))))
    (w : World crypto) : Prop := History perform Passes initial log w

end World

def freeDisk : Disk := ⟨true,true,fun _ => true,fun files => files,fun _ => .refl _⟩

def emptyWorld (algorithm : JwtSigningAlgorithm) : World sampleCrypto := ⟨0,⟨.new algorithm,.file .empty⟩⟩

def started (algorithm : JwtSigningAlgorithm) : World sampleCrypto := (World.perform (.init firstDraw freeDisk) (emptyWorld algorithm)).2

-- What the calls of the service do to the keys.
variable {crypto : Crypto}

namespace KeyStoreService

theorem save_run (disk : Disk) (service : KeyStoreService crypto) : save disk service =
    ((service.adapter.save disk service.store.all).1,⟨service.store,(service.adapter.save disk service.store.all).2⟩) := rfl

theorem addFreshKey_symmetric {service : KeyStoreService crypto} (symmetric : service.store.algorithm = .classical .HS256)
    (draw : Draw) (now : Int) : ∃ e, addFreshKey draw now service = (.error e,service) := by
  obtain ⟨e,failed⟩ := KeyStore.addKey_symmetric symmetric draw.uuid defaultTtlMs draw.seed now
  refine ⟨e,?_⟩
  simp only [addFreshKey,putting,KeyStore.addFreshKey,failed]

-- The key that `addKey()` makes.
structure Fresh (key : SigningKey) (algorithm : JwtSigningAlgorithm) (draw : Draw) (now : Int) : Prop where
  kid : key.kid = draw.uuid
  kind : key.algorithm = algorithm
  active : key.status = .ACTIVE
  created : key.createdAt = now
  expires : key.expiresAt = now + defaultTtlMs

theorem Fresh.lasts (fresh : Fresh key algorithm draw now) : now < key.expiresAt := by
  rw [fresh.expires]
  unfold defaultTtlMs
  omega

theorem addFreshKey_pair {service : KeyStoreService crypto} (asymmetric : service.store.algorithm ≠ .classical .HS256)
    (draw : Draw) (now : Int) : ∃ key after, addFreshKey draw now service = (.ok key,after) ∧
      Fresh key service.store.algorithm draw now ∧ after.store.algorithm = service.store.algorithm ∧
      (∀ k, after.store.get? k = if k = draw.uuid then some key
        else (service.store.get? k).filter fun key => !decide (key.expiresAt < now)) ∧
      after.adapter.files = service.adapter.files := by
  obtain ⟨key,after,added,kid,active,created,expires,algorithm,same,stored⟩ :=
    KeyStore.addKey_pair asymmetric draw.uuid defaultTtlMs draw.seed now
  have fresh : Fresh key service.store.algorithm draw now := ⟨kid,algorithm,active,created,expires⟩
  refine ⟨key,⟨after,service.adapter.release fun k => k ≠ draw.uuid && (after.get? k).isSome⟩,?_,fresh,same,?_,?_⟩
  · simp only [addFreshKey,putting,KeyStore.addFreshKey,added]
  · intro k
    rw [stored]
    have lasts := fresh.lasts
    split
    · rw [Option.filter_some,if_pos (by simp; omega)]
    · rfl
  · dsimp only
    exact Adapter.files_release _ _

theorem retire_run (kid : String) (now : Int) (service : KeyStoreService crypto) :
    (∃ key, service.store.get? kid = some key ∧ key.status ≠ .REVOKED ∧ retire kid now service =
      (.ok (),⟨service.store.mark kid (KeyStore.retired now),service.adapter.mark kid (KeyStore.retired now)⟩)) ∨
    (∀ key, service.store.get? kid = some key → key.status = .REVOKED) ∧
      retire kid now service = (.error (KeyStore.cannotRetire kid),service) := by
  cases found : service.store.get? kid with
  | none =>
    right
    refine ⟨by simp,?_⟩
    simp only [retire,marking,KeyStore.retire,found,Option.all_none,if_true]
  | some key =>
    by_cases gone : key.status = .REVOKED
    · right
      refine ⟨?_,?_⟩
      · rintro _ ⟨⟩
        exact gone
      · simp only [retire,marking,KeyStore.retire,found,Option.all_some,gone,decide_true,if_true]
    · left
      refine ⟨key,rfl,gone,?_⟩
      simp only [retire,marking,KeyStore.retire,found,Option.all_some,gone,decide_false,Bool.false_eq_true,if_false]

def settle (disk : Disk) (now : Int) : Option SigningKey → M crypto Unit
  | none => save disk
  | some previous => fun added => match retire previous.kid now added with
    | (.ok _,retired) => save disk retired
    | (.error e,after) => (.error e,after)

theorem rotate_run (draw : Draw) (disk : Disk) (now : Int) (service : KeyStoreService crypto) :
    rotate draw disk now service = match addFreshKey draw now service with
      | (.ok _,added) => settle disk now (service.store.all.find? fun key => key.status = .ACTIVE) added
      | (.error e,after) => (.error e,after) := by
  unfold rotate
  rw [Fallible.bind_run]
  change (addFreshKey draw now >>= _) service = _
  rw [Fallible.bind_run]
  cases addFreshKey draw now service with
  | mk result added =>
    cases result with
    | error e => rfl
    | ok key =>
      dsimp only
      cases service.store.all.find? fun key => key.status = .ACTIVE with
      | none => rfl
      | some previous =>
        dsimp only [settle]
        rw [Fallible.bind_run]
        cases retire previous.kid now added with
        | mk result retired => cases result <;> rfl

-- A property of the store that a call does not destroy.
abbrev Keeps (P : KeyStore crypto → Prop) (p : M crypto α) : Prop := Fallible.Keeps (fun service => P service.store) p

section
variable {P : KeyStore crypto → Prop}

theorem keeps_putting {op : Op crypto α} (held : ∀ store, P store → P (op store).2) (kid : String) : Keeps P (putting kid op) := by
  intro service before
  have after := held service.store before
  unfold putting
  split
  · exact before
  · rename_i ran
    rw [ran] at after
    exact after

theorem keeps_marking {op : Op crypto Unit} (held : ∀ store, P store → P (op store).2) (kid : String) (mark : KeyStore.Mark) :
    Keeps P (marking kid mark op) := by
  intro service before
  have after := held service.store before
  unfold marking
  split
  · exact before
  · rename_i ran
    rw [ran] at after
    exact after

theorem keeps_save (disk : Disk) : Keeps P (save disk) := fun _ held => held

theorem keeps_current {draw : Draw} {now : Int} (fresh : Keeps P (addFreshKey draw now)) : Keeps P (current draw now) := by
  intro service held
  unfold current
  split
  · exact held
  · exact fresh service held

theorem keeps_ensureKey {draw : Draw} {now : Int} (fresh : Keeps P (addFreshKey draw now)) : Keeps P (ensureKey draw now) := by
  intro service held
  unfold ensureKey
  rw [Fallible.bind_run]
  change P ((if service.store.all.length = 0 then (addFreshKey draw now >>= fun _ => Pure.pure ()) else Pure.pure ()) service).2.store
  split
  · exact fresh.bind (fun _ => Fallible.Keeps.pure ()) service held
  · exact held

theorem keeps_restoreAll {keys : List RestoredKey} {now : Int} (restores : ∀ key ∈ keys, Keeps P (addKeyWithMaterial key now)) :
    Keeps P (restoreAll now keys) := by
  induction keys with
  | nil => exact Fallible.Keeps.pure ()
  | cons key rest ih =>
    exact (restores key List.mem_cons_self).bind fun _ => ih fun other listed => restores other (List.mem_cons_of_mem _ listed)

theorem keeps_init {draw : Draw} {disk : Disk} {now : Int} {service : KeyStoreService crypto}
    (fresh : Keeps P (addFreshKey draw now))
    (restores : ∀ keys, (service.adapter.load disk).1 = .ok keys → ∀ key ∈ keys, Keeps P (addKeyWithMaterial key now))
    (held : P service.store) : P (init draw disk now service).2.store := by
  unfold init
  rw [Fallible.bind_run]
  cases loaded : (service.adapter.load disk).1 with
  | error e =>
    have ran : load disk service = (.error e,{service with adapter := (service.adapter.load disk).2}) := by
      unfold load
      rw [← loaded]
    rw [ran]
    exact held
  | ok keys =>
    have ran : load disk service = (.ok keys,{service with adapter := (service.adapter.load disk).2}) := by
      unfold load
      rw [← loaded]
    rw [ran]
    refine (keeps_restoreAll (restores keys loaded)).bind (fun _ => ?_) _ held
    intro next valid
    rw [Fallible.bind_run]
    change P ((if next.store.all.length = 0 then (addFreshKey draw now >>= fun _ => save disk) else Pure.pure ()) next).2.store
    split
    · exact fresh.bind (fun _ => keeps_save disk) next valid
    · exact valid

theorem keeps_rotate {draw : Draw} {disk : Disk} {now : Int} (fresh : Keeps P (addFreshKey draw now))
    (retires : ∀ kid, Keeps P (retire kid now)) : Keeps P (rotate draw disk now) := by
  intro service held
  unfold rotate
  rw [Fallible.bind_run]
  change P ((addFreshKey draw now >>= _) service).2.store
  refine fresh.bind (fun _ => ?_) service held
  split
  · exact (retires _).bind fun _ => keeps_save disk
  · exact (Fallible.Keeps.pure ()).bind fun _ => keeps_save disk

end
end KeyStoreService

end Pezhwan.Keys
