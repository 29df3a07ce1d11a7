import Pezhwan.Keys.Service

-- Rotation is all or nothing when the old key lasts.
namespace Pezhwan.Keys
open Atomic
variable {crypto : Crypto}

theorem Draw.isKeyId (draw : Draw) : isKeyId draw.uuid = true := by
  simp only [Keys.isKeyId,Bool.and_eq_true,List.all_eq_true,decide_eq_true_eq,Bool.or_eq_true]
  refine ⟨draw.nonempty,fun c listed => ?_⟩
  rcases draw.digits c listed with plain | dash
  · exact .inl (.inl plain)
  · exact .inr dash

section
variable {disk : Disk} {keys : List SigningKey} {files : Dict String FileContent}

theorem saveFiles_ok : (saveFiles disk keys files).1 = .ok () ↔ ∀ key ∈ keys, isKeyId key.kid = true ∧ disk.writes key.kid = true := by
  induction keys generalizing files with
  | nil => simp [saveFiles]
  | cons key rest ih =>
    unfold saveFiles
    by_cases named : isKeyId key.kid = true
    · by_cases written : disk.writes key.kid = true
      · simp only [named,written,Bool.not_true,Bool.false_eq_true,if_false,ih,List.forall_mem_cons,and_self,true_and]
      · simp [named,written]
    · simp [named]

theorem saveFiles_get? (saved : (saveFiles disk keys files).1 = .ok ()) (kid : String) (distinct : (keys.map SigningKey.kid).Nodup) :
    (saveFiles disk keys files).2.get? kid =
      ((keys.find? fun key => key.kid = kid).map fun key => .key key.stored).or (files.get? kid) := by
  induction keys generalizing files with
  | nil => rfl
  | cons key rest ih =>
    obtain ⟨named,written⟩ := saveFiles_ok.mp saved key List.mem_cons_self
    rw [List.map_cons,List.nodup_cons] at distinct
    unfold saveFiles at saved ⊢
    simp only [named,written,Bool.not_true,Bool.false_eq_true,if_false] at saved ⊢
    rw [ih saved distinct.2,Dict.get?_set,List.find?_cons]
    by_cases own : key.kid = kid
    · have gone : rest.find? (fun other => decide (other.kid = kid)) = none := by
        rw [List.find?_eq_none]
        intro other listed same
        exact distinct.1 (own ▸ of_decide_eq_true same ▸ List.mem_map_of_mem listed)
      simp [own,gone]
    · have other : ¬ kid = key.kid := fun same => own same.symm
      simp [own,other]

end

namespace KeyStoreService

-- The disk takes the new key and every key that is not dropped.
def Savable (service : KeyStoreService crypto) (draw : Draw) (disk : Disk) (now : Int) : Prop :=
  service.adapter.files.isSome → disk.mkdir = true ∧ disk.writes draw.uuid = true ∧
    ∀ key ∈ service.store.all, now ≤ key.expiresAt → isKeyId key.kid = true ∧ disk.writes key.kid = true

theorem save_persists (disk : Disk) (service : KeyStoreService crypto)
    (saved : (service.adapter.save disk service.store.all).1 = .ok ()) (listed : key ∈ service.store.all) :
    key.stored ∈ (service.adapter.save disk service.store.all).2.persisted := by
  cases kind : service.adapter with
  | memory keys =>
    simp only [Adapter.save,Adapter.persisted,List.map_map]
    exact List.mem_map_of_mem listed
  | file files =>
    rw [kind] at saved
    simp only [Adapter.save] at saved ⊢
    cases ready : disk.mkdir with
    | false =>
      rw [ready] at saved
      cases saved
    | true =>
      rw [ready] at saved
      simp only [Bool.not_true,Bool.false_eq_true,if_false] at saved ⊢
      have kept := saveFiles_get? saved key.kid (service.store.all_distinct)
      have found : service.store.all.find? (fun other => other.kid = key.kid) = some key :=
        Collection.lookup_member (service.store.all_distinct) listed
      rw [found] at kept
      simp only [Adapter.persisted,List.mem_filterMap]
      exact ⟨.key key.stored,Dict.mem_values.mpr ⟨key.kid,kept⟩,rfl⟩

def previous? (store : KeyStore crypto) : Option SigningKey := store.all.find? fun key => key.status = .ACTIVE

theorem previous?_some {store : KeyStore crypto} (found : previous? store = some previous) :
    store.get? previous.kid = some previous ∧ previous.status = .ACTIVE :=
  ⟨KeyStore.mem_all.mp (List.mem_of_find?_eq_some found),by simpa using List.find?_some found⟩

-- The store with the new key, without the expired keys, and with the previous
-- key retired.
structure Turned (service : KeyStoreService crypto) (draw : Draw) (now : Int) (key : SigningKey)
    (turned : KeyStoreService crypto) : Prop where
  fresh : Fresh key service.store.algorithm draw now
  own : turned.store.get? draw.uuid = some key
  others : ∀ k, k ≠ draw.uuid → turned.store.get? k = ((service.store.get? k).filter fun key => !decide (key.expiresAt < now)).map
    fun old => if previous? service.store = some old then (KeyStore.retired now).change old else old
  files : turned.adapter.files = service.adapter.files

theorem rotate_turned {service : KeyStoreService crypto} (asymmetric : service.store.algorithm ≠ .classical .HS256)
    (draw : Draw) (new : service.store.get? draw.uuid = none) (disk : Disk) (now : Int)
    (lasts : ∀ previous, previous? service.store = some previous → now ≤ previous.expiresAt) :
    ∃ key turned, Turned service draw now key turned ∧ rotate draw disk now service = save disk turned := by
  obtain ⟨key,added,run,fresh,_,stored,files⟩ := addFreshKey_pair asymmetric draw now
  rw [rotate_run,run]
  change ∃ key turned, _ ∧ settle disk now (previous? service.store) added = _
  cases found : previous? service.store with
  | none =>
    refine ⟨key,added,⟨fresh,by rw [stored,if_pos rfl],?_,files⟩,rfl⟩
    intro k other
    rw [stored,if_neg other]
    simp [found]
  | some previous =>
    obtain ⟨here,active⟩ := previous?_some found
    have other : previous.kid ≠ draw.uuid := by
      intro same
      rw [same,new] at here
      cases here
    have kept : added.store.get? previous.kid = some previous := by
      have enough := lasts previous found
      rw [stored,if_neg other,here,Option.filter_some,if_pos (by simp; omega)]
    rcases retire_run previous.kid now added with ⟨_,_,_,ran⟩ | ⟨gone,_⟩
    · dsimp only [settle]
      rw [ran]
      refine ⟨key,_,⟨fresh,?_,?_,?_⟩,rfl⟩
      · rw [KeyStore.get?_mark,if_neg (fun same => other same.symm),stored,if_pos rfl]
      · intro k apart
        rw [KeyStore.get?_mark]
        by_cases same : k = previous.kid
        · subst same
          have lookup := kept
          rw [stored,if_neg apart] at lookup
          rw [if_pos rfl,kept,lookup,Option.map_some,Option.map_some,if_pos found]
        · rw [if_neg same,stored,if_neg apart]
          cases old : (service.store.get? k).filter fun key => !decide (key.expiresAt < now) with
          | none => rfl
          | some found' =>
            obtain ⟨looked,_⟩ := Option.filter_eq_some_iff.mp old
            have different : previous? service.store ≠ some found' := by
              rw [found]
              intro equal
              cases equal
              exact same (service.store.named k previous looked).symm
            rw [Option.map_some,if_neg different]
      · rw [← files]
        exact Adapter.files_mark _ _ _
    · rw [gone previous kept] at active
      cases active

theorem rotate_stuck {service : KeyStoreService crypto} (asymmetric : service.store.algorithm ≠ .classical .HS256)
    (draw : Draw) (new : service.store.get? draw.uuid = none) (disk : Disk) (now : Int) (found : previous? service.store = some previous)
    (expired : previous.expiresAt < now) : ∃ e after, rotate draw disk now service = (.error e,after) ∧
      after.store.get? draw.uuid ≠ none := by
  obtain ⟨key,added,run,_,_,stored,_⟩ := addFreshKey_pair asymmetric draw now
  rw [rotate_run,run]
  change ∃ e after, settle disk now (previous? service.store) added = _ ∧ _
  rw [found]
  have own : added.store.get? draw.uuid ≠ none := by
    rw [stored,if_pos rfl]
    simp
  obtain ⟨here,_⟩ := previous?_some found
  have other : previous.kid ≠ draw.uuid := by
    intro same
    rw [same,new] at here
    cases here
  have dropped : added.store.get? previous.kid = none := by
    rw [stored,if_neg other,here,Option.filter_some,if_neg (by simp; omega)]
  rcases retire_run previous.kid now added with ⟨_,kept,_,_⟩ | ⟨_,ran⟩
  · rw [dropped] at kept
    cases kept
  · exact ⟨_,added,by dsimp only [settle]; rw [ran],own⟩

theorem save_ok {adapter : Adapter} : (adapter.save disk keys).1 = .ok () ↔
    (adapter.files.isSome → disk.mkdir = true ∧ ∀ key ∈ keys, isKeyId key.kid = true ∧ disk.writes key.kid = true) := by
  cases adapter with
  | memory => simp [Adapter.save,Adapter.files]
  | file files =>
    simp only [Adapter.save,Adapter.files,Option.isSome_some,true_implies]
    cases disk.mkdir with
    | false => simp
    | true => simp [saveFiles_ok]

theorem Turned.listed {service turned : KeyStoreService crypto} (turn : Turned service draw now key turned) :
    other ∈ turned.store.all ↔ other = key ∨ ∃ old ∈ service.store.all, old.kid ≠ draw.uuid ∧ now ≤ old.expiresAt ∧
      other = if previous? service.store = some old then (KeyStore.retired now).change old else old := by
  have kid : ∀ old, (if previous? service.store = some old then (KeyStore.retired now).change old else old).kid = old.kid := by
    intro old
    split <;> rfl
  rw [KeyStore.mem_all]
  constructor
  · intro stored
    by_cases own : other.kid = draw.uuid
    · rw [own,turn.own] at stored
      exact .inl (Option.some.inj stored).symm
    · rw [turn.others _ own] at stored
      obtain ⟨old,kept,rfl⟩ := Option.map_eq_some_iff.mp stored
      obtain ⟨looked,lasts⟩ := Option.filter_eq_some_iff.mp kept
      rw [kid] at own looked
      exact .inr ⟨old,KeyStore.mem_all.mpr looked,own,by simpa using lasts,rfl⟩
  · intro either
    rcases either with rfl | ⟨old,listed,other',lasts,rfl⟩
    · rw [turn.fresh.kid]
      exact turn.own
    · rw [kid,turn.others _ other',KeyStore.mem_all.mp listed,Option.filter_some,if_pos (by simpa using lasts)]
      rfl

theorem Turned.savable {service turned : KeyStoreService crypto} (turn : Turned service draw now key turned)
    (new : service.store.get? draw.uuid = none) :
    (turned.adapter.save disk turned.store.all).1 = .ok () ↔ Savable service draw disk now := by
  rw [save_ok,turn.files]
  unfold Savable
  apply imp_congr_right
  intro _
  apply and_congr_right
  intro _
  constructor
  · intro written
    have own := written key (turn.listed.mpr (.inl rfl))
    rw [turn.fresh.kid] at own
    refine ⟨own.2,fun old listed lasts => ?_⟩
    have other : old.kid ≠ draw.uuid := by
      intro same
      rw [KeyStore.mem_all,same,new] at listed
      cases listed
    have kept := written _ (turn.listed.mpr (.inr ⟨old,listed,other,lasts,rfl⟩))
    split at kept <;> exact kept
  · rintro ⟨own,older⟩ other listed
    rcases turn.listed.mp listed with rfl | ⟨old,held,_,lasts,rfl⟩
    · rw [turn.fresh.kid]
      exact ⟨draw.isKeyId,own⟩
    · have kept := older old held lasts
      split <;> exact kept

-- The good end of a rotation.
structure Rotated (draw : Draw) (now : Int) (key : SigningKey) (after : KeyStoreService crypto) : Prop where
  stored : after.store.get? draw.uuid = some key
  signs : key.signs now = true
  sole : ∀ other ∈ after.store.all, other.signs now = true → other = key
  current : ∀ draw', KeyStore.current draw' now after.store = (.ok key,after.store)
  persisted : ∀ other ∈ after.store.all, other.unexpired now = true → other.stored ∈ after.adapter.persisted

-- A rotation that returns has turned the keys; one that throws has left
-- everything as it was.
def AllOrNothing (draw : Draw) (disk : Disk) (now : Int) (service : KeyStoreService crypto) : Prop :=
  match rotate draw disk now service with
  | (.ok _,after) => ∃ key, Rotated draw now key after
  | (.error _,after) => after.store = service.store ∧ after.adapter.persisted = service.adapter.persisted

-- The keys that are ACTIVE: the first has not been expired for a moment, every
-- other one has.
structure Ready (service : KeyStoreService crypto) (draw : Draw) (disk : Disk) (now : Int) : Prop where
  savable : Savable service draw disk now
  lasts : ∀ previous, previous? service.store = some previous → now ≤ previous.expiresAt
  sole : ∀ key ∈ service.store.all, key.signs now = true → previous? service.store = some key

theorem Turned.rotated {service turned : KeyStoreService crypto} (turn : Turned service draw now key turned)
    (sole : ∀ old ∈ service.store.all, old.signs now = true → previous? service.store = some old)
    (saved : (turned.adapter.save disk turned.store.all).1 = .ok ()) : Rotated draw now key (save disk turned).2 := by
  have lasts := turn.fresh.lasts
  have alone : ∀ other ∈ turned.store.all, other.signs now = true → other = key := by
    intro other listed signs
    rcases turn.listed.mp listed with rfl | ⟨old,held,_,_,rfl⟩
    · rfl
    · split at signs
      · cases signs
      · rename_i apart
        exact absurd (sole old held signs) apart
  refine ⟨turn.own,?_,alone,?_,?_⟩
  · simp [SigningKey.signs,SigningKey.unexpired,turn.fresh.active,lasts]
  · intro draw'
    have own : turned.store.get? key.kid = some key := turn.fresh.kid ▸ turn.own
    have chosen : turned.store.active? now = some key := by
      apply KeyStore.active?_sole own turn.fresh.active lasts
      intro other here active unexpired
      exact alone other (KeyStore.mem_all.mpr here) (by simp [SigningKey.signs,SigningKey.unexpired,active,unexpired])
    change KeyStore.current draw' now turned.store = _
    unfold KeyStore.current
    rw [chosen]
    rfl
  · intro other listed _
    exact save_persists disk turned saved listed

theorem rotate_all_or_nothing (service : KeyStoreService crypto) (draw : Draw) (disk : Disk) (now : Int)
    (new : service.store.get? draw.uuid = none) :
    AllOrNothing draw disk now service ↔ service.store.algorithm = .classical .HS256 ∨ Ready service draw disk now := by
  unfold AllOrNothing
  by_cases symmetric : service.store.algorithm = .classical .HS256
  · -- nothing can be generated
    obtain ⟨e,failed⟩ := addFreshKey_symmetric symmetric draw now
    rw [rotate_run,failed]
    simp [symmetric]
  by_cases lasts : ∀ previous, previous? service.store = some previous → now ≤ previous.expiresAt
  · obtain ⟨key,turned,turn,ran⟩ := rotate_turned symmetric draw new disk now lasts
    rw [ran,save_run]
    cases saved : (turned.adapter.save disk turned.store.all).1 with
    | error e =>
      have changed : turned.store ≠ service.store := by
        intro same
        have own := turn.own
        rw [same,new] at own
        cases own
      have unsavable : ¬ Savable service draw disk now := by
        rw [← turn.savable new,saved]
        exact nofun
      constructor
      · exact fun unchanged => absurd unchanged.1 changed
      · intro either
        rcases either with none | ready
        · exact absurd none symmetric
        · exact absurd ready.savable unsavable
    | ok =>
      have savable := (turn.savable new).mp saved
      constructor
      · intro both
        obtain ⟨key',rotated⟩ := both
        refine .inr ⟨savable,lasts,fun old held signs => ?_⟩
        by_contra apart
        have other : old.kid ≠ draw.uuid := by
          intro same
          rw [KeyStore.mem_all,same,new] at held
          cases held
        have unexpired : now < old.expiresAt := by
          simp only [SigningKey.signs,SigningKey.unexpired,Bool.and_eq_true,decide_eq_true_eq] at signs
          exact signs.2
        have listed : old ∈ turned.store.all := turn.listed.mpr (.inr ⟨old,held,other,by omega,(if_neg apart).symm⟩)
        have same : some key' = some key := rotated.stored.symm.trans turn.own
        rw [rotated.sole old listed signs,Option.some.inj same] at other
        exact other turn.fresh.kid
      · intro either
        rcases either with none | ready
        · exact absurd none symmetric
        · refine ⟨key,?_⟩
          have rotated := turn.rotated ready.sole saved
          rw [save_run] at rotated
          exact rotated
  · obtain ⟨previous,found,expired⟩ : ∃ previous, previous? service.store = some previous ∧ previous.expiresAt < now := by
      by_contra none
      apply lasts
      intro previous found
      by_contra late
      exact none ⟨previous,found,by omega⟩
    obtain ⟨e,after,ran,stored⟩ := rotate_stuck symmetric draw new disk now found expired
    rw [ran]
    constructor
    · intro both
      obtain ⟨same,_⟩ := both
      rw [same] at stored
      exact absurd new stored
    · intro either
      rcases either with none | ready
      · exact absurd none symmetric
      · exact absurd ready.lasts lasts

end KeyStoreService

theorem started_rotates : KeyStoreService.AllOrNothing secondDraw freeDisk 1000 (started (.classical .RS256)).service := by
  apply (KeyStoreService.rotate_all_or_nothing _ secondDraw freeDisk 1000 (by decide +kernel)).mpr
  have sole : (started (.classical .RS256)).service.store.all.all (fun key =>
      decide (KeyStoreService.previous? (started (.classical .RS256)).service.store = some key ∧ 1000 ≤ key.expiresAt)) = true := by
    decide +kernel
  simp only [List.all_eq_true,decide_eq_true_eq] at sole
  right
  refine ⟨fun _ => ⟨rfl,rfl,?_⟩,?_,fun key listed _ => (sole key listed).1⟩
  · have named : (started (.classical .RS256)).service.store.all.all (fun key => isKeyId key.kid) = true := by decide +kernel
    intro key listed _
    exact ⟨List.all_eq_true.mp named key listed,rfl⟩
  · intro previous found
    exact (sole previous (List.mem_of_find?_eq_some found)).2

-- The only key has expired: it is dropped, and the new key stays in memory only.
theorem expired_key_blocks_rotation : ∃ log w, World.Lived (· = emptyWorld (.classical .RS256)) log w ∧
    ∃ e after, KeyStoreService.rotate secondDraw freeDisk w.now w.service = (.error e,after) ∧
      after.store ≠ w.service.store ∧ ¬ KeyStoreService.AllOrNothing secondDraw freeDisk w.now w.service := by
  let later : World sampleCrypto := ⟨2678400000,(started (.classical .RS256)).service⟩
  have begun : World.Lived (· = emptyWorld (.classical .RS256)) [] (emptyWorld (.classical .RS256)) := .start rfl
  have passes : World.Passes (started (.classical .RS256)) later := ⟨by decide +kernel,rfl⟩
  have shown : (match KeyStoreService.rotate secondDraw freeDisk later.now later.service with
      | (.error _,after) => (after.store.get? "b").isSome && (later.service.store.get? "b").isNone
      | (.ok _,_) => false) = true := by decide +kernel
  refine ⟨_,later,(begun.call (.init firstDraw freeDisk)).other passes,?_⟩
  unfold KeyStoreService.AllOrNothing
  cases ran : KeyStoreService.rotate secondDraw freeDisk later.now later.service with
  | mk result after =>
    rw [ran] at shown
    cases result with
    | ok => cases shown
    | error e =>
      simp only [Bool.and_eq_true,Option.isSome_iff_ne_none,Option.isNone_iff_eq_none] at shown
      have changed : after.store ≠ later.service.store := by
        intro same
        rw [same] at shown
        exact shown.1 shown.2
      exact ⟨e,after,rfl,changed,fun unchanged => changed unchanged.1⟩

end Pezhwan.Keys
