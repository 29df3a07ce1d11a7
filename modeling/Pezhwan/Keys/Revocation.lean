import Pezhwan.Keys.Service
import Pezhwan.Keys.Publication

-- A revoked key stays revoked unless it is brought back.
namespace Pezhwan.Keys
open Atomic
variable {crypto : Crypto}

namespace KeyStore

-- Nothing under `kid` is of use any more.
def Dead (kid : String) (now : Int) (store : KeyStore crypto) : Prop :=
  ∀ key, store.get? kid = some key → key.status = .REVOKED ∨ key.expiresAt ≤ now

variable {store : KeyStore crypto} {kid : String} {now later : Int}

theorem Dead.passes (dead : Dead kid now store) (passed : now ≤ later) : Dead kid later store := by
  intro key stored
  rcases dead key stored with revoked | expired
  · exact .inl revoked
  · exact .inr (by omega)

theorem dead_put {key : SigningKey} {valid : crypto.Valid key.algorithm key.toSigningKeyMaterial} (dead : Dead kid now store)
    (own : key.kid = kid → key.status = .REVOKED ∨ key.expiresAt ≤ now) : Dead kid now ((store.put key valid).prune now) := by
  intro found stored
  rw [get?_prune,Option.filter_eq_some_iff,get?_put] at stored
  have here := stored.1
  split at here
  · rename_i same
    cases here
    exact own same.symm
  · exact dead found here

theorem dead_addKey (dead : Dead kid now store) {k : String} {ttlMs : Int} (other : k = kid → ttlMs ≤ 0) (seed : Nat) :
    Dead kid now (addKey k ttlMs seed now store).2 := by
  unfold addKey
  split
  · exact dead
  · apply dead_put dead
    intro same
    have short := other same
    simp only [freshKey]
    omega

-- A key to be restored that is of no use.
def Harmless (kid : String) (now : Int) (key : RestoredKey) : Prop :=
  key.kid = some kid → key.status = some .REVOKED ∨ ∀ expiresAt, key.expiresAt = some expiresAt → expiresAt ≤ now

theorem dead_addKeyWithMaterial (dead : Dead kid now store) (harmless : Harmless kid now key) :
    Dead kid now (addKeyWithMaterial key now store).2 := by
  unfold addKeyWithMaterial
  split
  · rename_i named _ expiresAt found _ expires
    dsimp only
    split
    · exact dead
    · apply dead_put dead
      rintro rfl
      have known := (Option.filter_eq_some_iff.mp found).1
      rcases harmless known with revoked | expired
      · left
        simp only [restored,revoked,Option.getD_some]
      · exact .inr (expired _ expires)
  · exact dead

theorem dead_mark {mark : Mark} (dead : Dead kid now store) (kept : ∀ key, (mark.change key).expiresAt = key.expiresAt)
    (same : k = kid → ∀ key, store.get? kid = some key → key.status = .REVOKED → (mark.change key).status = .REVOKED) :
    Dead kid now (store.mark k mark) := by
  intro found stored
  rw [get?_mark] at stored
  split at stored
  · rename_i own
    obtain ⟨old,held,rfl⟩ := Option.map_eq_some_iff.mp stored
    rcases dead old held with revoked | expired
    · exact .inl (same own.symm old held revoked)
    · exact .inr (by rw [kept]; exact expired)
  · exact dead found stored

theorem dead_retire (dead : Dead kid now store) (k : String) : Dead kid now (retire k now store).2 := by
  unfold retire
  split
  · exact dead
  · rename_i alive
    apply dead_mark dead (fun _ => rfl)
    rintro rfl key held revoked
    rw [held,Option.all_some,decide_eq_true_eq] at alive
    exact absurd revoked alive

theorem dead_revoke (dead : Dead kid now store) (k : String) : Dead kid now (revoke k now store).2 := by
  unfold revoke
  split
  · exact dead
  · exact dead_mark dead (fun _ => rfl) fun _ _ _ _ => rfl

theorem revoke_kills (succeeded : (revoke kid now store).1 = .ok ()) : Dead kid now (revoke kid now store).2 := by
  unfold revoke at succeeded ⊢
  split
  · rename_i missing
    rw [missing] at succeeded
    cases succeeded
  · intro found stored
    rw [get?_mark,if_pos rfl] at stored
    obtain ⟨_,_,rfl⟩ := Option.map_eq_some_iff.mp stored
    exact .inl rfl

theorem dead_byKid (dead : Dead kid now store) : store.byKid now kid = none := by
  rw [Option.eq_none_iff_forall_not_mem]
  intro key accepted
  obtain ⟨stored,live,lasts⟩ := byKid_some.mp accepted
  rcases dead key stored with revoked | expired
  · exact live revoked
  · omega

theorem dead_current (dead : Dead kid now store) {draw : Draw} (new : draw.uuid ≠ kid)
    (signs : (current draw now store).1 = .ok key) : key.kid ≠ kid := by
  unfold current at signs
  split at signs
  · rename_i found
    cases signs
    obtain ⟨stored,active,lasts⟩ := active?_some found
    rintro rfl
    rcases dead key stored with revoked | expired
    · rw [active] at revoked; cases revoked
    · omega
  · unfold addFreshKey addKey at signs
    split at signs
    · cases signs
    · cases signs
      exact new

theorem dead_jwks (dead : Dead kid now store) (apart : ∀ key ∈ store.all, isHybrid key.algorithm = true → pqcKid key.kid ≠ kid)
    (made : store.jwks now = .ok entries) : kid ∉ entries.map JwkJson.kid := by
  intro listed
  obtain ⟨key,stored,shown,rfl | ⟨hybrid,derived⟩⟩ := (mem_jwks store made).mp listed
  · obtain ⟨lasts,status⟩ := published_iff.mp shown
    rcases dead key stored with revoked | expired
    · rw [revoked] at status
      rcases status with active | verifies
      · cases active
      · cases verifies
    · omega
  · exact apart key (mem_all.mpr stored) hybrid derived.symm

end KeyStore

namespace KeyStoreService
variable {kid : String} {now : Int}

theorem revoke_dead {service : KeyStoreService crypto} (done : (revoke kid now service).1 = .ok ()) :
    KeyStore.Dead kid now (revoke kid now service).2.store := by
  have kills := @KeyStore.revoke_kills crypto service.store kid now
  unfold revoke marking at done ⊢
  cases ran : KeyStore.revoke kid now service.store with
  | mk result after =>
    rw [ran] at kills done
    cases result with
    | error e => cases done
    | ok => exact kills rfl

end KeyStoreService

namespace World
open KeyStoreService

-- The call does not bring `kid` back.
def Spares (kid : String) (w : World crypto) : Call → Prop
  | .addKey k ttlMs _ => k = kid → ttlMs ≤ 0
  | .addKeyWithMaterial key => KeyStore.Harmless kid w.now key
  | .init draw disk => draw.uuid ≠ kid ∧
    ∀ keys, (w.service.adapter.load disk).1 = .ok keys → ∀ key ∈ keys, KeyStore.Harmless kid w.now key
  | .current draw => draw.uuid ≠ kid
  | .ensureKey draw => draw.uuid ≠ kid
  | .rotate draw _ => draw.uuid ≠ kid
  | _ => True

theorem dead_perform {w : World crypto} (dead : KeyStore.Dead kid w.now w.service.store) (spares : Spares kid w call) :
    KeyStore.Dead kid (perform call w).2.now (perform call w).2.service.store := by
  let P : KeyStore crypto → Prop := KeyStore.Dead kid w.now
  have added : ∀ k ttlMs seed, (k = kid → ttlMs ≤ 0) → Keeps P (addKey k ttlMs seed w.now) :=
    fun k ttlMs seed other => keeps_putting (fun _ held => KeyStore.dead_addKey held other seed) _
  have fresh : ∀ draw : Draw, draw.uuid ≠ kid → Keeps P (addFreshKey draw w.now) :=
    fun draw new => added draw.uuid defaultTtlMs draw.seed fun same => absurd same new
  have retires : ∀ k, Keeps P (retire k w.now) := fun k => keeps_marking (fun _ held => KeyStore.dead_retire held k) _ _
  have revokes : ∀ k, Keeps P (revoke k w.now) := fun k => keeps_marking (fun _ held => KeyStore.dead_revoke held k) _ _
  have restores : ∀ key, KeyStore.Harmless kid w.now key → Keeps P (addKeyWithMaterial key w.now) :=
    fun key harmless => keeps_putting (fun _ held => KeyStore.dead_addKeyWithMaterial held harmless) _
  change P (run w.now call w.service).2.store
  cases call with
  | addKey k ttlMs seed =>
    rw [run,Fallible.map_run]
    exact added k ttlMs seed spares _ dead
  | addKeyWithMaterial key =>
    rw [run,Fallible.map_run]
    exact restores key spares _ dead
  | retire k =>
    rw [run,Fallible.map_run]
    exact retires k _ dead
  | revoke k =>
    rw [run,Fallible.map_run]
    exact revokes k _ dead
  | clear =>
    rw [run,Fallible.map_run]
    intro key stored
    cases stored
  | current draw =>
    rw [run,Fallible.map_run]
    exact keeps_current (fresh draw spares) _ dead
  | ensureKey draw =>
    rw [run,Fallible.map_run]
    exact keeps_ensureKey (fresh draw spares) _ dead
  | init draw disk =>
    rw [run,Fallible.map_run]
    exact keeps_init (fresh draw spares.1) (fun keys loaded key listed => restores key (spares.2 keys loaded key listed)) dead
  | rotate draw disk =>
    rw [run,Fallible.map_run]
    exact keeps_rotate (fresh draw spares) retires _ dead

theorem dead_since {initial : World crypto → Prop} {newer older : List (Entry Call (World crypto) (Except String (Option SigningKey)))}
    (lived : Lived initial (newer ++ entry :: older) w) (revoked : entry.call = .revoke kid) (succeeded : entry.answer = .ok reply)
    (spared : ∀ one ∈ newer, Spares kid one.found one.call) : KeyStore.Dead kid w.now w.service.store := by
  generalize whole : newer ++ entry :: older = log at lived
  induction lived generalizing newer with
  | start _ => simp at whole
  | @call log s past call ih =>
    cases newer with
    | nil =>
      simp only [List.nil_append,List.cons.injEq] at whole
      obtain ⟨rfl,_⟩ := whole
      dsimp only at revoked succeeded
      subst revoked
      change (run s.now (.revoke kid) s.service).1 = _ at succeeded
      change KeyStore.Dead kid s.now (run s.now (.revoke kid) s.service).2.store
      rw [run] at succeeded ⊢
      rw [Fallible.map_run]
      obtain ⟨_,done,_⟩ := Fallible.map_ok succeeded
      exact revoke_dead done
    | cons newest newer =>
      simp only [List.cons_append,List.cons.injEq] at whole
      obtain ⟨rfl,rest⟩ := whole
      exact dead_perform (ih (fun one listed => spared one (List.mem_cons_of_mem _ listed)) rest)
        (spared _ List.mem_cons_self)
  | other _ moved ih =>
    rw [moved.2]
    exact KeyStore.Dead.passes (ih spared whole) moved.1

-- As long as no call brings the kid back, it is not accepted, not listed, and
-- not signed with.
theorem revoked_stays {initial : World crypto → Prop}
    {newer older : List (Entry Call (World crypto) (Except String (Option SigningKey)))}
    (lived : Lived initial (newer ++ entry :: older) w) (revoked : entry.call = .revoke kid) (succeeded : entry.answer = .ok reply)
    (spared : ∀ one ∈ newer, Spares kid one.found one.call) : w.service.store.byKid w.now kid = none ∧
      (∀ draw key, draw.uuid ≠ kid → (KeyStore.current draw w.now w.service.store).1 = .ok key → key.kid ≠ kid) ∧
      ((∀ key ∈ w.service.store.all, isHybrid key.algorithm = true → KeyStore.pqcKid key.kid ≠ kid) →
        ∀ entries, w.service.store.jwks w.now = .ok entries → kid ∉ entries.map JwkJson.kid) := by
  have dead := dead_since lived revoked succeeded spared
  exact ⟨KeyStore.dead_byKid dead,fun draw key new => KeyStore.dead_current dead new,
    fun apart entries => KeyStore.dead_jwks dead apart⟩

end World

-- The first key is revoked.
def revokedWorld : World sampleCrypto := (World.perform (.revoke "a") (started (.classical .RS256))).2

theorem revoked_then_rotated : ∃ log, World.Lived (· = started (.classical .RS256)) log
    (World.perform (.rotate secondDraw freeDisk) revokedWorld).2 ∧
      (World.perform (.rotate secondDraw freeDisk) revokedWorld).2.service.store.byKid 0 "a" = none := by
  have begun : World.Lived (· = started (.classical .RS256)) [] (started (.classical .RS256)) := .start rfl
  have lived : World.Lived (· = started (.classical .RS256)) ([_] ++ _ :: []) _ :=
    (begun.call (.revoke "a")).call (.rotate secondDraw freeDisk)
  have succeeded : (World.perform (.revoke "a") (started (.classical .RS256))).1 = .ok none := by decide +kernel
  refine ⟨_,lived,?_⟩
  apply (World.revoked_stays lived rfl succeeded ?_).1
  intro one listed
  cases List.mem_singleton.mp listed
  change "b" ≠ "a"
  decide

theorem revoked_key_reloaded : ∃ log, World.Lived (· = started (.classical .RS256)) log
    (World.perform (.init secondDraw freeDisk) revokedWorld).2 ∧
      (World.perform (.revoke "a") (started (.classical .RS256))).1 = .ok none ∧
      revokedWorld.service.store.byKid 0 "a" = none ∧
      ((World.perform (.init secondDraw freeDisk) revokedWorld).2.service.store.byKid 0 "a").isSome = true ∧
      (KeyStore.current secondDraw 0 (World.perform (.init secondDraw freeDisk) revokedWorld).2.service.store).1.toOption.map
        SigningKey.kid = some "a" := by
  have begun : World.Lived (· = started (.classical .RS256)) [] (started (.classical .RS256)) := .start rfl
  refine ⟨_,(begun.call (.revoke "a")).call (.init secondDraw freeDisk),?_,?_,?_,?_⟩
  · decide +kernel
  · decide +kernel
  · decide +kernel
  · decide +kernel

end Pezhwan.Keys
