import Mathlib.Data.List.Perm.Subperm
import Pezhwan.Atomic.Meter
import Pezhwan.RateLimit.Windows

-- Any number of instances that count in one Redis and one MongoDB, while Redis
-- comes and goes.
namespace Pezhwan.RateLimit
open Atomic Prog Config Redis

structure Cluster where
  «namespace» : String
  given : RateLimitType → Option RateLimitRule
  toLowerCase : String → String

structure Call where
  place : Nat
  type : RateLimitType
  scope : String
  deriving DecidableEq, Repr

def meterOf (stored : Stored) : Meter := ⟨(Number stored.text).getD 0,stored.expiresAt⟩

namespace Cluster
variable (cluster : Cluster)

def cache (place : Nat) : RedisCacheImpl := ⟨place,cluster.namespace⟩

def service (place : Nat) : RateLimitService :=
  ⟨degradingCache (cluster.cache place),cluster.given,true,cluster.toLowerCase⟩

def program (call : Call) : Program RateLimitResult := consume (cluster.service call.place) call.type call.scope

def key (call : Call) : String := (cluster.service call.place).key call.type call.scope

def redisMeter (key : String) (w : World) : Option Meter :=
  ((w.servers 0).get? (cluster.namespace ++ ":" ++ key)).map meterOf

end Cluster

def mongoMeter (key : String) (w : World) : Option Meter :=
  (w.counters.get? key).map fun doc => ⟨doc.count.getD 0,some (doc.expiresAt.getD 0)⟩

-- The stores that all instances share.
inductive Store where
  | redis | mongo
  deriving DecidableEq, Repr

def Cluster.counter (cluster : Cluster) (key : String) : Store → World → Option Meter
  | .redis => cluster.redisMeter key
  | .mongo => mongoMeter key

-- A store serves an instance: Redis answers every command and can count under the
-- key, or Redis answers nothing and MongoDB does.
def Cluster.Serves (cluster : Cluster) (key : String) (place : Nat) (w : World) : Store → Prop
  | .redis => ((cluster.cache place).ready? w).isSome = true ∧
      (∀ client, (w.clients client).link = .up ∧ (w.clients client).hasCounters = true) ∧
      ∀ stored, Keyspace.live (w.servers 0) w.now (cluster.namespace ++ ":" ++ key) = some stored → (Number stored.text).isSome = true
  | .mongo => w.mongo = .up ∧ ∀ client, (w.clients client).link ≠ .up

-- Every client talks to the one Redis.
def Shared (w : World) : Prop := ∀ client, (w.clients client).server = 0

-- Time passes, clients and processes change in any way, commands begin and cease
-- to arrive; what is counted stays.
structure Outage (w t : World) : Prop where
  later : w.now ≤ t.now
  shared : Shared w → Shared t
  servers : t.servers = w.servers
  counters : t.counters = w.counters

-- What an action of a call does to the counters of a key.
structure Moves (cluster : Cluster) (key : String) (length : Nat) (s t : World) : Prop where
  now : t.now = s.now
  clients : t.clients = s.clients
  redis : Meter.Step length s.now (cluster.redisMeter key s) (cluster.redisMeter key t)
  mongo : Meter.Step length s.now (mongoMeter key s) (mongoMeter key t)

theorem Moves.counter (moves : Moves cluster key length s t) (store : Store) :
    Meter.Step length s.now (cluster.counter key store s) (cluster.counter key store t) := by
  cases store with
  | redis => exact moves.redis
  | mongo => exact moves.mongo

theorem Outage.counter (outage : Outage w t) (cluster : Cluster) (key : String) (store : Store) :
    cluster.counter key store t = cluster.counter key store w := by
  cases store with
  | redis => simp only [Cluster.counter,Cluster.redisMeter,outage.servers]
  | mongo => simp only [Cluster.counter,mongoMeter,outage.counters]

-- A move that has counted one request under a key, as the `n`th, and where.
inductive Tally (cluster : Cluster) (key : String) (n : Nat) (move : World × World) : Option Store → Prop where
  | shared (store : Store) (before : Meter.current move.1.now (cluster.counter key store move.1) < n)
      (after : Meter.current move.2.now (cluster.counter key store move.2) = n) : Tally cluster key n move (some store)
  | memory (place ttlSeconds : Nat) (counted : (n,(move.2.places place).memory) =
      MemoryCache.incrementAndExpire key ttlSeconds move.1.now (move.1.places place).memory) : Tally cluster key n move none

-- One store served the instance at every move.
def Served (cluster : Cluster) (key : String) (place : Nat) (moves : List (World × World)) (store : Store) : Prop :=
  ∀ move ∈ moves, cluster.Serves key place move.1 store

section
variable {cluster : Cluster} {key name : String} {length ttlSeconds : Nat} {s : World}

theorem moves_refl (s : World) : Moves cluster key length s s := ⟨rfl,rfl,.kept _,.kept _⟩

theorem moves_memory (s : World) (place : Nat) (memory : MemoryCache) :
    Moves cluster key length s (s.withMemory place memory) := ⟨rfl,rfl,.kept _,.kept _⟩

theorem moves_server {keys : Keyspace} (shared : Shared s)
    (step : Meter.Step length s.now (cluster.redisMeter key s)
      ((Dict.get? keys (cluster.namespace ++ ":" ++ key)).map meterOf)) :
    Moves cluster key length s (s.withServer (s.clients client).server keys) := by
  refine ⟨rfl,rfl,?_,.kept _⟩
  unfold Cluster.redisMeter
  rw [RedisCacheImpl.servers_withServer,if_pos (shared client).symm]
  exact step

theorem moves_send {run : Nat → Keyspace → Except Fault (α × Keyspace)} (shared : Shared s)
    (steps : ∀ value keys, run s.now (s.servers 0) = .ok (value,keys) →
      Meter.Step length s.now (cluster.redisMeter key s)
        ((Dict.get? keys (cluster.namespace ++ ":" ++ key)).map meterOf)) :
    Moves cluster key length s (send client run s).2 := by
  have executed : Moves cluster key length s (execute client run s).2 := by
    unfold execute World.keyspace
    rw [shared client]
    cases ran : run s.now (s.servers 0) with
    | error e => exact moves_refl s
    | ok result =>
      have moved := @moves_server cluster key length s client result.2 shared (steps _ _ ran)
      rw [shared client] at moved
      exact moved
  unfold send
  cases (s.clients client).link with
  | up => exact executed
  | lost => exact executed
  | down => exact moves_refl s

theorem live_meter (keys : Keyspace) (now : Nat) (name : String) :
    Meter.live now ((Dict.get? keys name).map meterOf) = (keys.live now name).map meterOf := by
  unfold Meter.live Keyspace.live
  cases Dict.get? keys name with
  | none => rfl
  | some stored =>
    by_cases held : stored.expiresAt.all (now < ·) = true
    · simp [Option.filter,meterOf,held]
    · simp [Option.filter,meterOf,held]

theorem prefixed_inj : cluster.namespace ++ ":" ++ name = cluster.namespace ++ ":" ++ key ↔ name = key :=
  ⟨fun same => @RedisCacheImpl.key_injective (cluster.cache 0) name key same,fun same => same ▸ rfl⟩

theorem set_other {keys : Keyspace} (other : name ≠ key) (stored : Stored) (now : Nat) :
    Meter.Step length now ((Dict.get? keys (cluster.namespace ++ ":" ++ key)).map meterOf)
      ((Dict.get? (Dict.set keys (cluster.namespace ++ ":" ++ name) stored) (cluster.namespace ++ ":" ++ key)).map meterOf) := by
  rw [Dict.get?_set_ne]
  · exact .kept _
  · exact fun same => other (prefixed_inj.mp same).symm

theorem incr_steps {keys left : Keyspace} (ran : Keyspace.incr (cluster.namespace ++ ":" ++ name) now keys = .ok (n,left)) :
    Meter.Step length now ((Dict.get? keys (cluster.namespace ++ ":" ++ key)).map meterOf)
        ((Dict.get? left (cluster.namespace ++ ":" ++ key)).map meterOf) ∧
      Meter.current now ((Dict.get? keys (cluster.namespace ++ ":" ++ name)).map meterOf) < n ∧
      Meter.current now ((Dict.get? left (cluster.namespace ++ ":" ++ name)).map meterOf) = n := by
  have known := live_meter keys now (cluster.namespace ++ ":" ++ name)
  unfold Keyspace.incr at ran
  cases live : keys.live now (cluster.namespace ++ ":" ++ name) with
  | none =>
    rw [live] at ran known
    cases ran
    refine ⟨?_,?_,?_⟩
    · by_cases same : name = key
      · subst same
        rw [Dict.get?_set_self]
        exact .opened known nofun
      · exact set_other same _ now
    · rw [Meter.current_lapsed known]
      exact Nat.one_pos
    · rw [Dict.get?_set_self]
      rfl
  | some stored =>
    rw [live] at ran known
    have present : Dict.get? keys (cluster.namespace ++ ":" ++ name) = some stored := (Option.filter_eq_some_iff.mp live).1
    rw [present] at known
    dsimp only at ran
    cases number : Number stored.text with
    | none => rw [number] at ran; cases ran
    | some count =>
      rw [number] at ran
      cases ran
      have counted : meterOf stored = ⟨count,stored.expiresAt⟩ := by simp [meterOf,number]
      have further : meterOf ⟨(count+1).repr,stored.expiresAt⟩ = ⟨count+1,stored.expiresAt⟩ := by simp [meterOf]
      have held : Meter.live now (some (Meter.mk count stored.expiresAt)) = some ⟨count,stored.expiresAt⟩ := by
        rw [← counted]
        exact known
      refine ⟨?_,?_,?_⟩
      · by_cases same : name = key
        · subst same
          rw [present,Dict.get?_set_self,Option.map_some,Option.map_some,counted,further]
          exact .counted held
        · exact set_other same _ now
      · rw [present,Option.map_some,counted,Meter.current_held held]
        exact Nat.lt_succ_self _
      · rw [Dict.get?_set_self,Option.map_some,further]
        apply Meter.current_held
        unfold Meter.live at held ⊢
        rw [Option.filter_eq_some_iff] at held ⊢
        exact ⟨rfl,held.2⟩

theorem expire_steps {keys left : Keyspace} (far : name = key → length ≤ ttlSeconds * 1000)
    (ran : Keyspace.expire (cluster.namespace ++ ":" ++ name) ttlSeconds now keys = .ok ((),left)) :
    Meter.Step length now ((Dict.get? keys (cluster.namespace ++ ":" ++ key)).map meterOf)
      ((Dict.get? left (cluster.namespace ++ ":" ++ key)).map meterOf) := by
  have known := live_meter keys now (cluster.namespace ++ ":" ++ name)
  unfold Keyspace.expire at ran
  cases live : keys.live now (cluster.namespace ++ ":" ++ name) with
  | none =>
    rw [live] at ran
    cases ran
    exact .kept _
  | some stored =>
    rw [live] at ran known
    cases ran
    have present : Dict.get? keys (cluster.namespace ++ ":" ++ name) = some stored := (Option.filter_eq_some_iff.mp live).1
    by_cases same : name = key
    · subst same
      rw [present] at known
      rw [present,Dict.get?_set_self]
      exact .renewed known (Nat.add_le_add_left (far rfl) now)
    · exact set_other same _ now

theorem mongo_steps (far : name = key → length ≤ ttlSeconds * 1000) (positive : 0 < ttlSeconds) (s : World) :
    let t := {s with counters := s.counters.set name (advance s.now (s.now + ttlSeconds * 1000) (s.counters.get? name))}
    Moves cluster key length s t ∧ ∃ n, (advance s.now (s.now + ttlSeconds * 1000) (s.counters.get? name)).count = some (n+1) ∧
      Meter.current s.now (mongoMeter name s) < n+1 ∧ Meter.current t.now (mongoMeter name t) = n+1 := by
  intro t
  have lapses : ((s.counters.get? name).bind RateLimitCounterDoc.expiresAt).getD 0 ≤ s.now →
      Meter.live s.now (mongoMeter name s) = none := by
    intro lapsed
    unfold mongoMeter Meter.live
    cases held : s.counters.get? name with
    | none => rfl
    | some doc =>
      rw [held] at lapsed
      have ended : ¬ s.now < doc.expiresAt.getD 0 := Nat.not_lt.mpr lapsed
      simp [Option.filter,ended]
  have own : mongoMeter name t = some ⟨(advance s.now (s.now + ttlSeconds * 1000) (s.counters.get? name)).count.getD 0,
      some ((advance s.now (s.now + ttlSeconds * 1000) (s.counters.get? name)).expiresAt.getD 0)⟩ := by
    simp [mongoMeter,t]
  have elsewhere : name ≠ key → mongoMeter key t = mongoMeter key s := by
    intro other
    unfold mongoMeter
    rw [Dict.get?_set_ne _ _ fun same => other same.symm]
  by_cases lapsed : ((s.counters.get? name).bind RateLimitCounterDoc.expiresAt).getD 0 ≤ s.now
  · have opened : advance s.now (s.now + ttlSeconds * 1000) (s.counters.get? name) = ⟨some 1,some (s.now + ttlSeconds * 1000)⟩ := by
      simp [advance,lapsed]
    rw [opened] at own ⊢
    have empty := Meter.current_lapsed (lapses lapsed)
    refine ⟨⟨rfl,rfl,.kept _,?_⟩,0,rfl,by rw [empty]; exact Nat.one_pos,?_⟩
    · by_cases same : name = key
      · subst same
        rw [own]
        refine .opened (lapses lapsed) ?_
        intro e equal
        cases equal
        exact Nat.add_le_add_left (far rfl) s.now
      · rw [elsewhere same]
        exact .kept _
    · rw [own]
      apply Meter.current_held
      simp [Meter.live,Option.filter,t,positive]
  · cases held : s.counters.get? name with
    | none => simp [held] at lapsed
    | some doc =>
      cases ends : doc.expiresAt with
      | none => simp [held,ends] at lapsed
      | some e =>
        have later : s.now < e := by simpa [held,ends] using lapsed
        have counted : advance s.now (s.now + ttlSeconds * 1000) (some doc) = ⟨some (doc.count.getD 0 + 1),some e⟩ := by
          simp [advance,ends,Nat.not_le.mpr later]
        have before : mongoMeter name s = some ⟨doc.count.getD 0,some e⟩ := by simp [mongoMeter,held,ends]
        have live : ∀ count, Meter.live s.now (some ⟨count,some e⟩) = some ⟨count,some e⟩ := by
          intro count
          simp [Meter.live,Option.filter,later]
        rw [held,counted] at own
        rw [counted]
        refine ⟨⟨rfl,rfl,.kept _,?_⟩,doc.count.getD 0,rfl,?_,?_⟩
        · by_cases same : name = key
          · subst same
            rw [own,before]
            exact .counted (live _)
          · rw [elsewhere same]
            exact .kept _
        · rw [before,Meter.current_held (live _)]
          exact Nat.lt_succ_self _
        · rw [own]
          exact Meter.current_held (live _)

-- The actions of one request: each moves the counters by a step, and one of them
-- has counted the request as often as the answer says.
abbrev Acting (cluster : Cluster) (key : String) (length : Nat) (i : CallId) (p : Program α) (memory : List (World × World))
    (post : Except Fault α → List (World × World) → Prop) : Prop :=
  p.Acts Shared i (fun _ s t => Moves cluster key length s t) memory post

-- Some move has counted the request; a store that served throughout is the one.
def Placed (cluster : Cluster) (name : String) (place n : Nat) (moves : List (World × World)) : Prop :=
  ∃ move ∈ moves, ∃ kept, Tally cluster name n move kept ∧ ∀ store, Served cluster name place moves store → kept = some store

def Counts (cluster : Cluster) (name : String) (place : Nat) : Except Fault Nat → List (World × World) → Prop
  | .ok n,moves => Placed cluster name place n moves
  | .error _,moves => ∀ store, ¬ Served cluster name place moves store

theorem served_tail (served : Served cluster name place (move :: moves) store) : Served cluster name place moves store :=
  fun earlier listed => served earlier (List.mem_cons_of_mem _ listed)

theorem send_answers {run : Nat → Keyspace → Except Fault (α × Keyspace)} (shared : Shared s)
    (up : (s.clients client).link = .up) (ran : run s.now (s.servers 0) = .ok (value,keys)) :
    (send client run s).1 = .ok value := by
  simp [send,execute,World.keyspace,up,shared client,ran]

theorem send_result {run : Nat → Keyspace → Except Fault (α × Keyspace)} (shared : Shared s)
    (answered : (send client run s).1 = .ok value) : ∃ keys, run s.now (s.servers 0) = .ok (value,keys) ∧
      (send client run s).2 = s.withServer (s.clients client).server keys := by
  unfold send at answered ⊢
  cases link : (s.clients client).link with
  | lost => rw [link] at answered; cases answered
  | down => rw [link] at answered; cases answered
  | up =>
    rw [link] at answered
    dsimp only at answered ⊢
    unfold execute World.keyspace at answered ⊢
    rw [shared client] at answered ⊢
    cases ran : run s.now (s.servers 0) with
    | error e => rw [ran] at answered; cases answered
    | ok result =>
      rw [ran] at answered
      cases answered
      exact ⟨result.2,rfl,rfl⟩

theorem redis_withServer {keys : Keyspace} (shared : Shared s) (client : Nat) : cluster.redisMeter name
    (s.withServer (s.clients client).server keys) = (Dict.get? keys (cluster.namespace ++ ":" ++ name)).map meterOf := by
  unfold Cluster.redisMeter
  rw [RedisCacheImpl.servers_withServer,if_pos (shared client).symm]

variable {i : CallId} {memory : List (World × World)}

theorem acts_memory (unserved : ∀ store, ¬ Served cluster name place memory store) : Acting cluster key length i
    (atomic fun _ w => (cluster.cache place).useMemory (MemoryCache.incrementAndExpire name ttlSeconds) w) memory
    (Counts cluster name place) := by
  refine Acts.atomic fun s _ => ⟨moves_memory s place _,?_⟩
  refine ⟨_,List.mem_cons_self,none,.memory place ttlSeconds ?_,fun store served => absurd (served_tail served) (unserved store)⟩
  unfold RedisCacheImpl.useMemory
  dsimp only
  rw [show (cluster.cache place).place = place from rfl,RedisCacheImpl.memory_withMemory]

theorem incr_answers (shared : Shared s) (serves : cluster.Serves name place s .redis) (client : Nat) :
    ∃ n, (send client (Keyspace.incr (cluster.namespace ++ ":" ++ name)) s).1 = .ok n := by
  obtain ⟨_,reached,readable⟩ := serves
  have ran : ∃ n keys, Keyspace.incr (cluster.namespace ++ ":" ++ name) s.now (s.servers 0) = .ok (n,keys) := by
    unfold Keyspace.incr
    cases live : Keyspace.live (s.servers 0) s.now (cluster.namespace ++ ":" ++ name) with
    | none => exact ⟨_,_,rfl⟩
    | some stored =>
      obtain ⟨n,number⟩ := Option.isSome_iff_exists.mp (readable stored live)
      dsimp only
      rw [number]
      exact ⟨_,_,rfl⟩
  obtain ⟨n,keys,ran⟩ := ran
  exact ⟨n,send_answers shared (reached client).1 ran⟩

theorem acts_countOn (far : name = key → length ≤ ttlSeconds * 1000) (client : Nat)
    (unserved : ¬ Served cluster name place memory .mongo) :
    Acting cluster key length i ((cluster.cache place).countOn name ttlSeconds client) memory (Counts cluster name place) := by
  -- Redis cannot have served where a command failed, nor MongoDB.
  have failed : ∀ {moves : List (World × World)} {e : Fault}, (Served cluster name place moves .mongo → Served cluster name place memory .mongo) →
      ¬ Served cluster name place moves .redis → Counts cluster name place (.error e) moves := by
    intro moves e earlier unanswered store
    cases store with
    | redis => exact unanswered
    | mongo => exact fun served => unserved (earlier served)
  unfold RedisCacheImpl.countOn
  refine Acts.bind (Acts.effect fun s shared => ⟨?_,?_⟩)
  · exact moves_send shared fun n keys ran => (incr_steps ran).1
  · cases answered : (send client (Keyspace.incr ((cluster.cache place).key name)) s).1 with
    | error e =>
      refine failed served_tail fun served => ?_
      obtain ⟨n,known⟩ := incr_answers shared (served _ List.mem_cons_self) client
      exact nomatch answered.symm.trans known
    | ok count =>
      have tally : Tally cluster name count (s,(send client (Keyspace.incr ((cluster.cache place).key name)) s).2) (some .redis) := by
        obtain ⟨keys,ran,left⟩ := send_result shared answered
        have steps : Meter.Step 0 s.now ((Dict.get? (s.servers 0) (cluster.namespace ++ ":" ++ name)).map meterOf)
          ((Dict.get? keys (cluster.namespace ++ ":" ++ name)).map meterOf) ∧ _ := incr_steps ran
        obtain ⟨_,before,after⟩ := steps
        refine .shared .redis before ?_
        rw [left]
        change Meter.current _ (cluster.redisMeter name _) = count
        rw [redis_withServer shared client]
        exact after
      have counted : ∀ moves : List (World × World), (s,(send client (Keyspace.incr ((cluster.cache place).key name)) s).2) ∈ moves →
          (Served cluster name place moves .mongo → Served cluster name place memory .mongo) →
          Counts cluster name place (.ok count) moves := by
        intro moves listed earlier
        refine ⟨_,listed,_,tally,fun store served => ?_⟩
        cases store with
        | redis => rfl
        | mongo => exact absurd (earlier served) unserved
      dsimp only
      by_cases first : count = 1
      · rw [if_pos first]
        refine Acts.bind (Acts.atomic fun t _ => ⟨moves_refl t,?_⟩)
        dsimp only
        cases found : (t.places (cluster.cache place).place).client.filter fun bound => (t.clients bound).hasCounters with
        | none =>
          refine failed (served_tail ∘ served_tail) fun served => ?_
          obtain ⟨ready,reached,_⟩ := served _ List.mem_cons_self
          obtain ⟨bound,known⟩ := Option.isSome_iff_exists.mp ready
          rw [(Option.filter_eq_some_iff.mp known).1,Option.filter_some,if_pos (reached bound).2] at found
          cases found
        | some bound =>
          refine Acts.bind (Acts.effect fun u shared => ⟨moves_send shared fun _ keys ran => expire_steps far ran,?_⟩)
          cases answered : (send bound (Keyspace.expire ((cluster.cache place).key name) ttlSeconds) u).1 with
          | error e =>
            refine failed (served_tail ∘ served_tail ∘ served_tail) fun served => ?_
            have up := ((served _ List.mem_cons_self).2.1 bound).1
            have ran : ∃ keys, Keyspace.expire ((cluster.cache place).key name) ttlSeconds u.now (u.servers 0) = .ok ((),keys) := by
              unfold Keyspace.expire
              split <;> exact ⟨_,rfl⟩
            obtain ⟨keys,ran⟩ := ran
            exact nomatch answered.symm.trans (send_answers shared up ran)
          | ok value => exact counted _ (by simp) (served_tail ∘ served_tail ∘ served_tail)
      · rw [if_neg first]
        exact counted _ List.mem_cons_self served_tail

theorem acts_increment (far : name = key → length ≤ ttlSeconds * 1000) (unserved : ¬ Served cluster name place memory .mongo) :
    Acting cluster key length i ((cluster.cache place).incrementAndExpire name ttlSeconds) memory (Counts cluster name place) := by
  unfold RedisCacheImpl.incrementAndExpire RedisCacheImpl.degrading
  refine Acts.bind (Acts.atomic fun s _ => ⟨moves_refl s,?_⟩)
  dsimp only
  cases found : ((cluster.cache place).ready? s).filter fun client => (s.clients client).hasCounters with
  | none =>
    refine acts_memory fun store served => ?_
    cases store with
    | redis =>
      obtain ⟨ready,reached,_⟩ := served _ List.mem_cons_self
      obtain ⟨client,known⟩ := Option.isSome_iff_exists.mp ready
      rw [known,Option.filter_some,if_pos (reached client).2] at found
      cases found
    | mongo => exact unserved (served_tail served)
  | some client =>
    refine Acts.bind (Acts.attempt ((acts_countOn far client fun served => unserved (served_tail served)).mono ?_))
    intro result moves counted
    cases result with
    | ok n => exact counted
    | error e => exact acts_memory counted

theorem mongoUpdate_cases (name : String) (ttlSeconds : Nat) (s : World) :
    let counter := advance s.now (s.now + ttlSeconds * 1000) (s.counters.get? name)
    let updated := {s with counters := s.counters.set name counter}
    mongoUpdate name ttlSeconds s = (.ok counter,updated) ∨
      ∃ e, mongoUpdate name ttlSeconds s = (.error e,updated) ∨ mongoUpdate name ttlSeconds s = (.error e,s) := by
  intro counter updated
  unfold mongoUpdate
  split
  · exact .inl rfl
  · exact .inr ⟨_,.inl rfl⟩
  · exact .inr ⟨_,.inr rfl⟩

theorem acts_mongo (far : name = key → length ≤ ttlSeconds * 1000) (positive : 0 < ttlSeconds)
    (unserved : ¬ Served cluster name place memory .redis) :
    Acting cluster key length i (mongoIncrement name ttlSeconds) memory (Counts cluster name place) := by
  unfold mongoIncrement
  refine Acts.bind (Acts.effect fun s _ => ?_)
  obtain ⟨moved,n,count,before,after⟩ := @mongo_steps cluster key name length ttlSeconds far positive s
  have refused : ∀ {e : Fault} (t : World), (mongoUpdate name ttlSeconds s).1 = .error e →
      Counts cluster name place (.error e) ((s,t) :: memory) := by
    intro e t answer store served
    cases store with
    | redis => exact unserved (served_tail served)
    | mongo =>
      have up : s.mongo = .up := (served _ List.mem_cons_self).1
      simp [mongoUpdate,up] at answer
  rcases mongoUpdate_cases name ttlSeconds s with ran | ⟨e,ran | ran⟩
  · rw [ran]
    refine ⟨moved,?_⟩
    dsimp only
    rw [count]
    refine ⟨_,List.mem_cons_self,_,.shared .mongo before after,fun store served => ?_⟩
    cases store with
    | redis => exact absurd (served_tail served) unserved
    | mongo => rfl
  · have answer := refused (mongoUpdate name ttlSeconds s).2 (congrArg Prod.fst ran)
    rw [ran] at answer ⊢
    exact ⟨moved,answer⟩
  · have answer := refused (mongoUpdate name ttlSeconds s).2 (congrArg Prod.fst ran)
    rw [ran] at answer ⊢
    exact ⟨moves_refl s,answer⟩

theorem acts_ready (place : Nat) {post : Except Fault Bool → List (World × World) → Prop}
    (ended : ∀ ready moves, (¬ Served cluster name place moves (if ready then .mongo else .redis)) → post (.ok ready) moves) :
    Acting cluster key length i (cluster.cache place).ready memory post := by
  unfold RedisCacheImpl.ready
  refine Acts.bind (Acts.atomic fun s _ => ⟨moves_refl s,?_⟩)
  dsimp only
  cases found : (cluster.cache place).ready? s with
  | none =>
    refine ended false _ fun served => ?_
    have ready := (served _ List.mem_cons_self).1
    simp [found] at ready
  | some client =>
    refine Acts.bind (Acts.attempt (Acts.effect fun t shared => ⟨moves_send shared ?_,?_⟩))
    · intro value keys equal
      cases equal
      exact .kept _
    · cases answered : (send client (Keyspace.get ((cluster.cache place).key "__ready_probe__")) t).1 with
      | ok value =>
        refine ended true _ fun served => ?_
        have down := (served _ List.mem_cons_self).2 client
        cases link : (t.clients client).link with
        | up => exact down link
        | lost => simp [send,link] at answered
        | down => simp [send,link] at answered
      | error e =>
        refine ended false _ fun served => ?_
        have up := ((served _ List.mem_cons_self).2.1 client).1
        cases answered.symm.trans (send_answers shared up rfl)

-- Every answer is the decision on a count taken in one of the stores.
def Decided (cluster : Cluster) (call : Call) (result : Except Fault RateLimitResult) (moves : List (World × World)) : Prop :=
  ∀ answer, result = .ok answer → ∃ rule n, (cluster.service call.place).rules.lookup call.type = some rule ∧
    answer = decision rule n ∧ Placed cluster (cluster.key call) call.place n moves

theorem rules_all (service : RateLimitService) (type : RateLimitType) : ∃ rule, service.rules.lookup type = some rule := by
  cases type <;> exact ⟨_,rfl⟩

theorem acts_consume (call : Call) (far : ∀ rule, (cluster.service call.place).rules.lookup call.type = some rule →
    cluster.key call = key → length ≤ ttlSecondsOf rule * 1000) :
    Acting cluster key length i (cluster.program call) memory (Decided cluster call) := by
  obtain ⟨rule,ruled⟩ := rules_all (cluster.service call.place) call.type
  have increments : ∀ moves, (¬ Served cluster (cluster.key call) call.place moves .mongo) → Acting cluster key length i (some <$> (cluster.cache call.place).incrementAndExpire
      (cluster.key call) (ttlSecondsOf rule)) moves fun result moves =>
        ∀ counted, result = .ok counted → ∃ n, counted = some n ∧ Placed cluster (cluster.key call) call.place n moves := by
    intro moves unserved
    refine Acts.bind ((acts_increment (far rule ruled) unserved).mono ?_)
    intro result moves counted
    cases result with
    | error e => exact nofun
    | ok n =>
      intro answer equal
      cases equal
      exact ⟨n,rfl,counted⟩
  unfold Cluster.program consume
  rw [ruled]
  dsimp only [Cluster.service,degradingCache]
  refine Acts.bind (@acts_ready cluster key (cluster.key call) length i memory call.place _ ?_)
  intro ready moves unserved
  cases ready with
  | true =>
    refine Acts.bind ((increments moves unserved).mono ?_)
    intro result moves counted
    cases result with
    | error e => exact nofun
    | ok out =>
      obtain ⟨n,rfl,tally⟩ := counted out rfl
      intro answer equal
      cases equal
      exact ⟨rule,n,ruled,rfl,tally⟩
  | false =>
    refine Acts.bind (Acts.attempt ((acts_mongo (far rule ruled) ?_ unserved).mono ?_))
    · unfold ttlSecondsOf
      omega
    · intro result moves counted
      cases result with
      | ok n =>
        intro answer equal
        cases equal
        exact ⟨rule,n,ruled,rfl,counted⟩
      | error e =>
        refine Acts.bind ((increments moves (counted .mongo)).mono ?_)
        intro result moves counted
        cases result with
        | error e => exact nofun
        | ok out =>
          obtain ⟨n,rfl,tally⟩ := counted out rfl
          intro answer equal
          cases equal
          exact ⟨rule,n,ruled,rfl,tally⟩

-- The request was counted by a store at a time of the interval, within the limit.
def LetThrough (view : World → Option Meter) (limit a b : Nat) (past : List (Event CallId Call World)) (i : CallId) : Prop :=
  ∃ event ∈ past, event.who = i ∧ (Meter.tickOf view World.now event).within a b = true ∧
    (Meter.tickOf view World.now event).grants limit = true

-- All the requests of an interval find one shared store to count them, and no
-- window of that store's counter ends in the interval.
structure Undivided (cluster : Cluster) (key : String) (store : Store) (a b : Nat) (past : List (Event CallId Call World)) :
    Prop where
  serves : ∀ event ∈ past, a ≤ event.before.now → event.before.now ≤ b → cluster.key event.call = key →
    cluster.Serves key event.call.place event.before store
  lasts : ∀ event ∈ past, a ≤ event.before.now → event.before.now ≤ b → ∀ meter e,
    Meter.live event.before.now (cluster.counter key store event.before) = some meter → meter.ends = some e → b < e

theorem letThrough_granted {view : World → Option Meter} {past : List (Event CallId Call World)} {ids : List CallId}
    (nodup : ids.Nodup) (through : ∀ i ∈ ids, LetThrough view limit a b past i) :
    ids.length ≤ Meter.granted limit a b (past.map (Meter.tickOf view World.now)) := by
  have listed : ids ⊆ (past.filter fun event => (Meter.tickOf view World.now event).within a b &&
      (Meter.tickOf view World.now event).grants limit).map Event.who := by
    intro i member
    obtain ⟨event,present,rfl,within,grants⟩ := through i member
    exact List.mem_map_of_mem (List.mem_filter.mpr ⟨present,by simp [within,grants]⟩)
  have fewer := (nodup.subperm listed).length_le
  unfold Meter.granted
  rw [List.filter_map,List.length_map]
  rw [List.length_map] at fewer
  exact fewer

theorem ttl_covers (rule : RateLimitRule) : 0 < ttlSecondsOf rule * 1000 ∧ rule.windowMs ≤ ttlSecondsOf rule * 1000 := by
  unfold ttlSecondsOf
  omega

section
variable {initial : World} {past : List (Event CallId Call World)} {c : Config CallId Call World Fault RateLimitResult}
  {rule : RateLimitRule} {a b : Nat} {ids : List CallId} {store : Store}

theorem outage_kept (ruled : (cluster.service 0).rules.lookup type = some rule)
    (separate : ∀ call, cluster.key call = key → call.type = type) (shared : Shared initial)
    (traced : Traced cluster.program Outage initial past c) :
    Kept Shared (fun _ _ s t => Moves cluster key (ttlSecondsOf rule * 1000) s t) (Decided cluster) past c := by
  refine (traced_inv ?_ (fun moved shared client => by rw [moved.clients]; exact shared client)
    (fun outage => outage.shared) shared traced).1
  intro i call
  apply acts_consume
  intro rule' ruled' same
  have equal : some rule' = some rule := by
    rw [← ruled',separate call same]
    exact ruled
  rw [Option.some.inj equal]

theorem kept_moves (kept : Kept Shared (fun _ _ s t => Moves cluster key length s t) (Decided cluster) past c) :
    ∀ event ∈ past, Moves cluster key length event.before event.after := by
  intro event listed
  obtain ⟨later,earlier,rfl⟩ := List.append_of_mem listed
  exact (along_at kept.along).1

theorem outage_metered (kept : Kept Shared (fun _ _ s t => Moves cluster key length s t) (Decided cluster) past c)
    (traced : Traced cluster.program Outage initial past c) (store : Store) : Meter.Metered length
      (past.map (Meter.tickOf (cluster.counter key store) World.now)) (cluster.counter key store c.state) c.state.now := by
  apply Meter.traced_metered traced
  · intro event listed
    have step := kept_moves kept event listed
    exact ⟨step.now,step.counter store⟩
  · intro s t outage
    exact ⟨outage.counter cluster key store,outage.later⟩

theorem outage_placed (ruled : (cluster.service 0).rules.lookup type = some rule)
    (separate : ∀ call, cluster.key call = key → call.type = type)
    (kept : Kept Shared (fun _ _ s t => Moves cluster key length s t) (Decided cluster) past c)
    (finished : c.Finished i call (.ok answer)) (same : cluster.key call = key) (allowed : answer.allowed = true) :
    ∃ n, n ≤ rule.limit ∧ Placed cluster key call.place n (mine i past) := by
  obtain ⟨rule',n,ruled',rfl,placed⟩ := kept.busy i call _ finished answer rfl
  have equal : some rule' = some rule := by
    rw [← ruled',separate call same]
    exact ruled
  rw [Option.some.inj equal,decision_allowed,decide_eq_true_eq] at allowed
  rw [same] at placed
  exact ⟨n,allowed,placed⟩

theorem tally_through (kept : Kept Shared (fun _ _ s t => Moves cluster key length s t) (Decided cluster) past c)
    (present : event ∈ past) (tally : Tally cluster key n (event.before,event.after) (some store)) (few : n ≤ limit) :
    LetThrough (cluster.counter key store) limit event.before.now event.before.now past event.who := by
  cases tally with
  | shared _ before after =>
    rw [(kept_moves kept event present).now] at after
    refine ⟨event,present,rfl,?_,?_⟩
    · simp [Meter.Tick.within,Meter.tickOf]
    · simp [Meter.Tick.grants,Meter.tickOf,after,before,few]

-- Where one store counts every request of an interval in one of its windows, the
-- limit holds; the header promises it of every outage.
theorem limit_undivided (ruled : (cluster.service 0).rules.lookup type = some rule)
    (separate : ∀ call, cluster.key call = key → call.type = type) (shared : Shared initial)
    (traced : Traced cluster.program Outage initial past c) (short : b < a + rule.windowMs)
    (undivided : Undivided cluster key store a b past) (nodup : ids.Nodup)
    (allowed : ∀ i ∈ ids, (∃ call answer, c.Finished i call (.ok answer) ∧ cluster.key call = key ∧ answer.allowed = true) ∧
      ∀ event ∈ past, event.who = i → a ≤ event.before.now ∧ event.before.now ≤ b) : ids.length ≤ rule.limit := by
  have kept := outage_kept ruled separate shared traced
  obtain ⟨positive,covers⟩ := ttl_covers rule
  have through : ∀ i ∈ ids, LetThrough (cluster.counter key store) rule.limit a b past i := by
    intro i listed
    obtain ⟨⟨call,answer,finished,same,yes⟩,inside⟩ := allowed i listed
    obtain ⟨n,few,move,moved,counter,tally,only⟩ := outage_placed ruled separate kept finished same yes
    have served : Served cluster key call.place (mine i past) store := by
      intro move moved
      obtain ⟨event,present,own,rfl⟩ := mine_member moved
      obtain ⟨p,running⟩ := traced_call traced present
      rw [own] at running
      obtain rfl : call = event.call := congrArg Prod.fst (Option.some.inj (finished.symm.trans running))
      obtain ⟨reached,early⟩ := inside event present own
      exact undivided.serves event present reached early same
    obtain rfl := only store served
    obtain ⟨event,present,rfl,rfl⟩ := mine_member moved
    obtain ⟨event',listed',own,_,grants⟩ := tally_through kept present tally few
    refine ⟨event',listed',own,?_,grants⟩
    simp [Meter.Tick.within,Meter.tickOf,inside event' listed' own]
  refine (letThrough_granted nodup through).trans
    (Meter.single_bound positive (by omega) (outage_metered kept traced store) ?_)
  intro tick listed within
  obtain ⟨event,present,rfl⟩ := List.mem_map.mp listed
  obtain ⟨reached,early⟩ := Bool.and_eq_true_iff.mp within
  exact undivided.lasts event present (of_decide_eq_true reached) (of_decide_eq_true early)

end
end

def sampleCluster : Cluster := ⟨"pezhwan",fun _ => some ⟨2,1000⟩,id⟩

def sampleCall : Call := ⟨0,.login,"a"⟩

theorem sample_separate (call : Call) (same : sampleCluster.key call = "rl:login:a") : call.type = .login := by
  have letters := congrArg String.toList same
  obtain ⟨place,type,scope⟩ := call
  cases type <;> first | rfl | simp [Cluster.key,Cluster.service,RateLimitService.key,RateLimitType.name,sampleCluster] at letters

-- Of three requests at one instant the first two are let through.
def atOnce : List (Cue CallId Call World) :=
  .start 0 sampleCall :: List.replicate 6 (.act 0) ++ .start 1 sampleCall :: List.replicate 4 (.act 1) ++
    .start 2 sampleCall :: List.replicate 4 (.act 2)

theorem steady_clients {program : Call → Program RateLimitResult} {initial : World} {past : List (Event CallId Call World)}
    {c : Config CallId Call World Fault RateLimitResult} (traced : Traced program Eq initial past c)
    (same : ∀ event ∈ past, event.after.clients = event.before.clients) :
    c.state.clients = initial.clients ∧ ∀ event ∈ past, event.before.clients = initial.clients := by
  induction traced with
  | initial => exact ⟨rfl,nofun⟩
  | start _ _ _ _ ih => exact ih same
  | act path i running ih =>
    obtain ⟨now,earlier⟩ := ih fun event listed => same event (List.mem_cons_of_mem _ listed)
    refine ⟨(same _ List.mem_cons_self).trans now,?_⟩
    intro event listed
    rcases List.mem_cons.mp listed with rfl | before
    · exact now
    · exact earlier event before
  | other _ moved ih => exact moved ▸ ih same

theorem untouched_outage {program : Call → Program RateLimitResult} {initial : World} {past : List (Event CallId Call World)}
    {c : Config CallId Call World Fault RateLimitResult} (traced : Traced program Eq initial past c) :
    Traced program Outage initial past c := by
  induction traced with
  | initial => exact .initial
  | start _ i call free ih => exact ih.start i call free
  | act _ i running ih => exact ih.act i running
  | other _ moved ih =>
    subst moved
    exact ih

theorem limit_undivided_at_once : ∃ past c, Traced sampleCluster.program Outage (sampleWorld 0 "ready" .up) past c ∧
    Undivided sampleCluster "rl:login:a" .redis 0 0 past ∧ c.Finished 0 sampleCall (.ok ⟨true,1,0,2⟩) ∧
    c.Finished 1 sampleCall (.ok ⟨true,0,0,2⟩) ∧ c.Finished 2 sampleCall (.ok ⟨false,0,1000,2⟩) ∧ [0,1].length ≤ 2 := by
  have performed : (perform sampleCluster.program [] (start (sampleWorld 0 "ready" .up)) atOnce).any (fun after =>
      after.2.finishedWith 0 sampleCall (.ok ⟨true,1,0,2⟩) && after.2.finishedWith 1 sampleCall (.ok ⟨true,0,0,2⟩) &&
      after.2.finishedWith 2 sampleCall (.ok ⟨false,0,1000,2⟩) &&
      after.1.all fun event => decide (event.call = sampleCall ∧ event.before.now = 0) &&
        ((sampleCluster.cache 0).ready? event.before).isSome &&
        (Keyspace.live (event.before.servers 0) event.before.now "pezhwan:rl:login:a").all (fun stored => (Number stored.text).isSome) &&
        (Meter.live event.before.now (sampleCluster.redisMeter "rl:login:a" event.before)).all fun meter =>
          meter.ends.all (0 < ·)) = true := by
    decide +kernel
  obtain ⟨past,c,untouched,checked⟩ := perform_exists performed (fun change cued => by simp [atOnce] at cued)
  simp only [Bool.and_eq_true,List.all_eq_true,decide_eq_true_eq] at checked
  obtain ⟨⟨⟨first,second⟩,third⟩,inside⟩ := checked
  have traced := untouched_outage untouched
  have kept := outage_kept rfl sample_separate (fun _ => rfl) traced
  have clients := (steady_clients untouched fun event listed => (kept_moves kept event listed).clients).2
  have undivided : Undivided sampleCluster "rl:login:a" .redis 0 0 past := by
    refine ⟨?_,?_⟩
    · intro event listed _ _ _
      obtain ⟨⟨⟨⟨call,_⟩,ready⟩,readable⟩,_⟩ := inside event listed
      refine ⟨by rw [call]; exact ready,fun client => by rw [clients event listed]; exact ⟨rfl,rfl⟩,fun stored live => ?_⟩
      exact Option.all_eq_true _ _ |>.mp readable stored live
    · intro event listed _ _ meter e live ends
      obtain ⟨_,lasting⟩ := inside event listed
      rw [show sampleCluster.counter "rl:login:a" .redis = sampleCluster.redisMeter "rl:login:a" from rfl] at live
      simpa [live,ends] using lasting
  refine ⟨past,c,traced,undivided,finishedWith_finished first,finishedWith_finished second,finishedWith_finished third,?_⟩
  refine limit_undivided rfl sample_separate (fun _ => rfl) traced (by decide : 0 < 0 + 1000) undivided (by decide : [0,1].Nodup) ?_
  intro i listed
  simp only [List.mem_cons,List.not_mem_nil,or_false] at listed
  refine ⟨?_,fun event present _ => ?_⟩
  · rcases listed with rfl | rfl
    · exact ⟨_,_,finishedWith_finished first,rfl,rfl⟩
    · exact ⟨_,_,finishedWith_finished second,rfl,rfl⟩
  · have instant := (inside event present).1.1.1.2
    omega

-- Two requests while Redis is there, and two at the same instant when it is gone.
def acrossOutage : List (Cue CallId Call World) :=
  .start 0 sampleCall :: List.replicate 6 (.act 0) ++ .start 1 sampleCall :: List.replicate 4 (.act 1) ++
    .other (·.turned "end" .down) :: .start 2 sampleCall :: List.replicate 2 (.act 2) ++
    .start 3 sampleCall :: List.replicate 2 (.act 3)

theorem outage_widens_limit : ¬ ∀ (cluster : Cluster) (type : RateLimitType) (scope : String) (rule : RateLimitRule)
    (initial : World) (past : List (Event CallId Call World)) (c : Config CallId Call World Fault RateLimitResult),
    (cluster.service 0).rules.lookup type = some rule → Shared initial → Traced cluster.program Outage initial past c →
    ∀ (a b : Nat) (ids : List CallId), b < a + rule.windowMs → ids.Nodup →
    (∀ i ∈ ids, (∃ call answer, c.Finished i call (.ok answer) ∧ call.type = type ∧ call.scope = scope ∧
      answer.allowed = true) ∧ ∀ event ∈ past, event.who = i → a ≤ event.before.now ∧ event.before.now ≤ b) →
    ids.length ≤ rule.limit := by
  intro bounded
  have performed : (perform sampleCluster.program [] (start (sampleWorld 0 "ready" .up)) acrossOutage).any (fun after =>
      after.2.finishedWith 0 sampleCall (.ok ⟨true,1,0,2⟩) && after.2.finishedWith 1 sampleCall (.ok ⟨true,0,0,2⟩) &&
      after.2.finishedWith 2 sampleCall (.ok ⟨true,1,0,2⟩) && after.2.finishedWith 3 sampleCall (.ok ⟨true,0,0,2⟩) &&
      after.1.all fun event => decide (event.before.now = 0)) = true := by
    decide +kernel
  have allowed : ∀ change, Cue.other change ∈ acrossOutage → ∀ w, Outage w (change w) := by
    intro change cued w
    simp [acrossOutage] at cued
    subst cued
    exact ⟨Nat.le_refl _,fun _ _ => rfl,rfl,rfl⟩
  obtain ⟨past,c,traced,checked⟩ := perform_exists performed allowed
  simp only [Bool.and_eq_true,List.all_eq_true,decide_eq_true_eq] at checked
  obtain ⟨⟨⟨⟨first,second⟩,third⟩,fourth⟩,instant⟩ := checked
  have few := bounded sampleCluster .login "a" ⟨2,1000⟩ _ past c rfl (fun _ => rfl) traced 0 0 [0,1,2,3]
    (by decide : 0 < 0 + 1000) (by decide) ?_
  · simp at few
  · intro i listed
    simp only [List.mem_cons,List.not_mem_nil,or_false] at listed
    refine ⟨?_,fun event present _ => by rw [instant event present]; exact ⟨Nat.le_refl _,Nat.le_refl _⟩⟩
    rcases listed with rfl | rfl | rfl | rfl
    · exact ⟨_,_,finishedWith_finished first,rfl,rfl,rfl⟩
    · exact ⟨_,_,finishedWith_finished second,rfl,rfl,rfl⟩
    · exact ⟨_,_,finishedWith_finished third,rfl,rfl,rfl⟩
    · exact ⟨_,_,finishedWith_finished fourth,rfl,rfl,rfl⟩

end Pezhwan.RateLimit
