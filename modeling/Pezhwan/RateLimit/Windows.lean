import Pezhwan.Atomic.Window
import Pezhwan.Redis.Degrading
import Pezhwan.RateLimit.Service

-- The counters of the three tiers, one request after another.
namespace Pezhwan.RateLimit
open Atomic Prog Redis

inductive Tier where
  | redis (cache : RedisCacheImpl) (client : Nat)
  | mongo (cache : RedisCacheImpl)
  | memory (place : Nat)

-- What makes the tier the one that serves the requests.
def Serves (service : RateLimitService) (w : World) : Tier → Prop
  | .redis cache client => service.cache = degradingCache cache ∧ cache.ready? w = some client ∧
      (w.clients client).hasCounters = true ∧ (w.clients client).link = .up
  | .mongo cache => service.cache = degradingCache cache ∧ service.durableFallback = true ∧ w.mongo = .up ∧
      ∀ client, cache.ready? w = some client → (w.clients client).link ≠ .up
  | .memory place => service.cache = memoryCache place ∨ ∃ cache : RedisCacheImpl, cache.place = place ∧
      service.cache = degradingCache cache ∧ service.durableFallback = false ∧
      ∀ client, cache.ready? w = some client → (w.clients client).link = .down

-- The counter that the tier stores under a key.
def Stores (w : World) (key : String) : Tier → Option Window → Prop
  | .redis cache client,state => (w.keyspace client).get? (cache.key key) =
      state.map fun window => ⟨window.count.repr,some window.ends⟩
  | .mongo _,state => w.counters.get? key = state.map fun window => ⟨some window.count,some window.ends⟩
  | .memory place,state => (w.places place).memory.store.get? key =
      state.map fun window => ⟨window.count.repr,window.ends⟩

def Tier.advance (length time : Nat) : Tier → Option Window → Window
  | .memory _ => Window.sliding length time
  | .redis .. | .mongo _ => Window.fixed length time

-- Requests for the scopes at their times, with the answers.
def serve (service : RateLimitService) (type : RateLimitType) : World → List (String × Nat) → List (String × RateLimitResult)
  | _,[] => []
  | w,(scope,time) :: rest =>
    let (result,t) := (consume service type scope).run 0 {w with now := time}
    match result with
    | .ok answer => (scope,answer) :: serve service type t rest
    | .error _ => serve service type t rest

section
variable (service : RateLimitService) (type : RateLimitType) (key : String)

def answers (w : World) (requests : List (String × Nat)) : List Bool :=
  ((serve service type w requests).filter fun answer => service.key type answer.1 = key).map fun answer => answer.2.allowed

def timesOf (requests : List (String × Nat)) : List Nat :=
  (requests.filter fun request => service.key type request.1 = key).map Prod.snd

end

-- The limiter whose window begins with the first request it counts and ends
-- windowMs later.
def reference (rule : RateLimitRule) (times : List Nat) : List Bool :=
  Window.allowed rule.limit (Window.fixed rule.windowMs) times

section
variable {service : RateLimitService} {type : RateLimitType} {scope : String} {rule : RateLimitRule} {w t : World} {tier : Tier}

-- One counted request: the tier's own counter moves on, and no other.
structure Counted (service : RateLimitService) (tier : Tier) (length : Nat) (key : String) (state : Option Window)
    (w t : World) : Prop where
  serves : Serves service t tier
  stores : Stores t key tier (some (tier.advance length w.now state))
  others : ∀ name other, name ≠ key → Stores w name tier other → Stores t name tier other

theorem memory_counted {place ttlSeconds : Nat} {key : String} {state : Option Window}
    (stored : Stores w key (.memory place) state) :
    let ran := MemoryCache.incrementAndExpire key ttlSeconds w.now (w.places place).memory
    ran.1 = (Window.sliding (ttlSeconds * 1000) w.now state).count ∧
      ran.2.store = (w.places place).memory.store.set key
        ⟨(Window.sliding (ttlSeconds * 1000) w.now state).count.repr,
          (Window.sliding (ttlSeconds * 1000) w.now state).ends⟩ := by
  unfold Stores at stored
  unfold MemoryCache.incrementAndExpire
  rw [stored]
  cases state with
  | none => exact ⟨rfl,rfl⟩
  | some window =>
    by_cases within : w.now ≤ window.ends
    · simp [Window.sliding,within]
    · simp [Window.sliding,within]

theorem mongo_counted {cache : RedisCacheImpl} {ttlSeconds : Nat} {key : String} {state : Option Window}
    (stored : Stores w key (.mongo cache) state) :
    advance w.now (w.now + ttlSeconds * 1000) (w.counters.get? key) =
      ⟨some (Window.fixed (ttlSeconds * 1000) w.now state).count,some (Window.fixed (ttlSeconds * 1000) w.now state).ends⟩ := by
  unfold Stores at stored
  rw [stored]
  cases state with
  | none => simp [advance,Window.fixed]
  | some window =>
    by_cases within : w.now < window.ends
    · simp [advance,Window.fixed,within,Nat.not_le.mpr within]
    · simp [advance,Window.fixed,within,Nat.not_lt.mp within]

theorem withServer_self (w : World) (n : Nat) : w.withServer n (w.servers n) = w := by
  have same : (fun m => if m = n then w.servers n else w.servers m) = w.servers := by
    funext m
    split
    · rename_i equal
      rw [equal]
    · rfl
  unfold World.withServer
  rw [same]

theorem withServer_twice (w : World) (n : Nat) (first second : Keyspace) :
    (w.withServer n first).withServer n second = w.withServer n second := by
  unfold World.withServer
  congr 1
  funext m
  dsimp only
  split <;> rfl

theorem run_ready (cache : RedisCacheImpl) (w : World) : cache.ready.run 0 w =
    (.ok ((cache.ready? w).any fun client => (w.clients client).link = .up),w) := by
  unfold RedisCacheImpl.ready
  rw [run_bind_ok (run_atomic 0 _ w)]
  cases cache.ready? w with
  | none => rfl
  | some client =>
    dsimp only
    have probed : (command client (Keyspace.get (cache.key "__ready_probe__"))).run 0 w =
        (if (w.clients client).link = .up then .ok (((w.keyspace client).live w.now (cache.key "__ready_probe__")).map Stored.text)
          else .error .unreachable,w) := by
      unfold command
      rw [run_effect]
      cases link : (w.clients client).link <;> simp [send,link,execute,Keyspace.get,World.keyspace,withServer_self]
    rw [run_bind_attempt probed]
    by_cases up : (w.clients client).link = .up
    · simp [up]
    · simp [up]

-- INCR and, for the first count, EXPIRE.
def Answers (w : World) (cache : RedisCacheImpl) (client : Nat) (key : String) (ttlSeconds : Nat) (window : Window) : Prop :=
  ∃ keys, (cache.countOn key ttlSeconds client).run 0 w =
      (.ok window.count,w.withServer (w.clients client).server keys) ∧
    keys.get? (cache.key key) = some ⟨window.count.repr,some window.ends⟩ ∧
    ∀ other, other ≠ cache.key key → keys.get? other = (w.keyspace client).get? other

theorem redis_counted {cache : RedisCacheImpl} {client : Nat} {key : String} {state : Option Window} (ttlSeconds : Nat)
    (bound : (w.places cache.place).client = some client) (counters : (w.clients client).hasCounters = true)
    (up : (w.clients client).link = .up) (begun : ∀ window, state = some window → 0 < window.count)
    (stored : Stores w key (.redis cache client) state) :
    Answers w cache client key ttlSeconds (Window.fixed (ttlSeconds * 1000) w.now state) := by
  have first : (w.keyspace client).live w.now (cache.key key) = none →
      Answers w cache client key ttlSeconds ⟨1,w.now + ttlSeconds * 1000⟩ := by
    intro gone
    let counted := Dict.set (w.keyspace client) (cache.key key) ⟨"1",none⟩
    have incremented : (command client (Keyspace.incr (cache.key key))).run 0 w =
        (.ok 1,w.withServer (w.clients client).server counted) := by
      unfold command
      rw [run_effect]
      simp [send,up,execute,Keyspace.incr,gone,counted]
    have expired : (command client (Keyspace.expire (cache.key key) ttlSeconds)).run 0
        (w.withServer (w.clients client).server counted) = (.ok (),w.withServer (w.clients client).server
          (Dict.set counted (cache.key key) ⟨"1",some (w.now + ttlSeconds * 1000)⟩)) := by
      have live : Keyspace.live counted w.now (cache.key key) = some ⟨"1",none⟩ := by
        simp [Keyspace.live,counted,Option.filter]
      unfold command
      rw [run_effect]
      have link : ((w.withServer (w.clients client).server counted).clients client).link = .up := up
      have keys : (w.withServer (w.clients client).server counted).keyspace client = counted := by
        simp [World.keyspace,World.withServer]
      have time : (w.withServer (w.clients client).server counted).now = w.now := rfl
      simp only [send,link,execute,Keyspace.expire,keys,time,live]
      rw [show (w.withServer (w.clients client).server counted).clients = w.clients from rfl,withServer_twice]
    refine ⟨Dict.set counted (cache.key key) ⟨"1",some (w.now + ttlSeconds * 1000)⟩,?_,?_,?_⟩
    · unfold RedisCacheImpl.countOn
      rw [run_bind_ok incremented]
      simp only [if_true]
      have again : ((w.withServer (w.clients client).server counted).places cache.place).client.filter
          (fun bound => ((w.withServer (w.clients client).server counted).clients bound).hasCounters) = some client := by
        change (w.places cache.place).client.filter (fun bound => (w.clients bound).hasCounters) = some client
        rw [bound]
        simp [Option.filter,counters]
      rw [run_bind_ok (run_atomic 0 _ _),again]
      dsimp only
      rw [run_bind_ok expired]
      rfl
    · simp [show (1 : Nat).repr = "1" from rfl]
    · intro other different
      rw [Dict.get?_set_ne _ _ different,Dict.get?_set_ne _ _ different]
  cases state with
  | none =>
    apply first
    rw [Keyspace.live,stored]
    rfl
  | some window =>
    by_cases within : w.now < window.ends
    · have live : (w.keyspace client).live w.now (cache.key key) = some ⟨window.count.repr,some window.ends⟩ := by
        rw [Keyspace.live,stored]
        simp [Option.filter,within]
      have many : window.count + 1 ≠ 1 := by
        have positive := begun window rfl
        omega
      have incremented : (command client (Keyspace.incr (cache.key key))).run 0 w = (.ok (window.count + 1),
          w.withServer (w.clients client).server
            (Dict.set (w.keyspace client) (cache.key key) ⟨(window.count + 1).repr,some window.ends⟩)) := by
        unfold command
        rw [run_effect]
        simp [send,up,execute,Keyspace.incr,live]
      have continued : Window.fixed (ttlSeconds * 1000) w.now (some window) = ⟨window.count + 1,window.ends⟩ := if_pos within
      rw [continued]
      refine ⟨_,?_,Dict.get?_set_self _ _ _,fun other different => Dict.get?_set_ne _ _ different⟩
      unfold RedisCacheImpl.countOn
      rw [run_bind_ok incremented]
      simp only [many,if_false]
      rfl
    · rw [show Window.fixed (ttlSeconds * 1000) w.now (some window) = ⟨1,w.now + ttlSeconds * 1000⟩ from if_neg within]
      apply first
      rw [Keyspace.live,stored]
      simp [Option.filter,within]

theorem consume_redis {cache : RedisCacheImpl} (ruled : service.rules.lookup type = some rule)
    (which : service.cache = degradingCache cache)
    (first : ((cache.ready? w).any fun client => (w.clients client).link = .up) = true ∨ service.durableFallback = false)
    (counted : (cache.incrementAndExpire (service.key type scope) (ttlSecondsOf rule)).run 0 w = (.ok count,t)) :
    (consume service type scope).run 0 w = (.ok (decision rule count),t) := by
  unfold consume
  rw [ruled,which]
  dsimp only [degradingCache]
  rw [run_bind_ok (run_ready cache w)]
  have skip : (!((cache.ready? w).any fun client => (w.clients client).link = .up) && service.durableFallback) = false := by
    rcases first with ready | off
    · simp [ready]
    · simp [off]
  have mapped : (some <$> cache.incrementAndExpire (service.key type scope) (ttlSecondsOf rule)).run 0 w = (.ok (some count),t) := by
    rw [run_map,counted]
    rfl
  simp only [skip,Bool.false_eq_true,if_false]
  rw [run_bind_ok mapped]
  rfl

theorem consume_memory (ruled : service.rules.lookup type = some rule) (which : service.cache = memoryCache place) :
    (consume service type scope).run 0 w =
      (.ok (decision rule (MemoryCache.incrementAndExpire (service.key type scope) (ttlSecondsOf rule) w.now
          (w.places place).memory).1),
        w.withMemory place (MemoryCache.incrementAndExpire (service.key type scope) (ttlSecondsOf rule) w.now
          (w.places place).memory).2) := by
  unfold consume
  rw [ruled,which]
  rfl

def counterOf (window : Window) : RateLimitCounterDoc := ⟨some window.count,some window.ends⟩

theorem consume_mongo {cache : RedisCacheImpl} (ruled : service.rules.lookup type = some rule)
    (serves : Serves service w (.mongo cache)) (stored : Stores w (service.key type scope) (.mongo cache) state) :
    let window := Window.fixed (ttlSecondsOf rule * 1000) w.now state
    (consume service type scope).run 0 w = (.ok (decision rule window.count),
      {w with counters := w.counters.set (service.key type scope) (counterOf window)}) := by
  obtain ⟨which,durable,up,unready⟩ := serves
  intro window
  unfold consume
  rw [ruled,which]
  dsimp only [degradingCache]
  rw [run_bind_ok (run_ready cache w)]
  have down : ((cache.ready? w).any fun client => (w.clients client).link = .up) = false := by
    cases ready : cache.ready? w with
    | none => rfl
    | some client => simp [unready client ready]
  have positive : 0 < window.count := by
    change 0 < (Window.fixed (ttlSecondsOf rule * 1000) w.now state).count
    unfold Window.fixed
    split
    · split <;> simp
    · simp
  have incremented : (mongoIncrement (service.key type scope) (ttlSecondsOf rule)).run 0 w = (.ok window.count,
      {w with counters := w.counters.set (service.key type scope) (counterOf window)}) := by
    have updated : (effect fun _ w => mongoUpdate (service.key type scope) (ttlSecondsOf rule) w : Program _).run 0 w =
        (.ok (counterOf window),{w with counters := w.counters.set (service.key type scope) (counterOf window)}) := by
      rw [run_effect,mongoUpdate,up,mongo_counted stored]
      rfl
    unfold mongoIncrement
    rw [run_bind_ok updated]
    obtain ⟨n,same⟩ := Nat.exists_eq_succ_of_ne_zero (Nat.pos_iff_ne_zero.mp positive)
    simp [counterOf,same]
  simp only [down,durable,Bool.not_false,Bool.and_self,if_true]
  rw [run_bind_attempt incremented]
  rfl

theorem stores_redis_other {cache : RedisCacheImpl} {keys : Keyspace}
    (kept : ∀ other, other ≠ cache.key key → keys.get? other = (w.keyspace client).get? other) (different : name ≠ key)
    (stored : Stores w name (.redis cache client) state) :
    Stores (w.withServer (w.clients client).server keys) name (.redis cache client) state := by
  unfold Stores World.keyspace at stored ⊢
  change Dict.get? ((w.withServer (w.clients client).server keys).servers (w.clients client).server) (cache.key name) = _
  rw [RedisCacheImpl.servers_withServer,if_pos rfl,kept]
  · exact stored
  · exact fun same => different (RedisCacheImpl.key_injective same)

theorem stores_memory {memory : MemoryCache} (stored : memory.store.get? key = state.map fun window => ⟨window.count.repr,window.ends⟩) :
    Stores (w.withMemory place memory) key (.memory place) state := by
  change ((w.withMemory place memory).places place).memory.store.get? key = _
  rw [RedisCacheImpl.memory_withMemory]
  exact stored

theorem run_increment_away {cache : RedisCacheImpl} (key : String) (ttlSeconds : Nat)
    (away : ∀ client, cache.ready? w = some client → (w.clients client).link = .down) :
    (cache.incrementAndExpire key ttlSeconds).run 0 w =
      (.ok (MemoryCache.incrementAndExpire key ttlSeconds w.now (w.places cache.place).memory).1,
        w.withMemory cache.place (MemoryCache.incrementAndExpire key ttlSeconds w.now (w.places cache.place).memory).2) := by
  unfold RedisCacheImpl.incrementAndExpire
  rw [RedisCacheImpl.run_degrading]
  cases usable : (cache.ready? w).filter fun client => (w.clients client).hasCounters with
  | none => rfl
  | some client =>
    have down := away client (Option.filter_eq_some_iff.mp usable).1
    have lost : (cache.countOn key ttlSeconds client).run 0 w = (.error .unreachable,w) := by
      unfold RedisCacheImpl.countOn command
      rw [run_bind,run_effect,send,down]
    simp only [lost]
    rfl

theorem memory_counts {place : Nat} (positive : 0 < rule.windowMs) (seconds : 1000 ∣ rule.windowMs)
    (serves : ∀ memory, Serves service (w.withMemory place memory) (.memory place))
    (stored : Stores w (service.key type scope) (.memory place) state) :
    let ran := MemoryCache.incrementAndExpire (service.key type scope) (ttlSecondsOf rule) w.now (w.places place).memory
    decision rule ran.1 = decision rule (Window.sliding rule.windowMs w.now state).count ∧
      Counted service (.memory place) rule.windowMs (service.key type scope) state w (w.withMemory place ran.2) := by
  obtain ⟨answer,left⟩ := @memory_counted w place (ttlSecondsOf rule) _ state stored
  rw [ttl_window positive seconds] at answer left
  refine ⟨by rw [answer],serves _,?_,?_⟩
  · apply stores_memory
    rw [left,Dict.get?_set_self]
    rfl
  · intro name other different kept
    apply stores_memory
    rw [left,Dict.get?_set_ne _ _ different]
    exact kept

theorem consume_counted (ruled : service.rules.lookup type = some rule) (positive : 0 < rule.windowMs)
    (seconds : 1000 ∣ rule.windowMs) (serves : Serves service w tier)
    (begun : ∀ window, state = some window → 0 < window.count) (stored : Stores w (service.key type scope) tier state) :
    ∃ t, (consume service type scope).run 0 w = (.ok (decision rule (tier.advance rule.windowMs w.now state).count),t) ∧
      Counted service tier rule.windowMs (service.key type scope) state w t := by
  cases tier with
  | redis cache client =>
    obtain ⟨which,ready,counters,up⟩ := serves
    obtain ⟨keys,ran,own,others⟩ := redis_counted (ttlSecondsOf rule) (RedisCacheImpl.ready_client ready) counters up begun stored
    rw [ttl_window positive seconds] at ran own
    refine ⟨w.withServer (w.clients client).server keys,consume_redis ruled which (.inl (by simp [ready,up])) ?_,?_⟩
    · unfold RedisCacheImpl.incrementAndExpire
      rw [RedisCacheImpl.run_degrading,ready,Option.filter_some,if_pos counters]
      dsimp only
      rw [ran]
      rfl
    · refine ⟨⟨which,ready,counters,up⟩,?_,fun name other different kept => stores_redis_other others different kept⟩
      unfold Stores World.keyspace
      change Dict.get? ((w.withServer (w.clients client).server keys).servers (w.clients client).server) (cache.key _) = _
      rw [RedisCacheImpl.servers_withServer,if_pos rfl,own]
      rfl
  | mongo cache =>
    have ran := consume_mongo ruled serves stored
    rw [ttl_window positive seconds] at ran
    refine ⟨_,ran,serves,Dict.get?_set_self _ _ _,?_⟩
    intro name other different kept
    exact (Dict.get?_set_ne _ _ different).trans kept
  | memory place =>
    rcases serves with alone | ⟨cache,rfl,which,off,unready⟩
    · obtain ⟨answer,counted⟩ := memory_counts positive seconds (fun _ => .inl alone) stored
      refine ⟨_,?_,counted⟩
      change _ = (Except.ok (decision rule (Window.sliding rule.windowMs w.now state).count),_)
      rw [← answer]
      exact consume_memory ruled alone
    · have still : ∀ memory client, cache.ready? (w.withMemory cache.place memory) = some client →
          (w.clients client).link = .down := by
        intro memory client ready
        apply unready
        unfold RedisCacheImpl.ready? at ready ⊢
        have kept : ((w.withMemory cache.place memory).places cache.place).client = (w.places cache.place).client := by
          simp [World.withMemory,World.withPlace]
        rw [kept] at ready
        exact ready
      obtain ⟨answer,counted⟩ := memory_counts positive seconds
        (fun memory => .inr ⟨cache,rfl,which,off,still memory⟩) stored
      refine ⟨_,?_,counted⟩
      change _ = (Except.ok (decision rule (Window.sliding rule.windowMs w.now state).count),_)
      rw [← answer]
      exact consume_redis ruled which (.inr off) (run_increment_away _ _ unready)

theorem advance_begun (tier : Tier) (length time : Nat) (state : Option Window) : 0 < (tier.advance length time state).count := by
  cases tier with
  | redis cache client => exact Window.fixed_begun length time state
  | mongo cache => exact Window.fixed_begun length time state
  | memory place => exact Window.sliding_begun length time state

theorem serves_later (time : Nat) (serves : Serves service w tier) : Serves service {w with now := time} tier := by
  cases tier <;> exact serves

theorem stores_later (time : Nat) {key : String} {state : Option Window} (stored : Stores w key tier state) :
    Stores {w with now := time} key tier state := by
  cases tier <;> exact stored

theorem serve_answers (ruled : service.rules.lookup type = some rule) (positive : 0 < rule.windowMs)
    (seconds : 1000 ∣ rule.windowMs) (key : String) (state : String → Option Window)
    (begun : ∀ name window, state name = some window → 0 < window.count) (serves : Serves service w tier)
    (stored : ∀ name, Stores w name tier (state name)) (requests : List (String × Nat)) :
    answers service type key w requests =
      (Window.counts (fun time => tier.advance rule.windowMs time) (state key) (timesOf service type key requests)).map
        (decide <| · ≤ rule.limit) := by
  induction requests generalizing w state with
  | nil => rfl
  | cons request rest ih =>
    obtain ⟨scope,time⟩ := request
    obtain ⟨t,ran,counted⟩ := consume_counted ruled positive seconds (serves_later time serves)
      (begun (service.key type scope)) (stores_later time (stored (service.key type scope)))
    obtain ⟨counters,known⟩ : ∃ counters : String → Option Window, ∀ name, counters name =
        if name = service.key type scope then some (tier.advance rule.windowMs time (state (service.key type scope)))
        else state name := ⟨_,fun _ => rfl⟩
    have step := ih counters ?_ counted.serves ?_
    · unfold answers timesOf at step ⊢
      unfold serve
      rw [ran]
      by_cases same : service.key type scope = key
      · subst same
        simp only [List.filter_cons,decide_true,if_true,List.map_cons,Window.counts,decision_allowed]
        rw [step,known,if_pos rfl]
      · simp only [List.filter_cons,same,decide_false,Bool.false_eq_true,if_false]
        rw [step,known,if_neg fun equal => same equal.symm]
    · intro name window held
      by_cases same : name = service.key type scope
      · subst same
        rw [known,if_pos rfl,Option.some.injEq] at held
        rw [← held]
        exact advance_begun _ _ _ _
      · rw [known,if_neg same] at held
        exact begun name window held
    · intro name
      by_cases same : name = service.key type scope
      · subst same
        rw [known,if_pos rfl]
        exact counted.stores
      · rw [known,if_neg same]
        exact counted.others name _ same (stores_later time (stored name))

end

def Tier.slides : Tier → Bool
  | .memory _ => true
  | .redis .. | .mongo _ => false

-- The counters of Redis and MongoDB are fixed windows; that of the memory is one
-- exactly for calm requests.
theorem tier_fixed_window_iff (ruled : service.rules.lookup type = some rule) (limited : 1 ≤ rule.limit)
    (positive : 0 < rule.windowMs) (seconds : 1000 ∣ rule.windowMs) (serves : Serves service w tier)
    (fresh : ∀ name, Stores w name tier none) (ordered : (requests.map Prod.snd).Pairwise (· ≤ ·)) :
    answers service type key w requests = reference rule (timesOf service type key requests) ↔
      (tier.slides = true → Window.Calm rule.windowMs rule.limit (timesOf service type key requests)) := by
  have sorted : (timesOf service type key requests).Pairwise (· ≤ ·) :=
    ordered.sublist (List.filter_sublist.map Prod.snd)
  rw [serve_answers ruled positive seconds key (fun _ => none) nofun serves fresh requests]
  cases tier with
  | redis cache client => exact iff_of_true rfl nofun
  | mongo cache => exact iff_of_true rfl nofun
  | memory place =>
    exact (Window.allowed_agree limited positive sorted).trans ⟨fun calm _ => calm,fun calm => calm rfl⟩

def sampleService (cache : RedisCache) (limit : Nat) (durableFallback : Bool) : RateLimitService where
  cache := cache
  given := fun _ => some ⟨limit,1000⟩
  durableFallback := durableFallback
  toLowerCase := fun text => text.map Char.toLower

theorem redis_window_fixed :
    answers (sampleService (degradingCache sampleCache) 1 true) .login "rl:login:a" (sampleWorld 0 "ready" .up)
        [("a",0),("b",300),("A",600),("a",1200)] =
      reference ⟨1,1000⟩ (timesOf (sampleService (degradingCache sampleCache) 1 true) .login "rl:login:a"
        [("a",0),("b",300),("A",600),("a",1200)]) := by
  have serves : Serves (sampleService (degradingCache sampleCache) 1 true) (sampleWorld 0 "ready" .up)
      (.redis sampleCache 0) := ⟨rfl,rfl,rfl,rfl⟩
  have fresh : ∀ name, Stores (sampleWorld 0 "ready" .up) name (.redis sampleCache 0) none := fun _ => rfl
  have ruled : (sampleService (degradingCache sampleCache) 1 true).rules.lookup .login = some ⟨1,1000⟩ := rfl
  exact (tier_fixed_window_iff ruled (Nat.le_refl 1) (Nat.zero_lt_succ _) ⟨1,rfl⟩ serves fresh (by decide +kernel)).mpr nofun

theorem memory_window_slides : ¬ ∀ (service : RateLimitService) (type : RateLimitType) (rule : RateLimitRule) (w : World)
    (tier : Tier) (key : String) (requests : List (String × Nat)), service.rules.lookup type = some rule →
    1 ≤ rule.limit → 0 < rule.windowMs → 1000 ∣ rule.windowMs → Serves service w tier →
    (∀ name, Stores w name tier none) → (requests.map Prod.snd).Pairwise (· ≤ ·) →
    answers service type key w requests = reference rule (timesOf service type key requests) := by
  intro fixed
  have same := fixed (sampleService (memoryCache 0) 1 false) .login ⟨1,1000⟩ (sampleWorld 0 "end" .down) (.memory 0)
    "rl:login:a" [("a",0),("a",600),("a",1200)] rfl (Nat.le_refl 1) (Nat.zero_lt_succ _) ⟨1,rfl⟩ (.inl rfl) (fun _ => rfl) (by decide +kernel)
  exact absurd same (by decide +kernel)

end Pezhwan.RateLimit
