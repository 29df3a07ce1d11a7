import Pezhwan.Redis.World

namespace Pezhwan.RateLimit
open Atomic Prog Redis

inductive RateLimitType where
  | login | register | otp | refresh | api | mfa
  deriving DecidableEq, Repr

def RateLimitType.name : RateLimitType → String
  | .login => "login"
  | .register => "register"
  | .otp => "otp"
  | .refresh => "refresh"
  | .api => "api"
  | .mfa => "mfa"

structure RateLimitResult where
  allowed : Bool
  remaining : Nat
  retryAfterMs : Nat
  limit : Nat
  deriving DecidableEq, Repr

structure RateLimitRule where
  limit : Nat
  windowMs : Nat
  deriving DecidableEq, Repr

structure RedisCache where
  get : String → Program (Option String)
  set : String → String → Option Nat → Program Unit
  ready : Program Bool
  incrementAndExpire : Option (String → Nat → Program (Option Nat))

def degradingCache (cache : RedisCacheImpl) : RedisCache where
  get := cache.get
  set := cache.set
  ready := cache.ready
  incrementAndExpire := some fun key ttlSeconds => some <$> cache.incrementAndExpire key ttlSeconds

def useMemory (place : Nat) (f : Nat → MemoryCache → α × MemoryCache) : Program α :=
  atomic fun _ w =>
    let (value,memory) := f w.now (w.places place).memory
    (value,w.withMemory place memory)

-- A MemoryCache on its own.
def memoryCache (place : Nat) : RedisCache where
  get key := useMemory place (MemoryCache.get key)
  set key value ttlSeconds := useMemory place fun now memory => ((),memory.set key value ttlSeconds now)
  ready := pure true
  incrementAndExpire := some fun key ttlSeconds => some <$> useMemory place (MemoryCache.incrementAndExpire key ttlSeconds)

structure RateLimitService where
  cache : RedisCache
  given : RateLimitType → Option RateLimitRule
  durableFallback : Bool
  toLowerCase : String → String

namespace RateLimitService
variable (service : RateLimitService)

def rules : List (RateLimitType × RateLimitRule) :=
  [(.login,(service.given .login).getD ⟨10,15 * 60000⟩),
   (.register,(service.given .register).getD ⟨10,15 * 60000⟩),
   (.otp,(service.given .otp).getD ⟨5,10 * 60000⟩),
   (.refresh,(service.given .refresh).getD ⟨30,15 * 60000⟩),
   (.api,(service.given .api).getD ⟨100,15 * 60000⟩),
   (.mfa,(service.given .mfa).getD ⟨10,10 * 60000⟩)]

def key (type : RateLimitType) (scope : String) : String := service.toLowerCase ("rl:" ++ type.name ++ ":" ++ scope)

end RateLimitService

def decision (rule : RateLimitRule) (count : Nat) : RateLimitResult :=
  if rule.limit < count then ⟨false,0,rule.windowMs,rule.limit⟩ else ⟨true,rule.limit - count,0,rule.limit⟩

-- The pipeline of the update: the window starts over when it has lapsed.
def advance (now windowEnd : Nat) (counter : Option RateLimitCounterDoc) : RateLimitCounterDoc :=
  let expiresAt := counter.bind RateLimitCounterDoc.expiresAt
  let windowExpired : Bool := expiresAt.getD 0 ≤ now
  { count := some (if windowExpired then 1 else (counter.bind RateLimitCounterDoc.count).getD 0 + 1)
    expiresAt := if windowExpired then some windowEnd else expiresAt }

def mongoUpdate (key : String) (ttlSeconds : Nat) (w : World) : Except Fault RateLimitCounterDoc × World :=
  let counter := advance w.now (w.now + ttlSeconds * 1000) (w.counters.get? key)
  let updated := {w with counters := w.counters.set key counter}
  match w.mongo with
  | .up => (.ok counter,updated)
  | .lost => (.error .unreachable,updated)
  | .down => (.error .unreachable,w)

def mongoIncrement (key : String) (ttlSeconds : Nat) : Program Nat := do
  let counter ← effect fun _ w => mongoUpdate key ttlSeconds w
  pure (match counter.count with
    | none | some 0 => 1
    | some count => count)

def ttlSecondsOf (rule : RateLimitRule) : Nat := max 1 ((rule.windowMs + 999) / 1000)

-- For stores without the atomic increment.
def bestEffort (cache : RedisCache) (rule : RateLimitRule) (key : String) (ttlSeconds : Nat) : Program RateLimitResult := do
  let current := match ← (cache.get key).attempt with
    | .ok raw => ((truthy raw).bind Number).getD 0
    | .error _ => 0
  cache.set key (current+1).repr (some ttlSeconds)
  pure (decision rule (current+1))

def consume (service : RateLimitService) (type : RateLimitType) (scope : String) : Program RateLimitResult := do
  match service.rules.lookup type with
  | none => pure ⟨true,Cache.MAX_SAFE_INTEGER,0,Cache.MAX_SAFE_INTEGER⟩
  | some rule =>
    let key := service.key type scope
    let ttlSeconds := ttlSecondsOf rule
    match service.cache.incrementAndExpire with
    | none => bestEffort service.cache rule key ttlSeconds
    | some incrementAndExpire =>
      let ready ← service.cache.ready
      let counted ← if !ready && service.durableFallback then do
          match ← (mongoIncrement key ttlSeconds).attempt with
          | .ok count => pure (some count)
          | .error _ => incrementAndExpire key ttlSeconds
        else incrementAndExpire key ttlSeconds
      match counted with
      | some count => pure (decision rule count)
      | none => bestEffort service.cache rule key ttlSeconds

theorem decision_allowed (rule : RateLimitRule) (count : Nat) : (decision rule count).allowed = decide (count ≤ rule.limit) := by
  unfold decision
  split
  · rename_i beyond
    simp [Nat.not_le.mpr beyond]
  · rename_i within
    simp [Nat.not_lt.mp within]

theorem ttl_window {rule : RateLimitRule} (positive : 0 < rule.windowMs) (seconds : 1000 ∣ rule.windowMs) :
    ttlSecondsOf rule * 1000 = rule.windowMs := by
  obtain ⟨n,same⟩ := seconds
  unfold ttlSecondsOf
  rw [same] at positive ⊢
  have exact_ : (1000 * n + 999) / 1000 = n := by omega
  rw [exact_]
  omega

end Pezhwan.RateLimit
