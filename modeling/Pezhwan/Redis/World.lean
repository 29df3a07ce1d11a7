import Pezhwan.Atomic.Dict
import Pezhwan.Runtime
import Pezhwan.Json
import Pezhwan.Numeric.Double
import Pezhwan.Atomic.Effect

namespace Pezhwan.Redis
open Atomic

-- Number(text) where that is a count; a count in plain digits is not rounded.
def Number (text : String) : Option Nat :=
  if text.toList ≠ [] ∧ text.toList.all Char.isDigit then some (Nat.ofDigitChars 10 text.toList 0)
  else ((Numeric.Double.ofText (trim text.toList)).filter fun value => value.isInt ∧ 0 ≤ value).map (·.num.toNat)

@[simp] theorem Number_repr (n : Nat) : Number n.repr = some n := by
  unfold Number
  rw [Nat.toList_repr,Nat.ofDigitChars_ten_toDigits]
  refine if_pos ⟨Nat.toDigits_ne_nil,List.all_eq_true.mpr ?_⟩
  intro c listed
  exact Nat.isDigit_of_mem_toDigits (by omega) (by omega) listed

structure MemoryEntry where
  value : String
  expiresAt : Nat
  deriving DecidableEq, Repr

structure MemoryCache where
  store : Dict String MemoryEntry
  maxEntries : Nat
  deriving DecidableEq

-- The end of an entry written now; no TTL and a TTL of 0 mean none.
def expiry (now : Nat) : Option Nat → Nat
  | none | some 0 => Cache.MAX_SAFE_INTEGER
  | some ttlSeconds => now + ttlSeconds * 1000

namespace MemoryCache

def empty : MemoryCache := ⟨.empty,10000⟩

def get (key : String) (now : Nat) (cache : MemoryCache) : Option String × MemoryCache :=
  match cache.store.get? key with
  | none => (none,cache)
  | some entry =>
    if entry.expiresAt < now then (none,{cache with store := cache.store.erase key}) else (some entry.value,cache)

-- Expired entries go first, then the oldest ones until a new one fits.
def sweep (now : Nat) (cache : MemoryCache) : MemoryCache :=
  if cache.store.size < cache.maxEntries then cache
  else
    let store := cache.store.filter fun _ entry => !(entry.expiresAt < now)
    if store.size < cache.maxEntries then {cache with store}
    else {cache with store := store.drop (store.size - cache.maxEntries + 1)}

def set (key value : String) (ttlSeconds : Option Nat) (now : Nat) (cache : MemoryCache) : MemoryCache :=
  let swept := sweep now {cache with store := cache.store.erase key}
  {swept with store := swept.store.set key ⟨value,expiry now ttlSeconds⟩}

def del (key : String) (cache : MemoryCache) : MemoryCache := {cache with store := cache.store.erase key}

def incrementAndExpire (key : String) (ttlSeconds : Nat) (now : Nat) (cache : MemoryCache) : Nat × MemoryCache :=
  let current := match cache.store.get? key with
    | some entry => if now ≤ entry.expiresAt then (Number entry.value).getD 0 else 0
    | none => 0
  (current+1,{cache with store := cache.store.set key ⟨(current+1).repr,now + ttlSeconds * 1000⟩})

-- The entry that a read at this time would return.
def live (cache : MemoryCache) (now : Nat) (key : String) : Option MemoryEntry :=
  (cache.store.get? key).filter fun entry => now ≤ entry.expiresAt

section
variable {cache : MemoryCache}

theorem get_value (key : String) (now : Nat) (cache : MemoryCache) :
    (cache.get key now).1 = (cache.live now key).map MemoryEntry.value := by
  unfold get live
  cases cache.store.get? key with
  | none => rfl
  | some entry =>
    by_cases lapsed : entry.expiresAt < now
    · simp [Option.filter,lapsed]
    · simp [Option.filter,lapsed,Nat.not_lt.mp lapsed]

theorem get_stored (found : (cache.get key now).2.store.get? k = some entry) : cache.store.get? k = some entry := by
  unfold get at found
  cases looked : cache.store.get? key with
  | none => simpa [looked] using found
  | some held =>
    simp only [looked] at found
    split at found
    · rw [Dict.get?_erase] at found
      split at found
      · cases found
      · exact found
    · exact found

theorem sweep_stored (found : (cache.sweep now).store.get? k = some entry) : cache.store.get? k = some entry := by
  have kept : ∀ {store : Dict String MemoryEntry}, store = cache.store.filter (fun _ entry => !(entry.expiresAt < now)) →
      store.get? k = some entry → cache.store.get? k = some entry := by
    rintro store rfl listed
    rw [Dict.get?_filter] at listed
    exact (Option.filter_eq_some_iff.mp listed).1
  unfold sweep at found
  dsimp only at found
  split at found
  · exact found
  · split at found
    · exact kept rfl found
    · exact kept rfl (Dict.get?_drop found)

theorem del_stored (found : (cache.del key).store.get? k = some entry) : cache.store.get? k = some entry ∧ k ≠ key := by
  unfold del at found
  rw [Dict.get?_erase] at found
  split at found
  · cases found
  · rename_i other
    exact ⟨found,other⟩

theorem set_stored (found : (cache.set key value ttlSeconds now).store.get? k = some entry) :
    (k = key ∧ entry = ⟨value,expiry now ttlSeconds⟩) ∨ (k ≠ key ∧ cache.store.get? k = some entry) := by
  unfold set at found
  dsimp only at found
  rw [Dict.get?_set] at found
  split at found
  · rename_i same
    exact .inl ⟨same,(Option.some.inj found).symm⟩
  · rename_i other
    exact .inr ⟨other,(@del_stored cache key k entry (sweep_stored found)).1⟩

end
end MemoryCache

-- The stores behind the caches: Redis servers, the memory of each process, and
-- the counters in MongoDB.
open Prog

structure Stored where
  text : String
  expiresAt : Option Nat
  deriving DecidableEq, Repr

abbrev Keyspace := Dict String Stored

inductive Fault where
  | unreachable | notAnInteger
  deriving DecidableEq, Repr

-- The commands as the server executes them; a key is gone once its expiry time
-- has come.
namespace Keyspace

def live (keys : Keyspace) (now : Nat) (key : String) : Option Stored :=
  (keys.get? key).filter fun stored => stored.expiresAt.all (now < ·)

def get (key : String) (now : Nat) (keys : Keyspace) : Except Fault (Option String × Keyspace) :=
  .ok ((keys.live now key).map Stored.text,keys)

def set (key value : String) (ttlSeconds : Option Nat) (now : Nat) (keys : Keyspace) : Except Fault (Unit × Keyspace) :=
  .ok ((),Dict.set keys key ⟨value,ttlSeconds.map (now + · * 1000)⟩)

def del (key : String) (_ : Nat) (keys : Keyspace) : Except Fault (Unit × Keyspace) := .ok ((),keys.erase key)

def incr (key : String) (now : Nat) (keys : Keyspace) : Except Fault (Nat × Keyspace) :=
  match keys.live now key with
  | none => .ok (1,Dict.set keys key ⟨"1",none⟩)
  | some stored => match Number stored.text with
    | some n => .ok (n+1,Dict.set keys key ⟨(n+1).repr,stored.expiresAt⟩)
    | none => .error .notAnInteger

def expire (key : String) (seconds : Nat) (now : Nat) (keys : Keyspace) : Except Fault (Unit × Keyspace) :=
  match keys.live now key with
  | none => .ok ((),keys)
  | some stored => .ok ((),Dict.set keys key {stored with expiresAt := some (now + seconds * 1000)})

end Keyspace

-- What becomes of the next command: it is answered, it takes effect but its
-- answer is lost, or it is lost itself.
inductive Link where
  | up | lost | down
  deriving DecidableEq, Repr

structure RedisLike where
  status : String
  hasCounters : Bool
  link : Link
  server : Nat
  deriving DecidableEq, Repr

-- The fields of a RedisCacheImpl that change.
structure Place where
  client : Option Nat
  memory : MemoryCache
  deriving DecidableEq

structure RateLimitCounterDoc where
  count : Option Nat
  expiresAt : Option Nat
  deriving DecidableEq, Repr

structure World where
  now : Nat
  clients : Nat → RedisLike
  servers : Nat → Keyspace
  places : Nat → Place
  mongo : Link
  counters : Dict String RateLimitCounterDoc

abbrev Program := Prog CallId World Fault

namespace World

def keyspace (w : World) (client : Nat) : Keyspace := w.servers (w.clients client).server

def withServer (w : World) (server : Nat) (keys : Keyspace) : World :=
  {w with servers := fun n => if n = server then keys else w.servers n}

def withPlace (w : World) (place : Nat) (content : Place) : World :=
  {w with places := fun n => if n = place then content else w.places n}

def withMemory (w : World) (place : Nat) (memory : MemoryCache) : World :=
  w.withPlace place {w.places place with memory}

end World

-- A command of the server applied to the keys it holds at this moment.
def execute (client : Nat) (run : Nat → Keyspace → Except Fault (α × Keyspace)) (w : World) : Except Fault α × World :=
  match run w.now (w.keyspace client) with
  | .ok (value,keys) => (.ok value,w.withServer (w.clients client).server keys)
  | .error e => (.error e,w)

def send (client : Nat) (run : Nat → Keyspace → Except Fault (α × Keyspace)) (w : World) : Except Fault α × World :=
  match (w.clients client).link with
  | .up => execute client run w
  | .lost => (.error .unreachable,(execute client run w).2)
  | .down => (.error .unreachable,w)

def command (client : Nat) (run : Nat → Keyspace → Except Fault (α × Keyspace)) : Program α :=
  effect fun _ w => send client run w

-- The constant part of a RedisCacheImpl: where its fields are, and its namespace.
structure RedisCacheImpl where
  place : Nat
  «namespace» : String
  deriving DecidableEq, Repr

namespace RedisCacheImpl
variable (cache : RedisCacheImpl)

def key (raw : String) : String := cache.namespace ++ ":" ++ raw

def ready? (w : World) : Option Nat := (w.places cache.place).client.filter fun client => (w.clients client).status = "ready"

def useMemory (f : Nat → MemoryCache → α × MemoryCache) (w : World) : α × World :=
  let (value,memory) := f w.now (w.places cache.place).memory
  (value,w.withMemory cache.place memory)

-- A client that is not usable, and a command that fails, leave the work to the
-- memory of the process.
def degrading (usable : RedisLike → Bool) (served : Nat → Program α) (memory : Nat → MemoryCache → α × MemoryCache) :
    Program α := do
  match ← atomic fun _ w => ((cache.ready? w).filter fun client => usable (w.clients client),w) with
  | none => atomic fun _ w => cache.useMemory memory w
  | some client => match ← (served client).attempt with
    | .ok value => pure value
    | .error _ => atomic fun _ w => cache.useMemory memory w

def get (key : String) : Program (Option String) :=
  cache.degrading (fun _ => true) (fun client => command client (Keyspace.get (cache.key key))) (MemoryCache.get key)

def set (key value : String) (ttlSeconds : Option Nat) : Program Unit :=
  cache.degrading (fun _ => true)
    (fun client => command client (Keyspace.set (cache.key key) value (ttlSeconds.filter (· ≠ 0))))
    fun now memory => ((),memory.set key value ttlSeconds now)

def del (key : String) : Program Unit :=
  cache.degrading (fun _ => true) (fun client => command client (Keyspace.del (cache.key key)))
    fun _ memory => ((),memory.del key)

-- The client is looked up again for the expiry.
def countOn (key : String) (ttlSeconds : Nat) (client : Nat) : Program Nat := do
  let count ← command client (Keyspace.incr (cache.key key))
  if count = 1 then
    match ← atomic fun _ w => ((w.places cache.place).client.filter fun bound => (w.clients bound).hasCounters,w) with
    | none => throw .unreachable
    | some bound => command bound (Keyspace.expire (cache.key key) ttlSeconds)
  pure count

def incrementAndExpire (key : String) (ttlSeconds : Nat) : Program Nat :=
  cache.degrading RedisLike.hasCounters (cache.countOn key ttlSeconds) (MemoryCache.incrementAndExpire key ttlSeconds)

def ready : Program Bool := do
  match ← atomic fun _ w => (cache.ready? w,w) with
  | none => pure false
  | some client => match ← (command client (Keyspace.get (cache.key "__ready_probe__"))).attempt with
    | .ok _ => pure true
    | .error _ => pure false

def setClient (client : Option Nat) : Program Unit :=
  atomic fun _ w => ((),w.withPlace cache.place {w.places cache.place with client})

end RedisCacheImpl

end Pezhwan.Redis
