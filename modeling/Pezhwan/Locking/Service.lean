import Pezhwan.Redis.World

namespace Pezhwan.Redis.Keyspace
open Atomic

-- SET key value NX EX ttlSeconds.
def setNX (key value : String) (ttlSeconds now : Nat) (keys : Keyspace) : Except Fault (Option String × Keyspace) :=
  match keys.live now key with
  | some _ => .ok (none,keys)
  | none => .ok (some "OK",Dict.set keys key ⟨value,some (now + ttlSeconds * 1000)⟩)

-- The two scripts; a PEXPIRE that is not in the future deletes the key.
def compareDel (key token : String) (now : Nat) (keys : Keyspace) : Except Fault (Nat × Keyspace) :=
  if (keys.live now key).map Stored.text = some token then .ok (1,keys.erase key) else .ok (0,keys)

def comparePexpire (key token : String) (ttlMs : Int) (now : Nat) (keys : Keyspace) : Except Fault (Nat × Keyspace) :=
  if (keys.live now key).map Stored.text = some token then .ok (1,Dict.set keys key ⟨token,some (now + ttlMs).toNat⟩)
  else .ok (0,keys)

end Pezhwan.Redis.Keyspace

namespace Pezhwan.Locking
open Atomic Prog Redis

structure LockOptions where
  key : String
  ttlMs : Int := 10000
  retries : Int := 0
  retryDelayMs : Int := 100
  deriving DecidableEq, Repr

structure Lock where
  token : String
  key : String
  acquiredAt : Nat
  ttlMs : Int
  deriving DecidableEq, Repr

-- What Date.now().toString(36) and the Math.random() of the n-th token give.
structure Runtime where
  timestamp : Nat → String
  rand : Nat → String

structure DistributedLock where
  cache : RedisCacheImpl
  client : Option Nat
  hasEval : Bool
  «namespace» : String

structure Process where
  world : World
  lockCounter : Nat

def Process.redis : Lens Process World where
  get := Process.world
  set world p := {p with world}
  get_set _ _ := rfl
  set_get _ := rfl
  set_set _ _ _ := rfl

abbrev Work := Prog CallId Process Fault

def tokenText (runtime : Runtime) (now n : Nat) : String :=
  "lock:" ++ runtime.timestamp now ++ ":" ++ runtime.rand n ++ ":" ++ n.repr

def generateToken (runtime : Runtime) : Work String :=
  atomic fun _ p => (tokenText runtime p.world.now (p.lockCounter + 1),{p with lockCounter := p.lockCounter + 1})

def ttlSecondsOf (ttlMs : Int) : Nat := (max 1 ((ttlMs + 999) / 1000)).toNat

-- setTimeout: the time that passes is up to the surroundings.
def sleep (_ : Int) : Work Unit := pure ()

namespace DistributedLock
variable (lock : DistributedLock)

def prefixedKey (key : String) : String := lock.namespace ++ ":lock:" ++ key

def ready? (w : World) : Option Nat := lock.client.filter fun client => (w.clients client).status = "ready"

def scripted? (w : World) : Option Nat := (lock.ready? w).filter fun _ => lock.hasEval

-- catch { return false; }
def orFalse (body : Program Bool) : Program Bool := do
  match ← body.attempt with
  | .ok value => pure value
  | .error _ => pure false

def checkThenSet (fullKey token : String) (ttlSeconds : Nat) : Program Bool := do
  let existing ← match lock.client with
    | none => pure none
    | some client => command client (Keyspace.get fullKey)
  match truthy existing with
  | some _ => pure false
  | none =>
    lock.cache.set fullKey token (some ttlSeconds)
    pure true

def tryAcquire (fullKey token : String) (ttlSeconds : Nat) : Program Bool := orFalse do
  match ← atomic fun _ w => (lock.ready? w,w) with
  | some client =>
    let result ← command client (Keyspace.setNX fullKey token ttlSeconds)
    pure (result = some "OK")
  | none => lock.checkThenSet fullKey token ttlSeconds

def createLock (fullKey token : String) (ttlMs : Int) : Work Lock :=
  atomic fun _ p => (⟨token,fullKey,p.world.now,ttlMs⟩,p)

def acquiring (runtime : Runtime) (options : LockOptions) : Nat → Work (Option Lock)
  | 0 => pure none
  | left+1 => do
    let fullKey := lock.prefixedKey options.key
    let token ← generateToken runtime
    if ← (lock.tryAcquire fullKey token (ttlSecondsOf options.ttlMs)).zoom Process.redis then
      some <$> createLock fullKey token options.ttlMs
    else
      if left ≠ 0 then sleep options.retryDelayMs
      acquiring runtime options left

def acquire (runtime : Runtime) (options : LockOptions) : Work (Option Lock) :=
  lock.acquiring runtime options (options.retries + 1).toNat

def release (held : Lock) : Program Bool := orFalse do
  match ← atomic fun _ w => (lock.scripted? w,w) with
  | some client =>
    let result ← command client (Keyspace.compareDel held.key held.token)
    pure (result = 1)
  | none =>
    lock.cache.del held.key
    pure true

def extend (held : Lock) (newTtlMs : Option Int) : Program Bool := orFalse do
  let newTtl := newTtlMs.getD held.ttlMs
  match ← atomic fun _ w => (lock.scripted? w,w) with
  | some client =>
    let result ← command client (Keyspace.comparePexpire held.key held.token newTtl)
    pure (result = 1)
  | none =>
    lock.cache.set held.key held.token (some (ttlSecondsOf newTtl))
    pure true

end DistributedLock

def digitsOf (text : String) : List Char := text.toList.reverse.takeWhile (· ≠ ':')

theorem digitsOf_token (runtime : Runtime) (now n : Nat) : digitsOf (tokenText runtime now n) = n.repr.toList.reverse := by
  have digits : ∀ c ∈ n.repr.toList.reverse, (decide (c ≠ ':')) = true := by
    intro c listed
    rw [List.mem_reverse,Nat.toList_repr] at listed
    have digit := Nat.isDigit_of_mem_toDigits (by omega) (by omega) listed
    apply decide_eq_true
    rintro rfl
    exact absurd digit (by decide)
  have split : (tokenText runtime now n).toList.reverse =
      n.repr.toList.reverse ++ ':' :: ("lock:" ++ runtime.timestamp now ++ ":" ++ runtime.rand n).toList.reverse := by
    simp [tokenText]
  unfold digitsOf
  rw [split,List.takeWhile_append_of_pos digits]
  simp

theorem tokenText_number (same : tokenText runtime now n = tokenText runtime now' m) : n = m := by
  have digits := congrArg digitsOf same
  rw [digitsOf_token,digitsOf_token] at digits
  have texts : n.repr = m.repr := String.ext (List.reverse_injective digits)
  have numbers := congrArg Number texts
  simpa using numbers

end Pezhwan.Locking
