import Pezhwan.Atomic.Effect
import Pezhwan.Redis.World

-- A cache that writes to one of two stores at a time, as a cache.
namespace Pezhwan.Redis
open Atomic Prog

namespace RedisCacheImpl
variable {cache : RedisCacheImpl}

@[simp] theorem memory_withMemory (w : World) (place : Nat) (memory : MemoryCache) :
    ((w.withMemory place memory).places place).memory = memory := by
  simp [World.withMemory,World.withPlace]

@[simp] theorem servers_withMemory (w : World) (place : Nat) (memory : MemoryCache) :
    (w.withMemory place memory).servers = w.servers := rfl

@[simp] theorem servers_withServer (w : World) (n m : Nat) (keys : Keyspace) :
    (w.withServer n keys).servers m = if m = n then keys else w.servers m := rfl

@[simp] theorem places_withServer (w : World) (n : Nat) (keys : Keyspace) : (w.withServer n keys).places = w.places := rfl

theorem key_injective (same : cache.key a = cache.key b) : a = b :=
  String.toList_injective (by simpa [key] using congrArg String.toList same)

theorem ready_client (ready : cache.ready? w = some client) : (w.places cache.place).client = some client :=
  (Option.filter_eq_some_iff.mp ready).1

theorem run_degrading (usable : RedisLike → Bool) (served : Nat → Program α)
    (memory : Nat → MemoryCache → α × MemoryCache) (i : CallId) (w : World) :
    (cache.degrading usable served memory).run i w =
      match (cache.ready? w).filter fun client => usable (w.clients client) with
      | none => (.ok (cache.useMemory memory w).1,(cache.useMemory memory w).2)
      | some client => match (served client).run i w with
        | (.ok value,t) => (.ok value,t)
        | (.error _,t) => (.ok (cache.useMemory memory t).1,(cache.useMemory memory t).2) := by
  unfold degrading
  rw [run_bind_ok (run_atomic i _ w)]
  cases (cache.ready? w).filter fun client => usable (w.clients client) with
  | none => rfl
  | some client =>
    dsimp only
    cases ran : (served client).run i w with
    | mk result t =>
      rw [run_bind_attempt ran]
      cases result <;> rfl

end RedisCacheImpl

inductive Call where
  | get (key : String)
  | set (key value : String) (ttlSeconds : Option Nat)
  | del (key : String)
  | setClient (client : Option Nat)
  deriving DecidableEq, Repr

def program (cache : RedisCacheImpl) : Call → Program (Option String)
  | .get key => cache.get key
  | .set key value ttlSeconds => (fun _ => none) <$> cache.set key value ttlSeconds
  | .del key => (fun _ => none) <$> cache.del key
  | .setClient client => (fun _ => none) <$> cache.setClient client

def Call.writes (key : String) : Call → Bool
  | .set name _ _ | .del name => name = key
  | .get _ | .setClient _ => false

def perform (cache : RedisCacheImpl) (call : Call) (w : World) : Except Fault (Option String) × World :=
  (program cache call).run 0 w

-- Time passes, and clients change in any way: their status, whether their
-- commands arrive, the server they talk to.
structure Passing (w t : World) : Prop where
  later : w.now ≤ t.now
  servers : t.servers = w.servers
  places : t.places = w.places

structure Fresh (cache : RedisCacheImpl) (w : World) : Prop where
  memory : (w.places cache.place).memory.store = .empty
  servers : ∀ n key, (w.servers n).get? (cache.key key) = none

-- The stores that a cache has; which of them a read asks, and which a write reaches.
inductive Site where
  | memory
  | server (n : Nat)
  deriving DecidableEq, Repr

def site (cache : RedisCacheImpl) (w : World) : Site :=
  match cache.ready? w with
  | none => .memory
  | some client => if (w.clients client).link = .up then .server (w.clients client).server else .memory

def reached (cache : RedisCacheImpl) (w : World) : Site → Bool
  | .memory => site cache w = .memory
  | .server n => (cache.ready? w).any fun client => (w.clients client).link ≠ .down ∧ (w.clients client).server = n

-- What a store answers for a key at a time.
def shown (cache : RedisCacheImpl) (w : World) (key : String) (time : Nat) : Site → Option String
  | .memory => ((w.places cache.place).memory.live time key).map MemoryEntry.value
  | .server n => ((w.servers n).live time (cache.key key)).map Stored.text

abbrev Log := List (Entry Call World (Except Fault (Option String)))

def latest (key : String) (log : Log) : Option (Entry Call World (Except Fault (Option String))) :=
  log.find? fun entry => entry.call.writes key

-- The store that a read asks was reached by the latest write of the key, or has
-- nothing to answer.
def Current (cache : RedisCacheImpl) (log : Log) (w : World) (key : String) : Prop :=
  ∀ entry, latest key log = some entry →
    reached cache entry.found (site cache w) = true ∨ shown cache w key w.now (site cache w) = none

-- A value that this call has set and that has not passed its TTL.
def Covers (call : Call) (set : Nat) (key value : String) (time : Nat) : Prop :=
  ∃ ttlSeconds, call = .set key value ttlSeconds ∧ ∀ seconds, ttlSeconds = some seconds → seconds ≠ 0 →
    time ≤ set + seconds * 1000

section
variable {cache : RedisCacheImpl} {w : World} {call : Call} {key value : String} {time : Nat}

-- A call that sends one command: which store it changes and which one answers.
section
variable {command_ : Nat → Keyspace → Except Fault (α × Keyspace)} {out : Nat → Keyspace → α}
  {memory : Nat → MemoryCache → α × MemoryCache} (left : Nat → Keyspace → Keyspace)

theorem run_simple (command_ : Nat → Keyspace → Except Fault (α × Keyspace))
    (memory : Nat → MemoryCache → α × MemoryCache) (w : World) :
    (cache.degrading (fun _ => true) (fun client => command client command_) memory).run 0 w =
      match cache.ready? w with
      | none => (.ok (cache.useMemory memory w).1,(cache.useMemory memory w).2)
      | some client => match send client command_ w with
        | (.ok value,t) => (.ok value,t)
        | (.error _,t) => (.ok (cache.useMemory memory t).1,(cache.useMemory memory t).2) := by
  rw [RedisCacheImpl.run_degrading]
  have all : (cache.ready? w).filter (fun _ => true) = cache.ready? w := by cases cache.ready? w <;> rfl
  rw [all]
  rfl

theorem simple_memory (serves : ∀ now keys, command_ now keys = .ok (out now keys,left now keys)) (w : World) :
    (((cache.degrading (fun _ => true) (fun client => command client command_) memory).run 0 w).2.places cache.place).memory =
      if site cache w = .memory then (memory w.now (w.places cache.place).memory).2 else (w.places cache.place).memory := by
  rw [run_simple]
  unfold site
  cases cache.ready? w with
  | none => simp [RedisCacheImpl.useMemory]
  | some client =>
    cases link : (w.clients client).link with
    | up => simp [send,link,execute,serves]
    | lost => simp [send,link,execute,serves,RedisCacheImpl.useMemory]; rfl
    | down => simp [send,link,RedisCacheImpl.useMemory]

theorem simple_server (serves : ∀ now keys, command_ now keys = .ok (out now keys,left now keys)) (w : World) (n : Nat) :
    ((cache.degrading (fun _ => true) (fun client => command client command_) memory).run 0 w).2.servers n =
      if reached cache w (.server n) then left w.now (w.servers n) else w.servers n := by
  rw [run_simple]
  unfold reached
  cases cache.ready? w with
  | none => simp [RedisCacheImpl.useMemory]
  | some client =>
    cases link : (w.clients client).link with
    | up =>
      simp only [send,link,execute,serves]
      by_cases same : (w.clients client).server = n
      · subst same; simp [link,World.keyspace]
      · have other : ¬ n = (w.clients client).server := fun equal => same equal.symm
        simp [same,other]
    | lost =>
      simp only [send,link,execute,serves,RedisCacheImpl.useMemory]
      by_cases same : (w.clients client).server = n
      · subst same; simp [link,World.keyspace]
      · have other : ¬ n = (w.clients client).server := fun equal => same equal.symm
        simp [same,other]
    | down => simp [send,link,RedisCacheImpl.useMemory]

theorem simple_answer (serves : ∀ now keys, command_ now keys = .ok (out now keys,left now keys)) (w : World) :
    ((cache.degrading (fun _ => true) (fun client => command client command_) memory).run 0 w).1 =
      .ok (match site cache w with
        | .memory => (memory w.now (w.places cache.place).memory).1
        | .server n => out w.now (w.servers n)) := by
  rw [run_simple]
  unfold site
  cases cache.ready? w with
  | none => simp [RedisCacheImpl.useMemory]
  | some client =>
    cases link : (w.clients client).link with
    | up => simp [send,link,execute,serves,World.keyspace]
    | lost => simp [send,link,execute,serves,RedisCacheImpl.useMemory]; rfl
    | down => simp [send,link,RedisCacheImpl.useMemory]

end

theorem perform_memory (call : Call) (w : World) :
    ((perform cache call w).2.places cache.place).memory =
      if site cache w = .memory then match call with
        | .get key => ((w.places cache.place).memory.get key w.now).2
        | .set key value ttlSeconds => (w.places cache.place).memory.set key value ttlSeconds w.now
        | .del key => (w.places cache.place).memory.del key
        | .setClient _ => (w.places cache.place).memory
      else (w.places cache.place).memory := by
  cases call with
  | get key => exact simple_memory (fun _ keys => keys) (fun _ _ => rfl) w
  | set key value ttlSeconds | del key =>
    simp only [perform,program,run_map]
    exact simple_memory _ (fun _ _ => rfl) w
  | setClient client => simp [perform,program,RedisCacheImpl.setClient,World.withPlace]

theorem perform_server (call : Call) (w : World) (n : Nat) :
    (perform cache call w).2.servers n =
      if reached cache w (.server n) then match call with
        | .set key value ttlSeconds =>
          Dict.set (w.servers n) (cache.key key) ⟨value,(ttlSeconds.filter (· ≠ 0)).map (w.now + · * 1000)⟩
        | .del key => (w.servers n).erase (cache.key key)
        | .get _ | .setClient _ => w.servers n
      else w.servers n := by
  cases call with
  | get key => exact simple_server (fun _ keys => keys) (fun _ _ => rfl) w n
  | set key value ttlSeconds | del key =>
    simp only [perform,program,run_map]
    exact simple_server _ (fun _ _ => rfl) w n
  | setClient client => simp [perform,program,RedisCacheImpl.setClient,World.withPlace]

theorem perform_get (key : String) (w : World) : (perform cache (.get key) w).1 = .ok (shown cache w key w.now (site cache w)) := by
  refine (simple_answer (fun _ keys => keys) (fun _ _ => rfl) w).trans (congrArg Except.ok ?_)
  cases site cache w with
  | memory => exact MemoryCache.get_value key w.now _
  | server n => rfl

theorem shown_unwritten (other : call.writes key = false) (store : Site)
    (found : shown cache (perform cache call w).2 key time store = some value) : shown cache w key time store = some value := by
  cases store with
  | memory =>
    obtain ⟨entry,live,rfl⟩ := Option.map_eq_some_iff.mp found
    obtain ⟨stored,lasting⟩ := Option.filter_eq_some_iff.mp live
    rw [perform_memory] at stored
    have before : (w.places cache.place).memory.store.get? key = some entry := by
      split at stored
      · cases call with
        | get name => exact MemoryCache.get_stored stored
        | set name text ttlSeconds =>
          rcases MemoryCache.set_stored stored with ⟨same,_⟩ | ⟨_,kept⟩
          · simp [Call.writes,same] at other
          · exact kept
        | del name => exact (MemoryCache.del_stored stored).1
        | setClient client => exact stored
      · exact stored
    exact Option.map_eq_some_iff.mpr ⟨entry,Option.filter_eq_some_iff.mpr ⟨before,lasting⟩,rfl⟩
  | server n =>
    have same : Dict.get? ((perform cache call w).2.servers n) (cache.key key) = Dict.get? (w.servers n) (cache.key key) := by
      rw [perform_server]
      split
      · cases call with
        | get name => rfl
        | set name text ttlSeconds =>
          rw [Dict.get?_set_ne]
          intro equal
          simp [Call.writes,RedisCacheImpl.key_injective equal] at other
        | del name =>
          rw [Dict.get?_erase,if_neg]
          intro equal
          simp [Call.writes,RedisCacheImpl.key_injective equal] at other
        | setClient client => rfl
      · rfl
    simpa [shown,Keyspace.live,same] using found

theorem shown_written (writes : call.writes key = true) (store : Site) (wrote : reached cache w store = true)
    (found : shown cache (perform cache call w).2 key time store = some value) : Covers call w.now key value time := by
  cases store with
  | memory =>
    have here : site cache w = .memory := by simpa [reached] using wrote
    obtain ⟨entry,live,rfl⟩ := Option.map_eq_some_iff.mp found
    obtain ⟨stored,lasting⟩ := Option.filter_eq_some_iff.mp live
    rw [perform_memory,if_pos here] at stored
    cases call with
    | get name => cases writes
    | set name text ttlSeconds =>
      obtain rfl : name = key := by simpa [Call.writes] using writes
      rcases MemoryCache.set_stored stored with ⟨_,rfl⟩ | ⟨other,_⟩
      · refine ⟨ttlSeconds,rfl,?_⟩
        rintro seconds rfl positive
        obtain ⟨n,rfl⟩ := Nat.exists_eq_succ_of_ne_zero positive
        simpa [expiry] using lasting
      · exact absurd rfl other
    | del name =>
      obtain rfl : name = key := by simpa [Call.writes] using writes
      exact absurd rfl (MemoryCache.del_stored stored).2
    | setClient client => cases writes
  | server n =>
    obtain ⟨entry,live,rfl⟩ := Option.map_eq_some_iff.mp found
    obtain ⟨stored,lasting⟩ := Option.filter_eq_some_iff.mp live
    rw [perform_server,if_pos wrote] at stored
    cases call with
    | get name => cases writes
    | set name text ttlSeconds =>
      obtain rfl : name = key := by simpa [Call.writes] using writes
      simp only [Dict.get?_set_self,Option.some.injEq] at stored
      subst stored
      refine ⟨ttlSeconds,rfl,?_⟩
      rintro seconds rfl positive
      have bounded : time < w.now + seconds * 1000 := by simpa [Option.filter,positive] using lasting
      exact Nat.le_of_lt bounded
    | del name =>
      obtain rfl : name = key := by simpa [Call.writes] using writes
      simp [Dict.get?_erase] at stored
    | setClient client => cases writes

-- Every store that the latest write of a key has reached holds what it left there.
structure Backed (cache : RedisCacheImpl) (log : Log) (w : World) : Prop where
  written : ∀ key entry, latest key log = some entry → ∀ store time value, reached cache entry.found store = true →
    shown cache w key time store = some value → Covers entry.call entry.found.now key value time
  unwritten : ∀ key, latest key log = none → ∀ store time, shown cache w key time store = none

theorem fresh_backed (fresh : Fresh cache w) : Backed cache [] w := by
  refine ⟨?_,?_⟩
  · intro key entry latest_
    cases latest_
  · intro key _ store time
    cases store with
    | memory => simp [shown,MemoryCache.live,fresh.memory,Option.filter]
    | server n => simp [shown,Keyspace.live,fresh.servers,Option.filter]

theorem perform_backed (call : Call) (backed : Backed cache log w) :
    Backed cache (⟨call,w,(perform cache call w).1,(perform cache call w).2⟩ :: log) (perform cache call w).2 := by
  have head : ∀ key, latest key (⟨call,w,(perform cache call w).1,(perform cache call w).2⟩ :: log) =
      if call.writes key then some ⟨call,w,(perform cache call w).1,(perform cache call w).2⟩ else latest key log := by
    intro key
    by_cases writes : call.writes key = true
    · simp [latest,writes]
    · simp [latest,writes]
  refine ⟨?_,?_⟩
  · intro key entry found store time value wrote read
    rw [head] at found
    split at found
    · rename_i writes
      cases found
      exact shown_written writes store wrote read
    · rename_i other
      exact backed.written key entry found store time value wrote (shown_unwritten (by simpa using other) store read)
  · intro key none store time
    rw [head] at none
    split at none
    · cases none
    · rename_i other
      by_contra present
      obtain ⟨value,read⟩ := Option.ne_none_iff_exists'.mp present
      have before := shown_unwritten (by simpa using other) store read
      rw [backed.unwritten key none] at before
      cases before

theorem passing_backed (backed : Backed cache log w) (passing : Passing w t) : Backed cache log t := by
  have same : ∀ key time store, shown cache t key time store = shown cache w key time store := by
    intro key time store
    cases store <;> simp [shown,passing.places,passing.servers]
  refine ⟨?_,?_⟩
  · intro key entry found store time value wrote read
    exact backed.written key entry found store time value wrote (same key time store ▸ read)
  · intro key none store time
    rw [same]
    exact backed.unwritten key none store time

theorem history_backed (history : History (perform cache) Passing (Fresh cache) log w) : Backed cache log w :=
  history.invariant (fun _ => fresh_backed) (fun _ _ call backed => perform_backed call backed)
    fun _ _ _ => passing_backed

end

-- The value was set last, and has not passed its TTL since.
def LastSet (log : Log) (w : World) (key value : String) : Prop :=
  ∃ newer entry older, log = newer ++ entry :: older ∧ Covers entry.call entry.found.now key value w.now ∧
    ∀ later ∈ newer, later.call.writes key = false

-- In every run, a read that asks a current store returns the latest value that
-- was set, and nothing that was deleted or replaced since.
theorem current_get_returns_last_set (history : History (perform cache) Passing (Fresh cache) log w)
    (current : Current cache log w key) (found : (perform cache (.get key) w).1 = .ok (some value)) :
    LastSet log w key value := by
  have backed := history_backed history
  rw [perform_get,Except.ok.injEq] at found
  cases written : latest key log with
  | none =>
    rw [backed.unwritten key written] at found
    cases found
  | some entry =>
    obtain ⟨newer,older,split,_,unwritten⟩ := find_split written
    rcases current entry written with wrote | nothing
    · exact ⟨newer,entry,older,split,backed.written key entry written _ _ _ wrote found,unwritten⟩
    · rw [nothing] at found
      cases found

def sampleCache : RedisCacheImpl := ⟨0,"pezhwan"⟩

def sampleWorld (now : Nat) (status : String) (link : Link) : World where
  now := now
  clients := fun _ => ⟨status,true,link,0⟩
  servers := fun _ => .empty
  places := fun _ => ⟨some 0,.empty⟩
  mongo := .up
  counters := .empty

-- The same world with its clients in another state.
def World.turned (w : World) (status : String) (link : Link) : World := {w with clients := fun _ => ⟨status,true,link,0⟩}

theorem turned_passing (w : World) (status : String) (link : Link) : Passing w (w.turned status link) :=
  ⟨Nat.le_refl _,rfl,rfl⟩

theorem sample_fresh (now : Nat) (status : String) (link : Link) : Fresh sampleCache (sampleWorld now status link) :=
  ⟨rfl,fun _ _ => rfl⟩

theorem current_get_returns_cached_session : LastSet
    [⟨.set "session" "active" (some 60),sampleWorld 5 "ready" .up,.ok none,
      (perform sampleCache (.set "session" "active" (some 60)) (sampleWorld 5 "ready" .up)).2⟩]
    (perform sampleCache (.set "session" "active" (some 60)) (sampleWorld 5 "ready" .up)).2 "session" "active" := by
  apply current_get_returns_last_set (.call (.start (sample_fresh 5 "ready" .up)) (.set "session" "active" (some 60)))
  · intro entry written
    cases written
    exact .inl (by decide +kernel)
  · decide +kernel

-- A session is cached in Redis, revoked while Redis is away, and active again
-- when Redis is back.
theorem revoked_session_comes_back : ¬ ∀ (log : Log) (w : World) (key value : String),
    History (perform sampleCache) Passing (Fresh sampleCache) log w →
    (perform sampleCache (.get key) w).1 = .ok (some value) → LastSet log w key value := by
  intro lawful
  let cached := (perform sampleCache (.set "session" "active" (some 60)) (sampleWorld 5 "ready" .up)).2
  let revoked := (perform sampleCache (.del "session") (cached.turned "end" .down)).2
  have begun : History (perform sampleCache) Passing (Fresh sampleCache) [] (sampleWorld 5 "ready" .up) :=
    .start (sample_fresh 5 "ready" .up)
  have away := (begun.call (.set "session" "active" (some 60))).other (turned_passing _ "end" .down)
  have history := (away.call (.del "session")).other (turned_passing _ "ready" .up)
  obtain ⟨newer,entry,older,split,⟨ttlSeconds,asked,_⟩,unwritten⟩ :=
    lawful _ (revoked.turned "ready" .up) "session" "active" history (by decide +kernel)
  cases newer with
  | nil =>
    rw [List.nil_append,List.cons.injEq] at split
    rw [← split.1] at asked
    cases asked
  | cons newest newer =>
    rw [List.cons_append,List.cons.injEq] at split
    have silent := unwritten newest List.mem_cons_self
    rw [← split.1] at silent
    cases silent

end Pezhwan.Redis
