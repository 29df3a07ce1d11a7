import Mathlib.Data.List.Induction
import Pezhwan.Redis.World

-- How large a memory cache grows, and what it lets go.
namespace Pezhwan.Redis
open Atomic

-- An operation on the cache, with the time that passed before it. A set looks at the
-- clock twice.
inductive Operation where
  | get (key : String)
  | set (key value : String) (ttlSeconds : Option Nat) (between : Nat)
  | del (key : String)
  | incrementAndExpire (key : String) (ttlSeconds : Nat)
  deriving DecidableEq, Repr

structure Event where
  waited : Nat
  operation : Operation
  deriving DecidableEq, Repr

structure Host where
  cache : MemoryCache
  now : Nat
  deriving DecidableEq

namespace MemoryCache

-- A set that sweeps at one time and stamps the entry at another.
def setAcross (key value : String) (ttlSeconds : Option Nat) (before now : Nat) (cache : MemoryCache) : MemoryCache :=
  let swept := sweep before {cache with store := cache.store.erase key}
  {swept with store := swept.store.set key ⟨value,expiry now ttlSeconds⟩}

end MemoryCache

def Host.step (host : Host) (event : Event) : Host :=
  let now := host.now + event.waited
  match event.operation with
  | .get key => ⟨(host.cache.get key now).2,now⟩
  | .set key value ttlSeconds between => ⟨host.cache.setAcross key value ttlSeconds now (now + between),now + between⟩
  | .del key => ⟨host.cache.del key,now⟩
  | .incrementAndExpire key ttlSeconds => ⟨(host.cache.incrementAndExpire key ttlSeconds now).2,now⟩

def Host.run (host : Host) (events : List Event) : Host := events.foldl Host.step host

-- What a get at this time would return.
def Host.read (host : Host) (key : String) (time : Nat) : Option String := (host.cache.get key time).1

def Host.Bounded (host : Host) : Prop := host.cache.store.size ≤ host.cache.maxEntries

-- No counter is added to a full cache.
def Host.Calm (host : Host) (event : Event) : Prop :=
  match event.operation with
  | .incrementAndExpire key _ => host.cache.store.get? key = none → host.cache.store.size < host.cache.maxEntries
  | _ => True

namespace MemoryCache
variable {cache : MemoryCache}

theorem get_size (key : String) (now : Nat) (cache : MemoryCache) :
    (cache.get key now).2.store.size ≤ cache.store.size ∧ (cache.get key now).2.maxEntries = cache.maxEntries := by
  unfold get
  split
  · exact ⟨Nat.le_refl _,rfl⟩
  · split
    · exact ⟨Dict.size_filter _ _,rfl⟩
    · exact ⟨Nat.le_refl _,rfl⟩

theorem sweep_max (now : Nat) (cache : MemoryCache) : (cache.sweep now).maxEntries = cache.maxEntries := by
  unfold sweep
  split
  · rfl
  · dsimp only
    split <;> rfl

theorem sweep_size (positive : 1 ≤ cache.maxEntries) (now : Nat) : (cache.sweep now).store.size < cache.maxEntries := by
  unfold sweep
  split
  · assumption
  · dsimp only
    split
    · assumption
    · rw [Dict.size_drop]
      omega

theorem setAcross_size (positive : 1 ≤ cache.maxEntries) (key value : String) (ttlSeconds : Option Nat) (before now : Nat) :
    (cache.setAcross key value ttlSeconds before now).store.size ≤ cache.maxEntries ∧
      (cache.setAcross key value ttlSeconds before now).maxEntries = cache.maxEntries := by
  have room := @sweep_size {cache with store := cache.store.erase key} positive before
  have same := sweep_max before {cache with store := cache.store.erase key}
  refine ⟨?_,same⟩
  simp only [setAcross]
  rw [Dict.size_set]
  split
  · exact room
  · exact Nat.le_of_lt room

theorem incrementAndExpire_size (key : String) (ttlSeconds now : Nat) (cache : MemoryCache) :
    (cache.incrementAndExpire key ttlSeconds now).2.store.size =
      if cache.store.get? key = none then cache.store.size + 1 else cache.store.size :=
  Dict.size_set _ _ _

theorem setAcross_spares (other : k ≠ key) (found : cache.store.get? k = some entry) (fresh : before ≤ entry.expiresAt)
    (gone : (cache.setAcross key value ttlSeconds before now).store.get? k = none) :
    cache.maxEntries ≤ ((cache.store.erase key).filter fun _ entry => !(entry.expiresAt < before)).size ∧
      ∀ k' entry', k' ≠ key → (cache.setAcross key value ttlSeconds before now).store.get? k' = some entry' →
        before ≤ entry'.expiresAt := by
  have kept : (cache.store.erase key).get? k = some entry := by
    rw [Dict.get?_erase,if_neg other]
    exact found
  have unexpired : ((cache.store.erase key).filter fun _ entry => !(entry.expiresAt < before)).get? k = some entry := by
    rw [Dict.get?_filter,kept]
    simp [Option.filter,Nat.not_lt.mpr fresh]
  simp only [setAcross] at gone ⊢
  rw [Dict.get?_set_ne _ _ other] at gone
  unfold sweep at gone ⊢
  split at gone
  · rw [kept] at gone
    cases gone
  · rename_i full
    dsimp only at gone
    split at gone
    · rw [unexpired] at gone
      cases gone
    · rename_i crowded
      refine ⟨Nat.not_lt.mp crowded,?_⟩
      intro k' entry' another held
      rw [if_neg full] at held
      simp only [if_neg crowded] at held
      rw [Dict.get?_set_ne _ _ another] at held
      have listed := Dict.get?_drop held
      rw [Dict.get?_filter] at listed
      have alive := (Option.filter_eq_some_iff.mp listed).2
      simpa using alive

theorem setAcross_stored (value : String) (ttlSeconds : Option Nat) (before now : Nat) (other : k ≠ key)
    (found : cache.store.get? k = some entry) :
    (cache.setAcross key value ttlSeconds before now).store.get? k = some entry ∨
      (cache.setAcross key value ttlSeconds before now).store.get? k = none := by
  simp only [setAcross]
  rw [Dict.get?_set_ne _ _ other]
  cases held : (sweep before {cache with store := cache.store.erase key}).store.get? k with
  | none => exact .inr rfl
  | some entry' =>
    have same := sweep_stored held
    rw [Dict.get?_erase,if_neg other,found] at same
    exact .inl same.symm

theorem get_kept (found : cache.store.get? k = some entry) (fresh : now ≤ entry.expiresAt) :
    (cache.get key now).2.store.get? k = some entry := by
  unfold get
  cases held : cache.store.get? key with
  | none => exact found
  | some entry' =>
    dsimp only
    split
    · rename_i lapsed
      have other : k ≠ key := by
        intro same
        rw [same,held] at found
        cases found
        omega
      rw [Dict.get?_erase,if_neg other]
      exact found
    · exact found

end MemoryCache

-- Operations that change the entry of a key by name.
def Operation.writes (key : String) : Operation → Bool
  | .get _ => false
  | .set name _ _ _ => name = key
  | .del name => name = key
  | .incrementAndExpire name _ => name = key

def Operation.sets : Operation → Option String
  | .set name _ _ _ => some name
  | _ => none

namespace Host
variable {host : Host} {event : Event} {key : String}

theorem run_append (host : Host) (past rest : List Event) : host.run (past ++ rest) = (host.run past).run rest :=
  List.foldl_append

theorem step_max (host : Host) (event : Event) : (host.step event).cache.maxEntries = host.cache.maxEntries := by
  unfold step
  cases event.operation with
  | get key => exact (MemoryCache.get_size key _ host.cache).2
  | set key value ttlSeconds between => exact MemoryCache.sweep_max _ _
  | del key => rfl
  | incrementAndExpire key ttlSeconds => rfl

theorem run_max (host : Host) (events : List Event) : (host.run events).cache.maxEntries = host.cache.maxEntries := by
  induction events generalizing host with
  | nil => rfl
  | cons event rest ih => exact (ih (host.step event)).trans (step_max host event)

theorem step_bounded (positive : 1 ≤ host.cache.maxEntries) (bounded : host.Bounded) :
    (host.step event).Bounded ↔ host.Calm event := by
  unfold Bounded at bounded ⊢
  rw [step_max]
  unfold step Calm
  cases event.operation with
  | get key =>
    have size := (MemoryCache.get_size key (host.now + event.waited) host.cache).1
    exact ⟨fun _ => trivial,fun _ => Nat.le_trans size bounded⟩
  | set key value ttlSeconds between => exact ⟨fun _ => trivial,fun _ => (MemoryCache.setAcross_size positive _ _ _ _ _).1⟩
  | del key => exact ⟨fun _ => trivial,fun _ => Nat.le_trans (Dict.size_filter _ _) bounded⟩
  | incrementAndExpire key ttlSeconds =>
    dsimp only
    rw [MemoryCache.incrementAndExpire_size]
    split
    · rename_i absent
      exact ⟨fun room _ => room,fun calm => calm absent⟩
    · rename_i present
      exact ⟨fun _ absent => absurd absent present,fun _ => bounded⟩

theorem step_now (host : Host) (event : Event) : host.now ≤ (host.step event).now := by
  unfold step
  cases event.operation with
  | get key => exact Nat.le_add_right _ _
  | set key value ttlSeconds between => exact Nat.le_trans (Nat.le_add_right _ _) (Nat.le_add_right _ _)
  | del key => exact Nat.le_add_right _ _
  | incrementAndExpire key ttlSeconds => exact Nat.le_add_right _ _

theorem run_now (host : Host) (events : List Event) : host.now ≤ (host.run events).now := by
  induction events generalizing host with
  | nil => exact Nat.le_refl _
  | cons event rest ih => exact Nat.le_trans (step_now host event) (ih (host.step event))

theorem step_kept (found : host.cache.store.get? key = some entry) (unwritten : event.operation.writes key = false)
    (fresh : (host.step event).now ≤ entry.expiresAt) :
    (host.step event).cache.store.get? key = some entry ∨
      ((∃ name, event.operation.sets = some name ∧ name ≠ key) ∧ (host.step event).cache.store.get? key = none) := by
  unfold step at fresh ⊢
  cases shown : event.operation with
  | get name =>
    rw [shown] at fresh
    exact .inl (MemoryCache.get_kept found fresh)
  | set name value ttlSeconds between =>
    rw [shown] at unwritten
    have other : key ≠ name := fun same => by simp [Operation.writes,same] at unwritten
    rcases MemoryCache.setAcross_stored value ttlSeconds (host.now + event.waited) (host.now + event.waited + between) other found
      with kept | gone
    · exact .inl kept
    · exact .inr ⟨⟨name,rfl,other.symm⟩,gone⟩
  | del name =>
    rw [shown] at unwritten
    have other : key ≠ name := fun same => by simp [Operation.writes,same] at unwritten
    refine .inl ?_
    simp only [MemoryCache.del]
    rw [Dict.get?_erase,if_neg other]
    exact found
  | incrementAndExpire name ttlSeconds =>
    rw [shown] at unwritten
    have other : key ≠ name := fun same => by simp [Operation.writes,same] at unwritten
    refine .inl ?_
    simp only [MemoryCache.incrementAndExpire]
    rw [Dict.get?_set_ne _ _ other]
    exact found

-- A set of another key in the run lets the entry go.
def EvictedIn (host : Host) (key : String) (events : List Event) : Prop :=
  ∃ past event rest name, events = past ++ event :: rest ∧ event.operation.sets = some name ∧ name ≠ key ∧
    (host.run past).cache.store.get? key ≠ none ∧ ((host.run past).step event).cache.store.get? key = none

theorem run_kept (found : host.cache.store.get? key = some entry)
    (unwritten : ∀ event ∈ events, event.operation.writes key = false) (fresh : (host.run events).now ≤ entry.expiresAt) :
    (host.run events).cache.store.get? key = some entry ∨ host.EvictedIn key events := by
  induction events generalizing host with
  | nil => exact .inl found
  | cons event rest ih =>
    have soon : (host.step event).now ≤ entry.expiresAt := Nat.le_trans (run_now (host.step event) rest) fresh
    rcases step_kept found (unwritten event List.mem_cons_self) soon with kept | ⟨⟨name,sets,other⟩,gone⟩
    · rcases ih kept (fun later listed => unwritten later (List.mem_cons_of_mem _ listed)) fresh with stays | evicted
      · exact .inl stays
      · obtain ⟨past,later,rest',name,rfl,sets,other,held,gone⟩ := evicted
        exact .inr ⟨event :: past,later,rest',name,rfl,sets,other,held,gone⟩
    · exact .inr ⟨[],event,rest,name,rfl,sets,other,by rw [show host.run [] = host from rfl,found]; exact Option.some_ne_none _,gone⟩

def StaysBounded (start : Host) (events : List Event) : Prop :=
  ∀ past rest, events = past ++ rest → (start.run past).Bounded

-- A key that was set with a TTL is read until its end, or was let go by a set of
-- another key.
def ReadsWhatIsSet (start : Host) (events : List Event) : Prop :=
  ∀ past waited key value ttlSeconds between later rest,
    events = past ++ ⟨waited,.set key value (some ttlSeconds) between⟩ :: (later ++ rest) → 0 < ttlSeconds →
    (∀ event ∈ later, event.operation.writes key = false) →
    let stored := (start.run past).step ⟨waited,.set key value (some ttlSeconds) between⟩
    ∀ time, (stored.run later).now ≤ time → time ≤ stored.now + ttlSeconds * 1000 →
      (stored.run later).read key time = some value ∨ stored.EvictedIn key later

-- An eviction takes no entry that has not expired while an expired one is there.
def EvictsExpiredFirst (start : Host) (events : List Event) : Prop :=
  ∀ past waited key value ttlSeconds between rest k entry,
    events = past ++ ⟨waited,.set key value ttlSeconds between⟩ :: rest → k ≠ key →
    let host := start.run past
    let before := host.now + waited
    let after := (host.step ⟨waited,.set key value ttlSeconds between⟩).cache.store
    host.cache.store.get? k = some entry → before ≤ entry.expiresAt → after.get? k = none →
      host.cache.maxEntries ≤ ((host.cache.store.erase key).filter fun _ entry => !(entry.expiresAt < before)).size ∧
        ∀ k' entry', k' ≠ key → after.get? k' = some entry' → before ≤ entry'.expiresAt

theorem reads_what_is_set (start : Host) (events : List Event) : ReadsWhatIsSet start events := by
  intro past waited key value ttlSeconds between later rest _ positive unwritten stored time reached fresh
  have stamped : stored.cache.store.get? key = some ⟨value,stored.now + ttlSeconds * 1000⟩ := by
    have ends : expiry stored.now (some ttlSeconds) = stored.now + ttlSeconds * 1000 := by
      cases ttlSeconds with
      | zero => exact absurd positive (Nat.lt_irrefl 0)
      | succ n => rfl
    rw [← ends]
    exact Dict.get?_set_self _ _ _
  rcases run_kept stamped unwritten (Nat.le_trans reached fresh) with kept | evicted
  · refine .inl ?_
    unfold read
    rw [MemoryCache.get_value,MemoryCache.live,kept]
    simp [Option.filter,fresh]
  · exact .inr evicted

theorem evicts_expired_first (start : Host) (events : List Event) : EvictsExpiredFirst start events := by
  intro past waited key value ttlSeconds between rest k entry _ other host before after found fresh gone
  exact MemoryCache.setAcross_spares other found fresh gone

theorem stays_bounded_iff (start : Host) (positive : 1 ≤ start.cache.maxEntries) (bounded : start.Bounded) :
    StaysBounded start events ↔ ∀ past event rest, events = past ++ event :: rest → (start.run past).Calm event := by
  have capacity : ∀ past, 1 ≤ (start.run past).cache.maxEntries := by
    intro past
    rw [run_max]
    exact positive
  refine ⟨?_,?_⟩
  · intro stays past event rest split
    have next := stays (past ++ [event]) rest (by rw [split,List.append_assoc]; rfl)
    rw [run_append] at next
    exact (step_bounded (capacity past) (stays past (event :: rest) split)).mp next
  · intro calm past
    induction past using List.reverseRecOn with
    | nil => exact fun _ _ => bounded
    | append_singleton past event ih =>
      intro rest split
      have split : events = past ++ event :: rest := by rw [split,List.append_assoc]; rfl
      have here := ih (event :: rest) split
      rw [run_append]
      exact (step_bounded (capacity past) here).mpr (calm past event rest split)

def fresh (maxEntries now : Nat) : Host := ⟨⟨Dict.empty,maxEntries⟩,now⟩

theorem memory_cache_sound_iff (maxEntries now : Nat) (events : List Event) (positive : 1 ≤ maxEntries) :
    StaysBounded (fresh maxEntries now) events ∧ ReadsWhatIsSet (fresh maxEntries now) events ∧
        EvictsExpiredFirst (fresh maxEntries now) events ↔
      ∀ past event rest, events = past ++ event :: rest → ((fresh maxEntries now).run past).Calm event := by
  have bounded : (fresh maxEntries now).Bounded := Nat.zero_le maxEntries
  refine Iff.trans ?_ (stays_bounded_iff (fresh maxEntries now) positive bounded)
  exact ⟨fun all => all.1,fun stays => ⟨stays,reads_what_is_set _ _,evicts_expired_first _ _⟩⟩

-- The third key finds the first one expired.
def refilled : List Event := [⟨0,.set "a" "1" (some 1) 0⟩,⟨0,.set "b" "2" none 0⟩,⟨2000,.set "c" "3" none 0⟩]

theorem memory_cache_sound_iff_refilled : ((fresh 2 0).run refilled).cache.store.entries.map Prod.fst = ["b","c"] ∧
    (StaysBounded (fresh 2 0) refilled ∧ ReadsWhatIsSet (fresh 2 0) refilled ∧ EvictsExpiredFirst (fresh 2 0) refilled ↔
      ∀ past event rest, refilled = past ++ event :: rest → ((fresh 2 0).run past).Calm event) :=
  ⟨by decide +kernel,memory_cache_sound_iff 2 0 refilled (by decide)⟩

theorem memory_cache_grows :
    ¬∀ maxEntries now events, 1 ≤ maxEntries →
      StaysBounded (fresh maxEntries now) events ∧ ReadsWhatIsSet (fresh maxEntries now) events ∧
        EvictsExpiredFirst (fresh maxEntries now) events := by
  intro sound
  have stays := (sound 1 0 [⟨0,.incrementAndExpire "a" 60⟩,⟨0,.incrementAndExpire "b" 60⟩] (by decide)).1
  have bounded := stays [⟨0,.incrementAndExpire "a" 60⟩,⟨0,.incrementAndExpire "b" 60⟩] [] rfl
  exact absurd bounded (by decide +kernel : ¬2 ≤ 1)

end Host

end Pezhwan.Redis
