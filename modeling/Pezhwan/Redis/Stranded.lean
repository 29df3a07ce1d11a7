import Mathlib.Data.List.Induction
import Pezhwan.Redis.Degrading

-- Counters that are left on a server without an expiry.
namespace Pezhwan.Redis
open Atomic Prog

-- What may have changed before an action: time has passed, connections have failed and
-- come back.
structure Surroundings where
  waited : Nat
  status : Nat → String
  link : Nat → Link

def Surroundings.applied (around : Surroundings) (w : World) : World :=
  {w with now := w.now + around.waited,clients := fun n => {w.clients n with status := around.status n,link := around.link n}}

-- A call, and the surroundings of each of its actions.
structure Increment where
  cache : RedisCacheImpl
  key : String
  ttlSeconds : Nat
  around : Nat → Surroundings

namespace Increment
variable (call : Increment)

def name : String := call.cache.key call.key

def surroundings (n : Nat) : World → World := (call.around n).applied

def perform (w : World) : Except Fault Nat × World :=
  (call.cache.incrementAndExpire call.key call.ttlSeconds).amid 0 call.surroundings 0 w

-- The client that the call finds usable, and the call's work on that client's server.
def client? (w : World) : Option Nat :=
  let found := call.surroundings 0 w
  (call.cache.ready? found).filter fun client => (found.clients client).hasCounters

def onServer (client : Nat) (w : World) : Except Fault Nat × World :=
  (call.cache.countOn call.key call.ttlSeconds client).amid 0 call.surroundings 1 (call.surroundings 0 w)

-- The increment is answered by a server.
def Served (w : World) (client : Nat) : Prop :=
  call.client? w = some client ∧ ∃ count,(call.onServer client w).1 = .ok count

def Asks (w : World) (client : Nat) : Prop :=
  call.client? w = some client ∧ (call.around 1).link client = .up

def incrAt (w : World) : Nat := w.now + (call.around 0).waited + (call.around 1).waited

-- A counter is made, and then its answer is lost or its expiry never arrives.
def Strands (w : World) (client : Nat) : Prop :=
  call.client? w = some client ∧ (w.keyspace client).live (call.incrAt w) call.name = none ∧
    ((call.around 1).link client = .lost ∨ (call.around 1).link client = .up ∧ (call.around 3).link client = .down)

end Increment

namespace Keyspace

-- A key without an expiry.
def Bare (keys : Keyspace) (k : String) : Prop := ∃ stored,keys.get? k = some stored ∧ stored.expiresAt = none

-- What a key without an expiry holds has been counted.
def Counted (keys : Keyspace) (k : String) : Prop :=
  ∀ stored,keys.get? k = some stored → stored.expiresAt = none → ∃ n,Number stored.text = some (n+1)

variable {keys left : Keyspace} {k name : String} {stored : Stored}

theorem live_bare (held : keys.get? k = some stored) (forever : stored.expiresAt = none) (now : Nat) :
    keys.live now k = some stored := by
  rw [live,held]
  simp [Option.filter,forever]

theorem live_get (alive : keys.live now k = some stored) : keys.get? k = some stored :=
  (Option.filter_eq_some_iff.mp alive).1

theorem bare_set_ne (other : k ≠ name) : Bare (Dict.set keys name stored) k ↔ keys.Bare k := by
  unfold Bare
  rw [Dict.get?_set_ne _ _ other]

theorem bare_set : Bare (Dict.set keys name stored) name ↔ stored.expiresAt = none := by
  unfold Bare
  rw [Dict.get?_set_self]
  simp

theorem incr_bare (ran : keys.incr name now = .ok (count,left)) :
    left.Bare k ↔ keys.Bare k ∨ k = name ∧ keys.live now name = none := by
  unfold incr at ran
  split at ran
  · rename_i absent
    cases ran
    by_cases same : k = name
    · subst same
      simp [bare_set,absent]
    · simp [bare_set_ne same,same]
  · rename_i stored alive
    have present := live_get alive
    split at ran
    · cases ran
      by_cases same : k = name
      · subst same
        simp [alive,Bare,present]
      · simp [bare_set_ne same,same]
    · cases ran

theorem expire_bare (ran : keys.expire name seconds now = .ok ((),left)) : left.Bare k ↔ keys.Bare k ∧ k ≠ name := by
  unfold expire at ran
  split at ran
  · rename_i absent
    cases ran
    refine (and_iff_left_of_imp ?_).symm
    rintro ⟨stored,held,forever⟩ rfl
    cases absent.symm.trans (live_bare held forever now)
  · cases ran
    by_cases same : k = name
    · subst same
      simp [bare_set]
    · simp [bare_set_ne same,same]

theorem incr_counted (counted : keys.Counted k) (ran : keys.incr name now = .ok (count,left)) : left.Counted k := by
  intro stored held forever
  unfold incr at ran
  split at ran
  · cases ran
    by_cases same : k = name
    · subst same
      rw [Dict.get?_set_self] at held
      cases held
      exact ⟨0,Number_repr 1⟩
    · rw [Dict.get?_set_ne _ _ same] at held
      exact counted stored held forever
  · split at ran
    · cases ran
      by_cases same : k = name
      · subst same
        rw [Dict.get?_set_self] at held
        cases held
        exact ⟨_,Number_repr _⟩
      · rw [Dict.get?_set_ne _ _ same] at held
        exact counted stored held forever
    · cases ran

theorem expire_counted (counted : keys.Counted k) (ran : keys.expire name seconds now = .ok ((),left)) :
    left.Counted k := by
  intro stored held forever
  unfold expire at ran
  split at ran
  · cases ran
    exact counted stored held forever
  · cases ran
    by_cases same : k = name
    · subst same
      rw [Dict.get?_set_self] at held
      cases held
      cases forever
    · rw [Dict.get?_set_ne _ _ same] at held
      exact counted stored held forever

theorem incr_on (bare : keys.Bare name) (counted : keys.Counted name) (now : Nat) :
    ∃ n left,keys.incr name now = .ok (n+2,left) := by
  obtain ⟨stored,held,forever⟩ := bare
  obtain ⟨n,number⟩ := counted stored held forever
  unfold incr
  rw [live_bare held forever]
  simp only [number]
  exact ⟨n,_,rfl⟩

theorem incr_one (ran : keys.incr name now = .ok (count,left)) (fresh : keys.live now name = none) : count = 1 := by
  unfold incr at ran
  rw [fresh] at ran
  cases ran
  rfl

theorem expire_ok (name : String) (seconds now : Nat) (keys : Keyspace) :
    ∃ left,keys.expire name seconds now = .ok ((),left) := by
  unfold expire
  split
  · exact ⟨_,rfl⟩
  · exact ⟨_,rfl⟩

end Keyspace

namespace Increment
variable {call : Increment} {w : World} {client : Nat} {n : Nat} {keys : Keyspace} {k : String}

def expireAt (call : Increment) (w : World) : Nat := call.incrAt w + (call.around 2).waited + (call.around 3).waited

-- The call on the keys of its server alone.
def onKeys (call : Increment) (client : Nat) (w : World) (keys : Keyspace) : Except Fault Nat × Keyspace :=
  match (call.around 1).link client,keys.incr call.name (call.incrAt w) with
  | .down,_ => (.error .unreachable,keys)
  | .lost,.ok (_,left) => (.error .unreachable,left)
  | .lost,.error _ => (.error .unreachable,keys)
  | .up,.error e => (.error e,keys)
  | .up,.ok (count,left) =>
    if count = 1 then
      match (call.around 3).link client,left.expire call.name call.ttlSeconds (call.expireAt w) with
      | .up,.ok (_,kept) => (.ok count,kept)
      | .lost,.ok (_,kept) => (.error .unreachable,kept)
      | .down,_ => (.error .unreachable,left)
      | _,.error e => (.error e,left)
    else (.ok count,left)

theorem send_applied (around : Surroundings) (client : Nat) (run : Nat → Keyspace → Except Fault (α × Keyspace)) (s : World) :
    send client run (around.applied s) =
      match around.link client,run (s.now + around.waited) (s.keyspace client) with
      | .down,_ => (.error .unreachable,around.applied s)
      | .lost,.ok (_,left) => (.error .unreachable,(around.applied s).withServer (s.clients client).server left)
      | .lost,.error _ => (.error .unreachable,around.applied s)
      | .up,.ok (value,left) => (.ok value,(around.applied s).withServer (s.clients client).server left)
      | .up,.error e => (.error e,around.applied s) := by
  have link : ((around.applied s).clients client).link = around.link client := rfl
  have keys : (around.applied s).keyspace client = s.keyspace client := rfl
  have now : (around.applied s).now = s.now + around.waited := rfl
  unfold send execute
  rw [link,keys,now]
  cases around.link client with
  | down => rfl
  | up => cases run (s.now + around.waited) (s.keyspace client) <;> rfl
  | lost => cases run (s.now + around.waited) (s.keyspace client) <;> rfl

theorem expiry_keys {s : World} {keys : Keyspace} {servers : Nat → Keyspace} {server : Nat}
    (looked : Option.filter (fun bound => ((call.surroundings 2 s).clients bound).hasCounters)
      ((call.surroundings 2 s).places call.cache.place).client = some client)
    (held : (call.surroundings 2 s).keyspace client = keys)
    (placed : ((call.surroundings 2 s).clients client).server = server)
    (time : (call.surroundings 2 s).now + (call.around 3).waited = expired)
    (old : ∀ n, s.servers n = if n = server then keys else servers n) (count : Nat) :
    let ran := (do
      match ← atomic fun _ w => ((w.places call.cache.place).client.filter fun bound => (w.clients bound).hasCounters,w) with
      | none => throw .unreachable
      | some bound => command bound (Keyspace.expire (call.cache.key call.key) call.ttlSeconds)
      pure count : Program Nat).amid 0 call.surroundings 2 s
    let left : Except Fault Nat × Keyspace :=
      match (call.around 3).link client,keys.expire (call.cache.key call.key) call.ttlSeconds expired with
      | .up,.ok (_,kept) => (.ok count,kept)
      | .lost,.ok (_,kept) => (.error .unreachable,kept)
      | .down,_ => (.error .unreachable,keys)
      | _,.error e => (.error e,keys)
    ran.1 = left.1 ∧ ∀ n,ran.2.servers n = if n = server then left.2 else servers n := by
  have sent := send_applied (call.around 3) client (Keyspace.expire (call.cache.key call.key) call.ttlSeconds)
    (call.surroundings 2 s)
  obtain ⟨kept,ended⟩ := Keyspace.expire_ok (call.cache.key call.key) call.ttlSeconds expired keys
  have new (n : Nat) : (if n = server then kept else s.servers n) = if n = server then kept else servers n := by
    split
    · rfl
    · rename_i other
      rw [old,if_neg other]
  rw [time,held,ended,placed] at sent
  rw [ended,amid_atomic_bind]
  simp only [looked]
  unfold command
  rw [amid_effect_bind]
  have moved : call.surroundings (2 + 1) (call.surroundings 2 s) = (call.around 3).applied (call.surroundings 2 s) := rfl
  rw [moved,sent]
  cases (call.around 3).link client with
  | up => exact ⟨rfl,new⟩
  | lost => exact ⟨rfl,new⟩
  | down => exact ⟨rfl,old⟩

theorem onServer_keys (usable : call.client? w = some client) :
    (call.onServer client w).1 = (call.onKeys client w (w.keyspace client)).1 ∧
      ∀ n,(call.onServer client w).2.servers n =
        if n = (w.clients client).server then (call.onKeys client w (w.keyspace client)).2 else w.servers n := by
  obtain ⟨ready,counters⟩ := Option.filter_eq_some_iff.mp usable
  have bound : (w.places call.cache.place).client = some client :=
    RedisCacheImpl.ready_client (w := call.surroundings 0 w) ready
  have same (n : Nat) : w.servers n = if n = (w.clients client).server then w.keyspace client else w.servers n := by
    split
    · rename_i here
      rw [here]
      rfl
    · rfl
  unfold onServer onKeys RedisCacheImpl.countOn command
  rw [amid_effect_bind,surroundings,send_applied]
  have now : (call.surroundings 0 w).now + (call.around 1).waited = call.incrAt w := rfl
  have keys : (call.surroundings 0 w).keyspace client = w.keyspace client := rfl
  rw [now,keys]
  change _ ∧ _
  cases (call.around 1).link client with
  | down => exact ⟨rfl,same⟩
  | lost =>
    have name : call.name = call.cache.key call.key := rfl
    rw [name]
    cases ran : (w.keyspace client).incr (call.cache.key call.key) (call.incrAt w) with
    | error e => exact ⟨rfl,same⟩
    | ok answer => exact ⟨rfl,fun _ => rfl⟩
  | up =>
    have name : call.name = call.cache.key call.key := rfl
    rw [name]
    cases ran : (w.keyspace client).incr (call.cache.key call.key) (call.incrAt w) with
    | error e => exact ⟨rfl,same⟩
    | ok answer =>
      obtain ⟨count,left⟩ := answer
      dsimp only
      split
      · generalize counted : ((call.around 1).applied (call.surroundings 0 w)).withServer
          ((call.surroundings 0 w).clients client).server left = s
        have looked : Option.filter (fun bound => ((call.surroundings 2 s).clients bound).hasCounters)
            ((call.surroundings 2 s).places call.cache.place).client = some client := by
          rw [← counted]
          exact Option.filter_eq_some_iff.mpr ⟨bound,counters⟩
        refine expiry_keys looked ?_ ?_ ?_ ?_ count
        · rw [← counted]
          exact if_pos rfl
        · rw [← counted]
          rfl
        · rw [← counted]
          rfl
        · rw [← counted]
          exact fun _ => rfl
      · exact ⟨rfl,fun _ => rfl⟩

theorem perform_memory (unusable : call.client? w = none) : (call.perform w).2.servers = w.servers := by
  unfold client? at unusable
  unfold perform RedisCacheImpl.incrementAndExpire RedisCacheImpl.degrading
  rw [amid_atomic_bind]
  dsimp only at unusable ⊢
  rw [unusable]
  rfl

theorem perform_onServer (usable : call.client? w = some client) :
    (call.perform w).2.servers = (call.onServer client w).2.servers := by
  unfold client? at usable
  unfold perform RedisCacheImpl.incrementAndExpire RedisCacheImpl.degrading
  rw [amid_atomic_bind]
  dsimp only at usable ⊢
  rw [usable]
  refine amid_attempt_bind (P := fun (ended : Except Fault Nat × World) => ended.2.servers = (call.onServer client w).2.servers) fun m => ?_
  unfold onServer
  cases (call.cache.countOn call.key call.ttlSeconds client).amid 0 call.surroundings 1 (call.surroundings 0 w) with
  | mk result t =>
    cases result with
    | ok count => rfl
    | error e => rfl

theorem onKeys_bare (counted : keys.Counted k) : (call.onKeys client w keys).2.Bare k ↔
    keys.Bare k ∨ k = call.name ∧ keys.live (call.incrAt w) call.name = none ∧
      ((call.around 1).link client = .lost ∨ (call.around 1).link client = .up ∧ (call.around 3).link client = .down) := by
  unfold onKeys
  cases ran : keys.incr call.name (call.incrAt w) with
  | error e =>
    have stored : keys.live (call.incrAt w) call.name ≠ none := by
      intro absent
      unfold Keyspace.incr at ran
      rw [absent] at ran
      cases ran
    cases (call.around 1).link client with
    | up => simp [stored]
    | lost => simp [stored]
    | down => simp
  | ok answer =>
    obtain ⟨count,left⟩ := answer
    have after := Keyspace.incr_bare (k := k) ran
    cases (call.around 1).link client with
    | down => simp
    | lost => simpa using after
    | up =>
      dsimp only
      split
      · rename_i first
        -- Only a key that was not there is counted to one and has no expiry.
        have bounded (bare : keys.Bare k) : k ≠ call.name := by
          intro same
          rw [same] at bare counted
          obtain ⟨n,more,counts⟩ := Keyspace.incr_on bare counted (call.incrAt w)
          rw [ran] at counts
          have same : count = n + 2 := congrArg Prod.fst (Except.ok.inj counts)
          omega
        obtain ⟨kept,expired⟩ := Keyspace.expire_ok call.name call.ttlSeconds (call.expireAt w) left
        have spared : kept.Bare k ↔ keys.Bare k := by
          rw [Keyspace.expire_bare expired,after]
          constructor
          · rintro ⟨bare | same,other⟩
            · exact bare
            · exact absurd same.1 other
          · intro bare
            exact ⟨Or.inl bare,bounded bare⟩
        rw [expired]
        cases (call.around 3).link client with
        | up => simpa using spared
        | lost => simpa using spared
        | down => simpa using after
      · rename_i further
        have stored : keys.live (call.incrAt w) call.name ≠ none := fun absent => further (Keyspace.incr_one ran absent)
        rw [after]
        simp [stored]

theorem onKeys_counted (counted : keys.Counted k) : (call.onKeys client w keys).2.Counted k := by
  unfold onKeys
  cases ran : keys.incr call.name (call.incrAt w) with
  | error e => cases (call.around 1).link client <;> exact counted
  | ok answer =>
    obtain ⟨count,left⟩ := answer
    have after := Keyspace.incr_counted counted ran
    cases (call.around 1).link client with
    | down => exact counted
    | lost => exact after
    | up =>
      dsimp only
      split
      · obtain ⟨kept,expired⟩ := Keyspace.expire_ok call.name call.ttlSeconds (call.expireAt w) left
        have later := Keyspace.expire_counted after expired
        rw [expired]
        cases (call.around 3).link client with
        | up => exact later
        | lost => exact later
        | down => exact after
      · exact after

theorem onKeys_served (served : (call.onKeys client w keys).1 = .ok count) :
    (call.around 1).link client = .up ∧
      (keys.live (call.incrAt w) call.name = none → (call.around 3).link client = .up) := by
  unfold onKeys at served
  cases ran : keys.incr call.name (call.incrAt w) with
  | error e =>
    rw [ran] at served
    cases link : (call.around 1).link client <;> rw [link] at served <;> cases served
  | ok answer =>
    obtain ⟨made,left⟩ := answer
    rw [ran] at served
    cases link : (call.around 1).link client with
    | down => rw [link] at served; cases served
    | lost => rw [link] at served; cases served
    | up =>
      refine ⟨rfl,fun fresh => ?_⟩
      rw [link] at served
      dsimp only at served
      rw [if_pos (Keyspace.incr_one ran fresh)] at served
      obtain ⟨kept,expired⟩ := Keyspace.expire_ok call.name call.ttlSeconds (call.expireAt w) left
      rw [expired] at served
      cases third : (call.around 3).link client with
      | up => rfl
      | lost => rw [third] at served; cases served
      | down => rw [third] at served; cases served

theorem onKeys_answered (bare : keys.Bare call.name) (counted : keys.Counted call.name)
    (link : (call.around 1).link client = .up) : ∃ count,(call.onKeys client w keys).1 = .ok count := by
  obtain ⟨n,left,ran⟩ := Keyspace.incr_on bare counted (call.incrAt w)
  unfold onKeys
  rw [link,ran]
  exact ⟨n + 2,congrArg Prod.fst (if_neg (by omega))⟩

theorem perform_servers (usable : call.client? w = some client) (n : Nat) : (call.perform w).2.servers n =
    if n = (w.clients client).server then (call.onKeys client w (w.servers n)).2 else w.servers n := by
  rw [perform_onServer usable,(onServer_keys usable).2 n]
  split
  · rename_i here
    rw [here]
    rfl
  · rfl

theorem perform_counted (counted : (w.servers n).Counted k) : ((call.perform w).2.servers n).Counted k := by
  cases usable : call.client? w with
  | none =>
    rw [perform_memory usable]
    exact counted
  | some client =>
    rw [perform_servers usable]
    split
    · exact onKeys_counted counted
    · exact counted

theorem perform_bare (counted : (w.servers n).Counted k) : ((call.perform w).2.servers n).Bare k ↔
    (w.servers n).Bare k ∨ ∃ client,call.Strands w client ∧ (w.clients client).server = n ∧ call.name = k := by
  cases usable : call.client? w with
  | none =>
    rw [perform_memory usable]
    simp [Strands,usable]
  | some client =>
    rw [perform_servers usable]
    split
    · rename_i here
      rw [onKeys_bare counted]
      subst here
      constructor
      · rintro (bare | ⟨same,absent,lost⟩)
        · exact Or.inl bare
        · exact Or.inr ⟨client,⟨usable,absent,lost⟩,rfl,same.symm⟩
      · rintro (bare | ⟨other,⟨found,absent,lost⟩,_,same⟩)
        · exact Or.inl bare
        · cases usable.symm.trans found
          exact Or.inr ⟨same.symm,absent,lost⟩
    · rename_i elsewhere
      refine (or_iff_left ?_).symm
      rintro ⟨other,⟨found,_⟩,here,_⟩
      cases usable.symm.trans found
      exact elsewhere here.symm

theorem served_asks (served : call.Served w client) : call.Asks w client ∧ ∀ other,¬call.Strands w other := by
  obtain ⟨usable,count,answered⟩ := served
  rw [(onServer_keys usable).1] at answered
  obtain ⟨link,finished⟩ := onKeys_served answered
  refine ⟨⟨usable,link⟩,?_⟩
  rintro other ⟨found,absent,lost⟩
  cases usable.symm.trans found
  rcases lost with lost | ⟨_,lost⟩
  · cases link.symm.trans lost
  · cases (finished absent).symm.trans lost

theorem asks_served (bare : (w.keyspace client).Bare call.name) (counted : (w.keyspace client).Counted call.name)
    (asks : call.Asks w client) : call.Served w client := by
  obtain ⟨count,answered⟩ := onKeys_answered (w := w) bare counted asks.2
  exact ⟨asks.1,count,(onServer_keys asks.1).1.trans answered⟩

end Increment

-- Calls one after another.
def World.after (w : World) (calls : List Increment) : World := calls.foldl (fun w call => (call.perform w).2) w

-- No counter of these calls is without an expiry at first.
def Lapsing (w : World) (calls : List Increment) : Prop := ∀ call ∈ calls,∀ n,¬(w.servers n).Bare call.name

-- Every increment that a server answers leaves its counter with an expiry.
def Expires (w : World) (calls : List Increment) : Prop :=
  ∀ past call rest,calls = past ++ call :: rest → ∀ client,call.Served (w.after past) client →
    ¬((w.after (past ++ [call])).servers ((w.after past).clients client).server).Bare call.name

-- No call asks a server to count on what an earlier call has stranded there.
def Unstranded (w : World) (calls : List Increment) : Prop :=
  ∀ past first middle second rest,calls = past ++ first :: (middle ++ second :: rest) → ∀ client other,
    first.Strands (w.after past) client → second.Asks (w.after (past ++ first :: middle)) other →
      ¬(first.name = second.name ∧
        ((w.after past).clients client).server = ((w.after (past ++ first :: middle)).clients other).server)

section
variable {w : World} {calls : List Increment} {n : Nat} {k : String}

theorem after_append (w : World) (calls : List Increment) (call : Increment) :
    w.after (calls ++ [call]) = (call.perform (w.after calls)).2 := List.foldl_concat _ _ _ _

theorem after_counted (calls : List Increment) (lapsing : ¬(w.servers n).Bare k) : ((w.after calls).servers n).Counted k := by
  induction calls using List.reverseRecOn with
  | nil => exact fun stored held forever => absurd ⟨stored,held,forever⟩ lapsing
  | append_singleton past call ih =>
    rw [after_append]
    exact Increment.perform_counted ih

theorem after_bare (calls : List Increment) (lapsing : ¬(w.servers n).Bare k) : ((w.after calls).servers n).Bare k ↔
    ∃ past call rest client,calls = past ++ call :: rest ∧ call.Strands (w.after past) client ∧
      ((w.after past).clients client).server = n ∧ call.name = k := by
  induction calls using List.reverseRecOn with
  | nil => simpa [World.after] using lapsing
  | append_singleton calls call ih =>
    rw [after_append,Increment.perform_bare (after_counted calls lapsing),ih]
    constructor
    · rintro (⟨past,first,rest,client,rfl,stranded⟩ | ⟨client,stranded⟩)
      · exact ⟨past,first,rest ++ [call],client,by simp,stranded⟩
      · exact ⟨calls,call,[],client,rfl,stranded⟩
    · rintro ⟨past,first,rest,client,split,stranded⟩
      induction rest using List.reverseRecOn with
      | nil =>
        obtain ⟨rfl,same⟩ := List.append_inj' split rfl
        cases same
        exact Or.inr ⟨client,stranded⟩
      | append_singleton rest last _ =>
        rw [← List.cons_append,← List.append_assoc] at split
        obtain ⟨rfl,_⟩ := List.append_inj' split rfl
        exact Or.inl ⟨past,first,rest,client,rfl,stranded⟩

theorem expires_iff (lapsing : Lapsing w calls) : Expires w calls ↔ Unstranded w calls := by
  constructor
  · rintro expires past first middle second rest rfl client other stranded asks ⟨name,server⟩
    have listed : second ∈ past ++ first :: (middle ++ second :: rest) := by simp
    have bare := (after_bare (past ++ first :: middle) (lapsing second listed _)).mpr
      ⟨past,first,middle,client,rfl,stranded,server,name⟩
    have counted := after_counted (past ++ first :: middle) (lapsing second listed
      ((w.after (past ++ first :: middle)).clients other).server)
    refine expires (past ++ first :: middle) second rest (by simp) other (Increment.asks_served bare counted asks) ?_
    rw [after_append]
    exact (Increment.perform_bare counted).mpr (Or.inl bare)
  · rintro unstranded past call rest rfl client served bare
    have free := lapsing call (by simp) ((w.after past).clients client).server
    obtain ⟨asks,whole⟩ := Increment.served_asks served
    rw [after_append,Increment.perform_bare (after_counted past free)] at bare
    rcases bare with bare | ⟨other,stranded,_⟩
    · obtain ⟨past,first,middle,other,rfl,stranded,server,name⟩ := (after_bare past free).mp bare
      exact unstranded past first middle call rest (by simp) other client stranded asks ⟨name,server⟩
    · exact whole other stranded

-- A second passes before each action, and the command that it meets may be lost.
def sampleIncrement (lost : Option Nat) : Increment where
  cache := sampleCache
  key := "rl:login:a"
  ttlSeconds := 900
  around n := ⟨1000,fun _ => "ready",fun _ => if lost = some n then .down else .up⟩

theorem sample_lapsing (calls : List Increment) : Lapsing (sampleWorld 0 "ready" .up) calls := by
  rintro call _ n ⟨stored,held,_⟩
  cases held

theorem expires_iff_sample : Expires (sampleWorld 0 "ready" .up) [sampleIncrement none,sampleIncrement (some 1)] ↔
    Unstranded (sampleWorld 0 "ready" .up) [sampleIncrement none,sampleIncrement (some 1)] :=
  expires_iff (sample_lapsing _)

theorem counter_without_expiry : ¬∀ (w : World) (calls : List Increment),Lapsing w calls → Expires w calls := by
  intro all
  have served : (sampleIncrement none).Served ((sampleWorld 0 "ready" .up).after [sampleIncrement (some 3)]) 0 := by
    exact ⟨rfl,2,rfl⟩
  refine all (sampleWorld 0 "ready" .up) [sampleIncrement (some 3),sampleIncrement none] (sample_lapsing _)
    [sampleIncrement (some 3)] (sampleIncrement none) [] rfl 0 served ⟨⟨"2",none⟩,?_,rfl⟩
  rfl

end
end Pezhwan.Redis
