import Pezhwan.Locking.Conduct

-- No two calls hold a lock at once.
namespace Pezhwan.Locking
open Atomic Prog Redis
variable {lock : DistributedLock} {runtime : Runtime} {mode : Mode}

theorem withServer_keys (w : World) (server : Nat) (keys : Keyspace) : (w.withServer server keys).servers server = keys :=
  if_pos rfl

theorem withMemory_memory (w : World) (held : MemoryCache) : memory lock (w.withMemory lock.cache.place held) = held := by
  unfold memory World.withMemory World.withPlace
  dsimp only
  rw [if_pos rfl]

theorem live_set (keys : Keyspace) (key other : String) (stored : Stored) (time : Nat) :
    Keyspace.live (Dict.set keys key stored) time other =
      if other = key then (some stored).filter (fun stored => stored.expiresAt.all (time < ·)) else keys.live time other := by
  unfold Keyspace.live
  rw [Dict.get?_set]
  split
  · rfl
  · rfl

theorem live_erase (keys : Keyspace) (key other : String) (time : Nat) :
    Keyspace.live (Dict.erase keys key) time other = if other = key then none else keys.live time other := by
  unfold Keyspace.live
  rw [Dict.get?_erase]
  split
  · rfl
  · rfl

theorem shown_entry {w : World} (found : entry lock mode w key = some (token,some ends)) (before : time < ends) :
    shown lock mode w key time = some token := by
  cases mode with
  | ready client server =>
    obtain ⟨stored,known,same⟩ := Option.map_eq_some_iff.mp found
    simp only [Prod.mk.injEq] at same
    have lasts : stored.expiresAt.all (time < ·) = true := by
      rw [same.2]
      simpa using before
    simp only [shown,Keyspace.live,known,Option.filter_some,lasts,if_true,Option.map_some,same.1]
  | fallback =>
    obtain ⟨stored,known,same⟩ := Option.map_eq_some_iff.mp found
    simp only [Prod.mk.injEq,Option.some.injEq] at same
    have lasts : time ≤ stored.expiresAt := by omega
    simp only [shown,MemoryCache.live,known,Option.filter_some,lasts,decide_true,if_true,Option.map_some,same.1]

theorem ttlSeconds_cover {time now : Nat} {ttlMs : Int} (before : (time : Int) < now + ttlMs) :
    time < now + ttlSecondsOf ttlMs * 1000 := by
  unfold ttlSecondsOf
  omega

theorem renewed_cover {time now : Nat} {ttlMs : Int} (before : (time : Int) < now + ttlMs) : time < renewed mode now ttlMs := by
  cases mode with
  | ready client server =>
    change time < (now + ttlMs).toNat
    omega
  | fallback => exact ttlSeconds_cover before

theorem entry_shown {w : World} (found : shown lock mode w key time = some token) : ∃ ends, entry lock mode w key = some (token,ends) := by
  cases mode with
  | ready client server | fallback =>
    obtain ⟨stored,known,rfl⟩ := Option.map_eq_some_iff.mp found
    exact ⟨_,congrArg (Option.map _) (Option.filter_eq_some_iff.mp known).1⟩

theorem memory_set_live {cache : MemoryCache} {seconds : Option Nat}
    (room : ((cache.store.erase key).filter fun _ stored => !(stored.expiresAt < now)).size < cache.maxEntries)
    (other : k ≠ key) (after : now ≤ time) : (cache.set key token seconds now).live time k = cache.live time k := by
  have erased : (cache.store.erase key).get? k = cache.store.get? k := by
    rw [Dict.get?_erase,if_neg other]
  unfold MemoryCache.live MemoryCache.set MemoryCache.sweep
  dsimp only
  rw [Dict.get?_set,if_neg other]
  split
  · rw [erased]
  · dsimp only
    rw [Dict.get?_filter,erased]
    cases cache.store.get? k with
    | none => rfl
    | some stored =>
      by_cases lapsed : stored.expiresAt < now
      · have late : ¬ time ≤ stored.expiresAt := by omega
        simp [Option.filter,lapsed,late]
      · simp [Option.filter,lapsed]

theorem memory_del_live {cache : MemoryCache} (other : k ≠ key) : (cache.del key).live time k = cache.live time k := by
  unfold MemoryCache.live MemoryCache.del
  rw [Dict.get?_erase,if_neg other]

-- What each action leaves under its own key and under the others.
def Spared (lock : DistributedLock) (mode : Mode) (action : Action) (w : World) : Prop :=
  mode = .fallback → (∀ key token, action ≠ .drop key token) → Room lock action.key w

theorem act_elsewhere {w : World} (spared : Spared lock mode action w) (other : key ≠ action.key) (after : w.now ≤ time) :
    shown lock mode (act lock mode action w) key time = shown lock mode w key time := by
  cases mode with
  | ready client server =>
    cases action <;>
    · simp only [shown,act,withServer_keys,live_set,live_erase]
      exact congrArg (Option.map Stored.text) (if_neg other)
  | fallback =>
    cases action with
    | take k token ttlMs | renew k token ttlMs =>
      simp only [shown,act,withMemory_memory]
      exact congrArg (Option.map MemoryEntry.value) (memory_set_live (spared rfl fun _ _ => nofun) other after)
    | drop k token =>
      simp only [shown,act,withMemory_memory]
      exact congrArg (Option.map MemoryEntry.value) (memory_del_live other)

theorem memory_set_own (cache : MemoryCache) (key token : String) (positive : 0 < seconds) (now : Nat) :
    (cache.set key token (some seconds) now).store.get? key = some ⟨token,now + seconds * 1000⟩ := by
  unfold MemoryCache.set
  dsimp only
  rw [Dict.get?_set,if_pos rfl]
  cases seconds with
  | zero => omega
  | succ n => rfl

theorem ttlSeconds_positive (ttlMs : Int) : 0 < ttlSecondsOf ttlMs := by
  unfold ttlSecondsOf
  omega

theorem take_entry (key token : String) (ttlMs : Int) (w : World) :
    entry lock mode (act lock mode (.take key token ttlMs) w) key = some (token,some (w.now + ttlSecondsOf ttlMs * 1000)) := by
  cases mode with
  | ready client server => simp only [entry,act,withServer_keys,Dict.get?_set,if_true,Option.map_some]
  | fallback => simp only [entry,act,withMemory_memory,memory_set_own _ _ _ (ttlSeconds_positive ttlMs),Option.map_some]

theorem renew_entry (key token : String) (ttlMs : Int) (w : World) :
    entry lock mode (act lock mode (.renew key token ttlMs) w) key = some (token,some (renewed mode w.now ttlMs)) := by
  cases mode with
  | ready client server => simp only [entry,act,withServer_keys,Dict.get?_set,if_true,Option.map_some,renewed]
  | fallback =>
    simp only [entry,act,withMemory_memory,memory_set_own _ _ _ (ttlSeconds_positive ttlMs),Option.map_some,renewed]

theorem drop_entry (key token : String) (w : World) : entry lock mode (act lock mode (.drop key token) w) key = none := by
  cases mode with
  | ready client server => simp only [entry,act,withServer_keys,Dict.get?_erase,if_true,Option.map_none]
  | fallback => simp only [entry,act,withMemory_memory,MemoryCache.del,Dict.get?_erase,if_true,Option.map_none]

theorem act_entry {w : World} (found : entry lock mode (act lock mode action w) key = some (token,ends)) :
    entry lock mode w key = some (token,ends) ∨ (∃ ttlMs, action = .take key token ttlMs) ∨ ∃ ttlMs, action = .renew key token ttlMs := by
  have rewritten : ∀ {keys : Keyspace} {k text : String} {stored : Option Nat},
      ((Dict.set keys k ⟨text,stored⟩).get? key).map (fun stored => (stored.text,stored.expiresAt)) = some (token,ends) →
      (keys.get? key).map (fun stored => (stored.text,stored.expiresAt)) = some (token,ends) ∨ k = key ∧ text = token := by
    intro keys k text stored after
    rw [Dict.get?_set] at after
    split at after
    · rename_i here
      simp only [Option.map_some,Option.some.injEq,Prod.mk.injEq] at after
      exact .inr ⟨here.symm,after.1⟩
    · exact .inl after
  have remembered : ∀ {cache : MemoryCache} {k text : String} {seconds : Option Nat},
      ((cache.set k text seconds w.now).store.get? key).map (fun stored => (stored.value,some stored.expiresAt)) =
        some (token,ends) →
      (cache.store.get? key).map (fun stored => (stored.value,some stored.expiresAt)) = some (token,ends) ∨
        k = key ∧ text = token := by
    intro cache k text seconds after
    obtain ⟨stored,known,same⟩ := Option.map_eq_some_iff.mp after
    rcases MemoryCache.set_stored known with ⟨here,rfl⟩ | ⟨_,old⟩
    · simp only [Prod.mk.injEq] at same
      exact .inr ⟨here.symm,same.1⟩
    · exact .inl (by rw [old]; exact congrArg some same)
  cases mode with
  | ready client server =>
    cases action with
    | take k text ttlMs =>
      simp only [entry,act,withServer_keys] at found
      rcases rewritten found with old | ⟨rfl,rfl⟩
      · exact .inl old
      · exact .inr (.inl ⟨ttlMs,rfl⟩)
    | renew k text ttlMs =>
      simp only [entry,act,withServer_keys] at found
      rcases rewritten found with old | ⟨rfl,rfl⟩
      · exact .inl old
      · exact .inr (.inr ⟨ttlMs,rfl⟩)
    | drop k text =>
      simp only [entry,act,withServer_keys,Dict.get?_erase] at found
      split at found
      · cases found
      · exact .inl found
  | fallback =>
    cases action with
    | take k text ttlMs =>
      simp only [entry,act,withMemory_memory] at found
      rcases remembered found with old | ⟨rfl,rfl⟩
      · exact .inl old
      · exact .inr (.inl ⟨ttlMs,rfl⟩)
    | renew k text ttlMs =>
      simp only [entry,act,withMemory_memory] at found
      rcases remembered found with old | ⟨rfl,rfl⟩
      · exact .inl old
      · exact .inr (.inr ⟨ttlMs,rfl⟩)
    | drop k text =>
      simp only [entry,act,withMemory_memory,MemoryCache.del,Dict.get?_erase] at found
      split at found
      · cases found
      · exact .inl found

-- A token with a number that has been given out.
def Known (runtime : Runtime) (p : Process) (token : String) : Prop :=
  ∃ now n, n ≤ p.lockCounter ∧ token = tokenText runtime now n

-- What holds between the calls: the store backs what they hold, and every token
-- belongs to one of them.
structure Sound (lock : DistributedLock) (runtime : Runtime) (mode : Mode) (past : Past) (p : Process) : Prop where
  backed : Lease.AllBacked (shown lock mode p.world) p.world.now fun i => holding lock mode i past
  pending : ∀ i token, Pending runtime (Config.mine i past) token → Known runtime p token
  stored : ∀ key token ends, entry lock mode p.world key = some (token,ends) → Known runtime p token
  held : ∀ i lease, holding lock mode i past = some lease → Known runtime p lease.token
  unstored : ∀ i token key ends, Pending runtime (Config.mine i past) token → entry lock mode p.world key ≠ some (token,ends)
  unheld : ∀ i j token lease, Pending runtime (Config.mine i past) token → holding lock mode j past = some lease →
    lease.token ≠ token
  drawn : ∀ i j token, Pending runtime (Config.mine i past) token → Pending runtime (Config.mine j past) token → i = j
  apart : ∀ i j lease lease', holding lock mode i past = some lease → holding lock mode j past = some lease' →
    lease.token = lease'.token → i = j

theorem Known.later {p q : Process} (known : Known runtime p token) (grows : p.lockCounter ≤ q.lockCounter) :
    Known runtime q token := by
  obtain ⟨now,n,bounded,same⟩ := known
  exact ⟨now,n,by omega,same⟩

theorem fresh_unknown (p : Process) (now : Nat) : ¬ Known runtime p (tokenText runtime now (p.lockCounter + 1)) := by
  rintro ⟨_,n,bounded,same⟩
  have numbers := tokenText_number same
  omega

-- A lease after an event: as before, or granted by it, or with a new end.
inductive Leased (lock : DistributedLock) (mode : Mode) (i : CallId) (event : Event CallId Call Process) (past : Past) :
    Lease String String → Prop where
  | kept (held : holding lock mode i past = some lease)
    (live : ∀ mine, event.call = .release mine → lease.key = mine.key → lease.token = mine.token →
      entry lock mode event.after.world mine.key ≠ none)
    (unchanged : ∀ mine newTtlMs, event.call = .extend mine newTtlMs → lease.key = mine.key → lease.token = mine.token →
      entry lock mode event.after.world mine.key ≠
        some (mine.token,some (renewed mode event.before.world.now (newTtlMs.getD mine.ttlMs)))) :
    Leased lock mode i event past lease
  | granted (own : event.who = i) (call : event.call = .acquire options)
    (changed : shown lock mode event.after.world (lock.prefixedKey options.key) event.before.world.now ≠
      shown lock mode event.before.world (lock.prefixedKey options.key) event.before.world.now)
    (token : shown lock mode event.after.world (lock.prefixedKey options.key) event.before.world.now = some text) :
    Leased lock mode i event past ⟨lock.prefixedKey options.key,text,event.before.world.now + options.ttlMs⟩
  | extended (held : holding lock mode i past = some lease) (call : event.call = .extend mine newTtlMs)
    (key : lease.key = mine.key) (token : lease.token = mine.token)
    (renewed_ : entry lock mode event.after.world mine.key =
      some (mine.token,some (renewed mode event.before.world.now (newTtlMs.getD mine.ttlMs)))) :
    Leased lock mode i event past {lease with ends := event.before.world.now + newTtlMs.getD mine.ttlMs}

theorem holding_leased {event : Event CallId Call Process} (holds : holding lock mode i (event :: past) = some lease) :
    Leased lock mode i event past lease := by
  unfold holding at holds
  cases made : event.call with
  | acquire options =>
    simp only [made] at holds
    split at holds
    · rename_i grant
      obtain ⟨text,token,rfl⟩ := Option.map_eq_some_iff.mp holds
      exact .granted grant.1 made grant.2 token
    · exact .kept holds (fun mine other => by rw [made] at other; cases other)
        fun mine _ other => by rw [made] at other; cases other
  | release mine =>
    simp only [made] at holds
    obtain ⟨before,kept⟩ := Option.filter_eq_some_iff.mp holds
    refine .kept before ?_ fun mine _ other => by rw [made] at other; cases other
    intro mine' same key token gone
    rw [made] at same
    cases same
    simp [key,token,gone] at kept
  | extend mine newTtlMs =>
    simp only [made] at holds
    obtain ⟨old,before,same⟩ := Option.map_eq_some_iff.mp holds
    split at same
    · rename_i match_
      subst same
      exact .extended before made match_.1 match_.2.1 match_.2.2
    · rename_i unmatched
      subst same
      refine .kept before (fun mine other => by rw [made] at other; cases other) ?_
      intro mine' newTtlMs' same key token renewed_
      rw [made] at same
      cases same
      exact unmatched ⟨key,token,renewed_⟩

section
variable {past : Past} {p q : Process} {i : CallId} {call : Call} {action : Action} {left : World}

theorem extended_backed {lease : Lease String String} {w : World} {now : Nat} (ttlMs : Int)
    (found : entry lock mode w lease.key = some (lease.token,some (renewed mode now ttlMs))) (ends : lease.ends = now + ttlMs) :
    lease.Backed (shown lock mode w) now := by
  intro time _ alive
  apply shown_entry found
  apply renewed_cover
  rwa [← ends]

theorem made_proper (sound : Sound lock runtime mode past p) (made : Made lock runtime call (Config.mine i past) action)
    (does : Does lock mode action p.world left) (fits : Fits lock mode ⟨i,call,p,{p with world := left}⟩) :
    Proper lock mode p.world action ∧ Spared lock mode action p.world := by
  obtain ⟨rfl,proper⟩ := does
  cases mode with
  | ready client server => exact ⟨proper nofun,nofun⟩
  | fallback =>
    cases made with
    | @take _ token options pending =>
      have changed : memory lock (act lock .fallback (.take (lock.prefixedKey options.key) token options.ttlMs) p.world) ≠
          memory lock p.world := by
        intro same
        have after := @take_entry lock .fallback (lock.prefixedKey options.key) token options.ttlMs p.world
        simp only [entry,same] at after
        exact sound.unstored i token _ _ pending after
      obtain ⟨free,room⟩ := fits changed
      exact ⟨free,fun _ _ => room⟩
    | drop => exact ⟨fits,fun _ other => absurd rfl (other _ _)⟩
    | renew => exact ⟨fits.1,fun _ _ => fits.2⟩

-- What an event means for the tokens.
structure Tokens (lock : DistributedLock) (runtime : Runtime) (mode : Mode) (past : Past) (i : CallId) (call : Call)
    (p q : Process) : Prop where
  grows : p.lockCounter ≤ q.lockCounter
  pending : ∀ j token, Pending runtime (Config.mine j (⟨i,call,p,q⟩ :: past)) token →
    Pending runtime (Config.mine j past) token ∧ (j = i → q = p) ∨
      j = i ∧ q.world = p.world ∧ token = tokenText runtime p.world.now (p.lockCounter + 1) ∧ Known runtime q token
  stored : ∀ key token ends, entry lock mode q.world key = some (token,ends) →
    (∃ key ends, entry lock mode p.world key = some (token,ends)) ∨
      Pending runtime (Config.mine i past) token ∧ q.world ≠ p.world
  leased : ∀ j lease, Leased lock mode j ⟨i,call,p,q⟩ past lease →
    (∃ old, holding lock mode j past = some old ∧ old.token = lease.token) ∨
      j = i ∧ Pending runtime (Config.mine i past) lease.token ∧ q.world ≠ p.world

section
variable (sound : Sound lock runtime mode past p)
include sound

theorem Sound.event (tokens : Tokens lock runtime mode past i call p q)
    (backed : Lease.AllBacked (shown lock mode q.world) q.world.now fun j => holding lock mode j (⟨i,call,p,q⟩ :: past)) :
    Sound lock runtime mode (⟨i,call,p,q⟩ :: past) q := by
  -- A token in use that was drawn by no call that is still to use it.
  have used : ∀ j token, Pending runtime (Config.mine j (⟨i,call,p,q⟩ :: past)) token →
      Known runtime p token → (∀ k, ¬ Pending runtime (Config.mine k past) token) → False := by
    intro j token pending known free
    rcases tokens.pending j token pending with ⟨before,_⟩ | ⟨_,_,rfl,_⟩
    · exact free j before
    · exact fresh_unknown p _ known
  have taken : ∀ j token, Pending runtime (Config.mine j (⟨i,call,p,q⟩ :: past)) token →
      Pending runtime (Config.mine i past) token → q.world ≠ p.world → False := by
    intro j token pending here moved
    rcases tokens.pending j token pending with ⟨before,still⟩ | ⟨_,same,_,_⟩
    · exact moved (congrArg Process.world (still (sound.drawn j i token before here)))
    · exact moved same
  have old : ∀ j token, Pending runtime (Config.mine j past) token → Known runtime q token :=
    fun j token pending => (sound.pending j token pending).later tokens.grows
  refine ⟨backed,?_,?_,?_,?_,?_,?_,?_⟩
  · intro j token pending
    rcases tokens.pending j token pending with ⟨before,_⟩ | ⟨_,_,_,known⟩
    · exact old j token before
    · exact known
  · intro key token ends found
    rcases tokens.stored key token ends found with ⟨_,_,before⟩ | ⟨pending,_⟩
    · exact (sound.stored _ _ _ before).later tokens.grows
    · exact old i token pending
  · intro j lease holds
    rcases tokens.leased j lease (holding_leased holds) with ⟨before,held,same⟩ | ⟨_,pending,_⟩
    · exact same ▸ (sound.held j before held).later tokens.grows
    · exact old i _ pending
  · intro j token key ends pending found
    rcases tokens.stored key token ends found with ⟨_,_,before⟩ | ⟨here,moved⟩
    · exact used j token pending (sound.stored _ _ _ before) fun k drawn => sound.unstored k token _ _ drawn before
    · exact taken j token pending here moved
  · rintro j k token lease pending holds rfl
    rcases tokens.leased k lease (holding_leased holds) with ⟨before,held,same⟩ | ⟨_,here,moved⟩
    · exact used j _ pending (same ▸ sound.held k before held) fun l drawn => sound.unheld l k _ before drawn held same
    · exact taken j _ pending here moved
  · intro j k token one other
    rcases tokens.pending j token one with ⟨before,_⟩ | ⟨rfl,_,rfl,_⟩
    · rcases tokens.pending k token other with ⟨before',_⟩ | ⟨_,_,rfl,_⟩
      · exact sound.drawn j k token before before'
      · exact absurd (sound.pending j _ before) (fresh_unknown p _)
    · rcases tokens.pending k _ other with ⟨before',_⟩ | ⟨rfl,_,_,_⟩
      · exact absurd (sound.pending k _ before') (fresh_unknown p _)
      · rfl
  · intro j k lease lease' one other same
    rcases tokens.leased j lease (holding_leased one) with ⟨before,held,token⟩ | ⟨rfl,here,_⟩
    · rcases tokens.leased k lease' (holding_leased other) with ⟨before',held',token'⟩ | ⟨rfl,here,_⟩
      · exact sound.apart j k before before' held held' (by rw [token,token',same])
      · exact absurd (by rw [token,same]) (sound.unheld k j lease'.token before here held)
    · rcases tokens.leased k lease' (holding_leased other) with ⟨before',held',token'⟩ | ⟨rfl,_,_⟩
      · exact absurd (by rw [token',same]) (sound.unheld j k lease.token before' here held')
      · rfl

omit sound in
theorem mine_event (i : CallId) (call : Call) (p q : Process) (past : Past) (j : CallId) :
    Config.mine j (⟨i,call,p,q⟩ :: past) = if i = j then (p,q) :: Config.mine j past else Config.mine j past :=
  Config.mine_cons j ⟨i,call,p,q⟩ past

omit sound in
theorem still_leased {lease : Lease String String} (still : q.world = p.world)
    (leased : Leased lock mode j ⟨i,call,p,q⟩ past lease) :
    ∃ old, holding lock mode j past = some old ∧ old.token = lease.token ∧
      (old = lease ∨ lease.Backed (shown lock mode q.world) q.world.now) := by
  cases leased with
  | kept held _ _ => exact ⟨lease,held,rfl,.inl rfl⟩
  | granted _ _ changed _ =>
    dsimp only at changed
    rw [still] at changed
    exact absurd rfl changed
  | @extended old mine newTtlMs held _ key token found =>
    refine ⟨old,held,rfl,.inr ?_⟩
    apply extended_backed (newTtlMs.getD mine.ttlMs)
    · rw [still] at found ⊢
      rw [key,token]
      exact found
    · rw [still]

theorem Sound.still (still : q.world = p.world) (grows : p.lockCounter ≤ q.lockCounter)
    (pending : ∀ token, Pending runtime ((p,q) :: Config.mine i past) token → Pending runtime (Config.mine i past) token ∧ q = p ∨
      token = tokenText runtime p.world.now (p.lockCounter + 1) ∧ Known runtime q token) :
    Sound lock runtime mode (⟨i,call,p,q⟩ :: past) q := by
  apply sound.event
  · refine ⟨grows,?_,?_,?_⟩
    · intro j token drawn
      rw [mine_event] at drawn
      split at drawn
      · rename_i own
        subst own
        rcases pending token drawn with ⟨before,same⟩ | fresh
        · exact .inl ⟨before,fun _ => same⟩
        · exact .inr ⟨rfl,still,fresh⟩
      · rename_i other
        exact .inl ⟨drawn,fun own => absurd own.symm other⟩
    · intro key token ends found
      rw [still] at found
      exact .inl ⟨key,ends,found⟩
    · intro j lease leased
      obtain ⟨old,held,same,_⟩ := still_leased still leased
      exact .inl ⟨old,held,same⟩
  · intro j lease holds
    obtain ⟨old,held,_,rfl | anew⟩ := still_leased still (holding_leased holds)
    · rw [still]
      exact sound.backed j old held
    · exact anew

theorem Sound.idle : Sound lock runtime mode (⟨i,call,p,p⟩ :: past) p := by
  apply sound.still rfl (Nat.le_refl _)
  intro token pending
  generalize moves : (p,p) :: Config.mine i past = all at pending
  cases pending with
  | draw p' moves' =>
    simp only [List.cons.injEq,Prod.mk.injEq] at moves
    obtain ⟨⟨rfl,same⟩,_⟩ := moves
    have counters := congrArg Process.lockCounter same
    simp at counters
  | idle pending p' =>
    simp only [List.cons.injEq] at moves
    obtain ⟨_,rfl⟩ := moves
    exact .inl ⟨pending,rfl⟩

theorem Sound.draw :
    Sound lock runtime mode (⟨i,call,p,{p with lockCounter := p.lockCounter + 1}⟩ :: past) {p with lockCounter := p.lockCounter + 1} := by
  refine Sound.still sound ?_ (Nat.le_succ _) ?_
  · rfl
  intro token pending
  generalize moves : (p,{p with lockCounter := p.lockCounter + 1}) :: Config.mine i past = all at pending
  cases pending with
  | draw p' moves' =>
    simp only [List.cons.injEq,Prod.mk.injEq] at moves
    obtain ⟨⟨rfl,_⟩,_⟩ := moves
    exact .inr ⟨rfl,p.world.now,p.lockCounter + 1,Nat.le_refl _,rfl⟩
  | idle pending p' =>
    simp only [List.cons.injEq,Prod.mk.injEq] at moves
    obtain ⟨⟨rfl,same⟩,_⟩ := moves
    have counters := congrArg Process.lockCounter same
    simp at counters

-- An action has changed the store, so the call has used its token.
omit sound in
theorem pending_over (moved : left ≠ p.world) (drawn : Pending runtime ((p,{p with world := left}) :: moves) token) : False := by
  generalize all_ : (p,{p with world := left}) :: moves = all at drawn
  cases drawn with
  | draw p' moves' =>
    simp only [List.cons.injEq,Prod.mk.injEq] at all_
    obtain ⟨⟨rfl,same⟩,_⟩ := all_
    have counters := congrArg Process.lockCounter same
    simp at counters
  | idle pending p' =>
    simp only [List.cons.injEq,Prod.mk.injEq] at all_
    obtain ⟨⟨rfl,same⟩,_⟩ := all_
    exact moved (congrArg Process.world same)

omit sound in
theorem made_tokens (made : Made lock runtime call (Config.mine i past) action)
    (proper : Proper lock mode p.world action) (moved : act lock mode action p.world ≠ p.world) :
    Tokens lock runtime mode past i call p {p with world := act lock mode action p.world} := by
  refine ⟨Nat.le_refl _,?_,?_,?_⟩
  · intro j token drawn
    rw [mine_event] at drawn
    split at drawn
    · exact (pending_over moved drawn).elim
    · rename_i other
      exact .inl ⟨drawn,fun own => absurd own.symm other⟩
  · intro key token ends found
    rcases act_entry found with before | ⟨ttlMs,rfl⟩ | ⟨ttlMs,rfl⟩
    · exact .inl ⟨key,ends,before⟩
    · cases made with
      | take pending => exact .inr ⟨pending,moved⟩
    · obtain ⟨ends',before⟩ := entry_shown proper
      exact .inl ⟨key,ends',before⟩
  · intro j lease leased
    cases leased with
    | kept held _ _ => exact .inl ⟨lease,held,rfl⟩
    | extended held _ _ _ _ => exact .inl ⟨_,held,rfl⟩
    | @granted options text own call changed token =>
      cases call
      cases made with
      | @take _ drawn _ pending =>
        obtain ⟨ends,found⟩ := entry_shown token
        rw [take_entry] at found
        simp only [Option.some.injEq,Prod.mk.injEq] at found
        exact .inr ⟨own.symm,found.1 ▸ pending,moved⟩

theorem made_backed (made : Made lock runtime call (Config.mine i past) action)
    (proper : Proper lock mode p.world action) (spared : Spared lock mode action p.world) :
    Lease.AllBacked (shown lock mode (act lock mode action p.world)) p.world.now
      fun j => holding lock mode j (⟨i,call,p,{p with world := act lock mode action p.world}⟩ :: past) := by
  apply sound.backed.step
  intro j lease holds
  cases holding_leased holds with
  | kept held live unchanged =>
    refine .inr ⟨held,?_⟩
    by_cases own : lease.key = action.key
    · right
      rw [own]
      cases made with
      | take pending =>
        intro found
        cases (show shown lock mode p.world _ p.world.now = none from proper).symm.trans found
      | @drop mine _ =>
        intro found
        have same : some mine.token = some lease.token := (show shown lock mode p.world _ p.world.now = _ from proper).symm.trans found
        exact live mine rfl own (Option.some.inj same).symm (drop_entry _ _ _)
      | @renew mine newTtlMs _ =>
        intro found
        have same : some mine.token = some lease.token := (show shown lock mode p.world _ p.world.now = _ from proper).symm.trans found
        exact unchanged mine newTtlMs rfl own (Option.some.inj same).symm (renew_entry _ _ _ _)
    · exact .inl fun time after => act_elsewhere spared own after
  | @granted options text own call changed token =>
    cases call
    cases made with
    | @take _ drawn _ pending =>
      have found := @take_entry lock mode (lock.prefixedKey options.key) drawn options.ttlMs p.world
      obtain ⟨ends,known⟩ := entry_shown token
      rw [found] at known
      simp only [Option.some.injEq,Prod.mk.injEq] at known
      refine .inl fun time _ alive => ?_
      rw [← known.1]
      exact shown_entry found (ttlSeconds_cover alive)
  | @extended old mine newTtlMs held call key token found =>
    refine .inl (extended_backed (newTtlMs.getD mine.ttlMs) ?_ rfl)
    rw [key,token]
    exact found

theorem Sound.step (rule : Rule lock runtime mode call (Config.mine i past) p q)
    (fits : Fits lock mode ⟨i,call,p,q⟩) : Sound lock runtime mode (⟨i,call,p,q⟩ :: past) q := by
  cases rule with
  | idle => exact sound.idle
  | draw => exact sound.draw
  | @acts _ _ _ action left made does =>
    obtain ⟨proper,spared⟩ := made_proper sound made does fits
    obtain ⟨rfl,_⟩ := does
    by_cases moved : act lock mode action p.world = p.world
    · rw [moved]
      exact sound.idle
    · apply sound.event (made_tokens made proper moved)
      change Lease.AllBacked _ (act lock mode action p.world).now _
      rw [act_now]
      exact made_backed sound made proper spared

theorem Sound.passing (passing : Passing lock mode p q) : Sound lock runtime mode past q := by
  have shows : shown lock mode q.world = shown lock mode p.world := by
    funext key time
    cases mode with
    | ready client server => simp only [shown,passing.servers]
    | fallback => simp only [shown,passing.memory]
  have entries : entry lock mode q.world = entry lock mode p.world := by
    funext key
    cases mode with
    | ready client server => simp only [entry,passing.servers]
    | fallback => simp only [entry,passing.memory]
  refine ⟨?_,?_,?_,?_,?_,sound.unheld,sound.drawn,sound.apart⟩
  · rw [shows]
    exact sound.backed.pass passing.now
  · exact fun i token pending => (sound.pending i token pending).later passing.lockCounter
  · intro key token ends found
    rw [entries] at found
    exact (sound.stored key token ends found).later passing.lockCounter
  · exact fun i lease holds => (sound.held i lease holds).later passing.lockCounter
  · rw [entries]
    exact sound.unstored

end

theorem vacant_sound (vacant : Vacant lock mode p) : Sound lock runtime mode [] p := by
  have none : ∀ i token, ¬ Pending runtime (Config.mine i ([] : Past)) token := by
    rintro i token ⟨⟩
  refine ⟨nofun,?_,?_,nofun,?_,?_,?_,nofun⟩
  · exact fun i token pending => absurd pending (none i token)
  · intro key token ends found
    rw [vacant.free] at found
    cases found
  · exact fun i token _ _ pending => absurd pending (none i token)
  · exact fun i _ token _ pending => absurd pending (none i token)
  · exact fun i _ token pending => absurd pending (none i token)

end

section
variable {initial : Process} {past : Past} {c : Config CallId Call Process Fault Answer}

theorem rule_served (rule : Rule lock runtime mode call moves p q) (served : Served lock mode p.world) :
    Served lock mode q.world := by
  cases rule with
  | idle => exact served
  | draw => exact served
  | acts _ does =>
    rw [does.1]
    exact act_served served

theorem traced_rules (vacant : Vacant lock mode initial)
    (traced : Config.Traced (program lock runtime) (Passing lock mode) initial past c) :
    Config.Kept (fun p => Served lock mode p.world) (Rule lock runtime mode) (Ended lock runtime mode) past c :=
  (Config.traced_inv program_acts (fun rule served => rule_served rule served) (fun passing _ => passing.served)
    vacant.served traced).1

theorem traced_sound (vacant : Vacant lock mode initial)
    (traced : Config.Traced (program lock runtime) (Passing lock mode) initial past c) (fits : ∀ event ∈ past, Fits lock mode event) :
    Sound lock runtime mode past c.state := by
  induction traced with
  | initial => exact vacant_sound vacant
  | start _ _ _ _ ih => exact ih fits
  | act path i running ih =>
    have rules := (traced_rules vacant (.act path i running)).along
    exact (ih fun event listed => fits event (List.mem_cons_of_mem _ listed)).step rules.1 (fits _ List.mem_cons_self)
  | other _ passing ih => exact (ih fits).passing passing

end
end Pezhwan.Locking
