import Pezhwan.Atomic.Lease
import Pezhwan.Locking.Service

-- Who holds a lock, in every interleaving of the calls of one process.
namespace Pezhwan.Locking
open Atomic Prog Redis

inductive Call where
  | acquire (options : LockOptions)
  | release (held : Lock)
  | extend (held : Lock) (newTtlMs : Option Int)
  deriving DecidableEq

inductive Answer where
  | lock (held : Option Lock)
  | done (ok : Bool)
  deriving DecidableEq, Repr

abbrev Moves := List (Process × Process)
abbrev Past := List (Event CallId Call Process)

-- The client is ready throughout, or it is null or not ready throughout and the
-- cache works in the memory of the process.
inductive Mode where
  | ready (client server : Nat)
  | fallback
  deriving DecidableEq, Repr

-- What a step does to the store of its mode.
inductive Action where
  | take (key token : String) (ttlMs : Int)
  | drop (key token : String)
  | renew (key token : String) (ttlMs : Int)
  deriving DecidableEq, Repr

def Action.key : Action → String
  | .take key _ _ | .drop key _ | .renew key _ _ => key

section
variable (lock : DistributedLock)

def program (runtime : Runtime) : Call → Work Answer
  | .acquire options => .lock <$> lock.acquire runtime options
  | .release held => .done <$> (lock.release held).zoom Process.redis
  | .extend held newTtlMs => .done <$> (lock.extend held newTtlMs).zoom Process.redis

def Served : Mode → World → Prop
  | .ready client server,w => lock.ready? w = some client ∧ lock.hasEval = true ∧ (w.clients client).server = server
  | .fallback,w => lock.ready? w = none ∧ lock.cache.ready? w = none

def memory (w : World) : MemoryCache := (w.places lock.cache.place).memory

-- The token that a read at this time would find.
def shown : Mode → World → String → Nat → Option String
  | .ready _ server,w,key,time => ((w.servers server).live time key).map Stored.text
  | .fallback,w,key,time => ((memory lock w).live time key).map MemoryEntry.value

-- The token that is stored, with its end.
def entry : Mode → World → String → Option (String × Option Nat)
  | .ready _ server,w,key => ((w.servers server).get? key).map fun stored => (stored.text,stored.expiresAt)
  | .fallback,w,key => ((memory lock w).store.get? key).map fun stored => (stored.value,some stored.expiresAt)

def renewed : Mode → Nat → Int → Nat
  | .ready _ _,now,ttlMs => (now + ttlMs).toNat
  | .fallback,now,ttlMs => now + ttlSecondsOf ttlMs * 1000

-- What an acquire call holds: from the step that stores its token, for the TTL
-- asked for; an extension that takes effect gives a new end, and a release that
-- takes effect ends it.
def holding (mode : Mode) (i : CallId) : Past → Option (Lease String String)
  | [] => none
  | event :: past => match event.call with
    | .acquire options =>
      let now := event.before.world.now
      let key := lock.prefixedKey options.key
      let token := shown lock mode event.after.world key now
      if event.who = i ∧ token ≠ shown lock mode event.before.world key now
      then token.map fun token => ⟨key,token,now + options.ttlMs⟩
      else holding mode i past
    | .release held => (holding mode i past).filter fun lease =>
      ¬ (lease.key = held.key ∧ lease.token = held.token ∧ entry lock mode event.after.world held.key = none)
    | .extend held newTtlMs => (holding mode i past).map fun lease =>
      let ttlMs := newTtlMs.getD held.ttlMs
      let now := event.before.world.now
      if lease.key = held.key ∧ lease.token = held.token ∧
        entry lock mode event.after.world held.key = some (held.token,some (renewed mode now ttlMs))
      then {lease with ends := now + ttlMs} else lease

def act : Mode → Action → World → World
  | .ready _ server,.take key token ttlMs,w =>
    w.withServer server (Dict.set (w.servers server) key ⟨token,some (w.now + ttlSecondsOf ttlMs * 1000)⟩)
  | .ready _ server,.drop key _,w => w.withServer server (Dict.erase (w.servers server) key)
  | .ready _ server,.renew key token ttlMs,w =>
    w.withServer server (Dict.set (w.servers server) key ⟨token,some (w.now + ttlMs).toNat⟩)
  | .fallback,.drop key _,w => w.withMemory lock.cache.place ((memory lock w).del key)
  | .fallback,.take key token ttlMs,w | .fallback,.renew key token ttlMs,w =>
    w.withMemory lock.cache.place ((memory lock w).set key token (some (ttlSecondsOf ttlMs)) w.now)

-- A token is taken for a free key, and dropped or renewed where it is stored.
def Proper (mode : Mode) (w : World) : Action → Prop
  | .take key _ _ => shown lock mode w key w.now = none
  | .drop key token | .renew key token _ => shown lock mode w key w.now = some token

-- A set of this key drops no entry that has not expired.
def Room (key : String) (w : World) : Prop :=
  (((memory lock w).store.erase key).filter fun _ stored => !(stored.expiresAt < w.now)).size < (memory lock w).maxEntries

-- In the fallback: an acquire writes only for a free key, a release or extend
-- comes from the holder whose token is stored, and the cache has room.
def Fits : Mode → Event CallId Call Process → Prop
  | .ready _ _,_ => True
  | .fallback,event =>
    let w := event.before.world
    match event.call with
    | .acquire options => memory lock event.after.world ≠ memory lock w →
      shown lock .fallback w (lock.prefixedKey options.key) w.now = none ∧ Room lock (lock.prefixedKey options.key) w
    | .release held => shown lock .fallback w held.key w.now = some held.token
    | .extend held _ => shown lock .fallback w held.key w.now = some held.token ∧ Room lock held.key w

structure Passing (mode : Mode) (p q : Process) : Prop where
  now : p.world.now ≤ q.world.now
  servers : q.world.servers = p.world.servers
  memory : memory lock q.world = memory lock p.world
  lockCounter : p.lockCounter ≤ q.lockCounter
  served : Served lock mode q.world

-- Before the first call: no lock is stored.
structure Vacant (mode : Mode) (p : Process) : Prop where
  served : Served lock mode p.world
  free : ∀ key, entry lock mode p.world key = none

end
end Pezhwan.Locking

-- What the calls do to the store, step by step.
namespace Pezhwan.Locking
open Atomic Prog Redis
variable {lock : DistributedLock} {mode : Mode} {action : Action} {w : World}

@[simp] theorem withServer_same (w : World) (server : Nat) : w.withServer server (w.servers server) = w := by
  have same : (fun n => if n = server then w.servers server else w.servers n) = w.servers := by
    funext n
    by_cases here : n = server
    · rw [if_pos here,here]
    · rw [if_neg here]
  unfold World.withServer
  rw [same]

theorem act_now : (act lock mode action w).now = w.now := by
  cases mode <;> cases action <;> rfl

theorem withMemory_client (w : World) (place : Nat) (memory : MemoryCache) (n : Nat) :
    ((w.withMemory place memory).places n).client = (w.places n).client := by
  unfold World.withMemory World.withPlace
  dsimp only
  split
  · rename_i here
    rw [here]
  · rfl

theorem act_served (served : Served lock mode w) : Served lock mode (act lock mode action w) := by
  cases mode with
  | ready client server => cases action <;> exact served
  | fallback =>
    have away : ∀ memory, Served lock .fallback (w.withMemory lock.cache.place memory) := by
      intro memory
      refine ⟨served.1,?_⟩
      have none := served.2
      unfold RedisCacheImpl.ready? at none ⊢
      rw [withMemory_client]
      exact none
    cases action <;> exact away _

-- A step of a call in its store: nothing, or its one action, which in Redis is
-- made only where it is proper.
def Does (lock : DistributedLock) (mode : Mode) (action : Action) (w w' : World) : Prop :=
  w' = act lock mode action w ∧ (mode ≠ .fallback → Proper lock mode w action)

def Quiet (moves : List (σ × σ)) : Prop := ∀ move ∈ moves, move.2 = move.1

def Careful (lock : DistributedLock) (mode : Mode) (action : Action) (made : List (World × World)) (w w' : World) : Prop :=
  w' = w ∨ Quiet made ∧ Does lock mode action w w'

-- The call has made its action.
def Did (lock : DistributedLock) (mode : Mode) (action : Action) (made : List (World × World)) : Prop :=
  ∃ newer move older, made = newer ++ move :: older ∧ Quiet older ∧ Does lock mode action move.1 move.2

theorem quiet_nil : Quiet ([] : List (σ × σ)) := by
  intro move listed
  cases listed

theorem Quiet.cons {made : List (σ × σ)} (quiet : Quiet made) (s : σ) : Quiet ((s,s) :: made) := by
  intro move listed
  rcases List.mem_cons.mp listed with rfl | earlier
  · rfl
  · exact quiet move earlier

theorem did_now {made : List (World × World)} (quiet : Quiet made) (does : Does lock mode action w w') :
    Did lock mode action ((w,w') :: made) := ⟨[],_,made,rfl,quiet,does⟩

theorem send_either {run : Nat → Keyspace → Except Fault (α × Keyspace)} {good bad : α} {P : Prop} (differ : bad ≠ good)
    (ran : P ∧ execute client run w = (.ok good,w') ∨ execute client run w = (.ok bad,w)) :
    (send client run w).2 = w ∧ (send client run w).1 ≠ .ok good ∨ P ∧ (send client run w).2 = w' := by
  unfold send
  rcases ran with ⟨holds,ran⟩ | ran
  · cases (w.clients client).link with
    | up => exact .inr ⟨holds,by rw [ran]⟩
    | lost => exact .inr ⟨holds,by rw [ran]⟩
    | down => exact .inl ⟨rfl,by simp⟩
  · cases (w.clients client).link with
    | up => exact .inl ⟨by rw [ran],by rw [ran]; simpa using differ⟩
    | lost => exact .inl ⟨by rw [ran],by simp⟩
    | down => exact .inl ⟨rfl,by simp⟩

section
variable {client server : Nat}

theorem execute_setNX (key token : String) (ttlMs : Int) (there : (w.clients client).server = server) :
    Proper lock (.ready client server) w (.take key token ttlMs) ∧
      execute client (Keyspace.setNX key token (ttlSecondsOf ttlMs)) w =
        (.ok (some "OK"),act lock (.ready client server) (.take key token ttlMs) w) ∨
    execute client (Keyspace.setNX key token (ttlSecondsOf ttlMs)) w = (.ok none,w) := by
  subst there
  unfold execute Keyspace.setNX World.keyspace
  cases found : (w.servers (w.clients client).server).live w.now key with
  | none => exact .inl ⟨congrArg (Option.map Stored.text) found,rfl⟩
  | some stored => exact .inr (by simp)

theorem execute_compareDel (key token : String) (there : (w.clients client).server = server) :
    Proper lock (.ready client server) w (.drop key token) ∧
      execute client (Keyspace.compareDel key token) w = (.ok 1,act lock (.ready client server) (.drop key token) w) ∨
    execute client (Keyspace.compareDel key token) w = (.ok 0,w) := by
  subst there
  unfold execute Keyspace.compareDel World.keyspace
  by_cases own : ((w.servers (w.clients client).server).live w.now key).map Stored.text = some token
  · refine .inl ⟨own,?_⟩
    simp only [own,if_true]
    rfl
  · refine .inr ?_
    simp only [own,if_false]
    simp

theorem execute_comparePexpire (key token : String) (ttlMs : Int) (there : (w.clients client).server = server) :
    Proper lock (.ready client server) w (.renew key token ttlMs) ∧
      execute client (Keyspace.comparePexpire key token ttlMs) w =
        (.ok 1,act lock (.ready client server) (.renew key token ttlMs) w) ∨
    execute client (Keyspace.comparePexpire key token ttlMs) w = (.ok 0,w) := by
  subst there
  unfold execute Keyspace.comparePexpire World.keyspace
  by_cases own : ((w.servers (w.clients client).server).live w.now key).map Stored.text = some token
  · refine .inl ⟨own,?_⟩
    simp only [own,if_true]
    rfl
  · refine .inr ?_
    simp only [own,if_false]
    simp

end

-- What a part of a call answers: `true` only when it has made its action.
def Answers (lock : DistributedLock) (mode : Mode) (action : Action) (result : Except Fault Bool)
    (made : List (World × World)) : Prop :=
  ∃ answer, result = .ok answer ∧ (answer = true → Did lock mode action made)

section
variable {i : CallId} {made : List (World × World)}

theorem answers_false : Answers lock mode action (.ok false) made := ⟨false,rfl,fun no => nomatch no⟩

theorem orFalse_acts {body : Program Bool} {rule : List (World × World) → World → World → Prop}
    (acts : body.Acts (Served lock mode) i rule made fun result made =>
      ∀ answer, result = .ok answer → Answers lock mode action (.ok answer) made) :
    (DistributedLock.orFalse body).Acts (Served lock mode) i rule made (Answers lock mode action) := by
  unfold DistributedLock.orFalse
  refine Acts.bind (Acts.attempt (acts.mono ?_))
  intro result made answers
  cases result with
  | ok answer => exact Acts.pure (answers answer rfl)
  | error _ => exact Acts.pure answers_false

theorem command_acts {run : Nat → Keyspace → Except Fault (α × Keyspace)} {good bad : α} [DecidableEq α] (differ : bad ≠ good)
    {client server : Nat} (ran : ∀ w, (w.clients client).server = server →
      Proper lock (.ready client server) w action ∧ execute client run w = (.ok good,act lock (.ready client server) action w) ∨
        execute client run w = (.ok bad,w)) (quiet : Quiet made) :
    (do
      let result ← command client run
      pure (decide (result = good)) : Program Bool).Acts (Served lock (.ready client server)) i
        (Careful lock (.ready client server) action) made fun result made =>
          ∀ answer, result = .ok answer → Answers lock (.ready client server) action (.ok answer) made := by
  refine Acts.bind (Acts.effect ?_)
  intro w served
  rcases send_either differ (ran w served.2.2) with ⟨same,refused⟩ | ⟨proper,moved⟩
  · refine ⟨.inl same,?_⟩
    cases sent : (send client run w).1 with
    | error _ => exact fun _ same => nomatch same
    | ok value =>
      apply Acts.pure
      rintro answer same
      have unequal : value ≠ good := fun equal => refused (by rw [sent,equal])
      rw [decide_eq_false unequal] at same
      cases same
      exact answers_false
  · have does : Does lock (.ready client server) action w (send client run w).2 := ⟨moved,fun _ => proper⟩
    refine ⟨.inr ⟨quiet,does⟩,?_⟩
    cases (send client run w).1 with
    | error _ => exact fun _ same => nomatch same
    | ok value => exact Acts.pure fun answer same => ⟨answer,rfl,fun _ => did_now quiet does⟩

theorem degrading_acts {β : Type} {usable : RedisLike → Bool} {serve : Nat → Program β}
    {f : Nat → MemoryCache → β × MemoryCache} {post : Except Fault β → List (World × World) → Prop}
    (same : ∀ w, w.withMemory lock.cache.place (f w.now (memory lock w)).2 = act lock .fallback action w) (quiet : Quiet made)
    (ended : ∀ value w made, Quiet made → post (.ok value) ((w,act lock .fallback action w) :: made)) :
    (lock.cache.degrading usable serve f).Acts (Served lock .fallback) i (Careful lock .fallback action) made post := by
  unfold RedisCacheImpl.degrading
  refine Acts.bind (Acts.atomic fun w served => ⟨.inl rfl,?_⟩)
  simp only [served.2,Option.filter]
  refine Acts.atomic fun w' _ => ?_
  have does : (lock.cache.useMemory f w').2 = act lock .fallback action w' := same w'
  rw [does]
  exact ⟨.inr ⟨quiet.cons w,rfl,fun other => absurd rfl other⟩,ended _ w' _ (quiet.cons w)⟩

theorem send_get (client : Nat) (key : String) (w : World) : (send client (Keyspace.get key) w).2 = w := by
  have ran : (execute client (Keyspace.get key) w).2 = w := by
    unfold execute Keyspace.get World.keyspace
    exact withServer_same w _
  unfold send
  cases (w.clients client).link with
  | up => exact ran
  | lost => exact ran
  | down => rfl

theorem set_acts {key token : String} {ttlMs : Int}
    (same : ∀ w, act lock .fallback action w = w.withMemory lock.cache.place
      ((memory lock w).set key token (some (ttlSecondsOf ttlMs)) w.now)) (quiet : Quiet made) :
    (do
      lock.cache.set key token (some (ttlSecondsOf ttlMs))
      pure true : Program Bool).Acts (Served lock .fallback) i (Careful lock .fallback action) made fun result made =>
        ∀ answer, result = .ok answer → Answers lock .fallback action (.ok answer) made := by
  refine Acts.bind (degrading_acts (fun w => (same w).symm) quiet ?_)
  intro _ w made still
  exact Acts.pure fun answer same => ⟨answer,rfl,fun _ => did_now still ⟨rfl,fun other => absurd rfl other⟩⟩

theorem tryAcquire_acts (key token : String) (ttlMs : Int) :
    (lock.tryAcquire key token (ttlSecondsOf ttlMs)).Acts (Served lock mode) i
      (Careful lock mode (.take key token ttlMs)) [] (Answers lock mode (.take key token ttlMs)) := by
  apply orFalse_acts
  refine Acts.bind (Acts.atomic fun w served => ⟨.inl rfl,?_⟩)
  have quiet : Quiet [(w,w)] := quiet_nil.cons w
  cases mode with
  | ready client server =>
    simp only [served.1]
    exact command_acts (by simp) (fun w there => execute_setNX key token ttlMs there) quiet
  | fallback =>
    simp only [served.1]
    have refuse : ∀ made, (pure false : Program Bool).Acts (Served lock .fallback) i
        (Careful lock .fallback (.take key token ttlMs)) made fun result made =>
          ∀ answer, result = .ok answer → Answers lock .fallback (.take key token ttlMs) (.ok answer) made := by
      intro made answer equal
      cases equal
      exact answers_false
    have write := fun made => @set_acts lock (.take key token ttlMs) i made key token ttlMs fun _ => rfl
    unfold DistributedLock.checkThenSet
    cases lock.client with
    | none => exact write _ quiet
    | some client =>
      refine Acts.bind (Acts.effect fun w' _ => ?_)
      rw [send_get]
      refine ⟨.inl rfl,?_⟩
      cases (send client (Keyspace.get key) w').1 with
      | error _ => exact fun _ same => nomatch same
      | ok existing =>
        dsimp only
        cases truthy existing with
        | some _ => exact refuse _
        | none => exact write _ (quiet.cons w')

theorem release_acts (held : Lock) :
    (lock.release held).Acts (Served lock mode) i (Careful lock mode (.drop held.key held.token)) []
      (Answers lock mode (.drop held.key held.token)) := by
  apply orFalse_acts
  refine Acts.bind (Acts.atomic fun w served => ⟨.inl rfl,?_⟩)
  have quiet : Quiet [(w,w)] := quiet_nil.cons w
  cases mode with
  | ready client server =>
    simp only [DistributedLock.scripted?,served.1,served.2.1,Option.filter]
    exact command_acts (by simp) (fun w there => execute_compareDel held.key held.token there) quiet
  | fallback =>
    simp only [DistributedLock.scripted?,served.1,Option.filter]
    refine Acts.bind (degrading_acts (fun _ => rfl) quiet ?_)
    intro _ w made still
    exact Acts.pure fun answer same => ⟨answer,rfl,fun _ => did_now still ⟨rfl,fun other => absurd rfl other⟩⟩

theorem extend_acts (held : Lock) (newTtlMs : Option Int) :
    (lock.extend held newTtlMs).Acts (Served lock mode) i
      (Careful lock mode (.renew held.key held.token (newTtlMs.getD held.ttlMs))) []
      (Answers lock mode (.renew held.key held.token (newTtlMs.getD held.ttlMs))) := by
  apply orFalse_acts
  refine Acts.bind (Acts.atomic fun w served => ⟨.inl rfl,?_⟩)
  have quiet : Quiet [(w,w)] := quiet_nil.cons w
  cases mode with
  | ready client server =>
    simp only [DistributedLock.scripted?,served.1,served.2.1,Option.filter]
    exact command_acts (by simp) (fun w there => execute_comparePexpire held.key held.token _ there) quiet
  | fallback =>
    simp only [DistributedLock.scripted?,served.1,Option.filter]
    exact set_acts (fun _ => rfl) quiet

end

-- The token that a call has drawn, as long as it has done nothing since.
inductive Pending (runtime : Runtime) : Moves → String → Prop where
  | draw (p : Process) (moves : Moves) :
    Pending runtime ((p,{p with lockCounter := p.lockCounter + 1}) :: moves)
      (tokenText runtime p.world.now (p.lockCounter + 1))
  | idle (pending : Pending runtime moves token) (p : Process) : Pending runtime ((p,p) :: moves) token

inductive Made (lock : DistributedLock) (runtime : Runtime) : Call → Moves → Action → Prop where
  | take (pending : Pending runtime moves token) :
    Made lock runtime (.acquire options) moves (.take (lock.prefixedKey options.key) token options.ttlMs)
  | drop : Made lock runtime (.release held) moves (.drop held.key held.token)
  | renew : Made lock runtime (.extend held newTtlMs) moves (.renew held.key held.token (newTtlMs.getD held.ttlMs))

inductive Rule (lock : DistributedLock) (runtime : Runtime) (mode : Mode) : Call → Moves → Process → Process → Prop where
  | idle : Rule lock runtime mode call moves p p
  | draw : Rule lock runtime mode (.acquire options) moves p {p with lockCounter := p.lockCounter + 1}
  | acts {change : Action} {left : World} (made : Made lock runtime call moves change)
      (does : Does lock mode change p.world left) : Rule lock runtime mode call moves p {p with world := left}

def DidSo (lock : DistributedLock) (runtime : Runtime) (mode : Mode) (call : Call) (action : Action) (moves : Moves) : Prop :=
  ∃ newer p w older, moves = newer ++ (p,{p with world := w}) :: older ∧ Made lock runtime call older action ∧
    Does lock mode action p.world w

def Ended (lock : DistributedLock) (runtime : Runtime) (mode : Mode) (call : Call) (result : Except Fault Answer)
    (moves : Moves) : Prop :=
  match call with
  | .acquire options => ∃ held, result = .ok (.lock held) ∧ ∀ mine, held = some mine →
    mine.key = lock.prefixedKey options.key ∧ DidSo lock runtime mode call (.take mine.key mine.token options.ttlMs) moves
  | .release held => ∃ ok, result = .ok (.done ok) ∧
    (ok = true → DidSo lock runtime mode call (.drop held.key held.token) moves)
  | .extend held newTtlMs => ∃ ok, result = .ok (.done ok) ∧
    (ok = true → DidSo lock runtime mode call (.renew held.key held.token (newTtlMs.getD held.ttlMs)) moves)

section
variable {runtime : Runtime} {i : CallId} {call : Call} {moves : Moves}

theorem quiet_whole {more : Moves} (framed : Framed Process.redis more) (quiet : Quiet (parts Process.redis more)) :
    Quiet more := by
  intro move listed
  have same : move.2.world = move.1.world := quiet _ (List.mem_map_of_mem listed)
  rw [framed move listed]
  change {move.1 with world := move.2.world} = move.1
  rw [same]

theorem pending_quiet {more : Moves} (pending : Pending runtime moves token) (quiet : Quiet more) :
    Pending runtime (more ++ moves) token := by
  induction more with
  | nil => exact pending
  | cons move more ih =>
    obtain ⟨p,q⟩ := move
    obtain rfl : q = p := quiet _ List.mem_cons_self
    exact .idle (ih fun earlier listed => quiet earlier (List.mem_cons_of_mem _ listed)) q

theorem made_quiet {more : Moves} (made : Made lock runtime call moves action) (quiet : Quiet more) :
    Made lock runtime call (more ++ moves) action := by
  cases made with
  | take pending => exact .take (pending_quiet pending quiet)
  | drop => exact .drop
  | renew => exact .renew

theorem zoom_acts {part : Program Bool} {post : Except Fault Bool → Moves → Prop}
    (acts : part.Acts (Served lock mode) i (Careful lock mode action) [] (Answers lock mode action))
    (made : Made lock runtime call moves action)
    (ended : ∀ ok more, (ok = true → DidSo lock runtime mode call action (more ++ moves)) → post (.ok ok) (more ++ moves)) :
    (part.zoom Process.redis).Acts (fun p => Served lock mode p.world) i (Rule lock runtime mode call) moves post := by
  refine Acts.zoom (l := Process.redis) acts (fun _ served => served) ?_ ?_
  · intro more p w framed either
    rcases either with same | ⟨quiet,does⟩
    · obtain rfl : w = p.world := same
      exact .idle
    · exact .acts (made_quiet made (quiet_whole framed quiet)) does
  · intro result more framed both
    obtain ⟨ok,rfl,did⟩ := both
    apply ended
    intro yes
    obtain ⟨newer,move,older,split,quiet,does⟩ := did yes
    obtain ⟨left,rest,rfl,_,tail⟩ := List.map_eq_append_iff.mp split
    obtain ⟨⟨p,q⟩,right,rfl,rfl,rfl⟩ := List.map_eq_cons_iff.mp tail
    refine ⟨left,p,q.world,right ++ moves,?_,made_quiet made (quiet_whole ?_ quiet),does⟩
    · have same := framed (p,q) (List.mem_append_right _ List.mem_cons_self)
      rw [List.append_assoc,List.cons_append]
      exact congrArg (fun r => left ++ (p,r) :: (right ++ moves)) same
    · exact fun move listed => framed move (List.mem_append_right _ (List.mem_cons_of_mem _ listed))

theorem acquiring_acts (options : LockOptions) (left : Nat) (moves : Moves) :
    (lock.acquiring runtime options left).Acts (fun p => Served lock mode p.world) i
      (Rule lock runtime mode (.acquire options)) moves fun result moves =>
        Ended lock runtime mode (.acquire options) (result.map Answer.lock) moves := by
  induction left generalizing moves with
  | zero => exact Acts.pure ⟨none,rfl,fun _ same => nomatch same⟩
  | succ left ih =>
    refine Acts.bind (Acts.atomic fun p _ => ⟨.draw,?_⟩)
    refine Acts.bind (zoom_acts (tryAcquire_acts _ _ _) (.take (.draw p moves)) ?_)
    intro ok more did
    cases ok with
    | false =>
      simp only [Bool.false_eq_true,if_false]
      split
      · exact ih _
      · exact ih _
    | true =>
      refine Acts.bind (Acts.atomic fun q _ => ⟨.idle,?_⟩)
      refine Acts.pure ⟨_,rfl,?_⟩
      intro mine equal
      cases equal
      obtain ⟨newer,r,w,older,split,made,does⟩ := did rfl
      exact ⟨rfl,(q,q) :: newer,r,w,older,congrArg ((q,q) :: ·) split,made,does⟩

theorem program_acts (i : CallId) (call : Call) :
    (program lock runtime call).Acts (fun p => Served lock mode p.world) i (Rule lock runtime mode call) []
      (Ended lock runtime mode call) := by
  cases call with
  | acquire options =>
    refine Acts.bind ((acquiring_acts options _ []).mono ?_)
    intro result moves ended
    cases result with
    | ok held => exact Acts.pure ended
    | error _ =>
      obtain ⟨_,same,_⟩ := ended
      cases same
  | release held => exact Acts.bind (zoom_acts (release_acts held) .drop fun ok more did => Acts.pure ⟨ok,rfl,did⟩)
  | extend held newTtlMs =>
    exact Acts.bind (zoom_acts (extend_acts held newTtlMs) .renew fun ok more did => Acts.pure ⟨ok,rfl,did⟩)

end
end Pezhwan.Locking
