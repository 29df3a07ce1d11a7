import Pezhwan.Atomic.Dict
import Pezhwan.Atomic.Machine

namespace Pezhwan.React
open Atomic

structure PezhwanUser where
  id : Option String
  tenantId : Option String
  applicationId : Option String
  email : Option String
  phone : Option String
  emailVerified : Option Bool
  isActive : Option Bool
  roles : Option (List String)
  deriving DecidableEq, Repr

structure PezhwanError where
  code : Option String
  message : String
  status : Option ℕ
  deriving DecidableEq, Repr

-- What a request throws: an answer of the server, or an error without one.
inductive Thrown where
  | api (code : Option String) (message : String) (status : ℕ)
  | other (message : String)
  deriving DecidableEq, Repr

def Thrown.status : Thrown → Option ℕ
  | .api _ _ status => some status
  | .other _ => none

def Thrown.code : Thrown → Option String
  | .api code _ _ => code
  | .other _ => none

def errorToMessage : Thrown → String ⊕ PezhwanError
  | .api code message status => .inr ⟨code,message,some status⟩
  | .other message => .inl message

inductive Status where
  | loading | guest | authenticated
  deriving DecidableEq, Repr

structure AuthState where
  user : Option PezhwanUser
  status : Status
  error : Option (String ⊕ PezhwanError)
  deriving DecidableEq, Repr

-- The item of localStorage; a text that does not parse is `unreadable`.
inductive Stored where
  | absent
  | unreadable
  | parsed (user : PezhwanUser)
  deriving DecidableEq, Repr

-- Whether localStorage lets itself be read and written.
structure Access where
  reads : Bool
  writes : Bool

def removeItem (access : Access) (stored : Stored) : Stored := if access.writes then .absent else stored

def readCachedSession (access : Access) (stored : Stored) : Option PezhwanUser × Stored :=
  if access.reads then
    match stored with
    | .absent | .unreadable => (none,stored)
    | .parsed user => if user.id.getD "" = "" then (none,removeItem access stored) else (some user,stored)
  else (none,stored)

def persistSession (access : Access) (stored : Stored) : Option PezhwanUser → Stored
  | none => removeItem access stored
  | some user => if access.writes then .parsed user else stored

-- The operations, and what each of them waits for.
inductive Call where
  | bootstrap | login | register | logout | refreshProfile
  deriving DecidableEq, Repr

inductive Request where
  | profile (cached : PezhwanUser)
  | silentRefresh (cached : PezhwanUser)
  | profileAgain
  | login
  | register
  | logout
  | refreshProfile
  deriving DecidableEq, Repr

-- How a request ends: with a profile, with the data of a login or a
-- registration, with data that is not looked at, or with an error.
inductive Reply where
  | profile (user : PezhwanUser)
  | account (user : Option PezhwanUser)
  | done
  | failed (thrown : Thrown)
  deriving DecidableEq, Repr

-- Operations are numbered as they start.
structure Provider where
  auth : AuthState
  stored : Stored
  started : ℕ
  pending : Dict ℕ Request
  deriving DecidableEq

inductive Event where
  | start (call : Call) (access : Access)
  | reply (id : ℕ) (reply : Reply) (access : Access)

namespace Provider

def await (provider : Provider) (request : Request) : Provider :=
  { provider with started := provider.started + 1, pending := provider.pending.set provider.started request }

def bootstrap (provider : Provider) (access : Access) : Provider :=
  match readCachedSession access provider.stored with
  | (none,stored) =>
    { provider with
      auth := { provider.auth with user := none, status := .guest }
      stored
      started := provider.started + 1 }
  | (some cached,stored) => { provider with stored }.await (.profile cached)

def load (provider : Provider) : Provider :=
  { provider with auth := { provider.auth with status := .loading, error := none } }

def start (provider : Provider) (access : Access) : Call → Provider
  | .bootstrap => provider.bootstrap access
  | .login => provider.load.await .login
  | .register => provider.load.await .register
  | .logout => provider.await .logout
  | .refreshProfile => provider.await .refreshProfile

-- setAuth and persistSession, one after the other.
def settle (provider : Provider) (access : Access) (auth : AuthState) (user : Option PezhwanUser) : Provider :=
  { provider with auth, stored := persistSession access provider.stored user }

def contextInvalid : PezhwanError := ⟨some "SESSION_CONTEXT_INVALID","Session context is invalid",some 401⟩

-- The operation goes on when its request ends; `none` for a reply that the
-- request cannot have.
def resume (provider : Provider) (access : Access) (id : ℕ) : Request → Reply → Option Provider
  | .profile _,.profile user => some (provider.settle access ⟨some user,.authenticated,none⟩ (some user))
  | .profile cached,.failed thrown =>
    if thrown.status = some 401 then some { provider with pending := provider.pending.set id (.silentRefresh cached) }
    else some { provider with auth := ⟨some cached,.authenticated,none⟩ }
  | .silentRefresh _,.done => some { provider with pending := provider.pending.set id .profileAgain }
  | .silentRefresh _,.failed thrown =>
    if thrown.code = some "SESSION_CONTEXT_INVALID" then
      some (provider.settle access ⟨none,.guest,some (.inr contextInvalid)⟩ none)
    else some (provider.settle access ⟨none,.guest,none⟩ none)
  | .profileAgain,.profile user => some (provider.settle access ⟨some user,.authenticated,none⟩ (some user))
  | .profileAgain,.failed _ => some provider
  | .login,.account user | .register,.account user => some (provider.settle access ⟨user,.authenticated,none⟩ user)
  | .login,.failed thrown | .register,.failed thrown =>
    some { provider with auth := { provider.auth with status := .guest, error := some (errorToMessage thrown) } }
  | .logout,.done | .logout,.failed _ => some (provider.settle access ⟨none,.guest,none⟩ none)
  | .refreshProfile,.profile user =>
    some (provider.settle access { provider.auth with user := some user, status := .authenticated } (some user))
  | .refreshProfile,.failed _ => some provider
  | _,_ => none

def step (provider : Provider) : Event → Option Provider
  | .start call access => some (provider.start access call)
  | .reply id reply access =>
    (provider.pending.get? id).bind fun request =>
      { provider with pending := provider.pending.erase id }.resume access id request reply

-- The first render, and the effect that follows it.
def mount (stored : Stored) (access : Access) : Provider :=
  bootstrap ⟨⟨(readCachedSession access stored).1,.loading,none⟩,(readCachedSession access stored).2,0,.empty⟩ access

end Provider

variable {provider after : Provider} {closed : Option ℕ} {request : Request} {reply : Reply} {access : Access} {id : ℕ}

-- The operations that may end a logout, and the replies with which they do.
def Request.opens : Request → Reply → Bool
  | .login,.account _ | .register,.account _ | .refreshProfile,.profile _ => true
  | _,_ => false

-- After a logout has completed, the number from which operations have started
-- since, until one of those has succeeded.
def watch (provider : Provider) (closed : Option ℕ) : Event → Option ℕ
  | .start _ _ => closed
  | .reply id reply _ =>
    match provider.pending.get? id with
    | none => closed
    | some .logout => some provider.started
    | some request => if request.opens reply ∧ closed.all (· ≤ id) then none else closed

def step (state : Provider × Option ℕ) (event : Event) : Option (Provider × Option ℕ) :=
  (state.1.step event).map fun after => (after,watch state.1 state.2 event)

def begin (stored : Stored) (access : Access) : Provider × Option ℕ := (.mount stored access,none)

structure Coherent (state : Provider × Option ℕ) : Prop where
  known : state.1.auth.status = .authenticated → state.1.auth.user ≠ none
  out : state.2 ≠ none → state.1.auth.status ≠ .authenticated
  settled : state.1.pending = .empty → state.1.auth.status ≠ .loading

-- A login or a registration brings its user, nothing that started before the
-- last logout and no bootstrap signs in after it, and what fails unanswered is
-- not the last to be waited for while the status is loading.
def Fit (provider : Provider) (closed : Option ℕ) (id : ℕ) : Request → Reply → Prop
  | .login,.account user | .register,.account user => user ≠ none ∧ closed.all (· ≤ id)
  | .refreshProfile,.profile _ => closed.all (· ≤ id)
  | .profile _,.profile _ | .profileAgain,.profile _ => closed = none
  | .profile _,.failed thrown => thrown.status = some 401 ∨ closed = none
  | .profileAgain,.failed _ | .refreshProfile,.failed _ => provider.auth.status = .loading → provider.pending.erase id ≠ .empty
  | _,_ => True

def Careful (state : Provider × Option ℕ) : Event → Prop
  | .start _ _ => True
  | .reply id reply _ => ∀ request ∈ state.1.pending.get? id, Fit state.1 state.2 id request reply

theorem set_ne_empty [DecidableEq κ] (d : Dict κ ν) (k : κ) (v : ν) : d.set k v ≠ .empty := by
  intro empty
  have found := d.get?_set_self k v
  rw [empty,Dict.get?_empty] at found
  cases found

theorem Coherent.waiting (coherent : Coherent (provider,closed)) (auth : after.auth = provider.auth) (waits : after.pending ≠ .empty) :
    Coherent (after,closed) := by
  refine ⟨?_,?_,fun empty => absurd empty waits⟩
  · rw [auth]
    exact coherent.known
  · rw [auth]
    exact coherent.out

theorem coherent_guest (status : after.auth.status = .guest) : Coherent (after,closed) := by
  refine ⟨?_,?_,?_⟩
  · rw [status]
    nofun
  · rw [status]
    nofun
  · rw [status]
    nofun

theorem coherent_authenticated (status : after.auth.status = .authenticated) :
    Coherent (after,closed) ↔ after.auth.user ≠ none ∧ closed = none := by
  constructor
  · intro coherent
    refine ⟨coherent.known status,?_⟩
    by_contra some_
    exact coherent.out some_ status
  · intro both
    refine ⟨fun _ => both.1,fun some_ => absurd both.2 some_,?_⟩
    rw [status]
    nofun

theorem coherent_unanswered (coherent : Coherent (provider,closed)) (auth : after.auth = provider.auth) :
    Coherent (after,closed) ↔ provider.auth.status = .loading → after.pending ≠ .empty := by
  constructor
  · intro later loading empty
    exact later.settled empty (auth ▸ loading)
  · intro waits
    refine ⟨?_,?_,?_⟩
    · rw [auth]
      exact coherent.known
    · rw [auth]
      exact coherent.out
    · rw [auth]
      exact fun empty loading => waits loading empty

theorem start_coherent (coherent : Coherent (provider,closed)) (access : Access) (call : Call) :
    Coherent (provider.start access call,closed) := by
  cases call with
  | bootstrap =>
    unfold Provider.start Provider.bootstrap
    dsimp only
    split
    · exact coherent_guest rfl
    · exact coherent.waiting rfl (set_ne_empty _ _ _)
  | login | register =>
    refine ⟨?_,?_,fun empty => absurd empty (set_ne_empty _ _ _)⟩
    · exact nofun
    · exact fun _ => nofun
  | logout | refreshProfile => exact coherent.waiting rfl (set_ne_empty _ _ _)

theorem closed_iff (closed : Option ℕ) (id : ℕ) :
    (if closed.all (· ≤ id) then none else closed) = none ↔ closed.all (· ≤ id) = true := by
  split
  · rename_i later
    exact iff_of_true rfl later
  · rename_i earlier
    refine iff_of_false ?_ earlier
    intro none
    rw [none] at earlier
    exact earlier rfl

theorem watch_opens (pending : provider.pending.get? id = some request) (opens : request.opens reply = true) :
    watch provider closed (.reply id reply access) = if closed.all (· ≤ id) then none else closed := by
  unfold watch
  dsimp only
  rw [pending]
  cases request with
  | logout => cases reply <;> cases opens
  | _ => simp [opens]

theorem watch_stays (pending : provider.pending.get? id = some request) (other : request ≠ .logout) (shut : request.opens reply = false) :
    watch provider closed (.reply id reply access) = closed := by
  unfold watch
  dsimp only
  rw [pending]
  cases request with
  | logout => exact absurd rfl other
  | _ => simp [shut]

theorem reply_coherent (coherent : Coherent (provider,closed)) (pending : provider.pending.get? id = some request)
    (resumed : Provider.resume { provider with pending := provider.pending.erase id } access id request reply = some after) :
    Coherent (after,watch provider closed (.reply id reply access)) ↔ Fit provider closed id request reply := by
  cases request with
  | profile cached =>
    cases reply with
    | profile user =>
      cases resumed
      rw [watch_stays pending nofun rfl,coherent_authenticated rfl]
      simp [Provider.settle,Fit]
    | failed thrown =>
      rw [watch_stays pending nofun rfl]
      unfold Provider.resume at resumed
      dsimp only at resumed ⊢
      split at resumed
      · rename_i expired
        cases resumed
        exact iff_of_true (coherent.waiting rfl (set_ne_empty _ _ _)) (.inl expired)
      · rename_i other
        cases resumed
        rw [coherent_authenticated rfl]
        simp [Fit,other]
    | account user | done => cases resumed
  | silentRefresh cached =>
    cases reply with
    | done =>
      cases resumed
      rw [watch_stays pending nofun rfl]
      exact iff_of_true (coherent.waiting rfl (set_ne_empty _ _ _)) trivial
    | failed thrown =>
      unfold Provider.resume at resumed
      dsimp only at resumed
      split at resumed
      · cases resumed
        exact iff_of_true (coherent_guest rfl) trivial
      · cases resumed
        exact iff_of_true (coherent_guest rfl) trivial
    | account user | profile user => cases resumed
  | profileAgain =>
    cases reply with
    | profile user =>
      cases resumed
      rw [watch_stays pending nofun rfl,coherent_authenticated rfl]
      simp [Provider.settle,Fit]
    | failed thrown =>
      cases resumed
      rw [watch_stays pending nofun rfl]
      exact coherent_unanswered coherent rfl
    | account user | done => cases resumed
  | login | register =>
    cases reply with
    | account user =>
      cases resumed
      rw [watch_opens pending rfl,coherent_authenticated rfl,closed_iff]
      rfl
    | failed thrown =>
      cases resumed
      exact iff_of_true (coherent_guest rfl) trivial
    | profile user | done => cases resumed
  | logout =>
    cases reply with
    | done | failed thrown =>
      cases resumed
      exact iff_of_true (coherent_guest rfl) trivial
    | profile user | account user => cases resumed
  | refreshProfile =>
    cases reply with
    | profile user =>
      cases resumed
      rw [watch_opens pending rfl,coherent_authenticated rfl,closed_iff]
      simp [Provider.settle,Fit]
    | failed thrown =>
      cases resumed
      rw [watch_stays pending nofun rfl]
      exact coherent_unanswered coherent rfl
    | account user | done => cases resumed

theorem begin_coherent (stored : Stored) (access : Access) : Coherent (begin stored access) := by
  unfold begin Provider.mount Provider.bootstrap
  dsimp only
  split
  · exact coherent_guest rfl
  · exact ⟨nofun,fun some_ => absurd rfl some_,fun empty => absurd empty (set_ne_empty .empty 0 _)⟩

theorem session_coherent_iff (stored : Stored) (access : Access) (events : List Event) :
    (Coherent (begin stored access) ∧ Machine.Each step (fun _ _ after => Coherent after) (begin stored access) events) ↔
      Machine.Each step (fun state event _ => Careful state event) (begin stored access) events := by
  rw [and_iff_right (begin_coherent stored access)]
  refine Machine.each_iff Coherent (begin_coherent stored access) ?_
  intro state event after coherent taken
  refine ⟨?_,id⟩
  obtain ⟨provider,closed⟩ := state
  obtain ⟨next,moved,rfl⟩ := Option.map_eq_some_iff.mp taken
  cases event with
  | start call access =>
    cases moved
    exact iff_of_true (start_coherent coherent access call) trivial
  | reply id reply access =>
    obtain ⟨request,pending,resumed⟩ := Option.bind_eq_some_iff.mp moved
    have careful : Careful (provider,closed) (.reply id reply access) ↔ Fit provider closed id request reply := by
      unfold Careful
      dsimp only
      rw [pending]
      simp only [Option.mem_def,Option.some.injEq,forall_eq']
    rw [careful]
    exact reply_coherent coherent pending resumed

theorem authenticated_without_user :
    ¬∀ (stored : Stored) (access : Access) (events : List Event),
      Coherent (begin stored access) ∧ Machine.Each step (fun _ _ after => Coherent after) (begin stored access) events := by
  intro always
  have run := (always .absent ⟨true,true⟩ [.start .login ⟨true,true⟩,.reply 1 (.account none) ⟨true,true⟩]).2
  have known := Machine.Each.mono run fun _ _ _ coherent => coherent.known
  revert known
  decide +kernel

end Pezhwan.React
