import Pezhwan.Atomic.After
import Pezhwan.Atomic.Trace

namespace Pezhwan
open Atomic

abbrev CallId := Nat

inductive ErrorClass where
  | authentication | authorization | validation | token | session | securityDependency | notFound
  deriving DecidableEq, Repr

-- A driver error: its numeric code when it has one, its message, and whether
-- the server labelled it TransientTransactionError.
structure MongoError where
  code : Option Nat
  message : String
  transientLabel : Bool
  deriving DecidableEq, Repr

inductive Error where
  | pezhwan (kind : ErrorClass) (message code : String)
  | mongo (error : MongoError)
  deriving DecidableEq, Repr

def Error.isSessionError : Error → Bool
  | .pezhwan .session _ _ => true
  | _ => false

def Error.isPezhwanError : Error → Bool
  | .pezhwan .. => true
  | .mongo _ => false

-- String.prototype.includes after lower-casing ASCII, as the /i patterns do.
def mentions (word text : String) : Bool :=
  (text.toList.map Char.toLower).tails.any fun rest => word.toList.isPrefixOf rest

def transientCode (code : Nat) : Bool := [112,245,262,249,251,24,103,116,133,13].contains code

def transientMessage (message : String) : Bool :=
  ["session","topology","close","network","socket"].any (mentions · message)

def isTransientTransactionError : Error → Bool
  | .pezhwan .. => false
  | .mongo error => match error.code with
    | some code => transientCode code
    | none => transientMessage error.message

-- That of mongo-transactions.ts, which reads the message whatever the code is.
def Transactions.isTransientTransactionError : Error → Bool
  | .pezhwan _ message _ => transientMessage message
  | .mongo error => error.code.any transientCode || transientMessage error.message

def writeConflict : MongoError := ⟨some 112,"WriteConflict",true⟩
def duplicateKey : MongoError := ⟨some 11000,"E11000 duplicate key error",false⟩

-- randomBytes, randomUUID and ObjectId outputs: one stream without repetition.
structure Random where
  fresh : Nat → String
  injective : Function.Injective fresh

@[simp] theorem Random.fresh_inj (random : Random) : random.fresh n = random.fresh m ↔ n = m :=
  random.injective.eq_iff

def truthy (text : Option String) : Option String := text.filter (· ≠ "")

@[simp] theorem truthy_none : truthy none = none := rfl
@[simp] theorem truthy_empty : truthy (some "") = none := rfl
theorem truthy_given (given : text ≠ "") : truthy (some text) = some text := by simp [truthy,Option.filter,given]

theorem truthy_some (present : truthy text = some value) : text = some value := by
  obtain ⟨same,_⟩ := Option.filter_eq_some_iff.mp present
  exact same

structure AccountState where
  «exists» : Bool
  isActive : Bool
  tokenVersionMatch : Bool
  deriving DecidableEq, Repr

inductive CacheKey where
  | session (sessionId : String)
  | accountState (userId : String)
  | otpCooldown (channel target : String)
  | otpAttempts (channel target : String)
  deriving DecidableEq, Repr

inductive CacheValue where
  | text (value : String)
  | number (value : Nat)
  | account (state : AccountState)
  deriving DecidableEq, Repr

-- The cache as a map whose entries lapse: an entry is read until its expiry
-- time has passed.
abbrev Cache := List (CacheKey × CacheValue × Nat)

namespace Cache
def get (cache : Cache) (now : Nat) (key : CacheKey) : Option CacheValue :=
  match cache.find? (fun entry => entry.1 = key) with
  | some (_,value,expiresAt) => if expiresAt < now then none else some value
  | none => none

def del (cache : Cache) (key : CacheKey) : Cache := cache.filter fun entry => entry.1 ≠ key

def MAX_SAFE_INTEGER : Nat := 9007199254740991

def set (cache : Cache) (now : Nat) (key : CacheKey) (value : CacheValue) (ttlSeconds : Nat) : Cache :=
  (key,value,if ttlSeconds = 0 then MAX_SAFE_INTEGER else now + ttlSeconds * 1000) :: cache.del key

theorem get_earlier {cache : Cache} (later : now ≤ time) (hit : cache.get time key = some value) :
    cache.get now key = some value := by
  unfold get at hit ⊢
  cases found : cache.find? (fun entry => entry.1 = key) with
  | none => rw [found] at hit; cases hit
  | some entry =>
    simp only [found] at hit ⊢
    split at hit
    · cases hit
    · rw [if_neg (by omega)]
      exact hit

theorem get_del (cache : Cache) (now : Nat) (key : CacheKey) : (cache.del key).get now key = none := by
  have none : (cache.del key).find? (fun entry => entry.1 = key) = none := by
    simp [del,List.find?_eq_none]
  unfold get
  rw [none]

theorem get_set (cache : Cache) (value : CacheValue) (ttl : Nat) (date : now ≤ MAX_SAFE_INTEGER) :
    (cache.set now key value ttl).get now key = some value := by
  unfold get set
  simp only [List.find?_cons,decide_true]
  rw [if_neg]
  split <;> omega

theorem find_del_ne (cache : Cache) (different : key ≠ other) :
    (cache.del other).find? (fun entry => entry.1 = key) = cache.find? (fun entry => entry.1 = key) := by
  unfold del
  rw [List.find?_filter]
  congr 1
  funext entry
  by_cases hit : entry.1 = key
  · simp [hit,different]
  · simp [hit]

theorem get_del_ne (cache : Cache) (now : Nat) (different : key ≠ other) :
    (cache.del other).get now key = cache.get now key := by
  unfold get
  rw [find_del_ne cache different]

theorem get_set_ne (cache : Cache) (now time : Nat) (value : CacheValue) (ttl : Nat) (different : key ≠ other) :
    (cache.set time other value ttl).get now key = cache.get now key := by
  unfold get set
  rw [List.find?_cons_of_neg (by simpa using different.symm),find_del_ne cache different]
end Cache

-- What every service shares. `draws` lists who consumed each element of the
-- random stream and `fault` is the error the store answers with at the moment;
-- the surroundings set it.
structure Base where
  now : Nat
  draws : List CallId
  fault : Option MongoError
  cache : Cache

-- A single MongoDB operation: atomic, and without effect when it fails.
def mongo (base : σ → Base) (f : CallId → σ → Except MongoError (α × σ)) : Prog CallId σ Error α :=
  Prog.tryAtomic fun i s => match (base s).fault with
    | some e => .error (.mongo e)
    | none => (f i s).mapError .mongo

def draw (random : Random) : Prog CallId Base Error String :=
  Prog.atomic fun i b => (random.fresh b.draws.length,{b with draws := b.draws ++ [i]})

def clock : Prog CallId Base Error Nat := Prog.atomic fun _ b => (b.now,b)

def cacheGet (key : CacheKey) : Prog CallId Base Error (Option CacheValue) :=
  Prog.atomic fun _ b => (b.cache.get b.now key,b)

def cacheSet (key : CacheKey) (value : CacheValue) (ttlSeconds : Nat) : Prog CallId Base Error Unit :=
  Prog.atomic fun _ b => ((),{b with cache := b.cache.set b.now key value ttlSeconds})

def cacheDel (key : CacheKey) : Prog CallId Base Error Unit :=
  Prog.atomic fun _ b => ((),{b with cache := b.cache.del key})

theorem mongo_ok {fault : Option MongoError} {ran : Except MongoError α} : (match fault with
      | some e => .error (.mongo e)
      | none => ran.mapError .mongo) = (.ok value : Except Error α) ↔ fault = none ∧ ran = .ok value := by
  cases fault with
  | some e => simp
  | none => cases ran <;> simp [Except.mapError]

theorem mongo_error {fault : Option MongoError} {ran : Except MongoError α} : (match fault with
      | some e => .error (.mongo e)
      | none => ran.mapError .mongo) = (.error error : Except Error α) ↔
    ∃ e, error = .mongo e ∧ (fault = some e ∨ fault = none ∧ ran = .error e) := by
  cases fault with
  | some e => simp [eq_comm]
  | none => cases ran <;> simp [Except.mapError,eq_comm]

section
variable {base : σ → Base} {f : CallId → σ → Except MongoError (α × σ)}

theorem safe_mongo {d : Discipline CallId σ υ} {v : υ} {post : Except Error α → υ → Prop}
    (idle : ∀ s, d.inv s → d.change i s s)
    (step : ∀ s, d.inv s → d.view i s = v → ∀ value t, f i s = .ok (value,t) →
      d.change i s t ∧ post (.ok value) (d.view i t))
    (failed : ∀ e, post (.error (.mongo e)) v) : d.Safe i (mongo base f) v post := by
  refine Discipline.Safe.tryAtomic idle ?_ ?_
  · intro s valid seen value t ran
    exact step s valid seen value t (mongo_ok.mp ran).2
  · intro s valid seen e ran
    obtain ⟨error,rfl,_⟩ := mongo_error.mp ran
    exact failed error

theorem returns_mongo : Prog.Returns i (mongo base f) s value t ↔ (base s).fault = none ∧ f i s = .ok (value,t) := by
  unfold mongo
  rw [Prog.returns_tryAtomic,mongo_ok]

theorem ends_served {post : α → σ → Prop} (healthy : (base s).fault = none) (served : f i s = .ok (value,t))
    (holds : post value t) : Prog.Ends i (mongo base f) s post := ⟨value,t,returns_mongo.mpr ⟨healthy,served⟩,holds⟩

theorem ends_mongo {post : α → σ → Prop} (healthy : (base s).fault = none) (served : match f i s with
    | .ok result => post result.1 result.2
    | .error _ => False) : Prog.Ends i (mongo base f) s post := by
  cases ran : f i s with
  | error e => rw [ran] at served; exact served.elim
  | ok result =>
    rw [ran] at served
    exact ends_served healthy ran served

theorem keeps_mongo {r : σ → σ → Prop} (idle : ∀ s, r s s) (step : ∀ i s value t, f i s = .ok (value,t) → r s t) :
    (mongo base f).Keeps r :=
  Prog.Keeps.tryAtomic idle fun i s value t ran => step i s value t (mongo_ok.mp ran).2

theorem after_mongo {post : Except Error α → σ → Prop}
    (served : ∀ value t, (base s).fault = none → f i s = .ok (value,t) → post (.ok value) t)
    (refused : ∀ e, post (.error (.mongo e)) s) : Prog.After i (mongo base f) s post := by
  apply Prog.After.tryAtomic
  · intro value t ran
    obtain ⟨healthy,result⟩ := mongo_ok.mp ran
    exact served value t healthy result
  · intro e ran
    obtain ⟨error,rfl,_⟩ := mongo_error.mp ran
    exact refused error

theorem acts_mongo {inv : σ → Prop} {rule : List (σ × σ) → σ → σ → Prop} {memory : List (σ × σ)}
    {post : Except Error α → List (σ × σ) → Prop}
    (served : ∀ s, inv s → (base s).fault = none → ∀ value t, f i s = .ok (value,t) →
      rule memory s t ∧ post (.ok value) ((s,t) :: memory))
    (refused : ∀ s e, inv s → (base s).fault = some e ∨ f i s = .error e →
      rule memory s s ∧ post (.error (.mongo e)) ((s,s) :: memory)) : (mongo base f).Acts inv i rule memory post := by
  apply Prog.Acts.tryAtomic
  · intro s valid value t ran
    obtain ⟨healthy,result⟩ := mongo_ok.mp ran
    exact served s valid healthy value t result
  · intro s valid e ran
    obtain ⟨error,rfl,why⟩ := mongo_error.mp ran
    exact refused s error valid (why.imp_right And.right)
end

section
variable {σ τ : Type} (l : Lens σ τ) (commit : τ → τ → Prog CallId σ Error Unit)

-- ClientSession.withTransaction of the driver: a transaction that ends with the
-- transient label is run again, `retries` times before the error is reported.
def driverTransaction (body : Prog CallId σ Error α) : Nat → Prog CallId σ Error α
  | 0 => body.transaction l commit
  | retries+1 => do
    match ← (body.transaction l commit).attempt with
    | .ok out => pure out
    | .error (.mongo e) => if e.transientLabel then driverTransaction body retries else Prog.throw (.mongo e)
    | .error e => Prog.throw e

structure TransactionOptions where
  maxAttempts : Nat
  isNonRetryable : Error → Bool

-- `work` is told whether it runs in a session; `left` is the number of attempts
-- not yet made.
def transactionAttempts (driverRetries : Nat) (options : TransactionOptions) (work : Bool → Prog CallId σ Error α) :
    Nat → Prog CallId σ Error α
  | 0 => work false
  | left+1 => do
    match ← (driverTransaction l commit (work true) driverRetries).attempt with
    | .ok out => pure out
    | .error err =>
      if options.isNonRetryable err then Prog.throw err
      else if left = 0 ∨ Transactions.isTransientTransactionError err = false then
        if left = 0 ∧ Transactions.isTransientTransactionError err = false then work false else Prog.throw err
      else transactionAttempts driverRetries options work left

def withTransaction (transactionsSupported : σ → Bool) (driverRetries : Nat) (options : TransactionOptions)
    (work : Bool → Prog CallId σ Error α) : Prog CallId σ Error α := do
  if ← Prog.atomic (fun _ s => (transactionsSupported s,s)) then
    transactionAttempts l commit driverRetries options work options.maxAttempts
  else work false

end
end Pezhwan
