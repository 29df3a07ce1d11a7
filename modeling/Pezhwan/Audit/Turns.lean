import Pezhwan.Audit.Verifier
import Pezhwan.Atomic.Focus

-- Log calls one at a time while retention changes and entries expire.
namespace Pezhwan.Audit
open Atomic Prog

def setRetentionDays (days : Rat) (w : World) : Except String World :=
  if 0 < days then .ok {w with retentionMs := some (days * 24 * 60 * 60 * 1000)}
  else .error "audit retention days must be > 0"

-- The TTL index on expireAt.
def expired (now : Nat) (doc : AuditLogDoc) : Bool := doc.expireAt.any (· ≤ now)

def sweep (w : World) : World :=
  {w with store := {w.store with entries := w.store.entries.filter fun doc => !expired w.base.now doc}}

-- What can happen, one thing after another.
inductive Turn where
  | log (call : CallId) (input : AuditEntryInput)
  | setRetentionDays (days : Rat)
  | tick (ms : Nat)
  | sweep
  | fault (error : Option MongoError)
  | topology (replicaSet : Bool)

-- The log with every entry that was ever written.
structure Ledger where
  world : World
  written : List AuditLogDoc

def Ledger.entries (l : Ledger) : List AuditLogDoc := l.world.store.entries

def Ledger.with_ (l : Ledger) (w : World) : Ledger := ⟨w,l.written⟩

def Turn.run (service : AuditService) : Turn → Ledger → Ledger
  | .log call input,l =>
    let after := ((Audit.log service input).run call l.world).2
    ⟨after,l.written ++ after.store.entries.drop l.entries.length⟩
  | .setRetentionDays days,l => match Audit.setRetentionDays days l.world with
    | .ok w => l.with_ w
    | .error _ => l
  | .tick ms,l => l.with_ {l.world with base := {l.world.base with now := l.world.base.now + ms}}
  | .sweep,l => l.with_ (Audit.sweep l.world)
  | .fault error,l => l.with_ {l.world with base := {l.world.base with fault := error}}
  | .topology replicaSet,l => l.with_ {l.world with replicaSet}

def turns (service : AuditService) (l : Ledger) (list : List Turn) : Ledger :=
  list.foldl (fun l turn => turn.run service l) l

@[simp] theorem turns_nil (service : AuditService) (l : Ledger) : turns service l [] = l := rfl

@[simp] theorem turns_cons (service : AuditService) (l : Ledger) (turn : Turn) (rest : List Turn) :
    turns service l (turn :: rest) = turns service (turn.run service l) rest := rfl

@[simp] theorem turns_append (service : AuditService) (l : Ledger) (one two : List Turn) :
    turns service l (one ++ two) = turns service (turns service l one) two := List.foldl_append

theorem run_setRetentionDays (service : AuditService) (days : Rat) (l : Ledger) :
    ∃ retentionMs, (Turn.setRetentionDays days).run service l = l.with_ {l.world with retentionMs} := by
  by_cases positive : 0 < days
  · exact ⟨_,by simp only [Turn.run,setRetentionDays,if_pos positive]; rfl⟩
  · exact ⟨l.world.retentionMs,by simp only [Turn.run,setRetentionDays,if_neg positive]; rfl⟩

-- The entry that a write makes, behind `prevHash`.
def nextEntry (service : AuditService) (input : AuditEntryInput) (w : World) (prevHash : String) : AuditLogDoc :=
  buildDoc w.base.now w.retentionMs input (incremented w.store.counter).seq prevHash (chainHash service prevHash input)

-- The predecessor that a write finds, in the mode of the store.
def predecessorIn (w : World) : String :=
  if w.replicaSet then predecessorOf w.store else tailHash (tail w.store.entries) AUDIT_CHAIN_ROOT

def tipIn (service : AuditService) (input : AuditEntryInput) (w : World) : Option String :=
  if w.replicaSet then some (chainHash service (predecessorIn w) input)
  else w.store.counter.bind AuditSequenceDoc.lastHash

def Store.logged (service : AuditService) (input : AuditEntryInput) (w : World) : Store :=
  ⟨some ⟨(incremented w.store.counter).seq,tipIn service input w⟩,
    w.store.entries ++ [nextEntry service input w (predecessorIn w)]⟩

-- No entry carries a number that has not been given out.
def Counted (store : Store) : Prop := ∀ doc ∈ store.entries, doc.sequence < (incremented store.counter).seq

-- What neither a write nor anything on the way to it touches.
structure Settled (w t : World) : Prop where
  now : t.base.now = w.base.now
  fault : t.base.fault = w.base.fault
  replicaSet : t.replicaSet = w.replicaSet
  retention : t.retentionMs = w.retentionMs

section
variable {service : AuditService} {input : AuditEntryInput} {w : World}

theorem ends_create {doc : World → AuditLogDoc} {post : Unit → World → Prop} (healthy : w.base.fault = none)
    (free : ∀ old ∈ w.store.entries, old.sequence ≠ (doc w).sequence)
    (holds : post () {w with store := {w.store with entries := w.store.entries ++ [doc w]}}) :
    Ends i (create doc) w post := by
  apply ends_served healthy ?_ holds
  dsimp only
  rw [if_neg]
  simpa using free

theorem ends_bestEffort (i : CallId) (healthy : w.base.fault = none) (counted : Counted w.store) (single : w.replicaSet = false) :
    Ends i (writeEntryBestEffort service input) w fun _ t => Settled w t ∧ t.store = Store.logged service input w := by
  apply Ends.bind
  apply ends_served (by exact healthy) rfl
  apply Ends.bind
  apply Ends.attempt
  apply ends_served (by exact healthy) rfl
  apply Ends.bind
  apply ends_create (by exact healthy)
  · intro old member
    exact Nat.ne_of_lt (counted old member)
  · apply Ends.pure
    refine ⟨⟨rfl,rfl,rfl,rfl⟩,?_⟩
    have found : predecessorIn w = tailHash (tail w.store.entries) AUDIT_CHAIN_ROOT := if_neg (by simp [single])
    have tip : tipIn service input w = w.store.counter.bind AuditSequenceDoc.lastHash := if_neg (by simp [single])
    unfold Store.logged
    rw [found,tip]
    cases counter : w.store.counter <;> simp [incremented,nextEntry,counter]

theorem ends_predecessor {counter : AuditSequenceDoc} {post : String → World → Prop} (healthy : w.base.fault = none)
    (holds : post ((truthy counter.lastHash).getD (tailHash (tail w.store.entries) AUDIT_CHAIN_ROOT)) w) :
    Ends i (predecessor counter) w post := by
  unfold predecessor
  cases found : truthy counter.lastHash with
  | some last =>
    rw [found] at holds
    exact Ends.pure holds
  | none =>
    rw [found] at holds
    apply Ends.bind
    exact ends_served (by exact healthy) rfl (Ends.pure holds)

theorem ends_session (i : CallId) (healthy : w.base.fault = none) (counted : Counted w.store) (session : w.replicaSet = true) :
    Ends i (writeEntryInSession service input) w fun _ t => t = {w with store := Store.logged service input w} := by
  have prev : predecessorIn w = (truthy (incremented w.store.counter).lastHash).getD
      (tailHash (tail w.store.entries) AUDIT_CHAIN_ROOT) := by
    unfold predecessorIn predecessorOf incremented
    rw [if_pos session]
    cases w.store.counter <;> rfl
  apply Ends.bind
  apply ends_served (by exact healthy) rfl
  apply Ends.bind
  apply ends_predecessor (by exact healthy)
  dsimp only
  rw [← prev]
  apply Ends.bind
  apply ends_create (by exact healthy)
  · intro old member
    exact Nat.ne_of_lt (counted old member)
  · apply Ends.bind
    apply ends_served (by exact healthy) rfl
    apply Ends.pure
    unfold Store.logged tipIn
    rw [if_pos session]
    rfl

theorem logged_commit (counted : Counted w.store) (i : CallId) (healthy : w.base.fault = none) :
    Ends i (commit w.store (Store.logged service input w)) w fun _ t => Settled w t ∧ t.store = Store.logged service input w := by
  have advanced : (Store.logged service input w).counter ≠ w.store.counter := by
    intro same
    cases counter : w.store.counter with
    | none => simp [Store.logged,counter] at same
    | some old =>
      have number := congrArg (Option.map AuditSequenceDoc.seq) same
      simp [Store.logged,incremented,counter] at number
  have inserted : (Store.logged service input w).entries.drop w.store.entries.length =
      [nextEntry service input w (predecessorIn w)] := by simp [Store.logged]
  have free : ∀ old ∈ w.store.entries, old.sequence ≠ (nextEntry service input w (predecessorIn w)).sequence :=
    fun old member => Nat.ne_of_lt (counted old member)
  apply Ends.tryAtomic
  · rw [healthy]
    dsimp only
    rw [inserted,if_neg (by simpa using free),if_pos advanced]
    rfl
  · exact ⟨⟨rfl,rfl,rfl,rfl⟩,rfl⟩

theorem ends_transaction (i : CallId) (healthy : w.base.fault = none) (counted : Counted w.store) (session : w.replicaSet = true) :
    Ends i ((writeEntryInSession service input).transaction storeLens commit) w fun _ t =>
      Settled w t ∧ t.store = Store.logged service input w := by
  apply Ends.transaction
  apply (ends_session i healthy counted session).mono
  rintro _ _ rfl
  exact logged_commit counted i healthy

theorem ends_driver (retries : Nat) (i : CallId) (healthy : w.base.fault = none) (counted : Counted w.store)
    (session : w.replicaSet = true) :
    Ends i (driverTransaction storeLens commit (writeEntryInSession service input) retries) w fun _ t =>
      Settled w t ∧ t.store = Store.logged service input w := by
  cases retries with
  | zero => exact ends_transaction i healthy counted session
  | succ retries =>
    apply Ends.bind
    apply Ends.attempt
    apply (ends_transaction i healthy counted session).mono
    intro _ _ done
    exact Ends.pure done

theorem ends_writeEntry (i : CallId) (healthy : w.base.fault = none) (counted : Counted w.store) :
    Ends i (writeEntry service input) w fun _ t => Settled w t ∧ t.store = Store.logged service input w := by
  apply Ends.bind
  apply Ends.atomic
  dsimp only
  split
  · rename_i session
    apply Ends.bind
    apply Ends.attempt
    apply (ends_driver service.driverRetries i healthy counted session).mono
    intro _ _ done
    exact Ends.pure done
  · rename_i single
    exact ends_bestEffort i healthy counted (by simpa using single)

-- Everything but the log and what a write reads.
def Spared (w t : World) : Prop := Settled w t ∧ t.store = w.store

theorem Spared.refl (w : World) : Spared w w := ⟨⟨rfl,rfl,rfl,rfl⟩,rfl⟩

theorem Spared.trans (one : Spared w u) (two : Spared u t) : Spared w t :=
  ⟨⟨two.1.now.trans one.1.now,two.1.fault.trans one.1.fault,two.1.replicaSet.trans one.1.replicaSet,
    two.1.retention.trans one.1.retention⟩,two.2.trans one.2⟩

theorem spared_forward (service : AuditService) (input : AuditEntryInput) (entry : Option AuditEntry) :
    (forward service input entry).Keeps Spared := by
  unfold forward
  split
  · apply Keeps.bind
    · exact Keeps.zoom (q := fun s t => t.now = s.now ∧ t.fault = s.fault) (Keeps.atomic fun _ _ => ⟨rfl,rfl⟩)
        fun w _ same => ⟨⟨same.1,same.2,rfl,rfl⟩,rfl⟩
    · intro id
      apply Keeps.bind
      · exact Keeps.zoom (q := fun s t => t.now = s.now ∧ t.fault = s.fault) (Keeps.atomic fun _ _ => ⟨rfl,rfl⟩)
          fun w _ same => ⟨⟨same.1,same.2,rfl,rfl⟩,rfl⟩
      · intro now
        exact Keeps.atomic fun _ w => ⟨⟨rfl,rfl,rfl,rfl⟩,rfl⟩
  · exact Keeps.pure _

-- While the store is down nothing is written.
def Down (w t : World) : Prop := w.base.fault ≠ none → Spared w t

theorem Down.trans (one : Down w u) (two : Down u t) : Down w t := by
  intro fault
  have first := one fault
  exact first.trans (two (first.1.fault ▸ fault))

theorem down_op (f : CallId → World → Except MongoError (α × World)) : (op f).Keeps Down := by
  apply Keeps.tryAtomic fun w _ => Spared.refl w
  intro i w value t ran fault
  cases down : w.base.fault with
  | none => exact absurd down fault
  | some e =>
    rw [down] at ran
    cases ran

theorem down_session (service : AuditService) (input : AuditEntryInput) : (writeEntryInSession service input).Keeps Down := by
  apply Keeps.bind (down_op _)
  intro counter
  apply Keeps.bind
  · unfold predecessor
    split
    · exact Keeps.pure _
    · exact Keeps.bind (down_op _) fun _ => Keeps.pure _
  · intro prevHash
    apply Keeps.bind (down_op _)
    intro _
    exact Keeps.bind (down_op _) fun _ => Keeps.pure _

theorem down_bestEffort (service : AuditService) (input : AuditEntryInput) : (writeEntryBestEffort service input).Keeps Down := by
  apply Keeps.bind (down_op _)
  intro sequence
  apply Keeps.bind (down_op _).attempt
  intro last
  exact Keeps.bind (down_op _) fun _ => Keeps.pure _

theorem down_transaction (service : AuditService) (input : AuditEntryInput) :
    ((writeEntryInSession service input).transaction storeLens commit).Keeps Down := by
  apply Keeps.bind (Keeps.atomic fun _ w _ => Spared.refl w)
  intro snapshot
  apply Keeps.bind
  · have blind : (writeEntryInSession service input).Keeps fun w t => w.base.fault ≠ none → Settled w t :=
      (down_session service input).mono fun down fault => (down fault).1
    have elsewhere : ∀ a b w t, ((storeLens.set a w).base.fault ≠ none → Settled (storeLens.set a w) t) →
        w.base.fault ≠ none → Settled w (storeLens.set b t) := by
      intro a b w t same fault
      exact ⟨(same fault).now,(same fault).fault,(same fault).replicaSet,(same fault).retention⟩
    apply (Keeps.buffered_part blind elsewhere snapshot).mono
    intro w t kept fault
    exact ⟨kept.1 fault,kept.2⟩
  · intro result
    exact Keeps.bind (down_op _) fun _ => Keeps.pure _

theorem down_driver (service : AuditService) (input : AuditEntryInput) (retries : Nat) :
    (driverTransaction storeLens commit (writeEntryInSession service input) retries).Keeps Down := by
  induction retries with
  | zero => exact down_transaction service input
  | succ retries ih =>
    apply Keeps.bind (down_transaction service input).attempt
    intro result
    cases result with
    | ok out => exact Keeps.pure _
    | error e =>
      cases e with
      | pezhwan kind message code => exact Keeps.throw _
      | mongo e =>
        dsimp only
        split
        · exact ih
        · exact Keeps.throw _

theorem down_attempts (service : AuditService) (input : AuditEntryInput) (options : TransactionOptions) (left : Nat) :
    (transactionAttempts storeLens commit service.driverRetries options (fun session =>
      if session then writeEntryInSession service input else writeEntryBestEffort service input) left).Keeps Down := by
  induction left with
  | zero => exact down_bestEffort service input
  | succ left ih =>
    apply Keeps.bind (down_driver service input _).attempt
    intro result
    cases result with
    | ok out => exact Keeps.pure _
    | error e =>
      dsimp only
      split
      · exact Keeps.throw _
      · split
        · split
          · exact down_bestEffort service input
          · exact Keeps.throw _
        · exact ih

theorem down_log (service : AuditService) (input : AuditEntryInput) : (Audit.log service input).Keeps Down := by
  apply Keeps.bind
  · apply Keeps.attempt
    apply Keeps.bind (Keeps.atomic fun _ w _ => Spared.refl w)
    intro session
    dsimp only
    split
    · exact down_attempts service input _ _
    · exact down_bestEffort service input
  · intro written
    exact (spared_forward service input _).mono fun spared _ => spared

theorem log_writes (i : CallId) (healthy : w.base.fault = none) (counted : Counted w.store) :
    Settled w ((Audit.log service input).run i w).2 ∧
      ((Audit.log service input).run i w).2.store = Store.logged service input w := by
  obtain ⟨entry,t,returned,settled,store⟩ := @ends_writeEntry service input w i healthy counted
  have forwarded : Spared t ((forward service input (some entry)).run i t).2 :=
    (spared_forward service input (some entry)).run Spared.refl Spared.trans i t
  have whole : ((Audit.log service input).run i w).2 = ((forward service input (some entry)).run i t).2 := by
    unfold Audit.log
    rw [run_bind,run_attempt,returned]
    rfl
  rw [whole]
  refine ⟨?_,forwarded.2.trans store⟩
  exact ⟨forwarded.1.now.trans settled.now,forwarded.1.fault.trans settled.fault,
    forwarded.1.replicaSet.trans settled.replicaSet,forwarded.1.retention.trans settled.retention⟩

theorem log_down (i : CallId) (fault : w.base.fault ≠ none) : Spared w ((Audit.log service input).run i w).2 :=
  (down_log service input).run (fun w _ => Spared.refl w) Down.trans i w fault

end
end Pezhwan.Audit
