import Pezhwan.Migration.Backed

namespace Pezhwan.Migration
open Numeric Atomic Accounts
variable {plan : Plan} {s t : Accounts} {event : Event} {id : ℕ} {value : Option Stored} {row : Row} {rows todo : List Row}
  {read : ℕ} {draws : Draws} {phase : Phase}

-- The rollback writes a record only if it holds what the pass wrote, and writes
-- what the pass replaced; what a user set meanwhile stays; and what the pass
-- wrote and no user changed is restored when the rollback is through.
structure Sound (s : Accounts) (event : Event) (t : Accounts) : Prop where
  restores : event = .restore → ∀ row ∈ s.phase.todo.head?,
    (∃ upgraded ∈ s.users row.userId, s.migrated row.userId = some (row.secret,upgraded)) ∧ t.users row.userId = some row.secret
  keeps : (∀ id value, event ≠ .set id value) → ∀ id, s.changed id = true → t.users id = s.users id
  completes : event = .finish → t.phase = .completed →
    ∀ id stored upgraded, s.migrated id = some (stored,upgraded) → s.changed id = false → t.users id = some stored

-- The rollback begins when the pass is through with what it read and no row
-- is of a user who has changed his secret since; while it runs the pass reads
-- no more, and no user changes his secret whose row is still to be written.
def Careful (plan : Plan) (s : Accounts) : Event → Prop
  | .rollback => s.fetched = [] ∧ s.holding = none ∧ ∀ row ∈ s.batch plan, s.changed row.userId = false
  | .set id _ => ∀ row ∈ s.phase.todo, row.userId ≠ id
  | .fetch _ => ¬s.phase.Running
  | _ => True

-- While the rollback runs: each row still to be written is of a record that
-- holds what the pass wrote, and, when all rows were read, only these are left.
structure Restoring (plan : Plan) (s : Accounts) (read : ℕ) (todo : List Row) : Prop where
  rest : s.fetched = [] ∧ s.holding = none
  one : (todo.map (·.userId)).Nodup
  holds : ∀ row ∈ todo, s.changed row.userId = false ∧
    ∃ upgraded ∈ s.users row.userId, s.migrated row.userId = some (row.secret,upgraded)
  covers : Accounts.completes plan.batchSize read plan.rollback = true →
    ∀ id stored upgraded, s.migrated id = some (stored,upgraded) → s.changed id = false →
      s.users id = some stored ∨ ∃ row ∈ todo, row.userId = id

theorem batch_sublist (plan : Plan) (s : Accounts) : (s.batch plan).Sublist s.rows := by
  unfold batch
  split
  · exact List.Sublist.refl _
  all_goals
    split
    · exact List.Sublist.refl _
    · exact List.take_sublist _ _

theorem limited_complete {limit : ℕ} (complete : (if limit = 0 then rows else rows.take limit).length = 0 ∨
    (if limit = 0 then rows else rows.take limit).length < limit) : (if limit = 0 then rows else rows.take limit) = rows := by
  split at complete
  · rename_i none_
    rw [if_pos none_]
  · rename_i some_
    rw [if_neg some_,List.take_of_length_le]
    rw [List.length_take] at complete
    omega

theorem batch_complete (complete : Accounts.completes plan.batchSize (s.batch plan).length plan.rollback = true) :
    s.batch plan = s.rows := by
  unfold batch at complete ⊢
  cases mode : plan.rollback with
  | migrateMfaSecrets => rfl
  | runRollback | standalone =>
    simp only [mode,Accounts.completes,Bool.or_eq_true,decide_eq_true_eq] at complete
    exact limited_complete complete

theorem restoring_start (backed : Backed s) (careful : Careful plan s .rollback) :
    Restoring plan { s with phase := phase } (s.batch plan).length (s.batch plan) := by
  obtain ⟨queue,free,same⟩ := careful
  have rows := (batch_sublist plan s).subset
  refine ⟨⟨queue,free⟩,((batch_sublist plan s).map _).nodup backed.one,?_,?_⟩
  · intro row listed
    rcases backed.written row (rows listed) with ⟨_,busy⟩ | done
    · rw [free] at busy
      cases busy
    · exact ⟨same row listed,done (same row listed)⟩
  · intro complete id stored upgraded done _
    obtain ⟨row,listed,named⟩ := backed.backed id _ done
    exact .inr ⟨row,by rw [batch_complete complete]; exact listed,named⟩

theorem restoring_set (restoring : Restoring plan s read todo) (careful : ∀ row ∈ todo, row.userId ≠ id)
    (taken : s.set id value = some t) : Restoring plan t read todo := by
  unfold Accounts.set at taken
  split at taken
  · cases taken
    refine ⟨restoring.rest,restoring.one,?_,?_⟩
    · intro row listed
      simp only [put,Function.update_of_ne (careful row listed)]
      exact restoring.holds row listed
    · intro complete other stored upgraded done same
      by_cases changed : other = id
      · simp [changed] at same
      · simp only [put,Function.update_of_ne changed] at same ⊢
        exact restoring.covers complete other stored upgraded done same
  · cases taken

theorem restoring_restore (restoring : Restoring plan s read (row :: todo)) :
    Restoring plan { s.put row.userId (some row.secret) with phase := phase } read todo := by
  have one := restoring.one
  rw [List.map_cons,List.nodup_cons] at one
  refine ⟨restoring.rest,one.2,?_,?_⟩
  · intro other listed
    have distinct : other.userId ≠ row.userId := fun same => one.1 (List.mem_map.mpr ⟨other,listed,same⟩)
    simp only [put,Function.update_of_ne distinct]
    exact restoring.holds other (List.mem_cons_of_mem _ listed)
  · intro complete id stored upgraded done same
    by_cases mine : id = row.userId
    · subst mine
      obtain ⟨_,written,_,before⟩ := restoring.holds row List.mem_cons_self
      have equal : s.migrated row.userId = some (stored,upgraded) := done
      cases before.symm.trans equal
      exact .inl (by simp [put])
    · simp only [put,Function.update_of_ne mine]
      obtain restored | ⟨other,listed,named⟩ := restoring.covers complete id stored upgraded done same
      · exact .inl restored
      · rcases List.mem_cons.mp listed with rfl | later
        · exact absurd named.symm mine
        · exact .inr ⟨other,later,named⟩

def At (plan : Plan) (s : Accounts) : Phase → Prop
  | .idle => Backed s
  | .restoring read todo | .removing read todo _ _ => Restoring plan s read todo
  | .completed | .failed => True

def Valid (plan : Plan) (s : Accounts) : Prop := Tracked s ∧ At plan s s.phase

theorem set_phase (taken : s.set id value = some t) : t.phase = s.phase := by
  unfold Accounts.set at taken
  split at taken
  · cases taken
    rfl
  · cases taken

theorem valid_within (valid : Valid plan s) (tracked : Tracked t) (same : t.phase = s.phase) (idle : Backed s → Backed t)
    (running : s.phase.Running → ∀ read, Restoring plan s read s.phase.todo → Restoring plan t read s.phase.todo) :
    Valid plan t := by
  obtain ⟨_,here⟩ := valid
  refine ⟨tracked,?_⟩
  rw [same]
  cases phase : s.phase with
  | idle =>
    rw [phase] at here
    exact idle here
  | restoring read todo =>
    rw [phase] at here running
    exact running trivial read here
  | removing read todo row modified =>
    rw [phase] at here running
    exact running trivial read here
  | completed => trivial
  | failed => trivial

theorem valid_set (valid : Valid plan s) (careful : Careful plan s (.set id value)) (taken : s.set id value = some t) :
    Valid plan t := by
  refine valid_within valid (tracked_set valid.1 taken) (set_phase taken) ?_ ?_
  · intro backed
    exact backed_set backed taken
  · intro _ read restoring
    exact restoring_set restoring careful taken

theorem fetch_phase (taken : s.fetch id = some t) : t.phase = s.phase := by
  obtain ⟨_,_,_,rfl⟩ := fetch_some taken
  rfl

theorem valid_fetch (valid : Valid plan s) (careful : Careful plan s (.fetch id)) (taken : s.fetch id = some t) :
    Valid plan t := by
  refine valid_within valid (tracked_fetch valid.1 taken) (fetch_phase taken) ?_ ?_
  · intro backed
    exact backed_fetch backed taken
  · intro running
    exact absurd running careful

theorem backup_phase (s : Accounts) (id : ℕ) (secret : Stored) (tool : Tool) : (s.backup id secret tool).phase = s.phase := by
  cases tool <;> rfl

theorem next_phase (taken : s.next plan draws = some t) : t.phase = s.phase := by
  obtain ⟨id,stored,_,_,_,rfl | ⟨_,rfl⟩⟩ := next_some taken
  · rfl
  · exact backup_phase s id stored _

theorem write_phase (taken : s.write = some t) : t.phase = s.phase := by
  obtain ⟨_,_,_,_,⟨_,rfl⟩ | ⟨_,rfl⟩⟩ := write_some taken
  · rfl
  · rfl

theorem valid_next (valid : Valid plan s) (taken : s.next plan draws = some t) : Valid plan t := by
  refine valid_within valid (tracked_next valid.1 taken) (next_phase taken) ?_ ?_
  · intro backed
    exact backed_next backed taken
  · intro _ read restoring
    obtain ⟨_,_,_,_,queue,_⟩ := next_some taken
    rw [restoring.rest.1] at queue
    cases queue

theorem valid_write (valid : Valid plan s) (taken : s.write = some t) : Valid plan t := by
  refine valid_within valid (tracked_write valid.1 taken) (write_phase taken) ?_ ?_
  · intro backed
    exact backed_write backed taken
  · intro _ read restoring
    obtain ⟨_,_,_,held,_⟩ := write_some taken
    rw [restoring.rest.2] at held
    cases held

theorem rollback_some (taken : s.startRollback plan = some t) :
    s.phase = .idle ∧ t = { s with phase := .restoring (s.batch plan).length (s.batch plan) } := by
  unfold startRollback at taken
  split at taken
  · rename_i idle
    cases taken
    exact ⟨idle,rfl⟩
  · cases taken

theorem valid_rollback (valid : Valid plan s) (careful : Careful plan s .rollback) (taken : s.startRollback plan = some t) :
    Valid plan t := by
  obtain ⟨tracked,here⟩ := valid
  obtain ⟨idle,rfl⟩ := rollback_some taken
  rw [idle] at here
  exact ⟨tracked.fewer rfl rfl rfl fun _ waits => waits,restoring_start here careful⟩

theorem restore_some (taken : s.restore = some t) : ∃ read row todo, s.phase = .restoring read (row :: todo) ∧
    t = { s.put row.userId (some row.secret) with
      phase := .removing read todo row (s.users row.userId != some row.secret) } := by
  unfold restore at taken
  split at taken
  · rename_i read row todo phase
    cases taken
    exact ⟨read,row,todo,phase,rfl⟩
  · cases taken

theorem valid_restore (valid : Valid plan s) (taken : s.restore = some t) : Valid plan t := by
  obtain ⟨tracked,here⟩ := valid
  obtain ⟨read,row,todo,phase,rfl⟩ := restore_some taken
  rw [phase] at here
  have restoring : Restoring plan s read (row :: todo) := here
  have quiet : s.pending = [] := by simp [pending,restoring.rest.1,restoring.rest.2]
  refine ⟨⟨tracked_put tracked _ _,?_,?_⟩,restoring_restore restoring⟩
  · intro id stored waits
    have waits : (id,stored) ∈ s.pending := waits
    rw [quiet] at waits
    cases waits
  · intro id stored waits
    have waits : (id,stored) ∈ s.pending := waits
    rw [quiet] at waits
    cases waits

theorem remove_some (taken : s.remove plan = some t) : ∃ read row todo modified, ∃ rows : List Row,
    s.phase = .removing read todo row modified ∧ t = { s with rows,phase := .restoring read todo } := by
  unfold remove at taken
  split at taken
  · rename_i read todo row modified phase
    cases taken
    exact ⟨read,row,todo,modified,_,phase,rfl⟩
  · cases taken

theorem valid_remove (valid : Valid plan s) (taken : s.remove plan = some t) : Valid plan t := by
  obtain ⟨tracked,here⟩ := valid
  obtain ⟨read,row,todo,modified,rows,phase,rfl⟩ := remove_some taken
  rw [phase] at here
  have restoring : Restoring plan s read todo := here
  exact ⟨tracked.fewer rfl rfl rfl fun _ waits => waits,
    restoring.rest,restoring.one,restoring.holds,restoring.covers⟩

theorem finish_some (taken : s.finish plan = some t) : ∃ read, s.phase = .restoring read [] ∧
    t = { s with phase := if completes plan.batchSize read plan.rollback then .completed else .failed } := by
  unfold finish at taken
  split at taken
  · rename_i read phase
    cases taken
    exact ⟨read,phase,rfl⟩
  · cases taken

theorem valid_finish (valid : Valid plan s) (taken : s.finish plan = some t) : Valid plan t := by
  obtain ⟨read,_,rfl⟩ := finish_some taken
  refine ⟨valid.1.fewer rfl rfl rfl fun _ waits => waits,?_⟩
  cases through : completes plan.batchSize read plan.rollback with
  | true => trivial
  | false => trivial

theorem sound_quiet (same : t.users = s.users) (restoring : event ≠ .restore) (finishing : event ≠ .finish) :
    Sound s event t where
  restores event := absurd event restoring
  keeps _ _ _ := by rw [same]
  completes event := absurd event finishing

theorem sound_write (valid : Valid plan s) (taken : s.write = some t) : Sound s .write t where
  restores event := by cases event
  keeps := by
    intro _ other changed
    obtain ⟨id,stored,upgraded,held,⟨holds,rfl⟩ | ⟨_,rfl⟩⟩ := write_some taken
    · have distinct : other ≠ id := by
        intro same
        subst same
        exact valid.1.apart other stored (by rw [held_pending held]; exact List.mem_cons_self) changed holds
      simp only [put,Function.update_of_ne distinct]
    · rfl
  completes event := by cases event

theorem sound_restore (valid : Valid plan s) (taken : s.restore = some t) : Sound s .restore t := by
  obtain ⟨_,here⟩ := valid
  obtain ⟨read,row,todo,phase,rfl⟩ := restore_some taken
  rw [phase] at here
  have restoring : Restoring plan s read (row :: todo) := here
  obtain ⟨same,written⟩ := restoring.holds row List.mem_cons_self
  refine ⟨?_,?_,nofun⟩
  · intro _ first listed
    rw [phase] at listed
    cases listed
    exact ⟨written,by simp [put]⟩
  · intro _ id changed
    have distinct : id ≠ row.userId := by
      intro same
      subst same
      rw [same] at changed
      cases changed
    simp only [put,Function.update_of_ne distinct]

theorem sound_finish (valid : Valid plan s) (taken : s.finish plan = some t) : Sound s .finish t := by
  obtain ⟨_,here⟩ := valid
  obtain ⟨read,phase,rfl⟩ := finish_some taken
  rw [phase] at here
  have restoring : Restoring plan s read [] := here
  refine ⟨nofun,fun _ _ _ => rfl,?_⟩
  intro _ through id stored upgraded done same
  have complete : completes plan.batchSize read plan.rollback = true := by
    by_contra short
    simp [short] at through
  obtain restored | ⟨row,listed,_⟩ := restoring.covers complete id stored upgraded done same
  · exact restored
  · cases listed

theorem valid_step (valid : Valid plan s) (taken : s.step plan event = some t) (careful : Careful plan s event) :
    Valid plan t ∧ Sound s event t := by
  cases event with
  | set id value =>
    refine ⟨valid_set valid careful taken,nofun,?_,nofun⟩
    intro other
    exact absurd rfl (other id value)
  | fetch id =>
    refine ⟨valid_fetch valid careful taken,sound_quiet ?_ nofun nofun⟩
    obtain ⟨_,_,_,rfl⟩ := fetch_some taken
    rfl
  | next draws =>
    refine ⟨valid_next valid taken,sound_quiet ?_ nofun nofun⟩
    obtain ⟨id,stored,_,_,_,rfl | ⟨_,rfl⟩⟩ := next_some taken
    · rfl
    · exact backup_users s id stored _
  | write => exact ⟨valid_write valid taken,sound_write valid taken⟩
  | rollback =>
    refine ⟨valid_rollback valid careful taken,sound_quiet ?_ nofun nofun⟩
    obtain ⟨_,rfl⟩ := rollback_some taken
    rfl
  | restore => exact ⟨valid_restore valid taken,sound_restore valid taken⟩
  | remove =>
    refine ⟨valid_remove valid taken,sound_quiet ?_ nofun nofun⟩
    obtain ⟨_,_,_,_,_,_,rfl⟩ := remove_some taken
    rfl
  | finish => exact ⟨valid_finish valid taken,sound_finish valid taken⟩

theorem valid_started (plan : Plan) (users : ℕ → Option Stored) : Valid plan (started users) := by
  refine ⟨⟨?_,nofun,nofun⟩,?_⟩
  · intro id secret holds
    have holds : users id = some secret := holds
    simp [started,holds]
  · exact ⟨.nil,nofun,nofun,nofun,.nil,nofun,nofun,nofun,nofun⟩

theorem rollback_sound (plan : Plan) (users : ℕ → Option Stored) (events : List Event)
    (careful : Machine.Each (Accounts.step plan) (fun s event _ => Careful plan s event) (started users) events) :
    Machine.Each (Accounts.step plan) Sound (started users) events := by
  refine Machine.each_of (valid_started plan users) ?_ careful
  intro s event t valid taken fine
  exact valid_step valid taken fine

instance : ∀ event, Decidable (Careful plan s event)
  | .rollback => inferInstanceAs (Decidable (_ ∧ _ ∧ ∀ row ∈ _,_))
  | .set _ _ => inferInstanceAs (Decidable (∀ row ∈ _,_))
  | .fetch _ => inferInstanceAs (Decidable (¬_))
  | .next _ | .write | .restore | .remove | .finish => .isTrue trivial

def sampleUsers (id : ℕ) : Option Stored := if id = 0 then some sampleSecret else none

def enrolledSecret : Stored := MfaService.wrapEnvelope plainAead sampleDraws sampleKey (List.replicate 20 7)

-- Another user enrols between the pass and the rollback.
def undone : List Event :=
  [.fetch 0,.next sampleDraws,.write,.set 1 (some enrolledSecret),.rollback,.restore,.remove,.finish]

theorem rollback_sound_undone :
    (Machine.run (Accounts.step ⟨plainAead,sampleKey,.migrateMfaSecrets,1000⟩) (started sampleUsers) undone).map
        (fun s => (s.phase,s.rows,s.users 0,s.users 1)) = some (.completed,[],some sampleSecret,some enrolledSecret) ∧
      Machine.Each (Accounts.step ⟨plainAead,sampleKey,.migrateMfaSecrets,1000⟩) Sound (started sampleUsers) undone :=
  ⟨by decide +kernel,rollback_sound _ _ undone (by decide +kernel)⟩

-- The user enrols again between the pass and the rollback.
def reenrolled : List Event :=
  [.fetch 0,.next sampleDraws,.write,.set 0 (some enrolledSecret),.rollback,.restore]

def KeepsFirst (s : Accounts) : Event → Accounts → Prop
  | .set _ _,_ => True
  | _,t => s.changed 0 = true → t.users 0 = s.users 0

instance : ∀ s event t, Decidable (KeepsFirst s event t)
  | _,.set _ _,_ => .isTrue trivial
  | _,.fetch _,_ | _,.next _,_ | _,.write,_ | _,.rollback,_ | _,.restore,_ | _,.remove,_ | _,.finish,_ =>
    inferInstanceAs (Decidable (_ → _))

theorem Sound.keepsFirst (sound : Sound s event t) : KeepsFirst s event t := by
  cases event with
  | set id value => trivial
  | fetch id | next draws | write | rollback | restore | remove | finish => exact sound.keeps nofun 0

theorem reenrolment_overwritten :
    ¬Machine.Each (Accounts.step ⟨plainAead,sampleKey,.migrateMfaSecrets,1000⟩) Sound (started sampleUsers) reenrolled := by
  intro each
  have first := each.mono fun _ _ _ sound => sound.keepsFirst
  exact absurd first (by decide +kernel)

end Pezhwan.Migration
