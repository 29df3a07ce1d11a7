import Pezhwan.Auth.Watch
import Pezhwan.Auth.Total

namespace Pezhwan.Auth
open Atomic Prog Config

-- The operations that write the lock of an account.
inductive Attempt where
  | loginPassword (input : AuthEngine.LoginInput)
  | resetPassword (input : AuthEngine.ResetPasswordInput)
  | resetPasswordWithToken (input : AuthEngine.ResetWithTokenInput)

def attempted (engine : AuthEngine) : Attempt → Program Unit
  | .loginPassword input => (fun _ => ()) <$> engine.loginPassword input
  | .resetPassword input => (fun _ => ()) <$> engine.resetPassword input
  | .resetPasswordWithToken input => (fun _ => ()) <$> engine.resetPasswordWithToken input

def UserDoc.lock (user : UserDoc) : String × Nat × Option Nat := (user.tenantId,user.failedLoginAttempts,user.loginLockUntil)

-- Whatever else goes on leaves the locks alone, and time passes.
structure Aloof (s t : World) : Prop where
  unique : Unique s → Unique t
  kept : ∀ userId account, seen UserDoc.lock userId s = some account → seen UserDoc.lock userId t = some account
  later : s.base.now ≤ t.base.now

def setLock (tenantId : String) (attempts : Nat) (lockAt : Option Nat) (account : String × Nat × Option Nat) :
    String × Nat × Option Nat := if account.1 = tenantId then (account.1,attempts,lockAt) else account

-- The account an attempt has read, when it was not locked and its password check
-- has failed.
def failing (engine : AuthEngine) (input : AuthEngine.LoginInput) (checked looked : World × World) : Option UserDoc :=
  (engine.userFor (AuthEngine.byHandle input.email input.phone) looked.1.users).filter fun user =>
    !user.loginLockUntil.any (fun until_ => checked.1.base.now < until_) &&
      ((truthy user.passwordHash).filter isArgon2Hash).any fun passwordHash =>
        !engine.platform.verifyPassword input.password passwordHash

-- With these moves made, the next action records a failed attempt: on which
-- account, and at what time it failed.
def recording (engine : AuthEngine) : Attempt → List (World × World) → Option (UserDoc × Nat)
  | .loginPassword input,[checked,looked] =>
    ((failing engine input checked looked).filter fun user => user.failedLoginAttempts + 1 < 5).map fun user =>
      (user,checked.1.base.now)
  | .loginPassword input,[timed,checked,looked] =>
    ((failing engine input checked looked).filter fun user => 5 ≤ user.failedLoginAttempts + 1).map fun user =>
      (user,timed.1.base.now)
  | _,_ => none

def lockAt (user : UserDoc) (now : Nat) : Option Nat :=
  if 5 ≤ user.failedLoginAttempts + 1 then some (now + 15 * 60000) else none

structure Records (engine : AuthEngine) (memory : List (World × World)) (user : UserDoc) (time : Nat) (s t : World) : Prop where
  known : ∃ newer looked, memory = newer ++ [looked] ∧ seen UserDoc.lock user.id looked.1 = some user.lock
  own : user.tenantId = engine.tenantId
  moved : Rewritten UserDoc.lock user.id (setLock engine.tenantId (user.failedLoginAttempts + 1) (lockAt user time)) s t

def Clearing (engine : AuthEngine) (s t : World) : Prop :=
  ∃ userId, Rewritten UserDoc.lock userId (setLock engine.tenantId 0 none) s t

def LockRule (engine : AuthEngine) (attempt : Attempt) (memory : List (World × World)) (s t : World) : Prop :=
  t.base.now = s.base.now ∧ match if s.base.fault = none then recording engine attempt memory else none with
    | some (user,time) => Records engine memory user time s t
    | none => Steady UserDoc.lock s t ∨ Clearing engine s t

def invalidError : Error := .pezhwan .authentication "Invalid credentials" "INVALID_CREDENTIALS"

-- An attempt that has answered so after a failed check has been recorded.
def Answered (engine : AuthEngine) (attempt : Attempt) (result : Except Error Unit) (moves : List (World × World)) : Prop :=
  ∀ input newer checked looked user, attempt = .loginPassword input → result = .error invalidError →
    moves = newer ++ [checked,looked] → failing engine input checked looked = some user →
    ∃ move older time, moves = move :: older ∧ move.1.base.fault = none ∧ recording engine attempt older = some (user,time)

section
variable {engine : AuthEngine} {attempt : Attempt} {input : AuthEngine.LoginInput} {memory : List (World × World)}

theorem rule_untouched (idle : recording engine attempt memory = none) (same : Untouched s t) :
    LockRule engine attempt memory s t := by
  refine ⟨same.2,?_⟩
  rw [idle,ite_self]
  exact .inl (steady_untouched same)

theorem rule_refused (refused : w.base.fault = some e) : LockRule engine attempt memory w w := by
  refine ⟨rfl,?_⟩
  rw [refused,if_neg (by simp)]
  exact .inl (steady_untouched (untouched_refl w))

theorem recording_short (few : memory.length < 2) : recording engine attempt memory = none := by
  match attempt,memory,few with
  | .loginPassword _,[],_ | .loginPassword _,[_],_ => rfl
  | .resetPassword _,_,_ | .resetPasswordWithToken _,_,_ => cases memory <;> rfl

theorem recording_long (many : 4 ≤ memory.length) : recording engine attempt memory = none := by
  match attempt,memory,many with
  | .loginPassword _,_ :: _ :: _ :: _ :: _,_ => rfl
  | .resetPassword _,_,_ | .resetPasswordWithToken _,_,_ => cases memory <;> rfl

theorem recording_passed (passed : failing engine input checked looked = none) (newer : List (World × World)) :
    recording engine (.loginPassword input) (newer ++ [checked,looked]) = none := by
  match newer with
  | [] => simp [recording,passed]
  | [_] => simp [recording,passed]
  | _ :: _ :: _ => exact recording_long (by simp)

theorem recording_failing (due : recording engine (.loginPassword input) memory = some (user,time)) :
    ∃ newer checked looked, memory = newer ++ [checked,looked] ∧ failing engine input checked looked = some user ∧
      memory.head?.map (fun move => move.1.base.now) = some time := by
  match memory with
  | [] | [_] => cases due
  | [checked,looked] =>
    obtain ⟨found,filtered,same⟩ := Option.map_eq_some_iff.mp due
    cases same
    exact ⟨[],checked,looked,rfl,(Option.filter_eq_some_iff.mp filtered).1,rfl⟩
  | [timed,checked,looked] =>
    obtain ⟨found,filtered,same⟩ := Option.map_eq_some_iff.mp due
    cases same
    exact ⟨[timed],checked,looked,rfl,(Option.filter_eq_some_iff.mp filtered).1,rfl⟩
  | _ :: _ :: _ :: _ :: _ => cases due

theorem rewritten_lock {f : UserDoc → UserDoc} (unique : Unique w) (tenantId : String) (attempts : Nat) (lockAt : Option Nat)
    (sets : ∀ doc, (f doc).id = doc.id ∧ (f doc).tenantId = doc.tenantId ∧ (f doc).failedLoginAttempts = attempts ∧
      (f doc).loginLockUntil = lockAt) (userId : String) :
    Rewritten UserDoc.lock userId (setLock tenantId attempts lockAt) w
      (w.updateUser (fun user => user.id = userId && user.tenantId = tenantId) f) := by
  apply rewritten_updateUser (fun doc => decide (doc.tenantId = tenantId)) unique
  · intro doc
    exact (sets doc).1
  · intro doc
    obtain ⟨_,tenant,count,lock⟩ := sets doc
    by_cases inside : doc.tenantId = tenantId <;> simp [UserDoc.lock,setLock,inside,tenant,count,lock]

theorem acts_found {post : Except Error (Option UserDoc) → List (World × World) → Prop} (lookup : UserLookupInput)
    (idle : recording engine attempt memory = none)
    (served : ∀ w, Unique w → post (.ok (engine.userFor lookup w.users)) ((w,w) :: memory))
    (refused : ∀ w e, e ≠ invalidError → post (.error e) ((w,w) :: memory)) :
    (withAccountStore (engine.findUser lookup)).Acts Unique i (LockRule engine attempt) memory post := by
  apply Acts.bind
  apply Acts.attempt
  apply acts_read
  · intro w unique _
    exact ⟨rule_untouched idle (untouched_refl w),served w unique⟩
  · intro w e _ fault
    exact ⟨rule_refused fault,refused w _ (by simp [invalidError])⟩

theorem acts_updated {post : Except Error Unit → List (World × World) → Prop} (userId : String) (f : World → UserDoc → UserDoc)
    (served : ∀ w, Unique w → w.base.fault = none →
      LockRule engine attempt memory w (w.updateUser (fun doc => doc.id = userId && doc.tenantId = engine.tenantId) (f w)) ∧
      post (.ok ()) ((w,w.updateUser (fun doc => doc.id = userId && doc.tenantId = engine.tenantId) (f w)) :: memory))
    (refused : ∀ w e, e ≠ invalidError → post (.error e) ((w,w) :: memory)) :
    (withAccountStore (engine.updateUser userId f)).Acts Unique i (LockRule engine attempt) memory post := by
  apply Acts.bind
  apply Acts.attempt
  apply acts_write
  · exact served
  · intro w e _ fault
    exact ⟨rule_refused fault,refused w _ (by simp [invalidError])⟩

theorem acts_passed {rest : Program α} {post : Except Error α → List (World × World) → Prop} (user : UserDoc)
    (passed : failing engine input checked looked = none) (keeps : rest.Keeps Untouched)
    (ended : ∀ result newer, post result (newer ++ [checked,looked])) :
    (withAccountStore (engine.clearFailedLogin user) >>= fun _ => rest).Acts Unique i
      (LockRule engine (.loginPassword input)) [checked,looked] post := by
  have idle : recording engine (.loginPassword input) [checked,looked] = none := recording_passed passed []
  apply Acts.bind
  apply acts_updated
  · intro w unique _
    refine ⟨⟨rfl,?_⟩,?_⟩
    · rw [idle,ite_self]
      refine .inr ⟨user.id,rewritten_lock unique engine.tenantId 0 none ?_ user.id⟩
      intro doc
      exact ⟨rfl,rfl,rfl,rfl⟩
    · apply Acts.keeps keeps (Yields.any rest)
      · intro moves s t same
        apply rule_untouched ?_ same
        rw [List.append_cons]
        exact recording_passed passed _
      · intro moves _
        rw [List.append_cons]
        exact ⟨fun e => ended _ _,fun value _ => ended _ _⟩
  · exact fun w e _ => ended _ [(w,w)]

theorem recording_soon (failed : failing engine input checked looked = some user) (few : user.failedLoginAttempts + 1 < 5) :
    recording engine (.loginPassword input) [checked,looked] = some (user,checked.1.base.now) := by
  simp [recording,failed,Option.filter,few]

theorem recording_late (timed : World × World) (failed : failing engine input checked looked = some user)
    (full : 5 ≤ user.failedLoginAttempts + 1) :
    recording engine (.loginPassword input) [checked,looked] = none ∧
      recording engine (.loginPassword input) [timed,checked,looked] = some (user,timed.1.base.now) := by
  have many : ¬ user.failedLoginAttempts + 1 < 5 := by omega
  simp only [recording,failed,Option.filter,many,full,decide_true,decide_false,if_true]
  exact ⟨rfl,rfl⟩

theorem rule_recorded {f : UserDoc → UserDoc} (newer : List (World × World))
    (recorded : recording engine attempt (newer ++ [looked]) = some (user,time))
    (known : seen UserDoc.lock user.id looked.1 = some user.lock) (own : user.tenantId = engine.tenantId) (unique : Unique w)
    (healthy : w.base.fault = none) (sets : ∀ doc, (f doc).id = doc.id ∧ (f doc).tenantId = doc.tenantId ∧
      (f doc).failedLoginAttempts = user.failedLoginAttempts + 1 ∧ (f doc).loginLockUntil = lockAt user time) :
    LockRule engine attempt (newer ++ [looked]) w
      (w.updateUser (fun doc => doc.id = user.id && doc.tenantId = engine.tenantId) f) := by
  refine ⟨rfl,?_⟩
  rw [if_pos healthy,recorded]
  exact ⟨⟨newer,looked,rfl,known⟩,own,rewritten_lock unique _ _ _ sets _⟩

theorem acts_recorded {post : Except Error Unit → List (World × World) → Prop} (user : UserDoc)
    (failed : failing engine input checked looked = some user)
    (known : seen UserDoc.lock user.id looked.1 = some user.lock) (own : user.tenantId = engine.tenantId)
    (served : ∀ move older time, recording engine (.loginPassword input) older = some (user,time) →
      move.1.base.fault = none → post (.ok ()) (move :: older)) (refused : ∀ e moves, e ≠ invalidError → post (.error e) moves) :
    (withAccountStore (engine.recordFailedLogin user)).Acts Unique i (LockRule engine (.loginPassword input))
      [checked,looked] post := by
  apply Acts.bind
  apply Acts.attempt
  apply Acts.bind
  by_cases full : 5 ≤ user.failedLoginAttempts + 1
  · rw [if_pos full]
    apply Acts.bind
    apply Acts.zoom_atomic
    intro c _
    obtain ⟨waits,due⟩ := recording_late (c,c) failed full
    refine ⟨rule_untouched waits (untouched_refl c),?_⟩
    apply Acts.pure
    apply acts_write
    · intro w unique healthy
      refine ⟨?_,served _ _ _ due healthy⟩
      apply rule_recorded [(c,c),checked] due known own unique healthy
      intro doc
      exact ⟨rfl,rfl,rfl,(if_pos full).symm⟩
    · intro w e _ fault
      exact ⟨rule_refused fault,refused _ _ (by simp [invalidError])⟩
  · rw [if_neg full]
    have due := recording_soon failed (Nat.lt_of_not_le full)
    apply Acts.pure
    apply acts_write
    · intro w unique healthy
      refine ⟨?_,served _ _ _ due healthy⟩
      apply rule_recorded [checked] due known own unique healthy
      intro doc
      exact ⟨rfl,rfl,rfl,(if_neg full).symm⟩
    · intro w e _ fault
      exact ⟨rule_refused fault,refused _ _ (by simp [invalidError])⟩

theorem untouched_isEnabled (userId : String) : (withAccountStore (isEnabled userId)).Keeps Untouched := by
  apply Keeps.bind (Keeps.attempt (untouched_read _))
  intro result
  cases result with
  | ok value => exact Keeps.pure _
  | error e =>
    dsimp only
    split
    · exact Keeps.throw _
    · exact Keeps.throw _

theorem untouched_completeLogin (engine : AuthEngine) (user : UserDoc) (authMethod : AuthMethod) (applicationId : String)
    (device : DeviceInfo) : (engine.completeLogin user authMethod applicationId device).Keeps Untouched := by
  apply Keeps.bind (untouched_openSession _ _ _ _ _)
  intro created
  exact Keeps.bind (untouched_mintTokens _ _ _ _ _ _) fun tokens => Keeps.pure _

theorem failing_found (checked looked : World × World)
    (found : engine.userFor (AuthEngine.byHandle input.email input.phone) looked.1.users = some user) :
    failing engine input checked looked = if user.loginLockUntil.any (fun until_ => checked.1.base.now < until_) then none
      else if ((truthy user.passwordHash).filter isArgon2Hash).any fun passwordHash =>
        !engine.platform.verifyPassword input.password passwordHash then some user else none := by
  unfold failing
  rw [found,Option.filter_some]
  by_cases locked : user.loginLockUntil.any (fun until_ => decide (checked.1.base.now < until_)) = true
  · rw [if_pos locked,locked,Bool.not_true,Bool.false_and,if_neg (by simp)]
  · rw [if_neg locked,eq_false_of_ne_true locked,Bool.not_false,Bool.true_and]

theorem acts_loginPassword (engine : AuthEngine) (input : AuthEngine.LoginInput) (i : CallId) :
    (engine.loginPassword input).Acts Unique i (LockRule engine (.loginPassword input)) [] fun result moves =>
      ∀ newer checked looked user, result = .error invalidError → moves = newer ++ [checked,looked] →
        failing engine input checked looked = some user → ∃ move older time, moves = move :: older ∧
          move.1.base.fault = none ∧ recording engine (.loginPassword input) older = some (user,time) := by
  apply Acts.bind
  apply acts_found
  · exact recording_short (by simp)
  · intro looked unique
    cases found : engine.userFor (AuthEngine.byHandle input.email input.phone) looked.users with
    | none =>
      intro newer checked last user _ split
      have lengths := congrArg List.length split
      simp at lengths
    | some user =>
      have known := congrArg (Option.map UserDoc.lock) (userById_stored unique (userFor_stored found))
      have own := userFor_inTenant found
      apply Acts.bind
      apply Acts.zoom_atomic
      intro c _
      refine ⟨rule_untouched (recording_short (by simp)) (untouched_refl c),?_⟩
      have check := failing_found (c,c) (looked,looked) found
      have answered : ∀ {result : Except Error LoginResult} (more : List (World × World)),
          failing engine input (c,c) (looked,looked) = none → ∀ newer checked last other, result = .error invalidError →
          more ++ [(c,c),(looked,looked)] = newer ++ [checked,last] → failing engine input checked last = some other →
          ∃ move older time, more ++ [(c,c),(looked,looked)] = move :: older ∧ move.1.base.fault = none ∧
            recording engine (.loginPassword input) older = some (other,time) := by
        intro result more passed newer checked last other _ split failed
        have same := List.append_inj_right' split rfl
        simp only [List.cons.injEq,and_true] at same
        obtain ⟨rfl,rfl⟩ := same
        rw [passed] at failed
        cases failed
      dsimp only
      split
      · rename_i locked
        exact answered [] (check.trans (if_pos locked))
      · rename_i free
        have check := check.trans (if_neg free)
        cases hashed : (truthy user.passwordHash).filter isArgon2Hash with
        | none =>
          rw [hashed] at check
          exact answered [] check
        | some passwordHash =>
          rw [hashed,Option.any_some] at check
          by_cases matched : engine.platform.verifyPassword input.password passwordHash = true
          · rw [matched,Bool.not_true,if_neg (by simp)] at check
            simp only [matched,if_true]
            split
            · apply acts_passed user check
              · apply Keeps.bind
                · unfold AuthEngine.mfaGateway
                  split
                  · exact untouched_isEnabled _
                  · exact Keeps.pure _
                · intro pending
                  split
                  · exact Keeps.pure _
                  · exact untouched_completeLogin _ _ _ _ _
              · exact fun result newer => answered newer check
            · exact answered [] check
          · rw [eq_false_of_ne_true matched,Bool.not_false,if_pos rfl] at check
            simp only [matched]
            apply Acts.bind
            apply acts_recorded user check known own
            · intro move older time due healthy newer checked last other _ split failed
              obtain ⟨more,past,first,rfl,known,_⟩ := recording_failing due
              rw [← List.cons_append] at split
              have same := List.append_inj_right' split rfl
              simp only [List.cons.injEq,and_true] at same
              obtain ⟨rfl,rfl⟩ := same
              cases known.symm.trans failed
              exact ⟨move,_,time,rfl,healthy,due⟩
            · intro e moves different newer checked last other same
              exact absurd (Except.error.inj same) different
  · intro w e other newer checked last user same
    exact absurd (Except.error.inj same) other

theorem acts_attempted (engine : AuthEngine) (i : CallId) (attempt : Attempt) :
    (attempted engine attempt).Acts Unique i (LockRule engine attempt) [] (Answered engine attempt) := by
  have resets : (∀ input, attempt ≠ .loginPassword input) → ∀ memory, recording engine attempt memory = none := by
    intro other memory
    cases attempt with
    | loginPassword input => exact absurd rfl (other input)
    | _ => cases memory <;> rfl
  have admits : (∀ input, attempt ≠ .loginPassword input) → ∀ user looked older salt s t,
      Stores engine user user.reset looked older salt s t → LockRule engine attempt (salt :: (looked,looked) :: older) s t := by
    intro other user looked older salt s t stores
    obtain ⟨newHash,rfl⟩ := stores.stored
    refine ⟨rfl,?_⟩
    rw [resets other,ite_self]
    refine .inr ⟨user.id,rewritten_lock stores.unique engine.tenantId 0 none ?_ user.id⟩
    intro doc
    exact ⟨rfl,rfl,rfl,rfl⟩
  cases attempt with
  | loginPassword input =>
    apply Acts.bind
    apply (acts_loginPassword engine input i).mono
    intro result moves recorded
    cases result with
    | ok value => exact fun _ _ _ _ _ _ same => nomatch same
    | error e =>
      intro input' newer checked looked user same refused
      cases same
      exact recorded newer checked looked user (congrArg Except.error (Except.error.inj refused))
  | resetPassword input =>
    have other : ∀ login, Attempt.resetPassword input ≠ .loginPassword login := fun login same => nomatch same
    apply Acts.bind
    apply (acts_resetPassword (fun moves s t same => rule_untouched (resets other moves) same) (admits other) input).mono
    intro result moves _
    cases result <;> exact fun _ _ _ _ _ same => nomatch same
  | resetPasswordWithToken input =>
    have other : ∀ login, Attempt.resetPasswordWithToken input ≠ .loginPassword login := fun login same => nomatch same
    apply Acts.bind
    apply (acts_resetPasswordWithToken (fun moves s t same => rule_untouched (resets other moves) same) (admits other)
      input).mono
    intro result moves _
    cases result <;> exact fun _ _ _ _ _ same => nomatch same

end

end Pezhwan.Auth
