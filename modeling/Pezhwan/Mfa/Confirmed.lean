import Pezhwan.Auth.Watch
import Pezhwan.Mfa.Setup
import Pezhwan.Migration.Envelope

-- What an enabled second factor rests on, over calls that overlap.
namespace Pezhwan.Mfa
open Atomic Prog Config Auth Script Numeric
open Migration.MfaService (encryptSecret decryptSecret)

abbrev Journal := List (Event CallId Call World)

-- Whether the factor is on, and the secret.
def factor (userId : String) (w : World) : Option (Bool × Option String) :=
  (userById userId w).map fun user => (user.mfaEnabled,user.mfaSecret)

def enabled (userId : String) (w : World) : Bool := (factor userId w).any Prod.fst

def secretOf (userId : String) (w : World) : Option String := (factor userId w).bind Prod.snd

def Step.factors : Step → Bool × Option String → Bool × Option String
  | .switchOff,_ => (false,none)
  | .switchOn,held => (true,held.2)
  | .storeSecret wrapped,held => (held.1,some wrapped)
  | _,held => held

-- The hashes of the backup codes that are stored for the user, used or not.
def stored (userId : String) (w : World) : List String :=
  w.backupCodes.filterMap fun row => if row.userId = userId then some row.codeHash else none

-- The surroundings leave the factor of the user to the calls.
structure Aside (userId : String) (s t : World) : Prop where
  factor : factor userId t = factor userId s
  rows : (t.backupCodes.filter fun row => row.userId = userId) = s.backupCodes.filter fun row => row.userId = userId

-- How far the writes to the secret and the codes have come.
inductive Stage where
  | mixed
  | begun (setup : CallId)
  | emptied (setup : CallId)
  | ready (setup : CallId)
  deriving DecidableEq, Repr

section
variable (service : MfaService) (userId : String)

def calls (call : Call) (memory : List (World × World)) : Option Step :=
  match steps service userId call (told memory) with
  | .error step => some step
  | .ok _ => none

def Stage.after (i : CallId) (w : World) : Step → Stage → Stage
  | .storeSecret _,_ => .begun i
  | .dropCodes,stage => if stage = .begun i then .emptied i else .mixed
  | .storeCodes codes,stage => if stage = .emptied i ∧ stored userId w = codes.map service.platform.sha256 then .ready i else .mixed
  | .switchOff,_ | .removeCodes,_ => .mixed
  | _,stage => stage

def stage : Journal → Stage
  | [] => .mixed
  | event :: past =>
    if event.before.base.fault = none then
      match calls service userId event.call (mine event.who past) with
      | some step => (stage past).after service userId event.who event.after step
      | none => stage past
    else stage past

-- Secrets and codes are written, and codes removed, while the factor is off. It is
-- switched on when the secret is the one that was confirmed and the last writes
-- were those of one setup.
def Admits (past : Journal) (memory : List (World × World)) (w : World) : Step → Prop
  | .storeSecret _ | .dropCodes | .storeCodes _ | .removeCodes => enabled userId w = false
  | .switchOn => (∃ setup ∈ past, stage service userId past = .ready setup.who) ∧
      secretOf userId w = (told memory).head?.bind (secretOf userId)
  | _ => True

def Admits.decide (past : Journal) (memory : List (World × World)) (w : World) :
    (step : Step) → Decidable (Admits service userId past memory w step)
  | .storeSecret _ | .dropCodes | .storeCodes _ | .removeCodes => decEq _ _
  | .switchOn => inferInstanceAs (Decidable ((∃ setup ∈ past, stage service userId past = .ready setup.who) ∧ _ = _))
  | .look | .time | .rows | .draw | .totp _ | .mark _ | .expire | .touch | .clear | .count | .lock | .switchOff => .isTrue trivial

instance (past : Journal) (memory : List (World × World)) (w : World) (step : Step) :
    Decidable (Admits service userId past memory w step) := Admits.decide service userId past memory w step

def Tidy : Journal → Prop
  | [] => True
  | event :: past => (event.before.base.fault = none → ∀ step ∈ calls service userId event.call (mine event.who past),
      Admits service userId past (mine event.who past) event.before step) ∧ Tidy past

def Tidy.decide : (past : Journal) → Decidable (Tidy service userId past)
  | [] => .isTrue trivial
  | event :: past =>
    have : Decidable (∀ step ∈ calls service userId event.call (mine event.who past),
        Admits service userId past (mine event.who past) event.before step) :=
      match asked : calls service userId event.call (mine event.who past) with
      | none => .isTrue (by simp)
      | some step => decidable_of_iff (Admits service userId past (mine event.who past) event.before step) (by simp)
    @instDecidableAnd _ _ inferInstance (decide past)

instance (past : Journal) : Decidable (Tidy service userId past) := Tidy.decide service userId past

-- A right code for the secret is presented to `enable`.
def presents (secret : String) (past : Journal) (event : Event CallId Call World) : Bool :=
  match event.call with
  | .enable code => calls service userId event.call (mine event.who past) = some (.totp secret) &&
      service.platform.verifyTotp code secret (event.before.base.now/1000)
  | _ => false

def presented (secret : String) : Journal → Bool
  | [] => false
  | event :: past => presents service userId secret past event || presented secret past

end

section
variable {service : MfaService} {userId : String} {call : Call} {memory : List (World × World)} {past : Journal}
  {event : Event CallId Call World} {s t : World}

theorem calls_some : calls service userId call memory = some step ↔ steps service userId call (told memory) = .error step := by
  unfold calls
  cases steps service userId call (told memory) with
  | error other => simp
  | ok pair => simp

theorem told_length (memory : List (World × World)) : (told memory).length = memory.length := by simp [told]

theorem presented_at {later earlier : Journal} (presents_ : presents service userId secret earlier event = true) :
    presented service userId secret (later ++ event :: earlier) = true := by
  induction later with
  | nil => simp [presented,presents_]
  | cons newest later ih => simp [presented,ih]

theorem attempt_calls {attempt : Attempt} (asked : calls service userId (.attempt attempt) memory = some step) :
    step.plain = true ∨ ∃ row, step = .mark row := by
  rcases bind_error.mp (calls_some.mp asked) with here | ⟨_,_,_,halted⟩
  · rcases found_script attempt _ _ here with plain | ⟨row,_,_,marks,_⟩
    · exact .inl plain
    · exact .inr ⟨row,marks⟩
  · cases halted

-- Which call makes a write, and when.
def Fits (service : MfaService) (userId : String) (call : Call) (memory : List (World × World)) : Step → Prop
  | .storeSecret wrapped' => call = .beginSetup ∧ memory.length = 3 ∧ wrapped' = wrapped service (told memory)
  | .dropCodes => call = .beginSetup ∧ memory.length = 5
  | .storeCodes codes => call = .beginSetup ∧ memory.length = 6 ∧ codes = batch service (told memory)
  | .switchOn => ∃ code look clock wrapped secret, call = .enable code ∧ told memory = [look,clock] ∧
      secretOf userId look = some wrapped ∧ service.platform.unwrap wrapped = .ok secret ∧
      service.platform.verifyTotp code secret (clock.base.now/1000) = true ∧
      steps service userId (.enable code) [look] = .error (.totp secret)
  | _ => True

theorem calls_fits {step : Step} (asked : calls service userId call memory = some step) : Fits service userId call memory step := by
  cases call with
  | attempt attempt =>
    rcases attempt_calls asked with plain | ⟨row,rfl⟩
    · cases step <;> first | exact trivial | cases plain
    · trivial
  | beginSetup =>
    obtain ⟨_,rfl | rfl | ⟨long,rfl⟩ | ⟨long,rfl⟩ | ⟨long,rfl⟩⟩ := setup_asks (calls_some.mp asked)
    · trivial
    · trivial
    · exact ⟨rfl,told_length memory ▸ long,rfl⟩
    · exact ⟨rfl,told_length memory ▸ long⟩
    · exact ⟨rfl,told_length memory ▸ long,rfl⟩
  | enable code =>
    rcases enable_asks (calls_some.mp asked) with rfl | ⟨secret,rfl⟩ | ⟨rfl,look,clock,wrapped,secret,split,held,opened,right_,read⟩
    · trivial
    · trivial
    · refine ⟨code,look,clock,wrapped,secret,rfl,split,?_,opened,right_,read⟩
      rw [← held]
      unfold secretOf factor
      cases userById userId look <;> rfl

theorem factor_update (step : Step) (i : CallId) (w : World) :
    factor userId (step.update service userId i w) = (factor userId w).map step.factors := by
  rw [factor,factor,userById_update,Option.map_map,Option.map_map]
  congr 1
  funext user
  cases step with
  | clear =>
    by_cases failed : 0 < user.mfaFailedAttempts
    · simp [Step.factors,Step.rewrites,failed]
    · simp [Step.factors,Step.rewrites,failed]
  | look | time | rows | totp | draw | mark | removeCodes | dropCodes | storeCodes | expire | touch | count | lock | switchOff
  | switchOn | storeSecret => rfl

theorem insertBackupCodes_rows (codes : List String) (w : World) : ∃ rows : List BackupCodeDoc,
    (insertBackupCodes service userId i codes w).2.backupCodes = w.backupCodes ++ rows ∧
    (∀ row ∈ rows, row.userId = userId ∧ row.tenantId = service.tenantId) ∧
    ((insertBackupCodes service userId i codes w).1 = false → rows.length < codes.length) := by
  induction codes generalizing w with
  | nil => exact ⟨[],by simp [insertBackupCodes],by simp,by simp [insertBackupCodes]⟩
  | cons code rest ih =>
    unfold insertBackupCodes
    dsimp only
    split
    · exact ⟨[],by simp,by simp,by simp⟩
    · obtain ⟨rows,added,own,short⟩ := ih {w with
        base := {w.base with draws := w.base.draws ++ [i]},
        backupCodes := w.backupCodes ++ [⟨service.platform.random.fresh w.base.draws.length,userId,service.tenantId,
          service.platform.sha256 code,none⟩]}
      refine ⟨_ :: rows,by rw [added,List.append_assoc]; rfl,?_,?_⟩
      · intro row member
        rcases List.mem_cons.mp member with rfl | later
        · exact ⟨rfl,rfl⟩
        · exact own row later
      · intro stopped
        exact Nat.succ_lt_succ (short stopped)

-- The rows of the user are those of this tenant.
def Own (service : MfaService) (userId : String) (w : World) : Prop :=
  ∀ row ∈ w.backupCodes, row.userId = userId → row.tenantId = service.tenantId

theorem own_update (own : Own service userId w) (step : Step) (i : CallId) : Own service userId (step.update service userId i w) := by
  cases step with
  | mark row =>
    intro other member user
    rcases Collection.mem_updateOne member with old | ⟨old,found,rfl⟩
    · exact own other old user
    · exact own old (List.mem_of_find?_eq_some found) user
  | removeCodes | dropCodes => exact fun row member user => own row (List.mem_filter.mp member).1 user
  | storeCodes codes =>
    obtain ⟨rows,added,fresh,_⟩ := @insertBackupCodes_rows service userId i codes w
    intro row member user
    change row ∈ (insertBackupCodes service userId i codes w).2.backupCodes at member
    rw [added] at member
    rcases List.mem_append.mp member with old | new
    · exact own row old user
    · exact (fresh row new).2
  | look | time | rows | totp | draw | expire | touch | clear | count | lock | switchOff | switchOn | storeSecret => exact own

-- The steps that change which codes are stored.
def Step.restocks : Step → Bool
  | .removeCodes | .dropCodes | .storeCodes _ => true
  | _ => false

theorem stored_update {step : Step} (keeps : step.restocks = false) (i : CallId) (w : World) :
    stored userId (step.update service userId i w) = stored userId w := by
  cases step with
  | mark row =>
    have pairs : ∀ docs : List BackupCodeDoc, docs.filterMap (fun row => if row.userId = userId then some row.codeHash else none) =
        (docs.map fun row => (row.userId,row.codeHash)).filterMap fun pair => if pair.1 = userId then some pair.2 else none := by
      intro docs
      rw [List.filterMap_map]
      rfl
    unfold stored
    rw [pairs,pairs]
    congr 1
    change (Collection.updateOne _ _ w.backupCodes).map _ = _
    apply Collection.map_updateOne
    exact fun row => rfl
  | removeCodes | dropCodes | storeCodes => cases keeps
  | look | time | rows | totp | draw | expire | touch | clear | count | lock | switchOff | switchOn | storeSecret => rfl

theorem stored_dropped (own : Own service userId w) (i : CallId) :
    stored userId (Step.update service userId i .dropCodes w) = [] := by
  apply List.filterMap_eq_nil_iff.mpr
  intro row member
  obtain ⟨listed,kept⟩ := List.mem_filter.mp member
  by_cases user : row.userId = userId
  · simp [user,own row listed user] at kept
  · rw [if_neg user]

theorem stored_incomplete {codes : List String} (empty : stored userId w = [])
    (stopped : (insertBackupCodes service userId i codes w).1 = false) :
    stored userId (insertBackupCodes service userId i codes w).2 ≠ codes.map service.platform.sha256 := by
  obtain ⟨rows,added,_,short⟩ := @insertBackupCodes_rows service userId i codes w
  intro complete
  have lengths := congrArg List.length complete
  unfold stored at empty lengths
  rw [added,List.filterMap_append,empty,List.nil_append,List.length_map] at lengths
  have few : (rows.filterMap fun row => if row.userId = userId then some row.codeHash else none).length ≤ rows.length :=
    List.length_filterMap_le _ _
  have less := short stopped
  omega

def Stage.setup : Stage → Option CallId
  | .mixed => none
  | .begun i | .emptied i | .ready i => some i

-- A setup that has stored its secret and all its codes.
def Complete (service : MfaService) (userId : String) (memory : List (World × World)) : Prop :=
  ∃ move older, memory = move :: older ∧ older.length = 6 ∧ move.1.base.fault = none ∧ stored userId move.1 = [] ∧
    stored userId move.2 = (batch service (told older)).map service.platform.sha256

-- What is stored by the stage of the setup, and that it is confirmed when the
-- factor is on.
structure Provided (service : MfaService) (userId : String) (past : Journal) (w : World) : Prop where
  own : Own service userId w
  on : enabled userId w = true → ∃ i, stage service userId past = .ready i ∧
    presented service userId (generated service (told (mine i past))) past = true
  doer : ∀ i, (stage service userId past).setup = some i → ∃ event ∈ past, event.who = i ∧ event.call = .beginSetup ∧
    4 ≤ (mine i past).length
  sealed : ∀ i, (stage service userId past).setup = some i → ∀ held, factor userId w = some held →
    held.2 = some (wrapped service (told (mine i past)))
  emptied : ∀ i, stage service userId past = .emptied i → 6 ≤ (mine i past).length ∧ stored userId w = []
  ready : ∀ i, stage service userId past = .ready i → Complete service userId (mine i past) ∧
    stored userId w = (batch service (told (mine i past))).map service.platform.sha256

-- Everyone is on one call.
def Steadfast (past : Journal) : Prop := ∀ a ∈ past, ∀ b ∈ past, a.who = b.who → a.call = b.call

theorem told_grows (i : CallId) : ∃ more, told (mine i (event :: past)) = told (mine i past) ++ more := by
  by_cases own : event.who = i
  · exact ⟨[event.before],by rw [mine_cons,if_pos own,told_cons]⟩
  · exact ⟨[],by rw [mine_cons,if_neg own,List.append_nil]⟩

theorem mine_grows (i : CallId) : (mine i past).length ≤ (mine i (event :: past)).length := by
  by_cases own : event.who = i
  · simp [own]
  · simp [own]

theorem complete_still (asked : calls service userId event.call (mine event.who past) = some step)
    (call : i = event.who → event.call = .beginSetup) (complete : Complete service userId (mine i past)) :
    mine i (event :: past) = mine i past := by
  by_cases own : event.who = i
  · obtain ⟨move,older,shape,long,_⟩ := complete
    rw [call own.symm] at asked
    have short := (setup_asks (calls_some.mp asked)).1
    rw [own,shape,told_length,List.length_cons,long] at short
    omega
  · rw [mine_cons,if_neg own]

section
variable (provided : Provided service userId past event.before) (steadfast : Steadfast (event :: past))
include provided steadfast

theorem doer_call (setup : (stage service userId past).setup = some i) (own : i = event.who) : event.call = .beginSetup := by
  obtain ⟨other,listed,who,call,_⟩ := provided.doer i setup
  rw [← call]
  exact steadfast event List.mem_cons_self other (List.mem_cons_of_mem _ listed) (own.symm.trans who.symm)

theorem provided_later (asked : calls service userId event.call (mine event.who past) = some step)
    (stays : stage service userId (event :: past) = stage service userId past) (own : Own service userId event.after)
    (on : enabled userId event.after = true → enabled userId event.before = true ∨ ∃ i, stage service userId past = .ready i ∧
      presented service userId (generated service (told (mine i past))) past = true)
    (secret : ∀ held, factor userId event.after = some held → ∃ old, factor userId event.before = some old ∧ held.2 = old.2)
    (rows : stored userId event.after = stored userId event.before) : Provided service userId (event :: past) event.after := by
  have same : ∀ i, stage service userId past = .ready i → mine i (event :: past) = mine i past := by
    intro i ready
    exact complete_still asked (doer_call provided steadfast (by rw [ready]; rfl)) (provided.ready i ready).1
  refine ⟨own,?_,?_,?_,?_,?_⟩
  · intro now
    have before : ∃ i, stage service userId past = .ready i ∧
        presented service userId (generated service (told (mine i past))) past = true := by
      rcases on now with already | shown
      · exact provided.on already
      · exact shown
    obtain ⟨i,ready,shown⟩ := before
    refine ⟨i,stays.trans ready,?_⟩
    rw [same i ready,presented,shown,Bool.or_true]
  · intro i setup
    rw [stays] at setup
    obtain ⟨other,listed,who,call,long⟩ := provided.doer i setup
    exact ⟨other,List.mem_cons_of_mem _ listed,who,call,Nat.le_trans long (mine_grows i)⟩
  · intro i setup held found
    rw [stays] at setup
    obtain ⟨old,before,equal⟩ := secret held found
    obtain ⟨_,_,_,_,long⟩ := provided.doer i setup
    obtain ⟨more,grown⟩ := @told_grows past event i
    rw [equal,provided.sealed i setup old before,grown,wrapped_append (by rw [told_length]; omega)]
  · intro i empty
    rw [stays] at empty
    obtain ⟨long,none⟩ := provided.emptied i empty
    exact ⟨Nat.le_trans long (mine_grows i),rows.trans none⟩
  · intro i ready
    rw [stays] at ready
    rw [same i ready,rows]
    exact provided.ready i ready

omit provided steadfast in
theorem stage_refused (fault : event.before.base.fault ≠ none) :
    stage service userId (event :: past) = stage service userId past := if_neg fault

omit provided steadfast in
theorem stage_made {step : Step} (healthy : event.before.base.fault = none)
    (asked : calls service userId event.call (mine event.who past) = some step) :
    stage service userId (event :: past) = (stage service userId past).after service userId event.who event.after step := by
  rw [stage,if_pos healthy,asked]

section
variable {step : Step} (healthy : event.before.base.fault = none)
  (asked : calls service userId event.call (mine event.who past) = some step) {j : CallId}
  (made : event.after = step.update service userId j event.before)
include healthy asked made

theorem provided_plain (stays : ∀ stage : Stage, stage.after service userId event.who event.after step = stage)
    (keeps : ∀ held, step.factors held = held) (restocks : step.restocks = false) :
    Provided service userId (event :: past) event.after := by
  have same : factor userId event.after = factor userId event.before := by
    rw [made,factor_update]
    cases factor userId event.before with
    | none => rfl
    | some held => exact congrArg some (keeps held)
  apply provided_later provided steadfast asked ((stage_made healthy asked).trans (stays _))
  · rw [made]
    exact own_update provided.own step j
  · intro now
    left
    unfold enabled at now ⊢
    rw [← same]
    exact now
  · intro held found
    exact ⟨held,same ▸ found,rfl⟩
  · rw [made]
    exact stored_update restocks j event.before

omit steadfast healthy asked in
-- With nothing known of the writes and the factor off.
theorem provided_mixed (mixed : stage service userId (event :: past) = .mixed) (off : enabled userId event.after = false) :
    Provided service userId (event :: past) event.after := by
  have own : Own service userId event.after := by
    rw [made]
    exact own_update provided.own step j
  refine ⟨own,?_,?_,?_,?_,?_⟩
  · intro on
    rw [off] at on
    cases on
  · intro i setup
    rw [mixed] at setup
    cases setup
  · intro i setup
    rw [mixed] at setup
    cases setup
  · intro i empty
    rw [mixed] at empty
    cases empty
  · intro i ready
    rw [mixed] at ready
    cases ready

omit provided steadfast healthy asked in
theorem still_off (off : enabled userId event.before = false) (keeps : ∀ held, (step.factors held).1 = held.1) :
    enabled userId event.after = false := by
  unfold enabled at off ⊢
  rw [made,factor_update]
  cases held : factor userId event.before with
  | none => rfl
  | some held =>
    rw [held] at off
    change (step.factors _).1 = false
    rw [keeps]
    exact off

end

omit steadfast in
-- A write of a setup that leaves the factor off.
theorem provided_setup {step : Step} {j : CallId} (made : event.after = step.update service userId j event.before)
    (disabled : enabled userId event.after = false) (call : event.call = .beginSetup) (long : 3 ≤ (mine event.who past).length)
    {next : Stage} (now : stage service userId (event :: past) = next) (owned : next.setup = some event.who)
    (sealed : ∀ held, factor userId event.before = some held →
      (step.factors held).2 = some (wrapped service (told (mine event.who past))))
    (emptied : next = .emptied event.who → 5 ≤ (mine event.who past).length ∧ stored userId event.after = [])
    (ready : next = .ready event.who → Complete service userId (mine event.who (event :: past)) ∧
      stored userId event.after = (batch service (told (mine event.who (event :: past)))).map service.platform.sha256) :
    Provided service userId (event :: past) event.after := by
  subst now
  refine ⟨made ▸ own_update provided.own step j,?_,?_,?_,?_,?_⟩
  · intro on
    rw [disabled] at on
    cases on
  · intro i setup
    cases owned.symm.trans setup
    exact ⟨event,List.mem_cons_self,rfl,call,by rw [mine_cons,if_pos rfl,List.length_cons]; omega⟩
  · intro i setup held found
    cases owned.symm.trans setup
    rw [made,factor_update] at found
    obtain ⟨old,before,rfl⟩ := Option.map_eq_some_iff.mp found
    rw [mine_cons,if_pos rfl,told_cons,wrapped_append (by rw [told_length]; omega)]
    exact sealed old before
  · intro i same
    have setup : some i = some event.who := by rw [← owned,same]; rfl
    cases setup
    obtain ⟨enough,none⟩ := emptied same
    exact ⟨by rw [mine_cons,if_pos rfl,List.length_cons]; omega,none⟩
  · intro i same
    have setup : some i = some event.who := by rw [← owned,same]; rfl
    cases setup
    exact ready same

omit steadfast in
-- The secret of a setup is stored.
theorem provided_secret (healthy : event.before.base.fault = none) {sealed : String}
    (asked : calls service userId event.call (mine event.who past) = some (.storeSecret sealed)) {j : CallId}
    (made : event.after = (Step.storeSecret sealed).update service userId j event.before)
    (off : enabled userId event.before = false) : Provided service userId (event :: past) event.after := by
  obtain ⟨call,long,rfl⟩ := calls_fits asked
  exact provided_setup provided made (still_off made off fun _ => rfl) call (by omega) (stage_made healthy asked) rfl
    (fun _ _ => rfl) nofun nofun

omit steadfast in
-- Its codes are dropped and stored, right after the secret.
theorem provided_dropped (healthy : event.before.base.fault = none)
    (asked : calls service userId event.call (mine event.who past) = some .dropCodes) {j : CallId}
    (made : event.after = Step.dropCodes.update service userId j event.before)
    (off : enabled userId event.before = false) : Provided service userId (event :: past) event.after := by
  obtain ⟨call,long⟩ := calls_fits asked
  have now := stage_made healthy asked
  have disabled := still_off made off fun _ => rfl
  unfold Stage.after at now
  dsimp only at now
  split at now
  · rename_i begun
    apply provided_setup provided made disabled call (by omega) now rfl
    · intro old before
      exact provided.sealed _ (by rw [begun]; rfl) old before
    · intro _
      refine ⟨by omega,?_⟩
      rw [made]
      exact stored_dropped provided.own j
    · exact nofun
  · exact provided_mixed provided made now disabled

omit steadfast in
theorem provided_codes (healthy : event.before.base.fault = none) {codes : List String}
    (asked : calls service userId event.call (mine event.who past) = some (.storeCodes codes)) {j : CallId}
    (made : event.after = (Step.storeCodes codes).update service userId j event.before)
    (off : enabled userId event.before = false) : Provided service userId (event :: past) event.after := by
  obtain ⟨call,long,rfl⟩ := calls_fits asked
  have now := stage_made healthy asked
  have disabled := still_off made off fun _ => rfl
  unfold Stage.after at now
  dsimp only at now
  split at now
  · rename_i filled
    obtain ⟨emptied,complete⟩ := filled
    apply provided_setup provided made disabled call (by omega) now rfl
    · intro old before
      exact provided.sealed _ (by rw [emptied]; rfl) old before
    · exact nofun
    · intro _
      rw [mine_cons,if_pos rfl,told_cons,batch_append (by rw [told_length]; omega)]
      exact ⟨⟨_,_,rfl,long,healthy,(provided.emptied _ emptied).2,complete⟩,complete⟩
  · exact provided_mixed provided made now disabled

theorem provided_on (opens : ∀ secret entropy, service.platform.unwrap (service.wrapEnvelope secret entropy) = .ok secret)
    (healthy : event.before.base.fault = none)
    (asked : calls service userId event.call (mine event.who past) = some .switchOn) {j : CallId}
    (made : event.after = Step.switchOn.update service userId j event.before)
    (admits : Admits service userId past (mine event.who past) event.before .switchOn) :
    Provided service userId (event :: past) event.after := by
  obtain ⟨code,look,clock,sealed,secret,call,split,held,opened,right_,reads⟩ := calls_fits asked
  obtain ⟨⟨setup,_,ready⟩,same⟩ := admits
  rw [split] at same
  have stays : stage service userId (event :: past) = stage service userId past := stage_made healthy asked
  apply provided_later provided steadfast asked stays
  · rw [made]
    exact own_update provided.own _ j
  · intro _
    right
    refine ⟨setup.who,ready,?_⟩
    -- the secret that was confirmed is the one of the setup
    obtain ⟨old,before,secret_⟩ := Option.bind_eq_some_iff.mp (same.trans held)
    have stored_ := provided.sealed setup.who (by rw [ready]; rfl) old before
    rw [secret_] at stored_
    cases stored_
    obtain ⟨_,_,_,_,long⟩ := provided.doer setup.who (by rw [ready]; rfl)
    rw [generated_wrapped opens (by rw [told_length]; omega)] at opened
    cases opened
    have last : told (mine event.who past) = [look] ++ clock :: [] := split
    obtain ⟨newer,move,older,own,first,rfl⟩ := told_split last
    obtain ⟨later,event',earlier,rfl,who,rfl,moves⟩ := mine_split newer own
    apply presented_at
    have asked' : event'.call = .enable code := by
      rw [← call]
      exact steadfast event' (List.mem_cons_of_mem _ (by simp)) event List.mem_cons_self who
    unfold presents
    rw [asked',who,moves]
    dsimp only
    rw [calls_some.mpr (first ▸ reads)]
    simp [right_]
  · intro after found
    rw [made,factor_update] at found
    obtain ⟨old,before,rfl⟩ := Option.map_eq_some_iff.mp found
    exact ⟨old,before,rfl⟩
  · rw [made]
    exact stored_update rfl j event.before

theorem provided_event (opens : ∀ secret entropy, service.platform.unwrap (service.wrapEnvelope secret entropy) = .ok secret)
    (doing : Doing service userId event.call (mine event.who past) event.before event.after)
    (tidy : Tidy service userId (event :: past)) : Provided service userId (event :: past) event.after := by
  obtain ⟨⟨step,j,next,moved⟩,_⟩ := doing
  have asked := calls_some.mpr next
  by_cases healthy : event.before.base.fault = none
  · have made : event.after = step.update service userId j event.before := moved.trans (perform_accepted fun _ => healthy)
    have admits := tidy.1 healthy step asked
    cases step with
    | storeSecret sealed => exact provided_secret provided healthy asked made admits
    | dropCodes => exact provided_dropped provided healthy asked made admits
    | storeCodes codes => exact provided_codes provided healthy asked made admits
    | switchOn => exact provided_on provided steadfast opens healthy asked made admits
    | removeCodes => exact provided_mixed provided made (stage_made healthy asked) (still_off made admits fun _ => rfl)
    | switchOff =>
      apply provided_mixed provided made (stage_made healthy asked)
      unfold enabled
      rw [made,factor_update]
      cases factor userId event.before <;> rfl
    | look | time | rows | totp | draw | mark | expire | touch | clear | count | lock =>
      exact provided_plain provided steadfast healthy asked made (fun _ => rfl) (fun _ => rfl) rfl
  · have same : factor userId event.after = factor userId event.before ∧ event.after.backupCodes = event.before.backupCodes := by
      by_cases stored_ : step.stored = true
      · rw [moved,perform_refused fun accepted => healthy (accepted stored_)]
        exact ⟨rfl,rfl⟩
      · rw [moved,perform_accepted fun stored' => absurd stored' stored_]
        cases step <;> first | exact ⟨rfl,rfl⟩ | exact absurd rfl stored_
    apply provided_later provided steadfast asked (stage_refused healthy)
    · unfold Own
      rw [same.2]
      exact provided.own
    · intro now
      left
      unfold enabled at now ⊢
      rw [← same.1]
      exact now
    · intro held found
      exact ⟨held,same.1 ▸ found,rfl⟩
    · unfold stored
      rw [same.2]

end

theorem Provided.aside (provided : Provided service userId past s) (aside : Aside userId s t) : Provided service userId past t := by
  have rows : stored userId t = stored userId s := by
    have filtered : ∀ w : World, stored userId w =
        (w.backupCodes.filter fun row => row.userId = userId).filterMap fun row =>
          if row.userId = userId then some row.codeHash else none := by
      intro w
      rw [List.filterMap_filter]
      unfold stored
      congr 1
      funext row
      by_cases user : row.userId = userId <;> simp [user]
    rw [filtered,filtered,aside.rows]
  refine ⟨?_,?_,provided.doer,?_,?_,?_⟩
  · intro row member user
    have listed : row ∈ s.backupCodes.filter fun row => row.userId = userId := by
      rw [← aside.rows]
      exact List.mem_filter.mpr ⟨member,by simpa using user⟩
    exact provided.own row (List.mem_filter.mp listed).1 user
  · intro now
    apply provided.on
    unfold enabled at now ⊢
    rw [← aside.factor]
    exact now
  · intro i setup held found
    exact provided.sealed i setup held (aside.factor ▸ found)
  · intro i empty
    rw [rows]
    exact provided.emptied i empty
  · intro i ready
    rw [rows]
    exact provided.ready i ready

theorem provided_along {initial : World}
    (opens : ∀ secret entropy, service.platform.unwrap (service.wrapEnvelope secret entropy) = .ok secret)
    (along : Along (Doing service userId) past) (linked : Linked (Aside userId) initial past s) (steadfast : Steadfast past)
    (tidy : Tidy service userId past) (off : enabled userId initial = false) (own : Own service userId initial) :
    Provided service userId past s := by
  have still : ∀ {past : Journal} {a b}, Relation.ReflTransGen (Aside userId) a b → Provided service userId past a →
      Provided service userId past b := by
    intro past a b moves provided
    induction moves with
    | refl => exact provided
    | tail _ step ih => exact ih.aside step
  induction past generalizing s with
  | nil =>
    apply still linked
    refine ⟨own,?_,?_,?_,?_,?_⟩
    · intro on
      rw [off] at on
      cases on
    · exact fun i setup => nomatch setup
    · exact fun i setup => nomatch setup
    · exact fun i empty => nomatch empty
    · exact fun i ready => nomatch ready
  | cons event past ih =>
    have before := ih along.2 linked.2 (fun a one b two => steadfast a (List.mem_cons_of_mem _ one) b (List.mem_cons_of_mem _ two))
      tidy.2
    exact still linked.1 (provided_event before steadfast opens along.1 tidy)

theorem complete_length (complete : Complete service userId memory) : memory.length = 7 := by
  obtain ⟨move,older,rfl,long,_⟩ := complete
  rw [List.length_cons,long]

theorem acts_finishes (service : MfaService) (userId : String) (i : CallId) :
    (program service userId .beginSetup).Acts Anyhow i (fun _ _ _ => True) [] fun result moves =>
      ∀ e, result = .error e → ¬ Complete service userId moves := by
  have short : ∀ {moves : List (World × World)}, moves.length ≠ 7 → ∀ {result : Except Error Answer} e, result = .error e →
      ¬ Complete service userId moves := fun few _ _ _ complete => few (complete_length complete)
  unfold program beginSetup
  dsimp only
  rw [map_bind]
  apply Acts.bind
  apply acts_read
  · intro w _ _
    refine ⟨trivial,?_⟩
    dsimp only
    cases userById userId w with
    | none => exact short (by simp)
    | some user =>
      dsimp only
      split
      · exact short (by simp)
      · rw [map_bind]
        apply Acts.bind
        apply Acts.zoom_atomic
        intro d1 _
        refine ⟨trivial,?_⟩
        dsimp only
        rw [map_bind]
        apply Acts.bind
        apply Acts.zoom_atomic
        intro d2 _
        refine ⟨trivial,?_⟩
        dsimp only
        rw [map_bind]
        apply Acts.bind
        apply acts_write
        · intro s _ _
          refine ⟨trivial,?_⟩
          dsimp only
          rw [map_bind]
          apply Acts.bind
          apply Acts.zoom_atomic
          intro d3 _
          refine ⟨trivial,?_⟩
          dsimp only
          rw [map_bind]
          apply Acts.bind
          apply acts_write
          · intro dropped _ _
            refine ⟨trivial,?_⟩
            dsimp only
            rw [map_bind]
            apply Acts.bind
            apply acts_op
            · intro last _ healthy inserted t ran
              refine ⟨trivial,?_⟩
              simp only [Except.ok.injEq] at ran
              cases inserted with
              | true => exact fun e failed => nomatch failed
              | false =>
                rintro e _ ⟨move,older,shape,_,_,empty,complete⟩
                cases shape
                have stopped := congrArg Prod.fst ran
                have after := congrArg Prod.snd ran
                dsimp only at stopped after empty complete
                rw [← after] at complete
                exact stored_incomplete empty stopped complete
            · intro last e _ why
              refine ⟨trivial,?_⟩
              rintro _ _ ⟨move,older,shape,_,healthy,_⟩
              cases shape
              rcases why with fault | impossible
              · rw [healthy] at fault
                cases fault
              · cases impossible
          · intro dropped e _ _
            exact ⟨trivial,short (by simp)⟩
        · intro s e _ _
          exact ⟨trivial,short (by simp)⟩
  · intro w e _ _
    exact ⟨trivial,short (by simp)⟩

theorem complete_returned {other : World → World → Prop} {initial : World} {c : Config CallId Call World Error Answer}
    (traced : Traced (program service userId) other initial past c) (listed : event ∈ past) (call : event.call = .beginSetup)
    (complete : Complete service userId (mine event.who past)) : ∃ result,
      c.Finished event.who .beginSetup (.ok (.setup (some result))) ∧
      result.secret = service.encodeBase32 (generated service (told (mine event.who past))) ∧
      result.backupCodes = batch service (told (mine event.who past)) := by
  have kept := traced_kept (acts_program service userId) (fun _ _ _ => trivial) traced
  have finishes : Kept Anyhow (fun _ _ _ _ => True) (fun call result moves => call = .beginSetup → ∀ e, result = .error e →
      ¬ Complete service userId moves) past c := by
    apply traced_kept _ (fun _ _ _ => trivial) traced
    intro i call
    by_cases setup : call = .beginSetup
    · subst setup
      exact (acts_finishes service userId i).mono fun result moves holds _ => holds
    · exact Acts.free (fun _ _ _ => trivial) fun _ _ same => absurd same setup
  obtain ⟨p,running⟩ := traced_call traced listed
  rw [call] at running
  have long : (told (mine event.who past)).length = 7 := by rw [told_length,complete_length complete]
  have acts := kept.busy event.who .beginSetup p running
  have ends := finishes.busy event.who .beginSetup p running
  cases p with
  | act update next =>
    obtain ⟨⟨step,_,asked,_⟩,_⟩ := (acts c.state trivial).1
    have few := (setup_asks asked).1
    omega
  | done result =>
    cases result with
    | error e => exact absurd complete (ends rfl e rfl)
    | ok value =>
      obtain ⟨result,rfl,secret,codes⟩ := setup_ended long (acts value rfl).1
      exact ⟨result,running,secret,codes⟩

-- An enabled factor is a confirmed one, provided that the secret and the codes are
-- only written, and codes only removed, while it is off, and that it is switched
-- on with the secret that was confirmed after the writes of one setup.
theorem enabled_confirmed (opens : ∀ secret entropy, service.platform.unwrap (service.wrapEnvelope secret entropy) = .ok secret)
    {initial : World} (off : enabled userId initial = false) (own : Own service userId initial)
    {c : Config CallId Call World Error Answer} (traced : Traced (program service userId) (Aside userId) initial past c)
    (tidy : Tidy service userId past) (on : enabled userId c.state = true) : ∃ sealed secret i result,
      secretOf userId c.state = some sealed ∧ service.platform.unwrap sealed = .ok secret ∧
      presented service userId secret past = true ∧ c.Finished i .beginSetup (.ok (.setup (some result))) ∧
      result.secret = service.encodeBase32 secret ∧
      stored userId c.state = result.backupCodes.map service.platform.sha256 := by
  have kept := traced_kept (acts_program service userId) (fun _ _ _ => trivial) traced
  have steadfast : Steadfast past := traced_steadfast traced
  have provided := provided_along opens kept.along (traced_linked traced) steadfast tidy off own
  obtain ⟨i,ready,shown⟩ := provided.on on
  have setup : (stage service userId past).setup = some i := by rw [ready]; rfl
  obtain ⟨event,listed,rfl,call,long⟩ := provided.doer i setup
  obtain ⟨complete,codes⟩ := provided.ready _ ready
  obtain ⟨result,finished,secret,batch_⟩ := complete_returned traced listed call complete
  obtain ⟨held,known,_⟩ := (Option.any_eq_true _ _).mp on
  refine ⟨_,_,event.who,result,?_,generated_wrapped opens (by rw [told_length]; omega),shown,finished,secret,?_⟩
  · unfold secretOf
    rw [known]
    exact provided.sealed _ setup held known
  · rw [codes,batch_]

end

section
variable (service : MfaService) (aead : Aead) (master : Migration.Key) (draws : String → Migration.Draws)
  (bytes : String → Bytes) (text : Bytes → String) (fault : Error)

-- With the envelopes of the service, over the bytes that a text stands for.
def MfaService.enveloped : MfaService :=
  {service with
    wrapEnvelope := fun secret entropy => String.ofList (encryptSecret aead (draws entropy) master (bytes secret))
    platform := {service.platform with
      unwrap := fun wrapped => (decryptSecret aead master wrapped.toList).elim (.error fault) fun secret => .ok (text secret)}}

theorem enveloped_opens (kept : ∀ secret, text (bytes secret) = secret) (secret entropy : String) :
    (service.enveloped aead master draws bytes text fault).platform.unwrap
      ((service.enveloped aead master draws bytes text fault).wrapEnvelope secret entropy) = .ok secret := by
  simp only [MfaService.enveloped,String.toList_ofList,encryptSecret,Migration.wrapEnvelope_eq,Migration.decryptSecret_wrapCurrent,
    Option.elim_some,kept]

end

-- A cipher that hides nothing.
def clear : Aead where
  encrypt _ _ _ message := (message,List.replicate 16 0)
  decrypt _ _ _ ciphertext tag := if tag = List.replicate 16 0 then some ciphertext else none
  sized _ _ _ _ _ _ := rfl
  tagged _ _ _ _ _ _ := rfl
  opens _ _ _ := by grind

def zeros (count : Nat) : Drawn count := ⟨List.replicate count 0,List.length_replicate⟩

def sealing : MfaService :=
  sampleMfa.enveloped clear (zeros 32) (fun _ => ⟨zeros 32,zeros 12,zeros 12⟩) utf8Bytes strictUtf8 (.mongo duplicateKey)

theorem enabled_confirmed_serially : ∃ past c, Traced (program sealing "user") (Aside "user") (soleAccount sampleUser) past c ∧
    enabled "user" c.state = true ∧ ∃ sealed secret i result,
      secretOf "user" c.state = some sealed ∧ sealing.platform.unwrap sealed = .ok secret ∧
      presented sealing "user" secret past = true ∧ c.Finished i .beginSetup (.ok (.setup (some result))) ∧
      result.secret = sealing.encodeBase32 secret ∧
      stored "user" c.state = result.backupCodes.map sealing.platform.sha256 := by
  have performed : (perform (program sealing "user") [] (start (soleAccount sampleUser)) (List.flatten [
        [.start 0 .beginSetup],List.replicate 7 (.act 0),[.start 1 (.enable "tx")],
        List.replicate 3 (.act 1)])).any (fun after =>
        enabled "user" after.2.state && decide (Tidy sealing "user" after.1)) = true := by decide +kernel
  obtain ⟨past,c,traced,checked⟩ := perform_exists performed
  obtain ⟨on,tidy⟩ := Bool.and_eq_true_iff.mp checked
  have confirmed := enabled_confirmed (enveloped_opens _ _ _ _ _ _ _ strict_utf8Bytes) rfl (by simp [Own,soleAccount]) traced
    (of_decide_eq_true tidy) on
  exact ⟨past,c,traced,on,confirmed⟩

-- A second setup replaces the secret between the comparison and the write of a
-- confirmation: the factor is on with a secret that nobody has confirmed.
theorem enabled_unconfirmed : ∃ past c, Traced (program sampleMfa "user") (Aside "user") (soleAccount sampleUser) past c ∧
    enabled "user" c.state = true ∧ ∃ sealed secret, secretOf "user" c.state = some sealed ∧
      sampleMfa.platform.unwrap sealed = .ok secret ∧ presented sampleMfa "user" secret past = false := by
  have performed : (perform (program sampleMfa "user") [] (start (soleAccount sampleUser)) (List.flatten [
        [.start 0 .beginSetup],List.replicate 7 (.act 0),[.start 1 (.enable "tx")],List.replicate 2 (.act 1),
        [.start 2 .beginSetup],List.replicate 7 (.act 2),[.act 1]])).any (fun after => enabled "user" after.2.state &&
        (secretOf "user" after.2.state).any fun sealed => !presented sampleMfa "user" sealed after.1) = true := by decide +kernel
  obtain ⟨past,c,traced,checked⟩ := perform_exists performed
  obtain ⟨on,unconfirmed⟩ := Bool.and_eq_true_iff.mp checked
  obtain ⟨sealed,known,never⟩ := (Option.any_eq_true _ _).mp unconfirmed
  exact ⟨past,c,traced,on,sealed,sealed,known,rfl,by simpa using never⟩

end Pezhwan.Mfa
