import Pezhwan.Atomic.Claim
import Pezhwan.Mfa.Follow

namespace Pezhwan.Mfa
open Atomic Prog Config Auth Script

-- The rows of a user's backup codes are removed now and then, and otherwise only
-- the attempts change them.
abbrev Outside (s t : World) : Prop := t.backupCodes.Sublist s.backupCodes

-- The hash that an action of an attempt marks used.
def spends (service : MfaService) (userId : String) (call : Attempt) (memory : List (World × World)) (w : World) : Option String :=
  match script service userId call (told memory),w.base.fault with
  | .error (.mark row),none => some row.codeHash
  | _,_ => none

def Unused (hash : String) (w : World) : Prop := ∃ row ∈ w.backupCodes, row.codeHash = hash ∧ row.usedAt = none

section
variable {service : MfaService} {userId : String} {platform : Platform} {code : String}

-- A row is marked right after the read that has found it unused.
def Found (platform : Platform) (userId code : String) (states : List World) (step : Step) : Prop :=
  step.plain = true ∨ ∃ row before last, step = .mark row ∧ states = before ++ [last] ∧
    unusedRow platform userId code last = some row

theorem found_closed (used rest : List World) (step : Step) (found : Found platform userId code rest step) :
    Found platform userId code (used ++ rest) step := by
  rcases found with plain | ⟨row,before,last,marks,split,seen⟩
  · exact .inl plain
  · exact .inr ⟨row,used ++ before,last,marks,by rw [split,List.append_assoc],seen⟩

theorem found_see {step : Step} (plain : step.plain = true) : Asks (Found platform userId code) (see step) :=
  asks_see (.inl plain)

theorem found_locked : Asks (Found platform userId code) (lockedScript userId) := by
  apply asks_bind found_closed (local_see _) (found_see rfl)
  intro first
  cases userById userId first with
  | none => exact asks_pure false
  | some user =>
    apply asks_bind found_closed (local_see _) (found_see rfl)
    intro clock
    cases user.mfaLockUntil with
    | none => exact asks_pure false
    | some until_ =>
      dsimp only
      split
      · exact asks_pure true
      · split
        · exact asks_bind found_closed (local_see _) (found_see rfl) fun _ => asks_pure false
        · exact asks_pure false

theorem found_record : Asks (Found platform userId code) (recordScript userId) := by
  apply asks_bind found_closed (local_see _) (found_see rfl)
  intro w
  cases (userById userId w).map fun user => user.mfaFailedAttempts + 1 with
  | none => exact asks_pure ()
  | some attempts =>
    dsimp only
    split
    · exact asks_bind found_closed (local_see _) (found_see rfl) fun _ => asks_pure ()
    · exact asks_pure ()

theorem found_backup : Asks (Found platform userId code) (backupScript platform userId code) := by
  intro states step asked
  rcases bind_error.mp asked with none | ⟨w,left,seen,later⟩
  · rw [← (see_error.mp none).2]
    exact .inl rfl
  · cases see_ok.mp seen
    cases found : unusedRow platform userId code w with
    | none => rw [found] at later; cases later
    | some row =>
      rw [found] at later
      rcases bind_error.mp later with here | ⟨_,_,_,halted⟩
      · obtain ⟨rfl,same⟩ := see_error.mp here
        exact .inr ⟨row,[],w,same.symm,rfl,found⟩
      · cases halted

theorem found_accept : Asks (Found platform userId code) acceptScript := by
  apply asks_bind found_closed (local_see _) (found_see rfl)
  intro _
  exact asks_bind found_closed (local_see _) (found_see rfl) fun _ => asks_pure true

theorem found_challenge (wrapped : Option String) :
    Asks (Found platform userId code) (challengeScript platform userId code wrapped) := by
  cases wrapped with
  | none => exact asks_pure false
  | some wrapped =>
    unfold challengeScript
    dsimp only
    cases platform.unwrap wrapped with
    | error e => exact asks_pure false
    | ok secret =>
      apply asks_bind found_closed (local_see _) (found_see rfl)
      intro clock
      split
      · exact found_accept
      · apply asks_bind found_closed (local_backup platform code) found_backup
        intro used
        cases used with
        | true => exact found_accept
        | false => exact asks_bind found_closed local_record found_record fun _ => asks_pure false

theorem found_switchOff : Asks (Found platform userId code) switchOffScript := by
  apply asks_bind found_closed (local_see _) (found_see rfl)
  intro _
  apply asks_bind found_closed (local_see _) (found_see rfl)
  intro _
  exact asks_bind found_closed (local_see _) (found_see rfl) fun _ => asks_pure true

theorem found_disableByBackup : Asks (Found platform userId code) (disableByBackupScript platform userId code) := by
  apply asks_bind found_closed (local_backup platform code) found_backup
  intro used
  cases used with
  | true => exact found_switchOff
  | false => exact asks_bind found_closed local_record found_record fun _ => asks_pure false

theorem found_script (call : Attempt) :
    Asks (Found service.platform userId call.code) (script service userId call) := by
  cases call with
  | verifyMfa code =>
    apply asks_bind found_closed local_locked found_locked
    intro locked
    cases locked with
    | true => exact asks_pure false
    | false => exact asks_bind found_closed (local_see _) (found_see rfl) fun w => found_challenge _
  | disable code =>
    apply asks_bind found_closed (local_see _) (found_see rfl)
    intro w
    dsimp only
    split
    · exact asks_pure false
    · apply asks_bind found_closed local_locked found_locked
      intro locked
      cases locked with
      | true => exact asks_pure false
      | false =>
        simp only [Bool.false_eq_true,if_false]
        cases truthy ((userById userId w).bind UserDoc.mfaSecret) with
        | none => exact found_disableByBackup
        | some wrapped =>
          dsimp only
          cases service.platform.unwrap wrapped with
          | error e => exact asks_pure false
          | ok secret =>
            apply asks_bind found_closed (local_see _) (found_see rfl)
            intro clock
            split
            · exact found_switchOff
            · exact found_disableByBackup

-- A code that is no TOTP code is accepted through a row with its hash.
def Marks (platform : Platform) (code : String) (step : Step) : Prop :=
  ∃ row, step = .mark row ∧ row.codeHash = platform.sha256 code

theorem marks_backup : Passes (Marks platform code) (backupScript platform userId code) := by
  intro states rest ended
  obtain ⟨w,left,seen,later⟩ := bind_ok.mp ended
  cases see_ok.mp seen
  cases found : unusedRow platform userId code w with
  | none => rw [found] at later; cases later
  | some row =>
    rw [found] at later
    obtain ⟨next,more,seen',_⟩ := bind_ok.mp later
    cases see_ok.mp seen'
    refine ⟨[w],next,more,.mark row,rfl,?_,row,rfl,?_⟩
    · unfold backupScript
      rw [bind_apply]
      dsimp only [see]
      rw [found]
      rfl
    · simpa using List.find?_some found

variable (disjoint : ∀ secret now, platform.verifyTotp code secret now = false)
include disjoint

theorem marks_challenge (wrapped : Option String) :
    Passes (Marks platform code) (challengeScript platform userId code wrapped) := by
  cases wrapped with
  | none => exact passes_false
  | some wrapped =>
    unfold challengeScript
    dsimp only
    cases platform.unwrap wrapped with
    | error e => exact passes_false
    | ok secret =>
      apply passes_bind (local_see _)
      intro clock
      rw [if_neg (by simp [disjoint])]
      apply passes_first (local_backup platform code) marks_backup
      exact passes_bind local_record fun _ => passes_false

omit disjoint in
theorem marks_disableByBackup : Passes (Marks platform code) (disableByBackupScript platform userId code) :=
  passes_first (local_backup platform code) marks_backup (passes_bind local_record fun _ => passes_false)

omit disjoint in
theorem marks_script {call : Attempt} (disjoint : ∀ secret now, service.platform.verifyTotp call.code secret now = false) :
    Passes (Marks service.platform call.code) (script service userId call) := by
  cases call with
  | verifyMfa code =>
    apply passes_bind local_locked
    intro locked
    cases locked with
    | true => exact passes_false
    | false => exact passes_bind (local_see _) fun w => marks_challenge disjoint _
  | disable code =>
    apply passes_bind (local_see _)
    intro w
    dsimp only
    split
    · exact passes_false
    · apply passes_bind local_locked
      intro locked
      cases locked with
      | true => exact passes_false
      | false =>
        simp only [Bool.false_eq_true,if_false]
        cases truthy ((userById userId w).bind UserDoc.mfaSecret) with
        | none => exact marks_disableByBackup
        | some wrapped =>
          dsimp only
          cases service.platform.unwrap wrapped with
          | error e => exact passes_false
          | ok secret =>
            apply passes_bind (local_see _)
            intro clock
            have wrong : service.platform.verifyTotp code secret (clock.base.now/1000) = false := disjoint secret _
            rw [if_neg (by simp [wrong])]
            exact marks_disableByBackup

end

abbrev History := List (Event CallId Attempt World)

section
variable {service : MfaService} {userId : String} {past : History} {initial s t : World}

-- The rows are the ones the user began with, less those that were removed.
structure Kin (initial s : World) : Prop where
  known : ∀ row ∈ s.backupCodes, ∃ old ∈ initial.backupCodes, row.id = old.id ∧ row.codeHash = old.codeHash
  single : (s.backupCodes.map BackupCodeDoc.id).Nodup

theorem Kin.fewer (kin : Kin initial s) (fewer : t.backupCodes.Sublist s.backupCodes) : Kin initial t :=
  ⟨fun row member => kin.known row (fewer.subset member),(fewer.map BackupCodeDoc.id).nodup kin.single⟩

theorem updateBackup_ids {p : BackupCodeDoc → Bool} {f : BackupCodeDoc → BackupCodeDoc} (kept : ∀ row, (f row).id = row.id) :
    (s.updateBackupCode p f).backupCodes.map BackupCodeDoc.id = s.backupCodes.map BackupCodeDoc.id :=
  Collection.map_updateOne kept s.backupCodes

theorem Kin.mark (kin : Kin initial s) (row : BackupCodeDoc) (now : Nat) :
    Kin initial (s.updateBackupCode (fun other => other.id = row.id) (fun other => {other with usedAt := some now})) := by
  refine ⟨?_,?_⟩
  · intro other member
    rcases Collection.mem_updateOne member with old | ⟨old,found,rfl⟩
    · exact kin.known other old
    · exact kin.known old (List.mem_of_find?_eq_some found)
  · rw [updateBackup_ids]
    · exact kin.single
    · exact fun row => rfl

theorem plain_rows {step : Step} (plain : step.plain = true) (s : World) :
    (step.perform service userId i s).backupCodes.Sublist s.backupCodes := by
  unfold Step.perform
  split
  · cases step with
    | removeCodes => exact List.filter_sublist
    | look | time | rows | totp | expire | touch | clear | count | lock | switchOff => exact List.Sublist.refl _
    | mark | draw | switchOn | storeSecret | dropCodes | storeCodes => cases plain
  · exact List.Sublist.refl _

theorem does_rows (does : Does service userId call memory s t) :
    (t.backupCodes.Sublist s.backupCodes ∧ spends service userId call memory s = none) ∨
    ∃ look older row, memory = look :: older ∧ spends service userId call memory s = some row.codeHash ∧
      row.codeHash = service.platform.sha256 call.code ∧ row ∈ look.1.backupCodes ∧ row.usedAt = none ∧
      t = s.updateBackupCode (fun other => other.id = row.id) (fun other => {other with usedAt := some s.base.now}) := by
  obtain ⟨⟨step,i,asked,rfl⟩,_⟩ := does
  rcases found_script call (told memory) step asked with plain | ⟨row,before,last,rfl,split,seen⟩
  · refine .inl ⟨plain_rows plain s,?_⟩
    unfold spends
    rw [asked]
    cases step <;> first | rfl | cases plain
  · by_cases healthy : s.base.fault = none
    · right
      cases memory with
      | nil =>
        have lengths := congrArg List.length split
        simp [told] at lengths
      | cons look older =>
        rw [told_cons] at split
        obtain ⟨_,same⟩ := List.append_inj' split rfl
        cases same
        have listed := List.mem_of_find?_eq_some seen
        have hash : row.codeHash = service.platform.sha256 call.code := by simpa using List.find?_some seen
        obtain ⟨member,unused⟩ := List.mem_filter.mp listed
        refine ⟨look,older,row,rfl,?_,hash,member,?_,?_⟩
        · unfold spends
          rw [asked,healthy]
        · simpa using (Bool.and_eq_true_iff.mp unused).2
        · exact perform_accepted fun _ => healthy
    · left
      rw [perform_refused fun accepted => healthy (accepted rfl)]
      refine ⟨List.Sublist.refl _,?_⟩
      unfold spends
      rw [asked]
      cases fault : s.base.fault with
      | none => exact absurd fault healthy
      | some e => rfl

theorem does_kin (does : Does service userId call memory s t) (kin : Kin initial s) : Kin initial t := by
  rcases does_rows does with ⟨fewer,_⟩ | ⟨look,older,row,_,_,_,_,_,rfl⟩
  · exact kin.fewer fewer
  · exact kin.mark row s.base.now

theorem kin_along (along : Along (Does service userId) past) (linked : Linked Outside initial past s)
    (single : (initial.backupCodes.map BackupCodeDoc.id).Nodup) : Kin initial s := by
  have still : ∀ {a b}, Relation.ReflTransGen Outside a b → Kin initial a → Kin initial b := by
    intro a b moves kin
    induction moves with
    | refl => exact kin
    | tail _ step ih => exact ih.fewer step
  induction past generalizing s with
  | nil => exact still linked ⟨fun row member => ⟨row,member,rfl,rfl⟩,single⟩
  | cons event past ih => exact still linked.1 (does_kin along.1 (ih along.2 linked.2))

theorem same_row (hashes : (initial.backupCodes.map BackupCodeDoc.codeHash).Nodup) (kin : Kin initial s) (kin' : Kin initial t)
    {row row' : BackupCodeDoc} (member : row ∈ s.backupCodes) (member' : row' ∈ t.backupCodes)
    (same : row.codeHash = row'.codeHash) : row.id = row'.id := by
  obtain ⟨old,listed,id,hash⟩ := kin.known row member
  obtain ⟨old',listed',id',hash'⟩ := kin'.known row' member'
  have equal : old = old' := List.inj_on_of_nodup_map hashes listed listed' (hash.symm.trans (same.trans hash'))
  rw [id,id',equal]

theorem marked_used (hashes : (initial.backupCodes.map BackupCodeDoc.codeHash).Nodup) (kin : Kin initial s) (seen : Kin initial t)
    {row : BackupCodeDoc} (member : row ∈ t.backupCodes) (now : Nat) : ¬ Unused row.codeHash
      (s.updateBackupCode (fun other => other.id = row.id) (fun other => {other with usedAt := some now})) := by
  rintro ⟨other,listed,hash,unused⟩
  have present : other ∈ s.backupCodes := by
    rcases Collection.mem_updateOne listed with old | ⟨old,_,rfl⟩
    · exact old
    · cases unused
  have ids : other.id = row.id := same_row hashes kin seen present member hash
  cases first : s.backupCodes.find? (fun other => decide (other.id = row.id)) with
  | none =>
    rw [List.find?_eq_none] at first
    exact first other present (by simpa using ids)
  | some head =>
    have rewritten := Collection.updateOne_rewrite (fun other : BackupCodeDoc => {other with usedAt := some now}) kin.single first
    have headId : head.id = row.id := by simpa using List.find?_some first
    change other ∈ Collection.updateOne _ _ _ at listed
    rw [rewritten] at listed
    obtain ⟨source,_,rfl⟩ := Collection.mem_rewrite.mp listed
    split at unused
    · cases unused
    · rename_i miss
      rw [if_neg miss,← headId] at ids
      exact miss ids

theorem unused_before {now : Nat} {row : BackupCodeDoc} (unused : Unused r
    (s.updateBackupCode (fun other => other.id = row.id) (fun other => {other with usedAt := some now}))) : Unused r s := by
  obtain ⟨other,member,hash,open_⟩ := unused
  rcases Collection.mem_updateOne member with old | ⟨old,_,rfl⟩
  · exact ⟨other,old,hash,open_⟩
  · cases open_

theorem unused_fewer (fewer : t.backupCodes.Sublist s.backupCodes) (unused : Unused r t) : Unused r s := by
  obtain ⟨row,member,rest⟩ := unused
  exact ⟨row,fewer.subset member,rest⟩

theorem expendable_backup (along : Along (Does service userId) past) (linked : Linked Outside initial past s)
    (ids : (initial.backupCodes.map BackupCodeDoc.id).Nodup) (hashes : (initial.backupCodes.map BackupCodeDoc.codeHash).Nodup) :
    Expendable Unused (spends service userId) List.length Outside past := by
  have sofar : ∀ {later : History} {event earlier}, past = later ++ event :: earlier →
      Does service userId event.call (mine event.who earlier) event.before event.after ∧ Kin initial event.before := by
    intro later event earlier split
    obtain ⟨ruled,before⟩ := along_at (split ▸ along)
    exact ⟨ruled,kin_along before (linked_at (split ▸ linked)) ids⟩
  refine ⟨?_,?_,?_,?_⟩
  · intro later event earlier r split claims
    rcases does_rows (sofar split).1 with ⟨_,none⟩ | ⟨look,older,row,own,spent,_,member,unused,_⟩
    · rw [claim,none] at claims
      cases claims
    · rw [claim,spent] at claims
      cases claims
      exact ⟨[],look,older,own,by rw [own]; rfl,row,member,rfl,unused⟩
  · intro later event earlier r split claims
    obtain ⟨does,kin⟩ := sofar split
    rcases does_rows does with ⟨_,none⟩ | ⟨look,older,row,own,spent,_,member,unused,after⟩
    · rw [claim,none] at claims
      cases claims
    · rw [claim,spent] at claims
      cases claims
      obtain ⟨newer,looked,rest,rfl,_,same,_⟩ := mine_split [] own
      rw [same] at member
      have placed : past = (later ++ event :: newer) ++ looked :: rest := by simp [split]
      rw [after]
      exact marked_used hashes kin (sofar placed).2 member _
  · intro later event earlier r split _ dead live
    rcases does_rows (sofar split).1 with ⟨fewer,_⟩ | ⟨look,older,row,_,_,_,_,_,after⟩
    · exact dead (unused_fewer fewer live)
    · rw [after] at live
      exact dead (unused_before live)
  · intro r s t fewer dead live
    exact dead (unused_fewer fewer live)

theorem accepted_spends {call : Attempt} {c : Config CallId Attempt World Error Bool}
    (disjoint : ∀ secret now, service.platform.verifyTotp call.code secret now = false)
    (traced : Traced (attempt service userId) Outside initial past c) (finished : c.Finished i call (.ok true)) :
    ∃ later event earlier, past = later ++ event :: earlier ∧ event.who = i ∧
      claim (spends service userId) earlier event = some (service.platform.sha256 call.code) := by
  have kept := traced_kept (acts_attempt service userId) (fun _ _ _ => trivial) traced
  obtain ⟨ended,accepted⟩ := kept.busy i call _ finished true rfl
  obtain ⟨used,s,more,step,split,asked,row,rfl,hash⟩ := marks_script disjoint _ _ ended
  obtain ⟨newer,move,older,own,rfl,rfl,_⟩ := told_split split
  obtain ⟨later,event,earlier,rfl,rfl,rfl,before⟩ := mine_split newer own
  obtain ⟨p,running⟩ := traced_call traced (List.mem_append_right later List.mem_cons_self)
  rw [finished] at running
  have same : event.call = call := (congrArg Prod.fst (Option.some.inj running)).symm
  obtain ⟨step',asked',fine⟩ := accepted newer _ older own
  rw [asked] at asked'
  cases asked'
  have healthy : event.before.base.fault = none := fine rfl
  refine ⟨later,event,earlier,rfl,rfl,?_⟩
  unfold claim spends
  rw [before,same,asked,healthy]
  exact congrArg some hash

-- A backup code lets one attempt succeed, provided no attempt marks a hash that
-- another one has marked since it read the rows.
theorem backup_code_once {initial : World} (ids : (initial.backupCodes.map BackupCodeDoc.id).Nodup)
    (hashes : (initial.backupCodes.map BackupCodeDoc.codeHash).Nodup) {past : History}
    {c : Config CallId Attempt World Error Bool} (traced : Traced (attempt service userId) Outside initial past c)
    (unrivalled : Unrivalled (spends service userId) List.length past) {call call' : Attempt} (same : call.code = call'.code)
    (disjoint : ∀ secret now, service.platform.verifyTotp call.code secret now = false) {i j : CallId}
    (first : c.Finished i call (.ok true)) (second : c.Finished j call' (.ok true)) : i = j := by
  have kept := traced_kept (acts_attempt service userId) (fun _ _ _ => trivial) traced
  have linked := traced_linked traced
  obtain ⟨later,event,earlier,split,who,claims⟩ := accepted_spends disjoint traced first
  obtain ⟨later',event',earlier',split',who',claims'⟩ := accepted_spends (same ▸ disjoint) traced second
  rw [← same] at claims'
  rw [← who,← who']
  exact (expendable_backup kept.along linked ids hashes).claims_once linked unrivalled split split' claims claims'

end
theorem backup_disjoint (secret : String) (now : Nat) : sampleMfa.platform.verifyTotp "backup" secret now = false := by
  apply decide_eq_false
  intro same
  have heads := congrArg (fun text => text.toList.head?) same
  simp at heads

-- Two challenges with one code, one after the other: the first one succeeds.
theorem backup_code_once_serially : ∃ past c, Traced (attempt sampleMfa "user") Outside enrolled past c ∧
    c.Finished 0 (.verifyMfa "backup") (.ok true) ∧ ∀ j, c.Finished j (.verifyMfa "backup") (.ok true) → 0 = j := by
  have performed : (perform (attempt sampleMfa "user") [] (start enrolled) (List.flatten [
        [.start 0 (.verifyMfa "backup")],List.replicate 8 (.act 0),[.start 1 (.verifyMfa "backup")],
        List.replicate 6 (.act 1)])).any (fun after =>
        after.2.finishedWith 0 (.verifyMfa "backup") (.ok true) &&
        decide (Unrivalled (spends sampleMfa "user") List.length after.1)) = true := by decide +kernel
  obtain ⟨past,c,traced,checked⟩ := perform_exists performed
  obtain ⟨done,unrivalled⟩ := Bool.and_eq_true_iff.mp checked
  have first := finishedWith_finished done
  refine ⟨past,c,traced,first,?_⟩
  intro j second
  have disjoint : ∀ secret now, sampleMfa.platform.verifyTotp (Attempt.verifyMfa "backup").code secret now = false := backup_disjoint
  exact backup_code_once (by simp [enrolled]) (by simp [enrolled]) traced (of_decide_eq_true unrivalled) rfl disjoint first second

-- Both challenges read the row before either of them marks it.
theorem backup_code_twice : ∃ past c, Traced (attempt sampleMfa "user") Outside enrolled past c ∧
    c.Finished 0 (.verifyMfa "backup") (.ok true) ∧ c.Finished 1 (.verifyMfa "backup") (.ok true) := by
  have performed : (perform (attempt sampleMfa "user") [] (start enrolled) (List.flatten [
        [.start 0 (.verifyMfa "backup"),.start 1 (.verifyMfa "backup")],List.replicate 5 (.act 0),
        List.replicate 8 (.act 1),List.replicate 3 (.act 0)])).any
        (fun after => after.2.finishedWith 0 (.verifyMfa "backup") (.ok true) &&
          after.2.finishedWith 1 (.verifyMfa "backup") (.ok true)) = true := by decide +kernel
  obtain ⟨past,c,traced,checked⟩ := perform_exists performed
  obtain ⟨first,second⟩ := Bool.and_eq_true_iff.mp checked
  exact ⟨past,c,traced,finishedWith_finished first,finishedWith_finished second⟩

end Pezhwan.Mfa
