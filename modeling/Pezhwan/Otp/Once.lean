import Pezhwan.Atomic.Claim
import Pezhwan.Auth.Total
import Pezhwan.Otp.Protocol

namespace Pezhwan.Otp
open Atomic Prog Config Auth

-- The surroundings remove passcodes and leave the others as they are.
structure Outside (s t : World) : Prop where
  draws : s.base.draws.length ≤ t.base.draws.length
  otps : t.otps.Sublist s.otps

-- The code of a request, told by the upsert of its hash.
def issue (platform : Platform) : Call → List (World × World) → World → Option String
  | .request otp _ _ _,draw :: older,_ =>
    if older.length = 3 then some (drawCode platform otp draw.1.base.draws.length) else none
  | _,_,_ => none

-- The id of the document that the upsert writes.
def written (platform : Platform) : Call → World → Option String
  | .request otp channel target purpose,w =>
    some (match w.otps.find? (otp.selects channel (platform.toLowerCase target) purpose) with
      | some doc => doc.id
      | none => platform.random.fresh w.base.draws.length)
  | .verify .. ,_ => none

def Live (hash : String) (w : World) : Prop := ∃ doc ∈ w.otps, doc.codeHash = hash ∧ doc.consumed = false

abbrev History := List (Event CallId Call World)

-- Every passcode was stored by a request, under one id each.
structure Stocked (platform : Platform) (past : History) (w : World) : Prop where
  known : ∀ doc ∈ w.otps, ∃ later event earlier code, past = later ++ event :: earlier ∧
    claim (issue platform) earlier event = some code ∧ doc.codeHash = platform.sha256 code ∧
    written platform event.call event.before = some doc.id
  fresh : ∀ doc ∈ w.otps, ∃ n < w.base.draws.length, doc.id = platform.random.fresh n
  single : (w.otps.map OtpDoc.id).Nodup

section
variable {platform : Platform} {past : History} {s t : World}

theorem Stocked.later (stocked : Stocked platform past w) : Stocked platform (event :: past) w := by
  refine ⟨?_,stocked.fresh,stocked.single⟩
  intro doc member
  obtain ⟨later,stored,earlier,code,rfl,rest⟩ := stocked.known doc member
  exact ⟨event :: later,stored,earlier,code,rfl,rest⟩

theorem Stocked.outside (stocked : Stocked platform past s) (outside : Outside s t) : Stocked platform past t := by
  refine ⟨?_,?_,?_⟩
  · intro doc member
    exact stocked.known doc (outside.otps.subset member)
  · intro doc member
    obtain ⟨n,drawn,same⟩ := stocked.fresh doc (outside.otps.subset member)
    exact ⟨n,Nat.lt_of_lt_of_le drawn outside.draws,same⟩
  · exact (outside.otps.map OtpDoc.id).nodup stocked.single

theorem Stocked.updated (stocked : Stocked platform past s) (draws : s.base.draws.length ≤ t.base.draws.length)
    (ids : t.otps.map OtpDoc.id = s.otps.map OtpDoc.id)
    (kept : ∀ doc ∈ t.otps, ∃ old ∈ s.otps, doc.id = old.id ∧ doc.codeHash = old.codeHash) : Stocked platform past t := by
  refine ⟨?_,?_,?_⟩
  · intro doc member
    obtain ⟨old,listed,id,hash⟩ := kept doc member
    rw [id,hash]
    exact stocked.known old listed
  · intro doc member
    obtain ⟨old,listed,id,_⟩ := kept doc member
    obtain ⟨n,drawn,same⟩ := stocked.fresh old listed
    exact ⟨n,Nat.lt_of_lt_of_le drawn draws,id.trans same⟩
  · rw [ids]
    exact stocked.single

theorem Stocked.same (stocked : Stocked platform past s) (draws : s.base.draws.length ≤ t.base.draws.length)
    (otps : t.otps = s.otps) : Stocked platform past t := by
  apply stocked.updated draws (by rw [otps])
  intro doc member
  exact ⟨doc,otps ▸ member,rfl,rfl⟩

theorem updateOtp_ids {p : OtpDoc → Bool} {f : OtpDoc → OtpDoc} (kept : ∀ doc, (f doc).id = doc.id) :
    (s.updateOtp p f).otps.map OtpDoc.id = s.otps.map OtpDoc.id := Collection.map_updateOne kept s.otps

theorem Stocked.update (stocked : Stocked platform past s) {p : OtpDoc → Bool} {f : OtpDoc → OtpDoc}
    (kept : ∀ doc, (f doc).id = doc.id ∧ (f doc).codeHash = doc.codeHash) : Stocked platform past (s.updateOtp p f) := by
  apply @Stocked.updated platform past s (s.updateOtp p f) stocked (Nat.le_refl _) (updateOtp_ids fun doc => (kept doc).1)
  intro doc member
  rcases Collection.mem_updateOne member with old | ⟨old,found,rfl⟩
  · exact ⟨doc,old,rfl,rfl⟩
  · exact ⟨old,List.mem_of_find?_eq_some found,kept old⟩

theorem stocked_upsert {otp : OtpService} {channel : Channel} {target : String} {purpose : OtpPurpose} {draw : World × World}
    {older : List (World × World)} (stocked : Stocked platform past s) (fourth : older.length = 3) (i : CallId)
    (event : Event CallId Call World) (own : mine event.who past = draw :: older)
    (asked : event.call = .request otp channel target purpose) (before : event.before = s) :
    Stocked platform (event :: past) (upsert platform otp channel (platform.toLowerCase target) purpose
      (drawCode platform otp draw.1.base.draws.length) i s) := by
  have issued : claim (issue platform) past event = some (drawCode platform otp draw.1.base.draws.length) := by
    unfold claim
    rw [own,asked]
    simp [issue,fourth]
  have stored : ∀ id, written platform event.call event.before = some id → ∃ later stored earlier code,
      event :: past = later ++ stored :: earlier ∧ claim (issue platform) earlier stored = some code ∧
      platform.sha256 (drawCode platform otp draw.1.base.draws.length) = platform.sha256 code ∧
      written platform stored.call stored.before = some id :=
    fun id wrote => ⟨[],event,past,_,rfl,issued,rfl,wrote⟩
  unfold upsert
  dsimp only
  cases found : s.otps.find? (otp.selects channel (platform.toLowerCase target) purpose) with
  | some first =>
    refine ⟨?_,?_,?_⟩
    · intro doc member
      rcases Collection.mem_updateOne member with old | ⟨old,matched,rfl⟩
      · exact stocked.later.known doc old
      · apply stored
        rw [asked,before]
        simp [written,matched]
    · intro doc member
      rcases Collection.mem_updateOne member with old | ⟨old,matched,rfl⟩
      · exact stocked.fresh doc old
      · exact stocked.fresh old (List.mem_of_find?_eq_some matched)
    · change ((s.updateOtp _ _).otps.map OtpDoc.id).Nodup
      rw [updateOtp_ids]
      · exact stocked.single
      · exact fun doc => rfl
  | none =>
    have grown : s.base.draws.length < (s.base.draws ++ [i]).length := by simp
    refine ⟨?_,?_,?_⟩
    · intro doc member
      rcases List.mem_append.mp member with old | new
      · exact stocked.later.known doc old
      · cases List.mem_singleton.mp new
        apply stored
        rw [asked,before]
        simp [written,found]
    · intro doc member
      rcases List.mem_append.mp member with old | new
      · obtain ⟨n,drawn,same⟩ := stocked.fresh doc old
        exact ⟨n,by simpa using Nat.lt_succ_of_lt drawn,same⟩
      · cases List.mem_singleton.mp new
        exact ⟨_,grown,rfl⟩
    · simp only [List.map_append,List.map_cons,List.map_nil]
      apply List.nodup_append.mpr ⟨stocked.single,by simp,_⟩
      intro id listed other single same
      obtain ⟨doc,member,rfl⟩ := List.mem_map.mp listed
      obtain ⟨n,drawn,known⟩ := stocked.fresh doc member
      rw [same,List.mem_singleton.mp single] at known
      have equal := platform.random.injective known
      omega

theorem stocked_event {event : Event CallId Call World} (stocked : Stocked platform past event.before)
    (does : Does platform event.call (mine event.who past) event.before event.after) :
    Stocked platform (event :: past) event.after := by
  obtain ⟨who,call,before,after⟩ := event
  dsimp only at stocked does ⊢
  generalize own : mine who past = memory at does
  cases does with
  | still s idle => exact stocked.later
  | drew i s => exact stocked.later.same (by simp) rfl
  | stored i s fourth drawn => exact stocked_upsert stocked fourth i _ own rfl rfl
  | cooled s until_ ttl => exact stocked.later.same (Nat.le_refl _) rfl
  | delivered s delivery => exact stocked.later.same (Nat.le_refl _) rfl
  | marked s healthy found => exact stocked.later.update fun doc => ⟨rfl,rfl⟩
  | cleared s healthy found own => exact stocked.later.same (Nat.le_refl _) rfl
  | missed s found wrong => exact stocked.later.update fun doc => ⟨rfl,rfl⟩
  | counted s found wrong => exact stocked.later.same (Nat.le_refl _) rfl

theorem stocked_still (moves : Relation.ReflTransGen Outside s t) (stocked : Stocked platform past s) :
    Stocked platform past t := by
  induction moves with
  | refl => exact stocked
  | tail _ step ih => exact ih.outside step

theorem stocked_along (along : Along (Does platform) past) (linked : Linked Outside initial past s)
    (empty : initial.otps = []) : Stocked platform past s := by
  induction past generalizing s with
  | nil =>
    apply stocked_still linked
    refine ⟨?_,?_,?_⟩ <;> simp [empty]
  | cons event past ih =>
    exact stocked_still linked.1 (stocked_event (ih along.2 linked.2) along.1)

theorem same_document {whole later later' earlier earlier' : History} {doc doc' : OtpDoc}
    (once : (claimed (issue platform) whole).Nodup) (split : whole = later ++ earlier) (split' : whole = later' ++ earlier')
    (stocked : Stocked platform earlier s) (stocked' : Stocked platform earlier' t) (member : doc ∈ s.otps)
    (member' : doc' ∈ t.otps) (same : doc.codeHash = doc'.codeHash) : doc.id = doc'.id := by
  obtain ⟨l,event,e,code,rfl,issued,hash,wrote⟩ := stocked.known doc member
  obtain ⟨l',event',e',code',rfl,issued',hash',wrote'⟩ := stocked'.known doc' member'
  have equal : code = code' := platform.sha256_injective (hash.symm.trans (same.trans hash'))
  subst equal
  have whole₁ : whole = (later ++ l) ++ event :: e := by rw [split,List.append_assoc]
  have whole₂ : whole = (later' ++ l') ++ event' :: e' := by rw [split',List.append_assoc]
  rw [(claimed_once once whole₁ whole₂ issued issued').1] at wrote
  exact Option.some.inj (wrote.symm.trans wrote')

theorem live_updated {p : OtpDoc → Bool} {f : OtpDoc → OtpDoc} (live : Live r (s.updateOtp p f))
    (kept : ∀ doc, (f doc).codeHash = doc.codeHash ∧ ((f doc).consumed = false → doc.consumed = false)) : Live r s := by
  obtain ⟨doc,member,hash,open_⟩ := live
  rcases Collection.mem_updateOne member with old | ⟨old,found,rfl⟩
  · exact ⟨doc,old,hash,open_⟩
  · exact ⟨old,List.mem_of_find?_eq_some found,(kept old).1 ▸ hash,(kept old).2 open_⟩

theorem live_does (does : Does platform call memory s t) (live : Live r t) (dead : ¬ Live r s) :
    ∃ code, issue platform call memory s = some code ∧ r = platform.sha256 code := by
  cases does with
  | still s idle => exact absurd live dead
  | drew i s => exact absurd live dead
  | @stored otp channel target purpose draw older i s fourth drawn =>
    refine ⟨drawCode platform otp draw.1.base.draws.length,by simp [issue,fourth],?_⟩
    obtain ⟨doc,member,hash,open_⟩ := live
    unfold upsert at member
    dsimp only at member
    split at member
    · rcases Collection.mem_updateOne member with old | ⟨old,found,rfl⟩
      · exact absurd ⟨doc,old,hash,open_⟩ dead
      · exact hash.symm
    · rcases List.mem_append.mp member with old | new
      · exact absurd ⟨doc,old,hash,open_⟩ dead
      · cases List.mem_singleton.mp new
        exact hash.symm
  | cooled s until_ ttl => exact absurd live dead
  | delivered s delivery => exact absurd live dead
  | marked s healthy found => exact absurd (live_updated live fun doc => ⟨rfl,fun spent => nomatch spent⟩) dead
  | cleared s healthy found own => exact absurd live dead
  | missed s found wrong => exact absurd (live_updated live fun doc => ⟨rfl,id⟩) dead
  | counted s found wrong => exact absurd live dead

theorem marks_document (claims : consumes platform call memory s = some r) (does : Does platform call memory s t) :
    ∃ doc, confirmed platform call memory = some doc ∧ doc.codeHash = r ∧ t = s.updateOtp (fun other => other.id = doc.id)
      fun other => {other with consumed := true,attempts := doc.attempts + 1} := by
  obtain ⟨healthy,doc,hit,hash⟩ := consumes_some claims
  obtain ⟨otp,channel,target,purpose,code,time,look,read,rfl,rfl,_⟩ := compared_some (confirmed_some hit).1
  generalize shape : [time,look,read] = memory at does
  cases does with
  | still s idle => subst shape; rw [idle.unmarked] at claims; cases claims
  | marked s healthy found =>
    subst shape
    rw [hit] at found
    cases found
    exact ⟨doc,hit,hash,rfl⟩
  | @cleared _ last mark memory other key s healthy found own =>
    obtain ⟨_,_,_,_,_,_,_,_,_,rfl,_⟩ := compared_some (confirmed_some found).1
    have lengths := congrArg List.length shape
    simp only [List.length_append,List.length_cons,List.length_nil] at lengths
    omega
  | missed s found wrong =>
    subst shape
    obtain ⟨seen,matched⟩ := confirmed_some hit
    rw [seen] at found
    cases found
    rw [wrong] at matched
    cases matched
  | counted s found wrong => cases shape

theorem expendable_codes (along : Along (Does platform) past) (linked : Linked Outside initial past s)
    (empty : initial.otps = []) (once : (claimed (issue platform) past).Nodup) :
    Expendable Live (consumes platform) (fun _ => 2) Outside past := by
  have sofar : ∀ {later : History} {event earlier}, past = later ++ event :: earlier →
      Does platform event.call (mine event.who earlier) event.before event.after ∧ Stocked platform earlier event.before := by
    intro later event earlier split
    obtain ⟨ruled,before⟩ := along_at (split ▸ along)
    exact ⟨ruled,stocked_along before (linked_at (split ▸ linked)) empty⟩
  refine ⟨?_,?_,?_,?_⟩
  · intro later event earlier r split claims
    obtain ⟨_,doc,hit,hash⟩ := consumes_some claims
    obtain ⟨otp,channel,target,purpose,code,time,look,read,_,own,found,unspent,_⟩ := compared_some (confirmed_some hit).1
    exact ⟨[time],look,[read],own,rfl,doc,List.mem_of_find?_eq_some found,hash,unspent⟩
  · intro later event earlier r split claims live
    obtain ⟨does,stocked⟩ := sofar split
    obtain ⟨doc,hit,hash,after⟩ := marks_document claims does
    obtain ⟨otp,channel,target,purpose,code,time,look,read,_,own,found,_,_⟩ := compared_some (confirmed_some hit).1
    -- the document is the one that the look met
    obtain ⟨newer,looked,older,gap,_,seen,_⟩ := mine_split [time] own
    have placed : past = (later ++ event :: newer) ++ looked :: older := by simp [split,gap]
    have below : past = (later ++ event :: newer ++ [looked]) ++ older := by simp [placed]
    have above : past = (later ++ [event]) ++ earlier := by simp [split]
    obtain ⟨_,stocked'⟩ := sofar placed
    rw [after] at live
    obtain ⟨other,member,named,open_⟩ := live
    have present : other ∈ event.before.otps ∨ other.consumed = true := by
      rcases Collection.mem_updateOne member with old | ⟨old,_,rfl⟩
      · exact .inl old
      · exact .inr rfl
    rcases present with old | closed
    · have looked_ : doc ∈ looked.before.otps := by
        have listed := List.mem_of_find?_eq_some found
        rw [seen] at listed
        exact listed
      have ids := same_document once above below stocked stocked' old looked_ (named.trans hash.symm)
      cases first : event.before.otps.find? (fun other => decide (other.id = doc.id)) with
      | none =>
        rw [List.find?_eq_none] at first
        exact first other old (by simpa using ids)
      | some head =>
        have rewritten := Collection.updateOne_rewrite (fun other : OtpDoc => {other with
          consumed := true
          attempts := doc.attempts + 1}) stocked.single first
        have headId : head.id = doc.id := by simpa using List.find?_some first
        change other ∈ Collection.updateOne _ _ _ at member
        rw [rewritten] at member
        obtain ⟨source,_,rfl⟩ := Collection.mem_rewrite.mp member
        split at open_
        · cases open_
        · rename_i miss
          rw [if_neg miss,← headId] at ids
          exact miss ids
    · rw [closed] at open_
      cases open_
  · intro later event earlier r split before dead live
    obtain ⟨does,_⟩ := sofar split
    obtain ⟨code,issued,rfl⟩ := live_does does live dead
    obtain ⟨old,listed,doc,member,hash,_⟩ := before
    obtain ⟨newer,older,rfl⟩ := List.append_of_mem listed
    have placed : past = (later ++ event :: newer) ++ old :: older := by simp [split]
    obtain ⟨_,stocked⟩ := sofar placed
    obtain ⟨l,stored,e,code',rfl,issued',hash',_⟩ := stocked.known doc member
    have equal : code' = code := platform.sha256_injective (hash'.symm.trans hash)
    subst equal
    have below : past = (later ++ event :: newer ++ old :: l) ++ stored :: e := by simp [split]
    obtain ⟨_,same⟩ := claimed_once once split below issued issued'
    have lengths := congrArg List.length same
    simp at lengths
    omega
  · intro r s t outside dead live
    obtain ⟨doc,member,hash,open_⟩ := live
    exact dead ⟨doc,outside.otps.subset member,hash,open_⟩

theorem verified_claims (traced : Traced (program platform) Outside initial past c)
    (finished : c.Finished i (.verify otp channel target purpose code) (.ok (.verified true))) :
    ∃ later event earlier, past = later ++ event :: earlier ∧ event.who = i ∧
      claim (consumes platform) earlier event = some (platform.sha256 code) := by
  have kept := traced_kept (acts_program platform) (fun _ _ _ => trivial) traced
  obtain ⟨cleared,again,mark,memory,doc,own,hit,healthy⟩ := kept.busy i _ _ finished rfl
  obtain ⟨later,event,earlier,rfl,who,same,before⟩ := mine_split [cleared,again] own
  obtain ⟨p,running⟩ := traced_call traced (List.mem_append_right later List.mem_cons_self)
  rw [who,finished] at running
  have asked : event.call = .verify otp channel target purpose code := (congrArg Prod.fst (Option.some.inj running)).symm
  refine ⟨later,event,earlier,rfl,who,?_⟩
  have matched : platform.sha256 code = doc.codeHash := by simpa [matches_] using (confirmed_some hit).2
  unfold claim consumes
  rw [who,before,asked,hit,if_pos]
  · rw [Option.map_some,matched]
  · rw [same] at healthy
    exact healthy

-- A code works for one verification, provided no verification marks a hash that
-- another one has marked since it read the document.
theorem code_works_once {initial : World} (empty : initial.otps = []) {past : History} {c : Config CallId Call World Error Answer}
    (traced : Traced (program platform) Outside initial past c) (distinct : (claimed (issue platform) past).Nodup)
    (unrivalled : Unrivalled (consumes platform) (fun _ => 2) past) {otp otp' : OtpService} {channel channel' : Channel}
    {target target' : String} {purpose purpose' : OtpPurpose} {code : String} {i j : CallId}
    (first : c.Finished i (.verify otp channel target purpose code) (.ok (.verified true)))
    (second : c.Finished j (.verify otp' channel' target' purpose' code) (.ok (.verified true))) : i = j := by
  have kept := traced_kept (acts_program platform) (fun _ _ _ => trivial) traced
  have linked := traced_linked traced
  obtain ⟨later,event,earlier,split,who,claims⟩ := verified_claims traced first
  obtain ⟨later',event',earlier',split',who',claims'⟩ := verified_claims traced second
  rw [← who,← who']
  exact (expendable_codes kept.along linked empty distinct).claims_once linked unrivalled split split' claims claims'

end

def sampleOtp : OtpService := ⟨"tenant","application",6,600000,5,30000,900000,true⟩

def asking : Call := .request sampleOtp .email "user@example.com" .login
def guessing (code : String) : Call := .verify sampleOtp .email "user@example.com" .login code

def accepted (c : Config CallId Call World Error Answer) (code : String) (i : CallId) : Bool :=
  match c.calls i with
  | some (.verify _ _ _ _ code',.done (.ok (.verified true))) => decide (code' = code)
  | _ => false

theorem accepted_finished {c : Config CallId Call World Error Answer} (done : accepted c code i = true) :
    ∃ otp channel target purpose, c.Finished i (.verify otp channel target purpose code) (.ok (.verified true)) := by
  unfold accepted at done
  split at done
  · rename_i otp channel target purpose code' running
    cases of_decide_eq_true done
    exact ⟨otp,channel,target,purpose,running⟩
  · cases done

-- A request and two verifications one after the other: the first one succeeds.
theorem code_works_once_serially : ∃ past c, Traced (program samplePlatform) Outside (soleAccount sampleUser) past c ∧
    accepted c "000000" 1 = true ∧ ∀ j, accepted c "000000" j = true → 1 = j := by
  have performed : (perform (program samplePlatform) [] (start (soleAccount sampleUser)) (List.flatten [
        [.start 0 asking],List.replicate 8 (.act 0),[.start 1 (guessing "000000")],List.replicate 6 (.act 1),
        [.start 2 (guessing "000000")],List.replicate 3 (.act 2)])).any (fun after => accepted after.2 "000000" 1 &&
        decide (claimed (issue samplePlatform) after.1).Nodup &&
        decide (Unrivalled (consumes samplePlatform) (fun _ => 2) after.1)) = true := by decide +kernel
  obtain ⟨past,c,traced,checked⟩ := perform_exists performed
  simp only [Bool.and_eq_true,decide_eq_true_eq] at checked
  obtain ⟨⟨done,distinct⟩,unrivalled⟩ := checked
  refine ⟨past,c,traced,done,?_⟩
  intro j also
  obtain ⟨otp,channel,target,purpose,first⟩ := accepted_finished done
  obtain ⟨otp',channel',target',purpose',second⟩ := accepted_finished also
  exact code_works_once rfl traced distinct unrivalled first second

-- Both verifications read the document before either of them marks it.
theorem code_works_twice : ∃ past c, Traced (program samplePlatform) Outside (soleAccount sampleUser) past c ∧
    (claimed (issue samplePlatform) past).Nodup ∧ accepted c "000000" 1 = true ∧ accepted c "000000" 2 = true := by
  have performed : (perform (program samplePlatform) [] (start (soleAccount sampleUser)) (List.flatten [
        [.start 0 asking],List.replicate 8 (.act 0),[.start 1 (guessing "000000"),.start 2 (guessing "000000")],
        List.replicate 2 (.act 1),List.replicate 6 (.act 2),List.replicate 4 (.act 1)])).any (fun after =>
        decide (claimed (issue samplePlatform) after.1).Nodup && accepted after.2 "000000" 1 &&
        accepted after.2 "000000" 2) = true := by decide +kernel
  obtain ⟨past,c,traced,checked⟩ := perform_exists performed
  simp only [Bool.and_eq_true,decide_eq_true_eq] at checked
  exact ⟨past,c,traced,checked.1.1,checked.1.2,checked.2⟩

end Pezhwan.Otp
