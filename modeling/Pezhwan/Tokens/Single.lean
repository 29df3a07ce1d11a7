import Pezhwan.Tokens.Protocol

-- Tokens are redeemed once, and which overlaps leave more than one of them live.
namespace Pezhwan.Tokens
open Atomic Prog Config Auth Script

-- The surroundings remove tokens and leave the others as they are.
structure Outside (s t : World) : Prop where
  draws : s.base.draws.length ≤ t.base.draws.length
  tokens : t.verificationTokens.Sublist s.verificationTokens

-- The row that an action of an issue call stores.
def stores (platform : Platform) : Call → List (World × World) → World → Option VerificationTokenDoc
  | .issue input,[draw,_],w =>
    let token := platform.random.fresh draw.1.base.draws.length
    if Step.accepts platform (.insert input token) w then some (minted platform input token w) else none
  | _,_,_ => none

-- The hash that a redemption uses up.
def spends (platform : Platform) : Call → List (World × World) → World → Option String
  | .redeem _ token,[],w =>
    if w.base.fault = none ∧ (w.verificationTokens.find? (live platform token)).isSome then some (platform.sha256 token) else none
  | _,_,_ => none

def Unused (hash : String) (w : World) : Prop := ∃ doc ∈ w.verificationTokens, doc.tokenHash = hash ∧ doc.consumedAt = none

abbrev History := List (Event CallId Call World)

section
variable {platform : Platform} {call : Call} {memory : List (World × World)} {past : History} {event : Event CallId Call World}
  {s t initial : World}

theorem updateMany_hashes {p : VerificationTokenDoc → Bool} {f : VerificationTokenDoc → VerificationTokenDoc}
    (kept : ∀ doc, (f doc).tokenHash = doc.tokenHash) (docs : List VerificationTokenDoc) :
    (Collection.updateMany p f docs).map VerificationTokenDoc.tokenHash = docs.map VerificationTokenDoc.tokenHash := by
  unfold Collection.updateMany
  rw [List.map_map]
  apply List.map_congr_left
  intro doc _
  by_cases hit : p doc = true <;> simp [hit,kept]

theorem spends_redeem (service : VerificationTokenService) (token : String) (w : World) :
    spends platform (.redeem service token) [] w =
      if w.base.fault = none ∧ (w.verificationTokens.find? (live platform token)).isSome then some (platform.sha256 token)
      else none := rfl

-- What an action does to the tokens.
inductive Acted (platform : Platform) (call : Call) (memory : List (World × World)) (s t : World) : Prop where
  | kept (tokens : t.verificationTokens = s.verificationTokens) (draws : s.base.draws.length ≤ t.base.draws.length)
      (stored : stores platform call memory s = none) (spent : spends platform call memory s = none)
  | revoked (input : IssueTokenInput) (asked : call = .issue input) (first : memory = [])
      (tokens : t.verificationTokens = Collection.updateMany input.supersedes (.use s.base.now) s.verificationTokens)
      (draws : t.base.draws = s.base.draws)
  | stored (input : IssueTokenInput) (draw revoke : World × World) (asked : call = .issue input) (third : memory = [draw,revoke])
      (fresh : ∀ doc ∈ s.verificationTokens, doc.tokenHash ≠ platform.sha256 (platform.random.fresh draw.1.base.draws.length))
      (stored : stores platform call memory s =
        some (minted platform input (platform.random.fresh draw.1.base.draws.length) s))
      (tokens : t.verificationTokens = s.verificationTokens ++
        [minted platform input (platform.random.fresh draw.1.base.draws.length) s])
      (draws : s.base.draws.length ≤ t.base.draws.length)
  | consumed (service : VerificationTokenService) (token : String) (doc : VerificationTokenDoc) (asked : call = .redeem service token)
      (first : memory = []) (found : s.verificationTokens.find? (live platform token) = some doc)
      (spent : spends platform call memory s = some (platform.sha256 token))
      (tokens : t.verificationTokens = Collection.updateOne (live platform token) (.use s.base.now) s.verificationTokens)
      (draws : t.base.draws = s.base.draws)

theorem does_acted (does : Does platform call memory s t) : Acted platform call memory s t := by
  obtain ⟨⟨step,i,asked,rfl⟩,_⟩ := does
  have fits := script_fits asked
  by_cases accepted : step.accepts platform s
  · rw [perform_accepted accepted]
    cases step with
    | revoke input =>
      obtain ⟨rfl,rfl⟩ := fits
      exact .revoked input rfl rfl rfl rfl
    | draw =>
      obtain ⟨⟨input,rfl⟩,revoke,rfl⟩ := fits
      exact .kept rfl (by simp [Step.update]) rfl rfl
    | insert input token =>
      obtain ⟨rfl,draw,revoke,rfl,rfl⟩ := fits
      refine .stored input draw revoke rfl rfl ?_ (if_pos accepted) rfl (by simp [Step.update])
      intro doc member same
      have clash := List.any_eq_false.mp accepted.2 doc member
      exact clash (by simpa using same)
    | consume token =>
      obtain ⟨⟨service,rfl⟩,rfl⟩ := fits
      cases found : s.verificationTokens.find? (live platform token) with
      | none =>
        refine .kept (Collection.updateOne_none _ found) (Nat.le_refl _) rfl ?_
        rw [spends_redeem,found]
        simp
      | some doc =>
        refine .consumed service token doc rfl rfl found ?_ rfl rfl
        rw [spends_redeem,found]
        exact if_pos ⟨accepted,rfl⟩
    | time =>
      obtain ⟨service,token,rfl⟩ := fits
      cases memory with
      | nil => cases asked
      | cons move older => exact .kept rfl (Nat.le_refl _) rfl rfl
  · rw [perform_refused accepted]
    apply Acted.kept rfl (Nat.le_refl _)
    · cases step with
      | insert input token =>
        obtain ⟨rfl,draw,revoke,rfl,rfl⟩ := fits
        exact if_neg accepted
      | revoke input => obtain ⟨rfl,rfl⟩ := fits; rfl
      | consume token => obtain ⟨⟨service,rfl⟩,rfl⟩ := fits; rfl
      | draw | time => exact absurd trivial accepted
    · cases step with
      | insert input token => obtain ⟨rfl,_⟩ := fits; rfl
      | revoke input => obtain ⟨rfl,rfl⟩ := fits; rfl
      | consume token =>
        obtain ⟨⟨service,rfl⟩,rfl⟩ := fits
        exact if_neg fun both => accepted both.1
      | draw | time => exact absurd trivial accepted

theorem use_consumed (doc : VerificationTokenDoc) (now : Nat) : (doc.use now).consumedAt ≠ none := nofun

theorem unused_before (acted : Acted platform call memory s t) (member : doc ∈ t.verificationTokens) (unused : doc.consumedAt = none) :
    doc ∈ s.verificationTokens ∨ stores platform call memory s = some doc := by
  cases acted with
  | kept tokens draws stored spent => exact .inl (tokens ▸ member)
  | revoked input asked first tokens draws =>
    rw [tokens] at member
    obtain ⟨old,listed,rfl⟩ := Collection.mem_updateMany.mp member
    split at unused
    · exact absurd unused (use_consumed old _)
    · rename_i miss
      rw [if_neg miss]
      exact .inl listed
  | stored input draw revoke asked third fresh stored tokens draws =>
    rw [tokens] at member
    rcases List.mem_append.mp member with old | new
    · exact .inl old
    · rw [List.mem_singleton.mp new]
      exact .inr stored
  | consumed service token hit asked first found spent tokens draws =>
    rw [tokens] at member
    rcases Collection.mem_updateOne member with old | ⟨old,_,rfl⟩
    · exact .inl old
    · exact absurd unused (use_consumed old _)

-- Hashes are unique, as the index has it.
def Indexed (w : World) : Prop := (w.verificationTokens.map VerificationTokenDoc.tokenHash).Nodup

theorem indexed_acted (acted : Acted platform call memory s t) (indexed : Indexed s) : Indexed t := by
  unfold Indexed
  cases acted with
  | kept tokens draws stored spent =>
    rw [tokens]
    exact indexed
  | revoked input asked first tokens draws =>
    rw [tokens,updateMany_hashes]
    · exact indexed
    · exact fun doc => rfl
  | stored input draw revoke asked third fresh stored tokens draws =>
    rw [tokens,List.map_append,List.map_cons,List.map_nil]
    apply List.nodup_append.mpr ⟨indexed,by simp,_⟩
    intro hash listed other single same
    obtain ⟨doc,member,rfl⟩ := List.mem_map.mp listed
    exact fresh doc member (same.trans (List.mem_singleton.mp single))
  | consumed service token doc asked first found spent tokens draws =>
    rw [tokens,Collection.map_updateOne]
    · exact indexed
    · exact fun doc => rfl

theorem along_still {P : World → Prop} (own : ∀ {call memory s t}, Does platform call memory s t → P s → P t)
    (quiet : ∀ {s t}, Outside s t → P s → P t) (along : Along (Does platform) past) (linked : Linked Outside initial past s)
    (first : P initial) : P s := by
  have still : ∀ {a b}, Relation.ReflTransGen Outside a b → P a → P b := by
    intro a b moves holds
    induction moves with
    | refl => exact holds
    | tail _ step ih => exact quiet step ih
  induction past generalizing s with
  | nil => exact still linked first
  | cons event past ih => exact still linked.1 (own along.1 (ih along.2 linked.2))

theorem indexed_along (along : Along (Does platform) past) (linked : Linked Outside initial past s) (empty : initial.verificationTokens = []) :
    Indexed s := by
  apply along_still (fun does => indexed_acted (does_acted does)) _ along linked
  · simp [Indexed,empty]
  · exact fun outside indexed => (outside.tokens.map VerificationTokenDoc.tokenHash).nodup indexed

-- The number of the token that an issue call draws.
def drawn : Call → List (World × World) → World → Option Nat
  | .issue _,[_],w => some w.base.draws.length
  | _,_,_ => none

theorem drawn_some (drew : drawn call memory w = some n) : (∃ input, call = .issue input) ∧ (∃ revoke, memory = [revoke]) ∧
    n = w.base.draws.length := by
  unfold drawn at drew
  split at drew
  · cases drew
    exact ⟨⟨_,rfl⟩,⟨_,rfl⟩,rfl⟩
  · cases drew

theorem does_draws (does : Does platform call memory s t) : s.base.draws.length ≤ t.base.draws.length ∧
    ∀ n, drawn call memory s = some n → t.base.draws.length = n + 1 := by
  refine ⟨?_,?_⟩
  · cases does_acted does with
    | kept tokens draws stored spent => exact draws
    | revoked input asked first tokens draws => exact Nat.le_of_eq (by rw [draws])
    | stored input draw revoke asked third fresh stored tokens draws => exact draws
    | consumed service token doc asked first found spent tokens draws => exact Nat.le_of_eq (by rw [draws])
  · intro n drew
    obtain ⟨⟨input,rfl⟩,⟨revoke,rfl⟩,rfl⟩ := drawn_some drew
    obtain ⟨⟨step,i,asked,rfl⟩,_⟩ := does
    cases asked
    rw [@perform_accepted platform i s .draw trivial]
    simp [Step.update]

theorem drawn_once (along : Along (Does platform) past) (linked : Linked Outside initial past s) :
    (claimed drawn past).Nodup ∧ ∀ n ∈ claimed drawn past, n < s.base.draws.length := by
  have still : ∀ {a b}, Relation.ReflTransGen Outside a b → a.base.draws.length ≤ b.base.draws.length := by
    intro a b moves
    induction moves with
    | refl => exact Nat.le_refl _
    | tail _ step ih => exact Nat.le_trans ih step.draws
  induction past generalizing s with
  | nil => simp [claimed]
  | cons event past ih =>
    obtain ⟨once,below⟩ := ih along.2 linked.2
    obtain ⟨grows,draws⟩ := does_draws along.1
    have later := still linked.1
    cases drew : claim drawn past event with
    | none =>
      simp only [claimed,drew,Option.toList_none,List.nil_append]
      exact ⟨once,fun n listed => Nat.lt_of_lt_of_le (below n listed) (Nat.le_trans grows later)⟩
    | some n =>
      obtain ⟨_,_,rfl⟩ := drawn_some drew
      have more := draws _ drew
      simp only [claimed,drew,Option.toList_some,List.singleton_append,List.nodup_cons,List.mem_cons]
      refine ⟨⟨fun again => Nat.lt_irrefl _ (below _ again),once⟩,?_⟩
      intro m either
      rcases either with rfl | listed
      · omega
      · have bound := below m listed
        omega

theorem stores_some (stored : stores platform call memory s = some doc) : ∃ input draw revoke, call = .issue input ∧
    memory = [draw,revoke] ∧ doc = minted platform input (platform.random.fresh draw.1.base.draws.length) s := by
  unfold stores at stored
  split at stored
  · rename_i input draw revoke
    dsimp only at stored
    split at stored
    · cases stored
      exact ⟨input,draw,revoke,rfl,rfl,rfl⟩
    · cases stored
  · cases stored

theorem stores_once {whole later earlier later' earlier' : History} {event event' : Event CallId Call World}
    (once : (claimed drawn whole).Nodup) (calls : ∀ a ∈ whole, ∀ b ∈ whole, a.who = b.who → a.call = b.call)
    (split : whole = later ++ event :: earlier) (split' : whole = later' ++ event' :: earlier')
    (stored : claim (stores platform) earlier event = some doc) (stored' : claim (stores platform) earlier' event' = some doc')
    (same : doc.tokenHash = doc'.tokenHash) : event = event' ∧ earlier = earlier' := by
  obtain ⟨input,draw,revoke,asked,own,rfl⟩ := stores_some stored
  obtain ⟨input',draw',revoke',asked',own',rfl⟩ := stores_some stored'
  have equal := platform.random.injective (platform.sha256_injective same)
  -- both were drawn by one action
  obtain ⟨newer,drew,older,rfl,who,rfl,first⟩ := mine_split [] own
  obtain ⟨newer',drew',older',rfl,who',rfl,first'⟩ := mine_split [] own'
  have counted : ∀ {drew : Event CallId Call World} {older : History} {input revoke}, drew.call = .issue input →
      mine drew.who older = [revoke] → claim drawn older drew = some drew.before.base.draws.length := by
    intro drew older input revoke asked first
    unfold claim drawn
    rw [asked,first]
  have call : drew.call = .issue input := by
    rw [← asked]
    exact calls drew (by rw [split]; simp) event (by rw [split]; simp) who
  have call' : drew'.call = .issue input' := by
    rw [← asked']
    exact calls drew' (by rw [split']; simp) event' (by rw [split']; simp) who'
  have one : whole = (later ++ event :: newer) ++ drew :: older := by simp [split]
  have two : whole = (later' ++ event' :: newer') ++ drew' :: older' := by simp [split']
  have claimedOne := counted call (who ▸ first)
  have claimedTwo := counted call' (who' ▸ first')
  dsimp only at equal
  rw [← equal] at claimedTwo
  obtain ⟨rfl,rfl⟩ := claimed_once once one two claimedOne claimedTwo
  -- and a call stores once
  have people : event.who = event'.who := who.symm.trans who'
  have length : (mine event.who (newer ++ drew :: older)).length = 2 := by rw [own]; rfl
  have length' : (mine event.who (newer' ++ drew :: older)).length = 2 := by rw [people,own']; rfl
  rcases event_order (split.symm.trans split') with done | ⟨between,above⟩ | ⟨between,above⟩
  · exact done
  · have longer := @mine_longer _ _ _ _ event.who between (event' :: newer' ++ drew :: older)
    rw [above] at length
    simp only [List.cons_append] at longer
    rw [mine_cons,if_pos people.symm,List.length_cons] at longer
    omega
  · have longer := @mine_longer _ _ _ _ event.who between (event :: newer ++ drew :: older)
    rw [above] at length'
    simp only [List.cons_append] at longer
    rw [mine_cons,if_pos rfl,List.length_cons] at longer
    omega

theorem hash_before (acted : Acted platform call memory s t) (member : doc ∈ t.verificationTokens) :
    (∃ old ∈ s.verificationTokens, old.tokenHash = doc.tokenHash) ∨ stores platform call memory s = some doc := by
  cases acted with
  | kept tokens draws stored spent => exact .inl ⟨doc,tokens ▸ member,rfl⟩
  | revoked input asked first tokens draws =>
    rw [tokens] at member
    obtain ⟨old,listed,rfl⟩ := Collection.mem_updateMany.mp member
    refine .inl ⟨old,listed,?_⟩
    split <;> rfl
  | stored input draw revoke asked third fresh stored tokens draws =>
    rw [tokens] at member
    rcases List.mem_append.mp member with old | new
    · exact .inl ⟨doc,old,rfl⟩
    · rw [List.mem_singleton.mp new]
      exact .inr stored
  | consumed service token hit asked first found spent tokens draws =>
    rw [tokens] at member
    rcases Collection.mem_updateOne member with old | ⟨old,hit,rfl⟩
    · exact .inl ⟨doc,old,rfl⟩
    · exact .inl ⟨old,List.mem_of_find?_eq_some hit,rfl⟩

theorem known_along (along : Along (Does platform) past) (linked : Linked Outside initial past s)
    (empty : initial.verificationTokens = []) (member : doc ∈ s.verificationTokens) : ∃ later event earlier stored,
      past = later ++ event :: earlier ∧ claim (stores platform) earlier event = some stored ∧
      stored.tokenHash = doc.tokenHash := by
  have still : ∀ {a b}, Relation.ReflTransGen Outside a b → b.verificationTokens.Sublist a.verificationTokens := by
    intro a b moves
    induction moves with
    | refl => exact List.Sublist.refl _
    | tail _ step ih => exact step.tokens.trans ih
  induction past generalizing s doc with
  | nil =>
    have listed := (still linked).subset member
    rw [empty] at listed
    cases listed
  | cons event past ih =>
    have listed := (still linked.1).subset member
    rcases hash_before (does_acted along.1) listed with ⟨old,before,same⟩ | stored
    · obtain ⟨later,found,earlier,stored,rfl,claims,hash⟩ := ih along.2 linked.2 before
      exact ⟨event :: later,found,earlier,stored,rfl,claims,hash.trans same⟩
    · exact ⟨[],event,past,doc,rfl,stored,rfl⟩

theorem mortal_tokens (along : Along (Does platform) past) (linked : Linked Outside initial past s)
    (empty : initial.verificationTokens = []) (calls : ∀ a ∈ past, ∀ b ∈ past, a.who = b.who → a.call = b.call) :
    Mortal Unused Outside past := by
  refine ⟨?_,?_⟩
  · rintro later event earlier r split ⟨old,listed,doc,member,hash,_⟩ dead ⟨new,member',hash',unused⟩
    have along' := along_at (split ▸ along)
    rcases unused_before (does_acted along'.1) member' unused with before | stored
    · exact dead ⟨new,before,hash',unused⟩
    · obtain ⟨newer,older,rfl⟩ := List.append_of_mem listed
      have linked' := linked_at (linked_at (split ▸ linked))
      have along'' := (along_at along'.2).2
      obtain ⟨l,first,e,stored',rfl,claims,hash''⟩ := known_along along'' linked' empty member
      have below : past = (later ++ event :: newer ++ old :: l) ++ first :: e := by simp [split]
      have same := hash'.trans (hash.symm.trans hash''.symm)
      obtain ⟨_,equal⟩ := stores_once (drawn_once along linked).1 calls split below stored claims same
      have lengths := congrArg List.length equal
      simp at lengths
      omega
  · intro r s t outside dead both
    obtain ⟨doc,member,rest⟩ := both
    exact dead ⟨doc,outside.tokens.subset member,rest⟩

theorem spends_some (spent : spends platform call memory s = some r) : ∃ service token doc, call = .redeem service token ∧ memory = [] ∧
    s.verificationTokens.find? (live platform token) = some doc ∧ r = platform.sha256 token := by
  unfold spends at spent
  split at spent
  · rename_i service token
    split at spent
    · rename_i found
      cases spent
      obtain ⟨doc,known⟩ := Option.isSome_iff_exists.mp found.2
      exact ⟨service,token,doc,rfl,rfl,known,rfl⟩
    · cases spent
  · cases spent

theorem spends_unused (spent : spends platform call memory s = some r) : Unused r s := by
  obtain ⟨service,token,doc,_,_,found,rfl⟩ := spends_some spent
  have hit := List.find?_some found
  simp only [live,Bool.and_eq_true,decide_eq_true_eq,Option.isNone_iff_eq_none] at hit
  exact ⟨doc,List.mem_of_find?_eq_some found,hit.1,hit.2⟩

theorem spent_used (acted : Acted platform call memory s t) (indexed : Indexed s) (spent : spends platform call memory s = some r) :
    ¬ Unused r t := by
  obtain ⟨service,token,doc,rfl,rfl,found,rfl⟩ := spends_some spent
  cases acted with
  | kept tokens draws stored none => rw [spent] at none; cases none
  | revoked input asked => cases asked
  | stored input draw revoke asked => cases asked
  | consumed service' token' hit asked first found' spent' tokens draws =>
    cases asked
    intro both
    obtain ⟨other,member,hash,unused⟩ := both
    have rewritten := Collection.updateOne_rewrite (VerificationTokenDoc.use s.base.now) indexed found
    have named : doc.tokenHash = platform.sha256 token := by
      have matched := List.find?_some found
      simp only [live,Bool.and_eq_true,decide_eq_true_eq] at matched
      exact matched.1
    rw [tokens,rewritten] at member
    obtain ⟨old,_,rfl⟩ := Collection.mem_rewrite.mp member
    split at unused
    · exact use_consumed old _ unused
    · rename_i miss
      rw [if_neg miss] at hash
      exact miss (hash.trans named.symm)

theorem redeemed_spends {c : Config CallId Call World Error Answer} (traced : Traced (program platform) Outside initial past c)
    {i : CallId} (finished : c.Finished i (.redeem service token) (.ok (.redeemed (some result)))) :
    ∃ later event earlier, past = later ++ event :: earlier ∧ event.who = i ∧
      claim (spends platform) earlier event = some (platform.sha256 token) := by
  have kept := traced_kept (acts_program platform) (fun _ _ _ => trivial) traced
  obtain ⟨ended,accepted⟩ := kept.busy i _ _ finished _ rfl
  obtain ⟨w,left,seen,later⟩ := bind_ok.mp ended
  have states : told (mine i past) = [] ++ w :: left := see_ok.mp seen
  obtain ⟨newer,move,older,own,none,rfl⟩ := told_split states
  have empty : older = [] := by
    have lengths := congrArg List.length none
    simp [told] at lengths
    exact List.length_eq_zero_iff.mp lengths.symm
  subst empty
  obtain ⟨l,event,e,rfl,rfl,rfl,before⟩ := mine_split newer own
  obtain ⟨p,running⟩ := traced_call traced (List.mem_append_right l List.mem_cons_self)
  rw [finished] at running
  have asked : event.call = .redeem service token := (congrArg Prod.fst (Option.some.inj running)).symm
  obtain ⟨step,first,fine⟩ := accepted newer _ [] own
  cases first
  refine ⟨l,event,e,rfl,rfl,?_⟩
  unfold claim
  rw [before,asked,spends_redeem]
  cases found : event.before.verificationTokens.find? (live platform token) with
  | none => rw [found] at later; cases later
  | some doc => exact if_pos ⟨fine,rfl⟩

theorem redeemed_once {c : Config CallId Call World Error Answer} (empty : initial.verificationTokens = [])
    (traced : Traced (program platform) Outside initial past c) {i j : CallId}
    (first : c.Finished i (.redeem service token) (.ok (.redeemed (some result))))
    (second : c.Finished j (.redeem service' token) (.ok (.redeemed (some result')))) : i = j := by
  have kept := traced_kept (acts_program platform) (fun _ _ _ => trivial) traced
  have linked := traced_linked traced
  have calls : ∀ a ∈ past, ∀ b ∈ past, a.who = b.who → a.call = b.call := traced_steadfast traced
  have mortal := mortal_tokens kept.along linked empty calls
  -- of two uses the later one would find the token unused
  have order : ∀ {later middle earlier : History} {event event'}, past = later ++ event' :: (middle ++ event :: earlier) →
      claim (spends platform) earlier event = some (platform.sha256 token) →
      claim (spends platform) (middle ++ event :: earlier) event' = some (platform.sha256 token) → False := by
    intro later middle earlier event event' split claims claims'
    have whole : past = (later ++ [event']) ++ (middle ++ event :: earlier) := by simp [split]
    have along := along_at (split ▸ kept.along)
    have before := linked_at (split ▸ linked)
    have gone := spent_used (does_acted (along_at along.2).1)
      (indexed_along (along_at along.2).2 (linked_at before) empty) claims
    exact mortal.gone_stays whole before ⟨event,List.mem_cons_self,spends_unused claims⟩ gone (spends_unused claims')
  obtain ⟨later,event,earlier,split,who,claims⟩ := redeemed_spends traced first
  obtain ⟨later',event',earlier',split',who',claims'⟩ := redeemed_spends traced second
  rw [← who,← who']
  rcases event_order (split.symm.trans split') with same | ⟨between,rfl⟩ | ⟨between,rfl⟩
  · rw [same.1]
  · exact (order split claims' claims).elim
  · exact (order split' claims claims').elim

-- A token of the tuple that was stored since the first move of `i` is unused.
def Overtaken (platform : Platform) (i : CallId) (input : IssueTokenInput) (w : World) : History → Prop
  | [] => False
  | event :: past => mine i past ≠ [] ∧ (((claim (stores platform) past event).any fun doc =>
      input.supersedes doc && decide (doc ∈ w.verificationTokens)) = true ∨ Overtaken platform i input w past)

def Overtaken.decide (platform : Platform) (i : CallId) (input : IssueTokenInput) (w : World) :
    (past : History) → Decidable (Overtaken platform i input w past)
  | [] => .isFalse id
  | _ :: past =>
    have : Decidable (mine i past ≠ []) := decidable_of_iff ((mine i past).isEmpty = false) (by simp)
    @instDecidableAnd _ _ this (@instDecidableOr _ _ (decEq _ _) (decide platform i input w past))

instance (platform : Platform) (i : CallId) (input : IssueTokenInput) (w : World) (past : History) :
    Decidable (Overtaken platform i input w past) := Overtaken.decide platform i input w past

-- No issue call stores its token while one that another call has stored since its
-- revocation is unused.
def Apart (platform : Platform) : History → Prop
  | [] => True
  | event :: past => (∀ input, event.call = .issue input → (claim (stores platform) past event).isSome →
      ¬ Overtaken platform event.who input event.before past) ∧ Apart platform past

def Apart.decide (platform : Platform) : (past : History) → Decidable (Apart platform past)
  | [] => .isTrue trivial
  | event :: past =>
    have : Decidable (∀ input, event.call = .issue input → (claim (stores platform) past event).isSome →
        ¬ Overtaken platform event.who input event.before past) :=
      match asked : event.call with
      | .issue input => decidable_of_iff ((claim (stores platform) past event).isSome →
          ¬ Overtaken platform event.who input event.before past) (by simp)
      | .redeem _ _ => .isTrue (by simp)
    @instDecidableAnd _ _ this (decide platform past)

instance (platform : Platform) (past : History) : Decidable (Apart platform past) := Apart.decide platform past

-- When an issue call has stored its token, that is the one unused token of its tuple.
def OneLive (platform : Platform) : History → Prop
  | [] => True
  | event :: past => (∀ input doc, event.call = .issue input → claim (stores platform) past event = some doc →
      ∀ other ∈ event.after.verificationTokens, input.supersedes other = true → other = doc) ∧ OneLive platform past

theorem supersedes_unused {input : IssueTokenInput} (tuple : input.supersedes doc = true) : doc.consumedAt = none := by
  simp only [IssueTokenInput.supersedes,Bool.and_eq_true,Option.isNone_iff_eq_none] at tuple
  exact tuple.2

theorem unused_overtaken {input : IssueTokenInput} {i : CallId} (along : Along (Does platform) past)
    (linked : Linked Outside initial past s) (calls : ∀ event ∈ past, event.who = i → event.call = .issue input)
    (acted : mine i past ≠ []) (revoked : ∀ newer move, mine i past = newer ++ [move] → move.1.base.fault = none)
    (member : doc ∈ s.verificationTokens) (tuple : input.supersedes doc = true) (present : doc ∈ w.verificationTokens) :
    Overtaken platform i input w past := by
  have still : ∀ {a b}, Relation.ReflTransGen Outside a b → b.verificationTokens.Sublist a.verificationTokens := by
    intro a b moves
    induction moves with
    | refl => exact List.Sublist.refl _
    | tail _ step ih => exact step.tokens.trans ih
  induction past generalizing s with
  | nil => exact absurd rfl acted
  | cons event past ih =>
    have listed := (still linked.1).subset member
    by_cases first : mine i past = []
    · -- the revocation itself
      have own : event.who = i := by
        by_contra other
        rw [mine_cons,if_neg other] at acted
        exact acted first
      have healthy := revoked [] (event.before,event.after) (by rw [mine_cons,if_pos own,first]; rfl)
      have asked := calls event List.mem_cons_self own
      obtain ⟨⟨step,j,asked',after⟩,_⟩ := along.1
      rw [own,first,asked] at asked'
      cases asked'
      rw [@perform_accepted platform j event.before (.revoke input) healthy] at after
      rw [after] at listed
      obtain ⟨old,_,rfl⟩ := Collection.mem_updateMany.mp listed
      have unused := supersedes_unused tuple
      split at unused
      · exact absurd unused (use_consumed old _)
      · rename_i miss
        rw [if_neg miss] at tuple
        exact absurd tuple miss
    · refine ⟨first,?_⟩
      rcases unused_before (does_acted along.1) listed (supersedes_unused tuple) with before | stored
      · right
        apply ih along.2 linked.2 (fun one one' => calls one (List.mem_cons_of_mem _ one')) first _ before
        intro newer move shape
        by_cases own : event.who = i
        · exact revoked ((event.before,event.after) :: newer) move (by rw [mine_cons,if_pos own,shape]; rfl)
        · exact revoked newer move (by rw [mine_cons,if_neg own,shape])
      · left
        have claims : claim (stores platform) past event = some doc := stored
        simp [claims,tuple,present]

theorem overtaken_unused {input : IssueTokenInput} {i : CallId} (overtaken : Overtaken platform i input w past) :
    ∃ doc ∈ w.verificationTokens, input.supersedes doc = true := by
  induction past with
  | nil => exact overtaken.elim
  | cons event past ih =>
    rcases overtaken.2 with here | earlier
    · obtain ⟨doc,_,found⟩ := (Option.any_eq_true _ _).mp here
      simp only [Bool.and_eq_true,decide_eq_true_eq] at found
      exact ⟨doc,found.2,found.1⟩
    · exact ih earlier

theorem one_live_iff (along : Along (Does platform) past) (linked : Linked Outside initial past s)
    (calls : ∀ a ∈ past, ∀ b ∈ past, a.who = b.who → a.call = b.call) : OneLive platform past ↔ Apart platform past := by
  induction past generalizing s with
  | nil => exact Iff.rfl
  | cons event past ih =>
    have rest := ih along.2 linked.2 fun a one b two => calls a (List.mem_cons_of_mem _ one) b (List.mem_cons_of_mem _ two)
    refine and_congr ?_ rest
    have acted := does_acted along.1
    constructor
    · intro one input asked isSome overtaken
      obtain ⟨doc,stored⟩ := Option.isSome_iff_exists.mp isSome
      obtain ⟨other,member,tuple⟩ := overtaken_unused overtaken
      have storedRaw : stores platform event.call (mine event.who past) event.before = some doc := stored
      cases acted with
      | kept tokens draws none spent => rw [storedRaw] at none; cases none
      | revoked input' asked' first =>
        rw [first,asked] at storedRaw
        cases storedRaw
      | stored input' draw revoke asked' third fresh stored' tokens draws =>
        rw [storedRaw] at stored'
        cases stored'
        have same := one input _ asked stored other (tokens ▸ List.mem_append_left _ member) tuple
        exact fresh other member (by rw [same]; rfl)
      | consumed service token hit asked' =>
        rw [asked] at asked'
        cases asked'
    · intro apart input doc asked stored other member tuple
      have storedRaw : stores platform event.call (mine event.who past) event.before = some doc := stored
      rcases unused_before acted member (supersedes_unused tuple) with before | new
      · obtain ⟨input',draw,revoke,asked',own,_⟩ := stores_some storedRaw
        refine absurd (unused_overtaken along.2 linked.2 ?_ ?_ ?_ before tuple before)
          (apart input asked (by rw [stored]; rfl))
        · intro one listed who
          rw [← asked]
          exact calls one (List.mem_cons_of_mem _ listed) event List.mem_cons_self who
        · rw [own]
          exact List.cons_ne_nil _ _
        · intro newer move shape
          obtain ⟨step,first,accepted⟩ := along.1.accepted newer move [] shape
          rw [asked] at first
          cases first
          exact accepted
      · exact Option.some.inj (new.symm.trans storedRaw)

-- A token is redeemed once in every run. The token of an issue call is the one
-- unused token of its tuple exactly in the runs in which no other issue call for the
-- tuple has stored a token, still unused, since the first call's revocation.
theorem tokens_single {c : Config CallId Call World Error Answer} (empty : initial.verificationTokens = [])
    (traced : Traced (program platform) Outside initial past c) :
    (∀ i j service service' token result result', c.Finished i (.redeem service token) (.ok (.redeemed (some result))) →
      c.Finished j (.redeem service' token) (.ok (.redeemed (some result'))) → i = j) ∧
    (OneLive platform past ↔ Apart platform past) := by
  refine ⟨fun i j service service' token result result' first second => redeemed_once empty traced first second,?_⟩
  have kept := traced_kept (acts_program platform) (fun _ _ _ => trivial) traced
  apply one_live_iff kept.along (traced_linked traced)
  exact traced_steadfast traced

end

def asking : Call := .issue ⟨.password_reset,"tenant","application","user",none,none,none⟩

theorem tokens_single_serially : ∃ past c, Traced (program samplePlatform) Outside (soleAccount sampleUser) past c ∧
    c.Finished 0 asking (.ok (.issued "x" 900)) ∧ OneLive samplePlatform past ∧
    ∃ result, c.Finished 1 (.redeem ⟨"tenant","application"⟩ "x") (.ok (.redeemed (some result))) ∧
      ∀ j service' result', c.Finished j (.redeem service' "x") (.ok (.redeemed (some result'))) → 1 = j := by
  have performed : (perform (program samplePlatform) [] (start (soleAccount sampleUser)) (List.flatten [
        [.start 0 asking],List.replicate 3 (.act 0),[.start 1 (.redeem ⟨"tenant","application"⟩ "x")],
        List.replicate 2 (.act 1)])).any
        (fun after => after.2.finishedWith 0 asking (.ok (.issued "x" 900)) &&
          after.2.finishedWith 1 (.redeem ⟨"tenant","application"⟩ "x")
            (.ok (.redeemed (some ⟨"user",.password_reset,"tenant","application",none,none⟩))) &&
          decide (Apart samplePlatform after.1)) = true := by decide +kernel
  obtain ⟨past,c,traced,checked⟩ := perform_exists performed
  simp only [Bool.and_eq_true,decide_eq_true_eq] at checked
  obtain ⟨⟨issued,redeemed⟩,apart⟩ := checked
  obtain ⟨once,live⟩ := tokens_single rfl traced
  have first := finishedWith_finished redeemed
  refine ⟨past,c,traced,finishedWith_finished issued,live.mpr apart,_,first,?_⟩
  intro j service' result' second
  exact once 1 j _ service' "x" _ result' first second

-- Two issue calls revoke before either of them stores its token: both tokens stay
-- unused.
theorem tokens_doubled : ∃ past c, Traced (program samplePlatform) Outside (soleAccount sampleUser) past c ∧
    c.Finished 0 asking (.ok (.issued "x" 900)) ∧ c.Finished 1 asking (.ok (.issued "xx" 900)) ∧
    ∃ one ∈ c.state.verificationTokens, ∃ two ∈ c.state.verificationTokens, one.tokenHash = samplePlatform.sha256 "x" ∧
      two.tokenHash = samplePlatform.sha256 "xx" ∧ one.consumedAt = none ∧ two.consumedAt = none := by
  have performed : (perform (program samplePlatform) [] (start (soleAccount sampleUser)) [.start 0 asking,.start 1 asking,
      .act 0,.act 1,.act 0,.act 1,.act 0,.act 1]).any (fun after => after.2.finishedWith 0 asking (.ok (.issued "x" 900)) &&
        after.2.finishedWith 1 asking (.ok (.issued "xx" 900)) &&
        after.2.state.verificationTokens.any (fun one =>
          decide (one.tokenHash = samplePlatform.sha256 "x" ∧ one.consumedAt = none)) &&
        after.2.state.verificationTokens.any fun two =>
          decide (two.tokenHash = samplePlatform.sha256 "xx" ∧ two.consumedAt = none)) = true := by decide +kernel
  obtain ⟨past,c,traced,checked⟩ := perform_exists performed
  simp only [Bool.and_eq_true] at checked
  obtain ⟨⟨⟨first,second⟩,oneLive⟩,twoLive⟩ := checked
  obtain ⟨one,listed,shown⟩ := List.any_eq_true.mp oneLive
  obtain ⟨two,listed',shown'⟩ := List.any_eq_true.mp twoLive
  obtain ⟨hash,unused⟩ := of_decide_eq_true shown
  obtain ⟨hash',unused'⟩ := of_decide_eq_true shown'
  exact ⟨past,c,traced,finishedWith_finished first,finishedWith_finished second,one,listed,two,listed',hash,hash',unused,unused'⟩

end Pezhwan.Tokens
