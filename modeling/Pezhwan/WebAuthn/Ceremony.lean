import Pezhwan.Session.Family
import Pezhwan.WebAuthn.Actions

-- What an assertion that is accepted has been through.
namespace Pezhwan.WebAuthn
open Atomic Prog Config
variable {node : Node} {verifySignature : SignatureCheck} {asked : Asked} {s t w : World}

abbrev History := List (Event CallId Asked World)

-- What happens outside the calls leaves the challenge store alone.
structure Outside (s t : World) : Prop where
  store : t.challengeStore = s.challengeStore
  draws : s.base.draws.length ≤ t.base.draws.length

-- A stored challenge has been drawn by a call that begins a ceremony.
structure Issued (node : Node) (issue : Event CallId Asked World) (challenge : String) (pending : WebAuthnChallenge) (w : World) :
    Prop where
  begun : begins issue.call.call = pending.userId
  drawn : challenge = node.random.fresh issue.before.base.draws.length
  earlier : issue.before.base.draws.length < w.base.draws.length
  expires : pending.expiresAt = issue.before.base.now + issue.call.service.challengeTtlMs

def Stocked (node : Node) (past : History) (w : World) : Prop :=
  ∀ challenge pending, w.challengeStore.get? challenge = some pending →
    ∃ issue ∈ past, Issued node issue challenge pending w

-- The challenge of the `n`th draw is used up.
def Gone (node : Node) (n : Nat) (w : World) : Prop :=
  n < w.base.draws.length ∧ w.challengeStore.get? (node.random.fresh n) = none

theorem insert_rest {id : String} {doc : WebAuthnCredentialDoc} (made : insert id doc s = .ok t) :
    t.challengeStore = s.challengeStore ∧ t.base = s.base := by
  unfold insert at made
  split at made
  · cases made
  · cases made
    exact ⟨rfl,rfl⟩

-- What an action does to the challenge store.
inductive Stored (node : Node) (asked : Asked) (s t : World) : Prop where
  | kept (store : t.challengeStore = s.challengeStore) (draws : s.base.draws.length ≤ t.base.draws.length)
  | issued (userId : String) (asks : begins asked.call = some userId)
      (store : t.challengeStore = s.challengeStore.set (node.random.fresh s.base.draws.length)
        ⟨node.random.fresh s.base.draws.length,some userId,s.base.now + asked.service.challengeTtlMs⟩)
      (draws : t.base.draws.length = s.base.draws.length + 1)
  | took (challenge : String) (store : t.challengeStore = s.challengeStore.erase challenge)
      (draws : t.base.draws.length = s.base.draws.length)

theorem Acted.stored (acted : Acted node verifySignature asked memory s t) : Stored node asked s t := by
  cases acted with
  | idle same =>
    subst same
    exact .kept rfl (Nat.le_refl _)
  | issued userId i asks made =>
    subst made
    exact .issued userId asks rfl (by simp [remember])
  | took challenge asks first made =>
    subst made
    exact .took challenge rfl rfl
  | registered i doc made =>
    obtain ⟨store,base⟩ := insert_rest made
    exact .kept store (by rw [base]; simp)
  | counted request challenge origin find take entry newCounter asks own found asserted made =>
    subst made
    exact .kept rfl (Nat.le_refl _)
  | managed store base counters => exact .kept store (Nat.le_of_eq (by rw [base]))

theorem Stored.draws (stored : Stored node asked s t) : s.base.draws.length ≤ t.base.draws.length := by
  cases stored with
  | kept store draws => exact draws
  | issued userId asks store draws => omega
  | took challenge store draws => omega

theorem gone_stored (gone : Gone node n s) (stored : Stored node asked s t) : Gone node n t := by
  obtain ⟨drawn,missing⟩ := gone
  refine ⟨Nat.lt_of_lt_of_le drawn stored.draws,?_⟩
  cases stored with
  | kept store draws =>
    rw [store]
    exact missing
  | issued userId asks store draws =>
    rw [store,Dict.get?_set_ne]
    · exact missing
    · intro same
      have equal := node.random.injective same
      omega
  | took challenge store draws =>
    rw [store,Dict.get?_erase,missing]
    exact ite_self _

theorem gone_outside (gone : Gone node n s) (outside : Outside s t) : Gone node n t :=
  ⟨Nat.lt_of_lt_of_le gone.1 outside.draws,outside.store ▸ gone.2⟩

theorem Issued.mono {issue : Event CallId Asked World} (issued : Issued node issue challenge pending s)
    (more : s.base.draws.length ≤ t.base.draws.length) : Issued node issue challenge pending t :=
  ⟨issued.begun,issued.drawn,Nat.lt_of_lt_of_le issued.earlier more,issued.expires⟩

theorem stocked_outside {past : History} (stocked : Stocked node past s) (outside : Outside s t) : Stocked node past t := by
  intro challenge pending found
  rw [outside.store] at found
  obtain ⟨issue,listed,issued⟩ := stocked challenge pending found
  exact ⟨issue,listed,issued.mono outside.draws⟩

theorem stocked_step {past : History} {event : Event CallId Asked World} (stocked : Stocked node past event.before)
    (stored : Stored node event.call event.before event.after) : Stocked node (event :: past) event.after := by
  have old : ∀ challenge pending, event.before.challengeStore.get? challenge = some pending →
      ∃ issue ∈ event :: past, Issued node issue challenge pending event.after := by
    intro challenge pending found
    obtain ⟨issue,listed,issued⟩ := stocked challenge pending found
    exact ⟨issue,List.mem_cons_of_mem _ listed,issued.mono stored.draws⟩
  intro challenge pending found
  cases stored with
  | kept store draws =>
    rw [store] at found
    exact old challenge pending found
  | issued userId asks store draws =>
    rw [store,Dict.get?_set] at found
    split at found
    · rename_i new
      cases found
      exact ⟨event,List.mem_cons_self,asks,new,by omega,rfl⟩
    · exact old challenge pending found
  | took taken store draws =>
    rw [store,Dict.get?_erase] at found
    split at found
    · cases found
    · exact old challenge pending found

section
variable {past : History} {other : World → World → Prop} {initial : World}

theorem stocked_along (outside : ∀ s t, other s t → Outside s t) (empty : initial.challengeStore = Dict.empty)
    (along : Along (Acted node verifySignature) past) (linked : Linked other initial past s) : Stocked node past s := by
  have still : ∀ {past : History} {a b}, Relation.ReflTransGen other a b → Stocked node past a → Stocked node past b := by
    intro past a b moves stocked
    induction moves with
    | refl => exact stocked
    | tail _ moved ih => exact stocked_outside ih (outside _ _ moved)
  induction past generalizing s with
  | nil =>
    apply still linked
    intro challenge pending found
    rw [empty] at found
    cases found
  | cons event past ih => exact still linked.1 (stocked_step (ih along.2 linked.2) along.1.stored)

-- The event takes the challenge out of the store.
def Consumed (challenge : String) (event : Event CallId Asked World) : Prop :=
  (event.before.challengeStore.get? challenge).isSome ∧ event.after.challengeStore.get? challenge = none

theorem present_unconsumed (outside : ∀ s t, other s t → Outside s t) (empty : initial.challengeStore = Dict.empty)
    (along : Along (Acted node verifySignature) past) (linked : Linked other initial past s)
    (present : s.challengeStore.get? challenge = some pending) : ∀ event ∈ past, ¬ Consumed challenge event := by
  rintro event listed ⟨held,taken⟩
  obtain ⟨later,earlier,split⟩ := List.append_of_mem listed
  subst split
  obtain ⟨stored,found⟩ := Option.isSome_iff_exists.mp held
  obtain ⟨issue,_,issued⟩ :=
    stocked_along outside empty (along_at along).2 (linked_at linked) challenge stored found
  rw [issued.drawn] at taken present
  have gone : Gone node issue.before.base.draws.length event.after :=
    ⟨Nat.lt_of_lt_of_le issued.earlier (along_at along).1.stored.draws,taken⟩
  have still : Gone node issue.before.base.draws.length s := by
    refine (linked_since ?_ linked gone ?_).1
    · intro s t moved known
      exact gone_outside known (outside s t moved)
    · intro newer one older whole known
      rw [whole,List.append_assoc] at along
      exact gone_stored known (along_at along).1.stored
  rw [still.2] at present
  cases present

end

-- What is checked of every assertion that is accepted, whatever the signature
-- check: the challenge comes from a call that began a ceremony in time and has
-- not been taken before, and the credential, the origin, the relying party, the
-- user's presence and the signature are as they have to be.
structure Ceremony (node : Node) (verifySignature : SignatureCheck) (past : History) (i : CallId) (service : WebAuthnService)
    (request : AuthenticationResult) (challenge origin : String) (issue take : Event CallId Asked World) (find update : World × World)
    (userId : String) (entry : Entry) (newCounter : Nat) : Prop where
  taken : ∃ later earlier, past = later ++ take :: earlier ∧ take.who = i ∧ issue ∈ earlier ∧
    ∀ event ∈ earlier, ¬ Consumed challenge event
  begun : begins issue.call.call = some userId
  drawn : challenge = node.random.fresh issue.before.base.draws.length
  inTime : take.before.base.now ≤ issue.before.base.now + issue.call.service.challengeTtlMs
  accepted : Accepted node verifySignature service request challenge origin (mine i past) (take.before,take.after) find update userId
    entry newCounter
  used : entry.2.credentialId = request.id
  unrevoked : entry.2.isRevoked = false

theorem claimant_some (taken : claimant (takeChallenge challenge w).1 = some userId) :
    ∃ pending, w.challengeStore.get? challenge = some pending ∧ pending.userId = some userId ∧ w.base.now ≤ pending.expiresAt := by
  unfold claimant at taken
  obtain ⟨pending,kept,named⟩ := Option.bind_eq_some_iff.mp (Pezhwan.truthy_some taken)
  unfold takeChallenge at kept
  obtain ⟨found,fresh⟩ := Option.filter_eq_some_iff.mp kept
  refine ⟨pending,found,named,?_⟩
  simpa using fresh

theorem finished_ends {past : History} {c : Config CallId Asked World Failure Reply}
    (kept : Kept (fun _ => True) (Acted node verifySignature) (Ends node verifySignature) past c)
    (finished : c.Finished i ⟨service,.completeAuthentication request challenge origin⟩ (.ok (.accepted true))) :
    ∃ take find update userId entry newCounter,
      Accepted node verifySignature service request challenge origin (mine i past) take find update userId entry newCounter := by
  obtain ⟨request',challenge',origin',same,moves⟩ := kept.busy i _ _ finished
  cases same
  exact moves

theorem kept_program {past : History} {c : Config CallId Asked World Failure Reply} {other : World → World → Prop} {initial : World}
    (traced : Traced (program node verifySignature) other initial past c) :
    Kept (fun _ => True) (Acted node verifySignature) (Ends node verifySignature) past c :=
  traced_kept (acts_program node verifySignature) (fun _ _ _ => trivial) traced

theorem accepted_ceremony (node : Node) (verifySignature : SignatureCheck) (other : World → World → Prop) (initial : World)
    (past : History) (c : Config CallId Asked World Failure Reply) (outside : ∀ s t, other s t → Outside s t)
    (empty : initial.challengeStore = Dict.empty) (traced : Traced (program node verifySignature) other initial past c)
    (i : CallId) (service : WebAuthnService) (request : AuthenticationResult) (challenge origin : String)
    (finished : c.Finished i ⟨service,.completeAuthentication request challenge origin⟩ (.ok (.accepted true))) :
    ∃ issue take find update userId entry newCounter,
      Ceremony node verifySignature past i service request challenge origin issue take find update userId entry newCounter := by
  have kept := kept_program traced
  obtain ⟨took,find,update,userId,entry,newCounter,accepted⟩ := finished_ends kept finished
  obtain ⟨later,take,earlier,split,own,rfl,_⟩ := mine_split [update,find] accepted.steps
  obtain ⟨pending,found,named,inTime⟩ := claimant_some accepted.pending
  have along := kept.along
  have linked := traced_linked traced
  rw [split] at along linked
  have before := (along_at along).2
  obtain ⟨issue,listed,issued⟩ := stocked_along outside empty before (linked_at linked) challenge pending found
  have unconsumed := present_unconsumed outside empty before (linked_at linked) found
  obtain ⟨used,unrevoked⟩ := usable_iff.mp (find_selected accepted.found)
  exact ⟨issue,take,find,update,userId,entry,newCounter,⟨later,earlier,split,own,listed,unconsumed⟩,issued.begun.trans named,
    issued.drawn,issued.expires ▸ inTime,accepted,used,unrevoked⟩

def FLAG_UV : UInt8 := 0x04

-- Beyond what the service compares: the ceremony was begun to authenticate the owner of the credential, with a
-- credential that was asked for, and the user was verified where that is required.
structure Bound (node : Node) (verifySignature : SignatureCheck) (past : History) (i : CallId) (service : WebAuthnService)
    (request : AuthenticationResult) (challenge origin : String) (issue take : Event CallId Asked World) (find update : World × World)
    (userId : String) (credentialIds : Option (List String)) (entry : Entry) (newCounter : Nat) : Prop extends
    Ceremony node verifySignature past i service request challenge origin issue take find update userId entry newCounter where
  asked : issue.call.call = .beginAuthentication userId credentialIds
  owner : entry.2.userId = userId
  listed : ∀ ids, credentialIds = some ids → ids ≠ [] → entry.2.credentialId ∈ ids
  userVerified : service.requireUserVerification = true → flagged (authDataOf node request).flags FLAG_UV = true

theorem never_accepted {past : History} {c : Config CallId Asked World Failure Reply} {other : World → World → Prop}
    {initial : World} (traced : Traced (program node (verifyCOSESignature node)) other initial past c) :
    ¬ c.Finished i ⟨service,.completeAuthentication request challenge origin⟩ (.ok (.accepted true)) := by
  intro finished
  obtain ⟨_,_,_,_,_,_,accepted⟩ := finished_ends (kept_program traced) finished
  exact never_asserted accepted.asserted

-- An assertion that passes every check before the signature.
def sampleText : String := "\x7b\"type\":\"webauthn.get\",\"challenge\":\"x\",\"origin\":\"https://auth.example.com\"\x7d"

def sampleRpIdHash : Buffer :=
  [194,4,200,84,255,229,243,90,59,133,32,139,217,137,198,13,28,86,213,108,253,154,110,47,88,242,139,150,209,126,7,51]

def sampleDigest : Buffer :=
  [54,242,165,92,215,218,95,214,44,170,113,69,2,223,168,83,189,20,211,158,20,179,237,238,71,135,117,226,171,125,20,73]

def sampleNode : Node where
  random := Session.sampleRandom
  trim := id
  sha256 buf :=
    if buf = utf8Bytes "auth.example.com" then sampleRpIdHash
    else if buf = utf8Bytes sampleText then sampleDigest
    else []
  base64 text :=
    if text = "eyJ0eXBlIjoid2ViYXV0aG4uZ2V0IiwiY2hhbGxlbmdlIjoieCIsIm9yaWdpbiI6Imh0dHBzOi8vYXV0aC5leGFtcGxlLmNvbSJ9" then
      utf8Bytes sampleText
    else if text = "wgTIVP/l81o7hSCL2YnGDRxW1Wz9mm4vWPKLltF+BzMBAAAABw==" then sampleRpIdHash ++ [1,0,0,0,7]
    else []
  utf8 buf := String.ofList (buf.map fun byte => Char.ofNat byte.toNat)
  parse text :=
    if text = sampleText then
      .ok (.object [("type",.string "webauthn.get"),("challenge",.string "x"),("origin",.string "https://auth.example.com")])
    else .error "Unexpected token"
  verify _ _ _ _ := none

theorem sample_named : "auth.example.com" ≠ "" := by decide

theorem sample_allowed : ["https://auth.example.com/"] ≠ [] := List.cons_ne_nil _ _

def sampleService : WebAuthnService where
  rpName := "Example"
  rpId := "auth.example.com"
  origins := ["https://auth.example.com/"]
  requireUserVerification := false
  requireResidentKey := false
  attestation := .none
  challengeTtlMs := DEFAULT_CHALLENGE_TTL_MS
  named := sample_named
  allowed := sample_allowed

def sampleCredential : WebAuthnCredentialDoc where
  tenantId := "user"
  userId := "user"
  credentialId := "credential"
  publicKey := "a0"
  counter := 3
  transports := []
  attestationFormat := some "none"
  nickname := none
  aaguid := none
  discoverable := false
  userVerified := false
  isRevoked := false
  revokedAt := none
  lastUsedAt := none
  createdAt := 0

def sampleWorld : World := ⟨⟨0,[],none,[]⟩,Dict.empty,Dict.empty.set "id" sampleCredential⟩

def sampleAssertion : AuthenticationResult where
  id := "credential"
  authenticatorData := "wgTIVP_l81o7hSCL2YnGDRxW1Wz9mm4vWPKLltF-BzMBAAAABw"
  clientDataJSON :=
    "eyJ0eXBlIjoid2ViYXV0aG4uZ2V0IiwiY2hhbGxlbmdlIjoieCIsIm9yaWdpbiI6Imh0dHBzOi8vYXV0aC5leGFtcGxlLmNvbSJ9"
  signature := ""

def sampleAsked : Asked := ⟨sampleService,.completeAuthentication sampleAssertion "x" "https://auth.example.com"⟩

def sampleCues : List (Cue CallId Asked World) :=
  [.start 0 ⟨sampleService,.beginAuthentication "user" (some ["credential"])⟩,.act 0,.start 1 sampleAsked,.act 1,.act 1]

def isolated (_ _ : World) : Prop := False

def shows (c : Config CallId Asked World Failure Reply) (i : CallId) (asked : Asked) (reply : Reply) : Bool :=
  match c.calls i with
  | some (call,.done (.ok answer)) => call = asked && answer = reply
  | _ => false

theorem shows_finished {c : Config CallId Asked World Failure Reply} (shown : shows c i asked reply = true) :
    c.Finished i asked (.ok reply) := by
  unfold shows at shown
  split at shown
  · rename_i call answer running
    simp only [Bool.and_eq_true,decide_eq_true_eq] at shown
    obtain ⟨rfl,rfl⟩ := shown
    exact running
  · cases shown

-- The check that lets every signature pass.
def lenient : SignatureCheck := fun _ _ _ => .ok true

end Pezhwan.WebAuthn
