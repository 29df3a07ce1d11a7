import Pezhwan.WebAuthn.Verifier
import Pezhwan.WebAuthn.Service

-- What the actions of the calls do.
namespace Pezhwan.WebAuthn
open Atomic Prog Config
variable {node : Node} {verifySignature : SignatureCheck} {asked : Asked} {s t w : World}

-- Whose ceremony a call begins, and which challenge a call takes.
def begins : Call → Option String
  | .beginRegistration userId .. | .beginAuthentication userId _ => some userId
  | _ => none

def completes : Call → Option String
  | .completeRegistration _ challenge _ | .completeAuthentication _ challenge _ => some challenge
  | _ => none

-- No counter changes, and no document comes in.
def Counters (s t : World) : Prop :=
  ∀ id doc', t.credentials.get? id = some doc' → ∃ doc, s.credentials.get? id = some doc ∧ doc.counter = doc'.counter

-- What an action of a call can do, by the moves the call has made before.
inductive Acted (node : Node) (verifySignature : SignatureCheck) (asked : Asked) (memory : List (World × World)) (s t : World) :
    Prop where
  | idle (same : t = s)
  | issued (userId : String) (i : CallId) (asks : begins asked.call = some userId)
      (made : t = (remember node asked.service.challengeTtlMs userId i s).2)
  | took (challenge : String) (asks : completes asked.call = some challenge) (first : memory = [])
      (made : t = (takeChallenge challenge s).2)
  | registered (i : CallId) (doc : WebAuthnCredentialDoc)
      (made : insert (node.random.fresh s.base.draws.length) doc {s with base := {s.base with draws := s.base.draws ++ [i]}} =
        .ok t)
  | counted (request : AuthenticationResult) (challenge origin : String) (find take : World × World) (entry : Entry)
      (newCounter : Nat) (asks : asked.call = .completeAuthentication request challenge origin) (own : memory = [find,take])
      (found : findOne (usable request.id) find.1 = some entry)
      (asserted : Asserted node verifySignature challenge origin asked.service.rpId request (handed entry.2) newCounter)
      (made : t = updateById entry.1 (used newCounter s.base.now) s)
  | managed (store : t.challengeStore = s.challengeStore) (base : t.base = s.base) (counters : Counters s t)

-- What a call that accepts an assertion has done.
structure Accepted (node : Node) (verifySignature : SignatureCheck) (service : WebAuthnService) (request : AuthenticationResult)
    (challenge origin : String) (moves : List (World × World)) (take find update : World × World) (userId : String)
    (entry : Entry) (newCounter : Nat) : Prop where
  steps : moves = [update,find,take]
  allowed : allows origin service.origins = true
  pending : claimant (takeChallenge challenge take.1).1 = some userId
  found : findOne (usable request.id) find.1 = some entry
  asserted : Asserted node verifySignature challenge origin service.rpId request (handed entry.2) newCounter
  updated : update.2 = updateById entry.1 (used newCounter update.1.base.now) update.1

def Ends (node : Node) (verifySignature : SignatureCheck) (asked : Asked) : Except Failure Reply → List (World × World) → Prop
  | .ok (.accepted true),moves => ∃ request challenge origin, asked.call = .completeAuthentication request challenge origin ∧
      ∃ take find update userId entry newCounter,
        Accepted node verifySignature asked.service request challenge origin moves take find update userId entry newCounter
  | _,_ => True

section
variable {post : Except Failure α → List (World × World) → Prop} {rule : List (World × World) → World → World → Prop}
  {memory : List (World × World)} {i : CallId}

theorem acts_operation {f : CallId → World → Except MongoError (α × World)} (still : ∀ s, rule memory s s)
    (failed : ∀ e s, post (.error e) ((s,s) :: memory))
    (served : ∀ s value t, f i s = .ok (value,t) → rule memory s t ∧ post (.ok value) ((s,t) :: memory)) :
    (operation f).Acts (fun _ => True) i rule memory post := by
  apply Acts.tryAtomic
  · intro s _ value t ran
    cases fault : s.base.fault with
    | some e =>
      rw [fault] at ran
      cases ran
    | none =>
      cases result : f i s with
      | error e =>
        rw [fault,result] at ran
        cases ran
      | ok pair =>
        rw [fault,result] at ran
        cases ran
        exact served s value t result
  · intro s _ e _
    exact ⟨still s,failed e s⟩

theorem acts_lift {read : Except String α} (failed : ∀ e, post (.error e) memory)
    (passed : ∀ value, read = .ok value → post (.ok value) memory) :
    (lift read).Acts (fun _ => True) i rule memory post := by
  cases read with
  | error message => exact Acts.throw (failed _)
  | ok value => exact Acts.pure (passed value rfl)

end

theorem ends_error (e : Failure) (moves : List (World × World)) : Ends node verifySignature asked (.error e) moves := by
  trivial

theorem find_selected {p : WebAuthnCredentialDoc → Bool} {entry : Entry} (found : findOne p w = some entry) : p entry.2 = true :=
  List.find?_some (p := fun entry : Entry => p entry.2) found

theorem usable_iff {credentialId : String} {doc : WebAuthnCredentialDoc} :
    usable credentialId doc = true ↔ doc.credentialId = credentialId ∧ doc.isRevoked = false := by
  simp [usable]

theorem updateOne_counters {p : WebAuthnCredentialDoc → Bool} {change : WebAuthnCredentialDoc → WebAuthnCredentialDoc}
    (same : ∀ doc, (change doc).counter = doc.counter) : Counters s (updateOne p change s).2 := by
  intro id doc' stored
  unfold updateOne at stored
  split at stored
  · exact ⟨doc',stored,rfl⟩
  · rename_i entry _
    unfold updateById at stored
    dsimp only at stored
    rw [Dict.get?_modify] at stored
    split at stored
    · obtain ⟨doc,old,rfl⟩ := Option.map_eq_some_iff.mp stored
      exact ⟨doc,old,(same doc).symm⟩
    · exact ⟨doc',stored,rfl⟩

theorem deleteOne_counters {p : WebAuthnCredentialDoc → Bool} : Counters s (deleteOne p s).2 := by
  intro id doc' stored
  unfold deleteOne at stored
  split at stored
  · exact ⟨doc',stored,rfl⟩
  · dsimp only at stored
    rw [Dict.get?_erase] at stored
    split at stored
    · cases stored
    · exact ⟨doc',stored,rfl⟩

theorem updateOne_rest {p : WebAuthnCredentialDoc → Bool} {change : WebAuthnCredentialDoc → WebAuthnCredentialDoc} :
    (updateOne p change s).2.challengeStore = s.challengeStore ∧ (updateOne p change s).2.base = s.base := by
  unfold updateOne
  split <;> exact ⟨rfl,rfl⟩

theorem deleteOne_rest {p : WebAuthnCredentialDoc → Bool} :
    (deleteOne p s).2.challengeStore = s.challengeStore ∧ (deleteOne p s).2.base = s.base := by
  unfold deleteOne
  split <;> exact ⟨rfl,rfl⟩

section
variable {service : WebAuthnService} {i : CallId}

theorem acts_required {change : World → Nat × World} (managed : ∀ s, Acted node verifySignature asked [] s (change s).2) :
    ((fun _ => Reply.done) <$> WebAuthnService.required change).Acts (fun _ => True) i (Acted node verifySignature asked) []
      (Ends node verifySignature asked) := by
  apply Acts.bind
  apply Acts.bind
  apply acts_operation
  · exact fun _ => .idle rfl
  · exact fun _ _ => trivial
  · intro s matched t ran
    simp only [Except.ok.injEq] at ran
    have moved := managed s
    rw [ran] at moved
    refine ⟨moved,?_⟩
    dsimp only
    split
    · exact Acts.throw trivial
    · exact Acts.pure trivial

theorem acts_beginRegistration {userId userName userDisplayName : String} {existing : List String} :
    (program node verifySignature ⟨service,.beginRegistration userId userName userDisplayName existing⟩).Acts (fun _ => True) i
      (Acted node verifySignature ⟨service,.beginRegistration userId userName userDisplayName existing⟩) []
      (Ends node verifySignature ⟨service,.beginRegistration userId userName userDisplayName existing⟩) := by
  apply Acts.bind
  apply Acts.bind
  apply Acts.atomic
  intro s _
  exact ⟨.issued userId i rfl rfl,trivial⟩

theorem acts_allowCredentials {rule : List (World × World) → World → World → Prop}
    {post : Except Failure (List String) → List (World × World) → Prop} (still : ∀ memory s, rule memory s s)
    (failed : ∀ e moves, post (.error e) moves) (passed : ∀ allowed moves, post (.ok allowed) moves) :
    (WebAuthnService.allowCredentials userId credentialIds).Acts (fun _ => True) i rule memory post := by
  unfold WebAuthnService.allowCredentials
  split
  · exact Acts.pure (passed _ _)
  · apply acts_operation (still _)
    · exact fun e _ => failed e _
    · intro s allowed t ran
      cases ran
      exact ⟨still _ s,passed _ _⟩

theorem acts_beginAuthentication {userId : String} {credentialIds : Option (List String)} :
    (program node verifySignature ⟨service,.beginAuthentication userId credentialIds⟩).Acts (fun _ => True) i
      (Acted node verifySignature ⟨service,.beginAuthentication userId credentialIds⟩) []
      (Ends node verifySignature ⟨service,.beginAuthentication userId credentialIds⟩) := by
  apply Acts.bind
  apply Acts.bind
  refine acts_allowCredentials (fun _ _ => .idle rfl) (fun _ _ => trivial) ?_
  intro allowed moves
  apply Acts.bind
  apply Acts.atomic
  intro s _
  exact ⟨.issued userId i rfl rfl,trivial⟩

theorem acts_create {doc : WebAuthnCredentialDoc} {rule : List (World × World) → World → World → Prop}
    {post : Except Failure WebAuthnCredentialDoc → List (World × World) → Prop} (still : ∀ s, rule memory s s)
    (failed : ∀ e moves, post (.error e) moves) (passed : ∀ doc moves, post (.ok doc) moves)
    (inserted : ∀ s t doc, insert (node.random.fresh s.base.draws.length) doc
      {s with base := {s.base with draws := s.base.draws ++ [i]}} = .ok t → rule memory s t) :
    (WebAuthnService.create node doc).Acts (fun _ => True) i rule memory post := by
  unfold WebAuthnService.create
  split
  · exact Acts.throw (failed _ _)
  · apply acts_operation still
    · exact fun e _ => failed e _
    · intro s stored t ran
      cases put : insert (node.random.fresh s.base.draws.length) {doc with createdAt := s.base.now}
          {s with base := {s.base with draws := s.base.draws ++ [i]}} with
      | error e =>
        simp only [put] at ran
        cases ran
      | ok after =>
        simp only [put] at ran
        cases ran
        exact ⟨inserted s _ _ put,passed _ _⟩

theorem acts_completeRegistration {registration : RegistrationResult} {challenge origin : String} :
    (program node verifySignature ⟨service,.completeRegistration registration challenge origin⟩).Acts (fun _ => True) i
      (Acted node verifySignature ⟨service,.completeRegistration registration challenge origin⟩) []
      (Ends node verifySignature ⟨service,.completeRegistration registration challenge origin⟩) := by
  apply Acts.bind
  dsimp only
  unfold WebAuthnService.completeRegistration
  split
  · exact Acts.throw trivial
  · apply Acts.bind
    apply Acts.atomic
    intro take _
    refine ⟨.took challenge rfl rfl rfl,?_⟩
    dsimp only
    split
    · exact Acts.throw trivial
    · apply Acts.bind
      refine acts_lift (fun _ => trivial) ?_
      intro verification verified
      dsimp only
      split
      · apply Acts.bind
        apply acts_operation (fun _ => .idle rfl) (fun _ _ => trivial)
        intro s existing t ran
        cases ran
        refine ⟨.idle rfl,?_⟩
        dsimp only
        split
        · exact Acts.throw trivial
        · apply Acts.bind
          refine acts_create (fun _ => .idle rfl) (fun _ _ => trivial) (fun _ _ => trivial) ?_
          intro s t doc made
          exact .registered i doc made
      · exact Acts.throw trivial

theorem acts_completeAuthentication {request : AuthenticationResult} {challenge origin : String} :
    (program node verifySignature ⟨service,.completeAuthentication request challenge origin⟩).Acts (fun _ => True) i
      (Acted node verifySignature ⟨service,.completeAuthentication request challenge origin⟩) []
      (Ends node verifySignature ⟨service,.completeAuthentication request challenge origin⟩) := by
  apply Acts.bind
  dsimp only
  unfold WebAuthnService.completeAuthentication
  split
  · exact Acts.throw trivial
  rename_i allowed
  apply Acts.bind
  apply Acts.atomic
  intro take _
  refine ⟨.took challenge rfl rfl rfl,?_⟩
  dsimp only
  split
  · exact Acts.throw trivial
  rename_i userId pending
  apply Acts.bind
  apply acts_operation (fun _ => .idle rfl) (fun _ _ => trivial)
  intro find found t ran
  cases ran
  refine ⟨.idle rfl,?_⟩
  dsimp only
  split
  · exact Acts.throw trivial
  rename_i id credential hit
  apply Acts.bind
  refine acts_lift (fun _ => trivial) ?_
  intro verification verified
  dsimp only
  split
  · exact Acts.pure trivial
  rename_i passed
  obtain ⟨newCounter,asserted,shape⟩ := verified_iff.mp ⟨verified,by simpa using passed⟩
  subst shape
  split
  · exact Acts.pure trivial
  apply Acts.bind
  apply acts_operation (fun _ => .idle rfl) (fun _ _ => trivial)
  intro s _ t ran
  cases ran
  refine ⟨.counted request challenge origin _ _ (id,credential) newCounter rfl rfl hit asserted rfl,?_⟩
  apply Acts.pure
  apply Acts.pure
  refine ⟨request,challenge,origin,rfl,_,_,_,userId,(id,credential),newCounter,rfl,?_,pending,hit,asserted,rfl⟩
  simpa using allowed

theorem acts_program (node : Node) (verifySignature : SignatureCheck) (i : CallId) (asked : Asked) :
    (program node verifySignature asked).Acts (fun _ => True) i (Acted node verifySignature asked) []
      (Ends node verifySignature asked) := by
  obtain ⟨service,call⟩ := asked
  cases call with
  | beginRegistration userId userName userDisplayName existing => exact acts_beginRegistration
  | completeRegistration registration challenge origin => exact acts_completeRegistration
  | beginAuthentication userId credentialIds => exact acts_beginAuthentication
  | completeAuthentication request challenge origin => exact acts_completeAuthentication
  | renameCredential userId credentialId nickname =>
    apply acts_required
    intro s
    exact .managed updateOne_rest.1 updateOne_rest.2 (updateOne_counters fun _ => rfl)
  | deleteCredential userId credentialId =>
    apply acts_required
    intro s
    exact .managed deleteOne_rest.1 deleteOne_rest.2 deleteOne_counters
  | revokeCredential userId credentialId =>
    apply acts_required
    intro s
    exact .managed updateOne_rest.1 updateOne_rest.2 (updateOne_counters fun _ => rfl)

end

end Pezhwan.WebAuthn
