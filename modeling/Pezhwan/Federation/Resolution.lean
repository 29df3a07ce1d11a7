import Pezhwan.Auth.Total
import Pezhwan.Federation.Service

-- Which users a federated sign-in resolves to, and how often a subject is linked.
namespace Pezhwan.Federation
open Atomic Prog Config
open Auth (Platform)
variable {platform : Platform} {service : FederatedIdentityService} {input : LinkIdentityInput} {identity : LinkedIdentity}
  {userId : String} {users : List UserDoc} {s t w : World}

-- No identity is linked to two users of one tenant.
def Single (users : List UserDoc) : Prop :=
  ∀ one ∈ users, ∀ two ∈ users, one.tenantId = two.tenantId → ∀ identity ∈ one.identities, identity ∈ two.identities →
    one.id = two.id

-- The user a resolution returns is of the tenant and holds the identity.
def Resolves (input : LinkIdentityInput) (resolved : FederatedResolution) : Prop :=
  ∀ user, resolved.user = some user → user.tenantId = input.tenantId ∧ input.identity ∈ user.identities

-- Nobody else in the tenant holds the identity.
def Free (tenantId : String) (identity : LinkedIdentity) (userId : String) (users : List UserDoc) : Prop :=
  ∀ user ∈ users, user.tenantId = tenantId → identity ∈ user.identities → user.id = userId

theorem mem_addToSet {user : UserDoc} {other : LinkedIdentity} :
    other ∈ (addToSet identity user).identities ↔ other ∈ user.identities ∨ other = identity := by
  unfold addToSet
  dsimp only
  split
  · rename_i held
    constructor
    · exact .inl
    · rintro (old | rfl)
      · exact old
      · simpa using held
  · simp

theorem single_subset {fewer : List UserDoc} (single : Single users)
    (each : ∀ user ∈ fewer, user.identities = [] ∨ ∃ old ∈ users, old.id = user.id ∧ old.tenantId = user.tenantId ∧
      ∀ identity ∈ user.identities, identity ∈ old.identities) : Single fewer := by
  intro one first two second tenant identity held held'
  rcases each one first with none | ⟨old,listed,id,home,kept⟩
  · rw [none] at held
    cases held
  · rcases each two second with none | ⟨old',listed',id',home',kept'⟩
    · rw [none] at held'
      cases held'
    · rw [← id,← id']
      apply single old listed old' listed' _ identity (kept identity held) (kept' identity held')
      rw [home,home',tenant]

theorem single_unlink (single : Single users) (userId : String) (identity : LinkedIdentity) :
    Single (updateById userId (pull identity) users) := by
  apply single_subset single
  intro user member
  right
  rcases Collection.mem_updateOne member with old | ⟨old,found,rfl⟩
  · exact ⟨user,old,rfl,rfl,fun _ held => held⟩
  · exact ⟨old,List.mem_of_find?_eq_some found,rfl,rfl,fun _ held => (List.mem_filter.mp held).1⟩

theorem updateOne_hit {p : UserDoc → Bool} {change : UserDoc → UserDoc} (found : users.find? p = some user) :
    change user ∈ Collection.updateOne p change users := by
  induction users with
  | nil => cases found
  | cons head rest ih =>
    rw [List.find?_cons] at found
    unfold Collection.updateOne
    split at found
    · rename_i hit
      cases found
      rw [if_pos hit]
      exact List.mem_cons_self
    · rename_i miss
      rw [if_neg (by simp [miss])]
      exact List.mem_cons_of_mem _ (ih found)

theorem userWithId_id (found : userWithId userId users = some user) : user.id = userId :=
  of_decide_eq_true (List.find?_some (p := fun user : UserDoc => decide (user.id = userId)) found)

theorem single_link (single : Single users) : Single (updateById userId (addToSet identity) users) ↔
    ∀ user, userWithId userId users = some user → Free user.tenantId identity userId users := by
  constructor
  · intro after user found other listed home held
    by_cases same : other.id = userId
    · exact same
    have linked : addToSet identity user ∈ updateById userId (addToSet identity) users := updateOne_hit found
    have kept : other ∈ updateById userId (addToSet identity) users :=
      Collection.updateOne_spares listed (by simpa using same) _
    have equal := after other kept _ linked home identity held (mem_addToSet.mpr (.inr rfl))
    have named := userWithId_id found
    exact equal.trans named
  · intro free
    -- at most one of two holders is the user just linked
    have across : ∀ old, userWithId userId users = some old → ∀ other ∈ users, old.tenantId = other.tenantId →
        ∀ shared ∈ (addToSet identity old).identities, shared ∈ other.identities → old.id = other.id := by
      intro old found other listed home shared held held'
      rcases mem_addToSet.mp held with before | rfl
      · exact single old (List.mem_of_find?_eq_some found) other listed home shared before held'
      · exact (userWithId_id found).trans (free old found other listed home.symm held').symm
    intro one first two second home shared held held'
    rcases Collection.mem_updateOne first with old | ⟨old,found,rfl⟩
    · rcases Collection.mem_updateOne second with old' | ⟨old',found',rfl⟩
      · exact single one old two old' home shared held held'
      · exact (across old' found' one old home.symm shared held' held).symm
    · rcases Collection.mem_updateOne second with old' | ⟨old',found',rfl⟩
      · exact across old found two old' home shared held held'
      · exact (userWithId_id found).trans (userWithId_id found').symm

theorem single_create {user : UserDoc} (single : Single users) (fresh : taken user users = false)
    (only : user.identities = [identity]) : Single (users ++ [user]) ↔
      ∀ other ∈ users, other.tenantId = user.tenantId → identity ∉ other.identities := by
  have distinct : ∀ other ∈ users, other.id ≠ user.id := by
    intro other listed same
    have free := List.any_eq_false.mp fresh other listed
    simp [same] at free
  constructor
  · intro after other listed home held
    have equal := after other (List.mem_append_left _ listed) user (by simp) home identity held (by simp [only])
    exact distinct other listed equal
  · intro free one first two second home shared held held'
    rcases List.mem_append.mp first with old | new
    · rcases List.mem_append.mp second with old' | new'
      · exact single one old two old' home shared held held'
      · rw [List.mem_singleton.mp new'] at home held'
        rw [only,List.mem_singleton] at held'
        exact absurd (held' ▸ held) (free one old home)
    · rcases List.mem_append.mp second with old' | new'
      · rw [List.mem_singleton.mp new] at home held
        rw [only,List.mem_singleton] at held
        exact absurd (held ▸ held') (free two old' home.symm)
      · rw [List.mem_singleton.mp new,List.mem_singleton.mp new']

-- What the actions of a resolution see and store.
def looked (input : LinkIdentityInput) (users : List UserDoc) : Option UserDoc :=
  users.find? (selects input.tenantId input.provider input.subject)

def emailOf (platform : Platform) (input : LinkIdentityInput) : Option String :=
  truthy ((input.profile.bind FederatedProfile.email).map platform.toLowerCase)

def newcomer (platform : Platform) (input : LinkIdentityInput) (email : String) (w : World) : UserDoc :=
  provisioned platform (platform.random.fresh w.base.draws.length) input.tenantId email input.identity

def linked (userId : String) (identity : LinkedIdentity) (w : World) : List UserDoc × Option UserDoc :=
  if w.base.fault = none then
    (updateById userId (addToSet identity) w.users,(userWithId userId w.users).map (addToSet identity))
  else (w.users,none)

def created (user : UserDoc) (w : World) : List UserDoc × Option UserDoc :=
  if w.base.fault = none ∧ refusal user w.users = none then (w.users ++ [user],some user) else (w.users,none)

def written (platform : Platform) (input : LinkIdentityInput) (w : World) : List UserDoc × Option UserDoc :=
  match truthy input.userId,emailOf platform input with
  | some userId,_ => linked userId input.identity w
  | none,some email => created (newcomer platform input email w) w
  | none,none => (w.users,none)

-- What a resolution has come to by its moves.
def outcome (platform : Platform) (input : LinkIdentityInput) : List (World × World) → Option FederatedResolution
  | [lookup] => if lookup.1.base.fault = none then (looked input lookup.1.users).map (⟨some ·,false⟩) else none
  | [write,_] => (written platform input write.1).2.map (⟨some ·,true⟩)
  | _ => none

def Does (platform : Platform) : Call → List (World × World) → World → World → Prop
  | .resolve _,[],s,t => t.users = s.users
  | .resolve input,[lookup],s,t => outcome platform input [lookup] = none ∧ t.users = (written platform input s).1
  | .link userId provider subject,[],s,t => t.users = (linked userId ⟨provider,subject⟩ s).1
  | .unlink userId provider subject,[],s,t =>
      t.users = s.users ∨ t.users = updateById userId (pull ⟨provider,subject⟩) s.users
  | _,_,_,_ => False

def Ends (platform : Platform) : Call → Except Error Reply → List (World × World) → Prop
  | .resolve input,result,moves => ∀ resolved, result = .ok (.resolution resolved) ↔ outcome platform input moves = some resolved
  | _,_,_ => True

theorem ends_error {e : Error} {moves : List (World × World)} (none : outcome service.platform input moves = none) :
    Ends service.platform (.resolve input) (.error e) moves := by
  intro resolved
  rw [none]
  constructor
  · intro same
    cases same
  · intro same
    cases same

theorem ends_ok {moves : List (World × World)} (came : outcome service.platform input moves = some resolved) :
    Ends service.platform (.resolve input) (.ok (.resolution resolved)) moves := by
  intro other
  rw [came]
  constructor
  · intro same
    cases same
    rfl
  · intro same
    cases same
    rfl

theorem acts_resolve (service : FederatedIdentityService) (i : CallId) (input : LinkIdentityInput) :
    (program service (.resolve input)).Acts (fun _ => True) i (Does service.platform (.resolve input)) []
      (Ends service.platform (.resolve input)) := by
  apply Acts.bind
  apply Acts.bind
  apply acts_mongo
  · intro lookup _ healthy found t ran
    cases ran
    refine ⟨rfl,?_⟩
    cases hit : lookup.users.find? (selects input.tenantId input.provider input.subject) with
    | some existing => exact ends_ok (by simp [outcome,healthy,looked,hit])
    | none =>
      have missed : outcome service.platform input [(lookup,lookup)] = none := by simp [outcome,looked,hit]
      dsimp only
      cases given : truthy input.userId with
      | some userId =>
        have shape : ∀ s, written service.platform input s = linked userId input.identity s := by
          intro s
          unfold written
          rw [given]
        apply Acts.bind
        apply Acts.bind
        apply acts_mongo
        · intro s _ healthy user t ran
          cases ran
          refine ⟨⟨missed,by rw [shape,linked,if_pos healthy]; rfl⟩,?_⟩
          cases stored : userWithId userId s.users with
          | none => exact ends_error (by simp [outcome,shape,linked,stored,healthy])
          | some user => exact ends_ok (by simp [outcome,shape,linked,stored,healthy]; rfl)
        · intro s e _ failed
          have faulty : s.base.fault ≠ none := by
            rcases failed with fault | refused
            · simp [fault]
            · cases refused
          refine ⟨⟨missed,by rw [shape,linked,if_neg faulty]⟩,?_⟩
          exact ends_error (by simp [outcome,shape,linked,faulty])
      | none =>
        dsimp only
        cases email : truthy ((input.profile.bind FederatedProfile.email).map service.platform.toLowerCase) with
        | none => exact ends_error missed
        | some address =>
          dsimp only
          split
          · exact ends_error missed
          · have shape : ∀ s, written service.platform input s = created (newcomer service.platform input address s) s := by
              intro s
              unfold written emailOf
              rw [given,email]
            apply Acts.bind
            apply acts_mongo
            · intro s _ healthy user t ran
              dsimp only at ran
              split at ran
              · cases ran
              · rename_i free
                cases ran
                have free : refusal (newcomer service.platform input address s) s.users = none := by simpa [newcomer] using free
                refine ⟨⟨missed,by rw [shape,created,if_pos ⟨healthy,free⟩]; rfl⟩,?_⟩
                exact ends_ok (by simp [outcome,shape,created,healthy,free]; rfl)
            · intro s e _ failed
              have refused : ¬ (s.base.fault = none ∧ refusal (newcomer service.platform input address s) s.users = none) := by
                intro both
                rcases failed with fault | refused
                · cases fault.symm.trans both.1
                · dsimp only at refused
                  rw [newcomer] at both
                  rw [both.2] at refused
                  cases refused
              refine ⟨⟨missed,by rw [shape,created,if_neg refused]⟩,?_⟩
              exact ends_error (by simp [outcome,shape,created,refused])
  · intro lookup e _ failed
    have faulty : lookup.base.fault ≠ none := by
      rcases failed with fault | refused
      · simp [fault]
      · cases refused
    exact ⟨rfl,ends_error (by simp [outcome,faulty])⟩

theorem acts_link (service : FederatedIdentityService) (i : CallId) (userId provider subject : String) :
    (program service (.link userId provider subject)).Acts (fun _ => True) i
      (Does service.platform (.link userId provider subject)) [] (Ends service.platform (.link userId provider subject)) := by
  apply Acts.bind
  apply Acts.bind
  apply acts_mongo
  · intro s _ healthy found t ran
    cases ran
    refine ⟨by rw [Does,linked,if_pos healthy],?_⟩
    cases userWithId userId s.users <;> exact trivial
  · intro s e _ failed
    have faulty : s.base.fault ≠ none := by
      rcases failed with fault | refused
      · simp [fault]
      · cases refused
    exact ⟨by rw [Does,linked,if_neg faulty],trivial⟩

theorem acts_unlink (service : FederatedIdentityService) (i : CallId) (userId provider subject : String) :
    (program service (.unlink userId provider subject)).Acts (fun _ => True) i
      (Does service.platform (.unlink userId provider subject)) [] (Ends service.platform (.unlink userId provider subject)) := by
  apply Acts.bind
  apply acts_mongo
  · intro s _ healthy found t ran
    cases ran
    exact ⟨.inr rfl,trivial⟩
  · intro s e _ failed
    exact ⟨.inl rfl,trivial⟩

theorem acts_program (service : FederatedIdentityService) (i : CallId) (call : Call) :
    (program service call).Acts (fun _ => True) i (Does service.platform call) [] (Ends service.platform call) := by
  cases call with
  | resolve input => exact acts_resolve service i input
  | link userId provider subject => exact acts_link service i userId provider subject
  | unlink userId provider subject => exact acts_unlink service i userId provider subject

-- A lookup meets no user that holds the provider and the subject in two
-- elements only; who gets an identity is of the tenant, and the only one in it.
def Linkable (userId : String) (identity : LinkedIdentity) (w : World) : Prop :=
  w.base.fault = none → ∀ user, userWithId userId w.users = some user → Free user.tenantId identity userId w.users

def Homely (userId : String) (input : LinkIdentityInput) (w : World) : Prop :=
  w.base.fault = none → ∀ user, userWithId userId w.users = some user → user.tenantId = input.tenantId

def Unclaimed (platform : Platform) (input : LinkIdentityInput) (email : String) (w : World) : Prop :=
  w.base.fault = none → refusal (newcomer platform input email w) w.users = none →
    ∀ user ∈ w.users, user.tenantId = input.tenantId → input.identity ∉ user.identities

def Assignable (platform : Platform) (input : LinkIdentityInput) (w : World) : Prop :=
  (∀ userId ∈ truthy input.userId, Linkable userId input.identity w ∧ Homely userId input w) ∧
    (truthy input.userId = none → ∀ email ∈ emailOf platform input, Unclaimed platform input email w)

def Fits (platform : Platform) : Call → List (World × World) → World → World → Prop
  | .resolve input,[],s,_ => s.base.fault = none → ∀ user, looked input s.users = some user → input.identity ∈ user.identities
  | .resolve input,_,s,_ => Assignable platform input s
  | .link userId provider subject,_,s,_ => Linkable userId ⟨provider,subject⟩ s
  | .unlink .. ,_,_,_ => True

instance (tenantId : String) (identity : LinkedIdentity) (userId : String) (users : List UserDoc) :
    Decidable (Free tenantId identity userId users) :=
  inferInstanceAs (Decidable (∀ user ∈ users, user.tenantId = tenantId → identity ∈ user.identities → user.id = userId))

instance (userId : String) (identity : LinkedIdentity) (w : World) : Decidable (Linkable userId identity w) :=
  inferInstanceAs (Decidable (w.base.fault = none → ∀ user ∈ userWithId userId w.users,
    Free user.tenantId identity userId w.users))

instance (userId : String) (input : LinkIdentityInput) (w : World) : Decidable (Homely userId input w) :=
  inferInstanceAs (Decidable (w.base.fault = none → ∀ user ∈ userWithId userId w.users, user.tenantId = input.tenantId))

instance (platform : Platform) (input : LinkIdentityInput) (email : String) (w : World) :
    Decidable (Unclaimed platform input email w) :=
  inferInstanceAs (Decidable (w.base.fault = none → refusal (newcomer platform input email w) w.users = none →
    ∀ user ∈ w.users, user.tenantId = input.tenantId → input.identity ∉ user.identities))

instance (platform : Platform) (input : LinkIdentityInput) (w : World) : Decidable (Assignable platform input w) :=
  inferInstanceAs (Decidable (_ ∧ _))

instance (platform : Platform) : (call : Call) → (memory : List (World × World)) → (s t : World) →
    Decidable (Fits platform call memory s t)
  | .resolve input,[],s,_ => inferInstanceAs (Decidable (s.base.fault = none →
      ∀ user ∈ looked input s.users, input.identity ∈ user.identities))
  | .resolve input,_ :: _,s,_ => inferInstanceAs (Decidable (Assignable platform input s))
  | .link userId provider subject,_,s,_ => inferInstanceAs (Decidable (Linkable userId ⟨provider,subject⟩ s))
  | .unlink .. ,_,_,_ => .isTrue trivial

-- What an action lets a resolution return.
def Right (platform : Platform) : Call → List (World × World) → Prop
  | .resolve input,moves => ∀ resolved, outcome platform input moves = some resolved → Resolves input resolved
  | _,_ => True

theorem single_linked (single : Single s.users) :
    Single (linked userId identity s).1 ↔ Linkable userId identity s := by
  unfold linked Linkable
  by_cases healthy : s.base.fault = none
  · rw [if_pos healthy]
    exact (single_link single).trans ⟨fun free _ => free,fun free => free healthy⟩
  · rw [if_neg healthy]
    exact iff_of_true single fun fit => absurd fit healthy

theorem looked_tenant (found : looked input users = some user) : user.tenantId = input.tenantId := by
  have selected := List.find?_some found
  simp only [selects,Bool.and_eq_true,decide_eq_true_eq] at selected
  exact selected.1.1

theorem right_lookup : Right platform (.resolve input) [(s,t)] ↔ Fits platform (.resolve input) [] s t := by
  unfold Right Fits outcome
  dsimp only
  by_cases healthy : s.base.fault = none
  · rw [if_pos healthy]
    constructor
    · intro right _ user found
      exact (right ⟨some user,false⟩ (by rw [found]; rfl) user rfl).2
    · intro fits resolved came user returned
      obtain ⟨known,found,rfl⟩ := Option.map_eq_some_iff.mp came
      cases returned
      exact ⟨looked_tenant found,fits healthy user found⟩
  · rw [if_neg healthy]
    exact iff_of_true (fun _ none => by cases none) fun fit => absurd fit healthy

theorem fits_linked {lookup : World × World} (single : Single s.users) (given : truthy input.userId = some userId) :
    (Right platform (.resolve input) [(s,t),lookup] ∧ Single (written platform input s).1) ↔
      Fits platform (.resolve input) [lookup] s t := by
  have shape : written platform input s = linked userId input.identity s := by
    unfold written
    rw [given]
  have fits : Fits platform (.resolve input) [lookup] s t ↔ Linkable userId input.identity s ∧ Homely userId input s := by
    change Assignable platform input s ↔ _
    unfold Assignable
    simp [given]
  rw [fits,shape,single_linked single,and_comm]
  apply and_congr_right
  intro _
  unfold Right outcome
  dsimp only
  rw [shape,linked]
  by_cases healthy : s.base.fault = none
  · rw [if_pos healthy]
    constructor
    · intro right _ user found
      exact (right ⟨some (addToSet input.identity user),true⟩ (by rw [found]; rfl) _ rfl).1
    · intro home resolved came user returned
      obtain ⟨known,stored,rfl⟩ := Option.map_eq_some_iff.mp came
      obtain ⟨old,found,rfl⟩ := Option.map_eq_some_iff.mp stored
      cases returned
      exact ⟨home healthy old found,mem_addToSet.mpr (.inr rfl)⟩
  · rw [if_neg healthy]
    exact iff_of_true (fun _ none => by cases none) fun fit => absurd fit healthy

theorem fits_created {lookup : World × World} (single : Single s.users) (absent : truthy input.userId = none)
    (email : emailOf platform input = some address) :
    (Right platform (.resolve input) [(s,t),lookup] ∧ Single (written platform input s).1) ↔
      Fits platform (.resolve input) [lookup] s t := by
  have shape : written platform input s = created (newcomer platform input address s) s := by
    unfold written
    rw [absent,email]
  have right : Right platform (.resolve input) [(s,t),lookup] := by
    unfold Right outcome
    dsimp only
    rw [shape,created]
    intro resolved came user returned
    split at came
    · obtain ⟨known,stored,rfl⟩ := Option.map_eq_some_iff.mp came
      cases stored
      cases returned
      exact ⟨rfl,List.mem_singleton_self _⟩
    · cases came
  have fits : Fits platform (.resolve input) [lookup] s t ↔ Unclaimed platform input address s := by
    change Assignable platform input s ↔ _
    unfold Assignable
    simp [absent,email]
  rw [fits,shape,created]
  by_cases admitted : s.base.fault = none ∧ refusal (newcomer platform input address s) s.users = none
  · rw [if_pos admitted]
    have step : Single (s.users ++ [newcomer platform input address s]) ↔
        ∀ user ∈ s.users, user.tenantId = input.tenantId → input.identity ∉ user.identities :=
      single_create single (refusal_free admitted.2) rfl
    constructor
    · intro both _ _
      exact step.mp both.2
    · intro free
      exact ⟨right,step.mpr (free admitted.1 admitted.2)⟩
  · rw [if_neg admitted]
    exact iff_of_true ⟨right,single⟩ fun healthy free => absurd ⟨healthy,free⟩ admitted

theorem fits_step {call : Call} {memory : List (World × World)} (single : Single s.users)
    (does : Does platform call memory s t) :
    (Right platform call ((s,t) :: memory) ∧ Single t.users) ↔ Fits platform call memory s t := by
  cases call with
  | resolve input =>
    rcases memory with _ | ⟨lookup,_ | ⟨older,rest⟩⟩
    · have kept : t.users = s.users := does
      rw [kept]
      exact (and_iff_left single).trans right_lookup
    · rw [does.2]
      cases given : truthy input.userId with
      | some userId => exact fits_linked single given
      | none =>
        cases email : emailOf platform input with
        | some address => exact fits_created single given email
        | none =>
          have shape : written platform input s = (s.users,none) := by
            unfold written
            rw [given,email]
          have right : Right platform (.resolve input) [(s,t),lookup] := by
            unfold Right outcome
            dsimp only
            rw [shape]
            intro resolved came
            cases came
          have fits : Fits platform (.resolve input) [lookup] s t := by
            change Assignable platform input s
            unfold Assignable
            simp [given,email]
          rw [shape]
          exact iff_of_true ⟨right,single⟩ fits
    · exact does.elim
  | link userId provider subject =>
    rcases memory with _ | ⟨older,rest⟩
    · have stored : t.users = (linked userId ⟨provider,subject⟩ s).1 := does
      rw [stored]
      exact (and_iff_right trivial).trans (single_linked single)
    · exact does.elim
  | unlink userId provider subject =>
    rcases memory with _ | ⟨older,rest⟩
    · rcases does with kept | pulled
      · rw [kept]
        exact iff_of_true ⟨trivial,single⟩ trivial
      · rw [pulled]
        exact iff_of_true ⟨trivial,single_unlink single _ _⟩ trivial
    · exact does.elim

-- The surroundings add users without identities; what they change otherwise is
-- neither an id, a tenant nor an identity.
def Outside (s t : World) : Prop :=
  ∀ user ∈ t.users, user.identities = [] ∨ ∃ old ∈ s.users, old.id = user.id ∧ old.tenantId = user.tenantId ∧
    old.identities = user.identities

theorem single_outside (outside : Outside s t) (single : Single s.users) : Single t.users := by
  apply single_subset single
  intro user listed
  rcases outside user listed with none | ⟨old,before,id,home,same⟩
  · exact .inl none
  · exact .inr ⟨old,before,id,home,fun identity held => same.symm ▸ held⟩

abbrev History := List (Event CallId Call World)

def alongFits (platform : Platform) : (past : History) → Decidable (Along (Fits platform) past)
  | [] => .isTrue trivial
  | _ :: past => @instDecidableAnd _ _ inferInstance (alongFits platform past)

instance (platform : Platform) (past : History) : Decidable (Along (Fits platform) past) := alongFits platform past

section
variable {past : History} {other : World → World → Prop} {initial : World} {c : Config CallId Call World Error Reply}

theorem along_fits (outside : ∀ s t, other s t → Outside s t) (first : Single initial.users)
    (along : Along (Does platform) past) (linked : Linked other initial past s) :
    ((Along (fun call memory s t => Right platform call ((s,t) :: memory) ∧ Single t.users) past) ↔ Along (Fits platform) past) ∧
      (Along (Fits platform) past → Single s.users) := by
  have still : ∀ {a b}, Relation.ReflTransGen other a b → Single a.users → Single b.users := by
    intro a b moves single
    induction moves with
    | refl => exact single
    | tail _ moved ih => exact single_outside (outside _ _ moved) ih
  induction past generalizing s with
  | nil => exact ⟨Iff.rfl,fun _ => still linked first⟩
  | cons event past ih =>
    obtain ⟨same,reached⟩ := ih along.2 linked.2
    have step : Along (Fits platform) past →
        ((Right platform event.call ((event.before,event.after) :: mine event.who past) ∧ Single event.after.users) ↔
          Fits platform event.call (mine event.who past) event.before event.after) :=
      fun fits => fits_step (reached fits) along.1
    constructor
    · constructor
      · intro sound
        have earlier := same.mp sound.2
        exact ⟨(step earlier).mp sound.1,earlier⟩
      · intro fits
        exact ⟨(step fits.2).mpr fits.1,same.mpr fits.2⟩
    · intro fits
      exact still linked.1 ((step fits.2).mpr fits.1).2

theorem does_unsettled {memory : List (World × World)} (does : Does platform (.resolve input) memory s t) :
    outcome platform input memory = none := by
  rcases memory with _ | ⟨lookup,_ | ⟨older,rest⟩⟩
  · rfl
  · exact does.1
  · exact does.elim

theorem settled_finished {later earlier : History} {event : Event CallId Call World}
    (traced : Traced (program service) other initial past c)
    (kept : Kept (fun _ => True) (Does service.platform) (Ends service.platform) past c)
    (whole : past = later ++ event :: earlier) (asked : event.call = .resolve input)
    (settled : outcome service.platform input ((event.before,event.after) :: mine event.who earlier) = some resolved) :
    c.Finished event.who (.resolve input) (.ok (.resolution resolved)) := by
  have moves : mine event.who past = (event.before,event.after) :: mine event.who earlier := by
    have split : mine event.who past = mine event.who later ++ (event.before,event.after) :: mine event.who earlier := by
      rw [whole,mine_append,mine_cons,if_pos rfl]
    rcases List.eq_nil_or_concat (mine event.who later) with none | ⟨newer,next,last⟩
    · rw [split,none,List.nil_append]
    · rw [last,List.concat_eq_append,List.append_assoc,List.singleton_append] at split
      obtain ⟨after,again,before,place,who,_,memory⟩ := mine_split newer split
      have did := (along_at (place ▸ kept.along)).1
      have listed : event ∈ past := by simp [whole]
      have listed' : again ∈ past := by simp [place]
      obtain ⟨p,running⟩ := traced_call traced listed
      obtain ⟨q,running'⟩ := traced_call traced listed'
      rw [who,running] at running'
      simp only [Option.some.injEq,Prod.mk.injEq] at running'
      rw [who,memory,← running'.1,asked] at did
      rw [does_unsettled did] at settled
      cases settled
  have listed : event ∈ past := by simp [whole]
  obtain ⟨p,running⟩ := traced_call traced listed
  rw [asked] at running
  have acts := kept.busy _ _ _ running
  rw [moves] at acts
  cases p with
  | done result =>
    have same := (acts resolved).mpr settled
    rw [same] at running
    exact running
  | act update next =>
    have did := (acts event.before trivial).1
    rw [does_unsettled did] at settled
    cases settled

theorem along_of {rule : Call → List (World × World) → World → World → Prop}
    (each : ∀ later event earlier, past = later ++ event :: earlier →
      rule event.call (mine event.who earlier) event.before event.after) : Along rule past := by
  induction past with
  | nil => trivial
  | cons event past ih =>
    refine ⟨each [] event past rfl,ih ?_⟩
    intro later one earlier split
    exact each (event :: later) one earlier (by rw [split]; rfl)

theorem along_sound (traced : Traced (program service) other initial past c)
    (kept : Kept (fun _ => True) (Does service.platform) (Ends service.platform) past c) :
    Along (fun call memory s t => Right service.platform call ((s,t) :: memory) ∧ Single t.users) past ↔
      (∀ i input resolved, c.Finished i (.resolve input) (.ok (.resolution resolved)) → Resolves input resolved) ∧
        ∀ event ∈ past, Single event.after.users := by
  constructor
  · intro sound
    constructor
    · intro i input resolved finished
      have came := (kept.busy i _ _ finished resolved).mp rfl
      cases moves : mine i past with
      | nil =>
        rw [moves] at came
        cases came
      | cons move memory =>
        rw [moves] at came
        obtain ⟨later,event,earlier,whole,who,rfl,rest⟩ := mine_split [] moves
        have asked : event.call = .resolve input := by
          have listed : event ∈ past := by simp [whole]
          obtain ⟨p,running⟩ := traced_call traced listed
          rw [who,finished] at running
          simp only [Option.some.injEq,Prod.mk.injEq] at running
          exact running.1.symm
        have right := (along_at (whole ▸ sound)).1.1
        rw [who,rest,asked] at right
        exact right resolved came
    · intro event listed
      obtain ⟨later,earlier,whole⟩ := List.append_of_mem listed
      exact (along_at (whole ▸ sound)).1.2
  · intro both
    apply along_of
    intro later event earlier whole
    refine ⟨?_,both.2 event (by simp [whole])⟩
    cases asked : event.call with
    | resolve input =>
      intro resolved settled
      exact both.1 event.who input resolved (settled_finished traced kept whole asked settled)
    | link userId provider subject => trivial
    | unlink userId provider subject => trivial

end

-- Over every run: sign-ins resolve to the right users and subjects stay single
-- exactly when every action fits.
theorem federated_sign_in_iff (service : FederatedIdentityService) (other : World → World → Prop) (initial : World)
    (past : History) (c : Config CallId Call World Error Reply) (outside : ∀ s t, other s t → Outside s t)
    (first : Single initial.users) (traced : Traced (program service) other initial past c) :
    (((∀ i input resolved, c.Finished i (.resolve input) (.ok (.resolution resolved)) → Resolves input resolved) ∧
      ∀ event ∈ past, Single event.after.users) ↔ Along (Fits service.platform) past) ∧
    (Along (Fits service.platform) past → Single c.state.users) := by
  have kept : Kept (fun _ => True) (Does service.platform) (Ends service.platform) past c :=
    (traced_inv (acts_program service) (fun _ _ => trivial) (fun _ _ => trivial) trivial traced).1
  obtain ⟨same,reached⟩ := along_fits outside first kept.along (traced_linked traced)
  exact ⟨(along_sound traced kept).symm.trans same,reached⟩

-- Users as they are before any identity is linked.
def member (id tenantId : String) : UserDoc :=
  {provisioned Auth.samplePlatform id tenantId "" ⟨"",""⟩ with email := none, emailVerified := false, identities := []}

def quietly (_ _ : World) : Prop := False

def sampleFederation : FederatedIdentityService := ⟨Auth.samplePlatform⟩

def twoMembers : World := ⟨⟨0,[],none,[]⟩,[member "ada" "tenant",member "bob" "elsewhere"]⟩

def signIn (provider subject : String) (userId : Option String) : LinkIdentityInput :=
  ⟨"tenant",provider,subject,userId,none,none⟩

def resolvesTo (c : Config CallId Call World Error Reply) (i : CallId) (input : LinkIdentityInput)
    (check : UserDoc → Bool) : Bool :=
  match c.calls i with
  | some (asked,.done (.ok (.resolution ⟨some user,_⟩))) => asked = .resolve input && check user
  | _ => false

theorem resolvesTo_finished {c : Config CallId Call World Error Reply} {check : UserDoc → Bool}
    (shown : resolvesTo c i input check = true) :
    ∃ user linked, c.Finished i (.resolve input) (.ok (.resolution ⟨some user,linked⟩)) ∧ check user = true := by
  unfold resolvesTo at shown
  split at shown
  · rename_i asked user linked running
    simp only [Bool.and_eq_true,decide_eq_true_eq] at shown
    obtain ⟨rfl,checked⟩ := shown
    exact ⟨user,linked,running,checked⟩
  · cases shown

theorem crossed_identities : ∃ past c user linked, Traced (program sampleFederation) quietly twoMembers past c ∧
    c.Finished 2 (.resolve (signIn "google" "two" none)) (.ok (.resolution ⟨some user,linked⟩)) ∧
      (signIn "google" "two" none).identity ∉ user.identities := by
  have performed : (perform (program sampleFederation) [] (start twoMembers) [.start 0 (.link "ada" "google" "one"),.act 0,
      .start 1 (.link "ada" "github" "two"),.act 1,.start 2 (.resolve (signIn "google" "two" none)),.act 2]).any
      (fun after => resolvesTo after.2 2 (signIn "google" "two" none)
        fun user => !user.identities.contains (signIn "google" "two" none).identity) = true := by decide +kernel
  obtain ⟨past,c,traced,checked⟩ := perform_exists performed
  obtain ⟨user,linked,finished,absent⟩ := resolvesTo_finished checked
  exact ⟨past,c,user,linked,traced,finished,by simpa using absent⟩

-- A first sign-in that links, and a second one that finds the user.
theorem linked_and_found : ∃ past c user linked, Traced (program sampleFederation) quietly twoMembers past c ∧
    c.Finished 1 (.resolve (signIn "google" "one" none)) (.ok (.resolution ⟨some user,linked⟩)) ∧ user.id = "ada" ∧
      user.tenantId = "tenant" ∧ ⟨"google","one"⟩ ∈ user.identities ∧ Single c.state.users := by
  have performed : (perform (program sampleFederation) [] (start twoMembers)
      [.start 0 (.resolve (signIn "google" "one" (some "ada"))),.act 0,.act 0,
        .start 1 (.resolve (signIn "google" "one" none)),.act 1]).any
      (fun after => resolvesTo after.2 1 (signIn "google" "one" none) (fun user => user.id = "ada") &&
        decide (Along (Fits sampleFederation.platform) after.1)) = true := by decide +kernel
  obtain ⟨past,c,traced,checked⟩ := perform_exists performed
  simp only [Bool.and_eq_true,decide_eq_true_eq] at checked
  obtain ⟨user,linked,finished,named⟩ := resolvesTo_finished checked.1
  have outside : ∀ s t, quietly s t → Outside s t := fun _ _ moved => moved.elim
  have first : Single twoMembers.users := by
    intro one listed two _ _ identity held
    have none : ∀ user ∈ twoMembers.users, user.identities = [] := by decide
    rw [none one listed] at held
    cases held
  have both := federated_sign_in_iff sampleFederation quietly twoMembers past c outside first traced
  obtain ⟨home,held⟩ := (both.1.mpr checked.2).1 1 _ _ finished user rfl
  exact ⟨past,c,user,linked,traced,finished,of_decide_eq_true named,home,held,both.2 checked.2⟩

end Pezhwan.Federation
