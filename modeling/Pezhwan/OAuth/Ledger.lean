import Pezhwan.OAuth.Service
import Pezhwan.Session.Conduct

namespace Pezhwan.OAuth
open Atomic Auth
open Session (Owns owns_append owns_last owns_unique owns_drawn)

-- What a code stays from issue to deletion: everything but its consumption.
def grantOf (code : AuthorizationCodeDoc) : AuthorizationCodeDoc := {code with consumedAt := none}

-- What an administrator never edits on a client.
def registrationOf (client : OAuthClientDoc) : String × List PkceMethod := (client.clientId,client.pkceMethods)

abbrev entriesOf : CallId → List OAuthEntry → List OAuthEntry := Atomic.entriesOf OAuthEntry.call

def consumedId : OAuthEntry → Option String
  | .consumed _ code => some code.id
  | _ => none

-- The first entry stands in the log before some occurrence of the second.
def Precedes (log : List OAuthEntry) (first second : OAuthEntry) : Prop :=
  ∃ before after, log = before ++ second :: after ∧ first ∈ before

theorem precedes_append (precedes : Precedes log first second) : Precedes (log ++ more) first second := by
  obtain ⟨before,after,rfl,member⟩ := precedes
  exact ⟨before,after ++ more,by simp,member⟩

theorem precedes_last (member : first ∈ log) : Precedes (log ++ [second]) first second := ⟨log,[],rfl,member⟩

theorem precedes_first (precedes : Precedes log first second) : first ∈ log := by
  obtain ⟨before,after,rfl,member⟩ := precedes
  exact List.mem_append_left _ member

section
variable (random : Random)

-- A client under a drawn name is the one registered under it. Clients enrolled
-- by other means carry other names.
def Vouched (log : List OAuthEntry) (client : OAuthClientDoc) : Prop :=
  ∀ n, client.clientId = "client_" ++ random.fresh n →
    ∃ j origin, .registered j origin ∈ log ∧ registrationOf client = registrationOf origin

theorem vouched_append (vouched : Vouched random log client) : Vouched random (log ++ more) client := by
  intro n named
  obtain ⟨j,origin,member,same⟩ := vouched n named
  exact ⟨j,origin,List.mem_append_left _ member,same⟩

theorem vouched_same (vouched : Vouched random log client) (same : registrationOf edited = registrationOf client) :
    Vouched random log edited := by
  intro n named
  have name : edited.clientId = client.clientId := congrArg Prod.fst same
  obtain ⟨j,origin,member,registered⟩ := vouched n (name ▸ named)
  exact ⟨j,origin,member,same.trans registered⟩

end

def BornCode (log : List OAuthEntry) (code : AuthorizationCodeDoc) : Prop :=
  ∃ j birth, .issued j birth ∈ log ∧ grantOf code = grantOf birth

theorem bornCode_append (born : BornCode log code) : BornCode (log ++ more) code := by
  obtain ⟨j,birth,issued,same⟩ := born
  exact ⟨j,birth,List.mem_append_left _ issued,same⟩

theorem grantOf_parts {code other : AuthorizationCodeDoc} (same : grantOf code = grantOf other) :
    code.id = other.id ∧ code.codeHash = other.codeHash ∧ code.tenantId = other.tenantId ∧
      code.applicationId = other.applicationId ∧ code.clientId = other.clientId ∧
      code.redirectUri = other.redirectUri ∧ code.codeChallenge = other.codeChallenge ∧
      code.codeChallengeMethod = other.codeChallengeMethod ∧ code.expiresAt = other.expiresAt := by
  simp only [grantOf,AuthorizationCodeDoc.mk.injEq] at same
  grind

section
variable (platform : Platform)

-- What the entries of one action assert when they are made.
def Fact (draws : List CallId) (log : List OAuthEntry) : OAuthEntry → Prop
  | .registered c client => ∃ suffix, Owns platform.random draws c suffix ∧ client.clientId = "client_" ++ suffix
  | .found _ client => Vouched platform.random log client
  | .issued c code => Owns platform.random draws c code.id ∧
      ∃ raw, Owns platform.random draws c raw ∧ platform.sha256 raw = code.codeHash
  | .presented c code => ∃ j birth, Precedes log (.issued j birth) (.presented c code) ∧ grantOf code = grantOf birth
  | .timed .. => True
  | .consumed _ code => BornCode log code

-- The collections of clients and codes against the log.
structure Ledger (draws : List CallId) (clients : List OAuthClientDoc) (codes : List AuthorizationCodeDoc)
    (log : List OAuthEntry) : Prop where
  facts : ∀ entry ∈ log, Fact platform draws log entry
  consumedOnce : (log.filterMap consumedId).Nodup
  clients : ∀ client ∈ clients, Vouched platform.random log client
  ids : (codes.map AuthorizationCodeDoc.id).Nodup
  born : ∀ code ∈ codes, BornCode log code
  spent : ∀ c code, .consumed c code ∈ log → ∀ other ∈ codes, other.id = code.id → other.consumedAt ≠ none

variable {platform}

theorem fact_grows (fact : Fact platform draws log entry) :
    Fact platform (draws ++ drawn) (log ++ more) entry := by
  cases entry with
  | registered c client =>
    obtain ⟨suffix,owns,named⟩ := fact
    exact ⟨suffix,owns_append owns,named⟩
  | found c client => exact vouched_append _ fact
  | issued c code =>
    obtain ⟨id,raw,owns,hashed⟩ := fact
    exact ⟨owns_append id,raw,owns_append owns,hashed⟩
  | presented c code =>
    obtain ⟨j,birth,precedes,same⟩ := fact
    exact ⟨j,birth,precedes_append precedes,same⟩
  | timed c now => trivial
  | consumed c code => exact bornCode_append fact

section
variable (ledger : Ledger platform draws clients codes log)
include ledger

theorem ledger_append (facts : ∀ entry ∈ entries, Fact platform (draws ++ drawn) (log ++ entries) entry)
    (plain : entries.filterMap consumedId = [])
    (enrolled : ∀ client ∈ clients', client ∈ clients ∨ Vouched platform.random (log ++ entries) client)
    (ids : (codes'.map AuthorizationCodeDoc.id).Nodup)
    (added : ∀ code ∈ codes', code ∈ codes ∨ BornCode (log ++ entries) code ∧
      ∀ c other, .consumed c other ∈ log → code.id ≠ other.id) :
    Ledger platform (draws ++ drawn) clients' codes' (log ++ entries) := by
  refine ⟨?_,?_,?_,ids,?_,?_⟩
  · intro entry member
    rcases List.mem_append.mp member with before | new
    · exact fact_grows (ledger.facts entry before)
    · exact facts entry new
  · rw [List.filterMap_append,plain,List.append_nil]
    exact ledger.consumedOnce
  · intro client member
    rcases enrolled client member with before | vouched
    · exact vouched_append _ (ledger.clients client before)
    · exact vouched
  · intro code member
    rcases added code member with before | ⟨born,_⟩
    · exact bornCode_append (ledger.born code before)
    · exact born
  · intro c other consumed code member same
    have old : .consumed c other ∈ log := by
      rcases List.mem_append.mp consumed with before | new
      · exact before
      · have listed : other.id ∈ entries.filterMap consumedId := List.mem_filterMap.mpr ⟨_,new,rfl⟩
        rw [plain] at listed
        cases listed
    rcases added code member with before | ⟨_,apart⟩
    · exact ledger.spent c other old code before same
    · exact absurd same (apart c other old)

theorem ledger_drawn :
    Ledger platform (draws ++ drawn) clients codes log := by
  have grown : Ledger platform (draws ++ drawn) clients codes (log ++ []) :=
    ledger_append ledger (by simp) rfl (fun client member => .inl member) ledger.ids (fun code member => .inl member)
  rwa [List.append_nil] at grown

theorem id_unused (born : BornCode log code) :
    code.id ≠ platform.random.fresh draws.length := by
  obtain ⟨j,birth,issued,same⟩ := born
  obtain ⟨⟨n,drew,named⟩,_⟩ := ledger.facts _ issued
  rw [(grantOf_parts same).1,named,ne_eq,Random.fresh_inj]
  have bound : n < draws.length := (List.getElem?_eq_some_iff.mp drew).1
  omega

theorem ledger_issued (id : code.id = platform.random.fresh draws.length)
    (raw : ∃ raw, Owns platform.random (draws ++ [i]) i raw ∧ platform.sha256 raw = code.codeHash) :
    Ledger platform (draws ++ [i]) clients (codes ++ [code]) (log ++ [.issued i code]) := by
  have owns : Owns platform.random (draws ++ [i]) i code.id := id ▸ owns_last _ _ _
  refine ledger_append ledger ?_ rfl (fun client member => .inl member) ?_ ?_
  · intro entry member
    rw [List.mem_singleton.mp member]
    exact ⟨owns,raw⟩
  · rw [List.map_append,List.map_singleton,← List.concat_eq_append]
    refine List.Nodup.concat ?_ ledger.ids
    intro member
    obtain ⟨other,present,same⟩ := List.mem_map.mp member
    exact id_unused ledger (ledger.born other present) (same.trans id)
  · intro other member
    rcases List.mem_append.mp member with before | last
    · exact .inl before
    · rw [List.mem_singleton.mp last]
      refine .inr ⟨⟨i,code,by simp,rfl⟩,?_⟩
      intro c spent consumed same
      exact id_unused ledger (ledger.facts _ consumed) (same.symm.trans id)

theorem ledger_registered
    (named : ∃ suffix, Owns platform.random (draws ++ drawn) i suffix ∧ client.clientId = "client_" ++ suffix) :
    Ledger platform (draws ++ drawn) (clients ++ [client]) codes (log ++ [.registered i client]) := by
  refine ledger_append ledger ?_ rfl ?_ ledger.ids (fun code member => .inl member)
  · intro entry member
    rw [List.mem_singleton.mp member]
    exact named
  · intro other member
    rcases List.mem_append.mp member with before | last
    · exact .inl before
    · rw [List.mem_singleton.mp last]
      exact .inr fun _ _ => ⟨i,client,by simp,rfl⟩

theorem ledger_consumed (present : code ∈ codes)
    (live : code.consumedAt = none) :
    Ledger platform draws clients
      (Collection.rewrite AuthorizationCodeDoc.id code.id (fun code => {code with consumedAt := some now}) codes)
      (log ++ [.consumed i {code with consumedAt := some now}]) := by
  have ids : (Collection.rewrite AuthorizationCodeDoc.id code.id (fun code => {code with consumedAt := some now})
      codes).map AuthorizationCodeDoc.id = codes.map AuthorizationCodeDoc.id := by
    rw [Collection.rewrite,List.map_map]
    refine List.map_congr_left fun other _ => ?_
    dsimp only [Function.comp_apply]
    split <;> rfl
  refine ⟨?_,?_,?_,ids ▸ ledger.ids,?_,?_⟩
  · intro entry member
    rcases List.mem_append.mp member with before | last
    · have grown : Fact platform (draws ++ []) (log ++ [.consumed i {code with consumedAt := some now}]) entry :=
        fact_grows (ledger.facts entry before)
      rwa [List.append_nil] at grown
    · rw [List.mem_singleton.mp last]
      exact bornCode_append (ledger.born code present)
  · have last : [OAuthEntry.consumed i {code with consumedAt := some now}].filterMap consumedId = [code.id] := rfl
    rw [List.filterMap_append,last,← List.concat_eq_append]
    refine List.Nodup.concat ?_ ledger.consumedOnce
    intro member
    obtain ⟨entry,before,same⟩ := List.mem_filterMap.mp member
    cases entry with
    | consumed c other => exact ledger.spent c other before code present (Option.some.inj same).symm live
    | _ => cases same
  · intro client member
    exact vouched_append _ (ledger.clients client member)
  · intro other member
    obtain ⟨old,before,rfl⟩ := Collection.mem_rewrite.mp member
    obtain ⟨j,birth,issued,same⟩ := ledger.born old before
    refine ⟨j,birth,List.mem_append_left _ issued,?_⟩
    split
    · exact same
    · exact same
  · intro c other consumed updated member same
    obtain ⟨old,before,rfl⟩ := Collection.mem_rewrite.mp member
    split
    · simp
    · rename_i different
      rw [if_neg different] at same
      rcases List.mem_append.mp consumed with earlier | last
      · exact ledger.spent c other earlier old before same
      · obtain ⟨rfl,rfl⟩ : c = i ∧ other = {code with consumedAt := some now} := by simpa using last
        exact absurd same different

end

end
end Pezhwan.OAuth
