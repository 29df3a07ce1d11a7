import Pezhwan.OAuth.Ledger

namespace Pezhwan.OAuth
open Atomic Auth
open Session (Owns owns_append owns_last owns_unique owns_drawn)

section
variable (service : OAuthService)

-- The services act on one world: the sessions keep their own invariant, the
-- clients and codes theirs.
structure Inv (w : World) : Prop where
  sessions : Session.Inv service.sessions (sessionLens.get w)
  ledger : Ledger service.platform w.base.draws w.clients w.codes w.oauthLog

-- What a note asserts of the collections it was taken from.
def Observed (i : CallId) (s : World) : OAuthEntry → Prop
  | .found c client => c = i ∧ client ∈ s.clients
  | .presented c code => c = i ∧ code ∈ s.codes
  | .timed c now => c = i ∧ now = s.base.now
  | _ => False

-- The things one action of call `i` can do to the clients and codes.
inductive Change (i : CallId) (s t : World) : Prop where
  | quiet (clients : t.clients = s.clients) (codes : t.codes = s.codes) (log : t.oauthLog = s.oauthLog)
  | noted (entry : OAuthEntry) (clients : t.clients = s.clients) (codes : t.codes = s.codes)
      (log : t.oauthLog = s.oauthLog ++ [entry]) (observed : Observed i s entry)
  | registered (client : OAuthClientDoc) (clients : t.clients = s.clients ++ [client]) (codes : t.codes = s.codes)
      (log : t.oauthLog = s.oauthLog ++ [.registered i client])
      (named : ∃ suffix, Owns service.platform.random t.base.draws i suffix ∧ client.clientId = "client_" ++ suffix)
  | issued (code : AuthorizationCodeDoc) (drew : t.base.draws = s.base.draws ++ [i])
      (clients : t.clients = s.clients) (codes : t.codes = s.codes ++ [code])
      (log : t.oauthLog = s.oauthLog ++ [.issued i code])
      (id : code.id = service.platform.random.fresh s.base.draws.length)
      (raw : ∃ raw, Owns service.platform.random t.base.draws i raw ∧ service.platform.sha256 raw = code.codeHash)
  | consumed (code : AuthorizationCodeDoc) (now : Nat) (clients : t.clients = s.clients)
      (codes : t.codes = Collection.rewrite AuthorizationCodeDoc.id code.id
        (fun code => {code with consumedAt := some now}) s.codes)
      (log : t.oauthLog = s.oauthLog ++ [.consumed i {code with consumedAt := some now}])
      (present : code ∈ s.codes) (live : code.consumedAt = none)

structure Moves (i : CallId) (s t : World) : Prop where
  sessions : Session.Change service.sessions i (sessionLens.get s) (sessionLens.get t)
  grants : Change service i s t

variable {service}

theorem moves_drawn (moves : Moves service i s t) : ∃ drawn, t.base.draws = s.base.draws ++ drawn := by
  rcases (Session.change_parts moves.sessions).1 with same | more
  · exact ⟨[],same.trans (List.append_nil _).symm⟩
  · exact ⟨[i],more⟩

theorem ledger_noted (ledger : Ledger service.platform s.base.draws s.clients s.codes s.oauthLog)
    (observed : Observed i s entry) :
    Ledger service.platform (s.base.draws ++ drawn) s.clients s.codes (s.oauthLog ++ [entry]) := by
  refine ledger_append ledger ?_ ?_ (fun client member => .inl member) ledger.ids (fun code member => .inl member)
  · intro noted member
    rw [List.mem_singleton.mp member]
    cases entry with
    | found c client => exact vouched_append _ (ledger.clients client observed.2)
    | presented c code =>
      obtain ⟨j,birth,issued,same⟩ := ledger.born code observed.2
      exact ⟨j,birth,precedes_last issued,same⟩
    | timed c now => trivial
    | registered | issued | consumed => cases observed
  · cases entry with
    | found | presented | timed => rfl
    | registered | issued | consumed => cases observed

theorem preserves_ledger (ledger : Ledger service.platform s.base.draws s.clients s.codes s.oauthLog)
    (drew : t.base.draws = s.base.draws ++ drawn) (change : Change service i s t) :
    Ledger service.platform t.base.draws t.clients t.codes t.oauthLog := by
  cases change with
  | quiet clients codes log =>
    rw [drew,clients,codes,log]
    exact ledger_drawn ledger
  | noted entry clients codes log observed =>
    rw [drew,clients,codes,log]
    exact ledger_noted ledger observed
  | registered client clients codes log named =>
    rw [drew] at named ⊢
    rw [clients,codes,log]
    exact ledger_registered ledger named
  | issued code drewOne clients codes log id raw =>
    rw [drewOne] at raw ⊢
    rw [clients,codes,log]
    exact ledger_issued ledger id raw
  | consumed code now clients codes log present live =>
    have noted : Ledger service.platform s.base.draws t.clients t.codes t.oauthLog := by
      rw [clients,codes,log]
      exact ledger_consumed ledger present live
    rw [drew]
    exact ledger_drawn noted

theorem preserves_both (valid : Inv service s) (moves : Moves service i s t) : Inv service t := by
  obtain ⟨drawn,drew⟩ := moves_drawn moves
  exact ⟨Session.preserves_inv valid.sessions moves.sessions,preserves_ledger valid.ledger drew moves.grants⟩

-- A call's own entries and what it drew.
abbrev Seen := List OAuthEntry × Set String

abbrev View := Session.View × Seen

variable (service) in
def view (i : CallId) (w : World) : View :=
  (Session.view service.sessions.random i (sessionLens.get w),
    entriesOf i w.oauthLog,{text | Owns service.platform.random w.base.draws i text})

theorem change_log (change : Change service i s t) :
    ∃ entries, t.oauthLog = s.oauthLog ++ entries ∧ ∀ entry ∈ entries, entry.call = i := by
  cases change with
  | quiet clients codes log => exact ⟨[],by simp [log],by simp⟩
  | noted entry clients codes log observed =>
    refine ⟨[entry],log,fun noted member => ?_⟩
    rw [List.mem_singleton.mp member]
    cases entry <;> first | exact observed.1 | cases observed
  | registered client clients codes log => exact ⟨_,log,by simp [OAuthEntry.call]⟩
  | issued code drew clients codes log => exact ⟨_,log,by simp [OAuthEntry.call]⟩
  | consumed code now clients codes log => exact ⟨_,log,by simp [OAuthEntry.call]⟩

theorem moves_frame (moves : Moves service i s t) (different : j ≠ i) : view service j t = view service j s := by
  obtain ⟨entries,log,mine⟩ := change_log moves.grants
  have none : entriesOf j entries = [] := by
    rw [entriesOf,Atomic.entriesOf,List.filter_eq_nil_iff]
    intro entry member
    simp [mine entry member,different.symm]
  have owns : {text | Owns service.platform.random t.base.draws j text} =
      {text | Owns service.platform.random s.base.draws j text} := by
    ext text
    exact owns_drawn (Session.change_parts moves.sessions).1 different
  simp only [view,Session.change_frame moves.sessions different,log,entriesOf_append,none,List.append_nil,owns]

variable (service) in
def discipline : Discipline CallId World View where
  inv := Inv service
  change := Moves service
  view := view service
  keeps := preserves_both
  frame _ := moves_frame

-- What nobody's call does: time and faults, expiry in both collections, changes
-- to the collections no OAuth call reads, and the administration of clients.
-- No administrator rewrites a client's name or its PKCE methods.
variable (service) in
inductive Surroundings : World → World → Prop where
  | session (moved : Session.Surroundings (sessionLens.get w) part) : Surroundings w (sessionLens.set part w)
  | expire (kept : List AuthorizationCodeDoc) (fewer : kept.Sublist w.codes)
      (due : ∀ code ∈ w.codes, code ∉ kept → code.expiresAt ≤ w.base.now) : Surroundings w {w with codes := kept}
  | elsewhere (base : t.base = w.base) (sessions : t.sessions = w.sessions) (clients : t.clients = w.clients)
      (codes : t.codes = w.codes) (log : t.oauthLog = w.oauthLog) : Surroundings w t
  | enrol (client : OAuthClientDoc)
      (apart : ∀ n, client.clientId ≠ "client_" ++ service.platform.random.fresh n) :
      Surroundings w {w with clients := w.clients ++ [client]}
  | edit (f : OAuthClientDoc → OAuthClientDoc) (keeps : ∀ client, registrationOf (f client) = registrationOf client) :
      Surroundings w {w with clients := w.clients.map f}
  | remove (kept : List OAuthClientDoc) (fewer : kept.Sublist w.clients) : Surroundings w {w with clients := kept}

theorem ledger_clients (ledger : Ledger platform draws clients codes log)
    (vouched : ∀ client ∈ clients', Vouched platform.random log client) : Ledger platform draws clients' codes log :=
  ⟨ledger.facts,ledger.consumedOnce,vouched,ledger.ids,ledger.born,ledger.spent⟩

theorem ledger_sublist (ledger : Ledger platform draws clients codes log) (fewer : List.Sublist kept codes) :
    Ledger platform draws clients kept log where
  facts := ledger.facts
  consumedOnce := ledger.consumedOnce
  clients := ledger.clients
  ids := ledger.ids.sublist (fewer.map _)
  born code member := ledger.born code (fewer.subset member)
  spent c code consumed other member := ledger.spent c code consumed other (fewer.subset member)

theorem surroundings_quiet (valid : Inv service s) (moved : Surroundings service s t) :
    Inv service t ∧ ∀ i, view service i t = view service i s := by
  obtain ⟨sessions,ledger⟩ := valid
  cases moved with
  | session moved =>
    obtain ⟨kept,same⟩ := Session.surroundings_quiet sessions moved
    have draws : ∀ {part}, Session.Surroundings (sessionLens.get s) part → part.base.draws = s.base.draws := by
      intro part step
      cases step <;> rfl
    refine ⟨⟨kept,?_⟩,fun i => ?_⟩
    · change Ledger _ _ s.clients s.codes s.oauthLog
      rw [show (sessionLens.set _ s).base.draws = s.base.draws from draws moved]
      exact ledger
    · have part := same i
      simp only [view,sessionLens.get_set,part]
      rw [show (sessionLens.set _ s).base.draws = s.base.draws from draws moved]
      rfl
  | expire kept fewer due => exact ⟨⟨sessions,ledger_sublist ledger fewer⟩,fun _ => rfl⟩
  | elsewhere base same clients codes log =>
    have part : sessionLens.get t = sessionLens.get s := by
      simp only [sessionLens,base,same]
    refine ⟨⟨part ▸ sessions,?_⟩,fun i => ?_⟩
    · rw [base,clients,codes,log]; exact ledger
    · simp only [view,part,base,log]
  | enrol client apart =>
    refine ⟨⟨sessions,ledger_clients ledger ?_⟩,fun _ => rfl⟩
    intro other member
    rcases List.mem_append.mp member with before | last
    · exact ledger.clients other before
    · rw [List.mem_singleton.mp last]
      intro n named
      exact absurd named (apart n)
  | edit f keeps =>
    refine ⟨⟨sessions,ledger_clients ledger ?_⟩,fun _ => rfl⟩
    intro other member
    obtain ⟨old,before,rfl⟩ := List.mem_map.mp member
    exact vouched_same _ (ledger.clients old before) (keeps old)
  | remove kept fewer =>
    exact ⟨⟨sessions,ledger_clients ledger fun client member => ledger.clients client (fewer.subset member)⟩,fun _ => rfl⟩

end
end Pezhwan.OAuth
