import Pezhwan.Auth.Disabled
import Pezhwan.Session.Undone

namespace Pezhwan.Auth
open Atomic Prog Discipline

-- The surroundings do anything but touch the sessions.
def Weather (s t : World) : Prop := t.sessions = s.sessions

def contextInvalid : Error := .pezhwan .authentication "Session context is invalid" "SESSION_CONTEXT_INVALID"

theorem lonely_refreshSession (engine : AuthEngine) (i : CallId) (token : String) (device : DeviceInfo) (u : Session.Store) :
    (solo i World.sessions ⟨[],[]⟩).Safe i (engine.refreshSession token device) u fun result v =>
      result = .error contextInvalid → v.docs ≠ u.docs := by
  refine Safe.bind ((Safe.solo_zoom (l := sessionLens) (Session.lonely_refresh engine.sessions token _)).mono ?_)
  intro result v after
  cases result with
  | error e =>
    intro same
    cases same
    rcases after.thrown _ rfl with stuck | ⟨_,other⟩
    · exact stuck.1
    · exact absurd rfl (other _ _)
  | ok created =>
    have rotated : v.docs ≠ u.docs := by
      intro same
      have longer := after.returned created rfl
      rw [same] at longer
      exact Nat.lt_irrefl _ longer
    dsimp only
    split
    · exact Safe.throw fun _ => rotated
    · refine (Safe.solo_keeps ?_).mono ?_
      · have idle (w : World) : Weather w w := rfl
        refine Keeps.bind (spared_buildIdentityContext idle _ _ _ _ _) fun identity => ?_
        refine Keeps.bind (keeps_reading idle _) fun user => ?_
        exact Keeps.bind (spared_signAccessToken _ _ _ _ _ _ fun _ _ => rfl) fun accessToken => Keeps.pure _
      · intro result w same _
        exact same ▸ rotated

-- What a call that is refused leaves alone.
structure Unchanged (s t : World) : Prop where
  sessions : t.sessions.docs = s.sessions.docs
  liveness : ∀ sessionId, t.base.cache.get t.base.now (.session sessionId) = s.base.cache.get s.base.now (.session sessionId)

theorem wrong_context_rotates (engine : AuthEngine) (i : CallId) (token : String) (device : DeviceInfo) (s t : World)
    (ran : Exec Weather i (engine.refreshSession token device) s (.error contextInvalid) t) : ¬Unchanged s t := by
  intro same
  exact Safe.solo_exec (fun moved => moved) ran (lonely_refreshSession engine i token device s.sessions) rfl same.sessions

-- The session of another application's client.
def otherApplication : World :=
  {soleAccount (disabledUser sampleEngine "user@example.com") with
    sessions := ⟨[⟨"session","user","tenant","elsewhere",.active,"family","#token",none,none,0,1000,none⟩],[]⟩}

def refusedRefresh : Except Error IssuedTokens × World :=
  (sampleEngine.refreshSession "token" anyDevice).run 0 otherApplication

theorem refused_context : Exec Weather 0 (sampleEngine.refreshSession "token" anyDevice) otherApplication
    (.error contextInvalid) refusedRefresh.2 := by
  have failed : (match refusedRefresh.1 with
    | .error e => decide (e = contextInvalid)
    | .ok _ => false) = true := by decide +kernel
  have ran := exec_run 0 (sampleEngine.refreshSession "token" anyDevice) otherApplication Weather
  split at failed
  · rename_i e thrown
    rw [← of_decide_eq_true failed,← thrown]
    exact ran
  · cases failed

theorem wrong_context_rotates_elsewhere : ¬Unchanged otherApplication refusedRefresh.2 :=
  wrong_context_rotates sampleEngine 0 "token" anyDevice otherApplication refusedRefresh.2 refused_context

theorem wrong_context_changes : ¬∀ (engine : AuthEngine) (i : CallId) (token : String) (device : DeviceInfo) (s t : World),
    Exec Weather i (engine.refreshSession token device) s (.error contextInvalid) t → Unchanged s t := by
  intro all
  have same := (all sampleEngine 0 "token" anyDevice otherApplication refusedRefresh.2 refused_context).sessions
  exact absurd same (by decide +kernel)

end Pezhwan.Auth
