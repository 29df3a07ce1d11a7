import Pezhwan.Session.Liveness
import Pezhwan.Atomic.Solo

namespace Pezhwan.Session
open Atomic Discipline

theorem length_updateOne (p : δ → Bool) (f : δ → δ) (docs : List δ) :
    (Collection.updateOne p f docs).length = docs.length := by
  simpa using congrArg List.length (Collection.map_updateOne (g := fun _ => ()) (p := p) (f := f) (fun _ => rfl) docs)

theorem updateOne_ne {p : δ → Bool} {f : δ → δ} (differs : ∀ doc, p doc = true → f doc ≠ doc)
    (found : docs.find? p = some doc) : Collection.updateOne p f docs ≠ docs := by
  induction docs with
  | nil => cases found
  | cons head rest ih =>
    intro same
    unfold Collection.updateOne at same
    split at same
    · rename_i hit
      exact differs head hit (List.cons.inj same).1
    · rename_i miss
      rw [List.find?_cons_of_neg miss] at found
      exact ih found (List.cons.inj same).2

-- A call of the service while nobody else uses the sessions.
abbrev lonely (i : CallId) : Discipline CallId World Store := .solo i World.store ⟨[],[]⟩

section
variable {i : CallId} {u v : Store} {hash : String} {ctx : RefreshContext}

theorem lonely_op {f : CallId → World → Except MongoError (α × World)} {post : Except Error α → Store → Prop}
    (served : ∀ w value t, w.store = u → f i w = .ok (value,t) → post (.ok value) t.store)
    (failed : ∀ e, post (.error (.mongo e)) u) : (lonely i).Safe i (op f) u post := by
  refine safe_mongo (fun _ _ => rfl) ?_ failed
  intro w _ seen value t ran
  rw [solo_view] at seen ⊢
  exact ⟨rfl,served w value t seen ran⟩

theorem lonely_read {f : List SessionDoc → α} {post : Except Error α → Store → Prop}
    (served : post (.ok (f u.docs)) u) (failed : ∀ e, post (.error (.mongo e)) u) :
    (lonely i).Safe i (read f) u post := by
  refine lonely_op ?_ failed
  intro w value t same ran
  cases ran
  rw [same]
  exact served

theorem lonely_base {f : CallId → Base → α × Base} {post : Except Error α → Store → Prop}
    (holds : ∀ value, post (.ok value) u) : (lonely i).Safe i (base (Prog.atomic f)) u post := by
  intro w _ seen
  rw [solo_view] at seen ⊢
  cases seen
  exact ⟨rfl,holds _⟩

-- What a rotation leaves behind of a store in which its parent is claimed: one
-- more session or, when it throws, the claim.
def Leaves (u : Store) (result : Except Error α) (v : Store) : Prop :=
  u.log <+: v.log ∧ match result with
    | .ok _ => u.docs.length < v.docs.length
    | .error _ => ∃ more, v.docs = u.docs ++ more

theorem leaves_refl (e : Error) (u : Store) : Leaves u (.error e : Except Error α) u :=
  ⟨List.prefix_refl _,[],(List.append_nil _).symm⟩

theorem insertStep_store (ran : insertStep random doc entry i w = .ok (made,t)) :
    made.id ∉ w.store.docs.map SessionDoc.id ∧ t.store = ⟨w.store.docs ++ [made],w.store.log ++ [entry i made]⟩ := by
  unfold insertStep at ran
  dsimp only at ran
  split at ran
  · cases ran
  · rename_i free
    cases ran
    refine ⟨?_,rfl⟩
    intro member
    obtain ⟨other,present,same⟩ := List.mem_map.mp member
    refine free (List.any_eq_true.mpr ⟨other,present,?_⟩)
    simp [clash,same]

theorem lonely_txBody (service : SessionService) (parent child : SessionDoc) :
    (lonely i).Safe i (txBody service parent child) u (Leaves u) := by
  refine Safe.bind (lonely_op ?_ fun e => leaves_refl _ u)
  intro w doc t same ran
  obtain ⟨_,store⟩ := insertStep_store ran
  rw [store,same]
  have inserted : ∀ e, Leaves u (.error e : Except Error String) ⟨u.docs ++ [doc],u.log ++ [.inserted i doc parent]⟩ :=
    fun _ => ⟨List.prefix_append _ _,[doc],rfl⟩
  refine Safe.bind (lonely_read ?_ fun e => inserted _)
  dsimp only
  split
  · refine Safe.bind (lonely_op ?_ fun e => inserted _)
    intro w _ t same ran
    cases ran
    refine Safe.pure ⟨?_,?_⟩
    · simp [World.withDocs,same]
    · simp [World.withDocs,same,length_updateOne]
  · exact Safe.throw (inserted _)

-- The body's copy has a session that is new to the snapshot.
def Adds (snapshot : Store) (result : String × Store) : Prop :=
  ∃ doc ∈ result.2.docs, doc.id ∉ snapshot.docs.map SessionDoc.id

theorem op_buffered {f : CallId → World → Except MongoError (α × World)} {P : α × Store → Prop}
    (step : ∀ i w value t, w.store = u → f i w = .ok (value,t) → P (value,t.store)) :
    ((op f).buffered storeLens u).Yields P := by
  refine Prog.Yields.buffered_tryAtomic ?_
  intro j w value t ran
  split at ran
  · cases ran
  · cases served : f j (storeLens.set u w) with
    | ok result =>
      rw [served] at ran
      cases ran
      exact step j _ _ _ rfl served
    | error e => rw [served] at ran; cases ran

theorem txBody_adds (service : SessionService) (parent child : SessionDoc) (u : Store) :
    ((txBody service parent child).buffered storeLens u).Yields (Adds u) := by
  unfold txBody
  rw [Prog.buffered_bind]
  refine Prog.Yields.bind (op_buffered (P := fun made => made.2.docs = u.docs ++ [made.1] ∧
    made.1.id ∉ u.docs.map SessionDoc.id) ?_) ?_
  · intro j w doc t same ran
    obtain ⟨absent,store⟩ := insertStep_store ran
    rw [same] at absent store
    exact ⟨congrArg Store.docs store,absent⟩
  intro made holds
  obtain ⟨docs,absent⟩ := holds
  rw [Prog.buffered_bind]
  refine Prog.Yields.bind (op_buffered (P := fun seen => seen.2 = made.2) ?_) ?_
  · intro j w value t same ran
    cases ran
    exact same
  intro seen same
  rw [same]
  split
  · rw [Prog.buffered_bind]
    refine Prog.Yields.bind (op_buffered (P := Adds u ∘ Prod.map (fun _ => made.1.id) id) ?_) ?_
    · intro j w value t same ran
      cases ran
      have keys := Collection.map_updateOne (g := SessionDoc.id) (p := fun doc => doc.id = parent.id)
        (f := SessionDoc.replace made.1.id w.base.now) (fun _ => rfl) made.2.docs
      have listed : made.1.id ∈ made.2.docs.map SessionDoc.id := by simp [docs]
      rw [← keys] at listed
      obtain ⟨doc,present,named⟩ := List.mem_map.mp listed
      refine ⟨doc,?_,named ▸ absent⟩
      simpa [World.withDocs,same] using present
    · intro done added
      exact added
  · trivial

theorem merge_length {snapshot copy current docs : List SessionDoc} (merged : Collection.merge SessionDoc.id clash snapshot copy current = some docs)
    (present : doc ∈ copy) (absent : doc.id ∉ snapshot.map SessionDoc.id) : current.length < docs.length := by
  unfold Collection.merge at merged
  dsimp only at merged
  split at merged
  · cases merged
    have inserted : doc ∈ copy.filter fun doc => doc.id ∉ snapshot.map SessionDoc.id :=
      List.mem_filter.mpr ⟨present,by simpa using absent⟩
    have more := List.length_pos_of_mem inserted
    rw [List.length_append,List.length_map]
    omega
  · cases merged

-- A transaction that throws leaves nothing behind.
def Committed (u : Store) (result : Except Error α) (v : Store) : Prop :=
  match result with
  | .ok _ => Leaves u result v
  | .error _ => v = u

theorem lonely_transaction (service : SessionService) (parent child : SessionDoc) :
    (lonely i).Safe i ((txBody service parent child).transaction storeLens commit) u (Committed u) := by
  refine Safe.solo_transaction (l := storeLens) (txBody_adds service parent child u) (fun _ => rfl) ?_
  intro result added
  obtain ⟨doc,present,absent⟩ := added
  refine lonely_op ?_ fun e => rfl
  intro w _ t same ran
  split at ran
  · rename_i docs merged
    cases ran
    rw [same] at merged
    exact ⟨by simp [World.withDocs,same],merge_length merged present absent⟩
  · cases ran

theorem lonely_driverTransaction (service : SessionService) (parent child : SessionDoc) (retries : Nat) :
    (lonely i).Safe i (driverTransaction (txBody service parent child) retries) u (Committed u) := by
  induction retries with
  | zero => exact lonely_transaction service parent child
  | succ retries ih =>
    refine Safe.bind (Safe.attempt ((lonely_transaction service parent child).mono ?_))
    intro result v after
    cases result with
    | ok out => exact after
    | error e =>
      cases after
      cases e with
      | pezhwan kind message code => exact Safe.throw rfl
      | mongo error =>
        dsimp only
        split
        · exact ih
        · exact Safe.throw rfl

theorem lonely_attempts (service : SessionService) (parent child : SessionDoc) (left : Nat) :
    (lonely i).Safe i (attempts service (txBody service parent child) left) u (Leaves u) := by
  induction left with
  | zero =>
    refine Safe.bind (Safe.attempt ((lonely_driverTransaction service parent child _).mono ?_))
    intro result v after
    cases result with
    | ok out => exact after
    | error e =>
      cases after
      dsimp only
      split
      · exact Safe.throw (leaves_refl _ u)
      · exact lonely_txBody service parent child
  | succ left ih =>
    refine Safe.bind (Safe.attempt ((lonely_driverTransaction service parent child _).mono ?_))
    intro result v after
    cases result with
    | ok out => exact after
    | error e =>
      cases after
      dsimp only
      split
      · exact ih
      · exact Safe.throw (leaves_refl _ u)

theorem lonely_rotate (service : SessionService) (session : SessionDoc) (ctx : RefreshContext) :
    (lonely i).Safe i (rotate service session ctx) u (Leaves u) := by
  refine Safe.bind (lonely_base fun now => ?_)
  refine Safe.bind (lonely_base fun token => ?_)
  have committed : (lonely i).Safe i (withTransaction service (txBody service session (childOf session ctx
      (service.hashRefreshToken token) now (now + service.refreshTokenTtlMs)))) u (Leaves u) := by
    unfold withTransaction
    split
    · exact lonely_attempts _ _ _ _
    · exact lonely_txBody _ _ _
  refine Safe.bind (committed.mono ?_)
  intro result v after
  cases result with
  | error e => exact after
  | ok childId =>
    refine Safe.bind (lonely_base fun _ => ?_)
    exact Safe.bind (lonely_base fun _ => Safe.pure after)

-- The sessions with the claim of a refresh made at `now`.
def claimedDocs (hash : String) (ctx : RefreshContext) (now : Nat) (docs : List SessionDoc) : List SessionDoc :=
  Collection.updateOne (fun doc => presents hash ctx doc && decide (doc.status = .active))
    (fun doc => {doc with status := .rotating,revokedAt := some now}) docs

-- The claim is all that is left of the refresh, up to a child.
def Stuck (hash : String) (ctx : RefreshContext) (before after : List SessionDoc) : Prop :=
  after ≠ before ∧ ∃ now more, after = claimedDocs hash ctx now before ++ more

-- What a refresh leaves of the store `u`.
structure Remains (hash : String) (ctx : RefreshContext) (u : Store) (result : Except Error CreatedSession) (v : Store) :
    Prop where
  returned : ∀ created, result = .ok created → u.docs.length < v.docs.length
  thrown : ∀ e, result = .error e → Stuck hash ctx u.docs v.docs ∨
    (∀ j parent, v.log[u.log.length]? ≠ some (.claimed j parent)) ∧ ∀ message code, e ≠ .pezhwan .authentication message code

theorem remains_claimed {claimed : Store} (now : Nat) (docs : claimed.docs = claimedDocs hash ctx now u.docs)
    (differs : claimed.docs ≠ u.docs) (rotated : Leaves claimed result v) : Remains hash ctx u result v where
  returned := by
    intro created returned
    subst returned
    have more : claimed.docs.length < v.docs.length := rotated.2
    rw [docs,claimedDocs,length_updateOne] at more
    exact more
  thrown := by
    intro e thrown
    subst thrown
    obtain ⟨more,grown⟩ := rotated.2
    refine .inl ⟨?_,now,more,docs ▸ grown⟩
    intro same
    have none : more = [] := by
      have lengths := congrArg List.length grown
      rw [same,List.length_append,docs,claimedDocs,length_updateOne] at lengths
      exact List.length_eq_zero_iff.mp (by omega)
    rw [none,List.append_nil] at grown
    exact differs (grown.symm.trans same)

theorem remains_unclaimed (error : ∀ message code, e ≠ .pezhwan .authentication message code)
    (log : ∀ j parent, v.log[u.log.length]? ≠ some (.claimed j parent)) : Remains hash ctx u (.error e) v where
  returned := nofun
  thrown := by
    intro other same
    cases same
    exact .inr ⟨log,error⟩

theorem remains_refl (error : ∀ message code, e ≠ .pezhwan .authentication message code) :
    Remains hash ctx u (.error e) u := by
  refine remains_unclaimed error ?_
  simp

theorem lonely_revokeFamily (familyId : String) (entry : Entry) (remark : ∀ j parent, entry ≠ .claimed j parent) :
    (lonely i).Safe i (revokeFamily familyId) ⟨u.docs,u.log ++ [entry]⟩ fun result v =>
      (∀ j parent, v.log[u.log.length]? ≠ some (.claimed j parent)) ∧
        ∀ e, result = .error e → ∀ message code, e ≠ .pezhwan .authentication message code := by
  have first : ∀ rest : List Entry, ∀ j parent, (u.log ++ entry :: rest)[u.log.length]? ≠ some (.claimed j parent) := by
    intro rest j parent same
    rw [List.getElem?_append_right (Nat.le_refl _)] at same
    simp only [Nat.sub_self,List.getElem?_cons_zero,Option.some.injEq] at same
    exact remark j parent same
  have failed : ∀ e : MongoError, ∀ other, (.error (.mongo e) : Except Error Unit) = .error other →
      ∀ message code, other ≠ .pezhwan .authentication message code := by
    intro e other same message code
    cases same
    nofun
  refine Safe.bind (lonely_read ?_ fun e => ⟨first [],failed e⟩)
  refine Safe.bind (lonely_op ?_ fun e => ⟨first [],failed e⟩)
  intro w _ t same ran
  cases ran
  simp only [World.withDocs,same,List.append_assoc,List.cons_append,List.nil_append]
  have ended : ∀ result : Except Error Unit, (∃ value, result = .ok value) → ∀ e, result = .error e →
      ∀ message code, e ≠ .pezhwan .authentication message code := by
    intro result ok e error
    obtain ⟨value,rfl⟩ := ok
    cases error
  refine Safe.forEach ⟨first _,ended _ ⟨(),rfl⟩⟩ ?_
  intro doc
  exact lonely_base fun _ => rfl

theorem lonely_refresh (service : SessionService) (token : String) (ctx : RefreshContext) :
    (lonely i).Safe i (refresh service token ctx) u (Remains (service.hashRefreshToken token) ctx u) := by
  refine Safe.bind (lonely_op ?_ fun e => remains_refl (by intro _ _ same; cases same))
  intro w claimed t same ran
  dsimp only at ran
  split at ran
  · rename_i doc found
    cases ran
    refine (lonely_rotate service _ ctx).mono ?_
    intro result v rotated
    refine remains_claimed w.base.now ?_ ?_ rotated
    · simp [World.withDocs,claimedDocs,same]
    · rw [same] at found
      simp only [World.withDocs,same]
      refine updateOne_ne ?_ found
      intro other matched unchanged
      simp only [Bool.and_eq_true,decide_eq_true_eq] at matched
      have status := congrArg SessionDoc.status unchanged
      rw [matched.2] at status
      cases status
  · cases ran
    rw [same]
    refine Safe.bind (lonely_op ?_ fun e => remains_refl (by intro _ _ same; cases same))
    intro w found t same ran
    split at ran
    · rename_i doc _
      cases ran
      simp only [World.withDocs,same]
      by_cases settled : doc.status.isSettled = true
      · simp only [settled,if_true]
        refine Safe.bind ((lonely_revokeFamily doc.familyId (.presented i doc) (by intro _ _ same; cases same)).mono ?_)
        intro result v after
        cases result with
        | ok _ => exact Safe.throw (remains_unclaimed (by intro _ _ same; cases same) after.1)
        | error e => exact remains_unclaimed (after.2 e rfl) after.1
      · simp only [settled,Bool.false_eq_true,if_false,List.append_nil]
        exact Safe.throw (remains_refl (by intro _ _ same; cases same))
    · cases ran
      rw [same]
      exact Safe.throw (remains_refl (by intro _ _ same; cases same))

-- The surroundings do anything but touch the sessions.
def Weather (s t : World) : Prop := t.store = s.store

theorem rotation_not_undone (service : SessionService) (i : CallId) (token : String) (ctx : RefreshContext) (s t : World)
    (e : Error) (j : CallId) (parent : SessionDoc) (ran : Exec Weather i (refresh service token ctx) s (.error e) t)
    (claimed : t.store.log[s.store.log.length]? = some (.claimed j parent)) :
    t.store.docs ≠ s.store.docs ∧
      ∃ now more, t.store.docs = claimedDocs (service.hashRefreshToken token) ctx now s.store.docs ++ more := by
  have safe : (lonely i).Safe i (refresh service token ctx) s.store (Remains (service.hashRefreshToken token) ctx s.store) :=
    lonely_refresh service token ctx
  have after := safe.solo_exec (fun moved => moved) ran
  rcases after.thrown e rfl with stuck | ⟨unclaimed,_⟩
  · exact stuck
  · exact absurd claimed (unclaimed j parent)

end

def signedIn : World :=
  ((program (sampleService true) (.create ⟨"user","tenant","application",none,none,none⟩)).run 0 (empty 0)).2

-- The store goes down between the claim and the transaction.
def refusal : MongoError := ⟨none,"refused",false⟩

def claimedDown : World :=
  {(Prog.opening 1 (refresh (sampleService true) "xx" anyContext) signedIn).2 with base :=
    {(Prog.opening 1 (refresh (sampleService true) "xx" anyContext) signedIn).2.base with fault := some refusal}}

def rotationRest : Except Error CreatedSession × World :=
  (Prog.opening 1 (refresh (sampleService true) "xx" anyContext) signedIn).1.run 1 claimedDown

theorem rotation_down : Exec Weather 1 (refresh (sampleService true) "xx" anyContext) signedIn rotationRest.1 rotationRest.2 :=
  exec_first (.other (rfl : Weather _ claimedDown) (exec_run 1 _ _ Weather))

theorem rotation_down_error : rotationRest.1 = .error (.mongo refusal) := by
  have failed : (match rotationRest.1 with
    | .error e => decide (e = .mongo refusal)
    | .ok _ => false) = true := by decide +kernel
  split at failed
  · rename_i e thrown
    rw [thrown,of_decide_eq_true failed]
  · cases failed

theorem rotation_not_undone_down : rotationRest.2.store.docs ≠ signedIn.store.docs ∧ ∃ now more,
    rotationRest.2.store.docs = claimedDocs ((sampleService true).hashRefreshToken "xx") anyContext now signedIn.store.docs ++ more :=
  rotation_not_undone (sampleService true) 1 "xx" anyContext signedIn rotationRest.2 (.mongo refusal) 1
    (sampleSession 1 2 .rotating none) (rotation_down_error ▸ rotation_down) (by decide +kernel)

-- A failed rotation undone.
def Undone (service : SessionService) : Prop :=
  ∀ i token ctx s t e j parent, Exec Weather i (refresh service token ctx) s (.error e) t →
    t.store.log[s.store.log.length]? = some (.claimed j parent) → e ≠ reuseDetected → t.store.docs = s.store.docs

theorem rotation_left_claimed : ¬∀ service, Undone service := by
  intro all
  have same := all (sampleService true) 1 "xx" anyContext signedIn rotationRest.2 (.mongo refusal) 1
    (sampleSession 1 2 .rotating none) (rotation_down_error ▸ rotation_down) (by decide +kernel) (by decide)
  exact absurd same (by decide +kernel)

end Pezhwan.Session
