import Pezhwan.Session.Service
import Pezhwan.Atomic.Focus

-- Undisturbed calls that return.
namespace Pezhwan.Session
open Atomic Prog

theorem ends_read {f : List SessionDoc → α} {post : α → World → Prop} (healthy : w.base.fault = none)
    (holds : post (f w.store.docs) w) : Ends i (read f) w post := ends_mongo healthy holds

theorem ends_base {f : CallId → Base → α × Base} {post : α → World → Prop} (steady : (f i w.base).2.fault = w.base.fault)
    (holds : ∀ value b, b.fault = w.base.fault → post value ⟨b,w.store⟩) : Ends i (base (Prog.atomic f)) w post :=
  Ends.zoom (Ends.atomic (holds _ _ steady))

theorem ends_enforceSessionLimit {post : Unit → World → Prop} (healthy : w.base.fault = none)
    (empty : w.store.docs = []) (holds : post () w) : Ends i (enforceSessionLimit service userId applicationId) w post := by
  refine Ends.bind (ends_read healthy ?_)
  rw [empty]
  split
  · refine Ends.bind (ends_read healthy ?_)
    rw [empty]
    exact Ends.pure holds
  · exact Ends.pure holds

theorem ends_insert {post : SessionDoc → World → Prop} (healthy : w.base.fault = none) (empty : w.store.docs = [])
    (holds : ∀ id b store, b.fault = none → post {doc with id} ⟨b,store⟩) :
    Ends i (insert random doc entry) w post := by
  apply ends_mongo healthy
  simp only [insertStep,empty,List.any_nil,Bool.false_eq_true,if_false]
  exact holds _ _ _ healthy

theorem ends_create {post : CreatedSession → World → Prop} (healthy : w.base.fault = none) (empty : w.store.docs = [])
    (holds : ∀ created b store, b.fault = none → created.userId = ctx.userId → post created ⟨b,store⟩) :
    Ends i (create service ctx) w post := by
  refine Ends.bind (ends_enforceSessionLimit healthy empty ?_)
  refine Ends.bind (ends_base rfl fun familyId b first => ?_)
  refine Ends.bind (ends_base rfl fun token b second => ?_)
  refine Ends.bind (ends_base rfl fun now b third => ?_)
  have healthy := third.trans (second.trans (first.trans healthy))
  refine Ends.bind (ends_insert healthy empty fun id b store fourth => ?_)
  exact Ends.bind (ends_base rfl fun _ b fifth => Ends.pure (holds _ _ _ (fifth.trans fourth) rfl))

-- The claimed session is the only one and neither of its unique keys is drawn again.
structure Alone (service : SessionService) (parent child : SessionDoc) (w : World) : Prop where
  healthy : w.base.fault = none
  only : w.store.docs = [parent]
  rotating : parent.status = .rotating
  unused : service.random.fresh w.base.draws.length ≠ parent.id
  unhashed : child.currentRefreshTokenHash ≠ parent.currentRefreshTokenHash

theorem ends_txBody (alone : Alone service parent child w) {post : String → World → Prop}
    (holds : ∀ b log, b.fault = none →
      post (service.random.fresh w.base.draws.length)
        ⟨b,⟨[parent.replace (service.random.fresh w.base.draws.length) w.base.now,
          {child with id := service.random.fresh w.base.draws.length}],log⟩⟩) :
    Ends i (txBody service parent child) w post := by
  refine Ends.bind (ends_mongo alone.healthy ?_)
  simp only [insertStep,alone.only,List.any_cons,List.any_nil,clash,alone.unused,alone.unhashed,decide_false,
    Bool.or_false,Bool.false_eq_true,if_false]
  refine Ends.bind (ends_read alone.healthy ?_)
  simp only [Collection.lookup,List.cons_append,List.nil_append,List.find?_cons,decide_true,Option.map_some,
    alone.rotating,if_true]
  refine Ends.bind (ends_mongo alone.healthy ?_)
  simp only [World.withDocs,Collection.updateOne,decide_true,if_true]
  exact Ends.pure (holds _ _ alone.healthy)

theorem ends_transaction (alone : Alone service parent child w) {post : String → World → Prop}
    (holds : ∀ id b store, b.fault = none → post id ⟨b,store⟩) :
    Ends i ((txBody service parent child).transaction storeLens commit) w post := by
  refine Ends.transaction (ends_txBody alone fun b log kept => ?_)
  have merged : Collection.merge SessionDoc.id clash [parent]
      [parent.replace (service.random.fresh w.base.draws.length) w.base.now,
        {child with id := service.random.fresh w.base.draws.length}] [parent] =
      some [parent.replace (service.random.fresh w.base.draws.length) w.base.now,
        {child with id := service.random.fresh w.base.draws.length}] := by
    have differs : parent.replace (service.random.fresh w.base.draws.length) w.base.now ≠ parent := by
      intro same
      have status := congrArg SessionDoc.status same
      rw [alone.rotating] at status
      cases status
    simp [Collection.merge,Collection.changed,Collection.lookup,clash,SessionDoc.replace,alone.unused,
      alone.unhashed] at differs ⊢
    simp [differs]
  apply ends_mongo kept
  simp only [storeLens,alone.only,merged,World.withDocs]
  exact holds _ _ _ kept

theorem ends_withTransaction (alone : Alone service parent child w) {post : String → World → Prop}
    (holds : ∀ id b store, b.fault = none → post id ⟨b,store⟩) :
    Ends i (withTransaction service (txBody service parent child)) w post := by
  unfold withTransaction
  split
  · refine Ends.bind (Ends.attempt ?_)
    cases service.driverRetries with
    | zero => exact ends_transaction alone fun id b store kept => Ends.pure (holds id b store kept)
    | succ retries =>
      refine Ends.bind (Ends.attempt ?_)
      exact ends_transaction alone fun id b store kept => Ends.pure (Ends.pure (holds id b store kept))
  · exact ends_txBody alone fun b log kept => holds _ _ _ kept

theorem ends_refresh {post : CreatedSession → World → Prop} (healthy : w.base.fault = none)
    (only : w.store.docs = [doc]) (active : doc.status = .active)
    (presented : presents (service.hashRefreshToken token) ctx doc = true)
    (unused : ∀ n, w.base.draws.length ≤ n → service.random.fresh n ≠ token ∧ service.random.fresh n ≠ doc.id)
    (holds : ∀ created b store, b.fault = none → created.userId = doc.userId → created.tenantId = doc.tenantId →
      created.applicationId = doc.applicationId → post created ⟨b,store⟩) :
    Ends i (refresh service token ctx) w post := by
  have hashed : doc.currentRefreshTokenHash = service.hashRefreshToken token := by
    simp only [presents,Bool.and_eq_true,decide_eq_true_eq] at presented
    exact presented.1.1
  refine Ends.bind (ends_mongo healthy ?_)
  simp only [only,List.find?_cons,presented,active,decide_true,Bool.and_true,World.withDocs,Collection.updateOne,if_true]
  refine Ends.bind (Ends.zoom (Ends.atomic ?_))
  refine Ends.bind (Ends.zoom (Ends.atomic ?_))
  refine Ends.bind ?_
  apply ends_withTransaction
  · refine ⟨healthy,rfl,rfl,?_,?_⟩
    · exact (unused _ (by simp [baseLens])).2
    · simp only [childOf,hashed]
      intro same
      exact (unused _ (by simp [baseLens])).1 (service.hash_injective same)
  · intro id b store kept
    refine Ends.bind (ends_base rfl fun _ b first => ?_)
    refine Ends.bind (ends_base rfl fun _ b second => ?_)
    exact Ends.pure (holds _ _ _ (second.trans (first.trans kept)) rfl rfl rfl)

end Pezhwan.Session
