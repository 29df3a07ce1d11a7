import Pezhwan.Session.Family
import Pezhwan.Atomic.Trace
import Mathlib.Data.List.Perm.Subperm

namespace Pezhwan.Session
open Atomic Prog Config

abbrev Pair := String × String

def SessionDoc.pair (doc : SessionDoc) : Pair := (doc.userId,doc.applicationId)

-- The ids of the active sessions of one user in one application.
def actives (pair : Pair) (docs : List SessionDoc) : List String :=
  (docs.filter (activeOf pair.1 pair.2)).map SessionDoc.id

theorem activeOf_pair : activeOf pair.1 pair.2 doc = true ↔ doc.pair = pair ∧ doc.status = .active := by
  obtain ⟨userId,applicationId⟩ := pair
  simp [activeOf,SessionDoc.pair,and_assoc]

theorem mem_actives {id : String} :
    id ∈ actives pair docs ↔ ∃ doc ∈ docs, doc.pair = pair ∧ doc.status = .active ∧ doc.id = id := by
  simp only [actives,List.mem_map,List.mem_filter,activeOf_pair]
  constructor
  · rintro ⟨doc,⟨member,owner,active⟩,rfl⟩
    exact ⟨doc,member,owner,active,rfl⟩
  · rintro ⟨doc,member,owner,active,rfl⟩
    exact ⟨doc,⟨member,owner,active⟩,rfl⟩

theorem actives_length (userId applicationId : String) (docs : List SessionDoc) :
    (docs.filter (activeOf userId applicationId)).length = (actives (userId,applicationId) docs).length := by
  simp [actives]

theorem actives_nodup (unique : (docs.map SessionDoc.id).Nodup) (pair : Pair) : (actives pair docs).Nodup :=
  unique.sublist (List.filter_sublist.map SessionDoc.id)

theorem fewer {small big : List String} (nodup : small.Nodup) (subset : small ⊆ big) : small.length ≤ big.length :=
  (List.subperm_of_subset nodup subset).length_le

theorem one_fewer {small big : List String} {id : String} (nodup : small.Nodup) (subset : small ⊆ big) (present : id ∈ big)
    (gone : id ∉ small) : small.length + 1 ≤ big.length := by
  have whole : (id :: small).Nodup := List.nodup_cons.mpr ⟨gone,nodup⟩
  exact fewer whole (List.cons_subset.mpr ⟨present,subset⟩)

theorem pair_identity {doc other : SessionDoc} (same : doc.identity = other.identity) : doc.pair = other.pair := by
  obtain ⟨user,_,application,_⟩ := owner_parts (identity_parts same).2.2
  simp [SessionDoc.pair,user,application]

-- The refreshes that hold a claim on the pair, made since the last session of
-- the pair was created, and have not inserted the child yet.
def liveStep (pair : Pair) (calls : List CallId) : Entry → List CallId
  | .created _ doc => if doc.pair = pair then [] else calls
  | .claimed i parent => if parent.pair = pair then calls ++ [i] else calls
  | .inserted i _ _ => calls.filter (· ≠ i)
  | _ => calls

def live (pair : Pair) (log : List Entry) : List CallId := log.foldl (liveStep pair) []

theorem live_append (pair : Pair) (log : List Entry) (entry : Entry) :
    live pair (log ++ [entry]) = liveStep pair (live pair log) entry := by
  simp [live]

theorem live_remarks (pair : Pair) (log : List Entry) {entries : List Entry}
    (remarks : ∀ entry ∈ entries, entry.isRemark = true) : live pair (log ++ entries) = live pair log := by
  induction entries generalizing log with
  | nil => simp
  | cons entry rest ih =>
    have whole : log ++ entry :: rest = (log ++ [entry]) ++ rest := by simp
    rw [whole,ih _ fun later member => remarks later (List.mem_cons_of_mem _ member),live_append]
    have remark := remarks entry List.mem_cons_self
    cases entry <;> first | rfl | cases remark

-- The sessions a pair may still come to have.
def load (pair : Pair) (w : World) : Nat := (actives pair w.store.docs).length + (live pair w.store.log).length

section
variable {service : SessionService} {s t : World}

theorem actives_map {f : SessionDoc → SessionDoc} (keeps : ∀ doc ∈ docs, Keeps doc (f doc)) (pair : Pair) :
    actives pair (docs.map f) ⊆ actives pair docs := by
  intro id member
  obtain ⟨doc,present,owner,active,rfl⟩ := mem_actives.mp member
  obtain ⟨old,listed,rfl⟩ := List.mem_map.mp present
  obtain ⟨identity,was⟩ := keeps old listed
  refine mem_actives.mpr ⟨old,listed,(pair_identity identity).symm.trans owner,was active,?_⟩
  exact (identity_parts identity).1.symm

theorem actives_joined (docs : List SessionDoc) (doc : SessionDoc) (pair : Pair) :
    actives pair (docs ++ [doc]) = actives pair docs ++
      if doc.pair = pair ∧ doc.status = .active then [doc.id] else [] := by
  by_cases joins : doc.pair = pair ∧ doc.status = .active
  · have counted : activeOf pair.1 pair.2 doc = true := activeOf_pair.mpr joins
    simp [actives,List.filter_append,counted,joins]
  · have counted : activeOf pair.1 pair.2 doc = false := by
      by_contra hit
      simp only [Bool.not_eq_false] at hit
      exact joins (activeOf_pair.mp hit)
    simp [actives,List.filter_append,counted,joins]

theorem change_lessens (change : Change service i s t)
    (nothing : ∀ made, t.store.log = s.store.log ++ [.created i made] ∨
      (∃ parent, t.store.log = s.store.log ++ [.inserted i made parent]) → made.pair ≠ pair) :
    actives pair t.store.docs ⊆ actives pair s.store.docs := by
  cases change with
  | quiet drawn store => rw [store]; exact fun _ member => member
  | settled f entries drawn docs log settles remarks first =>
    rw [docs]
    exact actives_map (fun doc member => settles_keeps (settles doc member)) pair
  | created doc drawn docs log =>
    rw [docs,actives_joined,if_neg fun joins => nothing doc (.inl log) joins.1,List.append_nil]
    exact fun _ member => member
  | claimed doc rotated f drawn docs log untouched found active same kept rotates =>
    rw [docs]
    exact actives_map (rotates_keeps kept rotates) pair
  | inserted child parent f drawn docs log mine settles id owner token =>
    rw [docs,actives_joined,if_neg fun joins => nothing child (.inr ⟨parent,log⟩) joins.1,List.append_nil]
    exact actives_map (fun doc member => settles_keeps (settles doc member)) pair

theorem change_load (valid : Inv service s) (change : Change service i s t) (pair : Pair)
    (held : ∀ child parent, t.store.log = s.store.log ++ [.inserted i child parent] → child.pair = pair →
      i ∈ live pair s.store.log)
    (room : ∀ doc, t.store.log = s.store.log ++ [.created i doc] → doc.pair = pair → doc.status = .active →
      (actives pair s.store.docs).length + 1 ≤ service.maxActiveSessions)
    (bound : load pair s ≤ service.maxActiveSessions) : load pair t ≤ service.maxActiveSessions := by
  have after : (actives pair t.store.docs).Nodup := actives_nodup (preserves_inv valid change).current.ids pair
  unfold load at bound ⊢
  cases change with
  | quiet drawn store => rw [store]; exact bound
  | settled f entries drawn docs log settles remarks first =>
    have remark : ∀ entry ∈ entries, entry.isRemark = true := by
      intro entry member
      have holds := remarks entry member
      cases entry <;> first | rfl | cases holds
    rw [docs] at after
    rw [docs,log,live_remarks pair _ remark]
    have less := fewer after (actives_map (fun doc member => settles_keeps (settles doc member)) pair)
    omega
  | created doc drawn docs log =>
    rw [docs,log,live_append,actives_joined]
    by_cases joins : doc.pair = pair
    · by_cases active : doc.status = .active
      · have space := room doc log joins active
        simpa [liveStep,joins,active] using space
      · simp [liveStep,joins,active]
        omega
    · simpa [liveStep,joins] using bound
  | claimed doc rotated f drawn docs log untouched found active same kept rotates =>
    have keeps := rotates_keeps kept rotates
    rw [docs] at after
    rw [docs,log,live_append]
    have subset := actives_map keeps pair
    by_cases joins : rotated.pair = pair
    · have present : doc.id ∈ actives pair s.store.docs :=
        mem_actives.mpr ⟨doc,found,(pair_identity same).symm.trans joins,active,rfl⟩
      have gone : doc.id ∉ actives pair (s.store.docs.map f) := by
        intro member
        obtain ⟨other,listed,_,live,named⟩ := mem_actives.mp member
        obtain ⟨old,before,rfl⟩ := List.mem_map.mp listed
        have hit : old.id = doc.id := (identity_parts (keeps old before).1).1.symm.trans named
        rw [(rotates old before hit).2] at live
        cases live
      have less := one_fewer after subset present gone
      simp only [liveStep,joins,if_true,List.length_append,List.length_singleton]
      omega
    · have less := fewer after subset
      simp only [liveStep,joins,if_false]
      omega
  | inserted child parent f drawn docs log mine settles id owner token =>
    have subset := actives_map (fun doc member => settles_keeps (settles doc member)) pair
    rw [docs,actives_joined] at after
    rw [docs,log,live_append,actives_joined]
    have less := fewer (List.nodup_append.mp after).1 subset
    have others : ((live pair s.store.log).filter (· ≠ i)).length ≤ (live pair s.store.log).length :=
      List.length_filter_le _ _
    by_cases joins : child.pair = pair
    · have claimed := held child parent log joins
      have freed : ((live pair s.store.log).filter (· ≠ i)).length < (live pair s.store.log).length :=
        List.length_filter_lt_length_iff_exists.mpr ⟨i,claimed,by simp⟩
      by_cases active : child.status = .active
      · simp only [liveStep,joins,active,and_self,if_true,List.length_append,List.length_singleton]
        omega
      · simp only [liveStep,joins,active,and_false,if_false,List.append_nil]
        omega
    · simp only [liveStep,joins,false_and,if_false,List.append_nil]
      omega

theorem oldest_from (docs : List SessionDoc) (best : Option SessionDoc) :
    let found := docs.foldl (fun best doc => match best with
      | none => some doc
      | some first => if doc.lastActiveAt < first.lastActiveAt then some doc else some first) best
    (∀ doc, found = some doc → best = some doc ∨ doc ∈ docs) ∧ (found = none → best = none ∧ docs = []) := by
  induction docs generalizing best with
  | nil => exact ⟨fun _ same => .inl same,fun none => ⟨none,rfl⟩⟩
  | cons head rest ih =>
    simp only [List.foldl_cons]
    cases best with
    | none =>
      obtain ⟨member,none⟩ := ih (some head)
      refine ⟨fun doc found => .inr ?_,fun missing => by cases (none missing).1⟩
      rcases member doc found with same | later
      · cases same; exact List.mem_cons_self
      · exact List.mem_cons_of_mem _ later
    | some first =>
      obtain ⟨member,none⟩ := ih (if head.lastActiveAt < first.lastActiveAt then some head else some first)
      refine ⟨fun doc found => ?_,fun missing => ?_⟩
      · rcases member doc found with same | later
        · split at same
          · cases same; exact .inr List.mem_cons_self
          · exact .inl same
        · exact .inr (List.mem_cons_of_mem _ later)
      · obtain ⟨impossible,_⟩ := none missing
        split at impossible <;> cases impossible

theorem oldest_member (found : oldest docs = some doc) : doc ∈ docs := by
  rcases (oldest_from docs none).1 doc found with impossible | member
  · cases impossible
  · exact member

theorem oldest_none (missing : oldest docs = none) : docs = [] := ((oldest_from docs none).2 missing).2

def Lessens (s t : World) : Prop := ∀ pair, actives pair t.store.docs ⊆ actives pair s.store.docs

theorem lessens_same (store : t.store = s.store) : Lessens s t := by
  intro pair id member
  rw [store] at member
  exact member

-- The moves with which a creation makes sure of room: a count below the limit;
-- or no session found to end; or one found and ended.
inductive Checked (service : SessionService) (pair : Pair) : List (World × World) → Prop where
  | room (count : World × World) (below : (actives pair count.1.store.docs).length < service.maxActiveSessions) :
      Checked service pair [count]
  | nobody (found count : World × World) (none : actives pair found.1.store.docs = []) : Checked service pair [found,count]
  | ended (revoked found count : World × World) (id : String) (listed : id ∈ actives pair found.1.store.docs)
      (gone : id ∉ actives pair revoked.2.store.docs) : Checked service pair [revoked,found,count]

structure Cleared (service : SessionService) (pair : Pair) (memory : List (World × World)) : Prop where
  lessens : ∀ move ∈ memory, Lessens move.1 move.2
  checked : ∃ newest core, memory = newest ++ core ∧ Checked service pair core

theorem cleared_cons {memory : List (World × World)} (cleared : Cleared service pair memory) (less : Lessens s t) :
    Cleared service pair ((s,t) :: memory) := by
  obtain ⟨newest,core,rfl,checked⟩ := cleared.checked
  refine ⟨?_,(s,t) :: newest,core,rfl,checked⟩
  intro move member
  rcases List.mem_cons.mp member with rfl | earlier
  · exact less
  · exact cleared.lessens move earlier

def SessionContext.pair (ctx : SessionContext) : Pair := (ctx.userId,ctx.applicationId)

-- A creation adds its session only after these moves.
def Guarded (service : SessionService) : Call → List (World × World) → World → World → Prop
  | .create ctx,memory,s,t => Lessens s t ∨ (Cleared service ctx.pair memory ∧
      ∃ doc, t.store.docs = s.store.docs ++ [doc] ∧ doc.pair = ctx.pair)
  | _,_,_,_ => True

section
variable {ctx : SessionContext} {memory : List (World × World)} {post : Except Error α → List (World × World) → Prop}

theorem acts_op {f : CallId → World → Except MongoError (α × World)}
    (served : ∀ w, Inv service w → ∀ value t, f i w = .ok (value,t) →
      Guarded service (.create ctx) memory w t ∧ post (.ok value) ((w,t) :: memory))
    (refused : ∀ w e, post (.error (.mongo e)) ((w,w) :: memory)) :
    (op f).Acts (Inv service) i (Guarded service (.create ctx)) memory post :=
  acts_mongo (fun w valid _ value t result => served w valid value t result)
    fun w e _ _ => ⟨.inl (lessens_same rfl),refused w e⟩

theorem acts_read {f : List SessionDoc → α} (served : ∀ w, post (.ok (f w.store.docs)) ((w,w) :: memory))
    (refused : ∀ w e, post (.error (.mongo e)) ((w,w) :: memory)) :
    (read f).Acts (Inv service) i (Guarded service (.create ctx)) memory post := by
  refine acts_op ?_ refused
  intro w _ value t ran
  cases ran
  exact ⟨.inl (lessens_same rfl),served w⟩

theorem acts_base {f : CallId → Base → α × Base}
    (holds : ∀ w b, post (.ok (f i w.base).1) ((w,{w with base := b}) :: memory)) :
    (base (Prog.atomic f)).Acts (Inv service) i (Guarded service (.create ctx)) memory post := by
  apply Acts.zoom_atomic
  intro w _
  exact ⟨.inl (lessens_same rfl),holds w _⟩

end

theorem acts_enforceSessionLimit (ctx : SessionContext) (i : CallId) :
    (enforceSessionLimit service ctx.userId ctx.applicationId).Acts (Inv service) i (Guarded service (.create ctx)) []
      fun result moves => match result with
        | .ok _ => Cleared service ctx.pair moves
        | .error _ => True := by
  have still : ∀ w : World, Lessens w w := fun w => lessens_same rfl
  apply Acts.bind
  refine acts_read (fun counted => ?_) fun _ _ => trivial
  dsimp only
  split
  · apply Acts.bind
    refine acts_read (fun seen => ?_) fun _ _ => trivial
    dsimp only
    have watched : ∀ move ∈ [(seen,seen),(counted,counted)], Lessens move.1 move.2 := by
      simp [still]
    cases found : oldest (seen.store.docs.filter (activeOf ctx.userId ctx.applicationId)) with
    | none =>
      refine Acts.pure ⟨watched,[],_,rfl,.nobody _ _ ?_⟩
      simp [actives,SessionContext.pair,oldest_none found]
    | some doc =>
      have listed : doc.id ∈ actives ctx.pair seen.store.docs := List.mem_map_of_mem (oldest_member found)
      apply Acts.bind
      refine acts_op ?_ fun _ _ => trivial
      intro w valid value t ran
      cases ran
      have rewritten : Collection.updateOne (fun other => other.id = doc.id) (SessionDoc.revoke w.base.now) w.store.docs =
          Collection.rewrite SessionDoc.id doc.id (SessionDoc.revoke w.base.now) w.store.docs :=
        updateOne_id valid.current.ids _
      have less : Lessens w (w.withDocs (Collection.updateOne (fun other => other.id = doc.id)
          (SessionDoc.revoke w.base.now) w.store.docs) []) := by
        intro pair
        simp only [World.withDocs]
        rw [rewritten]
        exact actives_map (fun other _ => settles_keeps (settles_rewrite (settles_revoke w.base.now) other)) pair
      have gone : doc.id ∉ actives ctx.pair (Collection.updateOne (fun other => other.id = doc.id)
          (SessionDoc.revoke w.base.now) w.store.docs) := by
        rw [rewritten]
        intro member
        obtain ⟨other,present,_,active,named⟩ := mem_actives.mp member
        obtain ⟨old,_,rfl⟩ := Collection.mem_rewrite.mp present
        by_cases hit : old.id = doc.id
        · simp only [hit,if_true] at active
          cases active
        · simp only [hit,if_false] at named
      refine ⟨.inl less,?_⟩
      refine acts_base fun u b => ?_
      refine cleared_cons ⟨?_,[],_,rfl,.ended _ _ _ doc.id listed gone⟩ (lessens_same rfl)
      intro move member
      rcases List.mem_cons.mp member with rfl | earlier
      · exact less
      · exact watched move earlier
  · rename_i below
    refine Acts.pure ⟨by simp [still],[],_,rfl,.room _ ?_⟩
    have below := Nat.lt_of_not_le below
    rw [actives_length] at below
    exact below

theorem cleared_base {memory : List (World × World)} (cleared : Cleared service pair memory) (w : World) (b : Base) :
    Cleared service pair ((w,{w with base := b}) :: memory) :=
  cleared_cons cleared (lessens_same rfl)

theorem acts_create (ctx : SessionContext) (i : CallId) :
    (create service ctx).Acts (Inv service) i (Guarded service (.create ctx)) [] fun _ _ => True := by
  apply Acts.bind
  refine (acts_enforceSessionLimit ctx i).mono ?_
  intro result moves cleared
  cases result with
  | error e => trivial
  | ok _ =>
    apply Acts.bind
    refine acts_base fun w b => ?_
    have cleared := cleared_base cleared w b
    apply Acts.bind
    refine acts_base fun w b => ?_
    have cleared := cleared_base cleared w b
    apply Acts.bind
    refine acts_base fun w b => ?_
    have cleared := cleared_base cleared w b
    apply Acts.bind
    refine acts_op ?_ fun _ _ => trivial
    intro w _ doc t ran
    obtain ⟨rfl,_,rfl⟩ := insertStep_parts ran
    refine ⟨.inr ⟨cleared,_,rfl,rfl⟩,?_⟩
    apply Acts.bind
    refine acts_base fun _ _ => ?_
    trivial

theorem acts_program (service : SessionService) (i : CallId) (call : Call) :
    (program service call).Acts (Inv service) i (Guarded service call) [] fun _ _ => True := by
  cases call with
  | create ctx =>
    apply Acts.bind
    refine (acts_create ctx i).mono ?_
    intro result moves _
    cases result <;> trivial
  | _ => exact Acts.free (fun _ _ _ => trivial) fun _ _ => trivial

abbrev Action := Event CallId Call World

def Creates (event : Action) (doc : SessionDoc) : Prop :=
  event.after.store.log = event.before.store.log ++ [.created event.who doc]

def Inserts (event : Action) (child : SessionDoc) : Prop :=
  ∃ parent, event.after.store.log = event.before.store.log ++ [.inserted event.who child parent]

-- The sessions an action has created, and the children it has inserted, read off
-- the log.
def createdBy (event : Action) : List SessionDoc :=
  (event.after.store.log.drop event.before.store.log.length).filterMap fun entry => match entry with
    | .created _ doc => some doc
    | _ => none

def insertedBy (event : Action) : List SessionDoc :=
  (event.after.store.log.drop event.before.store.log.length).filterMap fun entry => match entry with
    | .inserted _ child _ => some child
    | _ => none

theorem creates_listed (creates : Creates event doc) : doc ∈ createdBy event := by
  unfold createdBy
  rw [creates]
  simp

theorem inserts_listed (inserts : Inserts event child) : child ∈ insertedBy event := by
  obtain ⟨parent,log⟩ := inserts
  unfold insertedBy
  rw [log]
  simp

-- Creations for a user in an application overlap with nothing that adds a
-- session there: from its count to its insert no other call inserts one, and
-- from a refresh's claim to its insert no session is created.
def Exclusive : List Action → Prop
  | [] => True
  | event :: past =>
    (∀ doc ∈ createdBy event, ∀ other ∈ during event.who past, other.who ≠ event.who →
      ∀ made ∈ createdBy other ++ insertedBy other, made.pair ≠ doc.pair) ∧
    (∀ child ∈ insertedBy event, event.who ∈ live child.pair event.before.store.log) ∧ Exclusive past

def Exclusive.decide : (past : List Action) → Decidable (Exclusive past)
  | [] => .isTrue trivial
  | _ :: past => @instDecidableAnd _ _ inferInstance (@instDecidableAnd _ _ inferInstance (decide past))

instance (past : List Action) : Decidable (Exclusive past) := Exclusive.decide past

structure Fact (service : SessionService) (event : Action) : Prop where
  valid : Inv service event.before
  change : Change service event.who event.before event.after
  kind : ∀ doc, Creates event doc → ∃ ctx, event.call = .create ctx

abbrev Followed (service : SessionService) (now : Nat) (past : List Action) (c : Pool) : Prop :=
  Traced (program service) Surroundings (empty now) past c

theorem followed_held (path : Followed service now past c) :
    Held (discipline service) ([],∅) (fun i call result u => Outcome service i call result u.1) c :=
  held (traced_runs path)

theorem changes_grow (path : Relation.ReflTransGen (Change service i) s t) :
    entriesOf i s.store.log <+: entriesOf i t.store.log := by
  induction path with
  | refl => exact List.prefix_refl _
  | tail _ change ih =>
    obtain ⟨_,entries,log,_⟩ := change_parts change
    simp only [log,entriesOf_append]
    exact ih.trans (List.prefix_append _ _)

theorem followed_facts (path : Followed service now past c) : ∀ event ∈ past, Fact service event := by
  refine traced_events ?_ path
  intro past c i call update next path running
  have held := followed_held path
  obtain ⟨change,_⟩ := held.busy i call _ running c.state held.inv rfl
  refine ⟨held.inv,change,?_⟩
  intro doc creates
  have after := followed_held (path.act i running)
  obtain ⟨result,t,outcome,moved⟩ := after.foreseen (Function.update_self i _ c.calls)
  have listed : .created i doc ∈ entriesOf i (update i c.state).store.log := by
    refine mem_entriesOf.mpr ⟨?_,rfl⟩
    rw [show (update i c.state).store.log = c.state.store.log ++ [.created i doc] from creates]
    simp
  exact outcome_created outcome ((changes_grow moved).subset listed)

theorem creates_docs (change : Change service i s t) (creates : t.store.log = s.store.log ++ [.created i doc]) :
    t.store.docs = s.store.docs ++ [doc] := by
  cases change with
  | quiet drawn store => rw [store] at creates; simp at creates
  | settled f entries drawn docs log settles remarks first =>
    rw [log,List.append_cancel_left_eq] at creates
    have holds := remarks (.created i doc) (by simp [creates])
    cases holds
  | created made drawn docs log =>
    rw [log,List.append_cancel_left_eq] at creates
    simp only [List.cons.injEq,Entry.created.injEq,true_and,and_true] at creates
    rw [docs,creates]
  | claimed _ _ _ _ _ log => rw [log,List.append_cancel_left_eq] at creates; cases creates
  | inserted _ _ _ _ _ log => rw [log,List.append_cancel_left_eq] at creates; cases creates

theorem surroundings_lessens (moved : Surroundings s t) : Lessens s t := by
  cases moved with
  | tick later => exact lessens_same rfl
  | fault error => exact lessens_same rfl
  | cache content => exact lessens_same rfl
  | expire kept fewer_ due =>
    intro pair id member
    obtain ⟨doc,listed,rest⟩ := mem_actives.mp member
    exact mem_actives.mpr ⟨doc,fewer_.subset listed,rest⟩

theorem surroundings_load (moved : Surroundings s t) (pair : Pair) : load pair t ≤ load pair s := by
  cases moved with
  | tick later => exact Nat.le_refl _
  | fault error => exact Nat.le_refl _
  | cache content => exact Nat.le_refl _
  | expire kept fewer_ due =>
    have sublist := ((fewer_.filter (activeOf pair.1 pair.2)).map SessionDoc.id).length_le
    exact Nat.add_le_add_right sublist _

theorem surroundings_loads (moves : Relation.ReflTransGen Surroundings s t) (pair : Pair) : load pair t ≤ load pair s := by
  induction moves with
  | refl => exact Nat.le_refl _
  | tail _ moved ih => exact Nat.le_trans (surroundings_load moved pair) ih

theorem window_lessens {past : List Action} {event : Action} {n : Nat} {before after : World} (linked : Linked Surroundings initial past event.before)
    (facts : ∀ earlier ∈ past, Fact service earlier) (cleared : Cleared service pair (mine event.who past))
    (alone : ∀ other ∈ during event.who past, other.who ≠ event.who →
      ∀ made ∈ createdBy other ++ insertedBy other, made.pair ≠ pair)
    (found : (mine event.who past)[n]? = some (before,after)) :
    actives pair event.before.store.docs ⊆ actives pair before.store.docs ∧
      actives pair event.before.store.docs ⊆ actives pair after.store.docs := by
  refine since_kept (r := fun s t => actives pair t.store.docs ⊆ actives pair s.store.docs) (fun _ _ member => member)
    (fun one two _ member => one (two member)) (fun moved => surroundings_lessens moved pair) linked ?_ found
  intro other member
  have within := since_during found member
  by_cases own : other.who = event.who
  · refine cleared.lessens (other.before,other.after) ?_ pair
    exact List.mem_filterMap.mpr ⟨other,since_listed member,by simp [own]⟩
  · apply change_lessens (facts other (since_listed member)).change
    intro made adds
    apply alone other within own
    rcases adds with creates | inserts
    · exact List.mem_append_left _ (creates_listed creates)
    · exact List.mem_append_right _ (inserts_listed inserts)

theorem cleared_room {past : List Action} {event : Action} (linked : Linked Surroundings initial past event.before)
    (positive : 0 < service.maxActiveSessions) (valid : Inv service event.before)
    (facts : ∀ earlier ∈ past, Fact service earlier)
    (bounded : ∀ earlier ∈ past, load pair earlier.before ≤ service.maxActiveSessions)
    (cleared : Cleared service pair (mine event.who past))
    (alone : ∀ other ∈ during event.who past, other.who ≠ event.who →
      ∀ made ∈ createdBy other ++ insertedBy other, made.pair ≠ pair) :
    (actives pair event.before.store.docs).length + 1 ≤ service.maxActiveSessions := by
  have unique := actives_nodup valid.current.ids pair
  obtain ⟨newest,core,split,checked⟩ := cleared.checked
  have window : ∀ (n : Nat) (before after : World), core[n]? = some (before,after) →
      actives pair event.before.store.docs ⊆ actives pair before.store.docs ∧
        actives pair event.before.store.docs ⊆ actives pair after.store.docs := by
    intro n before after found
    refine window_lessens (n := newest.length + n) linked facts cleared alone ?_
    rw [split,List.getElem?_append_right (by omega)]
    simpa using found
  cases checked with
  | room count below =>
    have less := fewer unique (window 0 count.1 count.2 rfl).1
    omega
  | nobody found count none =>
    have less := fewer unique (window 0 found.1 found.2 rfl).1
    rw [none] at less
    simp only [List.length_nil] at less
    omega
  | ended revoked found count id listed gone =>
    have member : found ∈ mine event.who past := by rw [split]; simp
    obtain ⟨earlier,known,_,same⟩ := mine_member member
    have bound := bounded earlier known
    have before : found.1 = earlier.before := congrArg Prod.fst same
    rw [← before] at bound
    have less := one_fewer unique (window 1 found.1 found.2 rfl).1 listed
      (fun still => gone ((window 0 revoked.1 revoked.2 rfl).2 still))
    unfold load at bound
    omega

theorem along_load {past : List Action} (positive : 0 < service.maxActiveSessions)
    (along : Along (Guarded service) past) (linked : Linked Surroundings (empty now) past s)
    (facts : ∀ event ∈ past, Fact service event) (exclusive : Exclusive past) (pair : Pair) :
    load pair s ≤ service.maxActiveSessions ∧ ∀ event ∈ past, load pair event.before ≤ service.maxActiveSessions := by
  induction past generalizing s with
  | nil =>
    have none : load pair (empty now) = 0 := rfl
    have less := surroundings_loads linked pair
    exact ⟨by omega,by simp⟩
  | cons event past ih =>
    obtain ⟨guarded,earlier⟩ := along
    obtain ⟨moves,linked⟩ := linked
    obtain ⟨apart,held,exclusive⟩ := exclusive
    have fact := facts event List.mem_cons_self
    obtain ⟨now_,history⟩ := ih earlier linked (fun older member => facts older (List.mem_cons_of_mem _ member)) exclusive
    have next : load pair event.after ≤ service.maxActiveSessions := by
      refine change_load fact.valid fact.change pair ?_ ?_ now_
      · intro child parent log joins
        rw [← joins]
        exact held child (inserts_listed ⟨parent,log⟩)
      · intro doc log joins active
        obtain ⟨ctx,kind⟩ := fact.kind doc log
        rw [kind] at guarded
        have docs := creates_docs fact.change log
        rcases guarded with less | ⟨cleared,made,added,named⟩
        · have present : doc.id ∈ actives pair event.after.store.docs :=
            mem_actives.mpr ⟨doc,by rw [docs]; simp,joins,active,rfl⟩
          obtain ⟨old,listed,_,_,same⟩ := mem_actives.mp (less pair present)
          have unique := (preserves_inv fact.valid fact.change).current.ids
          rw [docs,List.map_append,List.map_singleton] at unique
          have fresh := (List.nodup_append.mp unique).2.2 _ (List.mem_map_of_mem listed) doc.id (by simp)
          exact absurd same fresh
        · rw [docs] at added
          have same : doc = made := by simpa using List.append_cancel_left added
          subst same
          have owner : ctx.pair = pair := named.symm.trans joins
          rw [owner] at cleared
          refine cleared_room linked positive fact.valid ?_ history cleared ?_
          · exact fun older member => facts older (List.mem_cons_of_mem _ member)
          · rw [← joins]
            exact apart doc (creates_listed log)
    refine ⟨Nat.le_trans (surroundings_loads moves pair) next,?_⟩
    intro older member
    rcases List.mem_cons.mp member with rfl | before
    · exact now_
    · exact history older before

-- The cap on every user and application, along every run in which creations
-- keep to themselves.
theorem session_cap_holds (service : SessionService) (positive : 1 ≤ service.maxActiveSessions) (now : Nat)
    (past : List Action) (c : Pool) (path : Followed service now past c) (exclusive : Exclusive past)
    (userId applicationId : String) :
    (c.state.store.docs.filter (activeOf userId applicationId)).length ≤ service.maxActiveSessions := by
  have kept := traced_kept (fun i call => acts_program service i call)
    (fun past c path => (followed_held path).inv) path
  obtain ⟨bound,_⟩ := along_load positive kept.along (traced_linked path) (followed_facts path) exclusive
    (userId,applicationId)
  rw [actives_length]
  unfold load at bound
  omega

end

def smallService : SessionService := {sampleService true with maxActiveSessions := 1}

def login : Call := .create ⟨"user","tenant","application",none,none,none⟩

theorem session_cap_holds_full : ∃ past c, Followed smallService 0 past c ∧ Exclusive past ∧
    c.state.store.docs.length = 2 ∧ (c.state.store.docs.filter (activeOf "user" "application")).length ≤ 1 := by
  have performed : (perform (program smallService) [] (start (empty 0)) (List.flatten [[.start 0 login],
        List.replicate 6 (.act 0),[.start 1 login],List.replicate 9 (.act 1)])).any (fun after =>
        decide (Exclusive after.1) && decide (after.2.state.store.docs.length = 2)) = true := by decide +kernel
  obtain ⟨past,c,traced,checked⟩ := perform_exists performed
  simp only [Bool.and_eq_true,decide_eq_true_eq] at checked
  exact ⟨past,c,traced,checked.1,checked.2,
    session_cap_holds smallService (Nat.le_refl _) 0 past c traced checked.1 "user" "application"⟩

theorem session_cap_exceeded : ∃ past c, Followed smallService 0 past c ∧
    (c.state.store.docs.filter (activeOf "user" "application")).length = 2 := by
  have performed : (perform (program smallService) [] (start (empty 0)) (List.flatten [
        [.start 0 login,.start 1 login,.act 0,.act 1],List.replicate 5 (.act 0),
        List.replicate 5 (.act 1)])).any (fun after =>
        decide ((after.2.state.store.docs.filter (activeOf "user" "application")).length = 2)) = true := by decide +kernel
  obtain ⟨past,c,traced,checked⟩ := perform_exists performed
  exact ⟨past,c,traced,of_decide_eq_true checked⟩

end Pezhwan.Session
