import Pezhwan.Audit.Service
import Pezhwan.Atomic.Trace
import Mathlib.Data.List.Induction

namespace Pezhwan.Audit
open Atomic Prog

-- Every entry names the hash of the one before it.
def Chained : String → List AuditLogDoc → Prop
  | _,[] => True
  | hash,doc :: rest => doc.prevHash = hash ∧ Chained doc.hash rest

def lastHash (hash : String) (entries : List AuditLogDoc) : String :=
  (entries.getLast?.map AuditLogDoc.hash).getD hash

def Ascending (entries : List AuditLogDoc) : Prop :=
  entries.Pairwise fun one two => one.sequence < two.sequence

theorem chained_append (chained : Chained prev entries) (linked : doc.prevHash = lastHash prev entries) :
    Chained prev (entries ++ [doc]) := by
  induction entries generalizing prev with
  | nil => exact ⟨by simpa [lastHash] using linked,trivial⟩
  | cons first rest ih =>
    refine ⟨chained.1,ih chained.2 ?_⟩
    cases rest with
    | nil => simpa [lastHash] using linked
    | cons second rest =>
      unfold lastHash at linked ⊢
      rw [List.getLast?_cons_cons] at linked
      obtain ⟨last,found⟩ := List.getLast?_isSome.mpr (List.cons_ne_nil second rest) |> Option.isSome_iff_exists.mp
      simpa [found] using linked

theorem ascending_append (ascending : Ascending entries) (above : ∀ old ∈ entries, old.sequence < doc.sequence) :
    Ascending (entries ++ [doc]) := by
  refine List.pairwise_append.mpr ⟨ascending,List.pairwise_singleton _ _,?_⟩
  intro old member new added
  cases List.mem_singleton.mp added
  exact above old member

theorem tail_last (ascending : Ascending entries) : tail entries = entries.getLast? := by
  induction entries using List.reverseRecOn with
  | nil => rfl
  | append_singleton init doc ih =>
    have before := ih (List.pairwise_append.mp ascending).1
    unfold tail at before ⊢
    rw [List.foldl_append,before]
    cases found : init.getLast? with
    | none => simp
    | some last =>
      have lower := (List.pairwise_append.mp ascending).2.2 last (List.mem_of_getLast? found) doc (by simp)
      simp [lower]

-- What a write finds as its predecessor.
def predecessorOf (store : Store) : String :=
  (truthy (store.counter.bind AuditSequenceDoc.lastHash)).getD (tailHash (tail store.entries) AUDIT_CHAIN_ROOT)

-- The entry a write in a session makes from the store it sees.
structure Follows (service : AuditService) (input : AuditEntryInput) (snapshot : Store) (doc : AuditLogDoc) : Prop where
  sequence : doc.sequence = (incremented snapshot.counter).seq
  prevHash : doc.prevHash = predecessorOf snapshot
  hashed : doc.hash = chainHash service doc.prevHash input

def Store.entered (store : Store) (doc : AuditLogDoc) : Store :=
  ⟨some ⟨doc.sequence,some doc.hash⟩,store.entries ++ [doc]⟩

section
variable {service : AuditService} {input : AuditEntryInput}

theorem yields_buffered_op {f : CallId → World → Except MongoError (α × World)} {copy : Store} {P : α × Store → Prop}
    (step : ∀ i w value t, f i (storeLens.set copy w) = .ok (value,t) → P (value,t.store)) :
    ((op f).buffered storeLens copy).Yields P := by
  apply Yields.buffered_tryAtomic
  intro i w value t ran
  split at ran
  · cases ran
  · cases served : f i (storeLens.set copy w) with
    | ok result => rw [served] at ran; cases ran; exact step i w value t served
    | error e => rw [served] at ran; cases ran

theorem yields_predecessor (counter : AuditSequenceDoc) (copy : Store) :
    ((predecessor counter).buffered storeLens copy).Yields fun result => result.2 = copy ∧
      result.1 = (truthy counter.lastHash).getD (tailHash (tail copy.entries) AUDIT_CHAIN_ROOT) := by
  unfold predecessor
  cases truthy counter.lastHash with
  | some last => exact Yields.pure ⟨rfl,rfl⟩
  | none =>
    dsimp only
    rw [buffered_bind]
    apply Yields.bind (P := fun result => result.2 = copy ∧ result.1 = tail copy.entries)
    · apply yields_buffered_op
      intro i w value t ran
      cases ran
      exact ⟨rfl,rfl⟩
    · rintro ⟨last,after⟩ ⟨same,found⟩
      dsimp only at same found
      subst same found
      exact Yields.pure ⟨rfl,rfl⟩

theorem yields_create (doc : World → AuditLogDoc) (copy : Store) :
    ((create doc).buffered storeLens copy).Yields fun result =>
      ∃ w, result.2 = ⟨copy.counter,copy.entries ++ [doc w]⟩ := by
  apply yields_buffered_op
  intro i w value t ran
  split at ran
  · cases ran
  · cases ran
    exact ⟨_,rfl⟩

theorem yields_session (snapshot : Store) :
    ((writeEntryInSession service input).buffered storeLens snapshot).Yields fun result =>
      ∃ doc, Follows service input snapshot doc ∧ result.2 = snapshot.entered doc := by
  unfold writeEntryInSession
  simp only [buffered_bind]
  apply Yields.bind (P := fun result => result.1 = incremented snapshot.counter ∧
    result.2 = ⟨some (incremented snapshot.counter),snapshot.entries⟩)
  · apply yields_buffered_op
    intro i w value t ran
    cases ran
    exact ⟨rfl,rfl⟩
  · rintro ⟨counter,copy⟩ ⟨taken,written⟩
    dsimp only at taken written
    subst taken written
    apply Yields.bind (yields_predecessor _ _)
    rintro ⟨prevHash,copy⟩ ⟨same,found⟩
    dsimp only at same found
    subst same
    have named : prevHash = predecessorOf snapshot := by
      rw [found]
      unfold predecessorOf incremented
      cases snapshot.counter <;> rfl
    apply Yields.bind (yields_create _ _)
    rintro ⟨_,copy⟩ ⟨w,same⟩
    dsimp only at same
    subst same
    apply Yields.bind (P := fun result => result.2 = ⟨some ⟨(incremented snapshot.counter).seq,
      some (chainHash service prevHash input)⟩,snapshot.entries ++ [buildDoc w.base.now w.retentionMs input
        (incremented snapshot.counter).seq prevHash (chainHash service prevHash input)]⟩)
    · apply yields_buffered_op
      intro i w value t ran
      cases ran
      rfl
    · rintro ⟨_,copy⟩ same
      dsimp only at same
      subst same
      exact Yields.pure ⟨buildDoc w.base.now w.retentionMs input (incremented snapshot.counter).seq prevHash
        (chainHash service prevHash input),⟨rfl,named,rfl⟩,rfl⟩

def Still (s t : World) : Prop := t.direct = s.direct ∧ t.store = s.store

-- What an action of a log call can do to the chain, given the moves the call
-- has made before (newest first): nothing; take a number outside a transaction;
-- append an entry under the number taken two moves ago, behind the tail read in
-- between; commit an entry made from an earlier state since which the call has
-- moved nothing and whose counter is still the current one.
inductive Deed (service : AuditService) (input : AuditEntryInput) (memory : List (World × World)) (s t : World) : Prop where
  | still (kept : Still s t)
  | numbered (i : CallId) (store : t.store = ⟨some (incremented s.store.counter),s.store.entries⟩)
      (direct : t.direct = s.direct ++ [i])
  | appended (read number : World × World) (older : List (World × World)) (doc : AuditLogDoc)
      (known : memory = read :: number :: older) (outside : number.2.direct ≠ [] ∧ number.2.direct ≠ number.1.direct)
      (untouched : Still read.1 read.2)
      (sequence : ∃ counter, number.2.store.counter = some counter ∧ doc.sequence = counter.seq)
      (linked : doc.prevHash = if read.1.base.fault = none then tailHash (tail read.1.store.entries) AUDIT_CHAIN_ROOT
        else AUDIT_CHAIN_ROOT)
      (hashed : doc.hash = chainHash service doc.prevHash input)
      (store : t.store = ⟨s.store.counter,s.store.entries ++ [doc]⟩) (direct : t.direct = s.direct)
  | committed (snapshot : World × World) (moves older : List (World × World)) (doc : AuditLogDoc)
      (known : memory = moves ++ snapshot :: older) (quiet : ∀ move ∈ moves ++ [snapshot], Still move.1 move.2)
      (follows : Follows service input snapshot.1.store doc) (current : s.store.counter = snapshot.1.store.counter)
      (store : t.store = s.store.entered doc) (direct : t.direct = s.direct)

abbrev Always : World → Prop := fun _ => True

section
variable {memory : List (World × World)} {post : Except Error α → List (World × World) → Prop}

theorem acts_op {f : CallId → World → Except MongoError (α × World)}
    (served : ∀ w value t, w.base.fault = none → f i w = .ok (value,t) →
      Deed service input memory w t ∧ post (.ok value) ((w,t) :: memory))
    (refused : ∀ w e, (w.base.fault = some e ∨ f i w = .error e) → post (.error (.mongo e)) ((w,w) :: memory)) :
    (op f).Acts Always i (Deed service input) memory post :=
  acts_mongo (fun w _ healthy value t result => served w value t healthy result)
    fun w e _ why => ⟨.still ⟨rfl,rfl⟩,refused w e why⟩

end

theorem keeps_op_direct {f : CallId → World → Except MongoError (α × World)}
    (step : ∀ i w value t, f i w = .ok (value,t) → t.direct = w.direct) :
    (op f).Keeps fun s t => t.direct = s.direct :=
  keeps_mongo (fun _ => rfl) step

theorem keeps_session (service : AuditService) (input : AuditEntryInput) :
    (writeEntryInSession service input).Keeps fun s t => t.direct = s.direct := by
  apply Keeps.bind (keeps_op_direct ?_)
  · intro counter
    apply Keeps.bind
    · unfold predecessor
      split
      · exact Keeps.pure _
      · apply Keeps.bind (keeps_op_direct ?_) fun _ => Keeps.pure _
        intro i w value t ran
        cases ran
        rfl
    · intro prevHash
      apply Keeps.bind (keeps_op_direct ?_)
      · intro _
        apply Keeps.bind (keeps_op_direct ?_) fun _ => Keeps.pure _
        intro i w value t ran
        cases ran
        rfl
      · intro i w value t ran
        split at ran
        · cases ran
        · cases ran
          rfl
  · intro i w value t ran
    cases ran
    rfl

theorem entered_advances (follows : Follows service input store doc) : (store.entered doc).counter ≠ store.counter := by
  intro same
  have numbered := follows.sequence
  rw [← same] at numbered
  simp [Store.entered,incremented] at numbered

theorem acts_commit {moves older : List (World × World)} (snapshot : World × World)
    (quiet : ∀ move ∈ moves ++ [snapshot], Still move.1 move.2)
    (follows : Follows service input snapshot.1.store doc) (i : CallId) :
    (commit snapshot.1.store (snapshot.1.store.entered doc)).Acts Always i (Deed service input)
      (moves ++ snapshot :: older) fun _ _ => True := by
  have advanced := entered_advances follows
  have inserted : (snapshot.1.store.entered doc).entries.drop snapshot.1.store.entries.length = [doc] := by
    simp [Store.entered]
  apply acts_op
  · intro w value t _ ran
    dsimp only at ran
    split at ran
    · cases ran
    · rename_i accepted
      cases ran
      have current : w.store.counter = snapshot.1.store.counter := by
        by_contra moved
        exact accepted (.inl ⟨advanced,moved⟩)
      refine ⟨.committed snapshot moves older doc rfl quiet follows current ?_ rfl,trivial⟩
      simp only [inserted]
      rfl
  · exact fun _ _ _ => trivial

theorem acts_transaction (memory : List (World × World)) (i : CallId) :
    ((writeEntryInSession service input).transaction storeLens commit).Acts Always i (Deed service input) memory
      fun _ _ => True := by
  apply Acts.bind
  apply Acts.atomic
  intro start _
  refine ⟨.still ⟨rfl,rfl⟩,?_⟩
  apply Acts.bind
  refine Acts.keeps (r := Still) (Keeps.buffered_part (keeps_session service input) (fun _ _ _ _ same => same) _)
    (yields_session _) (fun _ _ _ kept => .still kept) ?_
  intro moves kept
  refine ⟨fun _ => trivial,?_⟩
  rintro ⟨entry,copy⟩ ⟨doc,follows,written⟩
  dsimp only at written ⊢
  subst written
  have quiet : ∀ move ∈ moves ++ [(start,start)], Still move.1 move.2 := by
    intro move member
    rcases List.mem_append.mp member with later | first
    · exact kept move later
    · cases List.mem_singleton.mp first
      exact ⟨rfl,rfl⟩
  apply Acts.bind
  refine (acts_commit (start,start) quiet follows i).mono ?_
  intro result _ _
  cases result <;> trivial

theorem acts_driverTransaction (retries : Nat) (memory : List (World × World)) (i : CallId) :
    (driverTransaction storeLens commit (writeEntryInSession service input) retries).Acts Always i
      (Deed service input) memory fun _ _ => True := by
  induction retries generalizing memory with
  | zero => exact acts_transaction memory i
  | succ retries ih =>
    apply Acts.bind
    apply Acts.attempt
    refine (acts_transaction memory i).mono ?_
    intro result moves _
    cases result with
    | ok out => trivial
    | error e =>
      cases e with
      | pezhwan kind message code => trivial
      | mongo e =>
        dsimp only
        split
        · exact ih moves
        · trivial

theorem acts_bareCreate {read number : World × World} {older : List (World × World)} (counter : AuditSequenceDoc)
    (outside : number.2.direct ≠ [] ∧ number.2.direct ≠ number.1.direct) (untouched : Still read.1 read.2)
    (counted : number.2.store.counter = some counter)
    (linked : prevHash = if read.1.base.fault = none then tailHash (tail read.1.store.entries) AUDIT_CHAIN_ROOT
      else AUDIT_CHAIN_ROOT) (i : CallId) :
    (create fun w => buildDoc w.base.now w.retentionMs input counter.seq prevHash
      (chainHash service prevHash input)).Acts Always i (Deed service input) (read :: number :: older)
        fun _ _ => True := by
  apply acts_op
  · intro w value t _ ran
    split at ran
    · cases ran
    · cases ran
      exact ⟨.appended read number older _ rfl outside untouched ⟨counter,counted,rfl⟩ linked rfl rfl rfl,trivial⟩
  · exact fun _ _ _ => trivial

theorem acts_bestEffort (memory : List (World × World)) (i : CallId) :
    (writeEntryBestEffort service input).Acts Always i (Deed service input) memory fun _ _ => True := by
  apply Acts.bind
  apply acts_op
  · intro w value t _ ran
    cases ran
    refine ⟨.numbered i rfl rfl,?_⟩
    have outside : w.direct ++ [i] ≠ [] ∧ w.direct ++ [i] ≠ w.direct := by simp
    apply Acts.bind
    apply Acts.attempt
    apply acts_op
    · intro u last v healthy ran
      cases ran
      refine ⟨.still ⟨rfl,rfl⟩,?_⟩
      apply Acts.bind
      refine (acts_bareCreate (incremented w.store.counter) outside ⟨rfl,rfl⟩ rfl ?_ i).mono ?_
      · simp [healthy]
      · intro done _ _
        cases done <;> trivial
    · intro u e failed
      have fault : u.base.fault ≠ none := by
        rcases failed with fault | impossible
        · simp [fault]
        · cases impossible
      apply Acts.bind
      refine (acts_bareCreate (incremented w.store.counter) outside ⟨rfl,rfl⟩ rfl ?_ i).mono ?_
      · simp [fault]
      · intro done _ _
        cases done <;> trivial
  · exact fun _ _ _ => trivial

theorem acts_attempts (options : TransactionOptions) (left : Nat) (memory : List (World × World)) (i : CallId) :
    (transactionAttempts storeLens commit service.driverRetries options (fun session =>
      if session then writeEntryInSession service input else writeEntryBestEffort service input) left).Acts Always i
      (Deed service input) memory fun _ _ => True := by
  induction left generalizing memory with
  | zero => exact acts_bestEffort memory i
  | succ left ih =>
    apply Acts.bind
    apply Acts.attempt
    refine (acts_driverTransaction service.driverRetries memory i).mono ?_
    intro result moves _
    cases result with
    | ok out => trivial
    | error e =>
      dsimp only
      split
      · trivial
      · split
        · split
          · exact acts_bestEffort moves i
          · trivial
        · exact ih moves

theorem acts_log (service : AuditService) (input : AuditEntryInput) (i : CallId) :
    (log service input).Acts Always i (Deed service input) [] fun _ _ => True := by
  have forwarded : ∀ entry moves, (forward service input entry).Acts Always i (Deed service input) moves
      fun _ _ => True := by
    intro entry moves
    unfold forward
    split
    · apply Acts.bind
      apply Acts.zoom_atomic
      intro w _
      refine ⟨.still ⟨rfl,rfl⟩,?_⟩
      apply Acts.bind
      apply Acts.zoom_atomic
      intro w _
      refine ⟨.still ⟨rfl,rfl⟩,?_⟩
      apply Acts.atomic
      intro w _
      exact ⟨.still ⟨rfl,rfl⟩,trivial⟩
    · trivial
  apply Acts.bind
  apply Acts.attempt
  apply Acts.bind
  apply Acts.atomic
  intro w _
  refine ⟨.still ⟨rfl,rfl⟩,?_⟩
  dsimp only
  split
  · refine (acts_attempts ⟨3,fun _ => false⟩ 3 _ i).mono ?_
    intro result moves _
    exact forwarded _ moves
  · refine (acts_bestEffort _ i).mono ?_
    intro result moves _
    exact forwarded _ moves

end

-- Entries linked from the root in ascending order, and a counter that is not
-- behind them.
structure Links (store : Store) : Prop where
  ascending : Ascending store.entries
  chained : Chained AUDIT_CHAIN_ROOT store.entries
  hashed : ∀ doc ∈ store.entries, doc.hash ≠ ""
  counted : ∀ doc ∈ store.entries, ∃ counter, store.counter = some counter ∧ doc.sequence ≤ counter.seq

-- A chain that transactions can go on with: the tip, if the counter has one, is
-- the last hash.
structure Sound (store : Store) : Prop extends Links store where
  agreed : ∀ counter tip, store.counter = some counter → truthy counter.lastHash = some tip →
    tip = lastHash AUDIT_CHAIN_ROOT store.entries

theorem tailHash_last (links : Links store) :
    tailHash (tail store.entries) AUDIT_CHAIN_ROOT = lastHash AUDIT_CHAIN_ROOT store.entries := by
  rw [tail_last links.ascending]
  unfold tailHash lastHash
  cases found : store.entries.getLast? with
  | none => rfl
  | some doc =>
    rw [Option.map_some,truthy_given (links.hashed doc (List.mem_of_getLast? found))]

theorem predecessor_last (links : Links store)
    (agreed : ∀ counter tip, store.counter = some counter → truthy counter.lastHash = some tip →
      tip = lastHash AUDIT_CHAIN_ROOT store.entries) :
    predecessorOf store = lastHash AUDIT_CHAIN_ROOT store.entries := by
  unfold predecessorOf
  cases counted : store.counter with
  | none => exact tailHash_last links
  | some counter =>
    simp only [Option.bind_some]
    cases tip : truthy counter.lastHash with
    | none => exact tailHash_last links
    | some tip_ => exact agreed counter tip_ counted tip

theorem links_appended {service : AuditService} (links : Links store)
    (above : ∀ old ∈ store.entries, old.sequence < doc.sequence)
    (linked : doc.prevHash = lastHash AUDIT_CHAIN_ROOT store.entries)
    (hashed : doc.hash = chainHash service doc.prevHash input) (bound : doc.sequence ≤ counter.seq) :
    Links ⟨some counter,store.entries ++ [doc]⟩ := by
  refine ⟨ascending_append links.ascending above,chained_append links.chained linked,?_,?_⟩
  · intro old member
    rcases List.mem_append.mp member with earlier | new
    · exact links.hashed old earlier
    · cases List.mem_singleton.mp new
      rw [hashed]
      exact service.digest_nonempty _ _
  · intro old member
    refine ⟨counter,rfl,?_⟩
    rcases List.mem_append.mp member with earlier | new
    · exact Nat.le_of_lt (Nat.lt_of_lt_of_le (above old earlier) bound)
    · cases List.mem_singleton.mp new
      exact bound

theorem incremented_above (links : Links store) : ∀ old ∈ store.entries, old.sequence < (incremented store.counter).seq := by
  intro old member
  obtain ⟨counter,counted,bound⟩ := links.counted old member
  rw [counted]
  exact Nat.lt_succ_of_le bound

theorem links_entered {service : AuditService} (links : Links store)
    (sequence : doc.sequence = (incremented store.counter).seq)
    (linked : doc.prevHash = lastHash AUDIT_CHAIN_ROOT store.entries)
    (hashed : doc.hash = chainHash service doc.prevHash input) : Links (store.entered doc) :=
  links_appended links (sequence ▸ incremented_above links) linked hashed (Nat.le_refl _)

theorem entered_agreed (store : Store) (doc : AuditLogDoc) (filled : doc.hash ≠ "") :
    ∀ counter tip, (store.entered doc).counter = some counter → truthy counter.lastHash = some tip →
      tip = lastHash AUDIT_CHAIN_ROOT (store.entered doc).entries := by
  intro counter tip counted found
  cases counted
  rw [truthy_given filled] at found
  cases found
  simp [lastHash,Store.entered]

open Config

abbrev Pool := Config CallId AuditEntryInput World Error Unit

abbrev Reached (service : AuditService) (initial : World) (past : List (Event CallId AuditEntryInput World)) (c : Pool) :=
  Traced (log service) Surroundings initial past c

-- Along a run without writes outside transactions. A counter that has no tip
-- yet is the initial one, with the initial entries.
structure Grounded (initial s : World) : Prop where
  sound : Sound s.store
  untouched : truthy (s.store.counter.bind AuditSequenceDoc.lastHash) = none → s.store.entries = initial.store.entries
  grown : initial.store.entries <+: s.store.entries

theorem grounded_entered {service : AuditService} (now : Grounded initial s) (before : Grounded initial snapshot)
    (follows : Follows service input snapshot.store doc) (current : s.store.counter = snapshot.store.counter)
    (store : t.store = s.store.entered doc) : Grounded initial t := by
  have linked : doc.prevHash = lastHash AUDIT_CHAIN_ROOT s.store.entries := by
    rw [follows.prevHash,← predecessor_last now.sound.toLinks now.sound.agreed]
    unfold predecessorOf
    rw [← current]
    cases tip : truthy (s.store.counter.bind AuditSequenceDoc.lastHash) with
    | some _ => rfl
    | none =>
      rw [now.untouched tip,before.untouched (current ▸ tip)]
  have filled : doc.hash ≠ "" := by
    rw [follows.hashed]
    exact service.digest_nonempty _ _
  refine ⟨?_,?_,?_⟩
  · rw [store]
    exact ⟨links_entered now.sound.toLinks (current ▸ follows.sequence) linked follows.hashed,entered_agreed _ doc filled⟩
  · intro none
    rw [store] at none
    simp only [Store.entered,Option.bind_some,truthy_given filled] at none
    cases none
  · rw [store]
    exact now.grown.trans (List.prefix_append _ _)

theorem surroundings_still (moves : Relation.ReflTransGen Surroundings s t) : Still s t := by
  induction moves with
  | refl => exact ⟨rfl,rfl⟩
  | tail _ moved ih =>
    cases moved <;> exact ih

theorem grounded_still (grounded : Grounded initial s) (still : Still s t) : Grounded initial t := by
  obtain ⟨_,store⟩ := still
  exact ⟨store ▸ grounded.sound,store ▸ grounded.untouched,store ▸ grounded.grown⟩

theorem along_grounded {service : AuditService} {past : List (Event CallId AuditEntryInput World)}
    (ready : Sound initial.store) (along : Along (Deed service) past)
    (linked : Linked Surroundings initial past s) (guarded : s.direct = []) :
    Grounded initial s ∧ ∀ event ∈ past, Grounded initial event.before ∧ event.after.direct = [] := by
  induction past generalizing s with
  | nil => exact ⟨grounded_still ⟨ready,fun _ => rfl,List.prefix_refl _⟩ (surroundings_still linked),by simp⟩
  | cons event past ih =>
    obtain ⟨deed,earlier⟩ := along
    obtain ⟨moves,linked⟩ := linked
    have still := surroundings_still moves
    have after : event.after.direct = [] := still.1.symm.trans guarded
    have before : event.before.direct = [] := by
      cases deed with
      | still kept => exact kept.1.symm.trans after
      | numbered i _ direct =>
        rw [direct] at after
        simp at after
      | appended _ _ _ _ _ _ _ _ _ _ _ direct => exact direct.symm.trans after
      | committed _ _ _ _ _ _ _ _ _ direct => exact direct.symm.trans after
    obtain ⟨now,history⟩ := ih earlier linked before
    have next : Grounded initial event.after := by
      cases deed with
      | still kept => exact grounded_still now kept
      | numbered i _ direct =>
        rw [direct] at after
        simp at after
      | appended read number older doc known outside =>
        obtain ⟨old,listed,_,same⟩ := mine_member (known ▸ List.mem_cons_of_mem _ List.mem_cons_self)
        have taken := congrArg Prod.snd same
        exact absurd (taken ▸ (history old listed).2) outside.1
      | committed snapshot moves older doc known _ follows current store direct =>
        obtain ⟨old,listed,_,same⟩ := mine_member (known ▸ List.mem_append_right _ List.mem_cons_self)
        cases same
        exact grounded_entered now (history old listed).1 follows current store
    refine ⟨grounded_still next still,?_⟩
    intro old member
    rcases List.mem_cons.mp member with rfl | older
    · exact ⟨now,after⟩
    · exact history old older

-- Every interleaving of log calls from a sound chain, as long as no call has
-- taken a number outside a transaction.
theorem audit_chain_linear (service : AuditService) (initial : World) (ready : Sound initial.store)
    (past : List (Event CallId AuditEntryInput World)) (c : Pool) (path : Reached service initial past c)
    (guarded : c.state.direct = []) : ∃ ordered : List AuditLogDoc,
      ordered.Perm c.state.store.entries ∧ (ordered.Pairwise fun one two => one.sequence < two.sequence) ∧
      Chained AUDIT_CHAIN_ROOT ordered ∧
      (c.state.store.entries ≠ initial.store.entries → ∃ last counter, ordered.getLast? = some last ∧
        c.state.store.counter = some counter ∧ counter.lastHash = some last.hash) := by
  have kept := traced_kept (fun i input => acts_log service input i) (fun _ _ _ => trivial) path
  obtain ⟨grounded,_⟩ := along_grounded ready kept.along (traced_linked path) guarded
  have sound := grounded.sound
  refine ⟨_,.refl _,sound.ascending,sound.chained,?_⟩
  intro written
  cases tip : truthy (c.state.store.counter.bind AuditSequenceDoc.lastHash) with
  | none => exact absurd (grounded.untouched tip) written
  | some tip_ =>
    cases counted : c.state.store.counter with
    | none => rw [counted] at tip; cases tip
    | some counter =>
      rw [counted,Option.bind_some] at tip
      have agreed := sound.agreed counter tip_ counted tip
      cases found : c.state.store.entries.getLast? with
      | none =>
        have none := List.getLast?_eq_none_iff.mp found
        have fewer := grounded.grown
        rw [none,List.prefix_nil] at fewer
        exact absurd (none.trans fewer.symm) written
      | some last =>
        refine ⟨last,counter,rfl,rfl,?_⟩
        rw [lastHash,found,Option.map_some,Option.getD_some] at agreed
        rw [truthy_some tip,agreed]

theorem sound_empty (now : Nat) : Sound (empty now).store := by
  refine ⟨?_,?_⟩
  · constructor <;> simp [empty,Ascending,Chained]
  · simp [empty]

-- A small service to run schedules on.
def sampleAudit : AuditService where
  random := ⟨fun n => String.ofList (List.replicate n 'x'),fun n m same => by
    have lists := congrArg String.toList same
    simp only [String.toList_ofList] at lists
    simpa using congrArg List.length lists⟩
  digest _ text := String.ofList ('#' :: text.toList)
  digest_nonempty _ text same := by
    have lists := congrArg String.toList same
    simp at lists
  hashAlgorithm := .sha256
  sink := false
  driverRetries := 1

-- The same service; its digest is evaluated without decoding the text.
def marking : AuditService := {sampleAudit with
  digest := fun _ text => "#" ++ text
  digest_nonempty := fun _ text same => by
    have lists := congrArg String.toList same
    simp at lists}

theorem sampleAudit_eq : sampleAudit = marking := by
  have same : sampleAudit.digest = marking.digest := by
    funext _ text
    apply String.toList_injective
    simp [sampleAudit,marking]
  unfold marking
  cases sample : sampleAudit
  simp only [sample] at same ⊢
  subst same
  rfl

def sampleEvent (eventType : String) : AuditEntryInput := ⟨eventType,none,none,none,none,none,none,none,none⟩

-- Both calls have read the empty chain when the second one commits; the first
-- one is run again and follows it.
theorem audit_chain_linear_contended : ∃ past c, Reached sampleAudit (empty 0) past c ∧ c.state.direct = [] ∧
    c.state.store.entries.length = 2 ∧ ∃ ordered : List AuditLogDoc, ordered.Perm c.state.store.entries ∧
      (ordered.Pairwise fun one two => one.sequence < two.sequence) ∧ Chained AUDIT_CHAIN_ROOT ordered := by
  have played : (play (log sampleAudit) (fun _ _ => true) (start (empty 0))
      (List.flatten [[.start 0 (sampleEvent "one"),.start 1 (sampleEvent "two")],List.replicate 6 (.act 0),
        List.replicate 7 (.act 1),List.replicate 6 (.act 0)])).any (fun c : Pool =>
          c.state.direct.isEmpty && decide (c.state.store.entries.length = 2)) = true := by
    rw [sampleAudit_eq]
    decide +kernel
  obtain ⟨c,path,checked⟩ := play_exists (fun _ _ _ => trivial) played
  simp only [Bool.and_eq_true,List.isEmpty_iff,decide_eq_true_eq] at checked
  obtain ⟨past,traced⟩ := runs_traced path
  obtain ⟨ordered,same,ascending,chained,_⟩ :=
    audit_chain_linear sampleAudit (empty 0) (sound_empty 0) past c traced checked.1
  exact ⟨past,c,traced,checked.1,checked.2,ordered,same,ascending,chained⟩

end Pezhwan.Audit
