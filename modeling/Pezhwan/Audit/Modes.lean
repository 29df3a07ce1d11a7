import Pezhwan.Audit.Chain

-- The two ways of writing an entry, one call at a time.
namespace Pezhwan.Audit
open Atomic Prog Config

-- Each entry names the one with the next lower sequence.
def Contiguous (entries : List AuditLogDoc) : Prop :=
  ∀ doc ∈ entries, doc.prevHash =
    ((tail (entries.filter fun old => old.sequence < doc.sequence)).map AuditLogDoc.hash).getD AUDIT_CHAIN_ROOT

instance (entries : List AuditLogDoc) : Decidable (Contiguous entries) :=
  inferInstanceAs (Decidable (∀ doc ∈ entries, doc.prevHash =
    ((tail (entries.filter fun old => old.sequence < doc.sequence)).map AuditLogDoc.hash).getD AUDIT_CHAIN_ROOT))

theorem chained_split (chained : Chained prev (before ++ doc :: after)) : doc.prevHash = lastHash prev before := by
  induction before generalizing prev with
  | nil => exact chained.1
  | cons first rest ih =>
    rw [ih chained.2]
    unfold lastHash
    cases rest with
    | nil => rfl
    | cons second rest =>
      rw [List.getLast?_cons_cons]
      obtain ⟨last,found⟩ := Option.isSome_iff_exists.mp (List.getLast?_isSome.mpr (List.cons_ne_nil second rest))
      simp [found]

theorem ascending_below (ascending : Ascending (before ++ doc :: after)) :
    (before ++ doc :: after).filter (fun old => old.sequence < doc.sequence) = before := by
  obtain ⟨_,later,across⟩ := List.pairwise_append.mp ascending
  have lower : ∀ old ∈ before, old.sequence < doc.sequence := fun old member => across old member doc (by simp)
  have higher : ∀ old ∈ doc :: after, ¬ old.sequence < doc.sequence := by
    intro old member
    rcases List.mem_cons.mp member with rfl | further
    · exact Nat.lt_irrefl _
    · exact Nat.not_lt.mpr (Nat.le_of_lt ((List.pairwise_cons.mp later).1 old further))
  rw [List.filter_append,List.filter_eq_self.mpr (by simpa using lower),List.filter_eq_nil_iff.mpr (by simpa using higher),
    List.append_nil]

theorem links_contiguous (links : Links store) : Contiguous store.entries := by
  intro doc member
  obtain ⟨before,after,split⟩ := List.append_of_mem member
  have ascending := links.ascending
  have chained := links.chained
  rw [split] at ascending chained ⊢
  rw [ascending_below ascending,tail_last (List.pairwise_append.mp ascending).1]
  exact chained_split chained

abbrev Action := Event CallId AuditEntryInput World

-- A commit moves the counter without a number taken outside; the other way of
-- writing begins with such a number.
def InTransaction (event : Action) : Prop :=
  event.after.direct = event.before.direct ∧ event.after.store.counter ≠ event.before.store.counter

def Outside (event : Action) : Prop := event.after.direct ≠ event.before.direct

-- Newest first: a number was taken outside after some commit.
def Mixed : List Action → Prop
  | [] => False
  | event :: past => Mixed past ∨ (Outside event ∧ ∃ earlier ∈ past, InTransaction earlier)

def Unmixed : List Action → Prop
  | [] => True
  | event :: past => (InTransaction event → ¬ Mixed past) ∧ Unmixed past

-- Whoever has just taken a number outside finds the store answering next.
def Answered : List Action → Prop
  | [] => True
  | event :: past => (∀ last ∈ past.head?, last.who = event.who → Outside last → event.before.base.fault = none) ∧
      Answered past

instance (event : Action) : Decidable (InTransaction event) := inferInstanceAs (Decidable (_ ∧ _))

instance (event : Action) : Decidable (Outside event) := inferInstanceAs (Decidable (_ ≠ _))

def Mixed.decide : (past : List Action) → Decidable (Mixed past)
  | [] => .isFalse id
  | _ :: past => @instDecidableOr _ _ (decide past) inferInstance

instance (past : List Action) : Decidable (Mixed past) := Mixed.decide past

def Unmixed.decide : (past : List Action) → Decidable (Unmixed past)
  | [] => .isTrue trivial
  | _ :: past => @instDecidableAnd _ _ inferInstance (decide past)

instance (past : List Action) : Decidable (Unmixed past) := Unmixed.decide past

def Answered.decide : (past : List Action) → Decidable (Answered past)
  | [] => .isTrue trivial
  | _ :: past => @instDecidableAnd _ _ inferInstance (decide past)

instance (past : List Action) : Decidable (Answered past) := Answered.decide past

section
variable {service : AuditService} {past : List Action}

theorem serial_store (moves : List (World × World)) (linked : Linked Surroundings initial past s) (serial : Serial (i :: past.map Event.who))
    (own : mine i past = moves ++ move :: older) (quiet : ∀ earlier ∈ moves, Still earlier.1 earlier.2) :
    s.store = move.2.store := by
  induction moves generalizing past s with
  | nil =>
    obtain ⟨event,rest,rfl,who,rfl,_⟩ := serial_last serial own
    exact (surroundings_still linked.1).2
  | cons first moves ih =>
    obtain ⟨event,rest,rfl,who,rfl,own,serial⟩ := serial_last serial own
    have last : event.after.store = event.before.store := (quiet _ List.mem_cons_self).2
    rw [(surroundings_still linked.1).2,last]
    exact ih linked.2 serial own fun earlier member => quiet earlier (List.mem_cons_of_mem _ member)

structure Tip (past : List Action) (store : Store) : Prop where
  written : ∀ counter tip, store.counter = some counter → truthy counter.lastHash = some tip →
    (∃ earlier ∈ past, InTransaction earlier) ∧ (Mixed past ∨ tip = lastHash AUDIT_CHAIN_ROOT store.entries)

theorem tip_still (tip : Tip past store) (event : Action) : Tip (event :: past) store := by
  constructor
  intro counter tip_ counted found
  obtain ⟨⟨earlier,member,committed⟩,agreed⟩ := tip.written counter tip_ counted found
  refine ⟨⟨earlier,List.mem_cons_of_mem _ member,committed⟩,?_⟩
  rcases agreed with mixed | same
  · exact .inl (.inl mixed)
  · exact .inr same

theorem links_numbered (links : Links store) : Links ⟨some (incremented store.counter),store.entries⟩ := by
  refine ⟨links.ascending,links.chained,links.hashed,?_⟩
  intro old member
  exact ⟨_,rfl,Nat.le_of_lt (incremented_above links old member)⟩

theorem outside_numbered (deed : Deed service input memory event.before event.after) (outside : Outside event) :
    event.after.store = ⟨some (incremented event.before.store.counter),event.before.store.entries⟩ := by
  cases deed with
  | still kept => exact absurd kept.1 outside
  | numbered i store direct => exact store
  | appended _ _ _ _ _ _ _ _ _ _ _ direct => exact absurd direct outside
  | committed _ _ _ _ _ _ _ _ _ direct => exact absurd direct outside

-- What an action leaves behind, for the next one to build on.
def Standing (past : List Action) (store : Store) : Prop := Links store ∧ Tip past store

theorem appended_kept {event : Action} {read number : World × World} (kept : Standing past event.before.store) (along : Along (Deed service) past)
    (linked : Linked Surroundings initial past event.before) (serial : Serial (event.who :: past.map Event.who))
    (answered : Answered past) (history : ∀ earlier ∈ past, Links earlier.before.store)
    (known : mine event.who past = read :: number :: older) (outside : number.2.direct ≠ number.1.direct)
    (untouched : Still read.1 read.2)
    (sequence : ∃ counter, number.2.store.counter = some counter ∧ doc.sequence = counter.seq)
    (behind : doc.prevHash = if read.1.base.fault = none then tailHash (tail read.1.store.entries) AUDIT_CHAIN_ROOT
      else AUDIT_CHAIN_ROOT)
    (hashed : doc.hash = chainHash service doc.prevHash input)
    (store : event.after.store = ⟨event.before.store.counter,event.before.store.entries ++ [doc]⟩) :
    Standing (event :: past) event.after.store := by
  have readStore : event.before.store = read.1.store :=
    (serial_store [] linked serial known (by simp)).trans untouched.2
  have numberStore : event.before.store = number.2.store :=
    serial_store [read] linked serial known (by simpa using untouched)
  obtain ⟨last,rest,rfl,lastWho,readSame,known,serial⟩ := serial_last serial known
  obtain ⟨first,rest,rfl,firstWho,numberSame,_,_⟩ := serial_last serial known
  subst readSame numberSame
  have numbered := outside_numbered along.2.1 outside
  obtain ⟨counter,counted,named⟩ := sequence
  have healthy : last.before.base.fault = none := answered.1 first rfl (firstWho.trans lastWho.symm) outside
  rw [numbered] at numberStore counted
  cases counted
  have links := kept.1
  have above : ∀ old ∈ event.before.store.entries, old.sequence < doc.sequence := by
    rw [numberStore,named]
    exact incremented_above (history first (by simp))
  have last_ : doc.prevHash = lastHash AUDIT_CHAIN_ROOT event.before.store.entries := by
    rw [behind,if_pos healthy,← readStore,tailHash_last links]
  have counter : event.before.store.counter = some (incremented first.before.store.counter) := by rw [numberStore]
  refine ⟨?_,?_⟩
  · rw [store,counter]
    exact links_appended links above last_ hashed (Nat.le_of_eq named)
  · constructor
    intro counter_ tip counted found
    rw [store] at counted
    obtain ⟨⟨earlier,member,committed⟩,_⟩ := kept.2.written counter_ tip counted found
    have older : earlier ∈ rest := by
      rcases List.mem_cons.mp member with rfl | member
      · exact absurd (congrArg Store.counter untouched.2) committed.2
      · rcases List.mem_cons.mp member with rfl | member
        · exact absurd committed.1 outside
        · exact member
    have mixed : Mixed (first :: rest) := .inr ⟨outside,earlier,older,committed⟩
    refine ⟨⟨earlier,List.mem_cons_of_mem _ member,committed⟩,.inl (.inl (.inl mixed))⟩

theorem committed_kept {event : Action} (kept : Standing past event.before.store)
    (linked : Linked Surroundings initial past event.before) (serial : Serial (event.who :: past.map Event.who))
    (unmixed : InTransaction event → ¬ Mixed past) (known : mine event.who past = moves ++ snapshot :: older)
    (quiet : ∀ move ∈ moves ++ [snapshot], Still move.1 move.2)
    (follows : Follows service input snapshot.1.store doc)
    (store : event.after.store = event.before.store.entered doc) (direct : event.after.direct = event.before.direct) :
    Standing (event :: past) event.after.store := by
  have here : event.before.store = snapshot.1.store := by
    have moved := serial_store moves linked serial known fun move member => quiet move (List.mem_append_left _ member)
    exact moved.trans (quiet snapshot (by simp)).2
  rw [← here] at follows
  have committed : InTransaction event := by
    refine ⟨direct,?_⟩
    rw [store]
    exact entered_advances follows
  have clear := unmixed committed
  have behind : doc.prevHash = lastHash AUDIT_CHAIN_ROOT event.before.store.entries := by
    rw [follows.prevHash]
    apply predecessor_last kept.1
    intro counter tip counted found
    exact (kept.2.written counter tip counted found).2.resolve_left clear
  have filled : doc.hash ≠ "" := by
    rw [follows.hashed]
    exact service.digest_nonempty _ _
  refine ⟨?_,?_⟩
  · rw [store]
    exact links_entered kept.1 follows.sequence behind follows.hashed
  · constructor
    intro counter tip counted found
    rw [store] at counted ⊢
    exact ⟨⟨event,List.mem_cons_self,committed⟩,.inr (entered_agreed _ doc filled counter tip counted found)⟩

theorem numbered_kept {event : Action} (kept : Standing past event.before.store)
    (store : event.after.store = ⟨some (incremented event.before.store.counter),event.before.store.entries⟩)
    (direct : event.after.direct = event.before.direct ++ [i]) : Standing (event :: past) event.after.store := by
  have outside : Outside event := by
    unfold Outside
    rw [direct]
    simp
  refine ⟨?_,?_⟩
  · rw [store]
    exact links_numbered kept.1
  · constructor
    intro counter tip counted found
    rw [store] at counted
    cases before : event.before.store.counter with
    | none =>
      rw [before] at counted
      cases counted
      cases found
    | some older =>
      rw [before] at counted
      cases counted
      obtain ⟨⟨earlier,member,committed⟩,_⟩ := kept.2.written older tip before found
      exact ⟨⟨earlier,List.mem_cons_of_mem _ member,committed⟩,.inl (.inr ⟨outside,earlier,member,committed⟩)⟩

theorem along_links (along : Along (Deed service) past) (linked : Linked Surroundings initial past s)
    (serial : Serial (past.map Event.who)) (answered : Answered past) (unmixed : Unmixed past)
    (fresh : initial.store = ⟨none,[]⟩) :
    Standing past s.store ∧ ∀ event ∈ past, Links event.before.store := by
  induction past generalizing s with
  | nil =>
    rw [(surroundings_still linked).2,fresh]
    refine ⟨⟨?_,⟨by simp⟩⟩,by simp⟩
    constructor <;> simp [Ascending,Chained]
  | cons event past ih =>
    obtain ⟨deed,earlier⟩ := along
    obtain ⟨moves,linked⟩ := linked
    rw [(surroundings_still moves).2]
    obtain ⟨kept,history⟩ := ih earlier linked serial.2 answered.2 unmixed.2
    have next : Standing (event :: past) event.after.store := by
      cases deed with
      | still still =>
        rw [still.2]
        exact ⟨kept.1,tip_still kept.2 event⟩
      | numbered i store direct => exact numbered_kept kept store direct
      | appended read number older doc known outside untouched sequence behind hashed store direct =>
        exact appended_kept kept earlier linked serial answered.2 history known outside.2 untouched sequence behind hashed
          store
      | committed snapshot moves older doc known quiet follows current store direct =>
        exact committed_kept kept linked serial unmixed.1 known quiet follows store direct
    refine ⟨next,?_⟩
    intro old member
    rcases List.mem_cons.mp member with rfl | older
    · exact kept.1
    · exact history old older

-- One call at a time, in either mode: contiguous as long as no commit comes
-- after a number taken outside that follows a commit, and the store answers
-- whoever has taken such a number.
theorem audit_chain_contiguous (service : AuditService) (now : Nat) (past : List Action) (c : Pool)
    (path : Reached service (empty now) past c) (serial : Serial (past.map Event.who)) (answered : Answered past)
    (unmixed : Unmixed past) : Contiguous c.state.store.entries := by
  have kept := traced_kept (fun i input => acts_log service input i) (fun _ _ _ => trivial) path
  obtain ⟨⟨links,_⟩,_⟩ := along_links kept.along (traced_linked path) serial answered unmixed rfl
  exact links_contiguous links

end

-- One call in each of the three modes of the store: standalone, replica set,
-- standalone again, or the other way round.
def inModes (first second third : Bool) (actions : Nat × Nat × Nat) : List (Cue CallId AuditEntryInput World) :=
  (.other fun w => {w with replicaSet := first}) :: .start 0 (sampleEvent "one") ::
      (List.replicate actions.1 (.act 0) : List (Cue CallId AuditEntryInput World)) ++
    (.other fun w => {w with replicaSet := second}) :: .start 1 (sampleEvent "two") ::
      (List.replicate actions.2.1 (.act 1) : List (Cue CallId AuditEntryInput World)) ++
    (.other fun w => {w with replicaSet := third}) :: .start 2 (sampleEvent "three") ::
      (List.replicate actions.2.2 (.act 2) : List (Cue CallId AuditEntryInput World))

theorem inModes_allowed (change : World → World) (listed : .other change ∈ inModes first second third actions) (w : World) :
    Surroundings w (change w) := by
  simp only [inModes,List.cons_append,List.append_assoc,List.mem_cons,List.mem_append,List.mem_replicate,reduceCtorEq,
    Cue.other.injEq,and_false,false_or,or_false] at listed
  rcases listed with rfl | rfl | rfl
  all_goals exact .topology _

theorem audit_chain_contiguous_once : ∃ past c, Reached sampleAudit (empty 0) past c ∧ Serial (past.map Event.who) ∧
    Answered past ∧ Unmixed past ∧ c.state.store.entries.length = 3 ∧ Contiguous c.state.store.entries := by
  have performed : (perform (log sampleAudit) [] (start (empty 0)) (inModes false true false (4,7,4))).any
      (fun after => decide (Serial (after.1.map Event.who)) && decide (Answered after.1) && decide (Unmixed after.1) &&
        decide (after.2.state.store.entries.length = 3)) = true := by
    rw [sampleAudit_eq]
    decide +kernel
  obtain ⟨past,c,traced,checked⟩ := perform_exists performed inModes_allowed
  simp only [Bool.and_eq_true,decide_eq_true_eq] at checked
  obtain ⟨⟨⟨serial,answered⟩,unmixed⟩,three⟩ := checked
  exact ⟨past,c,traced,serial,answered,unmixed,three,
    audit_chain_contiguous sampleAudit 0 past c traced serial answered unmixed⟩

-- A commit, an entry outside a transaction, a commit: the last one links to the
-- tip the first one left in the counter.
theorem stale_tip_forks_chain : ∃ past c, Reached sampleAudit (empty 0) past c ∧ Serial (past.map Event.who) ∧
    Answered past ∧ ¬ Contiguous c.state.store.entries := by
  have performed : (perform (log sampleAudit) [] (start (empty 0)) (inModes true false true (7,4,6))).any
      (fun after => decide (Serial (after.1.map Event.who)) && decide (Answered after.1) &&
        decide (¬ Contiguous after.2.state.store.entries)) = true := by
    rw [sampleAudit_eq]
    decide +kernel
  obtain ⟨past,c,traced,checked⟩ := perform_exists performed inModes_allowed
  simp only [Bool.and_eq_true,decide_eq_true_eq] at checked
  exact ⟨past,c,traced,checked.1.1,checked.1.2,checked.2⟩

end Pezhwan.Audit
