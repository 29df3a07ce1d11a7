import Pezhwan.Audit.Turns

-- The verifier on what the service has logged.
namespace Pezhwan.Audit
open Atomic

-- A state from which a write goes on with the chain it finds.
structure Ready (w : World) : Prop where
  ascending : Ascending w.store.entries
  counted : Counted w.store
  filled : ∀ doc ∈ w.store.entries, doc.hash ≠ ""
  tip : w.replicaSet = true → ∀ last, w.store.entries.getLast? = some last →
    w.store.counter.bind AuditSequenceDoc.lastHash = some last.hash

theorem orEmpty_again (json : Option Json) : orEmpty (some (orEmpty json)) = orEmpty json := by
  cases json with
  | none => rfl
  | some json => cases json <;> rfl

theorem nextEntry_canonical (service : AuditService) (input : AuditEntryInput) (w : World) (prevHash : String) :
    (canonicalJson (nextEntry service input w prevHash)).stringify = canonicalData input := by
  unfold canonicalJson canonicalData nextEntry buildDoc
  rw [orEmpty_again]

section
variable {service : AuditService} {input : AuditEntryInput} {w t : World}

theorem ready_predecessor (ready : Ready w) (last : w.store.entries.getLast? = some doc) : predecessorIn w = doc.hash := by
  have filled := ready.filled doc (List.mem_of_getLast? last)
  unfold predecessorIn
  split
  · rename_i session
    unfold predecessorOf
    rw [ready.tip session doc last,truthy_given filled]
    rfl
  · rw [tail_last ready.ascending,last]
    unfold tailHash
    rw [Option.map_some,truthy_given filled]
    rfl

theorem counted_logged (counted : Counted w.store) : Counted (Store.logged service input w) := by
  intro doc member
  rcases List.mem_append.mp member with old | new
  · exact Nat.lt_succ_of_lt (counted doc old)
  · cases List.mem_singleton.mp new
    exact Nat.lt_succ_self _

theorem ascending_logged (ascending : Ascending w.store.entries) (counted : Counted w.store) :
    Ascending (Store.logged service input w).entries := ascending_append ascending counted

theorem ready_logged (ready : Ready w) (settled : Settled w t) (store : t.store = Store.logged service input w) : Ready t := by
  constructor
  · rw [store]
    exact ascending_logged ready.ascending ready.counted
  · rw [store]
    exact counted_logged ready.counted
  · rw [store]
    intro doc member
    rcases List.mem_append.mp member with old | new
    · exact ready.filled doc old
    · cases List.mem_singleton.mp new
      exact service.digest_nonempty _ _
  · intro session last found
    rw [store] at found ⊢
    rw [settled.replicaSet] at session
    simp only [Store.logged,List.getLast?_append_of_ne_nil _ (List.cons_ne_nil _ _),List.getLast?_singleton,
      Option.some.injEq] at found
    subst found
    simp [Store.logged,tipIn,session,nextEntry,buildDoc]

end

-- Turns of a run in one mode without faults and without expiry.
def Turn.plain : Turn → Bool
  | .log _ _ | .setRetentionDays _ | .tick _ => true
  | .sweep | .fault _ | .topology _ => false

def Turn.event : Turn → Option AuditEntryInput
  | .log _ input => some input
  | _ => none

def blank (now : Nat) (replicaSet : Bool) : Ledger := ⟨{empty now with replicaSet},[]⟩

-- The two programs hash every text of the chain alike.
def Coincide (service : AuditService) : String → List AuditEntryInput → Prop
  | _,[] => True
  | prev,input :: rest => service.digest .sha256 (prev ++ canonicalData input) = chainHash service prev input ∧
      Coincide service (chainHash service prev input) rest

-- The entries are those of the inputs, in order.
def Recorded (service : AuditService) : String → List AuditEntryInput → List AuditLogDoc → Prop
  | _,[],[] => True
  | prev,input :: inputs,doc :: docs => doc.prevHash = prev ∧ (canonicalJson doc).stringify = canonicalData input ∧
      doc.hash = chainHash service prev input ∧ Recorded service doc.hash inputs docs
  | _,_,_ => False

section
variable {service : AuditService}

theorem recorded_append (recorded : Recorded service prev inputs docs) (linked : doc.prevHash = lastHash prev docs)
    (canonical : (canonicalJson doc).stringify = canonicalData input) (hashed : doc.hash = chainHash service doc.prevHash input) :
    Recorded service prev (inputs ++ [input]) (docs ++ [doc]) := by
  induction inputs generalizing prev docs with
  | nil =>
    cases docs with
    | nil =>
      have first : doc.prevHash = prev := linked
      exact ⟨first,canonical,first ▸ hashed,trivial⟩
    | cons _ _ => exact recorded.elim
  | cons first inputs ih =>
    cases docs with
    | nil => exact recorded.elim
    | cons head docs =>
      obtain ⟨here,text,hash,later⟩ := recorded
      refine ⟨here,text,hash,ih later ?_⟩
      rw [linked]
      cases docs with
      | nil => simp [lastHash]
      | cons next docs =>
        unfold lastHash
        rw [List.getLast?_cons_cons]
        obtain ⟨last,found⟩ := Option.isSome_iff_exists.mp (List.getLast?_isSome.mpr (List.cons_ne_nil next docs))
        simp [found]

theorem recorded_verified {p : Option AuditLogDoc} (recorded : Recorded service prev inputs docs) (ascending : Ascending docs)
    (behind : ∀ before, p = some before → before.hash = prev ∧ ∀ doc ∈ docs, before.sequence < doc.sequence) :
    Verified (verifierHash service.digest) p docs ↔ Coincide service prev inputs := by
  induction inputs generalizing prev docs p with
  | nil =>
    cases docs with
    | nil => exact Iff.rfl
    | cons _ _ => exact recorded.elim
  | cons input inputs ih =>
    cases docs with
    | nil => exact recorded.elim
    | cons doc docs =>
      obtain ⟨here,text,hash,later⟩ := recorded
      obtain ⟨above,further⟩ := List.pairwise_cons.mp ascending
      have rest := ih later further (p := some doc) fun before same => by cases same; exact ⟨rfl,above⟩
      have linked : ∀ before, p = some before → before.sequence < doc.sequence ∧ doc.prevHash = before.hash := by
        intro before same
        obtain ⟨tip,numbers⟩ := behind before same
        exact ⟨numbers doc List.mem_cons_self,here.trans tip.symm⟩
      unfold Verified Coincide
      rw [rest,hash,here]
      unfold verifierHash
      rw [text]
      constructor
      · rintro ⟨_,same,rest⟩
        exact ⟨same.symm,rest⟩
      · rintro ⟨same,rest⟩
        exact ⟨fun before there => here ▸ linked before there,same.symm,rest⟩

theorem coincide_sha256 (sha256 : service.hashAlgorithm = .sha256) (prev : String) (inputs : List AuditEntryInput) :
    Coincide service prev inputs := by
  induction inputs generalizing prev with
  | nil => trivial
  | cons input inputs ih =>
    refine ⟨?_,ih _⟩
    unfold chainHash
    rw [sha256]

theorem coincide_never (distinct : ∀ text, service.digest .sha256 text ≠ service.digest .sha3_256 text) :
    Coincide service prev inputs ↔ service.hashAlgorithm = .sha256 ∨ inputs = [] := by
  constructor
  · intro coincide
    cases inputs with
    | nil => exact .inr rfl
    | cons input inputs =>
      left
      cases algorithm : service.hashAlgorithm with
      | sha256 => rfl
      | sha3_256 =>
        have same := coincide.1
        unfold chainHash at same
        rw [algorithm] at same
        exact absurd same (distinct _)
  · rintro (sha256 | rfl)
    · exact coincide_sha256 sha256 prev inputs
    · trivial

-- What a run in one mode has written.
structure Recording (service : AuditService) (inputs : List AuditEntryInput) (w : World) : Prop where
  ready : Ready w
  recorded : Recorded service AUDIT_CHAIN_ROOT inputs w.store.entries
  healthy : w.base.fault = none
  rooted : w.store.entries = [] → predecessorIn w = AUDIT_CHAIN_ROOT

theorem recording_predecessor (recording : Recording service inputs w) :
    predecessorIn w = lastHash AUDIT_CHAIN_ROOT w.store.entries := by
  cases found : w.store.entries.getLast? with
  | none =>
    rw [recording.rooted (List.getLast?_eq_none_iff.mp found)]
    simp [lastHash,found]
  | some last =>
    rw [ready_predecessor recording.ready found]
    simp [lastHash,found]

theorem recording_logged (recording : Recording service inputs w) (settled : Settled w t)
    (store : t.store = Store.logged service input w) : Recording service (inputs ++ [input]) t := by
  refine ⟨ready_logged recording.ready settled store,?_,settled.fault.trans recording.healthy,?_⟩
  · rw [store]
    exact recorded_append recording.recorded (recording_predecessor recording) (nextEntry_canonical _ _ _ _) rfl
  · intro nothing
    rw [store] at nothing
    simp [Store.logged] at nothing

theorem recording_still (recording : Recording service inputs w) (store : t.store = w.store)
    (replicaSet : t.replicaSet = w.replicaSet) (fault : t.base.fault = w.base.fault) : Recording service inputs t := by
  obtain ⟨⟨ascending,counted,filled,tip⟩,recorded,healthy,rooted⟩ := recording
  refine ⟨⟨store ▸ ascending,store ▸ counted,store ▸ filled,?_⟩,store ▸ recorded,fault.trans healthy,?_⟩
  · intro session
    rw [store]
    exact tip (replicaSet ▸ session)
  · unfold predecessorIn at rooted ⊢
    rw [store,replicaSet]
    exact rooted

theorem recording_turn {l : Ledger} {turn : Turn} (recording : Recording service inputs l.world) (plain : turn.plain = true) :
    Recording service (inputs ++ turn.event.toList) (turn.run service l).world := by
  cases turn with
  | log call input =>
    obtain ⟨settled,store⟩ := log_writes call recording.healthy recording.ready.counted
    exact recording_logged recording settled store
  | setRetentionDays days =>
    have nothing : (Turn.setRetentionDays days).event.toList = [] := rfl
    rw [nothing,List.append_nil]
    obtain ⟨retentionMs,ran⟩ := run_setRetentionDays service days l
    rw [ran]
    exact recording_still recording rfl rfl rfl
  | tick ms =>
    have nothing : (Turn.tick ms).event.toList = [] := rfl
    rw [nothing,List.append_nil]
    exact recording_still recording rfl rfl rfl
  | sweep => cases plain
  | fault error => cases plain
  | topology replicaSet => cases plain

theorem recording_turns {l : Ledger} (recording : Recording service inputs l.world) (list : List Turn)
    (plain : ∀ turn ∈ list, turn.plain = true) :
    Recording service (inputs ++ list.filterMap Turn.event) (turns service l list).world := by
  induction list generalizing l inputs with
  | nil => simpa [turns] using recording
  | cons turn rest ih =>
    have first : Recording service (inputs ++ turn.event.toList) (turn.run service l).world :=
      recording_turn recording (plain turn List.mem_cons_self)
    have all := ih first fun later member => plain later (List.mem_cons_of_mem _ member)
    cases shown : turn.event with
    | none =>
      rw [List.filterMap_cons_none shown,turns_cons]
      simpa [shown] using all
    | some input =>
      rw [List.filterMap_cons_some shown,turns_cons]
      simpa [shown] using all

theorem ready_blank (now : Nat) (replicaSet : Bool) : Ready (blank now replicaSet).world := by
  refine ⟨.nil,?_,?_,?_⟩
  · exact fun _ member => nomatch member
  · exact fun _ member => nomatch member
  · exact fun _ _ found => nomatch found

theorem recording_blank (service : AuditService) (now : Nat) (replicaSet : Bool) :
    Recording service [] (blank now replicaSet).world :=
  ⟨ready_blank now replicaSet,trivial,rfl,fun _ => by cases replicaSet <;> rfl⟩

-- The verifier accepts what was logged, in one mode and without faults, exactly
-- when SHA-256 and the configured algorithm agree on the texts of the chain.
theorem verifier_agrees (service : AuditService) (now : Nat) (replicaSet : Bool) (list : List Turn)
    (plain : ∀ turn ∈ list, turn.plain = true) :
    (Accepted service.digest (turns service (blank now replicaSet) list).entries ↔
      Coincide service AUDIT_CHAIN_ROOT (list.filterMap Turn.event)) ∧
    ((∀ text, service.digest .sha256 text ≠ service.digest .sha3_256 text) →
      (Accepted service.digest (turns service (blank now replicaSet) list).entries ↔
        service.hashAlgorithm = .sha256 ∨ list.filterMap Turn.event = [])) := by
  have recording := recording_turns (recording_blank service now replicaSet) list plain
  rw [List.nil_append] at recording
  have exactly : Accepted service.digest (turns service (blank now replicaSet) list).entries ↔
      Coincide service AUDIT_CHAIN_ROOT (list.filterMap Turn.event) :=
    (accepted_iff recording.ready.ascending).trans (recorded_verified recording.recorded recording.ready.ascending
      fun before same => absurd same.symm (Option.some_ne_none before))
  exact ⟨exactly,fun distinct => exactly.trans (coincide_never distinct)⟩

end

-- The sample with digests that tell the algorithms apart.
def distinctAudit (algorithm : AuditHashAlgorithm) : AuditService :=
  {sampleAudit with
    digest := fun algorithm text => String.ofList ((match algorithm with | .sha256 => 'a' | .sha3_256 => 'b') :: text.toList)
    digest_nonempty := fun algorithm text same => by
      have lists := congrArg String.toList same
      simp at lists
    hashAlgorithm := algorithm}

theorem verifier_agrees_once : (Accepted (distinctAudit .sha256).digest
      (turns (distinctAudit .sha256) (blank 0 true) [.log 0 (sampleEvent "one"),.tick 5,.log 1 (sampleEvent "two")]).entries ↔
      Coincide (distinctAudit .sha256) AUDIT_CHAIN_ROOT [sampleEvent "one",sampleEvent "two"]) ∧
    ((∀ text, (distinctAudit .sha256).digest .sha256 text ≠ (distinctAudit .sha256).digest .sha3_256 text) →
      (Accepted (distinctAudit .sha256).digest
        (turns (distinctAudit .sha256) (blank 0 true) [.log 0 (sampleEvent "one"),.tick 5,.log 1 (sampleEvent "two")]).entries ↔
        (distinctAudit .sha256).hashAlgorithm = .sha256 ∨ [sampleEvent "one",sampleEvent "two"] = [])) :=
  verifier_agrees (distinctAudit .sha256) 0 true [.log 0 (sampleEvent "one"),.tick 5,.log 1 (sampleEvent "two")] (by simp [Turn.plain])

theorem sha3_log_rejected : ∃ service : AuditService, service.hashAlgorithm = .sha3_256 ∧
    (∀ text, service.digest .sha256 text ≠ service.digest .sha3_256 text) ∧
    ¬ Accepted service.digest (turns service (blank 0 true) [.log 0 (sampleEvent "one")]).entries := by
  refine ⟨distinctAudit .sha3_256,rfl,?_,by decide +kernel⟩
  intro text same
  have lists := congrArg String.toList same
  simp [distinctAudit] at lists

end Pezhwan.Audit
