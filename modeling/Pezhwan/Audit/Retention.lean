import Pezhwan.Audit.Agreement

-- What is left of the chain when entries expire.
namespace Pezhwan.Audit
open Atomic

-- One expiry date comes no later than another; without a date an entry stays.
def Within : Option Nat → Option Nat → Prop
  | _,none => True
  | none,some _ => False
  | some one,some two => one ≤ two

-- An entry is logged only when no stored one outlasts it.
def Turn.Timely (w : World) : Turn → Prop
  | .log _ _ => w.base.fault = none → ∀ old ∈ w.store.entries, Within old.expireAt (expiry w.base.now w.retentionMs)
  | _ => True

def Orderly (service : AuditService) : Ledger → List Turn → Prop
  | _,[] => True
  | l,turn :: rest => turn.Timely l.world ∧ Orderly service (turn.run service l) rest

def Turn.keepsMode : Turn → Bool
  | .topology _ => false
  | _ => true

-- What a turn does, seen from the log.
inductive Effect (service : AuditService) : Turn → Ledger → Ledger → Prop where
  | wrote {l : Ledger} {t : World} {written : List AuditLogDoc} (call : CallId) (input : AuditEntryInput)
      (healthy : l.world.base.fault = none) (settled : Settled l.world t) (store : t.store = Store.logged service input l.world)
      (grown : written = l.written ++ [nextEntry service input l.world (predecessorIn l.world)]) :
      Effect service (.log call input) l ⟨t,written⟩
  | swept (l : Ledger) : Effect service .sweep l (l.with_ (sweep l.world))
  | still {turn : Turn} {l : Ledger} {t : World} (timely : turn.Timely l.world) (store : t.store = l.world.store)
      (mode : turn.keepsMode = true → t.replicaSet = l.world.replicaSet) : Effect service turn l ⟨t,l.written⟩

section
variable {service : AuditService} {l : Ledger}

theorem expired_within (within : Within one.expireAt two.expireAt) (gone : expired now two = true) : expired now one = true := by
  unfold expired at gone ⊢
  cases ends : two.expireAt with
  | none => rw [ends] at gone; cases gone
  | some later =>
    rw [ends] at gone within
    cases first : one.expireAt with
    | none => rw [first] at within; exact within.elim
    | some earlier =>
      rw [first] at within
      have order : earlier ≤ later := within
      simp only [Option.any_some,decide_eq_true_eq] at gone ⊢
      omega

theorem filter_suffix {docs : List AuditLogDoc} (lasting : docs.Pairwise fun one two => Within one.expireAt two.expireAt) :
    (docs.filter fun doc => !expired n doc) <:+ docs := by
  induction docs with
  | nil => exact List.nil_suffix
  | cons doc rest ih =>
    obtain ⟨first,later⟩ := List.pairwise_cons.mp lasting
    by_cases gone : expired n doc = true
    · rw [List.filter_cons_of_neg (by simp [gone])]
      exact (ih later).trans (List.suffix_cons doc rest)
    · have all : ∀ other ∈ doc :: rest, (!expired n other) = true := by
        intro other member
        rcases List.mem_cons.mp member with rfl | behind
        · simpa using gone
        · by_contra ended
          exact gone (expired_within (first other behind) (by simpa using ended))
      exact (List.filter_eq_self.mpr all).symm ▸ List.suffix_rfl

structure Numbered (w : World) : Prop where
  ascending : Ascending w.store.entries
  counted : Counted w.store

theorem turn_effect (numbered : Numbered l.world) (turn : Turn) : Effect service turn l (turn.run service l) := by
  cases turn with
  | log call input =>
    cases fault : l.world.base.fault with
    | none =>
      obtain ⟨settled,store⟩ := @log_writes service input l.world call fault numbered.counted
      refine .wrote call input fault settled store ?_
      rw [store]
      simp [Store.logged,Ledger.entries]
    | some e =>
      have down : l.world.base.fault ≠ none := by simp [fault]
      have spared := @log_down service input l.world call down
      have same : (Turn.log call input).run service l = ⟨((Audit.log service input).run call l.world).2,l.written⟩ := by
        unfold Turn.run
        simp [spared.2,Ledger.entries]
      rw [same]
      exact .still (fun healthy => absurd healthy down) spared.2 fun _ => spared.1.replicaSet
  | setRetentionDays days =>
    obtain ⟨retentionMs,ran⟩ := run_setRetentionDays service days l
    rw [ran]
    exact .still trivial rfl fun _ => rfl
  | tick ms => exact .still trivial rfl fun _ => rfl
  | sweep => exact .swept l
  | fault error => exact .still trivial rfl fun _ => rfl
  | topology replicaSet => exact .still trivial rfl (by simp [Turn.keepsMode])

theorem numbered_effect (numbered : Numbered l.world) (effect : Effect service turn l after) : Numbered after.world := by
  cases effect with
  | wrote call input healthy settled store grown =>
    refine ⟨?_,?_⟩
    · rw [store]
      exact ascending_logged numbered.ascending numbered.counted
    · rw [store]
      exact counted_logged numbered.counted
  | swept =>
    refine ⟨numbered.ascending.sublist List.filter_sublist,?_⟩
    intro doc member
    exact numbered.counted doc (List.mem_of_mem_filter member)
  | still timely store mode => exact ⟨store ▸ numbered.ascending,store ▸ numbered.counted⟩

structure Trimmed (l : Ledger) : Prop where
  suffix : l.entries <:+ l.written
  lasting : l.entries.Pairwise fun one two => Within one.expireAt two.expireAt

theorem trimmed_effect (trimmed : Trimmed l) (effect : Effect service turn l after) (timely : turn.Timely l.world) :
    Trimmed after := by
  cases effect with
  | wrote call input healthy settled store grown =>
    constructor
    · unfold Ledger.entries
      rw [store,grown]
      obtain ⟨gone,whole⟩ := trimmed.suffix
      exact ⟨gone,by rw [← whole]; simp [Store.logged,Ledger.entries]⟩
    · unfold Ledger.entries
      rw [store]
      refine List.pairwise_append.mpr ⟨trimmed.lasting,List.pairwise_singleton _ _,?_⟩
      intro old member new added
      cases List.mem_singleton.mp added
      exact timely healthy old member
  | swept => exact ⟨(filter_suffix trimmed.lasting).trans trimmed.suffix,trimmed.lasting.sublist List.filter_sublist⟩
  | still _ store mode =>
    constructor
    · unfold Ledger.entries
      rw [store]
      exact trimmed.suffix
    · unfold Ledger.entries
      rw [store]
      exact trimmed.lasting

theorem trimmed_turns (numbered : Numbered l.world) (trimmed : Trimmed l) (list : List Turn) (orderly : Orderly service l list) :
    Trimmed (turns service l list) := by
  induction list generalizing l with
  | nil => exact trimmed
  | cons turn rest ih =>
    have effect := @turn_effect service l numbered turn
    exact ih (numbered_effect numbered effect) (trimmed_effect trimmed effect orderly.1) orderly.2

theorem orderly_append : Orderly service l (one ++ two) ↔ Orderly service l one ∧ Orderly service (turns service l one) two := by
  induction one generalizing l with
  | nil => simp [Orderly]
  | cons turn rest ih => simp [Orderly,ih,and_assoc]

theorem outlasted (numbered : Numbered l.world) (call : CallId) (input : AuditEntryInput) (healthy : l.world.base.fault = none)
    (trims : ∀ ms, (turns service l [.log call input,.tick ms,.sweep]).entries <:+
      (turns service l [.log call input,.tick ms,.sweep]).written) :
    (Turn.log call input).Timely l.world := by
  intro _ old member
  cases ends : expiry l.world.base.now l.world.retentionMs with
  | none => cases old.expireAt <;> trivial
  | some last =>
    by_contra outlasts
    have later : l.world.base.now ≤ last := by
      unfold expiry at ends
      obtain ⟨ms,_,same⟩ := Option.map_eq_some_iff.mp ends
      omega
    have suffix := trims (last - l.world.base.now)
    obtain ⟨settled,store⟩ := @log_writes service input l.world call healthy numbered.counted
    have time : ((Audit.log service input).run call l.world).2.base.now + (last - l.world.base.now) = last := by
      rw [settled.now]
      omega
    have left : (turns service l [.log call input,.tick (last - l.world.base.now),.sweep]).entries =
        (Store.logged service input l.world).entries.filter fun doc => !expired last doc := by
      simp only [turns_cons,turns_nil,Turn.run,Ledger.entries,Ledger.with_,sweep,time,store]
    have all : (turns service l [.log call input,.tick (last - l.world.base.now),.sweep]).written =
        l.written ++ [nextEntry service input l.world (predecessorIn l.world)] := by
      simp only [turns_cons,turns_nil,Turn.run,Ledger.entries,Ledger.with_,store]
      simp [Store.logged]
    rw [left,all] at suffix
    have stays : old ∈ (Store.logged service input l.world).entries.filter fun doc => !expired last doc := by
      refine List.mem_filter.mpr ⟨List.mem_append_left _ member,?_⟩
      unfold expired
      cases there : old.expireAt with
      | none => rfl
      | some end_ =>
        rw [there] at outlasts
        have after : ¬ end_ ≤ last := outlasts
        simpa using after
    obtain ⟨front,whole⟩ := suffix
    obtain ⟨init,final,shape⟩ := (List.eq_nil_or_concat _).resolve_left (List.ne_nil_of_mem stays)
    rw [shape,List.concat_eq_append,← List.append_assoc] at whole
    have tip := (List.append_inj' whole rfl).2
    have listed : final ∈ (Store.logged service input l.world).entries.filter fun doc => !expired last doc := by
      rw [shape]
      simp
    rw [List.singleton_inj.mp tip] at listed
    have kept := (List.mem_filter.mp listed).2
    have expires : (nextEntry service input l.world (predecessorIn l.world)).expireAt = some last := ends
    simp [expired,expires] at kept

theorem orderly_trims (numbered : Numbered l.world) (trimmed : Trimmed l) (list : List Turn) :
    (∀ before, before <+: list → ∀ ms, (turns service l (before ++ [.tick ms,.sweep])).entries <:+
      (turns service l (before ++ [.tick ms,.sweep])).written) ↔ Orderly service l list := by
  constructor
  · intro trims
    induction list generalizing l with
    | nil => trivial
    | cons turn rest ih =>
      have timely : turn.Timely l.world := by
        cases turn with
        | log call input =>
          intro healthy
          have alone : ∀ ms, (turns service l [.log call input,.tick ms,.sweep]).entries <:+
              (turns service l [.log call input,.tick ms,.sweep]).written :=
            trims [.log call input] ⟨rest,rfl⟩
          exact outlasted numbered call input healthy alone healthy
        | _ => trivial
      have effect := @turn_effect service l numbered turn
      refine ⟨timely,ih (numbered_effect numbered effect) (trimmed_effect trimmed effect timely) ?_⟩
      rintro before ⟨after,rfl⟩ ms
      exact trims (turn :: before) ⟨after,rfl⟩ ms
  · rintro orderly before ⟨after,rfl⟩ ms
    have ending : Orderly service (turns service l before) [.tick ms,.sweep] := ⟨trivial,trivial,trivial⟩
    exact (trimmed_turns numbered trimmed _ (orderly_append.mpr ⟨(orderly_append.mp orderly).1,ending⟩)).suffix

-- What the loop finds in one mode, hashed with SHA-256.
structure Intact (service : AuditService) (w : World) : Prop where
  ready : Ready w
  verified : Verified (verifierHash service.digest) none w.store.entries

theorem nextEntry_hashed (sha256 : service.hashAlgorithm = .sha256) (input : AuditEntryInput) (w : World) (prevHash : String) :
    (nextEntry service input w prevHash).hash =
      verifierHash service.digest (nextEntry service input w prevHash).prevHash (nextEntry service input w prevHash) := by
  unfold verifierHash
  rw [nextEntry_canonical]
  unfold nextEntry buildDoc chainHash
  rw [sha256]

theorem intact_effect (sha256 : service.hashAlgorithm = .sha256) (intact : Intact service l.world) (trimmed : Trimmed l)
    (effect : Effect service turn l after) (mode : turn.keepsMode = true) : Intact service after.world := by
  obtain ⟨ready,verified⟩ := intact
  cases effect with
  | wrote call input healthy settled store grown =>
    refine ⟨ready_logged ready settled store,?_⟩
    rw [store]
    apply verified_append verified (nextEntry_hashed sha256 input _ _)
    intro last found
    rw [Option.or_none] at found
    exact ⟨ready.counted last (List.mem_of_getLast? found),ready_predecessor ready found⟩
  | swept =>
    obtain ⟨gone,whole⟩ := filter_suffix (n := l.world.base.now) trimmed.lasting
    constructor
    · refine ⟨ready.ascending.sublist List.filter_sublist,?_,?_,?_⟩
      · exact fun doc member => ready.counted doc (List.mem_of_mem_filter member)
      · exact fun doc member => ready.filled doc (List.mem_of_mem_filter member)
      · intro session last found
        apply ready.tip session
        have there : l.world.store.entries = gone ++ (sweep l.world).store.entries := whole.symm
        have filled : (sweep l.world).store.entries ≠ [] := List.ne_nil_of_mem (List.mem_of_getLast? found)
        rw [there,List.getLast?_append_of_ne_nil _ filled]
        exact found
    · have there : l.world.store.entries = gone ++ (sweep l.world).store.entries := whole.symm
      rw [there] at verified
      exact verified_behind verified
  | still timely store same =>
    refine ⟨⟨store ▸ ready.ascending,store ▸ ready.counted,store ▸ ready.filled,?_⟩,store ▸ verified⟩
    intro session
    rw [store]
    exact ready.tip (same mode ▸ session)

theorem intact_turns (sha256 : service.hashAlgorithm = .sha256) (intact : Intact service l.world) (trimmed : Trimmed l)
    (list : List Turn) (orderly : Orderly service l list) (mode : ∀ turn ∈ list, turn.keepsMode = true) :
    Intact service (turns service l list).world := by
  induction list generalizing l with
  | nil => exact intact
  | cons turn rest ih =>
    have effect := @turn_effect service l ⟨intact.ready.ascending,intact.ready.counted⟩ turn
    exact ih (intact_effect sha256 intact trimmed effect (mode turn List.mem_cons_self)) (trimmed_effect trimmed effect orderly.1)
      orderly.2 fun later member => mode later (List.mem_cons_of_mem _ member)

theorem trimmed_blank (now : Nat) (replicaSet : Bool) : Trimmed (blank now replicaSet) := ⟨List.suffix_rfl,.nil⟩

-- After every part of a run and whatever time then passes, what is left is the
-- end of the chain, exactly when no entry was logged before the time of a stored
-- one; in one mode, and hashed with SHA-256, the loop then still accepts it.
theorem retention_trims_front (service : AuditService) (now : Nat) (replicaSet : Bool) (list : List Turn) :
    ((∀ before, before <+: list → ∀ ms,
      (turns service (blank now replicaSet) (before ++ [.tick ms,.sweep])).entries <:+
        (turns service (blank now replicaSet) (before ++ [.tick ms,.sweep])).written) ↔
      Orderly service (blank now replicaSet) list) ∧
    (Orderly service (blank now replicaSet) list → service.hashAlgorithm = .sha256 →
      (∀ turn ∈ list, turn.keepsMode = true) → ∀ before, before <+: list → ∀ ms,
        Accepted service.digest (turns service (blank now replicaSet) (before ++ [.tick ms,.sweep])).entries) := by
  have ready := ready_blank now replicaSet
  refine ⟨orderly_trims ⟨ready.ascending,ready.counted⟩ (trimmed_blank now replicaSet) list,?_⟩
  rintro orderly sha256 mode before ⟨after,rfl⟩ ms
  have ending : Orderly service (turns service (blank now replicaSet) before) [.tick ms,.sweep] := ⟨trivial,trivial,trivial⟩
  have intact := intact_turns sha256 ⟨ready,trivial⟩ (trimmed_blank now replicaSet) (before ++ [.tick ms,.sweep])
    (orderly_append.mpr ⟨(orderly_append.mp orderly).1,ending⟩) (by
      intro turn member
      rcases List.mem_append.mp member with earlier | last
      · exact mode turn (List.mem_append_left _ earlier)
      · simp only [List.mem_cons,List.not_mem_nil,or_false] at last
        rcases last with rfl | rfl <;> rfl)
  exact (accepted_iff intact.ready.ascending).mpr intact.verified

end

-- An entry kept for thirty days, then one for a single day, and two days later a
-- third.
def shortened : List Turn :=
  [.setRetentionDays 30,.log 0 (sampleEvent "one"),.setRetentionDays 1,.log 1 (sampleEvent "two"),
    .tick (2 * 24 * 60 * 60 * 1000),.sweep,.log 2 (sampleEvent "three")]

theorem shorter_retention_tears_chain : ∃ service : AuditService, service.hashAlgorithm = .sha256 ∧
    ¬ (turns service (blank 0 true) shortened).entries <:+ (turns service (blank 0 true) shortened).written ∧
    ¬ Accepted service.digest (turns service (blank 0 true) shortened).entries := by
  refine ⟨marking,rfl,?_,by decide +kernel⟩
  intro suffix
  have numbers := suffix.map AuditLogDoc.sequence
  revert numbers
  decide +kernel

-- Thirty days throughout.
def steady : List Turn :=
  [.setRetentionDays 30,.log 0 (sampleEvent "one"),.tick 5,.log 1 (sampleEvent "two")]

theorem retention_trims_front_once :
    ((∀ before, before <+: steady → ∀ ms,
      (turns sampleAudit (blank 0 true) (before ++ [.tick ms,.sweep])).entries <:+
        (turns sampleAudit (blank 0 true) (before ++ [.tick ms,.sweep])).written) ↔
      Orderly sampleAudit (blank 0 true) steady) ∧
    (Orderly sampleAudit (blank 0 true) steady → sampleAudit.hashAlgorithm = .sha256 →
      (∀ turn ∈ steady, turn.keepsMode = true) → ∀ before, before <+: steady → ∀ ms,
        Accepted sampleAudit.digest (turns sampleAudit (blank 0 true) (before ++ [.tick ms,.sweep])).entries) :=
  retention_trims_front sampleAudit 0 true steady

end Pezhwan.Audit
