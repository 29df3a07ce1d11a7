import Pezhwan.Keys.Durable

-- The statuses of the keys in the database over a run.
namespace Pezhwan.Keys.Durable
open Atomic Collection KeyStoreService

-- What no call on the keys destroys.
def Kept (P : Int → List KeyDoc → Prop) (p : M α) : Prop := Fallible.Keeps (fun w : World => P w.now w.keys) p

section
variable {P : Int → List KeyDoc → Prop}

theorem kept_db {f : Int → List KeyDoc → Except String (α × List KeyDoc)}
    (held : ∀ now keys value after, P now keys → f now keys = .ok (value,after) → P now after) : Kept P (db f) := by
  intro w before
  unfold db
  split
  · exact before
  · split
    · rename_i ran
      exact held w.now w.keys _ _ before ran
    · exact before

theorem kept_read (f : List KeyDoc → α) : Kept P (read f) := by
  apply kept_db
  intro now keys value after before equal
  cases equal
  exact before

theorem Kept.bind {p : M α} {f : α → M β} (first : Kept P p) (rest : ∀ value, Kept P (f value)) : Kept P (p >>= f) :=
  Fallible.Keeps.bind first rest

theorem kept_map {p : M α} {f : α → β} {w : World} (kept : Kept P p) (held : P w.now w.keys) :
    P ((f <$> p) w).2.now ((f <$> p) w).2.keys := by
  rw [Fallible.map_run]
  exact kept w held

end

variable {crypto : Crypto} {service : KeyStoreService}

-- At most one key of the tenant is ACTIVE.
def Sole (tenantId : String) (keys : List KeyDoc) : Prop := (keys.filter (activeOf tenantId)).length ≤ 1

-- The unique index.
def Indexed (keys : List KeyDoc) : Prop := (keys.map fun doc => (doc.tenantId,doc.kid)).Nodup

theorem sole_generateKey (owner tenantId : String) (algorithm : JwtAlgorithm) (ttlMs : Option Int) (draw : Draw) :
    Kept (fun _ => Sole owner) (generateKey crypto service tenantId algorithm ttlMs draw) := by
  apply kept_db
  intro now keys value after sole ran
  dsimp only at ran
  split at ran
  · cases ran
  · split at ran
    · cases ran
    · cases ran
      simpa [Sole,List.filter_append,activeOf] using sole

theorem sole_activateKey (owner kid tenantId : String) : Kept (fun _ => Sole owner) (activateKey kid tenantId) := by
  apply kept_db
  intro now keys value after sole equal
  cases equal
  unfold Sole at sole ⊢
  by_cases own : tenantId = owner
  · subst own
    -- after the demotion no key is ACTIVE
    have nobody : (updateMany (activeOf tenantId) demote keys).filter (activeOf tenantId) = [] := by
      rw [List.filter_eq_nil_iff]
      intro doc listed
      obtain ⟨old,_,rfl⟩ := mem_updateMany.mp listed
      split
      · simp [activeOf,demote]
      · assumption
    have bound := length_filter_updateOne_succ (p := staged kid tenantId) (f := promote now) (activeOf tenantId)
      (updateMany (activeOf tenantId) demote keys)
    rw [nobody] at bound
    exact bound
  · have foreign : ∀ doc, staged kid tenantId doc = true → activeOf owner (promote now doc) = true → activeOf owner doc = true := by
      intro doc chosen active
      simp only [staged,Bool.and_eq_true,decide_eq_true_eq] at chosen
      simp only [activeOf,Bool.and_eq_true,decide_eq_true_eq] at active
      exact absurd (chosen.1.2.symm.trans active.1) own
    have fewer : ((updateMany (activeOf tenantId) demote keys).filter (activeOf owner)).length ≤
        (keys.filter (activeOf owner)).length := by
      apply length_filter_updateMany
      intro doc _ _ active
      simp [activeOf,demote] at active
    exact Nat.le_trans (length_filter_updateOne fun doc _ => foreign doc) (Nat.le_trans fewer sole)

theorem sole_updateOne {keys : List KeyDoc} {change : KeyDoc → KeyDoc} (sole : Sole owner keys)
    (other : ∀ doc, (change doc).status ≠ .ACTIVE) (found : KeyDoc → Bool) : Sole owner (updateOne found change keys) := by
  apply Nat.le_trans (length_filter_updateOne _) sole
  intro doc _ _ active
  simp only [activeOf,Bool.and_eq_true,decide_eq_true_eq] at active
  exact absurd active.2 (other doc)

theorem sole_retireKey (owner kid tenantId : String) : Kept (fun _ => Sole owner) (retireKey kid tenantId) := by
  apply kept_db
  intro now keys value after sole equal
  cases equal
  exact sole_updateOne sole (by simp [retire]) _

theorem sole_revokeKey (owner kid tenantId : String) : Kept (fun _ => Sole owner) (revokeKey kid tenantId) := by
  apply kept_db
  intro now keys value after sole equal
  cases equal
  exact sole_updateOne sole (by simp [revoke]) _

theorem sole_filter {keys : List KeyDoc} (sole : Sole owner keys) (keep : KeyDoc → Bool) : Sole owner (keys.filter keep) :=
  Nat.le_trans (List.filter_sublist.filter _).length_le sole

theorem sole_cleanupExpired (owner : String) : Kept (fun _ => Sole owner) cleanupExpired := by
  apply kept_db
  intro now keys value after sole equal
  cases equal
  exact sole_filter sole _

theorem kept_rotateKey {P : Int → List KeyDoc → Prop} (retires : ∀ kid, Kept P (retireKey kid tenantId))
    (generates : Kept P (generateKey crypto service tenantId algorithm none draw)) (activates : ∀ kid, Kept P (activateKey kid tenantId)) :
    Kept P (rotateKey crypto service tenantId algorithm draw) := by
  apply (kept_read _).bind
  intro active
  have rest : Kept P (generateKey crypto service tenantId algorithm none draw >>= fun newKey => activateKey newKey.kid tenantId) :=
    generates.bind fun newKey => activates newKey.kid
  cases active with
  | none => exact rest
  | some active => exact (retires active.kid).bind fun _ => rest

theorem sole_run (owner : String) (call : Call) (w : World) (sole : Sole owner w.keys) :
    Sole owner (run crypto service call w).2.keys := by
  cases call with
  | generateKey tenantId algorithm ttlMs draw => exact kept_map (sole_generateKey owner tenantId algorithm ttlMs draw) sole
  | activateKey kid tenantId => exact kept_map (sole_activateKey owner kid tenantId) sole
  | retireKey kid tenantId => exact kept_map (sole_retireKey owner kid tenantId) sole
  | revokeKey kid tenantId => exact kept_map (sole_revokeKey owner kid tenantId) sole
  | rotateKey tenantId algorithm draw =>
    exact kept_map (kept_rotateKey (fun kid => sole_retireKey owner kid tenantId) (sole_generateKey owner tenantId algorithm none draw)
      fun kid => sole_activateKey owner kid tenantId) sole
  | cleanupExpired => exact kept_map (sole_cleanupExpired owner) sole

theorem indexed_updateOne {keys : List KeyDoc} {change : KeyDoc → KeyDoc} (indexed : Indexed keys)
    (same : ∀ doc, ((change doc).tenantId,(change doc).kid) = (doc.tenantId,doc.kid)) (found : KeyDoc → Bool) :
    Indexed (updateOne found change keys) := by
  unfold Indexed
  rw [map_updateOne same]
  exact indexed

theorem indexed_generateKey (tenantId : String) (algorithm : JwtAlgorithm) (ttlMs : Option Int) (draw : Draw) :
    Kept (fun _ => Indexed) (generateKey crypto service tenantId algorithm ttlMs draw) := by
  apply kept_db
  intro now keys value after indexed ran
  dsimp only at ran
  split at ran
  · cases ran
  · split at ran
    · cases ran
    · rename_i absent
      cases ran
      unfold Indexed at indexed ⊢
      rw [List.map_append,List.nodup_append]
      refine ⟨indexed,List.nodup_singleton _,?_⟩
      intro pair listed _ new same
      subst same
      obtain ⟨doc,held,same⟩ := List.mem_map.mp listed
      rw [List.mem_singleton.mp new,Prod.mk.injEq] at same
      apply absent
      rw [List.any_eq_true]
      exact ⟨doc,held,by simp [same.1,same.2]⟩

theorem indexed_activateKey (kid tenantId : String) : Kept (fun _ => Indexed) (activateKey kid tenantId) := by
  apply kept_db
  intro now keys value after indexed equal
  cases equal
  have demoted : Indexed (updateMany (activeOf tenantId) demote keys) := by
    unfold Indexed
    rw [map_updateMany (by intro doc; rfl)]
    exact indexed
  exact indexed_updateOne demoted (by intro doc; rfl) _

theorem indexed_retireKey (kid tenantId : String) : Kept (fun _ => Indexed) (retireKey kid tenantId) := by
  apply kept_db
  intro now keys value after indexed equal
  cases equal
  exact indexed_updateOne indexed (by intro doc; rfl) _

theorem indexed_revokeKey (kid tenantId : String) : Kept (fun _ => Indexed) (revokeKey kid tenantId) := by
  apply kept_db
  intro now keys value after indexed equal
  cases equal
  exact indexed_updateOne indexed (by intro doc; rfl) _

theorem indexed_filter {keys : List KeyDoc} (indexed : Indexed keys) (keep : KeyDoc → Bool) : Indexed (keys.filter keep) :=
  indexed.sublist (List.filter_sublist.map _)

theorem indexed_cleanupExpired : Kept (fun _ => Indexed) cleanupExpired := by
  apply kept_db
  intro now keys value after indexed equal
  cases equal
  exact indexed_filter indexed _

theorem indexed_run (call : Call) (w : World) (indexed : Indexed w.keys) : Indexed (run crypto service call w).2.keys := by
  cases call with
  | generateKey tenantId algorithm ttlMs draw => exact kept_map (indexed_generateKey tenantId algorithm ttlMs draw) indexed
  | activateKey kid tenantId => exact kept_map (indexed_activateKey kid tenantId) indexed
  | retireKey kid tenantId => exact kept_map (indexed_retireKey kid tenantId) indexed
  | revokeKey kid tenantId => exact kept_map (indexed_revokeKey kid tenantId) indexed
  | rotateKey tenantId algorithm draw =>
    exact kept_map (kept_rotateKey (fun kid => indexed_retireKey kid tenantId) (indexed_generateKey tenantId algorithm none draw)
      fun kid => indexed_activateKey kid tenantId) indexed
  | cleanupExpired => exact kept_map indexed_cleanupExpired indexed

theorem demoted_same {keys : List KeyDoc} : updateMany (activeOf tenantId) demote keys = keys ↔
    ∀ doc ∈ keys, activeOf tenantId doc = false := by
  have same : updateMany (activeOf tenantId) demote keys = keys ↔
      ∀ doc ∈ keys, (if activeOf tenantId doc then demote doc else doc) = doc := by
    unfold updateMany
    conv_lhs => rhs; rw [← List.map_id keys]
    exact List.map_inj_left
  rw [same]
  constructor
  · intro same doc listed
    have kept := same doc listed
    by_contra active
    rw [if_pos (by simpa using active)] at kept
    have status := congrArg KeyDoc.status kept
    simp only [activeOf,Bool.not_eq_false,Bool.and_eq_true,decide_eq_true_eq] at active
    rw [active.2] at status
    cases status
  · intro nobody doc listed
    simp [nobody doc listed]

-- The calls that keep to the lifecycle: a staged key is activated, or nothing
-- is ACTIVE; no key that still verifies is retired.
def Permitted (w : World) : Call → Prop
  | .activateKey kid tenantId =>
    (∃ doc ∈ w.keys, staged kid tenantId doc = true) ∨ ∀ doc ∈ w.keys, activeOf tenantId doc = false
  | .retireKey kid tenantId => ∀ doc ∈ w.keys, named kid tenantId doc = true → usable doc = true → doc.expiresAt ≤ w.now
  | .rotateKey tenantId _ _ => ∀ doc ∈ w.keys, activeOf tenantId doc = true → doc.expiresAt ≤ w.now
  | _ => True

instance (w : World) : (call : Call) → Decidable (Permitted w call)
  | .activateKey kid tenantId => inferInstanceAs (Decidable ((∃ doc ∈ w.keys, staged kid tenantId doc = true) ∨
      ∀ doc ∈ w.keys, activeOf tenantId doc = false))
  | .retireKey kid tenantId => inferInstanceAs (Decidable (∀ doc ∈ w.keys, named kid tenantId doc = true →
      usable doc = true → doc.expiresAt ≤ w.now))
  | .rotateKey tenantId _ _ => inferInstanceAs (Decidable (∀ doc ∈ w.keys, activeOf tenantId doc = true → doc.expiresAt ≤ w.now))
  | .generateKey _ _ _ _ => .isTrue trivial
  | .revokeKey _ _ => .isTrue trivial
  | .cleanupExpired => .isTrue trivial

theorem activateKey_null {w : World} (told : (run crypto service (.activateKey kid tenantId) w).1 = .ok (.key none)) :
    (run crypto service (.activateKey kid tenantId) w).2.keys = w.keys ↔ Permitted w (.activateKey kid tenantId) := by
  obtain ⟨found,ran,same⟩ := Fallible.map_ok (p := activateKey kid tenantId) told
  cases same
  rw [run,Fallible.map_run]
  unfold activateKey db at ran ⊢
  split at ran
  · cases ran
  · rename_i served
    rw [if_neg served]
    simp only [Except.ok.injEq,Option.map_eq_none_iff] at ran
    dsimp only
    rw [updateOne_none _ ran,demoted_same]
    refine ⟨.inr,?_⟩
    intro either
    rcases either with ⟨doc,listed,chosen⟩ | nobody
    · have kept : doc ∈ updateMany (activeOf tenantId) demote w.keys := by
        refine mem_updateMany.mpr ⟨doc,listed,?_⟩
        have idle : activeOf tenantId doc = false := by
          simp only [staged,Bool.and_eq_true,decide_eq_true_eq] at chosen
          simp [activeOf,chosen.2]
        simp [idle]
      exact absurd chosen (List.find?_eq_none.mp ran doc kept)
    · exact nobody

-- The key is still there and verifies.
def Stands (doc : KeyDoc) (keys : List KeyDoc) : Prop :=
  ∃ found ∈ keys, found.kid = doc.kid ∧ found.tenantId = doc.tenantId ∧ found.expiresAt = doc.expiresAt ∧ usable found = true

theorem Stands.verifies {keys : List KeyDoc} (stands : Stands doc keys) :
    ∃ found ∈ verificationKeys doc.tenantId keys, found.kid = doc.kid := by
  obtain ⟨found,listed,kid,tenant,_,verifies⟩ := stands
  refine ⟨found.selected,List.mem_map_of_mem (List.mem_filter.mpr ⟨listed,?_⟩),kid⟩
  simp [tenant,verifies]

theorem stands_updateOne {keys : List KeyDoc} (stands : Stands doc keys) {chosen : KeyDoc → Bool} (change : KeyDoc → KeyDoc)
    (other : ∀ found ∈ keys, found.kid = doc.kid → found.tenantId = doc.tenantId → found.expiresAt = doc.expiresAt →
      usable found = true → chosen found = false) : Stands doc (updateOne chosen change keys) := by
  obtain ⟨found,listed,kid,tenant,expires,verifies⟩ := stands
  exact ⟨found,updateOne_spares listed (other found listed kid tenant expires verifies) change,kid,tenant,expires,verifies⟩

theorem stands_generateKey (doc : KeyDoc) (tenantId : String) (algorithm : JwtAlgorithm) (ttlMs : Option Int) (draw : Draw) :
    Kept (fun _ => Stands doc) (generateKey crypto service tenantId algorithm ttlMs draw) := by
  apply kept_db
  intro now keys value after stands ran
  dsimp only at ran
  split at ran
  · cases ran
  · split at ran
    · cases ran
    · cases ran
      obtain ⟨found,listed,facts⟩ := stands
      exact ⟨found,List.mem_append_left _ listed,facts⟩

theorem stands_activateKey (doc : KeyDoc) (kid tenantId : String) : Kept (fun _ => Stands doc) (activateKey kid tenantId) := by
  apply kept_db
  rintro now keys value after ⟨found,listed,facts⟩ ⟨⟩
  have demoted : Stands doc (updateMany (activeOf tenantId) demote keys) := by
    refine ⟨_,mem_updateMany.mpr ⟨found,listed,rfl⟩,?_⟩
    split
    · exact ⟨facts.1,facts.2.1,facts.2.2.1,rfl⟩
    · exact facts
  apply stands_updateOne demoted
  intro other _ _ _ _ verifies
  simp only [usable,Bool.or_eq_true,decide_eq_true_eq] at verifies
  rcases verifies with active | verify
  · simp [staged,active]
  · simp [staged,verify]

theorem stands_retireKey {w : World} (stands : Stands doc w.keys) (unexpired : w.now < doc.expiresAt)
    (spent : ∀ other ∈ w.keys, named kid tenantId other = true → usable other = true → other.expiresAt ≤ w.now) :
    Stands doc (retireKey kid tenantId w).2.keys := by
  unfold retireKey db
  split
  · exact stands
  · apply stands_updateOne stands
    intro found listed _ _ expires verifies
    by_contra chosen
    simp only [Bool.not_eq_false,Bool.and_eq_true] at chosen
    have late := spent found listed chosen.1 verifies
    omega

theorem oldestActive_some {keys : List KeyDoc} (found : oldestActive tenantId keys = some doc) :
    doc ∈ keys ∧ activeOf tenantId doc = true :=
  List.mem_filter.mp (List.mem_mergeSort.mp (List.mem_of_mem_head? found))

theorem stands_rotateKey {w : World} (indexed : Indexed w.keys) (stands : Stands doc w.keys) (unexpired : w.now < doc.expiresAt)
    (spent : ∀ other ∈ w.keys, activeOf tenantId other = true → other.expiresAt ≤ w.now) (algorithm : JwtAlgorithm) (draw : Draw) :
    Stands doc (rotateKey crypto service tenantId algorithm draw w).2.keys := by
  have rest : Kept (fun _ => Stands doc)
      (generateKey crypto service tenantId algorithm none draw >>= fun newKey => activateKey newKey.kid tenantId) :=
    (stands_generateKey doc tenantId algorithm none draw).bind fun newKey => stands_activateKey doc newKey.kid tenantId
  unfold rotateKey
  rw [Fallible.bind_run]
  unfold read db
  by_cases lost : w.served = some 0
  · rw [if_pos lost]
    exact stands
  · rw [if_neg lost]
    dsimp only
    cases found : oldestActive tenantId w.keys with
    | none => exact rest _ stands
    | some active =>
      obtain ⟨listed,chosen⟩ := oldestActive_some found
      dsimp only
      rw [Fallible.bind_run]
      have retired : Stands doc (retireKey active.kid tenantId {w with served := w.served.map (· - 1)}).2.keys := by
        apply stands_retireKey (w := {w with served := w.served.map (· - 1)}) stands unexpired
        intro other held name _
        have owner : active.tenantId = tenantId := by
          simp only [activeOf,Bool.and_eq_true,decide_eq_true_eq] at chosen
          exact chosen.1
        simp only [named,Bool.and_eq_true,decide_eq_true_eq] at name
        have same : other = active := by
          apply List.inj_on_of_nodup_map indexed held listed
          rw [name.1,name.2,owner]
        rw [same]
        exact spent active listed chosen
      cases ran : retireKey active.kid tenantId {w with served := w.served.map (· - 1)} with
      | mk result after =>
        rw [ran] at retired
        cases result with
        | ok => exact rest after retired
        | error e => exact retired

theorem stands_revokeKey (other : ¬ (kid = doc.kid ∧ tenantId = doc.tenantId)) : Kept (fun _ => Stands doc) (revokeKey kid tenantId) := by
  apply kept_db
  intro now keys value after stands equal
  cases equal
  apply stands_updateOne stands
  intro found _ name owner _ _
  by_contra chosen
  simp only [Bool.not_eq_false,named,Bool.and_eq_true,decide_eq_true_eq] at chosen
  exact other ⟨chosen.1.1.symm.trans name,chosen.1.2.symm.trans owner⟩

theorem stands_filter {keys : List KeyDoc} {keep : KeyDoc → Bool} (stands : Stands doc keys)
    (kept : ∀ found ∈ keys, found.expiresAt = doc.expiresAt → usable found = true → keep found = true) : Stands doc (keys.filter keep) := by
  obtain ⟨found,listed,kid,tenant,expires,verifies⟩ := stands
  exact ⟨found,List.mem_filter.mpr ⟨listed,kept found listed expires verifies⟩,kid,tenant,expires,verifies⟩

theorem stands_cleanupExpired (doc : KeyDoc) : Kept (fun _ => Stands doc) cleanupExpired := by
  apply kept_db
  intro now keys value after stands equal
  cases equal
  apply stands_filter stands
  intro found _ _ verifies
  simp [verifies]

-- The key is not revoked.
def Spares (doc : KeyDoc) : Call → Prop
  | .revokeKey kid tenantId => ¬ (kid = doc.kid ∧ tenantId = doc.tenantId)
  | _ => True

theorem stands_run {w : World} (indexed : Indexed w.keys) (stands : Stands doc w.keys) (unexpired : w.now < doc.expiresAt)
    (permitted : Permitted w call) (spares : Spares doc call) : Stands doc (run crypto service call w).2.keys := by
  cases call with
  | generateKey tenantId algorithm ttlMs draw => exact kept_map (stands_generateKey doc tenantId algorithm ttlMs draw) stands
  | activateKey kid tenantId => exact kept_map (stands_activateKey doc kid tenantId) stands
  | retireKey kid tenantId =>
    rw [run,Fallible.map_run]
    exact stands_retireKey stands unexpired permitted
  | revokeKey kid tenantId => exact kept_map (stands_revokeKey spares) stands
  | rotateKey tenantId algorithm draw =>
    rw [run,Fallible.map_run]
    exact stands_rotateKey indexed stands unexpired permitted algorithm draw
  | cleanupExpired => exact kept_map (stands_cleanupExpired doc) stands

theorem still_db (f : Int → List KeyDoc → Except String (α × List KeyDoc)) : Kept (fun now _ => now = time) (db f) :=
  kept_db fun _ _ _ _ held _ => held

theorem still_run (call : Call) (w : World) : (run crypto service call w).2.now = w.now := by
  cases call with
  | rotateKey tenantId algorithm draw =>
    exact kept_map (kept_rotateKey (fun _ => still_db _) (still_db _) fun _ => still_db _) rfl
  | _ => exact kept_map (still_db _) rfl

theorem lived_stands {s w : World} (lived : Lived crypto service (· = s) log w) (indexed : Indexed s.keys)
    (stands : Stands doc s.keys) (kept : ∀ entry ∈ log, Permitted entry.found entry.call.call ∧ Spares doc entry.call.call)
    (unexpired : w.now < doc.expiresAt) : Stands doc w.keys ∧ Indexed w.keys := by
  induction lived with
  | start first => exact first ▸ ⟨stands,indexed⟩
  | @call log t past request ih =>
    have still : (perform crypto service request t).2.now = t.now := still_run request.call _
    obtain ⟨here,unique⟩ := ih (fun entry listed => kept entry (List.mem_cons_of_mem _ listed)) (still ▸ unexpired)
    obtain ⟨permitted,spares⟩ := kept _ List.mem_cons_self
    exact ⟨stands_run unique here (still ▸ unexpired) permitted spares,indexed_run request.call _ unique⟩
  | other _ moved ih =>
    obtain ⟨later,keep,remaining,spared⟩ := moved
    obtain ⟨here,unique⟩ := ih kept (Int.lt_of_le_of_lt later unexpired)
    rw [remaining]
    refine ⟨stands_filter here ?_,indexed_filter unique keep⟩
    intro found listed expires _
    exact spared found listed (expires ▸ unexpired)

-- The unique index and the sole ACTIVE key of each tenant.
structure Tidy (w : World) : Prop where
  indexed : Indexed w.keys
  sole : ∀ owner, Sole owner w.keys

theorem lived_tidy {initial : World → Prop} (tidy : ∀ w, initial w → Tidy w) (lived : Lived crypto service initial log w) : Tidy w := by
  apply lived.always tidy
  · intro s request held
    exact ⟨indexed_run request.call _ held.indexed,fun owner => sole_run owner request.call _ (held.sole owner)⟩
  · intro s t held both
    obtain ⟨_,keep,remaining,_⟩ := both
    exact ⟨remaining ▸ indexed_filter held.indexed keep,fun owner => remaining ▸ sole_filter (held.sole owner) keep⟩

theorem key_lifecycle {initial : World → Prop} (tidy : ∀ w, initial w → Tidy w) (lived : Lived crypto service initial log w) :
    (∀ owner, (w.keys.filter (activeOf owner)).length ≤ 1) ∧
    (∀ kid tenantId served, (perform crypto service ⟨.activateKey kid tenantId,served⟩ w).1 = .ok (.key none) →
      ((perform crypto service ⟨.activateKey kid tenantId,served⟩ w).2.keys = w.keys ↔ Permitted w (.activateKey kid tenantId))) ∧
    ∀ doc ∈ w.keys, doc.status = .ACTIVE → ∀ newer later, Lived crypto service (· = w) newer later →
      (∀ entry ∈ newer, Permitted entry.found entry.call.call ∧ Spares doc entry.call.call) → later.now < doc.expiresAt →
      ∃ found ∈ verificationKeys doc.tenantId later.keys, found.kid = doc.kid := by
  have held := lived_tidy tidy lived
  refine ⟨held.sole,fun _ _ _ told => activateKey_null told,?_⟩
  intro doc listed active newer later since kept unexpired
  have stands : Stands doc w.keys := ⟨doc,listed,rfl,rfl,rfl,by simp [usable,active]⟩
  exact (lived_stands since held.indexed stands kept unexpired).1.verifies

def emptyKeys : World := ⟨0,[],none⟩

def monthly : KeyStoreService := ⟨2592000000⟩

def after (calls : List Call) : World := calls.foldl (fun w call => (perform sampleCrypto monthly ⟨call,none⟩ w).2) emptyKeys

def generating (draw : Draw) : Call := .generateKey "tenant" .RS256 none draw

-- The first key is ACTIVE.
def begunKeys : World := after [generating firstDraw,.activateKey "a" "tenant"]

theorem replaced_key_verifies : ∃ log newer, Lived sampleCrypto monthly (· = emptyKeys) log begunKeys ∧
    Lived sampleCrypto monthly (· = begunKeys) newer
      (after [generating firstDraw,.activateKey "a" "tenant",generating secondDraw,.activateKey "b" "tenant"]) ∧
    ∃ found ∈ verificationKeys "tenant" (after [generating firstDraw,.activateKey "a" "tenant",generating secondDraw,
      .activateKey "b" "tenant"]).keys, found.kid = "a" := by
  have tidy : ∀ w, w = emptyKeys → Tidy w := by
    intro _ same
    subst same
    exact ⟨List.nodup_nil,fun _ => Nat.zero_le 1⟩
  have begun : Lived sampleCrypto monthly (· = emptyKeys) [] emptyKeys := .start rfl
  have lived : Lived sampleCrypto monthly (· = emptyKeys) (_ :: [_]) begunKeys :=
    (begun.call ⟨generating firstDraw,none⟩).call ⟨.activateKey "a" "tenant",none⟩
  have started : Lived sampleCrypto monthly (· = begunKeys) [] begunKeys := .start rfl
  have since : Lived sampleCrypto monthly (· = begunKeys) (_ :: [_])
      (after [generating firstDraw,.activateKey "a" "tenant",generating secondDraw,.activateKey "b" "tenant"]) :=
    (started.call ⟨generating secondDraw,none⟩).call ⟨.activateKey "b" "tenant",none⟩
  let doc : KeyDoc := ⟨"a","tenant",.RS256,numbered 'p' 1,some (numbered 'k' 1),.ACTIVE,0,some 0,none,none,2592000000⟩
  have listed : doc ∈ begunKeys.keys := by decide +kernel
  refine ⟨_,_,lived,since,?_⟩
  apply (key_lifecycle tidy lived).2.2 doc listed rfl _ _ since ?_ (by decide +kernel)
  intro entry chosen
  rcases List.mem_pair.mp chosen with rfl | rfl
  · exact ⟨by decide +kernel,trivial⟩
  · exact ⟨trivial,trivial⟩

-- An unknown kid demotes the ACTIVE key; a rotation retires it, and it verifies
-- no more.
theorem active_key_lost : (∃ log, Lived sampleCrypto monthly (· = emptyKeys) log begunKeys) ∧
    (perform sampleCrypto monthly ⟨.activateKey "x" "tenant",none⟩ begunKeys).1 = .ok (.key none) ∧
    begunKeys.keys.map KeyDoc.status = [.ACTIVE] ∧
    (perform sampleCrypto monthly ⟨.activateKey "x" "tenant",none⟩ begunKeys).2.keys.map KeyDoc.status = [.VERIFY_ONLY] ∧
    (verificationKeys "tenant" begunKeys.keys).map KeyDoc.kid = ["a"] ∧
    ((perform sampleCrypto monthly ⟨.rotateKey "tenant" .RS256 secondDraw,none⟩ begunKeys).2.keys.map fun doc =>
      (doc.kid,doc.status,decide (doc.expiresAt = 2592000000))) = [("a",.RETIRED,true),("b",.ACTIVE,true)] ∧
    (verificationKeys "tenant" (perform sampleCrypto monthly ⟨.rotateKey "tenant" .RS256 secondDraw,none⟩ begunKeys).2.keys).map
      KeyDoc.kid = ["b"] := by
  have begun : Lived sampleCrypto monthly (· = emptyKeys) [] emptyKeys := .start rfl
  refine ⟨⟨_,(begun.call ⟨generating firstDraw,none⟩).call ⟨.activateKey "a" "tenant",none⟩⟩,?_⟩
  decide +kernel

end Pezhwan.Keys.Durable
