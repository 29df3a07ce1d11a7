import Pezhwan.Migration.Rollback
import Mathlib.Data.List.Nodup

-- What holds while the pass runs and no rollback has begun.
namespace Pezhwan.Migration
open Numeric Atomic Accounts
variable {plan : Plan} {s t : Accounts} {id other : ℕ} {value : Option Stored} {stored upgraded : Stored} {row : Row}
  {rows : List Row} {draws : Draws}

-- What the pass has read and not yet updated.
def Accounts.pending (s : Accounts) : List (ℕ × Stored) := (s.holding.map fun held => (held.1,held.2.1)).toList ++ s.fetched

structure Tracked (s : Accounts) : Prop where
  past : ∀ id secret, s.users id = some secret → secret ∈ s.past id
  read : ∀ id stored, (id,stored) ∈ s.pending → stored ∈ s.past id
  apart : ∀ id stored, (id,stored) ∈ s.pending → s.changed id = true → s.users id ≠ some stored

theorem tracked_put (tracked : Tracked s) (id : ℕ) (value : Option Stored) :
    ∀ other secret, (s.put id value).users other = some secret → secret ∈ (s.put id value).past other := by
  intro other secret holds
  by_cases same : other = id
  · subst same
    simp only [put,Function.update_self] at holds ⊢
    rw [holds]
    simp
  · simp only [put,Function.update_of_ne same] at holds ⊢
    exact tracked.past other secret holds

theorem put_past (secret : Stored) (known : secret ∈ s.past other) : secret ∈ (s.put id value).past other := by
  by_cases same : other = id
  · subst same
    simp [put,known]
  · simpa [put,Function.update_of_ne same] using known

theorem tracked_set (tracked : Tracked s) (taken : s.set id value = some t) : Tracked t := by
  unfold Accounts.set at taken
  split at taken
  · rename_i fresh
    cases taken
    refine ⟨tracked_put tracked id value,?_,?_⟩
    · intro other stored waits
      exact put_past stored (tracked.read other stored waits)
    · intro other stored waits changed
      by_cases same : other = id
      · subst same
        simp only [put,Function.update_self]
        intro holds
        exact fresh stored holds (tracked.read other stored waits)
      · simp only [put,Function.update_of_ne same] at changed ⊢
        exact tracked.apart other stored waits changed
  · cases taken

theorem fetch_some (taken : s.fetch id = some t) : ∃ stored, id ∉ s.visited ∧ s.users id = some stored ∧
    t = { s with
      visited := id :: s.visited
      fetched := s.fetched ++ [(id,stored)]
      changed := Function.update s.changed id false } := by
  unfold fetch at taken
  split at taken
  · cases taken
  · rename_i unseen
    obtain ⟨stored,holds,rfl⟩ := Option.map_eq_some_iff.mp taken
    exact ⟨stored,unseen,holds,rfl⟩

theorem pending_snoc (s : Accounts) (visited : List ℕ) (changed : ℕ → Bool) (pair : ℕ × Stored) :
    pending { s with visited,fetched := s.fetched ++ [pair],changed } = s.pending ++ [pair] := by
  simp [pending]

theorem tracked_fetch (tracked : Tracked s) (taken : s.fetch id = some t) : Tracked t := by
  obtain ⟨stored,unseen,holds,rfl⟩ := fetch_some taken
  refine ⟨tracked.past,?_,?_⟩
  · intro other secret waits
    rw [pending_snoc] at waits
    rcases List.mem_append.mp waits with before | now
    · exact tracked.read other secret before
    · cases List.mem_singleton.mp now
      exact tracked.past id stored holds
  · intro other secret waits changed
    rw [pending_snoc] at waits
    by_cases same : other = id
    · subst same
      simp at changed
    · simp only [Function.update_of_ne same] at changed
      rcases List.mem_append.mp waits with before | now
      · exact tracked.apart other secret before changed
      · cases List.mem_singleton.mp now
        exact absurd rfl same

theorem Tracked.fewer (tracked : Tracked s) (users : t.users = s.users) (past : t.past = s.past)
    (changed : t.changed = s.changed) (fewer : ∀ pair ∈ t.pending, pair ∈ s.pending) : Tracked t := by
  refine ⟨?_,?_,?_⟩
  · rw [users,past]
    exact tracked.past
  · intro id stored waits
    rw [past]
    exact tracked.read id stored (fewer _ waits)
  · intro id stored waits
    rw [users,changed]
    exact tracked.apart id stored (fewer _ waits)

theorem next_some (taken : s.next plan draws = some t) : ∃ id stored rest, s.holding = none ∧
    s.fetched = (id,stored) :: rest ∧ (t = { s with fetched := rest } ∨ ∃ upgraded,
      t = { s.backup id stored plan.rollback.tool with
        fetched := rest
        holding := some (id,stored,upgraded) }) := by
  unfold Accounts.next at taken
  split at taken
  · rename_i id stored rest free queue
    refine ⟨id,stored,rest,free,queue,?_⟩
    split at taken
    · cases taken
      exact .inl rfl
    · rename_i upgraded _
      cases taken
      exact .inr ⟨upgraded,rfl⟩
  · cases taken

theorem backup_users (s : Accounts) (id : ℕ) (secret : Stored) (tool : Tool) : (s.backup id secret tool).users = s.users := by
  cases tool <;> rfl
theorem backup_past (s : Accounts) (id : ℕ) (secret : Stored) (tool : Tool) : (s.backup id secret tool).past = s.past := by
  cases tool <;> rfl
theorem backup_changed (s : Accounts) (id : ℕ) (secret : Stored) (tool : Tool) :
    (s.backup id secret tool).changed = s.changed := by cases tool <;> rfl

theorem tracked_next (tracked : Tracked s) (taken : s.next plan draws = some t) : Tracked t := by
  obtain ⟨id,stored,rest,free,queue,rfl | ⟨upgraded,rfl⟩⟩ := next_some taken
  · refine tracked.fewer rfl rfl rfl ?_
    intro pair waits
    simp only [pending,free,queue] at waits ⊢
    exact List.mem_cons_of_mem _ waits
  · refine tracked.fewer (backup_users ..) (backup_past ..) (backup_changed ..) ?_
    intro pair waits
    simpa [pending,free,queue] using waits

theorem write_some (taken : s.write = some t) : ∃ id stored upgraded, s.holding = some (id,stored,upgraded) ∧
    (s.users id = some stored ∧ t = { s.put id (some upgraded) with
        holding := none
        migrated := Function.update s.migrated id (some (stored,upgraded)) } ∨
      s.users id ≠ some stored ∧ t = { s with holding := none }) := by
  unfold Accounts.write at taken
  obtain ⟨⟨id,stored,upgraded⟩,held,rfl⟩ := Option.map_eq_some_iff.mp taken
  refine ⟨id,stored,upgraded,held,?_⟩
  by_cases holds : s.users id = some stored
  · exact .inl ⟨holds,by simp [holds]⟩
  · exact .inr ⟨holds,by simp [holds]⟩

theorem held_pending (held : s.holding = some (id,stored,upgraded)) : s.pending = (id,stored) :: s.fetched := by
  simp [pending,held]

theorem tracked_write (tracked : Tracked s) (taken : s.write = some t) : Tracked t := by
  obtain ⟨id,stored,upgraded,held,⟨holds,rfl⟩ | ⟨_,rfl⟩⟩ := write_some taken
  · have kept : s.changed id ≠ true := fun changed =>
      tracked.apart id stored (by rw [held_pending held]; simp) changed holds
    refine ⟨tracked_put tracked id _,?_,?_⟩
    · intro other secret waits
      refine put_past secret (tracked.read other secret ?_)
      rw [held_pending held]
      exact List.mem_cons_of_mem _ waits
    · intro other secret waits changed
      have distinct : other ≠ id := by
        intro same
        subst same
        exact kept changed
      simp only [put,Function.update_of_ne distinct]
      refine tracked.apart other secret ?_ changed
      rw [held_pending held]
      exact List.mem_cons_of_mem _ waits
  · refine tracked.fewer rfl rfl rfl ?_
    intro pair waits
    rw [held_pending held]
    exact List.mem_cons_of_mem _ waits

-- Before the rollback begins.
structure Backed (s : Accounts) : Prop where
  once : (s.pending.map (·.1)).Nodup
  visited : ∀ id stored, (id,stored) ∈ s.pending → id ∈ s.visited
  current : ∀ id stored, (id,stored) ∈ s.pending → s.changed id = false → s.users id = some stored
  ahead : ∀ id stored, (id,stored) ∈ s.fetched → ∀ row ∈ s.rows, row.userId ≠ id
  one : (s.rows.map (·.userId)).Nodup
  seen : ∀ row ∈ s.rows, row.userId ∈ s.visited
  held : ∀ id stored upgraded, s.holding = some (id,stored,upgraded) → ∃ row ∈ s.rows, row.userId = id ∧ row.secret = stored
  written : ∀ row ∈ s.rows, (∃ upgraded, s.holding = some (row.userId,row.secret,upgraded)) ∨
    (s.changed row.userId = false → ∃ upgraded ∈ s.users row.userId, s.migrated row.userId = some (row.secret,upgraded))
  backed : ∀ id pair, s.migrated id = some pair → ∃ row ∈ s.rows, row.userId = id

theorem backed_set (backed : Backed s) (taken : s.set id value = some t) : Backed t := by
  unfold Accounts.set at taken
  split at taken
  · cases taken
    refine { backed with current := ?_, written := ?_ }
    · intro other stored waits same
      by_cases changed : other = id
      · subst changed
        simp at same
      · simp only [put,Function.update_of_ne changed] at same ⊢
        exact backed.current other stored waits same
    · intro row listed
      rcases backed.written row listed with waits | done
      · exact .inl waits
      · refine .inr fun same => ?_
        by_cases changed : row.userId = id
        · simp [changed] at same
        · simp only [put,Function.update_of_ne changed] at same ⊢
          exact done same
  · cases taken

theorem backed_fetch (backed : Backed s) (taken : s.fetch id = some t) : Backed t := by
  obtain ⟨stored,unseen,holds,rfl⟩ := fetch_some taken
  have apart : ∀ row ∈ s.rows, row.userId ≠ id := by
    intro row listed same
    exact unseen (same ▸ backed.seen row listed)
  refine ⟨?_,?_,?_,?_,backed.one,?_,backed.held,?_,backed.backed⟩
  · rw [pending_snoc,List.map_append,List.nodup_append]
    refine ⟨backed.once,by simp,?_⟩
    intro one listed two also same
    obtain ⟨⟨other,secret⟩,waits,rfl⟩ := List.mem_map.mp listed
    rw [List.map_singleton,List.mem_singleton] at also
    rw [also] at same
    have equal : other = id := same
    exact unseen (equal ▸ backed.visited other secret waits)
  · intro other secret waits
    rw [pending_snoc] at waits
    rcases List.mem_append.mp waits with before | now
    · exact List.mem_cons_of_mem _ (backed.visited other secret before)
    · cases List.mem_singleton.mp now
      exact List.mem_cons_self
  · intro other secret waits same
    rw [pending_snoc] at waits
    rcases List.mem_append.mp waits with before | now
    · have distinct : other ≠ id := by
        intro same
        subst same
        exact unseen (backed.visited other secret before)
      simp only [Function.update_of_ne distinct] at same
      exact backed.current other secret before same
    · cases List.mem_singleton.mp now
      exact holds
  · intro other secret waits
    rcases List.mem_append.mp waits with before | now
    · exact backed.ahead other secret before
    · cases List.mem_singleton.mp now
      exact apart
  · intro row listed
    exact List.mem_cons_of_mem _ (backed.seen row listed)
  · intro row listed
    simp only [Function.update_of_ne (apart row listed)]
    exact backed.written row listed

theorem upsert_append (none_ : ∀ row ∈ rows, row.userId ≠ id) (rowId : ℕ) (secret : Stored) :
    upsert rowId id secret rows = rows ++ [⟨rowId,id,secret⟩] := by
  induction rows with
  | nil => rfl
  | cons row rest ih =>
    rw [upsert,if_neg (none_ row List.mem_cons_self),ih fun other listed => none_ other (List.mem_cons_of_mem _ listed)]
    rfl

theorem backup_eq (none_ : ∀ row ∈ s.rows, row.userId ≠ id) (secret : Stored) (tool : Tool) :
    s.backup id secret tool = { s with rows := s.rows ++ [⟨s.nextRow,id,secret⟩],nextRow := s.nextRow + 1 } := by
  cases tool with
  | migrateMfaSecrets => rfl
  | mfaSecretsEncryption => rw [backup,upsert_append none_]

theorem backed_next (backed : Backed s) (taken : s.next plan draws = some t) : Backed t := by
  obtain ⟨id,stored,rest,free,queue,step⟩ := next_some taken
  have waiting : s.pending = (id,stored) :: rest := by simp [pending,free,queue]
  have once := backed.once
  rw [waiting,List.map_cons,List.nodup_cons] at once
  have later : ∀ pair, pair ∈ rest → pair ∈ s.pending := by
    intro pair listed
    rw [waiting]
    exact List.mem_cons_of_mem _ listed
  obtain rfl | ⟨upgraded,rfl⟩ := step
  · have left : pending { s with fetched := rest } = rest := by simp [pending,free]
    refine { backed with once := ?_, visited := ?_, current := ?_, ahead := ?_ }
    · rw [left]
      exact once.2
    · intro other secret waits
      rw [left] at waits
      exact backed.visited other secret (later _ waits)
    · intro other secret waits
      rw [left] at waits
      exact backed.current other secret (later _ waits)
    · intro other secret waits
      exact backed.ahead other secret (by rw [queue]; exact List.mem_cons_of_mem _ waits)
  · have ahead := backed.ahead id stored (by rw [queue]; exact List.mem_cons_self)
    rw [backup_eq ahead]
    refine ⟨?_,?_,?_,?_,?_,?_,?_,?_,?_⟩
    · simpa [pending,waiting] using once
    · intro other secret waits
      exact backed.visited other secret (by rw [waiting]; exact waits)
    · intro other secret waits
      exact backed.current other secret (by rw [waiting]; exact waits)
    · intro other secret waits row listed
      rcases List.mem_append.mp listed with old | new
      · exact backed.ahead other secret (by rw [queue]; exact List.mem_cons_of_mem _ waits) row old
      · rw [List.mem_singleton.mp new]
        intro same
        exact once.1 (List.mem_map.mpr ⟨(other,secret),waits,same.symm⟩)
    · rw [List.map_append,List.nodup_append]
      refine ⟨backed.one,by simp,?_⟩
      intro one listed two also same
      obtain ⟨row,member,rfl⟩ := List.mem_map.mp listed
      rw [List.map_singleton,List.mem_singleton] at also
      exact ahead row member (same.trans also)
    · intro row listed
      rcases List.mem_append.mp listed with old | new
      · exact backed.seen row old
      · rw [List.mem_singleton.mp new]
        exact backed.visited id stored (by rw [waiting]; exact List.mem_cons_self)
    · intro other secret written held
      cases held
      exact ⟨_,List.mem_append_right _ List.mem_cons_self,rfl,rfl⟩
    · intro row listed
      rcases List.mem_append.mp listed with old | new
      · rcases backed.written row old with ⟨_,busy⟩ | done
        · rw [free] at busy
          cases busy
        · exact .inr done
      · rw [List.mem_singleton.mp new]
        exact .inl ⟨upgraded,rfl⟩
    · intro other pair done
      obtain ⟨row,listed,same⟩ := backed.backed other pair done
      exact ⟨row,List.mem_append_left _ listed,same⟩

theorem row_unique (backed : Backed s) (listed : row ∈ s.rows) (also : mine ∈ s.rows) (same : row.userId = mine.userId) :
    row = mine := List.inj_on_of_nodup_map backed.one listed also same

theorem backed_write (backed : Backed s) (taken : s.write = some t) : Backed t := by
  obtain ⟨id,stored,upgraded,held,step⟩ := write_some taken
  have waiting := held_pending held
  have once := backed.once
  rw [waiting,List.map_cons,List.nodup_cons] at once
  have later : ∀ pair, pair ∈ s.fetched → pair ∈ s.pending := by
    intro pair listed
    rw [waiting]
    exact List.mem_cons_of_mem _ listed
  have first : (id,stored) ∈ s.pending := by
    rw [waiting]
    exact List.mem_cons_self
  obtain ⟨mine,listed,named,kept⟩ := backed.held id stored upgraded held
  obtain ⟨holds,rfl⟩ | ⟨missed,rfl⟩ := step
  · refine ⟨once.2,?_,?_,backed.ahead,backed.one,backed.seen,?_,?_,?_⟩
    · intro other secret waits
      exact backed.visited other secret (later _ waits)
    · intro other secret waits same
      have distinct : other ≠ id := by
        intro same
        subst same
        exact once.1 (List.mem_map.mpr ⟨(other,secret),waits,rfl⟩)
      simp only [put,Function.update_of_ne distinct]
      exact backed.current other secret (later _ waits) same
    · intro other secret written busy
      cases busy
    · intro row member
      by_cases same : row.userId = id
      · have equal : row = mine := row_unique backed member listed (same.trans named.symm)
        subst equal
        refine .inr fun _ => ⟨upgraded,?_,?_⟩
        · simp [put,same]
        · simp [same,kept]
      · rcases backed.written row member with ⟨_,busy⟩ | done
        · rw [held] at busy
          cases busy
          exact absurd rfl same
        · refine .inr ?_
          simp only [put,Function.update_of_ne same]
          exact done
    · intro other pair done
      by_cases same : other = id
      · exact ⟨mine,listed,named.trans same.symm⟩
      · simp only [Function.update_of_ne same] at done
        exact backed.backed other pair done
  · refine ⟨once.2,?_,?_,backed.ahead,backed.one,backed.seen,?_,?_,backed.backed⟩
    · intro other secret waits
      exact backed.visited other secret (later _ waits)
    · intro other secret waits
      exact backed.current other secret (later _ waits)
    · intro other secret written busy
      cases busy
    · intro row member
      rcases backed.written row member with ⟨_,busy⟩ | done
      · rw [held] at busy
        cases busy
        exact .inr fun same => absurd (backed.current _ _ first same) missed
      · exact .inr done

end Pezhwan.Migration
