import Pezhwan.Scim.Integrity

namespace Pezhwan.Scim
open Atomic
variable {user : ScimUser} {key id : String} {s t : MemoryScimUserStore} {query : Query}

-- The filters the store is written for.
def interpret (filter : String) : Option Query :=
  match quotedAfter "userName eq \"".toList (trim filter.toList) with
  | some value => some (.userName value)
  | none => (quotedAfter "emails.value eq \"".toList (trim filter.toList)).map .email

def Satisfies (user : ScimUser) : Query → Prop
  | .userName value => user.get? "userName" = some (.string value)
  | .email value => ∃ emails fields, user.get? "emails" = some (.array emails) ∧ .object fields ∈ emails ∧
      fields.lookup "value" = some (.string value)

theorem isText_string (same : isText value found = true) : found = some (.string value) := by
  unfold isText at same
  split at same
  · rw [eq_of_beq same]
  · cases same

theorem someEmail_found (found : someEmail value emails = .ok true) :
    ∃ fields, .object fields ∈ emails ∧ fields.lookup "value" = some (.string value) := by
  induction emails with
  | nil => cases found
  | cons email rest ih =>
    unfold someEmail at found
    split at found
    · cases found
    · rename_i held read
      split at found
      · rename_i same
        cases email with
        | object fields =>
          cases read
          exact ⟨fields,by simp,isText_string same⟩
        | null => cases read
        | bool _ | number _ | string _ | array _ =>
          cases read
          cases same
      · obtain ⟨fields,listed,named⟩ := ih found
        exact ⟨fields,List.mem_cons_of_mem _ listed,named⟩

theorem matchesQuery_satisfies (found : matchesQuery user query = .ok true) : Satisfies user query := by
  cases query with
  | userName value =>
    simp only [matchesQuery,Except.ok.injEq] at found
    exact isText_string found
  | email value =>
    simp only [matchesQuery] at found
    split at found
    · cases found
    · cases found
    · rename_i emails held
      obtain ⟨fields,listed,named⟩ := someEmail_found found
      exact ⟨emails,fields,held,listed,named⟩
    · cases found

theorem filtered_satisfies (ran : filtered query users = .ok result) : ∀ user ∈ result, user ∈ users ∧ Satisfies user query := by
  induction users generalizing result with
  | nil =>
    cases ran
    simp
  | cons first rest ih =>
    unfold filtered at ran
    split at ran
    · cases ran
    · rename_i found matched
      cases later : filtered query rest with
      | error e =>
        rw [later] at ran
        cases ran
      | ok others =>
        rw [later] at ran
        cases ran
        intro user listed
        have onward : user ∈ others → user ∈ first :: rest ∧ Satisfies user query := fun inside =>
          ⟨List.mem_cons_of_mem _ (ih later user inside).1,(ih later user inside).2⟩
        cases found with
        | false => exact onward listed
        | true =>
          rcases List.mem_cons.mp listed with rfl | inside
          · exact ⟨by simp,matchesQuery_satisfies matched⟩
          · exact onward inside

theorem quotedAfter_append (lead more rest : List Char) : quotedAfter (lead ++ more) (lead ++ rest) = quotedAfter more rest := by
  unfold quotedAfter
  have same : (lead ++ more).isPrefixOf (lead ++ rest) = more.isPrefixOf rest := by
    induction lead with
    | nil => rfl
    | cons c lead ih => simpa [List.isPrefixOf] using ih
  rw [same,List.length_append,← List.drop_drop,List.drop_left]

theorem quotedAfter_lead (found : quotedAfter lead text = some value) : ∃ rest, text = lead ++ rest := by
  unfold quotedAfter at found
  split at found
  · rename_i starts
    obtain ⟨rest,split⟩ := List.isPrefixOf_iff_prefix.mp starts
    exact ⟨rest,split.symm⟩
  · cases found

theorem queryOf_interpret (read : interpret filter = some query) : queryOf filter = some query := by
  unfold interpret at read
  split at read
  · rename_i value quoted
    unfold queryOf
    dsimp only
    rw [quoted]
    exact read
  · rename_i other
    unfold queryOf
    dsimp only
    rw [other]
    obtain ⟨value,quoted,rfl⟩ := Option.map_eq_some_iff.mp read
    obtain ⟨rest,split⟩ := quotedAfter_lead quoted
    have whole : "emails.value eq \"".toList = "emails.".toList ++ "value eq \"".toList := by decide
    have parts : "emails.".toList = "emails".toList ++ ['.'] := by decide
    have six : "emails".toList.length = 6 := by decide
    rw [split,whole,List.append_assoc,quotedAfter_append] at quoted
    rw [split,whole,parts,List.append_assoc,List.append_assoc,List.drop_left' six]
    have starts : "emails".toList.isPrefixOf ("emails".toList ++ (['.'] ++ ("value eq \"".toList ++ rest))) = true :=
      List.isPrefixOf_iff_prefix.mpr ⟨_,rfl⟩
    simp only [List.cons_append,List.nil_append] at starts ⊢
    simp only [starts,quoted]
    rfl

-- What comes back satisfies the filter; one that cannot be interpreted brings nothing.
def ListSound (s : MemoryScimUserStore) (filter : Option String) : Prop :=
  ∀ text users, given filter = some text → s.list filter = .ok users →
    (∀ query, interpret text = some query → ∀ user ∈ users, Satisfies user query) ∧ (interpret text = none → users = [])

-- The filter is one of those, or there is nothing it could let through.
def ListCareful (s : MemoryScimUserStore) (filter : Option String) : Prop :=
  ∀ text, given filter = some text → interpret text ≠ none ∨ s.values = [] ∨
    ∃ query, queryOf text = some query ∧ ∀ user ∈ s.values, ¬Satisfies user query

theorem filtered_empty (ran : filtered query users = .ok result) (none_fits : ∀ user ∈ users, ¬Satisfies user query) :
    result = [] := by
  refine List.eq_nil_iff_forall_not_mem.mpr ?_
  intro user listed
  obtain ⟨stored,fits⟩ := filtered_satisfies ran user listed
  exact none_fits user stored fits

theorem list_sound (careful : ListCareful s filter) : ListSound s filter := by
  intro text users present listed
  unfold MemoryScimUserStore.list at listed
  simp only [present] at listed
  constructor
  · intro query read
    rw [queryOf_interpret read] at listed
    intro user inside
    exact (filtered_satisfies listed user inside).2
  · intro unread
    obtain readable | empty | ⟨query,loose,none_fits⟩ := careful text present
    · exact absurd unread readable
    · rw [empty] at listed
      split at listed <;> cases listed <;> rfl
    · rw [loose] at listed
      exact filtered_empty listed none_fits

inductive Call where
  | create (token : String) (input : ScimUser)
  | get (id : String)
  | replace (id : String) (input : ScimUser)
  | patch (id : String) (operations : List ScimPatchOperation)
  | delete (id : String)
  | list (filter : Option String)

def step (s : MemoryScimUserStore) : Call → Option MemoryScimUserStore
  | .create token input => some (s.create token input).2
  | .get _ => some s
  | .replace id input => some (s.replace id input).2
  | .patch id operations => some (s.patch id operations).2
  | .delete id => some (s.delete id).2
  | .list _ => some s

-- A patch that returns has applied every operation to the record there was,
-- one that throws leaves everything as it was.
def PatchSound (s : MemoryScimUserStore) (id : String) (operations : List ScimPatchOperation) (t : MemoryScimUserStore) :
    Prop :=
  match (s.patch id operations).1 with
  | .ok user => t.get? id = some user ∧ ∃ old, s.get? id = some old ∧ Applied operations old user
  | .error _ => t = s

def Keyed (s : MemoryScimUserStore) : Prop := ∀ key user, s.get? key = some user → Named key user

structure Sound (s : MemoryScimUserStore) (call : Call) (t : MemoryScimUserStore) : Prop where
  keyed : Keyed t
  listed : ∀ filter, call = .list filter → ListSound s filter
  patched : ∀ id operations, call = .patch id operations → PatchSound s id operations t

structure Careful (s : MemoryScimUserStore) (call : Call) : Prop where
  listed : ∀ filter, call = .list filter → ListCareful s filter
  patched : ∀ id operations user, call = .patch id operations → s.get? id = some user →
    AllFit id operations user ∨ ThrowsFirst operations user

theorem keyed_set (keyed : Keyed s) (named : Named id user) : Keyed (s.set id user) := by
  intro key other found
  rw [Dict.get?_set] at found
  split at found
  · rename_i same
    cases found
    exact same ▸ named
  · exact keyed key other found

theorem named_set (input : ScimUser) (id : String) : Named id (input.set "id" (.string id)) := Dict.get?_set_self _ _ _

theorem patch_sound (keyed : Keyed s)
    (careful : ∀ user, s.get? id = some user → AllFit id operations user ∨ ThrowsFirst operations user) :
    Keyed (s.patch id operations).2 ∧ PatchSound s id operations (s.patch id operations).2 := by
  unfold PatchSound MemoryScimUserStore.patch
  cases found : s.get? id with
  | none => exact ⟨keyed,rfl⟩
  | some user =>
    dsimp only
    obtain fits | throws := careful user found
    · obtain ⟨done,applied⟩ := allFit_applied fits
      rw [done]
      exact ⟨keyed_set keyed (allFit_id (keyed id user found) fits),Dict.get?_set_self _ _ _,user,rfl,applied⟩
    · obtain ⟨⟨e,threw⟩,left⟩ := throwsFirst_left throws
      rw [threw,left,Dict.set_same found]
      exact ⟨keyed,rfl⟩

theorem step_sound (keyed : Keyed s) (taken : step s call = some t) (careful : Careful s call) : Sound s call t := by
  cases call with
  | create token input =>
    cases taken
    exact ⟨keyed_set keyed (named_set input token),nofun,nofun⟩
  | get id =>
    cases taken
    exact ⟨keyed,nofun,nofun⟩
  | replace id input =>
    cases taken
    refine ⟨?_,nofun,nofun⟩
    unfold MemoryScimUserStore.replace
    cases s.get? id with
    | none => exact keyed
    | some _ => exact keyed_set keyed (named_set input id)
  | delete id =>
    cases taken
    refine ⟨?_,nofun,nofun⟩
    unfold MemoryScimUserStore.delete
    cases s.get? id with
    | none => exact keyed
    | some _ =>
      intro key user found
      rw [Dict.get?_erase] at found
      split at found
      · cases found
      · exact keyed key user found
  | list filter =>
    cases taken
    refine ⟨keyed,?_,nofun⟩
    intro other same
    cases same
    exact list_sound (careful.listed filter rfl)
  | patch id operations =>
    cases taken
    obtain ⟨kept,sound⟩ := patch_sound keyed fun user found => careful.patched id operations user rfl found
    refine ⟨kept,nofun,?_⟩
    intro other more same
    cases same
    exact sound

theorem keyed_empty : Keyed .empty := by
  intro key user found
  cases found

-- Every run of the store's calls in which the patches fit and the filters are
-- known keeps the records under their ids, lists only what was asked for and
-- patches all or nothing.
theorem store_sound (calls : List Call) (careful : Machine.Each step (fun s call _ => Careful s call) .empty calls) :
    Machine.Each step (fun s call t => Sound s call t) .empty calls := by
  refine Machine.each_of keyed_empty ?_ careful
  intro s call t keyed taken careful
  have sound := step_sound keyed taken careful
  exact ⟨sound.keyed,sound⟩

def ada : ScimUser := Dict.empty.set "userName" (.string "ada")
def disabling : List Call :=
  [.create "t1" ada,.patch "t1" [⟨.replace,some "active",some (.bool false)⟩],.list (some "userName eq \"ada\"")]

theorem disabling_careful : ∀ call ∈ disabling, ∀ s, Careful s call := by
  intro call listed s
  simp only [disabling,List.mem_cons,List.not_mem_nil,or_false] at listed
  rcases listed with rfl | rfl | rfl
  · exact ⟨nofun,nofun⟩
  · refine ⟨nofun,?_⟩
    intro id operations user same _
    cases same
    exact .inl ⟨.inl (.inr (.inl ⟨rfl,rfl⟩)),fun _ named => absurd named (by decide),fun _ _ => trivial⟩
  · refine ⟨?_,nofun⟩
    intro filter same text present
    cases same
    cases present
    exact .inl (by decide +kernel)

theorem store_sound_disabling : Machine.Each step (fun s call t => Sound s call t) .empty disabling :=
  store_sound disabling (Machine.each_of_mem disabling_careful)

theorem list_unknown (present : given filter = some text) (unknown : queryOf text = none) : s.list filter = .ok s.values := by
  unfold MemoryScimUserStore.list
  simp only [present,unknown]

theorem store_unsound : ¬∀ calls : List Call, Machine.Each step (fun s call t => Sound s call t) .empty calls := by
  intro all
  have each := all ([.create "t1" ada] ++ .list (some "active eq true") :: [])
  have sound := (each.at rfl rfl).listed _ rfl "active eq true"
  have nobody := (sound _ rfl (list_unknown rfl (by decide +kernel))).2 (by decide +kernel)
  exact absurd (congrArg List.length nobody) (by decide)

end Pezhwan.Scim
