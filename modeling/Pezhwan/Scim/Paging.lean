import Pezhwan.Numeric.Slice
import Pezhwan.Scim.Users

-- Listing by pages. A record is what is stored under a key: two of them are never one.
namespace Pezhwan.Scim
open Atomic Numeric

def LIST_RESPONSE : String := "urn:ietf:params:scim:api:messages:2.0:ListResponse"

structure ListOptions where
  filter : Option String := none
  startIndex : Option ℤ := none
  count : Option ℤ := none

structure ScimListResponse (α : Type) where
  schemas : List String
  totalResults : ℕ
  startIndex : ℤ
  itemsPerPage : ℕ
  Resources : List α

def filteredRecords (query : Query) : List (String × ScimUser) → Except ScimError (List (String × ScimUser))
  | [] => .ok []
  | record :: rest =>
    match matchesQuery record.2 query with
    | .error e => .error e
    | .ok found => (filteredRecords query rest).map fun records => if found then record :: records else records

-- The users of a listing, with the keys that tell them apart.
def MemoryScimUserStore.records (s : MemoryScimUserStore) (filter : Option String) : Except ScimError (List (String × ScimUser)) :=
  match given filter with
  | none => .ok s.entries
  | some filter =>
    match queryOf filter with
    | none => .ok s.entries
    | some query => filteredRecords query s.entries

abbrev ScimGroup := Dict String Json

abbrev MemoryScimGroupStore := Dict String ScimGroup

def MemoryScimGroupStore.records (s : MemoryScimGroupStore) (filter : Option String) : List (String × ScimGroup) :=
  match given filter with
  | none => s.entries
  | some filter =>
    match quotedAfter "displayName eq \"".toList (trim filter.toList) with
    | none => s.entries
    | some value => s.entries.filter fun record => isText value (record.2.get? "displayName")

-- What scimListUsers and scimListGroups do with the records they have.
def listResponse (all : List α) (options : ListOptions) : ScimListResponse α :=
  let startIndex := options.startIndex.getD 1
  let count := options.count.getD all.length
  let page := Slice.slice all (startIndex - 1) (startIndex - 1 + count)
  ⟨[LIST_RESPONSE],all.length,startIndex,page.length,page⟩

def scimListUsers (store : MemoryScimUserStore) (options : ListOptions) : Except ScimError (ScimListResponse (String × ScimUser)) :=
  (store.records options.filter).map fun all => listResponse all options

def scimListGroups (store : MemoryScimGroupStore) (options : ListOptions) : ScimListResponse (String × ScimGroup) :=
  listResponse (store.records options.filter) options

theorem filteredRecords_sublist (ran : filteredRecords query records = .ok all) : all.Sublist records := by
  induction records generalizing all with
  | nil =>
    cases ran
    exact List.Sublist.slnil
  | cons record rest ih =>
    simp only [filteredRecords] at ran
    split at ran
    · cases ran
    · rename_i found _
      cases later : filteredRecords query rest with
      | error e =>
        rw [later] at ran
        cases ran
      | ok kept =>
        rw [later] at ran
        cases ran
        cases found
        · exact (ih later).cons record
        · exact (ih later).cons_cons record

theorem entries_nodup (d : Dict String α) : d.entries.Nodup := d.distinct.of_map Prod.fst

theorem user_records_nodup {s : MemoryScimUserStore} (ran : s.records filter = .ok all) : all.Nodup := by
  unfold MemoryScimUserStore.records at ran
  split at ran
  · cases ran
    exact entries_nodup s
  · split at ran
    · cases ran
      exact entries_nodup s
    · exact (filteredRecords_sublist ran).nodup (entries_nodup s)

theorem group_records_nodup (s : MemoryScimGroupStore) (filter : Option String) : (s.records filter).Nodup := by
  unfold MemoryScimGroupStore.records
  split
  · exact entries_nodup s
  · split
    · exact entries_nodup s
    · exact (entries_nodup s).filter _

-- The page a client asks for: a start below one counts as one, a count below zero as zero.
def askedPage (all : List α) (startIndex count : ℤ) : List α := (all.drop (max startIndex 1 - 1).toNat).take (max count 0).toNat

-- A page is the one asked for, and the pages one after the other make up the listing.
structure Pages (list : ℤ → ℤ → ScimListResponse α) (all : List α) (startIndex count : ℤ) : Prop where
  asked : (list startIndex count).Resources = askedPage all startIndex count
  limited : ((list startIndex count).Resources.length : ℤ) ≤ max count 0
  whole : ∀ m : ℕ, 1 ≤ count → (all.length : ℤ) ≤ m * count →
    ((List.range m).flatMap fun k : ℕ => (list (1 + (k : ℤ) * count) count).Resources) = all

-- Where the bounds of the slice mean what a start and a count mean: a start below one or a
-- count below zero makes bounds that count from the end of the list.
def InRange (n : ℕ) (startIndex count : ℤ) : Prop :=
  1 ≤ startIndex ∧ (0 ≤ count ∨ 0 ≤ startIndex - 1 + count ∨ n ≤ -count) ∨
  startIndex < 1 ∧ (count ≤ 0 ∨ n = 0 ∨ (n ≤ 1 - startIndex ∧ n ≤ startIndex - 1 + count) ∨ (n = 1 - startIndex ∧ count < 1 - startIndex))

theorem asked_iff {all : List α} (distinct : all.Nodup) (filter : Option String) (startIndex count : ℤ) :
    (listResponse all ⟨filter,some startIndex,some count⟩).Resources = askedPage all startIndex count ↔
      InRange all.length startIndex count := by
  simp only [listResponse,Option.getD_some,askedPage,Slice.slice]
  rw [Slice.part_segment,Slice.segment_eq_iff distinct (Slice.bound_le _ _) (Nat.min_le_right _ _)]
  simp only [Slice.bound,InRange]
  generalize all.length = n
  split_ifs <;> omega

theorem pages_iff {all : List α} (distinct : all.Nodup) (filter : Option String) (startIndex count : ℤ) :
    Pages (fun startIndex count => listResponse all ⟨filter,some startIndex,some count⟩) all startIndex count ↔
      InRange all.length startIndex count := by
  refine ⟨fun pages => (asked_iff distinct filter startIndex count).mp pages.asked,fun inside => ?_⟩
  have asked := (asked_iff distinct filter startIndex count).mpr inside
  refine ⟨asked,?_,?_⟩
  · rw [asked,askedPage,List.length_take]
    omega
  · intro m positive enough
    obtain ⟨c,rfl⟩ := Int.eq_ofNat_of_zero_le (show 0 ≤ count by omega)
    have part : ∀ k ∈ List.range m, (listResponse all ⟨filter,some (1 + k * (c : ℤ)),some c⟩).Resources = (all.drop (k * c)).take c := by
      intro k _
      rw [← Int.natCast_mul,(asked_iff distinct filter _ _).mpr (.inl ⟨by omega,.inl (Int.natCast_nonneg c)⟩),askedPage]
      congr 2
      · omega
      · omega
    rw [List.flatMap_congr part,Slice.parts_flatten]
    exact List.take_of_length_le (by exact_mod_cast enough)

-- The listing of the users that a filter leaves, by pages. A filter that throws leaves none.
def UsersPaged (users : MemoryScimUserStore) (filter : Option String) (startIndex count : ℤ) : Prop :=
  ∀ all, users.records filter = .ok all → ∃ list,
    (∀ startIndex count, scimListUsers users ⟨filter,some startIndex,some count⟩ = .ok (list startIndex count)) ∧
      Pages list all startIndex count

def GroupsPaged (groups : MemoryScimGroupStore) (filter : Option String) (startIndex count : ℤ) : Prop :=
  Pages (fun startIndex count => scimListGroups groups ⟨filter,some startIndex,some count⟩) (groups.records filter) startIndex count

theorem users_paged_iff (users : MemoryScimUserStore) (filter : Option String) (startIndex count : ℤ) :
    UsersPaged users filter startIndex count ↔ ∀ all, users.records filter = .ok all → InRange all.length startIndex count := by
  refine forall₂_congr fun all ran => ?_
  have lists : ∀ startIndex count, scimListUsers users ⟨filter,some startIndex,some count⟩ = .ok (listResponse all ⟨filter,some startIndex,some count⟩) := by
    intro startIndex count
    rw [scimListUsers,ran]
    rfl
  rw [← pages_iff (user_records_nodup ran) filter startIndex count]
  constructor
  · rintro ⟨list,same,pages⟩
    have equal : list = fun startIndex count => listResponse all ⟨filter,some startIndex,some count⟩ := by
      funext startIndex count
      exact Except.ok.inj ((same startIndex count).symm.trans (lists startIndex count))
    exact equal ▸ pages
  · exact fun pages => ⟨_,lists,pages⟩

theorem paged_iff (users : MemoryScimUserStore) (groups : MemoryScimGroupStore) (filter : Option String) (startIndex count : ℤ) :
    (UsersPaged users filter startIndex count ↔ ∀ all, users.records filter = .ok all → InRange all.length startIndex count) ∧
      (GroupsPaged groups filter startIndex count ↔ InRange (groups.records filter).length startIndex count) :=
  ⟨users_paged_iff users filter startIndex count,pages_iff (group_records_nodup groups filter) filter startIndex count⟩

def oneUser : MemoryScimUserStore := Dict.empty.set "ada" (Dict.empty.set "userName" (.string "ada"))

theorem first_page_missed :
    (∃ record, oneUser.records none = .ok [record] ∧ askedPage [record] 0 1 = [record]) ∧
      (∃ response, scimListUsers oneUser {startIndex := some 0, count := some 1} = .ok response ∧ response.Resources = []) ∧
      ¬∀ users filter startIndex count, UsersPaged users filter startIndex count := by
  refine ⟨⟨_,rfl,rfl⟩,⟨_,rfl,rfl⟩,?_⟩
  intro all
  have inside := (users_paged_iff oneUser none 0 1).mp (all _ _ _ _) _ rfl
  unfold InRange at inside
  exact absurd inside (by decide)

-- What the router makes of a start and a count that are integers.
def parseStartIndex (raw : Option ℤ) : ℤ := if 0 < raw.getD 0 then raw.getD 0 else 1
def parseCount (raw : Option ℤ) : Option ℤ := (raw.filter (0 < ·)).map (min · 200)

def routed (filter : Option String) (startIndex count : ℤ) : ListOptions :=
  ⟨filter,some (parseStartIndex startIndex),parseCount count⟩

def routedPage (all : List α) (startIndex count : ℤ) : List α :=
  askedPage all startIndex (if 0 < count then min count 200 else all.length)

theorem listResponse_routed {all : List α} (distinct : all.Nodup) (filter : Option String) (startIndex count : ℤ) :
    (listResponse all (routed filter startIndex count)).Resources = routedPage all startIndex count := by
  have start : 1 ≤ parseStartIndex startIndex ∧ max (parseStartIndex startIndex) 1 = max startIndex 1 := by
    unfold parseStartIndex
    simp only [Option.getD_some]
    split_ifs <;> omega
  have counted : (parseCount count).getD all.length = if 0 < count then min count 200 else all.length := by
    unfold parseCount
    simp only [Option.filter_some,decide_eq_true_eq]
    split_ifs <;> rfl
  have same : (listResponse all (routed filter startIndex count)).Resources =
      (listResponse all ⟨filter,some (parseStartIndex startIndex),some (if 0 < count then min count 200 else all.length)⟩).Resources := by
    simp only [listResponse,routed,counted,Option.getD_some]
  rw [same,(asked_iff distinct filter _ _).mpr (.inl ⟨start.1,.inl ?_⟩)]
  · simp only [routedPage,askedPage,start.2]
  · split_ifs <;> omega

theorem routed_page (users : MemoryScimUserStore) (groups : MemoryScimGroupStore) (filter : Option String) (startIndex count : ℤ) :
    (scimListUsers users (routed filter startIndex count)).map ScimListResponse.Resources =
        (users.records filter).map (fun all => routedPage all startIndex count) ∧
      (scimListGroups groups (routed filter startIndex count)).Resources = routedPage (groups.records filter) startIndex count := by
  refine ⟨?_,listResponse_routed (group_records_nodup groups filter) filter startIndex count⟩
  have lists : scimListUsers users (routed filter startIndex count) =
      (users.records filter).map fun all => listResponse all (routed filter startIndex count) := rfl
  rw [lists]
  cases ran : users.records filter with
  | error e => rfl
  | ok all => exact congrArg Except.ok (listResponse_routed (user_records_nodup ran) filter startIndex count)

end Pezhwan.Scim
