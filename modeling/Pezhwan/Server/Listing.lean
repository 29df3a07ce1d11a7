import Mathlib.Data.List.Lex
import Pezhwan.Audit.Service
import Pezhwan.Auth.World
import Pezhwan.Numeric.Double
import Pezhwan.Numeric.Slice
import Pezhwan.Json

-- The listings of the admin routes, page by page.
namespace Pezhwan.Server.Listing
open Numeric

-- The query string as it was parsed: a name may be given any number of times.
abbrev Query := List (String × String)

def values (query : Query) (name : String) : List String := (query.filter fun entry => entry.1 = name).map Prod.snd

-- A name given more than once is an array, which is no string and is truthy.
def str (query : Query) (name fallback : String) : String :=
  match values query name with
  | [value] => value
  | _ => fallback

def truthy (query : Query) (name : String) : Bool :=
  match values query name with
  | [] => false
  | [value] => value ≠ ""
  | _ => true

-- Number(req.query[name]), `none` for what is not finite. An array is joined by
-- commas, and no number has one.
def number (query : Query) (name : String) : Option ℚ :=
  match values query name with
  | [value] => Double.ofText (trim value.toList)
  | _ => none

structure Page where
  limit : ℕ
  offset : ℕ
  deriving DecidableEq, Repr

def parsePage (query : Query) : Page :=
  ⟨match number query "limit" with
    | some rawLimit => if 0 < rawLimit then min ⌊rawLimit⌋.toNat 500 else 50
    | none => 50,
   match number query "offset" with
    | some rawOffset => if 0 ≤ rawOffset then ⌊rawOffset⌋.toNat else 0
    | none => 0⟩

-- The time of creation stands beside the other fields of a user.
structure UserRow where
  user : Auth.UserDoc
  createdAt : ℕ
  deriving DecidableEq

-- No two documents of a collection have one _id; the sequence of audit logs has a
-- unique index.
structure Store where
  users : List UserRow
  sessions : List Session.SessionDoc
  auditLogs : List Audit.AuditLogDoc
  userIds : (users.map fun row => row.user.id).Nodup
  sessionIds : (sessions.map Session.SessionDoc.id).Nodup
  sequences : (auditLogs.map Audit.AuditLogDoc.sequence).Nodup

-- What a find matches, and the keys it sorts by, each in descending order.
structure Find (α : Type) where
  rows : List α
  sort : α → List ℕ
  page : Page

structure Listed (α : Type) where
  rows : List α
  total : ℕ
  limit : ℕ
  offset : ℕ

-- skip, then limit: a limit of zero is none.
def Page.cut (page : Page) (rows : List α) : List α :=
  if page.limit = 0 then rows.drop page.offset else (rows.drop page.offset).take page.limit

-- The order of rows that tie is the store's choice.
def Find.Answer (find : Find α) (listed : Listed α) : Prop :=
  ∃ sorted : List α, sorted.Perm find.rows ∧ Slice.Descending find.sort sorted ∧
    listed = ⟨find.page.cut sorted,find.rows.length,find.page.limit,find.page.offset⟩

def statusName : Session.SessionStatus → String
  | .active => "active"
  | .rotating => "rotating"
  | .revoked => "revoked"
  | .replaced => "replaced"
  | .expired => "expired"

def severityName : Audit.Severity → String
  | .info => "info"
  | .warning => "warning"
  | .critical => "critical"

-- `contains search text`: the store finds the text searched for, in any case.
variable (contains : String → String → Bool) (store : Store) (callerTenant : String)

def users (query : Query) : Find UserRow :=
  let tenantId := str query "tenantId" callerTenant
  let search := str query "search" ""
  ⟨store.users.filter fun row => row.user.tenantId = tenantId &&
      (search = "" || row.user.email.any (contains search) || row.user.phone.any (contains search)),
    fun row => [row.createdAt],parsePage query⟩

def sessions (query : Query) : Find Session.SessionDoc :=
  let status := str query "status" ""
  let realm := str query "tenant" callerTenant
  ⟨store.sessions.filter fun doc => doc.tenantId = realm && (status = "" || statusName doc.status = status),
    fun doc => [doc.lastActiveAt],parsePage query⟩

def audit (query : Query) : Find Audit.AuditLogDoc :=
  let tenantId := str query "tenantId" callerTenant
  ⟨store.auditLogs.filter fun doc => doc.tenantId = some tenantId &&
      (!truthy query "eventType" || doc.eventType = str query "eventType" "") &&
      (!truthy query "severity" || severityName doc.severity = str query "severity" "") &&
      (!truthy query "userId" || doc.userId = some (str query "userId" "")),
    fun doc => [doc.timestamp,doc.sequence],parsePage query⟩

inductive Route where
  | users | sessions | audit
  deriving DecidableEq, Repr

abbrev Route.Row : Route → Type
  | .users => UserRow
  | .sessions => Session.SessionDoc
  | .audit => Audit.AuditLogDoc

def listing : (route : Route) → Query → Find route.Row
  | .users => users contains store callerTenant
  | .sessions => sessions store callerTenant
  | .audit => audit store callerTenant

-- What is listed depends on everything but the page.
structure Steady (find : Query → Find α) : Prop where
  distinct : ∀ query, (find query).rows.Nodup
  page : ∀ query, (find query).page = parsePage query
  same : ∀ one two, (∀ name, name ≠ "limit" → name ≠ "offset" → values one name = values two name) →
    (find one).rows = (find two).rows ∧ (find one).sort = (find two).sort

theorem str_same {one two : Query} (same : values one name = values two name) (fallback : String) :
    str one name fallback = str two name fallback := by
  unfold str
  rw [same]

theorem truthy_same {one two : Query} (same : values one name = values two name) : truthy one name = truthy two name := by
  unfold truthy
  rw [same]

theorem users_steady : Steady (users contains store callerTenant) where
  distinct _ := (List.Nodup.of_map _ store.userIds).filter _
  page _ := rfl
  same one two same := by
    have tenantId := str_same (same "tenantId" (by decide) (by decide)) callerTenant
    have search := str_same (same "search" (by decide) (by decide)) ""
    simp only [users,tenantId,search,and_self]

theorem sessions_steady : Steady (sessions store callerTenant) where
  distinct _ := (List.Nodup.of_map _ store.sessionIds).filter _
  page _ := rfl
  same one two same := by
    have realm := str_same (same "tenant" (by decide) (by decide)) callerTenant
    have status := str_same (same "status" (by decide) (by decide)) ""
    simp only [sessions,realm,status,and_self]

theorem audit_steady : Steady (audit store callerTenant) where
  distinct _ := (List.Nodup.of_map _ store.sequences).filter _
  page _ := rfl
  same one two same := by
    have tenantId := str_same (same "tenantId" (by decide) (by decide)) callerTenant
    have eventType := same "eventType" (by decide) (by decide)
    have severity := same "severity" (by decide) (by decide)
    have userId := same "userId" (by decide) (by decide)
    simp only [audit,tenantId,str_same eventType,str_same severity,str_same userId,truthy_same eventType,truthy_same severity,
      truthy_same userId,and_self]

theorem listing_steady (route : Route) : Steady (listing contains store callerTenant route) := by
  cases route with
  | users => exact users_steady contains store callerTenant
  | sessions => exact sessions_steady store callerTenant
  | audit => exact audit_steady store callerTenant

theorem limit_most (query : Query) : (parsePage query).limit ≤ 500 := by
  dsimp only [parsePage]
  split
  · split
    · exact Nat.min_le_right _ _
    · decide
  · decide

def Fraction (query : Query) : Prop := ∃ raw, number query "limit" = some raw ∧ 0 < raw ∧ raw < 1

theorem limit_zero_iff (query : Query) : (parsePage query).limit = 0 ↔ Fraction query := by
  dsimp only [parsePage,Fraction]
  cases number query "limit" with
  | none => simp
  | some raw =>
    simp only [Option.some.injEq,exists_eq_left']
    by_cases positive : 0 < raw
    · have floor : ⌊raw⌋.toNat = 0 ↔ raw < 1 := by
        rw [Int.toNat_eq_zero,← Int.lt_add_one_iff,zero_add,Int.floor_lt,Int.cast_one]
      rw [if_pos positive,← floor]
      constructor
      · intro free
        exact ⟨positive,by omega⟩
      · rintro ⟨_,free⟩
        omega
    · simp [positive]

theorem cut_length (page : Page) (rows : List α) :
    (page.cut rows).length = if page.limit = 0 then rows.length - page.offset else min page.limit (rows.length - page.offset) := by
  unfold Page.cut
  split
  · exact List.length_drop
  · rw [List.length_take,List.length_drop]

theorem bounded_iff (find : Find α) (most : find.page.limit ≤ 500) :
    (∀ listed, find.Answer listed → listed.rows.length ≤ 500) ↔ (find.page.limit = 0 → find.rows.length ≤ find.page.offset + 500) := by
  constructor
  · intro bounded free
    obtain ⟨sorted,same,descending⟩ := Slice.descending_exists find.sort find.rows
    have short := bounded _ ⟨sorted,same,descending,rfl⟩
    rw [cut_length,if_pos free,same.length_eq] at short
    omega
  · rintro short _ ⟨sorted,same,_,rfl⟩
    rw [cut_length,same.length_eq]
    split
    · rename_i free
      have few := short free
      omega
    · omega

-- Requests for one page after the other, that differ in nothing but the page.
structure Stepping (requests : ℕ → Query) (limit m : ℕ) : Prop where
  positive : 1 ≤ limit
  most : limit ≤ 500
  limits : ∀ k < m, number (requests k) "limit" = some (limit : ℚ)
  offsets : ∀ k < m, number (requests k) "offset" = some ((k * limit : ℕ) : ℚ)
  others : ∀ k < m, ∀ name, name ≠ "limit" → name ≠ "offset" → values (requests k) name = values (requests 0) name

variable {requests : ℕ → Query} {limit m : ℕ}

theorem stepping_page (stepping : Stepping requests limit m) (k : ℕ) (asked : k < m) : parsePage (requests k) = ⟨limit,k * limit⟩ := by
  have positive : (0 : ℚ) < limit := Nat.cast_pos.mpr stepping.positive
  have whole : (0 : ℚ) ≤ ((k * limit : ℕ) : ℚ) := Nat.cast_nonneg _
  rw [parsePage,stepping.limits k asked,stepping.offsets k asked]
  simp only [if_pos positive,if_pos whole,Int.floor_natCast,Int.toNat_natCast,Nat.min_eq_left stepping.most]

-- The pages of one limit in decimal digits, as far as every number is a double.
def paged (filters : Query) (limit k : ℕ) : Query := ("limit",toString limit) :: ("offset",toString (k * limit)) :: filters

theorem dropWhile_plain {p : Char → Bool} {text : List Char} (plain : ∀ c ∈ text, ¬p c = true) : text.dropWhile p = text := by
  cases text with
  | nil => rfl
  | cons c rest => exact List.dropWhile_cons_of_neg (plain c List.mem_cons_self)

theorem trim_digits {text : List Char} (digits : ∀ c ∈ text, Char.isDigit c = true) : trim text = text := by
  have visible : ∀ c ∈ text, ¬isSpace c = true := by
    intro c listed
    have digit := digits c listed
    simp only [Char.isDigit,Bool.and_eq_true,decide_eq_true_eq] at digit
    have low : 48 ≤ c.toNat := UInt32.le_iff_toNat_le.mp digit.1
    have high : c.toNat ≤ 57 := UInt32.le_iff_toNat_le.mp digit.2
    simp only [isSpace,List.contains_eq_mem,List.mem_cons,List.not_mem_nil,or_false,Bool.or_eq_true,Bool.and_eq_true,decide_eq_true_eq]
    omega
  have behind : ∀ c ∈ text.reverse, ¬isSpace c = true := fun c listed => visible c (List.mem_reverse.mp listed)
  rw [trim,dropWhile_plain visible,dropWhile_plain behind,List.reverse_reverse]

theorem number_digits (n : ℕ) (small : n < 2 ^ 53) : Double.ofText (trim (toString n).toList) = some (n : ℚ) := by
  have digits : (toString n).toList = Nat.toDigits 10 n := Nat.toList_repr
  rw [digits,trim_digits fun c listed => Nat.isDigit_of_mem_toDigits (by omega) (by omega) listed]
  exact Double.ofText_nat small

theorem paged_stepping {filters : Query} (plain : ∀ entry ∈ filters, entry.1 ≠ "limit" ∧ entry.1 ≠ "offset") (positive : 1 ≤ limit)
    (most : limit ≤ 500) (small : ∀ k < m, k * limit < 2 ^ 53) : Stepping (paged filters limit) limit m where
  positive := positive
  most := most
  limits k _ := by
    have others : filters.filter (fun entry => entry.1 = "limit") = [] :=
      List.filter_eq_nil_iff.mpr fun entry listed => by simpa using (plain entry listed).1
    have one : values (paged filters limit k) "limit" = [toString limit] := by
      simp [values,paged,others]
    rw [number,one]
    exact number_digits limit (by omega)
  offsets k asked := by
    have others : filters.filter (fun entry => entry.1 = "offset") = [] :=
      List.filter_eq_nil_iff.mpr fun entry listed => by simpa using (plain entry listed).2
    have one : values (paged filters limit k) "offset" = [toString (k * limit)] := by
      simp [values,paged,others]
    rw [number,one]
    exact number_digits (k * limit) (small k asked)
  others k _ name other another := by
    simp [values,paged,Ne.symm other,Ne.symm another]

-- Every matching row is on one of the pages, and on one only.
def Complete (finds : ℕ → Find α) (m : ℕ) : Prop :=
  ∀ pages : ℕ → Listed α, (∀ k < m, (finds k).Answer (pages k)) → ((List.range m).flatMap fun k => (pages k).rows).Perm (finds 0).rows

variable {find : Query → Find α}

theorem stepping_answer (steady : Steady find) (stepping : Stepping requests limit m) (k : ℕ) (asked : k < m) (listed : Listed α) :
    (find (requests k)).Answer listed ↔
      Slice.Page (find (requests 0)).sort (find (requests 0)).rows (k * limit) limit listed.rows ∧
        listed.total = (find (requests 0)).rows.length ∧ listed.limit = limit ∧ listed.offset = k * limit := by
  obtain ⟨rows,sort⟩ := steady.same (requests k) (requests 0) (stepping.others k asked)
  have page := stepping_page stepping k asked
  have some : limit ≠ 0 := Nat.ne_of_gt stepping.positive
  obtain ⟨found,total,most,offset⟩ := listed
  rw [Find.Answer,rows,sort,steady.page,page]
  simp only [Page.cut,some,if_false,Listed.mk.injEq]
  constructor
  · rintro ⟨sorted,same,descending,cut,count,size,skipped⟩
    exact ⟨⟨sorted,same,descending,cut⟩,count,size,skipped⟩
  · rintro ⟨⟨sorted,same,descending,cut⟩,count,size,skipped⟩
    exact ⟨sorted,same,descending,cut,count,size,skipped⟩

theorem complete_iff (steady : Steady find) (stepping : Stepping requests limit m) (enough : (find (requests 0)).rows.length ≤ m * limit) :
    Complete (fun k => find (requests k)) m ↔ Slice.Whole (find (requests 0)).sort (find (requests 0)).rows limit := by
  constructor
  · intro complete x listed k split
    obtain ⟨low,high⟩ := split
    obtain ⟨pages,found,repeats⟩ := Slice.split_repeats _ (steady.distinct (requests 0)) stepping.positive enough x low high
    let total := (find (requests 0)).rows.length
    refine repeats (complete (fun k => ⟨pages k,total,limit,k * limit⟩) fun k asked => ?_)
    exact (stepping_answer steady stepping k asked _).mpr ⟨found k,rfl,rfl,rfl⟩
  · intro whole pages found
    refine Slice.pages_perm _ whole stepping.positive (fun k asked => ?_) enough
    exact ((stepping_answer steady stepping k asked _).mp (found k asked)).1

-- At most 500 rows come back unless the limit is a number between zero and one and
-- there are more behind the offset; pages are complete exactly when none ends
-- between rows that tie.
theorem listing_iff (route : Route) :
    (∀ query, (∀ listed, (listing contains store callerTenant route query).Answer listed → listed.rows.length ≤ 500) ↔
      (Fraction query → (listing contains store callerTenant route query).rows.length ≤ (parsePage query).offset + 500)) ∧
    ∀ requests limit m, Stepping requests limit m →
      (listing contains store callerTenant route (requests 0)).rows.length ≤ m * limit →
      (Complete (fun k => listing contains store callerTenant route (requests k)) m ↔
        Slice.Whole (listing contains store callerTenant route (requests 0)).sort
          (listing contains store callerTenant route (requests 0)).rows limit) := by
  have steady := listing_steady contains store callerTenant route
  refine ⟨fun query => ?_,fun requests limit m stepping enough => complete_iff steady stepping enough⟩
  have page := steady.page query
  have bounded := bounded_iff (listing contains store callerTenant route query) (by rw [page]; exact limit_most query)
  rw [page,limit_zero_iff] at bounded
  exact bounded

-- Sessions that were active last at one time.
def crowded (n : ℕ) : Session.SessionDoc :=
  ⟨String.ofList (List.replicate n 'x'),"user","tenant","application",.active,"family","hash",none,none,1700000000000,1800000000000,none⟩

def crowd (n : ℕ) : Store where
  users := []
  sessions := (List.range n).map crowded
  auditLogs := []
  userIds := List.nodup_nil
  sessionIds := by
    rw [List.map_map]
    refine List.Nodup.map (fun i j same => ?_) List.nodup_range
    have sizes := congrArg (fun id : String => id.toList.length) same
    simpa [crowded] using sizes
  sequences := List.nodup_nil

def half : Query := [("limit","0.5")]

theorem single_stepping : Stepping (paged [] 1) 1 2 := paged_stepping (by decide) (by decide) (by decide) fun k asked => by omega

abbrev crowdListing (n : ℕ) : Query → Find Session.SessionDoc := listing (fun _ _ => false) (crowd n) "tenant" .sessions

theorem crowd_rows (n : ℕ) (query : Query) (all : values query "tenant" = []) (any : values query "status" = []) :
    (crowdListing n query).rows = (List.range n).map crowded := by
  simp only [crowdListing,listing,sessions,str,all,any]
  exact List.filter_eq_self.mpr fun doc listed => by
    obtain ⟨i,_,rfl⟩ := List.mem_map.mp listed
    rfl

theorem crowd_enough : (crowdListing 2 (paged [] 1 0)).rows.length ≤ 2 * 1 := by
  rw [crowd_rows 2 (paged [] 1 0) rfl rfl]
  exact Nat.le_refl 2

theorem crowd_split : ¬Slice.Whole (crowdListing 2 (paged [] 1 0)).sort (crowdListing 2 (paged [] 1 0)).rows 1 := by
  rw [crowd_rows 2 (paged [] 1 0) rfl rfl]
  intro whole
  exact whole (crowded 0) (by decide) 1 (by decide)

theorem crowd_listed :
    (∃ listed, (crowdListing 501 half).Answer listed ∧ listed.rows.length = 501) ∧ ¬Complete (fun k => crowdListing 2 (paged [] 1 k)) 2 := by
  have steady := listing_steady (fun _ _ => false) (crowd 501) "tenant" .sessions
  constructor
  · obtain ⟨sorted,same,descending⟩ := Slice.descending_exists (crowdListing 501 half).sort (crowdListing 501 half).rows
    refine ⟨_,⟨sorted,same,descending,rfl⟩,?_⟩
    have page : parsePage half = ⟨0,0⟩ := by decide +kernel
    have size := same.length_eq
    rw [crowd_rows 501 half rfl rfl,List.length_map,List.length_range] at size
    rw [cut_length,steady.page,page,size]
    rfl
  · exact (complete_iff (listing_steady _ _ _ .sessions) single_stepping crowd_enough).not.mpr crowd_split

theorem listing_iff_crowd :
    (crowdListing 2 (paged [] 1 0)).rows.length ≤ 2 * 1 ∧ (Complete (fun k => crowdListing 2 (paged [] 1 k)) 2 ↔
      Slice.Whole (crowdListing 2 (paged [] 1 0)).sort (crowdListing 2 (paged [] 1 0)).rows 1) :=
  ⟨crowd_enough,(listing_iff (fun _ _ => false) (crowd 2) "tenant" .sessions).2 (paged [] 1) 1 2 single_stepping crowd_enough⟩

end Pezhwan.Server.Listing
