import Pezhwan.Secrets.Providers

-- Which secret names stay below the directory or the mount they are read from.
namespace Pezhwan.Secrets
open Paths

-- A path of the file system as it is resolved, links apart.
def fileKind (segment : List Char) : Move :=
  if segment = [] ∨ segment = ".".toList then .stay
  else if segment = "..".toList then .up
  else .down

def resolve (cwd : List (List Char)) (path : String) : List (List Char) :=
  walk fileKind (if path.toList.head? = some '/' then [] else cwd) (path.toList.splitOn '/')

def Inside (directory path : List (List Char)) : Prop := directory <+: path ∧ directory ≠ path

namespace FileSecretProvider

-- Every path read for the name is one of the directory.
def Stays (provider : FileSecretProvider) (cwd : List (List Char)) (name : String) : Prop :=
  ∀ path, provider.filePath name = .ok path → Inside (resolve cwd provider.directory) (resolve cwd path)

theorem accepts_segment (accepted : accepts name = true) : name.toList.splitOn '/' = [name.toList] ∧ fileKind name.toList = .down := by
  simp only [accepts,Bool.and_eq_true,bne_iff_ne,Bool.not_eq_true',Bool.or_eq_false_iff,decide_eq_false_iff_not,List.all_eq_true] at accepted
  obtain ⟨⟨filled,chars⟩,single,double⟩ := accepted
  constructor
  · apply List.splitOn_eq_singleton
    intro slash
    exact absurd (chars '/' slash) (by decide)
  · have other : ∀ text : String, name ≠ text → name.toList ≠ text.toList := fun _ differs same => differs (String.toList_injective same)
    have chars : name.toList ≠ [] := fun none => filled (String.toList_injective none)
    rw [fileKind,if_neg (not_or.mpr ⟨chars,other "." single⟩),if_neg (other ".." double)]

theorem resolve_name (cwd : List (List Char)) {directory name : String} (accepted : accepts name = true) (held : directory ≠ "") :
    resolve cwd (directory ++ "/" ++ name) = resolve cwd directory ++ [name.toList] := by
  obtain ⟨one,down⟩ := accepts_segment accepted
  have chars : directory.toList ≠ [] := fun none => held (String.toList_injective none)
  have text : (directory ++ "/" ++ name).toList = directory.toList ++ '/' :: name.toList := by simp
  unfold resolve
  rw [text,List.splitOn_append_cons_self,one,walk_append,List.head?_append_of_ne_nil _ chars]
  simp [walk,step,down]

theorem stays_iff (provider : FileSecretProvider) (cwd : List (List Char)) (name : String) :
    provider.Stays cwd name ↔ accepts name = false ∨ provider.directory ≠ "" ∨ cwd = [] := by
  unfold Stays filePath
  by_cases accepted : accepts name = true
  · rw [accepted]
    simp only [Bool.not_true,Bool.false_eq_true,if_false,Except.ok.injEq,forall_eq',Bool.true_eq_false,false_or]
    by_cases held : provider.directory = ""
    · obtain ⟨one,down⟩ := accepts_segment accepted
      have above : resolve cwd provider.directory = cwd := by
        rw [held]
        rfl
      have top : resolve cwd (provider.directory ++ "/" ++ name) = [name.toList] := by
        have text : (provider.directory ++ "/" ++ name).toList = [] ++ '/' :: name.toList := by simp [held]
        rw [resolve,text,List.splitOn_append_cons_self,one,List.nil_append,List.head?_cons,if_pos rfl,walk_append]
        change step fileKind [] name.toList = _
        rw [step,down]
        rfl
      rw [above,top,Inside,or_iff_right (not_not.mpr held)]
      constructor
      · rintro ⟨ahead,other⟩
        cases cwd with
        | nil => rfl
        | cons first rest =>
          obtain ⟨rfl,behind⟩ := List.cons_prefix_cons.mp ahead
          rw [List.prefix_nil.mp behind] at other
          exact absurd rfl other
      · rintro rfl
        exact ⟨List.nil_prefix,List.cons_ne_nil _ _ |>.symm⟩
    · rw [resolve_name cwd accepted held]
      refine iff_of_true ⟨List.prefix_append _ _,?_⟩ (.inl held)
      exact fun same => by simpa using congrArg List.length same
  · rw [Bool.not_eq_true] at accepted
    simp [accepted]

end FileSecretProvider

theorem splitOn_mem {text segment : List Char} (listed : segment ∈ text.splitOn '/') : ∀ c ∈ segment, c ∈ text ∧ c ≠ '/' := by
  induction text generalizing segment with
  | nil =>
    rw [List.splitOn_nil,List.mem_singleton] at listed
    subst listed
    exact fun c none => absurd none List.not_mem_nil
  | cons d rest ih =>
    obtain ⟨first,others,parts⟩ := List.exists_cons_of_ne_nil (List.splitOn_ne_nil '/' rest)
    have later : ∀ {segment}, segment ∈ first :: others → ∀ c ∈ segment, c ∈ d :: rest ∧ c ≠ '/' := by
      intro segment inside c here
      obtain ⟨old,kind⟩ := ih (parts ▸ inside) c here
      exact ⟨List.mem_cons_of_mem d old,kind⟩
    rw [List.splitOn_cons_eq_if_modifyHead,parts] at listed
    split at listed
    · rcases List.mem_cons.mp listed with rfl | old
      · exact fun c none => absurd none List.not_mem_nil
      · exact later old
    · rename_i other
      rw [List.modifyHead_cons,List.mem_cons] at listed
      rcases listed with rfl | old
      · intro c here
        rcases List.mem_cons.mp here with rfl | here
        · exact ⟨List.mem_cons_self,by simpa using other⟩
        · exact later List.mem_cons_self c here
      · exact later (List.mem_cons_of_mem first old)

namespace VaultSecretProvider

def isNameChar (c : Char) : Bool := isAlphanumeric c || c = '.' || c = '_' || c = '/' || c = '-'

theorem accepts_chars (accepted : accepts name = true) : ∀ c ∈ name.toList, isNameChar c = true := by
  simp only [accepts,Bool.and_eq_true,List.all_eq_true] at accepted
  exact accepted.1.1.2

theorem nameChar_plain (char : isNameChar c = true) : Url.Plain c := by
  have other : ∀ {d : Char}, isNameChar d = false → c ≠ d := by
    rintro d off rfl
    rw [char] at off
    cases off
  have unmarked : Url.isEnd c = false := by
    rw [Url.isEnd,decide_eq_false (other (by decide)),decide_eq_false (other (by decide))]
    rfl
  refine ⟨?_,unmarked,other (by decide),other (by decide)⟩
  simp only [isNameChar,isAlphanumeric,Bool.or_eq_true,Bool.and_eq_true,decide_eq_true_eq,Char.le_def,UInt32.le_iff_toNat_le] at char
  change 32 < c.val.toNat
  rcases char with (((((⟨low,_⟩ | ⟨low,_⟩) | ⟨low,_⟩) | rfl) | rfl) | rfl) | rfl
  · exact Nat.lt_of_lt_of_le (by decide) low
  · exact Nat.lt_of_lt_of_le (by decide) low
  · exact Nat.lt_of_lt_of_le (by decide) low
  all_goals decide

theorem encoded_name (accepted : accepts name = true) : encoded name = name := by
  have same : (name.toList.splitOn '/').map encodeURIComponent = name.toList.splitOn '/' := by
    refine (List.map_congr_left ?_).trans (List.map_id _)
    intro segment listed
    have every : ∀ c ∈ segment, (if isUnreserved c then [c] else (String.singleton c).toUTF8.toList.flatMap percent) = [c] := by
      intro c here
      obtain ⟨inside,other⟩ := splitOn_mem listed c here
      have char := accepts_chars accepted c inside
      refine if_pos ?_
      simp only [isNameChar,Bool.or_eq_true,decide_eq_true_eq] at char
      simp only [isUnreserved,Bool.or_eq_true]
      rcases char with (((letter | rfl) | rfl) | slash) | rfl
      · exact .inl letter
      · exact .inr (by decide)
      · exact .inr (by decide)
      · exact absurd slash other
      · exact .inr (by decide)
    rw [encodeURIComponent,List.flatMap_congr every,List.flatMap_singleton']
    rfl
  rw [encoded,same,List.intercalate_splitOn,String.ofList_toList]

-- Where the secrets of the mount are, and what the engine's version puts before a name.
variable (provider : VaultSecretProvider)

def location : List Char := (provider.baseUrl ++ "/v1/" ++ provider.mountPath).toList

def segments (name : String) : List (List Char) :=
  (if provider.kvVersion = 2 then ["data".toList] else []) ++ name.toList.splitOn '/'

theorem location_shown : ∃ c ∈ provider.location, 32 < c.toNat :=
  ⟨'v',by simp [location],by decide⟩

theorem location_host (found : Url.afterScheme (Url.cleaned provider.location) = some rest) : rest ≠ [] := by
  have listed : 'v' ∈ provider.location := by simp [location]
  exact Url.afterScheme_held found (Url.mem_cleaned listed (by decide)) (by decide) (by decide) rfl

theorem secretUrl_parts (accepted : accepts name = true) :
    ∃ tail, (provider.secretUrl name).toList = provider.location ++ '/' :: tail ∧
      (∀ c ∈ tail, Url.Plain c) ∧ tail.splitOn '/' = provider.segments name := by
  have plain : ∀ c ∈ name.toList, Url.Plain c := fun c listed => nameChar_plain (accepts_chars accepted c listed)
  unfold secretUrl dataPath segments location
  rw [encoded_name accepted]
  by_cases second : provider.kvVersion = 2
  · refine ⟨"data".toList ++ '/' :: name.toList,by simp [second],?_,?_⟩
    · intro c listed
      rcases List.mem_append.mp listed with data | listed
      · have char : isNameChar c = true := List.all_eq_true.mp (show "data".toList.all isNameChar = true by decide) c data
        exact nameChar_plain char
      · rcases List.mem_cons.mp listed with rfl | listed
        · exact nameChar_plain (by decide)
        · exact plain c listed
    · rw [List.splitOn_append_cons_self,if_pos second]
      rfl
  · exact ⟨name.toList,by simp [second],plain,by simp [second]⟩

-- Every request for the secret stays below the mount.
def Stays (name : String) : Prop :=
  ∀ fetch, ∀ request ∈ (provider.getOptionalSecret fetch name).2.2, request.method = .GET →
    Url.Within provider.location request.url.toList

def HasCredentials : Prop :=
  (truthy provider.cachedToken).isSome ∨ (truthy provider.roleId).isSome ∧ (truthy provider.secretId).isSome

-- The names the walk leaves the mount by are the ones it comes back by, if it leaves it.
def ComesBack (name : String) : Prop :=
  ∀ place, Url.directory provider.location = some place →
    place.drop (place.length - (climbed Url.kind (provider.segments name)).1) <+:
      (climbed Url.kind (provider.segments name)).2 ++ Url.closing (provider.segments name)

theorem ensureToken_sends (fetch : Fetch) : ∀ request ∈ (provider.ensureToken fetch).2.2, request.method = .POST := by
  intro request sent
  unfold ensureToken at sent
  split at sent
  · cases sent
  · dsimp only at sent
    split at sent <;> (rw [List.mem_singleton.mp sent]; rfl)
  · cases sent

theorem ensureToken_held (fetch : Fetch) (got : (provider.ensureToken fetch).1 = .ok token) : provider.HasCredentials := by
  unfold ensureToken at got
  split at got
  · rename_i token held
    exact .inl (held ▸ rfl)
  · rename_i role secret _ roleHeld secretHeld
    exact .inr ⟨roleHeld ▸ rfl,secretHeld ▸ rfl⟩
  · cases got

theorem getOptionalSecret_sends (fetch : Fetch) {name : String} (sent : request ∈ (provider.getOptionalSecret fetch name).2.2)
    (get : request.method = .GET) : accepts name = true ∧ provider.HasCredentials ∧ request.url = provider.secretUrl name := by
  have login := provider.ensureToken_sends fetch
  have held := fun token => @ensureToken_held provider token fetch
  unfold getOptionalSecret at sent
  split at sent
  · cases sent
  · rename_i accepted
    split at sent
    · rename_i asked
      rw [asked] at login
      rw [login request sent] at get
      cases get
    · rename_i token after before asked
      rw [asked] at login held
      rcases List.mem_append.mp sent with early | last
      · rw [login request early] at get
        cases get
      · rw [List.mem_singleton.mp last]
        exact ⟨by simpa using accepted,held token rfl,rfl⟩

-- A login that succeeds.
def granting : Fetch := fun _ => .ok ⟨true,200,some (.object [("auth",.object [("client_token",.string "token")])])⟩

theorem granting_token (held : provider.HasCredentials) : ∃ token after sent, provider.ensureToken granting = (.ok token,after,sent) := by
  unfold ensureToken
  split
  · exact ⟨_,_,_,rfl⟩
  · exact ⟨"token",_,_,rfl⟩
  · rename_i none other
    rcases held with token | ⟨role,secret⟩
    · rw [none] at token
      cases token
    · obtain ⟨roleId,foundRole⟩ := Option.isSome_iff_exists.mp role
      obtain ⟨secretId,foundSecret⟩ := Option.isSome_iff_exists.mp secret
      exact absurd foundSecret (other roleId secretId foundRole)

theorem secretUrl_sent (held : provider.HasCredentials) (accepted : accepts name = true) :
    ∃ fetch, ∃ request ∈ (provider.getOptionalSecret fetch name).2.2, request.method = .GET ∧ request.url = provider.secretUrl name := by
  obtain ⟨token,after,sent,asked⟩ := provider.granting_token held
  refine ⟨granting,provider.secretRequest token name,?_,rfl,rfl⟩
  rw [getOptionalSecret,accepted,asked]
  exact List.mem_append_right _ List.mem_cons_self

theorem within_iff (accepted : accepts name = true) :
    Url.Within provider.location (provider.secretUrl name).toList ↔ Url.Cut provider.location ∨ provider.ComesBack name := by
  obtain ⟨tail,text,plain,parts⟩ := provider.secretUrl_parts accepted
  rw [text,ComesBack]
  cases found : Url.directory provider.location with
  | none =>
    refine iff_of_true ?_ (.inr fun place none => by cases none)
    intro place path known
    rw [found] at known
    cases known
  | some place =>
    rw [Url.within_iff provider.location_shown (fun rest => provider.location_host) plain found,parts]
    simp only [Option.some.injEq,forall_eq']

theorem stays_iff (name : String) :
    provider.Stays name ↔
      accepts name = false ∨ ¬provider.HasCredentials ∨ Url.Cut provider.location ∨ provider.ComesBack name := by
  constructor
  · intro stays
    rw [or_iff_not_imp_left,or_iff_not_imp_left]
    intro accepted held
    rw [Bool.not_eq_false] at accepted
    obtain ⟨fetch,request,sent,get,url⟩ := provider.secretUrl_sent (not_not.mp held) accepted
    rw [← provider.within_iff accepted,← url]
    exact stays fetch request sent get
  · intro either fetch request sent get
    obtain ⟨accepted,held,url⟩ := provider.getOptionalSecret_sends fetch sent get
    rw [url,provider.within_iff accepted]
    rcases either with refused | none | either
    · rw [accepted] at refused
      cases refused
    · exact absurd held none
    · exact either

end VaultSecretProvider

theorem names_stay_iff (files : FileSecretProvider) (cwd : List (List Char)) (vault : VaultSecretProvider) (fileName vaultName : String) :
    (files.Stays cwd fileName ↔ FileSecretProvider.accepts fileName = false ∨ files.directory ≠ "" ∨ cwd = []) ∧
      (vault.Stays vaultName ↔ VaultSecretProvider.accepts vaultName = false ∨ ¬vault.HasCredentials ∨
        Url.Cut vault.location ∨ vault.ComesBack vaultName) :=
  ⟨files.stays_iff cwd fileName,vault.stays_iff vaultName⟩

-- A provider with a token and the defaults for the rest.
def secretVault : VaultSecretProvider := ⟨"https://vault:8200","secret",2,none,none,some "token"⟩

theorem name_leaves_mount :
    VaultSecretProvider.new {baseUrl := "https://vault:8200", token := some "token"} = .ok secretVault ∧
      VaultSecretProvider.accepts "../../sys/health" = true ∧
      Url.directory secretVault.location = some ["v1".toList,"secret".toList] ∧
      Url.requestPath (secretVault.secretUrl "../../sys/health").toList = some ["v1".toList,"sys".toList,"health".toList] ∧
      ¬∀ vault name, VaultSecretProvider.Stays vault name := by
  have place : Url.directory secretVault.location = some ["v1".toList,"secret".toList] := by decide +kernel
  have accepted : VaultSecretProvider.accepts "../../sys/health" = true := by decide +kernel
  refine ⟨by rfl,accepted,place,by decide +kernel,?_⟩
  intro all
  rcases (secretVault.stays_iff _).mp (all secretVault "../../sys/health") with refused | none | cut | back
  · rw [accepted] at refused
    cases refused
  · exact none (.inl rfl)
  · have whole : (Url.cleaned secretVault.location).any Url.isEnd = false := by decide +kernel
    obtain ⟨c,listed,ended⟩ := cut
    exact List.any_eq_false.mp whole c listed ended
  · exact absurd (back _ place) (by decide +kernel)

end Pezhwan.Secrets
