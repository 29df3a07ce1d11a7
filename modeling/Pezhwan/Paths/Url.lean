import Mathlib.Data.List.Induction
import Mathlib.Tactic.Common
import Mathlib.Data.List.TakeWhile

-- Paths along segments, some of which go up: where a walk ends, and whether it is still
-- below the place it began at.
namespace Paths
variable {σ : Type}

inductive Move where
  | stay | up | down
  deriving DecidableEq, Repr

variable (kind : σ → Move)

-- There is nothing above the root.
def step (path : List σ) (segment : σ) : List σ :=
  match kind segment with
  | .stay => path
  | .up => path.dropLast
  | .down => path ++ [segment]

def walk (path segments : List σ) : List σ := segments.foldl (step kind) path

theorem walk_append (path one other : List σ) : walk kind path (one ++ other) = walk kind (walk kind path one) other :=
  List.foldl_append

-- How far a walk has been above its beginning, and what it has below that place.
def climb (so : ℕ × List σ) (segment : σ) : ℕ × List σ :=
  match kind segment with
  | .stay => so
  | .up => if so.2.isEmpty then (so.1 + 1,[]) else (so.1,so.2.dropLast)
  | .down => (so.1,so.2 ++ [segment])

def climbed (segments : List σ) : ℕ × List σ := segments.foldl (climb kind) (0,[])

theorem step_climb (path : List σ) (so : ℕ × List σ) (segment : σ) :
    step kind (path.take (path.length - so.1) ++ so.2) segment =
      path.take (path.length - (climb kind so segment).1) ++ (climb kind so segment).2 := by
  obtain ⟨above,below⟩ := so
  unfold step climb
  cases kind segment with
  | stay => rfl
  | down => exact List.append_assoc _ _ _
  | up =>
    cases below with
    | nil =>
      simp only [List.isEmpty_nil,if_true,List.append_nil]
      rw [List.dropLast_eq_take,List.take_take,List.length_take]
      congr 1
      omega
    | cons first rest =>
      simp only [List.isEmpty_cons,Bool.false_eq_true,if_false]
      exact List.dropLast_append_of_ne_nil (List.cons_ne_nil first rest)

theorem walk_climbed (path segments : List σ) :
    walk kind path segments =
      path.take (path.length - (climbed kind segments).1) ++ (climbed kind segments).2 := by
  unfold walk climbed
  induction segments using List.reverseRecOn with
  | nil => simp
  | append_singleton segments segment ih =>
    rw [List.foldl_append,List.foldl_append,ih]
    exact step_climb kind path _ segment

theorem below_iff (path below : List σ) (n : ℕ) : path <+: path.take n ++ below ↔ path.drop n <+: below := by
  have both := @List.prefix_append_right_inj _ (path.drop n) below (path.take n)
  rwa [List.take_append_drop] at both

end Paths

-- The path of an http URL as its parser leaves it: cut off before a query or a fragment,
-- and without dot segments.
namespace Paths.Url

def isSlash (c : Char) : Bool := c = '/' || c = '\\'
def isEnd (c : Char) : Bool := c = '?' || c = '#'

-- Blanks before a URL and line ends and tabs within it are not part of it.
def cleaned (url : List Char) : List Char :=
  (url.dropWhile fun c => c.toNat ≤ 32).filter fun c => !(c = '\t' || c = '\n' || c = '\r')

-- However many slashes follow the scheme, what comes next is the host.
def afterScheme (text : List Char) : Option (List Char) :=
  match text.dropWhile (· != ':') with
  | [] => none
  | _ :: rest =>
    let scheme := (text.takeWhile (· != ':')).map Char.toLower
    if scheme = "http".toList ∨ scheme = "https".toList then some (rest.dropWhile isSlash) else none

def afterHost (rest : List Char) : List Char := rest.dropWhile fun c => !isSlash c && !isEnd c

def pathText (url : List Char) : Option (List Char) :=
  (afterScheme (cleaned url)).map fun rest => (afterHost rest).takeWhile fun c => !isEnd c

def segments (path : List Char) : List (List Char) := (path.splitOnP isSlash).drop 1

-- A dot may be written %2e.
def singleDots : List (List Char) := [".".toList,"%2e".toList]
def doubleDots : List (List Char) := singleDots.flatMap fun one => singleDots.map fun other => one ++ other

local instance lawful_chars : LawfulBEq (List Char) := inferInstance

def kind (segment : List Char) : Move :=
  if segment.map Char.toLower ∈ doubleDots then .up
  else if segment.map Char.toLower ∈ singleDots then .stay
  else .down

-- A path that ends in a dot segment ends in a slash.
def closing (segments : List (List Char)) : List (List Char) :=
  match segments.getLast?.map kind with
  | none | some .down => []
  | some .stay | some .up => [[]]

def removeDots (segments : List (List Char)) : List (List Char) := walk kind [] segments ++ closing segments

def requestPath (url : List Char) : Option (List (List Char)) := (pathText url).map fun path => removeDots (segments path)

-- The place of a URL to which more is put with a slash between.
def directory (url : List Char) : Option (List (List Char)) := (pathText url).map fun path => walk kind [] (segments path)

-- The URL is not taken out of the directory of another.
def Within (outer url : List Char) : Prop :=
  ∀ place path, directory outer = some place → requestPath url = some path → place <+: path

-- What is put to the URL is not part of its path.
def Cut (url : List Char) : Prop := ∃ c ∈ cleaned url, isEnd c = true

-- Characters that mean nothing to the parser.
def Plain (c : Char) : Prop := 32 < c.toNat ∧ isEnd c = false ∧ c ≠ ':' ∧ c ≠ '\\'

section
variable {url text rest tail : List Char}

theorem cleaned_append (shown : ∃ c ∈ url, 32 < c.toNat) (plain : ∀ c ∈ tail, Plain c) :
    cleaned (url ++ tail) = cleaned url ++ tail := by
  have kept : tail.filter (fun c => !(c = '\t' || c = '\n' || c = '\r')) = tail := by
    rw [List.filter_eq_self]
    intro c listed
    have high := (plain c listed).1
    simp only [Bool.not_eq_true',Bool.or_eq_false_iff,decide_eq_false_iff_not]
    refine ⟨⟨?_,?_⟩,?_⟩ <;> (rintro rfl; exact absurd high (by decide))
  have begun : (url.dropWhile fun c => c.toNat ≤ 32).isEmpty = false := by
    rw [List.isEmpty_eq_false_iff,ne_eq,List.dropWhile_eq_nil_iff]
    intro blank
    obtain ⟨c,listed,high⟩ := shown
    have low := blank c listed
    rw [decide_eq_true_eq] at low
    omega
  rw [cleaned,List.dropWhile_append,begun,if_neg Bool.false_ne_true,List.filter_append,kept]
  rfl

theorem dropWhile_append_ne {p : Char → Bool} (held : text.dropWhile p ≠ []) : (text ++ tail).dropWhile p = text.dropWhile p ++ tail := by
  rw [List.dropWhile_append,List.isEmpty_eq_false_iff.mpr held]
  exact if_neg Bool.false_ne_true

theorem takeWhile_append_ne {p : Char → Bool} (held : text.dropWhile p ≠ []) : (text ++ tail).takeWhile p = text.takeWhile p := by
  rw [List.takeWhile_append,if_neg]
  intro whole
  have parts := congrArg List.length (List.takeWhile_append_dropWhile (p := p) (l := text))
  rw [List.length_append,whole] at parts
  exact held (List.length_eq_zero_iff.mp (by omega))

theorem mem_dropWhile {p q : Char → Bool} (apart : ∀ c, p c = true → q c = false) :
    (∃ c ∈ text.dropWhile p, q c = true) ↔ ∃ c ∈ text, q c = true := by
  constructor
  · rintro ⟨c,listed,is⟩
    exact ⟨c,(List.dropWhile_suffix p).subset listed,is⟩
  · rintro ⟨c,listed,is⟩
    rw [← List.takeWhile_append_dropWhile (p := p) (l := text)] at listed
    rcases List.mem_append.mp listed with before | behind
    · rw [apart c (List.mem_takeWhile_imp before)] at is
      cases is
    · exact ⟨c,behind,is⟩

theorem afterScheme_append (host : ∀ rest, afterScheme text = some rest → rest ≠ []) (plain : ∀ c ∈ tail, Plain c) :
    afterScheme (text ++ tail) = (afterScheme text).map (· ++ tail) := by
  cases found : text.dropWhile (· != ':') with
  | nil =>
    have none : (text ++ tail).dropWhile (· != ':') = [] := by
      rw [List.dropWhile_append,found,List.isEmpty_nil,if_pos rfl,List.dropWhile_eq_nil_iff]
      exact fun c listed => bne_iff_ne.mpr (plain c listed).2.2.1
    simp only [afterScheme,found,none,Option.map_none]
  | cons colon rest =>
    have held : text.dropWhile (· != ':') ≠ [] := found ▸ List.cons_ne_nil colon rest
    simp only [afterScheme,dropWhile_append_ne held,takeWhile_append_ne held,found,List.cons_append] at host ⊢
    split
    · rename_i http
      rw [if_pos http] at host
      rw [dropWhile_append_ne (host _ rfl)]
      rfl
    · rfl

theorem scheme_letters (http : text.map Char.toLower = "http".toList ∨ text.map Char.toLower = "https".toList) :
    ∀ c ∈ text, c.toLower ∈ "https".toList := by
  intro c listed
  have inside := List.mem_map_of_mem (f := Char.toLower) listed
  rcases http with same | same
  · rw [same] at inside
    exact List.mem_of_mem_take (i := 4) inside
  · rwa [same] at inside

theorem scheme_unmarked (http : text.map Char.toLower = "http".toList ∨ text.map Char.toLower = "https".toList) :
    ∀ c ∈ text, isEnd c = false := by
  intro c listed
  have lower := scheme_letters http c listed
  by_contra mark
  simp only [isEnd,Bool.not_eq_false,Bool.or_eq_true,decide_eq_true_eq] at mark
  rcases mark with rfl | rfl <;> exact absurd lower (by decide)

theorem afterScheme_parts (found : afterScheme text = some rest) :
    ∃ scheme behind, text = scheme ++ ':' :: behind ∧ rest = behind.dropWhile isSlash ∧
      (scheme.map Char.toLower = "http".toList ∨ scheme.map Char.toLower = "https".toList) := by
  have parts := List.takeWhile_append_dropWhile (p := (· != ':')) (l := text)
  unfold afterScheme at found
  split at found
  · cases found
  · rename_i colon behind split
    dsimp only at found
    split at found
    · rename_i http
      cases found
      have stops := List.head_dropWhile_not (p := (· != ':')) (l := text) (split ▸ List.cons_ne_nil colon behind)
      have first : colon = ':' := by simpa [split] using stops
      refine ⟨_,behind,?_,rfl,http⟩
      rw [split,first] at parts
      exact parts.symm
    · cases found

theorem afterScheme_cut (found : afterScheme text = some rest) : (∃ c ∈ text, isEnd c = true) ↔ ∃ c ∈ rest, isEnd c = true := by
  obtain ⟨scheme,behind,rfl,rfl,http⟩ := afterScheme_parts found
  have apart : ∀ c, isSlash c = true → isEnd c = false := by
    intro c slash
    simp only [isSlash,Bool.or_eq_true,decide_eq_true_eq] at slash
    rcases slash with rfl | rfl <;> rfl
  rw [mem_dropWhile apart]
  constructor
  · rintro ⟨c,listed,mark⟩
    rw [List.mem_append,List.mem_cons] at listed
    rcases listed with before | rfl | listed
    · rw [scheme_unmarked http c before] at mark
      cases mark
    · cases mark
    · exact ⟨c,listed,mark⟩
  · rintro ⟨c,listed,mark⟩
    exact ⟨c,List.mem_append_right _ (List.mem_cons_of_mem ':' listed),mark⟩

theorem afterScheme_held (found : afterScheme text = some rest) (listed : c ∈ text) (other : c.toLower ∉ "https".toList)
    (colon : c ≠ ':') (slash : isSlash c = false) : rest ≠ [] := by
  obtain ⟨scheme,behind,rfl,rfl,http⟩ := afterScheme_parts found
  rw [List.mem_append,List.mem_cons] at listed
  rcases listed with before | here | behind
  · exact absurd (scheme_letters http c before) other
  · exact absurd here colon
  · rw [ne_eq,List.dropWhile_eq_nil_iff]
    intro every
    rw [every c behind] at slash
    cases slash

theorem mem_cleaned (listed : c ∈ url) (shown : 32 < c.toNat) : c ∈ cleaned url := by
  have apart : ∀ d, decide (d.toNat ≤ 32) = true → decide (d = c) = false := by
    intro d blank
    rw [decide_eq_false_iff_not]
    rintro rfl
    have low := of_decide_eq_true blank
    omega
  obtain ⟨d,inside,same⟩ := (mem_dropWhile apart).mpr ⟨c,listed,decide_eq_true rfl⟩
  rw [of_decide_eq_true same] at inside
  refine List.mem_filter.mpr ⟨inside,?_⟩
  simp only [Bool.not_eq_true',Bool.or_eq_false_iff,decide_eq_false_iff_not]
  refine ⟨⟨?_,?_⟩,?_⟩ <;> (rintro rfl; exact absurd shown (by decide))

theorem afterHost_append : afterHost (rest ++ '/' :: tail) = afterHost rest ++ '/' :: tail := by
  unfold afterHost
  rw [List.dropWhile_append]
  split
  · rename_i none
    rw [List.isEmpty_iff.mp none]
    rfl
  · rfl

theorem pathText_append (shown : ∃ c ∈ url, 32 < c.toNat) (host : ∀ rest, afterScheme (cleaned url) = some rest → rest ≠ [])
    (plain : ∀ c ∈ tail, Plain c) :
    (Cut url → pathText (url ++ '/' :: tail) = pathText url) ∧
      (¬Cut url → pathText (url ++ '/' :: tail) = (pathText url).map (· ++ '/' :: tail)) := by
  have all : ∀ c ∈ '/' :: tail, Plain c := List.forall_mem_cons.mpr ⟨⟨by decide,rfl,by decide,by decide⟩,plain⟩
  unfold pathText Cut
  rw [cleaned_append shown all,afterScheme_append host all]
  cases found : afterScheme (cleaned url) with
  | none => exact ⟨fun _ => rfl,fun _ => rfl⟩
  | some rest =>
    have marked : (∃ c ∈ cleaned url, isEnd c = true) ↔ ∃ c ∈ afterHost rest, isEnd c = true := by
      rw [afterScheme_cut found,afterHost,mem_dropWhile]
      intro c before
      simpa using (Bool.and_eq_true_iff.mp before).2
    rw [marked]
    simp only [Option.map_some,Option.some.injEq,afterHost_append]
    constructor
    · rintro ⟨c,listed,mark⟩
      refine takeWhile_append_ne ?_
      rw [ne_eq,List.dropWhile_eq_nil_iff]
      intro none
      have unmarked := none c listed
      rw [mark] at unmarked
      cases unmarked
    · intro unmarked
      have every : ∀ c ∈ afterHost rest, (!isEnd c) = true := by
        intro c listed
        by_contra mark
        exact unmarked ⟨c,listed,by simpa using mark⟩
      rw [List.takeWhile_append_of_pos every,List.takeWhile_eq_self_iff.mpr every,List.takeWhile_eq_self_iff.mpr]
      exact fun c listed => by rw [(all c listed).2.1]; rfl

theorem segments_append (path : List Char) : segments (path ++ '/' :: tail) = segments path ++ tail.splitOnP isSlash := by
  unfold segments
  rw [List.splitOnP_append_cons path tail (show isSlash '/' = true from rfl)]
  exact List.drop_append_of_le_length (List.length_pos_iff.mpr (List.splitOnP_ne_nil isSlash path))

theorem splitOnP_plain (plain : ∀ c ∈ tail, Plain c) : tail.splitOnP isSlash = tail.splitOn '/' := by
  rw [List.splitOn_eq_splitOnP]
  induction tail with
  | nil => rfl
  | cons c rest ih =>
    obtain ⟨first,others⟩ := List.forall_mem_cons.mp plain
    have same : isSlash c = (c == '/') := by
      rw [isSlash,decide_eq_false first.2.2.2,Bool.or_false,beq_eq_decide]
    rw [List.splitOnP_cons_eq_if_modifyHead,List.splitOnP_cons_eq_if_modifyHead,ih others,same]

theorem closing_append (before : List (List Char)) {names : List (List Char)} (held : names ≠ []) :
    closing (before ++ names) = closing names := by
  rw [closing,closing,List.getLast?_append,List.getLast?_eq_some_getLast held,Option.some_or]

theorem within_iff (shown : ∃ c ∈ url, 32 < c.toNat) (host : ∀ rest, afterScheme (cleaned url) = some rest → rest ≠ [])
    (plain : ∀ c ∈ tail, Plain c) {place : List (List Char)} (found : directory url = some place) :
    Within url (url ++ '/' :: tail) ↔
      Cut url ∨ place.drop (place.length - (climbed kind (tail.splitOn '/')).1) <+:
        (climbed kind (tail.splitOn '/')).2 ++ closing (tail.splitOn '/') := by
  obtain ⟨cut,whole⟩ := pathText_append shown host plain
  obtain ⟨path,text,rfl⟩ := Option.map_eq_some_iff.mp found
  unfold Within directory requestPath
  rw [text] at cut whole ⊢
  by_cases ended : Cut url
  · rw [cut ended]
    refine iff_of_true ?_ (.inl ended)
    rintro place path' ⟨rfl⟩ ⟨rfl⟩
    exact List.prefix_append _ _
  · have names := List.splitOn_ne_nil '/' tail
    rw [whole ended]
    have ends : removeDots (segments (path ++ '/' :: tail)) =
        (walk kind [] (segments path)).take ((walk kind [] (segments path)).length - (climbed kind (tail.splitOn '/')).1) ++
          ((climbed kind (tail.splitOn '/')).2 ++ closing (tail.splitOn '/')) := by
      rw [segments_append,splitOnP_plain plain,removeDots,walk_append,closing_append _ names,
        walk_climbed kind (walk kind [] (segments path)),List.append_assoc]
    rw [or_iff_right ended,← below_iff,← ends]
    constructor
    · intro within
      exact within _ _ rfl rfl
    · rintro ahead place path' ⟨rfl⟩ ⟨rfl⟩
      exact ahead

end
end Paths.Url
