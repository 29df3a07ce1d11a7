import Pezhwan.Java.JsonUtil

-- What the reader accepts: a laxer lexicon, and anything behind a value.
namespace Pezhwan.Java.JsonUtil
open JsonGrammar
variable {D : Type} {doubles : Doubles D}

-- The digits behind u belong to what is left.
inductive LaxPiece : Text → Text → Text → Prop where
  | plain (mark : u ≠ unit '"') (solidus : u ≠ unit '\\') : LaxPiece (u :: r) [u] r
  | escape (other : e ≠ unit 'u') : LaxPiece (unit '\\' :: e :: r) [unescape e] r
  | unicode (long : 4 ≤ r.length) (read : parseChar (r.take 4) = some u) : LaxPiece (unit '\\' :: unit 'u' :: r) [u] r

-- A word is told by its first letter, a number is the longest run of its units.
def lax (doubles : Doubles D) : Lexicon D where
  blank u := isWhitespace u = true
  word s value r := ∃ rest, (s = unit 't' :: rest ∧ value = .bool true ∧ r = rest.drop 3) ∨
    (s = unit 'f' :: rest ∧ value = .bool false ∧ r = rest.drop 4) ∨ (s = unit 'n' :: rest ∧ value = .null ∧ r = rest.drop 3)
  number s value r := decimal (s.takeWhile isNumeric) = true ∧ value = doubles.value (s.takeWhile isNumeric) ∧ r = s.dropWhile isNumeric
  piece := LaxPiece

-- Units that begin a value.
structure Starts (c : UInt16) : Prop where
  visible : isWhitespace c = false
  list : c ≠ unit ']'
  map : c ≠ unit '}'

def marks : Text := units "\x7b\x7d[]\",:tfn\\"

theorem zeros_apart : (zeros.all fun z =>
    32 < z && z + 9 < 0x1680 || 0x1680 < z && z + 9 < 0x2000 || 0x3000 < z) = true := by decide

theorem marks_other : (marks.all fun c => !isDigit c) = true := by decide +kernel

theorem digit_plain (digit : isDigit c = true) : isWhitespace c = false ∧ c ∉ marks := by
  constructor
  · obtain ⟨z,found⟩ := Option.isSome_iff_exists.mp digit
    have listed := List.mem_of_find?_eq_some found
    have range := List.find?_some found
    have apart := List.all_eq_true.mp zeros_apart z listed
    simp only [Bool.and_eq_true,Bool.or_eq_true,decide_eq_true_eq] at range apart
    rw [Bool.eq_false_iff]
    intro white
    simp only [isWhitespace,Bool.or_eq_true,Bool.and_eq_true,decide_eq_true_eq,beq_iff_eq,UInt16.le_iff_toNat_le,
      ← UInt16.toNat_inj,UInt16.reduceToNat] at white
    omega
  · intro listed
    have other := List.all_eq_true.mp marks_other c listed
    rw [digit] at other
    cases other

theorem numeric_plain (numeric : isNumeric c = true) : isWhitespace c = false ∧ c ∉ marks := by
  unfold isNumeric at numeric
  simp only [Bool.or_eq_true,beq_iff_eq] at numeric
  rcases numeric with (((((digit | rfl) | rfl) | rfl) | rfl) | rfl)
  · exact digit_plain digit
  all_goals decide +kernel

theorem skip_cons (c : UInt16) (rest : Text) : skipWs (c :: rest) = if isWhitespace c = true then skipWs rest else c :: rest := by
  unfold skipWs
  rw [List.dropWhile_cons]

theorem skip_blank (s : Text) : Blank (lax doubles) s (skipWs s) := by
  induction s with
  | nil => exact .none
  | cons c rest ih =>
    rw [skip_cons]
    split
    · rename_i space
      exact .some space ih
    · exact .none

theorem blank_skip (blank : Blank (lax doubles) s (c :: t)) (visible : isWhitespace c = false) : skipWs s = c :: t := by
  generalize left : c :: t = u at blank
  induction blank with
  | none =>
    subst left
    rw [skip_cons,visible]
    exact if_neg Bool.false_ne_true
  | some first rest ih =>
    have space : isWhitespace _ = true := first
    rw [skip_cons,if_pos space]
    exact ih left

theorem skip_visible (visible : isWhitespace c = false) (rest : Text) : skipWs (c :: rest) = c :: rest := by
  rw [skip_cons,if_neg (by rw [visible]; exact Bool.false_ne_true)]

theorem skip_skip (s : Text) : skipWs (skipWs s) = skipWs s := by
  induction s with
  | nil => rfl
  | cons c rest ih =>
    rw [skip_cons]
    split
    · exact ih
    · rename_i visible
      rw [skip_cons,if_neg visible]

theorem blank_length {lexicon : Lexicon D} (blank : Blank lexicon s t) : t.length ≤ s.length := by
  induction blank with
  | none => exact Nat.le_refl _
  | some _ _ ih => exact Nat.le_succ_of_le ih

theorem unescaped_other (other : e ≠ unit 'u') (rest : Text) : unescaped e rest = some (unescape e) := by
  unfold unescaped
  split
  · rename_i same
    rw [same]
    rfl
  split
  · rename_i same
    rw [same]
    rfl
  split
  · rename_i same
    rw [same]
    rfl
  split
  · rename_i same
    rw [same]
    rfl
  split
  · rename_i same
    rw [same]
    rfl
  rename_i n t r b f
  unfold unescape
  rw [if_neg b,if_neg f,if_neg n,if_neg r,if_neg t]

theorem unescaped_u (rest : Text) : unescaped (unit 'u') rest = if rest.length < 4 then none else parseChar (rest.take 4) := rfl

theorem unescaped_iff (e : UInt16) (rest : Text) (u : UInt16) :
    unescaped e rest = some u ↔
      (e ≠ unit 'u' ∧ unescape e = u) ∨ (e = unit 'u' ∧ 4 ≤ rest.length ∧ parseChar (rest.take 4) = some u) := by
  by_cases isU : e = unit 'u'
  · subst isU
    rw [unescaped_u]
    by_cases short : rest.length < 4
    · have long : ¬4 ≤ rest.length := Nat.not_le_of_lt short
      simp [short,long]
    · simp [short,Nat.le_of_not_lt short]
  · simp [isU,unescaped_other isU]

theorem chars_quote (rest : Text) : parseChars (unit '"' :: rest) = some ([],rest) := by
  rw [parseChars.eq_def]
  exact if_pos rfl

theorem chars_escape (e : UInt16) (rest : Text) : parseChars (unit '\\' :: e :: rest) =
    (unescaped e rest).bind fun u => (parseChars rest).map fun read => (u :: read.1,read.2) := by
  rw [parseChars.eq_def]
  rfl

theorem chars_plain (mark : c ≠ unit '"') (solidus : c ≠ unit '\\') (rest : Text) :
    parseChars (c :: rest) = (parseChars rest).map fun read => (c :: read.1,read.2) := by
  rw [parseChars.eq_def]
  exact (if_neg mark).trans (if_neg solidus)

theorem parseChars_sound (read : parseChars s = some (value,r)) : Chars (lax doubles) s value r := by
  induction s using parseChars.induct generalizing value r with
  | case1 => exact absurd read nofun
  | case2 rest =>
    rw [chars_quote] at read
    cases read
    exact .close
  | case3 => exact absurd read nofun
  | case4 e rest _ ih =>
    rw [chars_escape] at read
    simp only [Option.bind_eq_some_iff,Option.map_eq_some_iff] at read
    obtain ⟨u,spelled,inside,more,same⟩ := read
    cases same
    have first : LaxPiece (unit '\\' :: e :: rest) [u] rest := by
      rcases (unescaped_iff e rest u).mp spelled with ⟨other,rfl⟩ | ⟨rfl,long,digits⟩
      · exact .escape other
      · exact .unicode long digits
    exact Chars.piece first (ih more)
  | case5 c rest mark solidus ih =>
    rw [chars_plain mark solidus,Option.map_eq_some_iff] at read
    obtain ⟨inside,more,same⟩ := read
    cases same
    exact Chars.piece (LaxPiece.plain mark solidus) (ih more)

theorem parseChars_complete (chars : Chars (lax doubles) s value r) : parseChars s = some (value,r) := by
  induction chars with
  | close => exact chars_quote _
  | piece first rest ih =>
    cases first with
    | plain mark solidus => rw [chars_plain mark solidus,ih]; rfl
    | escape other => rw [chars_escape,unescaped_other other,ih]; rfl
    | unicode long digits =>
      rw [chars_escape,(unescaped_iff _ _ _).mpr (.inr ⟨rfl,long,digits⟩),ih]
      rfl

theorem chars_length (chars : Chars (lax doubles) s value r) : r.length < s.length := by
  induction chars with
  | close => exact Nat.lt_succ_self _
  | piece first rest ih =>
    cases (first : LaxPiece _ _ _) with
    | plain => exact Nat.lt_succ_of_lt ih
    | escape => exact Nat.lt_succ_of_lt (Nat.lt_succ_of_lt ih)
    | unicode => exact Nat.lt_succ_of_lt (Nat.lt_succ_of_lt ih)

-- What a part of the text begins with.
def Head : Phrase D → Text → Prop
  | .value _,s => ∃ c rest, s = c :: rest ∧ Starts c
  | .items _,s => ∃ c rest, skipWs s = c :: rest ∧ Starts c
  | .members _,s => ∃ rest, skipWs s = unit '"' :: rest

theorem decimal_head (decimal : decimal (s.takeWhile isNumeric) = true) : ∃ c rest, s = c :: rest ∧ isNumeric c = true := by
  cases s with
  | nil => exact absurd decimal (by decide)
  | cons c rest =>
    refine ⟨c,rest,rfl,?_⟩
    by_contra other
    rw [List.takeWhile_cons,if_neg other] at decimal
    exact absurd decimal (by decide)

theorem numeric_starts (numeric : isNumeric c = true) : Starts c := by
  obtain ⟨visible,plain⟩ := numeric_plain numeric
  refine ⟨visible,?_,?_⟩
  · rintro rfl
    exact plain (by decide)
  · rintro rfl
    exact plain (by decide)

theorem mark_starts (listed : c ∈ units "\x7b[\"tfn") : Starts c := by
  have all : ∀ c ∈ units "\x7b[\"tfn", isWhitespace c = false ∧ c ≠ unit ']' ∧ c ≠ unit '}' :=
    List.all_iff_forall_prop.mp (by decide +kernel)
  obtain ⟨visible,list,map⟩ := all c listed
  exact ⟨visible,list,map⟩

theorem reads_head (read : Reads (lax doubles) p s r) : Head p s := by
  induction read with
  | word read =>
    obtain ⟨rest,⟨rfl,_⟩ | ⟨rfl,_⟩ | ⟨rfl,_⟩⟩ := read
    all_goals exact ⟨_,rest,rfl,mark_starts (by decide)⟩
  | number read =>
    obtain ⟨c,rest,rfl,numeric⟩ := decimal_head read.1
    exact ⟨c,rest,rfl,numeric_starts numeric⟩
  | string | emptyList | list | emptyMap | map => exact ⟨_,_,rfl,mark_starts (by decide)⟩
  | lastItem before _ _ ih | item before _ _ _ ih =>
    obtain ⟨c,rest,rfl,starts⟩ := ih
    exact ⟨c,rest,blank_skip before starts.visible,starts⟩
  | lastMember before => exact ⟨_,blank_skip before rfl⟩
  | member before => exact ⟨_,blank_skip before rfl⟩

theorem item_lengths {lexicon : Lexicon D} (before : Blank lexicon s t) (after : Blank lexicon u (c :: w)) :
    t.length ≤ s.length ∧ w.length < u.length :=
  ⟨blank_length before,blank_length after⟩

theorem member_lengths (before : Blank (lax doubles) s (unit '"' :: t)) (key : Chars (lax doubles) t name u)
    (between : Blank (lax doubles) u (unit ':' :: w)) (beside : Blank (lax doubles) w x) (after : Blank (lax doubles) y (c :: z)) :
    w.length < s.length ∧ x.length ≤ w.length ∧ z.length < y.length := by
  have quoted := blank_length before
  have inside := chars_length key
  have colon := blank_length between
  simp only [List.length_cons] at quoted colon
  exact ⟨by omega,item_lengths beside after⟩

theorem reads_length (read : Reads (lax doubles) p s r) : r.length < s.length := by
  induction read with
  | word read =>
    obtain ⟨rest,⟨rfl,_,rfl⟩ | ⟨rfl,_,rfl⟩ | ⟨rfl,_,rfl⟩⟩ := read
    all_goals
      rw [List.length_drop,List.length_cons]
      omega
  | number read =>
    obtain ⟨decimal,_,rfl⟩ := read
    obtain ⟨c,rest,rfl,numeric⟩ := decimal_head decimal
    rw [List.dropWhile_cons,if_pos numeric]
    exact Nat.lt_succ_of_le (List.dropWhile_suffix _).length_le
  | string chars => exact Nat.lt_succ_of_lt (chars_length chars)
  | emptyList blank =>
    have bound := blank_length blank
    simp only [List.length_cons] at bound ⊢
    omega
  | list _ ih => exact Nat.lt_succ_of_lt ih
  | emptyMap blank =>
    have bound := blank_length blank
    simp only [List.length_cons] at bound ⊢
    omega
  | map _ ih => exact Nat.lt_succ_of_lt ih
  | lastItem before _ after ih =>
    have around := item_lengths before after
    omega
  | item before _ after _ ih more =>
    have around := item_lengths before after
    omega
  | lastMember before key between beside _ after ih =>
    have around := member_lengths before key between beside after
    omega
  | member before key between beside _ after _ ih more =>
    have around := member_lengths before key between beside after
    omega

-- The reader's steps, for one that stands on blanks.
theorem expect_iff : expect c s = some r ↔ skipWs s = c :: r := by
  unfold expect
  split
  · rename_i d rest found
    rw [found,List.cons.injEq]
    by_cases same : d = c
    · rw [if_pos same,Option.some.injEq]
      exact ⟨fun rest => ⟨same,rest⟩,And.right⟩
    · rw [if_neg same]
      exact ⟨nofun,fun both => absurd both.1 same⟩
  · rename_i found
    rw [found]
    exact ⟨nofun,nofun⟩

theorem expect_blank (c : UInt16) (s : Text) : expect c (skipWs s) = expect c s := by
  unfold expect
  rw [skip_skip]

theorem parseValue_blank (fuel : ℕ) (s : Text) : parseValue doubles fuel (skipWs s) = parseValue doubles fuel s := by
  cases fuel with
  | zero => rfl
  | succ fuel => rw [parseValue,skip_skip,← parseValue]

theorem parseItems_blank (fuel : ℕ) (list : List (Value D)) (s : Text) :
    parseItems doubles fuel list (skipWs s) = parseItems doubles fuel list s := by
  cases fuel with
  | zero => rfl
  | succ fuel => simp only [parseItems,parseValue_blank]

theorem parseMembers_blank (fuel : ℕ) (map : List (Text × Value D)) (s : Text) :
    parseMembers doubles fuel map (skipWs s) = parseMembers doubles fuel map s := by
  cases fuel with
  | zero => rfl
  | succ fuel => simp only [parseMembers,skip_skip]

theorem parseValue_visible (visible : isWhitespace c = false) (fuel : ℕ) (rest : Text) :
    parseValue doubles (fuel + 1) (c :: rest) =
      if c = unit '{' then parseObject (parseMembers doubles fuel) (c :: rest)
      else if c = unit '[' then parseArray (parseItems doubles fuel) (c :: rest)
      else if c = unit '"' then (parseString (c :: rest)).map fun read => (.string read.1,read.2)
      else if c = unit 't' then some (.bool true,(c :: rest).drop 4)
      else if c = unit 'f' then some (.bool false,(c :: rest).drop 5)
      else if c = unit 'n' then some (.null,(c :: rest).drop 4)
      else parseNumber doubles (c :: rest) := by
  rw [parseValue,skip_visible visible]

theorem enclosed_empty (visible : isWhitespace (unit left) = false) (empty : Value D) (more : Text → Option (Value D × Text))
    (closed : skipWs rest = unit right :: r) : enclosed left right empty more (unit left :: rest) = some (empty,r) := by
  have opened : expect (unit left) (unit left :: rest) = some rest := expect_iff.mpr (skip_visible visible rest)
  rw [enclosed,opened,Option.bind_some,closed]
  exact if_pos rfl

theorem enclosed_more (visible : isWhitespace (unit left) = false) (empty : Value D) (more : Text → Option (Value D × Text))
    (other : ∀ u, skipWs rest ≠ unit right :: u) : enclosed left right empty more (unit left :: rest) = more (skipWs rest) := by
  have opened : expect (unit left) (unit left :: rest) = some rest := expect_iff.mpr (skip_visible visible rest)
  rw [enclosed,opened,Option.bind_some]
  split
  · rename_i c u found
    have next : c ≠ unit right := fun same => other u (same ▸ found)
    rw [found,if_neg next]
  · rename_i found
    rw [found]

theorem parseString_iff : parseString s = some (value,r) ↔ ∃ t, skipWs s = unit '"' :: t ∧ Chars (lax doubles) t value r := by
  unfold parseString
  rw [Option.bind_eq_some_iff]
  constructor
  · rintro ⟨t,opened,chars⟩
    exact ⟨t,expect_iff.mp opened,parseChars_sound chars⟩
  · rintro ⟨t,opened,chars⟩
    exact ⟨t,expect_iff.mpr opened,parseChars_complete chars⟩

-- Every reading is found, given fuel for its length: two for each unit, since an
-- item costs one turn of its loop besides.
def Runs (doubles : Doubles D) : Phrase D → Text → Text → Prop
  | .value value,s,r => ∀ fuel, 2 * s.length ≤ fuel + 2 * r.length → parseValue doubles fuel s = some (value,r)
  | .items items,s,r => ∀ fuel list, 2 * s.length + 1 ≤ fuel + 2 * r.length → parseItems doubles fuel list s = some (.list (list ++ items),r)
  | .members members,s,r => ∀ fuel map, 2 * s.length + 1 ≤ fuel + 2 * r.length →
      parseMembers doubles fuel map s = some (.map (members.foldl put map),r)

theorem number_runs (read : (lax doubles).number s value r) (fuel : ℕ) :
    parseValue doubles (fuel + 1) s = some (.number value,r) := by
  obtain ⟨decimal,rfl,rfl⟩ := read
  obtain ⟨c,rest,rfl,numeric⟩ := decimal_head decimal
  obtain ⟨visible,plain⟩ := numeric_plain numeric
  have other : ∀ d ∈ marks, c ≠ d := fun d listed same => plain (same ▸ listed)
  rw [parseValue_visible visible,if_neg (other _ (by decide)),if_neg (other _ (by decide)),if_neg (other _ (by decide)),
    if_neg (other _ (by decide)),if_neg (other _ (by decide)),if_neg (other _ (by decide)),parseNumber,parseDouble,if_pos decimal]
  rfl

theorem beside_runs (before : Blank (lax doubles) s t) (item : Reads (lax doubles) (.value value) t u)
    (found : parseValue doubles fuel t = some (value,u)) : parseValue doubles fuel s = some (value,u) := by
  obtain ⟨c,rest,rfl,starts⟩ := reads_head item
  rw [← parseValue_blank,blank_skip before starts.visible]
  exact found

theorem items_turn (found : parseValue doubles fuel s = some (value,u)) (next : skipWs u = c :: rest) :
    parseItems doubles (fuel + 1) list s =
      if c = unit ',' then parseItems doubles fuel (list ++ [value]) rest
      else if c = unit ']' then some (.list (list ++ [value]),rest)
      else none := by
  simp only [parseItems,found,Option.bind_some,next]

theorem members_turn (before : Blank (lax doubles) s (unit '"' :: t)) (key : Chars (lax doubles) t name u)
    (between : Blank (lax doubles) u (unit ':' :: w)) (found : parseValue doubles fuel w = some (value,y)) (next : skipWs y = c :: rest) :
    parseMembers doubles (fuel + 1) map s =
      if c = unit ',' then parseMembers doubles fuel (put map (name,value)) rest
      else if c = unit '}' then some (.map (put map (name,value)),rest)
      else none := by
  have named : parseString (skipWs s) = some (name,u) := by
    refine parseString_iff.mpr ⟨t,?_,key⟩
    rw [skip_skip,blank_skip before rfl]
  have colon : expect (unit ':') (skipWs u) = some w := by
    rw [expect_blank]
    exact expect_iff.mpr (blank_skip between rfl)
  simp only [parseMembers,named,colon,found,Option.bind_some,next]

theorem reads_runs (read : Reads (lax doubles) p s r) : Runs doubles p s r := by
  induction read with
  | @word s value r read =>
    intro fuel enough
    have shorter := reads_length (Reads.word read)
    rcases fuel with _ | fuel
    · omega
    obtain ⟨rest,⟨rfl,rfl,rfl⟩ | ⟨rfl,rfl,rfl⟩ | ⟨rfl,rfl,rfl⟩⟩ := read
    all_goals
      rw [parseValue_visible rfl]
      rfl
  | @number s value r read =>
    intro fuel enough
    have shorter := reads_length (Reads.number read)
    rcases fuel with _ | fuel
    · omega
    exact number_runs read fuel
  | @string s value r chars =>
    intro fuel enough
    have shorter := chars_length chars
    rw [List.length_cons] at enough
    rcases fuel with _ | fuel
    · omega
    have found : parseString (unit '"' :: s) = some (value,r) := parseString_iff.mpr ⟨s,skip_visible rfl s,chars⟩
    rw [parseValue_visible rfl,found]
    rfl
  | @emptyList s r blank =>
    intro fuel enough
    have shorter := blank_length blank
    simp only [List.length_cons] at enough shorter
    rcases fuel with _ | fuel
    · omega
    rw [parseValue_visible rfl]
    have visible : isWhitespace (unit '[') = false := rfl
    exact enclosed_empty visible _ _ (blank_skip blank rfl)
  | @list items s r read ih =>
    intro fuel enough
    have shorter := reads_length read
    rw [List.length_cons] at enough
    rcases fuel with _ | fuel
    · omega
    obtain ⟨c,rest,found,starts⟩ := reads_head read
    have more : ∀ u, skipWs s ≠ unit ']' :: u := by
      intro u closed
      rw [found] at closed
      exact starts.list (List.cons.inj closed).1
    rw [parseValue_visible rfl]
    calc parseArray (parseItems doubles fuel) (unit '[' :: s)
      _ = parseItems doubles fuel [] (skipWs s) := enclosed_more rfl _ _ more
      _ = parseItems doubles fuel [] s := parseItems_blank fuel [] s
      _ = some (.list items,r) := ih fuel [] (by omega)
  | @emptyMap s r blank =>
    intro fuel enough
    have shorter := blank_length blank
    simp only [List.length_cons] at enough shorter
    rcases fuel with _ | fuel
    · omega
    rw [parseValue_visible rfl]
    have visible : isWhitespace (unit '{') = false := rfl
    exact enclosed_empty visible _ _ (blank_skip blank rfl)
  | @map members s r read ih =>
    intro fuel enough
    have shorter := reads_length read
    rw [List.length_cons] at enough
    rcases fuel with _ | fuel
    · omega
    obtain ⟨rest,found⟩ := reads_head read
    have more : ∀ u, skipWs s ≠ unit '}' :: u := by
      intro u closed
      rw [found] at closed
      exact absurd (List.cons.inj closed).1 (by decide)
    rw [parseValue_visible rfl]
    calc parseObject (parseMembers doubles fuel) (unit '{' :: s)
      _ = parseMembers doubles fuel [] (skipWs s) := enclosed_more rfl _ _ more
      _ = parseMembers doubles fuel [] s := parseMembers_blank fuel [] s
      _ = some (.map (members.foldl put []),r) := ih fuel [] (by omega)
  | @lastItem s t value u r before item after ih =>
    intro fuel list enough
    have around := item_lengths before after
    have inside := reads_length item
    rcases fuel with _ | fuel
    · omega
    have found := beside_runs before item (ih fuel (by omega))
    rw [items_turn found (blank_skip after rfl)]
    rfl
  | @item s t value u w items r before item after more ih rest =>
    intro fuel list enough
    have around := item_lengths before after
    have inside := reads_length item
    have behind := reads_length more
    rcases fuel with _ | fuel
    · omega
    have found := beside_runs before item (ih fuel (by omega))
    calc parseItems doubles (fuel + 1) list s
      _ = parseItems doubles fuel (list ++ [value]) w := items_turn found (blank_skip after rfl)
      _ = some (.list (list ++ [value] ++ items),r) := rest fuel _ (by omega)
      _ = some (.list (list ++ value :: items),r) := by rw [List.append_assoc,List.singleton_append]
  | @lastMember s t name u w x value y r before key between beside item after ih =>
    intro fuel map enough
    have around := member_lengths before key between beside after
    have inside := reads_length item
    rcases fuel with _ | fuel
    · omega
    have found := beside_runs beside item (ih fuel (by omega))
    rw [members_turn before key between found (blank_skip after rfl)]
    rfl
  | @member s t name u w x value y z members r before key between beside item after more ih rest =>
    intro fuel map enough
    have around := member_lengths before key between beside after
    have inside := reads_length item
    have behind := reads_length more
    rcases fuel with _ | fuel
    · omega
    have found := beside_runs beside item (ih fuel (by omega))
    calc parseMembers doubles (fuel + 1) map s
      _ = parseMembers doubles fuel (put map (name,value)) z := members_turn before key between found (blank_skip after rfl)
      _ = some (.map (members.foldl put (put map (name,value))),r) := rest fuel _ (by omega)

-- What is found is a reading.
structure Sound (doubles : Doubles D) (fuel : ℕ) : Prop where
  value {s value r} : parseValue doubles fuel s = some (value,r) → ∃ t, Blank (lax doubles) s t ∧ Reads (lax doubles) (.value value) t r
  items {list s value r} : parseItems doubles fuel list s = some (value,r) →
    ∃ items, value = .list (list ++ items) ∧ Reads (lax doubles) (.items items) s r
  members {map s value r} : parseMembers doubles fuel map s = some (value,r) →
    ∃ members, value = .map (members.foldl put map) ∧ Reads (lax doubles) (.members members) s r

theorem skip_head (found : skipWs s = c :: rest) : isWhitespace c = false := by
  have same := skip_skip s
  rw [found,skip_cons] at same
  by_contra space
  rw [if_pos (Bool.not_eq_false _ ▸ space)] at same
  have shorter : (skipWs rest).length ≤ rest.length := (List.dropWhile_suffix _).length_le
  rw [same,List.length_cons] at shorter
  exact Nat.not_succ_le_self _ shorter

theorem skipped (found : skipWs s = t) : Blank (lax doubles) s t := found ▸ skip_blank s

theorem enclosed_cases (visible : isWhitespace (unit left) = false) {empty : Value D} {more : Text → Option (Value D × Text)}
    (read : enclosed left right empty more (unit left :: rest) = some (value,r)) :
    (value = empty ∧ skipWs rest = unit right :: r) ∨ more (skipWs rest) = some (value,r) := by
  by_cases closed : ∃ u, skipWs rest = unit right :: u
  · obtain ⟨u,closed⟩ := closed
    rw [enclosed_empty visible _ _ closed] at read
    cases read
    exact .inl ⟨rfl,closed⟩
  · rw [enclosed_more visible _ _ (not_exists.mp closed)] at read
    exact .inr read

theorem object_sound (sound : Sound doubles fuel) (read : parseObject (parseMembers doubles fuel) (unit '{' :: rest) = some (value,r)) :
    Reads (lax doubles) (.value value) (unit '{' :: rest) r := by
  rcases enclosed_cases rfl read with ⟨rfl,closed⟩ | found
  · exact .emptyMap (skipped closed)
  · rw [parseMembers_blank] at found
    obtain ⟨members,rfl,reads⟩ := sound.members found
    exact .map reads

theorem array_sound (sound : Sound doubles fuel) (read : parseArray (parseItems doubles fuel) (unit '[' :: rest) = some (value,r)) :
    Reads (lax doubles) (.value value) (unit '[' :: rest) r := by
  rcases enclosed_cases rfl read with ⟨rfl,closed⟩ | found
  · exact .emptyList (skipped closed)
  · rw [parseItems_blank] at found
    obtain ⟨items,rfl,reads⟩ := sound.items found
    exact .list reads

theorem number_sound (read : parseNumber doubles s = some (value,r)) : Reads (lax doubles) (.value value) s r := by
  rw [parseNumber,parseDouble] at read
  split at read
  · rename_i decimal
    cases read
    exact .number ⟨decimal,rfl,rfl⟩
  · exact absurd read nofun

theorem visible_sound (sound : Sound doubles fuel) (visible : isWhitespace c = false)
    (read : parseValue doubles (fuel + 1) (c :: rest) = some (value,r)) : Reads (lax doubles) (.value value) (c :: rest) r := by
  rw [parseValue_visible visible] at read
  split at read
  · rename_i same
    subst same
    exact object_sound sound read
  split at read
  · rename_i same
    subst same
    exact array_sound sound read
  split at read
  · rename_i same
    subst same
    rw [Option.map_eq_some_iff] at read
    obtain ⟨inside,found,same⟩ := read
    cases same
    obtain ⟨t,opened,chars⟩ := parseString_iff.mp found
    rw [skip_visible rfl] at opened
    cases opened
    exact .string chars
  split at read
  · rename_i same
    subst same
    cases read
    exact .word ⟨rest,.inl ⟨rfl,rfl,rfl⟩⟩
  split at read
  · rename_i same
    subst same
    cases read
    exact .word ⟨rest,.inr (.inl ⟨rfl,rfl,rfl⟩)⟩
  split at read
  · rename_i same
    subst same
    cases read
    exact .word ⟨rest,.inr (.inr ⟨rfl,rfl,rfl⟩)⟩
  exact number_sound read

theorem value_sound (sound : Sound doubles fuel) (read : parseValue doubles (fuel + 1) s = some (value,r)) :
    ∃ t, Blank (lax doubles) s t ∧ Reads (lax doubles) (.value value) t r := by
  refine ⟨skipWs s,skip_blank s,?_⟩
  rw [← parseValue_blank] at read
  generalize found : skipWs s = t at read
  cases t with
  | nil => exact number_sound read
  | cons c rest => exact visible_sound sound (skip_head found) read

theorem items_sound (sound : Sound doubles fuel) (read : parseItems doubles (fuel + 1) list s = some (value,r)) :
    ∃ items, value = .list (list ++ items) ∧ Reads (lax doubles) (.items items) s r := by
  simp only [parseItems,Option.bind_eq_some_iff] at read
  obtain ⟨⟨item,u⟩,found,read⟩ := read
  obtain ⟨t,before,reads⟩ := sound.value found
  split at read
  · exact absurd read nofun
  · rename_i c rest next
    split at read
    · rename_i same
      subst same
      obtain ⟨items,rfl,more⟩ := sound.items read
      exact ⟨item :: items,by rw [List.append_assoc,List.singleton_append],.item before reads (skipped next) more⟩
    split at read
    · rename_i same
      subst same
      cases read
      exact ⟨[item],rfl,.lastItem before reads (skipped next)⟩
    · exact absurd read nofun

theorem members_sound (sound : Sound doubles fuel) (read : parseMembers doubles (fuel + 1) map s = some (value,r)) :
    ∃ members, value = .map (members.foldl put map) ∧ Reads (lax doubles) (.members members) s r := by
  simp only [parseMembers,Option.bind_eq_some_iff] at read
  obtain ⟨⟨name,u⟩,named,w,colon,⟨item,y⟩,found,read⟩ := read
  obtain ⟨t,opened,key⟩ := parseString_iff.mp named
  rw [skip_skip] at opened
  rw [expect_blank,expect_iff] at colon
  obtain ⟨x,beside,reads⟩ := sound.value found
  split at read
  · exact absurd read nofun
  · rename_i c rest next
    split at read
    · rename_i same
      subst same
      obtain ⟨members,rfl,more⟩ := sound.members read
      exact ⟨(name,item) :: members,rfl,.member (skipped opened) key (skipped colon) beside reads (skipped next) more⟩
    split at read
    · rename_i same
      subst same
      cases read
      exact ⟨[(name,item)],rfl,.lastMember (skipped opened) key (skipped colon) beside reads (skipped next)⟩
    · exact absurd read nofun

theorem sound (doubles : Doubles D) (fuel : ℕ) : Sound doubles fuel := by
  induction fuel with
  | zero => exact ⟨nofun,nofun,nofun⟩
  | succ fuel ih => exact ⟨value_sound ih,items_sound ih,members_sound ih⟩

-- A value behind blanks, and anything behind it.
theorem parse_iff : parse doubles s = some value ↔ ∃ t r, Blank (lax doubles) s t ∧ Reads (lax doubles) (.value value) t r := by
  unfold parse
  rw [parseValue_blank,Option.map_eq_some_iff]
  constructor
  · rintro ⟨⟨_,r⟩,read,rfl⟩
    obtain ⟨t,before,reads⟩ := (sound doubles _).value read
    exact ⟨t,r,before,reads⟩
  · rintro ⟨t,r,before,reads⟩
    have shorter := blank_length before
    exact ⟨(value,r),beside_runs before reads (reads_runs reads _ (by omega)),rfl⟩

end Pezhwan.Java.JsonUtil
