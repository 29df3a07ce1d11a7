import Pezhwan.Java.RoundTrip

-- The reader against RFC 8259: it reads every text, with the digits of each \u
-- escape left in it, and it reads texts that are none.
namespace Pezhwan.Java.JsonUtil
open JsonGrammar
variable {D : Type} {doubles : Doubles D} {double : Text → D} {keeping : Bool}

theorem blank_white (blank : (rfc8259 double keeping).blank u) : isWhitespace u = true := by
  rcases blank with rfl | rfl | rfl | rfl
  all_goals rfl

theorem blank_lax (blank : Blank (rfc8259 double keeping) s t) : Blank (lax doubles) s t := by
  induction blank with
  | none => exact .none
  | some first _ ih => exact .some (blank_white first) ih

theorem blank_stops (blank : Blank (rfc8259 double keeping) s t) (stops : Stops t) : Stops s := by
  cases blank with
  | none => exact stops
  | some first rest =>
    rintro _ _ ⟨rfl,rfl⟩
    by_contra numeric
    have visible := (numeric_plain (Bool.not_eq_false _ ▸ numeric)).1
    exact Bool.false_ne_true (visible.symm.trans (blank_white first))

theorem ascii_units : ((List.range 10).all fun k =>
    let c := UInt16.ofNat (48 + k)
    isDigit c && c != unit '+' && c != unit '-') = true := by decide +kernel

theorem ascii_digit (digit : JsonGrammar.isDigit c) : isNumeric c = true ∧ c ≠ unit '+' ∧ c ≠ unit '-' := by
  obtain ⟨low,high⟩ := digit
  have low : 48 ≤ c.toNat := UInt16.le_iff_toNat_le.mp low
  have high : c.toNat ≤ 57 := UInt16.le_iff_toNat_le.mp high
  have all := List.all_eq_true.mp ascii_units (c.toNat - 48) (List.mem_range.mpr (by omega))
  have same : 48 + (c.toNat - 48) = c.toNat := by omega
  simp only [same,UInt16.ofNat_toNat,Bool.and_eq_true,bne_iff_ne] at all
  obtain ⟨⟨java,plus⟩,minus⟩ := all
  refine ⟨?_,plus,minus⟩
  rw [isNumeric,java]
  rfl

theorem unsigned_digits (sign : SignPart signs) (digits : Digits text) (rest : Text) : unsigned (signs ++ (text ++ rest)) = text ++ rest := by
  rcases sign with rfl | rfl | rfl
  · obtain ⟨some,all⟩ := digits
    cases text with
    | nil => exact absurd rfl some
    | cons c more =>
      obtain ⟨_,plus,minus⟩ := ascii_digit (all c List.mem_cons_self)
      exact if_neg (not_or.mpr ⟨plus,minus⟩)
  · rfl
  · rfl

theorem exponent_part (exp : ExpPart text) : exponent text = true := by
  rcases exp with rfl | ⟨e,sign,digits,rfl,letter,signed,all⟩
  · rfl
  · have unsigned := unsigned_digits signed all []
    rw [List.append_nil] at unsigned
    rw [exponent,unsigned]
    obtain ⟨some,all⟩ := all
    have each : (digits.all fun c => decide (JsonGrammar.isDigit c)) = true :=
      List.all_eq_true.mpr fun u listed => decide_eq_true (all u listed)
    simp [letter,some,each]

theorem exponent_stops (exp : ExpPart text) : ∀ c rest, text = c :: rest → ¬JsonGrammar.isDigit c := by
  rcases exp with rfl | ⟨e,sign,digits,rfl,rfl | rfl,_⟩
  · exact nofun
  · rintro _ _ ⟨rfl,rfl⟩
    decide
  · rintro _ _ ⟨rfl,rfl⟩
    decide

theorem ascii_run (all : ∀ u ∈ text, JsonGrammar.isDigit u) (stops : ∀ c rest, r = c :: rest → ¬JsonGrammar.isDigit c) :
    (text ++ r).takeWhile (fun c => decide (JsonGrammar.isDigit c)) = text ∧
      (text ++ r).dropWhile (fun c => decide (JsonGrammar.isDigit c)) = r :=
  run_stops (fun u listed => decide_eq_true (all u listed)) fun c rest same => decide_eq_false (stops c rest same)

theorem int_digits (int : IntPart text) : Digits text := by
  rcases int with rfl | ⟨d,rest,rfl,digit,_,all⟩
  · exact ⟨nofun,List.forall_mem_singleton.mpr (by decide)⟩
  · exact ⟨nofun,List.forall_mem_cons.mpr ⟨digit,all⟩⟩

theorem number_decimal (number : Number text) : decimal text = true := by
  obtain ⟨minus,int,frac,exp,rfl,signed,whole,fraction,power⟩ := number
  obtain ⟨some,all⟩ := int_digits whole
  have sign : SignPart minus := signed.imp_right .inr
  rcases fraction with rfl | ⟨digits,rfl,_,each⟩
  · obtain ⟨taken,left⟩ := ascii_run all (exponent_stops power)
    rw [List.nil_append,decimal,unsigned_digits sign ⟨some,all⟩]
    simp only [taken,left]
    rcases power with rfl | ⟨e,sign,digits,rfl,letter,signed,more⟩
    · simp [some]
    · have other : e ≠ unit '.' := by
        rcases letter with rfl | rfl
        all_goals decide
      have rest := exponent_part (.inr ⟨e,sign,digits,rfl,letter,signed,more⟩)
      simp [some,other,rest]
  · have point : ∀ c rest, unit '.' :: digits ++ exp = c :: rest → ¬JsonGrammar.isDigit c := by
      rintro _ _ ⟨rfl,rfl⟩
      decide
    obtain ⟨taken,left⟩ := ascii_run all point
    obtain ⟨_,behind⟩ := ascii_run each (exponent_stops power)
    rw [decimal,unsigned_digits sign ⟨some,all⟩]
    simp only [taken,left]
    simp [some,behind,exponent_part power]

theorem digits_numeric {text : Text} (all : ∀ u ∈ text, JsonGrammar.isDigit u) : ∀ u ∈ text, isNumeric u = true :=
  fun u listed => (ascii_digit (all u listed)).1

theorem sign_numeric (sign : SignPart text) : ∀ u ∈ text, isNumeric u = true := by
  rcases sign with rfl | rfl | rfl
  · exact nofun
  · exact List.forall_mem_singleton.mpr rfl
  · exact List.forall_mem_singleton.mpr rfl

theorem number_numeric (number : Number text) : ∀ u ∈ text, isNumeric u = true := by
  obtain ⟨minus,int,frac,exp,rfl,signed,whole,fraction,power⟩ := number
  refine List.forall_mem_append.mpr ⟨sign_numeric (signed.imp_right .inr),?_⟩
  refine List.forall_mem_append.mpr ⟨digits_numeric (int_digits whole).2,?_⟩
  refine List.forall_mem_append.mpr ⟨?_,?_⟩
  · rcases fraction with rfl | ⟨digits,rfl,_,each⟩
    · exact List.forall_mem_nil _
    · exact List.forall_mem_cons.mpr ⟨rfl,digits_numeric each⟩
  · rcases power with rfl | ⟨e,sign,digits,rfl,letter,signed,_,more⟩
    · exact List.forall_mem_nil _
    · refine List.forall_mem_cons.mpr ⟨?_,List.forall_mem_append.mpr ⟨sign_numeric signed,digits_numeric more⟩⟩
      rcases letter with rfl | rfl
      all_goals rfl

theorem hex_units : ((List.range 128).all fun n =>
    let c := UInt16.ofNat n
    (JsonGrammar.hexDigit c).isNone || digit16 c == JsonGrammar.hexDigit c && c != unit '"' && c != unit '\\' && !(c < unit '0')) = true := by decide +kernel

theorem hexDigit_small (hex : JsonGrammar.hexDigit c = some i) : c.toNat < 128 := by
  unfold JsonGrammar.hexDigit at hex
  iterate 3
    split at hex
    · rename_i range
      exact Nat.lt_of_le_of_lt (UInt16.le_iff_toNat_le.mp range.2) (by decide)
  · exact absurd hex nofun

theorem hexDigit_java (hex : JsonGrammar.hexDigit c = some i) : digit16 c = some i ∧ (c ≠ unit '"' ∧ c ≠ unit '\\') ∧ ¬c < unit '0' := by
  have all := List.all_eq_true.mp hex_units c.toNat (List.mem_range.mpr (hexDigit_small hex))
  simp only [UInt16.ofNat_toNat,hex,Option.isNone_some,Bool.false_or,Bool.and_eq_true,beq_iff_eq,bne_iff_ne,Bool.not_eq_true',
    decide_eq_false_iff_not] at all
  exact ⟨all.1.1.1,⟨all.1.1.2,all.1.2⟩,all.2⟩

theorem hex_chars (one : JsonGrammar.hexDigit a = some i) (two : JsonGrammar.hexDigit b = some j)
    (three : JsonGrammar.hexDigit c = some k) (four : JsonGrammar.hexDigit d = some l) :
    parseChar [a,b,c,d] = some (UInt16.ofNat (((i * 16 + j) * 16 + k) * 16 + l)) := by
  obtain ⟨first,_,low⟩ := hexDigit_java one
  rw [parseChar,if_neg low]
  simp [digits16,first,(hexDigit_java two).1,(hexDigit_java three).1,(hexDigit_java four).1]

theorem chars_lax (chars : Chars (rfc8259 double true) s value r) : Chars (lax doubles) s value r := by
  induction chars with
  | close => exact .close
  | piece first _ ih =>
    cases (first : Piece true _ _ _) with
    | plain _ mark solidus => exact piece_chars (.plain mark solidus) ih
    | escape simple =>
      have all : ∀ e ∈ units "\"\\/bfnrt", e ≠ unit 'u' := List.all_iff_forall_prop.mp (by decide +kernel)
      exact piece_chars (.escape (all _ simple)) ih
    | @unicode a i b j c k d l _ _ one two three four =>
      have plain : ∀ u ∈ [a,b,c,d], u ≠ unit '"' ∧ u ≠ unit '\\' := by
        simp only [List.forall_mem_cons]
        exact ⟨(hexDigit_java one).2.1,(hexDigit_java two).2.1,(hexDigit_java three).2.1,(hexDigit_java four).2.1,nofun⟩
      exact piece_chars (.unicode (Nat.le_add_left 4 _) (hex_chars one two three four)) (plain_chars plain ih)

theorem reads_lax (read : Reads (rfc8259 doubles.value true) p s r) (stops : Stops r) : Reads (lax doubles) p s r := by
  induction read with
  | word read =>
    rcases read with ⟨rfl,rfl⟩ | ⟨rfl,rfl⟩ | ⟨rfl,rfl⟩
    · exact .word ⟨_,.inl ⟨rfl,rfl,rfl⟩⟩
    · exact .word ⟨_,.inr (.inl ⟨rfl,rfl,rfl⟩)⟩
    · exact .word ⟨_,.inr (.inr ⟨rfl,rfl,rfl⟩)⟩
  | number read =>
    obtain ⟨text,number,rfl,rfl⟩ := read
    exact number_reads (number_decimal number) (number_numeric number) stops
  | string chars => exact .string (chars_lax chars)
  | emptyList blank => exact .emptyList (blank_lax blank)
  | list _ ih => exact .list (ih stops)
  | emptyMap blank => exact .emptyMap (blank_lax blank)
  | map _ ih => exact .map (ih stops)
  | lastItem before _ after ih =>
    exact .lastItem (blank_lax before) (ih (blank_stops after (stops_plain (by decide)))) (blank_lax after)
  | item before _ after _ ih more =>
    exact .item (blank_lax before) (ih (blank_stops after (stops_plain (by decide)))) (blank_lax after) (more stops)
  | lastMember before key between beside _ after ih =>
    exact .lastMember (blank_lax before) (chars_lax key) (blank_lax between) (blank_lax beside)
      (ih (blank_stops after (stops_plain (by decide)))) (blank_lax after)
  | member before key between beside _ after _ ih more =>
    exact .member (blank_lax before) (chars_lax key) (blank_lax between) (blank_lax beside)
      (ih (blank_stops after (stops_plain (by decide)))) (blank_lax after) (more stops)

theorem document_parsed (document : Document (rfc8259 doubles.value true) s value) : parse doubles s = some value := by
  obtain ⟨t,u,before,read,after⟩ := document
  exact parse_iff.mpr ⟨t,u,blank_lax before,reads_lax read (blank_stops after nofun)⟩

-- Each text has a reading of either kind or of none.
def Kept (doubles : Doubles D) : Phrase D → Text → Text → Prop
  | .value _,s,r => ∃ value, Reads (rfc8259 doubles.value true) (.value value) s r
  | .items _,s,r => ∃ items, Reads (rfc8259 doubles.value true) (.items items) s r
  | .members _,s,r => ∃ members, Reads (rfc8259 doubles.value true) (.members members) s r

theorem blank_kept (blank : Blank (rfc8259 double keeping) s t) : Blank (rfc8259 double true) s t := by
  induction blank with
  | none => exact .none
  | some first _ ih => exact .some first ih

theorem chars_kept (chars : Chars (rfc8259 double keeping) s value r) : ∃ value, Chars (rfc8259 double true) s value r := by
  induction chars with
  | close => exact ⟨_,.close⟩
  | piece first _ ih =>
    obtain ⟨inside,rest⟩ := ih
    cases (first : Piece _ _ _ _) with
    | plain visible mark solidus => exact ⟨_,.piece (Piece.plain visible mark solidus) rest⟩
    | escape simple => exact ⟨_,.piece (Piece.escape simple) rest⟩
    | unicode one two three four => exact ⟨_,.piece (Piece.unicode one two three four) rest⟩

theorem reads_kept (read : Reads (rfc8259 doubles.value keeping) p s r) : Kept doubles p s r := by
  induction read with
  | word read => exact ⟨_,.word read⟩
  | number read => exact ⟨_,.number read⟩
  | string chars =>
    obtain ⟨_,kept⟩ := chars_kept chars
    exact ⟨_,.string kept⟩
  | emptyList blank => exact ⟨_,.emptyList (blank_kept blank)⟩
  | list _ ih =>
    obtain ⟨_,kept⟩ := ih
    exact ⟨_,.list kept⟩
  | emptyMap blank => exact ⟨_,.emptyMap (blank_kept blank)⟩
  | map _ ih =>
    obtain ⟨_,kept⟩ := ih
    exact ⟨_,.map kept⟩
  | lastItem before _ after ih =>
    obtain ⟨_,item⟩ := ih
    exact ⟨_,.lastItem (blank_kept before) item (blank_kept after)⟩
  | item before _ after _ ih more =>
    obtain ⟨_,item⟩ := ih
    obtain ⟨_,rest⟩ := more
    exact ⟨_,.item (blank_kept before) item (blank_kept after) rest⟩
  | lastMember before key between beside _ after ih =>
    obtain ⟨_,item⟩ := ih
    obtain ⟨_,name⟩ := chars_kept key
    exact ⟨_,.lastMember (blank_kept before) name (blank_kept between) (blank_kept beside) item (blank_kept after)⟩
  | member before key between beside _ after _ ih more =>
    obtain ⟨_,item⟩ := ih
    obtain ⟨_,name⟩ := chars_kept key
    obtain ⟨_,rest⟩ := more
    exact ⟨_,.member (blank_kept before) name (blank_kept between) (blank_kept beside) item (blank_kept after) rest⟩

theorem document_kept (document : Document (rfc8259 doubles.value keeping) s value) :
    ∃ kept, Document (rfc8259 doubles.value true) s kept := by
  obtain ⟨t,u,before,read,after⟩ := document
  obtain ⟨kept,reads⟩ := reads_kept read
  exact ⟨kept,t,u,blank_kept before,reads,blank_kept after⟩

theorem blank_suffix {lexicon : Lexicon D} (blank : Blank lexicon s t) : t <:+ s := by
  induction blank with
  | none => exact List.suffix_refl _
  | some _ _ ih => exact ih.trans (List.suffix_cons _ _)

theorem chars_suffix (chars : Chars (rfc8259 double keeping) s value r) : r <:+ s := by
  induction chars with
  | close => exact List.suffix_cons _ _
  | piece first _ ih =>
    cases (first : Piece _ _ _ _) with
    | plain => exact ih.trans (List.suffix_cons _ _)
    | escape => exact ih.trans (List.suffix_append [_,_] _)
    | unicode => exact ih.trans (List.suffix_append [_,_,_,_,_,_] _)

theorem reads_suffix (read : Reads (rfc8259 double keeping) p s r) : r <:+ s := by
  induction read with
  | word read =>
    rcases read with ⟨rfl,_⟩ | ⟨rfl,_⟩ | ⟨rfl,_⟩
    all_goals exact List.suffix_append _ _
  | number read =>
    obtain ⟨text,_,rfl,_⟩ := read
    exact List.suffix_append text _
  | string chars => exact (chars_suffix chars).trans (List.suffix_cons _ _)
  | emptyList blank => exact ((List.suffix_cons _ _).trans (blank_suffix blank)).trans (List.suffix_cons _ _)
  | list _ ih => exact ih.trans (List.suffix_cons _ _)
  | emptyMap blank => exact ((List.suffix_cons _ _).trans (blank_suffix blank)).trans (List.suffix_cons _ _)
  | map _ ih => exact ih.trans (List.suffix_cons _ _)
  | lastItem before _ after ih => exact ((List.suffix_cons _ _).trans (blank_suffix after)).trans (ih.trans (blank_suffix before))
  | item before _ after _ ih more =>
    exact (more.trans ((List.suffix_cons _ _).trans (blank_suffix after))).trans (ih.trans (blank_suffix before))
  | lastMember before key between beside _ after ih =>
    have name := (chars_suffix key).trans ((List.suffix_cons _ _).trans (blank_suffix before))
    have value := (blank_suffix beside).trans ((List.suffix_cons _ _).trans (blank_suffix between))
    exact ((List.suffix_cons _ _).trans (blank_suffix after)).trans (ih.trans (value.trans name))
  | member before key between beside _ after _ ih more =>
    have name := (chars_suffix key).trans ((List.suffix_cons _ _).trans (blank_suffix before))
    have value := (blank_suffix beside).trans ((List.suffix_cons _ _).trans (blank_suffix between))
    exact (more.trans ((List.suffix_cons _ _).trans (blank_suffix after))).trans (ih.trans (value.trans name))

-- No reverse solidus stands before a u.
def Unescaped (s : Text) : Prop := ¬[unit '\\',unit 'u'] <:+: s

theorem unescaped_suffix (unescaped : Unescaped s) (suffix : t <:+ s) : Unescaped t :=
  fun found => unescaped (found.trans suffix.isInfix)

theorem chars_unescaped (chars : Chars (rfc8259 double false) s value r) (unescaped : Unescaped s) :
    Chars (rfc8259 double true) s value r := by
  induction chars with
  | close => exact .close
  | piece first _ ih =>
    cases (first : Piece _ _ _ _) with
    | plain visible mark solidus =>
      exact .piece (Piece.plain visible mark solidus) (ih (unescaped_suffix unescaped (List.suffix_cons _ _)))
    | escape simple =>
      exact .piece (Piece.escape simple) (ih (unescaped_suffix unescaped (List.suffix_append [_,_] _)))
    | unicode => exact absurd (List.prefix_append [_,_] _).isInfix unescaped

theorem reads_unescaped (read : Reads (rfc8259 double false) p s r) (unescaped : Unescaped s) :
    Reads (rfc8259 double true) p s r := by
  induction read with
  | word read => exact .word read
  | number read => exact .number read
  | string chars => exact .string (chars_unescaped chars (unescaped_suffix unescaped (List.suffix_cons _ _)))
  | emptyList blank => exact .emptyList (blank_kept blank)
  | list _ ih => exact .list (ih (unescaped_suffix unescaped (List.suffix_cons _ _)))
  | emptyMap blank => exact .emptyMap (blank_kept blank)
  | map _ ih => exact .map (ih (unescaped_suffix unescaped (List.suffix_cons _ _)))
  | lastItem before _ after ih =>
    exact .lastItem (blank_kept before) (ih (unescaped_suffix unescaped (blank_suffix before))) (blank_kept after)
  | item before item after _ ih more =>
    have first := unescaped_suffix unescaped (blank_suffix before)
    have rest := unescaped_suffix first (((List.suffix_cons _ _).trans (blank_suffix after)).trans (reads_suffix item))
    exact .item (blank_kept before) (ih first) (blank_kept after) (more rest)
  | lastMember before key between beside _ after ih =>
    have name := unescaped_suffix unescaped ((List.suffix_cons _ _).trans (blank_suffix before))
    have colon := unescaped_suffix name ((List.suffix_cons _ _).trans ((blank_suffix between).trans (chars_suffix key)))
    have value := unescaped_suffix colon (blank_suffix beside)
    exact .lastMember (blank_kept before) (chars_unescaped key name) (blank_kept between) (blank_kept beside) (ih value) (blank_kept after)
  | member before key between beside item after _ ih more =>
    have name := unescaped_suffix unescaped ((List.suffix_cons _ _).trans (blank_suffix before))
    have colon := unescaped_suffix name ((List.suffix_cons _ _).trans ((blank_suffix between).trans (chars_suffix key)))
    have value := unescaped_suffix colon (blank_suffix beside)
    have rest := unescaped_suffix value (((List.suffix_cons _ _).trans (blank_suffix after)).trans (reads_suffix item))
    exact .member (blank_kept before) (chars_unescaped key name) (blank_kept between) (blank_kept beside) (ih value) (blank_kept after)
      (more rest)

-- No value is found, or the text is JSON and the digits of its escapes make no
-- difference.
theorem parse_exact_iff (doubles : Doubles D) (s : Text) :
    (((parse doubles s).isSome ↔ ∃ value, Document (rfc8259 doubles.value false) s value) ∧
      ∀ value, Document (rfc8259 doubles.value false) s value → ∃ result, parse doubles s = some result ∧ Equal result value) ↔
    ((¬∃ value t r, Blank (lax doubles) s t ∧ Reads (lax doubles) (.value value) t r) ∨
      (∃ value, Document (rfc8259 doubles.value false) s value) ∧
        ∀ value kept, Document (rfc8259 doubles.value false) s value → Document (rfc8259 doubles.value true) s kept → Equal kept value) := by
  constructor
  · rintro ⟨accepts,agrees⟩
    by_cases found : ∃ value t r, Blank (lax doubles) s t ∧ Reads (lax doubles) (.value value) t r
    · obtain ⟨result,reading⟩ := found
      have parsed := parse_iff.mpr reading
      refine .inr ⟨accepts.mp (Option.isSome_iff_exists.mpr ⟨result,parsed⟩),fun value kept document digits => ?_⟩
      obtain ⟨result,parsed,equal⟩ := agrees value document
      rw [document_parsed digits] at parsed
      cases parsed
      exact equal
    · exact .inl found
  · rintro (refused | ⟨⟨value,document⟩,agree⟩)
    · have never : ∀ value, ¬Document (rfc8259 doubles.value false) s value := by
        intro value document
        obtain ⟨kept,digits⟩ := document_kept document
        exact refused ⟨kept,parse_iff.mp (document_parsed digits)⟩
      refine ⟨⟨fun found => ?_,fun ⟨value,document⟩ => absurd document (never value)⟩,fun value document => absurd document (never value)⟩
      obtain ⟨result,parsed⟩ := Option.isSome_iff_exists.mp found
      exact absurd ⟨result,parse_iff.mp parsed⟩ refused
    · obtain ⟨kept,digits⟩ := document_kept document
      have parsed := document_parsed digits
      refine ⟨⟨fun _ => ⟨value,document⟩,fun _ => Option.isSome_iff_exists.mpr ⟨kept,parsed⟩⟩,fun other another => ?_⟩
      exact ⟨kept,parsed,agree other kept another digits⟩

-- "\u0041" is the text A.
def escapedA : Text := [unit '"',unit '\\',unit 'u',unit '0',unit '0',unit '4',unit '1',unit '"']

theorem escapedA_chars (keeping : Bool) : Document (rfc8259 digits.value keeping) escapedA
    (.string (65 :: if keeping then [unit '0',unit '0',unit '4',unit '1'] else [])) := by
  have nought : JsonGrammar.hexDigit (unit '0') = some 0 := rfl
  have four : JsonGrammar.hexDigit (unit '4') = some 4 := rfl
  have one : JsonGrammar.hexDigit (unit '1') = some 1 := rfl
  have piece : Piece keeping _ _ [unit '"'] := .unicode nought nought four one
  have chars : Chars (rfc8259 digits.value keeping) _ _ [] := .piece piece .close
  rw [List.append_nil] at chars
  exact ⟨escapedA,[],.none,.string chars,.none⟩

theorem escapedA_misread : Document (rfc8259 digits.value false) escapedA (.string [65]) ∧
    ¬∃ result, parse digits escapedA = some result ∧ Equal result (.string [65]) := by
  refine ⟨escapedA_chars false,?_⟩
  rintro ⟨result,parsed,equal⟩
  rw [document_parsed (escapedA_chars true)] at parsed
  cases parsed
  cases equal

end Pezhwan.Java.JsonUtil
