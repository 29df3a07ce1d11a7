import Mathlib.Data.List.Basic

-- Patterns of a text, matched from the left by trying and turning back.
namespace Streams
variable {α β : Type}

inductive Greed where
  | longest | shortest
  deriving DecidableEq, Repr

def Greed.choose : Greed → Option β → Option β → Option β
  | .longest,further,here => further.or here
  | .shortest,further,here => here.or further

-- The run ends here, if it is long enough and the rest of the pattern follows.
def ending (next : List α → Option β) (least : ℕ) (text : List α) : Option (List α × β) :=
  if least = 0 then (next text).map fun found => ([],found) else none

-- The letters of a run and what follows it.
def run (greed : Greed) (kind : α → Bool) (next : List α → Option β) : List α → ℕ → Option (List α × β)
  | [],least => ending next least []
  | c :: text,least =>
    greed.choose ((if kind c then run greed kind next text (least - 1) else none).map fun found => (c :: found.1,found.2))
      (ending next least (c :: text))

-- A run of the text that the rest of the pattern follows.
structure Taken (kind : α → Bool) (next : List α → Option β) (text : List α) (least : ℕ) (taken : List α) (found : β)
    (rest : List α) : Prop where
  whole : text = taken ++ rest
  kinds : ∀ c ∈ taken, kind c
  enough : least ≤ taken.length
  followed : next rest = some found

section
variable {kind : α → Bool} {next : List α → Option β} {least : ℕ} {text taken rest before after : List α} {found : β} {c : α}
  {greed : Greed}

theorem choose_some {further here : Option β} (chosen : greed.choose further here = some found) :
    further = some found ∨ here = some found := by
  cases greed with
  | longest => exact (Option.or_eq_some_iff.mp chosen).imp_right And.right
  | shortest => exact (Option.or_eq_some_iff.mp chosen).symm.imp_left And.right

theorem choose_none {further here : Option β} (chosen : greed.choose further here = none) : further = none ∧ here = none := by
  cases greed with
  | longest => exact Option.or_eq_none_iff.mp chosen
  | shortest => exact (Option.or_eq_none_iff.mp chosen).symm

theorem ending_some (read : ending next least text = some (taken,found)) : Taken kind next text least taken found text := by
  unfold ending at read
  split at read
  · rename_i none_left
    obtain ⟨_,followed,same⟩ := Option.map_eq_some_iff.mp read
    cases same
    exact ⟨rfl,by simp,by simp [none_left],followed⟩
  · cases read

theorem Taken.cons (kept : kind c) (shorter : Taken kind next text (least - 1) taken found rest) :
    Taken kind next (c :: text) least (c :: taken) found rest where
  whole := by rw [shorter.whole,List.cons_append]
  kinds := by simpa [kept] using shorter.kinds
  enough := by have := shorter.enough; simp only [List.length_cons]; omega
  followed := shorter.followed

theorem run_sound (read : run greed kind next text least = some (taken,found)) :
    ∃ rest, Taken kind next text least taken found rest := by
  induction text generalizing least taken with
  | nil => exact ⟨[],ending_some read⟩
  | cons c text ih =>
    rcases choose_some read with further | here
    · obtain ⟨_,tried,same⟩ := Option.map_eq_some_iff.mp further
      cases same
      split at tried
      · rename_i kept
        obtain ⟨rest,shorter⟩ := ih tried
        exact ⟨rest,shorter.cons kept⟩
      · cases tried
    · exact ⟨_,ending_some here⟩

theorem run_complete (taking : Taken kind next text least taken found rest) : run greed kind next text least ≠ none := by
  induction text generalizing least taken with
  | nil =>
    obtain ⟨rfl,rfl⟩ := List.append_eq_nil_iff.mp taking.whole.symm
    simp [run,ending,Nat.le_zero.mp taking.enough,taking.followed]
  | cons c text ih =>
    intro refused
    obtain ⟨further,here⟩ := choose_none refused
    cases taken with
    | nil =>
      rw [ending,if_pos (Nat.le_zero.mp taking.enough),Option.map_eq_none_iff,taking.whole,List.nil_append,taking.followed] at here
      cases here
    | cons d taken =>
      obtain ⟨rfl,rfl⟩ := List.cons.inj taking.whole
      rw [if_pos (taking.kinds c (by simp)),Option.map_eq_none_iff] at further
      have enough := taking.enough
      rw [List.length_cons] at enough
      exact ih ⟨rfl,fun d listed => taking.kinds d (by simp [listed]),by omega,taking.followed⟩ further

theorem run_shortest (read : run .shortest kind next text 0 = some (before ++ after,found)) (whole : text = before ++ after ++ rest)
    (longer : after ≠ []) : next (after ++ rest) = none := by
  induction before generalizing text with
  | nil =>
    cases text with
    | nil => exact absurd (List.append_eq_nil_iff.mp (List.append_eq_nil_iff.mp whole.symm).1).2 longer
    | cons c text =>
      rcases Option.or_eq_some_iff.mp read with here | ⟨here,_⟩
      · rw [ending,if_pos rfl] at here
        obtain ⟨_,_,same⟩ := Option.map_eq_some_iff.mp here
        exact absurd (Prod.mk.inj same).1.symm longer
      · rw [ending,if_pos rfl,Option.map_eq_none_iff,whole] at here
        exact here
  | cons d before ih =>
    cases text with
    | nil => cases whole
    | cons c text =>
      rcases Option.or_eq_some_iff.mp read with here | ⟨_,further⟩
      · rw [ending,if_pos rfl] at here
        obtain ⟨_,_,same⟩ := Option.map_eq_some_iff.mp here
        cases same
      · obtain ⟨found',tried,same⟩ := Option.map_eq_some_iff.mp further
        obtain ⟨letters,rfl⟩ := Prod.mk.inj same
        split at tried
        · have spelled : found'.1 = before ++ after := (List.cons.inj letters).2
          refine ih ?_ (List.cons.inj whole).2
          rw [← spelled]
          exact tried
        · cases tried
end

-- A word as it is, or a run of letters of one kind.
inductive Part (α : Type) where
  | word (letters : List α)
  | run (kind : α → Bool) (least : ℕ) (greed : Greed) (captured : Bool)

abbrev Pattern (α : Type) := List (Part α)

-- What a pattern matches, however its runs are tried.
inductive Matches : Pattern α → List α → List (List α) → Prop
  | done : Matches [] [] []
  | word : Matches more text captures → Matches (.word letters :: more) (letters ++ text) captures
  | run : (∀ c ∈ taken, kind c) → least ≤ taken.length → Matches more text captures →
      Matches (.run kind least greed captured :: more) (taken ++ text) (if captured then taken :: captures else captures)

def Occurs (pattern : Pattern α) (captures : List (List α)) (text : List α) : Prop :=
  ∃ before piece after, text = before ++ piece ++ after ∧ Matches pattern piece captures

section
variable {more : Pattern α} {letters piece : List α} {captures : List (List α)} {kind : α → Bool} {least : ℕ} {greed : Greed}
  {captured : Bool}

@[simp] theorem matches_nil : Matches [] piece captures ↔ piece = [] ∧ captures = [] := by
  constructor
  · intro matched
    cases matched
    exact ⟨rfl,rfl⟩
  · rintro ⟨rfl,rfl⟩
    exact .done

@[simp] theorem matches_word :
    Matches (.word letters :: more) piece captures ↔ ∃ behind, piece = letters ++ behind ∧ Matches more behind captures := by
  constructor
  · intro matched
    cases matched with
    | word matched => exact ⟨_,rfl,matched⟩
  · rintro ⟨behind,rfl,matched⟩
    exact .word matched

@[simp] theorem matches_run : Matches (.run kind least greed captured :: more) piece captures ↔
    ∃ taken behind later, (∀ c ∈ taken, kind c) ∧ least ≤ taken.length ∧ Matches more behind later ∧ piece = taken ++ behind ∧
      captures = if captured then taken :: later else later := by
  constructor
  · intro matched
    cases matched with
    | run kinds enough matched => exact ⟨_,_,_,kinds,enough,matched,rfl,rfl⟩
  · rintro ⟨taken,behind,later,kinds,enough,matched,rfl,rfl⟩
    exact .run kinds enough matched
end

theorem Occurs.behind {pattern : Pattern α} {captures : List (List α)} {rest : List α}
    (occurring : Occurs pattern captures rest) (before : List α) : Occurs pattern captures (before ++ rest) := by
  obtain ⟨skipped,piece,after,rfl,matched⟩ := occurring
  exact ⟨before ++ skipped,piece,after,by simp,matched⟩

variable [DecidableEq α]

-- The captures of a match at the front of the text, and the text behind it.
def front : Pattern α → List α → Option (List (List α) × List α)
  | [],text => some ([],text)
  | .word letters :: more,text => (text.dropPrefix? letters).bind (front more)
  | .run kind least greed captured :: more,text =>
    (Streams.run greed kind (front more) text least).map fun found =>
      (if captured then found.1 :: found.2.1 else found.2.1,found.2.2)

-- The first match, wherever it begins.
def exec (pattern : Pattern α) : List α → Option (List (List α) × List α)
  | [] => front pattern []
  | c :: text => (front pattern (c :: text)).or (exec pattern text)

-- Each match is looked for where the one before it ended.
def execs (pattern : Pattern α) : ℕ → List α → List (List (List α))
  | 0,_ => []
  | fuel + 1,text =>
    match exec pattern text with
    | none => []
    | some found => found.1 :: execs pattern fuel found.2

def matchAll (pattern : Pattern α) (text : List α) : List (List (List α)) := execs pattern (text.length + 1) text

variable {pattern : Pattern α} {text piece rest letters : List α} {captures : List (List α)} {c : α}

theorem dropPrefix_some (dropped : text.dropPrefix? letters = some rest) : text = letters ++ rest := by
  obtain ⟨same,whole,equal⟩ := List.dropPrefix?_eq_some_iff.mp dropped
  rw [whole,eq_of_beq equal]

theorem dropPrefix_append (letters rest : List α) : (letters ++ rest).dropPrefix? letters = some rest :=
  List.dropPrefix?_append_of_beq rest (beq_self_eq_true letters)

theorem front_sound (read : front pattern text = some (captures,rest)) :
    ∃ piece, text = piece ++ rest ∧ Matches pattern piece captures := by
  induction pattern generalizing text captures with
  | nil =>
    cases read
    exact ⟨[],rfl,.done⟩
  | cons part more ih =>
    cases part with
    | word letters =>
      obtain ⟨behind,dropped,continued⟩ := Option.bind_eq_some_iff.mp read
      obtain ⟨piece,rfl,matched⟩ := ih continued
      exact ⟨letters ++ piece,by rw [dropPrefix_some dropped,List.append_assoc],.word matched⟩
    | run kind least greed captured =>
      obtain ⟨⟨taken,found⟩,running,same⟩ := Option.map_eq_some_iff.mp read
      obtain ⟨behind,taking⟩ := run_sound running
      cases same
      obtain ⟨piece,rfl,matched⟩ := ih taking.followed
      exact ⟨taken ++ piece,by rw [taking.whole,List.append_assoc],.run taking.kinds taking.enough matched⟩

theorem front_complete (matched : Matches pattern piece captures) (rest : List α) : front pattern (piece ++ rest) ≠ none := by
  induction matched with
  | done => simp [front]
  | @word more text captures letters _ ih =>
    rw [front,List.append_assoc,dropPrefix_append]
    exact ih
  | @run taken kind least more text captures greed captured kinds enough _ ih =>
    rw [front,List.append_assoc,Ne,Option.map_eq_none_iff]
    obtain ⟨found,followed⟩ := Option.ne_none_iff_exists'.mp ih
    exact run_complete ⟨rfl,kinds,enough,followed⟩

theorem exec_sound (read : exec pattern text = some (captures,rest)) :
    ∃ before piece, text = before ++ piece ++ rest ∧ Matches pattern piece captures ∧
      front pattern (piece ++ rest) = some (captures,rest) ∧
        ∀ skipped behind, before = skipped ++ behind → behind ≠ [] → front pattern (behind ++ piece ++ rest) = none := by
  induction text with
  | nil =>
    obtain ⟨piece,whole,matched⟩ := front_sound read
    refine ⟨[],piece,by simpa using whole,matched,by rw [← whole]; exact read,?_⟩
    intro skipped behind none_ left
    exact absurd (List.append_eq_nil_iff.mp none_.symm).2 left
  | cons c text ih =>
    rcases Option.or_eq_some_iff.mp read with here | ⟨refused,further⟩
    · obtain ⟨piece,whole,matched⟩ := front_sound here
      refine ⟨[],piece,by simpa using whole,matched,by rw [← whole]; exact here,?_⟩
      intro skipped behind none_ left
      exact absurd (List.append_eq_nil_iff.mp none_.symm).2 left
    · obtain ⟨before,piece,rfl,matched,reread,earlier⟩ := ih further
      refine ⟨c :: before,piece,by simp,matched,reread,?_⟩
      intro skipped behind split left
      cases skipped with
      | nil =>
        rw [List.nil_append] at split
        rw [← split]
        exact refused
      | cons d skipped => exact earlier skipped behind (List.cons.inj split).2 left

theorem exec_complete (occurring : Occurs pattern captures text) : exec pattern text ≠ none := by
  obtain ⟨before,piece,after,rfl,matched⟩ := occurring
  have found := front_complete matched after
  intro refused
  induction before with
  | nil =>
    rw [List.nil_append] at refused
    cases whole : piece ++ after with
    | nil => exact found (by rw [whole]; rw [whole] at refused; exact refused)
    | cons c text =>
      rw [whole] at refused
      exact found (by rw [whole]; exact (Option.or_eq_none_iff.mp refused).1)
  | cons c before ih => exact ih (Option.or_eq_none_iff.mp refused).2

-- A pattern that takes some of the text with every match.
def Solid (pattern : Pattern α) : Prop := ∀ captures, ¬Matches pattern [] captures

theorem exec_shrinks (solid : Solid pattern) (read : exec pattern text = some (captures,rest)) : rest.length < text.length := by
  obtain ⟨before,piece,rfl,matched,_,_⟩ := exec_sound read
  cases piece with
  | nil => exact absurd matched (solid captures)
  | cons c piece =>
    simp only [List.length_append,List.length_cons]
    omega

theorem execs_enough (solid : Solid pattern) (one : text.length < n) (two : text.length < m) :
    execs pattern n text = execs pattern m text := by
  induction n generalizing m text with
  | zero => omega
  | succ n ih =>
    cases m with
    | zero => omega
    | succ m =>
      unfold execs
      cases read : exec pattern text with
      | none => rfl
      | some found =>
        have shorter := exec_shrinks solid read
        exact congrArg (found.1 :: ·) (ih (by omega) (by omega))

theorem matchAll_none (read : exec pattern text = none) : matchAll pattern text = [] := by
  rw [matchAll,execs,read]

theorem matchAll_some (solid : Solid pattern) (read : exec pattern text = some (captures,rest)) :
    matchAll pattern text = captures :: matchAll pattern rest := by
  have shorter := exec_shrinks solid read
  rw [matchAll,execs,read]
  exact congrArg (captures :: ·) (execs_enough solid shorter (Nat.lt_succ_self _))

theorem matchAll_front (solid : Solid pattern) (listed : captures ∈ matchAll pattern text) :
    ∃ before piece rest, text = before ++ piece ++ rest ∧ Matches pattern piece captures ∧
      front pattern (piece ++ rest) = some (captures,rest) := by
  induction size : text.length using Nat.strongRecOn generalizing text with
  | ind size ih =>
    cases read : exec pattern text with
    | none =>
      rw [matchAll_none read] at listed
      cases listed
    | some found =>
      obtain ⟨taken,rest⟩ := found
      have shorter := exec_shrinks solid read
      obtain ⟨before,piece,whole,matched,here,_⟩ := exec_sound read
      rw [matchAll_some solid read] at listed
      rcases List.mem_cons.mp listed with rfl | later
      · exact ⟨before,piece,rest,whole,matched,here⟩
      · obtain ⟨skipped,inner,after,split,matched,here⟩ := ih _ (by omega) later rfl
        exact ⟨before ++ piece ++ skipped,inner,after,by simp [whole,split],matched,here⟩

theorem matchAll_sound (solid : Solid pattern) (listed : captures ∈ matchAll pattern text) : Occurs pattern captures text := by
  obtain ⟨before,piece,rest,whole,matched,_⟩ := matchAll_front solid listed
  exact ⟨before,piece,rest,whole,matched⟩

theorem front_shortest {ahead : Pattern α} {kind : α → Bool} (worded : letters ≠ [])
    (read : front (ahead ++ [.run kind 0 .shortest true,.word letters]) text = some (captures,rest)) :
    ∃ content, captures.getLast? = some content ∧ ¬letters <:+: content := by
  induction ahead generalizing text captures with
  | nil =>
    obtain ⟨⟨content,later,left⟩,running,same⟩ := Option.map_eq_some_iff.mp read
    obtain ⟨behind,taking⟩ := run_sound running
    obtain ⟨_,_,continued⟩ := Option.bind_eq_some_iff.mp taking.followed
    cases continued
    cases same
    refine ⟨content,rfl,?_⟩
    rintro ⟨before,after,rfl⟩
    rw [List.append_assoc] at running taking
    have shorter := run_shortest running taking.whole (by simp [worded])
    rw [front,List.append_assoc,dropPrefix_append] at shorter
    cases shorter
  | cons part more ih =>
    cases part with
    | word _ =>
      obtain ⟨_,_,continued⟩ := Option.bind_eq_some_iff.mp read
      exact ih continued
    | run kind' least greed captured =>
      obtain ⟨⟨taken,later,left⟩,running,same⟩ := Option.map_eq_some_iff.mp read
      obtain ⟨behind,taking⟩ := run_sound running
      cases same
      obtain ⟨content,last,without⟩ := ih taking.followed
      refine ⟨content,?_,without⟩
      cases captured with
      | false => exact last
      | true => simp [List.getLast?_cons,last]

-- What begins inside a match captures what the match captures.
def Level (pattern : Pattern α) : Prop :=
  ∀ ⦃piece captures rest before inner captured after⦄, Matches pattern piece captures → Matches pattern inner captured →
    piece ++ rest = before ++ (inner ++ after) → before.length < piece.length → captured = captures

theorem exec_first {before inner after : List α} {captured : List (List α)} (read : exec pattern text = some (captures,rest))
    (whole : text = before ++ (inner ++ after)) (matched : Matches pattern inner captured) :
    ∃ skipped piece between, text = skipped ++ (piece ++ rest) ∧ Matches pattern piece captures ∧ before = skipped ++ between ∧
      piece ++ rest = between ++ (inner ++ after) := by
  obtain ⟨skipped,piece,split,first,_,earlier⟩ := exec_sound read
  rw [List.append_assoc] at split
  rcases List.append_eq_append_iff.mp (split.symm.trans whole) with ⟨between,same,behind⟩ | ⟨early,same,behind⟩
  · exact ⟨skipped,piece,between,split,first,same,behind⟩
  · cases early with
    | nil => exact ⟨skipped,piece,[],split,first,by simpa using same.symm,by simpa using behind.symm⟩
    | cons c early =>
      have refused := earlier before (c :: early) same (by simp)
      rw [List.append_assoc,← behind] at refused
      exact absurd refused (front_complete matched after)

theorem mem_matchAll (solid : Solid pattern) (level : Level pattern) :
    captures ∈ matchAll pattern text ↔ Occurs pattern captures text := by
  refine ⟨matchAll_sound solid,?_⟩
  intro occurring
  induction size : text.length using Nat.strongRecOn generalizing text with
  | ind size ih =>
    obtain ⟨⟨taken,rest⟩,read⟩ := Option.ne_none_iff_exists'.mp (exec_complete occurring)
    have shorter := exec_shrinks solid read
    obtain ⟨before,inner,after,whole,matched⟩ := occurring
    rw [List.append_assoc] at whole
    obtain ⟨skipped,piece,between,_,first,_,same⟩ := exec_first read whole matched
    rw [matchAll_some solid read]
    by_cases inside : between.length < piece.length
    · rw [level first matched same inside]
      exact List.mem_cons_self
    · refine List.mem_cons_of_mem _ (ih _ (by omega) ?_ rfl)
      rcases List.append_eq_append_iff.mp same with ⟨further,longer,behind⟩ | ⟨further,longer,behind⟩
      · exact ⟨further,inner,after,by rw [behind,List.append_assoc],matched⟩
      · have none_ : further = [] := by
          have sizes := congrArg List.length longer
          rw [List.length_append] at sizes
          exact List.length_eq_zero_iff.mp (by omega)
        rw [none_,List.nil_append] at behind
        exact ⟨[],inner,after,by rw [← behind,List.nil_append],matched⟩

-- Fields joined by a mark.
section
variable {mark : α}

theorem splitOn_intercalate_eq (first : List α) (rest : List (List α)) :
    ([mark].intercalate (first :: rest)).splitOn mark = (first :: rest).flatMap (List.splitOn mark) := by
  induction rest generalizing first with
  | nil => simp
  | cons second rest ih =>
    have joined : [mark].intercalate (first :: second :: rest) = first ++ mark :: [mark].intercalate (second :: rest) := by
      simp [List.intercalate_cons_cons]
    rw [joined,List.splitOn_append_cons_self,ih]
    rfl

theorem splitOn_length_pos (field : List α) : 1 ≤ (field.splitOn mark).length :=
  List.length_pos_of_ne_nil (List.splitOn_ne_nil mark field)

theorem splitOn_single_iff (field : List α) : (field.splitOn mark).length = 1 ↔ mark ∉ field := by
  constructor
  · intro single listed
    obtain ⟨before,after,rfl⟩ := List.append_of_mem listed
    have one := @splitOn_length_pos α _ mark before
    have two := @splitOn_length_pos α _ mark after
    rw [List.splitOn_append_cons_self,List.length_append] at single
    omega
  · intro clean
    rw [List.splitOn_eq_singleton clean]
    rfl

theorem pieces_iff (fields : List (List α)) :
    (fields.flatMap (List.splitOn mark)).length = fields.length ↔ ∀ field ∈ fields, mark ∉ field := by
  induction fields with
  | nil => simp
  | cons field rest ih =>
    have least : ∀ others : List (List α), others.length ≤ (others.flatMap (List.splitOn mark)).length := by
      intro others
      induction others with
      | nil => simp
      | cons other others ih =>
        have one := @splitOn_length_pos α _ mark other
        simp only [List.flatMap_cons,List.length_append,List.length_cons]
        omega
    have one := @splitOn_length_pos α _ mark field
    have more := least rest
    simp only [List.flatMap_cons,List.length_append,List.length_cons,List.mem_cons,forall_eq_or_imp]
    rw [← ih,← splitOn_single_iff]
    omega

theorem pieces_clean {fields : List (List α)} (clean : ∀ field ∈ fields, mark ∉ field) : fields.flatMap (List.splitOn mark) = fields := by
  induction fields with
  | nil => rfl
  | cons field rest ih =>
    rw [List.flatMap_cons,List.splitOn_eq_singleton (clean field (by simp)),ih fun other listed => clean other (by simp [listed])]
    rfl

end

end Streams
