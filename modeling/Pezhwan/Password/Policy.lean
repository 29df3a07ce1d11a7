import Pezhwan.Auth.Services

-- The password policy on the code units of a string, whichever they are.
namespace Pezhwan.Password
open Auth (PasswordPolicy DEFAULT_PASSWORD_POLICY isLowercase isUppercase isDigit isLineTerminator codeUnits)

-- Buffer.byteLength(s, 'utf-8'): a surrogate without its other half counts as U+FFFD.
def isHigh (unit : UInt16) : Bool := 0xD800 ≤ unit && unit < 0xDC00
def isLow (unit : UInt16) : Bool := 0xDC00 ≤ unit && unit < 0xE000
def unitBytes (unit : UInt16) : ℕ := if unit < 0x80 then 1 else if unit < 0x800 then 2 else 3

def byteLength : List UInt16 → ℕ
  | [] => 0
  | [unit] => unitBytes unit
  | unit :: next :: rest =>
    if isHigh unit && isLow next then 4 + byteLength rest else unitBytes unit + byteLength (next :: rest)

-- /(.)\1{3,}/ at the front of a text and at its first place: the captured group.
def captureAt : List UInt16 → Option (List UInt16)
  | [] => none
  | c :: rest => if !isLineTerminator c.toNat && (List.replicate 3 c).isPrefixOf rest then some [c] else none

def matchRepeated : List UInt16 → Option (List UInt16)
  | [] => none
  | c :: rest => (captureAt (c :: rest)).or (matchRepeated rest)

structure PasswordValidationResult where
  ok : Bool
  errors : List String
  deriving DecidableEq, Repr

def repeatedRuns : String := "Password must not contain long repeated runs."

-- The length of the captured group is what is held against the policy.
def tooRepeated (password : List UInt16) (policy : PasswordPolicy) : Bool :=
  (matchRepeated password).any fun captured => policy.maxRepeatedRun ≤ captured.length

-- /[^A-Za-z0-9]/
def isSymbol (unit : ℕ) : Bool := !isLowercase unit && !isUppercase unit && !isDigit unit

def rule (broken : Bool) (message : String) : List String := if broken then [message] else []

-- The rules but the last.
def ruleErrors (password : List UInt16) (policy : PasswordPolicy) : List String :=
  rule (policy.maxBytes < byteLength password) ("Password must be at most " ++ toString policy.maxBytes ++ " bytes (UTF-8).") ++
  rule (password.length < policy.minLength) ("Password must be at least " ++ toString policy.minLength ++ " characters.") ++
  rule (policy.maxLength < password.length) ("Password must be at most " ++ toString policy.maxLength ++ " characters.") ++
  rule (policy.requireLowercase && !password.any (isLowercase ·.toNat)) "Password must contain a lowercase letter." ++
  rule (policy.requireUppercase && !password.any (isUppercase ·.toNat)) "Password must contain an uppercase letter." ++
  rule (policy.requireDigit && !password.any (isDigit ·.toNat)) "Password must contain a digit." ++
  rule (policy.requireSymbol && !password.any (isSymbol ·.toNat)) "Password must contain a symbol."

def evaluatePassword (password : List UInt16) (policy : PasswordPolicy) : PasswordValidationResult :=
  let errors := ruleErrors password policy ++ rule (tooRepeated password policy) repeatedRuns
  ⟨errors.length = 0,errors⟩

-- A run of `least` or more of one character.
def HasRun (least : ℕ) (password : List UInt16) : Prop := ∃ c, List.replicate least c <:+: password

theorem captureAt_some (found : captureAt text = some captured) :
    ∃ c rest, text = c :: rest ∧ captured = [c] ∧ isLineTerminator c.toNat = false ∧ List.replicate 4 c <+: text := by
  cases text with
  | nil => cases found
  | cons c rest =>
    simp only [captureAt] at found
    split at found
    · rename_i run
      obtain ⟨kind,ahead⟩ := Bool.and_eq_true_iff.mp run
      cases found
      refine ⟨c,rest,rfl,rfl,by simpa using kind,?_⟩
      exact List.prefix_cons_inj c |>.mpr (List.isPrefixOf_iff_prefix.mp ahead)
    · cases found

theorem captureAt_run (kind : isLineTerminator c.toNat = false) (ahead : List.replicate 4 c <+: text) : captureAt text = some [c] := by
  cases text with
  | nil => cases List.prefix_nil.mp ahead
  | cons d rest =>
    obtain ⟨same,behind⟩ := List.cons_prefix_cons.mp ahead
    subst same
    simp only [captureAt]
    rw [if_pos]
    rw [Bool.and_eq_true_iff]
    exact ⟨by simpa using kind,List.isPrefixOf_iff_prefix.mpr behind⟩

theorem matchRepeated_some (found : matchRepeated text = some captured) :
    ∃ c, captured = [c] ∧ isLineTerminator c.toNat = false ∧ List.replicate 4 c <:+: text := by
  induction text with
  | nil => cases found
  | cons d rest ih =>
    rcases Option.or_eq_some_iff.mp found with here | ⟨_,later⟩
    · obtain ⟨c,_,_,captured,kind,ahead⟩ := captureAt_some here
      exact ⟨c,captured,kind,ahead.isInfix⟩
    · obtain ⟨c,captured,kind,inside⟩ := ih later
      exact ⟨c,captured,kind,inside.trans (List.suffix_cons d rest).isInfix⟩

theorem matchRepeated_run (kind : isLineTerminator c.toNat = false) (inside : List.replicate 4 c <:+: text) :
    matchRepeated text ≠ none := by
  induction text with
  | nil => cases List.infix_nil.mp inside
  | cons d rest ih =>
    intro refused
    obtain ⟨here,later⟩ := Option.or_eq_none_iff.mp refused
    rcases List.infix_cons_iff.mp inside with ahead | behind
    · rw [captureAt_run kind ahead] at here
      cases here
    · exact ih behind later

theorem tooRepeated_iff (password : List UInt16) (policy : PasswordPolicy) :
    tooRepeated password policy = true ↔
      policy.maxRepeatedRun ≤ 1 ∧ ∃ c, isLineTerminator c.toNat = false ∧ List.replicate 4 c <:+: password := by
  unfold tooRepeated
  cases found : matchRepeated password with
  | none =>
    refine ⟨fun on => by simp at on,?_⟩
    rintro ⟨_,c,kind,inside⟩
    exact absurd found (matchRepeated_run kind inside)
  | some captured =>
    obtain ⟨c,rfl,kind,inside⟩ := matchRepeated_some found
    simp only [Option.any_some,List.length_singleton,decide_eq_true_eq]
    exact ⟨fun low => ⟨low,c,kind,inside⟩,fun both => both.1⟩

-- A kind of character is asked for and none of it is there.
def Lacking (required : Bool) (kind : ℕ → Bool) (password : List UInt16) : Prop :=
  required = true ∧ ∀ u ∈ password, kind u.toNat = false

-- One of the other rules of the policy is broken.
def OtherwiseRefused (password : List UInt16) (policy : PasswordPolicy) : Prop :=
  policy.maxBytes < byteLength password ∨ password.length < policy.minLength ∨ policy.maxLength < password.length ∨
  Lacking policy.requireLowercase isLowercase password ∨ Lacking policy.requireUppercase isUppercase password ∨
  Lacking policy.requireDigit isDigit password ∨ Lacking policy.requireSymbol isSymbol password

theorem rule_nil {broken : Bool} : rule broken message = [] ↔ broken = false := by
  cases broken <;> simp [rule]

theorem lacking_iff (required : Bool) (kind : ℕ → Bool) (password : List UInt16) :
    (required && !password.any (kind ·.toNat)) = false ↔ ¬Lacking required kind password := by
  cases required <;> simp [Lacking]

theorem ruleErrors_nil (password : List UInt16) (policy : PasswordPolicy) :
    ruleErrors password policy = [] ↔ ¬OtherwiseRefused password policy := by
  unfold ruleErrors OtherwiseRefused
  simp only [List.append_eq_nil_iff,rule_nil,lacking_iff,decide_eq_false_iff_not,not_or,and_assoc]

theorem rule_unlike {broken : Bool} {message : String} (differs : message.toList[14]? ≠ some 'n') :
    repeatedRuns ∉ rule broken message := by
  intro listed
  unfold rule at listed
  split at listed
  · rw [← List.mem_singleton.mp listed] at differs
    exact differs rfl
  · cases listed

theorem bounded_unlike (front value back : String) (other : front.toList[14]? = some 'b') :
    (front ++ value ++ back).toList[14]? ≠ some 'n' := by
  have inside := (List.getElem?_eq_some_iff.mp other).1
  rw [String.toList_append,String.toList_append,List.append_assoc,List.getElem?_append_left inside,other]
  decide

theorem ruleErrors_unlike (password : List UInt16) (policy : PasswordPolicy) : repeatedRuns ∉ ruleErrors password policy := by
  unfold ruleErrors
  simp only [List.mem_append,not_or]
  exact ⟨⟨⟨⟨⟨⟨rule_unlike (bounded_unlike _ _ _ (by decide)),rule_unlike (bounded_unlike _ _ _ (by decide))⟩,
    rule_unlike (bounded_unlike _ _ _ (by decide))⟩,rule_unlike (by decide)⟩,rule_unlike (by decide)⟩,rule_unlike (by decide)⟩,
    rule_unlike (by decide)⟩

theorem ok_iff (password : List UInt16) (policy : PasswordPolicy) :
    (evaluatePassword password policy).ok = true ↔ ¬OtherwiseRefused password policy ∧ tooRepeated password policy = false := by
  simp only [evaluatePassword,decide_eq_true_eq,List.length_eq_zero_iff,List.append_eq_nil_iff,rule_nil,ruleErrors_nil]

theorem repeated_iff (password : List UInt16) (policy : PasswordPolicy) :
    repeatedRuns ∈ (evaluatePassword password policy).errors ↔ tooRepeated password policy = true := by
  simp only [evaluatePassword,List.mem_append,ruleErrors_unlike,false_or]
  cases tooRepeated password policy <;> simp [rule]

-- No password with a run of the policy's length passes, and only such a password is refused for it.
def RunsRefused (password : List UInt16) (policy : PasswordPolicy) : Prop :=
  ((evaluatePassword password policy).ok = true → ¬HasRun policy.maxRepeatedRun password) ∧
    (repeatedRuns ∈ (evaluatePassword password policy).errors → HasRun policy.maxRepeatedRun password)

theorem runs_refused_iff {policy : PasswordPolicy} (bound : 2 ≤ policy.maxRepeatedRun) (password : List UInt16) :
    RunsRefused password policy ↔ ¬HasRun policy.maxRepeatedRun password ∨ OtherwiseRefused password policy := by
  have off : tooRepeated password policy = false := by
    by_contra on
    obtain ⟨low,_⟩ := (tooRepeated_iff password policy).mp (Bool.not_eq_false _ ▸ on)
    omega
  have silent : repeatedRuns ∉ (evaluatePassword password policy).errors := by
    rw [repeated_iff,off]
    exact Bool.false_ne_true
  have passes : (evaluatePassword password policy).ok = true ↔ ¬OtherwiseRefused password policy := by
    rw [ok_iff,off]
    exact and_iff_left rfl
  unfold RunsRefused
  rw [passes]
  constructor
  · rintro ⟨free,_⟩
    by_cases refused : OtherwiseRefused password policy
    · exact .inr refused
    · exact .inl (free refused)
  · intro either
    refine ⟨?_,fun reported => absurd reported silent⟩
    intro passed
    rcases either with free | refused
    · exact free
    · exact absurd refused passed

def unitsOf (text : String) : List UInt16 := (codeUnits text).map UInt16.ofNat

-- The policy as the engine's model has it, which reads texts of whole characters.
def charUnits (c : Char) : List ℕ :=
  if c.toNat < 0x10000 then [c.toNat]
  else [0xD800 + (c.toNat - 0x10000) / 0x400,0xDC00 + (c.toNat - 0x10000) % 0x400]

theorem char_cases (c : Char) : (c.toNat < 0xD800 ∨ 0xDFFF < c.toNat ∧ c.toNat < 0x110000) := c.valid

theorem charUnits_lt (c : Char) : ∀ u ∈ charUnits c, u < 65536 := by
  have valid := char_cases c
  unfold charUnits
  split
  · simpa using ‹_›
  · intro u listed
    simp only [List.mem_cons,List.not_mem_nil,or_false] at listed
    omega

theorem unitsOf_toNat (text : String) : (unitsOf text).map UInt16.toNat = codeUnits text := by
  unfold unitsOf
  rw [List.map_map]
  refine (List.map_congr_left ?_).trans (List.map_id _)
  intro u listed
  obtain ⟨c,_,inside⟩ := List.mem_flatMap.mp listed
  simp only [Function.comp,UInt16.toNat_ofNat',id]
  exact Nat.mod_eq_of_lt (charUnits_lt c u inside)

theorem any_units (kind : ℕ → Bool) (text : String) : (unitsOf text).any (kind ·.toNat) = (codeUnits text).any kind := by
  rw [← unitsOf_toNat,List.any_map]
  rfl

theorem byteLength_char (c : Char) (rest : List UInt16) :
    byteLength ((charUnits c).map UInt16.ofNat ++ rest) = c.utf8Size + byteLength rest := by
  have valid := char_cases c
  have size : c.utf8Size = if c.toNat < 0x80 then 1 else if c.toNat < 0x800 then 2 else if c.toNat < 0x10000 then 3 else 4 := by
    simp only [Char.utf8Size,UInt32.le_iff_toNat_le,Char.toNat]
    simp only [UInt32.toNat_ofNatLT]
    split_ifs <;> omega
  unfold charUnits
  split
  · rename_i small
    have number : (UInt16.ofNat c.toNat).toNat = c.toNat := by
      rw [UInt16.toNat_ofNat']
      omega
    have whole : isHigh (UInt16.ofNat c.toNat) = false := by
      rw [isHigh,Bool.and_eq_false_iff,decide_eq_false_iff_not,decide_eq_false_iff_not,UInt16.le_iff_toNat_le,
        UInt16.lt_iff_toNat_lt,number]
      change ¬0xD800 ≤ _ ∨ ¬_ < 0xDC00
      omega
    have bytes : unitBytes (UInt16.ofNat c.toNat) = c.utf8Size := by
      simp only [unitBytes,size,UInt16.lt_iff_toNat_lt,number]
      change (if _ < 0x80 then _ else if _ < 0x800 then _ else _) = _
      split_ifs <;> omega
    cases rest with
    | nil => simp [byteLength,bytes]
    | cons next rest => simp [byteLength,bytes,whole]
  · rename_i large
    have high : isHigh (UInt16.ofNat (0xD800 + (c.toNat - 0x10000) / 0x400)) = true := by
      rw [isHigh,Bool.and_eq_true_iff,decide_eq_true_eq,decide_eq_true_eq,UInt16.le_iff_toNat_le,UInt16.lt_iff_toNat_lt,
        UInt16.toNat_ofNat']
      change 0xD800 ≤ _ ∧ _ < 0xDC00
      omega
    have low : isLow (UInt16.ofNat (0xDC00 + (c.toNat - 0x10000) % 0x400)) = true := by
      rw [isLow,Bool.and_eq_true_iff,decide_eq_true_eq,decide_eq_true_eq,UInt16.le_iff_toNat_le,UInt16.lt_iff_toNat_lt,
        UInt16.toNat_ofNat']
      change 0xDC00 ≤ _ ∧ _ < 0xE000
      omega
    have four : c.utf8Size = 4 := by
      rw [size]
      split_ifs <;> omega
    simp only [List.map_cons,List.map_nil,List.cons_append,List.nil_append,byteLength,high,low,Bool.and_self,if_true,four]

theorem byteLength_units (chars : List Char) :
    byteLength ((chars.flatMap charUnits).map UInt16.ofNat) = (String.ofList chars).utf8ByteSize := by
  induction chars with
  | nil => rfl
  | cons c chars ih =>
    have text : String.ofList (c :: chars) = String.singleton c ++ String.ofList chars := by
      apply String.toList_injective
      simp
    rw [List.flatMap_cons,List.map_append,byteLength_char,ih,text,String.utf8ByteSize_append,String.utf8ByteSize_singleton]

theorem repeated_units (text : List UInt16) : Auth.hasRepeatedRun (text.map UInt16.toNat) = (matchRepeated text).isSome := by
  induction text with
  | nil => rfl
  | cons a rest ih =>
    rcases rest with _ | ⟨b,_ | ⟨c,_ | ⟨d,rest⟩⟩⟩
    · simp [Auth.hasRepeatedRun,matchRepeated,captureAt,List.replicate]
    · simp [Auth.hasRepeatedRun,matchRepeated,captureAt,List.isPrefixOf,List.replicate]
    · simp [Auth.hasRepeatedRun,matchRepeated,captureAt,List.isPrefixOf,List.replicate]
    · have here : (captureAt (a :: b :: c :: d :: rest)).isSome =
          (!isLineTerminator a.toNat && a.toNat = b.toNat && b.toNat = c.toNat && c.toNat = d.toNat) := by
        rw [captureAt]
        rw [apply_ite Option.isSome]
        cases isLineTerminator a.toNat <;> simp [List.isPrefixOf,UInt16.toNat_inj]
        grind
      rw [matchRepeated,Option.isSome_or,← ih,here]
      rfl

theorem evaluatePassword_text (text : String) (policy : PasswordPolicy) :
    (evaluatePassword (unitsOf text) policy).errors = Auth.evaluatePassword text policy := by
  have bytes : byteLength (unitsOf text) = text.utf8ByteSize := by
    have same := byteLength_units text.toList
    rwa [String.ofList_toList] at same
  have size : (unitsOf text).length = (codeUnits text).length := List.length_map _
  have runs : tooRepeated (unitsOf text) policy = (Auth.hasRepeatedRun (codeUnits text) && decide (policy.maxRepeatedRun ≤ 1)) := by
    rw [← unitsOf_toNat,repeated_units,tooRepeated]
    cases found : matchRepeated (unitsOf text) with
    | none => rfl
    | some captured =>
      obtain ⟨c,rfl,_⟩ := matchRepeated_some found
      rfl
  simp only [evaluatePassword,ruleErrors,Auth.evaluatePassword,rule,bytes,size,any_units,runs,decide_eq_true_eq]
  rfl

theorem runs_refused_iff_short : 2 ≤ DEFAULT_PASSWORD_POLICY.maxRepeatedRun ∧
    (RunsRefused (unitsOf "aaaa") DEFAULT_PASSWORD_POLICY ↔
      ¬HasRun DEFAULT_PASSWORD_POLICY.maxRepeatedRun (unitsOf "aaaa") ∨ OtherwiseRefused (unitsOf "aaaa") DEFAULT_PASSWORD_POLICY) :=
  ⟨by decide,runs_refused_iff (by decide) _⟩

theorem long_run_accepted :
    (evaluatePassword (unitsOf "Passssss1") DEFAULT_PASSWORD_POLICY).ok = true ∧
      HasRun DEFAULT_PASSWORD_POLICY.maxRepeatedRun (unitsOf "Passssss1") ∧
      ¬∀ policy password, 2 ≤ policy.maxRepeatedRun → RunsRefused password policy := by
  have passed : (evaluatePassword (unitsOf "Passssss1") DEFAULT_PASSWORD_POLICY).ok = true := by decide +kernel
  have run : HasRun DEFAULT_PASSWORD_POLICY.maxRepeatedRun (unitsOf "Passssss1") :=
    ⟨115,unitsOf "Pa",unitsOf "ss1",by decide +kernel⟩
  refine ⟨passed,run,?_⟩
  intro all
  exact (all _ _ (by decide)).1 passed run

end Pezhwan.Password
