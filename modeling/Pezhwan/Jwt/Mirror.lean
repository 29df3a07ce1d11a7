import Pezhwan.Jwt.Claims

-- Where the two claim checks part.
namespace Pezhwan.Jwt
open Keys (VerifyError JwtSigningAlgorithm)

section
variable {ν : Type} (arith : Arithmetic ν) (library : Library) (now : ν) (claims : Claims ν) (options : VerifyOptions ν)

-- The grounds for a rejection, one for each check of either side.
def expired : Bool := (numberOf claims "exp").any (arith.atLeast now)

def early : Bool := (numberOf claims "nbf").any (arith.below now)

def malformed (name : String) : Bool := (claims.lookup name).isSome && (numberOf claims name).isNone

def overAge : Bool := options.maxAge.any fun maxAge =>
  (numberOf claims "iat").any fun iat => arith.below (secondsOf arith maxAge) (arith.subtract now iat)

def outlived : Bool := (options.maxAge.filter (library.countsAge arith)).any fun maxAge =>
  (numberOf claims "iat").any fun iat => arith.atLeast now (arith.add iat maxAge)

def undated : Bool := (options.maxAge.filter (library.countsAge arith)).isSome && (numberOf claims "iat").isNone

def misissued : Bool := options.issuer.any fun issuer => !issuer.toList.any (isText (claims.lookup "iss"))

def misissuedFor : Bool := (options.issuer.filter library.countsIssuer).any fun issuer =>
  !issuer.toList.any (isText (claims.lookup "iss"))

def misdirected : Bool := options.audience.any fun audience =>
  !(targets claims).any fun value => audience.toList.any (Audience.equals value)

def misdirectedFor : Bool := (options.audience.filter library.countsAudience).any fun audience =>
  !(targets claims).any fun value => audience.toList.any (Audience.admits value)

-- Grounds that both sides have.
def shared : Bool :=
  expired arith now claims || early arith now claims ||
    (overAge arith now claims options && outlived arith library now claims options) ||
    (misissued claims options && misissuedFor library claims options) ||
    (misdirected claims options && misdirectedFor library claims options)

-- Those of assertJwtClaims alone: an age that the library lets pass, an option
-- that the library takes for absent, a pattern that matches an audience.
def ownHere : Bool :=
  (overAge arith now claims options && !outlived arith library now claims options) ||
    (misissued claims options && !misissuedFor library claims options) ||
    (misdirected claims options && !misdirectedFor library claims options)

-- Those of the library alone.
def ownThere : Bool :=
  malformed claims "exp" || malformed claims "nbf" || undated arith library claims options ||
    (outlived arith library now claims options && !overAge arith now claims options)

end

section
variable {ν : Type} {arith : Arithmetic ν} {library : Library} {now : ν} {claims : Claims ν} {options : VerifyOptions ν}

theorem then_ok {first second : Except VerifyError Unit} :
    (first >>= fun _ => second) = .ok () ↔ first = .ok () ∧ second = .ok () := by
  cases first with
  | error e => exact iff_of_false (fun same => by cases same) (fun both => by cases both.1)
  | ok done => exact (and_iff_right rfl).symm

theorem unless_ok {condition : Bool} {e : VerifyError} :
    (if condition then .ok () else .error e : Except VerifyError Unit) = .ok () ↔ (!condition) = false := by
  cases condition <;> simp

theorem checkAge_ok : checkAge arith now claims options = .ok () ↔ overAge arith now claims options = false := by
  unfold checkAge overAge
  cases options.maxAge with
  | none => simp
  | some maxAge =>
    cases numberOf claims "iat" with
    | none => simp
    | some iat => simp

theorem checkIssuer_ok : checkIssuer claims options = .ok () ↔ misissued claims options = false := by
  unfold checkIssuer misissued
  cases options.issuer with
  | none => simp
  | some issuer => exact unless_ok

theorem checkAudience_ok : checkAudience claims options = .ok () ↔ misdirected claims options = false := by
  unfold checkAudience misdirected
  cases options.audience with
  | none => simp
  | some audience => exact unless_ok

theorem time_ok (name : String) (fails : ν → Bool) (e : VerifyError) :
    Library.time claims name fails e = .ok () ↔ malformed claims name = false ∧ (numberOf claims name).any fails = false := by
  unfold Library.time malformed numberOf
  rcases claims.lookup name with _ | value
  · simp
  · cases value with
    | number value => simp
    | _ => simp

theorem issuer_ok : library.issuer claims options = .ok () ↔ misissuedFor library claims options = false := by
  unfold Library.issuer misissuedFor
  cases options.issuer.filter library.countsIssuer with
  | none => simp
  | some issuer => exact unless_ok

theorem audience_ok : library.audience claims options = .ok () ↔ misdirectedFor library claims options = false := by
  unfold Library.audience misdirectedFor
  cases options.audience.filter library.countsAudience with
  | none => simp
  | some audience => exact unless_ok

theorem age_ok : library.age arith now claims options = .ok () ↔
    undated arith library claims options = false ∧ outlived arith library now claims options = false := by
  unfold Library.age undated outlived
  cases options.maxAge.filter (library.countsAge arith) with
  | none => simp
  | some maxAge =>
    cases numberOf claims "iat" with
    | none => simp
    | some iat => simp

theorem assertJwtClaims_ok : assertJwtClaims arith now claims options = .ok () ↔
    expired arith now claims = false ∧ early arith now claims = false ∧ overAge arith now claims options = false ∧
      misissued claims options = false ∧ misdirected claims options = false := by
  unfold assertJwtClaims
  change (if expired arith now claims then _ else if early arith now claims then _ else _) = Except.ok () ↔ _
  cases expired arith now claims with
  | true => simp
  | false =>
    cases early arith now claims with
    | true => simp
    | false =>
      simp only [Bool.false_eq_true,if_false,true_and]
      rw [then_ok,then_ok,checkAge_ok,checkIssuer_ok,checkAudience_ok]

theorem verifyClaims_ok : library.verifyClaims arith now claims options = .ok () ↔
    (malformed claims "nbf" = false ∧ early arith now claims = false) ∧
      (malformed claims "exp" = false ∧ expired arith now claims = false) ∧ misdirectedFor library claims options = false ∧
      misissuedFor library claims options = false ∧ undated arith library claims options = false ∧
      outlived arith library now claims options = false := by
  unfold Library.verifyClaims
  rw [then_ok,then_ok,then_ok,then_ok,time_ok,time_ok,audience_ok,issuer_ok,age_ok]
  rfl

theorem misissuedFor_misissued (refused : misissuedFor library claims options = true) : misissued claims options = true := by
  obtain ⟨issuer,given,unmatched⟩ := (Option.any_eq_true _ _).mp refused
  exact (Option.any_eq_true _ _).mpr ⟨issuer,(Option.filter_eq_some_iff.mp given).1,unmatched⟩

theorem equals_admits {value : Option (ClaimValue ν)} {audience : Audience ν} (same : audience.equals value = true) :
    audience.admits value = true := by
  cases audience with
  | text expected => exact same
  | pattern source test => cases same

theorem misdirectedFor_misdirected (refused : misdirectedFor library claims options = true) :
    misdirected claims options = true := by
  obtain ⟨audience,given,unmatched⟩ := (Option.any_eq_true _ _).mp refused
  refine (Option.any_eq_true _ _).mpr ⟨audience,(Option.filter_eq_some_iff.mp given).1,?_⟩
  rw [Bool.not_eq_true',List.any_eq_false] at unmatched ⊢
  intro value listed matched
  apply unmatched value listed
  obtain ⟨one,expected,same⟩ := List.any_eq_true.mp matched
  exact List.any_eq_true.mpr ⟨one,expected,equals_admits same⟩

theorem parted (own other : Bool) : own = false ↔ (own && other) = false ∧ (own && !other) = false := by
  cases own <;> cases other <;> simp

theorem here_ok : assertJwtClaims arith now claims options = .ok () ↔
    shared arith library now claims options = false ∧ ownHere arith library now claims options = false := by
  rw [assertJwtClaims_ok]
  rw [parted (overAge arith now claims options) (outlived arith library now claims options),
    parted (misissued claims options) (misissuedFor library claims options),
    parted (misdirected claims options) (misdirectedFor library claims options)]
  unfold shared ownHere
  simp only [Bool.or_eq_false_iff]
  tauto

theorem there_ok : library.verifyClaims arith now claims options = .ok () ↔
    shared arith library now claims options = false ∧ ownThere arith library now claims options = false := by
  have issuer : misissuedFor library claims options = (misissued claims options && misissuedFor library claims options) := by
    cases refused : misissuedFor library claims options with
    | false => simp
    | true => simp [misissuedFor_misissued refused]
  have audience : misdirectedFor library claims options =
      (misdirected claims options && misdirectedFor library claims options) := by
    cases refused : misdirectedFor library claims options with
    | false => simp
    | true => simp [misdirectedFor_misdirected refused]
  rw [verifyClaims_ok,issuer,audience,parted (outlived arith library now claims options) (overAge arith now claims options),
    Bool.and_comm (outlived arith library now claims options) (overAge arith now claims options)]
  unfold shared ownThere
  simp only [Bool.or_eq_false_iff]
  tauto

end

section
variable {ν : Type} (arith : Arithmetic ν) (library : Library) (now : ν) (claims : Claims ν) (options : VerifyOptions ν)

-- The verdict is the same under every algorithm exactly when both sides have a
-- ground of rejection in common, or each has one of its own, or none has.
theorem claims_checked_iff : (∀ one two, claimsChecked arith library one now claims options = .ok () ↔
      claimsChecked arith library two now claims options = .ok ()) ↔
    (shared arith library now claims options = true ∨
      ownHere arith library now claims options = ownThere arith library now claims options) := by
  have same : (assertJwtClaims arith now claims options = .ok () ↔ library.verifyClaims arith now claims options = .ok ()) ↔
      (shared arith library now claims options = true ∨
        ownHere arith library now claims options = ownThere arith library now claims options) := by
    rw [@here_ok _ _ library,there_ok]
    cases shared arith library now claims options <;> cases ownHere arith library now claims options <;>
      cases ownThere arith library now claims options <;> simp
  rw [← same]
  constructor
  · intro agree
    exact agree (.classical .EdDSA) (.classical .RS256)
  · intro agree one two
    have each : ∀ algorithm, claimsChecked arith library algorithm now claims options = .ok () ↔
        assertJwtClaims arith now claims options = .ok () := by
      intro algorithm
      unfold claimsChecked
      split
      · exact Iff.rfl
      · exact Iff.rfl
      · exact Iff.rfl
      · exact Iff.rfl
      · exact agree.symm
    exact (each one).trans (each two).symm

end

-- The claims of an access token as JSON has them: the checks over JSON are those
-- over the typed claims.
def rendered (claims : Keys.TokenClaims) : Claims ℚ :=
  (claims.iss.toList.map fun iss => ("iss",.string iss) : Claims ℚ) ++ ([("aud",.array (claims.aud.map .string))] : Claims ℚ) ++
    (claims.iat.toList.map fun iat => ("iat",.number iat) : Claims ℚ) ++
    (claims.exp.toList.map fun exp => ("exp",.number exp) : Claims ℚ) ++
    (claims.nbf.toList.map fun nbf => ("nbf",.number nbf) : Claims ℚ)

def renderedOptions (options : Keys.VerifyOptions) : VerifyOptions ℚ :=
  ⟨some (.one options.issuer),some (.one (.text options.audience)),some options.maxAge⟩

theorem rendered_lookup (claims : Keys.TokenClaims) :
    (rendered claims).lookup "iss" = claims.iss.map .string ∧ (rendered claims).lookup "aud" = some (.array (claims.aud.map .string)) ∧
      (rendered claims).lookup "iat" = claims.iat.map (.number ·) ∧ (rendered claims).lookup "exp" = claims.exp.map (.number ·) ∧
        (rendered claims).lookup "nbf" = claims.nbf.map (.number ·) := by
  unfold rendered
  cases claims.iss <;> cases claims.iat <;> cases claims.exp <;> cases claims.nbf <;> simp [List.lookup_cons]

theorem rendered_number (claims : Keys.TokenClaims) : numberOf (rendered claims) "iat" = claims.iat.map (Int.cast : ℤ → ℚ) ∧
    numberOf (rendered claims) "exp" = claims.exp.map (Int.cast : ℤ → ℚ) ∧
      numberOf (rendered claims) "nbf" = claims.nbf.map (Int.cast : ℤ → ℚ) := by
  obtain ⟨_,_,iat,exp,nbf⟩ := rendered_lookup claims
  unfold numberOf
  rw [iat,exp,nbf]
  cases claims.iat <;> cases claims.exp <;> cases claims.nbf <;> simp

theorem rendered_accepted (now : ℤ) (claims : Keys.TokenClaims) (options : Keys.VerifyOptions) :
    assertJwtClaims exact (now : ℚ) (rendered claims) (renderedOptions options) = .ok () ↔
      Keys.assertJwtClaims now claims options = .ok () := by
  rw [assertJwtClaims_ok]
  obtain ⟨iat,exp,nbf⟩ := rendered_number claims
  obtain ⟨iss,aud,_⟩ := rendered_lookup claims
  have past : expired exact (now : ℚ) (rendered claims) = claims.exp.any (fun exp => decide (exp ≤ now)) := by
    unfold expired
    rw [exp]
    cases claims.exp <;> simp [exact]
  have soon : early exact (now : ℚ) (rendered claims) = claims.nbf.any (fun nbf => decide (now < nbf)) := by
    unfold early
    rw [nbf]
    cases claims.nbf <;> simp [exact]
  have old : overAge exact (now : ℚ) (rendered claims) (renderedOptions options) =
      claims.iat.any (fun iat => decide (options.maxAge < now - iat)) := by
    unfold overAge renderedOptions
    rw [iat]
    cases claims.iat with
    | none => rfl
    | some iat =>
      simp only [Option.any_some,Option.map_some,exact,secondsOf,Int.floor_intCast]
      norm_cast
  have issuer : misissued (rendered claims) (renderedOptions options) = decide (claims.iss ≠ some options.issuer) := by
    unfold misissued renderedOptions
    simp only [Option.any_some,Expectation.toList,iss]
    cases claims.iss <;> simp [isText]
  have audience : misdirected (rendered claims) (renderedOptions options) = decide (options.audience ∉ claims.aud) := by
    unfold misdirected renderedOptions targets
    simp only [Option.any_some,Expectation.toList,aud]
    rw [Bool.eq_iff_iff]
    simp only [Audience.equals,isText,List.any_cons,List.any_nil,Bool.or_false,List.any_map,Function.comp_def,
      Bool.not_eq_true',List.any_eq_false,decide_eq_true_eq,List.map_map]
    constructor
    · intro each listed
      exact each _ listed rfl
    · intro absent x listed same
      exact absent (same ▸ listed)
  rw [past,soon,old,issuer,audience]
  unfold Keys.assertJwtClaims
  simp only [decide_eq_false_iff_not,not_not]
  split
  · simp_all
  · split
    · simp_all
    · split
      · simp_all
      · split
        · simp_all
        · split
          · simp_all
          · simp_all

theorem boundary_second : ∃ (claims : Claims ℚ) (options : VerifyOptions ℚ), ∀ library : Library,
    claimsChecked exact library (.classical .EdDSA) 1900 claims options = .ok () ∧
      claimsChecked exact library (.classical .RS256) 1900 claims options ≠ .ok () := by
  refine ⟨[("iat",.number 1000)],⟨none,none,some 900⟩,?_⟩
  intro library
  constructor
  · exact assertJwtClaims_ok.mpr (by decide +kernel)
  · intro accepted
    have verdict := (verifyClaims_ok.mp accepted).2.2.2.2.2
    cases library with
    | mk skipsEmpty => cases skipsEmpty <;> exact absurd verdict (by decide +kernel)

end Pezhwan.Jwt
