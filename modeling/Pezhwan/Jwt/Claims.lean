import Mathlib.Algebra.Order.Floor.Ring
import Mathlib.Data.Rat.Floor
import Pezhwan.Keys.Tokens

-- The claim checks of a token, by this package and by jsonwebtoken, over every
-- JSON value a claim can have.
namespace Pezhwan.Jwt
open Keys (VerifyError JwtSigningAlgorithm)

inductive ClaimValue (ν : Type) where
  | null
  | bool (value : Bool)
  | number (value : ν)
  | string (value : String)
  | array (items : List (ClaimValue ν))
  | object (fields : List (String × ClaimValue ν))

abbrev Claims (ν : Type) := List (String × ClaimValue ν)

-- The number operations of the language that the checks use.
structure Arithmetic (ν : Type) where
  subtract : ν → ν → ν
  add : ν → ν → ν
  floor : ν → ν
  below : ν → ν → Bool
  atLeast : ν → ν → Bool
  truthy : ν → Bool

-- Without rounding, NaN and infinities.
def exact : Arithmetic ℚ where
  subtract a b := a - b
  add a b := a + b
  floor a := (⌊a⌋ : ℤ)
  below a b := a < b
  atLeast a b := b ≤ a
  truthy a := a ≠ 0

inductive Expectation (α : Type) where
  | one (value : α)
  | many (values : List α)

def Expectation.toList : Expectation α → List α
  | .one value => [value]
  | .many values => values

section
variable {ν : Type}

inductive Audience (ν : Type) where
  | text (value : String)
  | pattern (source : String) (test : Option (ClaimValue ν) → Bool)

def Audience.source : Audience ν → String
  | .text value => value
  | .pattern source _ => source

structure VerifyOptions (ν : Type) where
  issuer : Option (Expectation String)
  audience : Option (Expectation (Audience ν))
  maxAge : Option ν

-- value === text
def isText (value : Option (ClaimValue ν)) (text : String) : Bool :=
  match value with
  | some (.string other) => other = text
  | _ => false

-- As includes compares: a pattern is no text.
def Audience.equals (value : Option (ClaimValue ν)) : Audience ν → Bool
  | .text expected => isText value expected
  | .pattern _ _ => false

def Audience.admits (value : Option (ClaimValue ν)) : Audience ν → Bool
  | .text expected => isText value expected
  | .pattern _ test => test value

def numberOf (claims : Claims ν) (name : String) : Option ν :=
  match claims.lookup name with
  | some (.number value) => some value
  | _ => none

def targets (claims : Claims ν) : List (Option (ClaimValue ν)) :=
  match claims.lookup "aud" with
  | some (.array items) => items.map some
  | other => [other]

def issuerInvalid (separator : String) (expected : List String) : VerifyError :=
  .JsonWebTokenError ("jwt issuer invalid. expected: " ++ separator.intercalate expected)

def audienceInvalid (separator : String) (expected : List (Audience ν)) : VerifyError :=
  .JsonWebTokenError ("jwt audience invalid. expected: " ++ separator.intercalate (expected.map Audience.source))

variable (arith : Arithmetic ν)

-- A number of seconds; texts are left to the legacy callers.
def secondsOf (value : ν) : ν := arith.floor value

def checkAge (nowSec : ν) (claims : Claims ν) (options : VerifyOptions ν) : Except VerifyError Unit :=
  match options.maxAge,numberOf claims "iat" with
  | some maxAge,some iat =>
    if arith.below (secondsOf arith maxAge) (arith.subtract nowSec iat) then .error (.TokenExpiredError "maxAge exceeded")
    else .ok ()
  | _,_ => .ok ()

def checkIssuer (claims : Claims ν) (options : VerifyOptions ν) : Except VerifyError Unit :=
  match options.issuer with
  | some issuer =>
    if issuer.toList.any (isText (claims.lookup "iss")) then .ok () else .error (issuerInvalid ", " issuer.toList)
  | none => .ok ()

def checkAudience (claims : Claims ν) (options : VerifyOptions ν) : Except VerifyError Unit :=
  match options.audience with
  | some audience =>
    if (targets claims).any fun value => audience.toList.any (Audience.equals value) then .ok ()
    else .error (audienceInvalid ", " audience.toList)
  | none => .ok ()

def assertJwtClaims (nowSec : ν) (claims : Claims ν) (options : VerifyOptions ν) : Except VerifyError Unit :=
  if (numberOf claims "exp").any (arith.atLeast nowSec) then .error (.TokenExpiredError "jwt expired")
  else if (numberOf claims "nbf").any (arith.below nowSec) then .error (.NotBeforeError "jwt not active")
  else do
    checkAge arith nowSec claims options
    checkIssuer claims options
    checkAudience claims options

-- jsonwebtoken, which is not in the repository, as its documentation has it. With
-- `skipsEmpty` an empty text and a maxAge of zero count as not given.
structure Library where
  skipsEmpty : Bool

namespace Library
variable (library : Library)

-- A time claim that is there has to be a number.
def time (claims : Claims ν) (name : String) (fails : ν → Bool) (e : VerifyError) : Except VerifyError Unit :=
  match claims.lookup name with
  | none => .ok ()
  | some (.number value) => if fails value then .error e else .ok ()
  | some _ => .error (.JsonWebTokenError s!"invalid {name} value")

def countsIssuer : Expectation String → Bool
  | .one value => !(library.skipsEmpty && value = "")
  | .many _ => true

def countsAudience : Expectation (Audience ν) → Bool
  | .one (.text value) => !(library.skipsEmpty && value = "")
  | _ => true

def countsAge (maxAge : ν) : Bool := !library.skipsEmpty || arith.truthy maxAge

def audience (claims : Claims ν) (options : VerifyOptions ν) : Except VerifyError Unit :=
  match options.audience.filter library.countsAudience with
  | some audience =>
    if (targets claims).any fun value => audience.toList.any (Audience.admits value) then .ok ()
    else .error (audienceInvalid " or " audience.toList)
  | none => .ok ()

def issuer (claims : Claims ν) (options : VerifyOptions ν) : Except VerifyError Unit :=
  match options.issuer.filter library.countsIssuer with
  | some issuer =>
    if issuer.toList.any (isText (claims.lookup "iss")) then .ok () else .error (issuerInvalid "," issuer.toList)
  | none => .ok ()

def age (nowSec : ν) (claims : Claims ν) (options : VerifyOptions ν) : Except VerifyError Unit :=
  match options.maxAge.filter (library.countsAge arith),numberOf claims "iat" with
  | some maxAge,some iat =>
    if arith.atLeast nowSec (arith.add iat maxAge) then .error (.TokenExpiredError "maxAge exceeded") else .ok ()
  | some _,none => .error (.JsonWebTokenError "iat required when maxAge is specified")
  | none,_ => .ok ()

def verifyClaims (nowSec : ν) (claims : Claims ν) (options : VerifyOptions ν) : Except VerifyError Unit := do
  time claims "nbf" (arith.below nowSec) (.NotBeforeError "jwt not active")
  time claims "exp" (arith.atLeast nowSec) (.TokenExpiredError "jwt expired")
  library.audience claims options
  library.issuer claims options
  library.age arith nowSec claims options

end Library

-- What verifyToken does with the claims once the signature is good.
def claimsChecked (library : Library) (algorithm : JwtSigningAlgorithm) (nowSec : ν) (claims : Claims ν)
    (options : VerifyOptions ν) : Except VerifyError Unit :=
  match algorithm with
  | .hybridRS256 | .hybridES256 | .pure _ | .classical .EdDSA => assertJwtClaims arith nowSec claims options
  | .classical _ => library.verifyClaims arith nowSec claims options

end
end Pezhwan.Jwt
