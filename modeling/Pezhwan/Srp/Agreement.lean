import Mathlib.Data.Int.ModEq
import Mathlib.Tactic.Ring
import Pezhwan.Numeric.Bytes
import Pezhwan.Numeric.ModPow

-- The SRP functions of the crypto package. Texts in hexadecimal are lists of
-- characters; the hash is a parameter.
namespace Pezhwan.Srp
open Numeric

def N_HEX : List String := [
  "FFFFFFFFFFFFFFFFC90FDAA22168C234C4C6628B80DC1CD1",
  "29024E088A67CC74020BBEA63B139B22514A08798E3404DD",
  "EF9519B3CD3A431B302B0A6DF25F14374FE1356D6D51C245",
  "E485B576625E7EC6F44C42E9A637ED6B0BFF5CB6F406B7ED",
  "EE386BFB5A899FA5ADF98E4E27349F329F7BBDF55F07CFE7",
  "D651E27B931BAE88F35CF3B8A9ABBF617A16D2EE15508AF8",
  "C5F244DC5345EE09F1B9E5D49C5319D7226B07637C5E1814",
  "C0E7C83F00C0FFD8219CE45590668985D19B3507CD14A587",
  "33E1CA224D96036720A16637E454F4A32C77B88D4D9A0152",
  "C54191E10745692089E66B707E46A879DC7E4BB38A7ABBBB",
  "487B0D6E6B83E895932BCBCD26B1CF5C1F1E14AD06F13E69",
  "A0D70157F71A7C3F5D16D607144F998E13B9728D6F2D4EB7",
  "A328916C2C8A38F07C8D661E2FA08F024B45D777E19E8E55",
  "BC3F7C2A3C2F3594B7D7C3D0E32088E5AD16E558094807B6",
  "92E0A0977C63A8E5E7D727061A3368BE8B2D89E63C48D2B5",
  "1D6F3A125F6A7A7D7F7E45820DB50EBB5A20187D1E2A1AF0",
  "C37D7AFEA01B1AF0F535B2658C127F60A828F250A1B9D693",
  "AF67A8D507E0E1D3A839A2897807E23C2F4C57C4B7E44A98",
  "C5C421D1C1A1B4E5A8C0E566F8A0E4B87D2B52C8C6FB5000"]

structure SRPParams where
  N : Nat
  g : Nat

def params : SRPParams := ⟨(readHex (N_HEX.flatMap String.toList)).getD 0,2⟩

-- The modulus by its lines, as numbers: the kernel would decode each character.
def groups : List ℕ := [
  0xFFFFFFFFFFFFFFFFC90FDAA22168C234C4C6628B80DC1CD1,
  0x29024E088A67CC74020BBEA63B139B22514A08798E3404DD,
  0xEF9519B3CD3A431B302B0A6DF25F14374FE1356D6D51C245,
  0xE485B576625E7EC6F44C42E9A637ED6B0BFF5CB6F406B7ED,
  0xEE386BFB5A899FA5ADF98E4E27349F329F7BBDF55F07CFE7,
  0xD651E27B931BAE88F35CF3B8A9ABBF617A16D2EE15508AF8,
  0xC5F244DC5345EE09F1B9E5D49C5319D7226B07637C5E1814,
  0xC0E7C83F00C0FFD8219CE45590668985D19B3507CD14A587,
  0x33E1CA224D96036720A16637E454F4A32C77B88D4D9A0152,
  0xC54191E10745692089E66B707E46A879DC7E4BB38A7ABBBB,
  0x487B0D6E6B83E895932BCBCD26B1CF5C1F1E14AD06F13E69,
  0xA0D70157F71A7C3F5D16D607144F998E13B9728D6F2D4EB7,
  0xA328916C2C8A38F07C8D661E2FA08F024B45D777E19E8E55,
  0xBC3F7C2A3C2F3594B7D7C3D0E32088E5AD16E558094807B6,
  0x92E0A0977C63A8E5E7D727061A3368BE8B2D89E63C48D2B5,
  0x1D6F3A125F6A7A7D7F7E45820DB50EBB5A20187D1E2A1AF0,
  0xC37D7AFEA01B1AF0F535B2658C127F60A828F250A1B9D693,
  0xAF67A8D507E0E1D3A839A2897807E23C2F4C57C4B7E44A98,
  0xC5C421D1C1A1B4E5A8C0E566F8A0E4B87D2B52C8C6FB5000
]

set_option maxRecDepth 4000 in
theorem N_HEX_eq : N_HEX = groups.map fun line => String.ofList ((padStart 48 (hexOf line)).map Char.toUpper) := by rfl

theorem params_N : params.N = groups.foldl (fun value line => value * 16 ^ 48 + line) 0 := by
  rw [params,N_HEX_eq,List.flatMap_map]
  simp only [String.toList_ofList]
  decide +kernel

theorem modulus_wide : 4 < params.N := by
  rw [params_N]
  decide +kernel

theorem modulus_large : 1 < params.N := Nat.lt_trans (by decide) modulus_wide

abbrev Hex := List Char

abbrev Hash := Bytes → Bytes

-- BigInt('0x' + text)
def bigIntOf (text : Hex) : Except String Nat :=
  match readHex text with
  | some value => .ok value
  | none => .error "Cannot convert to a BigInt"

def bytesToBigInt (buf : Bytes) : Nat := numberOfBytes buf

-- The padding reaches 256 bytes; a longer number has as many digits as it has.
def bigIntToHex (n : Nat) (byteLen : Nat) : Hex := padStart (byteLen * 2) (hexOf n)

def wide (n : Nat) : Hex := bigIntToHex n 256

def hexToBuffer (hex : Hex) : Bytes := bytesOfHex hex

def utf8 (text : String) : Bytes := text.toUTF8.data.toList

section
variable (sha256 : Hash)

def calculatePasswordHash (username password : String) (salt : Bytes) (N g : Nat) : Bytes :=
  let innerHash := sha256 (utf8 (username ++ ":" ++ password))
  sha256 (hexToBuffer (wide N) ++ hexToBuffer (bigIntToHex g 1) ++ salt ++ innerHash)

-- The base may be negative; % takes the sign of the dividend.
def modPow (base : Int) (exp mod : Nat) : Nat :=
  squareMultiply mod exp ((base.tmod mod + mod).tmod mod).toNat 1

structure Verifier where
  verifier : Hex
  salt : Hex

-- The salt is 16 random bytes unless the caller asks for another number.
def generateVerifier (username password : String) (salt : Bytes) : Verifier :=
  let x := bytesToBigInt (calculatePasswordHash sha256 username password salt params.N params.g)
  ⟨wide (modPow params.g x params.N),hexOfBytes salt⟩

structure SRPServerChallenge where
  B : Hex
  salt : Hex
  sessionId : Hex

structure ServerSecret where
  b : Nat
  B : Nat

-- `b` and the bytes of a missing session id are random.
def generateServerChallenge (salt : Hex) (sessionId : Option Hex) (b : Nat) (bytes : Bytes) :
    SRPServerChallenge × ServerSecret :=
  let B := params.g * modPow params.g b params.N % params.N
  (⟨wide B,salt,sessionId.getD (hexOfBytes bytes)⟩,⟨b,B⟩)

structure SRPServerProof where
  M2 : Hex
  sessionKey : Hex

def scrambler (A B : Nat) : Nat := bytesToBigInt (sha256 (hexToBuffer (wide A) ++ hexToBuffer (wide B)))

-- H(H(N) xor H(g) || H(salt) || A || B || K)
def clientProof (salt A B K : Bytes) : Bytes :=
  let mixed := List.zipWith (· ^^^ ·) (sha256 (hexToBuffer (wide params.N))) (sha256 (hexToBuffer (bigIntToHex params.g 1)))
  sha256 (mixed ++ sha256 salt ++ A ++ B ++ K)

def processClientChallenge (clientA verifier : Hex) (serverSecret : ServerSecret) (_username : String) (salt _sessionId : Hex) :
    Except String SRPServerProof := do
  let v ← bigIntOf verifier
  let A ← bigIntOf clientA
  if A % params.N = 0 then .error "SRP: Client public value A is zero"
  else
    let u := scrambler sha256 A serverSecret.B
    if u = 0 then .error "SRP: Computed scrambling parameter u is zero"
    else
      let S := modPow ((A * modPow v u params.N % params.N : Nat) : Int) serverSecret.b params.N
      let K := sha256 (hexToBuffer (wide S))
      let M1 := clientProof sha256 (hexToBuffer salt) (hexToBuffer (wide A)) (hexToBuffer (wide serverSecret.B)) K
      let M2 := sha256 (hexToBuffer (wide A) ++ M1 ++ K)
      .ok ⟨hexOfBytes M2,hexOfBytes K⟩

def verifyServerProof (clientA clientM1 serverM2 sessionKey : Hex) : Bool :=
  let expectedM2 := sha256 (hexToBuffer clientA ++ hexToBuffer clientM1 ++ hexToBuffer sessionKey)
  if (hexToBuffer serverM2).length ≠ expectedM2.length then false else hexToBuffer serverM2 = expectedM2

def computeClientProof (_username : String) (salt clientA serverB sessionKey : Hex) : Hex :=
  hexOfBytes (clientProof sha256 (hexToBuffer salt) (hexToBuffer clientA) (hexToBuffer serverB) (hexToBuffer sessionKey))

structure SRPClientSession where
  a : Nat
  A : Nat
  sessionKey : Hex

def initiateClient (a : Nat) : Hex × SRPClientSession :=
  let A := modPow params.g a params.N
  (wide A,⟨a,A,[]⟩)

structure SRPClientProof where
  M1 : Hex
  sessionKey : Hex

-- The proof, and the session with its key.
def deriveClientSession (session : SRPClientSession) (username password : String) (salt serverB : Hex) :
    Except String (SRPClientProof × SRPClientSession) := do
  let B ← bigIntOf serverB
  if B % params.N = 0 then .error "SRP: Server public value B is zero"
  else
    let u := scrambler sha256 session.A B
    let x := bytesToBigInt (calculatePasswordHash sha256 username password (hexToBuffer salt) params.N params.g)
    let S := modPow ((B : Int) - (modPow params.g x params.N * u % params.N : Nat)) (session.a + u * x) params.N
    let K := sha256 (hexToBuffer (wide S))
    let M1 := computeClientProof sha256 username salt (wide session.A) serverB (hexOfBytes K)
    .ok (⟨M1,hexOfBytes K⟩,{session with sessionKey := hexOfBytes K})

end

theorem tmod_emod (z : ℤ) (positive : 0 < m) : (z.tmod m + m).tmod m = z % m := by
  have low := Int.lt_tmod_of_pos z positive
  rw [Int.tmod_eq_emod_of_nonneg (by omega),Int.add_emod_right,Int.tmod_def,Int.sub_mul_emod_self_left]

theorem modPow_eq (base : ℤ) (exp : ℕ) (large : 1 < mod) : (modPow base exp mod : ℤ) = base ^ exp % mod := by
  have positive : (0 : ℤ) < mod := by omega
  unfold modPow
  rw [squareMultiply_one _ _ _ large,tmod_emod _ positive]
  push_cast
  rw [Int.toNat_of_nonneg (Int.emod_nonneg _ (by omega))]
  exact (Int.mod_modEq base mod).pow exp

theorem modPow_residue (base : ℤ) (exp : ℕ) (large : 1 < mod) :
    (modPow base exp mod : ℤ) = base ^ exp % mod ∧ modPow base exp mod < mod := by
  have residue := modPow_eq base exp large
  have below : base ^ exp % (mod : ℤ) < mod := Int.emod_lt_of_pos _ (by omega)
  refine ⟨residue,?_⟩
  rw [← residue] at below
  exact_mod_cast below

theorem modPow_residue_negative : (modPow (-2) 3 5 : ℤ) = (-2) ^ 3 % 5 ∧ modPow (-2) 3 5 < 5 := modPow_residue (-2) 3 (by decide)

theorem modPow_nat (base exp : ℕ) (large : 1 < mod) : modPow base exp mod = base ^ exp % mod := by
  have same := modPow_eq base exp large
  exact_mod_cast same

-- The public values and the exponents, as the four functions compute them.
def publicA (a : ℕ) : ℕ := params.g ^ a % params.N

def publicB (b : ℕ) : ℕ := params.g ^ (b + 1) % params.N

def exponentX (sha256 : Hash) (username password : String) (salt : Bytes) : ℕ :=
  bytesToBigInt (calculatePasswordHash sha256 username password salt params.N params.g)

def scrambling (sha256 : Hash) (a b : ℕ) : ℕ := scrambler sha256 (publicA a) (publicB b)

-- The secrets: the server raises g to (a + ux)b, the client raises what is left
-- of B when u times the verifier is taken away.
def serverSecret (a b x u : ℕ) : ℕ := params.g ^ ((a + u * x) * b) % params.N

def clientSecret (a b x u : ℕ) : ℕ :=
  (((params.g : ℤ) ^ (b + 1) - u * (params.g : ℤ) ^ x) ^ (a + u * x) % params.N).toNat

def keyOf (sha256 : Hash) (secret : ℕ) : Bytes := sha256 (hexToBuffer (wide secret))

theorem initiate_A (a : ℕ) : modPow params.g a params.N = publicA a := modPow_nat _ _ modulus_large

theorem challenge_B (b : ℕ) : params.g * modPow params.g b params.N % params.N = publicB b := by
  rw [modPow_nat _ _ modulus_large,Nat.mul_mod_mod,← Nat.pow_succ']
  rfl

theorem server_S (a b x u : ℕ) :
    modPow ((publicA a * modPow (params.g ^ x % params.N : ℕ) u params.N % params.N : ℕ) : ℤ) b params.N =
      serverSecret a b x u := by
  rw [modPow_nat _ _ modulus_large,modPow_nat _ _ modulus_large]
  have inner : publicA a * ((params.g ^ x % params.N) ^ u % params.N) % params.N ≡
      params.g ^ (a + u * x) [MOD params.N] := by
    refine (Nat.mod_modEq _ _).trans ?_
    rw [pow_add,mul_comm u x,pow_mul]
    exact (Nat.mod_modEq _ _).mul ((Nat.mod_modEq _ _).trans ((Nat.mod_modEq _ _).pow u))
  have power := inner.pow b
  rw [← pow_mul] at power
  exact power

theorem difference_congr (N g b x u : ℕ) :
    ((g ^ (b + 1) % N : ℕ) : ℤ) - (g ^ x % N * u % N : ℕ) ≡ (g : ℤ) ^ (b + 1) - u * (g : ℤ) ^ x [ZMOD N] := by
  apply Int.ModEq.sub
  · push_cast
    exact Int.mod_modEq _ _
  · push_cast
    refine (Int.mod_modEq _ _).trans ?_
    rw [mul_comm (u : ℤ)]
    exact (Int.mod_modEq _ _).mul_right _

theorem client_S (a b x u : ℕ) :
    modPow ((publicB b : ℤ) - (modPow params.g x params.N * u % params.N : ℕ)) (a + u * x) params.N =
      clientSecret a b x u := by
  have value := modPow_eq ((publicB b : ℤ) - (modPow params.g x params.N * u % params.N : ℕ)) (a + u * x) modulus_large
  have base : (publicB b : ℤ) - (modPow params.g x params.N * u % params.N : ℕ) ≡
      (params.g : ℤ) ^ (b + 1) - u * (params.g : ℤ) ^ x [ZMOD params.N] := by
    rw [modPow_nat _ _ modulus_large]
    exact difference_congr params.N params.g b x u
  unfold clientSecret
  rw [← base.pow (a + u * x),← value,Int.toNat_natCast]

theorem bigIntOf_wide (n : ℕ) : bigIntOf (wide n) = .ok n := by
  unfold bigIntOf wide bigIntToHex
  rw [readHex_padStart]

section
variable (sha256 : Hash) (username password : String) (salt : Bytes) (a b : ℕ) (sessionId : Option Hex) (bytes : Bytes)

def challengeOf : SRPServerChallenge × ServerSecret :=
  generateServerChallenge (generateVerifier sha256 username password salt).salt sessionId b bytes

-- Each side run on what the other has sent.
def serverSide : Except String SRPServerProof :=
  let registered := generateVerifier sha256 username password salt
  let challenge := challengeOf sha256 username password salt b sessionId bytes
  processClientChallenge sha256 (initiateClient a).1 registered.verifier challenge.2 username challenge.1.salt
    challenge.1.sessionId

def clientSide : Except String (SRPClientProof × SRPClientSession) :=
  let challenge := challengeOf sha256 username password salt b sessionId bytes
  deriveClientSession sha256 (initiateClient a).2 username password challenge.1.salt challenge.1.B

-- The proof that both sides make of a key.
def proofOf (K : Bytes) : Bytes :=
  clientProof sha256 salt (hexToBuffer (wide (publicA a))) (hexToBuffer (wide (publicB b))) K

def answerOf (K : Bytes) : Bytes := sha256 (hexToBuffer (wide (publicA a)) ++ proofOf sha256 salt a b K ++ K)

variable {sha256 username password salt a b}

theorem server_side (scrambled : scrambling sha256 a b ≠ 0) (nonzero : publicA a % params.N ≠ 0) :
    serverSide sha256 username password salt a b sessionId bytes =
      let K := keyOf sha256 (serverSecret a b (exponentX sha256 username password salt) (scrambling sha256 a b))
      .ok ⟨hexOfBytes (answerOf sha256 salt a b K),hexOfBytes K⟩ := by
  unfold serverSide challengeOf generateServerChallenge generateVerifier processClientChallenge initiateClient
  dsimp only
  rw [bigIntOf_wide,bigIntOf_wide,challenge_B b,initiate_A a,modPow_nat params.g (bytesToBigInt _) modulus_large]
  change (if publicA a % params.N = 0 then _ else if scrambling sha256 a b = 0 then _ else _) = _
  rw [if_neg nonzero,if_neg scrambled]
  have secret := server_S a b (exponentX sha256 username password salt) (scrambling sha256 a b)
  unfold exponentX at secret
  unfold scrambling at secret ⊢
  rw [secret]
  unfold hexToBuffer
  rw [bytesOfHex_hexOfBytes]
  rfl

theorem client_side (nonzero : publicB b % params.N ≠ 0) :
    clientSide sha256 username password salt a b sessionId bytes =
      let K := keyOf sha256 (clientSecret a b (exponentX sha256 username password salt) (scrambling sha256 a b))
      .ok (⟨hexOfBytes (proofOf sha256 salt a b K),hexOfBytes K⟩,⟨a,publicA a,hexOfBytes K⟩) := by
  unfold clientSide challengeOf generateServerChallenge generateVerifier deriveClientSession initiateClient
  dsimp only
  rw [bigIntOf_wide,challenge_B b,initiate_A a]
  change (if publicB b % params.N = 0 then _ else _) = _
  rw [if_neg nonzero]
  have secret := client_S a b (exponentX sha256 username password salt) (scrambling sha256 a b)
  unfold exponentX at secret
  unfold scrambling at secret ⊢
  unfold hexToBuffer at *
  rw [bytesOfHex_hexOfBytes,secret]
  unfold computeClientProof hexToBuffer
  rw [bytesOfHex_hexOfBytes,bytesOfHex_hexOfBytes]
  rfl

end

-- Both sides end with one key, and the client accepts the server's proof.
def Agreed (sha256 : Hash) (username password : String) (salt : Bytes) (a b : ℕ) (sessionId : Option Hex) (bytes : Bytes) : Prop :=
  ∃ server client session, serverSide sha256 username password salt a b sessionId bytes = .ok server ∧
    clientSide sha256 username password salt a b sessionId bytes = .ok (client,session) ∧
    client.sessionKey = server.sessionKey ∧
    verifyServerProof sha256 (initiateClient a).1 client.M1 server.M2 client.sessionKey = true

-- The two secrets, g^((a+ux)b) and (g^(b+1) - u g^x)^(a+ux) modulo N, are written
-- as bytes of one hash.
def Coincide (sha256 : Hash) (username password : String) (salt : Bytes) (a b : ℕ) : Prop :=
  let x := exponentX sha256 username password salt
  let u := scrambling sha256 a b
  keyOf sha256 (clientSecret a b x u) = keyOf sha256 (serverSecret a b x u)

theorem coincide_at {sha256 : Hash} {username password : String} {salt : Bytes} {a b x u : ℕ}
    (exponent : exponentX sha256 username password salt = x) (scrambled : scrambling sha256 a b = u) :
    Coincide sha256 username password salt a b ↔ keyOf sha256 (clientSecret a b x u) = keyOf sha256 (serverSecret a b x u) := by
  rw [← exponent,← scrambled]
  rfl

theorem verify_answer (sha256 : Hash) (salt : Bytes) (a b : ℕ) (K : Bytes) :
    verifyServerProof sha256 (initiateClient a).1 (hexOfBytes (proofOf sha256 salt a b K))
      (hexOfBytes (answerOf sha256 salt a b K)) (hexOfBytes K) = true := by
  unfold verifyServerProof initiateClient
  dsimp only
  rw [initiate_A a]
  unfold hexToBuffer
  rw [bytesOfHex_hexOfBytes,bytesOfHex_hexOfBytes,bytesOfHex_hexOfBytes]
  have same : answerOf sha256 salt a b K =
      sha256 (bytesOfHex (wide (publicA a)) ++ proofOf sha256 salt a b K ++ K) := rfl
  rw [same]
  simp

theorem agreed_coincide {sha256 : Hash} {username password : String} {salt : Bytes} {a b : ℕ} {sessionId : Option Hex}
    {bytes : Bytes} (scrambled : scrambling sha256 a b ≠ 0) (nonzeroA : publicA a % params.N ≠ 0)
    (nonzeroB : publicB b % params.N ≠ 0) (agreed : Agreed sha256 username password salt a b sessionId bytes) :
    Coincide sha256 username password salt a b := by
  obtain ⟨server,client,session,served,derived,same,_⟩ := agreed
  rw [server_side sessionId bytes scrambled nonzeroA] at served
  rw [client_side sessionId bytes nonzeroB] at derived
  cases served
  cases derived
  exact hexOfBytes_injective same

theorem session_keys_agree_iff (sha256 : Hash) (username password : String) (salt : Bytes) (a b : ℕ) (sessionId : Option Hex)
    (bytes : Bytes) (scrambled : scrambling sha256 a b ≠ 0) (nonzeroA : publicA a % params.N ≠ 0)
    (nonzeroB : publicB b % params.N ≠ 0) :
    Agreed sha256 username password salt a b sessionId bytes ↔ Coincide sha256 username password salt a b := by
  constructor
  · exact agreed_coincide scrambled nonzeroA nonzeroB
  · intro coincide
    refine ⟨_,_,_,server_side sessionId bytes scrambled nonzeroA,client_side sessionId bytes nonzeroB,
      congrArg hexOfBytes coincide,?_⟩
    unfold Coincide at coincide
    dsimp only at coincide ⊢
    rw [coincide]
    exact verify_answer sha256 salt a b _

-- A hash that keeps the last byte.
def lastByte (bytes : Bytes) : Bytes := [bytes.getLastD 1]

theorem generator : params.g = 2 := rfl

theorem publicA_one : publicA 1 = 2 := by
  rw [publicA,generator,pow_one]
  exact Nat.mod_eq_of_lt (Nat.lt_trans (by decide) modulus_wide)

theorem publicB_one : publicB 1 = 4 := by
  rw [publicB,generator,show 2 ^ (1 + 1) = 4 from rfl]
  exact Nat.mod_eq_of_lt modulus_wide

theorem last_byte_scrambling : scrambling lastByte 1 1 = 4 := by
  rw [scrambling,publicA_one,publicB_one]
  decide +kernel

theorem last_byte_scrambled : scrambling lastByte 1 1 ≠ 0 := by
  rw [last_byte_scrambling]
  decide

theorem nonzero_one : publicA 1 % params.N ≠ 0 ∧ publicB 1 % params.N ≠ 0 := by
  rw [publicA_one,publicB_one,Nat.mod_eq_of_lt (Nat.lt_trans (by decide) modulus_wide),Nat.mod_eq_of_lt modulus_wide]
  decide

theorem lastByte_append (before bytes : Bytes) : lastByte (before ++ lastByte bytes) = lastByte bytes := by
  simp [lastByte]

theorem last_byte_exponent (username password : String) (salt : Bytes) : exponentX lastByte username password salt =
    bytesToBigInt (lastByte (utf8 (username ++ ":" ++ password))) := by
  unfold exponentX calculatePasswordHash
  rw [lastByte_append]

theorem last_byte_agreed : Agreed lastByte "user" "a" [7] 1 1 none [] := by
  refine (session_keys_agree_iff lastByte "user" "a" [7] 1 1 none [] last_byte_scrambled nonzero_one.1 nonzero_one.2).mpr ?_
  have exponent : exponentX lastByte "user" "a" [7] = 97 := by
    rw [last_byte_exponent]
    decide +kernel
  rw [coincide_at exponent last_byte_scrambling,clientSecret,serverSecret,generator,params_N]
  decide +kernel

theorem last_byte_disagreed : scrambling lastByte 1 1 ≠ 0 ∧ publicA 1 % params.N ≠ 0 ∧ publicB 1 % params.N ≠ 0 ∧
    1 < params.N ∧ ¬ Agreed lastByte "user" "\x00" [7] 1 1 none [] := by
  refine ⟨last_byte_scrambled,nonzero_one.1,nonzero_one.2,modulus_large,?_⟩
  intro agreed
  have exponent : exponentX lastByte "user" "\x00" [7] = 0 := by
    rw [last_byte_exponent]
    decide +kernel
  have server : serverSecret 1 1 0 4 = 2 := by
    rw [serverSecret,generator,show (1 + 4 * 0) * 1 = 1 from rfl,pow_one]
    exact Nat.mod_eq_of_lt (Nat.lt_trans (by decide) modulus_wide)
  have client : clientSecret 1 1 0 4 = 0 := by
    rw [clientSecret,generator,show ((2 : ℕ) : ℤ) ^ (1 + 1) - (4 : ℕ) * ((2 : ℕ) : ℤ) ^ 0 = 0 from rfl,
      zero_pow (by decide),Int.zero_emod,Int.toNat_zero]
  have coincide := (coincide_at exponent last_byte_scrambling).mp
    (agreed_coincide last_byte_scrambled nonzero_one.1 nonzero_one.2 agreed)
  rw [server,client] at coincide
  revert coincide
  decide +kernel

end Pezhwan.Srp
