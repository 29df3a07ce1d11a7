import Pezhwan.Atomic.Dict
import Pezhwan.Numeric.Bytes

-- The STARK prover: a chain of hashes over the FRI layers.
namespace Pezhwan.Zk
open Atomic Numeric

-- SHA3-256 as a function, with the size of its digests.
structure Sha3 where
  digest : Bytes → Bytes
  sized : ∀ message, (digest message).length = 32

-- `deriveBits` is HKDF with SHA-256: key material, salt, info and a number of bits.
structure Crypto where
  sha3 : Sha3
  deriveBits : Bytes → Bytes → Bytes → ℕ → Bytes

structure StarkCircuit where
  id : String
  name : String
  traceLength : ℕ
  blowupFactor : ℕ
  friCommitments : ℕ
  deriving DecidableEq, Repr

structure StarkProof where
  proof : Bytes
  traceCommitment : Bytes
  friCommitments : List Bytes
  circuitId : String
  system : String
  deriving DecidableEq, Repr

structure StarkVerificationKey where
  key : Bytes
  circuitId : String
  system : String
  deriving DecidableEq, Repr

def auditLogIntegrity : StarkCircuit where
  id := "audit-log-integrity-v1"
  name := "Audit Log Integrity Verification"
  traceLength := 4096
  blowupFactor := 8
  friCommitments := 12

structure ZkStarkProver where
  verificationKeys : Dict String StarkVerificationKey

-- `vkBytes` are 192 random bytes.
def ZkStarkProver.compileCircuit (prover : ZkStarkProver) (circuit : StarkCircuit) (vkBytes : Bytes) :
    StarkVerificationKey × ZkStarkProver :=
  let vk : StarkVerificationKey := ⟨vkBytes,circuit.id,"stark"⟩
  (vk,⟨prover.verificationKeys.set circuit.id vk⟩)

section
variable (crypto : Crypto)

def commitTrace (trace : List Bytes) : Bytes := crypto.sha3.digest trace.flatten

-- From layer i on; the index is written as one byte.
def friLayers : ℕ → ℕ → Bytes → List Bytes
  | _,0,_ => []
  | i,count + 1,current =>
    let next := crypto.sha3.digest (current ++ [UInt8.ofNat i])
    next :: friLayers (i + 1) count next

def friCommit (numCommitments : ℕ) (initialCommitment : Bytes) : List Bytes := friLayers crypto 0 numCommitments initialCommitment

-- `salt` are 32 random bytes.
def generateStarkProof (circuit : StarkCircuit) (traceCommitment : Bytes) (friCommitments publicInputs : List Bytes) (salt : Bytes) :
    Bytes :=
  let combined := traceCommitment ++ friCommitments.flatten ++ publicInputs.flatten ++ utf8Bytes circuit.id
  crypto.deriveBits (crypto.sha3.digest combined) salt (utf8Bytes "stark-proof") (1024 * 8)

def prove (circuit : StarkCircuit) (trace publicInputs : List Bytes) (salt : Bytes) : Except String StarkProof :=
  if trace.length = 0 then .error "Trace must be non-empty"
  else
    let traceCommitment := commitTrace crypto trace
    let friCommitments := friCommit crypto circuit.friCommitments traceCommitment
    .ok ⟨generateStarkProof crypto circuit traceCommitment friCommitments publicInputs salt,traceCommitment,friCommitments,
      circuit.id,"stark"⟩

def proveAuditLogIntegrity (logEntries : List Bytes) (merkleRoot salt : Bytes) : Except String StarkProof :=
  prove crypto auditLogIntegrity (logEntries.take auditLogIntegrity.traceLength) [merkleRoot] salt

def verifyChain : Bytes → List Bytes → Bool
  | _,[] => true
  | current,commitment :: rest =>
    if crypto.sha3.digest (current ++ commitment) ≠ commitment then false else verifyChain commitment rest

def verifyStarkProof (proof : StarkProof) (_vk : StarkVerificationKey) (_publicInputs : List Bytes) : Bool :=
  verifyChain crypto proof.traceCommitment proof.friCommitments

def verify (proof : StarkProof) (vk : StarkVerificationKey) (publicInputs : List Bytes) : Bool :=
  if proof.circuitId ≠ vk.circuitId then false
  else if proof.traceCommitment.length = 0 then false
  else if proof.friCommitments.length = 0 then false
  else verifyStarkProof crypto proof vk publicInputs

def layer (start : Bytes) : ℕ → Bytes
  | 0 => start
  | i + 1 => crypto.sha3.digest (layer start i ++ [UInt8.ofNat i])

end

-- The digest of one message, put behind its prefix, has itself as its digest.
def Sha3.Closes (sha3 : Sha3) (current : Bytes) (i : UInt8) : Prop :=
  sha3.digest (current ++ sha3.digest (current ++ [i])) = sha3.digest (current ++ [i])

variable {crypto : Crypto}

theorem verifyChain_iff (start : Bytes) (i count : ℕ) :
    verifyChain crypto (layer crypto start i) (friLayers crypto i count (layer crypto start i)) = true ↔
      ∀ k, i ≤ k → k < i + count → crypto.sha3.Closes (layer crypto start k) (UInt8.ofNat k) := by
  induction count generalizing i with
  | zero =>
    refine iff_of_true rfl ?_
    intro k low high
    omega
  | succ count ih =>
    have next : crypto.sha3.digest (layer crypto start i ++ [UInt8.ofNat i]) = layer crypto start (i + 1) := rfl
    unfold friLayers verifyChain
    rw [next]
    by_cases closes : crypto.sha3.digest (layer crypto start i ++ layer crypto start (i + 1)) = layer crypto start (i + 1)
    · rw [if_neg (not_not.mpr closes),ih]
      constructor
      · intro later k low high
        by_cases here : k = i
        · rw [here]
          exact closes
        · exact later k (by omega) (by omega)
      · intro all k low high
        exact all k (by omega) (by omega)
    · rw [if_pos closes]
      refine iff_of_false Bool.false_ne_true ?_
      intro all
      exact closes (all i (Nat.le_refl i) (by omega))

theorem friLayers_length (i count : ℕ) (current : Bytes) : (friLayers crypto i count current).length = count := by
  induction count generalizing i current with
  | zero => rfl
  | succ count ih => simp [friLayers,ih]

-- A proof of this prover passes its own verifier where every layer closes. The
-- digests of the first are of messages of 64 and of 33 bytes, which nothing ties
-- together.
theorem own_proof_iff (crypto : Crypto) (prover : ZkStarkProver) (circuit : StarkCircuit) (committed : 0 < circuit.friCommitments)
    (trace publicInputs : List Bytes) (nonempty : trace ≠ []) (vkBytes salt : Bytes) :
    ∃ proof, prove crypto circuit trace publicInputs salt = .ok proof ∧
      (verify crypto proof (prover.compileCircuit circuit vkBytes).1 publicInputs = true ↔
        ∀ i < circuit.friCommitments, crypto.sha3.Closes (layer crypto (commitTrace crypto trace) i) (UInt8.ofNat i)) ∧
      (¬crypto.sha3.Closes (commitTrace crypto trace) 0 → verify crypto proof (prover.compileCircuit circuit vkBytes).1 publicInputs = false) := by
  have filled : trace.length ≠ 0 := fun empty => nonempty (List.length_eq_zero_iff.mp empty)
  have counted : (friCommit crypto circuit.friCommitments (commitTrace crypto trace)).length = circuit.friCommitments :=
    friLayers_length 0 _ _
  have exact_ : verify crypto
      ⟨generateStarkProof crypto circuit (commitTrace crypto trace)
        (friCommit crypto circuit.friCommitments (commitTrace crypto trace)) publicInputs salt,commitTrace crypto trace,
        friCommit crypto circuit.friCommitments (commitTrace crypto trace),circuit.id,"stark"⟩
      (prover.compileCircuit circuit vkBytes).1 publicInputs = true ↔
        ∀ i < circuit.friCommitments, crypto.sha3.Closes (layer crypto (commitTrace crypto trace) i) (UInt8.ofNat i) := by
    have chain := @verifyChain_iff crypto (commitTrace crypto trace) 0 circuit.friCommitments
    unfold verify ZkStarkProver.compileCircuit
    dsimp only
    have sized : (commitTrace crypto trace).length = 32 := crypto.sha3.sized _
    rw [if_neg (not_not.mpr rfl),if_neg (by omega),if_neg (by omega)]
    refine chain.trans ?_
    simp
  refine ⟨_,if_neg filled,exact_,?_⟩
  intro unrelated
  refine Bool.eq_false_iff.mpr ?_
  intro accepted
  exact unrelated (exact_.mp accepted 0 committed)

def lengthCrypto : Crypto where
  sha3 := ⟨fun message => List.replicate 32 (UInt8.ofNat message.length),fun _ => List.length_replicate⟩
  deriveBits _ _ _ _ := []

theorem own_proof_audit : ∃ proof, proveAuditLogIntegrity lengthCrypto [[1]] [2] [] = .ok proof ∧
    verify lengthCrypto proof ((ZkStarkProver.mk .empty).compileCircuit auditLogIntegrity [3]).1 [[2]] = false := by
  obtain ⟨proof,proved,_,rejected⟩ := own_proof_iff lengthCrypto ⟨.empty⟩ auditLogIntegrity (by decide) [[1]] [[2]] (by decide) [3] []
  refine ⟨proof,proved,rejected ?_⟩
  unfold Sha3.Closes
  decide +kernel

theorem own_proof_rejected :
    ¬∀ (circuit : StarkCircuit) (trace publicInputs : List Bytes) (vkBytes salt : Bytes) (proof : StarkProof),
      0 < circuit.friCommitments → prove lengthCrypto circuit trace publicInputs salt = .ok proof →
        verify lengthCrypto proof ((ZkStarkProver.mk .empty).compileCircuit circuit vkBytes).1 publicInputs = true := by
  intro complete
  have accepted := complete auditLogIntegrity [[1]] [[2]] [3] [] _ (by decide) rfl
  revert accepted
  decide +kernel

end Pezhwan.Zk
