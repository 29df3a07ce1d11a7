import Pezhwan.Atomic.Machine
import Pezhwan.Migration.Envelope

-- A pass of either migration over one stored secret.
namespace Pezhwan.Migration
open Numeric Numeric.Base64 Atomic

namespace MigrateMfaSecrets

inductive Classified where
  | empty
  | current (secret : Bytes)
  | corrupt
  | legacyEnvelope (secret : Bytes)
  | legacyPlaintext (secret : Bytes)
  | unmigratable
  deriving DecidableEq

def classify (aead : Aead) (value : Stored) (key : Key) : Classified :=
  if value = [] then .empty
  else if startsWith value envelopeVersion then
    match unwrapCurrent aead value key with
    | some secret => .current secret
    | none => .corrupt
  else
    match unwrapCurrent aead value key with
    | some secret => .legacyEnvelope secret
    | none =>
      let plain := decode value
      if 20 ≤ plain.length then .legacyPlaintext plain else .unmigratable

-- The value a pass writes in place of the one it read, if it writes one.
def upgraded (aead : Aead) (draws : Draws) (value : Stored) (key : Key) : Option Stored :=
  match classify aead value key with
  | .current _ | .empty => none
  | .corrupt | .unmigratable => none
  | .legacyEnvelope secret | .legacyPlaintext secret => some (wrapCurrent aead draws secret key)

end MigrateMfaSecrets

namespace MfaSecretsEncryption

inductive Classified where
  | current
  | legacy (secret : Bytes)
  | corrupt
  | unrecognized
  deriving DecidableEq

def classify (aead : Aead) (value : Stored) (key : Key) : Classified :=
  if value = [] then .unrecognized
  else if startsWith value ['v','2',':'] then
    match unwrapEnvelope aead value key with
    | some _ => .current
    | none => .corrupt
  else
    match unwrapEnvelope aead value key with
    | some decoded => .legacy decoded
    | none =>
      let decoded := decode value
      if 20 ≤ decoded.length then .legacy decoded else .corrupt

def envelope (aead : Aead) (draws : Draws) (stored : Stored) (key : Key) : Option Stored :=
  match classify aead stored key with
  | .current => none
  | .legacy plain => some (wrapV2 aead draws plain key)
  | .corrupt => none
  | .unrecognized => none

end MfaSecretsEncryption

inductive Tool where
  | migrateMfaSecrets
  | mfaSecretsEncryption
  deriving DecidableEq

structure Pass where
  tool : Tool
  draws : Draws

def Tool.upgraded (aead : Aead) (key : Key) (draws : Draws) (value : Stored) : Tool → Option Stored
  | .migrateMfaSecrets => MigrateMfaSecrets.upgraded aead draws value key
  | .mfaSecretsEncryption => MfaSecretsEncryption.envelope aead draws value key

-- A record nobody else changes holds what the pass wrote, or what it held.
def migrate (aead : Aead) (key : Key) (value : Stored) (pass : Pass) : Stored :=
  (pass.tool.upgraded aead key pass.draws value).getD value

variable {aead : Aead} {key : Key} {draws again : Draws} {secret : Bytes} {value old middle new : Stored} {tool : Tool}
  {opened : Option Bytes} {passes : List Pass}

-- The secret a value stands for.
def secretOf (aead : Aead) (key : Key) (value : Stored) : Bytes :=
  (MfaService.decryptSecret aead key value).getD (decode value)

def Versioned (value : Stored) : Prop := startsWith value ['v','2',':'] = true ∨ startsWith value ['v','3',':'] = true

structure Preserves (aead : Aead) (key : Key) (old new : Stored) : Prop where
  same : new = old ∨ MfaService.decryptSecret aead key new = some (secretOf aead key old)
  unread : Versioned old → MfaService.decryptSecret aead key old = none → new = old

theorem Preserves.refl (value : Stored) : Preserves aead key value value := ⟨.inl rfl,fun _ _ => rfl⟩

theorem Preserves.trans (first : Preserves aead key old middle) (second : Preserves aead key middle new) :
    Preserves aead key old new := by
  constructor
  · obtain rfl | opened := first.same
    · exact second.same
    · have stands : secretOf aead key middle = secretOf aead key old := by
        rw [secretOf,opened]
        rfl
      obtain rfl | reopened := second.same
      · exact .inr opened
      · rw [stands] at reopened
        exact .inr reopened
  · intro versioned closed
    obtain rfl := first.unread versioned closed
    exact second.unread versioned closed

-- Each tool leaves the values of its own version alone, reads the others, and
-- takes what it cannot read for the secret itself when it is long enough.
def Tool.version : Tool → Stored
  | .migrateMfaSecrets => ['v','3',':']
  | .mfaSecretsEncryption => ['v','2',':']

def Tool.read (aead : Aead) (key : Key) (value : Stored) : Tool → Option Bytes
  | .migrateMfaSecrets => MfaService.decryptSecret aead key value
  | .mfaSecretsEncryption => openSingle aead key (decode value)

def Tool.wrap (aead : Aead) (key : Key) (draws : Draws) (secret : Bytes) : Tool → Stored
  | .migrateMfaSecrets => MigrateMfaSecrets.wrapCurrent aead draws secret key
  | .mfaSecretsEncryption => MfaSecretsEncryption.wrapV2 aead draws secret key

def legacySecret (read : Option Bytes) (value : Stored) : Option Bytes :=
  read.or (if 20 ≤ (decode value).length then some (decode value) else none)

theorem legacySecret_empty (aead : Aead) (key : Key) (tool : Tool) : legacySecret (tool.read aead key []) [] = none := by
  cases tool with
  | migrateMfaSecrets => rfl
  | mfaSecretsEncryption => rfl

theorem upgraded_eq (aead : Aead) (key : Key) (draws : Draws) (value : Stored) (tool : Tool) :
    tool.upgraded aead key draws value =
      if startsWith value tool.version then none
      else (legacySecret (tool.read aead key value) value).map fun secret => tool.wrap aead key draws secret := by
  by_cases empty : value = []
  · subst value
    have nothing := legacySecret_empty aead key tool
    rw [nothing]
    cases tool with
    | migrateMfaSecrets => rfl
    | mfaSecretsEncryption => rfl
  cases tool with
  | migrateMfaSecrets =>
    unfold Tool.upgraded MigrateMfaSecrets.upgraded MigrateMfaSecrets.classify Tool.version Tool.read
    rw [unwrapCurrent_eq,if_neg empty]
    by_cases own : startsWith value ['v','3',':'] = true
    · rw [if_pos own,if_pos own]
      cases MfaService.decryptSecret aead key value with
      | none => rfl
      | some secret => rfl
    · rw [if_neg own,if_neg own]
      cases MfaService.decryptSecret aead key value with
      | none => by_cases long : 20 ≤ (decode value).length <;> simp [legacySecret,long,Tool.wrap]
      | some secret => rfl
  | mfaSecretsEncryption =>
    unfold Tool.upgraded MfaSecretsEncryption.envelope MfaSecretsEncryption.classify Tool.version Tool.read
    rw [unwrapEnvelope_eq,if_neg empty,raw]
    by_cases own : startsWith value ['v','2',':'] = true
    · simp only [if_pos own]
      cases openSingle aead key (decode (value.drop 3)) with
      | none => rfl
      | some secret => rfl
    · simp only [if_neg own]
      cases openSingle aead key (decode value) with
      | none => by_cases long : 20 ≤ (decode value).length <;> simp [legacySecret,long,Tool.wrap]
      | some secret => rfl

theorem decryptSecret_wrap (aead : Aead) (key : Key) (draws : Draws) (secret : Bytes) (tool : Tool) :
    MfaService.decryptSecret aead key (tool.wrap aead key draws secret) = some secret := by
  cases tool with
  | migrateMfaSecrets => exact decryptSecret_wrapCurrent
  | mfaSecretsEncryption => exact decryptSecret_wrapV2

theorem startsWith_wrap (aead : Aead) (key : Key) (draws : Draws) (secret : Bytes) (tool : Tool) :
    startsWith (tool.wrap aead key draws secret) tool.version = true := by
  cases tool with
  | migrateMfaSecrets => rfl
  | mfaSecretsEncryption => rfl

theorem older_of_previous (previous : startsWith value ['v','2',':'] = true) : startsWith value ['v','3',':'] = false := by
  obtain ⟨rest,rfl⟩ := List.isPrefixOf_iff_prefix.mp previous
  rfl

theorem older_of_current (current : startsWith value ['v','3',':'] = true) : startsWith value ['v','2',':'] = false := by
  obtain ⟨rest,rfl⟩ := List.isPrefixOf_iff_prefix.mp current
  rfl

theorem migrate_again (aead : Aead) (key : Key) (value : Stored) (tool : Tool) (draws again : Draws) :
    migrate aead key (migrate aead key value ⟨tool,draws⟩) ⟨tool,again⟩ = migrate aead key value ⟨tool,draws⟩ := by
  unfold migrate
  simp only [upgraded_eq]
  by_cases own : startsWith value tool.version = true
  · simp [own]
  · rw [if_neg own]
    cases taken : legacySecret (tool.read aead key value) value with
    | none => simp [own,taken]
    | some secret => simp [startsWith_wrap]

-- The values a tool takes for a secret though they carry the other version: the
-- utility, what it cannot decrypt; the older migration, every current envelope.
def Misread (aead : Aead) (key : Key) (value : Stored) : Tool → Prop
  | .migrateMfaSecrets => startsWith value ['v','2',':'] = true ∧ MfaService.decryptSecret aead key value = none ∧
      20 ≤ (decode value).length
  | .mfaSecretsEncryption => startsWith value ['v','3',':'] = true ∧ 20 ≤ (decode value).length

theorem legacySecret_none (nothing : legacySecret opened value = none) : ¬20 ≤ (decode value).length := by
  intro long
  cases opened with
  | none => simp [legacySecret,long] at nothing
  | some secret => cases nothing

theorem legacySecret_some (taken : legacySecret opened value = some secret) :
    opened = some secret ∨ opened = none ∧ secret = decode value ∧ 20 ≤ (decode value).length := by
  cases opened with
  | none =>
    simp only [legacySecret,Option.none_or] at taken
    split at taken
    · rename_i long
      cases taken
      exact .inr ⟨rfl,rfl,long⟩
    · cases taken
  | some other =>
    cases taken
    exact .inl rfl

theorem decode_current (current : startsWith value ['v','3',':'] = true) :
    (decode (value.drop 3)).length < (decode value).length := by
  obtain ⟨rest,rfl⟩ := List.isPrefixOf_iff_prefix.mp current
  have digits : sextets (['v','3',':'] ++ rest) = 47 :: 55 :: sextets rest := by
    rw [List.cons_append,sextets_cons (n := 47) (by decide) (by decide) (by decide),List.cons_append,
      sextets_cons (n := 55) (by decide) (by decide) (by decide),List.cons_append,sextets_skip (by decide) (by decide) (by decide),
      List.nil_append]
  rw [drop_version,decode_length,decode_length,digits,List.length_cons,List.length_cons]
  omega

theorem misread_current (current : startsWith value ['v','3',':'] = true)
    (taken : legacySecret (openSingle aead key (decode value)) value = some secret) :
    20 ≤ (decode value).length ∧ MfaService.decryptSecret aead key value ≠ some secret := by
  have longer := decode_current current
  have long : 20 ≤ (decode value).length ∧ (decode value).length ≤ 28 + secret.length := by
    obtain opened | ⟨_,rfl,long⟩ := legacySecret_some taken
    · have size := openSingle_length opened
      omega
    · omega
  refine ⟨long.1,fun opened => ?_⟩
  rw [decryptSecret_current current] at opened
  have size := openDouble_length opened
  omega

theorem preserves_wrap (other : startsWith value tool.version = false) :
    Preserves aead key value (tool.wrap aead key draws secret) ↔
      secret = secretOf aead key value ∧ (Versioned value → MfaService.decryptSecret aead key value ≠ none) := by
  have differs : tool.wrap aead key draws secret ≠ value := by
    intro equal
    rw [← equal,startsWith_wrap] at other
    cases other
  constructor
  · intro preserved
    refine ⟨?_,fun versioned closed => differs (preserved.unread versioned closed)⟩
    obtain equal | opened := preserved.same
    · exact absurd equal differs
    · rw [decryptSecret_wrap] at opened
      exact Option.some.inj opened
  · intro both
    obtain ⟨rfl,opened⟩ := both
    exact ⟨.inr (decryptSecret_wrap aead key draws _ tool),fun versioned closed => absurd closed (opened versioned)⟩

theorem secretOf_opened (opened : MfaService.decryptSecret aead key value = some secret) : secretOf aead key value = secret := by
  rw [secretOf,opened]
  rfl

theorem secretOf_closed (closed : MfaService.decryptSecret aead key value = none) : secretOf aead key value = decode value := by
  rw [secretOf,closed]
  rfl

theorem preserves_current (other : startsWith value ['v','3',':'] = false)
    (taken : legacySecret (MfaService.decryptSecret aead key value) value = some secret) :
    Preserves aead key value (MigrateMfaSecrets.wrapCurrent aead draws secret key) ↔
      ¬Misread aead key value .migrateMfaSecrets := by
  rw [show MigrateMfaSecrets.wrapCurrent aead draws secret key = Tool.migrateMfaSecrets.wrap aead key draws secret from rfl,
    preserves_wrap other]
  obtain opened | ⟨closed,rfl,long⟩ := legacySecret_some taken
  · simp [secretOf_opened opened,Misread,opened]
  · simp [secretOf_closed closed,Misread,Versioned,closed,long,other]

theorem preserves_previous (other : startsWith value ['v','2',':'] = false)
    (taken : legacySecret (openSingle aead key (decode value)) value = some secret) :
    Preserves aead key value (MfaSecretsEncryption.wrapV2 aead draws secret key) ↔
      ¬Misread aead key value .mfaSecretsEncryption := by
  rw [show MfaSecretsEncryption.wrapV2 aead draws secret key = Tool.mfaSecretsEncryption.wrap aead key draws secret from rfl,
    preserves_wrap other]
  cases current : startsWith value ['v','3',':'] with
  | true =>
    obtain ⟨long,apart⟩ := misread_current current taken
    refine iff_of_false ?_ (not_not_intro ⟨current,long⟩)
    intro both
    cases read : MfaService.decryptSecret aead key value with
    | none => exact both.2 (.inr current) read
    | some held => exact apart (by rw [both.1,secretOf_opened read,read])
  | false =>
    have same : MfaService.decryptSecret aead key value = openSingle aead key (decode value) := by
      rw [decryptSecret_older current,raw,if_neg (by rw [other]; decide)]
    rw [← same] at taken
    obtain opened | ⟨closed,rfl,long⟩ := legacySecret_some taken
    · simp [secretOf_opened opened,Misread,opened,current]
    · simp [secretOf_closed closed,Misread,Versioned,current,other]

theorem misread_other (misread : Misread aead key value tool) : startsWith value tool.version = false := by
  cases tool with
  | migrateMfaSecrets => exact older_of_previous misread.1
  | mfaSecretsEncryption => exact older_of_current misread.1

theorem misread_long (misread : Misread aead key value tool) : 20 ≤ (decode value).length := by
  cases tool with
  | migrateMfaSecrets => exact misread.2.2
  | mfaSecretsEncryption => exact misread.2

theorem preserves_iff (aead : Aead) (key : Key) (value : Stored) (pass : Pass) :
    Preserves aead key value (migrate aead key value pass) ↔ ¬Misread aead key value pass.tool := by
  obtain ⟨tool,draws⟩ := pass
  unfold migrate
  rw [upgraded_eq]
  cases own : startsWith value tool.version with
  | true =>
    refine iff_of_true (Preserves.refl value) ?_
    intro misread
    rw [misread_other misread] at own
    cases own
  | false =>
    cases taken : legacySecret (tool.read aead key value) value with
    | none => exact iff_of_true (Preserves.refl value) fun misread => legacySecret_none taken (misread_long misread)
    | some secret =>
      cases tool with
      | migrateMfaSecrets => exact preserves_current own taken
      | mfaSecretsEncryption => exact preserves_previous own taken

-- A run of passes, in any order.
def step (aead : Aead) (key : Key) (value : Stored) (pass : Pass) : Option Stored := some (migrate aead key value pass)

def migrateAll (aead : Aead) (key : Key) (value : Stored) (passes : List Pass) : Stored :=
  passes.foldl (migrate aead key) value

theorem migrateAll_preserves (each : Machine.Each (step aead key) (fun old _ new => Preserves aead key old new) value passes) :
    Preserves aead key value (migrateAll aead key value passes) := by
  induction passes generalizing value with
  | nil => exact Preserves.refl value
  | cons first rest ih =>
    obtain ⟨preserved,onward⟩ := each _ rfl
    exact preserved.trans (ih onward)

theorem secrets_preserved_iff (aead : Aead) (key : Key) (value : Stored) (passes : List Pass) :
    (Machine.Each (step aead key) (fun old _ new => Preserves aead key old new) value passes ∧
        Preserves aead key value (migrateAll aead key value passes) ↔
      Machine.Each (step aead key) (fun old taken _ => ¬Misread aead key old taken.tool) value passes) ∧
    ∀ tool draws again,
      migrate aead key (migrate aead key value ⟨tool,draws⟩) ⟨tool,again⟩ = migrate aead key value ⟨tool,draws⟩ := by
  have steps : Machine.Each (step aead key) (fun old _ new => Preserves aead key old new) value passes ↔
      Machine.Each (step aead key) (fun old taken _ => ¬Misread aead key old taken.tool) value passes := by
    refine Machine.each_iff (fun _ => True) trivial ?_
    intro old taken new _ moved
    cases moved
    exact ⟨preserves_iff aead key old taken,fun _ => trivial⟩
  refine ⟨⟨fun both => steps.mp both.1,fun each => ?_⟩,migrate_again aead key value⟩
  have preserved := steps.mpr each
  exact ⟨preserved,migrateAll_preserves preserved⟩

-- After the utility a pass of the older migration takes the current envelope
-- itself for the secret.
def plainTag : Bytes := List.replicate 16 0

def plainAead : Aead where
  encrypt _ _ _ message := (message,plainTag)
  decrypt _ _ _ ciphertext tag := if tag = plainTag then some ciphertext else none
  sized _ _ _ _ _ _ := rfl
  tagged _ _ _ _ _ _ := rfl
  opens := by
    intro key iv aad message ciphertext tag _ _ _
    by_cases plain : tag = plainTag
    · simp [plain,eq_comm]
    · simp [plain,Ne.symm plain]

def sampleKey : Key := ⟨List.replicate 32 0,rfl⟩

def sampleDraws : Draws := ⟨⟨List.replicate 32 1,rfl⟩,⟨List.replicate 12 2,rfl⟩,⟨List.replicate 12 3,rfl⟩⟩

def sampleSecret : Stored := List.replicate 28 'A'

theorem wrapCurrent_misread :
    Misread aead key (Tool.migrateMfaSecrets.wrap aead key draws secret) .mfaSecretsEncryption := by
  have current := startsWith_wrap aead key draws secret .migrateMfaSecrets
  have opened := decryptSecret_wrap aead key draws secret .migrateMfaSecrets
  rw [decryptSecret_current current] at opened
  have size := openDouble_length opened
  have longer := decode_current current
  exact ⟨current,by omega⟩

theorem secret_misread :
    ¬(Machine.Each (step plainAead sampleKey) (fun old _ new => Preserves plainAead sampleKey old new) sampleSecret
          [⟨.migrateMfaSecrets,sampleDraws⟩,⟨.mfaSecretsEncryption,sampleDraws⟩] ∧
        Preserves plainAead sampleKey sampleSecret (migrateAll plainAead sampleKey sampleSecret
          [⟨.migrateMfaSecrets,sampleDraws⟩,⟨.mfaSecretsEncryption,sampleDraws⟩])) := by
  intro both
  have wrapped : migrate plainAead sampleKey sampleSecret ⟨.migrateMfaSecrets,sampleDraws⟩ =
      Tool.migrateMfaSecrets.wrap plainAead sampleKey sampleDraws (decode sampleSecret) := rfl
  have second := (preserves_iff _ _ _ _).mp ((both.1 _ rfl).2 _ rfl).1
  rw [wrapped] at second
  exact second wrapCurrent_misread

end Pezhwan.Migration
