import Pezhwan.Numeric.Aead
import Pezhwan.Numeric.Base64

-- The stored forms of a secret: the versioned envelopes of the service and of
-- its two migrations, and the older forms they still read.
namespace Pezhwan.Migration
open Numeric Numeric.Base64

abbrev Stored := List Char

-- The master key, whose length is checked before anything is read.
abbrev Key := Drawn 32

-- What is drawn at random for one envelope.
structure Draws where
  dataKey : Drawn 32
  ctIv : Drawn 12
  dekIv : Drawn 12

def startsWith (value version : Stored) : Bool := version.isPrefixOf value

def subarray (payload : Bytes) (start finish : Nat) : Bytes := (payload.take finish).drop start

namespace MfaService

abbrev mfaEnvelopeVersion : Stored := ['v','3',':']
abbrev mfaPreviousEnvelopeVersion : Stored := ['v','2',':']
abbrev mfaEnvelopeAad : Bytes := "pezhwan:mfa-secret:v1".toUTF8.data.toList

structure EnvelopeEncryptionResult where
  iv : Bytes
  authTag : Bytes
  ciphertext : Bytes
  encryptedDataKey : Bytes

def envelopeEncrypt (aead : Aead) (draws : Draws) (plaintext masterKey associatedData : Bytes) : EnvelopeEncryptionResult :=
  let (ciphertext,authTag) := aead.encrypt draws.dataKey draws.ctIv associatedData plaintext
  let (dekCiphertext,dekAuthTag) := aead.encrypt masterKey draws.dekIv [] draws.dataKey
  {iv := draws.ctIv,authTag,ciphertext,encryptedDataKey := draws.dekIv ++ dekAuthTag ++ dekCiphertext}

def wrapEnvelope (aead : Aead) (draws : Draws) (master : Key) (secret : Bytes) : Stored :=
  let sealed := envelopeEncrypt aead draws secret master mfaEnvelopeAad
  mfaEnvelopeVersion ++ encode (sealed.iv ++ sealed.authTag ++ sealed.ciphertext ++ sealed.encryptedDataKey)

def envelopeDecrypt (aead : Aead) (masterKey associatedData iv authTag ciphertext encryptedDataKey : Bytes) : Option Bytes :=
  let dekIv := subarray encryptedDataKey 0 12
  let dekAuthTag := subarray encryptedDataKey 12 28
  let dekCiphertext := encryptedDataKey.drop 28
  (aead.decrypt masterKey dekIv [] dekCiphertext dekAuthTag).bind fun dataKey =>
    aead.decrypt dataKey iv associatedData ciphertext authTag

def unwrap (aead : Aead) (master : Key) (value : Stored) : Option Bytes :=
  if startsWith value mfaEnvelopeVersion then
    let payload := decode (value.drop mfaEnvelopeVersion.length)
    if payload.length < 12 + 16 + 60 then none
    else
      envelopeDecrypt aead master mfaEnvelopeAad (subarray payload 0 12) (subarray payload 12 28)
        (subarray payload 28 (payload.length - 60)) (payload.drop (payload.length - 60))
  else
    let raw := if startsWith value mfaPreviousEnvelopeVersion then value.drop mfaPreviousEnvelopeVersion.length else value
    let payload := decode raw
    if payload.length < 28 then none
    else aead.decrypt master (subarray payload 0 12) [] (payload.drop 28) (subarray payload 12 28)

def encryptSecret (aead : Aead) (draws : Draws) (master : Key) (secret : Bytes) : Stored := wrapEnvelope aead draws master secret

def decryptSecret (aead : Aead) (master : Key) (value : Stored) : Option Bytes := unwrap aead master value

end MfaService

-- The utility that writes the current envelope.
namespace MigrateMfaSecrets

abbrev envelopeVersion : Stored := ['v','3',':']
abbrev previousEnvelopeVersion : Stored := ['v','2',':']
abbrev envelopeAad : Bytes := "pezhwan:mfa-secret:v1".toUTF8.data.toList

def wrapCurrent (aead : Aead) (draws : Draws) (secret : Bytes) (key : Key) : Stored :=
  let (ciphertext,ctTag) := aead.encrypt draws.dataKey draws.ctIv envelopeAad secret
  let (encryptedDataKey,dekTag) := aead.encrypt key draws.dekIv [] draws.dataKey
  envelopeVersion ++ encode (draws.ctIv ++ ctTag ++ ciphertext ++ draws.dekIv ++ dekTag ++ encryptedDataKey)

def unwrapCurrent (aead : Aead) (value : Stored) (key : Key) : Option Bytes :=
  if startsWith value envelopeVersion then
    let payload := decode (value.drop envelopeVersion.length)
    if payload.length < 12 + 16 + 12 + 16 + 32 then none
    else
      let ctIv := subarray payload 0 12
      let ctTag := subarray payload 12 28
      let dataKeyIv := subarray payload (payload.length - 60) (payload.length - 48)
      let dataKeyTag := subarray payload (payload.length - 48) (payload.length - 32)
      let encDataKey := payload.drop (payload.length - 32)
      let ciphertext := subarray payload 28 (payload.length - 60)
      (aead.decrypt key dataKeyIv [] encDataKey dataKeyTag).bind fun dataKey =>
        aead.decrypt dataKey ctIv envelopeAad ciphertext ctTag
  else
    let raw := if startsWith value previousEnvelopeVersion then value.drop previousEnvelopeVersion.length else value
    let payload := decode raw
    if payload.length < 28 then none
    else aead.decrypt key (subarray payload 0 12) [] (payload.drop 28) (subarray payload 12 28)

end MigrateMfaSecrets

-- The migration that writes the envelope before it.
namespace MfaSecretsEncryption

def wrapV2 (aead : Aead) (draws : Draws) (secret : Bytes) (key : Key) : Stored :=
  let (ciphertext,tag) := aead.encrypt key draws.ctIv [] secret
  ['v','2',':'] ++ encode (draws.ctIv ++ tag ++ ciphertext)

def unwrapEnvelope (aead : Aead) (value : Stored) (key : Key) : Option Bytes :=
  let raw := if startsWith value ['v','2',':'] then value.drop 3 else value
  let payload := decode raw
  if payload.length < 28 then none
  else aead.decrypt key (subarray payload 0 12) [] (payload.drop 28) (subarray payload 12 28)

end MfaSecretsEncryption

variable {aead : Aead} {key : Key} {draws : Draws} {secret payload : Bytes} {value : Stored}

theorem subarray_drop (payload : Bytes) (skipped start finish : Nat) :
    subarray (payload.drop skipped) start finish = subarray payload (skipped + start) (skipped + finish) := by
  rw [subarray,subarray,List.take_drop,List.drop_drop,Nat.add_comm]

theorem unwrap_parts (aead : Aead) (key aad payload : Bytes) : aead.unwrap key aad payload =
    aead.decrypt key (subarray payload 0 12) aad (payload.drop 28) (subarray payload 12 28) := by
  rw [Aead.unwrap,subarray,List.drop_zero,subarray,List.drop_take]

-- One layer, and the two layers of the current envelope.
def openSingle (aead : Aead) (key : Key) (payload : Bytes) : Option Bytes :=
  if payload.length < 28 then none else aead.unwrap key [] payload

def openDouble (aead : Aead) (key : Key) (payload : Bytes) : Option Bytes :=
  if payload.length < 88 then none
  else
    (aead.unwrap key [] (payload.drop (payload.length - 60))).bind fun dataKey =>
      aead.unwrap dataKey MfaService.mfaEnvelopeAad (payload.take (payload.length - 60))

theorem openSingle_length (opened : openSingle aead key payload = some secret) : payload.length = 28 + secret.length := by
  unfold openSingle at opened
  split at opened
  · cases opened
  · exact Aead.unwrap_length key.property (by omega) opened

theorem openDouble_length (opened : openDouble aead key payload = some secret) : payload.length = 88 + secret.length := by
  unfold openDouble at opened
  split at opened
  · cases opened
  · obtain ⟨dataKey,first,second⟩ := Option.bind_eq_some_iff.mp opened
    have outer := Aead.unwrap_length key.property (by rw [List.length_drop]; omega) first
    rw [List.length_drop] at outer
    have inner := Aead.unwrap_length (by omega) (by rw [List.length_take]; omega) second
    rw [List.length_take] at inner
    omega

theorem openSingle_wrap : openSingle aead key (aead.wrap key draws.ctIv [] secret) = some secret := by
  unfold openSingle
  rw [if_neg (by rw [aead.wrap_length _ _ _ key.property]; omega)]
  exact Aead.unwrap_wrap key.property

theorem openDouble_wrap : openDouble aead key
    (aead.wrap draws.dataKey draws.ctIv MfaService.mfaEnvelopeAad secret ++ aead.wrap key draws.dekIv [] draws.dataKey) =
      some secret := by
  have inner := aead.wrap_length draws.ctIv MfaService.mfaEnvelopeAad secret draws.dataKey.property
  have outer := aead.wrap_length draws.dekIv [] draws.dataKey key.property
  rw [draws.dataKey.property] at outer
  unfold openDouble
  rw [if_neg (by rw [List.length_append]; omega),List.length_append,outer,Nat.add_sub_cancel,
    List.drop_left,List.take_left,Aead.unwrap_wrap key.property,Option.bind_some,Aead.unwrap_wrap draws.dataKey.property]

-- What a value of one layer holds behind its version.
def raw (value : Stored) : Stored := if startsWith value ['v','2',':'] then value.drop 3 else value

theorem unwrapEnvelope_eq (aead : Aead) (value : Stored) (key : Key) :
    MfaSecretsEncryption.unwrapEnvelope aead value key = openSingle aead key (decode (raw value)) := by
  unfold MfaSecretsEncryption.unwrapEnvelope openSingle
  simp only [unwrap_parts]
  rfl

theorem envelopeDecrypt_parts (room : 88 ≤ payload.length) :
    MfaService.envelopeDecrypt aead key MfaService.mfaEnvelopeAad (subarray payload 0 12) (subarray payload 12 28)
      (subarray payload 28 (payload.length - 60)) (payload.drop (payload.length - 60)) =
      openDouble aead key payload := by
  have short (start finish : Nat) (inside : finish ≤ 28) :
      subarray (payload.take (payload.length - 60)) start finish = subarray payload start finish := by
    rw [subarray,subarray,List.take_take,Nat.min_eq_left (by omega)]
  unfold openDouble MfaService.envelopeDecrypt
  rw [if_neg (by omega),unwrap_parts]
  refine congrArg (Option.bind _) (funext fun dataKey => ?_)
  rw [unwrap_parts,short 0 12 (by decide),short 12 28 (by decide)]
  rfl

theorem decryptSecret_current (current : startsWith value ['v','3',':'] = true) :
    MfaService.decryptSecret aead key value = openDouble aead key (decode (value.drop 3)) := by
  unfold MfaService.decryptSecret MfaService.unwrap
  rw [if_pos current]
  simp only []
  split
  · rename_i short
    exact (if_pos short).symm
  · exact envelopeDecrypt_parts (by omega)

theorem decryptSecret_older (older : startsWith value ['v','3',':'] = false) :
    MfaService.decryptSecret aead key value = openSingle aead key (decode (raw value)) := by
  unfold MfaService.decryptSecret MfaService.unwrap
  rw [if_neg (by rw [older]; decide)]
  exact unwrapEnvelope_eq aead value key

theorem dataKey_parts (payload : Bytes) (room : 60 ≤ payload.length) :
    subarray payload (payload.length - 60) (payload.length - 48) = subarray (payload.drop (payload.length - 60)) 0 12 ∧
    subarray payload (payload.length - 48) (payload.length - 32) = subarray (payload.drop (payload.length - 60)) 12 28 ∧
    payload.drop (payload.length - 32) = (payload.drop (payload.length - 60)).drop 28 := by
  have vector : payload.length - 60 + 12 = payload.length - 48 := by omega
  have tag : payload.length - 60 + 28 = payload.length - 32 := by omega
  refine ⟨?_,?_,?_⟩
  · rw [subarray_drop,vector,Nat.add_zero]
  · rw [subarray_drop,vector,tag]
  · rw [List.drop_drop,tag]

theorem unwrapCurrent_eq (aead : Aead) (value : Stored) (key : Key) :
    MigrateMfaSecrets.unwrapCurrent aead value key = MfaService.decryptSecret aead key value := by
  unfold MigrateMfaSecrets.unwrapCurrent MfaService.decryptSecret MfaService.unwrap
  split
  · simp only []
    split
    · rfl
    · obtain ⟨vector,tag,wrapped⟩ :=
        dataKey_parts (decode (value.drop MigrateMfaSecrets.envelopeVersion.length)) (by omega)
      rw [vector,tag,wrapped]
      rfl
  · rfl

theorem startsWith_append (version rest : Stored) : startsWith (version ++ rest) version = true := by
  simp [startsWith]

theorem drop_version (digit : Char) (rest : Stored) : (['v',digit,':'] ++ rest).drop 3 = rest := rfl

theorem wrapV2_eq (aead : Aead) (draws : Draws) (secret : Bytes) (key : Key) :
    MfaSecretsEncryption.wrapV2 aead draws secret key =
      ['v','2',':'] ++ encode (aead.wrap key draws.ctIv [] secret) := rfl

theorem wrapCurrent_eq (aead : Aead) (draws : Draws) (secret : Bytes) (key : Key) :
    MigrateMfaSecrets.wrapCurrent aead draws secret key = ['v','3',':'] ++
      encode (aead.wrap draws.dataKey draws.ctIv MfaService.mfaEnvelopeAad secret ++
        aead.wrap key draws.dekIv [] draws.dataKey) := by
  simp [MigrateMfaSecrets.wrapCurrent,Aead.wrap]

theorem wrapEnvelope_eq (aead : Aead) (draws : Draws) (secret : Bytes) (key : Key) :
    MfaService.wrapEnvelope aead draws key secret = MigrateMfaSecrets.wrapCurrent aead draws secret key := by
  simp [MfaService.wrapEnvelope,MfaService.envelopeEncrypt,MigrateMfaSecrets.wrapCurrent]

theorem decryptSecret_wrapV2 :
    MfaService.decryptSecret aead key (MfaSecretsEncryption.wrapV2 aead draws secret key) = some secret := by
  rw [wrapV2_eq,decryptSecret_older rfl,raw,if_pos (startsWith_append _ _),drop_version,decode_encode,
    openSingle_wrap]

theorem decryptSecret_wrapCurrent :
    MfaService.decryptSecret aead key (MigrateMfaSecrets.wrapCurrent aead draws secret key) = some secret := by
  rw [wrapCurrent_eq,decryptSecret_current (startsWith_append _ _),drop_version,decode_encode,openDouble_wrap]

-- The three forms a secret has been stored in: under the current version, under
-- the one before it, and before there were versions.
inductive Form
  | current | previous | legacy

namespace Form
variable {form other : Form}

def version : Form → Stored
  | current => MfaService.mfaEnvelopeVersion
  | previous => MfaService.mfaPreviousEnvelopeVersion
  | legacy => []

def minimum : Form → Nat
  | current => 88
  | previous => 28
  | legacy => 28

def write (aead : Aead) (draws : Draws) (key : Key) (secret : Bytes) : Form → Stored
  | current => MfaService.encryptSecret aead draws key secret
  | previous => MfaSecretsEncryption.wrapV2 aead draws secret key
  | legacy => encode (aead.wrap key draws.ctIv [] secret)

def body (form : Form) (value : Stored) : Bytes := decode (value.drop form.version.length)

def open_ (aead : Aead) (key : Key) : Form → Bytes → Option Bytes
  | current => openDouble aead key
  | previous => openSingle aead key
  | legacy => openSingle aead key

-- How the service tells the forms apart.
def Marks (value : Stored) : Form → Prop
  | current => startsWith value MfaService.mfaEnvelopeVersion = true
  | previous => startsWith value MfaService.mfaPreviousEnvelopeVersion = true
  | legacy => startsWith value MfaService.mfaEnvelopeVersion = false ∧
    startsWith value MfaService.mfaPreviousEnvelopeVersion = false

-- A value that can be read in a form: its version and base64 text.
def Text (value : Stored) (form : Form) : Prop :=
  ∃ text,value = form.version ++ text ∧ ∀ c ∈ text,Written c

def Interprets (aead : Aead) (key : Key) (value : Stored) (secret : Bytes) (form : Form) : Prop :=
  form.Marks value ∧ form.open_ aead key (form.body value) = some secret

theorem body_write (text : Stored) : form.body (form.version ++ text) = decode text := by
  rw [body,List.drop_left]

theorem marks_one (marked : form.Marks value) (also : other.Marks value) : form = other := by
  have apart : ¬(startsWith value MfaService.mfaEnvelopeVersion = true ∧
      startsWith value MfaService.mfaPreviousEnvelopeVersion = true) := by
    intro both
    obtain ⟨first,rfl⟩ := List.isPrefixOf_iff_prefix.mp both.1
    cases both.2
  cases form with
  | current =>
    cases other with
    | current => rfl
    | previous => exact absurd ⟨marked,also⟩ apart
    | legacy => exact absurd marked (Bool.eq_false_iff.mp also.1)
  | previous =>
    cases other with
    | current => exact absurd ⟨also,marked⟩ apart
    | previous => rfl
    | legacy => exact absurd marked (Bool.eq_false_iff.mp also.2)
  | legacy =>
    cases other with
    | current => exact absurd also (Bool.eq_false_iff.mp marked.1)
    | previous => exact absurd also (Bool.eq_false_iff.mp marked.2)
    | legacy => rfl

theorem marks_some (value : Stored) : ∃ form : Form,form.Marks value := by
  cases current : startsWith value MfaService.mfaEnvelopeVersion with
  | true => exact ⟨.current,current⟩
  | false =>
    cases previous : startsWith value MfaService.mfaPreviousEnvelopeVersion with
    | true => exact ⟨.previous,previous⟩
    | false => exact ⟨.legacy,current,previous⟩

theorem decryptSecret_marked (aead : Aead) (key : Key) (marked : form.Marks value) :
    MfaService.decryptSecret aead key value = form.open_ aead key (form.body value) := by
  cases form with
  | current => exact decryptSecret_current marked
  | previous =>
    have older : startsWith value MfaService.mfaEnvelopeVersion = false := by
      refine Bool.eq_false_iff.mpr fun current => ?_
      have same : Form.current = Form.previous := marks_one current marked
      cases same
    have versioned : raw value = value.drop 3 := if_pos marked
    rw [decryptSecret_older older,versioned]
    rfl
  | legacy =>
    have plain : raw value = value := if_neg (Bool.eq_false_iff.mp marked.2)
    rw [decryptSecret_older marked.1,plain]
    rfl

theorem unversioned (text : Stored) (digit : Char) (written : ∀ c ∈ text,Written c) :
    startsWith text ['v',digit,':'] = false := by
  refine Bool.eq_false_iff.mpr fun versioned => ?_
  obtain ⟨rest,rfl⟩ := List.isPrefixOf_iff_prefix.mp versioned
  exact absurd (written ':' (by simp)) (by decide)

theorem text_marks (text : form.Text value) : form.Marks value := by
  obtain ⟨text,rfl,written⟩ := text
  cases form with
  | current => exact startsWith_append _ _
  | previous => exact startsWith_append _ _
  | legacy => exact ⟨unversioned _ _ written,unversioned _ _ written⟩

theorem write_body (form : Form) (aead : Aead) (draws : Draws) (key : Key) (secret : Bytes) :
    ∃ payload,form.write aead draws key secret = form.version ++ encode payload ∧
      form.open_ aead key payload = some secret := by
  cases form with
  | current => exact ⟨_,(wrapEnvelope_eq aead draws secret key).trans (wrapCurrent_eq aead draws secret key),openDouble_wrap⟩
  | previous => exact ⟨_,wrapV2_eq aead draws secret key,openSingle_wrap⟩
  | legacy => exact ⟨_,rfl,openSingle_wrap⟩

theorem text_write (form : Form) (aead : Aead) (draws : Draws) (key : Key) (secret : Bytes) :
    form.Text (form.write aead draws key secret) := by
  obtain ⟨payload,written,_⟩ := write_body form aead draws key secret
  exact ⟨_,written,fun _ listed => written_encode payload listed⟩

theorem decryptSecret_write (form : Form) (aead : Aead) (draws : Draws) (key : Key) (secret : Bytes) :
    MfaService.decryptSecret aead key (form.write aead draws key secret) = some secret := by
  rw [decryptSecret_marked aead key (text_marks (text_write form aead draws key secret))]
  obtain ⟨payload,written,opened⟩ := write_body form aead draws key secret
  rw [written,body_write,decode_encode,opened]

theorem open_short (aead : Aead) (key : Key) (short : payload.length < form.minimum) :
    form.open_ aead key payload = none := by
  cases form with
  | current => exact if_pos short
  | previous => exact if_pos short
  | legacy => exact if_pos short

theorem interprets_iff : MfaService.decryptSecret aead key value = some secret ↔
    ∃ form : Form,form.Interprets aead key value secret := by
  obtain ⟨form,marked⟩ := marks_some value
  constructor
  · intro opened
    exact ⟨form,marked,(decryptSecret_marked aead key marked).symm.trans opened⟩
  · rintro ⟨found,marks,opened⟩
    exact (decryptSecret_marked aead key marks).trans opened

end Form

-- What the three forms owe each other under one decoder.
structure Envelopes (aead : Aead) (key : Key) : Prop where
  encrypted (draws : Draws) (secret : Bytes) :
    MfaService.decryptSecret aead key (MfaService.encryptSecret aead draws key secret) = some secret
  written (form : Form) (draws : Draws) (secret : Bytes) :
    form.Text (form.write aead draws key secret) ∧
      MfaService.decryptSecret aead key (form.write aead draws key secret) = some secret
  interpreted (value : Stored) (secret : Bytes) : MfaService.decryptSecret aead key value = some secret ↔
    ∃ form : Form,form.Interprets aead key value secret
  apart (value : Stored) (form other : Form) : (form.Text value → other.Text value → form = other) ∧
    ∀ secret found : Bytes,form.Interprets aead key value secret → other.Interprets aead key value found → form = other
  refused (value : Stored) (form : Form) : form.Marks value → (form.body value).length < form.minimum →
    MfaService.decryptSecret aead key value = none

theorem envelopes_read (aead : Aead) (key : Key) : Envelopes aead key where
  encrypted draws secret := Form.decryptSecret_write .current aead draws key secret
  written form draws secret := ⟨form.text_write aead draws key secret,form.decryptSecret_write aead draws key secret⟩
  interpreted _ _ := Form.interprets_iff
  apart _ _ _ := ⟨fun text also => Form.marks_one (Form.text_marks text) (Form.text_marks also),
    fun _ _ first second => Form.marks_one first.1 second.1⟩
  refused _ _ marked short := (Form.decryptSecret_marked aead key marked).trans (Form.open_short aead key short)

-- The utility and the service read every text alike, and each reads what the
-- other writes.
theorem utility_matches_service (aead : Aead) (key : Key) :
    (∀ value, MigrateMfaSecrets.unwrapCurrent aead value key = MfaService.decryptSecret aead key value) ∧
      ∀ (draws : Draws) (secret : Bytes),
        MfaService.decryptSecret aead key (MigrateMfaSecrets.wrapCurrent aead draws secret key) = some secret ∧
          MigrateMfaSecrets.unwrapCurrent aead (MfaService.encryptSecret aead draws key secret) key = some secret := by
  refine ⟨fun value => unwrapCurrent_eq aead value key,fun draws secret => ⟨decryptSecret_wrapCurrent,?_⟩⟩
  rw [unwrapCurrent_eq]
  exact Form.decryptSecret_write .current aead draws key secret

end Pezhwan.Migration
