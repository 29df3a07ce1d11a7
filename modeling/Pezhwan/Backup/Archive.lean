import Pezhwan.Json
import Pezhwan.Numeric.Base64
import Pezhwan.Numeric.Bytes
import Std.Data.String.ToNat

namespace Pezhwan.Backup
open Numeric

theorem numerals_digit : ∀ n < 58, 48 ≤ n → Char.ofNat n ∈ numerals := by decide

theorem numeral_repr (n : ℕ) : ∀ c ∈ n.repr.toList, c ∈ numerals := by
  intro c listed
  rw [Nat.toList_repr] at listed
  have digit := Nat.isDigit_of_mem_toDigits (by omega) (by omega) listed
  simp only [Char.isDigit,Bool.and_eq_true,decide_eq_true_eq] at digit
  have low : 48 ≤ c.toNat := digit.1
  have high : c.toNat ≤ 57 := digit.2
  have found := numerals_digit c.toNat (by omega) low
  rwa [Char.ofNat_toNat] at found

def numeral (n : ℕ) : Numeral := ⟨n.repr,by simp,numeral_repr n⟩

inductive Offset where
  | at (n : ℕ)
  | other (literal : String)
  deriving DecidableEq, Repr

abbrev Path := List String

inductive Refusal where
  | missingHeader
  | unreadableHeader
  | unsupportedFormat (format : Option Json)
  | missingKey
  | undecryptable
  | corrupt
  | malformedFiles
  | unwritable

-- What is not looked into: JSON.parse of a line, gzip, Buffer.from of a value
-- that is no string, the arithmetic of numbers that are not natural, SHA-256
-- and which files can be written.
structure Env where
  parse : Bytes → Option Json
  gzip : Bytes → Bytes
  gunzip : Bytes → Option Bytes
  undone : ∀ bytes, gunzip (gzip bytes) = some bytes
  bytesOf : Option Json → Option Bytes
  stop : Offset → Option Json → ℕ → Option Offset
  subarray : Bytes → Offset → Offset → Bytes
  sha256Hex : Bytes → String
  writable : Path → String → Bool

namespace Json

def field (name : String) : Json → Option Json
  | .object fields => (fields.find? fun entry => entry.1 = name).map Prod.snd
  | _ => none

end Json

-- What AES-256-GCM makes of one payload.
structure Cipher where
  iv : Bytes
  ciphertext : Bytes
  tag : Bytes
  deriving DecidableEq, Repr

structure Encrypted where
  ciphertext : Bytes
  iv : Option Bytes
  tag : Option Bytes
  encrypted : Bool

def encrypt (payload : Bytes) : Option Cipher → Encrypted
  | none => ⟨payload,none,none,false⟩
  | some cipher => ⟨cipher.ciphertext,some cipher.iv,some cipher.tag,true⟩

structure Packaged where
  archive : Bytes
  checksum : String
  bytes : ℕ
  fileCount : ℕ
  createdAt : String
  encrypted : Bool

def visible (name : String) : Bool := name.toList.head? ≠ some '.'

def fileMap (files : List (String × Bytes)) : List Json :=
  files.map fun file => .object [("name",.string file.1),("length",.number (numeral file.2.length))]

def base64 : Option Bytes → Json
  | none => .null
  | some bytes => .string (String.ofList (Base64.encode bytes))

def header (files : List (String × Bytes)) (strategy createdAt : String) (enc : Encrypted) : Json :=
  .object [("format",.string "pezhwan-backup-v1"),("strategy",.string strategy),("fileCount",.number (numeral files.length)),
    ("createdAt",.string createdAt),("encrypted",.bool enc.encrypted),("iv",base64 enc.iv),("tag",base64 enc.tag),
    ("files",.array (fileMap files))]

-- `entries` is what readdir lists, with the contents of the files.
def packageBackup (env : Env) (entries : List (String × Bytes)) (strategy createdAt : String) (cipher : Option Cipher) : Packaged :=
  let files := entries.filter fun entry => visible entry.1
  let enc := encrypt (env.gzip (files.flatMap Prod.snd)) cipher
  let archive := utf8Bytes (header files strategy createdAt enc).stringify ++ [10] ++ enc.ciphertext
  ⟨archive,env.sha256Hex archive,archive.length,files.length,createdAt,enc.encrypted⟩

def segments : List Char → List (List Char)
  | [] => [[]]
  | c :: rest =>
    if c = '/' then [] :: segments rest
    else
      match segments rest with
      | [] => [[c]]
      | first :: more => (c :: first) :: more

def enter (path : Path) (segment : String) : Path :=
  if segment = "" ∨ segment = "." then path
  else if segment = ".." then path.dropLast
  else path ++ [segment]

def join (outDir : Path) (name : String) : Path := ((segments name.toList).map String.ofList).foldl enter outDir

def bufferFrom (env : Env) : Option Json → Option Bytes
  | some (.string text) => some (Base64.decode text.toList)
  | value => env.bytesOf value

abbrev Decryption := (iv tag payload : Bytes) → Option Bytes

def decrypted (env : Env) (key : Option Decryption) (header : Json) (payload : Bytes) : Except Refusal Bytes :=
  if Json.truthy (Json.field "encrypted" header) then
    match key with
    | none => .error .missingKey
    | some decrypt =>
      match bufferFrom env (Json.field "iv" header),bufferFrom env (Json.field "tag" header) with
      | some iv,some tag =>
        match decrypt iv tag payload with
        | some payload => .ok payload
        | none => .error .undecryptable
      | _,_ => .error .undecryptable
  else .ok payload

def openArchive (env : Env) (key : Option Decryption) (raw : Bytes) : Except Refusal (Json × Bytes) :=
  match raw.idxOf? 10 with
  | none => .error .missingHeader
  | some nl =>
    match env.parse (raw.take nl) with
    | none => .error .unreadableHeader
    | some header =>
      match Json.field "format" header with
      | some (.string "pezhwan-backup-v1") =>
        match decrypted env key header (raw.drop (nl + 1)) with
        | .error refusal => .error refusal
        | .ok payload =>
          match env.gunzip payload with
          | none => .error .corrupt
          | some payload => .ok (header,payload)
      | format => .error (.unsupportedFormat format)

def advance (env : Env) (offset : Offset) (length : Option Json) (size : ℕ) : Option Offset :=
  match offset,length with
  | .at n,some (.number value) =>
    match value.literal.toNat? with
    | some m => some (.at (min (n + m) size))
    | none => env.stop offset length size
  | _,_ => env.stop offset length size

def slice (env : Env) (payload : Bytes) : Offset → Offset → Bytes
  | .at start,.at stop => (payload.take stop).drop start
  | start,stop => env.subarray payload start stop

-- The files that have been written, and how it ended.
abbrev Written := List (Path × Bytes)

def writeFiles (env : Env) (outDir : Path) (payload : Bytes) : Offset → List Json → Written × Except Refusal (List String)
  | _,[] => ([],.ok [])
  | offset,f :: rest =>
    match Json.field "name" f,advance env offset (Json.field "length" f) payload.length with
    | some (.string name),some stop =>
      if env.writable outDir name then
        let done := writeFiles env outDir payload stop rest
        ((join outDir name,slice env payload offset stop) :: done.1,done.2.map (name :: ·))
      else ([],.error .unwritable)
    | _,_ => ([],.error .malformedFiles)

-- What `for (const f of header.files)` goes through; a character of a text is
-- no file.
def filesOf (header : Json) : Option (List Json) :=
  match Json.field "files" header with
  | some (.array items) => some items
  | some (.string "") => some []
  | _ => none

structure Unpackaged where
  header : Json
  dumpDir : Path
  files : List String
  checksum : String

def unpackageBackup (env : Env) (key : Option Decryption) (outDir : Path) (raw : Bytes) : Written × Except Refusal Unpackaged :=
  match openArchive env key raw with
  | .error refusal => ([],.error refusal)
  | .ok (header,payload) =>
    match filesOf header with
    | none => ([],.error .malformedFiles)
    | some items =>
      let done := writeFiles env outDir payload (.at 0) items
      (done.1,done.2.map fun files => ⟨header,outDir,files,env.sha256Hex raw⟩)

end Pezhwan.Backup
