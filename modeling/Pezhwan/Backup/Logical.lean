import Mathlib.Data.Int.Notation
import Pezhwan.Atomic.Enumeration
import Pezhwan.Backup.Archive
import Pezhwan.Atomic.Dict

namespace Pezhwan.Backup
open Atomic Numeric

-- The names that are enumerated as numbers, ahead of all others.
def arrayIndex (name : String) : Option ℕ := name.toNat?.filter fun n => n.repr = name ∧ n < 4294967295

def indexBefore : Option ℕ → Option ℕ → Bool
  | some m,some n => m < n
  | some _,none => true
  | none,_ => false

def names : Rank String where
  before a b := indexBefore (arrayIndex a) (arrayIndex b)
  irrefl a := by cases arrayIndex a <;> simp [indexBefore]
  trans a b c one two := by
    cases first : arrayIndex a <;> cases second : arrayIndex b <;> cases third : arrayIndex c <;>
      simp_all [indexBefore]
    omega
  weak a b c one two := by
    cases first : arrayIndex a <;> cases second : arrayIndex b <;> cases third : arrayIndex c <;>
      simp_all [indexBefore]
    omega

-- A number that is not finite or prints as another one is apart.
inductive BsonNumber where
  | finite (value : Numeral)
  | negativeZero
  | nan
  | infinity (negative : Bool)
  deriving Repr

inductive Bson where
  | null
  | bool (value : Bool)
  | number (value : BsonNumber)
  | string (value : String)
  | date (time : ℤ)
  | objectId (id : Bytes)
  | binary (subtype : ℕ) (buffer : Bytes)
  | array (items : List Bson)
  | document (fields : List (String × Bson))
  deriving Repr

-- What toJSON of a Date, an ObjectId and a Binary gives; of an invalid Date null.
structure Texts where
  dateText : ℤ → Option String
  objectIdText : Bytes → String
  binaryText : ℕ → Bytes → String

-- The value that JSON.stringify prints for what the driver has read.
mutual
def jsonOf (texts : Texts) : Bson → Json
  | .null => .null
  | .bool value => .bool value
  | .number (.finite value) => .number value
  | .number .negativeZero => .number (numeral 0)
  | .number .nan => .null
  | .number (.infinity _) => .null
  | .string value => .string value
  | .date time => ((texts.dateText time).map Json.string).getD .null
  | .objectId id => .string (texts.objectIdText id)
  | .binary subtype buffer => .string (texts.binaryText subtype buffer)
  | .array items => .array (jsonItems texts items)
  | .document fields => .object (names.enumerate (jsonFields texts fields))
termination_by structural value => value
def jsonItems (texts : Texts) : List Bson → List Json
  | [] => []
  | item :: rest => jsonOf texts item :: jsonItems texts rest
termination_by structural items => items
def jsonFields (texts : Texts) : List (String × Bson) → List (String × Json)
  | [] => []
  | field :: rest => jsonField texts field :: jsonFields texts rest
termination_by structural fields => fields
def jsonField (texts : Texts) : String × Bson → String × Json
  | (name,value) => (name,jsonOf texts value)
termination_by structural field => field
end

-- What the driver writes for what JSON.parse has read.
mutual
def bsonOf : Json → Bson
  | .null => .null
  | .bool value => .bool value
  | .number value => .number (.finite value)
  | .string value => .string value
  | .array items => .array (bsonItems items)
  | .object fields => .document (bsonFields fields)
termination_by structural json => json
def bsonItems : List Json → List Bson
  | [] => []
  | item :: rest => bsonOf item :: bsonItems rest
termination_by structural items => items
def bsonFields : List (String × Json) → List (String × Bson)
  | [] => []
  | field :: rest => bsonField field :: bsonFields rest
termination_by structural fields => fields
def bsonField : String × Json → String × Bson
  | (name,json) => (name,bsonOf json)
termination_by structural field => field
end

-- A value that JSON has: no dates, identifiers or binary data, and documents in
-- the order in which JavaScript enumerates them.
mutual
def Plain : Bson → Prop
  | .null | .bool _ | .string _ | .number (.finite _) => True
  | .array items => PlainItems items
  | .document fields => names.Ordered fields ∧ PlainFields fields
  | .number .negativeZero | .number .nan | .number (.infinity _) | .date _ | .objectId _ | .binary _ _ => False
termination_by structural value => value
def PlainItems : List Bson → Prop
  | [] => True
  | item :: rest => Plain item ∧ PlainItems rest
termination_by structural items => items
def PlainFields : List (String × Bson) → Prop
  | [] => True
  | field :: rest => PlainField field ∧ PlainFields rest
termination_by structural fields => fields
def PlainField : String × Bson → Prop
  | (_,value) => Plain value
termination_by structural field => field
end

section
variable (texts : Texts)

theorem jsonFields_map (fields : List (String × Bson)) : jsonFields texts fields = fields.map (jsonField texts) := by
  induction fields with
  | nil => rfl
  | cons field rest ih =>
    rw [List.map_cons,← ih]
    rfl

theorem bsonFields_map (fields : List (String × Json)) : bsonFields fields = fields.map bsonField := by
  induction fields with
  | nil => rfl
  | cons field rest ih =>
    rw [List.map_cons,← ih]
    rfl

@[simp] theorem jsonField_fst (field : String × Bson) : (jsonField texts field).1 = field.1 := by
  cases field
  rfl

@[simp] theorem bsonField_fst (field : String × Json) : (bsonField field).1 = field.1 := by
  cases field
  rfl

theorem plainFields_iff {fields : List (String × Bson)} : PlainFields fields ↔ ∀ field ∈ fields, PlainField field := by
  induction fields with
  | nil =>
    refine ⟨?_,fun _ => trivial⟩
    intro _ field listed
    cases listed
  | cons field rest ih =>
    rw [List.forall_mem_cons,← ih]
    exact Iff.rfl

theorem ordered_jsonFields {fields : List (String × Bson)} (ordered : names.Ordered fields) : names.Ordered (jsonFields texts fields) := by
  rw [jsonFields_map]
  exact ordered.map (jsonField_fst texts)

theorem ordered_bsonFields {fields : List (String × Json)} (ordered : names.Ordered fields) : names.Ordered (bsonFields fields) := by
  rw [bsonFields_map]
  exact ordered.map bsonField_fst

theorem plain_enumerated {fields : List (String × Bson)} (all : ∀ field ∈ fields, PlainField (bsonField (jsonField texts field))) :
    PlainFields (bsonFields (names.enumerate (jsonFields texts fields))) := by
  rw [plainFields_iff,bsonFields_map]
  intro field listed
  obtain ⟨json,enumerated,rfl⟩ := List.mem_map.mp listed
  have dumped := Rank.enumerate_mem enumerated
  rw [jsonFields_map] at dumped
  obtain ⟨source,found,rfl⟩ := List.mem_map.mp dumped
  exact all source found

-- What comes back is plain, whatever was dumped.
mutual
theorem plain_bsonOf (value : Bson) : Plain (bsonOf (jsonOf texts value)) := by
  cases value with
  | null => trivial
  | bool value => trivial
  | number value => cases value <;> trivial
  | string value => trivial
  | date time =>
    unfold jsonOf
    cases texts.dateText time <;> trivial
  | objectId id => trivial
  | binary subtype buffer => trivial
  | array items => exact plain_bsonItems items
  | document fields => exact ⟨ordered_bsonFields (Rank.ordered_enumerate _),plain_enumerated texts (plain_eachField fields)⟩
termination_by structural value
theorem plain_bsonItems (items : List Bson) : PlainItems (bsonItems (jsonItems texts items)) := by
  cases items with
  | nil => trivial
  | cons item rest => exact ⟨plain_bsonOf item,plain_bsonItems rest⟩
termination_by structural items
theorem plain_eachField (fields : List (String × Bson)) : ∀ field ∈ fields, PlainField (bsonField (jsonField texts field)) := by
  cases fields with
  | nil =>
    intro field listed
    cases listed
  | cons field rest => exact List.forall_mem_cons.mpr ⟨plain_bsonField field,plain_eachField rest⟩
termination_by structural fields
theorem plain_bsonField (field : String × Bson) : PlainField (bsonField (jsonField texts field)) := by
  obtain ⟨name,value⟩ := field
  exact plain_bsonOf value
termination_by structural field
end

-- What is plain comes back as it was.
mutual
theorem bsonOf_plain (value : Bson) (plain : Plain value) : bsonOf (jsonOf texts value) = value := by
  cases value with
  | null => rfl
  | bool value => rfl
  | number value =>
    cases value with
    | finite value => rfl
    | negativeZero => exact plain.elim
    | nan => exact plain.elim
    | infinity negative => exact plain.elim
  | string value => rfl
  | date time => exact plain.elim
  | objectId id => exact plain.elim
  | binary subtype buffer => exact plain.elim
  | array items =>
    have inner := bsonItems_plain items plain
    unfold jsonOf bsonOf
    rw [inner]
  | document fields =>
    have inner := bsonFields_plain fields plain.2
    unfold jsonOf bsonOf
    rw [Rank.enumerate_ordered (ordered_jsonFields texts plain.1),inner]
termination_by structural value
theorem bsonItems_plain (items : List Bson) (plain : PlainItems items) : bsonItems (jsonItems texts items) = items := by
  cases items with
  | nil => rfl
  | cons item rest =>
    unfold jsonItems bsonItems
    rw [bsonOf_plain item plain.1,bsonItems_plain rest plain.2]
termination_by structural items
theorem bsonFields_plain (fields : List (String × Bson)) (plain : PlainFields fields) : bsonFields (jsonFields texts fields) = fields := by
  cases fields with
  | nil => rfl
  | cons field rest =>
    unfold jsonFields bsonFields
    rw [bsonField_plain field plain.1,bsonFields_plain rest plain.2]
termination_by structural fields
theorem bsonField_plain (field : String × Bson) (plain : PlainField field) : bsonField (jsonField texts field) = field := by
  obtain ⟨name,value⟩ := field
  unfold jsonField bsonField
  rw [bsonOf_plain value plain]
termination_by structural field
end

-- The fields of a document that were dumped and restored.
def restoredFields (fields : List (String × Bson)) : List (String × Bson) := bsonFields (names.enumerate (jsonFields texts fields))

theorem restoredFields_plain {fields : List (String × Bson)} (ordered : names.Ordered fields) (plain : PlainFields fields) :
    restoredFields texts fields = fields := by
  unfold restoredFields
  rw [Rank.enumerate_ordered (ordered_jsonFields texts ordered),bsonFields_plain texts fields plain]

theorem plain_restoredFields (fields : List (String × Bson)) :
    names.Ordered (restoredFields texts fields) ∧ PlainFields (restoredFields texts fields) :=
  ⟨ordered_bsonFields (Rank.ordered_enumerate _),plain_enumerated texts (plain_eachField texts fields)⟩

end

-- A document as the server keeps it, with its `_id` in front.
structure Document where
  id : Bson
  fields : List (String × Bson)

-- What `indexes` lists of an index, the key and the version apart.
structure Index where
  v : Numeral
  key : List (String × Bson)
  options : List (String × Bson)

structure Definition where
  key : List (String × Bson)
  options : List (String × Bson)

structure Collection where
  documents : List Document
  indexes : List Index

abbrev Database := Dict String Collection

def Index.definition (index : Index) : Definition := ⟨index.key,index.options⟩

def Document.json (texts : Texts) (document : Document) : Json :=
  .object (names.enumerate (("_id",jsonOf texts document.id) :: jsonFields texts document.fields))

def Index.json (texts : Texts) (index : Index) : Json :=
  .object (names.enumerate (("v",.number index.v) :: ("key",.object (names.enumerate (jsonFields texts index.key))) ::
    jsonFields texts index.options))

-- What insertMany makes of a document that has an `_id`.
def documentOf : Json → Option Document
  | .object fields =>
    match Json.field "_id" (.object fields) with
    | some id => some ⟨bsonOf id,bsonFields (fields.filter fun field => field.1 ≠ "_id")⟩
    | none => none
  | _ => none

-- `const { key, ...options } = def; delete options.v`
def definitionOf : Json → Option Definition
  | .object fields =>
    match Json.field "key" (.object fields) with
    | some (.object key) => some ⟨bsonFields key,bsonFields (fields.filter fun field => field.1 ≠ "key" ∧ field.1 ≠ "v")⟩
    | _ => none
  | _ => none

structure Meta where
  documents : ℕ
  file : String
  indexes : List Json

abbrev Collections := List (String × Meta)

-- A file holds what was printed into it: JSON.parse reads that back.
inductive Content where
  | documents (items : List Json)
  | manifest (collections : Collections)

abbrev Files := Dict Path Content

-- What is not looked into: which file join(dir, name) is and whether it can be
-- written, and what the server takes, whatever the order of the documents.
structure Server where
  texts : Texts
  file : String → Path
  writable : Path → Bool
  version : Numeral
  storable : List Document → Bool
  builds : List Document → List Definition → Definition → Bool
  storable_perm : ∀ some_ others, some_.Perm others → storable some_ = storable others
  builds_perm : ∀ some_ others prior definition, some_.Perm others → builds some_ prior definition = builds others prior definition

section
variable (server : Server)

def idIndex : Index := ⟨server.version,[("_id",.number (.finite (numeral 1)))],[("name",.string "_id_")]⟩

def secondary (index : Index) : Bool :=
  match (index.options.find? fun option => option.1 = "name").map Prod.snd with
  | some (.string name) => name ≠ "_id_"
  | _ => true

def writeFile (files : Files) (name : String) (content : Content) : Option Files :=
  if server.writable (server.file name) then some (files.set (server.file name) content) else none

-- manifest.collections[name] = meta; under `__proto__` it sets the prototype.
def assign (collections : Collections) (name : String) (info : Meta) : Collections :=
  if name = "__proto__" then collections else names.place (name,info) collections

def metaOf (entry : String × Collection) : Meta :=
  ⟨entry.2.documents.length,entry.1 ++ ".json",
    ((idIndex server :: entry.2.indexes).filter secondary).map (Index.json server.texts)⟩

def dumpCollection (progress : Files × Collections) (entry : String × Collection) : Option (Files × Collections) :=
  match writeFile server progress.1 (entry.1 ++ ".json") (.documents (entry.2.documents.map (Document.json server.texts))) with
  | none => none
  | some files => some (files,assign progress.2 entry.1 (metaOf server entry))

def logicalDump (database : Database) : Option (Files × Collections) :=
  match database.entries.foldlM (dumpCollection server) (Dict.empty,[]) with
  | none => none
  | some (files,collections) => (writeFile server files "_dump.json" (.manifest collections)).map fun files => (files,collections)

def collectionOf (database : Database) (name : String) : Collection := (database.get? name).getD ⟨[],[]⟩

def insertMany (database : Database) (name : String) (items : List Json) : Option Database :=
  match items.mapM documentOf with
  | none => none
  | some documents =>
    let collection := collectionOf database name
    if server.storable (collection.documents ++ documents) then
      some (database.set name ⟨collection.documents ++ documents,collection.indexes⟩)
    else none

def createIndex (database : Database) (name : String) (definition : Definition) : Option Database :=
  let collection := collectionOf database name
  if server.builds collection.documents (collection.indexes.map Index.definition) definition then
    some (database.set name ⟨collection.documents,collection.indexes ++ [⟨server.version,definition.key,definition.options⟩]⟩)
  else none

-- How far a restore has come. A count is none where it is NaN.
structure Progress where
  database : Database
  restoredCount : Option ℕ
  restoredCollections : List String

def restoreDocuments (files : Files) (dropExisting : Bool) (progress : Progress) (entry : String × Meta) : Option Progress :=
  let database := if dropExisting then progress.database.erase entry.1 else progress.database
  let restored := progress.restoredCollections ++ [entry.1]
  match files.get? (server.file entry.2.file) with
  | none => none
  | some (.manifest _) => some ⟨database,none,restored⟩
  | some (.documents items) =>
    if items.isEmpty then some ⟨database,progress.restoredCount,restored⟩
    else
      match insertMany server database entry.1 items with
      | none => none
      | some database => some ⟨database,progress.restoredCount.map (· + items.length),restored⟩

def restoreIndex (name : String) (progress : Database × ℕ) (item : Json) : Option (Database × ℕ) :=
  match definitionOf item with
  | none => none
  | some definition => (createIndex server progress.1 name definition).map fun database => (database,progress.2 + 1)

def restoreIndexes (progress : Database × ℕ) (entry : String × Meta) : Option (Database × ℕ) :=
  entry.2.indexes.foldlM (restoreIndex server entry.1) progress

structure Restored where
  database : Database
  restoredCount : Option ℕ
  restoredIndexes : ℕ
  collections : List String

def logicalRestore (files : Files) (dropExisting : Bool) (database : Database) : Option Restored :=
  match files.get? (server.file "_dump.json") with
  | some (.manifest collections) =>
    match collections.foldlM (restoreDocuments server files dropExisting) ⟨database,some 0,[]⟩ with
    | none => none
    | some progress =>
      match collections.foldlM (restoreIndexes server) (progress.database,0) with
      | none => none
      | some done => some ⟨done.1,progress.restoredCount,done.2,progress.restoredCollections⟩
  | _ => none

end

end Pezhwan.Backup
