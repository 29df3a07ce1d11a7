import Pezhwan.Backup.Restore

namespace Pezhwan.Backup
open Atomic Numeric

-- Indexes that are built one after the other.
def built (server : Server) (documents : List Document) : List Definition → List Definition → Bool
  | _,[] => true
  | prior,definition :: rest => server.builds documents prior definition && built server documents (prior ++ [definition]) rest

-- A database that the server keeps.
structure Source (server : Server) where
  database : Database
  single : ∀ entry ∈ database.entries, ∀ document ∈ entry.2.documents, "_id" ∉ document.fields.map Prod.fst
  keyless : ∀ entry ∈ database.entries, ∀ index ∈ entry.2.indexes, "key" ∉ index.options.map Prod.fst
  versionless : ∀ entry ∈ database.entries, ∀ index ∈ entry.2.indexes, "v" ∉ index.options.map Prod.fst
  secondary : ∀ entry ∈ database.entries, ∀ index ∈ entry.2.indexes, secondary index = true
  storable : ∀ entry ∈ database.entries, server.storable entry.2.documents = true
  built : ∀ entry ∈ database.entries, built server entry.2.documents [] (entry.2.indexes.map Index.definition) = true

def Agree : Option Collection → Option Collection → Prop
  | none,none => True
  | some before,some after =>
    after.documents.Perm before.documents ∧ (after.indexes.map Index.definition).Perm (before.indexes.map Index.definition)
  | _,_ => False

def Same (before after : Database) : Prop := ∀ name, Agree (before.get? name) (after.get? name)

def RoundTrip (server : Server) (source : Source server) (dropExisting : Bool) : Prop :=
  ∃ files collections restored, logicalDump server source.database = some (files,collections) ∧
    logicalRestore server files dropExisting Dict.empty = some restored ∧ Same source.database restored.database

def Document.Plain (document : Document) : Prop :=
  Backup.Plain document.id ∧ names.Ordered document.fields ∧ PlainFields document.fields

def Definition.Plain (definition : Definition) : Prop :=
  (names.Ordered definition.key ∧ PlainFields definition.key) ∧ names.Ordered definition.options ∧ PlainFields definition.options

-- What was written last into a file.
def latest (server : Server) (path : Path) : List (String × Collection) → Option (List Document)
  | [] => none
  | entry :: rest => (latest server path rest).or (if server.file (entry.1 ++ ".json") = path then some entry.2.documents else none)

-- The documents in the file of a collection once the manifest is written.
def held (server : Server) (database : Database) (name : String) : List Document :=
  if server.file (name ++ ".json") = server.file "_dump.json" then []
  else (latest server (server.file (name ++ ".json")) database.entries).getD []

structure Kept (server : Server) (database : Database) (entry : String × Collection) : Prop where
  named : entry.1 ≠ "__proto__"
  writable : server.writable (server.file (entry.1 ++ ".json")) = true
  inhabited : entry.2.documents ≠ [] ∨ entry.2.indexes ≠ []
  documents : ∀ document ∈ entry.2.documents, document.Plain
  indexes : ∀ index ∈ entry.2.indexes, index.definition.Plain
  held : (held server database entry.1).Perm entry.2.documents

-- Collections that JSON can carry, each in a file of its own.
structure Faithful (server : Server) (database : Database) : Prop where
  manifest : server.writable (server.file "_dump.json") = true
  kept : ∀ entry ∈ database.entries, Kept server database entry

section
variable {server : Server} {source : Source server} {dropExisting : Bool} {database : Database} {entries : List (String × Collection)}

theorem restored_plain (texts : Texts) {document : Document} (plain : document.Plain) : document.restored texts = document := by
  obtain ⟨id,ordered,fields⟩ := plain
  unfold Document.restored
  rw [bsonOf_plain texts _ id,restoredFields_plain texts ordered fields]

theorem plain_restored (texts : Texts) (document : Document) : (document.restored texts).Plain :=
  ⟨plain_bsonOf texts document.id,plain_restoredFields texts document.fields⟩

theorem definition_plain (texts : Texts) {index : Index} (plain : index.definition.Plain) : index.restored texts = index.definition := by
  obtain ⟨⟨sorted,key⟩,ordered,options⟩ := plain
  have keys : restoredFields texts index.key = index.key := restoredFields_plain texts sorted key
  have rest : restoredFields texts index.options = index.options := restoredFields_plain texts ordered options
  unfold Index.restored
  rw [keys,rest]
  rfl

theorem plain_definition (texts : Texts) (index : Index) : (index.restored texts).Plain :=
  ⟨plain_restoredFields texts index.key,plain_restoredFields texts index.options⟩

theorem latest_cons (server : Server) (path : Path) (entry : String × Collection) (rest : List (String × Collection)) :
    latest server path (entry :: rest) =
      (latest server path rest).or (if server.file (entry.1 ++ ".json") = path then some entry.2.documents else none) := rfl

theorem latest_mem (found : latest server path entries = some documents) : ∃ other ∈ entries, documents = other.2.documents := by
  induction entries with
  | nil => cases found
  | cons first rest ih =>
    rw [latest_cons] at found
    cases later : latest server path rest with
    | some documents' =>
      rw [later,Option.some_or] at found
      cases found
      obtain ⟨other,member,same⟩ := ih later
      exact ⟨other,List.mem_cons_of_mem _ member,same⟩
    | none =>
      rw [later,Option.none_or] at found
      split at found
      · cases found
        exact ⟨first,List.mem_cons_self ..,rfl⟩
      · cases found

theorem latest_own (server : Server) (listed : entry ∈ entries) : ∃ documents, latest server (server.file (entry.1 ++ ".json")) entries = some documents := by
  induction entries with
  | nil => cases listed
  | cons first rest ih =>
    rw [latest_cons]
    rcases List.mem_cons.mp listed with rfl | rested
    · rw [if_pos rfl]
      cases latest server (server.file (entry.1 ++ ".json")) rest with
      | none => exact ⟨_,rfl⟩
      | some documents => exact ⟨documents,rfl⟩
    · obtain ⟨documents,found⟩ := ih rested
      rw [found]
      exact ⟨documents,rfl⟩

theorem held_mem (listed : document ∈ held server database name) : ∃ entry ∈ database.entries, document ∈ entry.2.documents := by
  unfold held at listed
  split at listed
  · cases listed
  · cases found : latest server (server.file (name ++ ".json")) database.entries with
    | none =>
      rw [found] at listed
      cases listed
    | some documents =>
      rw [found] at listed
      obtain ⟨entry,member,rfl⟩ := latest_mem found
      exact ⟨entry,member,listed⟩

theorem writeFile_some {files next : Files} (wrote : writeFile server files name content = some next) :
    server.writable (server.file name) = true ∧ next = files.set (server.file name) content := by
  unfold writeFile at wrote
  split at wrote
  · rename_i writable
    cases wrote
    exact ⟨writable,rfl⟩
  · cases wrote

theorem writeFile_writable (files : Files) (content : Content) (writable : server.writable (server.file name) = true) :
    writeFile server files name content = some (files.set (server.file name) content) := if_pos writable

def printed (server : Server) (documents : List Document) : Content := .documents (documents.map (Document.json server.texts))

theorem dumpCollection_some {progress next : Files × Collections} (dumped : dumpCollection server progress entry = some next) :
    server.writable (server.file (entry.1 ++ ".json")) = true ∧
      next = (progress.1.set (server.file (entry.1 ++ ".json")) (printed server entry.2.documents),
        assign progress.2 entry.1 (metaOf server entry)) := by
  unfold dumpCollection at dumped
  split at dumped
  · cases dumped
  · rename_i files wrote
    cases dumped
    obtain ⟨writable,rfl⟩ := writeFile_some wrote
    exact ⟨writable,rfl⟩

theorem dump_run {progress done : Files × Collections} (run : entries.foldlM (dumpCollection server) progress = some done) :
    (∀ entry ∈ entries, server.writable (server.file (entry.1 ++ ".json")) = true) ∧
      (∀ path, done.1.get? path = ((latest server path entries).map (printed server)).or (progress.1.get? path)) ∧
        done.2 = entries.foldl (fun collections entry => assign collections entry.1 (metaOf server entry)) progress.2 := by
  induction entries generalizing progress with
  | nil =>
    cases run
    refine ⟨?_,fun _ => rfl,rfl⟩
    intro entry listed
    cases listed
  | cons first rest ih =>
    rw [List.foldlM_cons] at run
    obtain ⟨middle,one,onward⟩ := Option.bind_eq_some_iff.mp run
    obtain ⟨writable,rfl⟩ := dumpCollection_some one
    obtain ⟨all,files,collections⟩ := ih onward
    refine ⟨List.forall_mem_cons.mpr ⟨writable,all⟩,?_,collections⟩
    intro path
    rw [files,latest_cons]
    cases latest server path rest with
    | some documents => rfl
    | none =>
      rw [Option.map_none,Option.none_or,Option.none_or,Dict.get?_set]
      by_cases same : server.file (first.1 ++ ".json") = path
      · rw [if_pos same,if_pos same.symm]
        rfl
      · rw [if_neg same,if_neg (Ne.symm same)]
        rfl

theorem dump_runs (all : ∀ entry ∈ entries, server.writable (server.file (entry.1 ++ ".json")) = true) (progress : Files × Collections) :
    ∃ done, entries.foldlM (dumpCollection server) progress = some done := by
  induction entries generalizing progress with
  | nil => exact ⟨progress,rfl⟩
  | cons first rest ih =>
    obtain ⟨writable,others⟩ := List.forall_mem_cons.mp all
    have one : dumpCollection server progress first = some (progress.1.set (server.file (first.1 ++ ".json")) (printed server first.2.documents),
        assign progress.2 first.1 (metaOf server first)) := by
      unfold dumpCollection
      rw [writeFile_writable _ _ writable]
      rfl
    obtain ⟨done,onward⟩ := ih others _
    refine ⟨done,?_⟩
    rw [List.foldlM_cons,one]
    exact onward

def listed (server : Server) (entries : List (String × Collection)) : Collections :=
  (entries.filter fun entry => entry.1 ≠ "__proto__").map fun entry => (entry.1,metaOf server entry)

theorem assign_fold (collections : Collections) :
    entries.foldl (fun collections entry => assign collections entry.1 (metaOf server entry)) collections =
      (listed server entries).foldl (fun placed entry => names.place entry placed) collections := by
  induction entries generalizing collections with
  | nil => rfl
  | cons first rest ih =>
    rw [List.foldl_cons,ih]
    unfold assign listed
    rw [List.filter_cons]
    by_cases proto : first.1 = "__proto__"
    · rw [if_pos proto,if_neg (by simpa using proto)]
    · rw [if_neg proto,if_pos (by simpa using proto)]
      rfl

theorem listed_mem : (name,info) ∈ listed server entries ↔ ∃ collection, (name,collection) ∈ entries ∧ name ≠ "__proto__" ∧
    info = metaOf server (name,collection) := by
  unfold listed
  rw [List.mem_map]
  constructor
  · intro found
    obtain ⟨⟨own,collection⟩,member,same⟩ := found
    obtain ⟨member,named⟩ := List.mem_filter.mp member
    cases same
    exact ⟨collection,member,by simpa using named,rfl⟩
  · intro found
    obtain ⟨collection,member,named,rfl⟩ := found
    exact ⟨(name,collection),List.mem_filter.mpr ⟨member,by simpa using named⟩,rfl⟩

theorem listed_names (distinct : (entries.map Prod.fst).Nodup) : ((listed server entries).map Prod.fst).Nodup := by
  unfold listed
  rw [List.map_map]
  exact (List.filter_sublist.map Prod.fst).nodup distinct

theorem logicalDump_some (dumped : logicalDump server database = some (files,collections)) :
    server.writable (server.file "_dump.json") = true ∧
      (∀ entry ∈ database.entries, server.writable (server.file (entry.1 ++ ".json")) = true) ∧
      (∀ path, files.get? path = if path = server.file "_dump.json" then some (.manifest collections)
        else (latest server path database.entries).map (printed server)) ∧
      collections = names.enumerate (listed server database.entries) := by
  unfold logicalDump at dumped
  split at dumped
  · cases dumped
  · rename_i files' collections' run
    obtain ⟨all,contents,placed⟩ := dump_run run
    obtain ⟨final,wrote,same⟩ := Option.map_eq_some_iff.mp dumped
    obtain ⟨manifest,rfl⟩ := writeFile_some wrote
    cases same
    refine ⟨manifest,all,?_,?_⟩
    · intro path
      rw [Dict.get?_set,contents,Dict.get?_empty,Option.or_none]
    · dsimp only at placed
      rw [placed,assign_fold]
      rfl

theorem logicalDump_runs (faithful : Faithful server database) : ∃ files collections, logicalDump server database = some (files,collections) := by
  obtain ⟨done,run⟩ := dump_runs (fun entry member => (faithful.kept entry member).writable) (Dict.empty,[])
  refine ⟨done.1.set (server.file "_dump.json") (.manifest done.2),done.2,?_⟩
  unfold logicalDump
  rw [run]
  dsimp only
  rw [writeFile_writable _ _ faithful.manifest]
  rfl

-- What the restore makes of it.
theorem documents_mapM {documents : List Document} (single : ∀ document ∈ documents, "_id" ∉ document.fields.map Prod.fst) :
    (documents.map (Document.json server.texts)).mapM documentOf = some (documents.map (Document.restored server.texts)) := by
  induction documents with
  | nil => rfl
  | cons first rest ih =>
    obtain ⟨one,others⟩ := List.forall_mem_cons.mp single
    rw [List.map_cons,List.mapM_cons,documentOf_json server.texts one,ih others]
    rfl

def reindexed (server : Server) (index : Index) : Index :=
  ⟨server.version,(index.restored server.texts).key,(index.restored server.texts).options⟩

theorem indexed_fold (server : Server) {indexes : List Index} (keyless : ∀ index ∈ indexes, "key" ∉ index.options.map Prod.fst)
    (versionless : ∀ index ∈ indexes, "v" ∉ index.options.map Prod.fst) (documents : List Document) (prior : List Index) :
    (indexes.map (Index.json server.texts)).foldlM (indexed server) (some ⟨documents,prior⟩) =
      if built server documents (prior.map Index.definition) (indexes.map (Index.restored server.texts)) then
        some (some ⟨documents,prior ++ indexes.map (reindexed server)⟩)
      else none := by
  induction indexes generalizing prior with
  | nil =>
    rw [List.map_nil,List.map_nil,built,if_pos rfl,List.map_nil,List.append_nil]
    rfl
  | cons first rest ih =>
    obtain ⟨key,keys⟩ := List.forall_mem_cons.mp keyless
    obtain ⟨version,versions⟩ := List.forall_mem_cons.mp versionless
    have one : indexed server (some ⟨documents,prior⟩) (first.json server.texts) =
        if server.builds documents (prior.map Index.definition) (first.restored server.texts) then
          some (some ⟨documents,prior ++ [reindexed server first]⟩)
        else none := by
      unfold indexed
      rw [definitionOf_json server.texts key version]
      rfl
    have onward := ih keys versions (prior ++ [reindexed server first])
    have shown : (prior ++ [reindexed server first]).map Index.definition = prior.map Index.definition ++ [first.restored server.texts] := by
      rw [List.map_append]
      rfl
    rw [shown,List.append_assoc] at onward
    rw [List.map_cons,List.map_cons,List.foldlM_cons,one,built]
    cases server.builds documents (prior.map Index.definition) (first.restored server.texts) with
    | false => rfl
    | true => exact onward

-- A collection as it comes back.
def comeBack (server : Server) (database : Database) (entry : String × Collection) : Option Collection :=
  if held server database entry.1 = [] ∧ entry.2.indexes = [] then none
  else some ⟨(held server database entry.1).map (Document.restored server.texts),entry.2.indexes.map (reindexed server)⟩

def Accepts (server : Server) (database : Database) (entry : String × Collection) : Prop :=
  (held server database entry.1 ≠ [] → server.storable ((held server database entry.1).map (Document.restored server.texts)) = true) ∧
    built server ((held server database entry.1).map (Document.restored server.texts)) []
      (entry.2.indexes.map (Index.restored server.texts)) = true

theorem metaOf_indexes (member : entry ∈ source.database.entries) :
    (metaOf server entry).indexes = entry.2.indexes.map (Index.json server.texts) := by
  have kept : entry.2.indexes.filter secondary = entry.2.indexes := List.filter_eq_self.mpr (source.secondary entry member)
  unfold metaOf
  rw [List.filter_cons,if_neg (by simp [secondary,idIndex]),kept]

theorem held_single (source : Source server) (name : String) : ∀ document ∈ held server source.database name, "_id" ∉ document.fields.map Prod.fst := by
  intro document listed
  obtain ⟨entry,member,inside⟩ := held_mem listed
  exact source.single entry member document inside

section
variable {files : Files} {collections : Collections} (dumped : logicalDump server source.database = some (files,collections))
include dumped

theorem refilled_held (member : entry ∈ source.database.entries) :
    refilled server files dropExisting (entry.1,metaOf server entry) none =
      if held server source.database entry.1 = [] then some none
      else if server.storable ((held server source.database entry.1).map (Document.restored server.texts)) then
        some (some ⟨(held server source.database entry.1).map (Document.restored server.texts),[]⟩)
      else none := by
  obtain ⟨_,_,contents,_⟩ := logicalDump_some dumped
  have before : (if dropExisting then none else none : Option Collection) = none := by cases dropExisting <;> rfl
  have single := held_single source entry.1
  unfold refilled
  rw [before]
  dsimp only
  have file : (metaOf server entry).file = entry.1 ++ ".json" := rfl
  rw [file,contents]
  unfold held at single ⊢
  by_cases same : server.file (entry.1 ++ ".json") = server.file "_dump.json"
  · rw [if_pos same,if_pos same,if_pos rfl]
  · obtain ⟨documents,found⟩ := latest_own server member
    rw [if_neg same,found,Option.getD_some] at single
    rw [if_neg same,if_neg same,found,Option.map_some,Option.getD_some]
    unfold printed
    dsimp only
    cases documents with
    | nil => rfl
    | cons first rest =>
      rw [documents_mapM single]
      rfl

theorem comeBack_outcome (dropExisting : Bool) (member : entry ∈ source.database.entries)
    (after : Option Collection) :
    (∃ middle, refilled server files dropExisting (entry.1,metaOf server entry) none = some middle ∧
      (metaOf server entry).indexes.foldlM (indexed server) middle = some after) ↔
      Accepts server source.database entry ∧ after = comeBack server source.database entry := by
  have keyless := source.keyless entry member
  have versionless := source.versionless entry member
  rw [refilled_held dumped member,metaOf_indexes member]
  unfold Accepts comeBack
  generalize held server source.database entry.1 = documents
  generalize entry.2.indexes = indexes at keyless versionless
  have fold (documents : List Document) := indexed_fold server keyless versionless documents []
  have bare : indexes ≠ [] → (indexes.map (Index.json server.texts)).foldlM (indexed server) none =
      (indexes.map (Index.json server.texts)).foldlM (indexed server) (some ⟨[],[]⟩) := by
    intro filled
    cases indexes with
    | nil => exact absurd rfl filled
    | cons first rest => rfl
  by_cases empty : documents = []
  · subst empty
    by_cases unindexed : indexes = []
    · subst unindexed
      constructor
      · intro outcome
        obtain ⟨middle,filled,run⟩ := outcome
        cases filled
        cases run
        exact ⟨⟨fun some_ => absurd rfl some_,rfl⟩,rfl⟩
      · intro accepted
        obtain ⟨_,rfl⟩ := accepted
        exact ⟨none,rfl,rfl⟩
    · have run := fold []
      rw [← bare unindexed] at run
      rw [if_pos rfl,if_neg (fun both => unindexed both.2)]
      constructor
      · intro outcome
        obtain ⟨middle,filled,ran⟩ := outcome
        cases filled
        rw [run] at ran
        split at ran
        · rename_i builds
          cases ran
          exact ⟨⟨fun some_ => absurd rfl some_,builds⟩,rfl⟩
        · cases ran
      · intro accepted
        obtain ⟨⟨_,builds⟩,rfl⟩ := accepted
        exact ⟨none,rfl,run.trans (if_pos builds)⟩
  · have run := fold (documents.map (Document.restored server.texts))
    have filled : ¬ (documents = [] ∧ indexes = []) := fun both => empty both.1
    rw [if_neg empty,if_neg filled]
    constructor
    · intro outcome
      obtain ⟨middle,filled,ran⟩ := outcome
      split at filled
      · rename_i storable
        cases filled
        rw [run] at ran
        split at ran
        · rename_i builds
          cases ran
          exact ⟨⟨fun _ => storable,builds⟩,rfl⟩
        · cases ran
      · cases filled
    · intro accepted
      obtain ⟨⟨storable,builds⟩,rfl⟩ := accepted
      refine ⟨_,if_pos (storable empty),?_⟩
      rw [run,List.map_nil,if_pos builds]
      rfl

theorem dumped_manifest :
    files.get? (server.file "_dump.json") = some (.manifest collections) := by
  obtain ⟨_,_,contents,_⟩ := logicalDump_some dumped
  rw [contents,if_pos rfl]

theorem dumped_names : (collections.map Prod.fst).Nodup := by
  obtain ⟨_,_,_,rfl⟩ := logicalDump_some dumped
  exact (Rank.ordered_enumerate _).1

theorem dumped_mem :
    (name,info) ∈ collections ↔ ∃ collection, (name,collection) ∈ source.database.entries ∧ name ≠ "__proto__" ∧
      info = metaOf server (name,collection) := by
  obtain ⟨_,_,_,rfl⟩ := logicalDump_some dumped
  rw [(Rank.enumerate_perm (listed_names source.database.distinct)).mem_iff]
  exact listed_mem

theorem dumped_absent
    (absent : ∀ collection, (name,collection) ∈ source.database.entries → name = "__proto__") : name ∉ collections.map Prod.fst := by
  intro listed
  obtain ⟨⟨_,info⟩,inside,rfl⟩ := List.mem_map.mp listed
  obtain ⟨collection,member,other,_⟩ := (dumped_mem dumped).mp inside
  exact other (absent collection member)

theorem logicalRestore_some (restored : logicalRestore server files dropExisting Dict.empty = some done) :
    (∀ entry ∈ source.database.entries, entry.1 ≠ "__proto__" →
      Accepts server source.database entry ∧ done.database.get? entry.1 = comeBack server source.database entry) ∧
      ∀ name, name ∉ collections.map Prod.fst → done.database.get? name = none := by
  have distinct := dumped_names dumped
  unfold logicalRestore at restored
  rw [dumped_manifest dumped] at restored
  dsimp only at restored
  split at restored
  · cases restored
  · rename_i progress first
    split at restored
    · cases restored
    · rename_i final second
      cases restored
      have filled := (documents_apart server files dropExisting).outcomes distinct first
      have indexed_ := (indexes_apart server).outcomes distinct second
      refine ⟨?_,?_⟩
      · intro entry member named
        have inside : (entry.1,metaOf server entry) ∈ collections := (dumped_mem dumped).mpr ⟨entry.2,member,named,rfl⟩
        exact (comeBack_outcome dumped dropExisting member _).mp ⟨_,filled _ inside,indexed_ _ inside⟩
      · intro name absent
        have one := (documents_apart server files dropExisting).frame first absent
        have two := (indexes_apart server).frame second absent
        exact two.trans one

theorem logicalRestore_runs (dropExisting : Bool)
    (accepts : ∀ entry ∈ source.database.entries, Accepts server source.database entry) :
    ∃ done, logicalRestore server files dropExisting Dict.empty = some done := by
  have distinct := dumped_names dumped
  have outcomes : ∀ entry ∈ collections, ∃ middle after, refilled server files dropExisting entry none = some middle ∧
      entry.2.indexes.foldlM (indexed server) middle = some after := by
    intro entry inside
    obtain ⟨name,info⟩ := entry
    obtain ⟨collection,member,_,rfl⟩ := (dumped_mem dumped).mp inside
    obtain ⟨middle,filled,run⟩ := (comeBack_outcome dumped dropExisting member _).mpr ⟨accepts _ member,rfl⟩
    exact ⟨middle,_,filled,run⟩
  have fills : ∀ entry ∈ collections, refilled server files dropExisting entry (databaseOf ⟨Dict.empty,some 0,[]⟩ entry.1) ≠ none := by
    intro entry inside
    obtain ⟨middle,_,filled,_⟩ := outcomes entry inside
    have blank : databaseOf ⟨Dict.empty,some 0,[]⟩ entry.1 = none := rfl
    rw [blank,filled]
    exact Option.some_ne_none _
  obtain ⟨progress,first⟩ := (documents_apart server files dropExisting).runs distinct fills
  have filled := (documents_apart server files dropExisting).outcomes distinct first
  have builds : ∀ entry ∈ collections, entry.2.indexes.foldlM (indexed server) (progress.database.get? entry.1) ≠ none := by
    intro entry inside
    obtain ⟨middle,after,middle_,run⟩ := outcomes entry inside
    have same := middle_.symm.trans (filled entry inside)
    cases same
    have view : databaseOf progress entry.1 = progress.database.get? entry.1 := rfl
    rw [← view,run]
    exact Option.some_ne_none _
  obtain ⟨final,second⟩ : ∃ final, collections.foldlM (restoreIndexes server) (progress.database,0) = some final :=
    (indexes_apart server).runs distinct builds
  refine ⟨⟨final.1,progress.restoredCount,final.2,progress.restoredCollections⟩,?_⟩
  unfold logicalRestore
  rw [dumped_manifest dumped]
  dsimp only
  rw [first]
  dsimp only
  rw [second]

end

theorem held_plain (server : Server) (plain : ∀ entry ∈ database.entries, ∀ document ∈ entry.2.documents, document.Plain) (name : String) :
    (held server database name).map (Document.restored server.texts) = held server database name := by
  refine (List.map_congr_left ?_).trans (List.map_id _)
  intro document listed
  obtain ⟨entry,member,inside⟩ := held_mem listed
  exact restored_plain server.texts (plain entry member document inside)

theorem indexes_plain {indexes : List Index} (plain : ∀ index ∈ indexes, index.definition.Plain) (texts : Texts) :
    indexes.map (Index.restored texts) = indexes.map Index.definition :=
  List.map_congr_left fun index listed => definition_plain texts (plain index listed)

theorem reindexed_definition (server : Server) (indexes : List Index) :
    (indexes.map (reindexed server)).map Index.definition = indexes.map (Index.restored server.texts) := by
  rw [List.map_map]
  rfl

theorem built_perm {documents others : List Document} (same : documents.Perm others) (prior definitions : List Definition) :
    built server documents prior definitions = built server others prior definitions := by
  induction definitions generalizing prior with
  | nil => rfl
  | cons definition rest ih => rw [built,built,ih,server.builds_perm documents others prior definition same]

theorem kept_accepts (faithful : Faithful server source.database) (member : entry ∈ source.database.entries) :
    Accepts server source.database entry := by
  have kept := faithful.kept entry member
  have plain := held_plain server (fun entry member => (faithful.kept entry member).documents) entry.1
  unfold Accepts
  rw [plain,indexes_plain kept.indexes,server.storable_perm _ _ kept.held,built_perm kept.held]
  exact ⟨fun _ => source.storable entry member,source.built entry member⟩

theorem faithful_restores (dropExisting : Bool) (faithful : Faithful server source.database) : RoundTrip server source dropExisting := by
  obtain ⟨files,collections,dumped⟩ := logicalDump_runs faithful
  obtain ⟨done,restored⟩ := logicalRestore_runs dumped dropExisting fun entry member => kept_accepts faithful member
  obtain ⟨back,absent⟩ := logicalRestore_some dumped restored
  refine ⟨files,collections,done,dumped,restored,?_⟩
  intro name
  cases found : source.database.get? name with
  | none =>
    have nothing : name ∉ collections.map Prod.fst := by
      refine dumped_absent dumped ?_
      intro collection member
      rw [Dict.get?_iff.mpr member] at found
      cases found
    rw [absent name nothing]
    trivial
  | some collection =>
    have member : (name,collection) ∈ source.database.entries := Dict.get?_iff.mp found
    have kept := faithful.kept _ member
    have plain := held_plain server (fun entry member => (faithful.kept entry member).documents) name
    obtain ⟨_,came⟩ := back _ member kept.named
    have some_ : ¬ (held server source.database name = [] ∧ collection.indexes = []) := by
      intro both
      have empty := kept.held
      rw [both.1] at empty
      rcases kept.inhabited with filled | filled
      · exact filled empty.nil_eq.symm
      · exact filled both.2
    unfold comeBack at came
    rw [if_neg some_,plain] at came
    rw [came]
    refine ⟨kept.held,?_⟩
    rw [reindexed_definition,indexes_plain kept.indexes]

theorem roundTrip_come (dumped : logicalDump server source.database = some (files,collections))
    (restored : logicalRestore server files dropExisting Dict.empty = some done) (same : Same source.database done.database)
    (member : entry ∈ source.database.entries) :
    entry.1 ≠ "__proto__" ∧ (held server source.database entry.1 ≠ [] ∨ entry.2.indexes ≠ []) ∧
      ((held server source.database entry.1).map (Document.restored server.texts)).Perm entry.2.documents ∧
      (entry.2.indexes.map (Index.restored server.texts)).Perm (entry.2.indexes.map Index.definition) := by
  obtain ⟨name,collection⟩ := entry
  obtain ⟨back,absent⟩ := logicalRestore_some dumped restored
  have agree := same name
  rw [Dict.get?_iff.mpr member] at agree
  by_cases named : name = "__proto__"
  · rw [absent name (dumped_absent dumped fun _ _ => named)] at agree
    exact agree.elim
  · obtain ⟨_,came⟩ := back _ member named
    rw [came] at agree
    unfold comeBack at agree
    split at agree
    · exact agree.elim
    · rename_i filled
      obtain ⟨documents,indexes⟩ := agree
      rw [reindexed_definition] at indexes
      exact ⟨named,not_and_or.mp filled,documents,indexes⟩

theorem restores_faithful (restores : RoundTrip server source dropExisting) : Faithful server source.database := by
  obtain ⟨files,collections,done,dumped,restored,same⟩ := restores
  obtain ⟨manifest,writable,_,_⟩ := logicalDump_some dumped
  have come (entry : String × Collection) (member : entry ∈ source.database.entries) := roundTrip_come dumped restored same member
  have plain : ∀ entry ∈ source.database.entries, ∀ document ∈ entry.2.documents, document.Plain := by
    intro entry member document listed
    obtain ⟨_,_,documents,_⟩ := come entry member
    obtain ⟨before,_,rfl⟩ := List.mem_map.mp (documents.mem_iff.mpr listed)
    exact plain_restored server.texts before
  refine ⟨manifest,?_⟩
  intro entry member
  obtain ⟨named,filled,documents,indexes⟩ := come entry member
  have same_ := held_plain server plain entry.1
  rw [same_] at documents
  refine ⟨named,writable entry member,?_,plain entry member,?_,documents⟩
  · rcases filled with filled | filled
    · left
      intro empty
      rw [empty] at documents
      exact filled documents.eq_nil
    · exact .inr filled
  · intro index listed
    have back := indexes.mem_iff.mpr (List.mem_map_of_mem listed)
    obtain ⟨before,_,same'⟩ := List.mem_map.mp back
    rw [← same']
    exact plain_definition server.texts before

end

-- A dump brings a database back exactly when JSON has a word for all that is in it.
theorem backup_restores_iff (server : Server) (source : Source server) (dropExisting : Bool) :
    RoundTrip server source dropExisting ↔ Faithful server source.database :=
  ⟨restores_faithful,faithful_restores dropExisting⟩

section Sessions

-- One session, which is to go when it expires.
def sessions : Collection :=
  ⟨[⟨.string "s1",[("expiresAt",.date 0)]⟩],
    [⟨numeral 2,[("expiresAt",.number (.finite (numeral 1)))],[("name",.string "expiresAt_1"),("expireAfterSeconds",.number (.finite (numeral 0)))]⟩]⟩

def sampleServer : Server where
  texts := ⟨fun _ => some "1970-01-01T00:00:00.000Z",fun _ => "",fun _ _ => ""⟩
  file name := ["dump",name]
  writable _ := true
  version := numeral 2
  storable _ := true
  builds _ _ _ := true
  storable_perm _ _ _ := rfl
  builds_perm _ _ _ _ _ := rfl

def sessionStore : Source sampleServer where
  database := ⟨[("sessions",sessions)],by decide⟩
  single := by decide
  keyless := by decide
  versionless := by decide
  secondary := by decide
  storable _ _ := rfl
  built := by decide

-- The date comes back as a text, which never expires.
theorem session_degrades : ¬ ∀ (server : Server) (source : Source server) (dropExisting : Bool), RoundTrip server source dropExisting := by
  intro claim
  have faithful := restores_faithful (claim sampleServer sessionStore false)
  have kept := faithful.kept ("sessions",sessions) (List.mem_singleton_self _)
  have plain := kept.documents _ (List.mem_singleton_self _)
  exact plain.2.2.1

end Sessions
end Pezhwan.Backup
