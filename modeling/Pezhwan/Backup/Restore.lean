import Pezhwan.Atomic.Enumeration
import Pezhwan.Backup.Logical

namespace Pezhwan.Backup
open Atomic Numeric

def Document.restored (texts : Texts) (document : Document) : Document :=
  ⟨bsonOf (jsonOf texts document.id),restoredFields texts document.fields⟩

def Index.restored (texts : Texts) (index : Index) : Definition := ⟨restoredFields texts index.key,restoredFields texts index.options⟩

section
variable (texts : Texts)

theorem field_enumerate {fields : List (String × Json)} (only : fields.filter (fun field => field.1 = name) = [(name,json)]) :
    Json.field name (.object (names.enumerate fields)) = some json := by
  have alone := Rank.enumerate_filter names (fun key => decide (key = name)) fields
  rw [only] at alone
  unfold Json.field
  dsimp only
  rw [← List.head?_filter,alone]
  rfl

theorem filter_jsonFields (keep : String → Bool) {fields : List (String × Bson)} (all : ∀ name ∈ fields.map Prod.fst, keep name = true) :
    (jsonFields texts fields).filter (fun field => keep field.1) = jsonFields texts fields := by
  rw [List.filter_eq_self,jsonFields_map]
  intro field listed
  obtain ⟨source,found,rfl⟩ := List.mem_map.mp listed
  rw [jsonField_fst]
  exact all source.1 (List.mem_map_of_mem found)

theorem filter_jsonFields_nil (keep : String → Bool) {fields : List (String × Bson)} (all : ∀ name ∈ fields.map Prod.fst, keep name = false) :
    (jsonFields texts fields).filter (fun field => keep field.1) = [] := by
  rw [List.filter_eq_nil_iff,jsonFields_map]
  intro field listed
  obtain ⟨source,found,rfl⟩ := List.mem_map.mp listed
  rw [jsonField_fst,all source.1 (List.mem_map_of_mem found)]
  exact Bool.false_ne_true

theorem documentOf_json {document : Document} (single : "_id" ∉ document.fields.map Prod.fst) :
    documentOf (document.json texts) = some (document.restored texts) := by
  have none_ : (jsonFields texts document.fields).filter (fun field => decide (field.1 = "_id")) = [] :=
    filter_jsonFields_nil texts (fun name => decide (name = "_id")) fun name listed => by
      rw [decide_eq_false_iff_not]
      rintro rfl
      exact single listed
  have all : (jsonFields texts document.fields).filter (fun field => decide (field.1 ≠ "_id")) = jsonFields texts document.fields :=
    filter_jsonFields texts (fun name => decide (name ≠ "_id")) fun name listed => by
      rw [decide_eq_true_eq]
      rintro rfl
      exact single listed
  have own : Json.field "_id" (.object (names.enumerate (("_id",jsonOf texts document.id) :: jsonFields texts document.fields))) =
      some (jsonOf texts document.id) := field_enumerate (by rw [List.filter_cons,if_pos (by simp),none_])
  have rest := Rank.enumerate_filter names (fun name => decide (name ≠ "_id")) (("_id",jsonOf texts document.id) :: jsonFields texts document.fields)
  rw [List.filter_cons,if_neg (by simp),all] at rest
  unfold documentOf Document.json
  dsimp only
  rw [own,rest]
  rfl

theorem definitionOf_json {index : Index} (keyless : "key" ∉ index.options.map Prod.fst) (versionless : "v" ∉ index.options.map Prod.fst) :
    definitionOf (index.json texts) = some (index.restored texts) := by
  have none_ : (jsonFields texts index.options).filter (fun field => decide (field.1 = "key")) = [] :=
    filter_jsonFields_nil texts (fun name => decide (name = "key")) fun name listed => by
      rw [decide_eq_false_iff_not]
      rintro rfl
      exact keyless listed
  have all : (jsonFields texts index.options).filter (fun field => decide (field.1 ≠ "key" ∧ field.1 ≠ "v")) = jsonFields texts index.options :=
    filter_jsonFields texts (fun name => decide (name ≠ "key" ∧ name ≠ "v")) fun name listed => by
      rw [decide_eq_true_eq]
      refine ⟨?_,?_⟩
      · rintro rfl
        exact keyless listed
      · rintro rfl
        exact versionless listed
  have own : Json.field "key" (.object (names.enumerate (("v",.number index.v) ::
      ("key",.object (names.enumerate (jsonFields texts index.key))) :: jsonFields texts index.options))) =
      some (.object (names.enumerate (jsonFields texts index.key))) :=
    field_enumerate (by rw [List.filter_cons,if_neg (by simp),List.filter_cons,if_pos (by simp),none_])
  have rest := Rank.enumerate_filter names (fun name => decide (name ≠ "key" ∧ name ≠ "v")) (("v",Json.number index.v) ::
    ("key",.object (names.enumerate (jsonFields texts index.key))) :: jsonFields texts index.options)
  rw [List.filter_cons,if_neg (by simp),List.filter_cons,if_neg (by simp),all] at rest
  unfold definitionOf Index.json
  dsimp only
  rw [own]
  dsimp only
  rw [rest]
  rfl

end

section
variable (server : Server) (files : Files) (dropExisting : Bool)

def databaseOf (progress : Progress) (name : String) : Option Collection := progress.database.get? name

-- What the first loop makes of a collection.
def refilled (entry : String × Meta) (before : Option Collection) : Option (Option Collection) :=
  let before := if dropExisting then none else before
  match files.get? (server.file entry.2.file) with
  | none => none
  | some (.manifest _) => some before
  | some (.documents items) =>
    if items.isEmpty then some before
    else
      match items.mapM documentOf with
      | none => none
      | some documents =>
        let collection := before.getD ⟨[],[]⟩
        if server.storable (collection.documents ++ documents) then some (some ⟨collection.documents ++ documents,collection.indexes⟩)
        else none

theorem dropped_get? (database : Database) (name key : String) :
    (if dropExisting then database.erase name else database).get? key =
      if dropExisting ∧ key = name then none else database.get? key := by
  cases dropExisting with
  | false => simp
  | true =>
    rw [if_pos rfl,Dict.get?_erase]
    simp

theorem insertMany_own (database : Database) (name : String) (items : List Json) :
    (insertMany server database name items).map (fun next => next.get? name) =
      match items.mapM documentOf with
      | none => none
      | some documents =>
        let collection := (database.get? name).getD ⟨[],[]⟩
        if server.storable (collection.documents ++ documents) then some (some ⟨collection.documents ++ documents,collection.indexes⟩)
        else none := by
  unfold insertMany collectionOf
  cases items.mapM documentOf with
  | none => rfl
  | some documents =>
    dsimp only
    split
    · rw [Option.map_some,Dict.get?_set_self]
    · rfl

theorem insertMany_others {database next : Database} (inserted : insertMany server database name items = some next) (other : key ≠ name) :
    next.get? key = database.get? key := by
  unfold insertMany at inserted
  split at inserted
  · cases inserted
  · dsimp only at inserted
    split at inserted
    · cases inserted
      exact Dict.get?_set_ne _ _ other
    · cases inserted

theorem documents_apart : Apart (restoreDocuments server files dropExisting) databaseOf (refilled server files dropExisting) where
  own progress entry := by
    have gone : (if dropExisting then progress.database.erase entry.1 else progress.database).get? entry.1 =
        if dropExisting then none else databaseOf progress entry.1 := by
      rw [dropped_get?]
      simp [databaseOf]
    unfold restoreDocuments refilled
    rw [← gone]
    dsimp only
    cases files.get? (server.file entry.2.file) with
    | none => rfl
    | some content =>
      cases content with
      | manifest collections => rfl
      | documents items =>
        dsimp only
        cases items.isEmpty with
        | true => rfl
        | false =>
          rw [if_neg Bool.false_ne_true,if_neg Bool.false_ne_true]
          refine Eq.trans ?_ (insertMany_own server _ entry.1 items)
          cases insertMany server (if dropExisting then progress.database.erase entry.1 else progress.database) entry.1 items with
          | none => rfl
          | some next => rfl
  others progress entry next stepped key other := by
    have kept : (if dropExisting then progress.database.erase entry.1 else progress.database).get? key = databaseOf progress key := by
      rw [dropped_get?]
      simp [databaseOf,other]
    unfold restoreDocuments at stepped
    dsimp only at stepped
    split at stepped
    · cases stepped
    · cases stepped
      exact kept
    · split at stepped
      · cases stepped
        exact kept
      · split at stepped
        · cases stepped
        · rename_i inserted
          cases stepped
          rw [← kept]
          exact insertMany_others server inserted other

-- What one definition makes of a collection.
def indexed (before : Option Collection) (item : Json) : Option (Option Collection) :=
  match definitionOf item with
  | none => none
  | some definition =>
    let collection := before.getD ⟨[],[]⟩
    if server.builds collection.documents (collection.indexes.map Index.definition) definition then
      some (some ⟨collection.documents,collection.indexes ++ [⟨server.version,definition.key,definition.options⟩]⟩)
    else none

theorem restoreIndex_own (name : String) (progress : Database × ℕ) (item : Json) :
    (restoreIndex server name progress item).map (fun next => next.1.get? name) = indexed server (progress.1.get? name) item := by
  unfold restoreIndex indexed createIndex collectionOf
  cases definitionOf item with
  | none => rfl
  | some definition =>
    dsimp only
    split
    · rw [Option.map_some,Option.map_some,Dict.get?_set_self]
    · rfl

theorem restoreIndex_others {progress next : Database × ℕ} (stepped : restoreIndex server name progress item = some next) (other : key ≠ name) :
    next.1.get? key = progress.1.get? key := by
  unfold restoreIndex createIndex at stepped
  split at stepped
  · cases stepped
  · dsimp only at stepped
    split at stepped
    · cases stepped
      exact Dict.get?_set_ne _ _ other
    · cases stepped

theorem indexes_apart : Apart (restoreIndexes server) (fun progress name => progress.1.get? name)
    (fun entry before => entry.2.indexes.foldlM (indexed server) before) where
  own progress entry := by
    unfold restoreIndexes
    generalize entry.2.indexes = items
    induction items generalizing progress with
    | nil => rfl
    | cons item rest ih =>
      rw [List.foldlM_cons,List.foldlM_cons,← restoreIndex_own]
      cases stepped : restoreIndex server entry.1 progress item with
      | none => rfl
      | some next => exact ih next
  others progress entry next run key other := by
    unfold restoreIndexes at run
    generalize entry.2.indexes = items at run
    induction items generalizing progress with
    | nil =>
      cases run
      rfl
    | cons item rest ih =>
      rw [List.foldlM_cons] at run
      obtain ⟨middle,one,onward⟩ := Option.bind_eq_some_iff.mp run
      rw [ih middle onward,restoreIndex_others server one other]

end
end Pezhwan.Backup
