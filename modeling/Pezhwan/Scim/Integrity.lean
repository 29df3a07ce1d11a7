import Pezhwan.Scim.Users

namespace Pezhwan.Scim
open Atomic
variable {user changed : ScimUser} {op : ScimPatchOperation} {key : String} {s : MemoryScimUserStore}

def objectOf : Option Json → Option (List (String × Json))
  | some (.object fields) => some fields
  | _ => none

def boolOf : Option Json → Option Bool
  | some (.bool value) => some value
  | _ => none

def stringOf : Option Json → Option String
  | some (.string value) => some value
  | _ => none

def itemsOf : Option Json → Option (List Json)
  | some (.array items) => some items
  | _ => none

-- A list of addresses, which may be missing.
def emailsOf : Option Json → Option (List Json)
  | none | some .null => some []
  | some (.array items) => some items
  | _ => none

def ScimPatchOperation.attribute (op : ScimPatchOperation) : String := op.path.getD ""

-- What an operation asks for, where its value is of the attribute's type; the
-- path is read as the name of an attribute.
def asks (op : ScimPatchOperation) (user : ScimUser) : Option ScimUser :=
  match op.op with
  | .replace =>
    if op.attribute = "" then (objectOf op.value).map fun fields => assign fields user
    else if op.attribute = "active" then (boolOf op.value).map fun value => user.set "active" (.bool value)
    else if op.attribute = "userName" then (stringOf op.value).map fun value => user.set "userName" (.string value)
    else if op.attribute = "name" then
      (objectOf op.value).map fun fields => user.set "name" (merged (Json.spread (user.get? "name")) fields)
    else op.value.map fun value => user.set op.attribute value
  | .add =>
    if op.attribute = "" then (objectOf op.value).map fun fields => assign fields user
    else if op.attribute = "emails" then
      (emailsOf (user.get? "emails")).bind fun old =>
        (itemsOf op.value).map fun items => user.set "emails" (.array (old ++ items))
    else op.value.map fun value => user.set op.attribute value
  | .remove =>
    if op.attribute = "" then none
    else if op.attribute = "active" then some (user.set "active" (.bool false))
    else some (user.erase op.attribute)
  | .other _ => none

-- The operations the loop has a branch for, with a value of the right type.
def Supported (op : ScimPatchOperation) (user : ScimUser) : Prop :=
  match op.op with
  | .replace => (op.attribute = "" ∧ (objectOf op.value).isSome) ∨ (op.attribute = "active" ∧ (boolOf op.value).isSome) ∨
      (op.attribute = "userName" ∧ (stringOf op.value).isSome) ∨ (op.attribute = "name" ∧ (objectOf op.value).isSome)
  | .add => op.attribute = "emails" ∧ (emailsOf (user.get? "emails")).isSome ∧ (itemsOf op.value).isSome
  | .remove => op.attribute = "active"
  | .other _ => False

def Ignored (op : ScimPatchOperation) : Prop :=
  match op.op with
  | .replace => op.attribute ∉ ["","active","userName","name"]
  | .add => op.attribute ≠ "emails"
  | .remove => op.attribute ≠ "active"
  | .other _ => True

-- An ignored operation does no harm only where it asks for what is there.
def Fits (op : ScimPatchOperation) (user : ScimUser) : Prop :=
  Supported op user ∨ (Ignored op ∧ asks op user = some user)

theorem path_attribute (given : path ≠ "") : op.path = some path ↔ op.attribute = path := by
  unfold ScimPatchOperation.attribute
  cases op.path with
  | none => simpa using given.symm
  | some other => simp

theorem pathless : op.path = none ∨ op.path = some "" ↔ op.attribute = "" := by
  unfold ScimPatchOperation.attribute
  cases op.path <;> simp

theorem applyOp_eq : applyOp op user = match op.op with
    | .replace =>
      if op.attribute = "active" then .ok (user.set "active" (.bool (Json.truthy op.value)))
      else if op.attribute = "userName" then (asString op.value).map fun text => user.set "userName" (.string text)
      else if op.attribute = "name" then
        .ok (user.set "name" (merged (Json.spread (user.get? "name")) (Json.spread op.value)))
      else if op.attribute = "" then .ok (assign (Json.spread op.value) user)
      else .ok user
    | .add =>
      if op.attribute = "emails" then
        (iterated (user.get? "emails")).map fun items => user.set "emails" (.array (items ++ arrayOf op.value))
      else .ok user
    | .remove => if op.attribute = "active" then .ok (user.set "active" (.bool false)) else .ok user
    | .other _ => .ok user := by
  unfold applyOp
  cases op.op <;>
    simp only [path_attribute (show "active" ≠ "" by decide),path_attribute (show "userName" ≠ "" by decide),
      path_attribute (show "name" ≠ "" by decide),path_attribute (show "emails" ≠ "" by decide),pathless]

theorem applyOp_ignored (ignored : Ignored op) : applyOp op user = .ok user := by
  rw [applyOp_eq]
  unfold Ignored at ignored
  cases kind : op.op with
  | replace =>
    simp only [kind,List.mem_cons,List.not_mem_nil,or_false,not_or] at ignored
    simp [ignored]
  | add =>
    simp only [kind] at ignored
    simp [ignored]
  | remove =>
    simp only [kind] at ignored
    simp [ignored]
  | other op => rfl

theorem objectOf_some (found : (objectOf value).isSome = true) : ∃ fields, value = some (.object fields) := by
  unfold objectOf at found
  split at found
  · exact ⟨_,rfl⟩
  · cases found

theorem boolOf_some (found : (boolOf value).isSome = true) : ∃ b, value = some (.bool b) := by
  unfold boolOf at found
  split at found
  · exact ⟨_,rfl⟩
  · cases found

theorem stringOf_some (found : (stringOf value).isSome = true) : ∃ text, value = some (.string text) := by
  unfold stringOf at found
  split at found
  · exact ⟨_,rfl⟩
  · cases found

theorem itemsOf_some (found : (itemsOf value).isSome = true) : ∃ items, value = some (.array items) := by
  unfold itemsOf at found
  split at found
  · exact ⟨_,rfl⟩
  · cases found

theorem emailsOf_iterated (found : emailsOf value = some items) : iterated value = .ok items := by
  unfold emailsOf at found
  split at found
  · cases found
    rfl
  · cases found
    rfl
  · cases found
    rfl
  · cases found

theorem applyOp_supported (supported : Supported op user) :
    ∃ changed, applyOp op user = .ok changed ∧ asks op user = some changed := by
  rw [applyOp_eq]
  unfold Supported at supported
  unfold asks
  cases kind : op.op with
  | replace =>
    simp only [kind] at supported
    rcases supported with ⟨named,typed⟩ | ⟨named,typed⟩ | ⟨named,typed⟩ | ⟨named,typed⟩
    · obtain ⟨fields,given⟩ := objectOf_some typed
      exact ⟨assign fields user,by simp [named,given,Json.spread],by simp [named,given,objectOf]⟩
    · obtain ⟨value,given⟩ := boolOf_some typed
      exact ⟨user.set "active" (.bool value),by simp [named,given,Json.truthy],by simp [named,given,boolOf]⟩
    · obtain ⟨text,given⟩ := stringOf_some typed
      exact ⟨user.set "userName" (.string text),by simp [named,given,asString,textOf,Except.map],
        by simp [named,given,stringOf]⟩
    · obtain ⟨fields,given⟩ := objectOf_some typed
      exact ⟨user.set "name" (merged (Json.spread (user.get? "name")) fields),by simp [named,given,Json.spread],
        by simp [named,given,objectOf]⟩
  | add =>
    simp only [kind] at supported
    obtain ⟨named,list,typed⟩ := supported
    obtain ⟨old,listed⟩ := Option.isSome_iff_exists.mp list
    obtain ⟨items,given⟩ := itemsOf_some typed
    refine ⟨user.set "emails" (.array (old ++ items)),?_,?_⟩
    · simp [named,emailsOf_iterated listed,given,arrayOf,Except.map]
    · simp [named,listed,given,itemsOf]
  | remove =>
    simp only [kind] at supported
    exact ⟨user.set "active" (.bool false),by simp [supported],by simp [supported]⟩
  | other op => simp [kind] at supported

theorem fits_applied (fits : Fits op user) : ∃ changed, applyOp op user = .ok changed ∧ asks op user = some changed := by
  rcases fits with supported | ⟨ignored,same⟩
  · exact applyOp_supported supported
  · exact ⟨user,applyOp_ignored ignored,same⟩

theorem asks_supported (asked : asks op user = some changed) (handled : ¬Ignored op) : Supported op user := by
  unfold Ignored at handled
  unfold asks at asked
  unfold Supported
  cases kind : op.op with
  | replace =>
    simp only [kind,List.mem_cons,List.not_mem_nil,or_false,not_not] at handled asked ⊢
    rcases handled with named | named | named | named
    all_goals
      simp only [named,String.reduceEq,if_true,if_false] at asked ⊢
      obtain ⟨value,given,_⟩ := Option.map_eq_some_iff.mp asked
      simp [given]
  | add =>
    simp only [kind,not_not] at handled asked ⊢
    simp only [handled,if_false,if_true,String.reduceEq] at asked ⊢
    obtain ⟨old,listed,rest⟩ := Option.bind_eq_some_iff.mp asked
    obtain ⟨items,given,_⟩ := Option.map_eq_some_iff.mp rest
    simp [listed,given]
  | remove =>
    simp only [kind,not_not] at handled ⊢
    exact handled
  | other op => simp [kind] at handled

theorem applied_iff (ran : applyOp op user = .ok changed) : asks op user = some changed ↔ Fits op user := by
  constructor
  · intro asked
    by_cases ignored : Ignored op
    · cases (applyOp_ignored ignored).symm.trans ran
      exact .inr ⟨ignored,asked⟩
    · exact .inl (asks_supported asked ignored)
  · intro fits
    obtain ⟨other,same,asked⟩ := fits_applied fits
    cases same.symm.trans ran
    exact asked

theorem applied_iff_removed : asks ⟨.remove,some "active",none⟩ Dict.empty = some (Dict.empty.set "active" (.bool false)) ↔
    Fits ⟨.remove,some "active",none⟩ Dict.empty :=
  applied_iff rfl

-- Every operation does what it asks for, one after the other.
def Applied : List ScimPatchOperation → ScimUser → ScimUser → Prop
  | [],user,result => result = user
  | op :: rest,user,result => ∃ changed, asks op user = some changed ∧ Applied rest changed result

-- No operation writes another id into the record.
def KeepsId (key : String) (op : ScimPatchOperation) : Prop :=
  op.op = .replace → op.attribute = "" → ∀ field ∈ Json.spread op.value, field.1 = "id" → field.2 = .string key

-- The patch goes through and every operation fits the record as it finds it.
def AllFit (key : String) : List ScimPatchOperation → ScimUser → Prop
  | [],_ => True
  | op :: rest,user => Fits op user ∧ KeepsId key op ∧ ∀ changed, applyOp op user = .ok changed → AllFit key rest changed

-- An operation throws before any other has changed the record.
def ThrowsFirst : List ScimPatchOperation → ScimUser → Prop
  | [],_ => False
  | op :: rest,user => ∀ changed, applyOp op user = .ok changed → changed = user ∧ ThrowsFirst rest user

theorem allFit_applied (fits : AllFit key operations user) :
    (applyAll operations user).1 = .ok () ∧ Applied operations user (applyAll operations user).2 := by
  induction operations generalizing user with
  | nil => exact ⟨rfl,rfl⟩
  | cons op rest ih =>
    obtain ⟨first,_,onward⟩ := fits
    obtain ⟨changed,ran,asked⟩ := fits_applied first
    obtain ⟨done,applied⟩ := ih (onward changed ran)
    simp only [applyAll,ran]
    exact ⟨done,changed,asked,applied⟩

theorem throwsFirst_left (throws : ThrowsFirst operations user) :
    (∃ e, (applyAll operations user).1 = .error e) ∧ (applyAll operations user).2 = user := by
  induction operations with
  | nil => exact throws.elim
  | cons op rest ih =>
    unfold applyAll
    cases ran : applyOp op user with
    | error e => exact ⟨⟨e,rfl⟩,rfl⟩
    | ok changed =>
      obtain ⟨rfl,later⟩ := throws changed ran
      exact ih later

def Named (key : String) (user : ScimUser) : Prop := user.get? "id" = some (.string key)

theorem put_id (named : Named key user) (fields : List (String × Json))
    (keeps : ∀ field ∈ fields, field.1 = "id" → field.2 = .string key) : Named key (put fields user) := by
  unfold put
  induction fields generalizing user with
  | nil => exact named
  | cons field rest ih =>
    refine ih ?_ fun other listed => keeps other (List.mem_cons_of_mem _ listed)
    unfold Named
    rw [Dict.get?_set]
    split
    · rename_i same
      rw [keeps field (by simp) same.symm]
    · exact named

theorem applyOp_id (named : Named key user) (keeps : KeepsId key op) (ran : applyOp op user = .ok changed) :
    Named key changed := by
  have other : ∀ {name value}, name ≠ "id" → Named key (user.set name value) := by
    intro name value different
    exact (Dict.get?_set_ne _ _ different.symm).trans named
  rw [applyOp_eq] at ran
  cases kind : op.op with
  | replace =>
    simp only [kind] at ran
    split at ran
    · cases ran
      exact other (by decide)
    · split at ran
      · cases read : asString op.value with
        | error e =>
          rw [read] at ran
          cases ran
        | ok text =>
          rw [read] at ran
          cases ran
          exact other (by decide)
      · split at ran
        · cases ran
          exact other (by decide)
        · split at ran
          · rename_i nameless
            cases ran
            refine put_id named _ ?_
            intro field listed
            exact keeps kind nameless field (List.mem_of_mem_filter listed)
          · cases ran
            exact named
  | add =>
    simp only [kind] at ran
    split at ran
    · cases read : iterated (user.get? "emails") with
      | error e =>
        rw [read] at ran
        cases ran
      | ok items =>
        rw [read] at ran
        cases ran
        exact other (by decide)
    · cases ran
      exact named
  | remove =>
    simp only [kind] at ran
    split at ran
    · cases ran
      exact other (by decide)
    · cases ran
      exact named
  | other op =>
    simp only [kind] at ran
    cases ran
    exact named

theorem allFit_id (named : Named key user) (fits : AllFit key operations user) :
    Named key (applyAll operations user).2 := by
  induction operations generalizing user with
  | nil => exact named
  | cons op rest ih =>
    obtain ⟨first,keeps,onward⟩ := fits
    obtain ⟨changed,ran,_⟩ := fits_applied first
    simp only [applyAll,ran]
    exact ih (applyOp_id named keeps ran) (onward changed ran)

end Pezhwan.Scim
