import Pezhwan.Json
import Pezhwan.Numeric.Base64
import Pezhwan.Streams.Pattern

-- Responses of a SAML identity provider.
namespace Pezhwan.Saml
open Streams Numeric

inductive SamlNameIdFormat where
  | emailAddress | unspecified | persistent | transient
  deriving DecidableEq, Repr

structure SamlConfig where
  entityId : String
  idpEntityId : Option String
  nameIdFormat : SamlNameIdFormat
  deriving DecidableEq, Repr

structure SamlAttribute where
  name : String
  values : List String
  deriving DecidableEq, Repr

structure SamlAssertion where
  subject : String
  nameIdFormat : SamlNameIdFormat
  attributes : List SamlAttribute
  issuer : String
  audience : String
  deriving DecidableEq, Repr

-- What is left to the platform: raw deflate data, when they are such, and the
-- text of bytes.
structure Node where
  inflateRawSync : Bytes → Option Bytes
  utf8 : Bytes → String

-- Any text is read as base64.
def decodeSaml (node : Node) (input : String) : String :=
  let decoded := Base64.decode (trim input.toList)
  match node.inflateRawSync decoded with
  | some inflated => node.utf8 inflated
  | none => node.utf8 decoded

-- <tag[^>]*>([^<]+)</tag>, or with * for +.
def tagged (tag : String) (least : ℕ) : Pattern Char :=
  [.word ('<' :: tag.toList),.run (· ≠ '>') 0 .longest false,.word ['>'],.run (· ≠ '<') least .longest true,
    .word ('<' :: '/' :: (tag.toList ++ ['>']))]

-- <saml:Attribute\s+Name="([^"]+)"[^>]*>([\s\S]*?)</saml:Attribute>
def attributeRe : Pattern Char :=
  [.word "<saml:Attribute".toList,.run isSpace 1 .longest false,.word "Name=\"".toList,.run (· ≠ '"') 1 .longest true,.word ['"'],
    .run (· ≠ '>') 0 .longest false,.word ['>'],.run (fun _ => true) 0 .shortest true,.word "</saml:Attribute>".toList]

def extractAll (xml : List Char) (pattern : Pattern Char) : List String :=
  (matchAll pattern xml).filterMap fun captures => captures[0]?.map String.ofList

def attributeOf (captures : List (List Char)) : SamlAttribute where
  name := String.ofList (captures[0]?.getD [])
  values := extractAll (captures[1]?.getD []) (tagged "saml:AttributeValue" 0)

def attributesOf (xml : List Char) : List SamlAttribute := (matchAll attributeRe xml).map attributeOf

def parseSamlResponse (node : Node) (raw : String) (config : SamlConfig) : Except String SamlAssertion :=
  let xml := (decodeSaml node raw).toList
  let subjects := extractAll xml (tagged "saml:NameID" 1)
  let issuers := extractAll xml (tagged "saml:Issuer" 1)
  let audiences := extractAll xml (tagged "saml:Audience" 1)
  if audiences ≠ [] ∧ config.entityId ∉ audiences then .error "SAML assertion audience mismatch"
  else if issuers ≠ [] ∧ config.idpEntityId.any (fun idpEntityId => idpEntityId ≠ "" && !issuers.contains idpEntityId) then
    .error "SAML assertion issuer mismatch"
  else
    let subject := subjects.head?.getD ""
    if subject = "" then .error "SAML assertion missing subject"
    else
      .ok {
        subject := subject
        nameIdFormat := config.nameIdFormat
        attributes := attributesOf xml
        issuer := issuers.head?.getD ""
        audience := audiences.head?.getD ""}

variable {tag value mark piece rest before after xml : List Char} {captures : List (List Char)} {least : ℕ}

-- A name that a tag can have.
structure Plain (tag : List Char) : Prop where
  opens : '<' ∉ tag
  closes : '>' ∉ tag
  named : ∃ first letters, tag = first :: letters ∧ first ≠ '/'

def opening (tag mark : List Char) : List Char := '<' :: (tag ++ mark)

def closing (tag : List Char) : List Char := '<' :: '/' :: (tag ++ ['>'])

def element (tag mark value : List Char) : List Char := opening tag mark ++ '>' :: (value ++ closing tag)

theorem matches_tagged {tag : String} : Matches (tagged tag least) piece captures ↔
    ∃ mark value, '>' ∉ mark ∧ '<' ∉ value ∧ least ≤ value.length ∧ piece = element tag.toList mark value ∧ captures = [value] := by
  simp only [tagged,matches_word,matches_run,matches_nil,Bool.false_eq_true,if_false,if_true]
  constructor
  · rintro ⟨_,rfl,mark,_,_,marks,_,⟨_,rfl,value,_,_,values,enough,⟨_,rfl,rfl,rfl⟩,rfl,rfl⟩,rfl,rfl⟩
    refine ⟨mark,value,fun listed => ?_,fun listed => ?_,enough,by simp [element,opening,closing],rfl⟩
    · simpa using marks _ listed
    · simpa using values _ listed
  · rintro ⟨mark,value,unclosed,unopened,enough,rfl,rfl⟩
    refine ⟨_,?_,mark,_,_,?_,Nat.zero_le _,⟨_,rfl,value,_,_,?_,enough,⟨_,rfl,rfl,rfl⟩,rfl,rfl⟩,rfl,rfl⟩
    · simp [element,opening,closing]
    · intro c listed
      simpa using fun same : c = '>' => unclosed (same ▸ listed)
    · intro c listed
      simpa using fun same : c = '<' => unopened (same ▸ listed)

theorem solid_tagged (tag : String) (least : ℕ) : Solid (tagged tag least) := by
  intro captures matched
  obtain ⟨mark,value,_,_,_,empty,_⟩ := matches_tagged.mp matched
  simp [element,opening] at empty

theorem no_word_later {c : Char} {word one between more rest : List Char} (once : c ∉ word)
    (without : ¬(c :: word) <:+: one ++ between) (same : c :: word ++ more = between ++ (c :: word ++ rest)) : between = [] := by
  cases between with
  | nil => rfl
  | cons d between =>
    obtain ⟨rfl,behind⟩ := List.cons.inj same
    rcases List.append_eq_append_iff.mp behind with ⟨further,rfl,_⟩ | ⟨further,split,left⟩
    · exact absurd ⟨one,further,by simp⟩ without
    · cases further with
      | nil =>
        rw [List.append_nil] at split
        exact absurd ⟨one,[],by simp [split]⟩ without
      | cons e further =>
        obtain ⟨rfl,_⟩ := List.cons.inj left
        exact absurd (by simp [split]) once

theorem read_until_word {c : Char} {word one two more rest : List Char} (once : c ∉ word) (first : ¬(c :: word) <:+: one)
    (second : ¬(c :: word) <:+: two) (same : one ++ (c :: word ++ more) = two ++ (c :: word ++ rest)) : one = two ∧ more = rest := by
  rcases List.append_eq_append_iff.mp same with ⟨between,rfl,behind⟩ | ⟨between,rfl,behind⟩
  · obtain rfl := no_word_later once second behind
    exact ⟨(List.append_nil _).symm,List.append_cancel_left behind⟩
  · obtain rfl := no_word_later once first behind
    exact ⟨List.append_nil _,(List.append_cancel_left behind).symm⟩

theorem read_until {c : Char} {one two more rest : List Char} (first : c ∉ one) (second : c ∉ two)
    (same : one ++ c :: more = two ++ c :: rest) : one = two ∧ more = rest :=
  read_until_word List.not_mem_nil (fun inside => first (inside.subset (by simp)))
    (fun inside => second (inside.subset (by simp))) same

theorem Plain.opening_unclosed (plain : Plain tag) (unclosed : '>' ∉ mark) : '>' ∉ opening tag mark := by
  simp [opening,plain.closes,unclosed]

theorem element_in_tag (plain : Plain tag) (unclosed : '>' ∉ mark) (unopened : '<' ∉ value) {inner body between : List Char}
    (marked : '>' ∉ inner) (bodied : '<' ∉ body) (early : opening tag mark = before ++ between)
    (same : element tag mark value ++ rest = before ++ (element tag inner body ++ after)) : body = value := by
  have opened := plain.opening_unclosed unclosed
  rw [early,List.mem_append,not_or] at opened
  unfold element at same
  rw [early] at same
  simp only [List.append_assoc,List.cons_append,List.append_cancel_left_eq] at same
  obtain ⟨_,behind⟩ := read_until opened.2 (plain.opening_unclosed marked) same
  exact (read_until bodied unopened behind.symm).1

theorem closing_opens_nothing (plain : Plain tag) {inner body shared : List Char}
    (same : element tag inner body ++ after = closing tag ++ shared) : False := by
  obtain ⟨first,letters,rfl,other⟩ := plain.named
  simp only [element,opening,closing,List.cons_append] at same
  exact other (List.cons.inj (List.cons.inj same).2).1

theorem closing_one_tag (plain : Plain tag) {ahead behind : List Char} (same : closing tag = '<' :: ahead ++ '<' :: behind) :
    False := by
  have listed : '<' ∈ '/' :: (tag ++ ['>']) := by
    rw [(List.cons.inj same).2]
    simp
  simp [plain.opens] at listed

theorem element_after_tag (plain : Plain tag) (unopened : '<' ∉ value) {inner body between : List Char}
    (same : value ++ closing tag ++ rest = between ++ (element tag inner body ++ after)) :
    (value ++ closing tag).length ≤ between.length := by
  rcases List.append_eq_append_iff.mp same with ⟨further,longer,_⟩ | ⟨early,split,behind⟩
  · rw [longer]
    exact (List.prefix_append _ _).length_le
  · cases early with
    | nil => rw [split,List.append_nil]
    | cons c early =>
      obtain ⟨rfl,_⟩ : '<' = c ∧ _ := List.cons.inj behind
      rcases List.append_eq_append_iff.mp split with ⟨ahead,_,closed⟩ | ⟨ahead,inside,closed⟩
      · cases ahead with
        | nil =>
          rw [List.nil_append] at closed
          rw [← closed] at behind
          exact (closing_opens_nothing plain behind).elim
        | cons d ahead =>
          obtain ⟨rfl,_⟩ := List.cons.inj closed
          exact (closing_one_tag plain closed).elim
      · cases ahead with
        | nil =>
          rw [List.nil_append] at closed
          rw [closed] at behind
          exact (closing_opens_nothing plain behind).elim
        | cons d ahead =>
          obtain ⟨rfl,_⟩ := List.cons.inj closed
          exact absurd (by simp [inside]) unopened

theorem level_tagged {tag : String} (plain : Plain tag.toList) (least : ℕ) : Level (tagged tag least) := by
  intro piece captures rest before inner captured after outer nested same inside
  obtain ⟨mark,value,unclosed,unopened,_,rfl,rfl⟩ := matches_tagged.mp outer
  obtain ⟨marked,body,closed,bodied,_,rfl,rfl⟩ := matches_tagged.mp nested
  have split : opening tag.toList mark ++ ('>' :: (value ++ closing tag.toList) ++ rest) =
      before ++ (element tag.toList marked body ++ after) := by simpa [element] using same
  rcases List.append_eq_append_iff.mp split with ⟨between,longer,behind⟩ | ⟨between,early,_⟩
  · cases between with
    | nil =>
      have early : opening tag.toList mark = before ++ [] := by simpa using longer.symm
      rw [element_in_tag plain unclosed unopened closed bodied early same]
    | cons c between =>
      have later := element_after_tag plain unopened (List.cons.inj behind).2
      simp only [longer,element,List.length_append,List.length_cons] at inside later
      omega
  · rw [element_in_tag plain unclosed unopened closed bodied early same]

-- What an element of this name says in the text.
def Carries (tag value : String) (xml : List Char) : Prop :=
  value ≠ "" ∧ '<' ∉ value.toList ∧ ∃ before mark after, '>' ∉ mark ∧ xml = before ++ element tag.toList mark value.toList ++ after

theorem occurs_tagged {tag value : String} : Occurs (tagged tag 1) [value.toList] xml ↔ Carries tag value xml := by
  constructor
  · rintro ⟨before,piece,after,rfl,matched⟩
    obtain ⟨mark,text,unclosed,unopened,enough,rfl,same⟩ := matches_tagged.mp matched
    obtain rfl : value.toList = text := (List.cons.inj same).1
    refine ⟨?_,unopened,before,mark,after,unclosed,rfl⟩
    rintro rfl
    simp at enough
  · rintro ⟨some_,unopened,before,mark,after,unclosed,rfl⟩
    refine ⟨before,_,after,rfl,matches_tagged.mpr ⟨mark,value.toList,unclosed,unopened,?_,rfl,rfl⟩⟩
    exact List.length_pos_iff.mpr fun empty => some_ (String.toList_eq_nil_iff.mp empty)

theorem mem_extractAll {tag value : String} (plain : Plain tag.toList) :
    value ∈ extractAll xml (tagged tag 1) ↔ Carries tag value xml := by
  rw [← occurs_tagged,← mem_matchAll (solid_tagged tag 1) (level_tagged plain 1)]
  unfold extractAll
  rw [List.mem_filterMap]
  constructor
  · rintro ⟨captures,listed,captured⟩
    obtain ⟨_,_,_,_,matched⟩ := matchAll_sound (solid_tagged tag 1) listed
    obtain ⟨_,text,_,_,_,_,rfl⟩ := matches_tagged.mp matched
    obtain rfl : String.ofList text = value := by simpa using captured
    simpa using listed
  · intro listed
    exact ⟨_,listed,by simp⟩

theorem extractAll_nil_iff {tag : String} (plain : Plain tag.toList) :
    extractAll xml (tagged tag 1) = [] ↔ ∀ value, ¬Carries tag value xml := by
  rw [List.eq_nil_iff_forall_not_mem]
  exact forall_congr' fun value => not_congr (mem_extractAll plain)

abbrev attributeEnd : List Char := "</saml:Attribute>".toList

-- What an attribute element says: its values are in front of the first end.
def AttributeElement (attribute_ : SamlAttribute) (piece : List Char) : Prop :=
  ∃ content, ¬attributeEnd <:+: content ∧ Matches attributeRe piece [attribute_.name.toList,content] ∧
    attribute_.values = extractAll content (tagged "saml:AttributeValue" 0)

def States (attribute_ : SamlAttribute) (xml : List Char) : Prop :=
  ∃ before piece after, xml = before ++ piece ++ after ∧ AttributeElement attribute_ piece

-- The first attribute element of the text, and the text behind it.
def Leads (attribute_ : SamlAttribute) (rest xml : List Char) : Prop :=
  ∃ before piece, xml = before ++ (piece ++ rest) ∧ AttributeElement attribute_ piece ∧
    ∀ skipped behind other inner after, before = skipped ++ behind → behind ≠ [] → AttributeElement other inner →
      behind ++ (piece ++ rest) ≠ inner ++ after

-- The attribute elements from left to right, none inside another.
inductive InTurn : List Char → SamlAttribute → Prop
  | first {text behind : List Char} {attribute_ : SamlAttribute} : Leads attribute_ behind text → InTurn text attribute_
  | later {text behind : List Char} {attribute_ other : SamlAttribute} :
      Leads other behind text → InTurn behind attribute_ → InTurn text attribute_

theorem matches_attributeRe : Matches attributeRe piece captures ↔
    ∃ space name mark content, (∀ c ∈ space, isSpace c) ∧ 1 ≤ space.length ∧ '"' ∉ name ∧ 1 ≤ name.length ∧ '>' ∉ mark ∧
      piece = "<saml:Attribute".toList ++ (space ++ ("Name=\"".toList ++ (name ++ '"' :: (mark ++ '>' :: (content ++ attributeEnd))))) ∧
        captures = [name,content] := by
  simp only [attributeRe,matches_word,matches_run,matches_nil,Bool.false_eq_true,if_false,if_true]
  constructor
  · rintro ⟨_,rfl,space,_,_,spaces,spaced,⟨_,rfl,name,_,_,names,named,⟨_,rfl,mark,_,_,marks,_,⟨_,rfl,content,_,_,_,_,
      ⟨_,rfl,rfl,rfl⟩,rfl,rfl⟩,rfl,rfl⟩,rfl,rfl⟩,rfl,rfl⟩
    refine ⟨space,name,mark,content,spaces,spaced,fun listed => ?_,named,fun listed => ?_,?_,rfl⟩
    · simpa using names _ listed
    · simpa using marks _ listed
    · simp only [attributeEnd,List.singleton_append,List.append_nil]
  · rintro ⟨space,name,mark,content,spaces,spaced,unquoted,named,unclosed,rfl,rfl⟩
    refine ⟨_,rfl,space,_,_,spaces,spaced,⟨_,rfl,name,_,_,?_,named,⟨_,rfl,mark,_,_,?_,Nat.zero_le _,⟨_,rfl,content,_,_,?_,Nat.zero_le _,
      ⟨_,rfl,rfl,rfl⟩,rfl,rfl⟩,rfl,rfl⟩,?_,rfl⟩,rfl,rfl⟩
    · intro c listed
      simpa using fun same : c = '"' => unquoted (same ▸ listed)
    · intro c listed
      simpa using fun same : c = '>' => unclosed (same ▸ listed)
    · exact fun _ _ => trivial
    · simp only [attributeEnd,List.singleton_append,List.append_nil]

theorem solid_attributeRe : Solid attributeRe := by
  intro captures matched
  obtain ⟨_,_,_,_,_,_,_,_,_,empty,_⟩ := matches_attributeRe.mp matched
  simp at empty


theorem read_spaces {one two more rest : List Char} (first : ∀ c ∈ one, isSpace c) (second : ∀ c ∈ two, isSpace c)
    (same : one ++ ("Name=\"".toList ++ more) = two ++ ("Name=\"".toList ++ rest)) : one = two ∧ more = rest := by
  have spaceless : isSpace 'N' = false := by decide
  obtain ⟨rfl,behind⟩ := read_until (fun listed => by simpa [spaceless] using first 'N' listed)
    (fun listed => by simpa [spaceless] using second 'N' listed) same
  exact ⟨rfl,List.append_cancel_left behind⟩

theorem attributeElement_unique {one two : SamlAttribute} {inner : List Char} (first : AttributeElement one piece)
    (second : AttributeElement two inner) (same : piece ++ rest = inner ++ after) : one = two ∧ rest = after := by
  obtain ⟨content,ended,matched,values⟩ := first
  obtain ⟨content',ended',matched',values'⟩ := second
  obtain ⟨space,name,mark,_,spaces,_,unquoted,_,unclosed,rfl,captured⟩ := matches_attributeRe.mp matched
  obtain ⟨space',name',mark',_,spaces',_,unquoted',_,unclosed',rfl,captured'⟩ := matches_attributeRe.mp matched'
  simp only [List.cons.injEq,and_true] at captured captured'
  obtain ⟨rfl,rfl⟩ := captured
  obtain ⟨rfl,rfl⟩ := captured'
  simp only [List.append_assoc,List.cons_append] at same
  obtain ⟨_,afterSpaces⟩ := read_spaces spaces spaces' (List.append_cancel_left same)
  obtain ⟨names,afterName⟩ := read_until unquoted unquoted' afterSpaces
  obtain ⟨_,afterTag⟩ := read_until unclosed unclosed' afterName
  obtain ⟨rfl,behind⟩ := read_until_word (by decide) ended ended' afterTag
  exact ⟨congrArg₂ SamlAttribute.mk (String.toList_injective names) (values.trans values'.symm),behind⟩

theorem attributeElement_of_front (matched : Matches attributeRe piece captures)
    (read : front attributeRe (piece ++ rest) = some (captures,rest)) : AttributeElement (attributeOf captures) piece := by
  obtain ⟨_,name,_,content,_,_,_,_,_,_,rfl⟩ := matches_attributeRe.mp matched
  have shape : attributeRe = attributeRe.take 7 ++ [.run (fun _ => true) 0 .shortest true,.word attributeEnd] := rfl
  rw [shape] at read
  obtain ⟨last,same,without⟩ := front_shortest (by simp) read
  obtain rfl : content = last := by simpa using same
  exact ⟨content,without,by simpa [attributeOf] using matched,rfl⟩

theorem leads_of_exec (read : exec attributeRe xml = some (captures,rest)) : Leads (attributeOf captures) rest xml := by
  obtain ⟨before,piece,rfl,matched,here,earlier⟩ := exec_sound read
  refine ⟨before,piece,List.append_assoc _ _ _,attributeElement_of_front matched here,?_⟩
  rintro skipped behind other inner after split left ⟨content,_,inside,_⟩ same
  have refused := earlier skipped behind split left
  rw [List.append_assoc,same] at refused
  exact front_complete inside after refused

theorem leads_unique {one two : SamlAttribute} (first : Leads one rest xml) (second : Leads two after xml) :
    one = two ∧ rest = after := by
  obtain ⟨before,piece,rfl,stated,alone⟩ := first
  obtain ⟨skipped,inner,same,stated',alone'⟩ := second
  rcases List.append_eq_append_iff.mp same with ⟨between,split,behind⟩ | ⟨between,split,behind⟩
  · cases between with
    | nil => exact attributeElement_unique stated stated' behind
    | cons c between => exact absurd behind.symm (alone' before (c :: between) one piece rest split (by simp) stated)
  · cases between with
    | nil => exact attributeElement_unique stated stated' behind.symm
    | cons c between => exact absurd behind.symm (alone skipped (c :: between) two inner after split (by simp) stated')

theorem Leads.exec {attribute_ : SamlAttribute} (leads : Leads attribute_ rest xml) :
    ∃ captures, exec attributeRe xml = some (captures,rest) ∧ attributeOf captures = attribute_ := by
  obtain ⟨before,piece,rfl,⟨content,_,matched,_⟩,_⟩ := id leads
  obtain ⟨⟨captures,after⟩,read⟩ :=
    Option.ne_none_iff_exists'.mp (exec_complete ⟨before,piece,rest,(List.append_assoc _ _ _).symm,matched⟩)
  obtain ⟨same,rfl⟩ := leads_unique (leads_of_exec read) leads
  exact ⟨captures,read,same⟩

theorem attributesOf_some (read : exec attributeRe xml = some (captures,rest)) :
    attributesOf xml = attributeOf captures :: attributesOf rest := by
  rw [attributesOf,matchAll_some solid_attributeRe read,List.map_cons,attributesOf]

theorem mem_attributesOf {attribute_ : SamlAttribute} : attribute_ ∈ attributesOf xml ↔ InTurn xml attribute_ := by
  constructor
  · intro listed
    induction size : xml.length using Nat.strongRecOn generalizing xml with
    | ind size ih =>
      cases read : exec attributeRe xml with
      | none =>
        rw [attributesOf,matchAll_none read] at listed
        cases listed
      | some found =>
        obtain ⟨captures,rest⟩ := found
        have shorter := exec_shrinks solid_attributeRe read
        rw [attributesOf_some read] at listed
        rcases List.mem_cons.mp listed with rfl | later
        · exact .first (leads_of_exec read)
        · exact .later (leads_of_exec read) (ih _ (by omega) later rfl)
  · intro turn
    induction turn with
    | first leads =>
      obtain ⟨captures,read,rfl⟩ := leads.exec
      rw [attributesOf_some read]
      exact List.mem_cons_self
    | later leads _ ih =>
      obtain ⟨captures,read,_⟩ := leads.exec
      rw [attributesOf_some read]
      exact List.mem_cons_of_mem _ ih

theorem InTurn.states {attribute_ : SamlAttribute} (turn : InTurn xml attribute_) : States attribute_ xml := by
  induction turn with
  | first leads =>
    obtain ⟨before,piece,rfl,stated,_⟩ := leads
    exact ⟨before,piece,_,(List.append_assoc _ _ _).symm,stated⟩
  | later leads _ ih =>
    obtain ⟨before,piece,rfl,_,_⟩ := leads
    obtain ⟨skipped,inner,after,rfl,stated⟩ := ih
    exact ⟨before ++ piece ++ skipped,inner,after,by simp,stated⟩

-- No NameID, or an audience or an issuer is named and the configured one is not.
inductive TurnedAway (idpEntityId entityId : String) (xml : List Char) : Prop
  | subject : (∀ subject, ¬Carries "saml:NameID" subject xml) → TurnedAway idpEntityId entityId xml
  | audience {audience : String} : Carries "saml:Audience" audience xml → ¬Carries "saml:Audience" entityId xml →
      TurnedAway idpEntityId entityId xml
  | issuer {issuer : String} : Carries "saml:Issuer" issuer xml → ¬Carries "saml:Issuer" idpEntityId xml →
      TurnedAway idpEntityId entityId xml

theorem plain_nameId : Plain "saml:NameID".toList := ⟨by decide,by decide,_,_,rfl,by decide⟩

theorem plain_issuer : Plain "saml:Issuer".toList := ⟨by decide,by decide,_,_,rfl,by decide⟩

theorem plain_audience : Plain "saml:Audience".toList := ⟨by decide,by decide,_,_,rfl,by decide⟩

theorem extractAll_foreign {tag value : String} (plain : Plain tag.toList) :
    (extractAll xml (tagged tag 1) ≠ [] ∧ value ∉ extractAll xml (tagged tag 1)) ↔
      (∃ other, Carries tag other xml) ∧ ¬Carries tag value xml := by
  rw [mem_extractAll plain,Ne,extractAll_nil_iff plain,not_forall_not]

theorem first_subject :
    (extractAll xml (tagged "saml:NameID" 1)).head?.getD "" = "" ↔ ∀ subject, ¬Carries "saml:NameID" subject xml := by
  rw [← extractAll_nil_iff plain_nameId]
  cases listed : extractAll xml (tagged "saml:NameID" 1) with
  | nil => simp
  | cons subject rest =>
    have carried : Carries "saml:NameID" subject xml := (mem_extractAll plain_nameId).mp (by simp [listed])
    simpa using carried.1

variable {idpEntityId : String} {config : SamlConfig}

theorem foreign_issuer (configured : config.idpEntityId = some idpEntityId) (named : idpEntityId ≠ "") :
    (extractAll xml (tagged "saml:Issuer" 1) ≠ [] ∧ config.idpEntityId.any fun idpEntityId =>
      idpEntityId ≠ "" && !(extractAll xml (tagged "saml:Issuer" 1)).contains idpEntityId) ↔
      (∃ issuer, Carries "saml:Issuer" issuer xml) ∧ ¬Carries "saml:Issuer" idpEntityId xml := by
  rw [← extractAll_foreign plain_issuer]
  refine and_congr_right fun _ => ?_
  simp [configured,named]

theorem parse_spec (node : Node) (raw : String) (configured : config.idpEntityId = some idpEntityId) (named : idpEntityId ≠ "") :
    (∃ result, parseSamlResponse node raw config = .ok result ∧ result.attributes = attributesOf (decodeSaml node raw).toList ∧
      ¬TurnedAway idpEntityId config.entityId (decodeSaml node raw).toList) ∨
    ∃ message, parseSamlResponse node raw config = .error message ∧
      TurnedAway idpEntityId config.entityId (decodeSaml node raw).toList := by
  unfold parseSamlResponse
  dsimp only
  split
  · rename_i audience
    obtain ⟨⟨other,carried⟩,foreign⟩ := (extractAll_foreign plain_audience).mp audience
    exact .inr ⟨_,rfl,.audience carried foreign⟩
  · rename_i audience
    split
    · rename_i issuer
      obtain ⟨⟨other,carried⟩,foreign⟩ := (foreign_issuer configured named).mp issuer
      exact .inr ⟨_,rfl,.issuer carried foreign⟩
    · rename_i issuer
      split
      · rename_i subject
        exact .inr ⟨_,rfl,.subject (first_subject.mp subject)⟩
      · rename_i subject
        refine .inl ⟨_,rfl,rfl,?_⟩
        intro away
        cases away with
        | subject none_ => exact subject (first_subject.mpr none_)
        | audience carried foreign => exact audience ((extractAll_foreign plain_audience).mpr ⟨⟨_,carried⟩,foreign⟩)
        | issuer carried foreign => exact issuer ((foreign_issuer configured named).mpr ⟨⟨_,carried⟩,foreign⟩)

-- The text between the tags of an assertion.
def Assertion (assertion xml : List Char) : Prop :=
  ∃ before mark after, '>' ∉ mark ∧ ¬closing "saml:Assertion".toList <:+: assertion ∧
    xml = before ++ element "saml:Assertion".toList mark assertion ++ after

-- The response names the configured parties, and an assertion that names them
-- too states the attributes.
structure Bound (idpEntityId entityId : String) (xml : List Char) (attributes : List SamlAttribute) : Prop where
  issuer : Carries "saml:Issuer" idpEntityId xml
  audience : Carries "saml:Audience" entityId xml
  checked : ∃ assertion, Assertion assertion xml ∧ Carries "saml:Issuer" idpEntityId assertion ∧
    Carries "saml:Audience" entityId assertion ∧ ∀ attribute_ ∈ attributes, States attribute_ assertion

structure Binds (node : Node) (raw : String) (config : SamlConfig) (idpEntityId : String) : Prop where
  bound : ∀ result, parseSamlResponse node raw config = .ok result →
    Bound idpEntityId config.entityId (decodeSaml node raw).toList result.attributes
  lacking : (∀ issuer, ¬Carries "saml:Issuer" issuer (decodeSaml node raw).toList) ∨
      (∀ audience, ¬Carries "saml:Audience" audience (decodeSaml node raw).toList) →
    ∃ message, parseSamlResponse node raw config = .error message

-- What the checks let through: no issuer, no audience, and assertions that do
-- not go together.
inductive Loose (idpEntityId entityId : String) (xml : List Char) : Prop
  | unissued : (∀ issuer, ¬Carries "saml:Issuer" issuer xml) → Loose idpEntityId entityId xml
  | unaddressed : (∀ audience, ¬Carries "saml:Audience" audience xml) → Loose idpEntityId entityId xml
  | scattered : (∀ assertion, Assertion assertion xml → Carries "saml:Issuer" idpEntityId assertion →
      Carries "saml:Audience" entityId assertion → ∃ attribute_, InTurn xml attribute_ ∧ ¬States attribute_ assertion) →
      Loose idpEntityId entityId xml

theorem bound_of_strict (kept : ¬TurnedAway idpEntityId entityId xml) (strict : ¬Loose idpEntityId entityId xml) :
    Bound idpEntityId entityId xml (attributesOf xml) where
  issuer := by
    by_contra foreign
    exact strict (.unissued fun issuer carried => kept (.issuer carried foreign))
  audience := by
    by_contra foreign
    exact strict (.unaddressed fun audience carried => kept (.audience carried foreign))
  checked := by
    by_contra none_
    refine strict (.scattered ?_)
    intro assertion inside issued addressed
    by_contra stated
    refine none_ ⟨assertion,inside,issued,addressed,?_⟩
    intro attribute_ listed
    by_contra unstated
    exact stated ⟨attribute_,mem_attributesOf.mp listed,unstated⟩

theorem strict_of_bound (bound : Bound idpEntityId entityId xml (attributesOf xml)) : ¬Loose idpEntityId entityId xml := by
  intro loose
  cases loose with
  | unissued none_ => exact none_ _ bound.issuer
  | unaddressed none_ => exact none_ _ bound.audience
  | scattered apart =>
    obtain ⟨assertion,inside,issued,addressed,stated⟩ := bound.checked
    obtain ⟨attribute_,turn,unstated⟩ := apart assertion inside issued addressed
    exact unstated (stated attribute_ (mem_attributesOf.mpr turn))

theorem response_bound_iff (node : Node) (raw : String) (configured : config.idpEntityId = some idpEntityId)
    (named : idpEntityId ≠ "") : Binds node raw config idpEntityId ↔
      TurnedAway idpEntityId config.entityId (decodeSaml node raw).toList ∨
        ¬Loose idpEntityId config.entityId (decodeSaml node raw).toList := by
  rcases parse_spec node raw configured named with ⟨result,accepted,attributes,kept⟩ | ⟨message,refused,away⟩
  · constructor
    · intro binds
      have bound := binds.bound result accepted
      rw [attributes] at bound
      exact .inr (strict_of_bound bound)
    · rintro (away | strict)
      · exact absurd away kept
      · refine ⟨fun other read => ?_,fun lacking => (strict (lacking.elim .unissued .unaddressed)).elim⟩
        obtain rfl : result = other := Except.ok.inj (accepted.symm.trans read)
        rw [attributes]
        exact bound_of_strict kept strict
  · refine ⟨fun _ => .inl away,fun _ => ⟨fun other read => ?_,fun _ => ⟨message,refused⟩⟩⟩
    rw [refused] at read
    cases read

-- Bytes that are no deflate data, and whose text is ASCII.
def sampleNode : Node where
  inflateRawSync := fun _ => none
  utf8 := fun bytes => String.ofList (bytes.map fun byte => Char.ofNat byte.toNat)

def sampleConfig : SamlConfig where
  entityId := "https://sp.example.com"
  idpEntityId := some "https://idp.example.com"
  nameIdFormat := .persistent

-- <saml:NameID>admin</saml:NameID>, and nothing else.
def sampleResponse : String := "PHNhbWw6TmFtZUlEPmFkbWluPC9zYW1sOk5hbWVJRD4="

-- An assertion about ada with the issuer and the audience of the configuration.
def addressedResponse : String :=
  "PHNhbWw6QXNzZXJ0aW9uPjxzYW1sOklzc3Vlcj5odHRwczovL2lkcC5leGFtcGxlLmNvbTwvc2FtbDpJc3N1ZXI+PHNhbWw6QXVkaWVuY2U+aHR0cHM6" ++
    "Ly9zcC5leGFtcGxlLmNvbTwvc2FtbDpBdWRpZW5jZT48c2FtbDpOYW1lSUQ+YWRhPC9zYW1sOk5hbWVJRD48L3NhbWw6QXNzZXJ0aW9uPg=="

theorem response_bound_iff_addressed : "https://idp.example.com" ≠ "" ∧
    (parseSamlResponse sampleNode addressedResponse sampleConfig).toOption =
      some ⟨"ada",.persistent,[],"https://idp.example.com","https://sp.example.com"⟩ ∧
    (Binds sampleNode addressedResponse sampleConfig "https://idp.example.com" ↔
      TurnedAway "https://idp.example.com" sampleConfig.entityId (decodeSaml sampleNode addressedResponse).toList ∨
        ¬Loose "https://idp.example.com" sampleConfig.entityId (decodeSaml sampleNode addressedResponse).toList) :=
  ⟨by decide,by decide +kernel,response_bound_iff sampleNode addressedResponse rfl (by decide)⟩

theorem sample_accepted : (parseSamlResponse sampleNode sampleResponse sampleConfig).toOption =
    some ⟨"admin",.persistent,[],"",""⟩ := by decide +kernel

theorem sample_unissued : extractAll (decodeSaml sampleNode sampleResponse).toList (tagged "saml:Issuer" 1) = [] := by decide +kernel

theorem response_unbound : ¬∀ node raw config idpEntityId, config.idpEntityId = some idpEntityId → idpEntityId ≠ "" →
    Binds node raw config idpEntityId := by
  intro binds
  have binds := binds sampleNode sampleResponse sampleConfig "https://idp.example.com" rfl (by decide)
  have accepted := sample_accepted
  cases read : parseSamlResponse sampleNode sampleResponse sampleConfig with
  | error message =>
    rw [read] at accepted
    cases accepted
  | ok result =>
    have carried := (mem_extractAll plain_issuer).mpr (binds.bound result read).issuer
    rw [sample_unissued] at carried
    cases carried

end Pezhwan.Saml
