import Pezhwan.Backup.Archive
import Pezhwan.Json.Text

namespace Pezhwan.Backup
open Numeric

-- An archive that was made under the key.
structure Made where
  entries : List (String × Bytes)
  strategy : String
  createdAt : String
  cipher : Cipher

namespace Made

def archive (env : Env) (made : Made) : Bytes :=
  (packageBackup env made.entries made.strategy made.createdAt (some made.cipher)).archive

def files (made : Made) : List (String × Bytes) := made.entries.filter fun entry => visible entry.1

def header (made : Made) : Json :=
  Backup.header made.files made.strategy made.createdAt ⟨made.cipher.ciphertext,some made.cipher.iv,some made.cipher.tag,true⟩

def payload (env : Env) (made : Made) : Bytes := env.gzip (made.files.flatMap Prod.snd)

end Made

-- All that was made under the key: names as readdir lists them, and headers that
-- JSON.parse gives back. Ideal encryption opens what was sealed, and nothing else.
structure Vault (env : Env) where
  made : List Made
  flat : ∀ m ∈ made, ∀ entry ∈ m.entries, '/' ∉ entry.1.toList ∧ entry.1 ≠ ""
  reads : ∀ m ∈ made, env.parse (utf8Bytes m.header.stringify) = some m.header
  consistent : ∀ m ∈ made, ∀ other ∈ made, m.cipher = other.cipher → m.payload env = other.payload env

def Vault.opens (vault : Vault env) : Decryption := fun iv tag ciphertext =>
  (vault.made.find? fun m => m.cipher = ⟨iv,ciphertext,tag⟩).map (Made.payload env)

-- What is written was packed, and lies in the directory.
def Genuine (vault : Vault env) (outDir : Path) (written : Written) (names : List String) : Prop :=
  (∃ m ∈ vault.made, names = m.files.map Prod.fst ∧ written.map Prod.snd = m.files.map Prod.snd) ∧
    ∀ file ∈ written, outDir <+: file.1 ∧ file.1 ≠ outDir

-- A list, whoever wrote it, that names these files and cuts them from the payload.
inductive Lists (env : Env) (payload : Bytes) : Offset → List Json → List (String × Bytes) → Prop
  | nil : Lists env payload offset [] []
  | cons : Json.field "name" f = some (.string name) → advance env offset (Json.field "length" f) payload.length = some stop →
      Lists env payload stop rest files → Lists env payload offset (f :: rest) ((name,slice env payload offset stop) :: files)

-- What a payload holds, read as the header tells: the flag is not sealed.
inductive Carries (vault : Vault env) (header : Json) : Bytes → Bytes → Prop
  | plain : Json.truthy (Json.field "encrypted" header) = false → env.gunzip rest = some payload → Carries vault header rest payload
  | encrypted : m ∈ vault.made → Json.truthy (Json.field "encrypted" header) = true →
      bufferFrom env (Json.field "iv" header) = some m.cipher.iv → bufferFrom env (Json.field "tag" header) = some m.cipher.tag →
      Carries vault header m.cipher.ciphertext (m.files.flatMap Prod.snd)

-- The list of the header names and cuts the files of an archive that was made.
def Unharmed (vault : Vault env) (raw : Bytes) : Prop :=
  ∃ m ∈ vault.made, ∃ line rest header items payload, raw = line ++ 10 :: rest ∧ (10 : UInt8) ∉ line ∧ env.parse line = some header ∧
    filesOf header = some items ∧ Carries vault header rest payload ∧ Lists env payload (.at 0) items m.files

-- An archive that was made under the key, behind a header with its flag and list.
def Sealed (vault : Vault env) (raw : Bytes) : Prop :=
  ∃ m ∈ vault.made, ∃ line header, raw = line ++ 10 :: m.cipher.ciphertext ∧ (10 : UInt8) ∉ line ∧ env.parse line = some header ∧
    Json.truthy (Json.field "encrypted" header) = true ∧ Json.field "files" header = some (.array (fileMap m.files)) ∧
    bufferFrom env (Json.field "iv" header) = some m.cipher.iv ∧ bufferFrom env (Json.field "tag" header) = some m.cipher.tag

-- Bytes that unpackageBackup takes for an archive.
structure Accepted (vault : Vault env) (outDir : Path) where
  raw : Bytes
  written : Written
  unpackaged : Unpackaged
  done : unpackageBackup env (some vault.opens) outDir raw = (written,.ok unpackaged)

-- An archive whose files can be written where it is restored.
structure Restoring (vault : Vault env) (outDir : Path) where
  made : Made
  member : made ∈ vault.made
  dotless : ∀ entry ∈ made.entries, visible entry.1 = true
  writable : ∀ file ∈ made.files, env.writable outDir file.1 = true

section
variable {env : Env} {outDir : Path} {raw payload : Bytes} {vault : Vault env}

theorem segments_flat {name : List Char} (flat : '/' ∉ name) : segments name = [name] := by
  induction name with
  | nil => rfl
  | cons c rest ih =>
    rw [List.mem_cons,not_or] at flat
    unfold segments
    rw [if_neg (Ne.symm flat.1),ih flat.2]

theorem join_flat {name : String} (flat : '/' ∉ name.toList) (some_ : name ≠ "") (shown : visible name = true) (outDir : Path) :
    join outDir name = outDir ++ [name] := by
  have dot : name ≠ "." := by
    intro same
    rw [same] at shown
    exact absurd shown (by decide)
  have dots : name ≠ ".." := by
    intro same
    rw [same] at shown
    exact absurd shown (by decide)
  unfold join
  rw [segments_flat flat]
  simp only [List.map_singleton,List.foldl_cons,List.foldl_nil,String.ofList_toList]
  unfold enter
  rw [if_neg (by simp [some_,dot]),if_neg dots]

theorem writeFiles_ok (env : Env) (outDir : Path) (payload : Bytes) (offset : Offset) (items : List Json) (written : Written)
    (names : List String) :
    writeFiles env outDir payload offset items = (written,.ok names) ↔
      ∃ files, Lists env payload offset items files ∧ (∀ file ∈ files, env.writable outDir file.1 = true) ∧
        written = files.map (fun file => (join outDir file.1,file.2)) ∧ names = files.map Prod.fst := by
  induction items generalizing offset written names with
  | nil =>
    constructor
    · intro done
      cases done
      exact ⟨[],.nil,by simp,rfl,rfl⟩
    · intro listed
      obtain ⟨files,lists,_,rfl,rfl⟩ := listed
      cases lists
      rfl
  | cons f rest ih =>
    constructor
    · intro done
      unfold writeFiles at done
      split at done
      · rename_i name stop named stopped
        split at done
        · rename_i writable
          cases ended : (writeFiles env outDir payload stop rest).2 with
          | error refusal => simp [ended,Except.map] at done
          | ok more =>
            have onward := (ih stop (writeFiles env outDir payload stop rest).1 more).mp (by rw [← ended])
            obtain ⟨files,lists,all,wrote,named_⟩ := onward
            simp only [ended,Except.map,Prod.mk.injEq,Except.ok.injEq] at done
            refine ⟨(name,slice env payload offset stop) :: files,.cons named stopped lists,?_,?_,?_⟩
            · intro file listed
              rcases List.mem_cons.mp listed with rfl | later
              · exact writable
              · exact all file later
            · rw [← done.1,wrote]
              rfl
            · rw [← done.2,named_]
              rfl
        · simp at done
      · simp at done
    · intro listed
      obtain ⟨files,lists,all,rfl,rfl⟩ := listed
      cases lists with
      | @cons _ name _ stop _ files named stopped lists =>
        have onward := (ih stop _ _).mpr ⟨files,lists,fun file later => all file (List.mem_cons_of_mem _ later),rfl,rfl⟩
        have writable := all _ (List.mem_cons_self ..)
        unfold writeFiles
        rw [named,stopped]
        dsimp only at writable ⊢
        rw [if_pos writable,onward]
        rfl

theorem lists_unique (one : Lists env payload offset items files) (two : Lists env payload offset items others) : files = others := by
  induction one generalizing others with
  | nil =>
    cases two
    rfl
  | cons named stopped _ ih =>
    cases two with
    | cons named' stopped' lists' =>
      rw [named] at named'
      rw [stopped] at stopped'
      cases named'
      cases stopped'
      rw [ih lists']

theorem advance_at (env : Env) (n m size : ℕ) : advance env (.at n) (some (.number (numeral m))) size = some (.at (min (n + m) size)) := by
  have read : (numeral m).literal.toNat? = some m := Nat.toNat?_repr m
  unfold advance
  dsimp only
  rw [read]

theorem lists_own (env : Env) (before : Bytes) (files : List (String × Bytes)) :
    Lists env (before ++ files.flatMap Prod.snd) (.at before.length) (fileMap files) files := by
  induction files generalizing before with
  | nil => exact .nil
  | cons file rest ih =>
    obtain ⟨name,content⟩ := file
    have whole : before ++ ((name,content) :: rest).flatMap Prod.snd = (before ++ content) ++ rest.flatMap Prod.snd := by simp
    have onward := ih (before ++ content)
    rw [← whole] at onward
    have stopped : advance env (.at before.length) (some (.number (numeral content.length)))
        (before ++ ((name,content) :: rest).flatMap Prod.snd).length = some (.at (before ++ content).length) := by
      rw [advance_at]
      simp only [List.flatMap_cons,List.length_append]
      rw [Nat.min_eq_left (by omega)]
    have cut : slice env (before ++ ((name,content) :: rest).flatMap Prod.snd) (.at before.length) (.at (before ++ content).length) =
        content := by
      rw [whole]
      unfold slice
      dsimp only
      rw [List.take_left,List.drop_left]
    have all := Lists.cons (f := .object [("name",.string name),("length",.number (numeral content.length))]) rfl stopped onward
    rw [cut] at all
    exact all

theorem idxOf_line {line : Bytes} (clean : (10 : UInt8) ∉ line) (rest : Bytes) : (line ++ 10 :: rest).idxOf? 10 = some line.length := by
  induction line with
  | nil => rfl
  | cons byte line ih =>
    rw [List.mem_cons,not_or] at clean
    rw [List.cons_append,List.idxOf?_cons,if_neg (by simpa using Ne.symm clean.1),ih clean.2]
    rfl

theorem newline_header (json : Json) : (10 : UInt8) ∉ utf8Bytes json.stringify := newline_utf8 (Json.newline_text json)

theorem opens_sealed (member : m ∈ vault.made) : vault.opens m.cipher.iv m.cipher.tag m.cipher.ciphertext = some (m.payload env) := by
  unfold Vault.opens
  cases found : vault.made.find? fun other => decide (other.cipher = ⟨m.cipher.iv,m.cipher.ciphertext,m.cipher.tag⟩) with
  | none =>
    have nothing := List.find?_eq_none.mp found m member
    simp at nothing
  | some other =>
    have same := List.find?_some found
    simp only [decide_eq_true_eq] at same
    rw [Option.map_some,vault.consistent other (List.mem_of_find?_eq_some found) m member same]

theorem decrypted_sealed {header : Json} (member : m ∈ vault.made) (encrypted : Json.truthy (Json.field "encrypted" header) = true)
    (iv : bufferFrom env (Json.field "iv" header) = some m.cipher.iv) (tag : bufferFrom env (Json.field "tag" header) = some m.cipher.tag) :
    decrypted env (some vault.opens) header m.cipher.ciphertext = .ok (m.payload env) := by
  unfold decrypted
  rw [if_pos encrypted]
  dsimp only
  rw [iv,tag]
  dsimp only
  rw [opens_sealed member]

theorem openArchive_ok {header : Json} (opened : openArchive env key raw = .ok (header,payload)) :
    ∃ nl compressed, raw.idxOf? 10 = some nl ∧ env.parse (raw.take nl) = some header ∧
      decrypted env key header (raw.drop (nl + 1)) = .ok compressed ∧ env.gunzip compressed = some payload := by
  unfold openArchive at opened
  split at opened
  · cases opened
  · rename_i nl found
    split at opened
    · cases opened
    · rename_i parsed read
      split at opened
      · split at opened
        · cases opened
        · rename_i compressed passed
          split at opened
          · cases opened
          · rename_i plain inflated
            cases opened
            exact ⟨nl,compressed,found,read,passed,inflated⟩
      · cases opened

theorem unpackage_ok {unpackaged : Unpackaged} (done : unpackageBackup env key outDir raw = (written,.ok unpackaged)) :
    ∃ header payload items files, openArchive env key raw = .ok (header,payload) ∧ filesOf header = some items ∧
      Lists env payload (.at 0) items files ∧ written = files.map (fun file => (join outDir file.1,file.2)) ∧
      unpackaged.files = files.map Prod.fst := by
  unfold unpackageBackup at done
  split at done
  · simp at done
  · rename_i header payload opened
    split at done
    · simp at done
    · rename_i items listed
      cases ended : (writeFiles env outDir payload (.at 0) items).2 with
      | error refusal => simp [ended,Except.map] at done
      | ok names =>
        obtain ⟨files,lists,_,wrote,named⟩ :=
          (writeFiles_ok env outDir payload (.at 0) items (writeFiles env outDir payload (.at 0) items).1 names).mp (by rw [← ended])
        simp only [ended,Except.map,Prod.mk.injEq,Except.ok.injEq] at done
        refine ⟨header,payload,items,files,opened,listed,lists,?_,?_⟩
        · rw [← done.1,wrote]
        · rw [← done.2,named]

theorem made_files (member : m ∈ vault.made) (listed : file ∈ m.files) : join outDir file.1 = outDir ++ [file.1] := by
  obtain ⟨entry,shown⟩ := List.mem_filter.mp listed
  obtain ⟨flat,some_⟩ := vault.flat m member file entry
  exact join_flat flat some_ shown outDir

theorem drop_line (line rest : Bytes) : (line ++ 10 :: rest).drop (line.length + 1) = rest := by
  rw [← List.drop_drop,List.drop_left,List.drop_one,List.tail_cons]

theorem line_split (found : raw.idxOf? 10 = some nl) : raw = raw.take nl ++ 10 :: raw.drop (nl + 1) ∧ (10 : UInt8) ∉ raw.take nl := by
  induction raw generalizing nl with
  | nil => simp at found
  | cons byte rest ih =>
    rw [List.idxOf?_cons] at found
    split at found
    · rename_i same
      cases found
      simp at same
      simp [same]
    · rename_i other
      cases later : rest.idxOf? 10 with
      | none => simp [later] at found
      | some place =>
        rw [later,Option.map_some,Option.some.injEq] at found
        subst found
        obtain ⟨whole,clean⟩ := ih later
        refine ⟨?_,?_⟩
        · rw [List.take_succ_cons,List.drop_succ_cons,List.cons_append,← whole]
        · rw [List.take_succ_cons,List.mem_cons,not_or]
          exact ⟨fun same => other (by simp [← same]),clean⟩

theorem line_unique {one two : Bytes} (clean : (10 : UInt8) ∉ one) (tidy : (10 : UInt8) ∉ two)
    (same : one ++ 10 :: before = two ++ 10 :: after) : one = two ∧ before = after := by
  have places := congrArg (List.idxOf? 10) same
  rw [idxOf_line clean,idxOf_line tidy,Option.some.injEq] at places
  obtain ⟨lines,rests⟩ := List.append_inj same places
  exact ⟨lines,(List.cons.inj rests).2⟩

theorem opened_carries {header : Json} (opened : openArchive env (some vault.opens) raw = .ok (header,payload)) :
    ∃ line rest, raw = line ++ 10 :: rest ∧ (10 : UInt8) ∉ line ∧ env.parse line = some header ∧ Carries vault header rest payload := by
  obtain ⟨nl,compressed,found,read,passed,inflated⟩ := openArchive_ok opened
  obtain ⟨whole,clean⟩ := line_split found
  refine ⟨raw.take nl,raw.drop (nl + 1),whole,clean,read,?_⟩
  unfold decrypted at passed
  split at passed
  · rename_i encrypted
    dsimp only at passed
    split at passed
    · rename_i iv tag ivs tags
      split at passed
      · rename_i compressed' opens
        cases passed
        unfold Vault.opens at opens
        rw [Option.map_eq_some_iff] at opens
        obtain ⟨m,found',rfl⟩ := opens
        have same := List.find?_some found'
        simp only [decide_eq_true_eq] at same
        have plain : env.gunzip (m.payload env) = some (m.files.flatMap Prod.snd) := env.undone _
        rw [plain] at inflated
        cases inflated
        have ciphertext := congrArg Cipher.ciphertext same
        dsimp only at ciphertext
        rw [← ciphertext]
        refine .encrypted (List.mem_of_find?_eq_some found') encrypted ?_ ?_
        · rw [ivs,same]
        · rw [tags,same]
      · cases passed
    · cases passed
  · rename_i plain
    cases passed
    exact .plain (by simpa using plain) inflated

theorem carries_unique {header : Json} (one : Carries vault header rest before) (two : Carries vault header rest after) : before = after := by
  cases one with
  | plain off inflated =>
    cases two with
    | plain _ inflated' => exact Option.some.inj (inflated.symm.trans inflated')
    | encrypted _ on => simp [on] at off
  | @encrypted m member on iv tag =>
    generalize behind : m.cipher.ciphertext = rest at two
    cases two with
    | plain off => simp [on] at off
    | @encrypted other member' _ iv' tag' =>
      have ivs : m.cipher.iv = other.cipher.iv := Option.some.inj (iv.symm.trans iv')
      have tags : m.cipher.tag = other.cipher.tag := Option.some.inj (tag.symm.trans tag')
      have ciphers : m.cipher = other.cipher := by
        rw [Cipher.mk.injEq]
        exact ⟨ivs,behind,tags⟩
      have payloads := congrArg env.gunzip (vault.consistent m member other member' ciphers)
      unfold Made.payload at payloads
      rw [env.undone,env.undone] at payloads
      exact Option.some.inj payloads

theorem zip_files {one two : List (String × Bytes)} (names : one.map Prod.fst = two.map Prod.fst)
    (contents : one.map Prod.snd = two.map Prod.snd) : one = two := by
  have unzipped : one.unzip = two.unzip := by rw [List.unzip_eq_map,List.unzip_eq_map,names,contents]
  rw [← List.zip_unzip one,← List.zip_unzip two,unzipped]

theorem sealed_unharmed (sealed_ : Sealed vault raw) : Unharmed vault raw := by
  obtain ⟨m,member,line,header,whole,clean,reads,encrypted,list,iv,tag⟩ := sealed_
  have items : filesOf header = some (fileMap m.files) := by
    unfold filesOf
    rw [list]
  exact ⟨m,member,line,_,header,_,_,whole,clean,reads,items,.encrypted member encrypted iv tag,lists_own env [] m.files⟩

theorem accepted_unharmed (accepted : Accepted vault outDir) (unharmed : Unharmed vault accepted.raw) :
    Genuine vault outDir accepted.written accepted.unpackaged.files := by
  obtain ⟨header,payload,items,files,opened,listed,lists,wrote,named⟩ := unpackage_ok accepted.done
  obtain ⟨line,rest,whole,clean,reads,carries⟩ := opened_carries opened
  obtain ⟨m,member,line',rest',header',items',payload',whole',clean',reads',listed',carries',lists'⟩ := unharmed
  obtain ⟨rfl,rfl⟩ := line_unique clean clean' (whole.symm.trans whole')
  cases Option.some.inj (reads.symm.trans reads')
  cases Option.some.inj (listed.symm.trans listed')
  cases carries_unique carries carries'
  cases lists_unique lists lists'
  refine ⟨⟨m,member,named,?_⟩,?_⟩
  · rw [wrote,List.map_map]
    rfl
  · intro file written
    rw [wrote] at written
    obtain ⟨own,ours,rfl⟩ := List.mem_map.mp written
    rw [made_files member ours]
    exact ⟨List.prefix_append _ _,by simp⟩

theorem accepted_genuine (accepted : Accepted vault outDir) (genuine : Genuine vault outDir accepted.written accepted.unpackaged.files) :
    Unharmed vault accepted.raw := by
  obtain ⟨header,payload,items,files,opened,listed,lists,wrote,named⟩ := unpackage_ok accepted.done
  obtain ⟨line,rest,whole,clean,reads,carries⟩ := opened_carries opened
  obtain ⟨⟨m,member,names,contents⟩,_⟩ := genuine
  have same : files = m.files := by
    refine zip_files (named.symm.trans names) ?_
    rw [← contents,wrote,List.map_map]
    rfl
  rw [same] at lists
  exact ⟨m,member,line,rest,header,items,payload,whole,clean,reads,listed,carries,lists⟩

theorem restoring_opens (restoring : Restoring vault outDir) : openArchive env (some vault.opens) (restoring.made.archive env) =
    .ok (restoring.made.header,restoring.made.files.flatMap Prod.snd) := by
  have whole : restoring.made.archive env = utf8Bytes restoring.made.header.stringify ++ 10 :: restoring.made.cipher.ciphertext := by
    unfold Made.archive packageBackup
    dsimp only
    rw [List.append_assoc]
    rfl
  have iv : bufferFrom env (Json.field "iv" restoring.made.header) = some restoring.made.cipher.iv := by
    change some (Base64.decode (String.ofList (Base64.encode restoring.made.cipher.iv)).toList) = _
    rw [String.toList_ofList,Base64.decode_encode]
  have tag : bufferFrom env (Json.field "tag" restoring.made.header) = some restoring.made.cipher.tag := by
    change some (Base64.decode (String.ofList (Base64.encode restoring.made.cipher.tag)).toList) = _
    rw [String.toList_ofList,Base64.decode_encode]
  have plain : env.gunzip (restoring.made.payload env) = some (restoring.made.files.flatMap Prod.snd) := env.undone _
  have format : Json.field "format" restoring.made.header = some (.string "pezhwan-backup-v1") := rfl
  unfold openArchive
  rw [whole,idxOf_line (newline_header _)]
  dsimp only
  rw [List.take_left,vault.reads _ restoring.member]
  dsimp only
  rw [format,drop_line,decrypted_sealed restoring.member rfl iv tag]
  simp only [plain]

theorem restoring_files (restoring : Restoring vault outDir) :
    unpackageBackup env (some vault.opens) outDir (restoring.made.archive env) =
      (restoring.made.files.map (fun file => (outDir ++ [file.1],file.2)),
        .ok ⟨restoring.made.header,outDir,restoring.made.files.map Prod.fst,env.sha256Hex (restoring.made.archive env)⟩) := by
  have items : filesOf restoring.made.header = some (fileMap restoring.made.files) := rfl
  have own := lists_own env [] restoring.made.files
  have done := (writeFiles_ok env outDir (restoring.made.files.flatMap Prod.snd) (.at 0) (fileMap restoring.made.files) _ _).mpr
    ⟨restoring.made.files,own,restoring.writable,rfl,rfl⟩
  have places : restoring.made.files.map (fun file => (join outDir file.1,file.2)) =
      restoring.made.files.map (fun file => (outDir ++ [file.1],file.2)) := by
    refine List.map_congr_left ?_
    intro file listed
    rw [made_files restoring.member listed]
  unfold unpackageBackup
  rw [restoring_opens]
  dsimp only
  rw [items]
  dsimp only
  rw [done,places]
  rfl

theorem restoring_entries (restoring : Restoring vault outDir) : restoring.made.files = restoring.made.entries :=
  List.filter_eq_self.mpr restoring.dotless

end

-- Everything packed comes out again. What comes out was packed exactly when the
-- header, which no key protects, still names and cuts it.
theorem archives_authentic_iff (vault : Vault env) (outDir : Path) :
    (∀ restoring : Restoring vault outDir, unpackageBackup env (some vault.opens) outDir (restoring.made.archive env) =
      (restoring.made.entries.map (fun file => (outDir ++ [file.1],file.2)),
        .ok ⟨restoring.made.header,outDir,restoring.made.entries.map Prod.fst,env.sha256Hex (restoring.made.archive env)⟩)) ∧
    ∀ accepted : Accepted vault outDir,
      (Sealed vault accepted.raw → Genuine vault outDir accepted.written accepted.unpackaged.files) ∧
      (Genuine vault outDir accepted.written accepted.unpackaged.files ↔ Unharmed vault accepted.raw) := by
  refine ⟨?_,?_⟩
  · intro restoring
    have restored := restoring_files restoring
    rwa [restoring_entries restoring] at restored
  · intro accepted
    refine ⟨fun sealed_ => ?_,accepted_genuine accepted,accepted_unharmed accepted⟩
    exact accepted_unharmed accepted (sealed_unharmed sealed_)

section Samples

def packed : Made where
  entries := [("users.json",[1,2])]
  strategy := "logical"
  createdAt := "2026-01-01T00:00:00.000Z"
  cipher := ⟨[7],[8],[9]⟩

def forged : Json :=
  .object [("format",.string "pezhwan-backup-v1"),("encrypted",.bool false),
    ("files",.array [.object [("name",.string "../cron"),("length",.number (numeral 2))]])]

-- A gzip that stores, and a parser that knows two lines.
def sampleEnv : Env where
  parse line := [forged,packed.header].find? fun json => line = utf8Bytes json.stringify
  gzip bytes := bytes
  gunzip bytes := some bytes
  undone _ := rfl
  bytesOf _ := none
  stop _ _ _ := none
  subarray _ _ _ := []
  sha256Hex _ := ""
  writable _ _ := true

def packedVault : Vault sampleEnv where
  made := [packed]
  flat := by decide
  reads := by
    have apart : utf8Bytes packed.header.stringify ≠ utf8Bytes forged.stringify := by decide +kernel
    simp [sampleEnv,List.find?,apart]
  consistent := by simp

def packedRestoring : Restoring packedVault ["restored"] where
  made := packed
  member := List.mem_singleton_self _
  dotless := by decide
  writable _ _ := rfl

theorem archives_authentic_iff_packed : unpackageBackup sampleEnv (some packedVault.opens) ["restored"] (packed.archive sampleEnv) =
    ([(["restored","users.json"],[1,2])],.ok ⟨packed.header,["restored"],["users.json"],""⟩) :=
  (archives_authentic_iff packedVault ["restored"]).1 packedRestoring

def emptyVault : Vault sampleEnv where
  made := []
  flat := by simp
  reads := by simp
  consistent := by simp

theorem forged_opens (key : Option Decryption) (payload : Bytes) :
    openArchive sampleEnv key (utf8Bytes forged.stringify ++ 10 :: payload) = .ok (forged,payload) := by
  have known : sampleEnv.parse (utf8Bytes forged.stringify) = some forged := by
    simp [sampleEnv]
  have format : Json.field "format" forged = some (.string "pezhwan-backup-v1") := rfl
  have plain : decrypted sampleEnv key forged payload = .ok payload := rfl
  unfold openArchive
  rw [idxOf_line (newline_header _)]
  dsimp only
  rw [List.take_left,known]
  dsimp only
  rw [format,drop_line]
  simp only [plain]
  rfl

def forgedArchive : Accepted emptyVault ["tmp","dump"] where
  raw := utf8Bytes forged.stringify ++ 10 :: [104,105]
  written := [(join ["tmp","dump"] "../cron",[104,105])]
  unpackaged := ⟨forged,["tmp","dump"],["../cron"],""⟩
  done := by
    have last : Lists sampleEnv [104,105] (.at (min (0 + 2) [104,105].length)) [] [] := .nil
    have lists := Lists.cons (f := .object [("name",.string "../cron"),("length",.number (numeral 2))]) rfl
      (advance_at sampleEnv 0 2 [104,105].length) last
    have done := (writeFiles_ok sampleEnv ["tmp","dump"] [104,105] (.at 0) _ _ _).mpr ⟨_,lists,by simp [sampleEnv],rfl,rfl⟩
    unfold unpackageBackup
    rw [forged_opens]
    dsimp only
    change ((writeFiles _ _ _ _ _).1,_) = _
    rw [done]
    rfl

-- Nothing was made under the key, and a file beside the directory is written.
theorem forged_unpacked : ¬ ∀ (env : Env) (vault : Vault env) (outDir : Path) (accepted : Accepted vault outDir),
    Genuine vault outDir accepted.written accepted.unpackaged.files := by
  intro claim
  obtain ⟨⟨m,member,_⟩,_⟩ := claim sampleEnv emptyVault ["tmp","dump"] forgedArchive
  cases member

end Samples
end Pezhwan.Backup
