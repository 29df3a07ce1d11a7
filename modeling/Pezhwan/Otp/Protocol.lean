import Pezhwan.Auth.Watch

-- Requests and verifications of one-time passcodes, action by action.
namespace Pezhwan.Otp
open Atomic Prog Auth

inductive Call where
  | request (otp : OtpService) (channel : Channel) (target : String) (purpose : OtpPurpose)
  | verify (otp : OtpService) (channel : Channel) (target : String) (purpose : OtpPurpose) (code : String)
  deriving DecidableEq

inductive Answer where
  | requested (retryAfterSeconds : Option Nat)
  | verified (verified : Bool)
  deriving DecidableEq, Repr

def program (platform : Platform) : Call → Program Answer
  | .request otp channel target purpose => .requested <$> requestOtp platform otp channel target purpose
  | .verify otp channel target purpose code => .verified <$> verifyOtp platform otp channel target purpose code

def Call.channel : Call → Channel
  | .request _ channel _ _ | .verify _ channel _ _ _ => channel

def Call.target : Call → String
  | .request _ _ target _ | .verify _ _ target _ _ => target

def Call.otp : Call → OtpService
  | .request otp _ _ _ | .verify otp _ _ _ _ => otp

def attemptsKey (platform : Platform) (call : Call) : CacheKey :=
  .otpAttempts call.channel.name (platform.toLowerCase call.target)

def cooldownKey (platform : Platform) (call : Call) : CacheKey :=
  .otpCooldown call.channel.name (platform.toLowerCase call.target)

-- The counter as it is read from the cache.
def attempted (key : CacheKey) (w : World) : Nat := (cachedNumber (w.base.cache.get w.base.now key)).getD 0

-- The document whose code hash a verification compares, by the moves it has
-- made: counter, document, clock (newest first).
def compared (platform : Platform) : Call → List (World × World) → Option OtpDoc
  | .verify otp channel target purpose _,[time,look,count] =>
    if attempted (.otpAttempts channel.name (platform.toLowerCase target)) count.1 < otp.maxAttempts then
      (look.1.otps.find? (otp.selects channel (platform.toLowerCase target) purpose)).filter fun doc =>
        !(doc.expiresAt < time.1.base.now || doc.consumed)
    else none
  | _,_ => none

def matches_ (platform : Platform) : Call → OtpDoc → Bool
  | .verify _ _ _ _ code,doc => platform.sha256 code = doc.codeHash
  | .request _ _ _ _,_ => false

-- The document it is about to mark consumed.
def confirmed (platform : Platform) (call : Call) (memory : List (World × World)) : Option OtpDoc :=
  (compared platform call memory).filter (matches_ platform call)

-- The hash that an action marks consumed.
def consumes (platform : Platform) (call : Call) (memory : List (World × World)) (w : World) : Option String :=
  if w.base.fault = none then (confirmed platform call memory).map OtpDoc.codeHash else none

-- Whether its code is not the one of that document.
def wrong (platform : Platform) (call : Call) (memory : List (World × World)) : Bool :=
  (compared platform call memory).any fun doc => !matches_ platform call doc

-- Neither the action that marks a document nor the one that counts a failure.
structure Idle (platform : Platform) (call : Call) (memory : List (World × World)) (w : World) : Prop where
  unmarked : consumes platform call memory w = none
  uncounted : ∀ inc older, memory = inc :: older → wrong platform call older = false

def upsert (platform : Platform) (otp : OtpService) (channel : Channel) (lowered : String) (purpose : OtpPurpose)
    (code : String) (i : CallId) (w : World) : World :=
  let fresh := fun doc : OtpDoc =>
    {doc with codeHash := platform.sha256 code,expiresAt := w.base.now + otp.ttlMs,consumed := false}
  match w.otps.find? (otp.selects channel lowered purpose) with
  | some _ => w.updateOtp (otp.selects channel lowered purpose) fresh
  | none => {w with
      base := {w.base with draws := w.base.draws ++ [i]},
      otps := w.otps ++ [fresh ⟨platform.random.fresh w.base.draws.length,otp.tenantId,otp.applicationId,channel,
        lowered,purpose,"",0,0,false⟩]}

def drawCode (platform : Platform) (otp : OtpService) (n : Nat) : String :=
  platform.generateOtp otp.codeLength (platform.random.fresh n)

def World.withCache (w : World) (cache : Cache) : World := {w with base := {w.base with cache}}

-- What an action does, given the call's own moves before (newest first).
inductive Does (platform : Platform) : Call → List (World × World) → World → World → Prop where
  | still {call : Call} {memory : List (World × World)} (s : World) (idle : Idle platform call memory s) :
      Does platform call memory s s
  | drew {otp : OtpService} {channel : Channel} {target : String} {purpose : OtpPurpose} {memory : List (World × World)}
      (i : CallId) (s : World) :
      Does platform (.request otp channel target purpose) memory s {s with base := {s.base with draws := s.base.draws ++ [i]}}
  | stored {otp : OtpService} {channel : Channel} {target : String} {purpose : OtpPurpose} {draw : World × World}
      {older : List (World × World)} (i : CallId) (s : World) (fourth : older.length = 3)
      (drawn : draw.2.base.draws.length = draw.1.base.draws.length + 1) :
      Does platform (.request otp channel target purpose) (draw :: older) s (upsert platform otp channel
        (platform.toLowerCase target) purpose (drawCode platform otp draw.1.base.draws.length) i s)
  | cooled {otp : OtpService} {channel : Channel} {target : String} {purpose : OtpPurpose} {memory : List (World × World)}
      (s : World) (until_ ttl : Nat) : Does platform (.request otp channel target purpose) memory s (World.withCache s
        (s.base.cache.set s.base.now (cooldownKey platform (.request otp channel target purpose)) (.number until_) ttl))
  | delivered {otp : OtpService} {channel : Channel} {target : String} {purpose : OtpPurpose} {memory : List (World × World)}
      (s : World) (delivery : Delivery) :
      Does platform (.request otp channel target purpose) memory s {s with deliveries := s.deliveries ++ [delivery]}
  | marked {call : Call} {memory : List (World × World)} {doc : OtpDoc} (s : World) (healthy : s.base.fault = none)
      (found : confirmed platform call memory = some doc) :
      Does platform call memory s (s.updateOtp (fun other => other.id = doc.id)
        fun other => {other with consumed := true,attempts := doc.attempts + 1})
  | cleared {call : Call} {last : List (World × World)} {mark : World × World} {memory : List (World × World)} {doc : OtpDoc}
      {key : CacheKey} (s : World) (healthy : mark.1.base.fault = none) (found : confirmed platform call memory = some doc)
      (own : key = attemptsKey platform call ∨ key = cooldownKey platform call) :
      Does platform call (last ++ mark :: memory) s (World.withCache s (s.base.cache.del key))
  | missed {call : Call} {memory : List (World × World)} {doc : OtpDoc} (s : World)
      (found : compared platform call memory = some doc) (wrong : matches_ platform call doc = false) :
      Does platform call memory s (s.updateOtp (fun other => other.id = doc.id)
        fun other => {other with attempts := other.attempts + 1})
  | counted {call : Call} {inc time look read : World × World} {doc : OtpDoc} (s : World)
      (found : compared platform call [time,look,read] = some doc) (wrong : matches_ platform call doc = false) :
      Does platform call [inc,time,look,read] s (World.withCache s (s.base.cache.set s.base.now (attemptsKey platform call)
        (.number (attempted (attemptsKey platform call) read.1 + 1)) (ceilSeconds call.otp.attemptsWindowMs)))

-- A verification that succeeds has marked the code it was about.
def Ended (platform : Platform) (call : Call) (result : Except Error Answer) (moves : List (World × World)) : Prop :=
  result = .ok (.verified true) → ∃ cleared again mark memory doc, moves = cleared :: again :: mark :: memory ∧
    confirmed platform call memory = some doc ∧ mark.1.base.fault = none

section
variable {platform : Platform} {i : CallId} {memory : List (World × World)}

abbrev Anyhow : World → Prop := fun _ => True

theorem compared_some (found : compared platform call memory = some doc) :
    ∃ otp channel target purpose code time look read, call = .verify otp channel target purpose code ∧
      memory = [time,look,read] ∧
      look.1.otps.find? (otp.selects channel (platform.toLowerCase target) purpose) = some doc ∧
      doc.consumed = false ∧ attempted (attemptsKey platform call) read.1 < otp.maxAttempts := by
  unfold compared at found
  split at found
  · split at found
    case isFalse => cases found
    rename_i below
    obtain ⟨first,open_⟩ := Option.filter_eq_some_iff.mp found
    simp only [Bool.not_eq_true',Bool.or_eq_false_iff,decide_eq_false_iff_not] at open_
    exact ⟨_,_,_,_,_,_,_,_,rfl,rfl,first,open_.2,below⟩
  · cases found

theorem confirmed_some (found : confirmed platform call memory = some doc) :
    compared platform call memory = some doc ∧ matches_ platform call doc = true :=
  Option.filter_eq_some_iff.mp found

theorem consumes_some (claimed : consumes platform call memory w = some r) :
    w.base.fault = none ∧ ∃ doc, confirmed platform call memory = some doc ∧ doc.codeHash = r := by
  unfold consumes at claimed
  split at claimed
  · rename_i healthy
    exact ⟨healthy,Option.map_eq_some_iff.mp claimed⟩
  · cases claimed

theorem wrong_some (miss : wrong platform call memory = true) :
    ∃ doc, compared platform call memory = some doc ∧ matches_ platform call doc = false := by
  obtain ⟨doc,found,other⟩ := (Option.any_eq_true _ _).mp miss
  exact ⟨doc,found,by simpa using other⟩

theorem wrong_length (other : memory.length ≠ 3) : wrong platform call memory = false := by
  by_contra miss
  obtain ⟨doc,found,_⟩ := wrong_some (by simpa using miss)
  obtain ⟨_,_,_,_,_,time,look,read,_,rfl,_⟩ := compared_some found
  exact other rfl

theorem consumes_length (other : memory.length ≠ 3) : consumes platform call memory w = none := by
  by_contra some_
  obtain ⟨r,claimed⟩ := Option.ne_none_iff_exists'.mp some_
  obtain ⟨_,doc,found,_⟩ := consumes_some claimed
  obtain ⟨_,_,_,_,_,time,look,read,_,rfl,_⟩ := compared_some (confirmed_some found).1
  exact other rfl

theorem idle_length (short : memory.length < 3) : Idle platform call memory w := by
  refine ⟨consumes_length (by omega),?_⟩
  rintro inc older rfl
  rw [List.length_cons] at short
  exact wrong_length (by omega)

theorem idle_request (otp : OtpService) (channel : Channel) (target : String) (purpose : OtpPurpose) (w : World) :
    Idle platform (.request otp channel target purpose) memory w := by
  refine ⟨?_,?_⟩
  · by_contra some_
    obtain ⟨r,claimed⟩ := Option.ne_none_iff_exists'.mp some_
    obtain ⟨_,doc,found,_⟩ := consumes_some claimed
    obtain ⟨_,_,_,_,_,_,_,_,asked,_⟩ := compared_some (confirmed_some found).1
    cases asked
  · intro inc older _
    by_contra miss
    obtain ⟨doc,found,_⟩ := wrong_some (by simpa using miss)
    obtain ⟨_,_,_,_,_,_,_,_,asked,_⟩ := compared_some found
    cases asked

theorem idle_fault (faulty : w.base.fault ≠ none) (third : memory.length = 3) : Idle platform call memory w := by
  refine ⟨if_neg faulty,?_⟩
  rintro inc older rfl
  rw [List.length_cons] at third
  exact wrong_length (by omega)

theorem acts_cacheGet {rule : List (World × World) → World → World → Prop} {key : CacheKey}
    {post : Except Error (Option CacheValue) → List (World × World) → Prop} (still : ∀ w, rule memory w w)
    (holds : ∀ w, post (.ok (w.base.cache.get w.base.now key)) ((w,w) :: memory)) :
    (base (cacheGet key)).Acts Anyhow i rule memory post := by
  apply Acts.zoom_atomic
  intro w _
  exact ⟨still w,holds w⟩

theorem acts_clock {rule : List (World × World) → World → World → Prop} {post : Except Error Nat → List (World × World) → Prop}
    (still : ∀ w, rule memory w w) (holds : ∀ w, post (.ok w.base.now) ((w,w) :: memory)) :
    (base clock).Acts Anyhow i rule memory post := by
  apply Acts.zoom_atomic
  intro w _
  exact ⟨still w,holds w⟩

-- requestOtp past the cooldown.
def issueCode (platform : Platform) (otp : OtpService) (channel : Channel) (target : String) (purpose : OtpPurpose) :
    Program (Option Nat) := do
  let lowered := platform.toLowerCase target
  let attempts := (cachedNumber (← base (cacheGet (.otpAttempts channel.name lowered)))).getD 0
  if otp.maxAttempts ≤ attempts then return some (ceilSeconds otp.attemptsWindowMs)
  let code := platform.generateOtp otp.codeLength (← base (draw platform.random))
  op fun i w => .ok ((),upsert platform otp channel lowered purpose code i w)
  let sent ← base clock
  base (cacheSet (.otpCooldown channel.name lowered) (.number (sent + otp.resendCooldownMs))
    (ceilSeconds otp.resendCooldownMs))
  if channel ≠ .email ∧ !otp.smsConfigured then
    raise .validation "Phone OTP is not configured" "PHONE_OTP_UNSUPPORTED"
  deliver ⟨channel,target,code,purpose⟩
  return none

theorem requestOtp_eq (otp : OtpService) (channel : Channel) (target : String) (purpose : OtpPurpose) :
    requestOtp platform otp channel target purpose = (do
      let cooldown ← base (cacheGet (.otpCooldown channel.name (platform.toLowerCase target)))
      let now ← base clock
      match cachedNumber cooldown with
      | some until_ =>
        if now < until_ then pure (some (ceilSeconds (until_ - now))) else issueCode platform otp channel target purpose
      | none => issueCode platform otp channel target purpose) := by
  have written : ∀ code : String, (fun (i : CallId) (w : World) =>
      (Except.ok ((),upsert platform otp channel (platform.toLowerCase target) purpose code i w) :
        Except MongoError (Unit × World))) = fun i w =>
      match w.otps.find? (otp.selects channel (platform.toLowerCase target) purpose) with
      | some _ => .ok ((),w.updateOtp (otp.selects channel (platform.toLowerCase target) purpose) fun doc =>
          {doc with codeHash := platform.sha256 code,expiresAt := w.base.now + otp.ttlMs,consumed := false})
      | none => .ok ((),{w with
          base := {w.base with draws := w.base.draws ++ [i]},
          otps := w.otps ++ [⟨platform.random.fresh w.base.draws.length,otp.tenantId,otp.applicationId,channel,
            platform.toLowerCase target,purpose,platform.sha256 code,w.base.now + otp.ttlMs,0,false⟩]}) := by
    intro code
    funext i w
    unfold upsert
    cases w.otps.find? (otp.selects channel (platform.toLowerCase target) purpose) <;> rfl
  unfold requestOtp issueCode
  simp only [written] <;> rfl

theorem acts_issueCode (otp : OtpService) (channel : Channel) (target : String) (purpose : OtpPurpose)
    (two : memory.length = 2) :
    (issueCode platform otp channel target purpose).Acts Anyhow i (Does platform (.request otp channel target purpose))
      memory fun _ _ => True := by
  unfold issueCode
  apply Acts.bind
  apply acts_cacheGet fun w => .still w (idle_request ..)
  intro third
  dsimp only
  split
  · trivial
  · apply Acts.bind
    apply Acts.zoom_atomic
    intro fourth _
    refine ⟨.drew i fourth,?_⟩
    apply Acts.bind
    apply acts_op
    · intro fifth _ healthy value t ran
      cases ran
      refine ⟨.stored i fifth (by simp [two]) (by simp [baseLens]),?_⟩
      apply Acts.bind
      apply acts_clock fun w => .still w (idle_request ..)
      intro sixth
      dsimp only
      apply Acts.bind
      apply Acts.zoom_atomic
      intro seventh _
      refine ⟨.cooled seventh _ _,?_⟩
      dsimp only
      split
      · trivial
      · apply Acts.bind
        apply Acts.atomic
        intro eighth _
        exact ⟨.delivered eighth _,trivial⟩
    · intro fifth e _ _
      exact ⟨.still fifth (idle_request ..),trivial⟩

theorem acts_requestOtp (otp : OtpService) (channel : Channel) (target : String) (purpose : OtpPurpose) :
    (requestOtp platform otp channel target purpose).Acts Anyhow i (Does platform (.request otp channel target purpose)) []
      fun _ _ => True := by
  rw [requestOtp_eq]
  apply Acts.bind
  apply acts_cacheGet fun w => .still w (idle_request ..)
  intro cool
  dsimp only
  apply Acts.bind
  apply acts_clock fun w => .still w (idle_request ..)
  intro start
  dsimp only
  split
  · split
    · trivial
    · exact acts_issueCode otp channel target purpose rfl
  · exact acts_issueCode otp channel target purpose rfl

theorem acts_verifyOtp (otp : OtpService) (channel : Channel) (target : String) (purpose : OtpPurpose) (code : String) :
    (verifyOtp platform otp channel target purpose code).Acts Anyhow i
      (Does platform (.verify otp channel target purpose code)) []
      fun result moves => Ended platform (.verify otp channel target purpose code) (result.map .verified) moves := by
  unfold verifyOtp
  apply Acts.bind
  apply acts_cacheGet fun w => .still w (idle_length (by simp))
  intro first
  dsimp only
  split
  · intro none
    cases none
  · rename_i room
    apply Acts.bind
    apply acts_read
    · intro second _ healthy
      refine ⟨.still second (idle_length (by simp)),?_⟩
      dsimp only
      cases found : second.otps.find? (otp.selects channel (platform.toLowerCase target) purpose) with
      | none => intro none; cases none
      | some doc =>
        dsimp only
        apply Acts.bind
        apply acts_clock fun w => .still w (idle_length (by simp))
        intro third
        dsimp only
        split
        · intro none
          cases none
        · rename_i open_
          have seen : compared platform (.verify otp channel target purpose code) [(third,third),(second,second),(first,first)] =
              some doc := by
            have below : attempted (.otpAttempts channel.name (platform.toLowerCase target)) first < otp.maxAttempts :=
              Nat.lt_of_not_le room
            unfold compared
            dsimp only
            rw [if_pos below,found]
            simpa using open_
          split
          · rename_i matched
            have hit : confirmed platform (.verify otp channel target purpose code)
                [(third,third),(second,second),(first,first)] = some doc := by
              unfold confirmed
              rw [seen]
              simp [matches_,matched]
            apply Acts.bind
            apply acts_write
            · intro fourth _ healthy
              refine ⟨.marked fourth healthy hit,?_⟩
              apply Acts.bind
              apply Acts.zoom_atomic
              intro fifth _
              refine ⟨@Does.cleared platform _ [] _ _ _ _ fifth healthy hit (.inl rfl),?_⟩
              apply Acts.bind
              apply Acts.zoom_atomic
              intro sixth _
              refine ⟨@Does.cleared platform _ [_] _ _ _ _ sixth healthy hit (.inr rfl),?_⟩
              intro _
              exact ⟨_,_,_,_,doc,rfl,hit,healthy⟩
            · intro fourth e _ faulty
              refine ⟨.still fourth (idle_fault (by simp [faulty]) rfl),?_⟩
              intro none
              cases none
          · rename_i other
            have wrong : matches_ platform (.verify otp channel target purpose code) doc = false := by
              simpa [matches_] using other
            apply Acts.bind
            apply acts_write
            · intro fourth _ healthy
              refine ⟨.missed fourth seen wrong,?_⟩
              apply Acts.bind
              apply Acts.zoom_atomic
              intro fifth _
              refine ⟨.counted fifth seen wrong,?_⟩
              intro none
              cases none
            · intro fourth e _ faulty
              refine ⟨.still fourth (idle_fault (by simp [faulty]) rfl),?_⟩
              intro none
              cases none
    · intro second e _ _
      refine ⟨.still second (idle_length (by simp)),?_⟩
      intro none
      cases none

theorem acts_program (platform : Platform) (i : CallId) (call : Call) :
    (program platform call).Acts Anyhow i (Does platform call) [] (Ended platform call) := by
  cases call with
  | request otp channel target purpose =>
    apply Acts.bind
    apply (acts_requestOtp otp channel target purpose).mono
    intro result moves _
    cases result with
    | ok value => exact fun same => nomatch same
    | error e => exact fun same => nomatch same
  | verify otp channel target purpose code =>
    apply Acts.bind
    apply (acts_verifyOtp otp channel target purpose code).mono
    intro result moves ended
    cases result with
    | ok value => exact ended
    | error e => exact fun same => nomatch same

end
end Pezhwan.Otp
