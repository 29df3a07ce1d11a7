import Pezhwan.Atomic.Blind
import Pezhwan.Otp.Once

-- One application's passcodes beside another's.
namespace Pezhwan.Otp
open Atomic Prog Config Auth

structure Application where
  tenantId : String
  applicationId : String
  deriving DecidableEq, Repr

def Application.holds (app : Application) (doc : OtpDoc) : Bool :=
  doc.tenantId = app.tenantId && doc.applicationId = app.applicationId

def applicationOf (otp : OtpService) : Application := ⟨otp.tenantId,otp.applicationId⟩

def entry (key : CacheKey) (w : World) : Option (CacheKey × CacheValue × Nat) :=
  w.base.cache.find? fun entry => entry.1 = key

def World.drawn (w : World) (i : CallId) : World := {w with base := {w.base with draws := w.base.draws ++ [i]}}

-- The id is drawn, and belongs to documents of the application or to others.
structure Fixed (platform : Platform) (app : Application) (docId : String) (whose : Bool) (w : World) : Prop where
  used : ∃ n < w.base.draws.length, docId = platform.random.fresh n
  same : ∀ doc ∈ w.otps, doc.id = docId → app.holds doc = whose

def Placed (platform : Platform) (app : Application) (w : World) : Prop :=
  ∀ doc ∈ w.otps, Fixed platform app doc.id (app.holds doc) w

-- What the calls of the application can tell of two worlds.
structure Alike (app : Application) (keys : CacheKey → Prop) (s s' : World) : Prop where
  now : s.base.now = s'.base.now
  fault : s.base.fault = s'.base.fault
  draws : s.base.draws = s'.base.draws
  otps : s.otps.filter app.holds = s'.otps.filter app.holds
  entries : ∀ key, keys key → entry key s = entry key s'

-- The second world holds documents of the application only.
structure Same (platform : Platform) (app : Application) (keys : CacheKey → Prop) (s s' : World) : Prop
    extends Alike app keys s s' where
  placed : Placed platform app s
  sole : ∀ doc ∈ s'.otps, app.holds doc = true

-- Draws are never taken back, and a drawn id never changes hands.
structure Grown (platform : Platform) (app : Application) (s t : World) : Prop where
  draws : s.base.draws.length ≤ t.base.draws.length
  inherited : ∀ doc ∈ t.otps, (∃ n < s.base.draws.length, doc.id = platform.random.fresh n) →
    ∃ old ∈ s.otps, old.id = doc.id ∧ app.holds old = app.holds doc

section
variable {platform : Platform} {app : Application} {keys : CacheKey → Prop} {s s' t : World}

theorem Grown.trans (first : Grown platform app a b) (second : Grown platform app b c) : Grown platform app a c := by
  refine ⟨Nat.le_trans first.draws second.draws,?_⟩
  rintro doc member ⟨n,drawn,named⟩
  obtain ⟨middle,listed,same,held⟩ := second.inherited doc member ⟨n,Nat.lt_of_lt_of_le drawn first.draws,named⟩
  obtain ⟨old,present,same',held'⟩ := first.inherited middle listed ⟨n,drawn,same.trans named⟩
  exact ⟨old,present,same'.trans same,held'.trans held⟩

theorem Grown.kept (draws : s.base.draws.length ≤ t.base.draws.length)
    (otps : ∀ doc ∈ t.otps, ∃ old ∈ s.otps, old.id = doc.id ∧ app.holds old = app.holds doc) : Grown platform app s t :=
  ⟨draws,fun doc member _ => otps doc member⟩

theorem Grown.refl (s : World) : Grown platform app s s :=
  .kept (Nat.le_refl _) fun doc member => ⟨doc,member,rfl,rfl⟩

theorem Grown.same (draws : s.base.draws.length ≤ t.base.draws.length) (otps : t.otps = s.otps) : Grown platform app s t :=
  .kept draws fun doc member => ⟨doc,otps ▸ member,rfl,rfl⟩

theorem Grown.update {p : OtpDoc → Bool} {f : OtpDoc → OtpDoc}
    (kept : ∀ doc, (f doc).id = doc.id ∧ app.holds (f doc) = app.holds doc) : Grown platform app s (s.updateOtp p f) := by
  apply @Grown.kept platform app s (s.updateOtp p f) (Nat.le_refl _)
  intro doc member
  rcases Collection.mem_updateOne member with old | ⟨old,found,rfl⟩
  · exact ⟨doc,old,rfl,rfl⟩
  · exact ⟨old,List.mem_of_find?_eq_some found,(kept old).1.symm,(kept old).2.symm⟩

theorem Grown.insert (i : CallId) {doc : OtpDoc} (named : doc.id = platform.random.fresh s.base.draws.length) :
    Grown platform app s {World.drawn s i with otps := s.otps ++ [doc]} := by
  refine ⟨by simp [World.drawn],?_⟩
  rintro other member ⟨n,drawn,used⟩
  rcases List.mem_append.mp member with old | last
  · exact ⟨other,old,rfl,rfl⟩
  · cases List.mem_singleton.mp last
    have equal := platform.random.injective (used.symm.trans named)
    omega

theorem Fixed.grown (fixed : Fixed platform app docId whose s) (grown : Grown platform app s t) :
    Fixed platform app docId whose t := by
  obtain ⟨n,drawn,rfl⟩ := fixed.used
  refine ⟨⟨n,Nat.lt_of_lt_of_le drawn grown.draws,rfl⟩,?_⟩
  intro doc member named
  obtain ⟨old,listed,same,held⟩ := grown.inherited doc member ⟨n,drawn,named⟩
  rw [← held]
  exact fixed.same old listed (same.trans named)

theorem Placed.kept (placed : Placed platform app s) (draws : s.base.draws.length ≤ t.base.draws.length)
    (otps : ∀ doc ∈ t.otps, ∃ old ∈ s.otps, old.id = doc.id ∧ app.holds old = app.holds doc) : Placed platform app t := by
  intro doc member
  obtain ⟨old,listed,same,held⟩ := otps doc member
  rw [← same,← held]
  exact (placed old listed).grown (.kept draws otps)

theorem Placed.same (placed : Placed platform app s) (draws : s.base.draws.length ≤ t.base.draws.length)
    (otps : t.otps = s.otps) : Placed platform app t :=
  placed.kept draws fun doc member => ⟨doc,otps ▸ member,rfl,rfl⟩

theorem Placed.update {p : OtpDoc → Bool} {f : OtpDoc → OtpDoc} (placed : Placed platform app s)
    (kept : ∀ doc, (f doc).id = doc.id ∧ app.holds (f doc) = app.holds doc) : Placed platform app (s.updateOtp p f) := by
  apply @Placed.kept platform app s (s.updateOtp p f) placed (Nat.le_refl _)
  intro doc member
  rcases Collection.mem_updateOne member with old | ⟨old,found,rfl⟩
  · exact ⟨doc,old,rfl,rfl⟩
  · exact ⟨old,List.mem_of_find?_eq_some found,(kept old).1.symm,(kept old).2.symm⟩

theorem Placed.insert (placed : Placed platform app s) (i : CallId) {doc : OtpDoc}
    (named : doc.id = platform.random.fresh s.base.draws.length) :
    Placed platform app {World.drawn s i with otps := s.otps ++ [doc]} := by
  have grown := @Grown.insert platform app s i doc named
  intro other member
  rcases List.mem_append.mp member with old | last
  · exact (placed other old).grown grown
  · cases List.mem_singleton.mp last
    refine ⟨⟨s.base.draws.length,by simp [World.drawn],named⟩,?_⟩
    intro another listed same
    rcases List.mem_append.mp listed with old | last
    · obtain ⟨n,drawn,used⟩ := (placed another old).used
      have equal := platform.random.injective (used.symm.trans (same.trans named))
      omega
    · cases List.mem_singleton.mp last
      rfl

section
variable (same : Same platform app keys s s')
include same

theorem Same.get (known : keys key) :
    s.base.cache.get s.base.now key = s'.base.cache.get s'.base.now key := by
  have found := same.entries key known
  unfold entry at found
  unfold Cache.get
  rw [found,same.now]

theorem Same.find {p : OtpDoc → Bool}
    (within : ∀ doc, p doc = true → app.holds doc = true) : s.otps.find? p = s'.otps.find? p := by
  have narrow : ∀ docs : List OtpDoc, docs.find? p = (docs.filter app.holds).find? p := by
    intro docs
    rw [List.find?_filter]
    congr 1
    funext doc
    by_cases hit : p doc = true
    · simp [hit,within doc hit]
    · simp [hit]
  rw [narrow s.otps,narrow s'.otps,same.otps]

theorem Same.entered (cache cache' : Cache)
    (entries : ∀ key, keys key → entry key (World.withCache s cache) = entry key (World.withCache s' cache')) :
    Same platform app keys (World.withCache s cache) (World.withCache s' cache') :=
  ⟨⟨same.now,same.fault,same.draws,same.otps,entries⟩,same.placed.same (Nat.le_refl _) rfl,same.sole⟩

omit same in
theorem entry_set (key other : CacheKey) (value : CacheValue) (ttl : Nat) (s : World) :
    entry key (World.withCache s (s.base.cache.set s.base.now other value ttl)) =
      if other = key then some (other,value,if ttl = 0 then Cache.MAX_SAFE_INTEGER else s.base.now + ttl * 1000)
      else entry key s := by
  unfold entry World.withCache Cache.set
  by_cases hit : other = key
  · simp [hit]
  · rw [if_neg hit]
    dsimp only
    rw [List.find?_cons_of_neg (by simpa using hit),Cache.find_del_ne _ fun same => hit same.symm]

omit same in
theorem entry_del (key other : CacheKey) (s : World) :
    entry key (World.withCache s (s.base.cache.del other)) = if other = key then none else entry key s := by
  unfold entry World.withCache
  by_cases hit : other = key
  · subst hit
    simp [Cache.del,List.find?_eq_none]
  · rw [if_neg hit]
    exact Cache.find_del_ne _ fun same => hit same.symm

theorem Same.set (other : CacheKey) (value : CacheValue) (ttl : Nat) :
    Same platform app keys (World.withCache s (s.base.cache.set s.base.now other value ttl))
      (World.withCache s' (s'.base.cache.set s'.base.now other value ttl)) := by
  apply same.entered
  intro key known
  rw [entry_set,entry_set,same.now,same.entries key known]

theorem Same.del (other : CacheKey) :
    Same platform app keys (World.withCache s (s.base.cache.del other)) (World.withCache s' (s'.base.cache.del other)) := by
  apply same.entered
  intro key known
  rw [entry_del,entry_del,same.entries key known]

theorem Same.drawn (i : CallId) :
    Same platform app keys (World.drawn s i) (World.drawn s' i) :=
  ⟨⟨same.now,same.fault,congrArg (· ++ [i]) same.draws,same.otps,same.entries⟩,
    same.placed.same (by simp [World.drawn]) rfl,same.sole⟩

theorem Same.update {p : OtpDoc → Bool} {f : OtpDoc → OtpDoc}
    (held : ∀ doc ∈ s.otps, p doc = true → app.holds doc = true)
    (kept : ∀ doc, (f doc).id = doc.id ∧ app.holds (f doc) = app.holds doc) :
    Same platform app keys (s.updateOtp p f) (s'.updateOtp p f) := by
  refine ⟨⟨same.now,same.fault,same.draws,?_,same.entries⟩,same.placed.update kept,?_⟩
  · have left := Collection.filter_updateOne held fun doc => (kept doc).2
    have right : (s'.updateOtp p f).otps.filter app.holds = _ :=
      Collection.filter_updateOne (fun doc listed _ => same.sole doc listed) fun doc => (kept doc).2
    exact left.trans ((congrArg _ same.otps).trans right.symm)
  · intro doc member
    rcases Collection.mem_updateOne member with old | ⟨old,found,rfl⟩
    · exact same.sole doc old
    · exact (kept old).2.trans (same.sole old (List.mem_of_find?_eq_some found))

omit same in
theorem selects_holds {otp : OtpService} (mine : applicationOf otp = app) {channel : Channel} {target : String}
    {purpose : OtpPurpose} {doc : OtpDoc} (selected : otp.selects channel target purpose doc = true) : app.holds doc = true := by
  subst mine
  simp only [OtpService.selects,Bool.and_eq_true,decide_eq_true_eq] at selected
  simp [Application.holds,applicationOf,selected]

theorem Same.upsert {otp : OtpService} (mine : applicationOf otp = app)
    (channel : Channel) (target : String) (purpose : OtpPurpose) (code : String) (i : CallId) :
    Same platform app keys (upsert platform otp channel target purpose code i s)
      (upsert platform otp channel target purpose code i s') := by
  have found : s.otps.find? (otp.selects channel target purpose) = s'.otps.find? (otp.selects channel target purpose) :=
    same.find fun doc selected => selects_holds mine selected
  unfold Pezhwan.Otp.upsert
  dsimp only
  cases first : s.otps.find? (otp.selects channel target purpose) with
  | some doc =>
    rw [first] at found
    rw [← found]
    dsimp only
    rw [same.now]
    exact same.update (fun doc _ selected => selects_holds mine selected) fun doc => ⟨rfl,rfl⟩
  | none =>
    rw [first] at found
    rw [← found]
    dsimp only
    have held : ∀ doc : OtpDoc, doc.tenantId = otp.tenantId → doc.applicationId = otp.applicationId → app.holds doc = true := by
      intro doc tenant application
      subst mine
      simp [Application.holds,applicationOf,tenant,application]
    refine ⟨⟨same.now,same.fault,congrArg (· ++ [i]) same.draws,?_,same.entries⟩,same.placed.insert i rfl,?_⟩
    · dsimp only
      rw [List.filter_append,List.filter_append,same.otps,same.now,same.draws]
    · intro doc member
      rcases List.mem_append.mp member with old | last
      · exact same.sole doc old
      · cases List.mem_singleton.mp last
        exact held _ rfl rfl

variable {i : CallId}

omit same in
theorem blind_get {post : Except Error (Option CacheValue) → World → Prop} (known : keys key)
    (holds : ∀ t, Grown platform app s t → post (.ok (t.base.cache.get t.base.now key)) t) :
    (base (cacheGet key)).Blind (Same platform app keys) (Grown platform app) i s post := by
  apply Blind.zoom_atomic
  intro t t' grown same
  exact ⟨same,same.get known,holds t grown⟩

omit same in
theorem blind_clock {post : Except Error Nat → World → Prop} (holds : ∀ t, Grown platform app s t → post (.ok t.base.now) t) :
    (base clock).Blind (Same platform app keys) (Grown platform app) i s post := by
  apply Blind.zoom_atomic
  intro t t' grown same
  exact ⟨same,same.now,holds t grown⟩

omit same in
theorem blind_draw {post : Except Error String → World → Prop}
    (holds : ∀ t value, Grown platform app s t → post (.ok value) (World.drawn t i)) :
    (base (draw platform.random)).Blind (Same platform app keys) (Grown platform app) i s post := by
  apply Blind.zoom_atomic
  intro t t' grown same
  exact ⟨same.drawn i,congrArg (fun draws => platform.random.fresh (List.length draws)) same.draws,holds t _ grown⟩

omit same in
theorem blind_set {post : Except Error Unit → World → Prop} {value : CacheValue} {ttl : Nat}
    (holds : ∀ t, Grown platform app s t → post (.ok ()) t) :
    (base (cacheSet key value ttl)).Blind (Same platform app keys) (Grown platform app) i s post := by
  apply Blind.zoom_atomic
  intro t t' grown same
  exact ⟨same.set key value ttl,rfl,holds _ (grown.trans (.same (Nat.le_refl _) rfl))⟩

omit same in
theorem blind_del {post : Except Error Unit → World → Prop} (holds : ∀ t : World, Grown platform app s t → post (.ok ()) t) :
    (base (cacheDel key)).Blind (Same platform app keys) (Grown platform app) i s post := by
  apply Blind.zoom_atomic
  intro t t' grown same
  exact ⟨same.del key,rfl,holds _ (grown.trans (.same (Nat.le_refl _) rfl))⟩

omit same in
theorem blind_op {f : CallId → World → Except MongoError (α × World)} {post : Except Error α → World → Prop}
    (served : ∀ t t', Grown platform app s t → Same platform app keys t t' → ∃ value u u', f i t = .ok (value,u) ∧
      f i t' = .ok (value,u') ∧ Same platform app keys u u' ∧ post (.ok value) u)
    (refused : ∀ e t, post (.error (.mongo e)) t) : (op f).Blind (Same platform app keys) (Grown platform app) i s post := by
  apply Blind.tryAtomic
  intro t t' grown same
  have alike := same.fault
  cases fault : t.base.fault with
  | some e =>
    rw [fault] at alike
    right
    exact ⟨.mongo e,by simp,by simp [← alike],refused e t⟩
  | none =>
    rw [fault] at alike
    left
    obtain ⟨value,u,u',left,right,after,holds⟩ := served t t' grown same
    exact ⟨value,u,u',by simp [left,Except.mapError],by simp [← alike,right,Except.mapError],after,holds⟩

variable {otp : OtpService}

omit same in
theorem blind_issueCode (mine : applicationOf otp = app) (channel : Channel) (target : String)
    (purpose : OtpPurpose) (attempts : keys (.otpAttempts channel.name (platform.toLowerCase target))) :
    (issueCode platform otp channel target purpose).Blind (Same platform app keys) (Grown platform app) i s fun _ _ => True := by
  unfold issueCode
  apply Blind.bind
  apply blind_get attempts
  intro s₁ _
  dsimp only
  split
  · trivial
  · apply Blind.bind
    apply blind_draw
    intro s₂ entropy _
    dsimp only
    apply Blind.bind
    apply blind_op
    · intro s₃ s₃' _ same
      have after := same.upsert mine channel (platform.toLowerCase target) purpose
        (platform.generateOtp otp.codeLength entropy) i
      refine ⟨(),_,_,rfl,rfl,after,?_⟩
      apply Blind.bind
      apply blind_clock
      intro s₄ _
      dsimp only
      apply Blind.bind
      apply blind_set
      intro s₅ _
      dsimp only
      split
      · trivial
      · apply Blind.bind
        apply Blind.atomic
        intro s₆ s₆' _ same
        refine ⟨⟨⟨same.now,same.fault,same.draws,same.otps,same.entries⟩,?_,same.sole⟩,rfl,trivial⟩
        exact same.placed.same (Nat.le_refl _) rfl
    · intro e t
      trivial

omit same in
theorem blind_requestOtp (mine : applicationOf otp = app) (channel : Channel) (target : String)
    (purpose : OtpPurpose) (attempts : keys (.otpAttempts channel.name (platform.toLowerCase target)))
    (cooldown : keys (.otpCooldown channel.name (platform.toLowerCase target))) :
    (requestOtp platform otp channel target purpose).Blind (Same platform app keys) (Grown platform app) i s fun _ _ => True := by
  rw [requestOtp_eq]
  apply Blind.bind
  apply blind_get cooldown
  intro s₁ _
  dsimp only
  apply Blind.bind
  apply blind_clock
  intro s₂ _
  dsimp only
  split
  · split
    · trivial
    · exact blind_issueCode mine channel target purpose attempts
  · exact blind_issueCode mine channel target purpose attempts

omit same in
theorem blind_mark {f : OtpDoc → OtpDoc} {post : Except Error Unit → World → Prop} {doc : OtpDoc}
    (fixed : Fixed platform app doc.id true s) (kept : ∀ doc, (f doc).id = doc.id ∧ app.holds (f doc) = app.holds doc)
    (served : ∀ t : World, post (.ok ()) t) (refused : ∀ e t, post (.error (.mongo e)) t) :
    (write fun w => w.updateOtp (fun other => other.id = doc.id) f).Blind (Same platform app keys) (Grown platform app) i s post := by
  apply blind_op
  · intro t t' grown same
    refine ⟨(),_,_,rfl,rfl,?_,served _⟩
    apply same.update _ kept
    intro other listed named
    exact (fixed.grown grown).same other listed (of_decide_eq_true named)
  · exact refused

omit same in
theorem blind_verifyOtp (mine : applicationOf otp = app) (channel : Channel) (target : String) (purpose : OtpPurpose)
    (code : String) (attempts : keys (.otpAttempts channel.name (platform.toLowerCase target))) :
    (verifyOtp platform otp channel target purpose code).Blind (Same platform app keys) (Grown platform app) i s fun _ _ => True := by
  unfold verifyOtp
  apply Blind.bind
  apply blind_get attempts
  intro s₁ _
  dsimp only
  split
  · trivial
  · apply Blind.bind
    apply blind_op
    · intro s₂ s₂' _ same
      have found : s₂.otps.find? (otp.selects channel (platform.toLowerCase target) purpose) =
          s₂'.otps.find? (otp.selects channel (platform.toLowerCase target) purpose) :=
        same.find fun doc selected => selects_holds mine selected
      refine ⟨_,_,_,rfl,congrArg (fun doc => Except.ok (doc,s₂')) found.symm,same,?_⟩
      dsimp only
      cases first : s₂.otps.find? (otp.selects channel (platform.toLowerCase target) purpose) with
      | none => trivial
      | some doc =>
        have listed := List.mem_of_find?_eq_some first
        have held : app.holds doc = true := selects_holds mine (List.find?_some first)
        have fixed := held ▸ same.placed doc listed
        dsimp only
        apply Blind.bind
        apply blind_clock
        intro s₃ grown
        dsimp only
        split
        · trivial
        · split
          · apply Blind.bind
            apply blind_mark (fixed.grown grown)
            · intro other
              exact ⟨rfl,rfl⟩
            · intro s₄
              dsimp only
              apply Blind.bind
              apply blind_del
              intro s₅ _
              dsimp only
              apply Blind.bind
              apply blind_del
              intro s₆ _
              trivial
            · intro e t
              trivial
          · apply Blind.bind
            apply blind_mark (fixed.grown grown)
            · intro other
              exact ⟨rfl,rfl⟩
            · intro s₄
              dsimp only
              apply Blind.bind
              apply blind_set
              intro s₅ _
              trivial
            · intro e t
              trivial
    · intro e t
      trivial

omit same in
theorem blind_program {call : Call} (mine : applicationOf call.otp = app)
    (attempts : keys (attemptsKey platform call)) (cooldown : keys (cooldownKey platform call)) :
    (program platform call).Blind (Same platform app keys) (Grown platform app) i s fun _ _ => True := by
  cases call with
  | request otp channel target purpose =>
    apply Blind.bind
    apply (blind_requestOtp mine channel target purpose attempts cooldown).mono
    intro result t _
    cases result <;> trivial
  | verify otp channel target purpose code =>
    apply Blind.bind
    apply (blind_verifyOtp mine channel target purpose code attempts).mono
    intro result t _
    cases result <;> trivial

omit same in
theorem does_grown (does : Does platform call memory s t) : Grown platform app s t := by
  cases does with
  | drew i s => exact .same (by simp) rfl
  | stored i s fourth drawn =>
    unfold upsert
    dsimp only
    split
    · exact .update fun doc => ⟨rfl,rfl⟩
    · exact .insert i rfl
  | still | cooled | delivered | cleared | counted => exact .same (Nat.le_refl _) rfl
  | marked | missed => exact .update fun doc => ⟨rfl,rfl⟩

omit same in
theorem does_placed (does : Does platform call memory s t) (placed : Placed platform app s) : Placed platform app t := by
  cases does with
  | drew i s => exact placed.same (by simp) rfl
  | stored i s fourth drawn =>
    unfold upsert
    dsimp only
    split
    · exact placed.update fun doc => ⟨rfl,rfl⟩
    · exact placed.insert i rfl
  | still | cooled | delivered | cleared | counted => exact placed.same (Nat.le_refl _) rfl
  | marked | missed => exact placed.update fun doc => ⟨rfl,rfl⟩

omit same in
theorem selects_foreign (foreign : applicationOf otp ≠ app) {channel : Channel} {target : String} {purpose : OtpPurpose}
    {doc : OtpDoc} (selected : otp.selects channel target purpose doc = true) : app.holds doc = false := by
  simp only [OtpService.selects,Bool.and_eq_true,decide_eq_true_eq] at selected
  by_contra held
  apply foreign
  have same : doc.tenantId = app.tenantId ∧ doc.applicationId = app.applicationId := by
    simpa [Application.holds] using held
  cases app
  simp only [applicationOf,Application.mk.injEq]
  exact ⟨selected.1.1.1.1.symm.trans same.1,selected.1.1.1.2.symm.trans same.2⟩

omit same in
theorem does_foreign {call : Call} {memory : List (World × World)} (does : Does platform call memory s t)
    (foreign : applicationOf call.otp ≠ app)
    (found : ∀ doc, compared platform call memory = some doc → Fixed platform app doc.id false s) :
    t.base.now = s.base.now ∧ t.base.fault = s.base.fault ∧ t.otps.filter app.holds = s.otps.filter app.holds := by
  have marks : ∀ (doc : OtpDoc) (f : OtpDoc → OtpDoc), compared platform call memory = some doc →
      (∀ doc, app.holds (f doc) = app.holds doc) →
      (s.updateOtp (fun other => other.id = doc.id) f).otps.filter app.holds = s.otps.filter app.holds := by
    intro doc f seen kept
    apply Collection.filter_updateOne_other _ kept
    intro other listed named
    exact (found doc seen).same other listed (of_decide_eq_true named)
  cases does with
  | @stored otp channel target purpose draw older i s fourth drawn =>
    unfold upsert
    dsimp only
    split
    · refine ⟨rfl,rfl,?_⟩
      exact Collection.filter_updateOne_other (fun doc _ selected => selects_foreign foreign selected) fun doc => rfl
    · refine ⟨rfl,rfl,?_⟩
      dsimp only
      rw [List.filter_append,List.filter_singleton]
      have dropped : ∀ doc : OtpDoc, doc.tenantId = otp.tenantId → doc.applicationId = otp.applicationId →
          app.holds doc = false := by
        intro doc tenant application
        by_contra held
        apply foreign
        have same : doc.tenantId = app.tenantId ∧ doc.applicationId = app.applicationId := by
          simpa [Application.holds] using held
        cases app
        simp only [Call.otp,applicationOf,Application.mk.injEq]
        exact ⟨tenant.symm.trans same.1,application.symm.trans same.2⟩
      rw [dropped _ rfl rfl]
      simp
  | still | drew | cooled | delivered | cleared | counted => exact ⟨rfl,rfl,rfl⟩
  | marked s healthy found => exact ⟨rfl,rfl,marks _ _ (confirmed_some found).1 fun doc => rfl⟩
  | missed s found wrong => exact ⟨rfl,rfl,marks _ _ found fun doc => rfl⟩

-- The second run takes over what has been drawn.
def drawnAs (first second : World) : World := {second with base := {second.base with draws := first.base.draws}}

theorem Same.beside (now : t.base.now = s.base.now)
    (fault : t.base.fault = s.base.fault) (otps : t.otps.filter app.holds = s.otps.filter app.holds)
    (entries : ∀ key, keys key → entry key t = entry key s) (placed : Placed platform app t) :
    Same platform app keys t (drawnAs t s') := by
  refine ⟨⟨now.trans same.now,fault.trans same.fault,rfl,otps.trans same.otps,?_⟩,placed,same.sole⟩
  intro key known
  exact (entries key known).trans (same.entries key known)

end

-- The surroundings do the same to worlds that are alike, and store no passcode.
structure Evenly (app : Application) (keys : CacheKey → Prop) (change : World → World) : Prop where
  alike : ∀ s s', Alike app keys s s' → Alike app keys (change s) (change s')
  draws : ∀ s, s.base.draws.length ≤ (change s).base.draws.length
  otps : ∀ s, (change s).otps.Sublist s.otps

theorem Evenly.grown (evenly : Evenly app keys change) (s : World) : Grown platform app s (change s) :=
  .kept (evenly.draws s) fun doc member => ⟨doc,(evenly.otps s).subset member,rfl,rfl⟩

theorem Evenly.same (evenly : Evenly app keys change) (same : Same platform app keys s s') :
    Same platform app keys (change s) (change s') := by
  refine ⟨evenly.alike s s' same.toAlike,?_,?_⟩
  · apply same.placed.kept (evenly.draws s)
    intro doc member
    exact ⟨doc,(evenly.otps s).subset member,rfl,rfl⟩
  · intro doc member
    exact same.sole doc ((evenly.otps s').subset member)

variable {own : CallId → Bool}

-- Both runs, with what the calls of the first one have seen.
structure Kin (platform : Platform) (own : CallId → Bool) (app : Application) (keys : CacheKey → Prop) (past : History)
    (first second : Config CallId Call World Error Answer) : Prop where
  related : Related own (Same platform app keys) (Grown platform app) first second
  asked : ∀ i call p, first.calls i = some (call,p) → (own i = true ↔ applicationOf call.otp = app)
  seen : ∀ event ∈ past, Placed platform app event.before ∧ Grown platform app event.before first.state

section
variable {past : History} {first second : Config CallId Call World Error Answer}

theorem Kin.other (kin : Kin platform own app keys past first second) (evenly : Evenly app keys change) :
    Kin platform own app keys past {first with state := change first.state} {second with state := change second.state} := by
  refine ⟨kin.related.moved Grown.trans (evenly.same kin.related.states) (evenly.grown first.state),kin.asked,?_⟩
  intro event listed
  obtain ⟨placed,grown⟩ := kin.seen event listed
  exact ⟨placed,grown.trans (evenly.grown first.state)⟩

theorem Kin.start (kin : Kin platform own app keys past first second) (free : first.calls i = none)
    (apart : own i = true ↔ applicationOf call.otp = app)
    (known : own i = true → keys (attemptsKey platform call) ∧ keys (cooldownKey platform call)) :
    Kin platform own app keys past {first with calls := Function.update first.calls i (some (call,program platform call))}
      (if own i then {second with calls := Function.update second.calls i (some (call,program platform call))} else second) := by
  refine ⟨kin.related.start free fun hers => ?_,?_,kin.seen⟩
  · exact blind_program (apart.mp hers) (known hers).1 (known hers).2
  · intro j call' p running
    by_cases same : j = i
    · subst same
      simp only [Function.update_self,Option.some.injEq,Prod.mk.injEq] at running
      rw [← running.1]
      exact apart
    · exact kin.asked j call' p (by simpa [same] using running)

theorem Kin.acted {update : CallId → World → World} {next : CallId → World → Prog CallId World Error Answer}
    (kin : Kin platform own app keys past first second) (running : first.calls i = some (call,.act update next))
    (related : Related own (Same platform app keys) (Grown platform app)
      ⟨update i first.state,Function.update first.calls i (some (call,next i first.state))⟩ second')
    (placed : Placed platform app first.state) (grown : Grown platform app first.state (update i first.state)) :
    Kin platform own app keys (⟨i,call,first.state,update i first.state⟩ :: past)
      ⟨update i first.state,Function.update first.calls i (some (call,next i first.state))⟩ second' := by
  refine ⟨related,?_,?_⟩
  · intro j call' p continued
    by_cases same : j = i
    · subst same
      simp only [Function.update_self,Option.some.injEq,Prod.mk.injEq] at continued
      rw [← continued.1]
      exact kin.asked j call _ running
    · exact kin.asked j call' p (by simpa [same] using continued)
  · intro event listed
    rcases List.mem_cons.mp listed with rfl | earlier
    · exact ⟨placed,grown⟩
    · obtain ⟨placed',grown'⟩ := kin.seen event earlier
      exact ⟨placed',grown'.trans grown⟩

theorem Kin.foreign (kin : Kin platform own app keys past first second)
    (foreign : applicationOf call.otp ≠ app) (found : compared platform call (mine i past) = some doc) :
    Fixed platform app doc.id false first.state := by
  obtain ⟨otp,channel,target,purpose,code,time,look,count,rfl,own,matched,_⟩ := compared_some found
  obtain ⟨later,event,earlier,rfl,_,same,_⟩ := mine_split [time] own
  obtain ⟨placed,grown⟩ := kin.seen event (List.mem_append_right later List.mem_cons_self)
  have listed := List.mem_of_find?_eq_some matched
  have held : app.holds doc = false := selects_foreign foreign (List.find?_some matched)
  rw [same] at listed
  exact (held ▸ placed doc listed).grown grown

theorem Kin.act {update : CallId → World → World} {next : CallId → World → Prog CallId World Error Answer}
    (kin : Kin platform own app keys past first second) (running : first.calls i = some (call,.act update next))
    (does : Does platform call (mine i past) first.state (update i first.state))
    (undisturbed : own i = false → ∀ key, keys key → entry key (update i first.state) = entry key first.state) :
    Kin platform own app keys (⟨i,call,first.state,update i first.state⟩ :: past)
      ⟨update i first.state,Function.update first.calls i (some (call,next i first.state))⟩
      (if own i then ⟨update i second.state,Function.update second.calls i (some (call,next i second.state))⟩
        else {second with state := drawnAs (update i first.state) second.state}) := by
  have same := kin.related.states
  apply kin.acted running _ same.placed (does_grown does)
  by_cases hers : own i = true
  · rw [if_pos hers]
    exact kin.related.act Grown.trans Grown.refl hers running (does_grown does)
  · rw [if_neg hers]
    have foreign : applicationOf call.otp ≠ app := fun same => hers ((kin.asked i call _ running).mpr same)
    obtain ⟨now,fault,otps⟩ := does_foreign does foreign fun doc found => kin.foreign foreign found
    apply kin.related.hidden Grown.trans hers _ (does_grown does)
    exact same.beside now fault otps (undisturbed (by simpa using hers)) (does_placed does same.placed)

theorem Kin.idle (kin : Kin platform own app keys past first second) :
    Kin platform own app keys past first {second with state := drawnAs first.state second.state} := by
  have same := kin.related.states.beside rfl rfl rfl (fun _ _ => rfl) kin.related.states.placed
  exact ⟨kin.related.moved Grown.trans same (.refl _),kin.asked,kin.seen⟩

end

abbrev Run := Past CallId Call World Error Answer

theorem Kin.heed {before : Run × Run} {latest : Cue CallId Call World}
    (kin : Kin platform own app keys before.1.1 before.1.2 before.2.2)
    (kept : ∀ i call p, before.1.2.calls i = some (call,p) →
      p.Acts Anyhow i (Does platform call) (mine i before.1.1) (Ended platform call))
    (apart : ∀ i call, latest = .start i call → (own i = true ↔ applicationOf call.otp = app))
    (known : ∀ i call, latest = .start i call → own i = true → keys (attemptsKey platform call) ∧ keys (cooldownKey platform call))
    (evenly : ∀ change, latest = .other change → Evenly app keys change)
    (undisturbed : ∀ event ∈ (Config.heed (program platform) before.1 latest).1, own event.who = false →
      ∀ key, keys key → entry key event.after = entry key event.before) :
    Kin platform own app keys (Config.heed (program platform) before.1 latest).1 (Config.heed (program platform) before.1 latest).2
      (beside (program platform) own drawnAs (Config.heed (program platform) before.1 latest) before.2 latest).2 := by
  obtain ⟨⟨past,first⟩,past',second⟩ := before
  dsimp only at kin kept undisturbed ⊢
  cases latest with
  | start i call =>
    cases free : first.calls i with
    | none =>
      have next := kin.start free (apart i call rfl) (known i call rfl)
      by_cases hers : own i = true
      · have free' := (kin.related.calls i hers).symm.trans free
        simpa [Config.heed,beside,cue,free,free',hers] using next
      · simpa [Config.heed,beside,cue,free,hers] using next
    | some running =>
      by_cases hers : own i = true
      · have busy := (kin.related.calls i hers).symm.trans free
        simpa [Config.heed,beside,cue,free,busy,hers] using kin
      · simpa [Config.heed,beside,cue,free,hers] using kin
  | other change => simpa [Config.heed,beside,cue] using kin.other (evenly change rfl)
  | act i =>
    cases running : first.calls i with
    | none =>
      by_cases hers : own i = true
      · have none := (kin.related.calls i hers).symm.trans running
        simpa [Config.heed,beside,cue,running,none,hers] using kin
      · simpa [Config.heed,beside,cue,running,hers] using kin.idle
    | some pair =>
      obtain ⟨call,p⟩ := pair
      cases p with
      | done result =>
        by_cases hers : own i = true
        · have halted := (kin.related.calls i hers).symm.trans running
          simpa [Config.heed,beside,cue,running,halted,hers] using kin
        · simpa [Config.heed,beside,cue,running,hers] using kin.idle
      | act update next =>
        obtain ⟨does,_⟩ := kept i call _ running first.state trivial
        have calm : own i = false → ∀ key, keys key → entry key (update i first.state) = entry key first.state := by
          intro other
          apply undisturbed ⟨i,call,first.state,update i first.state⟩ _ other
          simp [Config.heed,cue,running]
        have acted := kin.act running does calm
        by_cases hers : own i = true
        · have going := (kin.related.calls i hers).symm.trans running
          simpa [Config.heed,beside,cue,running,going,hers] using acted
        · simpa [Config.heed,beside,cue,running,hers] using acted

theorem heed_past {run : Run} {latest : Cue CallId Call World} (listed : event ∈ run.1) :
    event ∈ (Config.heed (program platform) run latest).1 := by
  unfold Config.heed
  cases latest with
  | start i call =>
    cases free : run.2.calls i <;> simpa [cue,free] using listed
  | other change => simpa [cue] using listed
  | act i =>
    unfold cue
    dsimp only
    split
    · exact List.mem_cons_of_mem _ listed
    · exact listed

theorem together_kin {cues : List (Cue CallId Call World)} (empty : initial.otps = [])
    (apart : ∀ i call, .start i call ∈ cues → (own i = true ↔ applicationOf call.otp = app))
    (known : ∀ i call, .start i call ∈ cues → own i = true → keys (attemptsKey platform call) ∧ keys (cooldownKey platform call))
    (evenly : ∀ change, .other change ∈ cues → Evenly app keys change)
    (undisturbed : ∀ event ∈ (together (program platform) own drawnAs initial cues).1.1, own event.who = false →
      ∀ key, keys key → entry key event.after = entry key event.before) :
    Kin platform own app keys (together (program platform) own drawnAs initial cues).1.1
      (together (program platform) own drawnAs initial cues).1.2 (together (program platform) own drawnAs initial cues).2.2 := by
  induction cues with
  | nil =>
    have none : ∀ doc ∈ initial.otps, False := by simp [empty]
    refine ⟨⟨⟨⟨rfl,rfl,rfl,rfl,fun _ _ => rfl⟩,?_,?_⟩,fun _ _ => rfl,?_⟩,?_,?_⟩
    · intro doc member
      exact absurd member (none doc)
    · intro doc member
      exact absurd member (none doc)
    · intro i call p _ running
      cases running
    · intro i call p running
      cases running
    · intro event listed
      cases listed
  | cons latest cues ih =>
    have traced : Traced (program platform) (fun _ _ => True) initial
        (together (program platform) own drawnAs initial cues).1.1 (together (program platform) own drawnAs initial cues).1.2 :=
      together_traced fun _ _ _ => trivial
    have kept := (traced_kept (acts_program platform) (fun _ _ _ => trivial) traced).busy
    have kin := ih (fun i call member => apart i call (List.mem_cons_of_mem _ member))
      (fun i call member => known i call (List.mem_cons_of_mem _ member))
      (fun change member => evenly change (List.mem_cons_of_mem _ member))
      (fun event listed => undisturbed event (heed_past listed))
    apply kin.heed kept
    · intro i call same
      exact apart i call (same ▸ List.mem_cons_self)
    · intro i call same
      exact known i call (same ▸ List.mem_cons_self)
    · intro change same
      exact evenly change (same ▸ List.mem_cons_self)
    · exact undisturbed

-- The entries that the application's calls read.
def Reads (platform : Platform) (own : CallId → Bool) (cues : List (Cue CallId Call World)) (key : CacheKey) : Prop :=
  ∃ i call, .start i call ∈ cues ∧ own i = true ∧ (key = attemptsKey platform call ∨ key = cooldownKey platform call)

-- Whatever the schedule, an application's calls answer the same when the calls of
-- the others are left out, provided that none of these changes a cache entry the
-- application's calls read.
theorem application_isolated {initial : World} (empty : initial.otps = []) {cues : List (Cue CallId Call World)}
    (apart : ∀ i call, .start i call ∈ cues → (own i = true ↔ applicationOf call.otp = app))
    (evenly : ∀ change, .other change ∈ cues → Evenly app (Reads platform own cues) change)
    (undisturbed : ∀ event ∈ (together (program platform) own drawnAs initial cues).1.1, own event.who = false →
      ∀ key, Reads platform own cues key → entry key event.after = entry key event.before)
    {i : CallId} (hers : own i = true) (call : Call) (result : Except Error Answer) :
    (together (program platform) own drawnAs initial cues).1.2.Finished i call result ↔
      (together (program platform) own drawnAs initial cues).2.2.Finished i call result := by
  have known : ∀ i call, .start i call ∈ cues → own i = true →
      Reads platform own cues (attemptsKey platform call) ∧ Reads platform own cues (cooldownKey platform call) :=
    fun i call member hers => ⟨⟨i,call,member,hers,.inl rfl⟩,⟨i,call,member,hers,.inr rfl⟩⟩
  have kin := together_kin empty apart known evenly undisturbed
  unfold Finished
  rw [kin.related.calls i hers]

end

def sampleApplication : Application := ⟨"tenant","application"⟩
def otherOtp : OtpService := {sampleOtp with applicationId := "other"}

-- Latest cue first: the other application's request for `target`, then the
-- application's own one for its user.
def requests (target : String) : List (Cue CallId Call World) :=
  List.replicate 8 (.act 1) ++ .start 1 asking :: List.replicate 8 (.act 0) ++
    [.start 0 (.request otherOtp .email target .login)]

def hersAlone (i : CallId) : Bool := i = 1

abbrev sampleRuns (target : String) : Run × Run :=
  together (program samplePlatform) hersAlone drawnAs (soleAccount sampleUser) (requests target)

theorem application_isolated_targets :
    (sampleRuns "other@example.com").1.2.Finished 1 asking (.ok (.requested none)) ∧
    (sampleRuns "other@example.com").2.2.Finished 1 asking (.ok (.requested none)) := by
  have reads : ∀ key, Reads samplePlatform hersAlone (requests "other@example.com") key →
      key ∈ [attemptsKey samplePlatform asking,cooldownKey samplePlatform asking] := by
    rintro key ⟨i,call,member,hers,read⟩
    have one : call = asking := by
      have named : i = 1 := of_decide_eq_true hers
      subst named
      simpa [requests] using member
    subst one
    simpa using read
  have calm : ∀ event ∈ (sampleRuns "other@example.com").1.1, hersAlone event.who = false →
      ∀ key ∈ [attemptsKey samplePlatform asking,cooldownKey samplePlatform asking],
        entry key event.after = entry key event.before := by decide +kernel
  have answered : (sampleRuns "other@example.com").1.2.Finished 1 asking (.ok (.requested none)) := by
    apply finishedWith_finished
    decide +kernel
  have apart : ∀ i call, .start i call ∈ requests "other@example.com" →
      (hersAlone i = true ↔ applicationOf call.otp = sampleApplication) := by
    intro i call member
    have which : (i = 1 ∧ call = asking) ∨ i = 0 ∧ call = .request otherOtp .email "other@example.com" .login := by
      simpa [requests] using member
    rcases which with ⟨rfl,rfl⟩ | ⟨rfl,rfl⟩ <;> decide
  have evenly : ∀ change, .other change ∈ requests "other@example.com" →
      Evenly sampleApplication (Reads samplePlatform hersAlone (requests "other@example.com")) change := by
    intro change member
    simp [requests] at member
  have undisturbed := fun event listed other key read => calm event listed other key (reads key read)
  exact ⟨answered,(application_isolated rfl apart evenly undisturbed rfl asking _).mp answered⟩

-- The other application serves the same user: its request starts the cooldown
-- of the application's own one.
theorem application_disturbed :
    (sampleRuns "user@example.com").1.2.Finished 1 asking (.ok (.requested (some 30))) ∧
    (sampleRuns "user@example.com").2.2.Finished 1 asking (.ok (.requested none)) := by
  constructor <;> apply finishedWith_finished <;> decide +kernel

end Pezhwan.Otp
