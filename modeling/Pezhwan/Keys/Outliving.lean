import Pezhwan.Keys.Signed

-- Tokens outlive rotations as long as their key does not expire first.
namespace Pezhwan.Keys
open Atomic
variable {crypto : Crypto} {scheme : Scheme crypto} {tokens : TokenService}

-- The identity has every claim that is required of a token.
structure Complete (context : IdentityContext) : Prop where
  userId : context.userId ≠ ""
  tenantId : context.tenantId ≠ ""
  applicationId : context.applicationId ≠ ""
  sessionId : context.sessionId ≠ ""

instance (context : IdentityContext) : Decidable (Complete context) :=
  decidable_of_iff (context.userId ≠ "" ∧ context.tenantId ≠ "" ∧ context.applicationId ≠ "" ∧ context.sessionId ≠ "")
    ⟨fun ⟨one,two,three,four⟩ => ⟨one,two,three,four⟩,fun complete => ⟨complete.1,complete.2,complete.3,complete.4⟩⟩

theorem claims_timely (context : IdentityContext) (kid jti : String) {now time : Int} (early : time < (now/1000 + tokens.maxAge)*1000) :
    assertJwtClaims (time/1000) (tokens.claimsOf context kid jti now) tokens.options = .ok () ∧
      libraryClaims (time/1000) (tokens.claimsOf context kid jti now) tokens.options = .ok () := by
  have lasts : ¬ now/1000 + tokens.maxAge ≤ time/1000 := by omega
  have young : ¬ tokens.maxAge < time/1000 - now/1000 := by omega
  constructor
  · simp [assertJwtClaims,TokenService.claimsOf,TokenService.options,lasts,young]
  · simp [libraryClaims,TokenService.claimsOf,TokenService.options,lasts]

theorem identityOf_complete (complete : Complete context) (kid jti : String) (now : Int) :
    TokenService.identityOf (tokens.claimsOf context kid jti now) = .ok (context,now/1000*1000) := by
  simp [TokenService.identityOf,TokenService.required,TokenService.claimsOf,complete.userId,complete.tenantId,
    complete.applicationId,complete.sessionId]

theorem identityOf_incomplete (incomplete : ¬ Complete context) (kid jti : String) (now : Int) :
    ∃ e, TokenService.identityOf (tokens.claimsOf context kid jti now) = .error e := by
  unfold TokenService.identityOf
  split
  · exact ⟨_,rfl⟩
  · rename_i nothing
    exfalso
    apply incomplete
    simp [TokenService.required,TokenService.claimsOf,present] at nothing
    exact ⟨nothing.1,nothing.2.1,nothing.2.2.1,nothing.2.2.2⟩

namespace KeyStore
variable {store : KeyStore crypto} {key : SigningKey} {now : Int}

-- The key can still be found, and it is not revoked.
def Holds (key : SigningKey) (store : KeyStore crypto) : Prop :=
  ∃ key', store.get? key.kid = some key' ∧ SameKey key key' ∧ key'.status ≠ .REVOKED

theorem holds_addKey (holds : Holds key store) (unexpired : now < key.expiresAt) {k : String} (other : k ≠ key.kid)
    (ttlMs : Int) (seed : Nat) : Holds key (addKey k ttlMs seed now store).2 := by
  obtain ⟨key',stored,same,live⟩ := holds
  by_cases symmetric : store.algorithm = .classical .HS256
  · obtain ⟨e,failed⟩ := addKey_symmetric symmetric k ttlMs seed now
    rw [failed]
    exact ⟨key',stored,same,live⟩
  · obtain ⟨_,after,added,_,_,_,_,_,_,lookups⟩ := addKey_pair symmetric k ttlMs seed now
    rw [added]
    refine ⟨key',?_,same,live⟩
    have lasts := same.expiresAt
    rw [lookups,if_neg (fun equal => other equal.symm),stored,Option.filter_some,if_pos (by simp; omega)]

theorem holds_retire (holds : Holds key store) (k : String) : Holds key (retire k now store).2 := by
  obtain ⟨key',stored,same,live⟩ := holds
  unfold retire
  split
  · exact ⟨key',stored,same,live⟩
  · by_cases own : key.kid = k
    · refine ⟨(retired now).change key',?_,same.marked (retired now) (fun _ => rfl),nofun⟩
      rw [get?_mark,if_pos own,stored]
      rfl
    · refine ⟨key',?_,same,live⟩
      rw [get?_mark,if_neg own]
      exact stored

end KeyStore

namespace KeyStoreService
variable {key : SigningKey}

theorem current_stored {service : KeyStoreService crypto} {draw : Draw} {now : Int}
    (signs : (current draw now service).1 = .ok key) : (current draw now service).2.store.get? key.kid = some key ∧
      key.status = .ACTIVE ∧ now < key.expiresAt := by
  unfold current at signs ⊢
  split
  · rename_i found
    rw [found] at signs
    cases signs
    exact KeyStore.active?_some found
  · rename_i none
    rw [none] at signs
    by_cases symmetric : service.store.algorithm = .classical .HS256
    · obtain ⟨e,failed⟩ := addFreshKey_symmetric symmetric draw now
      rw [failed] at signs
      cases signs
    · obtain ⟨made,after,added,fresh,_,stored,_⟩ := addFreshKey_pair symmetric draw now
      rw [added] at signs ⊢
      cases signs
      exact ⟨by rw [stored,if_pos fresh.kid],fresh.active,fresh.lasts⟩

end KeyStoreService

inductive TokenCall where
  | signAccessToken (context : IdentityContext) (draw : Draw) (jti : String)
  | rotate (draw : Draw) (disk : Disk)

def TokenCall.uuid : TokenCall → String
  | .signAccessToken _ draw _ => draw.uuid
  | .rotate draw _ => draw.uuid

namespace TokenService

def run (scheme : Scheme crypto) (tokens : TokenService) (now : Int) : TokenCall → M crypto (Option Token)
  | .signAccessToken context draw jti => some <$> tokens.signAccessToken scheme context draw jti now
  | .rotate draw disk => (fun _ => none) <$> KeyStoreService.rotate draw disk now

def perform (scheme : Scheme crypto) (tokens : TokenService) (call : TokenCall) (w : World crypto) :
    Except String (Option Token) × World crypto :=
  let (answer,service) := run scheme tokens w.now call w.service
  (answer,⟨w.now,service⟩)

-- A run in which no identifier is drawn that a key of the store has.
structure Used (scheme : Scheme crypto) (tokens : TokenService) (initial : World crypto)
    (log : List (Entry TokenCall (World crypto) (Except String (Option Token)))) (w : World crypto) : Prop where
  history : History (perform scheme tokens) World.Passes (· = initial) log w
  new : ∀ entry ∈ log, entry.found.service.store.get? entry.call.uuid = none

theorem run_keeps {w : World crypto} {call : TokenCall} {key : SigningKey} (holds : KeyStore.Holds key w.service.store)
    (unexpired : w.now < key.expiresAt) (new : w.service.store.get? call.uuid = none) :
    KeyStore.Holds key (perform scheme tokens call w).2.service.store := by
  let P : KeyStore crypto → Prop := KeyStore.Holds key
  have other : call.uuid ≠ key.kid := by
    intro same
    obtain ⟨_,stored,_⟩ := holds
    rw [same,stored] at new
    cases new
  have fresh : ∀ draw : Draw, draw.uuid ≠ key.kid → KeyStoreService.Keeps P (KeyStoreService.addFreshKey draw w.now) :=
    fun draw apart => KeyStoreService.keeps_putting
      (fun _ held => KeyStore.holds_addKey held unexpired apart defaultTtlMs draw.seed) _
  have retires : ∀ k, KeyStoreService.Keeps P (KeyStoreService.retire k w.now) :=
    fun k => KeyStoreService.keeps_marking (fun _ held => KeyStore.holds_retire held k) _ _
  change P (run scheme tokens w.now call w.service).2.store
  cases call with
  | signAccessToken context draw jti =>
    rw [run,Fallible.map_run]
    refine (KeyStoreService.keeps_current (fresh draw other)).bind (fun _ => ?_) _ holds
    split
    · exact Fallible.Keeps.pure _
    · exact Fallible.Keeps.throw _
  | rotate draw disk =>
    rw [run,Fallible.map_run]
    exact KeyStoreService.keeps_rotate (fresh draw other) retires _ holds

theorem used_holds {initial w : World crypto} {key : SigningKey} (used : Used scheme tokens initial log w)
    (holds : KeyStore.Holds key initial.service.store) (unexpired : w.now < key.expiresAt) :
    KeyStore.Holds key w.service.store := by
  obtain ⟨history,new⟩ := used
  induction history with
  | start first => exact first ▸ holds
  | call _ call ih =>
    have before := ih unexpired fun entry listed => new entry (List.mem_cons_of_mem _ listed)
    exact run_keeps before unexpired (new _ List.mem_cons_self)
  | other _ moved ih =>
    rw [moved.2]
    exact ih (Int.lt_of_le_of_lt moved.1 unexpired) new

theorem used_later {initial w : World crypto} (used : Used scheme tokens initial log w) : initial.now ≤ w.now := by
  have history := used.history
  clear used
  induction history with
  | start first => exact first ▸ Int.le_refl _
  | call _ _ ih => exact ih
  | other _ moved ih => exact Int.le_trans ih moved.1

-- A signed token, with the key it was signed with.
structure Signed (scheme : Scheme crypto) (tokens : TokenService) (context : IdentityContext) (draw : Draw) (jti : String)
    (w : World crypto) (key : SigningKey) (token : Token) : Prop where
  current : (KeyStoreService.current draw w.now w.service).1 = .ok key
  left : (perform scheme tokens (.signAccessToken context draw jti) w).2.service =
    (KeyStoreService.current draw w.now w.service).2
  signs : signToken scheme key (tokens.claimsOf context key.kid jti w.now) = .ok token

theorem signed_token {w : World crypto} {context : IdentityContext} {draw : Draw} {jti : String}
    (told : (perform scheme tokens (.signAccessToken context draw jti) w).1 = .ok (some token)) :
    ∃ key, Signed scheme tokens context draw jti w key token := by
  obtain ⟨_,answered,same⟩ := Fallible.map_ok (p := tokens.signAccessToken scheme context draw jti w.now) told
  cases same
  have left : (perform scheme tokens (.signAccessToken context draw jti) w).2.service =
      (tokens.signAccessToken scheme context draw jti w.now w.service).2 := Fallible.map_run _ _ _
  unfold signAccessToken at answered left
  rw [Fallible.bind_run] at answered left
  cases ran : KeyStoreService.current draw w.now w.service with
  | mk result after =>
    rw [ran] at answered left
    cases result with
    | error e => cases answered
    | ok key =>
      dsimp only at answered left
      cases made : signToken scheme key (tokens.claimsOf context key.kid jti w.now) with
      | error e => rw [made] at answered; cases answered
      | ok token' =>
        rw [made] at answered left
        cases answered
        exact ⟨key,by rw [ran],by rw [left,ran]; rfl,made⟩

-- The key and the identity with which a token lives until its expiry.
structure Lasting (scheme : Scheme crypto) (context : IdentityContext) (key : SigningKey) (expiry : Int) : Prop where
  named : key.kid ≠ ""
  lasts : expiry ≤ key.expiresAt
  complete : Complete context
  paired : Paired scheme key

theorem accepts_lasting {store : KeyStore crypto} {context : IdentityContext} {key : SigningKey} {signedAt time : Int}
    (signs : signToken scheme key (tokens.claimsOf context key.kid jti signedAt) = .ok token)
    (valid : crypto.Valid key.algorithm key.toSigningKeyMaterial) (holds : KeyStore.Holds key store)
    (early : time < (signedAt/1000 + tokens.maxAge)*1000)
    (lasting : Lasting scheme context key ((signedAt/1000 + tokens.maxAge)*1000)) :
    tokens.verifyAccessToken scheme store time (some token) = .ok (context,signedAt/1000*1000) := by
  obtain ⟨key',stored,same,live⟩ := holds
  obtain ⟨kid,_⟩ := signed_header signs
  obtain ⟨timely,timely'⟩ := claims_timely context key.kid jti early
  have found : store.byKid time key.kid = some key' := by
    have expires := same.expiresAt
    have lasts := lasting.lasts
    exact KeyStore.byKid_some.mpr ⟨stored,live,by omega⟩
  have verified := (verify_signed valid signs (time/1000) tokens.options).1 lasting.paired timely timely'
  simp only [verifyAccessToken,kid,present_some lasting.named,found,verifyToken_same same,verified]
  exact identityOf_complete lasting.complete key.kid jti signedAt

theorem accepted_shows {store : KeyStore crypto} {context : IdentityContext} {key : SigningKey} {signedAt time : Int}
    (signs : signToken scheme key (tokens.claimsOf context key.kid jti signedAt) = .ok token)
    (stored : store.get? key.kid = some key)
    (accepted : tokens.verifyAccessToken scheme store time (some token) = .ok identity) :
    key.kid ≠ "" ∧ time < key.expiresAt ∧ Complete context ∧ Paired scheme key := by
  obtain ⟨kid,claims⟩ := signed_header signs
  have valid := store.valid key.kid key stored
  simp only [verifyAccessToken,kid] at accepted
  cases named : present (some key.kid) with
  | none => rw [named] at accepted; cases accepted
  | some name =>
    obtain ⟨same,nonempty⟩ := Option.filter_eq_some_iff.mp named
    cases same
    rw [named] at accepted
    dsimp only at accepted
    cases found : store.byKid time key.kid with
    | none => rw [found] at accepted; cases accepted
    | some key' =>
      obtain ⟨stored',_,unexpired⟩ := KeyStore.byKid_some.mp found
      cases stored.symm.trans stored'
      rw [found] at accepted
      dsimp only at accepted
      have paired : Paired scheme key := by
        by_contra unpaired
        obtain ⟨e,failed⟩ := (verify_signed valid signs (time/1000) tokens.options).2 unpaired
        rw [failed] at accepted
        cases accepted
      refine ⟨by simpa using nonempty,unexpired,?_,paired⟩
      cases verified : verifyToken scheme token key (time/1000) tokens.options with
      | error e => rw [verified] at accepted; cases accepted
      | ok payload =>
        rw [verified,verifyToken_claims verified,claims] at accepted
        dsimp only at accepted
        by_contra incomplete
        obtain ⟨e,failed⟩ := identityOf_incomplete incomplete key.kid jti signedAt
        rw [failed] at accepted
        cases accepted

theorem tokens_outlive_rotation {w : World crypto} {context : IdentityContext} {draw : Draw} {jti : String} {token : Token}
    (told : (perform scheme tokens (.signAccessToken context draw jti) w).1 = .ok (some token))
    (keyed : (KeyStoreService.current draw w.now w.service).1 = .ok key) (expires : token.claims.exp = some exp) :
    (∀ log v, Used scheme tokens (perform scheme tokens (.signAccessToken context draw jti) w).2 log v → v.now < exp*1000 →
      ∃ identity, tokens.verifyAccessToken scheme v.service.store v.now (some token) = .ok identity) ↔
    exp*1000 ≤ w.now ∨ Lasting scheme context key (exp*1000) := by
  obtain ⟨key',signed⟩ := signed_token told
  cases keyed.symm.trans signed.current
  obtain ⟨_,claims⟩ := signed_header signed.signs
  rw [claims] at expires
  cases expires
  obtain ⟨stored,active,unexpired⟩ := KeyStoreService.current_stored keyed
  rw [← signed.left] at stored
  have begun : ∀ time, w.now ≤ time → ∃ log, Used scheme tokens (perform scheme tokens (.signAccessToken context draw jti) w).2 log
      ⟨time,(perform scheme tokens (.signAccessToken context draw jti) w).2.service⟩ :=
    fun time later => ⟨[],.other (.start rfl) ⟨later,rfl⟩,fun _ listed => nomatch listed⟩
  constructor
  · intro accepts
    by_cases late : (w.now/1000 + tokens.maxAge)*1000 ≤ w.now
    · exact .inl late
    · right
      obtain ⟨log,used⟩ := begun w.now (Int.le_refl _)
      obtain ⟨identity,accepted⟩ := accepts log _ used (Int.not_le.mp late)
      obtain ⟨named,_,complete,paired⟩ := accepted_shows signed.signs stored accepted
      refine ⟨named,?_,complete,paired⟩
      by_contra short
      -- at the expiry of the key the token is refused
      obtain ⟨log',used'⟩ := begun key.expiresAt (Int.le_of_lt unexpired)
      obtain ⟨identity',accepted'⟩ := accepts log' _ used' (Int.not_le.mp short)
      exact Int.lt_irrefl _ (accepted_shows signed.signs stored accepted').2.1
  · rintro (late | lasting) log v used early
    · have later := used_later used
      change w.now ≤ v.now at later
      omega
    · have lasts := lasting.lasts
      have holds : KeyStore.Holds key v.service.store :=
        used_holds used ⟨key,stored,.refl key,by rw [active]; exact nofun⟩ (by omega)
      have valid := (perform scheme tokens (.signAccessToken context draw jti) w).2.service.store.valid key.kid key stored
      exact ⟨_,accepts_lasting signed.signs valid holds early lasting⟩

end TokenService

-- Signatures that name the key and what they sign.
def signatureOf (spki : String) (header : Header) (claims : TokenClaims) : String :=
  "s" ++ (spki ++ (header.kid.getD "" ++ claims.jti.getD ""))

theorem signatureOf_nonempty (spki : String) (header : Header) (claims : TokenClaims) : signatureOf spki header claims ≠ "" := by
  intro same
  have texts := congrArg String.toList same
  simp [signatureOf] at texts

theorem signatureOf_inj : signatureOf spki header claims = signatureOf spki' header claims ↔ spki = spki' := by
  constructor
  · intro same
    have texts := congrArg String.toList same
    simp only [signatureOf,String.toList_append,List.append_cancel_left_eq,List.append_cancel_right_eq] at texts
    exact String.toList_inj.mp texts
  · rintro rfl
    rfl

def unnumbered (text : String) : String := String.ofList text.toList.tail

def sampleScheme : Scheme sampleCrypto where
  sign _ priv header claims := (numberedOf 'k' priv).map fun spki => signatureOf spki header claims
  verify _ pub header claims signature := (numberedOf 'p' pub).toOption.any fun spki => signatureOf spki header claims = signature
  pqSign _ priv header claims := signatureOf (unnumbered priv) header claims
  pqVerify _ pub header claims signature := signatureOf (unnumbered pub) header claims = signature
  pqKey := unnumbered
  pqPublicOf _ := unnumbered
  signed_nonempty := by
    intro _ priv header claims signature made
    cases known : numberedOf 'k' priv with
    | error e => rw [known] at made; cases made
    | ok spki => rw [known] at made; cases made; exact signatureOf_nonempty spki header claims
  verifies := by
    intro _ pub priv spki header claims signature own derived made
    change numberedOf 'p' pub = .ok spki at own
    change numberedOf 'k' priv = .ok spki at derived
    rw [derived] at made
    cases made
    simp [own,Except.toOption]
  pqVerifies _ pub priv header claims := by simp [signatureOf_inj]
  pqGenerated algorithm seed := by cases algorithm <;> simp [sampleCrypto,numbered,unnumbered]

def sampleTokens : TokenService := ⟨"issuer","audience",900000⟩

def sampleContext : IdentityContext := ⟨"user","tenant","application","session",[],[],.password,none,none,none⟩

def signing : TokenCall := .signAccessToken sampleContext secondDraw "jti"

def signedAfter (w : World sampleCrypto) : World sampleCrypto := (sampleTokens.perform sampleScheme signing w).2

def tokenOf (w : World sampleCrypto) (check : Token → Bool) : Bool :=
  match (sampleTokens.perform sampleScheme signing w).1 with
  | .ok (some token) => check token
  | _ => false

theorem tokenOf_told (shown : tokenOf w check = true) : ∃ token,
    (sampleTokens.perform sampleScheme signing w).1 = .ok (some token) ∧ check token = true := by
  unfold tokenOf at shown
  split at shown
  · rename_i token told
    exact ⟨token,told,shown⟩
  · cases shown

theorem signed_then_rotated : ∃ token log v, (sampleTokens.perform sampleScheme signing (started (.classical .RS256))).1 =
      .ok (some token) ∧ TokenService.Used sampleScheme sampleTokens (signedAfter (started (.classical .RS256))) log v ∧
    v.now = 800000 ∧ (v.service.store.byKid v.now "a").map SigningKey.status = some .VERIFY_ONLY ∧
    ∃ identity, sampleTokens.verifyAccessToken sampleScheme v.service.store v.now (some token) = .ok identity := by
  have shown : tokenOf (started (.classical .RS256)) (fun token => decide (token.claims.exp = some 900)) = true := by decide +kernel
  obtain ⟨token,told,expires⟩ := tokenOf_told shown
  let key := KeyStore.freshKey (.classical .RS256) "a" ⟨some (numbered 'p' 1),some (numbered 'k' 1),none,none⟩ 0 defaultTtlMs
  have keyed : (KeyStoreService.current secondDraw (started (.classical .RS256)).now (started (.classical .RS256)).service).1 =
      .ok key := by decide +kernel
  have lasting : TokenService.Lasting sampleScheme sampleContext key (900*1000) :=
    ⟨by decide,by decide +kernel,by decide,fun _ variant => nomatch variant⟩
  let rotated := (sampleTokens.perform sampleScheme (.rotate secondDraw freeDisk) (signedAfter (started (.classical .RS256)))).2
  have begun : History (sampleTokens.perform sampleScheme) World.Passes (· = signedAfter (started (.classical .RS256))) []
    (signedAfter (started (.classical .RS256))) := .start rfl
  have passes : World.Passes rotated ⟨800000,rotated.service⟩ := ⟨by decide +kernel,rfl⟩
  obtain ⟨log,used⟩ : ∃ log, TokenService.Used sampleScheme sampleTokens (signedAfter (started (.classical .RS256))) log
      ⟨800000,rotated.service⟩ := by
    refine ⟨_,(begun.call (.rotate secondDraw freeDisk)).other passes,?_⟩
    intro entry listed
    rw [List.mem_singleton.mp listed]
    decide +kernel
  have accepted := (TokenService.tokens_outlive_rotation told keyed (of_decide_eq_true expires)).mpr (.inr lasting) _ _ used
    (by decide)
  exact ⟨token,_,_,told,used,rfl,by decide +kernel,accepted⟩

-- A minute before the only key expires.
def lastMinute : World sampleCrypto := ⟨2591940000,(started (.classical .RS256)).service⟩

-- A token signed in the last minute of its key is refused after a minute, well
-- before its own expiry.
theorem last_minute_token : ∃ token exp log v, (sampleTokens.perform sampleScheme signing lastMinute).1 = .ok (some token) ∧
    token.claims.exp = some exp ∧ TokenService.Used sampleScheme sampleTokens (signedAfter lastMinute) log v ∧ v.now < exp*1000 ∧
    ∃ e, sampleTokens.verifyAccessToken sampleScheme v.service.store v.now (some token) = .error e ∧ e.code = "UNKNOWN_KEY" := by
  have shown : tokenOf lastMinute (fun token => decide (token.claims.exp = some 2592840 ∧ token.header.kid = some "a")) = true := by
    decide +kernel
  obtain ⟨token,told,checked⟩ := tokenOf_told shown
  obtain ⟨expires,kid⟩ := of_decide_eq_true checked
  let later : World sampleCrypto := ⟨2592000000,(signedAfter lastMinute).service⟩
  have used : TokenService.Used sampleScheme sampleTokens (signedAfter lastMinute) [] later := by
    refine ⟨.other (.start rfl) ⟨?_,rfl⟩,fun _ listed => nomatch listed⟩
    decide +kernel
  have gone : later.service.store.byKid later.now "a" = none := by decide +kernel
  refine ⟨token,2592840,_,later,told,expires,used,by decide,⟨"Unknown signing key","UNKNOWN_KEY",some ("kid","a")⟩,?_,rfl⟩
  simp only [TokenService.verifyAccessToken,kid,present_some (show "a" ≠ "" by decide),gone]

end Pezhwan.Keys
