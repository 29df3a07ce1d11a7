import Pezhwan.Delivery.Provider

namespace Pezhwan.Delivery

inductive Method where
  | sendEmail | sendSms
  deriving DecidableEq, Repr

def Method.channel : Method → String
  | .sendEmail => "email"
  | .sendSms => "sms"

def OtpProvider.method (provider : OtpProvider) : Method → Option Transport
  | .sendEmail => provider.sendEmail
  | .sendSms => provider.sendSms

-- A provider of a chain, what its breaker goes through during this delivery
-- and the numbers drawn for its pauses.
structure Link where
  provider : OtpProvider
  passage : Passage
  draw : ℕ → ℚ

structure OtpDeliveryManager where
  emailProviders : List Link
  smsProviders : List Link
  retry : RetryTuning
  circuitBreaker : CircuitBreakerOptions

-- An attempt at a transport, and the place of its provider in the chain.
structure Contact where
  link : ℕ
  attempt : ℕ
  answer : Answer
  deriving DecidableEq, Repr

def Contact.accepted (contact : Contact) : Bool := contact.answer.accepted

namespace OtpDeliveryManager
variable (m : OtpDeliveryManager)

def retryOptions : RetryOptions := ⟨m.retry,defaultRetryable,none⟩

-- `wrap`: the breaker around the retries.
def wrapped (link : Link) (transport : Transport) (params : OtpSendParams) : Guarded :=
  let retried := withRetry m.retryOptions link.provider.id transport link.draw params
  guard m.circuitBreaker link.provider.id link.passage (.returned retried.result,retried.contacts)

def detail (errors : List DeliveryResult) : String :=
  "; ".intercalate (errors.map fun e => e.providerId ++ ": " ++ e.error.getD "rejected")

def contactsAt (link : ℕ) (contacts : List (ℕ × Answer)) : List Contact :=
  contacts.map fun contact => ⟨link,contact.1,contact.2⟩

def tryEach (method : Method) (params : OtpSendParams) : ℕ → List Link → List DeliveryResult → Except String Unit × List Contact
  | _,[],errors => (.error ("OTP delivery failed: " ++ detail errors),[])
  | place,link :: rest,errors =>
    match link.provider.method method with
    | none => tryEach method params (place + 1) rest
        (errors ++ [.rejected link.provider.id "provider does not support this channel"])
    | some transport =>
      let sent := m.wrapped link transport params
      let contacts := contactsAt place sent.contacts
      if sent.result.ok then (.ok (),contacts)
      else
        let (answer,later) := tryEach method params (place + 1) rest (errors ++ [sent.result])
        (answer,contacts ++ later)

theorem tryEach_cases (m : OtpDeliveryManager) (method : Method) (params : OtpSendParams) (place : ℕ) (link : Link)
    (rest : List Link) (errors : List DeliveryResult) :
    (link.provider.method method = none ∧ ∃ error, m.tryEach method params place (link :: rest) errors =
      m.tryEach method params (place + 1) rest (errors ++ [error])) ∨
    ∃ transport, link.provider.method method = some transport ∧
      (((m.wrapped link transport params).result.ok = true ∧ m.tryEach method params place (link :: rest) errors =
          (.ok (),contactsAt place (m.wrapped link transport params).contacts)) ∨
        ((m.wrapped link transport params).result.ok = false ∧
          (m.tryEach method params place (link :: rest) errors).1 =
            (m.tryEach method params (place + 1) rest (errors ++ [(m.wrapped link transport params).result])).1 ∧
          (m.tryEach method params place (link :: rest) errors).2 =
            contactsAt place (m.wrapped link transport params).contacts ++
              (m.tryEach method params (place + 1) rest (errors ++ [(m.wrapped link transport params).result])).2)) := by
  rw [tryEach]
  cases held : link.provider.method method with
  | none => exact .inl ⟨rfl,_,rfl⟩
  | some transport =>
    refine .inr ⟨transport,rfl,?_⟩
    dsimp only
    cases sent : (m.wrapped link transport params).result.ok with
    | true => exact .inl ⟨rfl,rfl⟩
    | false => exact .inr ⟨rfl,rfl,rfl⟩

def dispatch (chain : List Link) (method : Method) (params : OtpSendParams) : Except String Unit × List Contact :=
  if chain.isEmpty then (.error ("No " ++ method.channel ++ " OTP provider is configured"),[])
  else m.tryEach method params 0 chain []

def chain : Method → List Link
  | .sendEmail => m.emailProviders
  | .sendSms => m.smsProviders

-- `sendEmail` and `sendSms`.
def deliver (method : Method) (target code purpose : String) : Except String Unit × List Contact :=
  m.dispatch (m.chain method) method ⟨target,code,purpose⟩

-- What an attempt says about every later one of the delivery.
def Follows (earlier later : Contact) : Prop :=
  earlier.accepted = false ∧ earlier.link ≤ later.link ∧ (earlier.link = later.link → earlier.answer.final = false)

variable {m} {method : Method} {params : OtpSendParams} {link : Link} {transport : Transport} {place : ℕ}
  {rest chain : List Link} {errors : List DeliveryResult}

theorem wrapped_cases (m : OtpDeliveryManager) (link : Link) (transport : Transport) (params : OtpSendParams) :
    ((m.wrapped link transport params).result.ok = false ∧ (m.wrapped link transport params).contacts = []) ∨
    ((m.wrapped link transport params).result.ok =
        (withRetry m.retryOptions link.provider.id transport link.draw params).result.ok ∧
      (m.wrapped link transport params).contacts =
        (withRetry m.retryOptions link.provider.id transport link.draw params).contacts) := guard_cases

theorem wrapped_bounded : (m.wrapped link transport params).contacts.length ≤ m.retry.attempts := by
  obtain ⟨_,silent⟩ | ⟨_,passed⟩ := wrapped_cases m link transport params
  · simp [silent]
  · rw [passed]
    exact withRetry_bounded

theorem wrapped_accepted : (m.wrapped link transport params).result.ok = true ↔
    ∃ contact ∈ (m.wrapped link transport params).contacts, contact.2.accepted = true := by
  obtain ⟨refused,silent⟩ | ⟨outcome,passed⟩ := wrapped_cases m link transport params
  · simp [refused,silent]
  · rw [outcome,passed]
    exact withRetry_accepted

theorem wrapped_stops : (m.wrapped link transport params).contacts.Pairwise fun contact _ =>
    contact.2.accepted = false ∧ contact.2.final = false := by
  obtain ⟨_,silent⟩ | ⟨_,passed⟩ := wrapped_cases m link transport params
  · simp [silent]
  · rw [passed]
    exact withRetry_stops rfl

theorem wrapped_faithful (listed : contact ∈ (m.wrapped link transport params).contacts) :
    contact.2 = transport.answer params contact.1 := by
  obtain ⟨_,silent⟩ | ⟨_,passed⟩ := wrapped_cases m link transport params
  · simp [silent] at listed
  · rw [passed] at listed
    exact withRetry_faithful contact listed

theorem wrapped_tried (shut : (link.passage.found.isOpen m.circuitBreaker link.passage.started).1 = false)
    (any : 0 < m.retry.attempts) :
    (1,transport.answer params 1) ∈ (m.wrapped link transport params).contacts := by
  unfold wrapped
  rw [guard_passes shut]
  exact withRetry_tried rfl any

@[simp]
theorem mem_contactsAt {contacts : List (ℕ × Answer)} {contact : Contact} :
    contact ∈ contactsAt place contacts ↔ contact.link = place ∧ (contact.attempt,contact.answer) ∈ contacts := by
  obtain ⟨link,attempt,answer⟩ := contact
  simp only [contactsAt,List.mem_map,Contact.mk.injEq,Prod.exists]
  constructor
  · intro both
    obtain ⟨_,_,listed,rfl,rfl,rfl⟩ := both
    exact ⟨rfl,listed⟩
  · intro both
    obtain ⟨rfl,listed⟩ := both
    exact ⟨_,_,listed,rfl,rfl,rfl⟩

theorem tryEach_onward : ∀ contact ∈ (m.tryEach method params place chain errors).2, place ≤ contact.link := by
  induction chain generalizing place errors with
  | nil => simp [tryEach]
  | cons link rest ih =>
    intro contact listed
    obtain ⟨_,error,skipped⟩ | ⟨transport,_,⟨_,ended⟩ | ⟨_,_,onward⟩⟩ :=
      tryEach_cases m method params place link rest errors
    · rw [skipped] at listed
      exact (Nat.le_succ place).trans (ih contact listed)
    · rw [ended] at listed
      exact (mem_contactsAt.mp listed).1.ge
    · rw [onward] at listed
      rcases List.mem_append.mp listed with here | later
      · exact (mem_contactsAt.mp here).1.ge
      · exact (Nat.le_succ place).trans (ih contact later)

theorem tryEach_accepted : (m.tryEach method params place chain errors).1 = .ok () ↔
    ∃ contact ∈ (m.tryEach method params place chain errors).2, contact.accepted = true := by
  induction chain generalizing place errors with
  | nil => simp [tryEach]
  | cons link rest ih =>
    obtain ⟨_,error,skipped⟩ | ⟨transport,_,⟨sent,ended⟩ | ⟨unsent,same,onward⟩⟩ :=
      tryEach_cases m method params place link rest errors
    · rw [skipped]
      exact ih
    · obtain ⟨contact,listed,accepted⟩ := wrapped_accepted.mp sent
      rw [ended]
      simp only [true_iff]
      exact ⟨⟨place,contact.1,contact.2⟩,mem_contactsAt.mpr ⟨rfl,listed⟩,accepted⟩
    · rw [same,onward,ih]
      constructor
      · intro both
        obtain ⟨contact,listed,accepted⟩ := both
        exact ⟨contact,List.mem_append_right _ listed,accepted⟩
      · intro both
        obtain ⟨contact,listed,accepted⟩ := both
        rcases List.mem_append.mp listed with here | later
        · have sent := wrapped_accepted.mpr ⟨_,(mem_contactsAt.mp here).2,accepted⟩
          rw [unsent] at sent
          cases sent
        · exact ⟨contact,later,accepted⟩

theorem wrapped_follows : (contactsAt place (m.wrapped link transport params).contacts).Pairwise Follows := by
  refine List.pairwise_map.mpr (wrapped_stops.imp ?_)
  intro earlier later stopped
  exact ⟨stopped.1,le_rfl,fun _ => stopped.2⟩

theorem tryEach_follows : (m.tryEach method params place chain errors).2.Pairwise Follows := by
  induction chain generalizing place errors with
  | nil => simp [tryEach]
  | cons link rest ih =>
    obtain ⟨_,error,skipped⟩ | ⟨transport,_,⟨_,ended⟩ | ⟨unsent,_,onward⟩⟩ :=
      tryEach_cases m method params place link rest errors
    · rw [skipped]
      exact ih
    · rw [ended]
      exact wrapped_follows
    · rw [onward]
      refine List.pairwise_append.mpr ⟨wrapped_follows,ih,?_⟩
      intro earlier here later there
      obtain ⟨standing,listed⟩ := mem_contactsAt.mp here
      have beyond := tryEach_onward later there
      refine ⟨?_,by omega,by omega⟩
      cases accepted : earlier.accepted with
      | false => rfl
      | true =>
        rw [wrapped_accepted.mpr ⟨_,listed,accepted⟩] at unsent
        cases unsent

theorem tryEach_bounded (k : ℕ) :
    ((m.tryEach method params place chain errors).2.filter (·.link == k)).length ≤ m.retry.attempts := by
  induction chain generalizing place errors with
  | nil => simp [tryEach]
  | cons link rest ih =>
    have here : ∀ transport, ((contactsAt place (m.wrapped link transport params).contacts).filter (·.link == k)).length ≤
        m.retry.attempts := fun transport =>
      (List.length_filter_le _ _).trans (by simpa [contactsAt] using wrapped_bounded)
    obtain ⟨_,error,skipped⟩ | ⟨transport,_,⟨_,ended⟩ | ⟨_,_,onward⟩⟩ :=
      tryEach_cases m method params place link rest errors
    · rw [skipped]
      exact ih
    · rw [ended]
      exact here transport
    · rw [onward,List.filter_append,List.length_append]
      by_cases same : k = place
      · have nothing : (m.tryEach method params (place + 1) rest
            (errors ++ [(m.wrapped link transport params).result])).2.filter (·.link == k) = [] := by
          refine List.filter_eq_nil_iff.mpr ?_
          intro contact listed
          have beyond := tryEach_onward contact listed
          simp only [beq_iff_eq]
          omega
        rw [nothing]
        exact here transport
      · have nothing : (contactsAt place (m.wrapped link transport params).contacts).filter (·.link == k) = [] := by
          refine List.filter_eq_nil_iff.mpr ?_
          intro contact listed
          rw [beq_iff_eq,(mem_contactsAt.mp listed).1]
          exact fun equal => same equal.symm
        rw [nothing]
        simpa using ih

theorem tryEach_faithful (listed : contact ∈ (m.tryEach method params place chain errors).2) :
    ∃ link transport, chain[contact.link - place]? = some link ∧ link.provider.method method = some transport ∧
      contact.answer = transport.answer params contact.attempt := by
  induction chain generalizing place errors with
  | nil => simp [tryEach] at listed
  | cons link rest ih =>
    have later : ∀ errors, contact ∈ (m.tryEach method params (place + 1) rest errors).2 →
        ∃ found transport, (link :: rest)[contact.link - place]? = some found ∧
          found.provider.method method = some transport ∧ contact.answer = transport.answer params contact.attempt := by
      intro errors further
      obtain ⟨found,transport,stands,held,answered⟩ := ih further
      have beyond := tryEach_onward contact further
      refine ⟨found,transport,?_,held,answered⟩
      rw [show contact.link - place = contact.link - (place + 1) + 1 by omega]
      exact stands
    have here : ∀ transport, link.provider.method method = some transport →
        contact ∈ contactsAt place (m.wrapped link transport params).contacts →
        ∃ found transport, (link :: rest)[contact.link - place]? = some found ∧
          found.provider.method method = some transport ∧ contact.answer = transport.answer params contact.attempt := by
      intro transport held sent
      obtain ⟨stands,made⟩ := mem_contactsAt.mp sent
      exact ⟨link,transport,by simp [stands],held,wrapped_faithful made⟩
    obtain ⟨_,error,skipped⟩ | ⟨transport,held,⟨_,ended⟩ | ⟨_,_,onward⟩⟩ :=
      tryEach_cases m method params place link rest errors
    · exact later _ (skipped ▸ listed)
    · rw [ended] at listed
      exact here transport held listed
    · rw [onward] at listed
      rcases List.mem_append.mp listed with sent | further
      · exact here transport held sent
      · exact later _ further

theorem tryEach_reaches (any : 0 < m.retry.attempts) (failed : (m.tryEach method params place chain errors).1 ≠ .ok ())
    (stands : chain[k]? = some link) (held : link.provider.method method = some transport)
    (shut : (link.passage.found.isOpen m.circuitBreaker link.passage.started).1 = false) :
    ∃ contact ∈ (m.tryEach method params place chain errors).2, contact.link = place + k := by
  induction chain generalizing place errors k with
  | nil => simp at stands
  | cons first rest ih =>
    obtain ⟨missing,error,skipped⟩ | ⟨other,found,⟨_,ended⟩ | ⟨_,same,onward⟩⟩ :=
      tryEach_cases m method params place first rest errors
    · cases k with
      | zero =>
        cases stands
        rw [held] at missing
        cases missing
      | succ k =>
        rw [skipped] at failed ⊢
        obtain ⟨contact,listed,stood⟩ := ih failed stands
        exact ⟨contact,listed,by omega⟩
    · exact absurd (by rw [ended]) failed
    · rw [same] at failed
      rw [onward]
      cases k with
      | zero =>
        cases stands
        cases held.symm.trans found
        exact ⟨⟨place,1,_⟩,List.mem_append_left _ (mem_contactsAt.mpr ⟨rfl,wrapped_tried shut any⟩),rfl⟩
      | succ k =>
        obtain ⟨contact,listed,stood⟩ := ih failed stands
        exact ⟨contact,List.mem_append_right _ listed,by omega⟩

theorem dispatch_eq (present : chain ≠ []) : m.dispatch chain method params = m.tryEach method params 0 chain [] := by
  cases chain with
  | nil => exact absurd rfl present
  | cons link rest => rfl

theorem pairwise_accepted {contacts : List Contact} (follows : contacts.Pairwise Follows) :
    contacts.countP Contact.accepted ≤ 1 := by
  induction contacts with
  | nil => simp
  | cons contact rest ih =>
    obtain ⟨first,onward⟩ := List.pairwise_cons.mp follows
    rw [List.countP_cons]
    cases accepted : contact.accepted with
    | false => simpa using ih onward
    | true =>
      have alone : rest = [] := by
        refine List.eq_nil_iff_forall_not_mem.mpr ?_
        intro later listed
        rw [(first later listed).1] at accepted
        cases accepted
      simp [alone]

theorem pairwise_last {contacts : List Contact} (follows : contacts.Pairwise Follows) {contact other : Contact}
    (listed : contact ∈ contacts) (accepted : contact.accepted = true) (also : other ∈ contacts) :
    other.link ≤ contact.link := by
  induction contacts with
  | nil => cases listed
  | cons head rest ih =>
    obtain ⟨first,onward⟩ := List.pairwise_cons.mp follows
    rcases List.mem_cons.mp listed with rfl | later
    · rcases List.mem_cons.mp also with rfl | after
      · exact le_rfl
      · rw [(first other after).1] at accepted
        cases accepted
    · rcases List.mem_cons.mp also with rfl | after
      · exact (first contact later).2.1
      · exact ih onward later after

-- A delivery in the chain's order: it comes through exactly when a provider
-- accepts the code, nobody is asked after that one, nobody is asked more than
-- `attempts` times or again after a final rejection, and it fails only when
-- everyone who could be asked has been.
theorem delivery_fails_over (m : OtpDeliveryManager) (method : Method) (target code purpose : String) :
    let answer := (m.deliver method target code purpose).1
    let contacts := (m.deliver method target code purpose).2
    (∀ contact ∈ contacts, ∃ link transport, (m.chain method)[contact.link]? = some link ∧
      link.provider.method method = some transport ∧
      contact.answer = transport.answer ⟨target,code,purpose⟩ contact.attempt) ∧
    (answer = .ok () ↔ ∃ contact ∈ contacts, contact.accepted = true) ∧
    (∀ contact ∈ contacts, contact.accepted = true → ∀ other ∈ contacts, other.link ≤ contact.link) ∧
    contacts.countP Contact.accepted ≤ 1 ∧
    (∀ k, (contacts.filter (·.link == k)).length ≤ m.retry.attempts) ∧
    (∀ past contact later, contacts = past ++ contact :: later → contact.answer.final = true →
      ∀ other ∈ later, other.link ≠ contact.link) ∧
    (0 < m.retry.attempts → answer ≠ .ok () → ∀ k link transport, (m.chain method)[k]? = some link →
      link.provider.method method = some transport →
      (link.passage.found.isOpen m.circuitBreaker link.passage.started).1 = false →
      ∃ contact ∈ contacts, contact.link = k) := by
  dsimp only
  by_cases none : m.chain method = []
  · simp [deliver,dispatch,none]
  · unfold deliver
    rw [dispatch_eq none]
    have follows : (m.tryEach method ⟨target,code,purpose⟩ 0 (m.chain method) []).2.Pairwise Follows := tryEach_follows
    refine ⟨fun contact listed => tryEach_faithful listed,tryEach_accepted,?_,pairwise_accepted follows,
      tryEach_bounded,?_,?_⟩
    · intro contact listed accepted other also
      exact pairwise_last follows listed accepted also
    · intro past contact later split final other listed same
      rw [split] at follows
      have next := (List.pairwise_cons.mp (List.pairwise_append.mp follows).2.1).1 other listed
      rw [next.2.2 same.symm] at final
      cases final
    · intro any failed k link transport stands held shut
      obtain ⟨contact,listed,stood⟩ := tryEach_reaches any failed stands held shut
      exact ⟨contact,listed,by omega⟩

def sampleLink (answer : Answer) : Link := ⟨⟨"mail",some ⟨fun _ _ => answer,fun _ _ => 0⟩,none⟩,⟨{},0,{},0⟩,fun _ => 0⟩

-- The first provider is down, and the second one delivers.
example : let m : OtpDeliveryManager := ⟨[sampleLink (.threw (.value "down")),sampleLink (.returned ⟨true,none,"mail",0,none,none⟩)],
      [],{attempts := 2},{}⟩
    (m.deliver .sendEmail "ada" "123456" "login").2.map Contact.link = [0,0,1] := by decide +kernel

end OtpDeliveryManager
end Pezhwan.Delivery
