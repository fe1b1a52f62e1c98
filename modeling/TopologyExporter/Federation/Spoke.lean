import TopologyExporter.Federation.Validate

/-! # Pushing a payload

A spoke posts its graph to the hub and tries again when the hub cannot be
reached, is overloaded or fails. An answer that says the request itself is at
fault ends the push. The failures of pushes are counted here, and once more by
the caller.
-/

namespace TopologyExporter.Federation

open Go

/-- What comes back for one request. -/
inductive Reply where
  | unreachable
  | answer (status : Nat) (body : GoString)
deriving DecidableEq

inductive PostError where
  | transport
  | hub (status : Nat) (text : GoString)
deriving DecidableEq

def statusNoContent : Nat := 204
def statusTooManyRequests : Nat := 429
def maxBodySnippet : Nat := 4096
def maxAttempts : Nat := 5

/-- An error that a second attempt would not get around. -/
def PostError.fatal : PostError → Bool
  | .transport => false
  | .hub status _ => 400 ≤ status && status < 500 && status != statusTooManyRequests

def post (reply : Reply) : Except PostError Unit :=
  match reply with
  | .unreachable => .error .transport
  | .answer status body =>
      if status = statusNoContent then .ok ()
      else .error (.hub status (Strings.trimSpace (body.take maxBodySnippet)))

inductive EncodeError where
  | marshal
  | gzip
deriving DecidableEq

inductive PushError where
  | encode (error : EncodeError)
  | cancelled
  | fatal (error : PostError)
  | exhausted (attempts : Nat) (last : PostError)
deriving DecidableEq

structure Spoke where
  /-- The body for a payload, compressed if the spoke is configured so. -/
  encode : SpokePayload → Except EncodeError GoString
  hasMetrics : Bool

/-- What the push meets outside: the reply to each attempt, and what is read of
the context before the attempt, while waiting after it, and in the end. -/
structure Exchange where
  reply : Nat → Reply
  cancelledBefore : Nat → Bool
  cancelledWaiting : Nat → Bool
  cancelledAfter : Bool

def Spoke.countFailure (spoke : Spoke) (failures : Nat) : Nat :=
  if spoke.hasMetrics then failures + 1 else failures

/-- The given attempt, with some more to follow if it may be repeated. -/
def attemptFrom (spoke : Spoke) (exchange : Exchange) (failures : Nat) :
    Nat → Nat → Except PushError Unit × Nat
  | remaining, attempt =>
      if exchange.cancelledBefore attempt then (.error .cancelled, failures)
      else
        match post (exchange.reply attempt) with
        | .ok () => (.ok (), failures)
        | .error error =>
            if error.fatal then (.error (.fatal error), spoke.countFailure failures)
            else
              match remaining with
              | 0 => (.error (.exhausted maxAttempts error), spoke.countFailure failures)
              | remaining + 1 =>
                  if exchange.cancelledWaiting attempt then (.error .cancelled, failures)
                  else attemptFrom spoke exchange failures remaining (attempt + 1)

/-- The outcome and the number of failures counted so far. -/
def Spoke.push (spoke : Spoke) (exchange : Exchange) (payload : SpokePayload) (failures : Nat) :
    Except PushError Unit × Nat :=
  match spoke.encode payload with
  | .error error => (.error (.encode error), failures)
  | .ok _ => attemptFrom spoke exchange failures (maxAttempts - 1) 1

/-! ## What a push comes to -/

def Reply.Accepted : Reply → Prop
  | .unreachable => False
  | .answer status _ => status = statusNoContent

/-- The attempt is repeated after this reply. -/
def Reply.Retried : Reply → Prop
  | .unreachable => True
  | .answer status _ => status ≠ statusNoContent ∧
      (status < 400 ∨ 500 ≤ status ∨ status = statusTooManyRequests)

/-- One of the replies from the given attempt on accepts the payload, and those
before it let the spoke try again. -/
def AcceptedWithin (exchange : Exchange) (attempt remaining : Nat) : Prop :=
  ∃ later ≤ remaining, (exchange.reply (attempt + later)).Accepted ∧
    ∀ earlier < later, (exchange.reply (attempt + earlier)).Retried

structure Exchange.Uncancelled (exchange : Exchange) : Prop where
  before : ∀ attempt, exchange.cancelledBefore attempt = false
  waiting : ∀ attempt, exchange.cancelledWaiting attempt = false
  after : exchange.cancelledAfter = false

variable {reply : Reply} {exchange : Exchange}

theorem post_eq_ok : post reply = .ok () ↔ reply.Accepted := by
  cases reply with
  | unreachable => simp [post, Reply.Accepted]
  | answer status body =>
      simp only [post, Reply.Accepted]
      split_ifs with hstatus
      · simp [hstatus]
      · simp [hstatus]

variable {error : PostError} {attempt remaining : Nat}

theorem retried_of_post (hpost : post reply = .error error) :
    reply.Retried ↔ error.fatal = false := by
  cases reply with
  | unreachable =>
      cases hpost
      simp [Reply.Retried, PostError.fatal]
  | answer status body =>
      simp only [post] at hpost
      split_ifs at hpost with hstatus
      cases hpost
      simp only [Reply.Retried, PostError.fatal, ne_eq, hstatus, not_false_eq_true, true_and,
        Bool.and_eq_false_iff, decide_eq_false_iff_not, bne_eq_false_iff_eq, not_le, not_lt,
        or_assoc]

theorem acceptedWithin_of_accepted (haccepted : (exchange.reply attempt).Accepted) :
    AcceptedWithin exchange attempt remaining :=
  ⟨0, Nat.zero_le _, haccepted, fun _ hearlier => absurd hearlier (Nat.not_lt_zero _)⟩

/-- Unless the reply accepts, it has to allow another attempt that leads on. -/
theorem acceptedWithin_succ (hrefused : ¬ (exchange.reply attempt).Accepted) :
    AcceptedWithin exchange attempt (remaining + 1) ↔
      (exchange.reply attempt).Retried ∧ AcceptedWithin exchange (attempt + 1) remaining := by
  constructor
  · rintro ⟨later, hlater, haccepted, hearlier⟩
    cases later with
    | zero => exact absurd haccepted hrefused
    | succ later =>
        refine ⟨hearlier 0 (Nat.succ_pos _), later, by omega, ?_, ?_⟩
        · rwa [show attempt + 1 + later = attempt + (later + 1) by omega]
        · intro earlier hlt
          rw [show attempt + 1 + earlier = attempt + (earlier + 1) by omega]
          exact hearlier (earlier + 1) (by omega)
  · rintro ⟨hretried, later, hlater, haccepted, hearlier⟩
    refine ⟨later + 1, by omega, ?_, ?_⟩
    · rwa [show attempt + (later + 1) = attempt + 1 + later by omega]
    · intro earlier hlt
      cases earlier with
      | zero => exact hretried
      | succ earlier =>
          rw [show attempt + (earlier + 1) = attempt + 1 + earlier by omega]
          exact hearlier earlier (by omega)

theorem push_of_encode {spoke : Spoke} {payload : SpokePayload} {failures : Nat} {body : GoString}
    (hencode : spoke.encode payload = .ok body) :
    spoke.push exchange payload failures =
      attemptFrom spoke exchange failures (maxAttempts - 1) 1 := by
  rw [Spoke.push, hencode]

section Uncancelled

variable {spoke : Spoke} {exchange : Exchange} {failures : Nat}

theorem attemptFrom_eq_ok (hcontext : exchange.Uncancelled) (remaining attempt : Nat) :
    (attemptFrom spoke exchange failures remaining attempt).1 = .ok () ↔
      AcceptedWithin exchange attempt remaining := by
  induction remaining generalizing attempt with
  | zero =>
      rw [attemptFrom, hcontext.before]
      cases hpost : post (exchange.reply attempt) with
      | ok _ => simpa using acceptedWithin_of_accepted (post_eq_ok.mp hpost)
      | error error =>
          have hrefused : ¬ (exchange.reply attempt).Accepted := by
            rw [← post_eq_ok, hpost]
            simp
          have hnone : ¬ AcceptedWithin exchange attempt 0 := by
            rintro ⟨later, hlater, haccepted, -⟩
            rw [Nat.le_zero.mp hlater] at haccepted
            exact hrefused haccepted
          by_cases hfatal : error.fatal <;> simp [hfatal, hnone]
  | succ remaining ih =>
      rw [attemptFrom, hcontext.before]
      cases hpost : post (exchange.reply attempt) with
      | ok _ => simpa using acceptedWithin_of_accepted (post_eq_ok.mp hpost)
      | error error =>
          have hrefused : ¬ (exchange.reply attempt).Accepted := by
            rw [← post_eq_ok, hpost]
            simp
          rw [acceptedWithin_succ hrefused, retried_of_post hpost]
          by_cases hfatal : error.fatal
          · simp [hfatal]
          · simp [hfatal, hcontext.waiting, ih]

/-- A push that is not cancelled counts one failure unless it is accepted. -/
theorem attemptFrom_failures (hcontext : exchange.Uncancelled) (remaining attempt : Nat) :
    (attemptFrom spoke exchange failures remaining attempt).2 =
      if (attemptFrom spoke exchange failures remaining attempt).1 = .ok () then failures
      else spoke.countFailure failures := by
  induction remaining generalizing attempt with
  | zero =>
      rw [attemptFrom, hcontext.before]
      cases post (exchange.reply attempt) with
      | ok _ => simp
      | error error => by_cases hfatal : error.fatal <;> simp [hfatal]
  | succ remaining ih =>
      rw [attemptFrom, hcontext.before]
      cases post (exchange.reply attempt) with
      | ok _ => simp
      | error error =>
          by_cases hfatal : error.fatal
          · simp [hfatal]
          · simp only [Bool.false_eq_true, if_false, hfatal, hcontext.waiting]
            exact ih (attempt + 1)

end Uncancelled

/-! ## What a push sends

The push once more, with a record of what it does outside: it reads the context
and sends requests. The record decides everything there is to say about a
conversation with the hub. -/

inductive Act where
  | readContext (cancelled : Bool)
  | request (reply : Reply)
deriving DecidableEq

def Act.reply? : Act → Option Reply
  | .readContext _ => none
  | .request reply => some reply

/-- The replies to the requests that were sent. -/
def requests (acts : List Act) : List Reply := acts.filterMap Act.reply?

/-- As `attemptFrom`, with the acts in the order they take place. -/
def recordFrom (spoke : Spoke) (exchange : Exchange) (failures : Nat) :
    Nat → Nat → (Except PushError Unit × Nat) × List Act
  | remaining, attempt =>
      if exchange.cancelledBefore attempt then ((.error .cancelled, failures), [.readContext true])
      else
        let sent := [Act.readContext false, Act.request (exchange.reply attempt)]
        match post (exchange.reply attempt) with
        | .ok () => ((.ok (), failures), sent)
        | .error error =>
            if error.fatal then ((.error (.fatal error), spoke.countFailure failures), sent)
            else
              match remaining with
              | 0 => ((.error (.exhausted maxAttempts error), spoke.countFailure failures), sent)
              | remaining + 1 =>
                  if exchange.cancelledWaiting attempt then
                    ((.error .cancelled, failures), sent ++ [.readContext true])
                  else
                    let later := recordFrom spoke exchange failures remaining (attempt + 1)
                    (later.1, sent ++ .readContext false :: later.2)

def Spoke.record (spoke : Spoke) (exchange : Exchange) (payload : SpokePayload) (failures : Nat) :
    (Except PushError Unit × Nat) × List Act :=
  match spoke.encode payload with
  | .error error => ((.error (.encode error), failures), [])
  | .ok _ => recordFrom spoke exchange failures (maxAttempts - 1) 1

theorem recordFrom_fst (spoke : Spoke) (exchange : Exchange) (failures remaining attempt : Nat) :
    (recordFrom spoke exchange failures remaining attempt).1 =
      attemptFrom spoke exchange failures remaining attempt := by
  induction remaining generalizing attempt with
  | zero =>
      unfold recordFrom attemptFrom
      split
      next => rfl
      next =>
        cases post (exchange.reply attempt) with
        | ok _ => rfl
        | error error => by_cases hfatal : error.fatal <;> simp [hfatal]
  | succ remaining ih =>
      unfold recordFrom attemptFrom
      split
      next => rfl
      next =>
        cases post (exchange.reply attempt) with
        | ok _ => rfl
        | error error =>
            by_cases hfatal : error.fatal
            · simp [hfatal]
            · by_cases hwaiting : exchange.cancelledWaiting attempt
              · simp [hfatal, hwaiting]
              · simp [hfatal, hwaiting, ih]

/-- Keeping the record does not change the push. -/
theorem record_fst (spoke : Spoke) (exchange : Exchange) (payload : SpokePayload)
    (failures : Nat) :
    (spoke.record exchange payload failures).1 = spoke.push exchange payload failures := by
  unfold Spoke.record Spoke.push
  cases spoke.encode payload with
  | error error => rfl
  | ok body => exact recordFrom_fst spoke exchange failures (maxAttempts - 1) 1

/-- The request itself is at fault. -/
def Reply.Refused : Reply → Prop
  | .unreachable => False
  | .answer status _ => 400 ≤ status ∧ status < 500 ∧ status ≠ statusTooManyRequests

theorem refused_of_post (hpost : post reply = .error error) (hfatal : error.fatal = true) :
    reply.Refused := by
  cases reply with
  | unreachable =>
      cases hpost
      cases hfatal
  | answer status body =>
      simp only [post] at hpost
      split_ifs at hpost with hstatus
      cases hpost
      simpa [PostError.fatal, Reply.Refused, and_assoc] using hfatal

/-- The course of a push with so many attempts left after the present one: its
acts, and whether it succeeds. -/
inductive Course : Nat → List Act → Bool → Prop where
  | cancelled (remaining : Nat) : Course remaining [.readContext true] false
  | accepted (remaining : Nat) {reply : Reply} (haccepted : reply.Accepted) :
      Course remaining [.readContext false, .request reply] true
  | refused (remaining : Nat) {reply : Reply} (hrefused : reply.Refused) :
      Course remaining [.readContext false, .request reply] false
  | exhausted {reply : Reply} (hretried : reply.Retried) :
      Course 0 [.readContext false, .request reply] false
  | cancelledWaiting (remaining : Nat) {reply : Reply} (hretried : reply.Retried) :
      Course (remaining + 1) [.readContext false, .request reply, .readContext true] false
  | again {remaining : Nat} {reply : Reply} {later : List Act} {success : Bool}
      (hretried : reply.Retried) (hlater : Course remaining later success) :
      Course (remaining + 1)
        (.readContext false :: .request reply :: .readContext false :: later) success

/-- Every push takes such a course, whatever it meets. -/
theorem course_recordFrom (spoke : Spoke) (exchange : Exchange)
    (failures remaining attempt : Nat) :
    Course remaining (recordFrom spoke exchange failures remaining attempt).2
      (recordFrom spoke exchange failures remaining attempt).1.1.isOk := by
  induction remaining generalizing attempt with
  | zero =>
      unfold recordFrom
      split
      next => exact Course.cancelled 0
      next =>
        cases hpost : post (exchange.reply attempt) with
        | ok _ => exact Course.accepted 0 (post_eq_ok.mp hpost)
        | error error =>
            by_cases hfatal : error.fatal = true
            · simp only [hfatal, if_true]
              exact Course.refused 0 (refused_of_post hpost hfatal)
            · simp only [hfatal]
              exact Course.exhausted ((retried_of_post hpost).mpr (by simpa using hfatal))
  | succ remaining ih =>
      unfold recordFrom
      split
      next => exact Course.cancelled (remaining + 1)
      next =>
        cases hpost : post (exchange.reply attempt) with
        | ok _ => exact Course.accepted (remaining + 1) (post_eq_ok.mp hpost)
        | error error =>
            by_cases hfatal : error.fatal = true
            · simp only [hfatal, if_true]
              exact Course.refused (remaining + 1) (refused_of_post hpost hfatal)
            · have hretried := (retried_of_post hpost).mpr (by simpa using hfatal)
              by_cases hwaiting : exchange.cancelledWaiting attempt = true
              · simp only [hfatal, hwaiting, if_true]
                exact Course.cancelledWaiting remaining hretried
              · simp only [hfatal, hwaiting]
                exact Course.again hretried (ih (attempt + 1))

theorem Reply.Accepted.not_retried (haccepted : reply.Accepted) : ¬ reply.Retried := by
  cases reply with
  | unreachable => cases haccepted
  | answer status body => exact fun hretried => hretried.1 haccepted

theorem Reply.Refused.not_retried (hrefused : reply.Refused) : ¬ reply.Retried := by
  cases reply with
  | unreachable => cases hrefused
  | answer status body =>
      intro hretried
      obtain ⟨hlow, hhigh, hbusy⟩ := hrefused
      rcases hretried.2 with hbelow | habove | hagain
      · omega
      · omega
      · exact hbusy hagain

theorem Reply.Refused.not_accepted (hrefused : reply.Refused) : ¬ reply.Accepted := by
  cases reply with
  | unreachable => cases hrefused
  | answer status body =>
      intro haccepted
      have hlow : 400 ≤ statusNoContent := haccepted ▸ hrefused.1
      exact absurd hlow (by decide)

/-- After such an act there is nothing left to ask the hub for. -/
def Act.Final : Act → Prop
  | .readContext cancelled => cancelled = true
  | .request reply => reply.Accepted ∨ reply.Refused

theorem Reply.Retried.not_final (hretried : reply.Retried) : ¬ (Act.request reply).Final := by
  intro hfinal
  rcases hfinal with haccepted | hrefused
  · exact haccepted.not_retried hretried
  · exact hrefused.not_retried hretried

section Course

variable {remaining : Nat} {acts : List Act} {success : Bool}

theorem Course.length_requests_le (hcourse : Course remaining acts success) :
    (requests acts).length ≤ remaining + 1 := by
  induction hcourse with
  | cancelled remaining => exact Nat.zero_le _
  | accepted remaining _ => exact Nat.succ_le_succ (Nat.zero_le remaining)
  | refused remaining _ => exact Nat.succ_le_succ (Nat.zero_le remaining)
  | exhausted _ => exact Nat.le_refl 1
  | cancelledWaiting remaining _ => exact Nat.succ_le_succ (Nat.zero_le (remaining + 1))
  | again _ _ ih => exact Nat.succ_le_succ ih

theorem Course.success_iff (hcourse : Course remaining acts success) :
    success = true ↔ ∃ reply ∈ requests acts, reply.Accepted := by
  induction hcourse with
  | cancelled remaining => simp [requests, Act.reply?]
  | accepted remaining haccepted => simpa [requests, Act.reply?] using haccepted
  | refused remaining hrefused => simpa [requests, Act.reply?] using hrefused.not_accepted
  | exhausted hretried =>
      simpa [requests, Act.reply?] using fun haccepted => haccepted.not_retried hretried
  | cancelledWaiting remaining hretried =>
      simpa [requests, Act.reply?] using fun haccepted => haccepted.not_retried hretried
  | @again _ reply later _ hretried _ ih =>
      have hfirst : ¬ reply.Accepted := fun haccepted => haccepted.not_retried hretried
      have hsent : requests (.readContext false :: .request reply :: .readContext false :: later) =
          reply :: requests later := rfl
      rw [hsent, ih]
      simp [hfirst]

/-- No request follows an act that is final. -/
theorem Course.pairwise (hcourse : Course remaining acts success) :
    acts.Pairwise (fun earlier later => earlier.Final → later.reply? = none) := by
  have hgoing : ¬ (Act.readContext false).Final := Bool.false_ne_true
  induction hcourse with
  | cancelled remaining => exact List.pairwise_singleton _ _
  | accepted remaining _ => simp [hgoing]
  | refused remaining _ => simp [hgoing]
  | exhausted _ => simp [hgoing]
  | cancelledWaiting remaining hretried => simp [hgoing, hretried.not_final]
  | again hretried _ ih => simp [hgoing, hretried.not_final, ih]

/-- Nothing but retryable replies and no cancellation use up all attempts. -/
theorem Course.length_requests_eq (hcourse : Course remaining acts success)
    (hcontext : .readContext true ∉ acts) (hretried : ∀ reply ∈ requests acts, reply.Retried) :
    (requests acts).length = remaining + 1 := by
  induction hcourse with
  | cancelled remaining => exact absurd List.mem_cons_self hcontext
  | accepted remaining haccepted =>
      exact absurd (hretried _ List.mem_cons_self) haccepted.not_retried
  | refused remaining hrefused =>
      exact absurd (hretried _ List.mem_cons_self) hrefused.not_retried
  | exhausted _ => rfl
  | cancelledWaiting remaining _ => exact absurd (by simp) hcontext
  | again _ _ ih =>
      simp only [List.mem_cons, reduceCtorEq, Act.readContext.injEq, Bool.true_eq_false,
        false_or] at hcontext
      exact congrArg Nat.succ (ih hcontext
        (fun reply hreply => hretried reply (List.mem_cons_of_mem _ hreply)))

end Course

/-- A push sends at most five requests. It succeeds exactly when one of them is
answered by 204. None follows such an answer, an answer that refuses the
request, or a context found cancelled. Where the payload can be sent at all and
nothing but retryable replies come, it takes all five. -/
theorem push_conversation (spoke : Spoke) (exchange : Exchange) (payload : SpokePayload)
    (failures : Nat) :
    (requests (spoke.record exchange payload failures).2).length ≤ 5 ∧
      ((spoke.push exchange payload failures).1 = .ok () ↔
        ∃ reply ∈ requests (spoke.record exchange payload failures).2, reply.Accepted) ∧
      (spoke.record exchange payload failures).2.Pairwise
        (fun earlier later => earlier.Final → later.reply? = none) ∧
      ((∃ body, spoke.encode payload = .ok body) →
        .readContext true ∉ (spoke.record exchange payload failures).2 →
        (∀ reply ∈ requests (spoke.record exchange payload failures).2, reply.Retried) →
        (requests (spoke.record exchange payload failures).2).length = 5) := by
  rw [← record_fst]
  unfold Spoke.record
  cases spoke.encode payload with
  | error error => simp [requests]
  | ok body =>
      have hcourse := course_recordFrom spoke exchange failures (maxAttempts - 1) 1
      refine ⟨hcourse.length_requests_le, ?_, hcourse.pairwise, ?_⟩
      · rw [← hcourse.success_iff]
        cases (recordFrom spoke exchange failures (maxAttempts - 1) 1).1.1 with
        | error error => simp [Except.isOk, Except.toBool]
        | ok _ => simp [Except.isOk, Except.toBool]
      · exact fun _ => hcourse.length_requests_eq

/-- A hub that is always busy is asked five times. -/
theorem busy_hub_asked_five_times :
    (requests (Spoke.record ⟨fun _ => .ok [], true⟩
        ⟨fun _ => .answer 429 [], fun _ => false, fun _ => false, false⟩
        ⟨[], Time.zero, [], [], []⟩ 0).2).length = 5 := by
  refine (push_conversation _ _ _ _).2.2.2 ⟨[], rfl⟩ (by decide) ?_
  intro reply hreply
  have hbusy : reply = .answer 429 [] := by
    revert reply
    decide
  rw [hbusy]
  exact ⟨by decide, Or.inr (Or.inr rfl)⟩

end TopologyExporter.Federation
