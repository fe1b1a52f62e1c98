import TopologyExporter.Federation.Spoke
import TopologyExporter.Foundation.Transition

/-! # The spoke pusher

Payloads reach the hub through a mailbox with one slot. The discovery loop puts
the payload of a cycle in and takes out an older one that is still there; the
pusher takes payloads out and pushes them one at a time. Each operation on the
mailbox is a step of its own, and the steps of the two interleave freely.
-/

namespace TopologyExporter.App

open Go Federation Transition

namespace Pusher

/-- How far a call of Enqueue is: the slot was found taken, or it was emptied. -/
inductive Producer (Payload : Type) where
  | idle
  | full (payload : Payload)
  | drained (payload : Payload)
deriving DecidableEq

inductive Consumer where
  | selecting
  | pushing
  | draining
  | stopped
deriving DecidableEq

/-- The mailbox and its two users. What was enqueued and pushed so far is
recorded in order. -/
structure SpokePusher (Payload : Type) where
  mailbox : Option Payload
  producer : Producer Payload
  consumer : Consumer
  cancelled : Bool
  superseded : Nat
  enqueued : List Payload
  pushed : List Payload
deriving DecidableEq

variable {Payload : Type}

def newSpokePusher : SpokePusher Payload := ⟨none, .idle, .selecting, false, 0, [], []⟩

namespace SpokePusher

/-- The first attempt to fill the slot. -/
def enqueue (pusher : SpokePusher Payload) (payload : Payload) : Option (SpokePusher Payload) :=
  match pusher.producer, pusher.mailbox with
  | .idle, none =>
      some { pusher with mailbox := some payload, enqueued := pusher.enqueued ++ [payload] }
  | .idle, some _ =>
      some { pusher with producer := .full payload, enqueued := pusher.enqueued ++ [payload] }
  | _, _ => none

/-- Takes out what is in the slot, unless the pusher was faster. -/
def dropOlder (pusher : SpokePusher Payload) : Option (SpokePusher Payload) :=
  match pusher.producer, pusher.mailbox with
  | .full payload, some _ =>
      some { pusher with
        mailbox := none, producer := .drained payload, superseded := pusher.superseded + 1 }
  | .full payload, none => some { pusher with producer := .drained payload }
  | _, _ => none

/-- The second attempt to fill the slot. A payload that does not fit is
discarded without notice. -/
def insertAgain (pusher : SpokePusher Payload) : Option (SpokePusher Payload) :=
  match pusher.producer, pusher.mailbox with
  | .drained payload, none => some { pusher with mailbox := some payload, producer := .idle }
  | .drained _, some _ => some { pusher with producer := .idle }
  | _, _ => none

/-- The pusher takes the payload and passes it to push. -/
def receive (pusher : SpokePusher Payload) : Option (SpokePusher Payload) :=
  match pusher.consumer, pusher.mailbox with
  | .selecting, some payload =>
      some { pusher with
        mailbox := none, consumer := .pushing, pushed := pusher.pushed ++ [payload] }
  | _, _ => none

/-- The last payload, if any, is pushed after the context was cancelled. -/
def drainOnce (pusher : SpokePusher Payload) : Option (SpokePusher Payload) :=
  if pusher.cancelled then
    match pusher.consumer, pusher.mailbox with
    | .selecting, some payload =>
        some { pusher with
          mailbox := none, consumer := .draining, pushed := pusher.pushed ++ [payload] }
    | .selecting, none => some { pusher with consumer := .stopped }
    | _, _ => none
  else none

/-- A panic of push ends the pusher; otherwise it goes on, unless this was the
last push. -/
def pushEnded (pusher : SpokePusher Payload) (panicked : Bool) : Option (SpokePusher Payload) :=
  match pusher.consumer with
  | .pushing =>
      some { pusher with consumer := if panicked then .stopped else .selecting }
  | .draining => some { pusher with consumer := .stopped }
  | _ => none

end SpokePusher

inductive Action (Payload : Type) where
  | enqueue (payload : Payload)
  | dropOlder
  | insertAgain
  | receive
  | drainOnce
  | pushEnded (panicked : Bool)
  | cancel
deriving DecidableEq

def step (action : Action Payload) (pusher : SpokePusher Payload) : Option (SpokePusher Payload) :=
  match action with
  | .enqueue payload => pusher.enqueue payload
  | .dropOlder => pusher.dropOlder
  | .insertAgain => pusher.insertAgain
  | .receive => pusher.receive
  | .drainOnce => pusher.drainOnce
  | .pushEnded panicked => pusher.pushEnded panicked
  | .cancel => some { pusher with cancelled := true }

/-! ## What becomes of a payload -/

inductive Fate where
  | pushed
  | superseded
deriving DecidableEq

/-- The payload of a call of Enqueue that has not returned. -/
def Producer.underway : Producer Payload → Option Payload
  | .idle => none
  | .full payload => some payload
  | .drained payload => some payload

/-- The enqueued payloads are, in order, those that met their fate, the one in
the mailbox and the one on its way there. A superseded one is not the last. -/
structure Accounted (pusher : SpokePusher Payload) (settled : List (Payload × Fate)) : Prop where
  enqueued : pusher.enqueued =
    settled.map Prod.fst ++ pusher.mailbox.toList ++ pusher.producer.underway.toList
  pushed : pusher.pushed = (settled.filter (fun item => item.2 = .pushed)).map Prod.fst
  superseded : pusher.superseded = (settled.filter (fun item => item.2 = .superseded)).length
  later : ∀ index payload, settled[index]? = some (payload, .superseded) →
    index + 1 < pusher.enqueued.length

/-- Once the slot was emptied only the producer can fill it. -/
def Emptied (pusher : SpokePusher Payload) : Prop :=
  ∀ payload, pusher.producer = .drained payload → pusher.mailbox = none

def Consistent (pusher : SpokePusher Payload) : Prop :=
  (∃ settled, Accounted pusher settled) ∧ Emptied pusher

section Step

variable {pusher next : SpokePusher Payload} {settled : List (Payload × Fate)}

theorem consistent_newSpokePusher : Consistent (newSpokePusher : SpokePusher Payload) :=
  ⟨⟨[], rfl, rfl, rfl, by simp⟩, fun _ _ => rfl⟩

variable {payload : Payload}

theorem Consistent.enqueue (hconsistent : Consistent pusher)
    (hstep : pusher.enqueue payload = some next) : Consistent next := by
  obtain ⟨⟨settled, haccounted⟩, -⟩ := hconsistent
  have hlonger : ∀ index item, settled[index]? = some (item, Fate.superseded) →
      index + 1 < (pusher.enqueued ++ [payload]).length := by
    intro index item hitem
    have hlater := haccounted.later index item hitem
    rw [List.length_append]
    omega
  unfold SpokePusher.enqueue at hstep
  split at hstep
  next hidle hempty =>
      cases hstep
      refine ⟨⟨settled, ?_, haccounted.pushed, haccounted.superseded, hlonger⟩, ?_⟩
      · simp [haccounted.enqueued, hidle, hempty, Producer.underway]
      · intro held hdrained
        rw [hidle] at hdrained
        cases hdrained
  next older hidle hfull =>
      cases hstep
      refine ⟨⟨settled, ?_, haccounted.pushed, haccounted.superseded, hlonger⟩, ?_⟩
      · simp [haccounted.enqueued, hidle, hfull, Producer.underway]
      · intro held hdrained
        cases hdrained
  · cases hstep

/-- The payload in the slot meets its fate. -/
theorem Accounted.settle (haccounted : Accounted pusher settled)
    (hmailbox : pusher.mailbox = some payload) (fate : Fate)
    (hlater : fate = .superseded → pusher.producer.underway ≠ none) :
    pusher.enqueued = (settled ++ [(payload, fate)]).map Prod.fst ++
        pusher.producer.underway.toList ∧
      ∀ index item, (settled ++ [(payload, fate)])[index]? = some (item, .superseded) →
        index + 1 < pusher.enqueued.length := by
  have henqueued := haccounted.enqueued
  rw [hmailbox] at henqueued
  refine ⟨by simp [henqueued], ?_⟩
  intro index item hitem
  rw [List.getElem?_append] at hitem
  split_ifs at hitem with hold
  · exact haccounted.later index item hitem
  · -- this is the payload that was in the slot
    have hindex : index = settled.length := by
      have hbound := (List.getElem?_eq_some_iff.mp hitem).1
      rw [List.length_singleton] at hbound
      omega
    rw [hindex, Nat.sub_self] at hitem
    cases hitem
    obtain ⟨underway, hunderway⟩ := Option.ne_none_iff_exists'.mp (hlater rfl)
    rw [henqueued, hindex, hunderway]
    simp

theorem Consistent.dropOlder (hconsistent : Consistent pusher)
    (hstep : pusher.dropOlder = some next) : Consistent next := by
  obtain ⟨⟨settled, haccounted⟩, -⟩ := hconsistent
  unfold SpokePusher.dropOlder at hstep
  split at hstep
  next payload older hfull hmailbox =>
      cases hstep
      have hunderway : pusher.producer.underway = some payload := by
        rw [hfull]
        rfl
      obtain ⟨henqueued, hlater⟩ :=
        haccounted.settle hmailbox .superseded (by simp [hunderway])
      rw [hunderway] at henqueued
      refine ⟨⟨settled ++ [(older, .superseded)], ?_, ?_, ?_, hlater⟩, fun _ _ => rfl⟩
      · simpa [Producer.underway] using henqueued
      · simpa using haccounted.pushed
      · simp [haccounted.superseded]
  next payload hfull hmailbox =>
      cases hstep
      refine ⟨⟨settled, ?_, haccounted.pushed, haccounted.superseded, haccounted.later⟩,
        fun _ _ => hmailbox⟩
      simpa [hfull, Producer.underway] using haccounted.enqueued
  · cases hstep

theorem Consistent.insertAgain (hconsistent : Consistent pusher)
    (hstep : pusher.insertAgain = some next) : Consistent next := by
  obtain ⟨⟨settled, haccounted⟩, hemptied⟩ := hconsistent
  unfold SpokePusher.insertAgain at hstep
  split at hstep
  next payload hdrained hmailbox =>
      cases hstep
      refine ⟨⟨settled, ?_, haccounted.pushed, haccounted.superseded, haccounted.later⟩, ?_⟩
      · simpa [hdrained, hmailbox, Producer.underway] using haccounted.enqueued
      · intro held hheld
        cases hheld
  next payload older hdrained hmailbox =>
      -- nobody else fills the slot, so nothing is discarded
      rw [hemptied payload hdrained] at hmailbox
      cases hmailbox
  · cases hstep

/-- The payload in the slot is passed to push. -/
theorem Consistent.take (hconsistent : Consistent pusher) (hmailbox : pusher.mailbox = some payload)
    (consumer : Consumer) :
    Consistent { pusher with
      mailbox := none, consumer := consumer, pushed := pusher.pushed ++ [payload] } := by
  obtain ⟨⟨settled, haccounted⟩, -⟩ := hconsistent
  obtain ⟨henqueued, hlater⟩ := haccounted.settle hmailbox .pushed (fun heq => by cases heq)
  refine ⟨⟨settled ++ [(payload, .pushed)], ?_, ?_, ?_, hlater⟩, fun _ _ => rfl⟩
  · simpa using henqueued
  · simp [haccounted.pushed]
  · simpa using haccounted.superseded

/-- The consumer and the context are not part of the accounts. -/
theorem Consistent.frame (hconsistent : Consistent pusher) (consumer : Consumer)
    (cancelled : Bool) :
    Consistent { pusher with consumer := consumer, cancelled := cancelled } := by
  obtain ⟨⟨settled, haccounted⟩, hemptied⟩ := hconsistent
  exact ⟨⟨settled, haccounted.enqueued, haccounted.pushed, haccounted.superseded,
    haccounted.later⟩, hemptied⟩

theorem Consistent.step {action : Action Payload} (hconsistent : Consistent pusher)
    (hstep : step action pusher = some next) : Consistent next := by
  cases action with
  | enqueue payload => exact hconsistent.enqueue hstep
  | dropOlder => exact hconsistent.dropOlder hstep
  | insertAgain => exact hconsistent.insertAgain hstep
  | receive =>
      simp only [Pusher.step, SpokePusher.receive] at hstep
      split at hstep
      next payload _ hmailbox =>
          cases hstep
          exact hconsistent.take hmailbox .pushing
      · cases hstep
  | drainOnce =>
      simp only [Pusher.step, SpokePusher.drainOnce] at hstep
      split at hstep
      · split at hstep
        next payload _ hmailbox =>
            cases hstep
            exact hconsistent.take hmailbox .draining
        next =>
            cases hstep
            exact hconsistent.frame .stopped pusher.cancelled
        · cases hstep
      · cases hstep
  | pushEnded panicked =>
      simp only [Pusher.step, SpokePusher.pushEnded] at hstep
      split at hstep
      · cases hstep
        exact hconsistent.frame _ pusher.cancelled
      · cases hstep
        exact hconsistent.frame .stopped pusher.cancelled
      · cases hstep
  | cancel =>
      cases hstep
      exact hconsistent.frame pusher.consumer true

theorem Accounted.pushed_sublist (haccounted : Accounted pusher settled) :
    pusher.pushed.Sublist pusher.enqueued := by
  rw [haccounted.pushed, haccounted.enqueued, List.append_assoc]
  exact (List.filter_sublist.map Prod.fst).trans (List.sublist_append_left _ _)

/-- Between two calls of Enqueue the latest payload is in the mailbox, or it is
the last one that was pushed. -/
theorem Accounted.latest (haccounted : Accounted pusher settled)
    (hidle : pusher.producer = .idle) {latest : Payload}
    (hlatest : pusher.enqueued.getLast? = some latest) :
    pusher.mailbox = some latest ∨ pusher.pushed.getLast? = some latest := by
  have henqueued := haccounted.enqueued
  simp only [hidle, Producer.underway, Option.toList_none, List.append_nil] at henqueued
  cases hmailbox : pusher.mailbox with
  | some payload =>
      rw [henqueued, hmailbox] at hlatest
      exact Or.inl (by simpa using hlatest)
  | none =>
      apply Or.inr
      rw [hmailbox, Option.toList_none, List.append_nil] at henqueued
      induction settled using List.reverseRecOn with
      | nil => simp [henqueued] at hlatest
      | append_singleton front item _ =>
          obtain ⟨payload, fate⟩ := item
          have hsame : payload = latest := by simpa [henqueued] using hlatest
          cases fate with
          | pushed => simp [haccounted.pushed, hsame]
          | superseded =>
              have hlater := haccounted.later front.length payload (by simp)
              rw [henqueued] at hlater
              simp at hlater

end Step

/-- Whatever the interleaving and whenever the context is cancelled: the pushed
payloads are some of the enqueued ones in their order, every enqueued payload is
pushed, counted as superseded by a later one, or still on its way, and the latest
one is not lost. -/
theorem mailbox_accounts_for_payloads {actions : List (Action Payload)}
    {pusher : SpokePusher Payload}
    (hrun : run step actions newSpokePusher = some pusher) :
    pusher.pushed.Sublist pusher.enqueued ∧ (∃ settled, Accounted pusher settled) ∧
      ∀ latest, pusher.producer = .idle → pusher.enqueued.getLast? = some latest →
        pusher.mailbox = some latest ∨ pusher.pushed.getLast? = some latest := by
  have hconsistent : Consistent pusher :=
    run_invariant (fun _ _ _ hconsistent hstep => hconsistent.step hstep)
      consistent_newSpokePusher hrun
  obtain ⟨⟨settled, haccounted⟩, -⟩ := hconsistent
  exact ⟨haccounted.pushed_sublist, ⟨settled, haccounted⟩,
    fun latest hidle hlatest => haccounted.latest hidle hlatest⟩

/-- The second payload supersedes the first, the pusher empties the slot while the
third is being enqueued, and the context is cancelled during its push. -/
def busyCycles : List (Action Nat) :=
  [.enqueue 1, .enqueue 2, .dropOlder, .insertAgain, .enqueue 3, .receive, .dropOlder, .cancel,
    .insertAgain, .pushEnded false, .drainOnce, .pushEnded false]

theorem busyCycles_accounted : ∃ pusher, run step busyCycles newSpokePusher = some pusher ∧
    pusher.enqueued = [1, 2, 3] ∧ pusher.pushed = [2, 3] ∧ pusher.superseded = 1 ∧
    ∃ settled, Accounted pusher settled := by
  obtain ⟨pusher, hrun, hcounts⟩ := Option.map_eq_some_iff.mp
    (show (run step busyCycles newSpokePusher).map
      (fun pusher => (pusher.enqueued, pusher.pushed, pusher.superseded)) =
        some ([1, 2, 3], [2, 3], 1) by decide)
  rw [Prod.mk.injEq, Prod.mk.injEq] at hcounts
  exact ⟨pusher, hrun, hcounts.1, hcounts.2.1, hcounts.2.2,
    (mailbox_accounts_for_payloads hrun).2.1⟩

/-! ## Counting failures -/

structure PushMetrics where
  failuresTotal : Nat
  lastSuccessUnix : Int
deriving DecidableEq

/-- Pushes one payload that was taken out of the mailbox. -/
def doPush (spoke : Spoke) (exchange : Exchange) (payload : SpokePayload) (now : Time)
    (metrics : PushMetrics) : PushMetrics :=
  match spoke.push exchange payload metrics.failuresTotal with
  | (.ok (), failures) => ⟨failures, now.unix⟩
  | (.error _, failures) =>
      { metrics with failuresTotal := if exchange.cancelledAfter then failures else failures + 1 }

/-- A push that fails adds one failure, one that succeeds none. -/
def CountedOnce (spoke : Spoke) (exchange : Exchange) (payload : SpokePayload) (now : Time)
    (metrics : PushMetrics) : Prop :=
  (doPush spoke exchange payload now metrics).failuresTotal =
    if (spoke.push exchange payload metrics.failuresTotal).1 = .ok () then metrics.failuresTotal
    else metrics.failuresTotal + 1

theorem doPush_failuresTotal {spoke : Spoke} {exchange : Exchange} {payload : SpokePayload}
    {now : Time} {metrics : PushMetrics} (hcontext : exchange.Uncancelled) :
    (doPush spoke exchange payload now metrics).failuresTotal =
      if (spoke.push exchange payload metrics.failuresTotal).1 = .ok () then
        (spoke.push exchange payload metrics.failuresTotal).2
      else (spoke.push exchange payload metrics.failuresTotal).2 + 1 := by
  rw [doPush]
  split
  next failures hpush => simp [hpush]
  next error failures hpush => simp [hpush, hcontext.after]

/-- Without a cancelled context a push is counted once exactly if the payload
cannot be encoded, the hub accepts it, or the spoke does not count. Otherwise the
spoke and the pusher both count the failure. -/
theorem push_counted_once_iff {spoke : Spoke} {exchange : Exchange} {payload : SpokePayload}
    {now : Time} {metrics : PushMetrics} (hcontext : exchange.Uncancelled) :
    CountedOnce spoke exchange payload now metrics ↔
      (∃ error, spoke.encode payload = .error error) ∨
        AcceptedWithin exchange 1 (maxAttempts - 1) ∨ spoke.hasMetrics = false := by
  rw [CountedOnce, doPush_failuresTotal hcontext]
  cases hencode : spoke.encode payload with
  | error error => simp [Spoke.push, hencode]
  | ok body =>
      rw [push_of_encode hencode, attemptFrom_failures hcontext,
        ← @attemptFrom_eq_ok spoke exchange metrics.failuresTotal hcontext]
      by_cases haccepted :
          (attemptFrom spoke exchange metrics.failuresTotal (maxAttempts - 1) 1).1 = .ok ()
      · simp [haccepted]
      · by_cases hmetrics : spoke.hasMetrics
        · simp [haccepted, hmetrics, Spoke.countFailure]
        · simp [haccepted, hmetrics, Spoke.countFailure]

/-- A spoke with metrics, and a hub that answers as given and then accepts. -/
def countingSpoke : Spoke := ⟨fun _ => .ok [], true⟩

def hubAnswers (statuses : List Nat) : Exchange where
  reply attempt := .answer (statuses.getD (attempt - 1) statusNoContent) []
  cancelledBefore _ := false
  cancelledWaiting _ := false
  cancelledAfter := false

theorem uncancelled_hubAnswers (statuses : List Nat) : (hubAnswers statuses).Uncancelled :=
  ⟨fun _ => rfl, fun _ => rfl, rfl⟩

def smallPayload : SpokePayload := ⟨str "spoke-a", Time.zero, [], [], []⟩

/-- Overloaded twice, then accepted. -/
theorem overloaded_hub_counted_once :
    (hubAnswers [503, 429]).Uncancelled ∧
      CountedOnce countingSpoke (hubAnswers [503, 429]) smallPayload Time.zero ⟨0, 0⟩ := by
  refine ⟨uncancelled_hubAnswers _, ?_⟩
  apply (push_counted_once_iff (uncancelled_hubAnswers _)).mpr
  refine Or.inr (Or.inl ⟨2, by decide, rfl, ?_⟩)
  intro earlier hearlier
  interval_cases earlier
  · exact ⟨by decide, by decide⟩
  · exact ⟨by decide, by decide⟩

/-- A rejected payload adds two failures for one push. -/
theorem rejected_push_counted_twice :
    (hubAnswers [400]).Uncancelled ∧
      (countingSpoke.push (hubAnswers [400]) smallPayload 0).1 =
        .error (.fatal (.hub 400 [])) ∧
      (doPush countingSpoke (hubAnswers [400]) smallPayload Time.zero
        ⟨0, 0⟩).failuresTotal = 2 := by
  exact ⟨uncancelled_hubAnswers _, by decide, by decide⟩

end Pusher

end TopologyExporter.App
