import TopologyExporter.GoLib.Channel
import TopologyExporter.Snapshot.Writing

/-! # The snapshot writers

The discovery loop and the hub each have a goroutine that takes snapshots off a
queue and starts a goroutine of its own for each write, so that a write that
stalls does not hold up the queue. The writer waits for the write's channel or a
timeout. While a write that timed out has not reported, the next snapshots are
dropped.

The two writers share their states and most of their steps. A write of the
discovery loop sends its result, and sends nothing when it panics; a write of the
hub closes its channel however it ends.
-/

namespace TopologyExporter.Snapshot

open Go Transition

inductive Status where
  | running
  | finished
  | panicked
deriving DecidableEq

/-- A write, and the channel it reports on. -/
structure Goroutine (Item Signal : Type) where
  item : Item
  status : Status
  done : Chan Signal
deriving DecidableEq

inductive WriterPhase where
  | receiving
  | waiting
  | stopping
  | returned
deriving DecidableEq

/-- The writes are listed in the order they were started; `writeDone` refers to
the channel of one of them. Dropped snapshots are counted by their reason. -/
structure Writer (Item Signal : Type) where
  queue : Chan Item
  goroutines : List (Goroutine Item Signal)
  writeDone : Option Nat
  phase : WriterPhase
  cancelled : Bool
  queueFull : Nat
  writeInFlight : Nat
deriving DecidableEq

inductive WriterAction (Item : Type) where
  | enqueue (item : Item)
  | shutDown
  | receive
  | collect
  | timeout
  | stop
  | finish (index : Nat) (result : Except WriteError Unit)
  | panic (index : Nat)
deriving DecidableEq

variable {Item Signal : Type}

def newWriter : Writer Item Signal := ⟨Chan.make 1, [], none, .receiving, false, 0, 0⟩

namespace Writer

/-! ## Steps -/

def enqueue (item : Item) (writer : Writer Item Signal) : Option (Writer Item Signal) :=
  if writer.queue.closed then none
  else
    match writer.queue.trySend item with
    | some queue => some { writer with queue := queue }
    | none => some { writer with queueFull := writer.queueFull + 1 }

/-- Receives from `writeDone` without waiting. -/
def poll (writer : Writer Item Signal) : Option (Writer Item Signal) :=
  match writer.writeDone with
  | none => none
  | some index =>
      match writer.goroutines[index]? with
      | none => none
      | some goroutine =>
          goroutine.done.tryReceive.map fun received =>
            { writer with
              goroutines := writer.goroutines.set index { goroutine with done := received.2 } }

def start (item : Item) (writer : Writer Item Signal) : Writer Item Signal :=
  { writer with
    goroutines := writer.goroutines ++ [⟨item, .running, Chan.make 1⟩]
    writeDone := some writer.goroutines.length
    phase := .waiting }

def withQueue (queue : Chan Item) (writer : Writer Item Signal) : Writer Item Signal :=
  { writer with queue := queue }

/-- What becomes of a snapshot that was taken off the queue. -/
def deliver (item : Item) (writer : Writer Item Signal) : Writer Item Signal :=
  match writer.writeDone, writer.poll with
  | none, _ => writer.start item
  | some _, some collected => collected.start item
  | some _, none => { writer with writeInFlight := writer.writeInFlight + 1 }

/-- The end of a write that is running, given the state of its channel then. -/
def endWrite (index : Nat) (status : Status) (report : Chan Signal → Option (Chan Signal))
    (writer : Writer Item Signal) : Option (Writer Item Signal) :=
  match writer.goroutines[index]? with
  | none => none
  | some goroutine =>
      if goroutine.status = .running then
        (report goroutine.done).map fun done =>
          { writer with
            goroutines := writer.goroutines.set index ⟨goroutine.item, status, done⟩ }
      else none

end Writer

/-- The writer of the discovery loop. It ends when its queue is closed and empty,
and forgets the channel of a write that reported in time. -/
def loopStep (action : WriterAction Item) (writer : Writer Item (Except WriteError Unit)) :
    Option (Writer Item (Except WriteError Unit)) :=
  match action, writer.phase with
  | .enqueue item, _ => writer.enqueue item
  | .shutDown, _ => some { writer with queue := writer.queue.close }
  | .receive, .receiving =>
      match writer.queue.tryReceive with
      | none => none
      | some (some item, queue) => some ((writer.withQueue queue).deliver item)
      | some (none, _) => some { writer with phase := .returned }
  | .collect, .waiting =>
      writer.poll.map fun collected => { collected with writeDone := none, phase := .receiving }
  | .timeout, .waiting => some { writer with phase := .receiving }
  | .finish index result, _ => writer.endWrite index .finished (fun done => done.trySend result)
  | .panic index, _ => writer.endWrite index .panicked some
  | _, _ => none

/-- The writer of the hub. It ends when its context does, after one more wait for
a write in flight. -/
def hubStep (action : WriterAction Item) (writer : Writer Item Unit) :
    Option (Writer Item Unit) :=
  match action, writer.phase with
  | .enqueue item, _ => writer.enqueue item
  | .shutDown, _ => some { writer with cancelled := true }
  | .receive, .receiving =>
      match writer.queue.tryReceive with
      | some (some item, queue) => some ((writer.withQueue queue).deliver item)
      | _ => none
  | .collect, .waiting => writer.poll.map fun collected => { collected with phase := .receiving }
  | .timeout, .waiting => some { writer with phase := .receiving }
  | .stop, .receiving => if writer.cancelled then some { writer with phase := .returned } else none
  | .stop, .waiting => if writer.cancelled then some { writer with phase := .stopping } else none
  | .collect, .stopping => writer.poll.map fun collected => { collected with phase := .returned }
  | .timeout, .stopping => some { writer with phase := .returned }
  | .finish index _, _ => writer.endWrite index .finished (fun done => some done.close)
  | .panic index, _ => writer.endWrite index .panicked (fun done => some done.close)
  | _, _ => none

namespace Writer

/-! ## The write that is watched -/

/-- A write whose status is mute is the one that `writeDone` refers to, and its
channel blocks; the channel that `writeDone` refers to only blocks for such a
write. -/
structure Watched (mute : Status → Prop) (writer : Writer Item Signal) : Prop where
  of_mute : ∀ index goroutine, writer.goroutines[index]? = some goroutine →
    mute goroutine.status → writer.writeDone = some index ∧ goroutine.done.Blocks
  of_writeDone : ∀ index, writer.writeDone = some index →
    ∃ goroutine, writer.goroutines[index]? = some goroutine ∧
      (goroutine.done.Blocks → mute goroutine.status)

/-- No write is mute. -/
def Quiet (mute : Status → Prop) (writer : Writer Item Signal) : Prop :=
  ∀ (index : Nat) (goroutine : Goroutine Item Signal),
    writer.goroutines[index]? = some goroutine → ¬ mute goroutine.status

variable {mute : Status → Prop} {writer collected next : Writer Item Signal}

/-- Only the queue and the writer's own progress differ. -/
structure SameWrites (writer next : Writer Item Signal) : Prop where
  goroutines : next.goroutines = writer.goroutines
  writeDone : next.writeDone = writer.writeDone
  writeInFlight : next.writeInFlight = writer.writeInFlight

theorem SameWrites.watched (hsame : SameWrites writer next) (hwatched : Watched mute writer) :
    Watched mute next := by
  obtain ⟨hgoroutines, hwriteDone, -⟩ := hsame
  constructor
  · rw [hgoroutines, hwriteDone]
    exact hwatched.of_mute
  · rw [hgoroutines, hwriteDone]
    exact hwatched.of_writeDone

theorem Watched.withQueue (hwatched : Watched mute writer) (queue : Chan Item) :
    Watched mute (writer.withQueue queue) := by
  have hsame : SameWrites writer (writer.withQueue queue) := ⟨rfl, rfl, rfl⟩
  exact hsame.watched hwatched

theorem sameWrites_enqueue {item : Item} (henqueue : writer.enqueue item = some next) :
    SameWrites writer next := by
  unfold enqueue at henqueue
  split_ifs at henqueue
  split at henqueue
  · cases henqueue
    exact ⟨rfl, rfl, rfl⟩
  · cases henqueue
    exact ⟨rfl, rfl, rfl⟩

theorem poll_cases (hpoll : writer.poll = some collected) :
    ∃ index goroutine value done, writer.writeDone = some index ∧
      writer.goroutines[index]? = some goroutine ∧
      goroutine.done.tryReceive = some (value, done) ∧
      collected = { writer with
        goroutines := writer.goroutines.set index { goroutine with done := done } } := by
  unfold poll at hpoll
  split at hpoll
  · cases hpoll
  · next index hdone =>
      split at hpoll
      · cases hpoll
      · next goroutine hgoroutine =>
          obtain ⟨⟨value, done⟩, hreceive, heq⟩ := Option.map_eq_some_iff.mp hpoll
          exact ⟨index, goroutine, value, done, hdone, hgoroutine, hreceive, heq.symm⟩

/-- Nothing is mute once the channel gave something. -/
theorem Watched.quiet_of_poll (hwatched : Watched mute writer)
    (hpoll : writer.poll = some collected) : Quiet mute collected := by
  obtain ⟨watched, goroutine, value, done, hdone, hgoroutine, hreceive, rfl⟩ := poll_cases hpoll
  have hready : ¬ goroutine.done.Blocks := by simp [Chan.Blocks, hreceive]
  intro index found hfound hmute
  rw [List.getElem?_set] at hfound
  split_ifs at hfound with hindex hlength
  · cases hfound
    exact hready (hwatched.of_mute watched goroutine hgoroutine hmute).2
  · have hother := (hwatched.of_mute index found hfound hmute).1
    rw [hdone, Option.some.injEq] at hother
    exact hindex hother

theorem Watched.quiet_of_writeDone (hwatched : Watched mute writer)
    (hdone : writer.writeDone = none) : Quiet mute writer := by
  intro index goroutine hgoroutine hmute
  have hwatch := (hwatched.of_mute index goroutine hgoroutine hmute).1
  rw [hdone] at hwatch
  cases hwatch

theorem Quiet.start (hquiet : Quiet mute writer) (hrunning : mute .running) (item : Item) :
    Watched mute (writer.start item) where
  of_mute := by
    intro index goroutine hgoroutine hmute
    simp only [Writer.start, List.getElem?_append, List.getElem?_singleton] at hgoroutine ⊢
    split_ifs at hgoroutine with hold hnew
    · exact absurd hmute (hquiet index goroutine hgoroutine)
    · cases hgoroutine
      exact ⟨congrArg some (by omega), Chan.blocks_make 1⟩
  of_writeDone := by
    intro index hdone
    cases hdone
    exact ⟨⟨item, .running, Chan.make 1⟩, by simp [Writer.start], fun _ => hrunning⟩

theorem Watched.deliver (hwatched : Watched mute writer) (hrunning : mute .running)
    (item : Item) : Watched mute (writer.deliver item) := by
  unfold Writer.deliver
  split
  · next hdone => exact (hwatched.quiet_of_writeDone hdone).start hrunning item
  · next collected hdone hpoll => exact (hwatched.quiet_of_poll hpoll).start hrunning item
  · exact SameWrites.watched ⟨rfl, rfl, rfl⟩ ⟨hwatched.of_mute, hwatched.of_writeDone⟩

variable {index : Nat} {report : Chan Signal → Option (Chan Signal)}

/-- A watched write goes on being mute as long as its channel blocks. -/
theorem Watched.set {before after : Goroutine Item Signal} (hwatched : Watched mute writer)
    (hbefore : writer.goroutines[index]? = some before) (hmute : mute before.status)
    (hafter : after.done.Blocks ↔ mute after.status) :
    Watched mute { writer with goroutines := writer.goroutines.set index after } where
  of_mute := by
    intro other goroutine hgoroutine hothers
    have hindex := (hwatched.of_mute index before hbefore hmute).1
    rw [List.getElem?_set] at hgoroutine
    split_ifs at hgoroutine with hsame hlength
    · cases hgoroutine
      exact ⟨hsame ▸ hindex, hafter.mpr hothers⟩
    · exact hwatched.of_mute other goroutine hgoroutine hothers
  of_writeDone := by
    intro other hdone
    have hindex := (hwatched.of_mute index before hbefore hmute).1
    rw [hindex, Option.some.injEq] at hdone
    subst hdone
    have hlength : index < writer.goroutines.length := (List.getElem?_eq_some_iff.mp hbefore).1
    exact ⟨after, by simp [hlength], hafter.mp⟩

theorem endWrite_cases {status : Status} (hend : writer.endWrite index status report = some next) :
    ∃ goroutine done, writer.goroutines[index]? = some goroutine ∧
      goroutine.status = .running ∧ report goroutine.done = some done ∧
      next = { writer with
        goroutines := writer.goroutines.set index ⟨goroutine.item, status, done⟩ } := by
  unfold endWrite at hend
  split at hend
  · cases hend
  · next goroutine hgoroutine =>
      split_ifs at hend with hrunning
      obtain ⟨done, hdone, heq⟩ := Option.map_eq_some_iff.mp hend
      exact ⟨goroutine, done, hgoroutine, hrunning, hdone, heq.symm⟩

theorem Watched.endWrite {status : Status} (hwatched : Watched mute writer)
    (hrunning : mute .running)
    (hreport : ∀ before after, before.Blocks → report before = some after →
      (after.Blocks ↔ mute status)) (hend : writer.endWrite index status report = some next) :
    Watched mute next := by
  obtain ⟨goroutine, done, hgoroutine, hstatus, hdone, rfl⟩ := endWrite_cases hend
  have hmute : mute goroutine.status := hstatus ▸ hrunning
  have hblocks := (hwatched.of_mute index goroutine hgoroutine hmute).2
  exact hwatched.set hgoroutine hmute (hreport _ _ hblocks hdone)

/-- The channel that blocks is that of a mute write. -/
theorem Watched.exists_mute (hwatched : Watched mute writer) (hdone : writer.writeDone = some index)
    (hpoll : writer.poll = none) :
    ∃ goroutine, writer.goroutines[index]? = some goroutine ∧ mute goroutine.status := by
  obtain ⟨goroutine, hgoroutine, hmute⟩ := hwatched.of_writeDone index hdone
  refine ⟨goroutine, hgoroutine, hmute ?_⟩
  simpa [poll, hdone, hgoroutine, Chan.Blocks] using hpoll

/-- Nothing is received while a write is mute. -/
theorem Watched.poll_eq_none (hwatched : Watched mute writer) {goroutine : Goroutine Item Signal}
    (hgoroutine : writer.goroutines[index]? = some goroutine) (hmute : mute goroutine.status) :
    writer.poll = none := by
  obtain ⟨hdone, hblocks⟩ := hwatched.of_mute index goroutine hgoroutine hmute
  unfold Chan.Blocks at hblocks
  simp [poll, hdone, hgoroutine, hblocks]

/-! ## Writes in flight -/

def Has (status : Status) (index : Nat) (writer : Writer Item Signal) : Prop :=
  ∃ goroutine, writer.goroutines[index]? = some goroutine ∧ goroutine.status = status

def AtMostOneRunning (writer : Writer Item Signal) : Prop :=
  ∀ first second, writer.Has .running first → writer.Has .running second → first = second

theorem Watched.atMostOneRunning (hwatched : Watched mute writer) (hrunning : mute .running) :
    AtMostOneRunning writer := by
  intro first second ⟨one, hone, hrunningOne⟩ ⟨other, hother, hrunningOther⟩
  have hfirst := (hwatched.of_mute first one hone (hrunningOne ▸ hrunning)).1
  have hsecond := (hwatched.of_mute second other hother (hrunningOther ▸ hrunning)).1
  rw [hfirst, Option.some.injEq] at hsecond
  exact hsecond

/-- A snapshot is dropped as in flight only while a write is running. -/
def DropsOnlyWhileRunning
    (step : WriterAction Item → Writer Item Signal → Option (Writer Item Signal))
    (action : WriterAction Item) (writer : Writer Item Signal) : Prop :=
  ∀ next, step action writer = some next → writer.writeInFlight < next.writeInFlight →
    ∃ index, writer.Has .running index

/-- The next step takes a snapshot off the queue. -/
def Delivers (action : WriterAction Item) (writer : Writer Item Signal) : Prop :=
  action = .receive ∧ writer.phase = .receiving ∧ writer.queue.buffer ≠ []

theorem Watched.deliver_drops_iff (hwatched : Watched mute writer) (item : Item) :
    writer.writeInFlight < (writer.deliver item).writeInFlight ↔
      ∃ (index : Nat) (goroutine : Goroutine Item Signal),
        writer.goroutines[index]? = some goroutine ∧ mute goroutine.status := by
  constructor
  · intro hdrop
    unfold Writer.deliver at hdrop
    split at hdrop
    · exact absurd hdrop (lt_irrefl _)
    · next collected hdone hpoll =>
        obtain ⟨_, _, _, _, -, -, -, rfl⟩ := poll_cases hpoll
        exact absurd hdrop (lt_irrefl _)
    · next index hdone hpoll =>
        obtain ⟨goroutine, hgoroutine, hmute⟩ := hwatched.exists_mute hdone hpoll
        exact ⟨index, goroutine, hgoroutine, hmute⟩
  · rintro ⟨index, goroutine, hgoroutine, hmute⟩
    have hdone := (hwatched.of_mute index goroutine hgoroutine hmute).1
    have hpoll := hwatched.poll_eq_none hgoroutine hmute
    simp [Writer.deliver, hdone, hpoll]

end Writer

/-! ## The two writers -/

/-- A write that panicked never reports. -/
def LoopMute (status : Status) : Prop := status ≠ .finished

def HubMute (status : Status) : Prop := status = .running

section Loop

variable {writer next : Writer Item (Except WriteError Unit)} {action : WriterAction Item}

/-- What a step does to the writes: nothing, or it handles a snapshot, hears from
a write or ends one. -/
theorem loopStep_cases (hstep : loopStep action writer = some next) :
    writer.SameWrites next ∨
      (∃ item queue, Writer.Delivers action writer ∧
        next = (writer.withQueue queue).deliver item) ∨
      (∃ collected, writer.poll = some collected ∧
        next = { collected with writeDone := none, phase := .receiving }) ∨
      (∃ index result,
        writer.endWrite index .finished (fun done => done.trySend result) = some next) ∨
      ∃ index, writer.endWrite index .panicked some = some next := by
  unfold loopStep at hstep
  split at hstep
  · exact Or.inl (Writer.sameWrites_enqueue hstep)
  · cases hstep
    exact Or.inl ⟨rfl, rfl, rfl⟩
  · next hphase =>
      split at hstep
      · cases hstep
      · next item queue hreceive =>
          cases hstep
          have hbuffer := Chan.exists_tryReceive_iff.mp ⟨item, queue, hreceive⟩
          exact Or.inr (Or.inl ⟨item, queue, ⟨rfl, hphase, hbuffer⟩, rfl⟩)
      · cases hstep
        exact Or.inl ⟨rfl, rfl, rfl⟩
  · obtain ⟨collected, hpoll, rfl⟩ := Option.map_eq_some_iff.mp hstep
    exact Or.inr (Or.inr (Or.inl ⟨collected, hpoll, rfl⟩))
  · cases hstep
    exact Or.inl ⟨rfl, rfl, rfl⟩
  · exact Or.inr (Or.inr (Or.inr (Or.inl ⟨_, _, hstep⟩)))
  · exact Or.inr (Or.inr (Or.inr (Or.inr ⟨_, hstep⟩)))
  · cases hstep

theorem watched_loopStep (hwatched : writer.Watched LoopMute)
    (hstep : loopStep action writer = some next) : next.Watched LoopMute := by
  have hrunning : LoopMute .running := by simp [LoopMute]
  rcases loopStep_cases hstep with hsame | ⟨item, queue, -, rfl⟩ | ⟨collected, hpoll, rfl⟩ |
    ⟨index, result, hend⟩ | ⟨index, hend⟩
  · exact hsame.watched hwatched
  · exact (hwatched.withQueue queue).deliver hrunning item
  · have hquiet := hwatched.quiet_of_poll hpoll
    exact ⟨fun index goroutine hgoroutine hmute =>
      absurd hmute (hquiet index goroutine hgoroutine), by simp⟩
  · refine hwatched.endWrite hrunning ?_ hend
    intro before after hblocks hsend
    simp [LoopMute, Chan.not_blocks_of_trySend hsend]
  · refine hwatched.endWrite hrunning ?_ hend
    intro before after hblocks hsame
    cases hsame
    simp [LoopMute, hblocks]

/-- A step that drops a snapshot delivers it while a write is mute. -/
theorem loopStep_drops (hwatched : writer.Watched LoopMute)
    (hstep : loopStep action writer = some next)
    (hdrop : writer.writeInFlight < next.writeInFlight) :
    Writer.Delivers action writer ∧
      ∃ (index : Nat) (goroutine : Goroutine Item (Except WriteError Unit)),
        writer.goroutines[index]? = some goroutine ∧ LoopMute goroutine.status := by
  rcases loopStep_cases hstep with hsame | ⟨item, queue, hdelivers, rfl⟩ |
    ⟨collected, hpoll, rfl⟩ | ⟨index, result, hend⟩ | ⟨index, hend⟩
  · exact absurd hdrop (by simp [hsame.writeInFlight])
  · exact ⟨hdelivers, ((hwatched.withQueue queue).deliver_drops_iff item).mp hdrop⟩
  · obtain ⟨_, _, _, _, -, -, -, rfl⟩ := Writer.poll_cases hpoll
    exact absurd hdrop (lt_irrefl _)
  · obtain ⟨_, _, -, -, -, rfl⟩ := Writer.endWrite_cases hend
    exact absurd hdrop (lt_irrefl _)
  · obtain ⟨_, _, -, -, -, rfl⟩ := Writer.endWrite_cases hend
    exact absurd hdrop (lt_irrefl _)

/-- A snapshot that is delivered while a write is mute is dropped. -/
theorem loopStep_delivers (hwatched : writer.Watched LoopMute)
    (hdelivers : Writer.Delivers action writer) {index : Nat}
    {goroutine : Goroutine Item (Except WriteError Unit)}
    (hgoroutine : writer.goroutines[index]? = some goroutine)
    (hmute : LoopMute goroutine.status) :
    ∃ next, loopStep action writer = some next ∧ writer.writeInFlight < next.writeInFlight := by
  obtain ⟨rfl, hphase, hbuffer⟩ := hdelivers
  obtain ⟨item, queue, hreceive⟩ := Chan.exists_tryReceive_iff.mpr hbuffer
  refine ⟨(writer.withQueue queue).deliver item, ?_, ?_⟩
  · unfold loopStep
    rw [hphase]
    simp only [hreceive]
  · exact ((hwatched.withQueue queue).deliver_drops_iff item).mpr
      ⟨index, goroutine, hgoroutine, hmute⟩

/-- Where the drop is unjustified: a snapshot arrives after a panic. -/
theorem loop_dropsOnlyWhileRunning_iff (hwatched : writer.Watched LoopMute) :
    Writer.DropsOnlyWhileRunning loopStep action writer ↔
      (Writer.Delivers action writer → ∀ index, ¬ writer.Has .panicked index) := by
  constructor
  · rintro honly hdelivers index ⟨goroutine, hgoroutine, hpanicked⟩
    have hmute : LoopMute goroutine.status := by simp [LoopMute, hpanicked]
    obtain ⟨next, hstep, hdrop⟩ := loopStep_delivers hwatched hdelivers hgoroutine hmute
    obtain ⟨other, found, hfound, hrunning⟩ := honly next hstep hdrop
    -- the write that is running would be the one that panicked
    have hother := (hwatched.of_mute other found hfound (by simp [LoopMute, hrunning])).1
    rw [(hwatched.of_mute index goroutine hgoroutine hmute).1, Option.some.injEq] at hother
    subst hother
    rw [hgoroutine, Option.some.injEq] at hfound
    rw [← hfound, hpanicked] at hrunning
    cases hrunning
  · intro hpanicked next hstep hdrop
    obtain ⟨hdelivers, index, goroutine, hgoroutine, hmute⟩ := loopStep_drops hwatched hstep hdrop
    refine ⟨index, goroutine, hgoroutine, ?_⟩
    cases hstatus : goroutine.status with
    | running => rfl
    | finished => exact absurd hstatus hmute
    | panicked => exact absurd ⟨goroutine, hgoroutine, hstatus⟩ (hpanicked hdelivers index)

end Loop

section Hub

variable {writer next collected : Writer Item Unit} {action : WriterAction Item}

/-- Nothing is ever sent on a channel of the hub's writes. -/
def Unsent (writer : Writer Item Unit) : Prop :=
  ∀ goroutine ∈ writer.goroutines, goroutine.done.buffer = []

/-- Hearing from a write of the hub leaves its channel as it is. -/
theorem Unsent.poll (hunsent : Unsent writer) (hpoll : writer.poll = some collected) :
    collected = writer := by
  obtain ⟨index, goroutine, value, done, -, hgoroutine, hreceive, rfl⟩ := Writer.poll_cases hpoll
  have hbuffer := hunsent goroutine (List.mem_of_getElem? hgoroutine)
  have hdone : done = goroutine.done := Chan.tryReceive_of_buffer_nil hbuffer hreceive
  have hset : writer.goroutines.set index goroutine = writer.goroutines := by
    obtain ⟨hlength, rfl⟩ := List.getElem?_eq_some_iff.mp hgoroutine
    exact List.set_getElem_self hlength
  rw [hdone, hset]

/-- The action has to do with a snapshot. -/
def WriterAction.Handles : WriterAction Item → Prop
  | .shutDown | .collect | .timeout | .stop => False
  | _ => True

/-- What a step does to the writes: nothing, or it handles a snapshot or ends a
write. -/
theorem hubStep_cases (hunsent : Unsent writer) (hstep : hubStep action writer = some next) :
    (writer.SameWrites next ∧
      (next.queue = writer.queue ∧ ¬ action.Handles ∨ ∃ item, action = .enqueue item)) ∨
      (∃ item queue, (action = .receive ∧ writer.queue.tryReceive = some (some item, queue)) ∧
        next = (writer.withQueue queue).deliver item) ∨
      ∃ index status, (status ≠ .running ∧
          ((∃ result, action = .finish index result) ∨ action = .panic index)) ∧
        writer.endWrite index status (fun done => some done.close) = some next := by
  unfold hubStep at hstep
  split at hstep
  · exact Or.inl ⟨Writer.sameWrites_enqueue hstep, Or.inr ⟨_, rfl⟩⟩
  · cases hstep
    exact Or.inl ⟨⟨rfl, rfl, rfl⟩, Or.inl ⟨rfl, id⟩⟩
  · split at hstep
    · next item queue hreceive =>
        cases hstep
        exact Or.inr (Or.inl ⟨item, queue, ⟨rfl, hreceive⟩, rfl⟩)
    · cases hstep
  · obtain ⟨collected, hpoll, rfl⟩ := Option.map_eq_some_iff.mp hstep
    cases hunsent.poll hpoll
    exact Or.inl ⟨⟨rfl, rfl, rfl⟩, Or.inl ⟨rfl, id⟩⟩
  · cases hstep
    exact Or.inl ⟨⟨rfl, rfl, rfl⟩, Or.inl ⟨rfl, id⟩⟩
  · split_ifs at hstep
    cases hstep
    exact Or.inl ⟨⟨rfl, rfl, rfl⟩, Or.inl ⟨rfl, id⟩⟩
  · split_ifs at hstep
    cases hstep
    exact Or.inl ⟨⟨rfl, rfl, rfl⟩, Or.inl ⟨rfl, id⟩⟩
  · obtain ⟨collected, hpoll, rfl⟩ := Option.map_eq_some_iff.mp hstep
    cases hunsent.poll hpoll
    exact Or.inl ⟨⟨rfl, rfl, rfl⟩, Or.inl ⟨rfl, id⟩⟩
  · cases hstep
    exact Or.inl ⟨⟨rfl, rfl, rfl⟩, Or.inl ⟨rfl, id⟩⟩
  · exact Or.inr (Or.inr ⟨_, _, ⟨by simp, Or.inl ⟨_, rfl⟩⟩, hstep⟩)
  · exact Or.inr (Or.inr ⟨_, _, ⟨by simp, Or.inr rfl⟩, hstep⟩)
  · cases hstep

theorem Unsent.deliver (hunsent : Unsent writer) (item : Item) : Unsent (writer.deliver item) := by
  have hstart : ∀ other : Writer Item Unit, Unsent other → Unsent (other.start item) := by
    intro other hother goroutine hgoroutine
    rcases List.mem_append.mp hgoroutine with hold | hnew
    · exact hother goroutine hold
    · rw [List.mem_singleton.mp hnew]
      rfl
  unfold Writer.deliver
  split
  · exact hstart writer hunsent
  · next collected hdone hpoll =>
      cases hunsent.poll hpoll
      exact hstart _ hunsent
  · exact hunsent

/-- What holds between the steps of the hub's writer. -/
structure HubWatched (writer : Writer Item Unit) : Prop where
  unsent : Unsent writer
  watched : writer.Watched HubMute

theorem HubWatched.step (hwatched : HubWatched writer)
    (hstep : hubStep action writer = some next) : HubWatched next := by
  obtain ⟨hunsent, hwatched⟩ := hwatched
  rcases hubStep_cases hunsent hstep with ⟨hsame, -⟩ | ⟨item, queue, -, rfl⟩ |
    ⟨index, status, hstatus, hend⟩
  · refine ⟨?_, hsame.watched hwatched⟩
    unfold Unsent
    rw [hsame.goroutines]
    exact hunsent
  · have hqueue : Unsent (writer.withQueue queue) := hunsent
    exact ⟨hqueue.deliver item, (hwatched.withQueue queue).deliver rfl item⟩
  · constructor
    · obtain ⟨goroutine, done, hgoroutine, -, hdone, rfl⟩ := Writer.endWrite_cases hend
      cases hdone
      intro other hother
      rcases List.mem_or_eq_of_mem_set hother with hold | rfl
      · exact hunsent other hold
      · exact hunsent goroutine (List.mem_of_getElem? hgoroutine)
    · refine hwatched.endWrite rfl ?_ hend
      intro before after hblocks hclose
      cases hclose
      simp [HubMute, hstatus.1, Chan.not_blocks_close]

/-- A snapshot is written unless a write is running. -/
theorem HubWatched.deliver_cases (hwatched : HubWatched writer) (item : Item) :
    (Writer.Quiet HubMute writer ∧ writer.deliver item = writer.start item) ∨
      (∃ index, writer.Has .running index) ∧
        writer.deliver item = { writer with writeInFlight := writer.writeInFlight + 1 } := by
  unfold Writer.deliver
  split
  · next hdone => exact Or.inl ⟨hwatched.watched.quiet_of_writeDone hdone, rfl⟩
  · next collected hdone hpoll =>
      have hquiet := hwatched.watched.quiet_of_poll hpoll
      cases hwatched.unsent.poll hpoll
      exact Or.inl ⟨hquiet, rfl⟩
  · next index hdone hpoll =>
      obtain ⟨goroutine, hgoroutine, hrunning⟩ := hwatched.watched.exists_mute hdone hpoll
      exact Or.inr ⟨⟨index, goroutine, hgoroutine, hrunning⟩, rfl⟩

/-- A write that is started while none is running is the one that runs. -/
theorem running_start_iff (hquiet : Writer.Quiet HubMute writer) (item other : Item) :
    (∃ (index : Nat) (goroutine : Goroutine Item Unit),
      (writer.start item).goroutines[index]? = some goroutine ∧ goroutine.status = .running ∧
        goroutine.item = other) ↔ item = other := by
  constructor
  · rintro ⟨index, goroutine, hgoroutine, hrunning, rfl⟩
    simp only [Writer.start, List.getElem?_append, List.getElem?_singleton] at hgoroutine
    split_ifs at hgoroutine with hold hnew
    · exact absurd hrunning (hquiet index goroutine hgoroutine)
    · cases hgoroutine
      rfl
  · rintro rfl
    exact ⟨writer.goroutines.length, ⟨item, .running, Chan.make 1⟩, by simp [Writer.start],
      rfl, rfl⟩

/-- No write is running once the one that was has ended. -/
theorem HubWatched.quiet_endWrite {index : Nat} {status : Status} {goroutine : Goroutine Item Unit}
    {done : Chan Unit} (hwatched : HubWatched writer)
    (hgoroutine : writer.goroutines[index]? = some goroutine)
    (hrunning : goroutine.status = .running) (hstatus : status ≠ .running) :
    Writer.Quiet HubMute { writer with
      goroutines := writer.goroutines.set index ⟨goroutine.item, status, done⟩ } := by
  intro other found hfound hother
  rw [List.getElem?_set] at hfound
  split_ifs at hfound with hsame hlength
  · cases hfound
    exact hstatus hother
  · exact hsame (hwatched.watched.atMostOneRunning rfl index other ⟨goroutine, hgoroutine, hrunning⟩
      ⟨found, hfound, hother⟩)

theorem HubWatched.dropsOnlyWhileRunning (hwatched : HubWatched writer) :
    Writer.DropsOnlyWhileRunning hubStep action writer := by
  obtain ⟨hunsent, hwatched⟩ := hwatched
  intro next hstep hdrop
  rcases hubStep_cases hunsent hstep with ⟨hsame, -⟩ | ⟨item, queue, -, rfl⟩ |
    ⟨index, status, -, hend⟩
  · exact absurd hdrop (by simp [hsame.writeInFlight])
  · obtain ⟨index, goroutine, hgoroutine, hrunning⟩ :=
      ((hwatched.withQueue queue).deliver_drops_iff item).mp hdrop
    exact ⟨index, goroutine, hgoroutine, hrunning⟩
  · obtain ⟨_, _, -, -, -, rfl⟩ := Writer.endWrite_cases hend
    exact absurd hdrop (lt_irrefl _)

end Hub

theorem watched_newWriter (mute : Status → Prop) :
    (newWriter : Writer Item Signal).Watched mute :=
  ⟨by simp [newWriter], by simp [newWriter]⟩

theorem hubWatched_newWriter : HubWatched (newWriter : Writer Item Unit) :=
  ⟨by simp [Unsent, newWriter], watched_newWriter HubMute⟩

/-- Neither writer ever has two writes running. The hub's writer drops snapshots
as in flight only while a write is running. The discovery loop's writer does so in
exactly the runs where no snapshot is taken off the queue after a write panicked:
such a write never reports, and all later snapshots are dropped. -/
theorem writers_drop_only_while_running_iff (Item : Type) :
    (∀ writer : Writer Item (Except WriteError Unit),
      Reachable loopStep (· = newWriter) writer → writer.AtMostOneRunning) ∧
    (∀ actions : List (WriterAction Item),
      Throughout loopStep (Writer.DropsOnlyWhileRunning loopStep) actions newWriter ↔
        Throughout loopStep
          (fun action writer => Writer.Delivers action writer →
            ∀ index, ¬ writer.Has .panicked index) actions newWriter) ∧
    (∀ writer : Writer Item Unit,
      Reachable hubStep (· = newWriter) writer → writer.AtMostOneRunning) ∧
    ∀ actions : List (WriterAction Item),
      Throughout hubStep (Writer.DropsOnlyWhileRunning hubStep) actions newWriter := by
  refine ⟨?_, ?_, ?_, ?_⟩
  · intro writer hreachable
    have hwatched : writer.Watched LoopMute :=
      hreachable.invariant (fun _ hstart => hstart ▸ watched_newWriter LoopMute)
        (fun _ _ _ => watched_loopStep)
    exact hwatched.atMostOneRunning (by simp [LoopMute])
  · intro actions
    exact throughout_congr (fun _ _ _ => watched_loopStep)
      (fun _ _ => loop_dropsOnlyWhileRunning_iff) (watched_newWriter LoopMute)
  · intro writer hreachable
    have hwatched : HubWatched writer :=
      hreachable.invariant (fun _ hstart => hstart ▸ hubWatched_newWriter)
        (fun _ _ _ => HubWatched.step)
    exact hwatched.watched.atMostOneRunning rfl
  · intro actions
    exact throughout_of_invariant (fun _ _ _ => HubWatched.step)
      (fun _ _ => HubWatched.dropsOnlyWhileRunning) hubWatched_newWriter

/-- A write panics and the writer goes on after the timeout. -/
def panickedWrite : List (WriterAction Nat) :=
  [.enqueue 1, .receive, .panic 0, .timeout, .enqueue 2]

/-- The next snapshot is dropped though no write is running. -/
theorem dropped_after_panic :
    let shown := fun writer : Writer Nat (Except WriteError Unit) =>
      (writer.goroutines.map (·.status), writer.writeInFlight)
    (run loopStep panickedWrite newWriter).map shown = some ([.panicked], 0) ∧
      (run loopStep (panickedWrite ++ [.receive]) newWriter).map shown =
        some ([.panicked], 1) := by
  decide

end TopologyExporter.Snapshot
