import Mathlib

/-! # Channels

A channel holds the values that were sent and not yet received. A receive from a
closed channel does not wait: with nothing left in it, it gives no value.
-/

namespace Go

structure Chan (Value : Type) where
  capacity : Nat
  buffer : List Value
  closed : Bool
deriving DecidableEq

namespace Chan

variable {Value : Type}

def make (capacity : Nat) : Chan Value := ⟨capacity, [], false⟩

def close (chan : Chan Value) : Chan Value := { chan with closed := true }

/-- A send to an open channel, where it does not have to wait. -/
def trySend (chan : Chan Value) (value : Value) : Option (Chan Value) :=
  if chan.buffer.length < chan.capacity then some { chan with buffer := chan.buffer ++ [value] }
  else none

/-- A receive, where it does not have to wait. -/
def tryReceive (chan : Chan Value) : Option (Option Value × Chan Value) :=
  match chan.buffer with
  | value :: rest => some (some value, { chan with buffer := rest })
  | [] => if chan.closed then some (none, chan) else none

/-- A receive would have to wait. -/
def Blocks (chan : Chan Value) : Prop := chan.tryReceive = none

theorem blocks_make (capacity : Nat) : (make capacity : Chan Value).Blocks := rfl

theorem not_blocks_close (chan : Chan Value) : ¬ chan.close.Blocks := by
  unfold Blocks tryReceive close
  split <;> simp

variable {chan : Chan Value}

theorem not_blocks_of_trySend {sent : Chan Value} {value : Value}
    (hsend : chan.trySend value = some sent) : ¬ sent.Blocks := by
  unfold trySend at hsend
  split_ifs at hsend
  cases hsend
  unfold Blocks tryReceive
  cases chan.buffer <;> simp

theorem exists_tryReceive_iff :
    (∃ value rest, chan.tryReceive = some (some value, rest)) ↔ chan.buffer ≠ [] := by
  unfold tryReceive
  cases chan.buffer with
  | nil => simp
  | cons value buffer => simp

/-- Nothing changes in a channel that only the close made ready. -/
theorem tryReceive_of_buffer_nil {rest : Chan Value} {value : Option Value}
    (hbuffer : chan.buffer = []) (hreceive : chan.tryReceive = some (value, rest)) :
    rest = chan := by
  simp only [tryReceive, hbuffer, Option.ite_none_right_eq_some, Option.some.injEq,
    Prod.mk.injEq] at hreceive
  exact hreceive.2.2.symm

end Chan

end Go
