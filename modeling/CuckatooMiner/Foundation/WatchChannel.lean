import Mathlib

/-!
# Watch channels

A watch channel holds one value, which its senders replace. A receiver can look at
the value, and is told of a replacement that it has not seen yet. Only the latest
value is kept: a receiver that looks late sees the last of several replacements.

The interface below is the channel as one of its receivers knows it, together with
the laws that a program may rely on. A channel that numbers its replacements and
remembers the number last seen satisfies them.
-/

namespace CuckatooMiner

/-- A channel of values with one receiver. Values between two looks are lost, and the receiver
    learns only that there is a new one. -/
structure WatchChannel (α : Type) where
  State : Type
  /-- A new channel; its receiver has seen the first value. -/
  channel : α → State
  /-- Replace the value. -/
  sendReplace : State → α → State
  /-- The current value, whether it was seen or not. -/
  borrow : State → α
  /-- Whether the receiver has not yet seen the current value. -/
  unseen : State → Bool
  /-- Look at the current value and mark it as seen. -/
  borrowAndUpdate : State → State
  borrow_channel : ∀ value, borrow (channel value) = value
  unseen_channel : ∀ value, unseen (channel value) = false
  borrow_send : ∀ state value, borrow (sendReplace state value) = value
  unseen_send : ∀ state value, unseen (sendReplace state value) = true
  borrow_update : ∀ state, borrow (borrowAndUpdate state) = borrow state
  unseen_update : ∀ state, unseen (borrowAndUpdate state) = false

namespace WatchChannel

attribute [simp] borrow_channel unseen_channel borrow_send unseen_send borrow_update unseen_update

/-- A value, the number of its replacements and the number last seen. The receiver
    never knows of a replacement that has not happened. -/
structure Versioned (α : Type) where
  value : α
  version : Nat
  seen : Nat
  known : seen ≤ version

/-- The channel that numbers its replacements. -/
def versioned (α : Type) : WatchChannel α where
  State := Versioned α
  channel value := ⟨value, 0, 0, Nat.le_refl 0⟩
  sendReplace state value := ⟨value, state.version + 1, state.seen, Nat.le_succ_of_le state.known⟩
  borrow state := state.value
  unseen state := decide (state.seen < state.version)
  borrowAndUpdate state := ⟨state.value, state.version, state.version, Nat.le_refl _⟩
  borrow_channel _ := rfl
  unseen_channel _ := rfl
  borrow_send _ _ := rfl
  unseen_send state _ := decide_eq_true (Nat.lt_succ_of_le state.known)
  borrow_update _ := rfl
  unseen_update state := decide_eq_false (Nat.lt_irrefl state.version)

end WatchChannel

end CuckatooMiner
