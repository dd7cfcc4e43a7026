import BusMaster.Bytes

/-!
# Flows

A flow is a queue between two parts of the engine. It holds at least one item and never more than
its capacity, takes new items at its end and gives them out at its front, so what goes in comes out
once and in order (`push?_items`, `pop?_items`).
-/

namespace BusMaster

/-- a queue of bounded length -/
structure Flow (α : Type) where
  capacity : Nat
  items : List α
  bounded : items.length ≤ capacity
  deriving Repr

namespace Flow

variable {α : Type}

/-- the empty flow for so many items, at least one -/
def empty (size : Nat) : Flow α := ⟨max size 1, [], Nat.zero_le _⟩

/-- the flow with an item at its end, if there is room -/
def push? (f : Flow α) (a : α) : Option (Flow α) :=
  if h : f.items.length < f.capacity then
    some ⟨f.capacity, f.items ++ [a], by rw [List.length_append]; exact h⟩
  else none

/-- the item at the front, and the flow without it -/
def pop? : Flow α → Option (α × Flow α)
  | ⟨_, [], _⟩ => none
  | ⟨capacity, a :: rest, h⟩ => some (a, ⟨capacity, rest, Nat.le_of_succ_le h⟩)

/-- the flow takes no more items -/
def isFull (f : Flow α) : Bool := decide (f.capacity ≤ f.items.length)

/-- the flow has nothing to give out -/
def isEmpty (f : Flow α) : Bool := f.items.isEmpty

/-- the flow without its items -/
def clear (f : Flow α) : Flow α := ⟨f.capacity, [], Nat.zero_le _⟩

theorem push?_items {f g : Flow α} {a : α} (h : f.push? a = some g) :
    g.items = f.items ++ [a] ∧ g.capacity = f.capacity := by
  unfold push? at h
  split at h
  · cases h; exact ⟨rfl, rfl⟩
  · cases h

theorem push?_eq_none_iff {f : Flow α} {a : α} : f.push? a = none ↔ f.isFull = true := by
  unfold push? isFull
  split <;> simp <;> omega

theorem pop?_items {f g : Flow α} {a : α} (h : f.pop? = some (a, g)) :
    f.items = a :: g.items ∧ g.capacity = f.capacity := by
  obtain ⟨capacity, items, bounded⟩ := f
  cases items with
  | nil => cases h
  | cons b rest => cases h; exact ⟨rfl, rfl⟩

theorem pop?_eq_none_iff {f : Flow α} : f.pop? = none ↔ f.items = [] := by
  obtain ⟨capacity, items, bounded⟩ := f
  cases items <;> simp [pop?]

end Flow

end BusMaster
