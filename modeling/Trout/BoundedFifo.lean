import Mathlib

/-! A bounded first-in first-out queue over any type of items. A push accepts the longest prefix that
fits, a pop removes the longest prefix that is there; both report what they moved. -/

namespace BoundedFifo

variable {α : Type*}

inductive Op (α : Type*) where
  | push (items : List α)
  | pop (count : Nat)

/-- What an operation reports: the number of items accepted, or the items removed. -/
inductive Result (α : Type*) where
  | accepted (count : Nat)
  | removed (items : List α)
  deriving DecidableEq

def push (capacity : Nat) (queue items : List α) : List α :=
  queue ++ items.take (capacity - queue.length)

def step (capacity : Nat) (queue : List α) : Op α → List α × Result α
  | .push items => (push capacity queue items, .accepted (min items.length (capacity - queue.length)))
  | .pop count => (queue.drop count, .removed (queue.take count))

def run (capacity : Nat) : List α → List (Op α) → List α × List (Result α)
  | queue, [] => (queue, [])
  | queue, op :: ops =>
      let next := step capacity queue op
      let rest := run capacity next.1 ops
      (rest.1, next.2 :: rest.2)

/-- The items the pushes of a run accepted, in order, read off the results. -/
def acceptedItems : List (Op α) → List (Result α) → List α
  | .push items :: ops, .accepted count :: results => items.take count ++ acceptedItems ops results
  | _ :: ops, _ :: results => acceptedItems ops results
  | _, _ => []

/-- The items the pops of a run removed, in order. -/
def removedItems : List (Result α) → List α
  | [] => []
  | .accepted _ :: results => removedItems results
  | .removed items :: results => items ++ removedItems results

/-- Nothing is lost, duplicated or reordered: what a run removes, followed by what it leaves, is what
was there, followed by what it accepted. -/
theorem run_conservation (capacity : Nat) (ops : List (Op α)) (queue : List α) :
    removedItems (run capacity queue ops).2 ++ (run capacity queue ops).1 =
      queue ++ acceptedItems ops (run capacity queue ops).2 := by
  induction ops generalizing queue with
  | nil => simp only [run, removedItems, acceptedItems, List.nil_append, List.append_nil]
  | cons op ops ih =>
      cases op with
      | push items =>
          have htake : items.take (min items.length (capacity - queue.length)) =
              items.take (capacity - queue.length) := by
            rw [List.take_eq_take_iff]
            omega
          simp only [run, step, removedItems, acceptedItems, ih, push, htake, List.append_assoc]
      | pop count =>
          simp only [run, step, removedItems, acceptedItems, List.append_assoc, ih]
          rw [← List.append_assoc, List.take_append_drop]

end BoundedFifo
