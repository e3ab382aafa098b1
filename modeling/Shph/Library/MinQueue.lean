/-
Priority queues that hand out a least item first.  The items are kept in
order, so the first one is a least one; a binary heap is one way to store such
a queue, and nothing here depends on how the rest is laid out.
-/
import Mathlib

universe u

structure MinQueue {α : Type u} (le : α → α → Prop) where
  items : List α
  sorted : items.Pairwise le

namespace MinQueue

variable {α : Type u} {le : α → α → Prop}

def empty : MinQueue le := ⟨[], List.Pairwise.nil⟩

def size (queue : MinQueue le) : Nat := queue.items.length

def peek (queue : MinQueue le) : Option α := queue.items.head?

def pop (queue : MinQueue le) : MinQueue le :=
  ⟨queue.items.tail, queue.sorted.tail⟩

def push [DecidableRel le] [Std.Total le] [IsTrans α le]
    (queue : MinQueue le) (item : α) : MinQueue le :=
  ⟨queue.items.orderedInsert le item, queue.sorted.orderedInsert item _⟩

variable {queue : MinQueue le} {first : α}

theorem peek_eq_none_iff : queue.peek = none ↔ queue.items = [] :=
  List.head?_eq_none_iff

theorem items_of_peek (hpeek : queue.peek = some first) :
    queue.items = first :: queue.pop.items :=
  (List.cons_head?_tail hpeek).symm

/-- No item of the queue comes before the one in front. -/
theorem eq_or_le_of_peek (hpeek : queue.peek = some first) {item : α}
    (hitem : item ∈ queue.items) : item = first ∨ le first item := by
  have hsorted := queue.sorted
  rw [items_of_peek hpeek] at hsorted hitem
  rw [List.mem_cons] at hitem
  exact hitem.imp_right ((List.pairwise_cons.mp hsorted).1 item)

theorem push_perm [DecidableRel le] [Std.Total le] [IsTrans α le]
    (queue : MinQueue le) (item : α) :
    (queue.push item).items.Perm (item :: queue.items) :=
  List.perm_orderedInsert le item queue.items

end MinQueue
