import Mathlib.Logic.Function.Basic
import Mathlib.Tactic.Common

/-!
# Direct exchanges

A message broker with direct exchanges: a message goes to the queues that are bound to the
exchange with its routing key, and a message that fits no binding is discarded. A binding
joins an exchange and a queue that are declared, which is a field of the structure.
-/

set_option autoImplicit false

namespace EventPipeline.Computation

variable {ε κ ν μ : Type}

/-- Exchanges `ε`, routing keys `κ`, queues `ν` with messages `μ`. An undeclared queue has no
content. -/
structure Broker (ε κ ν μ : Type) where
  exchanges : List ε
  bindings : List (ε × κ × ν)
  queues : ν → Option (List μ)
  exchange_declared : ∀ b ∈ bindings, b.1 ∈ exchanges
  queue_declared : ∀ b ∈ bindings, (queues b.2.2).isSome

namespace Broker

def empty : Broker ε κ ν μ := ⟨[], [], fun _ => none, by simp, by simp⟩

/-- Declaring is idempotent: a queue that exists keeps its messages. -/
def declareExchange (b : Broker ε κ ν μ) (e : ε) : Broker ε κ ν μ :=
  { b with
    exchanges := e :: b.exchanges
    exchange_declared := fun x hx => List.mem_cons_of_mem _ (b.exchange_declared x hx) }

variable [DecidableEq ε] [DecidableEq κ] [DecidableEq ν]

def declareQueue (b : Broker ε κ ν μ) (q : ν) : Broker ε κ ν μ :=
  { b with
    queues := Function.update b.queues q (some ((b.queues q).getD []))
    queue_declared := by
      intro x hx
      by_cases hq : x.2.2 = q
      · simp [hq]
      · simp [hq, b.queue_declared x hx] }

/-- An error when the exchange or the queue is missing. -/
def bind (b : Broker ε κ ν μ) (e : ε) (k : κ) (q : ν) : Option (Broker ε κ ν μ) :=
  if h : e ∈ b.exchanges ∧ (b.queues q).isSome then
    some
      { b with
        bindings := (e, k, q) :: b.bindings
        exchange_declared := List.forall_mem_cons.2 ⟨h.1, b.exchange_declared⟩
        queue_declared := List.forall_mem_cons.2 ⟨h.2, b.queue_declared⟩ }
  else none

/-- The content of queue `q` after `m` was sent to exchange `e` with key `k`. -/
def routed (b : Broker ε κ ν μ) (e : ε) (k : κ) (m : μ) (q : ν) : Option (List μ) :=
  if (e, k, q) ∈ b.bindings then (b.queues q).map fun ms => ms ++ [m] else b.queues q

/-- An error when the exchange is missing; not an error when no queue is bound. -/
def publish (b : Broker ε κ ν μ) (e : ε) (k : κ) (m : μ) : Option (Broker ε κ ν μ) :=
  if e ∈ b.exchanges then
    some
      { b with
        queues := b.routed e k m
        queue_declared := by
          intro x hx
          have hq := b.queue_declared x hx
          unfold routed
          split
          · simpa using hq
          · exact hq }
  else none

/-- The first message of the queue leaves it. -/
def take (b : Broker ε κ ν μ) (q : ν) : Broker ε κ ν μ :=
  { b with
    queues := Function.update b.queues q ((b.queues q).map List.tail)
    queue_declared := by
      intro x hx
      have hx' := b.queue_declared x hx
      by_cases hq : x.2.2 = q
      · subst hq
        simpa using hx'
      · simp [hq, hx'] }

section
variable {b b' : Broker ε κ ν μ} {e : ε} {k : κ} {q : ν} {m : μ}

omit [DecidableEq κ] [DecidableEq ν] in
/-- A binding that succeeds is added, and the exchanges stay. -/
theorem bind_eq_some (h : b.bind e k q = some b') :
    b'.bindings = (e, k, q) :: b.bindings ∧ b'.exchanges = b.exchanges := by
  unfold bind at h
  split at h
  · cases h
    exact ⟨rfl, rfl⟩
  · cases h

/-- A publish that succeeds changes the queues only, by routing the message. -/
theorem publish_eq_some (h : b.publish e k m = some b') :
    b'.queues = b.routed e k m ∧ b'.bindings = b.bindings ∧ b'.exchanges = b.exchanges := by
  unfold publish at h
  split at h
  · cases h
    exact ⟨rfl, rfl, rfl⟩
  · cases h

/-- `m` is the last message of queue `q` after the step, and the others are as before it. -/
def Placed (b b' : Broker ε κ ν μ) (q : ν) (m : μ) : Prop :=
  ∃ ms, b.queues q = some ms ∧ b'.queues q = some (ms ++ [m])

/-- A message that was sent is in the queue exactly when the queue is bound. -/
theorem placed_iff_bound (h : b.publish e k m = some b') :
    Placed b b' q m ↔ (e, k, q) ∈ b.bindings := by
  obtain ⟨hqueues, _, _⟩ := publish_eq_some h
  unfold Placed
  rw [hqueues, routed]
  constructor
  · rintro ⟨ms, hms, hplaced⟩
    by_contra hnot
    rw [if_neg hnot, hms] at hplaced
    have hlen := congrArg List.length (Option.some.inj hplaced)
    simp at hlen
  · intro hbound
    obtain ⟨ms, hms⟩ := Option.isSome_iff_exists.1 (b.queue_declared _ hbound)
    exact ⟨ms, hms, by rw [if_pos hbound, hms, Option.map_some]⟩

end

end Broker

end EventPipeline.Computation
