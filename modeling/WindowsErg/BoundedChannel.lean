import Mathlib.Data.List.Basic
import Mathlib.Data.List.Perm.Basic

/-! A bounded first-in first-out channel with one sender that never blocks and one receiver that
may park. -/
namespace BoundedChannel
open Option List
universe u
variable {α : Type u}

/-- `handed` is the message given to a parked receiver that has not run on yet. -/
structure Channel (α : Type u) where
  capacity : ℕ
  queue : List α
  parked : Bool
  handed : Option α
  fits : queue.length ≤ capacity
  handed_capacity : handed.isSome = true → capacity = 0

namespace Channel

def new (capacity : ℕ) : Channel α := ⟨capacity, [], false, none, Nat.zero_le _, nofun⟩

def contents (ch : Channel α) : List α := ch.handed.toList ++ ch.queue

def trySend (ch : Channel α) (a : α) : Option (Channel α) :=
  if hzero : ch.capacity = 0 then
    if ch.parked = true ∧ ch.handed = none then
      some { ch with parked := false, handed := some a, handed_capacity := fun _ => hzero }
    else none
  else if hroom : ch.queue.length < ch.capacity then
    some { ch with queue := ch.queue ++ [a],
                   fits := by rw [length_append, length_singleton]; exact hroom }
  else none

def tryRecv (ch : Channel α) : Option (α × Channel α) :=
  match h : ch.queue with
  | [] => none
  | a :: rest =>
    some (a, { ch with queue := rest,
                       fits := Nat.le_of_succ_le (by have hf := ch.fits; rw [h] at hf; exact hf) })

def park (ch : Channel α) : Channel α := { ch with parked := true }

def unpark (ch : Channel α) : Channel α := { ch with parked := false }

def recvParked (ch : Channel α) : Option (α × Channel α) :=
  match ch.handed with
  | some a => some (a, { ch with parked := false, handed := none, handed_capacity := nofun })
  | none => ch.unpark.tryRecv

@[simp] theorem contents_park (ch : Channel α) : ch.park.contents = ch.contents := rfl

@[simp] theorem contents_unpark (ch : Channel α) : ch.unpark.contents = ch.contents := rfl

theorem queue_eq_nil_of_capacity (ch : Channel α) (h : ch.capacity = 0) : ch.queue = [] := by
  have hfits := ch.fits
  rw [h] at hfits
  exact eq_nil_of_length_eq_zero (Nat.le_zero.mp hfits)

theorem contents_trySend (ch next : Channel α) (a : α) (h : ch.trySend a = some next) :
    next.contents = ch.contents ++ [a] := by
  unfold trySend at h
  split_ifs at h with hzero hparked hroom
  · cases h
    simp only [contents, hparked.2, queue_eq_nil_of_capacity ch hzero, toList_some,
      toList_none, append_nil, nil_append]
  · cases h
    simp only [contents, append_assoc]

theorem contents_tryRecv (ch next : Channel α) (a : α) (h : ch.tryRecv = some (a, next)) :
    ch.contents = a :: next.contents := by
  unfold tryRecv at h
  split at h
  · cases h
  · next b rest hqueue =>
    cases h
    -- with a message in the queue there is room, so none was handed over directly
    have hnone : ch.handed = none := by
      cases hhanded : ch.handed with
      | none => rfl
      | some c =>
        have hempty := queue_eq_nil_of_capacity ch (ch.handed_capacity (by rw [hhanded]; rfl))
        rw [hqueue] at hempty
        exact absurd hempty (cons_ne_nil _ _)
    simp only [contents, hnone, hqueue, toList_none, nil_append]

theorem contents_recvParked (ch next : Channel α) (a : α) (h : ch.recvParked = some (a, next)) :
    ch.contents = a :: next.contents := by
  unfold recvParked at h
  cases hhanded : ch.handed with
  | some b =>
    rw [hhanded] at h
    cases h
    simp only [contents, hhanded, toList_some, toList_none, nil_append, singleton_append]
  | none =>
    rw [hhanded] at h
    rw [← contents_unpark]
    exact contents_tryRecv ch.unpark next a h

end Channel

def marked (mark : Bool) (entries : List (α × Bool)) : List α :=
  (entries.filter (fun entry => entry.2 == mark)).map Prod.fst

theorem marked_append (mark : Bool) (xs ys : List (α × Bool)) :
    marked mark (xs ++ ys) = marked mark xs ++ marked mark ys := by
  rw [marked, filter_append, map_append]
  rfl

@[simp] theorem marked_self (mark : Bool) (a : α) : marked mark [(a, mark)] = [a] := by
  simp [marked]

theorem marked_perm (entries : List (α × Bool)) :
    (entries.map Prod.fst).Perm (marked true entries ++ marked false entries) := by
  induction entries with
  | nil => exact List.Perm.refl _
  | cons entry entries ih =>
    obtain ⟨a, mark⟩ := entry
    cases mark with
    | true => exact ih.cons a
    | false => exact (ih.cons a).trans perm_middle.symm

theorem marked_sublist (mark : Bool) (entries : List (α × Bool)) :
    (marked mark entries).Sublist (entries.map Prod.fst) :=
  filter_sublist.map Prod.fst

/-- The books of a sender and a receiver: what is to be sent and what of it is not offered yet,
the offers with their outcomes, and the messages received with the verdicts on them and kept. -/
structure Books (α : Type u) where
  accepted : List α
  pending : List α
  sent : List (α × Bool)
  taken : List (α × Bool)
  returned : List α
  inHand : List α

namespace Books

structure Correct (b : Books α) (ch : Channel α) : Prop where
  offered : b.accepted = b.sent.map Prod.fst ++ b.pending
  balanced : marked true b.sent = b.taken.map Prod.fst ++ ch.contents
  kept : marked true b.taken = b.returned ++ b.inHand

structure Unused (b : Books α) : Prop where
  sent : b.sent = []
  taken : b.taken = []
  returned : b.returned = []
  inHand : b.inHand = []

def Agree (b : Books α) : Option (Channel α) → Prop
  | some ch => b.Correct ch
  | none => b.Unused

section
variable {b : Books α} {ch next : Channel α}

theorem Agree.accept {channel : Option (Channel α)} (h : b.Agree channel) (a : α)
    (hpending : b.pending = []) :
    Agree { b with accepted := b.accepted ++ [a], pending := [a] } channel := by
  cases channel with
  | none => exact ⟨h.sent, h.taken, h.returned, h.inHand⟩
  | some ch =>
    have hoffered := h.offered
    rw [hpending, append_nil] at hoffered
    exact ⟨congrArg (· ++ [a]) hoffered, h.balanced, h.kept⟩

theorem Unused.skip (h : b.Unused) : Unused { b with pending := [] } :=
  ⟨h.sent, h.taken, h.returned, h.inHand⟩

theorem Correct.send (h : b.Correct ch) (a : α) (hpending : b.pending = [a])
    (hsend : ch.trySend a = some next) :
    Correct { b with pending := [], sent := b.sent ++ [(a, true)] } next := by
  refine ⟨?_, ?_, h.kept⟩
  · have hoffered := h.offered
    rw [hpending] at hoffered
    simpa using hoffered
  · rw [marked_append, h.balanced, Channel.contents_trySend ch next a hsend, append_assoc]
    simp

theorem Correct.fail (h : b.Correct ch) (a : α) (hpending : b.pending = [a]) :
    Correct { b with pending := [], sent := b.sent ++ [(a, false)] } ch := by
  refine ⟨?_, ?_, h.kept⟩
  · have hoffered := h.offered
    rw [hpending] at hoffered
    simpa using hoffered
  · rw [marked_append, h.balanced]
    exact append_nil _

theorem Correct.keep (h : b.Correct ch) (a : α) (htake : ch.contents = a :: next.contents) :
    Correct { b with taken := b.taken ++ [(a, true)], inHand := b.inHand ++ [a] } next := by
  refine ⟨h.offered, ?_, ?_⟩
  · rw [h.balanced, htake]
    simp
  · rw [marked_append, h.kept, marked_self, append_assoc]

theorem Correct.refuse (h : b.Correct ch) (a : α) (htake : ch.contents = a :: next.contents) :
    Correct { b with taken := b.taken ++ [(a, false)] } next := by
  refine ⟨h.offered, ?_, ?_⟩
  · rw [h.balanced, htake]
    simp
  · rw [marked_append, h.kept]
    exact append_nil _

theorem Agree.handOver {channel : Option (Channel α)} (h : b.Agree channel) :
    Agree { b with returned := b.returned ++ b.inHand, inHand := [] } channel := by
  cases channel with
  | none => exact ⟨h.sent, h.taken, by rw [h.returned, h.inHand]; rfl, rfl⟩
  | some ch => exact ⟨h.offered, h.balanced, by rw [h.kept, append_nil]⟩

theorem Correct.congr (h : b.Correct ch) (hcontents : next.contents = ch.contents) :
    b.Correct next :=
  ⟨h.offered, by rw [h.balanced, hcontents], h.kept⟩

theorem Correct.perm (h : b.Correct ch) :
    b.accepted.Perm (b.returned ++ b.inHand ++ marked false b.taken ++ ch.contents ++
      marked false b.sent ++ b.pending) := by
  have htaken : (b.taken.map Prod.fst).Perm (b.returned ++ b.inHand ++ marked false b.taken) := by
    rw [← h.kept]
    exact marked_perm b.taken
  rw [h.offered]
  apply List.Perm.append_right
  calc
    (b.sent.map Prod.fst).Perm (marked true b.sent ++ marked false b.sent) := marked_perm b.sent
    _ = b.taken.map Prod.fst ++ ch.contents ++ marked false b.sent := by rw [h.balanced]
    List.Perm _ (b.returned ++ b.inHand ++ marked false b.taken ++ ch.contents ++
        marked false b.sent) := (htaken.append_right _).append_right _

theorem Correct.sublist (h : b.Correct ch) :
    (b.returned ++ b.inHand ++ ch.contents).Sublist b.accepted := by
  calc
    (b.returned ++ b.inHand ++ ch.contents).Sublist (b.taken.map Prod.fst ++ ch.contents) := by
      rw [← h.kept]
      exact (marked_sublist true b.taken).append_right _
    _ = marked true b.sent := h.balanced.symm
    List.Sublist _ (b.sent.map Prod.fst) := marked_sublist true b.sent
    List.Sublist _ b.accepted := by
      rw [h.offered]
      exact sublist_append_left _ _

end

end Books

end BoundedChannel
