import Mathlib

/- The books of a sender that forgets an item once it is acknowledged or once it has given
   up on it. An acknowledgement may name what the receiver got and, besides, a fixed set of
   phantoms. Nothing is assumed about how the two parties talk. -/
namespace RealMQ.AckLedger
variable {Id : Type*} {phantoms : Set Id}

structure Ledger (Id : Type*) where
  created : Multiset Id
  pending : Multiset Id
  acked : Multiset Id
  resent : Multiset Id
  received : Set Id

inductive Move (phantoms : Set Id) : Ledger Id → Ledger Id → Prop where
  | create (ledger : Ledger Id) (x : Id) :
      Move phantoms ledger
        { ledger with created := x ::ₘ ledger.created, pending := x ::ₘ ledger.pending }
  | receive (ledger : Ledger Id) (x : Id) (genuine : x ∈ ledger.created) :
      Move phantoms ledger { ledger with received := insert x ledger.received }
  | acknowledge (ledger : Ledger Id) (x : Id) (rest : Multiset Id)
      (held : ledger.pending = x ::ₘ rest) (named : x ∈ ledger.received ∨ x ∈ phantoms) :
      Move phantoms ledger { ledger with pending := rest, acked := x ::ₘ ledger.acked }
  | giveUp (ledger : Ledger Id) (x : Id) (rest : Multiset Id)
      (held : ledger.pending = x ::ₘ rest) :
      Move phantoms ledger { ledger with pending := rest, resent := x ::ₘ ledger.resent }

def Moves (phantoms : Set Id) : Ledger Id → Ledger Id → Prop :=
  Relation.ReflTransGen (Move phantoms)

def empty : Ledger Id := ⟨0, 0, 0, 0, ∅⟩

structure Balanced (phantoms : Set Id) (ledger : Ledger Id) : Prop where
  split : ledger.created = ledger.pending + ledger.acked + ledger.resent
  genuine : ∀ x ∈ ledger.received, x ∈ ledger.created
  earned : ∀ x ∈ ledger.acked, x ∈ ledger.received ∨ x ∈ phantoms

theorem balanced_empty : Balanced phantoms (empty : Ledger Id) :=
  ⟨by simp [empty], by simp [empty], by simp [empty]⟩

theorem balanced_move {a b : Ledger Id} (balanced : Balanced phantoms a)
    (move : Move phantoms a b) : Balanced phantoms b := by
  obtain ⟨split, genuine, earned⟩ := balanced
  cases move with
  | create x =>
    refine ⟨by simp [split], ?_, earned⟩
    intro y member
    exact Multiset.mem_cons_of_mem (genuine y member)
  | receive x created =>
    refine ⟨split, ?_, ?_⟩
    · intro y member
      rcases Set.mem_insert_iff.mp member with rfl | old
      · exact created
      · exact genuine y old
    · intro y member
      exact (earned y member).imp_left fun old => Set.mem_insert_of_mem x old
  | acknowledge x rest held named =>
    refine ⟨by simp [split, held], genuine, ?_⟩
    intro y member
    rcases Multiset.mem_cons.mp member with rfl | old
    · exact named
    · exact earned y old
  | giveUp x rest held =>
    exact ⟨by simp [split, held], genuine, earned⟩

theorem balanced_moves {a b : Ledger Id} (balanced : Balanced phantoms a)
    (moves : Moves phantoms a b) : Balanced phantoms b := by
  induction moves with
  | refl => exact balanced
  | tail _ move ih => exact balanced_move ih move

theorem acknowledge_all {ledger : Ledger Id} {rest items : Multiset Id}
    (held : ledger.pending = rest + items)
    (named : ∀ x ∈ items, x ∈ ledger.received ∨ x ∈ phantoms) :
    Moves phantoms ledger { ledger with pending := rest, acked := ledger.acked + items } := by
  induction items using Multiset.induction generalizing ledger with
  | empty =>
    obtain rfl : ledger.pending = rest := by simpa using held
    rw [add_zero]
    exact .refl
  | cons x items ih =>
    have first := Move.acknowledge ledger x (rest + items) (by simp [held])
      (named x (Multiset.mem_cons_self x items))
    have later := @ih { ledger with pending := rest + items, acked := x ::ₘ ledger.acked } rfl
      fun y member => named y (Multiset.mem_cons_of_mem member)
    simpa [Moves] using Relation.ReflTransGen.head first later

theorem giveUp_all {ledger : Ledger Id} {rest items : Multiset Id}
    (held : ledger.pending = rest + items) :
    Moves phantoms ledger { ledger with pending := rest, resent := ledger.resent + items } := by
  induction items using Multiset.induction generalizing ledger with
  | empty =>
    obtain rfl : ledger.pending = rest := by simpa using held
    rw [add_zero]
    exact .refl
  | cons x items ih =>
    have first : Move phantoms ledger _ := Move.giveUp ledger x (rest + items) (by simp [held])
    have later := @ih { ledger with pending := rest + items, resent := x ::ₘ ledger.resent } rfl
    simpa [Moves] using Relation.ReflTransGen.head first later

theorem settled {ledger : Ledger Id} (balanced : Balanced phantoms ledger)
    (nothing : ledger.pending = 0) {x : Id} (member : x ∈ ledger.created) :
    x ∈ ledger.received ∨ x ∈ phantoms ∨ x ∈ ledger.resent := by
  rw [balanced.split, nothing, zero_add] at member
  rcases Multiset.mem_add.mp member with acked | resent
  · exact (balanced.earned x acked).imp_right Or.inl
  · exact Or.inr (Or.inr resent)

end RealMQ.AckLedger
