import Mathlib

/- The mutexes that one thread holds, where none of them is recursive. -/
namespace RealMQ.Locks
variable {Mutex : Type*} [DecidableEq Mutex] {held : Finset Mutex} {mutex : Mutex}

/-- none for a thread that waits for a mutex of its own: the call never returns. -/
def lock (held : Finset Mutex) (mutex : Mutex) : Option (Finset Mutex) :=
  if mutex ∈ held then none else some (insert mutex held)

def unlock (held : Finset Mutex) (mutex : Mutex) : Finset Mutex := held.erase mutex

theorem lock_free (free : mutex ∉ held) : lock held mutex = some (insert mutex held) := if_neg free

theorem lock_held (member : mutex ∈ held) : lock held mutex = none := if_pos member

theorem unlock_insert (free : mutex ∉ held) : unlock (insert mutex held) mutex = held :=
  Finset.erase_insert free

end RealMQ.Locks
