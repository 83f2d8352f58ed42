import Mathlib.Data.List.Basic

namespace Rebpf.Lib

/-- A fair semaphore as tokio documents its own: free permits, those who wait for one in
their order, and those who hold one. -/
structure Semaphore (ω : Type) where
  free : Nat
  waiting : List ω
  held : List ω
deriving DecidableEq, Repr

namespace Semaphore

variable {ω : Type}

def total (s : Semaphore ω) : Nat := s.free + s.held.length

/-- `add_permits(1)`: one more permit, and since permits are given out in the order in which
they were asked for, it goes to the first who waits. -/
def addPermit (s : Semaphore ω) : Semaphore ω :=
  match s.waiting with
  | [] => { s with free := s.free + 1 }
  | w :: waiting => { s with waiting, held := w :: s.held }

/-- `acquire`: a permit at once if one is free, else a place at the end of the queue.
(While some are waiting, none is free.) -/
def acquire (s : Semaphore ω) (w : ω) : Semaphore ω :=
  if s.free = 0 then { s with waiting := s.waiting ++ [w] }
  else { s with free := s.free - 1, held := w :: s.held }

section

variable [DecidableEq ω]

/-- `SemaphorePermit::forget`: the permit is not given back, so there is one less. -/
def forget (s : Semaphore ω) (w : ω) : Semaphore ω := { s with held := s.held.erase w }

/-- A permit that is dropped goes back to the semaphore, that is, to the first who waits. -/
def release (s : Semaphore ω) (w : ω) : Semaphore ω := (s.forget w).addPermit

/-- The future that called `acquire` is dropped: so is the permit it holds, or it loses its
place in the queue. -/
def leave (s : Semaphore ω) (w : ω) : Semaphore ω :=
  if w ∈ s.held then s.release w else { s with waiting := s.waiting.erase w }

end

variable {s : Semaphore ω} {w : ω}

@[simp] theorem total_addPermit : s.addPermit.total = s.total + 1 := by
  unfold addPermit total
  split
  next => simp only; omega
  next => simp only [List.length_cons]; omega

@[simp] theorem total_acquire : (s.acquire w).total = s.total := by
  unfold acquire total
  split
  next => rfl
  next => simp only [List.length_cons]; omega

section

variable [DecidableEq ω]

theorem total_forget (h : w ∈ s.held) : (s.forget w).total + 1 = s.total := by
  unfold forget total
  have hlength := List.length_erase_of_mem h
  have hpos := List.length_pos_of_mem h
  simp only
  omega

theorem total_release (h : w ∈ s.held) : (s.release w).total = s.total := by
  rw [release, total_addPermit, total_forget h]

@[simp] theorem total_leave : (s.leave w).total = s.total := by
  unfold leave
  split
  next h => exact total_release h
  next => rfl

end

end Semaphore

end Rebpf.Lib
