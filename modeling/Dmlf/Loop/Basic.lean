import Mathlib.Data.List.Count
import Mathlib.Data.List.Basic

/-!
# Loops that can be stopped

A component repeats some work in a thread of its own, as long as an event is not set:

    while not stop.is_set():
        sleep()
        if stop.is_set(): break
        work()

`start` clears the event and starts a thread, unless the last one it has started is still alive.
`stop` sets the event and waits for the thread, but not forever.

* `Loops.Single` : no thread is alive but the last one; `start`, `stop` and the threads keep this.
* `Loops.Single.working_eq_zero` : a thread that looks at the event is the only one there is.
-/

namespace Dmlf

/-- Where a thread is in its loop. -/
inductive LoopPoint where
  /-- About to look at the event, at the head of the loop. -/
  | top
  | asleep
  /-- About to look at the event again. -/
  | awake
  | working
  | done
  deriving DecidableEq

/-- The point a thread comes to; at its work it may stay for long. -/
def LoopPoint.next (stopped : Bool) : LoopPoint → LoopPoint
  | .top => if stopped then .done else .asleep
  | .asleep => .awake
  | .awake => if stopped then .done else .working
  | .working => .top
  | .done => .done

/-- The event, the thread that was started last, and all threads that were ever started. -/
structure Loops where
  stopped : Bool
  current : Option ℕ
  threads : List LoopPoint

namespace Loops

/-- No thread has been started. -/
def new : Loops := ⟨false, none, []⟩

variable (s : Loops)

/-- `thread.is_alive()`. -/
def isAlive (i : ℕ) : Bool := s.threads[i]?.any (· ≠ .done)

/-- `start`. -/
def start : Loops :=
  if s.current.any s.isAlive then s else ⟨false, some s.threads.length, s.threads ++ [.top]⟩

/-- `stop`, whether the thread ends in time or not. -/
def stop : Loops := { s with stopped := true }

/-- Thread `i` comes to a point. -/
def move (i : ℕ) (p : LoopPoint) : Loops := { s with threads := s.threads.set i p }

/-- The number of threads that work. -/
def working : ℕ := s.threads.count .working

/-- No thread is alive but the one that was started last. -/
def Single : Prop := ∀ i, s.isAlive i = true → s.current = some i

variable {s} {i : ℕ} {p q : LoopPoint}

theorem isAlive_of_getElem? (h : s.threads[i]? = some p) (hp : p ≠ .done) :
    s.isAlive i = true := by
  simp [isAlive, h, hp]

theorem single_new : new.Single := by
  intro i h
  simp [isAlive, new] at h

theorem Single.stop (h : s.Single) : s.stop.Single := h

theorem Single.start (h : s.Single) : s.start.Single := by
  unfold Loops.start
  split_ifs with halive
  · exact h
  · intro i hi
    rcases Nat.lt_trichotomy i s.threads.length with hlt | rfl | hgt
    · have hold : s.isAlive i = true := by simpa [isAlive, List.getElem?_append_left hlt] using hi
      rw [h i hold] at halive
      exact absurd hold halive
    · rfl
    · rw [isAlive, List.getElem?_eq_none] at hi
      · cases hi
      · simpa using Nat.succ_le_of_lt hgt

theorem Single.move (h : s.Single) (hi : s.isAlive i = true) (q : LoopPoint) :
    (s.move i q).Single := by
  intro k hk
  by_cases hik : i = k
  · subst hik
    exact h i hi
  · refine h k ?_
    rwa [isAlive, Loops.move, List.getElem?_set_ne hik] at hk

/-- **At most one thread is alive.** -/
theorem Single.unique (h : s.Single) {k : ℕ} (hi : s.isAlive i = true) (hk : s.isAlive k = true) :
    i = k :=
  Option.some.inj ((h i hi).symm.trans (h k hk))

theorem working_start (s : Loops) : s.start.working = s.working := by
  unfold start
  split_ifs
  · rfl
  · simp [working]

/-- The threads that work after thread `i` has moved. -/
theorem working_move (hi : s.threads[i]? = some p) :
    (s.move i q).working + (if p = .working then 1 else 0) =
      s.working + if q = .working then 1 else 0 := by
  obtain ⟨hlt, rfl⟩ := List.getElem?_eq_some_iff.1 hi
  simp only [working, move, List.count_set hlt, beq_iff_eq]
  by_cases hp : s.threads[i] = .working
  · have hpos : 0 < s.threads.count .working := List.count_pos_iff.2 (hp ▸ List.getElem_mem hlt)
    simp only [hp, if_true]
    split_ifs <;> omega
  · simp only [hp, if_false]
    split_ifs <;> omega

/-- A thread that is alive and does not work is the only one alive. -/
theorem Single.working_eq_zero (h : s.Single) (hi : s.threads[i]? = some p) (hp : p ≠ .done)
    (hw : p ≠ .working) : s.working = 0 := by
  refine List.count_eq_zero.2 fun hmem => ?_
  obtain ⟨k, hk⟩ := List.mem_iff_getElem?.1 hmem
  obtain rfl : i = k :=
    h.unique (isAlive_of_getElem? hi hp) (isAlive_of_getElem? hk (by decide))
  exact hw (Option.some.inj (hi.symm.trans hk))

end Loops

end Dmlf
