import Splice.EventLoop.Work

/-!
# Running a loop until it is idle

Over a pair of sockets a loop can be run until nothing is left to do: posted events first, then the
socket. Each turn uses up some of the work that is waiting, so the run ends.
-/

namespace Splice.EventLoop

variable {σ : Type} [Sender σ]

/-- The turn that comes next, if one is possible without anything new from outside. -/
def next? (l : EventLoop σ Pair) : Option (Turn Pair) :=
  if l.possible .events then some .events
  else
    match l.socket, l.buffered? with
    | some pair, some b =>
      let ready := pair.readiness
      if !l.ended && (b.wantsRead && ready.readable || b.wantsWrite && ready.writable) then
        some (.ready ready)
      else none
    | _, _ => none

theorem work_take_lt {l : EventLoop σ Pair} {turn : Turn Pair} (h : l.next? = some turn) :
    (l.take turn).work < l.work := by
  unfold next? at h
  split at h
  · next hevents =>
    cases h
    exact work_takeEvents_lt hevents
  · split at h
    · next p b hsocket hbuffered =>
      dsimp only at h
      split at h
      · next hready =>
        cases h
        simp only [Bool.and_eq_true] at hready
        have used := serve_work_lt ((buffered_socket hbuffered).trans hsocket) hready.2
        have absorbed := l.work_absorbStream_le (b.serve p.readiness)
        have waiting := bufferedWork_eq hbuffered
        simp only [take, hbuffered]
        simp only [work] at *
        omega
      · cases h
    · cases h

def settle (l : EventLoop σ Pair) : EventLoop σ Pair :=
  match _h : l.next? with
  | none => l
  | some turn => settle (l.take turn)
termination_by l.work
decreasing_by exact work_take_lt _h

end Splice.EventLoop
