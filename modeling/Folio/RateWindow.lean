/-!
# Sliding window of requests

The times of recent requests, oldest first, in nanoseconds. Looking at the window
drops what has left it, from the front up to the first time still inside. After a
clock that went back a request may lie ahead of the time; it is as young as can be.
-/

namespace Folio

structure RateWindow where
  times : List Int
  deriving DecidableEq, Repr

namespace RateWindow

def second : Int := 1000000000

def seconds : Nat := 10

/-- The age from which a request no longer counts. -/
def span : Int := seconds * second

def empty : RateWindow := ⟨[]⟩

def prune (window : RateWindow) (now : Int) : RateWindow :=
  ⟨window.times.dropWhile fun t => span ≤ now - t⟩

def record (window : RateWindow) (now : Int) : RateWindow :=
  (RateWindow.mk (window.times ++ [now])).prune now

/-- The requests in the window. -/
def total (window : RateWindow) (now : Int) : Nat :=
  (window.prune now).times.length

/-- The latest requests of the last second, counted back to the first older one. -/
def perSecond (window : RateWindow) (now : Int) : Nat :=
  ((window.prune now).times.reverse.takeWhile fun t => now - t < second).length

def average (window : RateWindow) (now : Int) : Float :=
  (window.total now).toFloat / seconds.toFloat

/-- What a client of the window does. Every step sees the time. -/
inductive Step where
  | record
  | perSecond
  | total
  | average
  deriving DecidableEq, Repr

inductive Answer where
  | done
  | count (n : Nat)
  | mean (x : Float)

def step (window : RateWindow) (now : Int) : Step → RateWindow × Answer
  | .record => (window.record now, .done)
  | .perSecond => (window.prune now, .count (window.perSecond now))
  | .total => (window.prune now, .count (window.total now))
  | .average => (window.prune now, .mean (window.average now))

end RateWindow

end Folio
