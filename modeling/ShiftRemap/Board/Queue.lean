import ShiftRemap.Report

/-!
# The report queue

Reports on their way to the host, oldest first. A report that finds `capacity` reports waiting does not
enter.
-/

namespace ShiftRemap

/-- A bounded queue of reports. -/
structure ReportQueue where
  capacity : Nat
  waiting : List Report

namespace ReportQueue

/-- The capacity of a keyboard's queue unless another one is chosen. -/
def defaultCapacity : Nat := 16

def empty (capacity : Nat) : ReportQueue := ⟨capacity, []⟩

/-- Puts a report at the end; `none` if the queue is full. -/
def push? (r : Report) (q : ReportQueue) : Option ReportQueue :=
  if q.waiting.length < q.capacity then some { q with waiting := q.waiting ++ [r] } else none

/-- Takes at most `n` reports from the front. -/
def take (n : Nat) (q : ReportQueue) : List Report × ReportQueue :=
  (q.waiting.take n, { q with waiting := q.waiting.drop n })

/-- Takes all reports. -/
def drain (q : ReportQueue) : List Report × ReportQueue := (q.waiting, { q with waiting := [] })

theorem take_append_waiting (n : Nat) (q : ReportQueue) : (q.take n).1 ++ (q.take n).2.waiting = q.waiting :=
  List.take_append_drop n q.waiting

end ReportQueue

end ShiftRemap
