import DocDrift.Failure

/-!
# Collecting results

Files are analysed at the same time, and their results come in whatever order. They are collected in
the order of the files again. The first fatal failure to come in ends the collection.
-/

namespace DocDrift.Check

structure Arrival (α : Type) where
  position : Nat
  result : Except Failure α

/-- The failure of a result that ends the run. -/
def fatal? {α : Type} : Except Failure α → Option Failure
  | .error e => if e.isFatal then some e else none
  | .ok _ => none

/-- Collects the results that come in, unless one of them is fatal. -/
def gather {α : Type} : List (Arrival α) → Except Failure (List (Arrival α))
  | [] => .ok []
  | a :: rest =>
    match fatal? a.result with
    | some e => .error e
    | none => (gather rest).map (a :: ·)

def inOrder {α : Type} (arrivals : List (Arrival α)) : List (Except Failure α) :=
  (arrivals.mergeSort fun a b => a.position ≤ b.position).map Arrival.result

/-- The results of files that come in in the order of some positions. -/
def arrivals {α : Type} (results : List (Except Failure α)) (order : List Nat) : List (Arrival α) :=
  order.filterMap fun i => results[i]?.map (Arrival.mk i)

/-- Collects the results of files that come in in the order of some positions. -/
def collect {α : Type} (results : List (Except Failure α)) (order : List Nat) :
    Except Failure (List (Except Failure α)) :=
  (gather (arrivals results order)).map inOrder

end DocDrift.Check
