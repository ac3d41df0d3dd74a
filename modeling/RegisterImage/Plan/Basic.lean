import RegisterImage.DeviceWrite

/-!
# Plans

A plan is the list of writes that brings a device from its defaults to some settings: one entry
for each register that is written, with the values it steps through, between a write that opens
the plan and one that closes it.

## Main definitions

* `PlanEntry.expand` — the writes of an entry, repeated neighbours left out.
* `Plan.operations` — the writes of all entries.
* `Plan.writes` — the same with the opening and the closing write.
-/

namespace RegisterImage

structure PlanEntry where
  code : String
  write : DeviceWrite
  sequence : List UInt32
  deriving DecidableEq, Repr

/-- A list with every run of equal neighbours collapsed to one element. -/
def collapse {α : Type} [DecidableEq α] : List α → List α
  | [] => []
  | [x] => [x]
  | x :: y :: xs => if x = y then collapse (y :: xs) else x :: collapse (y :: xs)

namespace PlanEntry

/-- The values written: the steps of the sequence and then the final value. -/
def values (e : PlanEntry) : List UInt32 :=
  collapse (e.sequence ++ [e.write.value])

def expand (e : PlanEntry) : List DeviceWrite :=
  e.values.map e.write.withValue

def isSequenced (e : PlanEntry) : Bool :=
  !e.sequence.isEmpty

end PlanEntry

structure Plan where
  entries : List PlanEntry
  opening : Option DeviceWrite
  closing : Option DeviceWrite
  deriving DecidableEq, Repr

namespace Plan

def empty : Plan :=
  ⟨[], none, none⟩

/-- The writes of the entries, without the opening and the closing write. -/
def operations (p : Plan) : List DeviceWrite :=
  p.entries.flatMap PlanEntry.expand

def writes (p : Plan) : List DeviceWrite :=
  p.opening.toList ++ p.operations ++ p.closing.toList

def sequencedCount (p : Plan) : Nat :=
  p.entries.countP PlanEntry.isSequenced

def isEmpty (p : Plan) : Bool :=
  p.entries.isEmpty && p.opening.isNone && p.closing.isNone

/-- The number of entries, and what else there is, on one line. -/
def summary (p : Plan) : String :=
  let sequenced :=
    if 0 < p.sequencedCount then [decimalText p.sequencedCount ++ " sequenced"] else []
  let opening := if p.opening.isSome then ["1 prefix"] else []
  let closing := if p.closing.isSome then ["1 suffix"] else []
  let extra := sequenced ++ opening ++ closing
  let count := decimalText p.entries.length ++ " CC entries"
  if extra.isEmpty then count else count ++ " (" ++ ", ".intercalate extra ++ ")"

end Plan

end RegisterImage
