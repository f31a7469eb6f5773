import LiveCluster.Fault

/-!
# Generators

A generator hands out items one at a time. It is suspended in two places: where it waits
for somebody else, and where its consumer has an item. In both it can be made to stop,
there because its task is called off and here because the consumer closes it; and then
the blocks that it is in are left, innermost first, each doing what it does at its end.

So a generator is a tree of what it does next, and at each suspension it carries what it
does when it is made to stop there. A block adds to both.
-/

namespace LiveCluster.Transport

/-- What a generator does: `μ` is what the outside sees of it, `α` what it hands out. -/
inductive Generator (μ α : Type) where
  | returned
  | raised (fault : Fault)
  | marked (mark : μ) (rest : Generator μ α)
  /-- It waits; `left` is what it does when it is called off. -/
  | waiting (rest : Generator μ α) (left : List μ)
  /-- It hands out an item; `left` is what it does when it is closed. -/
  | yielded (item : α) (rest : Generator μ α) (left : List μ)

namespace Generator

variable {μ α β : Type}

/-- A block that does something at its end, however it is left. -/
def ensuring (last : μ) : Generator μ α → Generator μ α
  | .returned => .marked last .returned
  | .raised fault => .marked last (.raised fault)
  | .marked mark rest => .marked mark (ensuring last rest)
  | .waiting rest left => .waiting (ensuring last rest) (left ++ [last])
  | .yielded item rest left => .yielded item (ensuring last rest) (left ++ [last])

/-- A block that raises other faults in place of those raised in it. -/
def translating (translate : Fault → Fault) : Generator μ α → Generator μ α
  | .returned => .returned
  | .raised fault => .raised (translate fault)
  | .marked mark rest => .marked mark (translating translate rest)
  | .waiting rest left => .waiting (translating translate rest) left
  | .yielded item rest left => .yielded item (translating translate rest) left

/-- The end of a stream, where there may be a failure. -/
def ending : Option Fault → Generator μ α
  | none => .returned
  | some fault => .raised fault

/-- Waits for each item of a stream, reads it, and hands out what was read. -/
def each (read : α → Except Fault β) (failure : Option Fault) : List α → Generator μ β
  | [] => .waiting (ending failure) []
  | item :: rest =>
    .waiting (match read item with
      | .ok b => .yielded b (each read failure rest) []
      | .error fault => .raised fault) []

/-- Runs a generator for a consumer that takes everything, or closes it after so many items: what
it does, what it hands out, and the failure that ends it. -/
def run : Option Nat → Generator μ α → List μ × List α × Option Fault
  | _, .returned => ([], [], none)
  | _, .raised fault => ([], [], some fault)
  | take, .marked mark rest =>
    let (marks, items, failure) := run take rest
    (mark :: marks, items, failure)
  | take, .waiting rest _ => run take rest
  | none, .yielded item rest _ =>
    let (marks, items, failure) := run none rest
    (marks, item :: items, failure)
  | some n, .yielded item rest left =>
    if n ≤ 1 then (left, [item], none)
    else
      let (marks, items, failure) := run (some (n - 1)) rest
      (marks, item :: items, failure)

end Generator

end LiveCluster.Transport
