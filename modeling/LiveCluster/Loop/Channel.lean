import LiveCluster.Loop.Basic

/-!
# Channels

A channel holds items in the order in which they were put in, up to a limit if it
has one. A task that finds it empty, or full, waits in a line; the line is served in
order of arrival. Being served is no promise: whoever runs first after an item was
taken may use the room, and the served task then waits again, at the end of the line.
-/

namespace LiveCluster

structure Channel (α : Type) where
  items : List α := []
  /-- How many items there is room for; a limit that is not positive is none. -/
  limit : Int := 0
  /-- The tasks that wait for an item. -/
  takers : List TaskId := []
  /-- The tasks that wait for room. -/
  givers : List TaskId := []
  deriving Inhabited

namespace Channel

variable {α π ρ : Type}

def isFull (c : Channel α) : Bool :=
  decide (0 < c.limit) && decide (c.limit ≤ c.items.length)

/-- Wakes the first task that waits for an item. -/
def serveTaker (c : Channel α) (l : Loop π ρ) : Channel α × Loop π ρ :=
  let (l, takers) := l.wakeFirst c.takers
  ({ c with takers := takers }, l)

/-- Wakes the first task that waits for room. -/
def serveGiver (c : Channel α) (l : Loop π ρ) : Channel α × Loop π ρ :=
  let (l, givers) := l.wakeFirst c.givers
  ({ c with givers := givers }, l)

/-- Puts an item in. -/
def give (c : Channel α) (l : Loop π ρ) (item : α) : Channel α × Loop π ρ :=
  { c with items := c.items ++ [item] }.serveTaker l

/-- Takes the first item out. -/
def take? (c : Channel α) (l : Loop π ρ) : Option (α × Channel α × Loop π ρ) :=
  match c.items with
  | [] => none
  | item :: rest => some (item, { c with items := rest }.serveGiver l)

/-- A task that waited for an item gives up; if it had been served, the next is. -/
def leaveTakers (c : Channel α) (l : Loop π ρ) (t : TaskId) (woken : Bool) :
    Channel α × Loop π ρ :=
  let c := { c with takers := c.takers.filter (· ≠ t) }
  if woken && !c.items.isEmpty then c.serveTaker l else (c, l)

/-- A task that waited for room gives up; if it had been served, the next is. -/
def leaveGivers (c : Channel α) (l : Loop π ρ) (t : TaskId) (woken : Bool) :
    Channel α × Loop π ρ :=
  let c := { c with givers := c.givers.filter (· ≠ t) }
  if woken && !c.isFull then c.serveGiver l else (c, l)

/-! ## What is in a channel -/

theorem isFull_iff {c : Channel α} : c.isFull = true ↔ 0 < c.limit ∧ c.limit ≤ c.items.length := by
  simp [isFull]

@[simp] theorem serveTaker_items (c : Channel α) (l : Loop π ρ) :
    (c.serveTaker l).1.items = c.items := rfl

@[simp] theorem serveTaker_limit (c : Channel α) (l : Loop π ρ) :
    (c.serveTaker l).1.limit = c.limit := rfl

@[simp] theorem serveGiver_items (c : Channel α) (l : Loop π ρ) :
    (c.serveGiver l).1.items = c.items := rfl

@[simp] theorem serveGiver_limit (c : Channel α) (l : Loop π ρ) :
    (c.serveGiver l).1.limit = c.limit := rfl

/-- What is put in comes last. -/
@[simp] theorem give_items (c : Channel α) (l : Loop π ρ) (item : α) :
    (c.give l item).1.items = c.items ++ [item] := rfl

@[simp] theorem give_limit (c : Channel α) (l : Loop π ρ) (item : α) :
    (c.give l item).1.limit = c.limit := rfl

theorem take?_eq_none_iff {c : Channel α} {l : Loop π ρ} : c.take? l = none ↔ c.items = [] := by
  unfold take?
  split <;> simp_all

/-- What is taken out came first. -/
theorem items_of_take? {c c' : Channel α} {l l' : Loop π ρ} {item : α}
    (h : c.take? l = some (item, c', l')) : c.items = item :: c'.items := by
  unfold take? at h
  split at h
  · exact absurd h (by simp)
  · rename_i head rest hc
    simp only [Option.some.injEq, Prod.mk.injEq] at h
    obtain ⟨rfl, hrest⟩ := h
    rw [hc, show c' = _ from (congrArg Prod.fst hrest).symm]
    rfl

/-- Giving up changes nothing of what is in a channel. -/
@[simp] theorem leaveTakers_items (c : Channel α) (l : Loop π ρ) (t : TaskId) (woken : Bool) :
    (c.leaveTakers l t woken).1.items = c.items := by
  unfold leaveTakers
  simp only
  split <;> rfl

@[simp] theorem leaveGivers_items (c : Channel α) (l : Loop π ρ) (t : TaskId) (woken : Bool) :
    (c.leaveGivers l t woken).1.items = c.items := by
  unfold leaveGivers
  simp only
  split <;> rfl

end Channel

end LiveCluster
