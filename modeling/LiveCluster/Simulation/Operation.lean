import LiveCluster.Simulation.Tailing
import LiveCluster.Simulation.Worker

/-!
# Carrying out plans

A plan's questions are answered from the caches and the cluster, in order, until the
plan ends or has to wait for a cache. Whatever ends the operation closes the sink that
it was given. Where a plan leads to a tail, the task goes on as that tail.
-/

namespace LiveCluster.Simulation

namespace World

/-- Answers a question. -/
def answer (w : World) (op : Operation) : (q : Ask) → World × q.Answer
  | .object rid path => w.get op.factory rid path op.inLoop
  | .objects rid ns selector => w.list op.factory rid ns selector op.inLoop
  | .stale rid ns => (w, (w.scopeState op.factory rid ns).1 = .stale)
  | .namespaced rid => (w, w.cluster.namespaced rid)
  | .review ns group resource verb =>
    (w.record (.review ns group resource verb), w.cluster.allows verb)
  | .mutate rid ns m => (w.record (.mutate rid.kindText ns m), w.cluster.outcome m)
  | .now => (w, w.clock)
  | .tell note => (w.tell note, ())

/-- Closes the sink of an operation, if it was given one. -/
def release (w : World) (op : Operation) : World :=
  match op.sink with
  | some s => w.closeSink s
  | none => w

/-- A plan has come to its result. -/
def conclude (w : World) (t : TaskId) (op : Operation) : Except Fault Next → World
  | .error fault => (w.release op).finish t (.failed fault)
  | .ok (.report r) => (w.release op).report t r
  | .ok (.tail start) =>
    match op.sink with
    | some s => w.target t ⟨s, start.pods, start.options⟩ [] start.pods
    | none => w.report t .nothing

/-- Waits for the first listing of an informer, within a time limit. -/
def awaitSync (w : World) (t : TaskId) (op : Operation) (i : InformerId) (limit : Float)
    (next : Except Fault Bool → Plan Next) : World :=
  let x := w.informer i
  ((w.withLoop (·.beginLimit t limit)).setInformer i
    { x with waiters := x.waiters ++ [t] }).await t (.syncing op i next)

/-- Carries out a plan up to its result or its next wait. -/
def carryOut (t : TaskId) (op : Operation) : Plan Next → World → World
  | .done result, w => w.conclude t op result
  | .ask question next, w =>
    let (w, answer) := w.answer op question
    carryOut t op (next answer) w
  | .sync rid ns timeout next, w =>
    match w.ensureWatch op.factory rid ns op.inLoop with
    | (w, .error fault) => carryOut t op (next (.error fault)) w
    | (w, .ok i) =>
      if (w.informer i).cache.synced then carryOut t op (next (.ok true)) w
      else
        w.awaitSync t op i (timeout.getD (w.factory op.factory).config.syncTimeout) next

/-- The wait for a first listing is over. -/
def runSyncing (w : World) (t : TaskId) (op : Operation) (i : InformerId)
    (next : Except Fault Bool → Plan Next) : Arrival → World
  | .on =>
    let w := w.withLoop fun l => (l.endLimit t false).1
    carryOut t op (next (.ok true)) w
  | .cancelled _ =>
    let x := w.informer i
    let w := w.setInformer i { x with waiters := x.waiters.filter (· ≠ t) }
    let (loop, timedOut) := w.loop.endLimit t true
    let w := { w with loop := loop }
    if timedOut then carryOut t op (next (.ok false)) w
    else (w.release op).finish t .cancelled

end World

end LiveCluster.Simulation
