import LiveCluster.Simulation.Consumer

/-!
# Tails

A tail whose pods are known opens a stream per container and puts what they deliver
into one sink. Pods that cannot be decoded are reported first and have no streams. A
stream that fails puts its failure into the sink as its last event, and the others go
on. The tail waits until all streams have ended or the sink is closed; then, and also
when it is cancelled, it cancels what is left, waits for it, and closes the sink.
-/

namespace LiveCluster.Simulation

namespace World

/-- A tail is over: its sink is closed. -/
def endTail (w : World) (t : TaskId) (call : TailCall) (ending : Ending Report) : World :=
  (w.closeSink call.sink).finish t ending

/-- How a tail ends. -/
def tailEnding (cancelled : Bool) : Ending Report :=
  if cancelled then .cancelled else .returned .nothing

/-- All streams of a tail have ended. -/
def cleared (w : World) (t : TaskId) (call : TailCall) (cancelled : Bool) : World :=
  let w := w.closeSink call.sink
  (w.tell (.debug Tailer.component "log_tail_stopped"
    [("path", .text call.options.path)])).endTail t call (tailEnding cancelled)

/-- Cancels the streams of a tail and waits for them. -/
def clear (w : World) (t : TaskId) (call : TailCall) (tasks : TailTasks) (cancelled : Bool) :
    World :=
  let members := tasks.streams ++ [tasks.closer]
  let w := w.withLoop fun l => members.foldl Loop.cancel l
  if members.all w.loop.ended then w.cleared t call cancelled
  else w.withLoop (·.awaitGroup t (.clearing call cancelled) members)

def runClearing (w : World) (t : TaskId) (call : TailCall) (cancelled : Bool) :
    Arrival → World
  | .on => w.cleared t call cancelled
  | .cancelled _ => w.endTail t call .cancelled

/-- Waits for the next stream to end, or for the sink to be closed. -/
def supervise (w : World) (t : TaskId) (call : TailCall) (tasks : TailTasks)
    (pending : List TaskId) : World :=
  if pending.isEmpty then w.clear t call tasks false
  else
    w.withLoop (·.awaitAny t (.supervising call tasks pending) (pending ++ [tasks.closer]))

def runSupervising (w : World) (t : TaskId) (call : TailCall) (tasks : TailTasks)
    (pending : List TaskId) (a : Arrival) : World :=
  let w := w.withLoop (·.unwatch t (pending ++ [tasks.closer]))
  match a with
  | .cancelled _ => w.clear t call tasks true
  | .on =>
    if w.loop.ended tasks.closer then
      (w.tell (.debug Tailer.component "log_sink_closed_by_consumer"
        [("path", .text call.options.path)])).clear t call tasks false
    else w.supervise t call tasks (pending.filter (!w.loop.ended ·))

/-- Makes the task of each stream. -/
def spawnStreams (w : World) (call : TailCall) : List TailTarget → World × List TaskId
  | [] => (w, [])
  | target :: rest =>
    let (w, t) := w.spawn (.stream ⟨call.sink, target, call.options⟩ .opening)
    let (w, ts) := w.spawnStreams call rest
    (w, t :: ts)

/-- Opens the streams of a tail. -/
def openStreams (w : World) (t : TaskId) (call : TailCall) (targets : List TailTarget) :
    World :=
  let (w, streams) := w.spawnStreams call targets
  let (w, closer) := w.spawn (.awaitingClose call.sink)
  let w := w.tell (.debug Tailer.component "log_tail_started"
    [("path", .text call.options.path), ("pods", .int call.pods.length),
      ("streams", .int streams.length)])
  w.supervise t call ⟨streams, closer⟩ streams

/-- Finds the streams of the remaining pods, and opens all of them after the last. A
pod that cannot be decoded is reported; if the sink is closed by then, the tail is
over. -/
def target (w : World) (t : TaskId) (call : TailCall) (targets : List TailTarget) :
    List Snapshot → World
  | [] => w.openStreams t call targets
  | pod :: rest =>
    match Tailer.targets pod call.options with
    | .ok more => w.target t call (targets ++ more) rest
    | .error fault =>
      let delivery : Delivery := { event := .failure pod.name "" fault }
      match (w.tellAll (Tailer.streamError pod "" fault)).offer call.sink delivery with
      | (w, .accepted) => w.target t call targets rest
      | (w, .refused) => w.endTail t call (.returned .nothing)
      | (w, .full) =>
        w.awaitRoom t call.sink (.reporting call targets rest { delivery with waited := true })

def runReporting (w : World) (t : TaskId) (call : TailCall) (targets : List TailTarget)
    (pods : List Snapshot) (d : Delivery) : Arrival → World
  | .cancelled woken => (w.leaveRoom t call.sink woken).endTail t call .cancelled
  | .on =>
    match w.offer call.sink d with
    | (w, .accepted) => w.target t call targets pods
    | (w, .refused) => w.endTail t call (.returned .nothing)
    | (w, .full) => w.awaitRoom t call.sink (.reporting call targets pods d)

/-! ## Streams -/

/-- The log of a stream is asked for, and is open from then on. -/
def openLog (w : World) (t : TaskId) (s : Stream) : World :=
  let pod := s.target.pod
  { w.record (.streamLogs pod.ns pod.name s.target.container s.options) with
    openLogs := w.openLogs ++ [t] }

/-- The log of a stream is at its end or torn down. -/
def closeLog (w : World) (t : TaskId) (s : Stream) : World :=
  let entry := [s.target.pod.ns, s.target.pod.name, s.target.container]
  { w with
    openLogs := w.openLogs.filter (· ≠ t)
    journal := { w.journal with closed := w.journal.closed ++ [entry] } }

/-- The log that a stream reads. -/
def logOfStream (w : World) (s : Stream) : Channel LogItem :=
  w.cluster.log s.target.pod.path s.target.container

def setLogOfStream (w : World) (s : Stream) (log : Channel LogItem) : World :=
  { w with cluster := w.cluster.setLog s.target.pod.path s.target.container log }

/-- Delivers an event of a stream, the `last` one if it is a failure. -/
def deliver (w : World) (t : TaskId) (s : Stream) (d : Delivery) (last : Bool) : World :=
  match w.offer s.sink d with
  | (w, .accepted) => if last then w.report t .nothing else w.goOn t (.stream s .reading)
  | (w, .refused) =>
    if last then
      (w.tell (.debug Tailer.component "log_error_dropped_sink_closed"
        [("pod", .text s.target.pod.path), ("container", .text s.target.container)])).report t
          .nothing
    else (w.closeLog t s).report t .nothing
  | (w, .full) =>
    w.awaitRoom t s.sink (.stream s (.delivering { d with waited := true } last))

/-- Reads the next item of a stream's log, or waits for one. -/
def readLog (w : World) (t : TaskId) (s : Stream) : World :=
  match (w.logOfStream s).take? w.loop with
  | none =>
    let log := w.logOfStream s
    (w.setLogOfStream s { log with takers := log.takers ++ [t] }).await t (.stream s .reading)
  | some (item, log, loop) =>
    let w := { w.setLogOfStream s log with loop := loop }
    let pod := s.target.pod
    match item with
    | .line text =>
      w.deliver t s { event := .line pod.name s.target.container text s.options.multiPods } false
    | .ended => (w.closeLog t s).report t .nothing
    | .failed fault =>
      ((w.closeLog t s).tellAll (Tailer.streamError pod s.target.container fault)).deliver t s
        { event := .failure pod.name s.target.container fault } true

/-- A cancelled stream leaves what it waits for, and ends. -/
def quitStream (w : World) (t : TaskId) (s : Stream) (woken : Bool) : StreamPoint → World
  | .opening => w.finish t .cancelled
  | .reading =>
    let (log, loop) := (w.logOfStream s).leaveTakers w.loop t woken
    ({ w.setLogOfStream s log with loop := loop }.closeLog t s).finish t .cancelled
  | .delivering _ last =>
    let w := w.leaveRoom t s.sink woken
    (if last then w else w.closeLog t s).finish t .cancelled

def runStream (w : World) (t : TaskId) (s : Stream) (p : StreamPoint) : Arrival → World
  | .cancelled woken => w.quitStream t s woken p
  | .on => match p with
    | .opening => (w.openLog t s).readLog t s
    | .reading => w.readLog t s
    | .delivering d last => w.deliver t s d last

end World

end LiveCluster.Simulation
