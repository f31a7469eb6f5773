import LiveCluster.Simulation.World

/-!
# Producers and consumers of sinks

Putting an event into a sink waits for room. Getting one out waits for an event or for
the sink to be closed, whichever comes first; it has two tasks of its own race for
that, and calls the loser off.
-/

namespace LiveCluster.Simulation

namespace World

/-- Offers an event to a sink. -/
def offer (w : World) (s : SinkId) (d : Delivery) : World × Sink.Offer :=
  let (offer, sink, loop) := (w.sink s).offer w.loop d.event d.waited
  ({ w.setSink s sink with loop := loop }, offer)

/-- A task waits at a point for room in a sink. -/
def awaitRoom (w : World) (t : TaskId) (s : SinkId) (point : Point) : World :=
  let sink := w.sink s
  let channel := { sink.channel with givers := sink.channel.givers ++ [t] }
  (w.setSink s { sink with channel := channel }).await t point

/-- A task that waited for room in a sink gives up. -/
def leaveRoom (w : World) (t : TaskId) (s : SinkId) (woken : Bool) : World :=
  let sink := w.sink s
  let (channel, loop) := sink.channel.leaveGivers w.loop t woken
  { w.setSink s { sink with channel := channel } with loop := loop }

/-- Puts an event into a sink for a caller. -/
def runGiving (w : World) (t : TaskId) (s : SinkId) (d : Delivery) : Arrival → World
  | .cancelled woken => (w.leaveRoom t s woken).finish t .cancelled
  | .on =>
    match w.offer s d with
    | (w, .accepted) => w.report t .nothing
    | (w, .refused) => w.finish t (.failed .sinkClosed)
    | (w, .full) => w.awaitRoom t s (.giving s { d with waited := true })

/-- Takes the first event out of a sink, if there is one. -/
def takeEvent? (w : World) (s : SinkId) : Option (World × LogEvent) :=
  ((w.sink s).take? w.loop).map fun (event, sink, loop) =>
    ({ w.setSink s sink with loop := loop }, event)

theorem takeEvent?_eq_some {w v : World} {s : SinkId} {event : LogEvent}
    (h : w.takeEvent? s = some (v, event)) :
    ∃ channel loop, (w.sink s).channel.take? w.loop = some (event, channel, loop) ∧
      v = { w.setSink s { w.sink s with channel := channel } with loop := loop } := by
  unfold takeEvent? Sink.take? at h
  cases htake : (w.sink s).channel.take? w.loop with
  | none => rw [htake] at h; cases h
  | some taken =>
      rw [htake] at h
      cases h
      exact ⟨_, _, rfl, rfl⟩

/-- Takes an event out of a sink, or waits for one. -/
def runTaking (w : World) (t : TaskId) (s : SinkId) : Arrival → World
  | .cancelled woken =>
    let sink := w.sink s
    let (channel, loop) := sink.channel.leaveTakers w.loop t woken
    { w.setSink s { sink with channel := channel } with loop := loop }.finish t .cancelled
  | .on =>
    match w.takeEvent? s with
    | some (w, event) => w.report t (.event (some event))
    | none =>
      let sink := w.sink s
      let channel := { sink.channel with takers := sink.channel.takers ++ [t] }
      (w.setSink s { sink with channel := channel }).await t (.taking s)

/-- Waits for a sink to be closed. -/
def runAwaitingClose (w : World) (t : TaskId) (s : SinkId) : Arrival → World
  | .cancelled _ =>
    let sink := w.sink s
    (w.setSink s { sink with watchers := sink.watchers.filter (· ≠ t) }).finish t .cancelled
  | .on =>
    let sink := w.sink s
    if sink.closed then w.report t .nothing
    else
      (w.setSink s { sink with watchers := sink.watchers ++ [t] }).await t (.awaitingClose s)

/-- A consumer got an event: it is the answer, or one more of those collected. -/
def got (w : World) (t : TaskId) (s : SinkId) (event : LogEvent) :
    Option (List LogEvent) → World
  | none => w.report t (.event (some event))
  | some events => w.goOn t (.getting s (some (events ++ [event])) none)

/-- A consumer came to the end of a closed sink. -/
def drained (w : World) (t : TaskId) : Option (List LogEvent) → World
  | none => w.report t (.event none)
  | some events => w.report t (.events events)

/-- Gets the next event out of a sink, or has two tasks race for it. -/
def getNext (w : World) (t : TaskId) (s : SinkId) (collected : Option (List LogEvent)) : World :=
  match w.takeEvent? s with
  | some (w, event) => w.got t s event collected
  | none =>
    if (w.sink s).closed then w.drained t collected
    else
      let (w, taker) := w.spawn (.taking s)
      let (w, closer) := w.spawn (.awaitingClose s)
      w.withLoop (·.awaitAny t (.getting s collected (some ⟨taker, closer⟩)) [taker, closer])

/-- Ends a race: those who have not arrived are called off. -/
def endRace (w : World) (t : TaskId) (r : Race) : World :=
  w.withLoop fun l => ((l.unwatch t [r.taker, r.closer]).cancel r.closer).cancel r.taker

/-- A consumer of a sink goes on. -/
def runGetting (w : World) (t : TaskId) (s : SinkId) (collected : Option (List LogEvent)) :
    Option Race → Arrival → World
  | none, .cancelled _ => w.finish t .cancelled
  | some race, .cancelled _ => (w.endRace t race).finish t .cancelled
  | none, .on => w.getNext t s collected
  | some race, .on =>
    let taken := w.loop.ending? race.taker
    let w := w.endRace t race
    match taken with
    | some (.returned (.event (some event))) => w.got t s event collected
    | some (.failed fault) => w.finish t (.failed fault)
    | some _ => w.finish t .cancelled
    | none => w.goOn t (.getting s collected none)

end World

end LiveCluster.Simulation
