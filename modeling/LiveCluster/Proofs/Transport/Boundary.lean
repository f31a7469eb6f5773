import LiveCluster.Proofs.Transport.Runs
import LiveCluster.Transport.Exchange

/-!
# The boundary of the transport

Everything above the client knows one kind of failure of the transport, and whether the
version that it asked for has expired. `Surfaces` says what a failure becomes on its way
out of the client, and it holds of every call. For the two that stream, the runs of a
generator are sorted by how far they came: a watch is stopped once in each of them, and
its stream, if it was entered, is left before; the response of a log is released once
if there is one.
-/

namespace LiveCluster

/-- Whether a fault says that a version has expired: as an answer of the server with that status,
or as a failure of the transport already. -/
def Fault.tellsGone : Fault → Bool
  | .api status _ => goneStatus status
  | fault => fault.isGone

namespace Transport

open Generator (Exit Runs Stopped readThrough)

/-- What a fault becomes on its way out of the client. An answer keeps its status; a connection
that broke and one that took too long have none; every other fault stays what it is. -/
inductive Surfaces : Fault → Fault → Prop
  | answered {status reason : Value} {message : String} :
      Surfaces (.api status reason) (.transport message status)
  | broken {text message : String} : Surfaces (.client text) (.transport message .null)
  | late {message : String} : Surfaces .timedOut (.transport message .null)
  | other {fault : Fault} :
      (∀ status reason, fault ≠ .api status reason) → (∀ text, fault ≠ .client text) →
      fault ≠ .timedOut → Surfaces fault fault

theorem surfaces (action : String) (fault : Fault) :
    Surfaces fault (transportFault action fault) := by
  unfold transportFault
  split
  · exact .answered
  · exact .late
  · exact .broken
  · next happi hlate hbroken => exact .other happi hbroken hlate

theorem Surfaces.isGone {fault surfaced : Fault} (h : Surfaces fault surfaced) :
    surfaced.isGone = fault.tellsGone := by
  cases h with
  | answered => rfl
  | broken | late => rfl
  | other happi _ _ =>
      cases fault with
      | api status reason => exact absurd rfl (happi status reason)
      | _ => rfl

/-! ## Watched items -/

/-- The object of a raw item of a watch; one that is absent has no fields. -/
def objectOf (item : Fields) : Value :=
  ((item.get? "raw_object").getD .null).orElse (.record [])

/-- Whether a raw item of a watch tells of an error. -/
def tellsError (item : Fields) : Bool :=
  match (item.get? "type").getD .null with
  | .text type => type == "ERROR"
  | _ => false

/-- The event that a raw item stands for. -/
def eventOf (item : Fields) : WatchEvent :=
  ⟨((item.get? "type").getD .null).asText, objectOf item⟩

/-- The events before the first error. -/
def delivered (items : List Fields) : List WatchEvent :=
  (items.takeWhile fun item => !tellsError item).map eventOf

theorem readWatchItem_event (rid : ResourceId) {item : Fields} (h : tellsError item = false) :
    readWatchItem rid item = .ok (eventOf item) := by
  unfold tellsError at h
  unfold readWatchItem eventOf objectOf
  generalize (Keyed.get? item "type").getD .null = type at h ⊢
  dsimp only
  split
  · simp at h
  · rfl

theorem readWatchItem_error (rid : ResourceId) {item fields : Fields} (h : tellsError item = true)
    (hobject : objectOf item = .record fields) :
    ∃ message, readWatchItem rid item =
      .error (.transport message ((objectOf item).at? ["code"])) := by
  unfold tellsError at h
  rw [hobject]
  unfold readWatchItem
  rw [objectOf] at hobject
  generalize (Keyed.get? item "type").getD .null = type at h ⊢
  cases type with
  | text s =>
      have hs : s = "ERROR" := by simpa using h
      dsimp only
      rw [hs, hobject]
      exact ⟨_, rfl⟩
  | null | bool _ | int _ | float _ | list _ | record _ => cases h

/-- The stream of a watch is read up to the first error, or to its end. -/
theorem readThrough_watch (rid : ResourceId) (failure : Option Fault) {items : List Fields}
    (hobjects : ∀ item ∈ items, ∃ fields, objectOf item = .record fields) :
    (readThrough (readWatchItem rid) failure items).1 = delivered items ∧
      match items.find? tellsError with
      | some item => ∃ message, (readThrough (readWatchItem rid) failure items).2 =
          .raised (.transport message ((objectOf item).at? ["code"]))
      | none => (readThrough (readWatchItem rid) failure items).2 = .ofStream failure := by
  induction items with
  | nil => exact ⟨rfl, rfl⟩
  | cons item rest ih =>
      obtain ⟨⟨fields, hobject⟩, hrest⟩ := List.forall_mem_cons.1 hobjects
      cases herror : tellsError item with
      | true =>
          obtain ⟨message, hread⟩ := readWatchItem_error rid herror hobject
          rw [readThrough, hread, delivered, List.takeWhile_cons, List.find?_cons, herror]
          exact ⟨rfl, message, rfl⟩
      | false =>
          obtain ⟨hevents, hending⟩ := ih hrest
          rw [readThrough, readWatchItem_event rid herror, delivered, List.takeWhile_cons,
            List.find?_cons, herror]
          exact ⟨congrArg (eventOf item :: ·) hevents, hending⟩

/-! ## Runs of the two streams -/

/-- What a stream that comes to its end ends in. -/
def EndsIn : Option Fault → Exit → Prop
  | none, ending => ending = .returned
  | some fault, ending => ∃ surfaced, ending = .raised surfaced ∧ Surfaces fault surfaced

/-- What a started watch comes to: what is called and closed, the events, the ending. -/
inductive WatchRun (call : ApiCall) (feed : Feed Fields) :
    List Mark → List WatchEvent → Exit → Prop
  /-- It was called off before the stream was entered. -/
  | unopened : WatchRun call feed [.call call, .stop] [] .cancelled
  | refused {fault surfaced : Fault} :
      feed = .refused fault → Surfaces fault surfaced →
      WatchRun call feed [.call call, .stop] [] (.raised surfaced)
  /-- It was closed or called off when it had handed out some of the events. -/
  | stopped {items : List Fields} {failure : Option Fault} {events : List WatchEvent}
      {ending : Exit} :
      feed = .items items failure → events <+: delivered items → Stopped events ending →
      WatchRun call feed [.call call, .exit, .stop] events ending
  | failed {items : List Fields} {failure : Option Fault} {item : Fields} {message : String} :
      feed = .items items failure → items.find? tellsError = some item →
      WatchRun call feed [.call call, .exit, .stop] (delivered items)
        (.raised (.transport message ((objectOf item).at? ["code"])))
  | ended {items : List Fields} {failure : Option Fault} {ending : Exit} :
      feed = .items items failure → items.find? tellsError = none → EndsIn failure ending →
      WatchRun call feed [.call call, .exit, .stop] (delivered items) ending

/-- What a started log comes to: what is called and released, the lines, the ending. -/
inductive LogRun (call : ApiCall) (feed : Feed (List UInt8)) :
    List Mark → List String → Exit → Prop
  /-- It was called off before there was a response. -/
  | unopened : LogRun call feed [.call call] [] .cancelled
  | refused {fault surfaced : Fault} :
      feed = .refused fault → Surfaces fault surfaced →
      LogRun call feed [.call call] [] (.raised surfaced)
  | stopped {chunks : List (List UInt8)} {failure : Option Fault} {lines : List String}
      {ending : Exit} :
      feed = .items chunks failure → lines <+: chunks.map lineOf → Stopped lines ending →
      LogRun call feed [.call call, .release] lines ending
  | ended {chunks : List (List UInt8)} {failure : Option Fault} {ending : Exit} :
      feed = .items chunks failure → EndsIn failure ending →
      LogRun call feed [.call call, .release] (chunks.map lineOf) ending

theorem endsIn_translate (action : String) (failure : Option Fault) :
    EndsIn failure ((Exit.ofStream failure).translate (transportFault action)) := by
  cases failure with
  | none => rfl
  | some fault => exact ⟨transportFault action fault, rfl, surfaces action fault⟩

/-- Every object of a watch's stream is a record, or absent. -/
def Feed.WellFormed : Feed Fields → Prop
  | .refused _ => True
  | .items stream _ => ∀ item ∈ stream, ∃ fields, objectOf item = .record fields

theorem watchRun_of_runs (c : Client) (rid : ResourceId) (ns version : String)
    (timeout : Option Int) {feed : Feed Fields} (hfeed : feed.WellFormed) {marks : List Mark}
    {events : List WatchEvent} {ending : Exit}
    (h : Runs (watching c rid ns version timeout feed) marks events ending) :
    WatchRun (c.watch rid ns version timeout) feed marks events ending := by
  unfold watching at h
  obtain ⟨body, rfl, hbody⟩ := h.of_ensuring
  obtain ⟨inner, rfl, hinner⟩ := hbody.of_translating
  cases hinner with
  | marked h =>
    cases h with
    | cancelled => exact .unopened
    | resumed h =>
      cases feed with
      | refused fault =>
          cases h
          exact .refused rfl (surfaces _ fault)
      | items items failure =>
          obtain ⟨read, rfl, hread⟩ := h.of_ensuring
          obtain ⟨rfl, ⟨rfl, rfl⟩ | ⟨hfront, hstopped⟩⟩ := hread.of_each
          · obtain ⟨hevents, hend⟩ := readThrough_watch rid failure hfeed
            rw [hevents]
            cases herror : items.find? tellsError with
            | none =>
                rw [herror] at hend
                rw [hend]
                exact .ended rfl herror (endsIn_translate _ failure)
            | some item =>
                rw [herror] at hend
                obtain ⟨message, hend⟩ := hend
                rw [hend]
                exact .failed rfl herror
          · obtain ⟨hevents, -⟩ := readThrough_watch rid failure hfeed
            rw [hevents] at hfront
            rw [hstopped.translate_eq]
            exact .stopped rfl hfront hstopped

theorem readThrough_log (failure : Option Fault) (chunks : List (List UInt8)) :
    readThrough (fun chunk => .ok (lineOf chunk)) failure chunks =
      (chunks.map lineOf, .ofStream failure) := by
  induction chunks with
  | nil => rfl
  | cons chunk rest ih => rw [readThrough, ih, List.map_cons]

theorem logRun_of_runs (ns pod container : String) (options : TailOptions)
    {feed : Feed (List UInt8)} {marks : List Mark} {lines : List String} {ending : Exit}
    (h : Runs (following ns pod container options feed) marks lines ending) :
    LogRun (logCall ns pod container options) feed marks lines ending := by
  unfold following at h
  cases h with
  | marked h =>
    cases h with
    | cancelled => exact .unopened
    | resumed h =>
      cases feed with
      | refused fault =>
          cases h
          exact .refused rfl (surfaces _ fault)
      | items chunks failure =>
          obtain ⟨body, rfl, hbody⟩ := h.of_ensuring
          obtain ⟨inner, rfl, hinner⟩ := hbody.of_translating
          obtain ⟨rfl, hread⟩ := hinner.of_each
          rw [readThrough_log] at hread
          obtain ⟨rfl, rfl⟩ | ⟨hfront, hstopped⟩ := hread
          · exact .ended rfl (endsIn_translate _ failure)
          · rw [hstopped.translate_eq]
            exact .stopped rfl hfront hstopped

/-! ## The boundary -/

/-- Whether a watch that comes to its end tells its consumer that the version has expired. -/
def Feed.tellsGone : Feed Fields → Bool
  | .refused fault => fault.tellsGone
  | .items stream failure => match stream.find? tellsError with
    | some item => Fault.goneStatus ((objectOf item).at? ["code"])
    | none => failure.any Fault.tellsGone

theorem WatchRun.isGone {call : ApiCall} {feed : Feed Fields} {marks : List Mark}
    {events : List WatchEvent} {surfaced : Fault}
    (h : WatchRun call feed marks events (.raised surfaced)) :
    surfaced.isGone = feed.tellsGone := by
  cases h with
  | refused hfeed hsurfaces => rw [hfeed, Feed.tellsGone, hsurfaces.isGone]
  | stopped _ _ hstopped => cases hstopped
  | failed hfeed herror =>
      rw [hfeed, Feed.tellsGone, herror]
      rfl
  | @ended _ failure _ hfeed herror hends =>
      rw [hfeed, Feed.tellsGone, herror]
      cases failure with
      | none => cases hends
      | some fault =>
          obtain ⟨_, hraised, hsurfaces⟩ := hends
          cases hraised
          exact hsurfaces.isGone

/-- A call that does not stream raises what its failure becomes. A watch and a log do in each run
what their feeds allow; and the run of a consumer that takes everything, or stops after so many
items, is one of these runs, which is closed in the second case if there are so many, and else
comes to its end. -/
theorem boundary (c : Client) (rid : ResourceId) (ns : String) :
    (∀ fault,
      (∃ surfaced, (list c rid ns (.failed fault)).2 = .error surfaced ∧
        Surfaces fault surfaced) ∧
      (∀ m, ∃ surfaced, (mutate c rid ns m (.failed fault)).2 = .error surfaced ∧
        Surfaces fault surfaced) ∧
      ∀ group resource verb, ∃ surfaced,
        (review c ns group resource verb (.error fault)).2 = .error surfaced ∧
          Surfaces fault surfaced) ∧
    (∀ version timeout feed,
      (feed.WellFormed → ∀ marks events ending,
        Runs (watching c rid ns version timeout feed) marks events ending →
          WatchRun (c.watch rid ns version timeout) feed marks events ending ∧
            ∀ surfaced, ending = .raised surfaced → surfaced.isGone = feed.tellsGone) ∧
      ∀ take, ∃ ending,
        Runs (watching c rid ns version timeout feed)
          (watch c rid ns version timeout take feed).1
          (watch c rid ns version timeout take feed).2.1 ending ∧
        (watch c rid ns version timeout take feed).2.2 = ending.failure? ∧
        ending.Suits take (watch c rid ns version timeout take feed).2.1.length) ∧
    ∀ pod container options feed,
      (∀ marks lines ending,
        Runs (following ns pod container options feed) marks lines ending →
          LogRun (logCall ns pod container options) feed marks lines ending) ∧
      ∀ take, ∃ ending,
        Runs (following ns pod container options feed)
          (streamLogs ns pod container options take feed).1
          (streamLogs ns pod container options take feed).2.1 ending ∧
        (streamLogs ns pod container options take feed).2.2 = ending.failure? ∧
        ending.Suits take (streamLogs ns pod container options take feed).2.1.length := by
  refine ⟨fun fault => ⟨?_, fun m => ?_, fun group resource verb => ?_⟩,
    fun version timeout feed => ⟨fun hfeed marks events ending h => ?_, fun take => ?_⟩,
    fun pod container options feed => ⟨fun marks lines ending h => ?_, fun take => ?_⟩⟩
  · exact ⟨_, rfl, surfaces _ fault⟩
  · exact ⟨_, rfl, surfaces _ fault⟩
  · exact ⟨_, rfl, surfaces _ fault⟩
  · have hrun := watchRun_of_runs c rid ns version timeout hfeed h
    refine ⟨hrun, fun surfaced hraised => ?_⟩
    rw [hraised] at hrun
    exact hrun.isGone
  · exact Generator.runs_run _ take
  · exact logRun_of_runs ns pod container options h
  · exact Generator.runs_run _ take

/-- A watch that brings one pod, and then that its version has expired. -/
def expiring : Feed Fields :=
  .items [[("type", .text "ADDED"), ("raw_object", .record [("kind", .text "Pod")])],
    [("type", .text "ERROR"), ("raw_object", .record [("code", .int 410)])]] none

theorem boundary_expiring :
    expiring.WellFormed ∧
      ∃ marks events surfaced,
        Runs (watching {} ResourceId.pods "default" "7" none expiring) marks events
          (.raised surfaced) ∧
        WatchRun (Client.watch {} ResourceId.pods "default" "7" none) expiring marks events
          (.raised surfaced) ∧
        surfaced.isGone = true := by
  have hfeed : expiring.WellFormed := by
    intro item hitem
    obtain rfl | rfl : item = _ ∨ item = _ := by simpa using hitem
    · exact ⟨_, rfl⟩
    · exact ⟨_, rfl⟩
  obtain ⟨-, hwatch, -⟩ := boundary {} ResourceId.pods "default"
  obtain ⟨hall, htake⟩ := hwatch "7" none expiring
  obtain ⟨ending, hruns, hfailure, hsuits⟩ := htake none
  obtain rfl | ⟨surfaced, rfl⟩ := hsuits.of_none
  · cases hfailure
  · obtain ⟨hrun, hgone⟩ := hall hfeed _ _ _ hruns
    exact ⟨hfeed, _, _, surfaced, hruns, hrun, hgone surfaced rfl⟩

end Transport

end LiveCluster
