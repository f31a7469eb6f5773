import LiveCluster.Proofs.Simulation.Requests
import LiveCluster.Proofs.Tail.FanIn

/-!
# Tails in sessions

A session in which pods are tailed into a sink runs its course, whatever else is requested
of it, as long as nobody else uses the sink, nor cancels the tail or its consumer.
-/

namespace LiveCluster.Simulation

open Loop (StandsAt EndedAt)

namespace World

variable {w : World} {s : SinkId} {t : TaskId} {gets : List TaskId}
  {reads : List (TaskId × LogItem)}

theorem Course.advanceWithin (h : Course s t gets reads w) (n : Nat) (target : Float) :
    ∃ more, Course s t gets (reads ++ more) (w.advanceWithin n target) := by
  have hnow : ∀ {w reads}, Course s t gets reads w → ∀ now : Float, ∃ more,
      Course s t gets (reads ++ more) (settle { w with loop := { w.loop with now := now } }) := by
    intro w reads h now
    have hmild : Mild none w { w with loop := { w.loop with now := now } } := w.mild_now now
    exact (h.elsewhere (hmild.away h.flows.tidy (by simp))).settleWithin _
  induction n generalizing w reads with
  | zero => exact ⟨[], (List.append_nil reads).symm ▸ h⟩
  | succ n ih =>
      unfold World.advanceWithin
      split
      · split
        · obtain ⟨more, hmore⟩ := hnow h _
          obtain ⟨rest, hrest⟩ := ih hmore
          exact ⟨more ++ rest, List.append_assoc reads more rest ▸ hrest⟩
        · exact hnow h _
      · exact hnow h _

end World

/-- The sink into which a request tails pods. -/
def Request.tailed? : Request → Option String
  | .tail name .. | .tailPod name .. => some name
  | _ => none

/-- The sink out of which a request gets events, and whether it gets all. -/
def Request.drained? : Request → Option (String × Bool)
  | .next name => some (name, false)
  | .all name => some (name, true)
  | _ => none

namespace Session

open World (Mild Course)

variable {k : SinkId} {t : TaskId} {gets : List TaskId} {s : Session} {r : Request} {sink : String}
  {all : Bool}

theorem begin_of_tailed (inLoop : Bool) (hr : r.tailed? = some sink) :
    ∃ op plan, op.sink = some (s.sinkOf sink) ∧
      s.begin r inLoop = s.begun (.planning op plan) := by
  cases r with
  | tail | tailPod =>
      cases hr
      exact ⟨_, _, rfl, rfl⟩
  | _ => cases hr

theorem begin_of_drained (inLoop : Bool) (hr : r.drained? = some (sink, all)) :
    s.begin r inLoop = s.begun (.getting (s.sinkOf sink) (if all then some [] else none) none) := by
  cases r with
  | next | all =>
      cases hr
      rfl
  | _ => cases hr

/-- The sessions in which a task tails pods into a sink that it has for itself, and of which one
consumer gets events call by call. -/
inductive Tails (k : SinkId) (t : TaskId) : List TaskId → Session → Prop
  | call {s : Session} {r : Request} {sink : String} (name : String) (inLoop : Bool)
      (tidy : s.world.Tidy) (bound : s.sinkOf sink < s.world.sinks.length)
      (fresh : (s.world.sink (s.sinkOf sink)).closed = false)
      (empty : (s.world.sink (s.sinkOf sink)).channel.items = [])
      (free : ∀ v a, s.world.loop.task? v = some a → a.point.sink? ≠ some (s.sinkOf sink))
      (tailed : r.tailed? = some sink) (here : k = s.sinkOf sink)
      (task : t = s.world.loop.tasks.length) : Tails k t [] (s.perform name r inLoop).1
  | get {gets : List TaskId} {s : Session} {r : Request} {sink : String} {all : Bool}
      (name : String) (inLoop : Bool) (tails : Tails k t gets s)
      (drained : r.drained? = some (sink, all)) (here : s.sinkOf sink = k)
      (answered : ∀ g ∈ gets, s.world.loop.ended g = true) :
      Tails k t (gets ++ [s.world.loop.tasks.length]) (s.perform name r inLoop).1
  | elsewhere {gets : List TaskId} {s : Session} {r : Request} (name : String) (inLoop : Bool)
      (tails : Tails k t gets s) (elsewhere : s.concerns r ≠ some k) :
      Tails k t gets (s.perform name r inLoop).1
  | misstep {gets : List TaskId} {s : Session} (fault : Fault) (tails : Tails k t gets s) :
      Tails k t gets (s.misstep fault).1

theorem mild_cleared (s : Session) {f : Option SinkId} :
    Mild f s.world { s.world with journal := {} } :=
  .of_eq (.refl _ _) rfl rfl

/-- Such a session runs a course. -/
theorem Tails.course (h : Tails k t gets s) : ∃ reads, Course k t gets reads s.world := by
  induction h with
  | @call s r sink name inLoop htidy hs hopen hempty hfree hr hk ht =>
      subst hk ht
      let cleared := s.withWorld { s.world with journal := {} }
      obtain ⟨op, plan, hop, hbegin⟩ := begin_of_tailed (s := cleared) inLoop hr
      have hcall : Course (s.sinkOf sink) s.world.loop.tasks.length [] []
          (cleared.begun (.planning op plan)).1.world :=
        .call plan ((s.mild_cleared (f := none)).tidy htidy) hs hopen hempty hfree hop rfl
      rw [← hbegin] at hcall
      obtain ⟨more, hmore⟩ := hcall.settleWithin World.patience
      exact ⟨more, hmore⟩
  | @get gets s r sink all name inLoop _ hr hk hover ih =>
      obtain ⟨reads, hcourse⟩ := ih
      let cleared := s.withWorld { s.world with journal := {} }
      have hcleared := hcourse.elsewhere
        ((s.mild_cleared (f := none)).away hcourse.flows.tidy (by simp))
      have hget : Course k t (gets ++ [s.world.loop.tasks.length]) reads
          (cleared.begun (.getting k (if all then some [] else none) none)).1.world :=
        hcleared.get all hover
      have hbegin := begin_of_drained (s := cleared) inLoop hr
      rw [show cleared.sinkOf sink = k from hk] at hbegin
      rw [← hbegin] at hget
      obtain ⟨more, hmore⟩ := hget.settleWithin World.patience
      exact ⟨reads ++ more, hmore⟩
  | @elsewhere gets s r name inLoop _ hr ih =>
      obtain ⟨reads, hcourse⟩ := ih
      let cleared := s.withWorld { s.world with journal := {} }
      have hcleared := hcourse.elsewhere
        ((s.mild_cleared (f := none)).away hcourse.flows.tidy (by simp))
      obtain ⟨more, hmore⟩ : ∃ more,
          Course k t gets (reads ++ more) (cleared.begin r inLoop).1.world := by
        by_cases hadvance : ∃ seconds, r = .advance seconds
        · obtain ⟨seconds, rfl⟩ := hadvance
          exact hcleared.advanceWithin World.patience _
        · have haway := cleared.away_begin r inLoop hcleared.flows.tidy hcleared.flows.bound hr
            fun seconds hseconds => hadvance ⟨seconds, hseconds⟩
          exact ⟨[], (List.append_nil reads).symm ▸ hcleared.elsewhere haway⟩
      obtain ⟨rest, hrest⟩ := hmore.settleWithin World.patience
      exact ⟨_, hrest⟩
  | @misstep gets s fault _ ih =>
      obtain ⟨reads, hcourse⟩ := ih
      exact ⟨reads, hcourse.elsewhere
        ((s.mild_cleared (f := none)).away hcourse.flows.tidy (by simp))⟩

end Session

end LiveCluster.Simulation
