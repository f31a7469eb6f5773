import LiveCluster.Simulation.Cluster
import LiveCluster.Simulation.Point
import Mathlib.Data.List.Nodup

/-!
# What is to be delivered

The pods of a tail decide what its streams are and which pods are reported as failures.
What a stream reads decides which events it delivers: one for each line, and one for a
failure, after which nothing is read. `Told` says where a stream can stand that has read
so much.
-/

namespace LiveCluster

open Simulation

/-- The pod and the container from which an event comes. -/
def LogEvent.origin : LogEvent → String × String
  | .line pod container _ _ | .failure pod container _ => (pod, container)

namespace TailTarget

def origin (target : TailTarget) : String × String :=
  (target.pod.name, target.container)

def line (target : TailTarget) (options : TailOptions) (text : String) : LogEvent :=
  .line target.pod.name target.container text options.multiPods

def failure (target : TailTarget) (fault : Fault) : LogEvent :=
  .failure target.pod.name target.container fault

/-- What the items that a stream reads are delivered as. -/
def events (target : TailTarget) (options : TailOptions) (items : List LogItem) :
    List LogEvent :=
  items.flatMap fun
    | .line text => [target.line options text]
    | .ended => []
    | .failed fault => [target.failure fault]

theorem events_append (target : TailTarget) (options : TailOptions) (items items' : List LogItem) :
    target.events options (items ++ items') =
      target.events options items ++ target.events options items' :=
  List.flatMap_append

theorem events_lines (target : TailTarget) (options : TailOptions) (texts : List String) :
    target.events options (texts.map .line) = texts.map (target.line options) := by
  induction texts with
  | nil => rfl
  | cons text rest ih => exact congrArg (target.line options text :: ·) ih

theorem origin_of_mem_events {target : TailTarget} {options : TailOptions}
    {items : List LogItem} {e : LogEvent} (h : e ∈ target.events options items) :
    e.origin = target.origin := by
  obtain ⟨item, -, he⟩ := List.mem_flatMap.1 h
  cases item with
  | ended => cases he
  | line text | failed fault =>
      rw [List.mem_singleton.1 he]
      rfl

end TailTarget

namespace Tailer

/-- The streams of several pods. -/
def allTargets (options : TailOptions) (pods : List Snapshot) : List TailTarget :=
  pods.flatMap fun pod => ((targets pod options).toOption).getD []

/-- What is reported of the pods that cannot be decoded. -/
def failures (options : TailOptions) (pods : List Snapshot) : List LogEvent :=
  pods.flatMap fun pod => match targets pod options with
    | .ok _ => []
    | .error fault => [.failure pod.name "" fault]

variable {options : TailOptions} {pods : List Snapshot} {pod : Snapshot}

theorem allTargets_append (pods pods' : List Snapshot) :
    allTargets options (pods ++ pods') = allTargets options pods ++ allTargets options pods' :=
  List.flatMap_append

theorem failures_append (pods pods' : List Snapshot) :
    failures options (pods ++ pods') = failures options pods ++ failures options pods' :=
  List.flatMap_append

theorem allTargets_ok {more : List TailTarget} (h : targets pod options = .ok more) :
    allTargets options [pod] = more := by
  simp [allTargets, h, Except.toOption]

theorem failures_ok {more : List TailTarget} (h : targets pod options = .ok more) :
    failures options [pod] = [] := by
  simp [failures, h]

theorem allTargets_error {fault : Fault} (h : targets pod options = .error fault) :
    allTargets options [pod] = [] := by
  simp [allTargets, h, Except.toOption]

theorem failures_error {fault : Fault} (h : targets pod options = .error fault) :
    failures options [pod] = [.failure pod.name "" fault] := by
  simp [failures, h]

theorem pod_of_mem_targets {more : List TailTarget} {target : TailTarget}
    (h : targets pod options = .ok more) (hmem : target ∈ more) : target.pod = pod := by
  unfold targets at h
  cases hnames : containers pod options with
  | error fault => rw [hnames] at h; cases h
  | ok names =>
      rw [hnames] at h
      cases h
      obtain ⟨name, -, rfl⟩ := List.mem_map.1 hmem
      rfl

/-- No two pods have the same name, and no two containers of a pod. -/
structure Distinct (options : TailOptions) (pods : List Snapshot) : Prop where
  names : (pods.map (·.name)).Nodup
  containers : ∀ pod ∈ pods, ∀ more, targets pod options = .ok more →
    (more.map (·.container)).Nodup

theorem Distinct.tail (h : Distinct options (pod :: pods)) : Distinct options pods where
  names := (List.nodup_cons.1 h.names).2
  containers other hmem := h.containers other (List.mem_cons_of_mem pod hmem)

theorem pod_of_mem_allTargets {target : TailTarget} (h : target ∈ allTargets options pods) :
    target.pod ∈ pods := by
  obtain ⟨pod, hpod, hmem⟩ := List.mem_flatMap.1 h
  cases htargets : targets pod options with
  | error fault => rw [htargets] at hmem; cases hmem
  | ok more =>
      rw [htargets] at hmem
      rw [pod_of_mem_targets htargets hmem]
      exact hpod

/-- Then no two streams deliver events of the same origin. -/
theorem Distinct.origins (h : Distinct options pods) :
    ((allTargets options pods).map (·.origin)).Nodup := by
  induction pods with
  | nil => exact List.nodup_nil
  | cons pod rest ih =>
      have hrest := ih h.tail
      rw [← List.singleton_append, allTargets_append, List.map_append, List.nodup_append]
      refine ⟨?_, hrest, ?_⟩
      · cases htargets : targets pod options with
        | error fault => rw [allTargets_error htargets]; exact List.nodup_nil
        | ok more =>
            rw [allTargets_ok htargets]
            have hmore := h.containers pod List.mem_cons_self more htargets
            unfold List.Nodup at hmore ⊢
            rw [List.pairwise_map] at hmore ⊢
            exact hmore.imp fun hne heq => hne (congrArg Prod.snd heq)
      · -- streams of different pods have different origins by the names of the pods
        intro a ha b hb hab
        obtain ⟨target, htarget, rfl⟩ := List.mem_map.1 ha
        obtain ⟨target', htarget', rfl⟩ := List.mem_map.1 hb
        have hpod := List.mem_singleton.1 (pod_of_mem_allTargets htarget)
        have hname : target'.pod.name = pod.name := by
          rw [← hpod]
          exact (congrArg Prod.fst hab).symm
        refine (List.nodup_cons.1 h.names).1 ?_
        show pod.name ∈ rest.map (·.name)
        rw [← hname]
        exact List.mem_map_of_mem (pod_of_mem_allTargets htarget')

/-- A pod that cannot be decoded has no streams, so what is reported of it comes from none. -/
theorem Distinct.failures (h : Distinct options pods) {e : LogEvent}
    (he : e ∈ failures options pods) : e.origin ∉ (allTargets options pods).map (·.origin) := by
  obtain ⟨pod, hpod, hfailure⟩ := List.mem_flatMap.1 he
  rintro htarget
  obtain ⟨target, hmem, horigin⟩ := List.mem_map.1 htarget
  obtain ⟨other, hother, hmore⟩ := List.mem_flatMap.1 hmem
  cases hfault : targets pod options with
  | ok more => rw [hfault] at hfailure; cases hfailure
  | error fault =>
      rw [hfault] at hfailure
      cases List.mem_singleton.1 hfailure
      cases hok : targets other options with
      | error fault' => rw [hok] at hmore; cases hmore
      | ok more =>
          rw [hok] at hmore
          have hname : other.name = pod.name := by
            rw [← pod_of_mem_targets hok hmore]
            exact congrArg Prod.fst horigin
          have hsame := List.inj_on_of_nodup_map h.names hother hpod hname
          rw [hsame, hfault] at hok
          cases hok

end Tailer

namespace Simulation

/-! ## Where a stream can stand -/

/-- The event that a stream is about to deliver. -/
def StreamPoint.due : StreamPoint → List LogEvent
  | .delivering d _ => [d.event]
  | _ => []

/-- Where a stream that goes on can stand after it has read so many items. -/
inductive Told (target : TailTarget) (options : TailOptions) : List LogItem → StreamPoint → Prop
  | opening : Told target options [] .opening
  | reading (texts : List String) : Told target options (texts.map .line) .reading
  | line (texts : List String) (text : String) (waited : Bool) :
      Told target options (texts.map .line ++ [.line text])
        (.delivering { event := target.line options text, waited := waited } false)
  | failed (texts : List String) (fault : Fault) (waited : Bool) :
      Told target options (texts.map .line ++ [.failed fault])
        (.delivering { event := target.failure fault, waited := waited } true)

/-- What a stream that has ended can have read. -/
def ToldAll (items : List LogItem) : Prop :=
  ∃ texts : List String, items = texts.map .line ++ [.ended] ∨
    ∃ fault, items = texts.map .line ++ [.failed fault]

/-- What a stream that has ended delivers: the lines that it has read, and its failure if it
failed. -/
def Whole (target : TailTarget) (options : TailOptions) (items : List LogItem)
    (events : List LogEvent) : Prop :=
  ∃ texts : List String,
    items = texts.map .line ++ [.ended] ∧ events = texts.map (target.line options) ∨
    ∃ fault, items = texts.map .line ++ [.failed fault] ∧
      events = texts.map (target.line options) ++ [target.failure fault]

theorem ToldAll.whole {items : List LogItem} (h : ToldAll items) (target : TailTarget)
    (options : TailOptions) : Whole target options items (target.events options items) := by
  obtain ⟨texts, rfl | ⟨fault, rfl⟩⟩ := h
  · refine ⟨texts, .inl ⟨rfl, ?_⟩⟩
    rw [TailTarget.events_append, TailTarget.events_lines]
    exact List.append_nil _
  · refine ⟨texts, .inr ⟨fault, rfl, ?_⟩⟩
    rw [TailTarget.events_append, TailTarget.events_lines]
    rfl

theorem StreamPoint.length_due_le (p : StreamPoint) : p.due.length ≤ 1 := by
  cases p <;> simp [due]

end Simulation

/-! ## What belongs to a task -/

/-- Of items that belong to tasks, those of one task. -/
def ofTask {α : Type} (t : TaskId) (items : List (TaskId × α)) : List α :=
  (items.filter (·.1 == t)).map (·.2)

section
variable {α : Type} {t u : TaskId} {items items' : List (TaskId × α)}

theorem ofTask_append : ofTask t (items ++ items') = ofTask t items ++ ofTask t items' := by
  rw [ofTask, List.filter_append, List.map_append]
  rfl

theorem ofTask_self (as : List α) : ofTask t (as.map (t, ·)) = as := by
  induction as with
  | nil => rfl
  | cons a rest ih =>
      rw [List.map_cons, ofTask, List.filter_cons_of_pos (by simp)]
      exact congrArg (a :: ·) ih

theorem ofTask_other (hne : u ≠ t) (as : List α) : ofTask t (as.map (u, ·)) = [] := by
  rw [ofTask, List.filter_eq_nil_iff.2, List.map_nil]
  intro item hitem
  obtain ⟨a, -, rfl⟩ := List.mem_map.1 hitem
  simpa using hne

theorem mem_ofTask {a : α} : a ∈ ofTask t items ↔ (t, a) ∈ items := by
  simp [ofTask]

end

/-- Where events come from tells which task delivered them, if no two tasks deliver events of
the same origin. -/
theorem filter_origin {pairs : List (TaskId × TailTarget)} {tagged : List (TaskId × LogEvent)}
    {t : TaskId} {target : TailTarget}
    (hpairs : (pairs.map fun pair => pair.2.origin).Nodup)
    (htagged : ∀ u e, (u, e) ∈ tagged → ∃ target, (u, target) ∈ pairs ∧ e.origin = target.origin)
    (hown : ∀ target', (t, target') ∈ pairs → target' = target) (ht : (t, target) ∈ pairs) :
    (tagged.map (·.2)).filter (·.origin == target.origin) = ofTask t tagged := by
  rw [List.filter_map, ofTask]
  refine congrArg _ (List.filter_congr fun item hitem => ?_)
  obtain ⟨target', hmem, horigin⟩ := htagged item.1 item.2 hitem
  show (item.2.origin == target.origin) = (item.1 == t)
  rw [horigin, Bool.eq_iff_iff, beq_iff_eq, beq_iff_eq]
  constructor
  · intro hsame
    exact congrArg Prod.fst (List.inj_on_of_nodup_map hpairs hmem ht hsame)
  · intro hsame
    rw [hown target' (hsame ▸ hmem)]

end LiveCluster
