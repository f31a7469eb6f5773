import LiveCluster.Proofs.Access.Search
import LiveCluster.Proofs.Tail.Closing

/-!
# A workload's own pods

A workload must never reach pods of others. Whoever tails a workload or asks for a pod that can
stand for it is told of pods by the cache, and these are the pods of the workload's namespace that
carry all the labels that the workload names; one that names none is refused before any pod is
looked at. And none of its own pods is passed over.
-/

namespace LiveCluster

namespace Tailer

/-- The containers of a pod whose logs are to be read: the one that is asked for, or all that the
pod's specification names. A pod that cannot be decoded names none. -/
def wanted (options : TailOptions) (pod : Snapshot) : List String :=
  match options.container with
  | some name => if name.isEmpty then named else [name]
  | none => named
where
  named : List String :=
    match Kind.pod.decode pod.raw with
    | .ok object => Decoded.containers object
    | .error _ => []

theorem allTargets_eq (options : TailOptions) (pods : List Snapshot) : allTargets options pods =
    pods.flatMap fun pod => (wanted options pod).map fun container => ⟨pod, container⟩ := by
  have hnamed : ∀ pod, (containers.named pod).toOption.getD [] = wanted.named pod := by
    intro pod
    rw [containers.named, wanted.named]
    cases Kind.pod.decode pod.raw <;> rfl
  refine List.flatMap_congr fun pod _ => ?_
  rw [targets]
  have hcontainers : (containers pod options).toOption.getD [] = wanted options pod := by
    rw [containers, wanted]
    cases options.container with
    | none => exact hnamed pod
    | some name =>
        cases hempty : name.isEmpty with
        | true => simpa [hempty] using hnamed pod
        | false => simp [hempty, Except.toOption]
  rw [← hcontainers]
  cases containers pod options <;> rfl

theorem wanted_withDefaults (config : TailConfig) (options : TailOptions) (multi : Bool)
    (pod : Snapshot) :
    wanted (withDefaults config { options with multiPods := multi }) pod = wanted options pod := by
  rw [withDefaults]
  split <;> rfl

/-- The first in order is not after any other. -/
theorem least_of_sorted {rows rest : List Snapshot} {pod : Snapshot}
    (h : sorted rows = pod :: rest) : pod ∈ rows ∧ ∀ other ∈ rows, pod.path ≤ other.path := by
  have hmem : ∀ other, other ∈ rows ↔ other ∈ pod :: rest := fun other => by
    rw [← h]
    exact mem_sortBy.symm
  have hordered : (sorted rows).Pairwise fun x y => decide (x.path ≤ y.path) = true :=
    sortBy_pairwise (fun x y => by simpa using String.le_total x.path y.path)
      (fun x y z hxy hyz => by
        simp only [decide_eq_true_eq] at *
        exact String.le_trans hxy hyz) rows
  rw [h] at hordered
  refine ⟨(hmem pod).2 List.mem_cons_self, fun other hother => ?_⟩
  rcases List.mem_cons.1 ((hmem other).1 hother) with rfl | hother
  · exact String.le_refl _
  · simpa using (List.pairwise_cons.1 hordered).1 other hother

end Tailer

namespace Simulation

namespace World

variable {w y : World} {s : SinkId} {t v : TaskId} {op : Operation} {turns : List World}
  {a : Accessor} {kind : Kind} {path ns : String} {f : FactoryId}
  {labels : List (String × String)}

/-- The pods in a cache that live in a namespace and carry all of the labels, in their order. -/
def ownPods (w : World) (f : FactoryId) (ns : String) (labels : List (String × String)) :
    List Snapshot :=
  match w.lookup f .pods ns with
  | some i => (w.informer i).cache.items.entries.filter fun pod => decide (pod.Owned ns labels)
  | none => []

/-- The selector of a workload finds its own pods. -/
theorem list_ownPods (hpods : w.cluster.namespaced .pods = true) (inLoop : Bool) :
    (w.list f .pods ns (some (.ofPairs labels)) inLoop).2 = w.ownPods f ns labels := by
  have hns : w.scopeNamespace .pods ns = ns := by
    rw [scopeNamespace, hpods]
    rfl
  unfold list ownPods
  rw [hns]
  dsimp only
  cases w.lookup f .pods ns with
  | none => rfl
  | some i =>
      refine List.filter_congr fun pod _ => ?_
      rw [Bool.eq_iff_iff, Partition.belongs_ofPairs, decide_eq_true_iff]

/-- A call has found a workload in the cache that names labels for its pods. -/
def HasRead (a : Accessor) (kind : Kind) (path : String) (op : Operation)
    (passed : List (World × Exchange)) (labels : List (String × String)) : Prop :=
  ∃ x workload v, (x, .told (.object a.rid path) (some workload)) ∈ passed ∧
    (x.get op.factory a.rid path op.inLoop).2 = some workload ∧
    kind.decode workload.raw = .ok v ∧ Decoded.matchLabels v = .ofTexts labels

/-- What holds of a call that has been told of rows of the cache of pods, when it is known which
labels the workload names. -/
structure ReadsPods (a : Accessor) (kind : Kind) (path : String) (op : Operation)
    (passed : List (World × Exchange)) (y : World) (labels : List (String × String))
    (rows : List Snapshot) : Prop where
  workload : HasRead a kind path op passed labels
  labelled : labels ≠ []
  rows : rows = y.ownPods op.factory (Accessor.nsOf path) labels

/-- Why a call that has ended has not looked for pods: it was cancelled, or could not watch a cache,
or what is at the path of the workload is of no use. -/
def Excused (a : Accessor) (kind : Kind) (path : String) (refusal : Option Fault)
    (passed : List (World × Exchange)) (e : Ending Report) : Prop :=
  e = .cancelled ∨ ∃ x fault, e = .failed fault ∧ ((x, .waited (.error fault)) ∈ passed ∨
    ∃ object, (x, .told (.object a.rid path) object) ∈ passed ∧
      a.Unfit kind path refusal object fault)

/-! ## Where a plan leads its call -/

variable {told : Stance Next → Prop} {streams : List (TaskId × Stream)} {shut : Prop}

/-- A call has opened all the streams of the tail that its plan has found, or none. -/
theorem Stage.streams_cases (h : Stage op s t told streams shut w) :
    streams = [] ∨ ∃ call, call.sink = s ∧ Finds told call ∧ streams.map (·.2) = call.streams := by
  cases h with
  | finding _ _ _ _ _ hnone | lost _ _ _ hnone | reporting _ _ _ _ _ _ hnone
  | quit _ _ _ hnone => exact .inl hnone
  | supervising _ _ _ hsink hfinds _ hstreams | clearing _ _ _ hsink hfinds _ _ _ hstreams
  | done _ _ hsink hfinds _ _ hstreams => exact .inr ⟨_, hsink, hfinds, hstreams⟩

/-- Where a plan has failed its call has failed, and no stream is open. -/
theorem Stage.of_failed {fault : Fault} (h : Stage op s t told streams shut w)
    (hplan : ∀ st, told st → st = .ready (.done (.error fault))) :
    w.loop.ending? t = some (.failed fault) ∧ streams = [] := by
  cases h with
  | finding _ _ _ _ hcomes => cases hplan _ hcomes
  | lost hending _ hmissed hnone =>
      cases hmissed with
      | cancelled hcomes | returned hcomes => cases hplan _ hcomes
      | failed hcomes =>
          cases hplan _ hcomes
          exact ⟨hending, hnone⟩
  | reporting _ _ _ _ hfinds | supervising _ _ _ _ hfinds | clearing _ _ _ _ hfinds
  | quit _ _ hfinds | done _ _ _ hfinds => cases hplan _ hfinds

/-- Where a plan has found its pods, their streams are open unless the call still has to report some
of them, or was ended before. -/
theorem Stage.of_found {start : TailStart} (h : Stage op s t told streams shut w)
    (hplan : ∀ st, told st → st = .ready (.done (.ok (.tail start)))) :
    w.AwaitsReport s t ∧ streams = [] ∨
      (w.loop.ending? t = some .cancelled ∨ shut) ∧ streams = [] ∨
      streams.map (·.2) = (TailCall.mk s start.pods start.options).streams := by
  cases h with
  | finding _ _ _ _ hcomes => cases hplan _ hcomes
  | lost _ _ hmissed =>
      cases hmissed with
      | cancelled hcomes | returned hcomes | failed hcomes => cases hplan _ hcomes
  | @reporting a call targets pods d out ha hgoing hpoint hsink _ hreports hnone =>
      exact .inl ⟨⟨a, call, targets, pods, d, out, ha, hgoing, hpoint, hsink, hreports⟩, hnone⟩
  | quit hending _ _ hnone how =>
      refine .inr (.inl ⟨?_, hnone⟩)
      rcases how with rfl | ⟨-, hshut⟩
      · exact .inl hending
      · exact .inr hshut
  | @supervising _ call _ _ _ _ _ hsink hfinds _ hstreams
  | @clearing _ call _ _ _ _ _ _ _ hsink hfinds _ _ _ hstreams
  | @done _ call _ _ hsink hfinds _ _ hstreams =>
      have hstart := hplan _ hfinds
      subst hsink
      cases hstart
      exact .inr (.inr hstreams)

/-- Where a plan has failed that has no sink, its call has failed. -/
theorem Seeks.of_failed {fault : Fault} (h : Seeks op t told w)
    (hplan : ∀ st, told st → st = .ready (.done (.error fault))) :
    w.loop.ending? t = some (.failed fault) := by
  cases h with
  | waiting _ _ _ hcomes => cases hplan _ hcomes
  | ended hending how =>
      rcases how with (hcomes | hcomes | hcomes) | ⟨begun, hcomes⟩ <;> cases hplan _ hcomes
      exact hending

/-- Where a plan has come to its report that has no sink, its call has returned it. -/
theorem Seeks.of_report {r : Report} (h : Seeks op t told w)
    (hplan : ∀ st, told st → st = .ready (.done (.ok (.report r)))) :
    w.loop.ending? t = some (.returned r) := by
  cases h with
  | waiting _ _ _ hcomes => cases hplan _ hcomes
  | ended hending how =>
      rcases how with (hcomes | hcomes | hcomes) | ⟨begun, hcomes⟩ <;> cases hplan _ hcomes
      exact hending

/-- A call without a sink that has returned something has come to a success of its plan. -/
theorem Seeks.of_returned {r : Report} (h : Seeks op t told w)
    (hending : w.loop.ending? t = some (.returned r)) :
    told (.ready (.done (.ok (.report r)))) ∨
      ∃ start, told (.ready (.done (.ok (.tail start)))) := by
  cases h with
  | waiting ha hgoing => exact absurd hending (Loop.ending?_ne_some ha hgoing)
  | ended he how =>
      cases he.symm.trans hending
      rcases how with hmissed | hfound
      · cases hmissed with
        | returned hcomes => exact .inl hcomes
      · exact .inr hfound

/-! ## Calls that search -/

variable {refusal : Option Fault} {finish : Selector → List Snapshot → Except Fault Next}
  {st : Stance Next}

theorem mem_passed {e : Exchange} (h : e ∈ (passed t turns).map (·.2)) :
    ∃ y, (y, e) ∈ passed t turns := by
  obtain ⟨⟨y, e'⟩, hmem, rfl⟩ := List.mem_map.1 h
  exact ⟨y, hmem⟩

/-- Whoever searches for pods and is told of rows has read a workload that names labels, and the
rows are the workload's own pods. -/
theorem Call.readsPods (h : Call t op (a.search kind path refusal finish) turns w)
    (hkind : kind.isWorkload = true)
    (hpods : ∀ y e, (y, e) ∈ passed t turns → y.cluster.namespaced .pods = true)
    {rid : ResourceId} {wanted : Option Selector} {rows : List Snapshot}
    (htold : (y, .told (.objects rid ns wanted) rows) ∈ passed t turns) :
    ∃ labels, ReadsPods a kind path op (passed t turns) y labels rows ∧ refusal = none ∧
      ∀ st, (a.search kind path refusal finish).Follows ((passed t turns).map (·.2)) st →
        st = .ready (.done (finish (.ofPairs labels) rows)) := by
  have hmem : .told (.objects rid ns wanted) rows ∈ (passed t turns).map (·.2) :=
    List.mem_map_of_mem (f := (·.2)) htold
  obtain ⟨st₀, hst₀⟩ := h.follows
  obtain ⟨rfl, rfl, object, v, selector, rfl, hobject, husable, hrefusal, -⟩ :=
    (Accessor.searched_of_follows hst₀).told_pods hmem
  obtain ⟨workload, labels, rfl, hdecode, hlabels, hsome, rfl⟩ :=
    Accessor.labels_of_usable hkind husable
  obtain ⟨x, hx⟩ := mem_passed hobject
  refine ⟨labels, ⟨⟨x, workload, v, hx, (h.answered hx).symm, hdecode, hlabels⟩, hsome, ?_⟩,
    hrefusal, fun st hst => ?_⟩
  · exact (h.answered htold).trans (list_ownPods (hpods y _ htold) op.inLoop)
  · obtain ⟨-, -, _, _, selector, hselector, -, -, -, hready⟩ :=
      (Accessor.searched_of_follows hst).told_pods hmem
    cases hselector
    exact hready

/-- Whoever has searched for pods and is over has been told of rows, or has a reason. -/
theorem Call.told_or_excused (h : Call t op (a.search kind path refusal finish) turns w)
    {e : Ending Report} (he : w.loop.ending? t = some e) :
    Excused a kind path refusal (passed t turns) e ∨ ∃ y selector rows,
      (y, .told (.objects .pods (Accessor.nsOf path) (some selector)) rows) ∈ passed t turns := by
  rcases h.plan_over he with hcancelled | ⟨result, hfollows, hfails⟩
  · exact .inl (.inl hcancelled)
  rcases (Accessor.searched_of_follows hfollows).of_over rfl with
    ⟨fault, hfault, hmem⟩ | ⟨object, fault, hfault, hmem, hunfit⟩ | ⟨selector, rows, hmem, -⟩
  · obtain ⟨x, hx⟩ := mem_passed hmem
    exact .inl (.inr ⟨x, fault, hfails fault hfault, .inl hx⟩)
  · obtain ⟨x, hx⟩ := mem_passed hmem
    exact .inl (.inr ⟨x, fault, hfails fault hfault, .inr ⟨object, hx, hunfit⟩⟩)
  · obtain ⟨y, hy⟩ := mem_passed hmem
    exact .inr ⟨y, selector, rows, hy⟩

/-- Whoever searches for pods and succeeds has been told of rows. -/
theorem told_of_success {x : Next} (h : (a.search kind path refusal finish).Follows
    ((passed t turns).map (·.2)) (.ready (.done (.ok x)))) : ∃ y selector rows,
      (y, .told (.objects .pods (Accessor.nsOf path) (some selector)) rows) ∈ passed t turns := by
  obtain ⟨selector, rows, htold, -⟩ := (Accessor.searched_of_follows h).of_success rfl
  obtain ⟨y, hy⟩ := mem_passed htold
  exact ⟨y, selector, rows, hy⟩

/-- Whoever searches for the pods of a workload that names no labels fails, and asks for no pods. -/
theorem Call.unselective (h : Call t op (a.search kind path refusal finish) turns w) {x : World}
    {workload : Snapshot} {v : Value}
    (htold : (x, .told (.object a.rid path) (some workload)) ∈ passed t turns)
    (hdecode : kind.decode workload.raw = .ok v)
    (hnone : v.at? ["spec", "selector", "matchLabels"] = .null ∨
      v.at? ["spec", "selector", "matchLabels"] = .record []) :
    (∀ st, (a.search kind path refusal finish).Follows ((passed t turns).map (·.2)) st →
      st = .ready (.done (.error (.noSelector a.rid.kindText path)))) ∧
      ∀ y rid ns wanted, (y, .asked (.objects rid ns wanted)) ∉ passed t turns := by
  have hunfit : ∀ st, (a.search kind path refusal finish).Follows ((passed t turns).map (·.2)) st →
      _ := fun st hst => (Accessor.searched_of_follows hst).of_unfit
    (List.mem_map_of_mem (f := (·.2)) htold) (Accessor.usable_of_unselective hdecode hnone)
  obtain ⟨st, hst⟩ := h.follows
  exact ⟨fun st hst => (hunfit st hst).1, fun y rid ns wanted hasked =>
    (hunfit st hst).2 rid ns wanted (List.mem_map_of_mem (f := (·.2)) hasked)⟩

/-! ## Tails of workloads -/

/-- What holds of a call that tails a workload into a sink. -/
structure TailsOwn (a : Accessor) (kind : Kind) (options : TailOptions) (op : Operation)
    (s : SinkId) (t : TaskId) (turns : List World) (w : World) : Prop where
  /-- Only logs of pods are opened that were the workload's own when they were looked up. -/
  own : ∀ v stream, (v, stream) ∈ opened t turns → ∃ y labels rows,
    ReadsPods a kind options.path op (passed t turns) y labels rows ∧ stream.target.pod ∈ rows
  /-- A workload that names no labels is refused before any pod is looked at. -/
  unselective : ∀ x workload v,
    (x, .told (.object a.rid options.path) (some workload)) ∈ passed t turns →
    kind.decode workload.raw = .ok v →
    v.at? ["spec", "selector", "matchLabels"] = .null ∨
      v.at? ["spec", "selector", "matchLabels"] = .record [] →
    w.loop.ending? t = some (.failed (.noSelector a.rid.kindText options.path)) ∧
      opened t turns = [] ∧
      ∀ y rid ns wanted, (y, .asked (.objects rid ns wanted)) ∉ passed t turns
  /-- Unless it has a reason, a call that has ended has looked its pods up. -/
  looks : ∀ e, w.loop.ending? t = some e →
    Excused a kind options.path a.noTailer (passed t turns) e ∨ ∃ y selector rows,
      (y, .told (.objects .pods (Accessor.nsOf options.path) (some selector)) rows) ∈ passed t turns
  /-- Once its pods were looked up, all of them are tailed. -/
  all : ∀ y rid ns wanted rows, (y, .told (.objects rid ns wanted) rows) ∈ passed t turns →
    ∃ labels, ReadsPods a kind options.path op (passed t turns) y labels rows ∧
      if rows = [] then
        w.loop.ending? t = some (.failed (Accessor.podless options.path (.ofPairs labels))) ∧
          opened t turns = []
      else
        (w.AwaitsReport s t ∧ opened t turns = []) ∨
          (w.loop.ending? t = some .cancelled ∨ Shut s turns) ∧ opened t turns = [] ∨
          (opened t turns).map (·.2) = (Tailer.sorted rows).flatMap fun pod =>
            (Tailer.wanted options pod).map fun container => ⟨s, ⟨pod, container⟩,
              Tailer.withDefaults (a.tailer.getD {})
                { options with multiPods := decide (1 < rows.length) }⟩

theorem tail_eq_search (hkind : kind.isWorkload = true) (options : TailOptions) :
    (do return .tail (← a.tail kind options) : Plan Next) =
      a.search kind options.path a.noTailer fun selector rows =>
        (Accessor.tailOf (a.tailer.getD {}) options selector rows).map .tail := by
  rw [← Accessor.search_map, ← Accessor.tailWorkload_eq_search]
  show (a.tail kind options).bind _ = _
  rw [Accessor.tail, if_pos hkind]
  rfl

/-- What a workload with pods is tailed with. -/
theorem tailOf_rows {rows : List Snapshot} (hsome : rows ≠ []) (config : TailConfig)
    (options : TailOptions) (selector : Selector) :
    Accessor.tailOf config options selector rows = .ok ⟨Tailer.sorted rows,
      Tailer.withDefaults config { options with multiPods := decide (1 < rows.length) }⟩ := by
  rw [Accessor.tailOf, if_neg (by simpa using hsome)]

/-- The streams of such a tail. -/
theorem streams_rows (s : SinkId) (rows : List Snapshot) (config : TailConfig)
    (options : TailOptions) (multi : Bool) :
    (TailCall.mk s rows (Tailer.withDefaults config { options with multiPods := multi })).streams =
      rows.flatMap fun pod => (Tailer.wanted options pod).map fun container => ⟨s, ⟨pod, container⟩,
        Tailer.withDefaults config { options with multiPods := multi }⟩ := by
  rw [TailCall.streams, Tailer.allTargets_eq, List.map_flatMap]
  refine List.flatMap_congr fun pod _ => ?_
  rw [List.map_map, Tailer.wanted_withDefaults]
  rfl

/-- Streams are opened for the pods of a tail only. -/
theorem pod_of_stream {call : TailCall} {stream : Stream} (h : stream ∈ call.streams) :
    stream.target.pod ∈ call.pods := by
  rw [TailCall.streams, Tailer.allTargets_eq] at h
  obtain ⟨target, htarget, rfl⟩ := List.mem_map.1 h
  obtain ⟨pod, hpod, hcontainer⟩ := List.mem_flatMap.1 htarget
  obtain ⟨container, -, rfl⟩ := List.mem_map.1 hcontainer
  exact hpod

theorem Call.tailsOwn {options : TailOptions}
    (h : Call t op (do return .tail (← a.tail kind options)) turns w) (hop : op.sink = some s)
    (hkind : kind.isWorkload = true)
    (hpods : ∀ y e, (y, e) ∈ passed t turns → y.cluster.namespaced .pods = true) :
    TailsOwn a kind options op s t turns w := by
  rw [tail_eq_search hkind] at h
  have hstage := h.stage hop
  refine ⟨fun v stream hopened => ?_, fun x workload v htold hdecode hnone => ?_,
    fun e he => h.told_or_excused he, fun y rid ns wanted rows htold => ?_⟩
  · rcases hstage.streams_cases with hnone | ⟨call, rfl, hfinds, hstreams⟩
    · rw [hnone] at hopened
      cases hopened
    · obtain ⟨y, selector, rows, htold⟩ := told_of_success hfinds
      obtain ⟨labels, hreads, -, hall⟩ := h.readsPods hkind hpods htold
      refine ⟨y, labels, rows, hreads, ?_⟩
      have hpod : stream.target.pod ∈ call.pods :=
        pod_of_stream (hstreams ▸ List.mem_map_of_mem (f := (·.2)) hopened)
      have hstart := hall _ hfinds
      by_cases hsome : rows = []
      · rw [hsome] at hstart
        cases hstart
      · simp only [tailOf_rows hsome, Except.map, Stance.ready.injEq, Plan.done.injEq,
          Except.ok.injEq, Next.tail.injEq, TailStart.mk.injEq] at hstart
        rw [hstart.1] at hpod
        exact mem_sortBy.1 hpod
  · obtain ⟨hplan, hnever⟩ := h.unselective htold hdecode hnone
    obtain ⟨hending, hstreams⟩ := hstage.of_failed hplan
    exact ⟨hending, hstreams, hnever⟩
  · obtain ⟨labels, hreads, -, hall⟩ := h.readsPods hkind hpods htold
    refine ⟨labels, hreads, ?_⟩
    split
    · next hempty =>
        refine hstage.of_failed fun st hst => ?_
        rw [hall st hst, hempty]
        rfl
    · next hsome =>
        rw [tailOf_rows hsome] at hall
        rw [← streams_rows]
        exact hstage.of_found hall

/-! ## Pods that stand for a workload -/

/-- What holds of a call that asks for a pod that can stand for a workload. -/
structure ResolvesOwn (a : Accessor) (kind : Kind) (path : String) (op : Operation) (t : TaskId)
    (turns : List World) (w : World) : Prop where
  /-- The pod that it returns is the first of the workload's own. -/
  own : ∀ report, w.loop.ending? t = some (.returned report) → ∃ y labels rows pod,
    ReadsPods a kind path op (passed t turns) y labels rows ∧ pod ∈ rows ∧
      (∀ other ∈ rows, pod.path ≤ other.path) ∧ report = .text pod.path
  /-- A workload that names no labels is refused before any pod is looked at. -/
  unselective : ∀ x workload v, (x, .told (.object a.rid path) (some workload)) ∈ passed t turns →
    kind.decode workload.raw = .ok v →
    v.at? ["spec", "selector", "matchLabels"] = .null ∨
      v.at? ["spec", "selector", "matchLabels"] = .record [] →
    w.loop.ending? t = some (.failed (.noSelector a.rid.kindText path)) ∧
      ∀ y rid ns wanted, (y, .asked (.objects rid ns wanted)) ∉ passed t turns
  /-- Unless it has a reason, a call that has ended has looked the pods up. -/
  looks : ∀ e, w.loop.ending? t = some e →
    Excused a kind path none (passed t turns) e ∨ ∃ y selector rows,
      (y, .told (.objects .pods (Accessor.nsOf path) (some selector)) rows) ∈ passed t turns
  /-- Once the pods were looked up it returns one of them, unless there are none. -/
  all : ∀ y rid ns wanted rows, (y, .told (.objects rid ns wanted) rows) ∈ passed t turns →
    ∃ labels, ReadsPods a kind path op (passed t turns) y labels rows ∧
      if rows = [] then
        w.loop.ending? t = some (.failed (Accessor.podless path (.ofPairs labels)))
      else
        ∃ pod ∈ rows, (∀ other ∈ rows, pod.path ≤ other.path) ∧
          w.loop.ending? t = some (.returned (.text pod.path))

theorem resolve_eq_search : Session.reporting (a.resolvePod kind path) .text =
    a.search kind path none fun selector rows =>
      (Accessor.firstOf path selector rows).map fun first => .report (.text first) := by
  rw [← Accessor.search_map, ← Accessor.resolvePod_eq_search]
  rfl

theorem firstOf_rows {rows : List Snapshot} (hsome : rows ≠ []) (path : String)
    (selector : Selector) : ∃ pod ∈ rows, (∀ other ∈ rows, pod.path ≤ other.path) ∧
      Accessor.firstOf path selector rows = .ok pod.path := by
  cases hsorted : Tailer.sorted rows with
  | nil =>
      obtain ⟨pod, hpod⟩ := List.exists_mem_of_ne_nil rows hsome
      have hnone : pod ∈ Tailer.sorted rows := mem_sortBy.2 hpod
      rw [hsorted] at hnone
      cases hnone
  | cons pod rest =>
      obtain ⟨hmem, hleast⟩ := Tailer.least_of_sorted hsorted
      exact ⟨pod, hmem, hleast, by rw [Accessor.firstOf, hsorted]⟩

theorem Call.resolvesOwn
    (h : Call t op (Session.reporting (a.resolvePod kind path) .text) turns w)
    (hop : op.sink = none) (hkind : kind.isWorkload = true)
    (hpods : ∀ y e, (y, e) ∈ passed t turns → y.cluster.namespaced .pods = true) :
    ResolvesOwn a kind path op t turns w := by
  rw [resolve_eq_search] at h
  have hseeks := h.seeks hop
  refine ⟨fun report hending => ?_, fun x workload v htold hdecode hnone => ?_,
    fun e he => h.told_or_excused he, fun y rid ns wanted rows htold => ?_⟩
  · have hsuccess : ∃ x : Next, (a.search kind path none fun selector rows =>
        (Accessor.firstOf path selector rows).map fun first => Next.report (.text first)).Follows
          ((passed t turns).map (·.2)) (.ready (.done (.ok x))) ∧
        (x = .report report ∨ ∃ start, x = .tail start) := by
      rcases hseeks.of_returned hending with hcomes | ⟨start, hcomes⟩
      · exact ⟨_, hcomes, .inl rfl⟩
      · exact ⟨_, hcomes, .inr ⟨start, rfl⟩⟩
    obtain ⟨x, hcomes, hx⟩ := hsuccess
    obtain ⟨y, selector, rows, htold⟩ := told_of_success hcomes
    obtain ⟨labels, hreads, -, hall⟩ := h.readsPods hkind hpods htold
    have hready := hall _ hcomes
    by_cases hsome : rows = []
    · rw [hsome] at hready
      cases hready
    · obtain ⟨pod, hpod, hleast, hfirst⟩ := firstOf_rows hsome path (.ofPairs labels)
      rw [hfirst] at hready
      refine ⟨y, labels, rows, pod, hreads, hpod, hleast, ?_⟩
      cases hready
      rcases hx with hx | ⟨start, hx⟩ <;> cases hx
      rfl
  · obtain ⟨hplan, hnever⟩ := h.unselective htold hdecode hnone
    exact ⟨hseeks.of_failed hplan, hnever⟩
  · obtain ⟨labels, hreads, -, hall⟩ := h.readsPods hkind hpods htold
    refine ⟨labels, hreads, ?_⟩
    split
    · next hempty =>
        refine hseeks.of_failed fun st hst => ?_
        rw [hall st hst, hempty]
        rfl
    · next hsome =>
        obtain ⟨pod, hpod, hleast, hfirst⟩ := firstOf_rows hsome path (.ofPairs labels)
        refine ⟨pod, hpod, hleast, hseeks.of_report fun st hst => ?_⟩
        rw [hall st hst, hfirst]
        rfl

/-! ## Both -/

/-- Whoever tails a workload, or asks for the pod that stands for it, comes to the workload's own
pods and to no others. -/
theorem own_pods (a : Accessor) (hkind : kind.isWorkload = true)
    (hpods : ∀ y e, (y, e) ∈ passed t turns → y.cluster.namespaced .pods = true) :
    (∀ s options, op.sink = some s →
      Call t op (do return .tail (← a.tail kind options)) turns w →
      TailsOwn a kind options op s t turns w) ∧
    ∀ path, op.sink = none →
      Call t op (Session.reporting (a.resolvePod kind path) .text) turns w →
      ResolvesOwn a kind path op t turns w :=
  ⟨fun _ _ hop h => h.tailsOwn hop hkind hpods, fun _ hop h => h.resolvesOwn hop hkind hpods⟩

/-- A workload that selects the web's pods. -/
def webDeployment : Value :=
  .record [
    ("kind", .text "Deployment"),
    ("metadata", .record [
      ("namespace", .text "default"), ("name", .text "web"), ("resourceVersion", .text "1")]),
    ("spec", .record [("selector", .record [("matchLabels", .record [("app", .text "web")])])])]

/-- A pod that is not one of the web's. -/
def strayPod : Value :=
  .record [
    ("kind", .text "Pod"),
    ("metadata", .record [
      ("namespace", .text "default"), ("name", .text "db"), ("resourceVersion", .text "1"),
      ("labels", .record [("app", .text "db")])]),
    ("spec", .record [("containers", .list [.record [("name", .text "app")]])])]

/-- A session in which both kinds are watched and there is a sink. -/
def watchingBoth : Session :=
  (((((Session.new {} {} default none).heard (.objects .deployments [webDeployment])).heard
    (.objects .pods (strayPod :: soundPods))).heard (.ensureWatch .deployments "")).heard
    (.ensureWatch .pods "")).heard (.sink "s" (some 1))

/-- What is asked of the workload. -/
def askingWeb (what : Access) : Request :=
  .access .deployments false what

theorem lived_watchingBoth : Lived watchingBoth.world := by
  have hworkload := (Lived.new {} {} default none).heard
    (r := .objects .deployments [webDeployment]) (by simp) fun _ hk => by cases hk
  have hpods := hworkload.heard (r := .objects .pods (strayPod :: soundPods)) (by simp)
    fun _ hk => by cases hk
  have hfirst := hpods.heard (r := .ensureWatch .deployments "") (by simp) fun _ hk => by cases hk
  have hsecond := hfirst.heard (r := .ensureWatch .pods "") (by simp) fun _ hk => by cases hk
  exact hsecond.heard (by simp) fun _ hk => by cases hk

/-- The accessor of deployments. -/
def deployments : Accessor :=
  { rid := .deployments, accessorClass := .typed .deployment, tailer := some {} }

/-- Of two pods in the namespace of a workload one is its own. -/
theorem own_pods_web : ∃ turns turns' w w',
    Call 2 { factory := 0, sink := some 0 }
      (do return .tail (← deployments.tail .deployment { path := "default/web" })) turns w ∧
    TailsOwn deployments .deployment { path := "default/web" } { factory := 0, sink := some 0 } 0 2
      turns w ∧
    (opened 2 turns).map (fun (_, stream) => stream.target.pod.path) = ["default/a"] ∧
    Call 2 { factory := 0 } (Session.reporting
      (deployments.resolvePod .deployment "default/web") .text) turns' w' ∧
    ResolvesOwn deployments .deployment "default/web" { factory := 0 } 2 turns' w' ∧
    w'.loop.ending? 2 = some (.returned (.text "default/a")) := by
  have htails : Call 2 _ (do return .tail (← deployments.tail .deployment _)) _ _ :=
    .requested (d := watchingBoth) (r := askingWeb (.tail "s" { path := "default/web" }))
      lived_watchingBoth (by simp [askingWeb]) (by rintro k ⟨⟩; decide) rfl rfl
  have hresolves : Call 2 _ (Session.reporting (deployments.resolvePod .deployment _) .text) _ _ :=
    .requested (d := watchingBoth) (r := askingWeb (.resolve "default/web"))
      lived_watchingBoth (by simp [askingWeb]) (by rintro k ⟨⟩) rfl rfl
  have hnamespaced : ∀ {turns : List World},
      ((passed 2 turns).all fun passes => passes.1.cluster.namespaced .pods) = true →
      ∀ y e, (y, e) ∈ passed 2 turns → y.cluster.namespaced .pods = true :=
    fun h y e hmem => List.all_eq_true.1 h _ hmem
  exact ⟨_, _, _, _, htails,
    (own_pods deployments (by decide) (hnamespaced rfl)).1 0 _ rfl htails, rfl, hresolves,
    (own_pods deployments (by decide) (hnamespaced rfl)).2 _ rfl hresolves, rfl⟩

end World

end Simulation

end LiveCluster
