import LiveCluster.Proofs.Tail.Looking

/-!
# The course of a call

A call for logs begins when its task has its first turn, and not before: who is cancelled
earlier has not called. From then on it has turns of its own, and in between anything may
happen, also that it is cancelled, again and again, or that its sink is closed. On every such
course the call is at a `Stage`.
-/

namespace LiveCluster.Simulation

open Loop (TaskBides)

namespace World

variable {w w' x : World} {s : SinkId} {t v : TaskId} {who : Option TaskId} {op : Operation}
  {plan start : Plan Next} {turns : List World} {told : Stance Next → Prop}
  {streams : List (TaskId × Stream)} {shut : Prop} {es : List Exchange}

/-- The course of a call that carries out a plan. `turns` are the worlds at the turns of its task,
each just before. -/
inductive Call (t : TaskId) (op : Operation) (plan : Plan Next) : List World → World → Prop
  | begins {w : World} {l : Loop Point Report} (before after : List Job) (round : Nat)
      (lived : Lived w) (ready : w.loop.ready = before ++ .resume t :: after)
      (arrives : (w.withReady (before ++ after) round).loop.arrive t =
        some (l, .planning op plan, .on)) :
      Call t op plan [w.withReady (before ++ after) round]
        ((w.withReady (before ++ after) round).run (.resume t))
  | turn {turns : List World} {w : World} (before after : List Job) (round : Nat)
      (call : Call t op plan turns w) (ready : w.loop.ready = before ++ .resume t :: after) :
      Call t op plan (turns ++ [w.withReady (before ++ after) round])
        ((w.withReady (before ++ after) round).run (.resume t))
  | meanwhile {turns : List World} {who : Option TaskId} {w w' : World}
      (call : Call t op plan turns w) (happens : Happens who w w') (other : who ≠ some t) :
      Call t op plan turns w'

/-- The streams that a task has opened on its turns. -/
def opened (t : TaskId) (turns : List World) : List (TaskId × Stream) :=
  turns.flatMap fun w => (w.run (.resume t)).streamsFrom w.loop.tasks.length

/-- What passes on a turn of a task, each time with the world at that moment. -/
def looksOn (w : World) (t : TaskId) : List (World × Exchange) :=
  match w.loop.arrive t with
  | some (l, p, arrival) => { w with loop := l }.looksAt t p arrival
  | none => []

/-- What has passed on the turns of a task. -/
def passed (t : TaskId) (turns : List World) : List (World × Exchange) :=
  turns.flatMap fun w => w.looksOn t

/-- Whether a sink was closed at one of the turns. -/
def Shut (s : SinkId) (turns : List World) : Prop :=
  ∃ w ∈ turns, (w.sink s).closed = true

theorem Call.lived (h : Call t op plan turns w) : Lived w := by
  induction h with
  | begins before after round lived ready arrives => exact lived.next (.job _ _ _ ready)
  | turn before after round call ready ih => exact ih.next (.job _ _ _ ready)
  | meanwhile call happens other ih => exact ih.next happens

/-! ## From stage to stage -/

/-- While other tasks have their turns, a call stays where it is. -/
theorem Stage.frame (h : Stage op s t told streams shut w)
    (hown : ∀ a, w.loop.task? t = some a → ∃ b, w'.loop.task? t = some b ∧ TaskBides a b)
    (hclosed : (w.sink s).closed = true → (w'.sink s).closed = true)
    (hover : ∀ v, w.Over v → w'.Over v) (hawaits : ∀ v, w.AwaitsClose v s → w'.AwaitsClose v s) :
    Stage op s t told streams shut w' := by
  have hending : ∀ e, w.loop.ending? t = some e → w'.loop.ending? t = some e := fun e he => by
    obtain ⟨a, ha, hae⟩ := Option.bind_eq_some_iff.1 he
    obtain ⟨b, hb, hab⟩ := hown a ha
    exact Option.bind_eq_some_iff.2 ⟨b, hb, hab.ending.trans hae⟩
  cases h with
  | finding ha hgoing hpoint hsink htold hnone =>
      obtain ⟨b, hb, hab⟩ := hown _ ha
      exact .finding hb (hab.ending.trans hgoing) (hab.point.trans hpoint) hsink htold hnone
  | lost he hclosed' hmisses hnone => exact .lost (hending _ he) (hclosed hclosed') hmisses hnone
  | reporting ha hgoing hpoint hsink hfinds hreports hnone =>
      obtain ⟨b, hb, hab⟩ := hown _ ha
      exact .reporting hb (hab.ending.trans hgoing) (hab.point.trans hpoint) hsink hfinds hreports
        hnone
  | supervising ha hgoing hpoint hsink hfinds hids hstreams hcloser =>
      obtain ⟨b, hb, hab⟩ := hown _ ha
      exact .supervising hb (hab.ending.trans hgoing) (hab.point.trans hpoint) hsink hfinds hids
        hstreams (hawaits _ hcloser)
  | @clearing a _ _ members n off ha hgoing hpoint hsink hfinds hwait hover' hids hstreams =>
      obtain ⟨b, hb, hab⟩ := hown _ ha
      obtain ⟨n', off', hwait'⟩ : ∃ n' off', b.wait = .group members n' off' := by
        have hbides := hab.wait
        rw [hwait] at hbides
        generalize b.wait = wait at hbides ⊢
        cases hbides with
        | same => exact ⟨_, _, rfl⟩
        | group _ _ n' _ off' => exact ⟨n', off', rfl⟩
      exact .clearing hb (hab.ending.trans hgoing) (hab.point.trans hpoint) hsink hfinds hwait'
        (fun v hv => hover v (hover' v hv)) hids hstreams
  | quit he hclosed' hfinds hnone how =>
      exact .quit (hending _ he) (hclosed hclosed') hfinds hnone how
  | done he hclosed' hsink hfinds how hover' hstreams =>
      exact .done (hending _ he) (hclosed hclosed') hsink hfinds how
        (fun v hv => hover v (hover' v hv)) hstreams

theorem Stage.happens (h : Stage op s t told streams shut w) (hnext : Happens who w w')
    (hother : who ≠ some t) (hw : w.Bound) : Stage op s t told streams shut w' :=
  h.frame (fun a ha => (hnext.passes hw).others t a hother ha) ((hnext.passes hw).closed s)
    (fun _ hv => hv.happens hnext hw) fun _ hv => hv.happens hnext hw

/-- Who is on his way was told so. -/
theorem onWay_arrive {l : Loop Point Report} {p : Point} {arrival : Arrival} (htidy : w.Tidy)
    (hbound : w.Bound) (harrive : w.loop.arrive t = some (l, p, arrival)) (hp : p.sink? = some s)
    (hhelper : p.isHelper = false) : OnWay s t { w with loop := l } := by
  obtain ⟨a, ha, hgoing, rfl, -, hl⟩ := Loop.arrive_spec harrive
  exact ⟨htidy.arrive harrive, hbound t a s ha hp, _, hl, hgoing, hp, hhelper⟩

/-- A turn of a call that goes on. -/
theorem Stage.turn {l : Loop Point Report} {p : Point} {arrival : Arrival}
    (h : Stage op s t (start.Follows es) streams shut w) (htidy : w.Tidy) (hbound : w.Bound)
    (harrive : w.loop.arrive t = some (l, p, arrival)) {shut' : Prop}
    (hshut : (w.sink s).closed = true → shut') :
    Reaches op s t (start.Follows (es ++ (looksAt { w with loop := l } t p arrival).map (·.2)))
      streams shut' { w with loop := l } (runPoint { w with loop := l } t p arrival) := by
  obtain ⟨a, ha, hgoing, rfl, -, hl⟩ := Loop.arrive_spec harrive
  have hother : ∀ v, v ≠ t → w.loop.task? v = l.task? v :=
    fun v hv => (task?_arrive harrive hv).symm
  cases h with
  | lost he | quit he | done he => exact absurd he (Loop.ending?_ne_some ha hgoing)
  | finding ha' _ hpoint hsink htold hnone =>
      cases ha.symm.trans ha'
      subst hnone
      rw [hpoint] at harrive ⊢
      exact reaches_halts hsink (onWay_arrive htidy hbound harrive hsink rfl) hshut
        (runSyncing_spec _ arrival htold)
  | reporting ha' _ hpoint hsink hfinds hreports hnone =>
      cases ha.symm.trans ha'
      subst hnone hsink
      rw [hpoint] at harrive ⊢
      rw [looksAt_of_none rfl, List.map_nil, List.append_nil]
      exact reaches_runReporting (onWay_arrive htidy hbound harrive rfl rfl) hfinds hshut hreports
        arrival
  | @supervising _ call tasks pending ha' _ hpoint hsink hfinds hids hstreams hcloser =>
      cases ha.symm.trans ha'
      subst hsink
      have hy := onWay_arrive htidy hbound harrive (by rw [hpoint]; rfl) (by rw [hpoint]; rfl)
      have hseats := hy.tidy.wards t _ hl hgoing
      rw [hpoint] at harrive ⊢
      rw [show ({ a with wait := .none, mustCancel := false } : Task Point Report).point = _
        from hpoint] at hseats
      have hne := hy.ne_of_seat (hseats tasks.closer (List.mem_append_right _ List.mem_cons_self))
      rw [looksAt_of_none rfl, List.map_nil, List.append_nil]
      exact reaches_runSupervising hy hfinds pending arrival hids hstreams hseats
        (hcloser.bides fun b hb => ⟨b, (hother _ hne).symm.trans hb, .refl b⟩)
  | @clearing _ call cancelled members n off ha' _ hpoint hsink hfinds hwait hover hids hstreams =>
      cases ha.symm.trans ha'
      subst hsink
      have hy := onWay_arrive htidy hbound harrive (by rw [hpoint]; rfl) (by rw [hpoint]; rfl)
      have hseats := ((htidy.waits t a ha).group members n off hwait).2
      rw [hpoint] at harrive ⊢
      rw [looksAt_of_none rfl, List.map_nil, List.append_nil]
      refine reaches_runClearing hy hfinds cancelled arrival (fun v hv => ?_) hstreams
      have hne : v ≠ t := by
        rintro rfl
        obtain ⟨b, hb, -, hhelper⟩ := hseats v (hids v hv)
        cases ha.symm.trans hb
        rw [hpoint] at hhelper
        cases hhelper
      exact ⟨hne, (hover v (hids v hv)).of_eq (hother v hne).symm⟩

/-- A call that has ended may still be in the queue. -/
theorem Stage.gone (h : Stage op s t told streams shut w) (hgone : w.loop.arrive t = none)
    {shut' : Prop} (hshut : shut → shut') : Stage op s t told streams shut' w := by
  have hgoing : ∀ a, w.loop.task? t = some a → a.ending ≠ none := by
    intro a ha hending
    unfold Loop.arrive at hgone
    rw [ha] at hgone
    dsimp only at hgone
    rw [hending] at hgone
    cases hgone
  cases h with
  | finding ha hending | reporting ha hending | supervising ha hending | clearing ha hending =>
      exact absurd hending (hgoing _ ha)
  | lost he hclosed hmisses hnone => exact .lost he hclosed hmisses hnone
  | quit he hclosed hfinds hnone how =>
      exact .quit he hclosed hfinds hnone (how.imp_right (.imp_right hshut))
  | done he hclosed hsink hfinds how hover hstreams =>
      exact .done he hclosed hsink hfinds how hover hstreams

/-! ## The whole course -/

theorem opened_append (t : TaskId) (turns : List World) (x : World) :
    opened t (turns ++ [x]) =
      opened t turns ++ (x.run (.resume t)).streamsFrom x.loop.tasks.length := by
  rw [opened, List.flatMap_append, List.flatMap_singleton]
  rfl

theorem passed_append (t : TaskId) (turns : List World) (x : World) :
    passed t (turns ++ [x]) = passed t turns ++ x.looksOn t := by
  rw [passed, List.flatMap_append, List.flatMap_singleton]
  rfl

theorem Shut.append (h : Shut s turns) (x : World) : Shut s (turns ++ [x]) :=
  h.imp fun _ hy => ⟨List.mem_append_left _ hy.1, hy.2⟩

/-- What the task of a call does on a turn is what is counted. -/
theorem Reaches.run {l : Loop Point Report} {p : Point} {arrival : Arrival}
    (harrive : w.loop.arrive t = some (l, p, arrival))
    (h : Reaches op s t told streams shut { w with loop := l }
      (runPoint { w with loop := l } t p arrival)) :
    Stage op s t told (streams ++ (w.run (.resume t)).streamsFrom w.loop.tasks.length) shut
      (w.run (.resume t)) := by
  obtain ⟨new, hopens, hstage⟩ := h
  have hlength : l.tasks.length = w.loop.tasks.length := (Loop.spares_arrive harrive).length
  have hnew := hopens.opened
  rw [show ({ w with loop := l } : World).loop.tasks.length = w.loop.tasks.length from hlength]
    at hnew
  rw [World.run, harrive]
  dsimp only
  rw [hnew]
  exact hstage

theorem Lived.withReady (h : Lived w) (ready : List Job) (round : Nat) :
    (w.withReady ready round).Tidy ∧ (w.withReady ready round).Bound := by
  have hmild : Mild none w (w.withReady ready round) := w.mild_withReady ready round
  exact ⟨hmild.tidy h.orderly.tidy, h.orderly.bound.mild hmild (by simp)⟩

/-- On every course a call that has a sink is at a stage. -/
theorem Call.stage (h : Call t op plan turns w) (hop : op.sink = some s) :
    Stage op s t (plan.Follows ((passed t turns).map (·.2))) (opened t turns) (Shut s turns) w := by
  induction h with
  | @begins w l before after round lived ready arrives =>
      obtain ⟨htidy, hbound⟩ := lived.withReady (before ++ after) round
      generalize w.withReady (before ++ after) round = x at htidy hbound arrives ⊢
      have hshut : (x.sink s).closed = true → Shut s [x] := fun h => ⟨x, List.mem_cons_self, h⟩
      have hreaches := reaches_halts hop (onWay_arrive htidy hbound arrives hop rfl) hshut
        (carryOut_spec plan _ (.start (p := plan)))
      have hlooks : passed t [x] = looks op plan { x with loop := l } := by
        rw [passed, List.flatMap_singleton, looksOn, arrives]
        rfl
      rw [opened, List.flatMap_singleton, hlooks]
      exact hreaches.run arrives
  | @turn turns w before after round call ready ih =>
      obtain ⟨htidy, hbound⟩ := call.lived.withReady (before ++ after) round
      have hx : Stage op s t _ _ _ (w.withReady (before ++ after) round) :=
        ih.frame (fun a ha => ⟨a, ha, .refl a⟩) (fun h => h) (fun _ hv => hv.of_eq rfl)
          fun _ hv => hv.bides fun a ha => ⟨a, ha, .refl a⟩
      generalize w.withReady (before ++ after) round = x at htidy hbound hx ⊢
      rw [opened_append, passed_append, List.map_append]
      cases harrive : x.loop.arrive t with
      | none =>
          have hrun : x.run (.resume t) = x := by rw [World.run, harrive]
          have hnone : x.streamsFrom x.loop.tasks.length = [] := (Opens.refl x).opened
          rw [hrun, hnone, looksOn, harrive, List.map_nil, List.append_nil, List.append_nil]
          exact hx.gone harrive (·.append x)
      | some arrived =>
          obtain ⟨l, p, arrival⟩ := arrived
          rw [looksOn, harrive]
          exact (hx.turn htidy hbound harrive
            fun h => ⟨x, List.mem_append_right _ List.mem_cons_self, h⟩).run harrive
  | meanwhile call happens other ih => exact ih.happens happens other call.lived.orderly.bound

/-! ## Calls without a sink -/

theorem Seeks.frame (h : Seeks op t told w)
    (hown : ∀ a, w.loop.task? t = some a → ∃ b, w'.loop.task? t = some b ∧ TaskBides a b) :
    Seeks op t told w' := by
  cases h with
  | waiting ha hgoing hpoint hcomes =>
      obtain ⟨b, hb, hab⟩ := hown _ ha
      exact .waiting hb (hab.ending.trans hgoing) (hab.point.trans hpoint) hcomes
  | ended he how =>
      obtain ⟨a, ha, hae⟩ := Option.bind_eq_some_iff.1 he
      obtain ⟨b, hb, hab⟩ := hown a ha
      exact .ended (Option.bind_eq_some_iff.2 ⟨b, hb, hab.ending.trans hae⟩) how

/-- On every course a call that has no sink waits for a cache or is over. -/
theorem Call.seeks (h : Call t op plan turns w) (hop : op.sink = none) :
    Seeks op t (plan.Follows ((passed t turns).map (·.2))) w := by
  induction h with
  | @begins w l before after round lived ready arrives =>
      generalize w.withReady (before ++ after) round = x at arrives ⊢
      obtain ⟨a, -, hgoing, -, -, hl⟩ := Loop.arrive_spec arrives
      have hlooks : passed t [x] = looks op plan { x with loop := l } := by
        rw [passed, List.flatMap_singleton, looksOn, arrives]
        rfl
      rw [hlooks, World.run, arrives]
      exact seeks_halts hop ⟨{ a with wait := .none, mustCancel := false }, hl, hgoing⟩
        (carryOut_spec plan _ (.start (p := plan)))
  | @turn turns w before after round call ready ih =>
      have hx : Seeks op t _ (w.withReady (before ++ after) round) :=
        ih.frame fun a ha => ⟨a, ha, .refl a⟩
      generalize w.withReady (before ++ after) round = x at hx ⊢
      rw [passed_append, List.map_append, looksOn, World.run]
      cases harrive : x.loop.arrive t with
      | none =>
          rw [List.map_nil, List.append_nil]
          exact hx
      | some arrived =>
          obtain ⟨l, p, arrival⟩ := arrived
          obtain ⟨a, ha, hgoing, rfl, -, hl⟩ := Loop.arrive_spec harrive
          cases hx with
          | waiting ha' _ hpoint hcomes =>
              cases ha.symm.trans ha'
              dsimp only
              rw [hpoint]
              exact seeks_halts hop ⟨{ a with wait := .none, mustCancel := false }, hl, hgoing⟩
                (runSyncing_spec _ arrival hcomes)
          | ended he => exact absurd he (Loop.ending?_ne_some ha hgoing)
  | meanwhile call happens other ih =>
      exact ih.frame fun a ha => (happens.passes call.lived.orderly.bound).others t a other ha

/-! ## What a call has been told -/

/-- What has passed is what may pass. -/
theorem Call.follows (h : Call t op plan turns w) :
    ∃ st, plan.Follows ((passed t turns).map (·.2)) st := by
  have hmisses : ∀ {told : Stance Next → Prop} {e}, Misses told e → ∃ st, told st := by
    rintro told e (hcomes | hcomes | hcomes) <;> exact ⟨_, hcomes⟩
  cases hop : op.sink with
  | none =>
      cases h.seeks hop with
      | waiting _ _ _ hcomes => exact ⟨_, hcomes⟩
      | ended _ how =>
          rcases how with hmissed | ⟨begun, hcomes⟩
          · exact hmisses hmissed
          · exact ⟨_, hcomes⟩
  | some s =>
      cases h.stage hop with
      | finding _ _ _ _ hcomes => exact ⟨_, hcomes⟩
      | lost _ _ hmissed => exact hmisses hmissed
      | reporting _ _ _ _ hfinds | supervising _ _ _ _ hfinds | clearing _ _ _ _ hfinds
      | quit _ _ hfinds | done _ _ _ hfinds => exact ⟨_, hfinds⟩

/-- A call that has ended was cancelled, or its plan was over. -/
theorem Call.plan_over (h : Call t op plan turns w) {e : Ending Report}
    (he : w.loop.ending? t = some e) : e = .cancelled ∨
      ∃ result, plan.Follows ((passed t turns).map (·.2)) (.ready (.done result)) ∧
        ∀ fault, result = .error fault → e = .failed fault := by
  have hmisses : ∀ {e'}, w.loop.ending? t = some e' →
      Misses (plan.Follows ((passed t turns).map (·.2))) e' → e = .cancelled ∨ ∃ result,
        plan.Follows ((passed t turns).map (·.2)) (.ready (.done result)) ∧
          ∀ fault, result = .error fault → e = .failed fault := by
    intro e' he' hmissed
    cases he.symm.trans he'
    cases hmissed with
    | cancelled => exact .inl rfl
    | failed hcomes => exact .inr ⟨_, hcomes, by rintro _ ⟨⟩; rfl⟩
    | returned hcomes => exact .inr ⟨_, hcomes, by rintro _ ⟨⟩⟩
  cases hop : op.sink with
  | none =>
      cases h.seeks hop with
      | waiting ha hgoing => exact absurd he (Loop.ending?_ne_some ha hgoing)
      | ended he' how =>
          rcases how with hmissed | ⟨begun, hcomes⟩
          · exact hmisses he' hmissed
          · exact .inr ⟨_, hcomes, by rintro _ ⟨⟩⟩
  | some s =>
      cases h.stage hop with
      | finding ha hgoing | reporting ha hgoing | supervising ha hgoing | clearing ha hgoing =>
          exact absurd he (Loop.ending?_ne_some ha hgoing)
      | lost he' _ hmissed => exact hmisses he' hmissed
      | quit _ _ hfinds | done _ _ _ hfinds => exact .inr ⟨_, hfinds, by rintro _ ⟨⟩⟩

/-- A call carries out no plan but its own. -/
theorem Call.operation (h : Call t op plan turns w) {a : Task Point Report}
    (ha : w.loop.task? t = some a) (hgoing : a.ending = none) :
    ∀ o, a.point.operation? = some o → o = op := by
  intro o ho
  cases hop : op.sink with
  | none =>
      cases h.seeks hop with
      | waiting hb _ hpoint =>
          cases ha.symm.trans hb
          rw [hpoint] at ho
          exact (Option.some.inj ho).symm
      | ended he => exact absurd he (Loop.ending?_ne_some ha hgoing)
  | some s =>
      cases h.stage hop with
      | finding hb _ hpoint =>
          cases ha.symm.trans hb
          rw [hpoint] at ho
          exact (Option.some.inj ho).symm
      | reporting hb _ hpoint | supervising hb _ hpoint | clearing hb _ hpoint =>
          cases ha.symm.trans hb
          rw [hpoint] at ho
          cases ho
      | lost he | quit he | done he => exact absurd he (Loop.ending?_ne_some ha hgoing)

/-- What a call is told is the answer at that moment. -/
theorem Call.answered (h : Call t op plan turns w) {y : World} {q : Ask} {answer : q.Answer}
    (hmem : (y, .told q answer) ∈ passed t turns) : answer = (y.answer op q).2 := by
  induction h with
  | @begins w l before after round lived ready arrives =>
      rw [passed, List.flatMap_singleton, looksOn, arrives] at hmem
      exact told_of_looks hmem
  | @turn turns w before after round call ready ih =>
      rw [passed_append, looksOn] at hmem
      rcases List.mem_append.1 hmem with hmem | hmem
      · exact ih hmem
      · split at hmem
        · next l p arrival harrive =>
            obtain ⟨a, ha, hgoing, rfl, -, -⟩ := Loop.arrive_spec harrive
            exact told_of_looksAt (call.operation ha hgoing) hmem
        · cases hmem
  | meanwhile call happens other ih => exact ih hmem

/-! ## Requests that are waited out -/

/-- Runs what is ready, one job after another, but no more than so many. The timers are not looked
at. -/
def runReady : Nat → World → World
  | 0, w => w
  | n + 1, w =>
    match w.loop.ready with
    | [] => w
    | job :: rest => runReady n ((w.withReady rest w.loop.round).run job)

/-- The turns that a task has meanwhile. -/
def readyTurns (t : TaskId) : Nat → World → List World
  | 0, _ => []
  | n + 1, w =>
    match w.loop.ready with
    | [] => []
    | job :: rest =>
      let x := w.withReady rest w.loop.round
      (if job.resumed? = some t then [x] else []) ++ readyTurns t n (x.run job)

/-- What lasts whatever happens lasts while that is run. -/
theorem lasts_runReady {P : World → Prop} (hP : ∀ who w w', P w → Happens who w w' → P w')
    (h : P w) (n : Nat) : P (w.runReady n) := by
  induction n generalizing w with
  | zero => exact h
  | succ n ih =>
      unfold World.runReady
      split
      · exact h
      · next job rest hready => exact ih (hP _ _ _ h (.job [] rest _ hready))

theorem Call.runReady (h : Call t op plan turns w) (n : Nat) :
    Call t op plan (turns ++ w.readyTurns t n) (w.runReady n) := by
  induction n generalizing turns w with
  | zero => exact (List.append_nil turns).symm ▸ h
  | succ n ih =>
      unfold World.runReady World.readyTurns
      split
      · exact (List.append_nil turns).symm ▸ h
      · next job rest hready =>
          have hjob : Call t op plan
              (turns ++ if job.resumed? = some t then [w.withReady rest w.loop.round] else [])
              ((w.withReady rest w.loop.round).run job) := by
            split
            · next hturn =>
                cases job <;> cases hturn
                exact h.turn [] rest _ hready
            · next hother =>
                exact (List.append_nil turns).symm ▸ h.meanwhile (.job [] rest _ hready) hother
          rw [← List.append_assoc]
          exact ih hjob

end World

namespace Session

/-- A request is made, and what comes of it is waited out. -/
def heard (d : Session) (r : Request) : Session :=
  let next := (d.begin r true).1
  next.withWorld (next.world.runReady 40)

end Session

namespace World

variable {d : Session} {r : Request}

theorem Lived.heard (h : Lived d.world) (instant : ∀ seconds, r ≠ .advance seconds)
    (known : ∀ k, d.concerns r = some k → k < d.world.sinks.length) :
    Lived (d.heard r).world :=
  lasts_runReady (fun _ _ _ h hnext => h.next hnext) (h.next (.request d r true instant known)) 40

/-- The call that a request makes begins when its task has its turn. -/
theorem Call.requested {l : Loop Point Report} (h : Lived d.world)
    (instant : ∀ seconds, r ≠ .advance seconds)
    (known : ∀ k, d.concerns r = some k → k < d.world.sinks.length)
    (ready : (d.begin r true).1.world.loop.ready = [.resume t])
    (arrives : ((d.begin r true).1.world.withReady [] 0).loop.arrive t =
      some (l, .planning op plan, .on)) :
    Call t op plan [(d.begin r true).1.world.withReady [] 0]
      (((d.begin r true).1.world.withReady [] 0).run (.resume t)) :=
  .begins [] [] 0 (h.next (.request d r true instant known)) ready arrives

theorem Call.heard (h : Call t op plan turns d.world) (instant : ∀ seconds, r ≠ .advance seconds)
    (known : ∀ k, d.concerns r = some k → k < d.world.sinks.length) :
    Call t op plan (turns ++ (d.begin r true).1.world.readyTurns t 40) (d.heard r).world :=
  (h.meanwhile (.request d r true instant known) (by simp)).runReady 40

end World

end LiveCluster.Simulation
