import LiveCluster.Proofs.Tail.Stages

/-!
# What a call is told

A call asks its questions on its own turns and is told the answers on the spot, from the
world as it is at that moment. Only a wait for a first listing comes in between. `looksAt`
lists what passes on a turn, and when, and then the stance of the plan is one to which it
may have come by that.

Asking changes nothing but the caches: a turn is `Calm` up to where the plan `Halts`.
-/

namespace LiveCluster.Simulation

open Loop (TaskBides)

/-- The operation whose plan a task carries out at a point. -/
def Point.operation? : Point → Option Operation
  | .planning op _ | .syncing op _ _ => some op
  | _ => none

namespace World

/-- What passes while a plan is carried out up to its end or its next wait, each time with the
world at that moment. -/
def looks (op : Operation) : Plan Next → World → List (World × Exchange)
  | .done _, _ => []
  | .ask question next, w =>
    let (x, answer) := w.answer op question
    (w, .asked question) :: (w, .told question answer) :: looks op (next answer) x
  | .sync rid ns _ next, w =>
    match w.ensureWatch op.factory rid ns op.inLoop with
    | (w, .error fault) => (w, .waited (.error fault)) :: looks op (next (.error fault)) w
    | (w, .ok i) =>
      if (w.informer i).cache.synced then (w, .waited (.ok true)) :: looks op (next (.ok true)) w
      else []

/-- What passes when a task goes on from a point. -/
def looksAt (w : World) (t : TaskId) : Point → Arrival → List (World × Exchange)
  | .planning op plan, .on => looks op plan w
  | .syncing op _ next, .on =>
    let w := w.withLoop fun l => (l.endLimit t false).1
    (w, .waited (.ok true)) :: looks op (next (.ok true)) w
  | .syncing op i next, .cancelled _ =>
    let x := w.informer i
    let w := w.setInformer i { x with waiters := x.waiters.filter (· ≠ t) }
    let (loop, timedOut) := w.loop.endLimit t true
    let w := { w with loop := loop }
    if timedOut then (w, .waited (.ok false)) :: looks op (next (.ok false)) w else []
  | _, _ => []

variable {w w' x y : World} {s : SinkId} {t : TaskId} {told : Stance Next → Prop} {shut : Prop}
  {op : Operation} {start : Plan Next} {es : List Exchange}

/-! ## On the way -/

/-- No task is moved, no stream is opened, and the sinks are left alone. -/
structure Calm (w x : World) : Prop where
  tidy : w.Tidy → x.Tidy
  bides : ∀ v a, w.loop.task? v = some a → ∃ b, x.loop.task? v = some b ∧ TaskBides a b
  opens : Opens [] w x
  sinks : x.sinks.length = w.sinks.length
  sink : ∀ s, x.sink s = w.sink s

theorem Calm.refl (w : World) : Calm w w :=
  ⟨fun h => h, fun _ a ha => ⟨a, ha, .refl a⟩, .refl w, rfl, fun _ => rfl⟩

theorem Calm.trans (h : Calm w x) (h' : Calm x y) : Calm w y where
  tidy ht := h'.tidy (h.tidy ht)
  bides v a ha := by
    obtain ⟨b, hb, hab⟩ := h.bides v a ha
    obtain ⟨c, hc, hbc⟩ := h'.bides v b hb
    exact ⟨c, hc, hab.trans hbc⟩
  opens := h.opens.none_then h'.opens
  sinks := h'.sinks.trans h.sinks
  sink s := (h'.sink s).trans (h.sink s)

theorem Calm.of_mild (h : Mild none w x) : Calm w x where
  tidy := h.tidy
  bides v a ha := by
    obtain ⟨b, hb, hab⟩ := h.eases v a ha
    exact ⟨b, hb, hab.bides⟩
  opens := .of_mild h
  sinks := h.sinks
  sink s := h.sink s (by simp)

/-- A time limit is over. -/
theorem calm_endLimit (w : World) (t : TaskId) (cancelled : Bool) :
    Calm w (w.withLoop fun l => (l.endLimit t cancelled).1) where
  tidy ht := ht.endLimit t cancelled
  bides _ _ ha := (w.loop.keeps_endLimit t cancelled).bides ha
  opens := .of_bides (w.loop.spares_endLimit t cancelled).length
    fun _ _ ha => (w.loop.keeps_endLimit t cancelled).bides ha
  sinks := rfl
  sink _ := rfl

theorem OnWay.calm (h : OnWay s t w) (hx : Calm w x) : OnWay s t x where
  tidy := hx.tidy h.tidy
  bound := hx.sinks ▸ h.bound
  going := h.going.bides fun a ha => hx.bides t a ha

/-- A turn comes to the end of a plan, or to a wait, or hears that it was cancelled in one. -/
inductive Halts (op : Operation) (t : TaskId) (told : Stance Next → Prop) (x : World) :
    World → Prop
  | concludes {result : Except Fault Next} (comes : told (.ready (.done result))) :
      Halts op t told x (x.conclude t op result)
  | waits {rid : ResourceId} {ns : String} {timeout : Option Float}
      {next : Except Fault Bool → Plan Next} (i : InformerId) (limit : Float)
      (comes : told (.ready (.sync rid ns timeout next))) :
      Halts op t told x (x.awaitSync t op i limit next)
  | leaves (comes : told .cancelled) : Halts op t told x ((x.release op).finish t .cancelled)

theorem carryOut_spec (plan : Plan Next) (w : World) (hplan : start.Follows es (.ready plan)) :
    ∃ x, Calm w x ∧ Halts op t (start.Follows (es ++ (looks op plan w).map (·.2))) x
      (carryOut t op plan w) := by
  induction plan generalizing w es with
  | done result =>
      rw [looks, List.map_nil, List.append_nil]
      exact ⟨w, .refl w, .concludes hplan⟩
  | ask question next ih =>
      have hanswer : Mild none w _ := w.mild_answer op question
      obtain ⟨x, hx, hhalts⟩ := ih (w.answer op question).2 (w.answer op question).1
        ((hplan.move (.ask question next)).move (.answer question next (w.answer op question).2))
      rw [List.append_assoc, List.append_assoc] at hhalts
      exact ⟨x, (Calm.of_mild hanswer).trans hx, hhalts⟩
  | sync rid ns timeout next ih =>
      have hensure : Mild none w _ := w.mild_ensureWatch op.factory rid ns op.inLoop
      unfold carryOut looks
      generalize w.ensureWatch op.factory rid ns op.inLoop = ensured at hensure ⊢
      obtain ⟨v, result⟩ := ensured
      have hwait : ∀ r, ∃ x, Calm w x ∧ Halts op t (start.Follows
          (es ++ ((v, .waited r) :: looks op (next r) v).map (·.2))) x
            (carryOut t op (next r) v) := by
        intro r
        obtain ⟨x, hx, hhalts⟩ := ih r v (hplan.move (.wait rid ns timeout next r))
        rw [List.append_assoc] at hhalts
        exact ⟨x, (Calm.of_mild hensure).trans hx, hhalts⟩
      cases result with
      | error fault => exact hwait (.error fault)
      | ok i =>
          dsimp only
          split
          · exact hwait (.ok true)
          · rw [List.map_nil, List.append_nil]
            exact ⟨v, .of_mild hensure, .waits i _ hplan⟩

/-- What a plan is told is the answer at that moment. -/
theorem told_of_looks {plan : Plan Next} {q : Ask} {answer : q.Answer}
    (h : (y, .told q answer) ∈ looks op plan w) : answer = (y.answer op q).2 := by
  induction plan generalizing w with
  | done result => cases h
  | ask question next ih =>
      simp only [looks, List.mem_cons, Prod.mk.injEq, reduceCtorEq, and_false, false_or] at h
      rcases h with ⟨rfl, h⟩ | h
      · cases h
        rfl
      · exact ih _ h
  | sync rid ns timeout next ih =>
      unfold looks at h
      split at h
      · simp only [List.mem_cons, Prod.mk.injEq, reduceCtorEq, and_false, false_or] at h
        exact ih _ h
      · split at h
        · simp only [List.mem_cons, Prod.mk.injEq, reduceCtorEq, and_false, false_or] at h
          exact ih _ h
        · cases h

theorem told_of_looksAt {p : Point} {arrival : Arrival} {q : Ask} {answer : q.Answer}
    (hp : ∀ o, p.operation? = some o → o = op) (h : (y, .told q answer) ∈ w.looksAt t p arrival) :
    answer = (y.answer op q).2 := by
  have hwaited : ∀ {v r plan}, (y, .told q answer) ∈ (v, .waited r) :: looks op plan v →
      answer = (y.answer op q).2 := by
    intro v r plan hmem
    simp only [List.mem_cons, Prod.mk.injEq, reduceCtorEq, and_false, false_or] at hmem
    exact told_of_looks hmem
  cases p with
  | planning o plan =>
      cases hp o rfl
      cases arrival with
      | on => exact told_of_looks h
      | cancelled woken => cases h
  | syncing o i next =>
      cases hp o rfl
      cases arrival with
      | on => exact hwaited h
      | cancelled woken =>
          unfold looksAt at h
          dsimp only at h
          split at h
          · exact hwaited h
          · cases h
  | _ => cases h

/-- Nothing passes where no plan is carried out. -/
theorem looksAt_of_none {p : Point} {arrival : Arrival} (hp : p.operation? = none) :
    w.looksAt t p arrival = [] := by
  unfold looksAt
  split <;> first | rfl | cases hp

/-- The wait for a first listing is over, in one way or another. -/
theorem runSyncing_spec (w : World) {i : InformerId} {rid : ResourceId} {ns : String}
    {timeout : Option Float} {next : Except Fault Bool → Plan Next} (arrival : Arrival)
    (hplan : start.Follows es (.ready (.sync rid ns timeout next))) :
    ∃ x, Calm w x ∧ Halts op t
      (start.Follows (es ++ (w.looksAt t (.syncing op i next) arrival).map (·.2))) x
      (w.runSyncing t op i next arrival) := by
  have hwait : ∀ r v, Calm w v → ∃ x, Calm w x ∧ Halts op t (start.Follows
      (es ++ ((v, .waited r) :: looks op (next r) v).map (·.2))) x (carryOut t op (next r) v) := by
    intro r v hv
    obtain ⟨x, hx, hhalts⟩ := carryOut_spec (next r) v (hplan.move (.wait rid ns timeout next r))
    rw [List.append_assoc] at hhalts
    exact ⟨x, hv.trans hx, hhalts⟩
  cases arrival with
  | on => exact hwait (.ok true) _ (w.calm_endLimit t false)
  | cancelled woken =>
      let x : Watched := { w.informer i with waiters := (w.informer i).waiters.filter (· ≠ t) }
      have hleave : Mild none w (w.setInformer i x) := w.mild_setInformer fun v hv => .inl hv
      have hover := (Calm.of_mild hleave).trans (calm_endLimit _ t true)
      unfold runSyncing looksAt
      dsimp only
      split
      · exact hwait (.ok false) _ hover
      · exact ⟨_, hover, .leaves (hplan.move (.cancelWait rid ns timeout next))⟩

/-! ## A call with a sink -/

/-- A call does not come to its pods. -/
theorem reaches_lost {e : Ending Report} (hop : op.sink = some s) (hw : OnWay s t w)
    (hmisses : Misses told e) :
    Reaches op s t told [] shut w ((w.release op).finish t e) := by
  let call : TailCall := ⟨s, [], default⟩
  have hcall : OnWay call.sink t w := hw
  obtain ⟨hopens, hending, hclosed, -⟩ := endTail_spec hcall e
  have hrelease : (w.release op).finish t e = w.endTail t call e := by
    unfold release
    rw [hop]
    rfl
  rw [hrelease]
  exact .of_stage (.lost hending hclosed hmisses rfl) hopens

theorem reaches_conclude (hop : op.sink = some s) (hw : OnWay s t w)
    (hshut : (w.sink s).closed = true → shut) {result : Except Fault Next}
    (htold : told (.ready (.done result))) :
    Reaches op s t told [] shut w (w.conclude t op result) := by
  unfold conclude
  split
  · exact reaches_lost hop hw (.failed htold)
  · exact reaches_lost hop hw (.returned htold)
  · next begun =>
      rw [hop]
      let call : TailCall := ⟨s, begun.pods, begun.options⟩
      have hcall : OnWay call.sink t w := hw
      exact reaches_target hcall htold hshut call.pods [] rfl

/-- A call waits for a first listing. -/
theorem reaches_awaitSync (hop : op.sink = some s) (hw : OnWay s t w) (i : InformerId)
    (limit : Float) {rid : ResourceId} {ns : String} {timeout : Option Float}
    {next : Except Fault Bool → Plan Next} (htold : told (.ready (.sync rid ns timeout next))) :
    Reaches op s t told [] shut w (w.awaitSync t op i limit next) := by
  let x := w.withLoop (·.beginLimit t limit)
  have hbides := fun v a => (w.loop.keeps_beginLimit t limit).bides (v := v) (a := a)
  have hopens : Opens [] w x := .of_bides (w.loop.beginLimit_spec t limit).1 fun v a => hbides v a
  have hx : x.Acting t s := hw.going.bides fun a => hbides t a
  have hgoes := x.loop.goes_suspend t (.syncing op i next) .signal
  obtain ⟨a, ha, hgoing, hpoint, -⟩ := hx.goes hgoes
  exact .of_stage (.finding ha hgoing hpoint hop htold rfl)
    (hopens.none_then (hx.opens_goes hgoes rfl))

/-- Wherever the plan halts, the call is at a stage. -/
theorem reaches_halts (hop : op.sink = some s) (hw : OnWay s t w)
    (hshut : (w.sink s).closed = true → shut)
    (h : ∃ x, Calm w x ∧ Halts op t told x w') : Reaches op s t told [] shut w w' := by
  obtain ⟨x, hx, hhalts⟩ := h
  have hway := hw.calm hx
  refine Reaches.of_opens ?_ hx.opens
  cases hhalts with
  | concludes htold => exact reaches_conclude hop hway (by rwa [hx.sink]) htold
  | waits i limit htold => exact reaches_awaitSync hop hway i limit htold
  | leaves hcomes => exact reaches_lost hop hway (.cancelled hcomes)

/-! ## A call without a sink -/

/-- Where a call is that has no sink, and so comes to no tail. -/
inductive Seeks (op : Operation) (t : TaskId) (told : Stance Next → Prop) (w : World) : Prop
  | waiting {a : Task Point Report} {i : InformerId} {rid : ResourceId} {ns : String}
      {timeout : Option Float} {next : Except Fault Bool → Plan Next}
      (task : w.loop.task? t = some a) (going : a.ending = none)
      (point : a.point = .syncing op i next) (comes : told (.ready (.sync rid ns timeout next)))
  | ended {e : Ending Report} (ending : w.loop.ending? t = some e)
      (how : Misses told e ∨ ∃ begun, told (.ready (.done (.ok (.tail begun)))))

/-- Wherever the plan halts, the call waits there or is over. -/
theorem seeks_halts (hop : op.sink = none)
    (hgoes : ∃ a, w.loop.task? t = some a ∧ a.ending = none)
    (h : ∃ x, Calm w x ∧ Halts op t told x w') : Seeks op t told w' := by
  obtain ⟨a, ha, hgoing⟩ := hgoes
  obtain ⟨x, hx, hhalts⟩ := h
  obtain ⟨b, hb, hab⟩ := hx.bides t a ha
  have hfinish : ∀ e, (x.finish t e).loop.ending? t = some e := fun e =>
    Option.bind_eq_some_iff.2 ⟨_, Loop.task?_finish hb, rfl⟩
  have hrelease : x.release op = x := by rw [release, hop]
  cases hhalts with
  | @concludes result hcomes =>
      unfold conclude
      rw [hrelease, hop]
      split
      · exact .ended (hfinish _) (.inl (.failed hcomes))
      · exact .ended (hfinish _) (.inl (.returned hcomes))
      · exact .ended (hfinish _) (.inr ⟨_, hcomes⟩)
  | @waits rid ns timeout next i limit hcomes =>
      obtain ⟨c, hc, hbc⟩ := (x.loop.keeps_beginLimit t limit).bides hb
      obtain ⟨d, hd, hpoint, hending, -⟩ :=
        ((x.loop.beginLimit t limit).goes_suspend t (.syncing op i next) .signal).own c hc
      exact .waiting hd (hending.trans (hbc.ending.trans (hab.ending.trans hgoing))) hpoint hcomes
  | leaves hcomes =>
      rw [hrelease]
      exact .ended (hfinish _) (.inl (.cancelled hcomes))

end World

end LiveCluster.Simulation
