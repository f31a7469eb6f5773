import LiveCluster.Proofs.Watch.Counting

/-!
# Listing, watching and resuming

What a worker asks for next follows from two things that it remembers, the version and
whether a listing is due, and both are written in several places. Here they are read
off the history instead.

The three parts share a pattern. Something is said of the acts since the last watch, or
since the last call; it holds of an empty span, a turn keeps it, and an alarm changes
nothing that it speaks of. A worker that crashed is left out where a listing is due
that it will not ask for.
-/

namespace LiveCluster

open Informer (Command Signal Reacts reacts)

/-! ## The version -/

namespace Informer

/-- The version that an informer knows once it has taken in an event. -/
theorem told_event_version (i : Informer) (e : WatchEvent) :
    (i.told (.event e)).version =
      match e.version with
      | .ok v => if v.isEmpty then i.version else v
      | .error _ => i.version := by
  have hestablish : i.establish.1.version = i.version := by rw [establish_frame]
  have hseen : ∀ v, (i.establish.1.seen v).version = if v.isEmpty then i.version else v := by
    intro v
    unfold seen
    split
    · exact hestablish
    · rfl
  have ha := applies i.establish.1 e
  rw [told]
  generalize (i.establish.1.applyEvent e).1 = j at ha ⊢
  generalize (i.establish.1.applyEvent e).2.2 = changed at ha
  cases ha with
  | unreadable hv => rw [hv, hestablish]
  | refused hv _ | changed hv _ | dropped hv _ _ => rw [hv]; exact hseen _

end Informer

/-- Unless a listing is due, a worker that has begun knows the version in its history. -/
def KnowsVersion (h : History) (k : Worker) : Prop :=
  ∀ c, k.stage = .awaiting c → k.informer.needList = false →
    h.version? = some k.informer.version

/-- The version after a turn, which is the one of the watch that the turn opens. -/
theorem KnowsVersion.turn {past : History} {k : Worker} {j : Informer} {s : Signal} {c : Command}
    (h : KnowsVersion past k) (hagrees : Agrees past k) (ha : k.stage.admits s = true)
    (hr : Reacts k.informer s j c) :
    (j.needList = false → History.version? (.heard k.informer s :: past) = some j.version) ∧
      ∀ v, c = .watch v → History.version? (.heard k.informer s :: past) = some v := by
  have hknown : s ≠ .started → k.informer.needList = false →
      History.version? past = some k.informer.version := by
    intro hs hn
    obtain ⟨c, hc⟩ := Stage.awaiting_of_admits ha hs
    exact h c hc hn
  cases hr with
  | started => exact ⟨by simp, by simp⟩
  | @listed items v p hp =>
      have hversion : History.version? (.heard k.informer (.listed items v) :: past) = some v := by
        have hf : (k.informer.fault? (.listed items v)).isNone = true := by
          simp only [Informer.fault?, hp]
          rfl
        exact if_pos hf
      exact ⟨fun _ => hversion, fun w hw => by cases hw; exact hversion⟩
  | @event e hf =>
      refine ⟨fun _ => ?_, by simp⟩
      have hpast := hknown (by simp) (hagrees.watching (hagrees.isOpen_of_event ha))
      rw [Informer.told_event_version, History.version?]
      cases hv : e.version with
      | error f => exact hpast
      | ok v =>
          cases he : v.isEmpty with
          | true => simpa [he] using hpast
          | false => simp [he, hpast]
  | gone _ _ => exact ⟨by simp, by simp⟩
  | counted _ _ =>
      exact ⟨by simp [Informer.failed],
        fun v hv => absurd hv.symm (Command.ne_pausing_of_isCall rfl _)⟩
  | closed he =>
      refine ⟨fun hn => ?_, fun v hv => absurd hv.symm (Command.ne_pausing_of_isCall rfl _)⟩
      unfold Informer.closed at hn ⊢
      split at hn
      · next hlimit =>
          rw [if_pos hlimit]
          exact hknown (by simp) hn
      · cases hn
  | listing _ hn =>
      refine ⟨fun hn' => ?_, by simp⟩
      rw [hn] at hn'
      cases hn'
  | resuming hs hn =>
      have hversion : History.version? (.heard k.informer s :: past) = some k.informer.version := by
        rcases hs with rfl | ⟨rfl, -⟩
        · exact hknown (by simp) hn
        · exact hknown (by simp) hn
      exact ⟨fun _ => hversion, fun v hv => by cases hv; exact hversion⟩

/-- A worker knows the version in its history throughout its run, and every watch that it
opened asked for that version. -/
theorem Run.knowsVersion {i : Informer} {h : History} {k : Worker} (hrun : Run i h k) :
    KnowsVersion h k ∧
      h.Always fun a past => ∀ v, a = .did (.watch v) → History.version? past = some v := by
  induction hrun with
  | begin => exact ⟨by simp [KnowsVersion, Worker.begin], History.always_nil _⟩
  | @turn past k s hpast ha ih =>
      obtain ⟨hknows, halways⟩ := ih
      obtain ⟨hversion, hwatch⟩ := hknows.turn hpast.agrees ha (reacts k.informer s)
      refine ⟨fun _ _ => ?_, History.always_cons.2 ⟨?_, History.always_cons.2 ⟨by simp, halways⟩⟩⟩
      · rw [Worker.hear, Worker.take_informer]
        exact hversion
      · intro v hv
        exact hwatch v (Act.did.inj hv)
  | @alarm past k n _ ih =>
      obtain ⟨hknows, halways⟩ := ih
      refine ⟨?_, History.always_cons.2 ⟨by simp, halways⟩⟩
      rw [KnowsVersion, k.ring_stage, k.ring_frame]
      exact hknows
  | cancel _ _ ih =>
      exact ⟨by simp [KnowsVersion, Worker.cancel], History.always_cons.2 ⟨by simp, ih.2⟩⟩

/-! ## Listings between watches -/

/-- What the acts since a watch was opened say of the worker. As long as the watch is open,
nothing has happened to it; once it is over, a listing is due if it broke, and not if it
ended. -/
structure SinceWatch (span : History) (k : Worker) : Prop where
  begun : k.stage ≠ .created
  relists : span.any Act.relists = false
  isOpen : k.stage.isStream = true →
    span.any Act.breaksWatch = false ∧ span.any Act.endsWatch = false
  closed : k.stage.isStream = false →
    span.any Act.breaksWatch = !span.any Act.endsWatch ∧
      k.informer.needList = span.any Act.breaksWatch

/-- A fault that is heard breaks a watch if one is open, and else is the fault of a listing. -/
theorem Stage.breaksWatch_of_fault {g : Stage} {i : Informer} {s : Signal} {fault : Fault}
    (ha : g.admits s = true) (hf : i.fault? s = some fault) :
    (Act.heard i s).breaksWatch = g.isStream ∧ (g.isStream = false → g = .awaiting .list) := by
  match s, g with
  | .listed _ _, .awaiting .list => exact ⟨rfl, fun _ => rfl⟩
  | .listFailed _, .awaiting .list => exact ⟨rfl, fun _ => rfl⟩
  | .watchFailed _, .awaiting (.watch _) | .watchFailed _, .awaiting .next =>
      exact ⟨rfl, by simp [Stage.isStream, Informer.Command.isStream]⟩
  | .event e, .awaiting (.watch _) | .event e, .awaiting .next =>
      refine ⟨?_, by simp [Stage.isStream, Informer.Command.isStream]⟩
      rw [Act.breaksWatch, hf]
      rfl

theorem Act.relists_of_fault {i : Informer} {s : Signal} {fault : Fault}
    (hf : i.fault? s = some fault) : (Act.heard i s).relists = false := by
  cases s with
  | listed items v => rw [relists, hf]; rfl
  | started | listFailed _ | event _ | ended | watchFailed _ | woke => rfl

theorem Act.endsWatch_of_fault {i : Informer} {s : Signal} {fault : Fault}
    (hf : i.fault? s = some fault) : (Act.heard i s).endsWatch = false := by
  cases s with
  | ended => cases hf
  | started | listed _ _ | listFailed _ | event _ | watchFailed _ | woke => rfl

/-- After a fault the watch is over, it broke, and a listing is due. -/
theorem SinceWatch.fault {span : History} {past : History} {k : Worker} {s : Signal}
    {fault : Fault} (h : SinceWatch span k) (hagrees : Agrees past k)
    (ha : k.stage.admits s = true) (hf : k.informer.fault? s = some fault) :
    (Act.heard k.informer s :: span).any Act.relists = false ∧
      (Act.heard k.informer s :: span).any Act.breaksWatch = true ∧
      (Act.heard k.informer s :: span).any Act.endsWatch = false := by
  obtain ⟨hbreaks, hlist⟩ := Stage.breaksWatch_of_fault ha hf
  rw [List.any_cons, List.any_cons, List.any_cons, Act.relists_of_fault hf, hbreaks,
    Act.endsWatch_of_fault hf, h.relists]
  cases hs : k.stage.isStream with
  | true => exact ⟨rfl, rfl, (h.isOpen hs).2⟩
  | false =>
      obtain ⟨hover, hneed⟩ := h.closed hs
      rw [hagrees.listing (hlist hs)] at hneed
      rw [← hneed] at hover ⊢
      exact ⟨rfl, rfl, by simpa using hover⟩

/-- What is left to say once the watch is over. -/
theorem SinceWatch.of_over {span : History} {k : Worker} {j : Informer} {c : Command}
    (hc : c.isStream = false) (hrelists : span.any Act.relists = false)
    (hover : span.any Act.breaksWatch = !span.any Act.endsWatch)
    (hneed : j.needList = span.any Act.breaksWatch) :
    SinceWatch (.did c :: span) (k.take j c) where
  begun hs := by rw [Worker.take_stage] at hs; cases hs
  relists := hrelists
  isOpen hs := by
    rw [Worker.take_stage, Stage.isStream, hc] at hs
    cases hs
  closed _ := by
    rw [Worker.take_informer]
    exact ⟨hover, hneed⟩

/-- A turn keeps this unless it opens the next watch or crashes the worker. -/
theorem SinceWatch.turn {span : History} {past : History} {k : Worker} {j : Informer} {s : Signal}
    {c : Command} (h : SinceWatch span k) (hagrees : Agrees past k)
    (ha : k.stage.admits s = true) (hr : Reacts k.informer s j c)
    (hc : (Stage.awaiting c).isRunning = true) (hwatch : (Act.did c).opensWatch = false) :
    SinceWatch (.did c :: .heard k.informer s :: span) (k.take j c) := by
  cases hr with
  | started => exact absurd (Stage.created_of_admits ha) h.begun
  | listed _ | resuming _ _ => cases hwatch
  | @event e hf =>
      obtain ⟨hbreaks, hends⟩ := h.isOpen (Stage.isStream_of_admits_event ha)
      have hquiet : (Act.heard k.informer (.event e)).breaksWatch = false := by
        rw [Act.breaksWatch, hf]
        rfl
      exact {
        begun := by simp
        relists := h.relists
        isOpen := fun _ => by
          rw [List.any_cons, List.any_cons, hquiet]
          exact ⟨hbreaks, hends⟩
        closed := by simp [Stage.isStream, Command.isStream] }
  | gone hf hg =>
      obtain ⟨hrelists, hbreaks, hends⟩ := h.fault hagrees ha hf
      exact .of_over rfl hrelists (by rw [hbreaks, hends]; rfl) hbreaks.symm
  | counted hf hg =>
      obtain ⟨hrelists, hbreaks, hends⟩ := h.fault hagrees ha hf
      exact .of_over (Command.pausing_isStream _) hrelists (by rw [hbreaks, hends]; rfl)
        hbreaks.symm
  | closed he =>
      have hstream := Stage.isStream_of_admits_ended ha
      have hopen := hagrees.isOpen_of_ended ha
      have hbreaks : (Act.heard k.informer .ended :: span).any Act.breaksWatch = false :=
        (h.isOpen hstream).1
      have hneed : k.informer.closed.needList = false := by
        unfold Informer.closed
        rw [if_pos (Informer.pausing_isRunning.1 hc)]
        exact hagrees.watching hopen
      exact .of_over (Command.pausing_isStream _) h.relists hbreaks (hneed.trans hbreaks.symm)
  | listing hs hn =>
      rcases hs with rfl | ⟨rfl, -⟩
      · obtain ⟨d, hd⟩ := Stage.awaiting_of_admits_woke ha
        obtain ⟨hover, hneed⟩ := h.closed (by rw [hd]; rfl)
        exact .of_over rfl h.relists hover hneed
      · rw [hagrees.watching (hagrees.isOpen_of_ended ha)] at hn
        cases hn

/-- Between two watches there was a listing exactly if the first one broke, which it did
unless it ended. -/
theorem SinceWatch.opens {span : History} {past : History} {k : Worker} {j : Informer} {s : Signal}
    {c : Command} {v : String} (h : SinceWatch span k) (hagrees : Agrees past k)
    (ha : k.stage.admits s = true) (hr : Reacts k.informer s j c) (hc : c = .watch v) :
    (Act.heard k.informer s :: span).any Act.relists =
        (Act.heard k.informer s :: span).any Act.breaksWatch ∧
      (Act.heard k.informer s :: span).any Act.breaksWatch =
        !(Act.heard k.informer s :: span).any Act.endsWatch := by
  cases hr with
  | started | event _ | gone _ _ | listing _ _ => cases hc
  | counted _ _ | closed _ => exact absurd hc.symm (Command.ne_pausing_of_isCall rfl _)
  | @listed items w p hp =>
      have hlist := Stage.awaiting_of_admits_listed ha
      obtain ⟨hover, hneed⟩ := h.closed (by rw [hlist]; rfl)
      rw [hagrees.listing hlist] at hneed
      have hrelists : (Act.heard k.informer (.listed items w)).relists = true := by
        simp only [Act.relists, Informer.fault?, hp]
        rfl
      rw [List.any_cons, hrelists, Bool.true_or]
      exact ⟨hneed, hover⟩
  | resuming hs hn =>
      rcases hs with rfl | ⟨rfl, -⟩
      · obtain ⟨d, hd⟩ := Stage.awaiting_of_admits_woke ha
        obtain ⟨hover, hneed⟩ := h.closed (by rw [hd]; rfl)
        rw [hn] at hneed
        exact ⟨h.relists.trans hneed, hover⟩
      · have hbreaks := (h.isOpen (Stage.isStream_of_admits_ended ha)).1
        exact ⟨h.relists.trans hbreaks.symm, hbreaks⟩

theorem SinceWatch.alarm {span : History} {k : Worker} (h : SinceWatch span k) (n : Nat) :
    SinceWatch (.alarm n :: span) (k.ring n) where
  begun := by rw [k.ring_stage]; exact h.begun
  relists := h.relists
  isOpen hs := h.isOpen (by rwa [k.ring_stage] at hs)
  closed hs := by
    rw [k.ring_frame]
    exact h.closed (by rwa [k.ring_stage] at hs)

/-- What the acts since the last watch say of a worker that goes on. -/
theorem Run.sinceWatch {i : Informer} {h : History} {k : Worker} (hrun : Run i h k)
    (hk : k.isRunning = true) {span past : History} {v : String}
    (hsplit : h = span ++ .did (.watch v) :: past) (hspan : span.any Act.opensWatch = false) :
    SinceWatch span k := by
  induction hrun generalizing span with
  | begin => exact absurd hsplit (by simp)
  | @turn before k s hbefore ha ih =>
      rcases List.cons_eq_append_iff.1 hsplit with ⟨rfl, heq⟩ | ⟨span, rfl, heq⟩
      · have hcommand : (k.informer.react s).command = .watch v  :=
          Act.did.inj (List.cons.inj heq).1.symm
        rw [Worker.hear, hcommand]
        exact ⟨by simp, rfl, fun _ => ⟨rfl, rfl⟩, by simp [Stage.isStream, Command.isStream]⟩
      · rw [List.any_cons, Bool.or_eq_false_iff] at hspan
        rcases List.cons_eq_append_iff.1 heq with ⟨rfl, htail⟩ | ⟨span, rfl, htail⟩
        · cases htail
        · have hold := ih (Stage.isRunning_of_admits ha) htail hspan.2
          rw [Worker.isRunning, Worker.hear, Worker.take_stage] at hk
          exact hold.turn hbefore.agrees ha (reacts k.informer s) hk hspan.1
  | @alarm before k n _ ih =>
      rcases List.cons_eq_append_iff.1 hsplit with ⟨rfl, heq⟩ | ⟨span, rfl, heq⟩
      · cases heq
      · rw [Worker.isRunning, k.ring_stage] at hk
        exact (ih hk heq hspan).alarm n
  | cancel _ _ _ => cases hk

/-- Whether the acts between a watch and one before it are a listing and a break, or neither
but an end. -/
def History.relistsAsNeeded (past : History) : Prop :=
  ∀ span v before, past = span ++ .did (.watch v) :: before → span.any Act.opensWatch = false →
    span.any Act.relists = span.any Act.breaksWatch ∧
      span.any Act.breaksWatch = !span.any Act.endsWatch

theorem Run.relists {i : Informer} {h : History} {k : Worker} (hrun : Run i h k) :
    h.Always fun a past => ∀ w, a = .did (.watch w) → past.relistsAsNeeded := by
  induction hrun with
  | begin => exact History.always_nil _
  | @turn before k s hbefore ha ih =>
      refine History.always_cons.2 ⟨?_, History.always_cons.2 ⟨by simp, ih⟩⟩
      intro w hw span v past hsplit hspan
      rcases List.cons_eq_append_iff.1 hsplit with ⟨rfl, heq⟩ | ⟨span, rfl, heq⟩
      · cases heq
      · have hold := hbefore.sinceWatch (Stage.isRunning_of_admits ha) heq hspan
        exact hold.opens hbefore.agrees ha (reacts k.informer s) (Act.did.inj hw)
  | alarm n _ ih => exact History.always_cons.2 ⟨by simp, ih⟩
  | cancel _ _ ih => exact History.always_cons.2 ⟨by simp, ih⟩

/-! ## Pauses between calls -/

/-- Whether an act is followed by the next call without a pause: the version had expired, or
an established watch ended. -/
def History.resumesAtOnce (past : History) (a : Act) : Bool :=
  a.isGone || a.endsWatch && past.established

/-- What the worker of an informer was told says of it as long as nothing has been called
since. -/
structure SinceCall (config : WatchConfig) (base : Nat) (i : Informer) (s : Signal)
    (past span : History) (k : Worker) : Prop where
  listing : (Act.heard i s).failsToList = true →
    past.counts (.heard i s) = true ∧ k.informer.needList = true
  pausing : past.counts (.heard i s) = true → ∃ d, k.stage = .awaiting (.sleep d) ∧
    span.filterMap Act.pause? = [d] ∧
    (i.react s).informer.failures = History.failures base (.heard i s :: past) ∧
    Informer.backoffDelay config (i.react s).informer.failures = .ok d
  prompt : past.resumesAtOnce (.heard i s) = false

/-- What the worker was told before a call says of that call and of the pauses in between. -/
structure BeforeCall (config : WatchConfig) (base : Nat) (c : Command) (i : Informer)
    (s : Signal) (past span : History) : Prop where
  listing : (Act.heard i s).failsToList = true → c = .list
  pausing : past.counts (.heard i s) = true → ∃ d, span.filterMap Act.pause? = [d] ∧
    (i.react s).informer.failures = History.failures base (.heard i s :: past) ∧
    Informer.backoffDelay config (i.react s).informer.failures = .ok d
  prompt : past.resumesAtOnce (.heard i s) = true → span.filterMap Act.pause? = []

theorem Act.fault_of_failsToList {i : Informer} {s : Signal}
    (h : (Act.heard i s).failsToList = true) : ∃ fault, i.fault? s = some fault := by
  cases s with
  | listFailed fault => exact ⟨fault, rfl⟩
  | listed items v => exact Option.isSome_iff_exists.1 h
  | started | event _ | ended | watchFailed _ | woke => cases h

namespace Informer

/-- A fault leaves a listing due; an expired version is not waited for. -/
theorem Reacts.of_fault {i j : Informer} {s : Signal} {c : Command} {fault : Fault}
    (h : Reacts i s j c) (hf : i.fault? s = some fault) :
    j.needList = true ∧ (fault.isGone = true → c = .list) := by
  cases h with
  | started | closed _ => cases hf
  | listed hp =>
      simp only [fault?, hp] at hf
      cases hf
  | event hnone =>
      rw [hnone] at hf
      cases hf
  | gone _ _ => exact ⟨rfl, fun _ => rfl⟩
  | counted hf' hg =>
      rw [hf'] at hf
      cases hf
      exact ⟨rfl, fun hg' => by rw [hg] at hg'; cases hg'⟩
  | listing hs _ | resuming hs _ => rcases hs with rfl | ⟨rfl, -⟩ <;> cases hf

theorem Reacts.of_woke {i j : Informer} {c : Command} (h : Reacts i .woke j c) :
    c.isCall = true ∧ (i.needList = true → c = .list) := by
  cases h with
  | gone hf _ | counted hf _ => cases hf
  | listing _ _ => exact ⟨rfl, fun _ => rfl⟩
  | resuming _ hn => exact ⟨rfl, fun hn' => by rw [hn] at hn'; cases hn'⟩

end Informer

section

variable {base : Nat} {past span : History} {k : Worker} {j : Informer} {s : Signal} {c : Command}

/-- What need not be waited for is followed by a call. -/
theorem Agrees.isCall_of_resumesAtOnce (h : Agrees past k) (ha : k.stage.admits s = true)
    (hr : Reacts k.informer s j c) (hs : past.resumesAtOnce (.heard k.informer s) = true) :
    c.isCall = true := by
  rw [History.resumesAtOnce, Bool.or_eq_true, Bool.and_eq_true] at hs
  rcases hs with hgone | ⟨hends, hestablished⟩
  · cases hf : k.informer.fault? s with
    | none => rw [Act.isGone, hf] at hgone; cases hgone
    | some fault =>
        rw [Act.isGone, hf] at hgone
        rw [(hr.of_fault hf).2 hgone]
        rfl
  · match s with
    | .ended =>
        have hopen := h.isOpen_of_ended ha
        cases hr with
        | gone hf _ | counted hf _ => cases hf
        | closed he =>
            rw [h.established hopen, hestablished] at he
            cases he
        | listing _ _ | resuming _ _ => rfl

/-- A turn that calls nothing begins to say something of the worker. -/
theorem SinceCall.first (h : Agrees past k) (ha : k.stage.admits s = true)
    (hr : Reacts k.informer s j c) (hj : (k.informer.react s).informer = j)
    (hn : k.informer.failures = past.failures base)
    (hc : (Stage.awaiting c).isRunning = true) (hcall : c.isCall = false) :
    SinceCall k.informer.config base k.informer s past [.did c] (k.take j c) where
  listing hs := by
    obtain ⟨fault, hf⟩ := Act.fault_of_failsToList hs
    obtain ⟨hneed, hlist⟩ := hr.of_fault hf
    rw [History.counts_of_fault past hf, Worker.take_informer]
    refine ⟨?_, hneed⟩
    cases hg : fault.isGone with
    | true => rw [hlist hg] at hcall; cases hcall
    | false => rfl
  pausing hcounts := by
    have hfailures : j.failures = History.failures base (.heard k.informer s :: past) := by
      rw [(h.turn_alike ha hr hc).failures]
      exact h.accounted_failures (h.isOpen_of_establishes ha) hn
    rcases h.turn_cases ha hr with ⟨hquiet, -, -⟩ | ⟨-, rfl, -⟩
    · rw [hquiet] at hcounts
      cases hcounts
    · obtain ⟨d, hd⟩ :=
        Informer.backoffDelay_eq_ok k.informer.config (Informer.pausing_isRunning.1 hc)
      rw [← h.failures_of_counts ha hn hcounts, ← hfailures] at hd
      rw [hj, ← h.failures_of_counts ha hn hcounts, ← hfailures, Worker.take_stage, hd]
      exact ⟨d, rfl, rfl, rfl, rfl⟩
  prompt := by
    cases hs : past.resumesAtOnce (.heard k.informer s) with
    | true => rw [h.isCall_of_resumesAtOnce ha hr hs] at hcall; cases hcall
    | false => rfl

/-- A call at once is a listing if one failed; nothing was counted before it. -/
theorem BeforeCall.first (h : Agrees past k) (ha : k.stage.admits s = true)
    (hr : Reacts k.informer s j c) (config : WatchConfig) (hcall : c.isCall = true) :
    BeforeCall config base c k.informer s past [] := by
  have hquiet : past.counts (.heard k.informer s) = false := by
    rcases h.turn_cases ha hr with ⟨hquiet, -, -⟩ | ⟨-, hpausing, -⟩
    · exact hquiet
    · exact absurd hpausing (Command.ne_pausing_of_isCall hcall _)
  refine ⟨fun hs => ?_, fun hcounts => ?_, fun _ => rfl⟩
  · obtain ⟨fault, hf⟩ := Act.fault_of_failsToList hs
    apply (hr.of_fault hf).2
    simpa [History.counts_of_fault past hf] using hquiet
  · rw [hquiet] at hcounts
    cases hcounts

end

section

variable {config : WatchConfig} {base : Nat} {i j : Informer} {heard s : Signal}
  {past span : History} {k : Worker} {c : Command}

/-- After a counted failure the next turn is a call. -/
theorem SinceCall.turn (h : SinceCall config base i heard past span k)
    (ha : k.stage.admits s = true)
    (hr : Reacts k.informer s j c) (hcall : c.isCall = false) :
    SinceCall config base i heard past (.did c :: .heard k.informer s :: span) (k.take j c) := by
  have hquiet : ¬past.counts (.heard i heard) = true := by
    intro hcounts
    obtain ⟨d, hd, -⟩ := h.pausing hcounts
    rw [hd] at ha
    obtain rfl := Stage.woke_of_admits ha
    rw [hr.of_woke.1] at hcall
    cases hcall
  exact ⟨fun hs => absurd (h.listing hs).1 hquiet, fun hs => absurd hs hquiet, h.prompt⟩

theorem SinceCall.call (h : SinceCall config base i heard past span k)
    (ha : k.stage.admits s = true)
    (hr : Reacts k.informer s j c) :
    BeforeCall config base c i heard past (.heard k.informer s :: span) where
  listing hs := by
    obtain ⟨hcounts, hneed⟩ := h.listing hs
    obtain ⟨d, hd, -⟩ := h.pausing hcounts
    rw [hd] at ha
    obtain rfl := Stage.woke_of_admits ha
    exact hr.of_woke.2 hneed
  pausing hcounts := by
    obtain ⟨d, -, hpauses, hd⟩ := h.pausing hcounts
    exact ⟨d, hpauses, hd⟩
  prompt hs := by rw [h.prompt] at hs; cases hs

theorem SinceCall.alarm (h : SinceCall config base i heard past span k) (n : Nat) :
    SinceCall config base i heard past (.alarm n :: span) (k.ring n) where
  listing hs := by
    rw [k.ring_frame]
    exact h.listing hs
  pausing hcounts := by
    rw [k.ring_stage]
    exact h.pausing hcounts
  prompt := h.prompt

end

/-- What the acts since the last call say of a worker that goes on. -/
theorem Run.sinceCall {i : Informer} {h : History} {k : Worker} (hrun : Run i h k)
    (hk : k.isRunning = true) {span past : History} {j : Informer} {s : Signal}
    (hsplit : h = span ++ .heard j s :: past) (hspan : span.any Act.isCall = false) :
    SinceCall i.config i.failures j s past span k := by
  induction hrun generalizing span with
  | begin => exact absurd hsplit (by simp)
  | @turn before k s' hbefore ha ih =>
      have hgoing := Stage.isRunning_of_admits ha
      rw [Worker.isRunning, Worker.hear, Worker.take_stage] at hk
      rcases List.cons_eq_append_iff.1 hsplit with ⟨rfl, heq⟩ | ⟨span, rfl, heq⟩
      · cases heq
      · rw [List.any_cons, Bool.or_eq_false_iff] at hspan
        rcases List.cons_eq_append_iff.1 heq with ⟨rfl, htail⟩ | ⟨span, rfl, htail⟩
        · cases htail
          rw [← hbefore.config]
          exact .first hbefore.agrees ha (reacts k.informer s) rfl (hbefore.failures hgoing) hk
            hspan.1
        · exact (ih hgoing htail hspan.2).turn ha (reacts k.informer s') hspan.1
  | @alarm before k n _ ih =>
      rcases List.cons_eq_append_iff.1 hsplit with ⟨rfl, heq⟩ | ⟨span, rfl, heq⟩
      · cases heq
      · rw [Worker.isRunning, k.ring_stage] at hk
        exact (ih hk heq hspan).alarm n
  | cancel _ _ _ => cases hk

/-- Whether the acts before a call, back to the call before it, go with that call. -/
def History.leadsTo (config : WatchConfig) (base : Nat) (past : History) (c : Command) : Prop :=
  ∀ span j s before, past = span ++ .heard j s :: before → span.any Act.isCall = false →
    BeforeCall config base c j s before span

theorem Run.leadsTo {i : Informer} {h : History} {k : Worker} (hrun : Run i h k) :
    h.Always fun a past => ∀ c, a = .did c → c.isCall = true →
      past.leadsTo i.config i.failures c := by
  induction hrun with
  | begin => exact History.always_nil _
  | @turn before k s hbefore ha ih =>
      refine History.always_cons.2 ⟨?_, History.always_cons.2 ⟨by simp, ih⟩⟩
      intro c hc hcall span j s' past hsplit hspan
      have hr := reacts k.informer s
      rw [Act.did.inj hc] at hr
      rcases List.cons_eq_append_iff.1 hsplit with ⟨rfl, heq⟩ | ⟨span, rfl, heq⟩
      · cases heq
        exact .first hbefore.agrees ha hr i.config hcall
      · exact (hbefore.sinceCall (Stage.isRunning_of_admits ha) heq hspan).call ha hr
  | alarm n _ ih => exact History.always_cons.2 ⟨by simp, ih⟩
  | cancel _ _ ih => exact History.always_cons.2 ⟨by simp, ih⟩

/-- What a worker asks for next. A watch asks for the version of the newest listing or of the
newest event since that has one. Between two watches there is a listing exactly if the first
one broke, which it did unless it ended. After a failed listing the next call is a listing. A
counted failure is followed by one pause, the one that goes with the failures counted by then,
before the next call; an expired version and the end of an established watch by none. -/
theorem Run.resumes {i : Informer} {h : History} {k : Worker} (hrun : Run i h k) :
    (∀ v past, .did (.watch v) :: past <:+ h → History.version? past = some v) ∧
      (∀ w v span past, .did (.watch w) :: (span ++ .did (.watch v) :: past) <:+ h →
        span.any Act.opensWatch = false →
          span.any Act.relists = span.any Act.breaksWatch ∧
            span.any Act.breaksWatch = !span.any Act.endsWatch) ∧
      (∀ c span j s past, .did c :: (span ++ .heard j s :: past) <:+ h → c.isCall = true →
        span.any Act.isCall = false → (Act.heard j s).failsToList = true → c = .list) ∧
      (∀ c span j s past, .did c :: (span ++ .heard j s :: past) <:+ h → c.isCall = true →
        span.any Act.isCall = false → History.counts past (.heard j s) = true →
          ∃ d, span.filterMap Act.pause? = [d] ∧
            (j.react s).informer.failures = History.failures i.failures (.heard j s :: past) ∧
            Informer.backoffDelay i.config (j.react s).informer.failures = .ok d) ∧
      ∀ c span j s past, .did c :: (span ++ .heard j s :: past) <:+ h → c.isCall = true →
        span.any Act.isCall = false →
          (Act.heard j s).isGone = true ∨
            (Act.heard j s).endsWatch = true ∧ History.established past = true →
          span.filterMap Act.pause? = [] := by
  refine ⟨?_, ?_, ?_, ?_, ?_⟩
  · intro v past hpast
    exact hrun.knowsVersion.2 _ _ hpast v rfl
  · intro w v span past hpast hspan
    exact hrun.relists _ _ hpast w rfl span v past rfl hspan
  · intro c span j s past hpast hcall hspan
    exact (hrun.leadsTo _ _ hpast c rfl hcall span j s past rfl hspan).listing
  · intro c span j s past hpast hcall hspan
    exact (hrun.leadsTo _ _ hpast c rfl hcall span j s past rfl hspan).pausing
  · intro c span j s past hpast hcall hspan hprompt
    apply (hrun.leadsTo _ _ hpast c rfl hcall span j s past rfl hspan).prompt
    simpa [History.resumesAtOnce] using hprompt

/-- A pod as it was at a version. -/
def podAt (version : String) : Value :=
  .record [
    ("kind", .text "Pod"),
    ("metadata", .record [
      ("namespace", .text "x"), ("name", .text "a"), ("resourceVersion", .text version)])]

/-- A worker whose first listing is refused, whose first watch expires after an event, and
whose second one ends after another. -/
theorem Run.resumes_through_failures :
    ∃ h k, Run (.new ⟨"", "v1", "pods", "", ""⟩ "" {}) h k ∧
      (∃ past, .did (.watch "10") :: past <:+ h ∧ History.version? past = some "10") ∧
      (∃ span past, .did (.watch "9") :: (span ++ .did (.watch "7") :: past) <:+ h ∧
        span.any Act.relists = true ∧ span.any Act.breaksWatch = true) ∧
      (∃ span past, .did (.watch "10") :: (span ++ .did (.watch "9") :: past) <:+ h ∧
        span.any Act.relists = false ∧ span.any Act.endsWatch = true) ∧
      (∃ c span i fault past, .did c :: (span ++ .heard i (.listFailed fault) :: past) <:+ h ∧
        c = .list ∧ ∃ d, span.filterMap Act.pause? = [d] ∧
          Informer.backoffDelay {} (1 : Nat) = .ok d) ∧
      (∃ span i fault past, fault.isGone = true ∧
        .did .list :: (span ++ .heard i (.watchFailed fault) :: past) <:+ h ∧
          span.filterMap Act.pause? = []) ∧
      ∃ span i past, .did (.watch "10") :: (span ++ .heard i .ended :: past) <:+ h ∧
        span.filterMap Act.pause? = [] := by
  have hbegun := Run.begin (i := .new ⟨"", "v1", "pods", "", ""⟩ "" {})
  have hfailed := (hbegun.turn .started rfl).turn
    (.listFailed (.transport "connection refused" .null)) rfl
  have hlisted := (hfailed.turn .woke rfl).turn (.listed [podAt "6"] "7") rfl
  have hgone := (hlisted.turn (.event ⟨"MODIFIED", podAt "8"⟩) rfl).turn
    (.watchFailed (.transport "too old resource version" (.int 410))) rfl
  have hrelisted := hgone.turn (.listed [podAt "8"] "9") rfl
  have hended := (hrelisted.turn (.event ⟨"MODIFIED", podAt "10"⟩) rfl).turn .ended rfl
  obtain ⟨hversion, hbetween, hlisting, hpausing, hprompt⟩ := Run.resumes hended
  refine ⟨_, _, hended, ⟨_, List.suffix_refl _, hversion _ _ (List.suffix_refl _)⟩,
    ⟨[_, _, _, _, _], _, ⟨[_, _, _, _], rfl⟩, ?_⟩, ⟨[_, _, _], _, List.suffix_refl _, ?_⟩,
    ⟨_, [_, _], _, _, _, ⟨[_, _, _, _, _, _, _, _, _, _, _, _], rfl⟩, ?_⟩,
    ⟨[], _, _, _, ?_, ⟨[_, _, _, _, _, _], rfl⟩, ?_⟩, ⟨[], _, _, List.suffix_refl _, ?_⟩⟩
  · obtain ⟨hrelists, hbreaks⟩ := hbetween "9" "7" [_, _, _, _, _] _ ⟨[_, _, _, _], rfl⟩ rfl
    exact ⟨hrelists.trans hbreaks, hbreaks⟩
  · obtain ⟨hrelists, hbreaks⟩ := hbetween "10" "9" [_, _, _] _ (List.suffix_refl _) rfl
    exact ⟨hrelists.trans hbreaks, rfl⟩
  · obtain ⟨d, hd, -, hdelay⟩ :=
      hpausing .list [_, _] _ _ _ ⟨[_, _, _, _, _, _, _, _, _, _, _, _], rfl⟩ rfl rfl rfl
    refine ⟨?_, d, hd, hdelay⟩
    exact hlisting _ [_, _] _ _ _ ⟨[_, _, _, _, _, _, _, _, _, _, _, _], rfl⟩ rfl rfl rfl
  · rfl
  · exact hprompt _ [] _ _ _ ⟨[_, _, _, _, _, _], rfl⟩ rfl rfl (.inl rfl)
  · exact hprompt _ [] _ _ _ (List.suffix_refl _) rfl rfl (.inr ⟨rfl, rfl⟩)

end LiveCluster
