import LiveCluster.Proofs.Loop.Keeping
import Mathlib.Data.List.Nodup

/-!
# The lines of a channel

Who waits for room in a channel, or for an item, stands in a line and is served once: woken, it
tries again. That nobody waits for room that is there rests on a count. As long as somebody waits,
the items and the tasks that were woken and have yet to go on are together as many as there is room
for, so that whoever goes on either fills a place or finds all of them taken. Of those who wait for
an item there is only one at a time, and it waits only while there is none.
-/

namespace LiveCluster

namespace Loop

variable {π ρ : Type} {P : π → Prop} {l l' m : Loop π ρ} {t v : TaskId} {a b : Task π ρ}
  {line : List TaskId} {p : π}

/-- A task waits for a signal at one of certain points. -/
def Waits (P : π → Prop) (l : Loop π ρ) (v : TaskId) : Prop :=
  ∃ a, l.task? v = some a ∧ P a.point ∧ a.ending = none ∧ a.wait = .signal

/-- A task at one of certain points was given its signal and has yet to go on. -/
def Woken (P : π → Prop) (l : Loop π ρ) (v : TaskId) : Prop :=
  ∃ a, l.task? v = some a ∧ P a.point ∧ a.ending = none ∧ a.wait = .woken

/-- At certain points nobody comes to wait, and who was given its signal has yet to go on, except
for one. -/
structure Lulls (P : π → Prop) (lost : Option TaskId) (l l' : Loop π ρ) : Prop where
  stays : ∀ v a, l.task? v = some a → P a.point → ∃ b, l'.task? v = some b ∧
    b.point = a.point ∧ (b.wait = .signal → a.wait = .signal ∧ b.ending = a.ending)
  back : ∀ v b, l'.task? v = some b → P b.point → b.wait = .signal →
    ∃ a, l.task? v = some a ∧ P a.point
  woken : ∀ v, lost ≠ some v → l.Woken P v → l'.Woken P v

variable {lost : Option TaskId}

theorem Waits.awaitsSignal (h : l.Waits P v) : l.awaitsSignal v = true := by
  obtain ⟨a, ha, -, -, hsignal⟩ := h
  exact awaitsSignal_iff.2 ⟨a, ha, hsignal⟩

theorem Lulls.waits_back (h : Lulls P lost l l') (hv : l'.Waits P v) : l.Waits P v := by
  obtain ⟨b, hb, hp, hgoing, hsignal⟩ := hv
  obtain ⟨a, ha, hp'⟩ := h.back v b hb hp hsignal
  obtain ⟨b', hb', -, hwaits⟩ := h.stays v a ha hp'
  cases hb.symm.trans hb'
  obtain ⟨hsignal', hending⟩ := hwaits hsignal
  exact ⟨a, ha, hp', hending.symm.trans hgoing, hsignal'⟩

/-- Who was not woken has no signal to lose. -/
theorem Lulls.of_unwoken (h : Lulls P (some t) l l') (ht : ¬l.Woken P t) : Lulls P none l l' :=
  { h with woken := fun v _ hv => h.woken v (fun htv => ht (Option.some.inj htv ▸ hv)) hv }

/-! ## What keeps the lines as they are -/

/-- What moves nobody at such a point. -/
theorem lulls_of_keeps {moved deaf : Option TaskId} (h : Keeps moved deaf l l')
    (hbefore : ∀ t a, moved = some t → l.task? t = some a → ¬P a.point)
    (hafter : ∀ t b, moved = some t → l'.task? t = some b → ¬P b.point) : Lulls P none l l' where
  stays v a ha hp := by
    have hv : moved ≠ some v := fun hv => hbefore v a hv ha hp
    obtain ⟨b, hb, htells⟩ := h.tells v a ha
    obtain ⟨hstirs, -⟩ := h.stirs v a b hv ha hb
    refine ⟨b, hb, hstirs.point, fun hsignal => ⟨?_, htells.ending⟩⟩
    have hwait := hstirs.wait.bides
    rw [hsignal] at hwait
    exact hwait.signal
  back v b hb hp hsignal := by
    cases ha : l.task? v with
    | none =>
        rw [(h.made v b ha hb).1] at hsignal
        cases hsignal
    | some a =>
        refine ⟨a, rfl, ?_⟩
        have hv : moved ≠ some v := fun hv => hafter v b hv hb hp
        rwa [← (h.stirs v a b hv ha hb).1.point]
  woken v _ := by
    rintro ⟨a, ha, hp, hgoing, hwoken⟩
    have hv : moved ≠ some v := fun hv => hbefore v a hv ha hp
    obtain ⟨b, hb, htells⟩ := h.tells v a ha
    obtain ⟨hstirs, -⟩ := h.stirs v a b hv ha hb
    have hsame := hstirs.wait.bides.roused (by rw [hwoken]; rfl)
    exact ⟨b, hb, hstirs.point ▸ hp, htells.ending.trans hgoing, hsame.trans hwoken⟩

/-- A task goes from a point that is none of these to another one. -/
theorem Keeps.lulls_of_own {deaf : Option TaskId} (h : Keeps (some t) deaf l l')
    (ha : l.task? t = some a) (hb : l'.task? t = some b) (hold : ¬P a.point) (hnew : ¬P b.point) :
    Lulls P none l l' :=
  lulls_of_keeps h (fun _ c ht hc => by cases ht; cases ha.symm.trans hc; exact hold)
    fun _ c ht hc => by cases ht; cases hb.symm.trans hc; exact hnew

theorem Keeps.lulls {deaf : Option TaskId} (h : Keeps none deaf l l') : Lulls P none l l' :=
  lulls_of_keeps h (by simp) (by simp)

/-- A task stays where it is and does not wait. -/
theorem lulls_of_spares (h : Spares (· = t) l l') (ha : l.task? t = some a)
    (hb : l'.task? t = some b) (hpoint : b.point = a.point) (hsignal : b.wait ≠ .signal) :
    Lulls P (some t) l l' where
  stays v c hc hp := by
    by_cases hv : v = t
    · subst hv
      cases ha.symm.trans hc
      exact ⟨b, hb, hpoint, fun h => absurd h hsignal⟩
    · obtain ⟨d, hd, heases⟩ := h.eases v c hv hc
      refine ⟨d, hd, heases.point, fun hsignal => ⟨?_, heases.ending⟩⟩
      have hbides := heases.wait.bides
      rw [hsignal] at hbides
      exact hbides.signal
  back v d hd hp hwait := by
    have hv : v ≠ t := by
      rintro rfl
      cases hb.symm.trans hd
      exact hsignal hwait
    obtain ⟨c, hc, heases⟩ := h.back hv hd
    exact ⟨c, hc, heases.point ▸ hp⟩
  woken v hv := by
    rintro ⟨c, hc, hp, hgoing, hwoken⟩
    obtain ⟨d, hd, heases⟩ := h.eases v c (fun h => hv (congrArg some h.symm)) hc
    have hsame := heases.wait.bides.roused (by rw [hwoken]; rfl)
    exact ⟨d, hd, heases.point ▸ hp, heases.ending.trans hgoing, hsame.trans hwoken⟩

/-- A task that no longer waits ends. -/
theorem lulls_finish (ha : l.task? t = some a) (hwait : a.wait = .none) (e : Ending ρ) :
    Lulls P none l (l.finish t e) := by
  refine (lulls_of_spares (l.spares_finish t e) ha (task?_finish ha) rfl (by simp)).of_unwoken ?_
  rintro ⟨b, hb, -, -, hwoken⟩
  cases ha.symm.trans hb
  rw [hwait] at hwoken
  cases hwoken

theorem lulls_arrive {arrival : Arrival} (h : l.arrive t = some (l', p, arrival)) :
    Lulls P (some t) l l' := by
  obtain ⟨a, ha, -, -, -, hl⟩ := arrive_spec h
  exact lulls_of_spares (spares_arrive h) ha hl rfl (by simp)

/-! ## Lines -/

/-- Who waits at certain points stands in line, and nobody stands there who was never at one. -/
structure Line (P : π → Prop) (l : Loop π ρ) (line : List TaskId) : Prop where
  waits : ∀ v, l.Waits P v → v ∈ line
  known : ∀ v ∈ line, ∃ a, l.task? v = some a ∧ P a.point ∧ (a.wait = .signal → a.ending = none)

theorem Line.lulls (h : Line P l line) (hl : Lulls P lost l l') : Line P l' line where
  waits v hv := h.waits v (hl.waits_back hv)
  known v hv := by
    obtain ⟨a, ha, hp, hgoing⟩ := h.known v hv
    obtain ⟨b, hb, hpoint, hwaits⟩ := hl.stays v a ha hp
    refine ⟨b, hb, hpoint ▸ hp, fun hsignal => ?_⟩
    obtain ⟨hsignal', hending⟩ := hwaits hsignal
    exact hending.trans (hgoing hsignal')

/-- Who stands in line and waits for a signal waits there. -/
theorem Line.waits_of_awaits (h : Line P l line) (hv : v ∈ line)
    (hsignal : l.awaitsSignal v = true) : l.Waits P v := by
  obtain ⟨a, ha, hwait⟩ := awaitsSignal_iff.1 hsignal
  obtain ⟨b, hb, hp, hgoing⟩ := h.known v hv
  cases ha.symm.trans hb
  exact ⟨a, ha, hp, hgoing hwait, hwait⟩

/-- Who does not wait leaves the line. -/
theorem Line.leave (h : Line P l line) (ht : ¬l.Waits P t) : Line P l (line.filter (· ≠ t)) where
  waits v hv := by
    refine List.mem_filter.2 ⟨h.waits v hv, decide_eq_true fun hvt => ht (hvt ▸ hv)⟩
  known v hv := h.known v (List.mem_filter.1 hv).1

/-- Who comes to wait joins the line at its end. -/
theorem Line.join (h : Line P l line) (ha : l.task? t = some a) (hgoing : a.ending = none)
    (hp : P p) : Line P (l.suspend t p .signal) (line ++ [t]) := by
  have ht : (l.suspend t p .signal).task? t =
      some { a with point := p, wait := .signal, turn := a.turn + 1 } := by
    rw [suspend, task?_modify_self, ha]
    rfl
  have hother : ∀ v, v ≠ t → (l.suspend t p .signal).task? v = l.task? v := fun v hv => by
    rw [suspend, task?_modify, if_neg (Ne.symm hv)]
  constructor
  · rintro v ⟨b, hb, hwaits⟩
    by_cases hv : v = t
    · exact hv ▸ List.mem_append_right _ List.mem_cons_self
    · exact List.mem_append_left _ (h.waits v ⟨b, (hother v hv) ▸ hb, hwaits⟩)
  · intro v hv
    by_cases hvt : v = t
    · subst hvt
      exact ⟨_, ht, hp, fun _ => hgoing⟩
    · obtain ⟨b, hb, hknown⟩ := h.known v ((List.mem_append.1 hv).resolve_right fun hlast =>
        hvt (List.mem_singleton.1 hlast))
      exact ⟨b, (hother v hvt).trans hb, hknown⟩

/-- Who is cancelled does not wait any longer. -/
theorem not_waits_cancel (l : Loop π ρ) (t : TaskId) : ¬(l.cancel t).Waits P t := by
  intro h
  obtain ⟨b, hb, -, hgoing, hsignal⟩ := h
  rcases (l.keeps_cancel t).bides_back hb with hnone | ⟨a, ha, hbides⟩
  · rw [hnone] at hsignal
    cases hsignal
  · have hwait : a.wait = .signal := Wait.Bides.signal (hsignal ▸ hbides.wait)
    have hnot : l.ended t = false := by
      rw [ended_of_task? ha, ← hbides.ending, hgoing]
      rfl
    have hdrop : (l.cancel t).task? t =
        some { a with wait := .dropped, cancels := a.cancels + 1 } := by
      rw [cancel_of_isPlain ha (by rw [hwait]; rfl), drop, hnot,
        awaitsSignal_iff.2 ⟨a, ha, hwait⟩]
      show (l.modify t _).task? t = _
      rw [task?_modify_self, ha]
      rfl
    cases hdrop.symm.trans hb
    cases hsignal

/-- The first in line that waits is woken, and who came before it did not wait. -/
theorem wakeFirst_spec (l : Loop π ρ) (line : List TaskId) :
    (∀ v ∈ line, l.awaitsSignal v = false) ∧ l.wakeFirst line = (l, []) ∨
      ∃ before u after, line = before ++ u :: after ∧ (∀ v ∈ before, l.awaitsSignal v = false) ∧
        l.awaitsSignal u = true ∧ l.wakeFirst line = (l.wake u, after) := by
  induction line with
  | nil => exact .inl ⟨by simp, rfl⟩
  | cons u rest ih =>
      unfold wakeFirst
      by_cases hu : l.awaitsSignal u = true
      · rw [if_pos hu]
        exact .inr ⟨[], u, rest, rfl, by simp, hu, rfl⟩
      · rw [if_neg hu]
        have hno : l.awaitsSignal u = false := by simpa using hu
        rcases ih with ⟨hnone, hsame⟩ | ⟨before, u', after, rfl, hbefore, hu', hsame⟩
        · exact .inl ⟨List.forall_mem_cons.2 ⟨hno, hnone⟩, hsame⟩
        · exact .inr ⟨u :: before, u', after, rfl, List.forall_mem_cons.2 ⟨hno, hbefore⟩, hu',
            hsame⟩

/-- The line is served: unless nobody waits, one who waited is woken. -/
theorem Line.served (h : Line P l line) :
    Line P (l.wakeFirst line).1 (l.wakeFirst line).2 ∧
      ((∀ v, ¬(l.wakeFirst line).1.Waits P v) ∨ ∃ u, l.Waits P u ∧
        (l.wakeFirst line).1.Woken P u ∧
          ∀ v, (l.wakeFirst line).1.Waits P v → l.Waits P v ∧ v ≠ u) := by
  rcases l.wakeFirst_spec line with ⟨hnone, hsame⟩ | ⟨before, u, after, rfl, hbefore, hu, hsame⟩
  · rw [hsame]
    have hnobody : ∀ v, ¬l.Waits P v := fun v hv => by
      have hmiss := hnone v (h.waits v hv)
      rw [hv.awaitsSignal] at hmiss
      cases hmiss
    exact ⟨⟨fun v hv => absurd hv (hnobody v), fun _ hv => absurd hv List.not_mem_nil⟩,
      .inl hnobody⟩
  · rw [hsame]
    have hlulls : Lulls P none l (l.wake u) := (l.keeps_wake u).lulls
    have hwaits := h.waits_of_awaits (List.mem_append_right _ List.mem_cons_self) hu
    have hother : ∀ v, (l.wake u).Waits P v → l.Waits P v ∧ v ≠ u := by
      refine fun v hv => ⟨hlulls.waits_back hv, ?_⟩
      rintro rfl
      have hmiss := l.awaitsSignal_wake v
      rw [hv.awaitsSignal] at hmiss
      cases hmiss
    refine ⟨⟨fun v hv => ?_, fun v hv => ?_⟩, .inr ⟨u, hwaits, ?_, hother⟩⟩
    · obtain ⟨hold, hvu⟩ := hother v hv
      rcases List.mem_append.1 (h.waits v hold) with hfirst | hrest
      · have hmiss := hbefore v hfirst
        rw [hold.awaitsSignal] at hmiss
        cases hmiss
      · exact (List.mem_cons.1 hrest).resolve_left hvu
    · exact (h.lulls hlulls).known v (List.mem_append_right _ (List.mem_cons_of_mem u hv))
    · obtain ⟨a, ha, hp, hgoing, -⟩ := hwaits
      refine ⟨{ a with wait := .woken }, ?_, hp, hgoing, rfl⟩
      rw [wake, if_pos hu]
      show (l.modify u _).task? u = _
      rw [task?_modify_self, ha]
      rfl

end Loop

/-! ## Channels -/

namespace Channel

open Loop (Waits Woken Lulls Line)

variable {α π ρ : Type} {G T : π → Prop} {size : Int} {taker taker' : Option TaskId} {debt : Nat}
  {l l' : Loop π ρ} {c c' : Channel α} {t v : TaskId} {a : Task π ρ} {p : π} {item : α}
  {arrival : Arrival}

/-- As long as somebody waits for room at `G`, the items and those who were woken make up the size,
up to a debt. -/
def Filled (G : π → Prop) (size : Int) (debt : Nat) (l : Loop π ρ) (n : Nat) : Prop :=
  ∀ u, l.Waits G u → 0 < size ∧ ∃ woken : List TaskId, woken.Nodup ∧
    (∀ x ∈ woken, l.Woken G x) ∧ size ≤ n + woken.length + debt

/-- The lines of a channel are served. Who waits for room stands at `G`, and who waits for an item
at `T`. A debt is the number of tasks that have gone on after they were woken for room, and have
not yet taken it or found none. -/
structure Served (G T : π → Prop) (size : Int) (taker : Option TaskId) (debt : Nat)
    (l : Loop π ρ) (c : Channel α) : Prop where
  limit : c.limit = size
  fits : 0 < size → (c.items.length : Int) ≤ size
  givers : Line G l c.givers
  takers : Line T l c.takers
  /-- Only one task waits for an item, and only while there is none. -/
  idle : ∀ v, l.Waits T v → taker = some v ∧ c.items = []
  filled : Filled G size debt l c.items.length

theorem Filled.lulls {n : Nat} (h : Filled G size debt l n) (hl : Lulls G none l l') :
    Filled G size debt l' n := by
  intro u hu
  obtain ⟨hpos, woken, hnodup, hwoken, hle⟩ := h u (hl.waits_back hu)
  exact ⟨hpos, woken, hnodup, fun x hx => hl.woken x (by simp) (hwoken x hx), hle⟩

/-- One more is owed when one is no longer woken. -/
theorem Filled.owe {n : Nat} (h : Filled G size debt l n) (hl : Lulls G (some t) l l') :
    Filled G size (debt + 1) l' n := by
  intro u hu
  obtain ⟨hpos, woken, hnodup, hwoken, hle⟩ := h u (hl.waits_back hu)
  refine ⟨hpos, woken.erase t, hnodup.erase t, fun x hx => ?_, ?_⟩
  · obtain ⟨hxt, hmem⟩ := hnodup.mem_erase_iff.1 hx
    exact hl.woken x (fun h => hxt (Option.some.inj h).symm) (hwoken x hmem)
  · by_cases hmem : t ∈ woken
    · have hpos := List.length_pos_of_mem hmem
      rw [List.length_erase_of_mem hmem]
      omega
    · rw [List.erase_of_not_mem hmem]
      omega

theorem Served.lulls (h : Served G T size taker debt l c) (hG : Lulls G none l l')
    (hT : Lulls T none l l') : Served G T size taker debt l' c where
  limit := h.limit
  fits := h.fits
  givers := h.givers.lulls hG
  takers := h.takers.lulls hT
  idle v hv := h.idle v (hT.waits_back hv)
  filled := h.filled.lulls hG

theorem Served.finish (h : Served G T size taker debt l c) (ha : l.task? t = some a)
    (hwait : a.wait = .none) (e : Ending ρ) : Served G T size taker debt (l.finish t e) c :=
  h.lulls (Loop.lulls_finish ha hwait e) (Loop.lulls_finish ha hwait e)

/-- It makes no difference who may wait for an item if nobody does. -/
theorem Served.of_idle (h : Served G T size taker debt l c) (hidle : ∀ v, ¬l.Waits T v) :
    Served G T size taker' debt l c :=
  { h with idle := fun v hv => absurd hv (hidle v) }

/-- Who was woken for room goes on, and owes it. -/
theorem Served.arrive (h : Served G T size taker debt l c)
    (harrive : l.arrive t = some (l', p, arrival)) : Served G T size taker (debt + 1) l' c where
  limit := h.limit
  fits := h.fits
  givers := h.givers.lulls (Loop.lulls_arrive harrive)
  takers := h.takers.lulls (Loop.lulls_arrive harrive)
  idle v hv := h.idle v ((Loop.lulls_arrive harrive).waits_back hv)
  filled := h.filled.owe (Loop.lulls_arrive harrive)

/-- Who goes on elsewhere owes no room. -/
theorem Served.arrive_elsewhere (h : Served G T size taker debt l c)
    (harrive : l.arrive t = some (l', p, arrival)) (hp : ¬G p) :
    Served G T size taker debt l' c := by
  refine { h.arrive harrive with
    filled := h.filled.lulls ((Loop.lulls_arrive harrive).of_unwoken ?_) }
  rintro ⟨b, hb, hG, -⟩
  obtain ⟨a, ha, -, hpoint, -⟩ := Loop.arrive_spec harrive
  cases ha.symm.trans hb
  exact hp (hpoint ▸ hG)

/-! ### What is done with a channel -/

/-- The line of those who wait for an item is served, and then nobody waits for one. -/
theorem serveTaker_idle (hline : Line T l c.takers) (hone : ∀ v, l.Waits T v → taker = some v) :
    ∀ v, ¬(c.serveTaker l).2.Waits T v := by
  intro v hv
  rcases hline.served.2 with hnobody | ⟨u, hu, -, hothers⟩
  · exact hnobody v hv
  · obtain ⟨hold, hne⟩ := hothers v hv
    exact hne (Option.some.inj ((hone v hold).symm.trans (hone u hu)))

/-- An item is put in by a task to whom room is owed, if to anybody. -/
theorem Served.give (h : Served G T size taker (debt + 1) l c) (hroom : c.isFull = false)
    (item : α) : Served G T size taker debt (c.give l item).2 (c.give l item).1 := by
  let c₁ : Channel α := { c with items := c.items ++ [item] }
  have hlulls : ∀ P : π → Prop, Lulls P none l (c.give l item).2 := fun P =>
    (keeps_give c l item).lulls
  have hlength : (c.give l item).1.items.length = c.items.length + 1 := by
    rw [give_items, List.length_append]
    rfl
  refine ⟨h.limit, fun hpos => ?_, h.givers.lulls (hlulls G), h.takers.served.1, fun v hv => ?_,
    fun u hu => ?_⟩
  · rw [hlength]
    have hnot : ¬(0 < c.limit ∧ c.limit ≤ c.items.length) := fun hfull => by
      rw [isFull_iff.2 hfull] at hroom
      cases hroom
    rw [h.limit] at hnot
    omega
  · exact absurd hv (serveTaker_idle (c := c₁) h.takers (fun v hv => (h.idle v hv).1) v)
  · rw [hlength]
    obtain ⟨hpos, woken, hnodup, hwoken, hle⟩ := (h.filled.lulls (hlulls G)) u hu
    exact ⟨hpos, woken, hnodup, hwoken, by omega⟩

/-- Who takes an item out makes room, and wakes one who waits for it. -/
theorem Served.take (h : Served G T size taker debt l c)
    (htake : c.take? l = some (item, c', l')) : Served G T size taker debt l' c' := by
  have hitems := items_of_take? htake
  have hlulls : ∀ P : π → Prop, Lulls P none l l' := fun P => (keeps_take? htake).lulls
  have hidle : ∀ v, ¬l.Waits T v := fun v hv => by
    rw [(h.idle v hv).2] at hitems
    cases hitems
  have hlength : c.items.length = c'.items.length + 1 := by
    rw [hitems]
    rfl
  unfold take? at htake
  split at htake
  · cases htake
  · next rest hrest =>
      cases htake
      refine ⟨h.limit, fun hpos => ?_, h.givers.served.1, h.takers.lulls (hlulls T), fun v hv =>
        absurd ((hlulls T).waits_back hv) (hidle v), fun u hu => ?_⟩
      · have hfits := h.fits hpos
        omega
      · obtain ⟨hpos, woken, hnodup, hwoken, hle⟩ := h.filled u ((hlulls G).waits_back hu)
        rcases h.givers.served.2 with hnobody | ⟨x, hx, hxwoken, hothers⟩
        · exact absurd hu (hnobody u)
        · -- it waited, and so was not among those who had been woken
          have hnew : x ∉ woken := fun hmem => by
            obtain ⟨a, ha, -, -, hsignal⟩ := hx
            obtain ⟨b, hb, -, -, hwaked⟩ := hwoken x hmem
            cases ha.symm.trans hb
            rw [hsignal] at hwaked
            cases hwaked
          refine ⟨hpos, x :: woken, List.nodup_cons.2 ⟨hnew, hnodup⟩, fun y hy => ?_, ?_⟩
          · rcases List.mem_cons.1 hy with rfl | hy
            · exact hxwoken
            · exact (hlulls G).woken y (by simp) (hwoken y hy)
          · rw [List.length_cons]
            omega

/-- Who gives up taking an item passes the signal on. -/
theorem Served.leaveTakers (h : Served G T size taker debt l c) (ht : ¬l.Waits T t)
    (woken : Bool) :
    Served G T size taker debt (c.leaveTakers l t woken).2 (c.leaveTakers l t woken).1 := by
  have hleft : Served G T size taker debt l { c with takers := c.takers.filter (· ≠ t) } :=
    { h with takers := h.takers.leave ht }
  unfold Channel.leaveTakers
  dsimp only
  split
  · next hsome =>
      have hidle : ∀ v, ¬l.Waits T v := fun v hv => by
        rw [(h.idle v hv).2] at hsome
        simp at hsome
      have hlulls : ∀ P : π → Prop, Lulls P none l _ := fun P =>
        (keeps_serveTaker { c with takers := c.takers.filter (· ≠ t) } l).lulls
      exact ⟨h.limit, h.fits, h.givers.lulls (hlulls G), hleft.takers.served.1, fun v hv =>
        absurd ((hlulls T).waits_back hv) (hidle v), h.filled.lulls (hlulls G)⟩
  · exact hleft

/-- A task comes to wait for room in a full channel. -/
theorem Served.awaitRoom (h : Served G T size taker debt l c) (hfull : c.isFull = true)
    (ha : l.task? t = some a) (hgoing : a.ending = none) (hold : ¬T a.point) (hp : G p)
    (hnot : ¬T p) :
    Served G T size taker 0 (l.suspend t p .signal) { c with givers := c.givers ++ [t] } := by
  have hlulls : Lulls T none l (l.suspend t p .signal) :=
    (l.keeps_suspend t p .signal).lulls_of_own ha (Loop.task?_suspend ha p .signal) hold hnot
  obtain ⟨hpos, hle⟩ := isFull_iff.1 hfull
  rw [h.limit] at hpos hle
  exact {
    limit := h.limit
    fits := h.fits
    givers := h.givers.join ha hgoing hp
    takers := h.takers.lulls hlulls
    idle := fun v hv => h.idle v (hlulls.waits_back hv)
    filled := fun u _ => by
      refine ⟨hpos, [], List.nodup_nil, fun _ hx => absurd hx List.not_mem_nil, ?_⟩
      show size ≤ c.items.length + 0 + 0
      omega }

/-- A task comes to wait for an item where there is none. -/
theorem Served.awaitItem (h : Served G T size (some t) debt l c) (hempty : c.items = [])
    (ha : l.task? t = some a) (hgoing : a.ending = none) (hold : ¬G a.point) (hp : T p)
    (hnot : ¬G p) :
    Served G T size (some t) debt (l.suspend t p .signal) { c with takers := c.takers ++ [t] } := by
  have hlulls : Lulls G none l (l.suspend t p .signal) :=
    (l.keeps_suspend t p .signal).lulls_of_own ha (Loop.task?_suspend ha p .signal) hold hnot
  refine ⟨h.limit, h.fits, h.givers.lulls hlulls, h.takers.join ha hgoing hp, fun v hv => ?_,
    h.filled.lulls hlulls⟩
  refine ⟨?_, hempty⟩
  by_cases hvt : v = t
  · rw [hvt]
  · obtain ⟨b, hb, hwaits⟩ := hv
    rw [Loop.suspend, Loop.task?_modify, if_neg (Ne.symm hvt)] at hb
    exact (h.idle v ⟨b, hb, hwaits⟩).1

/-! ### When nothing is left to be done -/

/-- If nobody is woken, who waits for room finds the channel full. -/
theorem Served.full (h : Served G T size taker 0 l c) (hnone : ∀ v, ¬l.Woken G v)
    (hv : l.Waits G v) : c.isFull = true := by
  obtain ⟨hpos, woken, -, hwoken, hle⟩ := h.filled v hv
  obtain rfl : woken = [] := List.eq_nil_iff_forall_not_mem.2 fun x hx => hnone x (hwoken x hx)
  rw [List.length_nil] at hle
  refine isFull_iff.2 ?_
  rw [h.limit]
  omega

end Channel

end LiveCluster
