import LiveCluster.Proofs.Restart.Stamp

/-!
# What a restart writes

Whatever is restarted, the patch is the same and has one leaf, the annotation with the stamp
of the instant. The stamp is the second in UTC in which the instant falls, so stamps are
equal for the instants of one second, and they sort like time.
-/

namespace LiveCluster.Restart

mutual

/-- What stands at the ends of a value, with the names of the fields that lead there. -/
def leaves : Value → List (List String × Value)
  | .record [] => [([], .record [])]
  | .record fields => fieldLeaves fields
  | v => [([], v)]

def fieldLeaves : List (String × Value) → List (List String × Value)
  | [] => []
  | (name, v) :: rest =>
    (leaves v).map (fun leaf => (name :: leaf.1, leaf.2)) ++ fieldLeaves rest

end

/-- The object is one that can be restarted: a deployment that is not paused, or a daemon set or a
stateful set whose pods are replaced without being deleted first. -/
def MayRestart (kind : Kind) (object : Value) : Prop :=
  match kind with
  | .deployment => Decoded.paused object = false
  | .daemonSet | .statefulSet => Decoded.updatesOnDelete object = false
  | _ => False

/-- The text is what a restart at the instant writes, whatever is restarted, and it stands for the
second in which the instant falls. -/
structure Stamped (t : Instant) (stamp : String) : Prop where
  writes : ∃ p, (∀ kind object, MayRestart kind object → patch kind object t = .ok p) ∧
    leaves p = [(["spec", "template", "metadata", "annotations", annotation], .text stamp)]
  reads : ∃ u : Instant, Instant.read? stamp = some u ∧ u.IsUtcSecond ∧
    u.elapsed ≤ t.elapsed ∧ t.elapsed < u.elapsed + 1000000

variable {kind : Kind} {object : Value} {t t' u : Instant} {stamp : String}

theorem refusal?_of_mayRestart (h : MayRestart kind object) : refusal? kind object = none := by
  cases kind with
  | deployment | daemonSet | statefulSet =>
    have hnot : _ = false := h
    simp [refusal?, hnot]
  | pod | replicaSet | job => exact h.elim

theorem leaves_single (name : String) (v : Value) :
    leaves (single name v) = (leaves v).map fun leaf => (name :: leaf.1, leaf.2) := by
  rw [single, leaves, fieldLeaves, fieldLeaves, List.append_nil]
  simp

theorem templatePatch_of_stamp (h : t.stamp = .ok stamp) :
    ∃ p, templatePatch t = .ok p ∧
      leaves p = [(["spec", "template", "metadata", "annotations", annotation], .text stamp)] := by
  refine ⟨_, by rw [templatePatch, h]; rfl, ?_⟩
  simp only [leaves_single]
  rfl

theorem stamped_text (ht : t.Civil) (hu : u.IsUtcSecond) (hyear : 1000 ≤ u.year)
    (hyear' : u.year ≤ 9999) (h : u.elapsed = t.utcSecond * 1000000) : Stamped t u.text := by
  obtain ⟨p, hp, hleaves⟩ := templatePatch_of_stamp (Instant.stamp_eq_text ht hu hyear hyear' h)
  refine ⟨⟨p, fun kind object hmay => ?_, hleaves⟩,
    u, Instant.read?_text hu (by omega), hu, ?_⟩
  · rw [patch, refusal?_of_mayRestart hmay]
    exact hp
  · unfold Instant.utcSecond at h
    omega

/-- A restart stamps the second in UTC of its instant, whatever is restarted: the stamps of two
instants are equal if they fall in one second, whatever their offsets, and otherwise the earlier one
has the smaller stamp. -/
theorem restart_stamps (ht : t.Civil) (hyears : t.InYears 1000 9999) (ht' : t'.Civil)
    (hyears' : t'.InYears 1000 9999) :
    ∃ stamp stamp', Stamped t stamp ∧ Stamped t' stamp' ∧
      (stamp = stamp' ↔ t.utcSecond = t'.utcSecond) ∧
      (stamp < stamp' ↔ t.utcSecond < t'.utcSecond) := by
  obtain ⟨u, hu, hyear, hlast, helapsed⟩ := Instant.exists_utcSecond (by decide) hyears
  obtain ⟨u', hu', hyear', hlast', helapsed'⟩ := Instant.exists_utcSecond (by decide) hyears'
  have hlt : u.text < u'.text ↔ t.utcSecond < t'.utcSecond := by
    rw [Instant.text_lt_iff hu hu' (by omega) (by omega)]
    omega
  have hgt : u'.text < u.text ↔ t'.utcSecond < t.utcSecond := by
    rw [Instant.text_lt_iff hu' hu (by omega) (by omega)]
    omega
  refine ⟨u.text, u'.text, stamped_text ht hu hyear hlast helapsed,
    stamped_text ht' hu' hyear' hlast' helapsed', ?_, hlt⟩
  rw [le_antisymm_iff, ← not_lt, ← not_lt, hlt, hgt]
  omega

/-- Half past midnight on the first of March, an hour east of UTC. -/
def eastern : Instant :=
  { year := 2024, month := 3, day := 1, hour := 0, minute := 30, second := 0,
    microsecond := 500000, offset := 60 }

/-- The same second five hours west of UTC, on the leap day. -/
def western : Instant :=
  { year := 2024, month := 2, day := 29, hour := 18, minute := 30, second := 0, offset := -300 }

theorem elapsed_eastern : eastern.elapsed = 63876468600500000 := by
  unfold Instant.elapsed Calendar.ordinal
  push_cast
  rw [Calendar.daysBeforeYear_eq]
  decide

theorem elapsed_western : western.elapsed = 63876468600000000 := by
  unfold Instant.elapsed Calendar.ordinal
  push_cast
  rw [Calendar.daysBeforeYear_eq]
  decide

theorem inYears_of_elapsed (h : 31556995200000000 ≤ t.elapsed)
    (h' : t.elapsed < 315569520000000000) : t.InYears 1000 9999 := by
  unfold Instant.InYears
  rw [Instant.elapsed_newYear, Instant.elapsed_newYear, Calendar.daysBeforeYear_eq,
    Calendar.daysBeforeYear_eq]
  have hfirst : Calendar.daysBeforeMarch ((1000 : Nat) - 1) = 364877 := by decide
  have hlast : Calendar.daysBeforeMarch ((9999 + 1 : Nat) - 1) = 3652059 := by decide
  rw [hfirst, hlast]
  omega

/-- The two get one stamp. -/
theorem restart_stamps_of_one_second : ∃ stamp, Stamped eastern stamp ∧ Stamped western stamp := by
  have heastern : eastern.Civil :=
    ⟨by decide, ⟨by decide, by decide, by decide, by decide⟩, by decide, by decide, by decide,
      by decide, by decide, by decide⟩
  have hwestern : western.Civil :=
    ⟨by decide, ⟨by decide, by decide, by decide, by decide⟩, by decide, by decide, by decide,
      by decide, by decide, by decide⟩
  have heastern_years : eastern.InYears 1000 9999 := by
    apply inYears_of_elapsed <;> rw [elapsed_eastern] <;> decide
  have hwestern_years : western.InYears 1000 9999 := by
    apply inYears_of_elapsed <;> rw [elapsed_western] <;> decide
  obtain ⟨stamp, stamp', hstamp, hstamp', hsame, -⟩ :=
    restart_stamps heastern heastern_years hwestern hwestern_years
  have hsecond : eastern.utcSecond = western.utcSecond := by
    rw [Instant.utcSecond, Instant.utcSecond, elapsed_eastern, elapsed_western]
    decide
  obtain rfl := hsame.2 hsecond
  exact ⟨stamp, hstamp, hstamp'⟩

end LiveCluster.Restart
