import LiveCluster.Config.Environment
import LiveCluster.Proofs.Number.NotANumber
import LiveCluster.Proofs.Watch.Malformed

/-!
# The bounds of a configuration

A clamp brings every number between its bounds, so a configuration read from the
environment keeps to them, with one gap: no comparison holds of what is not a number, and
so the word for it passes through every clamp. The longest backoff has the shortest for its
lower bound and is bounded by it only if both are numbers.
-/

namespace LiveCluster

open Number

namespace Environment

/-! ## Clamps -/

theorem clampInt_within {low high : Int} (h : low ≤ high) (n : Int) :
    low ≤ clampInt low high n ∧ clampInt low high n ≤ high := by
  unfold clampInt
  dsimp only
  split_ifs <;> omega

variable {low high default x : Float}

/-- A clamp from below makes no number of what is none, nor the other way round. -/
theorem isNaN_clampBelow : (if low > x then low else x).isNaN = x.isNaN := by
  split_ifs with hlow
  · rw [(isNaN_of_lt hlow).1, (isNaN_of_lt hlow).2]
  · rfl

theorem isNaN_clampAbove : (if high < x then high else x).isNaN = x.isNaN := by
  split_ifs with hhigh
  · rw [(isNaN_of_lt hhigh).1, (isNaN_of_lt hhigh).2]
  · rfl

/-- What is not a number passes through a clamp, and no number becomes it there. -/
theorem isNaN_clampFloat : (clampFloat low high x).isNaN = x.isNaN := by
  unfold clampFloat
  dsimp only
  rw [isNaN_clampAbove, isNaN_clampBelow]

theorem clampFloat_le (hhigh : high.isNaN = false) (hx : x.isNaN = false) :
    clampFloat low high x ≤ high := by
  have hbelow : (if low > x then low else x).isNaN = false := isNaN_clampBelow.trans hx
  unfold clampFloat
  dsimp only
  generalize (if low > x then low else x) = y at hbelow ⊢
  split_ifs with hy
  · exact le_self hhigh
  · exact le_of_not_lt hbelow hhigh hy

theorem le_clampFloat (h : low ≤ high) (hx : x.isNaN = false) : low ≤ clampFloat low high x := by
  obtain ⟨hlow, -⟩ := isNaN_of_le h
  have hbelow : low ≤ if low > x then low else x := by
    split_ifs with hy
    · exact le_self hlow
    · exact le_of_not_lt hlow hx hy
  unfold clampFloat
  dsimp only
  generalize (if low > x then low else x) = y at hbelow ⊢
  split_ifs
  · exact h
  · exact hbelow

/-! ## Settings -/

variable {env : Environment} {key : String}

theorem intSetting_within {default low high n : Int} (h : low ≤ high)
    (hn : env.intSetting key default low high = .ok n) : low ≤ n ∧ n ≤ high := by
  unfold intSetting at hn
  dsimp only at hn
  split at hn
  · cases hn
    exact clampInt_within h _
  · cases hn
  · cases hn

theorem mem_of_wordSetting {default word : String} {words : List String}
    {refuse : String → BadArgument} (h : env.wordSetting key default words refuse = .ok word) :
    word ∈ words := by
  unfold wordSetting at h
  dsimp only at h
  split at h
  · next hword =>
      cases h
      exact List.contains_iff_mem.1 hword
  · cases h

/-- A setting is given, and it is the word for what is not a number. -/
def SaysNaN (env : Environment) (key : String) : Prop :=
  ∃ text, env.get? ("KUBEDECK_" ++ key) = some text ∧ NamesNaN text

/-- A setting is clamped from a number unless it says the word for what is none. -/
theorem floatSetting_spec (hdefault : default.isNaN = false)
    (h : env.floatSetting key default low high = .ok x) :
    ∃ y, x = clampFloat low high y ∧ (y.isNaN = true ↔ env.SaysNaN key) := by
  unfold floatSetting at h
  split at h
  · next hnone =>
      cases h
      refine ⟨default, rfl, iff_of_false (Bool.eq_false_iff.1 hdefault) ?_⟩
      rintro ⟨text, htext, -⟩
      rw [hnone] at htext
      cases htext
  · next text hsome =>
      split at h
      · next y hy =>
          cases h
          refine ⟨y, rfl, (isNaN_iff_of_parseFloat? hy).trans ?_⟩
          refine ⟨fun hnames => ⟨text, hsome, hnames⟩, ?_⟩
          rintro ⟨text', htext', hnames⟩
          rw [hsome] at htext'
          cases htext'
          exact hnames
      · cases h

theorem isNaN_floatSetting (hdefault : default.isNaN = false)
    (h : env.floatSetting key default low high = .ok x) : x.isNaN = true ↔ env.SaysNaN key := by
  obtain ⟨y, rfl, hy⟩ := floatSetting_spec hdefault h
  rw [isNaN_clampFloat, hy]

theorem floatSetting_within_iff (hbounds : low ≤ high) (hdefault : default.isNaN = false)
    (h : env.floatSetting key default low high = .ok x) :
    (low ≤ x ∧ x ≤ high) ↔ ¬ env.SaysNaN key := by
  rw [← isNaN_floatSetting hdefault h]
  constructor
  · rintro ⟨hlow, -⟩
    exact Bool.eq_false_iff.1 (isNaN_of_le hlow).2
  · intro hx
    obtain ⟨y, rfl, -⟩ := floatSetting_spec hdefault h
    rw [isNaN_clampFloat, Bool.not_eq_true] at hx
    exact ⟨le_clampFloat hbounds hx, clampFloat_le (isNaN_of_le hbounds).2 hx⟩

/-! ## The whole configuration -/

/-- Whatever is counted or is one of a few words is within its bounds. -/
structure Counted (c : Config) : Prop where
  requestTimeout : 1 ≤ c.connection.requestTimeout ∧ c.connection.requestTimeout ≤ 300
  staleThreshold : 1 ≤ c.watch.staleThreshold ∧ c.watch.staleThreshold ≤ 100
  watchTimeout : 10 ≤ c.watch.watchTimeout ∧ c.watch.watchTimeout ≤ 3600
  sinkSize : 1 ≤ c.tail.sinkSize ∧ c.tail.sinkSize ≤ 100000
  tailLines : 0 ≤ c.tail.tailLines ∧ c.tail.tailLines ≤ 100000
  level : c.log.level ∈ logLevels
  format : c.log.format ∈ logFormats

/-- Whatever is counted or chosen from a few words is always within its bounds. Each time is, as
doubles are ordered, exactly unless its variable says that it is not a number; and the longest
backoff, whose lower bound is the shortest, unless one of the two variables says so. -/
theorem config_within_bounds {c : Config} (h : env.config = .ok c) :
    Counted c ∧
      (0.0 ≤ c.watch.backoffBase ∧ c.watch.backoffBase ≤ 60.0 ↔
        ¬ env.SaysNaN "WATCH_BACKOFF_BASE") ∧
      (c.watch.backoffBase ≤ c.watch.backoffMax ∧ c.watch.backoffMax ≤ 600.0 ↔
        ¬ env.SaysNaN "WATCH_BACKOFF_BASE" ∧ ¬ env.SaysNaN "WATCH_BACKOFF_MAX") ∧
      (0.1 ≤ c.watch.syncTimeout ∧ c.watch.syncTimeout ≤ 300.0 ↔ ¬ env.SaysNaN "SYNC_TIMEOUT") ∧
      (0.0 ≤ c.watch.establishedAfter ∧ c.watch.establishedAfter ≤ 600.0 ↔
        ¬ env.SaysNaN "WATCH_ESTABLISHED_AFTER") := by
  unfold config at h
  obtain ⟨base, hbase, h⟩ := ok_of_bind h
  obtain ⟨request, hrequest, h⟩ := ok_of_bind h
  obtain ⟨longest, hlongest, h⟩ := ok_of_bind h
  obtain ⟨stale, hstale, h⟩ := ok_of_bind h
  obtain ⟨watch, hwatch, h⟩ := ok_of_bind h
  obtain ⟨sync, hsync, h⟩ := ok_of_bind h
  obtain ⟨established, hestablished, h⟩ := ok_of_bind h
  obtain ⟨sink, hsink, h⟩ := ok_of_bind h
  obtain ⟨lines, hlines, h⟩ := ok_of_bind h
  obtain ⟨level, hlevel, h⟩ := ok_of_bind h
  obtain ⟨format, hformat, h⟩ := ok_of_bind h
  cases h
  have hbase_within := floatSetting_within_iff (by decide +kernel) (by decide +kernel) hbase
  have hlongest_within : base ≤ longest ∧ longest ≤ 600.0 ↔
      ¬ env.SaysNaN "WATCH_BACKOFF_BASE" ∧ ¬ env.SaysNaN "WATCH_BACKOFF_MAX" := by
    constructor
    · rintro ⟨hle, -⟩
      obtain ⟨hbase_number, hlongest_number⟩ := isNaN_of_le hle
      rw [← isNaN_floatSetting (by decide +kernel) hbase,
        ← isNaN_floatSetting (by decide +kernel) hlongest]
      exact ⟨Bool.eq_false_iff.1 hbase_number, Bool.eq_false_iff.1 hlongest_number⟩
    · rintro ⟨hbase_number, hlongest_number⟩
      -- the shortest backoff is within its own bounds, so it leaves room for the longest
      have hroom : base ≤ 600.0 :=
        le_trans_of_numbers (hbase_within.2 hbase_number).2 (by decide +kernel)
      exact (floatSetting_within_iff hroom (by decide +kernel) hlongest).2 hlongest_number
  refine ⟨?_, hbase_within, hlongest_within,
    floatSetting_within_iff (by decide +kernel) (by decide +kernel) hsync,
    floatSetting_within_iff (by decide +kernel) (by decide +kernel) hestablished⟩
  exact {
    requestTimeout := intSetting_within (by decide) hrequest
    staleThreshold := intSetting_within (by decide) hstale
    watchTimeout := intSetting_within (by decide) hwatch
    sinkSize := intSetting_within (by decide) hsink
    tailLines := intSetting_within (by decide) hlines
    level := mem_of_wordSetting hlevel
    format := mem_of_wordSetting hformat }

/-- A shortest backoff below its bound, an infinite longest one, and digits that are not ASCII. -/
def unusual : Environment := [("KUBEDECK_WATCH_BACKOFF_BASE", " -1_0.5e0 "),
  ("KUBEDECK_WATCH_BACKOFF_MAX", "+Infinity"), ("KUBEDECK_LOG_SINK_SIZE", "٠"),
  ("KUBEDECK_LOG_LEVEL", "DEBUG")]

theorem config_within_bounds_unusual :
    ∃ c, config unusual = .ok c ∧ Counted c ∧
      0.1 ≤ c.watch.syncTimeout ∧ c.watch.syncTimeout ≤ 300.0 := by
  have hread : (config unusual).isOk = true := by decide +kernel
  obtain ⟨c, hc⟩ : ∃ c, config unusual = .ok c := by
    cases h : config unusual with
    | error fault => rw [h] at hread; cases hread
    | ok c => exact ⟨c, rfl⟩
  have hsync : ¬ unusual.SaysNaN "SYNC_TIMEOUT" := by
    rintro ⟨text, htext, -⟩
    have hunset : unusual.get? ("KUBEDECK_" ++ "SYNC_TIMEOUT") = none := by decide
    rw [hunset] at htext
    cases htext
  obtain ⟨hcounted, -, -, hwithin, -⟩ := config_within_bounds hc
  exact ⟨c, hc, hcounted, hwithin.2 hsync⟩

/-- A shortest backoff that is not a number is not brought within its bounds. -/
theorem config_not_within_bounds :
    ∃ c, config [("KUBEDECK_WATCH_BACKOFF_BASE", "nan")] = .ok c ∧
      ¬ (0.0 ≤ c.watch.backoffBase ∧ c.watch.backoffBase ≤ 60.0) := by
  refine ⟨_, rfl, fun hwithin => ?_⟩
  revert hwithin
  decide +kernel

end Environment

end LiveCluster
