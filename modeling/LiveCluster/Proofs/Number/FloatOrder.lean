import Mathlib.Data.Int.Order.Basic
import Mathlib.Data.Prod.Lex
import Mathlib.Order.Compare

/-!
# The order of doubles

Doubles are compared by sign, then by exponent, then by significand, and what is not a
number compares with nothing. So apart from that one value they are ordered like their
ranks, triples of integers in the order of dictionaries, and what is said of the order is
read off the ranks: it is transitive, and of two numbers one is not less than the other or
comes before it.
-/

namespace LiveCluster.Number

open Float.Model (UnpackedFloat)

/-- The place of a double in the order; that of what is not a number means nothing. -/
def rank : UnpackedFloat → Int ×ₗ Int ×ₗ Int
  | .infinity .negative => toLex (-2, toLex (0, 0))
  | .finite .negative m e _ => toLex (-1, toLex (-e, -m))
  | .zero _ | .notANumber => toLex (0, toLex (0, 0))
  | .finite .positive m e _ => toLex (1, toLex (e, m))
  | .infinity .positive => toLex (2, toLex (0, 0))

theorem then_compare_eq_lt {e e' : Int} {m m' : Nat} :
    (compare e e').then (compare m m') = .lt ↔ e < e' ∨ e = e' ∧ m < m' := by
  simp [Ordering.then_eq_lt, compare_lt_iff_lt]

theorem then_compare_eq_gt {e e' : Int} {m m' : Nat} :
    (compare e e').then (compare m m') = .gt ↔ e' < e ∨ e' = e ∧ m' < m := by
  simp [Ordering.then_eq_gt, compare_gt_iff_gt, eq_comm (a := e)]

/-- Doubles that are numbers compare like their ranks. -/
theorem compare_spec {a b : UnpackedFloat} (ha : a.isNaN = false) (hb : b.isNaN = false) :
    ∃ o, a.compare b = some o ∧ (o = .lt ↔ rank a < rank b) ∧ (o = .gt ↔ rank b < rank a) := by
  have hlex : ∀ {x y : Int} {p q : Int ×ₗ Int},
      toLex (x, p) < toLex (y, q) ↔ x < y ∨ x = y ∧ p < q := Prod.Lex.toLex_lt_toLex
  have hlex₂ : ∀ {x y z w : Int}, toLex (x, z) < toLex (y, w) ↔ x < y ∨ x = y ∧ z < w :=
    Prod.Lex.toLex_lt_toLex
  cases a with
  | notANumber => cases ha
  | infinity s | zero s =>
      cases b with
      | notANumber => cases hb
      | infinity s' | zero s' => cases s <;> cases s' <;> exact ⟨_, rfl, by decide, by decide⟩
      | finite s' m' e' _ =>
          cases s <;> cases s' <;>
            exact ⟨_, rfl, by unfold rank; simp [hlex], by unfold rank; simp [hlex]⟩
  | finite s m e _ =>
      cases b with
      | notANumber => cases hb
      | infinity s' | zero s' =>
          cases s <;> cases s' <;>
            exact ⟨_, rfl, by unfold rank; simp [hlex], by unfold rank; simp [hlex]⟩
      | finite s' m' e' _ =>
          cases s <;> cases s'
          case negative.positive | positive.negative =>
            exact ⟨_, rfl, by unfold rank; simp [hlex], by unfold rank; simp [hlex]⟩
          case positive.positive =>
            refine ⟨_, rfl, then_compare_eq_lt.trans ?_, then_compare_eq_gt.trans ?_⟩
            · unfold rank
              simp [hlex, hlex₂]
            · unfold rank
              simp [hlex, hlex₂]
          case negative.negative =>
            refine ⟨_, rfl, Ordering.swap_eq_lt.trans (then_compare_eq_gt.trans ?_),
              Ordering.swap_eq_gt.trans (then_compare_eq_lt.trans ?_)⟩
            · unfold rank
              simp [hlex, hlex₂, eq_comm]
            · unfold rank
              simp [hlex, hlex₂, eq_comm]

/-- Only numbers compare. -/
theorem numbers_of_compare {a b : UnpackedFloat} {o : Ordering} (h : a.compare b = some o) :
    a.isNaN = false ∧ b.isNaN = false := by
  cases a with
  | notANumber => cases h
  | infinity _ | zero _ | finite _ _ _ _ =>
      cases b with
      | notANumber => cases h
      | infinity _ | zero _ | finite _ _ _ _ => exact ⟨rfl, rfl⟩

/-! ## The two relations -/

/-- The place of a double in the order. -/
def place (x : Float) : Int ×ₗ Int ×ₗ Int :=
  rank x.toModel.unpack

variable {x y z : Float}

theorem lt_iff_place (hx : x.isNaN = false) (hy : y.isNaN = false) :
    x < y ↔ place x < place y := by
  obtain ⟨o, ho, hlt, -⟩ := compare_spec (a := x.toModel.unpack) (b := y.toModel.unpack) hx hy
  show decide (x.toModel.unpack.lt y.toModel.unpack = true) = true ↔ _
  rw [decide_eq_true_iff, UnpackedFloat.lt, ho, beq_iff_eq, Option.some.injEq]
  exact hlt

theorem le_iff_place (hx : x.isNaN = false) (hy : y.isNaN = false) :
    x ≤ y ↔ place x ≤ place y := by
  obtain ⟨o, ho, -, hgt⟩ := compare_spec (a := x.toModel.unpack) (b := y.toModel.unpack) hx hy
  show decide (x.toModel.unpack.le y.toModel.unpack = true) = true ↔ _
  rw [decide_eq_true_iff, UnpackedFloat.le, ho, Option.any_some, Ordering.isLE_iff_ne_gt, hgt,
    not_lt]
  rfl

theorem isNaN_of_le (h : x ≤ y) : x.isNaN = false ∧ y.isNaN = false := by
  have hle : x.toModel.unpack.le y.toModel.unpack = true := of_decide_eq_true h
  obtain ⟨o, ho, -⟩ := (Option.any_eq_true _ _).1 hle
  exact numbers_of_compare ho

theorem isNaN_of_lt (h : x < y) : x.isNaN = false ∧ y.isNaN = false := by
  have hlt : x.toModel.unpack.lt y.toModel.unpack = true := of_decide_eq_true h
  exact numbers_of_compare (eq_of_beq hlt)

theorem le_self (hx : x.isNaN = false) : x ≤ x :=
  (le_iff_place hx hx).2 (le_refl _)

theorem le_of_not_lt (hx : x.isNaN = false) (hy : y.isNaN = false) (h : ¬ y < x) : x ≤ y := by
  rw [lt_iff_place hy hx, not_lt] at h
  exact (le_iff_place hx hy).2 h

theorem le_trans_of_numbers (hxy : x ≤ y) (hyz : y ≤ z) : x ≤ z := by
  obtain ⟨hx, hy⟩ := isNaN_of_le hxy
  obtain ⟨-, hz⟩ := isNaN_of_le hyz
  rw [le_iff_place hx hy] at hxy
  rw [le_iff_place hy hz] at hyz
  exact (le_iff_place hx hz).2 (hxy.trans hyz)

end LiveCluster.Number
