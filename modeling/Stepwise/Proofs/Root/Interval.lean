import Stepwise.Proofs.Double.Operations
import Stepwise.Proofs.Root.Bracket
import Stepwise.Proofs.Root.Path
import Mathlib

/-!
# The interval of a bisection

The midpoint of a bracket lies in the bracket as long as the sum of its ends does not overflow. So a
bisection is confined to its interval exactly if no such sum on its way overflows. On an interval of at
most half the range of doubles to both sides, none does.
-/

namespace Stepwise.Root

open Double

/-- A finite point of an interval. -/
structure Inside (a b x : Float) : Prop where
  finite : x.isFinite = true
  low : a ≤ x
  high : x ≤ b

/-- The largest double of which twice is a double. -/
def halfRange : Float :=
  8.988465674311579e307

section Inside

variable {a b x y z : Float}

/-- The order of finite doubles is transitive. -/
lemma le_trans_of_finite (hx : x.isFinite = true) (hy : y.isFinite = true) (hz : z.isFinite = true)
    (le : x ≤ y) (le' : y ≤ z) : x ≤ z := by
  rw [le_iff_value hx hy] at le
  rw [le_iff_value hy hz] at le'
  exact (le_iff_value hx hz).mpr (le.trans le')

/-- A finite double reaches itself. -/
lemma le_self_of_finite (hx : x.isFinite = true) : x ≤ x :=
  (le_iff_value hx hx).mpr (le_refl _)

/-- The ends of an interval are in it. -/
lemma inside_ends (ha : a.isFinite = true) (hb : b.isFinite = true) (le : a ≤ b) :
    Inside a b a ∧ Inside a b b :=
  ⟨⟨ha, le_self_of_finite ha, le⟩, ⟨hb, le, le_self_of_finite hb⟩⟩

/-- A point between two points of an interval is a point of the interval. -/
lemma Inside.between (ha : a.isFinite = true) (hb : b.isFinite = true) (hx : Inside a b x)
    (hy : Inside a b y) (hz : Inside x y z) : Inside a b z where
  finite := hz.finite
  low := le_trans_of_finite ha hx.finite hz.finite hx.low hz.low
  high := le_trans_of_finite hz.finite hy.finite hb hz.high hy.high

/-- The bits of the half of the largest double. -/
lemma halfRange_eq : halfRange = Float.ofBits 0x7fdfffffffffffff := by
  decide +kernel

/-- The number that the half of the largest double stands for. -/
lemma value_halfRange : value halfRange = (2 ^ 53 - 1 : ℕ) * 2 ^ (970 : ℤ) := by
  have unpacked : (Float.ofBits 0x7fdfffffffffffff).toModel.unpack =
      .finite .positive (2 ^ 53 - 1) 970 (by norm_num) := by
    rfl
  rw [halfRange_eq, value, unpacked, valueOf, signed]

/-- The negative of half of the largest double stands for the negative number. -/
lemma value_neg_halfRange : value (-halfRange) = -value halfRange := by
  have unpacked : (-Float.ofBits 0x7fdfffffffffffff).toModel.unpack =
      .finite .negative (2 ^ 53 - 1) 970 (by norm_num) := by
    rfl
  rw [value_halfRange, halfRange_eq, value, unpacked, valueOf, signed]

/-- Half of the largest double is finite with either sign. -/
lemma isFinite_halfRange : halfRange.isFinite = true ∧ (-halfRange).isFinite = true := by
  decide +kernel

/-- Two points within half the range have a sum. -/
lemma isFinite_sum (hx : Inside (-halfRange) halfRange x) (hy : Inside (-halfRange) halfRange y) :
    (x + y).isFinite = true := by
  obtain ⟨finite, finite'⟩ := isFinite_halfRange
  have bound {z : Float} (hz : Inside (-halfRange) halfRange z) : |value z| ≤ value halfRange := by
    refine abs_le.mpr ⟨?_, (le_iff_value hz.finite finite).mp hz.high⟩
    rw [← value_neg_halfRange]
    exact (le_iff_value finite' hz.finite).mp hz.low
  refine (add_roundsTo hx.finite hy.finite).isFinite (onGrid_value finite).double ?_ ?_
  · calc |value x + value y| ≤ |value x| + |value y| := abs_add_le _ _
      _ ≤ 2 * value halfRange := by linarith [bound hx, bound hy]
  · have fits : Fits (2 ^ 53 - 1) 970 := ⟨by norm_num, by norm_num, by norm_num, by norm_num⟩
    calc 2 * value halfRange < 2 * 2 ^ (1023 : ℤ) := by
          rw [value_halfRange]
          exact mul_lt_mul_of_pos_left fits.lt_zpow two_pos
      _ = 2 ^ 1024 := by
          rw [mul_comm, ← zpow_add_one₀ two_ne_zero, ← zpow_natCast]
          congr 1

end Inside

namespace Bisection

section Brackets

variable {ε α : Type} [Arithmetic α]

/-- The brackets that halving goes through: the first one, and the half that each step keeps. At the
midpoint of each of them the function is asked for its value, unless no iteration is left. -/
def passed (f : α → Except ε α) (tol : α) : Nat → Bracket α → List (Bracket α)
  | 0, bracket => [bracket]
  | budget + 1, bracket =>
    bracket ::
      match f bracket.midpoint with
      | .error _ => []
      | .ok value =>
        if closeEnough tol (bracket.step 0 value) then []
        else passed f tol budget (bracket.half value)

/-- The brackets that a bisection goes through. There are none if it does not come to halving. -/
def searched (f : α → Except ε α) (a b tol : α) (budget : Nat) : List (Bracket α) :=
  match f a, f b with
  | .ok atA, .ok atB =>
    if atA == 0.0 then []
    else if atB == 0.0 then []
    else if negative atA = negative atB then []
    else passed f tol budget { a, b, atA, atB }
  | _, _ => []

/-- An ending at a point with some property, if it is at a point at all. -/
inductive EndsAt (f : α → Except ε α) (place : α → Prop) : Ending ε α → Prop where
  | endpoint {root} : place root → EndsAt f place (.endpoint root)
  | sameSign {atA atB} : EndsAt f place (.sameSign atA atB)
  | found {root} : place root → EndsAt f place (.found root)
  | exhausted {midpoint} : place midpoint → EndsAt f place (.exhausted midpoint)
  | failed {x error} : place x → f x = .error error → EndsAt f place (.failed error)

variable {f g : α → Except ε α} {a b tol : α} {budget : Nat}

omit [Arithmetic α] in
/-- An ending at some place is at every place that takes it in. -/
lemma EndsAt.mono {place place' : α → Prop} {ending : Ending ε α} (ends : EndsAt f place ending)
    (imp : ∀ x, place x → place' x) : EndsAt f place' ending := by
  cases ends with
  | endpoint at_root => exact .endpoint (imp _ at_root)
  | sameSign => exact .sameSign
  | found at_root => exact .found (imp _ at_root)
  | exhausted at_midpoint => exact .exhausted (imp _ at_midpoint)
  | failed at_x e => exact .failed (imp _ at_x) e

/-- A bisection stops at an end of its interval, or it halves the interval. The same holds of another
function with the same values at the ends. -/
lemma run_cases (ha : g a = f a) (hb : g b = f b) (tol : α) (budget : Nat) :
    (∃ ending, EndsAt f (fun x => x = a ∨ x = b) ending ∧ searched f a b tol budget = [] ∧
      run f a b tol budget = .stop ending ∧ run g a b tol budget = .stop ending) ∨
    ∃ start : Bracket α, start.a = a ∧ start.b = b ∧
      searched f a b tol budget = passed f tol budget start ∧
      run f a b tol budget = halve f tol 1 budget start ∧
      run g a b tol budget = halve g tol 1 budget start := by
  rw [searched, run_eq, run_eq, ha, hb]
  cases ea : f a with
  | error error => exact .inl ⟨_, .failed (.inl rfl) ea, rfl, rfl, rfl⟩
  | ok atA =>
    cases eb : f b with
    | error error => exact .inl ⟨_, .failed (.inr rfl) eb, rfl, rfl, rfl⟩
    | ok atB =>
      dsimp only
      split
      case isTrue => exact .inl ⟨_, .endpoint (.inl rfl), rfl, rfl, rfl⟩
      case isFalse =>
        split
        case isTrue => exact .inl ⟨_, .endpoint (.inr rfl), rfl, rfl, rfl⟩
        case isFalse =>
          split
          case isTrue => exact .inl ⟨_, .sameSign, rfl, rfl, rfl⟩
          case isFalse => exact .inr ⟨_, rfl, rfl, rfl, rfl, rfl⟩

/-- Halving goes through the bracket that it starts with. -/
lemma mem_passed (budget : Nat) (start : Bracket α) : start ∈ passed f tol budget start := by
  cases budget <;> exact List.mem_cons_self ..

/-- The bracket that halving starts with is the first one. -/
lemma head?_passed (budget : Nat) (start : Bracket α) :
    (passed f tol budget start).head? = some start := by
  cases budget <;> rfl

/-- The midpoint of a bracket of some list. -/
def MidpointOf (brackets : List (Bracket α)) (x : α) : Prop :=
  ∃ bracket ∈ brackets, x = bracket.midpoint

/-- A midpoint of some brackets stays one when there are more of them. -/
lemma MidpointOf.cons {bracket : Bracket α} {brackets : List (Bracket α)} {x : α}
    (h : MidpointOf brackets x) : MidpointOf (bracket :: brackets) x := by
  obtain ⟨other, mem, e⟩ := h
  exact ⟨other, List.mem_cons_of_mem _ mem, e⟩

/-- What halving records are the brackets that it goes through, and it ends at one of them. -/
lemma halve_passed (f : α → Except ε α) (tol : α) (first budget : Nat) (start : Bracket α) :
    (halve f tol first budget start).steps.map Halving.bracket <+: passed f tol budget start ∧
      (∀ step ∈ (halve f tol first budget start).steps, step.midpoint = step.bracket.midpoint) ∧
      EndsAt f (MidpointOf (passed f tol budget start)) (halve f tol first budget start).ending := by
  induction budget generalizing first start with
  | zero =>
    refine ⟨List.nil_prefix, List.forall_mem_nil _, ?_⟩
    exact .exhausted ⟨start, mem_passed 0 start, rfl⟩
  | succ budget ih =>
    have here : MidpointOf (passed f tol (budget + 1) start) start.midpoint :=
      ⟨start, mem_passed _ _, rfl⟩
    rw [passed] at here ⊢
    rw [halve_succ]
    cases e : f start.midpoint with
    | error error =>
      rw [e] at here
      exact ⟨List.nil_prefix, List.forall_mem_nil _, .failed here e⟩
    | ok value =>
      rw [e] at here
      dsimp only at here ⊢
      by_cases close : closeEnough tol (start.step first value) = true
      · have close' : closeEnough tol (start.step 0 value) = true := close
        rw [if_pos close'] at here
        rw [if_pos close, if_pos close']
        exact ⟨List.prefix_rfl, List.forall_mem_singleton.mpr rfl, .found here⟩
      · have far : ¬ closeEnough tol (start.step 0 value) = true := close
        rw [if_neg close, if_neg far]
        obtain ⟨recorded, midpoints, ends⟩ := ih (first + 1) (start.half value)
        refine ⟨List.cons_prefix_cons.mpr ⟨rfl, recorded⟩, ?_, ends.mono fun _ => .cons⟩
        exact List.forall_mem_cons.mpr ⟨rfl, midpoints⟩

/-- Halving asks for values at the midpoints of the brackets that it goes through, and nowhere else. -/
lemma halve_congr {first : Nat} {start : Bracket α}
    (same : ∀ bracket ∈ passed f tol budget start, g bracket.midpoint = f bracket.midpoint) :
    halve g tol first budget start = halve f tol first budget start := by
  induction budget generalizing first start with
  | zero => rfl
  | succ budget ih =>
    have here := same start (mem_passed _ _)
    rw [halve_succ, halve_succ, here]
    rw [passed] at same
    cases e : f start.midpoint with
    | error error => rfl
    | ok value =>
      rw [e] at same
      dsimp only at same ⊢
      by_cases close : closeEnough tol (start.step first value) = true
      · rw [if_pos close, if_pos close]
      · have far : ¬ closeEnough tol (start.step 0 value) = true := close
        rw [if_neg far] at same
        rw [if_neg close, if_neg close, ih (List.forall_mem_cons.mp same).2]

/-- Halving does ask for a value at the midpoint of every bracket that it goes through, unless it ends
there with no iteration left: without a value there, it fails. -/
lemma halve_asks (first : Nat) {start bracket : Bracket α} {error : ε}
    (mem : bracket ∈ passed f tol budget start) (missing : g bracket.midpoint = .error error)
    (same : ∀ x, x ≠ bracket.midpoint → g x = f x) :
    (halve g tol first budget start).ending = .failed error ∨
      (halve f tol first budget start).ending = .exhausted bracket.midpoint := by
  induction budget generalizing first start with
  | zero =>
    rw [List.mem_singleton.mp mem]
    exact .inr rfl
  | succ budget ih =>
    -- Either this is the midpoint without a value, or the step is the same for both functions.
    by_cases here : start.midpoint = bracket.midpoint
    · rw [← here] at missing
      rw [halve_succ, missing]
      exact .inl rfl
    · have later {brackets} (mem : bracket ∈ start :: brackets) : bracket ∈ brackets :=
        (List.mem_cons.mp mem).resolve_left fun e => here (congrArg _ e.symm)
      rw [passed] at mem
      rw [halve_succ, halve_succ, same _ here]
      cases e : f start.midpoint with
      | error error =>
        rw [e] at mem
        cases later mem
      | ok value =>
        rw [e] at mem
        dsimp only at mem ⊢
        by_cases close : closeEnough tol (start.step first value) = true
        · have close' : closeEnough tol (start.step 0 value) = true := close
          rw [if_pos close'] at mem
          cases later mem
        · have far : ¬ closeEnough tol (start.step 0 value) = true := close
          rw [if_neg far] at mem
          rw [if_neg close, if_neg close]
          exact ih _ (later mem)

end Brackets

section Confinement

variable {ε : Type} {f g : Float → Except ε Float} {a b tol : Float} {budget : Nat}

/-- A bracket in an interval, with its ends in their order. -/
structure Bracket.Within (a b : Float) (bracket : Bracket Float) : Prop where
  left : Inside a b bracket.a
  right : Inside a b bracket.b
  ordered : bracket.a ≤ bracket.b

/-- The sum of the ends of a bracket does not overflow. -/
def Bracket.Sums (bracket : Bracket Float) : Prop :=
  (bracket.a + bracket.b).isFinite = true

namespace Bracket

variable {bracket : Bracket Float}

/-- A midpoint lies in its bracket if the sum of the ends does not overflow. -/
lemma midpoint_inside (within : bracket.Within a b) (sums : bracket.Sums) :
    Inside bracket.a bracket.b bracket.midpoint := by
  obtain ⟨low, high⟩ :=
    Double.midpoint_inside within.left.finite within.right.finite within.ordered sums
  exact ⟨isFinite_half sums, low, high⟩

/-- The half that is kept is a bracket in the bracket before. -/
lemma half_within (within : bracket.Within a b) (sums : bracket.Sums) (value : Float) :
    (bracket.half value).Within bracket.a bracket.b := by
  have middle := midpoint_inside within sums
  obtain ⟨left, right⟩ := inside_ends within.left.finite within.right.finite within.ordered
  unfold Bracket.half
  split
  case isTrue => exact ⟨left, middle, middle.low⟩
  case isFalse => exact ⟨middle, right, middle.high⟩

/-- What lies within a bracket within an interval lies within the interval. -/
lemma Within.trans {inner : Bracket Float} (ha : a.isFinite = true) (hb : b.isFinite = true)
    (outer : bracket.Within a b) (within : inner.Within bracket.a bracket.b) : inner.Within a b where
  left := .between ha hb outer.left outer.right within.left
  right := .between ha hb outer.left outer.right within.right
  ordered := within.ordered

/-- The ends of a bracket within half the range have a sum. -/
lemma Within.sums (ha : Inside (-halfRange) halfRange a) (hb : Inside (-halfRange) halfRange b)
    (within : bracket.Within a b) : bracket.Sums := by
  obtain ⟨finite, finite'⟩ := isFinite_halfRange
  exact isFinite_sum (.between finite' finite ha hb within.left)
    (.between finite' finite ha hb within.right)

end Bracket

/-- A bracket in which another one lies. -/
def Encloses (outer inner : Bracket Float) : Prop :=
  outer.a ≤ inner.a ∧ inner.b ≤ outer.b

/-- As long as no sum of ends overflows, halving goes from bracket to bracket in the interval. -/
lemma passed_within {start : Bracket Float} (ha : a.isFinite = true) (hb : b.isFinite = true)
    (within : start.Within a b) (sums : ∀ bracket ∈ passed f tol budget start, bracket.Sums) :
    (∀ bracket ∈ passed f tol budget start, bracket.Within a b) ∧
      (passed f tol budget start).IsChain Encloses := by
  induction budget generalizing start with
  | zero => exact ⟨List.forall_mem_singleton.mpr within, .singleton _⟩
  | succ budget ih =>
    have sum := sums start (mem_passed _ _)
    rw [passed] at sums ⊢
    cases e : f start.midpoint with
    | error error => exact ⟨List.forall_mem_singleton.mpr within, .singleton _⟩
    | ok value =>
      rw [e] at sums
      dsimp only at sums ⊢
      split at sums
      case isTrue close =>
        rw [if_pos close]
        exact ⟨List.forall_mem_singleton.mpr within, .singleton _⟩
      case isFalse far =>
        rw [if_neg far]
        have half := Bracket.half_within within sum value
        obtain ⟨later, nested⟩ := ih (within.trans ha hb half) (List.forall_mem_cons.mp sums).2
        refine ⟨List.forall_mem_cons.mpr ⟨within, later⟩, List.isChain_cons.mpr ⟨?_, nested⟩⟩
        intro next mem
        rw [head?_passed] at mem
        cases mem
        exact ⟨half.left.low, half.right.high⟩

/-- Within half the range no sum of ends overflows. -/
lemma sums_of_halfRange {start : Bracket Float} (ha : Inside (-halfRange) halfRange a)
    (hb : Inside (-halfRange) halfRange b) (within : start.Within a b) :
    ∀ bracket ∈ passed f tol budget start, bracket.Sums := by
  induction budget generalizing start with
  | zero => exact List.forall_mem_singleton.mpr (within.sums ha hb)
  | succ budget ih =>
    have sums := within.sums ha hb
    rw [passed]
    refine List.forall_mem_cons.mpr ⟨sums, ?_⟩
    cases f start.midpoint with
    | error error => exact nofun
    | ok value =>
      dsimp only
      split
      case isTrue => exact nofun
      case isFalse => exact ih (within.trans ha.finite hb.finite (Bracket.half_within within sums value))

/-- A run whose steps lie in an interval, each in the one before. -/
structure Run.Stays (f : Float → Except ε Float) (a b : Float) (run : Run ε Float) : Prop where
  inside : ∀ step ∈ run.steps, Inside a b step.a ∧ Inside a b step.b ∧ Inside a b step.midpoint
  nested : run.steps.IsChain fun outer inner => outer.a ≤ inner.a ∧ inner.b ≤ outer.b
  ends : EndsAt f (Inside a b) run.ending

/-- Halving stays in its interval if no sum of ends overflows. -/
lemma halve_stays {start : Bracket Float} (ha : a.isFinite = true) (hb : b.isFinite = true)
    (within : start.Within a b) (sums : ∀ bracket ∈ passed f tol budget start, bracket.Sums)
    (first : Nat) : (halve f tol first budget start).Stays f a b := by
  obtain ⟨all, nested⟩ := passed_within ha hb within sums
  obtain ⟨recorded, midpoints, ends⟩ := halve_passed f tol first budget start
  have middle {bracket : Bracket Float} (mem : bracket ∈ passed f tol budget start) :
      Inside a b bracket.midpoint :=
    .between ha hb (all bracket mem).left (all bracket mem).right
      (Bracket.midpoint_inside (all bracket mem) (sums bracket mem))
  constructor
  · intro step hs
    have mem := recorded.subset (List.mem_map_of_mem hs)
    rw [midpoints step hs]
    exact ⟨(all _ mem).left, (all _ mem).right, middle mem⟩
  · exact (List.isChain_map _).mp <| nested.prefix recorded
  · apply ends.mono
    rintro x ⟨bracket, mem, rfl⟩
    exact middle mem

variable (ha : a.isFinite = true) (hb : b.isFinite = true) (le : a ≤ b)
include ha hb le

/-- If no sum of ends overflows, a bisection stays in its interval, and asks for no value outside. -/
lemma run_stays (sums : ∀ bracket ∈ searched f a b tol budget, bracket.Sums)
    (same : ∀ x, Inside a b x → g x = f x) :
    (run f a b tol budget).Stays f a b ∧ run g a b tol budget = run f a b tol budget := by
  obtain ⟨insideA, insideB⟩ := inside_ends ha hb le
  rcases run_cases (same a insideA) (same b insideB) tol budget with
    ⟨ending, ends, -, stops, stops'⟩ | ⟨start, rfl, rfl, passes, halves, halves'⟩
  · rw [stops, stops']
    refine ⟨⟨nofun, .nil, ends.mono ?_⟩, rfl⟩
    rintro x (rfl | rfl)
    · exact insideA
    · exact insideB
  · rw [passes] at sums
    rw [halves, halves']
    have within : start.Within start.a start.b := ⟨insideA, insideB, le⟩
    obtain ⟨all, -⟩ := passed_within ha hb within sums
    refine ⟨halve_stays ha hb within sums 1, halve_congr fun bracket mem => same _ ?_⟩
    exact .between ha hb (all bracket mem).left (all bracket mem).right
      (Bracket.midpoint_inside (all bracket mem) (sums bracket mem))

end Confinement

end Bisection

/-- For input that passes the checks, a search is the run. -/
lemma bisect_eq (f : ScalarFunction) {a b tol : Float} (budget : Nat) (ha : a.isFinite = true)
    (hb : b.isFinite = true) (lt : a < b) (ht : 0.0 ≤ tol) :
    (bisect f a b tol budget).run.result =
      (Bisection.run f.value a b tol budget).result.mapError .eval := by
  have interval : checkInterval a b = .ok () := if_pos ⟨ha, hb, lt⟩
  rw [bisect_eq_conclude, Bisection.start, Bisection.checkInput, interval, checkTolerance_eq_ok ht]
  rfl

namespace Bisection

/-- A search that is confined to its interval: what it records lies in the interval, each bracket in the
one before, and the root lies there too. Values outside do not matter to it, so if the function has
values inside, the search does not fail for want of one. -/
structure Confined (f : ScalarFunction) (a b tol : Float) (budget : Nat) : Prop where
  records : ∀ result, (bisect f a b tol budget).run.result = .ok result →
    ∃ steps : List (Halving Float), result.trace = steps.map .halving ∧
      (∀ step ∈ steps, Inside a b step.a ∧ Inside a b step.b ∧ Inside a b step.midpoint) ∧
      steps.IsChain fun outer inner => outer.a ≤ inner.a ∧ inner.b ≤ outer.b
  root : ∀ result, (bisect f a b tol budget).run.result = .ok result →
    ∀ root ∈ result.root, Inside a b root
  asks : ∀ g : ScalarFunction, (∀ x, Inside a b x → g.value x = f.value x) →
    (bisect g a b tol budget).run.result = (bisect f a b tol budget).run.result
  answers : (∀ x, Inside a b x → ∃ value, f.value x = .ok value) →
    ∀ error, (bisect f a b tol budget).run.result ≠ .error (.eval error)

variable {f : ScalarFunction} {a b tol : Float} {budget : Nat}

/-- What a run that stays in its interval results in. -/
lemma Run.Stays.result {ε : Type} {f : Float → Except ε Float} {run : Run ε Float}
    (stays : run.Stays f a b) :
    (∀ result, run.result = .ok result → result.trace = run.steps.map .halving ∧
      ∀ root ∈ result.root, Inside a b root) ∧
    ∀ error, run.result = .error error → ∃ x, Inside a b x ∧ f x = .error error := by
  obtain ⟨steps, ending⟩ := run
  obtain ⟨-, -, ends⟩ := stays
  cases ends with
  | endpoint inside =>
    refine ⟨?_, nofun⟩
    rintro result ⟨⟩
    refine ⟨rfl, ?_⟩
    rintro root ⟨⟩
    exact inside
  | sameSign =>
    refine ⟨?_, nofun⟩
    rintro result ⟨⟩
    exact ⟨rfl, nofun⟩
  | found inside =>
    refine ⟨?_, nofun⟩
    rintro result ⟨⟩
    refine ⟨rfl, ?_⟩
    rintro root ⟨⟩
    exact inside
  | exhausted inside =>
    refine ⟨?_, nofun⟩
    rintro result ⟨⟩
    refine ⟨rfl, ?_⟩
    rintro root ⟨⟩
    exact inside
  | failed inside e =>
    refine ⟨nofun, ?_⟩
    rintro error ⟨⟩
    exact ⟨_, inside, e⟩

variable (ha : a.isFinite = true) (hb : b.isFinite = true) (lt : a < b) (ht : 0.0 ≤ tol)
include ha hb lt ht

/-- A bisection is confined to its interval if no sum of ends overflows. -/
lemma confined_of_sums (sums : ∀ bracket ∈ searched f.value a b tol budget, bracket.Sums) :
    Confined f a b tol budget := by
  have le := (le_iff_value ha hb).mpr ((lt_iff_value ha hb).mp lt).le
  have stays := (run_stays ha hb le sums fun _ _ => rfl).1
  obtain ⟨recorded, failed⟩ := stays.result
  constructor
  · intro result h
    rw [bisect_eq f budget ha hb lt ht, mapError_eq_ok_iff] at h
    exact ⟨_, (recorded result h).1, stays.inside, stays.nested⟩
  · intro result h
    rw [bisect_eq f budget ha hb lt ht, mapError_eq_ok_iff] at h
    exact (recorded result h).2
  · intro g same
    rw [bisect_eq g budget ha hb lt ht, bisect_eq f budget ha hb lt ht,
      (run_stays ha hb le sums same).2]
  · intro total error h
    rw [bisect_eq f budget ha hb lt ht, mapError_eq_error_iff] at h
    obtain ⟨cause, h, -⟩ := h
    obtain ⟨x, inside, e⟩ := failed cause h
    obtain ⟨value, e'⟩ := total x inside
    rw [e] at e'
    cases e'

/-- The midpoint of a bracket whose ends have no sum is outside the interval, and the search depends on
the value there or ends there. -/
lemma sums_of_confined (confined : Confined f a b tol budget) :
    ∀ bracket ∈ searched f.value a b tol budget, bracket.Sums := by
  intro bracket mem
  by_contra overflows
  have outside : bracket.midpoint.isFinite ≠ true := fun finite => overflows (isFinite_of_half finite)
  -- Without a value at that midpoint the search would fail with whatever error there is.
  have fails (error : Formula.EvalError) :
      (bisect f a b tol budget).run.result = .error (.eval error) := by
    let g : ScalarFunction :=
      { value := fun x => if x = bracket.midpoint then .error error else f.value x }
    have missing : g.value bracket.midpoint = .error error := if_pos rfl
    have same (x : Float) (ne : x ≠ bracket.midpoint) : g.value x = f.value x := if_neg ne
    have inside_ne {x : Float} (finite : x.isFinite = true) : x ≠ bracket.midpoint := by
      rintro rfl
      exact outside finite
    rw [← confined.asks g fun x inside => same x (inside_ne inside.finite),
      bisect_eq g budget ha hb lt ht]
    rcases run_cases (same a (inside_ne ha)) (same b (inside_ne hb)) tol budget with
      ⟨_, -, none, -, -⟩ | ⟨start, -, -, passes, halves, halves'⟩
    · rw [none] at mem
      cases mem
    · rw [passes] at mem
      rcases halve_asks 1 mem missing same with failed | exhausted
      · rw [halves', Run.result, failed]
        rfl
      · obtain ⟨result, h, root⟩ : ∃ result, (bisect f a b tol budget).run.result = .ok result ∧
            result.root = some bracket.midpoint := by
          rw [bisect_eq f budget ha hb lt ht, halves, Run.result, exhausted]
          exact ⟨_, rfl, rfl⟩
        exact absurd (confined.root result h _ root).finite outside
  have clash := (fails .divisionByZero).symm.trans (fails (.nonFinite 0.0))
  cases clash

end Bisection

/-- A bisection of a finite interval with a tolerance that is not negative is confined to the interval
exactly if no sum of ends overflows among the brackets that it goes through. In an interval with both
ends within half the range of doubles, none does. -/
theorem bisect_confined_iff {f : ScalarFunction} {a b tol : Float} {budget : Nat}
    (ha : a.isFinite = true) (hb : b.isFinite = true) (lt : a < b) (ht : 0.0 ≤ tol) :
    (Bisection.Confined f a b tol budget ↔
      ∀ bracket ∈ Bisection.searched f.value a b tol budget, bracket.Sums) ∧
    (-halfRange ≤ a → b ≤ halfRange → Bisection.Confined f a b tol budget) := by
  refine ⟨⟨Bisection.sums_of_confined ha hb lt ht, Bisection.confined_of_sums ha hb lt ht⟩, ?_⟩
  intro low high
  obtain ⟨finite, finite'⟩ := isFinite_halfRange
  have le := (le_iff_value ha hb).mpr ((lt_iff_value ha hb).mp lt).le
  have insideA : Inside (-halfRange) halfRange a := ⟨ha, low, le_trans_of_finite ha hb finite le high⟩
  have insideB : Inside (-halfRange) halfRange b := ⟨hb, le_trans_of_finite finite' ha hb low le, high⟩
  apply Bisection.confined_of_sums ha hb lt ht
  rcases Bisection.run_cases (f := f.value) (a := a) (b := b) rfl rfl tol budget with
    ⟨_, -, none, -, -⟩ | ⟨start, rfl, rfl, passes, -, -⟩
  · rw [none]
    exact nofun
  · obtain ⟨left, right⟩ := inside_ends ha hb le
    rw [passes]
    exact Bisection.sums_of_halfRange insideA insideB ⟨left, right, le⟩

/-- The bisection of the jump is confined to its interval. -/
theorem bisect_jump_confined :
    (0.0 : Float).isFinite = true ∧ (1.0 : Float).isFinite = true ∧ (0.0 : Float) < 1.0 ∧
      (0.0 : Float) ≤ 0.1 ∧ Bisection.Confined jump 0.0 1.0 0.1 10 ∧
      ∀ bracket ∈ Bisection.searched jump.value 0.0 1.0 0.1 10, bracket.Sums := by
  have ha : (0.0 : Float).isFinite = true := by decide +kernel
  have hb : (1.0 : Float).isFinite = true := by decide +kernel
  have lt : (0.0 : Float) < 1.0 := by decide +kernel
  have ht : (0.0 : Float) ≤ 0.1 := by decide +kernel
  obtain ⟨exactly, within⟩ := @bisect_confined_iff jump 0.0 1.0 0.1 10 ha hb lt ht
  have confined := within (by decide +kernel) (by decide +kernel)
  exact ⟨ha, hb, lt, ht, confined, exactly.mp confined⟩

/-- A function that jumps far out, with values at finite points only. -/
def farJump : ScalarFunction where
  name := "far jump"
  value x := if x.isFinite then .ok (if x < 1.2e308 then -1.0 else 1.0) else .error (.nonFinite x)

/-- The bisection of the far jump leaves its interval. Without an iteration its root is infinite, and in
its first iteration it fails, although the function has values in all of the interval. -/
theorem bisect_farJump_escapes :
    ((1e308 : Float).isFinite = true ∧ (1.7e308 : Float).isFinite = true ∧ (1e308 : Float) < 1.7e308 ∧
      (0.0 : Float) ≤ 0.0) ∧
    (∀ x, Inside 1e308 1.7e308 x → ∃ value, farJump.value x = .ok value) ∧
    (bisect farJump 1e308 1.7e308 0.0 0).run.result.toOption.map (·.root) = some (some (1.0 / 0.0)) ∧
    (bisect farJump 1e308 1.7e308 0.0 1).run.result = .error (.eval (.nonFinite (1.0 / 0.0))) := by
  refine ⟨by decide +kernel, ?_, by decide +kernel, by decide +kernel⟩
  intro x inside
  rw [farJump]
  exact ⟨_, if_pos inside.finite⟩

end Stepwise.Root
