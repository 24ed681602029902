import MediaBridge.Proofs.Rating.RoundTrip

/-!
# Ranges of ratings

The documented range of each style, and what the constructors and factories of both schemas make of
a number. The checks are negated comparisons, so that they let a not-a-number through
(`RatingStyle.range_iff`). One constructor compares integers as they are, and everything else
converts them first, which fails beyond the range of double-precision numbers. Main statement:
`Number.rating_outcomes`.
-/

namespace MediaBridge

/-! ## Ranges -/

/-- The values of rated ratings of a style. -/
def RatingStyle.Range (s : RatingStyle) (a : Number) : Prop :=
  match s with
  | .none => False
  | .heart | .thumbUpDown => a.equals 0 ∨ a.equals 1
  | .threeStars | .fourStars | .fiveStars => a.AtLeast 0 ∧ a.AtMost s.starCount
  | .percentage => a.AtLeast 0 ∧ a.AtMost 100

/-- The values of rated legacy ratings whose style has a number. -/
def Whole.Range (n : Whole) (a : Number) : Prop :=
  match n.style? with
  | some .none | none => a.AtLeast 0
  | some s => s.toStyle.Range a

/-- Whether a rating is unrated or has a value in the range of its style. -/
def Rating.InRange (r : Rating) : Prop := ∀ a ∈ r.value, r.style.Range a

/-- Whether a legacy rating has the value for "not rated", and is not rated for that reason only,
or a value in the range of its style. -/
structure LegacyRating.InRange (l : LegacyRating) : Prop where
  value : l.value = notRated ∨ l.style.Range (.real l.value)
  unrated_iff : l.isRated = false ↔ l.value = notRated

theorem Number.isNan_of_isZeroOrOne {a : Number} (h : a.isZeroOrOne) : a.isNan = false := by
  rw [Bool.eq_false_iff, ne_eq, ← position?_eq_none_iff]
  intro hp
  rcases isZeroOrOne_iff.1 h with h | h <;> cases hp.symm.trans h

/-- The range of a style is what it accepts, not-a-numbers apart. -/
theorem RatingStyle.range_iff {s : RatingStyle} {a : Number} :
    s.Range a ↔ a.isNan = false ∧ s.Accepts a := by
  cases s with
  | none => simp only [Range, Accepts, and_false]
  | heart | thumbUpDown =>
    simp only [Range, Accepts, ← Bool.or_eq_true]
    exact ⟨fun h => ⟨Number.isNan_of_isZeroOrOne h, h⟩, And.right⟩
  | threeStars | fourStars | fiveStars | percentage =>
    simp only [Range, Accepts, Number.atLeast_iff, Number.atMost_iff, Number.isOutside,
      Bool.or_eq_false_iff]
    exact ⟨fun h => ⟨h.1.1, h.1.2, h.2.2⟩, fun h => ⟨⟨h.1, h.2.1⟩, h.1, h.2.2⟩⟩

theorem LegacyRating.inRange_notRated (n : Whole) : (⟨n, notRated⟩ : LegacyRating).InRange :=
  ⟨.inl rfl, iff_of_true isRated_notRated rfl⟩

/-! ## Conversion of numbers -/

theorem Value.toDouble_of_number? {v : Value} {a : Number} (hv : v.number? = some a) :
    v.toDouble = a.toDouble?.elim (.error .outOfRange) .ok := by
  unfold toDouble
  split
  · cases hv
  · cases hx : a.toDouble? with
    | none => simp only [hv, hx, Option.elim_none]
    | some x => simp only [hv, hx, Option.elim_some]

theorem Value.isBelow_of_number? {v : Value} {a : Number} (hv : v.number? = some a) (n : Int) :
    v.isBelow n = .ok (a.below n) := by
  rw [isBelow, hv]

theorem Double.isNan_of_finite? {x y : Double} (h : x.finite? = some y) :
    (Number.real y).isNan = false := by
  cases x with
  | finite negative units =>
    cases h
    rfl
  | nan payload | infinite negative => cases h

theorem Number.isNan_of_toDouble? {a : Number} {x : Double} (h : a.toDouble? = some x) :
    (Number.real x).isNan = a.isNan := by
  cases a with
  | real y => rw [Option.some.inj h]
  | whole n =>
    rw [toDouble?, Double.ofInt?] at h
    exact Double.isNan_of_finite? h

/-! ## Outcomes -/

/-- What an operation makes of a number: a rating, which is in range unless the number is a
not-a-number, an overflow in the given case, or a refusal. -/
structure Number.Outcome {α : Type} (a : Number) (InRange : α → Prop) (Overflows : Prop)
    (result : Except Fault α) : Prop where
  inRange_iff : ∀ r, result = .ok r → (InRange r ↔ a.isNan = false)
  overflow_iff : result = .error .outOfRange ↔ Overflows
  error : ∀ f, result = .error f → f = .outOfRange ∨ ∃ cause, f = .invalid cause

namespace Number.Outcome

variable {α : Type} {a : Number} {InRange : α → Prop} {Overflows : Prop} {result : Except Fault α}

theorem ok {r : α} (h : InRange r ↔ a.isNan = false) : Outcome a InRange False (.ok r) where
  inRange_iff := by
    rintro _ ⟨⟩
    exact h
  overflow_iff := ⟨nofun, False.elim⟩
  error := nofun

theorem invalid (cause : Invalid) (h : ¬ Overflows) :
    Outcome a InRange Overflows (.error (.invalid cause)) where
  inRange_iff := nofun
  overflow_iff := iff_of_false nofun h
  error := by
    rintro _ ⟨⟩
    exact .inr ⟨cause, rfl⟩

theorem refuse (cause : Invalid) (h : ¬ Overflows) :
    Outcome a InRange Overflows (refuse cause) :=
  invalid cause.reported h

/-- A check that comes first keeps an overflow from happening. -/
theorem check {b : Bool} (cause : Invalid) (h : Outcome a InRange Overflows result) :
    Outcome a InRange (b = false ∧ Overflows) (if b then MediaBridge.refuse cause else result) := by
  cases b with
  | false => simpa using h
  | true => exact refuse cause nofun

/-- A conversion that comes first is the only step that overflows. -/
theorem convert {v : Value} {f : Double → Except Fault α} (hv : v.number? = some a)
    (h : ∀ x, (Number.real x).isNan = a.isNan → Outcome a InRange False (f x)) :
    Outcome a InRange (a.toDouble? = none) (v.toDouble >>= f) := by
  rw [Value.toDouble_of_number? hv]
  cases hx : a.toDouble? with
  | some x =>
    obtain ⟨hrange, hoverflow, herror⟩ := h x (isNan_of_toDouble? hx)
    exact ⟨hrange, iff_of_false hoverflow.1 (Option.some_ne_none x), herror⟩
  | none =>
    refine ⟨nofun, iff_of_true rfl rfl, ?_⟩
    rintro _ ⟨⟩
    exact .inl rfl

end Number.Outcome

/-! ## The new schema -/

namespace Rating

variable {s : RatingStyle} {a b : Number}

theorem invalid_of_rated {f : Fault} (h : rated s a = .error f) : ∃ cause, f = .invalid cause := by
  unfold rated at h
  split at h
  · exact ⟨_, (Except.error.inj h).symm⟩
  all_goals
    split at h
    all_goals cases h
    exact ⟨_, rfl⟩

theorem outcome_rated (hb : b.isNan = a.isNan) : a.Outcome InRange False (rated s b) := by
  cases h : rated s b with
  | ok r =>
    obtain ⟨hb', rfl⟩ := rated_eq_ok_iff.1 h
    refine .ok ?_
    simp only [InRange, Option.mem_some_iff, forall_eq', RatingStyle.range_iff, hb', and_true, hb]
  | error f =>
    obtain ⟨cause, rfl⟩ := invalid_of_rated h
    exact .invalid cause id

theorem outcome_ofValues {v : Value} (hv : v.number? = some a) :
    a.Outcome InRange False (ofValues (.text (.term (.style s))) v) := by
  cases v with
  | whole n =>
    cases hv
    exact outcome_rated rfl
  | real x =>
    cases hv
    exact outcome_rated rfl
  | bool b =>
    unfold ofValues
    dsimp only
    split <;> exact .refuse _ id
  | _ => cases hv

theorem outcome_star {v : Value} (hv : v.number? = some a) :
    a.Outcome InRange (s.countsStars ∧ a.toDouble? = none)
      (star (.text (.term (.style s))) v) := by
  rw [star, styleOf_style, ok_bind]
  split
  · next hs => simpa [hs] using Number.Outcome.convert hv fun x hx => outcome_rated hx
  · next hs => exact .refuse _ fun h => hs h.1

theorem outcome_percentage {v : Value} (hv : v.number? = some a) :
    a.Outcome InRange (a.toDouble? = none) (percentage v) :=
  .convert hv fun _ hx => outcome_rated hx

end Rating

/-! ## The legacy schema -/

namespace LegacyRating

variable {n : Whole} {a : Number} {x : Double} {l : LegacyRating}

theorem invalid_of_ofDouble {f : Fault} (h : ofDouble n x = .error f) :
    ∃ cause, f = .invalid cause := by
  unfold ofDouble at h
  dsimp only at h
  split at h
  · cases h
  repeat' split at h
  all_goals
    cases h
    try exact ⟨_, rfl⟩

/-- A value that is not negative is kept if it is in range or a not-a-number. -/
theorem range_of_ofDouble (h0 : (Number.real x).below 0 = false) (h : ofDouble n x = .ok l) :
    l = ⟨n, x⟩ ∧ ((Number.real x).isNan = false → n.Range (.real x)) := by
  simp only [ofDouble, h0, starCount?, Bool.false_eq_true, if_false] at h
  unfold Whole.Range
  cases hn : n.style? with
  | none =>
    rw [hn] at h
    exact ⟨(Except.ok.inj h).symm, fun hnan => Number.atLeast_iff.2 ⟨hnan, h0⟩⟩
  | some t =>
    rw [hn] at h
    cases t with
    | none => exact ⟨(Except.ok.inj h).symm, fun hnan => Number.atLeast_iff.2 ⟨hnan, h0⟩⟩
    | heart | thumbUpDown =>
      dsimp only at h
      split at h
      · next hx =>
        exact ⟨(Except.ok.inj h).symm, fun hnan => RatingStyle.range_iff.2 ⟨hnan, hx⟩⟩
      · cases h
    | threeStars | fourStars | fiveStars | percentage =>
      change (if _ then _ else _) = _ at h
      split at h
      · cases h
      · next hx =>
        have hrange := Bool.or_eq_false_iff.2 ⟨h0, Bool.eq_false_iff.2 hx⟩
        exact ⟨(Except.ok.inj h).symm, fun hnan => RatingStyle.range_iff.2 ⟨hnan, hrange⟩⟩

theorem inRange_ofDouble (h : ofDouble n x = .ok l) :
    l.InRange ↔ (Number.real x).isNan = false := by
  cases h0 : (Number.real x).below 0 with
  | true =>
    have hnan := (Number.atMost_iff.1 (.inl h0)).1
    simp only [ofDouble, h0, if_true] at h
    rw [← Except.ok.inj h]
    exact iff_of_true (inRange_notRated n) hnan
  | false =>
    obtain ⟨rfl, hrange⟩ := range_of_ofDouble h0 h
    constructor
    · intro hin
      rw [Bool.eq_false_iff]
      intro hnan
      have hx : x = notRated := hin.unrated_iff.1 (isRated_eq_false_of_isNan hnan)
      rw [hx] at hnan
      cases hnan
    · intro hnan
      have hrated : (⟨n, x⟩ : LegacyRating).isRated :=
        isRated_iff.2 (Number.atLeast_iff.2 ⟨hnan, h0⟩)
      refine ⟨.inr (hrange hnan), iff_of_false (by simp [hrated]) fun hx => ?_⟩
      rw [show x = notRated from hx, isRated_notRated] at hrated
      cases hrated

theorem outcome_ofDouble (hx : (Number.real x).isNan = a.isNan) :
    a.Outcome InRange False (ofDouble n x) := by
  cases h : ofDouble n x with
  | ok l => exact .ok (hx ▸ inRange_ofDouble h)
  | error f =>
    obtain ⟨cause, rfl⟩ := invalid_of_ofDouble h
    exact .invalid cause id

theorem outcome_ofValues {style v : Value} (hstyle : style.number? = some (.whole n))
    (hv : v.number? = some a) :
    a.Outcome InRange (style = .whole n ∧ a.toDouble? = none) (ofValues style v) := by
  cases style with
  | whole m =>
    cases hstyle
    rw [eq_self, true_and]
    cases v with
    | whole _ | real _ => exact .convert hv fun _ hx => outcome_ofDouble hx
    | bool b =>
      refine .refuse _ fun h => ?_
      rw [← Option.some.inj hv] at h
      cases b <;> exact absurd h (by decide +kernel)
    | _ => cases hv
  | bool b => exact .refuse _ nofun
  | _ => cases hstyle

theorem outcome_star {style v : Value} (hstyle : style.number? = some (.whole n))
    (hv : v.number? = some a) :
    a.Outcome InRange
      ((n.style?.bind LegacyStyle.starCount?).isSome ∧ a.below 0 = false ∧ a.toDouble? = none)
      (star style v) := by
  obtain ⟨hkey, hfind⟩ := styleOf?_of_number? hstyle
  rw [star, hkey, hfind]
  cases n.style? with
  | none => exact .refuse _ fun h => Bool.false_ne_true h.1
  | some t =>
    simp only [Option.filter_some, Option.bind_some, Bool.not_true, Bool.false_eq_true, if_false,
      Value.isBelow_of_number? hv]
    cases t.starCount?.isSome with
    | false => exact .refuse _ fun h => Bool.false_ne_true h.1
    | true =>
      simp only [if_true, true_and]
      exact .check _ (.convert hv fun _ hx => outcome_ofDouble hx)

theorem outcome_percentage {v : Value} (hv : v.number? = some a) :
    a.Outcome InRange (a.below 0 = false ∧ a.toDouble? = none) (percentage v) := by
  rw [percentage, Value.isBelow_of_number? hv, ok_bind]
  exact .check _ (.convert hv fun _ hx => outcome_ofDouble hx)

end LegacyRating

/-! ## All constructors and factories -/

/-- What the constructors and factories of both schemas make of a number `v` and the number `style`
of a legacy style. -/
theorem Number.rating_outcomes (s : RatingStyle) {style v : Value} {n : Whole} {a : Number}
    (hstyle : style.number? = some (.whole n)) (hv : v.number? = some a) :
    a.Outcome Rating.InRange False (Rating.ofValues (.text (.term (.style s))) v) ∧
    a.Outcome Rating.InRange (s.countsStars ∧ a.toDouble? = none)
      (Rating.star (.text (.term (.style s))) v) ∧
    a.Outcome Rating.InRange (a.toDouble? = none) (Rating.percentage v) ∧
    a.Outcome LegacyRating.InRange (style = .whole n ∧ a.toDouble? = none)
      (LegacyRating.ofValues style v) ∧
    a.Outcome LegacyRating.InRange
      ((n.style?.bind LegacyStyle.starCount?).isSome ∧ a.below 0 = false ∧ a.toDouble? = none)
      (LegacyRating.star style v) ∧
    a.Outcome LegacyRating.InRange (a.below 0 = false ∧ a.toDouble? = none)
      (LegacyRating.percentage v) :=
  ⟨Rating.outcome_ofValues hv, Rating.outcome_star hv, Rating.outcome_percentage hv,
    LegacyRating.outcome_ofValues hstyle hv, LegacyRating.outcome_star hstyle hv,
    LegacyRating.outcome_percentage hv⟩

theorem Number.rating_outcomes_one_of_three :
    (Value.ofInt 6).number? = some (.ofInt 6) ∧
      (Value.real .one).number? = some (.real .one) ∧
      Rating.star (.text (.term (.style .threeStars))) (.real .one) =
        .ok ⟨.threeStars, some (.real .one)⟩ ∧
      Rating.InRange ⟨.threeStars, some (.real .one)⟩ := by
  have hone : (Number.real .one).isOutside 3 = false := by decide +kernel
  have hstar : Rating.star (.text (.term (.style .threeStars))) (.real .one) =
      .ok ⟨.threeStars, some (.real .one)⟩ := Rating.star_of_accepts rfl hone
  have houtcomes := @rating_outcomes .threeStars (.ofInt 6) (.real .one) _ _ rfl rfl
  exact ⟨rfl, rfl, hstar, (houtcomes.2.1.inRange_iff _ hstar).2 rfl⟩

/-- A not-a-number is let through by both schemas, and an integer beyond the range of
double-precision numbers is not refused like others. -/
theorem Number.rating_outcomes_out_of_range :
    (∃ r, Rating.ofValues (.text (.term (.style .percentage))) (.real (.nan 0)) = .ok r ∧
      ¬ r.InRange) ∧
    (∃ l, LegacyRating.ofValues (.ofInt 6) (.real (.nan 0)) = .ok l ∧
      l.isRated = false ∧ l.value ≠ notRated) ∧
    Rating.star (.text (.term (.style .threeStars))) (.ofInt (twoPow 1024)) =
      .error .outOfRange := by
  refine ⟨⟨⟨.percentage, some (.real (.nan 0))⟩, rfl, ?_⟩,
    ⟨⟨.plain 6, .nan 0⟩, rfl, rfl, nofun⟩, ?_⟩
  · intro h
    cases (RatingStyle.range_iff.1 (h _ rfl)).1
  · exact (Rating.outcome_star rfl).overflow_iff.2 ⟨rfl, by decide +kernel⟩

end MediaBridge
