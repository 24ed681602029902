import MediaBridge.Conversion.Rating
import MediaBridge.Proofs.Rating.Constructible

/-!
# Ratings through the legacy schema

A constructible rating becomes a legacy rating of the same style and the same place on the number
line, and that becomes an equal rating again, unless the value is a not-a-number: that one is rated
in the new schema but not in the legacy one. Main statements: `toLegacy_of_accepts`,
`toRating_of_accepts` and `toLegacy_toRating_iff`.
-/

namespace MediaBridge

/-! ## Styles as numbers -/

@[simp] theorem Whole.style?_style (s : LegacyStyle) : (Whole.style s).style? = some s :=
  LegacyStyle.ofNumber?_number s

@[simp] theorem Whole.style?_plain_number (s : LegacyStyle) :
    (Whole.plain s.number).style? = some s :=
  LegacyStyle.ofNumber?_number s

theorem Whole.toInt_of_style? {n : Whole} {s : LegacyStyle} (h : n.style? = some s) :
    n.toInt = s.number :=
  (LegacyStyle.number_of_ofNumber? h).symm

/-! ## Stored values -/

namespace RatingStyle

variable {s : RatingStyle} {a : Number}

/-- The value that a conversion stores for a number that the style accepts. Of a heart and a thumb
it stores only whether the number is one. -/
def stored (s : RatingStyle) (a : Number) : Double :=
  match s with
  | .heart | .thumbUpDown => (Value.bool (a.equals 1)).flag
  | _ => a.toDouble

/-- Conversions do not move a value. -/
theorem Accepts.position?_stored (h : s.Accepts a) :
    (Number.real (s.stored a)).position? = a.position? := by
  cases s with
  | none => exact h.elim
  | heart | thumbUpDown => exact Number.position?_flag h
  | threeStars | fourStars | fiveStars | percentage => exact Number.position?_toDouble (by decide) h

theorem Accepts.stored (h : s.Accepts a) : s.Accepts (.real (s.stored a)) :=
  h.congr h.position?_stored.symm

/-- A stored value is stored as it is. -/
theorem stored_stored (s : RatingStyle) (a : Number) :
    s.stored (.real (s.stored a)) = s.stored a := by
  cases s with
  | heart | thumbUpDown =>
    have hflag := Number.equals_one_flag (.bool (a.equals 1))
    exact congrArg (fun b => (Value.bool b).flag) hflag
  | none | threeStars | fourStars | fiveStars | percentage => rfl

end RatingStyle

/-! ## Checks of the legacy schema -/

namespace LegacyRating

variable {s : RatingStyle} {a : Number} {l : LegacyRating} {x : Double}

theorem styleOf?_of_number? {v : Value} {n : Whole} (h : v.number? = some (.whole n)) :
    v.canBeKey ∧ styleOf? v = n.style? := by
  have hcode : v.code? = some (.ofInt n.toInt) := by
    cases v with
    | bool b | whole m =>
      cases h
      rfl
    | _ => cases h
  simp only [Value.canBeKey, styleOf?, hcode, Option.isSome_some, Whole.style?,
    LegacyStyle.ofNumber?, Option.some.injEq, KeyCode.ofInt, KeyCode.number.injEq,
    Position.ofInt_inj, eq_comm, true_and]

/-- A legacy style accepts what the style of the new schema does. -/
theorem ofDouble_of_accepts {n : Whole} (hn : n.style? = some s.toLegacy)
    (hx : s.Accepts (.real x)) : ofDouble n x = .ok ⟨n, x⟩ := by
  have hbelow := hx.not_below
  cases s with
  | none => exact hx.elim
  | heart | thumbUpDown =>
    have hzero : (Number.real x).isZeroOrOne = true := hx
    simp [ofDouble, hbelow, hn, RatingStyle.toLegacy, hzero]
  | threeStars | fourStars | fiveStars | percentage =>
    have habove := (Bool.or_eq_false_iff.1 hx).2
    simp_all [ofDouble, RatingStyle.toLegacy, starCount?, LegacyStyle.starCount?,
      LegacyStyle.toStyle, RatingStyle.starCount?, RatingStyle.starCount]

theorem star_of_accepts (hs : s.countsStars) (hx : s.Accepts (.real x)) :
    star (.whole (.style s.toLegacy)) (.real x) = .ok ⟨.plain s.toLegacy.number, x⟩ := by
  obtain ⟨hkey, hstyle⟩ := styleOf?_of_number? (v := .whole (.style s.toLegacy)) rfl
  have hcount : s.toLegacy.starCount?.isSome = true := by
    rw [LegacyStyle.starCount?, RatingStyle.toStyle_toLegacy]
    exact hs
  simp only [star, hkey, hstyle, Whole.style?_style, Option.filter_some, hcount,
    Value.isBelow, Value.number?, hx.not_below]
  exact ofDouble_of_accepts (Whole.style?_plain_number _) hx

theorem percentage_of_accepts (hx : RatingStyle.percentage.Accepts (.real x)) :
    percentage (.real x) = .ok ⟨.style .percentage, x⟩ := by
  simp only [percentage, Value.isBelow, Value.number?, hx.not_below]
  exact ofDouble_of_accepts (Whole.style?_style _) hx

end LegacyRating

namespace Rating

variable {s : RatingStyle} {a : Number}

/-! ## To the legacy schema -/

theorem toLegacy_unrated (s : RatingStyle) :
    (⟨s, none⟩ : Rating).toLegacy = ⟨[], .ok (some ⟨.plain s.toLegacy.number, notRated⟩)⟩ := rfl

theorem toLegacy_stars (hs : s.countsStars) :
    (⟨s, some a⟩ : Rating).toLegacy = (do
      return some (← LegacyRating.star (.whole (.style s.toLegacy)) (.real a.toDouble))) := by
  have hvalue : (⟨s, some a⟩ : Rating).stars = a.toDouble := by
    rw [stars, if_pos hs]
    rfl
  cases s with
  | threeStars | fourStars | fiveStars =>
    simp only [toLegacy, isRated, Option.isSome_some, Bool.not_true, Bool.false_eq_true, if_false,
      hvalue]
  | none | heart | thumbUpDown | percentage => cases hs

/-- The legacy rating of a rated one has its style and its value as it is stored. -/
theorem toLegacy_rated (h : s.Accepts a) :
    ∃ n : Whole, n.style? = some s.toLegacy ∧
      (⟨s, some a⟩ : Rating).toLegacy = ⟨[], .ok (some ⟨n, s.stored a⟩)⟩ := by
  cases s with
  | none => exact h.elim
  | heart => exact ⟨_, Whole.style?_style _, rfl⟩
  | thumbUpDown => exact ⟨_, Whole.style?_style _, rfl⟩
  | threeStars | fourStars | fiveStars =>
    refine ⟨_, Whole.style?_plain_number _, ?_⟩
    have hstar := LegacyRating.star_of_accepts rfl h.stored
    simp only [RatingStyle.stored] at hstar ⊢
    rw [toLegacy_stars rfl, hstar]
    rfl
  | percentage =>
    refine ⟨_, Whole.style?_style _, ?_⟩
    have hpercent := LegacyRating.percentage_of_accepts h.stored
    simp only [RatingStyle.stored] at hpercent ⊢
    change (liftM (LegacyRating.percentage (.real a.toDouble)) >>= fun l => pure (some l)) = _
    rw [hpercent]
    rfl

/-- The legacy rating of a rated one has its style and the place of its value. -/
theorem toLegacy_of_accepts (h : s.Accepts a) :
    ∃ l : LegacyRating, (⟨s, some a⟩ : Rating).toLegacy = ⟨[], .ok (some l)⟩ ∧
      l.style.style? = some s.toLegacy ∧ (Number.real l.value).position? = a.position? := by
  obtain ⟨n, hn, hto⟩ := toLegacy_rated h
  exact ⟨_, hto, hn, h.position?_stored⟩

/-! ## Back to the new schema -/

theorem styleOf_style (s : RatingStyle) : styleOf (.text (.term (.style s))) = .ok s := by
  cases s <;> rfl

theorem star_of_accepts {x : Double} (hs : s.countsStars) (hx : s.Accepts (.real x)) :
    star (.text (.term (.style s))) (.real x) = .ok ⟨s, some (.real x)⟩ := by
  have hrated := rated_eq_ok_iff.2 ⟨hx, rfl⟩
  rw [star, styleOf_style, ok_bind, if_pos hs]
  exact hrated

theorem percentage_of_accepts {x : Double} (hx : RatingStyle.percentage.Accepts (.real x)) :
    percentage (.real x) = .ok ⟨.percentage, some (.real x)⟩ :=
  rated_eq_ok_iff.2 ⟨hx, rfl⟩

end Rating

namespace LegacyRating

variable {s : RatingStyle} {a : Number} {l : LegacyRating}

theorem isRated_iff : l.isRated ↔ (Number.real l.value).AtLeast 0 := by
  rw [isRated, Bool.or_eq_true, Number.AtLeast]

theorem isRated_eq_false_of_isNan (h : (Number.real l.value).isNan) : l.isRated = false := by
  rw [Bool.eq_false_iff, ne_eq, isRated_iff, Number.atLeast_iff, h]
  rintro ⟨h, -⟩
  cases h

theorem isRated_notRated {n : Whole} : (⟨n, notRated⟩ : LegacyRating).isRated = false := by
  have habove := Position.ofInt_lt_ofInt 0 (-1)
  rw [isRated, Bool.or_eq_false_iff]
  constructor
  · rw [Number.above, Number.lt, Number.position?_ofInt, Number.position?_notRated]
    exact habove
  · rw [Bool.eq_false_iff, ne_eq, Number.equals_iff, Number.position?_notRated,
      Option.some.injEq, Position.ofInt_inj]
    decide

theorem toRating_unrated (hl : l.style.style? = some s.toLegacy) (hu : l.isRated = false) :
    l.toRating = ⟨[], .ok (some ⟨s, none⟩)⟩ := by
  simp only [toRating, hl, hu, RatingStyle.toStyle_toLegacy, Bool.not_false, if_true]
  rfl

theorem isRated_of_accepts (ha : s.Accepts a) (hn : a.isNan = false)
    (hpos : (Number.real l.value).position? = a.position?) : l.isRated = true := by
  rw [isRated_iff, Number.atLeast_iff, Number.isNan_congr hpos, Number.below_congr hpos]
  exact ⟨hn, ha.not_below⟩

theorem stars_of_isRated (hl : l.style.style? = some s.toLegacy) (hs : s.countsStars)
    (hr : l.isRated) : l.stars = l.value := by
  have hcount : l.starCount?.isSome = true := by
    rw [starCount?, hl, Option.bind_some, LegacyStyle.starCount?, RatingStyle.toStyle_toLegacy]
    exact hs
  rw [stars, hcount, hr]
  rfl

theorem percent_of_isRated (hl : l.style.style? = some .percentage) (hr : l.isRated) :
    l.percent = l.value := by
  rw [percent, hl, hr]
  rfl

/-- A rated legacy rating with an accepted value becomes a rating of its style, with its value as it
is stored. -/
theorem toRating_rated (hl : l.style.style? = some s.toLegacy) (hx : s.Accepts (.real l.value))
    (hr : l.isRated) :
    l.toRating = ⟨[], .ok (some ⟨s, some (.real (s.stored (.real l.value)))⟩)⟩ := by
  cases s with
  | none => exact hx.elim
  | heart =>
    have hgiven : l.hasHeart = (Number.real l.value).equals 1 := by
      rw [hasHeart, hl]
      rfl
    simp only [toRating, hl, hr, hgiven]
    rfl
  | thumbUpDown =>
    have hup : l.isThumbUp = (Number.real l.value).equals 1 := by
      rw [isThumbUp, hl]
      rfl
    simp only [toRating, hl, hr, hup]
    rfl
  | threeStars | fourStars | fiveStars =>
    have hstar := Rating.star_of_accepts rfl hx
    have hstars := stars_of_isRated hl rfl hr
    simp only [toRating, hl, hr, hstars, RatingStyle.toStyle_toLegacy, hstar]
    rfl
  | percentage =>
    have hpercentage := Rating.percentage_of_accepts hx
    have hpercent := percent_of_isRated hl hr
    simp only [toRating, hl, hr, hpercent, RatingStyle.toStyle_toLegacy, hpercentage]
    rfl

/-- A legacy rating at the place of an accepted value becomes a rating at that place. -/
theorem toRating_of_accepts (hl : l.style.style? = some s.toLegacy) (ha : s.Accepts a)
    (hn : a.isNan = false) (hpos : (Number.real l.value).position? = a.position?) :
    ∃ x : Double, l.toRating = ⟨[], .ok (some ⟨s, some (.real x)⟩)⟩ ∧
      (Number.real x).position? = a.position? := by
  have hx : s.Accepts (.real l.value) := ha.congr hpos.symm
  have hto := toRating_rated hl hx (isRated_of_accepts ha hn hpos)
  exact ⟨_, hto, hx.position?_stored.trans hpos⟩

theorem same_of_position {l' : LegacyRating} (hl : l.style.style? = some s.toLegacy)
    (hl' : l'.style.style? = some s.toLegacy) (hn : (Number.real l.value).isNan = false)
    (hpos : (Number.real l.value).position? = (Number.real l'.value).position?) :
    l.same l' = true := by
  have hstyle := (Whole.toInt_of_style? hl).trans (Whole.toInt_of_style? hl').symm
  rw [same, hstyle, Number.same_of_position hn hpos, decide_eq_true rfl]
  rfl

end LegacyRating

/-! ## There and back -/

namespace Rating

variable {r : Rating} {s : RatingStyle} {a : Number} {l : LegacyRating}

theorem same_of_position {x : Double} (hn : a.isNan = false)
    (hpos : (Number.real x).position? = a.position?) :
    (⟨s, some (.real x)⟩ : Rating).same ⟨s, some a⟩ = true := by
  have hx := (Number.isNan_congr hpos).trans hn
  rw [same, decide_eq_true rfl, Bool.true_and]
  exact Number.same_of_position hx hpos

/-- A constructible rating has a legacy rating, which becomes the rating again unless its value is
a not-a-number. -/
theorem Constructible.exists_toLegacy (h : r.Constructible) :
    ∃ l, r.toLegacy = ⟨[], .ok (some l)⟩ ∧
      (r.isNan = false → ∃ r', l.toRating = ⟨[], .ok (some r')⟩ ∧ r'.same r = true) := by
  obtain ⟨s, value⟩ := r
  rcases constructible_iff.1 h with rfl | ⟨a, rfl, ha⟩
  · refine ⟨_, toLegacy_unrated s, fun _ => ⟨⟨s, none⟩, ?_, ?_⟩⟩
    · exact LegacyRating.toRating_unrated (Whole.style?_plain_number _)
        LegacyRating.isRated_notRated
    · rw [same, decide_eq_true rfl]
      rfl
  · obtain ⟨l, hto, hl, hpos⟩ := toLegacy_of_accepts ha
    refine ⟨l, hto, fun hn => ?_⟩
    obtain ⟨x, hback, hx⟩ := LegacyRating.toRating_of_accepts hl ha hn hpos
    exact ⟨_, hback, same_of_position hn hx⟩

/-- A constructible rating goes to the legacy schema, back and there again, and keeps its style. It
stays equal, stays rated and has one legacy rating exactly if its value is no not-a-number. -/
theorem toLegacy_toRating_iff (h : r.Constructible) :
    ∃ l r' l', r.toLegacy = ⟨[], .ok (some l)⟩ ∧ l.toRating = ⟨[], .ok (some r')⟩ ∧
      r'.toLegacy = ⟨[], .ok (some l')⟩ ∧ r'.style = r.style ∧
      (r'.same r ↔ ¬ r.isNan) ∧ (r'.isRated = r.isRated ↔ ¬ r.isNan) ∧
      (l'.same l ↔ ¬ r.isNan) := by
  obtain ⟨s, value⟩ := r
  have hplain := Whole.style?_plain_number s.toLegacy
  have hunrated := toLegacy_unrated s
  rcases constructible_iff.1 h with rfl | ⟨a, rfl, ha⟩
  · have hback := LegacyRating.toRating_unrated hplain LegacyRating.isRated_notRated
    refine ⟨_, _, _, hunrated, hback, hunrated, rfl, ?_, ?_, ?_⟩
    · simp [same, isNan]
    · simp [isRated, isNan]
    · simpa [isNan] using LegacyRating.same_of_position hplain hplain rfl rfl
  · obtain ⟨l, hto, hl, hpos⟩ := toLegacy_of_accepts ha
    cases hn : a.isNan with
    | false =>
      obtain ⟨x, hback, hx⟩ := LegacyRating.toRating_of_accepts hl ha hn hpos
      obtain ⟨l', hto', hl', hpos'⟩ := toLegacy_of_accepts (ha.congr hx.symm)
      have hvalue := hpos'.trans hx
      have hn' := (Number.isNan_congr hvalue).trans hn
      have hsame := LegacyRating.same_of_position hl' hl hn' (hvalue.trans hpos.symm)
      refine ⟨l, _, l', hto, hback, hto', rfl, ?_, ?_, ?_⟩
      · simpa [isNan, hn] using same_of_position hn hx
      · simp [isRated, isNan, hn]
      · simpa [isNan, hn] using hsame
    | true =>
      have hnan := (Number.isNan_congr hpos).trans hn
      have hback := LegacyRating.toRating_unrated hl (LegacyRating.isRated_eq_false_of_isNan hnan)
      have hdiffer := Number.same_eq_false_of_isNan (a := .real notRated) rfl hnan
      refine ⟨l, _, _, hto, hback, hunrated, rfl, ?_, ?_, ?_⟩
      · simp [same, isNan, hn]
      · simp [isRated, isNan, hn]
      · simp [LegacyRating.same, isNan, hn, hdiffer]

theorem toLegacy_toRating_two_of_three :
    (⟨.threeStars, some (.ofInt 2)⟩ : Rating).Constructible ∧
      ∃ l r', (⟨.threeStars, some (.ofInt 2)⟩ : Rating).toLegacy = ⟨[], .ok (some l)⟩ ∧
        l.toRating = ⟨[], .ok (some r')⟩ ∧ r'.same ⟨.threeStars, some (.ofInt 2)⟩ = true := by
  have haccepts : RatingStyle.threeStars.Accepts (.ofInt 2) := by
    have hrange : (Number.ofInt 2).isOutside 3 = false := by decide +kernel
    exact hrange
  have h : Constructible ⟨.threeStars, some (.ofInt 2)⟩ :=
    constructible_iff.2 (.inr ⟨_, rfl, haccepts⟩)
  obtain ⟨l, r', l', hto, hback, -, -, hsame, -⟩ := toLegacy_toRating_iff h
  exact ⟨h, l, r', hto, hback, hsame.2 (by simp [isNan, Number.ofInt, Number.isNan])⟩

/-- A percentage that is a not-a-number comes back unrated. -/
theorem toLegacy_toRating_nan :
    percentage (.real (.nan 0)) = .ok ⟨.percentage, some (.real (.nan 0))⟩ ∧
      (⟨.percentage, some (.real (.nan 0))⟩ : Rating).toLegacy =
        ⟨[], .ok (some ⟨.style .percentage, .nan 0⟩)⟩ ∧
      (⟨.style .percentage, .nan 0⟩ : LegacyRating).toRating =
        ⟨[], .ok (some ⟨.percentage, none⟩)⟩ ∧
      (⟨.percentage, none⟩ : Rating).same ⟨.percentage, some (.real (.nan 0))⟩ = false :=
  ⟨rfl, rfl, rfl, rfl⟩

end Rating

end MediaBridge
