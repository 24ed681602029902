import MediaBridge.Proofs.Rating.Range

/-!
# Legacy ratings in the new schema

A legacy rating that the constructor and the factories let through is unrated or has a value in the
range of its style (`Constructible.range`), so that the checks of the new schema never refuse it:
it has a counterpart, or it is dropped with one record (`Constructible.toRating_cases`). The
counterpart shows what the legacy rating shows and becomes an equal legacy rating
(`Constructible.toRating_shown`).
-/

namespace MediaBridge.LegacyRating

variable {l : LegacyRating} {n : Whole} {x : Double}

/-! ## Constructible legacy ratings -/

/-- A legacy rating that is built from values of any kind, by the constructor or a factory. -/
inductive Constructible : LegacyRating → Prop
  | ofValues {style value : Value} {l : LegacyRating} (h : ofValues style value = .ok l) :
    Constructible l
  | unrated {style : Value} {l : LegacyRating} (h : unrated style = .ok l) : Constructible l
  | heart (given : Value) : Constructible (heart given)
  | thumb (up : Value) : Constructible (thumb up)
  | star {style stars : Value} {l : LegacyRating} (h : star style stars = .ok l) : Constructible l
  | percentage {percent : Value} {l : LegacyRating} (h : percentage percent = .ok l) :
    Constructible l

theorem isNan_of_isRated (h : l.isRated) : (Number.real l.value).isNan = false :=
  (Number.atLeast_iff.1 (isRated_iff.1 h)).1

theorem range_of_ofDouble_of_isRated (h : ofDouble n x = .ok l) (hr : l.isRated) :
    l.style.Range (.real l.value) := by
  cases h0 : (Number.real x).below 0 with
  | true =>
    -- negative values are stored as the one for "not rated"
    simp only [ofDouble, h0, if_true] at h
    cases h
    cases isRated_notRated.symm.trans hr
  | false =>
    obtain ⟨rfl, hrange⟩ := range_of_ofDouble h0 h
    exact hrange (isNan_of_isRated hr)

theorem exists_ofDouble_of_star {style stars : Value} (h : star style stars = .ok l) :
    ∃ n x, ofDouble n x = .ok l := by
  unfold star at h
  split at h
  · cases h
  · split at h
    · cases h
    · obtain ⟨negative, -, h⟩ := bind_eq_ok_iff.1 h
      cases negative with
      | true => cases h
      | false =>
        obtain ⟨x, -, hx⟩ := bind_eq_ok_iff.1 h
        exact ⟨_, x, hx⟩

theorem exists_ofDouble_of_percentage {percent : Value} (h : percentage percent = .ok l) :
    ∃ n x, ofDouble n x = .ok l := by
  obtain ⟨negative, -, h⟩ := bind_eq_ok_iff.1 h
  cases negative with
  | true => cases h
  | false =>
    obtain ⟨x, -, hx⟩ := bind_eq_ok_iff.1 h
    exact ⟨_, x, hx⟩

theorem ofDouble_notRated (n : Whole) : ofDouble n notRated = .ok ⟨n, notRated⟩ := by
  have hbelow : (Number.real notRated).below 0 = true := by
    rw [Number.below, Number.lt, Number.position?_notRated, Number.position?_ofInt]
    exact Position.ofInt_lt_ofInt (-1) 0
  rw [ofDouble, if_pos hbelow]

/-- Whatever is built passes the check of the constructor. -/
theorem Constructible.exists_ofDouble (h : l.Constructible) : ∃ n x, ofDouble n x = .ok l := by
  cases h with
  | @ofValues style value _ h =>
    unfold LegacyRating.ofValues at h
    split at h
    · split at h
      · obtain ⟨x, -, hx⟩ := bind_eq_ok_iff.1 h
        exact ⟨_, x, hx⟩
      · obtain ⟨x, -, hx⟩ := bind_eq_ok_iff.1 h
        exact ⟨_, x, hx⟩
      · cases h
    · cases h
  | unrated h =>
    obtain ⟨n, -, hn⟩ := bind_eq_ok_iff.1 h
    cases hn
    exact ⟨_, notRated, ofDouble_notRated _⟩
  | heart given =>
    have haccepts : RatingStyle.heart.Accepts (.real given.flag) := Number.isZeroOrOne_flag given
    exact ⟨_, _, ofDouble_of_accepts (Whole.style?_style _) haccepts⟩
  | thumb up =>
    have haccepts : RatingStyle.thumbUpDown.Accepts (.real up.flag) := Number.isZeroOrOne_flag up
    exact ⟨_, _, ofDouble_of_accepts (Whole.style?_style _) haccepts⟩
  | star h => exact exists_ofDouble_of_star h
  | percentage h => exact exists_ofDouble_of_percentage h

/-- A rated legacy rating is in the range of its style. -/
theorem Constructible.range (h : l.Constructible) (hr : l.isRated) :
    l.style.Range (.real l.value) := by
  obtain ⟨n, x, hx⟩ := h.exists_ofDouble
  exact range_of_ofDouble_of_isRated hx hr

/-- A legacy rating that is not rated has the value for that or a not-a-number. -/
theorem Constructible.value_eq_notRated (h : l.Constructible) (hu : l.isRated = false)
    (hn : (Number.real l.value).isNan = false) : l.value = notRated := by
  obtain ⟨n, x, hx⟩ := h.exists_ofDouble
  cases h0 : (Number.real x).below 0 with
  | true =>
    simp only [ofDouble, h0, if_true] at hx
    cases hx
    rfl
  | false =>
    obtain ⟨rfl, -⟩ := range_of_ofDouble h0 hx
    cases (isRated_iff.2 (Number.atLeast_iff.2 ⟨hn, h0⟩)).symm.trans hu

/-- The legacy rating of a rating is constructible. -/
theorem constructible_of_toLegacy {r : Rating} (h : r.toLegacy.result = .ok (some l)) :
    l.Constructible := by
  obtain ⟨s, value⟩ := r
  cases value with
  | none =>
    have hunrated : unrated (.ofInt s.toLegacy.number) = .ok ⟨.plain s.toLegacy.number, notRated⟩ :=
      rfl
    cases h
    exact .unrated hunrated
  | some a =>
    cases s with
    | none => cases h
    | heart =>
      cases h
      exact .heart _
    | thumbUpDown =>
      cases h
      exact .thumb _
    | threeStars | fourStars | fiveStars =>
      rw [Rating.toLegacy_stars rfl, Traced.result_bind, Traced.result_liftM] at h
      obtain ⟨l', hl, h⟩ := bind_eq_ok_iff.1 h
      cases h
      exact .star hl
    | percentage =>
      change (liftM (LegacyRating.percentage (.real a.toDouble)) >>= fun l => pure (some l) :
        Traced (Option LegacyRating)).result = _ at h
      rw [Traced.result_bind, Traced.result_liftM] at h
      obtain ⟨l', hl, h⟩ := bind_eq_ok_iff.1 h
      cases h
      exact .percentage hl

/-! ## To the new schema -/

/-- What a legacy rating becomes in the new schema, if it has a counterpart there. -/
def counterpart? (l : LegacyRating) : Option Rating := l.toRating.result.toOption.join

/-- Whether the new schema has nothing for a legacy rating: its style is unknown, or it is rated
without a style. -/
def Unsupported (l : LegacyRating) : Prop :=
  l.style.style? = none ∨ l.style.style? = some .none ∧ l.isRated

/-- An unsupported legacy rating is dropped with one record. Any other one becomes a rating of its
style, without a report. -/
theorem Constructible.toRating_outcome (h : l.Constructible) :
    (l.Unsupported ∧ ∃ text, l.toRating = ⟨[⟨ratingLogger, text⟩], .ok none⟩) ∨
      ∃ s : RatingStyle, l.style.style? = some s.toLegacy ∧
        (l.isRated = false ∧ l.toRating = ⟨[], .ok (some ⟨s, none⟩)⟩ ∨
          l.isRated ∧ s.Accepts (.real l.value) ∧
            l.toRating = ⟨[], .ok (some ⟨s, some (.real (s.stored (.real l.value)))⟩)⟩) := by
  cases hl : l.style.style? with
  | none =>
    refine .inl ⟨.inl hl, ?_⟩
    rw [toRating, hl]
    exact ⟨_, rfl⟩
  | some style =>
    obtain ⟨s, rfl⟩ : ∃ s : RatingStyle, style = s.toLegacy := ⟨style.toStyle, by simp⟩
    cases hr : l.isRated with
    | false => exact .inr ⟨s, rfl, .inl ⟨rfl, toRating_unrated hl hr⟩⟩
    | true =>
      have hrange := h.range hr
      cases s with
      | none =>
        refine .inl ⟨.inr ⟨hl, hr⟩, ?_⟩
        simp only [toRating, hl, hr]
        exact ⟨_, rfl⟩
      | heart | thumbUpDown | threeStars | fourStars | fiveStars | percentage =>
        rw [Whole.Range, hl] at hrange
        have haccepts := (RatingStyle.range_iff.1 hrange).2
        exact .inr ⟨_, rfl, .inr ⟨rfl, haccepts, toRating_rated hl haccepts hr⟩⟩

/-- A legacy rating has a counterpart, without a report, or it is dropped with one record. -/
theorem Constructible.toRating_cases (h : l.Constructible) :
    (∃ r, l.toRating = ⟨[], .ok (some r)⟩) ∨
      ∃ text, l.toRating = ⟨[⟨ratingLogger, text⟩], .ok none⟩ := by
  rcases h.toRating_outcome with ⟨-, hdropped⟩ | ⟨s, -, ⟨-, hto⟩ | ⟨-, -, hto⟩⟩
  · exact .inr hdropped
  · exact .inl ⟨_, hto⟩
  · exact .inl ⟨_, hto⟩

/-- A counterpart is constructible. -/
theorem Constructible.constructible_of_toRating {r : Rating} (h : l.Constructible)
    (hto : l.toRating = ⟨[], .ok (some r)⟩) : r.Constructible := by
  rcases h.toRating_outcome with ⟨-, text, hto'⟩ | ⟨s, -, ⟨-, hto'⟩ | ⟨-, hx, hto'⟩⟩
  · cases hto.symm.trans hto'
  · cases hto.symm.trans hto'
    exact Rating.constructible_iff.2 (.inl rfl)
  · cases hto.symm.trans hto'
    exact Rating.constructible_iff.2 (.inr ⟨_, rfl, hx.stored⟩)

theorem Constructible.toRating_of_counterpart? {r : Rating} (h : l.Constructible)
    (hr : l.counterpart? = some r) : l.toRating = ⟨[], .ok (some r)⟩ := by
  rw [counterpart?] at hr
  rcases h.toRating_cases with ⟨r', hto⟩ | ⟨text, hto⟩
  · rw [hto] at hr ⊢
    cases hr
    rfl
  · rw [hto] at hr
    cases hr

/-! ## What a counterpart shows -/

/-- What a rating of the new schema shows is what a legacy rating shows. -/
structure ShownBy (l : LegacyRating) (r : Rating) : Prop where
  style : l.style.style? = some r.style.toLegacy
  isRated : r.isRated = l.isRated
  hasHeart : r.hasHeart = l.hasHeart
  isThumbUp : r.isThumbUp = l.isThumbUp
  stars : r.stars = l.stars
  percent : r.percent = l.percent

variable {s : RatingStyle}

theorem equals_one_of_isRated_eq_false (hu : l.isRated = false) :
    (Number.real l.value).equals 1 = false := by
  rw [Bool.eq_false_iff] at hu ⊢
  intro h1
  have hpos := Number.equals_iff.1 h1
  have habove : (Number.real l.value).above 0 = true := by
    rw [Number.above, Number.lt, Number.position?_ofInt, hpos]
    exact Position.ofInt_lt_ofInt 0 1
  exact hu (isRated_iff.2 (.inl habove))

theorem shownBy_unrated (hl : l.style.style? = some s.toLegacy) (hu : l.isRated = false) :
    l.ShownBy ⟨s, none⟩ where
  style := hl
  isRated := hu.symm
  hasHeart := by simp [Rating.hasHeart, hasHeart, equals_one_of_isRated_eq_false hu]
  isThumbUp := by simp [Rating.isThumbUp, isThumbUp, equals_one_of_isRated_eq_false hu]
  stars := by simp [Rating.stars, stars, hu, Rating.valueOrNotRated]
  percent := by simp [Rating.percent, percent, hu, Rating.valueOrNotRated]

theorem shownBy_rated (hl : l.style.style? = some s.toLegacy) (hx : s.Accepts (.real l.value))
    (hr : l.isRated) : l.ShownBy ⟨s, some (.real (s.stored (.real l.value)))⟩ := by
  have hone := Number.equals_congr (n := 1) hx.position?_stored
  refine ⟨hl, hr.symm, ?_, ?_, ?_, ?_⟩
  · simp only [Rating.hasHeart, hasHeart, hl, Option.any_some, hone]
    cases s <;> rfl
  · simp only [Rating.isThumbUp, isThumbUp, hl, Option.any_some, hone]
    cases s <;> rfl
  · simp only [Rating.stars, stars, starCount?, hl, hr]
    cases s <;> rfl
  · simp only [Rating.percent, percent, hl, hr]
    cases s <;> rfl

/-- A counterpart becomes a legacy rating again, equal to the one it comes from or unrated in place
of a not-a-number, and that one has the same counterpart. -/
theorem Constructible.exists_toLegacy {r : Rating} (h : l.Constructible)
    (hto : l.toRating = ⟨[], .ok (some r)⟩) :
    ∃ l', r.toLegacy = ⟨[], .ok (some l')⟩ ∧ l'.toRating = ⟨[], .ok (some r)⟩ ∧
      ((Number.real l.value).isNan = false → l'.same l) ∧
      ((Number.real l.value).isNan → l' = ⟨.plain l.style.toInt, notRated⟩) := by
  rcases h.toRating_outcome with ⟨-, text, hdropped⟩ | ⟨s, hl, ⟨hu, hto'⟩ | ⟨hr, hx, hto'⟩⟩
  · cases hto.symm.trans hdropped
  · cases hto.symm.trans hto'
    have hplain := Whole.style?_plain_number s.toLegacy
    refine ⟨_, Rating.toLegacy_unrated s, toRating_unrated hplain isRated_notRated, ?_, ?_⟩
    · intro hn
      have hvalue := h.value_eq_notRated hu hn
      exact same_of_position hplain hl rfl (by rw [hvalue])
    · intro _
      rw [Whole.toInt_of_style? hl]
  · cases hto.symm.trans hto'
    obtain ⟨n, hn, hlegacy⟩ := Rating.toLegacy_rated hx.stored
    rw [RatingStyle.stored_stored] at hlegacy
    have hnan := isNan_of_isRated hr
    have hpos := hx.position?_stored
    have hr' := isRated_of_accepts (l := ⟨n, s.stored (.real l.value)⟩) hx hnan hpos
    have hback := toRating_rated (l := ⟨n, s.stored (.real l.value)⟩) hn hx.stored hr'
    rw [RatingStyle.stored_stored] at hback
    refine ⟨_, hlegacy, hback, fun _ => ?_, fun hnan' => ?_⟩
    · exact same_of_position hn hl ((Number.isNan_congr hpos).trans hnan) hpos
    · cases hnan.symm.trans hnan'

theorem not_unsupported_of_accepts (hl : l.style.style? = some s.toLegacy)
    (hx : l.isRated → s.Accepts (.real l.value)) : ¬ l.Unsupported := by
  rintro (hnone | ⟨hnone, hr⟩)
  · cases hl.symm.trans hnone
  · cases s with
    | none => exact hx hr
    | _ => cases hl.symm.trans hnone

/-- A constructible legacy rating converts without a fault. It has no counterpart exactly if it is
unsupported, and only then there is a record; a counterpart shows what the legacy rating shows, and
becomes an equal one again unless the value is a not-a-number, which comes back unrated. -/
theorem Constructible.toRating_shown (h : l.Constructible) :
    ∃ log result, l.toRating = ⟨log, .ok result⟩ ∧ (result = none ↔ l.Unsupported) ∧
      (l.Unsupported → ∃ text, log = [⟨ratingLogger, text⟩]) ∧ (¬ l.Unsupported → log = []) ∧
      ∀ r, result = some r → l.ShownBy r ∧
        ∃ l', r.toLegacy = ⟨[], .ok (some l')⟩ ∧
          ((Number.real l.value).isNan = false → l'.same l) ∧
          ((Number.real l.value).isNan → l' = ⟨.plain l.style.toInt, notRated⟩) := by
  have hagain : ∀ r, l.toRating = ⟨[], .ok (some r)⟩ → ∃ l', r.toLegacy = ⟨[], .ok (some l')⟩ ∧
      ((Number.real l.value).isNan = false → l'.same l) ∧
      ((Number.real l.value).isNan → l' = ⟨.plain l.style.toInt, notRated⟩) := by
    intro r hto
    obtain ⟨l', hlegacy, -, hsame⟩ := h.exists_toLegacy hto
    exact ⟨l', hlegacy, hsame⟩
  rcases h.toRating_outcome with ⟨hdropped, text, hto⟩ | ⟨s, hl, ⟨hu, hto⟩ | ⟨hr, hx, hto⟩⟩
  · exact ⟨_, _, hto, iff_of_true rfl hdropped, fun _ => ⟨text, rfl⟩, absurd hdropped, nofun⟩
  · have hkept : ¬ l.Unsupported :=
      not_unsupported_of_accepts hl fun hr => absurd hr (by simp [hu])
    refine ⟨_, _, hto, iff_of_false nofun hkept, fun h => absurd h hkept, fun _ => rfl, ?_⟩
    rintro _ ⟨⟩
    exact ⟨shownBy_unrated hl hu, hagain _ hto⟩
  · have hkept := not_unsupported_of_accepts hl fun _ => hx
    refine ⟨_, _, hto, iff_of_false nofun hkept, fun h => absurd h hkept, fun _ => rfl, ?_⟩
    rintro _ ⟨⟩
    exact ⟨shownBy_rated hl hx hr, hagain _ hto⟩

theorem toRating_shown_one_of_three :
    (⟨.plain 3, .one⟩ : LegacyRating).Constructible ∧
      ∃ r l', (⟨.plain 3, .one⟩ : LegacyRating).toRating = ⟨[], .ok (some r)⟩ ∧
        r.style = .threeStars ∧ r.stars = .one ∧ r.toLegacy = ⟨[], .ok (some l')⟩ ∧
        l'.same ⟨.plain 3, .one⟩ = true := by
  have hone : RatingStyle.threeStars.Accepts (.real .one) := by
    have hrange : (Number.real .one).isOutside 3 = false := by decide +kernel
    exact hrange
  have hstyle : (Whole.plain 3).style? = some RatingStyle.threeStars.toLegacy := rfl
  have hr := isRated_of_accepts (l := ⟨.plain 3, .one⟩) hone rfl rfl
  have hvalues (x : Double) : LegacyRating.ofValues (.ofInt 3) (.real x) = ofDouble (.plain 3) x :=
    rfl
  have h : Constructible ⟨.plain 3, .one⟩ :=
    .ofValues ((hvalues .one).trans (ofDouble_of_accepts hstyle hone))
  obtain ⟨log, result, hto, -, -, hlog, hshown⟩ := h.toRating_shown
  cases (toRating_rated hstyle hone hr).symm.trans hto
  obtain ⟨hshows, l', hlegacy, hsame, -⟩ := hshown _ rfl
  exact ⟨h, _, l', toRating_rated hstyle hone hr, rfl,
    hshows.stars.trans (stars_of_isRated hstyle rfl hr), hlegacy, hsame rfl⟩

end MediaBridge.LegacyRating
