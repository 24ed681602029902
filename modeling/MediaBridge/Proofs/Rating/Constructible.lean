import MediaBridge.Proofs.Number.Place
import MediaBridge.Proofs.Result

/-!
# Constructible ratings

The ratings that the constructor and the factories let through. They are the unrated ones and those
whose number their style accepts (`constructible_iff`).
-/

namespace MediaBridge

/-- The numbers that a style accepts. A not-a-number is not outside of any range. -/
def RatingStyle.Accepts (s : RatingStyle) (a : Number) : Prop :=
  match s with
  | .none => False
  | .heart | .thumbUpDown => a.isZeroOrOne = true
  | .threeStars | .fourStars | .fiveStars => a.isOutside s.starCount = false
  | .percentage => a.isOutside 100 = false

theorem RatingStyle.Accepts.congr {s : RatingStyle} {a b : Number}
    (h : a.position? = b.position?) (ha : s.Accepts a) : s.Accepts b := by
  cases s with
  | none => exact ha
  | heart | thumbUpDown => exact (Number.isZeroOrOne_congr h).symm.trans ha
  | threeStars | fourStars | fiveStars | percentage =>
    exact (Number.isOutside_congr h).symm.trans ha

theorem RatingStyle.Accepts.not_below {s : RatingStyle} {a : Number} (h : s.Accepts a) :
    a.below 0 = false := by
  cases s with
  | none => exact h.elim
  | heart | thumbUpDown =>
    rw [Number.below_eq_false_iff]
    intro p hp
    rcases Number.isZeroOrOne_iff.1 h with h | h <;> cases h.symm.trans hp <;>
      exact Position.ofInt_lt_ofInt _ _
  | threeStars | fourStars | fiveStars | percentage => exact (Bool.or_eq_false_iff.1 h).1

namespace Rating

/-- A rating that is built from values of any kind, by the constructor or a factory. -/
inductive Constructible : Rating → Prop
  | ofValues {style value : Value} {r : Rating} (h : ofValues style value = .ok r) : Constructible r
  | unrated {style : Value} {r : Rating} (h : unrated style = .ok r) : Constructible r
  | heart (given : Value) : Constructible (heart given)
  | thumb (up : Value) : Constructible (thumb up)
  | star {style stars : Value} {nan : Double} {r : Rating} (h : star style stars nan = .ok r) :
    Constructible r
  | percentage {percent : Value} {nan : Double} {r : Rating}
    (h : percentage percent nan = .ok r) : Constructible r

/-- Whether the value of a rating is a not-a-number. -/
def isNan (r : Rating) : Bool := r.value.any Number.isNan

variable {r : Rating} {s : RatingStyle} {a : Number}

theorem rated_eq_ok_iff : rated s a = .ok r ↔ s.Accepts a ∧ r = ⟨s, some a⟩ := by
  cases s with
  | none =>
    refine ⟨fun h => ?_, fun h => h.1.elim⟩
    cases h
  | heart | thumbUpDown =>
    simp only [rated, RatingStyle.Accepts]
    split
    · next h =>
      exact ⟨fun hr => ⟨h, (Except.ok.inj hr).symm⟩, fun hr => congrArg Except.ok hr.2.symm⟩
    · next h =>
      refine ⟨fun hr => ?_, fun hr => absurd hr.1 h⟩
      cases hr
  | threeStars | fourStars | fiveStars | percentage =>
    simp only [rated, RatingStyle.Accepts]
    split
    · next h =>
      refine ⟨fun hr => ?_, fun hr => absurd (hr.1.symm.trans h) Bool.false_ne_true⟩
      cases hr
    · next h =>
      have h' := Bool.eq_false_iff.2 h
      exact ⟨fun hr => ⟨h', (Except.ok.inj hr).symm⟩, fun hr => congrArg Except.ok hr.2.symm⟩

theorem accepts_of_rated (h : rated s a = .ok r) :
    r.value = none ∨ ∃ a ∈ r.value, r.style.Accepts a := by
  obtain ⟨ha, rfl⟩ := rated_eq_ok_iff.1 h
  exact .inr ⟨a, rfl, ha⟩

theorem constructible_iff :
    r.Constructible ↔ r.value = none ∨ ∃ a ∈ r.value, r.style.Accepts a := by
  constructor
  · intro h
    cases h with
    | @ofValues style value _ h =>
      unfold Rating.ofValues at h
      split at h
      · split at h
        · cases h
          exact .inl rfl
        · exact accepts_of_rated h
        · exact accepts_of_rated h
        · split at h <;> cases h
      · cases h
    | unrated h =>
      obtain ⟨s, -, hs⟩ := bind_eq_ok_iff.1 h
      cases hs
      exact .inl rfl
    | heart given => exact .inr ⟨_, rfl, Number.isZeroOrOne_flag given⟩
    | thumb up => exact .inr ⟨_, rfl, Number.isZeroOrOne_flag up⟩
    | star h =>
      obtain ⟨s, -, hs⟩ := bind_eq_ok_iff.1 h
      split at hs
      · obtain ⟨x, -, hx⟩ := bind_eq_ok_iff.1 hs
        exact accepts_of_rated hx
      · cases hs
    | percentage h =>
      obtain ⟨x, -, hx⟩ := bind_eq_ok_iff.1 h
      exact accepts_of_rated hx
  · obtain ⟨style, value⟩ := r
    rintro (rfl | ⟨a, rfl, ha⟩)
    · have hnone : Rating.ofValues (.text (.term (.style style))) .none = .ok ⟨style, none⟩ := rfl
      exact .ofValues hnone
    · have hrated := rated_eq_ok_iff.2 ⟨ha, rfl⟩
      cases a with
      | whole n =>
        have h : Rating.ofValues (.text (.term (.style style))) (.whole n) =
            .ok ⟨style, some (.whole n)⟩ := hrated
        exact .ofValues h
      | real x =>
        have h : Rating.ofValues (.text (.term (.style style))) (.real x) =
            .ok ⟨style, some (.real x)⟩ := hrated
        exact .ofValues h

end Rating

end MediaBridge
