import Mathlib.Data.List.TakeWhile
import MediaBridge.Uri.Parse

/-!
# Cutting canonical texts

What the components of a cut text look like (`delimited_cut`), and that components of this kind
are cut out of their own text again (`cut_text`). The only thing that can change on the way is a
path without a slash in front, which gets one in a hierarchical uri (`Parts.rooted`).
-/

namespace MediaBridge.Uri

variable {c d : Char} {as bs cs : List Char} {p : Parts}

/-! ## First occurrences -/

theorem ne_of_not_mem (h : c ∉ as) : ∀ a ∈ as, decide (a ≠ c) = true := by
  intro a ha
  have hne : a ≠ c := fun hac => h (hac ▸ ha)
  exact decide_eq_true hne

theorem not_mem_before (c : Char) (cs : List Char) : c ∉ before c cs := by
  intro h
  simpa using List.mem_takeWhile_imp h

theorem before_initial (c : Char) (cs : List Char) : before c cs <+: cs := List.takeWhile_prefix _

theorem mem_of_mem_before (h : d ∈ before c cs) : d ∈ cs := (before_initial c cs).subset h

theorem mem_of_mem_after (h : d ∈ after c cs) : d ∈ cs :=
  (List.dropWhile_sublist _).subset (List.mem_of_mem_drop h)

theorem before_append_of_not_mem (h : c ∉ as) : before c (as ++ bs) = as ++ before c bs :=
  List.takeWhile_append_of_pos (ne_of_not_mem h)

theorem after_append_of_not_mem (h : c ∉ as) : after c (as ++ bs) = after c bs := by
  rw [after, List.dropWhile_append_of_pos (ne_of_not_mem h)]
  rfl

theorem before_append_cons (h : c ∉ as) : before c (as ++ c :: bs) = as := by
  rw [before_append_of_not_mem h]
  simp [before]

theorem after_append_cons (h : c ∉ as) : after c (as ++ c :: bs) = bs := by
  rw [after_append_of_not_mem h]
  simp [after]

theorem before_append_of_mem (h : c ∈ as) : before c (as ++ bs) = before c as := by
  have hsplit := before_append_after h
  rw [← hsplit, List.append_assoc, List.cons_append]
  simp only [before_append_cons (not_mem_before c as)]

theorem before_append_delimited (h : c ∉ as) : before c (as ++ delimited c bs) = as := by
  cases bs with
  | nil => simpa [delimited] using before_eq_self h
  | cons b bs => exact before_append_cons h

theorem after_append_delimited (h : c ∉ as) : after c (as ++ delimited c bs) = bs := by
  cases bs with
  | nil =>
    rw [after_append_of_not_mem h]
    rfl
  | cons b bs => exact after_append_cons h

theorem mem_delimited (h : d ∈ delimited c cs) : d = c ∨ d ∈ cs := by
  cases cs with
  | nil => cases h
  | cons a as => exact List.mem_cons.1 h

/-! ## Characters of schemes -/

theorem toNat_toLower (c : Char) :
    c.toLower.toNat = if 65 ≤ c.toNat ∧ c.toNat ≤ 90 then c.toNat + 32 else c.toNat := by
  have hc : c.val.toNat = c.toNat := rfl
  unfold Char.toLower
  simp only [ge_iff_le, UInt32.le_iff_toNat_le, hc, Char.reduceVal, UInt32.reduceToNat]
  split
  · have hadd : (c.val + (97 - 65)).toNat = c.toNat + 32 := by
      rw [UInt32.toNat_add, hc]
      simp
      omega
    exact hadd
  · rfl

theorem toLower_toLower (c : Char) : c.toLower.toLower = c.toLower := by
  apply Char.toNat_inj.1
  simp only [toNat_toLower]
  grind

theorem isLetter_iff :
    isLetter c ↔ 97 ≤ c.toNat ∧ c.toNat ≤ 122 ∨ 65 ≤ c.toNat ∧ c.toNat ≤ 90 := by
  simp [isLetter, Char.le_def, UInt32.le_iff_toNat_le]

theorem isSchemeChar_iff :
    isSchemeChar c ↔
      isLetter c ∨ (48 ≤ c.toNat ∧ c.toNat ≤ 57) ∨ c = '+' ∨ c = '-' ∨ c = '.' := by
  simp [isSchemeChar, Char.isDigit, UInt32.le_iff_toNat_le, or_assoc]

theorem isLetter_toLower (h : isLetter c) : isLetter c.toLower := by
  rw [isLetter_iff] at h ⊢
  rw [toNat_toLower]
  split <;> omega

theorem isSchemeChar_toLower (h : isSchemeChar c) : isSchemeChar c.toLower := by
  rw [isSchemeChar_iff] at h ⊢
  rcases h with h | h | rfl | rfl | rfl
  · exact .inl (isLetter_toLower h)
  · refine .inr (.inl ?_)
    rw [toNat_toLower]
    split <;> omega
  all_goals decide

theorem not_isForbidden_of_isSchemeChar (h : isSchemeChar c) : isForbidden c = false := by
  rw [isSchemeChar_iff, isLetter_iff] at h
  rcases h with h | h | rfl | rfl | rfl
  · simp [isForbidden]; omega
  · simp [isForbidden]; omega
  all_goals decide

theorem isSchemeChar_of_mem (h : isScheme cs) (hc : c ∈ cs) : isSchemeChar c := by
  simp only [isScheme, Bool.and_eq_true, List.all_eq_true] at h
  exact h.2 c hc

theorem not_isScheme_of_mem (hc : c ∈ cs) (h : isSchemeChar c = false) : isScheme cs = false := by
  rw [Bool.eq_false_iff]
  intro hs
  rw [isSchemeChar_of_mem hs hc] at h
  cases h

theorem isScheme_map_toLower (h : isScheme cs) : isScheme (cs.map Char.toLower) := by
  simp only [isScheme, Bool.and_eq_true, List.all_eq_true] at h ⊢
  obtain ⟨hhead, hall⟩ := h
  constructor
  · cases cs with
    | nil => cases hhead
    | cons a as => simpa using isLetter_toLower (by simpa using hhead)
  · simpa using fun a ha => isSchemeChar_toLower (hall a ha)

theorem map_toLower_map_toLower (cs : List Char) :
    (cs.map Char.toLower).map Char.toLower = cs.map Char.toLower := by
  rw [List.map_map]
  exact List.map_congr_left fun c _ => toLower_toLower c

/-! ## Cutting off the scheme -/

/-- No scheme can be cut off a text. -/
def Schemeless (cs : List Char) : Prop := ':' ∈ cs → isScheme (before ':' cs) = false

theorem schemeless_nil : Schemeless [] := fun h => by cases h

theorem schemeless_cons (h : isSchemeChar c = false) : Schemeless (c :: cs) := by
  intro _
  by_cases hc : c = ':'
  · subst hc
    rfl
  · have hmem : c ∈ before ':' (c :: cs) := by simp [before, hc]
    exact not_isScheme_of_mem hmem h

theorem Schemeless.of_append (h : Schemeless (as ++ bs)) : Schemeless as := by
  intro hc
  rw [← before_append_of_mem hc]
  exact h (List.mem_append_left _ hc)

theorem isSchemeChar_of_isAuthorityEnd (h : isAuthorityEnd c) : isSchemeChar c = false := by
  simp only [isAuthorityEnd, Bool.or_eq_true, beq_iff_eq] at h
  rcases h with (rfl | rfl) | rfl <;> decide

/-- What follows the end of a component cannot complete a scheme. -/
theorem Schemeless.append (h : Schemeless as) (hb : ∀ b ∈ bs.head?, isAuthorityEnd b) :
    Schemeless (as ++ bs) := by
  intro hc
  by_cases has : ':' ∈ as
  · rw [before_append_of_mem has]
    exact h has
  · rw [before_append_of_not_mem has]
    cases bs with
    | nil => simp [has] at hc
    | cons b bs =>
      have hbs := isSchemeChar_of_isAuthorityEnd (hb b rfl)
      have hne : b ≠ ':' := by
        rintro rfl
        exact absurd (hb ':' rfl) (by decide)
      refine not_isScheme_of_mem (c := b) ?_ hbs
      simp [before, hne]

theorem cutScheme_of_schemeless (h : Schemeless cs) : cutScheme cs = ([], cs) := by
  unfold cutScheme
  refine if_neg ?_
  simp only [Bool.and_eq_true, List.contains_iff_mem, not_and, Bool.not_eq_true]
  exact h

theorem cutScheme_append (h : isScheme as) :
    cutScheme (as ++ ':' :: bs) = (as.map Char.toLower, bs) := by
  have hn : ':' ∉ as := fun hc => absurd (isSchemeChar_of_mem h hc) (by decide)
  simp [cutScheme, before_append_cons hn, after_append_cons hn, h]

/-- Either there is no scheme, or a text is a scheme, a colon and the rest. -/
theorem cutScheme_cases (cs : List Char) :
    (Schemeless cs ∧ cutScheme cs = ([], cs)) ∨
      ∃ s rest, isScheme s ∧ cs = s ++ ':' :: rest ∧ cutScheme cs = (s.map Char.toLower, rest) := by
  by_cases h : ':' ∈ cs ∧ isScheme (before ':' cs)
  · refine .inr ⟨before ':' cs, after ':' cs, h.2, (before_append_after h.1).symm, ?_⟩
    simp [cutScheme, h]
  · have hs : Schemeless cs := fun hc => by simpa [hc] using h
    exact .inl ⟨hs, cutScheme_of_schemeless hs⟩

/-! ## Cutting off the authority -/

theorem cutAuthority_of_not_startsWithSlashes (h : startsWithSlashes cs = false) :
    cutAuthority cs = ([], cs) := by
  unfold cutAuthority
  split
  · simp [startsWithSlashes] at h
  · rfl

theorem cutAuthority_slashes (ha : ∀ a ∈ as, isAuthorityEnd a = false)
    (hb : ∀ b ∈ bs.head?, isAuthorityEnd b) :
    cutAuthority ('/' :: '/' :: (as ++ bs)) = (as, bs) := by
  have hall : ∀ a ∈ as, (!isAuthorityEnd a) = true := by simpa using ha
  simp only [cutAuthority]
  rw [List.takeWhile_append_of_pos hall, List.dropWhile_append_of_pos hall]
  cases bs with
  | nil => simp
  | cons b bs => simp [hb b rfl]

/-- Either there is no authority, or a text is two slashes, the authority and the rest. -/
theorem cutAuthority_cases (cs : List Char) :
    (startsWithSlashes cs = false ∧ cutAuthority cs = ([], cs)) ∨
      ∃ authority rest, cs = '/' :: '/' :: (authority ++ rest) ∧
        cutAuthority cs = (authority, rest) ∧ (∀ a ∈ authority, isAuthorityEnd a = false) ∧
        ∀ b ∈ rest.head?, isAuthorityEnd b := by
  by_cases h : startsWithSlashes cs
  · unfold startsWithSlashes at h
    split at h
    · next as =>
      refine .inr ⟨as.takeWhile (!isAuthorityEnd ·), as.dropWhile (!isAuthorityEnd ·), ?_, rfl,
        ?_, ?_⟩
      · rw [List.takeWhile_append_dropWhile]
      · intro a ha
        simpa using List.mem_takeWhile_imp ha
      · intro b hb
        have hhead := List.head?_dropWhile_not (!isAuthorityEnd ·) as
        rw [Option.mem_def.1 hb] at hhead
        simpa using hhead
    · cases h
  · have hn : startsWithSlashes cs = false := by simpa using h
    exact .inl ⟨hn, cutAuthority_of_not_startsWithSlashes hn⟩

end MediaBridge.Uri
