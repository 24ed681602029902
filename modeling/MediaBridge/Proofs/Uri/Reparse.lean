import MediaBridge.Proofs.Uri.Cut

/-!
# Parsing canonical texts

When the canonical text of a parsed uri is parsed as the same uri again. It is in all but two
cases: nothing is left to write of a uri without components, and a path without a slash in front
gets one in a hierarchical uri without an authority. Main statements: `delimited_cut`, `cut_text`
and `parse_text_eq_self_iff`.
-/

namespace MediaBridge.Uri

variable {cs rest : List Char} {p : Parts}

/-! ## Delimited components -/

/-- Components of a text: none of them contains a delimiter that would have ended it, and the path
goes on where the authority ended. Without a scheme, nothing that comes later can be one. -/
structure Parts.Delimited (p : Parts) : Prop where
  scheme : p.scheme ≠ [] → isScheme p.scheme
  lowered : p.scheme.map Char.toLower = p.scheme
  schemeless : p.scheme = [] → Schemeless p.path
  authority : ∀ a ∈ p.authority, isAuthorityEnd a = false
  rooted : p.authority ≠ [] → ∀ c ∈ p.path.head?, c = '/'
  path_query : '?' ∉ p.path
  path_fragment : '#' ∉ p.path
  query_fragment : '#' ∉ p.query

theorem cut_eq {s a rest' : List Char} (hs : cutScheme cs = (s, rest'))
    (ha : cutAuthority rest' = (a, rest)) :
    cut cs = ⟨s, a, before '?' (before '#' rest), after '?' (before '#' rest), after '#' rest⟩ := by
  simp [cut, hs, ha]

theorem query_not_mem_path (rest : List Char) : '?' ∉ before '?' (before '#' rest) :=
  not_mem_before _ _

theorem fragment_not_mem_path (rest : List Char) : '#' ∉ before '?' (before '#' rest) :=
  fun h => not_mem_before _ _ (mem_of_mem_before h)

theorem path_initial (rest : List Char) : before '?' (before '#' rest) <+: rest :=
  (before_initial _ _).trans (before_initial _ _)

/-- A path that begins where the authority ended begins with a slash. -/
theorem head_path_eq_slash (hrest : ∀ b ∈ rest.head?, isAuthorityEnd b) :
    ∀ c ∈ (before '?' (before '#' rest)).head?, c = '/' := by
  intro c hc
  have hq := query_not_mem_path rest
  have hf := fragment_not_mem_path rest
  obtain ⟨l, hl⟩ := path_initial rest
  have hmem : c ∈ before '?' (before '#' rest) := List.mem_of_mem_head? hc
  have hend := hrest c (by rw [← hl, List.head?_append, Option.mem_def.1 hc]; rfl)
  simp only [isAuthorityEnd, Bool.or_eq_true, beq_iff_eq] at hend
  rcases hend with (rfl | rfl) | rfl
  · rfl
  · exact absurd hmem hq
  · exact absurd hmem hf

theorem schemeless_of_head (h : ∀ c ∈ cs.head?, c = '/') : Schemeless cs := by
  cases cs with
  | nil => exact schemeless_nil
  | cons a as =>
    cases h a rfl
    exact schemeless_cons (by decide)

theorem schemeless_path {a : List Char} (h : cutAuthority cs = (a, rest)) (hs : Schemeless cs) :
    Schemeless (before '?' (before '#' rest)) := by
  rcases cutAuthority_cases cs with ⟨-, h'⟩ | ⟨a', rest', -, h', -, hrest⟩
  · cases h'.symm.trans h
    obtain ⟨l, hl⟩ := path_initial cs
    rw [← hl] at hs
    exact hs.of_append
  · cases h'.symm.trans h
    exact schemeless_of_head (head_path_eq_slash hrest)

theorem cutAuthority_spec {a : List Char} (h : cutAuthority cs = (a, rest)) :
    (∀ x ∈ a, isAuthorityEnd x = false) ∧
      (a ≠ [] → ∀ c ∈ (before '?' (before '#' rest)).head?, c = '/') := by
  rcases cutAuthority_cases cs with ⟨-, h'⟩ | ⟨a', rest', -, h', hend, hrest⟩
  · cases h'.symm.trans h
    exact ⟨by simp, fun hne => absurd rfl hne⟩
  · cases h'.symm.trans h
    exact ⟨hend, fun _ => head_path_eq_slash hrest⟩

theorem delimited_cut (cs : List Char) : (cut cs).Delimited := by
  have hqf (rest : List Char) : '#' ∉ after '?' (before '#' rest) :=
    fun h => not_mem_before _ _ (mem_of_mem_after h)
  rcases cutScheme_cases cs with ⟨hless, hs⟩ | ⟨s, rest', hscheme, -, hs⟩
  · have hauthority : cutAuthority cs = ((cutAuthority cs).1, (cutAuthority cs).2) := rfl
    obtain ⟨hend, hhead⟩ := cutAuthority_spec hauthority
    rw [cut_eq hs hauthority]
    exact ⟨fun h => absurd rfl h, rfl, fun _ => schemeless_path rfl hless, hend, hhead,
      query_not_mem_path _, fragment_not_mem_path _, hqf _⟩
  · have hauthority : cutAuthority rest' = ((cutAuthority rest').1, (cutAuthority rest').2) := rfl
    obtain ⟨hend, hhead⟩ := cutAuthority_spec hauthority
    have hne : s.map Char.toLower ≠ [] := by
      intro hnil
      rw [List.map_eq_nil_iff.1 hnil] at hscheme
      cases hscheme
    rw [cut_eq hs hauthority]
    exact ⟨fun _ => isScheme_map_toLower hscheme, map_toLower_map_toLower s,
      fun h => absurd h hne, hend, hhead, query_not_mem_path _, fragment_not_mem_path _, hqf _⟩

/-! ## Cutting the text of components -/

/-- Whether the text of a uri has a slash before its path that the path does not have: the uri is
hierarchical, has no authority, and its path does not start with a slash. -/
def Parts.isRootless (p : Parts) : Bool :=
  hierarchicalSchemes.contains p.scheme && p.authority.isEmpty && !p.path.isEmpty &&
    p.path.head? != some '/'

/-- The components that are written: a path without a root gets one. -/
def Parts.rooted (p : Parts) : Parts :=
  if p.isRootless then { p with path := '/' :: p.path } else p

/-- The query and the fragment, each with its delimiter if it is there. -/
def Parts.tail (p : Parts) : List Char := delimited '?' p.query ++ delimited '#' p.fragment

theorem Parts.text_eq (p : Parts) :
    p.text = schemeText p.scheme ++ (hierarchyText p ++ p.tail) := by
  simp [Parts.text, Parts.tail]

theorem Parts.head_tail (p : Parts) : ∀ b ∈ p.tail.head?, b = '?' ∨ b = '#' := by
  obtain ⟨_, _, _, query, fragment⟩ := p
  intro b hb
  cases query with
  | cons q qs => exact .inl (Option.some.inj hb).symm
  | nil =>
    cases fragment with
    | cons f fs => exact .inr (Option.some.inj hb).symm
    | nil => cases hb

theorem Parts.isAuthorityEnd_head_tail (p : Parts) : ∀ b ∈ p.tail.head?, isAuthorityEnd b := by
  intro b hb
  rcases p.head_tail b hb with rfl | rfl <;> decide

theorem Parts.rooted_eq (p : Parts) : p.rooted = { p with path := p.rooted.path } := by
  unfold Parts.rooted
  split <;> rfl

theorem mem_path_rooted {c : Char} (h : c ∈ p.rooted.path) : c = '/' ∨ c ∈ p.path := by
  unfold Parts.rooted at h
  split at h
  · exact List.mem_cons.1 h
  · exact .inr h

theorem head_of_startsWithSlashes (h : startsWithSlashes cs) : cs.head? = some '/' := by
  unfold startsWithSlashes at h
  split at h
  · rfl
  · cases h

theorem Parts.rooted_of_head (h : ∀ c ∈ p.path.head?, c = '/') : p.rooted = p := by
  refine if_neg ?_
  cases hp : p.path with
  | nil => simp [Parts.isRootless, hp]
  | cons c cs =>
    have hc : c = '/' := h c (by rw [hp]; rfl)
    simp [Parts.isRootless, hp, hc]

theorem Parts.rooted_of_not_hierarchical (h : hierarchicalSchemes.contains p.scheme = false) :
    p.rooted = p := by
  refine if_neg ?_
  rw [Parts.isRootless, h]
  simp

theorem Parts.head_rooted (ha : p.authority = [])
    (hs : hierarchicalSchemes.contains p.scheme) : ∀ c ∈ p.rooted.path.head?, c = '/' := by
  intro c hc
  by_cases hroot : p.isRootless
  · rw [Parts.rooted, if_pos hroot] at hc
    exact (Option.some.inj hc).symm
  · rw [Parts.rooted, if_neg hroot] at hc
    cases hp : p.path with
    | nil => simp [hp] at hc
    | cons a as => simp_all [Parts.isRootless]

/-- Two slashes, the authority, and the path, after a slash if it does not start with one. -/
theorem hierarchyText_of_announced
    (h : p.authority ≠ [] ∨ hierarchicalSchemes.contains p.scheme)
    (hn : p.authority = [] → startsWithSlashes p.path = false) :
    hierarchyText p = '/' :: '/' :: p.authority ++
      (if p.path.isEmpty || p.path.head? == some '/' then [] else ['/']) ++ p.path := by
  have hn' : (p.authority.isEmpty && startsWithSlashes p.path) = false := by
    simpa [List.isEmpty_iff] using hn
  have h' : (!p.authority.isEmpty || hierarchicalSchemes.contains p.scheme) = true := by
    simpa [List.isEmpty_iff] using h
  simp only [hierarchyText, hn', h', if_true, Bool.false_eq_true, if_false]

/-- The text between the scheme and the query: two slashes, the authority and the path that is
written, or just the path. -/
theorem Parts.Delimited.hierarchyText_cases (h : p.Delimited) :
    (hierarchyText p = '/' :: '/' :: (p.authority ++ p.rooted.path) ∧
      ∀ c ∈ p.rooted.path.head?, c = '/') ∨
    (p.authority = [] ∧ startsWithSlashes p.path = false ∧ hierarchyText p = p.path ∧
      p.rooted = p) := by
  by_cases hauth : p.authority = []
  · by_cases hslashes : startsWithSlashes p.path
    · -- the empty authority is written out
      have hhead := head_of_startsWithSlashes hslashes
      have hroot : ∀ c ∈ p.path.head?, c = '/' := by simp [hhead]
      rw [Parts.rooted_of_head hroot]
      exact .inl ⟨by simp [hierarchyText, hauth, hslashes], hroot⟩
    · have hn : startsWithSlashes p.path = false := by simpa using hslashes
      by_cases hs : hierarchicalSchemes.contains p.scheme
      · refine .inl ⟨?_, Parts.head_rooted hauth hs⟩
        rw [hierarchyText_of_announced (.inr hs) fun _ => hn, Parts.rooted, Parts.isRootless, hs,
          hauth]
        cases hp : p.path with
        | nil => simp [hp]
        | cons c cs => by_cases hc : c = '/' <;> simp [hp, hc]
      · have hs' : hierarchicalSchemes.contains p.scheme = false := by simpa using hs
        refine .inr ⟨hauth, hn, ?_, Parts.rooted_of_not_hierarchical hs'⟩
        simp only [hierarchyText, hauth, hn, hs', List.isEmpty_nil, Bool.and_false, Bool.not_true,
          Bool.or_false, Bool.false_eq_true, if_false]
  · have hroot := h.rooted hauth
    rw [Parts.rooted_of_head hroot, hierarchyText_of_announced (.inl hauth) (absurd · hauth)]
    refine .inl ⟨?_, hroot⟩
    cases hp : p.path with
    | nil => simp
    | cons c cs =>
      have hc : c = '/' := hroot c (by rw [hp]; rfl)
      simp [hc]

theorem startsWithSlashes_cons_cons (a b : Char) (cs : List Char) :
    startsWithSlashes (a :: b :: cs) = (a == '/' && b == '/') := by
  by_cases ha : a = '/' <;> by_cases hb : b = '/' <;> simp [startsWithSlashes, ha, hb]

theorem startsWithSlashes_append {as bs : List Char} (h : startsWithSlashes as = false)
    (hb : ∀ b ∈ bs.head?, b ≠ '/') : startsWithSlashes (as ++ bs) = false := by
  match as, bs with
  | [], [] => rfl
  | [], b :: bs => simp [startsWithSlashes, hb b rfl]
  | [a], [] => simpa using h
  | [a], b :: bs => simp [startsWithSlashes, hb b rfl]
  | a :: a' :: as, bs => simpa only [List.cons_append, startsWithSlashes_cons_cons] using h

theorem Parts.isRootless_iff : p.isRootless ↔ hierarchicalSchemes.contains p.scheme ∧
    p.authority = [] ∧ ∃ c cs, p.path = c :: cs ∧ c ≠ '/' := by
  cases hp : p.path <;> simp [isRootless, hp, and_assoc]

/-- The root that is written before a path is not written twice. -/
theorem Parts.text_rooted (p : Parts) : p.rooted.text = p.text := by
  rw [Parts.rooted]
  split
  · next hroot =>
    obtain ⟨hs, ha, c, cs, hp, hc⟩ := Parts.isRootless_iff.1 hroot
    have hrooted : hierarchyText { p with path := '/' :: p.path } = hierarchyText p := by
      simp only [hierarchyText, ha, hs, hp, List.isEmpty_nil, startsWithSlashes_cons_cons]
      simp [startsWithSlashes, hc]
    simp only [Parts.text, hrooted]
  · rfl

theorem Parts.Delimited.cutAuthority_text (h : p.Delimited) :
    cutAuthority (hierarchyText p ++ p.tail) = (p.authority, p.rooted.path ++ p.tail) := by
  rcases h.hierarchyText_cases with ⟨htext, hhead⟩ | ⟨hauth, hslashes, htext, hroot⟩
  · have hend : ∀ b ∈ (p.rooted.path ++ p.tail).head?, isAuthorityEnd b := by
      intro b hb
      cases hp : p.rooted.path with
      | nil =>
        rw [hp, List.nil_append] at hb
        exact p.isAuthorityEnd_head_tail b hb
      | cons c cs =>
        rw [hp] at hb
        cases hb
        rw [hhead b (by rw [hp]; rfl)]
        decide
    rw [htext, List.cons_append, List.cons_append, List.append_assoc]
    exact cutAuthority_slashes h.authority hend
  · have hne : ∀ b ∈ p.tail.head?, b ≠ '/' := by
      intro b hb
      rcases p.head_tail b hb with rfl | rfl <;> decide
    rw [htext, hroot, hauth]
    exact cutAuthority_of_not_startsWithSlashes (startsWithSlashes_append hslashes hne)

theorem Parts.Delimited.cutScheme_text (h : p.Delimited) :
    cutScheme p.text = (p.scheme, hierarchyText p ++ p.tail) := by
  rw [p.text_eq]
  by_cases hs : p.scheme = []
  · have hless : Schemeless (hierarchyText p ++ p.tail) := by
      rcases h.hierarchyText_cases with ⟨htext, -⟩ | ⟨-, -, htext, -⟩
      · rw [htext]
        exact schemeless_cons (by decide)
      · rw [htext]
        exact (h.schemeless hs).append p.isAuthorityEnd_head_tail
    rw [hs]
    exact cutScheme_of_schemeless hless
  · have htext : schemeText p.scheme = p.scheme ++ [':'] := by simp [schemeText, hs]
    rw [htext, List.append_assoc, List.singleton_append, cutScheme_append (h.scheme hs), h.lowered]

/-- Delimited components are cut out of their text again, but for the slash that is written before
a path without a root. -/
theorem cut_text (h : p.Delimited) : cut p.text = p.rooted := by
  have hpath : '?' ∉ p.rooted.path := fun hc => by
    rcases mem_path_rooted hc with hc | hc
    · exact absurd hc (by decide)
    · exact h.path_query hc
  have hmain : '#' ∉ p.rooted.path ++ delimited '?' p.query := fun hc => by
    rcases List.mem_append.1 hc with hc | hc
    · rcases mem_path_rooted hc with hc | hc
      · exact absurd hc (by decide)
      · exact h.path_fragment hc
    · rcases mem_delimited hc with hc | hc
      · exact absurd hc (by decide)
      · exact h.query_fragment hc
  rw [cut_eq h.cutScheme_text h.cutAuthority_text, Parts.tail, ← List.append_assoc,
    before_append_delimited hmain, after_append_delimited hmain, before_append_delimited hpath,
    after_append_delimited hpath, ← Parts.rooted_eq]

/-! ## Characters -/

theorem mem_cutScheme {c : Char} (h : c ∈ (cutScheme cs).2) : c ∈ cs := by
  rcases cutScheme_cases cs with ⟨-, hs⟩ | ⟨s, rest, -, hcs, hs⟩
  · rwa [hs] at h
  · rw [hs] at h
    rw [hcs]
    exact List.mem_append_right _ (List.mem_cons_of_mem _ h)

theorem mem_cutAuthority {c : Char}
    (h : c ∈ (cutAuthority cs).1 ∨ c ∈ (cutAuthority cs).2) : c ∈ cs := by
  rcases cutAuthority_cases cs with ⟨-, ha⟩ | ⟨authority, rest, hcs, ha, -, -⟩
  · simpa [ha] using h
  · rw [ha] at h
    rw [hcs]
    exact List.mem_cons_of_mem _ (List.mem_cons_of_mem _ (List.mem_append.2 h))

/-- No component has a character that never occurs in a uri. -/
def Parts.Allowed (p : Parts) : Prop :=
  ∀ c ∈ p.scheme ++ p.authority ++ p.path ++ p.query ++ p.fragment, isForbidden c = false

theorem allowed_cut (h : ∀ c ∈ cs, isForbidden c = false) : (cut cs).Allowed := by
  intro c hc
  have hrest : c ∈ (cutAuthority (cutScheme cs).2).2 → isForbidden c = false :=
    fun hr => h c (mem_cutScheme (mem_cutAuthority (.inr hr)))
  simp only [List.mem_append] at hc
  rcases hc with (((hc | hc) | hc) | hc) | hc
  · by_cases hs : (cut cs).scheme = []
    · rw [hs] at hc
      cases hc
    · exact not_isForbidden_of_isSchemeChar (isSchemeChar_of_mem ((delimited_cut cs).scheme hs) hc)
  · exact h c (mem_cutScheme (mem_cutAuthority (.inl hc)))
  · exact hrest (mem_of_mem_before (mem_of_mem_before hc))
  · exact hrest (mem_of_mem_before (mem_of_mem_after hc))
  · exact hrest (mem_of_mem_after hc)

theorem Parts.Delimited.allowed_text (h : p.Delimited) (ha : p.Allowed) :
    ∀ c ∈ p.text, isForbidden c = false := by
  have hpath : ∀ c ∈ p.rooted.path, isForbidden c = false := by
    intro c hc
    rcases mem_path_rooted hc with rfl | hc
    · decide
    · exact ha c (by simp [hc])
  have htail : ∀ c ∈ p.tail, isForbidden c = false := by
    intro c hc
    rcases List.mem_append.1 hc with hc | hc <;> rcases mem_delimited hc with rfl | hc
    · decide
    · exact ha c (by simp [hc])
    · decide
    · exact ha c (by simp [hc])
  have hier : ∀ c ∈ hierarchyText p, isForbidden c = false := by
    intro c hc
    rcases h.hierarchyText_cases with ⟨htext, -⟩ | ⟨-, -, htext, hroot⟩
    · rw [htext] at hc
      simp only [List.mem_cons, List.mem_append] at hc
      rcases hc with rfl | rfl | hc | hc
      · decide
      · decide
      · exact ha c (by simp [hc])
      · exact hpath c hc
    · rw [htext, ← hroot] at hc
      exact hpath c hc
  intro c hc
  rw [p.text_eq, List.mem_append, List.mem_append] at hc
  rcases hc with hc | hc | hc
  · unfold schemeText at hc
    split at hc
    · cases hc
    · rcases List.mem_append.1 hc with hc | hc
      · exact ha c (by simp [hc])
      · rw [List.mem_singleton.1 hc]
        decide
  · exact hier c hc
  · exact htail c hc

/-! ## Parsing -/

theorem parse_eq_ok_iff {s : String} {u : Uri} :
    parse s = .ok u ↔ s.toList ≠ [] ∧ (∀ c ∈ s.toList, isForbidden c = false) ∧
      checkAuthority (cut s.toList).authority = .ok () ∧ u = ofParts (cut s.toList) := by
  unfold parse
  by_cases hempty : s.toList = []
  · rw [if_pos (List.isEmpty_iff.2 hempty)]
    exact ⟨fun h => (nomatch h), fun h => absurd hempty h.1⟩
  rw [if_neg (mt List.isEmpty_iff.1 hempty)]
  by_cases hforbidden : s.toList.any isForbidden
  · obtain ⟨c, hc, hf⟩ := List.any_eq_true.1 hforbidden
    rw [if_pos hforbidden]
    refine ⟨fun h => (nomatch h), fun h => ?_⟩
    rw [h.2.1 c hc] at hf
    cases hf
  · have hall : ∀ c ∈ s.toList, isForbidden c = false := by simpa using hforbidden
    rw [if_neg hforbidden]
    change (checkAuthority (cut s.toList).authority >>= fun _ => pure (ofParts (cut s.toList))) =
      .ok u ↔ _
    cases checkAuthority (cut s.toList).authority with
    | error flaw => exact ⟨fun h => (nomatch h), fun h => (nomatch h.2.2.1)⟩
    | ok =>
      constructor
      · intro h
        cases h
        exact ⟨hempty, hall, rfl, rfl⟩
      · rintro ⟨-, -, -, rfl⟩
        rfl

theorem Parts.Delimited.text_eq_nil_iff (h : p.Delimited) :
    p.text = [] ↔ p = ⟨[], [], [], [], []⟩ := by
  constructor
  · intro hnil
    rw [p.text_eq] at hnil
    obtain ⟨hs, hnil⟩ := List.append_eq_nil_iff.1 hnil
    obtain ⟨hier, htail⟩ := List.append_eq_nil_iff.1 hnil
    obtain ⟨hq, hf⟩ := List.append_eq_nil_iff.1 htail
    rcases h.hierarchyText_cases with ⟨htext, -⟩ | ⟨hauth, -, htext, -⟩
    · cases htext.symm.trans hier
    · obtain ⟨scheme, authority, path, query, fragment⟩ := p
      simp_all [schemeText, delimited]
  · rintro rfl
    rfl

/-- The canonical text of a parsed uri is parsed as the uri that was written. -/
theorem parse_text {s : String} {u : Uri} (h : parse s = .ok u) (hne : u.text ≠ "") :
    parse u.text = .ok (ofParts u.parts.rooted) := by
  obtain ⟨-, hforbidden, hcheck, rfl⟩ := parse_eq_ok_iff.1 h
  have hdel := delimited_cut s.toList
  have hcut := cut_text hdel
  have hauth : (cut s.toList).rooted.authority = (cut s.toList).authority := by
    rw [Parts.rooted_eq]
  rw [parse_eq_ok_iff, toList_text, parts_ofParts, hcut, hauth]
  refine ⟨fun hnil => hne ?_, hdel.allowed_text (allowed_cut hforbidden), hcheck, rfl⟩
  rw [text, parts_ofParts, hnil]

/-- The canonical text of a parsed uri is parsed as a uri with that canonical text. -/
theorem exists_parse_text {s : String} {u : Uri} (h : parse s = .ok u) (hne : u.text ≠ "") :
    ∃ u', parse u.text = .ok u' ∧ u'.text = u.text := by
  refine ⟨_, parse_text h hne, ?_⟩
  rw [text, parts_ofParts, Parts.text_rooted, text]

theorem text_eq_empty_iff {s : String} {u : Uri} (h : parse s = .ok u) :
    u.text = "" ↔ u = ⟨"", "", "", "", ""⟩ := by
  obtain ⟨-, -, -, rfl⟩ := parse_eq_ok_iff.1 h
  rw [← String.toList_eq_nil_iff, toList_text, parts_ofParts, (delimited_cut _).text_eq_nil_iff]
  constructor
  · intro hp
    rw [hp]
    rfl
  · intro hu
    rw [← parts_ofParts (cut s.toList), hu]
    rfl

theorem ofParts_rooted (hroot : p.isRootless) :
    ofParts p.rooted = { ofParts p with path := "/" ++ (ofParts p).path } := by
  rw [Parts.rooted, if_pos hroot]
  simp [ofParts, UriOf.map]

/-- The canonical text of a parsed uri is parsed as the same uri again exactly if some component
is there and the path has its root. Without any component there is no text to parse, and a path
without a root comes back with one. -/
theorem parse_text_eq_self_iff {s : String} {u : Uri} (h : parse s = .ok u) :
    (parse u.text = .ok u ↔ u ≠ ⟨"", "", "", "", ""⟩ ∧ u.parts.isRootless = false) ∧
      (u = ⟨"", "", "", "", ""⟩ → parse u.text = .error .empty) ∧
      (u.parts.isRootless → parse u.text = .ok { u with path := "/" ++ u.path }) := by
  have hblank : u = ⟨"", "", "", "", ""⟩ → parse u.text = .error .empty := by
    rintro rfl
    rfl
  have hroot : u.parts.isRootless → parse u.text = .ok { u with path := "/" ++ u.path } := by
    intro hr
    have hne : u.text ≠ "" := by
      rw [Ne, text_eq_empty_iff h]
      rintro rfl
      cases hr
    rw [parse_text h hne, ofParts_rooted hr, ofParts_parts]
  refine ⟨⟨fun hself => ⟨?_, ?_⟩, fun ⟨hne, hr⟩ => ?_⟩, hblank, hroot⟩
  · intro hu
    cases (hblank hu).symm.trans hself
  · rw [Bool.eq_false_iff]
    intro hr
    have hpath := congrArg (·.path.length) (Except.ok.inj ((hroot hr).symm.trans hself))
    simp at hpath
  · rw [parse_text h (mt (text_eq_empty_iff h).1 hne), Parts.rooted, if_neg (by simp [hr]),
      ofParts_parts]

theorem parse_text_eq_self_bracketed :
    parse "HTTP://a@[::1]:80/x?y=z#f" = .ok ⟨"http", "a@[::1]:80", "/x", "y=z", "f"⟩ ∧
      parse (text ⟨"http", "a@[::1]:80", "/x", "y=z", "f"⟩) =
        .ok ⟨"http", "a@[::1]:80", "/x", "y=z", "f"⟩ :=
  ⟨rfl, (parse_text_eq_self_iff (s := "HTTP://a@[::1]:80/x?y=z#f") rfl).1.2
    ⟨by decide, by decide⟩⟩

/-- A path without a root is not parsed again as it was. -/
theorem parse_text_ne_self_rootless :
    parse "http:path" = .ok ⟨"http", "", "path", "", ""⟩ ∧
      parse (text ⟨"http", "", "path", "", ""⟩) ≠ .ok ⟨"http", "", "path", "", ""⟩ := by
  have hparse : parse "http:path" = .ok ⟨"http", "", "path", "", ""⟩ := rfl
  have htext : parse (text ⟨"http", "", "path", "", ""⟩) = .ok ⟨"http", "", "/path", "", ""⟩ := rfl
  refine ⟨hparse, fun h => ?_⟩
  have hpath := congrArg (·.path) (Except.ok.inj (htext.symm.trans h))
  exact absurd hpath (by decide)

end MediaBridge.Uri
