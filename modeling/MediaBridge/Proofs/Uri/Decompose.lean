import MediaBridge.Conversion.Description
import MediaBridge.Proofs.Uri.Reparse

/-!
# Parsed uris as decompositions

Parsing takes a text apart without losing a character or moving it to another component
(`spells_cut`), and no component contains what would have ended it. Any other value is refused, and
shown if it has a literal. Main statement: `Value.toUri_decomposes`.
-/

namespace MediaBridge.Uri

variable {cs rest authority : List Char} {s : String} {u : Uri}

/-! ## Spelling -/

/-- How a component is written that follows a mark: without the mark only if it is empty. -/
inductive Marked (mark : List Char) : List Char → List Char → Prop
  | absent : Marked mark [] []
  | written (component : List Char) : Marked mark component (mark ++ component)

/-- How a scheme is written: in letters of either case and with its colon, or not at all. -/
inductive SchemeSpelled : List Char → List Char → Prop
  | absent : SchemeSpelled [] []
  | written (spelling : List Char) : SchemeSpelled (spelling.map Char.toLower) (spelling ++ [':'])

/-- Whether a text consists of the components in their order, each with its mark unless it is not
written at all. -/
def Parts.Spells (p : Parts) (cs : List Char) : Prop :=
  ∃ scheme authority query fragment, SchemeSpelled p.scheme scheme ∧
    Marked ['/', '/'] p.authority authority ∧ Marked ['?'] p.query query ∧
    Marked ['#'] p.fragment fragment ∧
    cs = scheme ++ (authority ++ (p.path ++ (query ++ fragment)))

theorem exists_marked_after (c : Char) (cs : List Char) :
    ∃ written, Marked [c] (after c cs) written ∧ before c cs ++ written = cs := by
  by_cases h : c ∈ cs
  · exact ⟨_, .written _, before_append_after h⟩
  · have hafter : after c cs = [] := by
      rw [← List.append_nil cs, after_append_of_not_mem h]
      rfl
    rw [hafter]
    exact ⟨[], .absent, by rw [List.append_nil, before_eq_self h]⟩

theorem exists_spelled_cutScheme (cs : List Char) :
    ∃ written, SchemeSpelled (cutScheme cs).1 written ∧ written ++ (cutScheme cs).2 = cs := by
  rcases cutScheme_cases cs with ⟨-, hcut⟩ | ⟨s, rest, -, hcs, hcut⟩
  · rw [hcut]
    exact ⟨[], .absent, rfl⟩
  · rw [hcut, hcs]
    refine ⟨_, .written s, ?_⟩
    rw [List.append_assoc]
    rfl

theorem exists_marked_cutAuthority (cs : List Char) :
    ∃ written, Marked ['/', '/'] (cutAuthority cs).1 written ∧
      written ++ (cutAuthority cs).2 = cs := by
  rcases cutAuthority_cases cs with ⟨-, hcut⟩ | ⟨authority, rest, hcs, hcut, -, -⟩
  · rw [hcut]
    exact ⟨[], .absent, rfl⟩
  · rw [hcut, hcs]
    exact ⟨_, .written authority, rfl⟩

/-- A text consists of the components it is cut into. -/
theorem spells_cut (cs : List Char) : (cut cs).Spells cs := by
  obtain ⟨scheme, hscheme, hrest⟩ := exists_spelled_cutScheme cs
  obtain ⟨authority, hauthority, hrest'⟩ := exists_marked_cutAuthority (cutScheme cs).2
  obtain ⟨fragment, hfragment, hmain⟩ := exists_marked_after '#' (cutAuthority (cutScheme cs).2).2
  obtain ⟨query, hquery, hpath⟩ :=
    exists_marked_after '?' (before '#' (cutAuthority (cutScheme cs).2).2)
  refine ⟨scheme, authority, query, fragment, hscheme, hauthority, hquery, hfragment, ?_⟩
  calc cs = scheme ++ (cutScheme cs).2 := hrest.symm
    _ = scheme ++ (authority ++ (cutAuthority (cutScheme cs).2).2) := by rw [hrest']
    _ = scheme ++ (authority ++ (before '#' (cutAuthority (cutScheme cs).2).2 ++ fragment)) := by
      rw [hmain]
    _ = scheme ++ (authority ++ ((cut cs).path ++ query ++ fragment)) := by
      rw [← hpath]
      rfl
    _ = scheme ++ (authority ++ ((cut cs).path ++ (query ++ fragment))) := by
      rw [List.append_assoc (cut cs).path]

/-! ## Authorities -/

theorem checks_of_checkAuthority (h : checkAuthority authority = .ok ()) :
    checkBrackets authority = .ok () ∧ checkFolding authority = .ok () ∧
      checkPort authority = .ok () := by
  unfold checkAuthority at h
  cases hbrackets : checkBrackets authority with
  | error flaw =>
    rw [hbrackets] at h
    cases h
  | ok _ =>
    cases hfolding : checkFolding authority with
    | error flaw =>
      rw [hbrackets, hfolding] at h
      cases h
    | ok _ =>
      rw [hbrackets, hfolding] at h
      exact ⟨rfl, rfl, h⟩

theorem brackets_of_checkBrackets (h : checkBrackets authority = .ok ()) :
    '[' ∈ authority ↔ ']' ∈ authority := by
  unfold checkBrackets at h
  split at h
  · cases h
  · next hbrackets =>
    rw [← List.contains_iff_mem, ← List.contains_iff_mem]
    simpa using hbrackets

theorem port_of_checkPort (h : checkPort authority = .ok ()) :
    portText authority = [] ∨
      (∀ c ∈ portText authority, c.isDigit) ∧ decimalValue (portText authority) ≤ maxPort := by
  simp only [checkPort] at h
  split at h
  · next hempty => exact .inl (List.isEmpty_iff.1 hempty)
  · split at h
    · cases h
    · next hdigits =>
      split at h
      · cases h
      · split at h
        · cases h
        · next hrange =>
          have hall : (portText authority).all Char.isDigit = true := by simpa using hdigits
          exact .inr ⟨List.all_eq_true.1 hall, Nat.not_lt.1 hrange⟩

/-! ## Decompositions -/

/-- What a uri that was parsed has to do with its text. -/
structure Decomposes (s : String) (u : Uri) : Prop where
  spelled : u.parts.Spells s.toList
  allowed : u.parts.Allowed
  scheme : u.scheme = "" ∨
    isScheme u.scheme.toList ∧ ∀ c ∈ u.scheme.toList, isSchemeChar c ∧ c.toLower = c
  authority : ∀ c ∈ u.authority.toList, c ≠ '/' ∧ c ≠ '?' ∧ c ≠ '#'
  path : '?' ∉ u.path.toList ∧ '#' ∉ u.path.toList
  query : '#' ∉ u.query.toList
  rooted : u.authority ≠ "" → u.path = "" ∨ u.path.toList.head? = some '/'
  brackets : '[' ∈ u.authority.toList ↔ ']' ∈ u.authority.toList
  port : portText u.authority.toList = [] ∨
    (∀ c ∈ portText u.authority.toList, c.isDigit) ∧
      decimalValue (portText u.authority.toList) ≤ 65535

/-- A parsed uri is a decomposition of its text. -/
theorem decomposes_of_parse (h : parse s = .ok u) : Decomposes s u := by
  obtain ⟨-, hforbidden, hcheck, rfl⟩ := parse_eq_ok_iff.1 h
  obtain ⟨hbrackets, -, hport⟩ := checks_of_checkAuthority hcheck
  obtain ⟨hscheme, hlowered, -, hauthority, hrooted, hpq, hpf, hqf⟩ := delimited_cut s.toList
  generalize hcut : cut s.toList = p at *
  have hspelled := spells_cut s.toList
  have hallowed := allowed_cut hforbidden
  rw [hcut] at hspelled hallowed
  obtain ⟨scheme, authority, path, query, fragment⟩ := p
  refine ⟨?_, ?_, ?_, ?_, ?_, ?_, ?_, ?_, ?_⟩
  · rwa [parts_ofParts]
  · rwa [parts_ofParts]
  · by_cases hne : scheme = []
    · exact .inl (by rw [hne]; rfl)
    · have hs := hscheme hne
      refine .inr ?_
      simp only [ofParts, UriOf.map, String.toList_ofList]
      refine ⟨hs, fun c hc => ⟨isSchemeChar_of_mem hs hc, ?_⟩⟩
      obtain ⟨i, hi, rfl⟩ := List.mem_iff_getElem.1 hc
      have hget := List.getElem_of_eq hlowered (by simpa using hi)
      rwa [List.getElem_map] at hget
  · simp only [ofParts, UriOf.map, String.toList_ofList]
    intro c hc
    have hend := hauthority c hc
    simpa [isAuthorityEnd, and_assoc] using hend
  · simpa only [ofParts, UriOf.map, String.toList_ofList] using ⟨hpq, hpf⟩
  · simpa only [ofParts, UriOf.map, String.toList_ofList] using hqf
  · simp only [ofParts, UriOf.map, String.toList_ofList]
    intro hne
    have hne' : authority ≠ [] := by
      rintro rfl
      exact hne rfl
    cases path with
    | nil => exact .inl rfl
    | cons c cs => exact .inr (congrArg some (hrooted hne' c rfl))
  · simpa only [ofParts, UriOf.map, String.toList_ofList] using
      brackets_of_checkBrackets hbrackets
  · simpa only [ofParts, UriOf.map, String.toList_ofList, maxPort] using port_of_checkPort hport

end MediaBridge.Uri

namespace MediaBridge

/-! ## Values that are parsed -/

namespace Value

variable {v : Value} {u : Uri} {f : Fault}

theorem toUri_of_text?_eq_none (h : v.text? = Option.none) :
    v.toUri = .error (.ofFlaw v .notText) := by
  cases v with
  | text w => cases h
  | _ => rfl

theorem toUri_eq_ok_iff : v.toUri = .ok u ↔ ∃ s, v.text? = some s ∧ Uri.parse s = .ok u := by
  cases v with
  | text w =>
    have hparse : toUri (.text w) = .ok u ↔ Uri.parse w.text = .ok u := by
      rw [toUri]
      cases Uri.parse w.text <;> simp [Except.mapError]
    simp only [hparse, text?, Option.some.injEq, exists_eq_left']
  | _ => simp [toUri, text?]

theorem toUri_eq_ok_iff_cut : v.toUri = .ok u ↔ ∃ s, v.text? = some s ∧ s ≠ "" ∧
    (∀ c ∈ s.toList, Uri.isForbidden c = false) ∧
    Uri.checkAuthority (Uri.cut s.toList).authority = .ok () ∧
    u = Uri.ofParts (Uri.cut s.toList) := by
  simp only [toUri_eq_ok_iff, Uri.parse_eq_ok_iff, ne_eq, String.toList_eq_nil_iff]

theorem exists_flaw_of_toUri (h : v.toUri = .error f) : ∃ flaw, f = .ofFlaw v flaw := by
  cases v with
  | text w =>
    rw [toUri] at h
    cases hparse : Uri.parse w.text with
    | error flaw =>
      rw [hparse] at h
      cases h
      exact ⟨flaw, rfl⟩
    | ok u =>
      rw [hparse] at h
      cases h
  | _ => exact ⟨.notText, (Except.error.inj h).symm⟩

/-- Only a value without a literal is refused without being named, and a text always has one. -/
theorem toUri_eq_tooLongToWrite_iff :
    v.toUri = .error (.invalid .tooLongToWrite) ↔ v.literal? = Option.none := by
  constructor
  · intro h
    obtain ⟨flaw, hflaw⟩ := exists_flaw_of_toUri h
    rcases Fault.ofFlaw_cases v flaw with hmalformed | ⟨hnone, -⟩
    · cases hflaw.trans hmalformed
    · exact hnone
  · intro h
    have htext : v.text? = Option.none := by
      cases v with
      | text w => cases h
      | _ => rfl
    rw [toUri_of_text?_eq_none htext, Fault.ofFlaw, h]
    rfl

/-- A value is refused as malformed, unless it cannot even be shown, or it is a text that the parsed
uri decomposes. The texts that are parsed are not empty, have no forbidden character and have an
authority that passes the checks. -/
theorem toUri_decomposes (v : Value) :
    ((∃ flaw, v.toUri = .error (.malformedUri v flaw)) ∨
      v.toUri = .error (.invalid .tooLongToWrite) ∨
      ∃ s u, v.text? = some s ∧ s ≠ "" ∧ v.toUri = .ok u ∧ Uri.Decomposes s u) ∧
    (v.toUri = .error (.invalid .tooLongToWrite) ↔ v.literal? = Option.none) ∧
    ∀ u, v.toUri = .ok u ↔ ∃ s, v.text? = some s ∧ s ≠ "" ∧
      (∀ c ∈ s.toList, Uri.isForbidden c = false) ∧
      Uri.checkAuthority (Uri.cut s.toList).authority = .ok () ∧
      u = Uri.ofParts (Uri.cut s.toList) := by
  refine ⟨?_, toUri_eq_tooLongToWrite_iff, fun _ => toUri_eq_ok_iff_cut⟩
  cases h : v.toUri with
  | error f =>
    obtain ⟨flaw, rfl⟩ := exists_flaw_of_toUri h
    rcases Fault.ofFlaw_cases v flaw with hmalformed | ⟨-, hlong⟩
    · exact .inl ⟨flaw, by rw [hmalformed]⟩
    · exact .inr (.inl (by rw [hlong]))
  | ok u =>
    obtain ⟨s, hs, hparse⟩ := toUri_eq_ok_iff.1 h
    obtain ⟨s', hs', hne, -⟩ := toUri_eq_ok_iff_cut.1 h
    cases hs.symm.trans hs'
    exact .inr (.inr ⟨s, u, hs, hne, rfl, Uri.decomposes_of_parse hparse⟩)

/-- A text with all five components. -/
theorem toUri_decomposes_full :
    ∃ u, (ofString "HTTP://u@h:80/p?q#f").toUri = .ok u ∧
      u.parts = ⟨"http".toList, "u@h:80".toList, "/p".toList, "q".toList, "f".toList⟩ ∧
      Uri.Decomposes "HTTP://u@h:80/p?q#f" u := by
  obtain ⟨hcases, -, haccepted⟩ := toUri_decomposes (ofString "HTTP://u@h:80/p?q#f")
  have hok := (haccepted _).2 ⟨_, rfl, by decide, by simp [Uri.isForbidden], by decide, rfl⟩
  refine ⟨_, hok, by decide, ?_⟩
  rcases hcases with ⟨flaw, h⟩ | h | ⟨s, u, hs, -, hu, hdecomposes⟩
  · cases hok.symm.trans h
  · cases hok.symm.trans h
  · cases hs
    cases hok.symm.trans hu
    exact hdecomposes

/-- An integer with too many digits is not refused as malformed, and is no text either. -/
theorem toUri_of_long :
    (∀ flaw, (ofInt (Text.tenPow 5000)).toUri ≠
        .error (.malformedUri (ofInt (Text.tenPow 5000)) flaw)) ∧
      (ofInt (Text.tenPow 5000)).text? = Option.none := by
  have hrefused : (ofInt (Text.tenPow 5000)).toUri = .error (.invalid .tooLongToWrite) :=
    toUri_eq_tooLongToWrite_iff.2 (literal?_ofInt_tenPow (by decide))
  refine ⟨fun flaw hmalformed => ?_, rfl⟩
  cases hrefused.symm.trans hmalformed

end Value

end MediaBridge
