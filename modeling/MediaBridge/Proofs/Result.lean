import Mathlib.Data.List.Forall2
import MediaBridge.Logging.Traced

/-!
# Results

Operations that may fail, and operations that report on their way, one step at a time.
-/

namespace MediaBridge

variable {α β : Type}

@[simp] theorem ok_bind (a : α) (f : α → Except Fault β) : (Except.ok a >>= f) = f a := rfl

@[simp] theorem error_bind (e : Fault) (f : α → Except Fault β) :
    (Except.error e >>= f) = .error e := rfl

@[simp] theorem map_ok (f : α → β) (a : α) : f <$> (Except.ok a : Except Fault α) = .ok (f a) := rfl

theorem bind_eq_ok_iff {x : Except Fault α} {f : α → Except Fault β} {b : β} :
    x >>= f = .ok b ↔ ∃ a, x = .ok a ∧ f a = .ok b := by
  cases x with
  | error e =>
    constructor
    · intro h
      cases h
    · rintro ⟨a, ha, -⟩
      cases ha
  | ok a =>
    constructor
    · intro h
      exact ⟨a, rfl, h⟩
    · rintro ⟨a', ha, h⟩
      cases ha
      exact h

theorem forM_eq_ok {l : List α} {f : α → Except Fault Unit} (h : ∀ a ∈ l, f a = .ok ()) :
    l.forM f = .ok () := by
  induction l with
  | nil => rfl
  | cons a l ih =>
    change (f a >>= fun _ => l.forM f) = .ok ()
    rw [h a List.mem_cons_self, ok_bind]
    exact ih fun a' hmem => h a' (List.mem_cons_of_mem _ hmem)

theorem mapM_eq_ok_iff {f : α → Except Fault β} {l : List α} {l' : List β} :
    l.mapM f = .ok l' ↔ l.Forall₂ (fun a b => f a = .ok b) l' := by
  induction l generalizing l' with
  | nil =>
    rw [List.forall₂_nil_left_iff]
    exact ⟨fun h => (Except.ok.inj h).symm, fun h => h ▸ rfl⟩
  | cons a l ih =>
    simp only [List.mapM_cons, bind_eq_ok_iff, List.forall₂_cons_left_iff, ih]
    constructor
    · rintro ⟨b, hb, bs, hbs, h⟩
      exact ⟨b, bs, hb, hbs, (Except.ok.inj h).symm⟩
    · rintro ⟨b, bs, hb, hbs, rfl⟩
      exact ⟨b, hb, bs, hbs, rfl⟩

/-- What every successful step keeps up holds after a successful run. -/
theorem foldlM_preserves {f : β → α → Except Fault β} {P : β → Prop} {l : List α} {b b' : β}
    (hstep : ∀ a ∈ l, ∀ b b', P b → f b a = .ok b' → P b') (hb : P b)
    (h : l.foldlM f b = .ok b') : P b' := by
  induction l generalizing b with
  | nil =>
    cases h
    exact hb
  | cons a l ih =>
    rw [List.foldlM_cons] at h
    obtain ⟨b₁, hb₁, hrest⟩ := bind_eq_ok_iff.1 h
    exact ih (fun a' hmem => hstep a' (List.mem_cons_of_mem _ hmem))
      (hstep a List.mem_cons_self b b₁ hb hb₁) hrest

/-- What every successful step keeps up holds after a run in which failed steps leave no trace. -/
theorem foldl_getD_preserves {f : β → α → Except Fault β} {P : β → Prop} {l : List α} {b : β}
    (hstep : ∀ a ∈ l, ∀ b b', P b → f b a = .ok b' → P b') (hb : P b) :
    P (l.foldl (fun b a => (f b a).toOption.getD b) b) := by
  induction l generalizing b with
  | nil => exact hb
  | cons a l ih =>
    refine ih (fun a' hmem => hstep a' (List.mem_cons_of_mem _ hmem)) ?_
    change P ((f b a).toOption.getD b)
    cases hf : f b a with
    | error e => exact hb
    | ok b' => exact hstep a List.mem_cons_self b b' hb hf

/-- What holds after a successful run held before or was brought about by one of the steps. -/
theorem foldlM_iff {f : β → α → Except Fault β} {P : β → Prop} {Q : α → Prop} {l : List α}
    {b b' : β} (hstep : ∀ a b b', f b a = .ok b' → (P b' ↔ P b ∨ Q a)) (h : l.foldlM f b = .ok b') :
    P b' ↔ P b ∨ ∃ a ∈ l, Q a := by
  induction l generalizing b with
  | nil =>
    cases h
    simp
  | cons a l ih =>
    rw [List.foldlM_cons] at h
    obtain ⟨b₁, hb₁, hrest⟩ := bind_eq_ok_iff.1 h
    rw [ih hrest, hstep a b b₁ hb₁, or_assoc]
    simp

/-- A run fails with the fault of one of its steps. -/
theorem exists_of_foldlM_eq_error {f : β → α → Except Fault β} {l : List α} {b : β} {e : Fault}
    (h : l.foldlM f b = .error e) : ∃ a ∈ l, ∃ b, f b a = .error e := by
  induction l generalizing b with
  | nil => cases h
  | cons a l ih =>
    rw [List.foldlM_cons] at h
    cases ha : f b a with
    | error e' =>
      rw [ha] at h
      exact ⟨a, List.mem_cons_self, b, ha.trans h⟩
    | ok b₁ =>
      rw [ha] at h
      obtain ⟨a', hmem, hstep⟩ := ih h
      exact ⟨a', List.mem_cons_of_mem _ hmem, hstep⟩

/-! ## The first fault -/

/-- Whether an element is the first one of a list with a property. -/
def IsFirst (p : α → Prop) (l : List α) (a : α) : Prop :=
  p a ∧ ∃ before after, l = before ++ a :: after ∧ ∀ b ∈ before, ¬ p b

theorem isFirst_cons_iff {p : α → Prop} {l : List α} {a b : α} :
    IsFirst p (b :: l) a ↔ p b ∧ a = b ∨ ¬ p b ∧ IsFirst p l a := by
  constructor
  · rintro ⟨ha, before, after, hsplit, hbefore⟩
    cases before with
    | nil =>
      cases hsplit
      exact .inl ⟨ha, rfl⟩
    | cons b' before =>
      rw [List.cons_append, List.cons.injEq] at hsplit
      obtain ⟨rfl, hrest⟩ := hsplit
      rw [List.forall_mem_cons] at hbefore
      exact .inr ⟨hbefore.1, ha, before, after, hrest, hbefore.2⟩
  · rintro (⟨hb, rfl⟩ | ⟨hb, ha, before, after, rfl, hbefore⟩)
    · exact ⟨hb, [], l, rfl, nofun⟩
    · exact ⟨ha, b :: before, after, rfl, List.forall_mem_cons.2 ⟨hb, hbefore⟩⟩

/-- A list has a first element with a property if it has one at all. -/
theorem exists_isFirst_iff {p : α → Prop} {l : List α} :
    (∃ a, IsFirst p l a) ↔ ∃ a ∈ l, p a := by
  constructor
  · rintro ⟨a, ha, before, after, rfl, -⟩
    exact ⟨a, List.mem_append_right _ List.mem_cons_self, ha⟩
  · rintro ⟨a, hmem, ha⟩
    induction l with
    | nil => cases hmem
    | cons b l ih =>
      by_cases hb : p b
      · exact ⟨b, isFirst_cons_iff.2 (.inl ⟨hb, rfl⟩)⟩
      · have hrest : a ∈ l := (List.mem_cons.1 hmem).resolve_left fun heq => hb (heq ▸ ha)
        obtain ⟨first, hfirst⟩ := ih hrest
        exact ⟨first, isFirst_cons_iff.2 (.inr ⟨hb, hfirst⟩)⟩

/-- Whether an operation fails on an argument. -/
def Fails (f : α → Except Fault β) (a : α) : Prop := ∃ e, f a = .error e

/-- A list fails with the fault of its first element that fails. -/
theorem mapM_eq_error_iff {f : α → Except Fault β} {l : List α} {e : Fault} :
    l.mapM f = .error e ↔ ∃ a, IsFirst (Fails f) l a ∧ f a = .error e := by
  induction l with
  | nil =>
    constructor
    · nofun
    · rintro ⟨a, ⟨-, before, after, hsplit, -⟩, -⟩
      cases before <;> cases hsplit
  | cons b l ih =>
    simp only [isFirst_cons_iff, List.mapM_cons]
    cases hb : f b with
    | error e' =>
      have hfails : Fails f b := ⟨e', hb⟩
      simp [hfails, hb]
    | ok b' =>
      have hfails : ¬ Fails f b := fun ⟨e', he'⟩ => nomatch hb.symm.trans he'
      simp only [hfails, not_false_eq_true, true_and, false_and, false_or, ← ih, ok_bind]
      cases l.mapM f with
      | error e' => rfl
      | ok bs => exact ⟨nofun, nofun⟩

/-- A run whose steps fail or not whatever was done before looks at all arguments first. -/
theorem foldlM_map_eq {γ : Type} (f : α → Except Fault β) (g : γ → β → γ) (l : List α) (c : γ) :
    l.foldlM (fun c a => g c <$> f a) c = (fun l' => l'.foldl g c) <$> l.mapM f := by
  induction l generalizing c with
  | nil => rfl
  | cons a l ih =>
    rw [List.foldlM_cons, List.mapM_cons]
    cases f a with
    | error e => rfl
    | ok b =>
      rw [map_ok, ok_bind, ok_bind, ih]
      cases l.mapM f <;> rfl

namespace Traced

@[simp] theorem liftM_ok_bind (a : α) (f : α → Traced β) :
    ((liftM (Except.ok a : Except Fault α) : Traced α) >>= f) = f a := rfl

@[simp] theorem mk_ok_bind (a : α) (f : α → Traced β) :
    ((⟨[], .ok a⟩ : Traced α) >>= f) = f a := rfl

/-! Records aside, a traced result is an ordinary one. -/

@[simp] theorem result_pure (a : α) : (pure a : Traced α).result = .ok a := rfl

@[simp] theorem result_liftM (r : Except Fault α) : (liftM r : Traced α).result = r := rfl

@[simp] theorem log_liftM (r : Except Fault α) : (liftM r : Traced α).log = [] := rfl

@[simp] theorem result_bind (x : Traced α) (f : α → Traced β) :
    (x >>= f).result = x.result >>= fun a => (f a).result := by
  obtain ⟨log, r⟩ := x
  cases r <;> rfl

theorem result_foldlM (f : β → α → Traced β) (l : List α) (b : β) :
    (l.foldlM f b).result = l.foldlM (fun b a => (f b a).result) b := by
  induction l generalizing b with
  | nil => rfl
  | cons a l ih => simp only [List.foldlM_cons, result_bind, ih]

end Traced

end MediaBridge
