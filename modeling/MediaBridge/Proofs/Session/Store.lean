import MediaBridge.Session.Basic
import MediaBridge.Proofs.Result

/-!
# Setter calls in a session

A setter call on a builder of a session changes that builder, or it fails and leaves the session as
it was (`Action.exec_store`), and so does a run of calls (`Action.storeAll_eq`).
-/

namespace MediaBridge

/-- Store what a setter stores in a builder of metadata of either schema. -/
def Builder.store (b : Builder) (c : Change) : Except Fault Builder :=
  match b with
  | .metadata b => .metadata <$> b.store c
  | .legacyMetadata b => .legacyMetadata <$> b.store c
  | .item _ => .error .missingPart

/-- Store what setters store, one after the other. A call that fails leaves no trace. -/
def Builder.storeAll (b : Builder) (changes : List (Except Fault Change)) : Builder :=
  changes.foldl (fun b change => (change >>= b.store).toOption.getD b) b

namespace Action

variable {α β : Type} {s : Session} {id : Nat} {b : Builder}

/-- The result of an operation on a session, and the session after it. -/
def exec (x : Action α) (s : Session) : Except Fault α × Session := x.run.run s

theorem exec_pure (a : α) (s : Session) : (pure a : Action α).exec s = (.ok a, s) := rfl

theorem exec_get (s : Session) : (get : Action Session).exec s = (.ok s, s) := rfl

theorem exec_bind (x : Action α) (f : α → Action β) (s : Session) :
    (x >>= f).exec s = match x.exec s with
      | (.ok a, s') => (f a).exec s'
      | (.error e, s') => (.error e, s') := by
  change ExceptT.bindCont f (x.exec s).1 (x.exec s).2 = _
  rcases x.exec s with ⟨_ | _, s'⟩ <;> rfl

theorem exec_map (k : α → β) (x : Action α) (s : Session) :
    (k <$> x).exec s = (k <$> (x.exec s).1, (x.exec s).2) := by
  change (x >>= fun a => pure (k a)).exec s = _
  rw [exec_bind]
  rcases x.exec s with ⟨_ | _, s'⟩ <;> rfl

theorem exec_modify (f : Session → Session) (s : Session) :
    (modify f : Action PUnit).exec s = (.ok ⟨⟩, f s) := rfl

theorem exec_builder (h : s.builders[id]? = some b) :
    (builder (.builder id)).exec s = (.ok (id, b), s) := by
  simp only [builder, exec_bind, exec_get, h, exec_pure]

/-- A setter call changes its builder, or it fails and leaves the session as it was. -/
theorem exec_store (h : s.builders[id]? = some b) (change : Except Fault Change) :
    (store (.builder id) change).exec s = match change >>= b.store with
      | .ok b' => (.ok (.builder id), { s with builders := s.builders.set id b' })
      | .error f => (.error f, s) := by
  cases change with
  | error f => rfl
  | ok c =>
    change (builder (.builder id) >>= _ : Action Value).exec s = _
    rw [exec_bind, exec_builder h, ok_bind]
    cases b with
    | metadata b =>
      change ((Builder.metadata <$> Action.ofExcept (b.store c)) >>= _ : Action Value).exec s = _
      rw [Builder.store]
      cases b.store c <;> rfl
    | legacyMetadata b =>
      change ((Builder.legacyMetadata <$> Action.ofExcept (b.store c)) >>= _ :
        Action Value).exec s = _
      rw [Builder.store]
      cases b.store c <;> rfl
    | item b => rfl

/-! ## Runs of operations on one builder -/

theorem set_builder_self (h : s.builders[id]? = some b) :
    { s with builders := s.builders.set id b } = s := by
  obtain ⟨hid, hb⟩ := List.getElem?_eq_some_iff.1 h
  have hset : s.builders.set id b = s.builders := hb ▸ List.set_getElem_self hid
  rw [hset]

/-- Operations that each change one builder only do so one after the other. The builder is what the
session knows of a state `σ`. -/
theorem foldl_exec_eq {σ κ : Type} (known : σ → Builder) (step : σ → κ → σ) (op : κ → Action α)
    (hstep : ∀ (s : Session) (b : σ) (k : κ), s.builders[id]? = some (known b) →
      ((op k).exec s).2 = { s with builders := s.builders.set id (known (step b k)) })
    {b : σ} (h : s.builders[id]? = some (known b)) (l : List κ) :
    l.foldl (fun s k => ((op k).exec s).2) s =
      { s with builders := s.builders.set id (known (l.foldl step b)) } := by
  induction l generalizing s b with
  | nil => exact (set_builder_self h).symm
  | cons k l ih =>
    have hid := (List.getElem?_eq_some_iff.1 h).1
    have h' : (s.builders.set id (known (step b k)))[id]? = some (known (step b k)) :=
      List.getElem?_set_self hid
    rw [List.foldl_cons, hstep s b k h, ih h', List.foldl_cons, List.set_set]

/-- The session after setter calls on one builder, one after the other. -/
def storeAll (v : Value) (changes : List (Except Fault Change)) (s : Session) : Session :=
  changes.foldl (fun s change => ((store v change).exec s).2) s

/-- A run of setter calls changes its builder only, by the calls that succeed. -/
theorem storeAll_eq (h : s.builders[id]? = some b) (changes : List (Except Fault Change)) :
    storeAll (.builder id) changes s =
      { s with builders := s.builders.set id (b.storeAll changes) } := by
  refine foldl_exec_eq (fun b => b) _ (store (.builder id)) (fun s b change h => ?_) h changes
  rw [exec_store h]
  cases change >>= b.store with
  | error f => exact (set_builder_self h).symm
  | ok b' => rfl

end Action

end MediaBridge
