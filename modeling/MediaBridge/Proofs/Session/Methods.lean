import MediaBridge.Proofs.Item.Builder
import MediaBridge.Proofs.Session.Store

/-!
# Calls on builders

A builder of a session answers a call after others, failed ones included, as the builder does that
the others have made of it (`BuilderMethods.Lawful.answer_eq`). Main statement:
`BuilderMethods.new_builders_answer`, which calls a new builder neither carries out nor refuses, and
which items it builds.
-/

namespace MediaBridge

/-! ## Single calls in a session -/

namespace Action

variable {s : Session} {id : Nat}

theorem exec_start (b : Builder) (s : Session) : (start b).exec s =
    (.ok (.builder s.builders.length), { s with builders := s.builders ++ [b] }) := rfl

theorem exec_updateItem {b : ItemBuilder} (h : s.builders[id]? = some (.item b))
    (f : ItemBuilder → ItemBuilder) : (updateItem (.builder id) f).exec s =
      (.ok (.builder id), { s with builders := s.builders.set id (.item (f b)) }) := by
  have htakes : (liftM (Value.builder id).checkTakesField : Action Unit).exec s = (.ok (), s) := rfl
  unfold updateItem
  simp only [exec_bind, htakes, exec_get, h, exec_modify, exec_pure]

theorem exec_buildMetadata {b : MetadataBuilder} (h : s.builders[id]? = some (.metadata b)) :
    (buildMetadata (.builder id)).exec s = (b.build, s) := by
  rw [buildMetadata, exec_bind, exec_builder h]
  rfl

theorem exec_buildLegacyMetadata {b : LegacyMetadataBuilder}
    (h : s.builders[id]? = some (.legacyMetadata b)) :
    (buildLegacyMetadata (.builder id)).exec s = (.ok b.build, s) := by
  rw [buildLegacyMetadata, exec_bind, exec_builder h]
  rfl

theorem exec_buildItem {b : ItemBuilder} (h : s.builders[id]? = some (.item b)) :
    (buildItem (.builder id)).exec s = (b.build, s) := by
  rw [buildItem, exec_bind, exec_builder h]
  rfl

end Action

/-! ## Methods of builders -/

/-- A call of a method of a builder: a setter with its arguments, or a build. -/
inductive MethodCall (Setter : Type) where
  | set (setter : Setter)
  | build

/-- The setters among calls, with their arguments. -/
def MethodCall.setters {Setter : Type} (calls : List (MethodCall Setter)) : List Setter :=
  calls.filterMap fun
    | .set setter => some setter
    | .build => none

/-- The methods of a class of builders: what they do to a builder, and in a session. -/
structure BuilderMethods (State Setter : Type) where
  set : State → Setter → Except Fault State
  build : State → Except Fault Value
  inSession : State → Builder
  setIn : Value → Setter → Action Value
  buildIn : Value → Action Value

namespace BuilderMethods

def metadata : BuilderMethods MetadataBuilder MetadataSetter where
  set := MetadataBuilder.apply
  build b := .metadata <$> b.build
  inSession := .metadata
  setIn v setter := Action.store v setter.change
  buildIn v := .metadata <$> Action.buildMetadata v

def legacyMetadata : BuilderMethods LegacyMetadataBuilder LegacyMetadataSetter where
  set := LegacyMetadataBuilder.apply
  build b := .ok (.legacyMetadata b.build)
  inSession := .legacyMetadata
  setIn v setter := Action.store v setter.change
  buildIn v := .legacyMetadata <$> Action.buildLegacyMetadata v

def item : BuilderMethods ItemBuilder ItemSetter where
  set b setter := .ok (setter.update b)
  build b := .item <$> b.build
  inSession := .item
  setIn v setter := Action.updateItem v setter.update
  buildIn v := .item <$> Action.buildItem v

variable {State Setter : Type} (c : BuilderMethods State Setter)

/-- Call a method of a builder of a session. -/
def callIn (v : Value) : MethodCall Setter → Action Value
  | .set setter => c.setIn v setter
  | .build => c.buildIn v

/-- The session after calls on one builder, one after the other. A call that fails does not end
them. -/
def callAllIn (v : Value) (calls : List (MethodCall Setter)) (s : Session) : Session :=
  calls.foldl (fun s call => ((c.callIn v call).exec s).2) s

/-- What a new builder of a session answers to a call after other calls. -/
def answer (b : State) (calls : List (MethodCall Setter)) (call : MethodCall Setter) (s : Session) :
    Except Fault Value :=
  let inTurn : Action Value := do
    let v ← Action.start (c.inSession b)
    modify (c.callAllIn v calls)
    c.callIn v call
  (inTurn.exec s).1

/-- A builder after a call. A call that fails leaves no trace. -/
def after (b : State) : MethodCall Setter → State
  | .set setter => (c.set b setter).toOption.getD b
  | .build => b

/-- What a builder with a given number answers to a call. -/
def reply (id : Nat) (b : State) : MethodCall Setter → Except Fault Value
  | .set setter => (fun _ => .builder id) <$> c.set b setter
  | .build => c.build b

/-- The methods do in a session what they do to a builder, and nothing else. -/
def Lawful : Prop :=
  ∀ {s : Session} {id : Nat} {b : State}, s.builders[id]? = some (c.inSession b) →
    ∀ call : MethodCall Setter, (c.callIn (.builder id) call).exec s = (c.reply id b call,
      { s with builders := s.builders.set id (c.inSession (c.after b call)) })

variable {c}

/-- A new builder answers what the builder that the calls before have made of it answers. -/
theorem Lawful.answer_eq (hc : c.Lawful) (b : State) (calls : List (MethodCall Setter))
    (call : MethodCall Setter) (s : Session) : c.answer b calls call s =
      c.reply s.builders.length (calls.foldl c.after b) call := by
  have hnew : (s.builders ++ [c.inSession b])[s.builders.length]? = some (c.inSession b) := by
    simp
  have hrun := Action.foldl_exec_eq (s := { s with builders := s.builders ++ [c.inSession b] })
    c.inSession c.after (c.callIn (.builder s.builders.length))
    (fun _ _ call h => congrArg Prod.snd (hc h call)) hnew calls
  have hlast : ((s.builders ++ [c.inSession b]).set s.builders.length
      (c.inSession (calls.foldl c.after b)))[s.builders.length]? =
      some (c.inSession (calls.foldl c.after b)) := by
    simp
  rw [answer, Action.exec_bind, Action.exec_start]
  simp only [Action.exec_bind, Action.exec_modify, callAllIn, hrun]
  rw [hc hlast]

theorem foldl_after (b : State) (calls : List (MethodCall Setter)) : calls.foldl c.after b =
    (MethodCall.setters calls).foldl (fun b setter => (c.set b setter).toOption.getD b) b := by
  rw [MethodCall.setters, List.foldl_filterMap]
  congr 1
  funext b call
  cases call <;> rfl

/-- If builds do not break off, calls of setters are all that does. -/
theorem Lawful.breaksOff_answer_iff (hc : c.Lawful) {b : State} {p : Setter → Fault → Prop}
    (hset : ∀ (b : State) setter f, BreaksOff (c.set b setter) f ↔ p setter f)
    (hbuild : ∀ (calls : List (MethodCall Setter)) f,
      ¬ BreaksOff (c.build (calls.foldl c.after b)) f)
    {calls : List (MethodCall Setter)} {call : MethodCall Setter} {f : Fault} {s : Session} :
    BreaksOff (c.answer b calls call s) f ↔ ∃ setter, call = .set setter ∧ p setter f := by
  rw [hc.answer_eq]
  cases call with
  | set setter =>
    rw [reply, breaksOff_map_iff, hset]
    constructor
    · intro h
      exact ⟨setter, rfl, h⟩
    · rintro ⟨_, ⟨⟩, h⟩
      exact h
  | build => exact iff_of_false (hbuild calls f) nofun

/-! ## The three classes -/

section

variable {s : Session} {id : Nat}

theorem exec_store {c : BuilderClass} (hc : c.Lawful) {b : c.State}
    (h : s.builders[id]? = some (c.inSession b)) (call : c.Call) :
    (Action.store (.builder id) (c.change call)).exec s =
      ((fun _ => .builder id) <$> c.apply b call, { s with
        builders := s.builders.set id (c.inSession ((c.apply b call).toOption.getD b)) }) := by
  rw [Action.exec_store h, hc.inSession_apply]
  cases c.apply b call with
  | error f => exact congrArg (Prod.mk _) (Action.set_builder_self h).symm
  | ok b' => rfl

theorem exec_build {α : Type} (k : α → Value) {x : Action α} {r : Except Fault α} {b : Builder}
    (h : s.builders[id]? = some b) (hx : x.exec s = (r, s)) :
    (k <$> x).exec s = (k <$> r, { s with builders := s.builders.set id b }) := by
  rw [Action.exec_map, hx, Action.set_builder_self h]

theorem lawful_metadata : metadata.Lawful
  | _, _, _, h, .set setter => exec_store BuilderClass.lawful_metadata h setter
  | _, _, _, h, .build => exec_build _ h (Action.exec_buildMetadata h)

theorem lawful_legacyMetadata : legacyMetadata.Lawful
  | _, _, _, h, .set setter => exec_store BuilderClass.lawful_legacyMetadata h setter
  | _, _, _, h, .build => exec_build _ h (Action.exec_buildLegacyMetadata h)

theorem lawful_item : item.Lawful
  | _, _, _, h, .set setter => Action.exec_updateItem h setter.update
  | _, _, _, h, .build => exec_build _ h (Action.exec_buildItem h)

end

/-! ## New builders -/

section

open ItemSetter (lastMediaId lastMetadata)
open MethodCall (setters)

variable {f : Fault} {flags : Value} {s : Session}

/-- What a builder of metadata holds fits, so that its build finds nothing wrong. -/
theorem build_foldl_after_metadata (calls : List (MethodCall MetadataSetter)) :
    ∃ m, metadata.build (calls.foldl metadata.after {}) = .ok (.metadata m) := by
  rw [foldl_after]
  have hbuilt : (MetadataBuilder.applyAll {} (setters calls)).entries.Built :=
    Metadata.Built.empty.applyAll _
  have hbuild := MetadataBuilder.build_of_fits hbuilt.fits
  exact ⟨_, congrArg (Value.metadata <$> ·) hbuild⟩

theorem breaksOff_answer_metadata_iff {calls : List (MethodCall MetadataSetter)}
    {call : MethodCall MetadataSetter} : BreaksOff (metadata.answer {} calls call s) f ↔
      ∃ setter, call = .set setter ∧ setter.BreaksOff f := by
  refine lawful_metadata.breaksOff_answer_iff (fun b setter f => ?_) fun calls f h => ?_
  · exact BuilderClass.lawful_metadata.breaksOff_apply_iff.trans
      MetadataSetter.breaksOff_coerced_iff
  · obtain ⟨m, hm⟩ := build_foldl_after_metadata calls
    cases hm.symm.trans h.1

theorem breaksOff_answer_legacyMetadata_iff {calls : List (MethodCall LegacyMetadataSetter)}
    {call : MethodCall LegacyMetadataSetter} :
    BreaksOff (legacyMetadata.answer {} calls call s) f ↔
      ∃ setter, call = .set setter ∧ setter.BreaksOff f := by
  refine lawful_legacyMetadata.breaksOff_answer_iff (fun b setter f => ?_) fun _ _ =>
    (faultsIn_ok _).not_breaksOff
  exact BuilderClass.lawful_legacyMetadata.breaksOff_apply_iff.trans
    LegacyMetadataSetter.breaksOff_coerced_iff

/-- The last call of each setter decides what a builder of items holds. -/
theorem foldl_after_item (flags : Value) (calls : List (MethodCall ItemSetter)) :
    calls.foldl item.after { flags } =
      ⟨flags, lastMediaId (setters calls), lastMetadata (setters calls)⟩ :=
  (foldl_after _ _).trans (ItemBuilder.setAll_eq { flags } (setters calls))

theorem breaksOff_answer_item_iff {calls : List (MethodCall ItemSetter)}
    {call : MethodCall ItemSetter} : BreaksOff (item.answer { flags } calls call s) f ↔
      call = .build ∧ (lastMediaId (setters calls)).isTruthy = false ∧
        (lastMetadata (setters calls)).isNone = false ∧
        (lastMetadata (setters calls)).mediaId = .error .missingPart ∧ f = .missingPart := by
  rw [lawful_item.answer_eq, foldl_after_item]
  cases call with
  | set setter => exact iff_of_false (faultsIn_ok _).not_breaksOff nofun
  | build =>
    rw [eq_self, true_and]
    exact (breaksOff_map_iff _).trans ItemBuilder.breaksOff_build_iff

theorem answer_build_item_iff {calls : List (MethodCall ItemSetter)} {v : Value} :
    item.answer { flags } calls .build s = .ok v ↔ ∃ i : Item, v = .item i ∧
      i.BuiltFrom (lastMediaId (setters calls)) (lastMetadata (setters calls)) flags := by
  rw [lawful_item.answer_eq, foldl_after_item]
  refine bind_eq_ok_iff.trans (exists_congr fun i => ?_)
  rw [ItemBuilder.build_eq_ok_iff, and_comm]
  exact and_congr_left fun _ => ⟨fun h => (Except.ok.inj h).symm, fun h => congrArg _ h.symm⟩

/-- A new builder carries out or refuses every call after any others, with three exceptions: a value
that has no text is given as one, an integer beyond the range of double-precision numbers as one of
them, and the identifier of an item is looked for in an object that is no metadata and has none. The
items that are built have the identifier that was set last, or the one that their metadata carry,
and the metadata that were set last. -/
theorem new_builders_answer (s : Session) :
    (∀ calls call f, BreaksOff (metadata.answer {} calls call s) f ↔
      ∃ setter, call = .set setter ∧ setter.BreaksOff f) ∧
    (∀ calls call f, BreaksOff (legacyMetadata.answer {} calls call s) f ↔
      ∃ setter, call = .set setter ∧ setter.BreaksOff f) ∧
    ∀ flags calls,
      (∀ call f, BreaksOff (item.answer { flags } calls call s) f ↔
        call = .build ∧ (lastMediaId (setters calls)).isTruthy = false ∧
          (lastMetadata (setters calls)).isNone = false ∧
          (lastMetadata (setters calls)).mediaId = .error .missingPart ∧ f = .missingPart) ∧
      ∀ v, item.answer { flags } calls .build s = .ok v ↔ ∃ i : Item, v = .item i ∧
        i.BuiltFrom (lastMediaId (setters calls)) (lastMetadata (setters calls)) flags :=
  ⟨fun _ _ _ => breaksOff_answer_metadata_iff, fun _ _ _ => breaksOff_answer_legacyMetadata_iff,
    fun _ _ => ⟨fun _ _ => breaksOff_answer_item_iff, fun _ => answer_build_item_iff⟩⟩

/-- Each of the three exceptions occurs. -/
theorem new_builders_break_off :
    BreaksOff (item.answer {} [.set (.metadata (.ofString "x"))] .build {}) .missingPart ∧
    BreaksOff (metadata.answer {} [] (.set (.float (.ofString "k") (.ofInt (twoPow 1024)))) {})
      .outOfRange ∧
    BreaksOff (legacyMetadata.answer {} [] (.set (.text (.ofString "k")
      (.uri ⟨.ofInt 1, .ofString "", .ofString "", .ofString "", .ofString ""⟩))) {})
      .missingPart := by
  refine ⟨breaksOff_answer_item_iff.2 ⟨rfl, rfl, rfl, rfl, rfl⟩,
    breaksOff_answer_metadata_iff.2 ⟨_, rfl, .float (by decide +kernel)⟩,
    breaksOff_answer_legacyMetadata_iff.2 ⟨_, rfl, .text ?_⟩⟩
  exact Value.unwritable_iff.2 ⟨rfl, id⟩

end

end BuilderMethods

end MediaBridge
