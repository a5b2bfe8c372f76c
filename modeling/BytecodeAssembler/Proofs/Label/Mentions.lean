import BytecodeAssembler.Instruction.Resolution
import BytecodeAssembler.Proofs.Instruction.Making
import BytecodeAssembler.Proofs.StackMap.Resolution

/-!
# Labels that are mentioned

Arguments of instructions and entries of frames name labels. Resolving them
changes the label table in one way only: names are **mentioned**, some of
them for the first time. The labels that come out are then labels of the
table, and they stay so whatever is mentioned afterwards.

Labels stay mentioned when a fault comes up on the way. So what is said of
the table holds of every outcome, and only what is said of the result needs
that there is one.
-/

namespace BytecodeAssembler

namespace LabelTable

variable {t u v : LabelTable}

/-- **The table `u` is the table `t` after names were mentioned.** -/
inductive Mentions (t : LabelTable) : LabelTable → Prop where
  | refl : Mentions t t
  | mention {u : LabelTable} (h : Mentions t u) (name : String) : Mentions t (u.mention name).2

namespace Mentions

theorem trans (h : t.Mentions u) (h' : u.Mentions v) : t.Mentions v := by
  induction h' with
  | refl => exact h
  | mention _ name ih => exact ih.mention name

/-- Mentioning one name is mentioning names. -/
theorem single (t : LabelTable) (name : String) : t.Mentions (t.mention name).2 :=
  Mentions.refl.mention name

/-- No label is lost, and none is placed. -/
theorem samePlaced (h : t.Mentions u) : t.SamePlaced u := by
  induction h with
  | refl => exact .refl t
  | mention _ name ih => exact ih.trans (samePlaced_mention _ name)

end Mentions

theorem Scoped.of_mentions (hscoped : t.Scoped) (h : t.Mentions u) : u.Scoped := by
  induction h with
  | refl => exact hscoped
  | mention _ name ih => exact ih.mention name

/-- **Several names are mentioned one after the other**, and each gives a
label of the table. -/
theorem mentionEach_mentions (names : List String) {rev : List Label} (hscoped : t.Scoped)
    (hrev : ∀ l ∈ rev, t.Has l) :
    t.Mentions (mentionEach names rev t).2
      ∧ ∀ l ∈ (mentionEach names rev t).1, (mentionEach names rev t).2.Has l := by
  induction names generalizing rev t with
  | nil => exact ⟨.refl, fun l hl => hrev l (List.mem_reverse.1 hl)⟩
  | cons name rest ih =>
    have hrest := ih (hscoped.mention name) (List.forall_mem_cons.2
      ⟨hscoped.has_mention name, fun l hl => (samePlaced_mention t name).has l (hrev l hl)⟩)
    exact ⟨(Mentions.single t name).trans hrest.1, hrest.2⟩

/-- **An outcome that comes with its table**: names were mentioned, and the
labels of the result, if there is one, are labels of the table. -/
structure Resolves {α : Type} (t : LabelTable) (labels : α → List Label)
    (outcome : Except Fault α × LabelTable) : Prop where
  /-- Nothing but mentioning happened to the table. -/
  mentions : t.Mentions outcome.2
  /-- The result refers to labels of the table. -/
  has : ∀ a, outcome.1 = .ok a → ∀ l ∈ labels a, outcome.2.Has l

namespace Resolves

variable {α : Type} {labels : α → List Label}

/-- A fault refers to no label. -/
theorem error (h : t.Mentions u) (fault : Fault) : t.Resolves labels (.error fault, u) := by
  refine ⟨h, fun a ha => ?_⟩
  cases ha

theorem ok {a : α} (h : t.Mentions u) (ha : ∀ l ∈ labels a, u.Has l) :
    t.Resolves labels (.ok a, u) := by
  refine ⟨h, fun a' ha' => ?_⟩
  cases ha'
  exact ha

variable {outcome : Except Fault α × LabelTable} {f f' : Frame}

/-- A frame keeps its labels if its entry cannot be read. -/
theorem keep_frame (h : t.Resolves labels outcome) {fault : Fault}
    (houtcome : outcome = (.error fault, u)) (hf : ∀ l ∈ f.labels, t.Has l) :
    t.Mentions u ∧ ∀ l ∈ f.labels, u.Has l := by
  subst houtcome
  exact ⟨h.mentions, fun l hl => h.mentions.samePlaced.has l (hf l hl)⟩

/-- A frame that takes an entry takes its labels. -/
theorem change_frame (h : t.Resolves labels outcome) {a : α} (houtcome : outcome = (.ok a, u))
    (hf : ∀ l ∈ f.labels, t.Has l) (hchange : ∀ l ∈ f'.labels, l ∈ f.labels ∨ l ∈ labels a) :
    t.Mentions u ∧ ∀ l ∈ f'.labels, u.Has l := by
  subst houtcome
  refine ⟨h.mentions, fun l hl => ?_⟩
  rcases hchange l hl with hl | hl
  · exact h.mentions.samePlaced.has l (hf l hl)
  · exact h.has a rfl l hl

end Resolves

end LabelTable

/-! ## Arguments of instructions -/

namespace Argument

variable {t : LabelTable}

/-- **The pairs of a switch mention their labels** up to the first key that
does not fit. -/
theorem resolves_lookupPairs (pairs : List (Int64 × String)) {rev : List (Int32 × Label)}
    (hscoped : t.Scoped) (hrev : ∀ l ∈ rev.map Prod.snd, t.Has l) :
    t.Resolves (List.map Prod.snd) (lookupPairs pairs rev t) := by
  induction pairs generalizing rev t with
  | nil =>
    refine .ok .refl fun l hl => hrev l ?_
    rwa [List.map_reverse, List.mem_reverse] at hl
  | cons pair rest ih =>
    obtain ⟨key, target⟩ := pair
    unfold lookupPairs
    cases narrowS4 "lookupswitch key" key with
    | error fault => exact .error .refl fault
    | ok key =>
      have hkept : ∀ l ∈ ((key, (t.mention target).1) :: rev).map Prod.snd,
          (t.mention target).2.Has l :=
        List.forall_mem_cons.2 ⟨hscoped.has_mention target,
          fun l hl => (LabelTable.samePlaced_mention t target).has l (hrev l hl)⟩
      have hrest := ih (hscoped.mention target) hkept
      exact ⟨(LabelTable.Mentions.single t target).trans hrest.mentions, hrest.has⟩

/-- The operand of an argument without labels has no labels either. -/
theorem labels_of_resolvePlain {argument : Argument} {opcode : Opcode} {operand : Operand}
    (h : argument.resolvePlain opcode = .ok operand) :
    Instruction.labels ⟨opcode, operand⟩ = [] := by
  unfold resolvePlain at h
  -- most operands are given at once or narrowed from a single number
  split at h
  all_goals first
    | cases h <;> rfl
    | obtain ⟨_, -, rfl⟩ := map_eq_ok_iff.1 h; rfl
    | skip
  next =>
    obtain ⟨index, -, h⟩ := bind_eq_ok_iff.1 h
    obtain ⟨delta, -, h⟩ := bind_eq_ok_iff.1 h
    cases h
    rfl
  next =>
    obtain ⟨descriptor, -, h⟩ := bind_eq_ok_iff.1 h
    obtain ⟨slots, -, h⟩ := bind_eq_ok_iff.1 h
    cases h
    rfl

theorem resolves_branch (hscoped : t.Scoped) (opcode : Opcode) (name : String) :
    t.Resolves (fun operand => Instruction.labels ⟨opcode, operand⟩)
      (.ok (.branch (t.mention name).1), (t.mention name).2) :=
  .ok (.single t name) (List.forall_mem_singleton.2 (hscoped.has_mention name))

/-- **An argument mentions the labels of its operand**, and nothing else
happens to the table. -/
theorem resolves_resolve (argument : Argument) (opcode : Opcode) (hscoped : t.Scoped) :
    t.Resolves (fun operand => Instruction.labels ⟨opcode, operand⟩)
      (argument.resolve opcode t) := by
  unfold resolve
  split
  next name _ => exact resolves_branch hscoped opcode name
  next name _ => exact resolves_branch hscoped opcode name
  next low high targets fallback _ =>
    cases tableLow low high targets.length with
    | error fault => exact .error .refl fault
    | ok low =>
      have hfallback := hscoped.has_mention fallback
      obtain ⟨hmentions, htargets⟩ := LabelTable.mentionEach_mentions targets
        (hscoped.mention fallback) (List.forall_mem_nil _)
      exact .ok ((LabelTable.Mentions.single t fallback).trans hmentions)
        (List.forall_mem_cons.2 ⟨hmentions.samePlaced.has _ hfallback, htargets⟩)
  next pairs fallback _ =>
    -- the pairs before the first one are none, so there is nothing to ask of their labels
    have hnone : ∀ l ∈ ([] : List (Int32 × Label)).map Prod.snd, t.Has l := List.forall_mem_nil _
    have hpairs := resolves_lookupPairs pairs hscoped hnone
    split
    next fault labels hlookup =>
      rw [hlookup] at hpairs
      exact .error hpairs.mentions fault
    next result labels hlookup =>
      rw [hlookup] at hpairs
      have hlabels : labels.Scoped := hscoped.of_mentions hpairs.mentions
      refine .ok (hpairs.mentions.mention fallback)
        (List.forall_mem_cons.2 ⟨hlabels.has_mention fallback, fun l hl => ?_⟩)
      exact (LabelTable.samePlaced_mention labels fallback).has l (hpairs.has result rfl l hl)
  next =>
    refine ⟨.refl, fun operand hoperand => ?_⟩
    rw [labels_of_resolvePlain hoperand]
    exact List.forall_mem_nil _

end Argument

namespace Instruction

/-- **Making an instruction adds no label to its operand.** -/
theorem mem_labels_of_make {opcode : Opcode} {operand : Operand} {i : Instruction} {l : Label}
    (h : make opcode operand = .ok i) (hl : l ∈ i.labels) : l ∈ labels ⟨opcode, operand⟩ := by
  obtain ⟨checked, hchecked, rfl⟩ := map_eq_ok_iff.1 h
  rcases checkOperand_eq_ok hchecked with rfl | ⟨fallback, pairs, rfl, rfl⟩
  · exact hl
  · rcases List.mem_cons.1 hl with rfl | hl
    · exact List.mem_cons_self
    · obtain ⟨pair, hpair, rfl⟩ := List.mem_map.1 hl
      have hmem : pair ∈ pairs := (List.mergeSort_perm pairs _).mem_iff.1 hpair
      exact List.mem_cons_of_mem _ (List.mem_map.2 ⟨pair, hmem, rfl⟩)

end Instruction

/-! ## Entries of frames -/

namespace DeclaredType

variable {t : LabelTable}

/-- **A place is an offset or mentions a label.** -/
theorem resolves_readPlace (text : String) (outOfRange : Int → Fault) (hscoped : t.Scoped) :
    t.Resolves (fun place => place.label?.toList) (readPlace t text outOfRange) := by
  unfold readPlace
  split
  next value _ =>
    split
    next => exact .ok .refl (List.forall_mem_nil _)
    next => exact .error .refl _
  next => exact .ok (.single t text) (List.forall_mem_singleton.2 (hscoped.has_mention text))

/-- A type written as a bare name mentions no label. -/
theorem label?_of_bare? {name : String} {type : DeclaredType} (h : bare? name = some type) :
    type.label? = none := by
  unfold bare? at h
  split at h <;> cases h <;> rfl

/-- **The type of a frame's entry mentions at most a place.** -/
theorem resolves_ofName (name : String) (argument : Option String) (hscoped : t.Scoped) :
    t.Resolves (fun type => type.label?.toList) (ofName t name argument) := by
  unfold ofName
  split
  next type hbare =>
    refine .ok .refl ?_
    rw [label?_of_bare? hbare]
    exact List.forall_mem_nil _
  next => exact .error .refl _
  next argument _ _ _ =>
    split
    next =>
      cases argument with
      | none => exact .error .refl _
      | some type => exact .ok .refl (List.forall_mem_nil _)
    next =>
      split
      next =>
        cases argument with
        | none => exact .error .refl _
        | some text =>
          -- only an uninitialized object is described by a place, and so by a label
          have hplace := resolves_readPlace text .uninitializedOffset hscoped
          refine ⟨hplace.mentions, fun type htype => ?_⟩
          obtain ⟨place, hread, rfl⟩ := map_eq_ok_iff.1 htype
          exact hplace.has place hread
      next => exact .error .refl _

end DeclaredType

end BytecodeAssembler
