import BytecodeAssembler.Class.Encoding
import BytecodeAssembler.Proofs.SameOutcome

/-!
# The names of labels do not show

A class file has offsets where its source has labels. What a label is called
is remembered for the faults that are about it, and for nothing else: all that
the encoding sees of a label is whether it was placed and at which offset it
stands, its **standing**. Two bodies whose labels have the same standing are
encoded with the same outcome, and so are the methods and classes around them.
-/

namespace BytecodeAssembler

/-! ## Label tables -/

/-- **What the encoding sees of a label**: whether it was placed, and its
offset. -/
def LabelSlot.standing (slot : LabelSlot) : Bool × Option Nat := (slot.placed, slot.offset)

namespace LabelTable

variable {t u : LabelTable}

/-- **The labels have the same standing**, whatever they are called. -/
def SameStanding (t u : LabelTable) : Prop :=
  u.slots.map LabelSlot.standing = t.slots.map LabelSlot.standing

namespace SameStanding

theorem refl (t : LabelTable) : t.SameStanding t := rfl

theorem size_eq (h : t.SameStanding u) : u.slots.size = t.slots.size := by
  have hsize := congrArg Array.size h
  rwa [Array.size_map, Array.size_map] at hsize

theorem rel (h : t.SameStanding u) (i : Nat) :
    Option.Rel (fun slot slot' => slot'.standing = slot.standing) t.slots[i]? u.slots[i]? := by
  have hget := congrArg (·[i]?) h
  simp only [Array.getElem?_map] at hget
  generalize t.slots[i]? = o at hget ⊢
  generalize u.slots[i]? = o' at hget ⊢
  cases o with
  | none =>
    rw [Option.map_eq_none_iff.1 hget]
    exact .none
  | some slot =>
    obtain ⟨slot', rfl, hslot⟩ := Option.map_eq_some_iff.1 hget
    exact .some hslot

theorem isPlaced_eq (h : t.SameStanding u) (label : Label) :
    u.isPlaced label = t.isPlaced label := by
  have hrel := h.rel label.index
  unfold isPlaced
  generalize t.slots[label.index]? = o at hrel ⊢
  generalize u.slots[label.index]? = o' at hrel ⊢
  cases hrel with
  | none => rfl
  | some hslot => exact congrArg Prod.fst hslot

theorem checkNew (h : t.SameStanding u) (label : Label) :
    SameOutcome (t.checkNew label) (u.checkNew label) := by
  unfold LabelTable.checkNew
  rw [h.isPlaced_eq label]
  exact rel_ite (.error rfl) (.ok ())

/-- **Labels with the same standing have the same offset.** -/
theorem offset (h : t.SameStanding u) (label : Label) :
    SameOutcome (t.offset label) (u.offset label) := by
  have hrel := h.rel label.index
  unfold LabelTable.offset
  generalize t.slots[label.index]? = o at hrel ⊢
  generalize u.slots[label.index]? = o' at hrel ⊢
  cases hrel with
  | none => exact .error rfl
  | @some slot slot' hslot =>
    obtain ⟨_, placed, offset⟩ := slot
    obtain ⟨_, placed', offset'⟩ := slot'
    obtain ⟨rfl, rfl⟩ : placed' = placed ∧ offset' = offset := Prod.mk.inj hslot
    cases offset' with
    | some position => exact .ok position
    | none => cases placed' <;> exact .error rfl

/-- As many labels are without a place. -/
theorem unplaced_eq_nil_iff (h : t.SameStanding u) : u.unplaced = [] ↔ t.unplaced = [] := by
  unfold unplaced
  rw [h.size_eq, List.filterMap_eq_nil_iff, List.filterMap_eq_nil_iff]
  refine forall₂_congr fun label _ => ?_
  rw [h.isPlaced_eq label]
  cases t.isPlaced label <;> simp

theorem push (h : t.SameStanding u) {slot slot' : LabelSlot}
    (hslot : slot'.standing = slot.standing) (names names' : Std.HashMap String Label) :
    SameStanding ⟨names, t.slots.push slot⟩ ⟨names', u.slots.push slot'⟩ := by
  unfold SameStanding
  rw [Array.map_push, Array.map_push, h, hslot]

/-- Changing the standing of a label in the same way keeps labels of the same
standing. -/
theorem modify (h : t.SameStanding u) (i : Nat) {change : LabelSlot → LabelSlot}
    (change' : Bool × Option Nat → Bool × Option Nat)
    (hchange : ∀ slot, (change slot).standing = change' slot.standing) :
    SameStanding { t with slots := t.slots.modify i change }
      { u with slots := u.slots.modify i change } := by
  have hmodify : ∀ slots : Array LabelSlot, (slots.modify i change).map LabelSlot.standing
      = (slots.map LabelSlot.standing).modify i change' := by
    intro slots
    refine Array.ext_getElem? fun j => ?_
    rw [Array.getElem?_map, Array.getElem?_modify, Array.getElem?_modify, Array.getElem?_map]
    split
    next =>
      rw [Option.map_map, Option.map_map]
      exact congrArg (Option.map · _) (funext hchange)
    next => rfl
  unfold SameStanding
  rw [hmodify, hmodify, h]

theorem markPlaced (h : t.SameStanding u) (label : Label) :
    (t.markPlaced label).SameStanding (u.markPlaced label) :=
  h.modify label.index (fun standing => (true, standing.2)) fun _ => rfl

theorem setOffset (h : t.SameStanding u) (label : Label) (position : Nat) :
    (t.setOffset label position).SameStanding (u.setOffset label position) :=
  h.modify label.index (fun standing => (standing.1, some position)) fun _ => rfl

end SameStanding

end LabelTable

variable {t u : LabelTable} (h : t.SameStanding u)
include h

/-! ## Instructions -/

namespace Instruction

theorem sameOutcome_displacement (offset : Nat) (target : Label) :
    SameOutcome (displacement t offset target) (displacement u offset target) := by
  unfold displacement
  exact ((h.offset target).bind fun position => .refl _).map _

theorem sameOutcome_narrowJump (opcode : Opcode) (offset : Nat) (target : Label) :
    SameOutcome (narrowJump opcode t offset target) (narrowJump opcode u offset target) := by
  have hdistance := sameOutcome_displacement h offset target
  unfold narrowJump
  generalize displacement t offset target = x at hdistance ⊢
  generalize displacement u offset target = y at hdistance ⊢
  cases hdistance with
  | error hkind => exact .error hkind
  | ok distance => exact rel_ite (.ok _) (.error rfl)

theorem sameOutcome_wideJump (offset : Nat) (target : Label) :
    SameOutcome (wideJump t offset target) (wideJump u offset target) := by
  have hdistance := sameOutcome_displacement h offset target
  unfold wideJump
  generalize displacement t offset target = x at hdistance ⊢
  generalize displacement u offset target = y at hdistance ⊢
  cases hdistance with
  | error hkind => exact .error hkind
  | ok distance => exact rel_ite (.ok _) (.error rfl)

/-- **The parts of an instruction** have the same outcomes. -/
theorem sameOutcome_emission (i : Instruction) (offset : Nat) (pool : ConstantPool) :
    List.Forall₂ SameOutcome (i.emission offset pool t) (i.emission offset pool u) := by
  have hsame : ∀ e : Emission, List.Forall₂ SameOutcome e e := fun e =>
    List.forall₂_same.2 fun part _ => .refl part
  obtain ⟨opcode, operand⟩ := i
  cases operand with
  | branch target =>
    simp only [emission]
    split
    next => exact .cons (.refl _) (.cons (sameOutcome_wideJump h offset target) .nil)
    next => exact .cons (sameOutcome_narrowJump h opcode offset target) .nil
  | tableSwitch low fallback targets =>
    refine .cons (.refl _) (.cons (sameOutcome_wideJump h offset fallback) (.cons (.refl _) ?_))
    rw [List.forall₂_map_left_iff, List.forall₂_map_right_iff, List.forall₂_same]
    exact fun target _ => sameOutcome_wideJump h offset target
  | lookupSwitch fallback pairs =>
    refine .cons (.refl _) (.cons (sameOutcome_wideJump h offset fallback) (.cons (.refl _) ?_))
    induction pairs with
    | nil => exact .nil
    | cons pair pairs ih =>
      exact .cons (.refl _) (.cons (sameOutcome_wideJump h offset pair.2) ih)
  -- no label is looked up for these
  | none | localVar | increment | byte | short | arrayType | constant | interfaceMethod
  | multiArray => exact hsame _

theorem sameOutcome_encode (i : Instruction) (offset : Nat) (pool : ConstantPool) :
    SameOutcome (i.encode offset pool t) (i.encode offset pool u) :=
  (SameOutcome.mapM (sameOutcome_emission h i offset pool)).map _

end Instruction

/-! ## Stack maps -/

theorem CodeOffset.sameOutcome_resolve (place : CodeOffset) :
    SameOutcome (place.resolve t) (place.resolve u) := by
  cases place with
  | offset value => exact .ok value
  | label target =>
    have hoffset := h.offset target
    unfold CodeOffset.resolve
    dsimp only
    generalize t.offset target = x at hoffset ⊢
    generalize u.offset target = y at hoffset ⊢
    cases hoffset with
    | error hkind => exact .error hkind
    | ok position => exact rel_ite (.ok _) (.error rfl)

theorem DeclaredType.sameOutcome_resolve (type : DeclaredType) :
    SameOutcome (type.resolve t) (type.resolve u) := by
  cases type with
  | uninitialized place => exact (CodeOffset.sameOutcome_resolve h place).map _
  | top | integer | float | double | long | null | uninitializedThis | object => exact .refl _

theorem sameOutcome_resolveTypes (types : List DeclaredType) :
    SameOutcome (resolveTypes types t) (resolveTypes types u) :=
  .mapM_same types fun type => type.sameOutcome_resolve h

theorem sameOutcome_compactFrom (pool : ConstantPool) (frames : List Frame)
    (previous : List ResolvedType) (before : Option UInt16) (rev : List CompactFrame) :
    SameOutcome (compactFrom pool t frames previous before rev)
      (compactFrom pool u frames previous before rev) := by
  induction frames generalizing previous before rev with
  | nil => exact .refl _
  | cons frame frames ih =>
    refine (frame.offset.sameOutcome_resolve h).bind fun offset => ?_
    refine .bind_same _ fun delta => ?_
    refine (sameOutcome_resolveTypes h frame.locals.toList).bind fun locals => ?_
    refine (sameOutcome_resolveTypes h frame.stack.toList).bind fun stack => ?_
    exact .bind_same _ fun compact => ih locals (some offset) (compact :: rev)

theorem Frame.sameOutcome_toLegacy (frame : Frame) (pool : ConstantPool) :
    SameOutcome (frame.toLegacy pool t) (frame.toLegacy pool u) := by
  refine (frame.offset.sameOutcome_resolve h).bind fun offset => ?_
  refine (sameOutcome_resolveTypes h frame.locals.toList).bind fun locals => ?_
  refine .bind_same _ fun locals => ?_
  exact (sameOutcome_resolveTypes h frame.stack.toList).bind fun stack => .refl _

/-- **A stack map** has the same outcome. -/
theorem sameOutcome_encodeStackMap (form : StackMapForm) (frames : List Frame)
    (initial : List DeclaredType) (pool : ConstantPool) :
    SameOutcome (encodeStackMap form frames initial pool t)
      (encodeStackMap form frames initial pool u) := by
  cases form with
  | compact =>
    refine SameOutcome.bind ?_ fun table => .refl _
    refine (sameOutcome_resolveTypes h initial).bind fun locals => ?_
    exact sameOutcome_compactFrom h pool frames locals none []
  | legacy =>
    refine SameOutcome.bind ?_ fun table => .refl _
    exact (SameOutcome.mapM_same frames fun frame => frame.sameOutcome_toLegacy h pool).bind
      fun table => .refl _

/-! ## Bodies -/

/-- **Layouts that differ in the names of labels only.** -/
structure Layout.SameStanding (layout layout' : Layout) : Prop where
  starts : layout'.starts = layout.starts
  length : layout'.length = layout.length
  labels : layout.labels.SameStanding layout'.labels

omit h in
/-- The walk over the stream gives labels the same offsets, and stops at the
same instruction if it stops. -/
theorem Layout.SameStanding.walk {layout layout' : Layout} (hlayout : layout.SameStanding layout')
    (pool : ConstantPool) (elements : List Element) :
    (Layout.walk pool elements layout).1.SameStanding (Layout.walk pool elements layout').1
      ∧ (Layout.walk pool elements layout').2 = (Layout.walk pool elements layout).2 := by
  induction elements generalizing layout layout' with
  | nil => exact ⟨hlayout, rfl⟩
  | cons element elements ih =>
    cases element with
    | label label =>
      refine ih ⟨hlayout.starts, hlayout.length, ?_⟩
      show (layout.labels.setOffset label layout.length).SameStanding
        (layout'.labels.setOffset label layout'.length)
      rw [hlayout.length]
      exact hlayout.labels.setOffset label layout.length
    | instruction i =>
      unfold Layout.walk
      rw [hlayout.length]
      cases i.size layout.length pool with
      | error fault => exact ⟨hlayout, rfl⟩
      | ok size =>
        refine ih ⟨?_, ?_, hlayout.labels⟩
        · simp only [passInstruction, hlayout.starts, hlayout.length]
        · simp only [passInstruction, hlayout.length]

namespace Body

omit h in
/-- **Layout depends on the labels through their standing only.** -/
theorem layout_of_sameStanding (b : Body) {labels : LabelTable}
    (h : b.labels.SameStanding labels) (pool : ConstantPool) :
    (({ b with labels } : Body).layout pool).2 = (b.layout pool).2
      ∧ ∃ labels', (({ b with labels } : Body).layout pool).1
          = { (b.layout pool).1 with labels := labels' }
        ∧ (b.layout pool).1.labels.SameStanding labels' := by
  have hstart : Layout.SameStanding ⟨#[], 0, b.labels⟩ ⟨#[], 0, labels⟩ := ⟨rfl, rfl, h⟩
  obtain ⟨hwalk, hfault⟩ := hstart.walk pool b.elements.toList
  refine ⟨?_, _, rfl, hwalk.labels⟩
  unfold layout
  dsimp only
  rw [hfault, hwalk.starts, hwalk.length]

variable (b : Body) (hb : b.labels.SameStanding u)
include hb
omit h

theorem sameOutcome_position (label : Label) :
    SameOutcome (b.position label) (({ b with labels := u } : Body).position label) :=
  (hb.offset label).map _

theorem sameOutcome_encodeInstructions (starts : List Nat) (pool : ConstantPool) :
    SameOutcome (b.encodeInstructions starts pool)
      (({ b with labels := u } : Body).encodeInstructions starts pool) :=
  (SameOutcome.mapM_same _ fun entry => entry.1.sameOutcome_encode hb entry.2 pool).map _

theorem sameOutcome_encodeHandler (pool : ConstantPool) (handler : Handler) :
    SameOutcome (b.encodeHandler pool handler)
      (({ b with labels := u } : Body).encodeHandler pool handler) := by
  refine (sameOutcome_position b hb handler.start).bind fun start => ?_
  refine (sameOutcome_position b hb handler.finish).bind fun finish => ?_
  refine rel_ite (.error rfl) ?_
  exact (sameOutcome_position b hb handler.target).bind fun target => .refl _

theorem sameOutcome_encodeLines (pool : ConstantPool) :
    SameOutcome (b.encodeLines pool) (({ b with labels := u } : Body).encodeLines pool) := by
  refine SameOutcome.bind ?_ fun entries => .refl _
  exact .mapM_same b.lines.toList fun entry => (sameOutcome_position b hb entry.start).map _

theorem sameOutcome_encodeVariable (pool : ConstantPool) (v : LocalVariable) :
    SameOutcome (b.encodeVariable pool v)
      (({ b with labels := u } : Body).encodeVariable pool v) := by
  refine (sameOutcome_position b hb v.start).bind fun start => ?_
  exact (sameOutcome_position b hb v.finish).bind fun finish => .refl _

theorem sameOutcome_encodeAttributes (pool : ConstantPool) (context : BodyContext) :
    SameOutcome (b.encodeAttributes pool context)
      (({ b with labels := u } : Body).encodeAttributes pool context) := by
  refine .iteBind (.refl _) ((sameOutcome_encodeLines b hb pool).map _) fun lines => ?_
  refine .iteBind (.refl _) ?_ fun locals => ?_
  · exact (SameOutcome.mapM_same b.localVariables.toList
      fun v => sameOutcome_encodeVariable b hb pool v).bind fun entries => .refl _
  refine .iteBind (.refl _) (SameOutcome.map ?_ _) fun frames => .refl _
  refine .bind_same _ fun _ => ?_
  exact sameOutcome_encodeStackMap hb context.form b.frames.toList context.initialLocals pool

theorem sameOutcome_encodeLaidOut (starts : List Nat) (pool : ConstantPool)
    (context : BodyContext) :
    SameOutcome (b.encodeLaidOut starts pool context)
      (({ b with labels := u } : Body).encodeLaidOut starts pool context) := by
  refine (sameOutcome_encodeInstructions b hb starts pool).bind fun code => ?_
  refine (SameOutcome.mapM_same b.handlers.toList
    fun handler => sameOutcome_encodeHandler b hb pool handler).bind fun handlers => ?_
  refine .bind_same _ fun _ => ?_
  exact (sameOutcome_encodeAttributes b hb pool context).bind fun attributes => .refl _

/-- **A body whose labels have other names is encoded with the same
outcome.** -/
theorem sameOutcome_encode (pool : ConstantPool) (context : BodyContext) :
    SameOutcome (b.encode pool context).2
      (({ b with labels := u } : Body).encode pool context).2 := by
  obtain ⟨hresult, labels, hlabels, hstanding⟩ := layout_of_sameStanding b hb pool
  unfold encode
  dsimp only
  rw [hresult, hlabels]
  exact .bind_same _ fun laidOut =>
    sameOutcome_encodeLaidOut (b.layout pool).1 hstanding laidOut.1 pool context

end Body

/-! ## Methods and classes -/

omit h

/-- **Methods that differ in the names of their labels only.** -/
inductive Method.SameStanding : Method → Method → Prop where
  | refl (m : Method) : SameStanding m m
  | body {m : Method} {b : Body} {labels : LabelTable} (h : b.labels.SameStanding labels) :
    SameStanding { m with body := some b } { m with body := some { b with labels } }

/-- Labels call for no constants. -/
theorem Method.SameStanding.constants_eq {m m' : Method} (h : m.SameStanding m')
    (form : StackMapForm) : m'.constants form = m.constants form := by
  cases h <;> rfl

theorem Method.SameStanding.encode {m m' : Method} (h : m.SameStanding m') (pool : ConstantPool)
    (thisClass : String) (form : StackMapForm) :
    SameOutcome (m.encode pool thisClass form) (m'.encode pool thisClass form) := by
  cases h with
  | refl => exact .refl _
  | @body m b labels hlabels =>
    refine SameOutcome.bind (SameOutcome.map ?_ _) fun code => .refl _
    refine rel_ite ?_ (.refl _)
    refine .bind_same _ fun context => ?_
    exact (b.sameOutcome_encode hlabels pool context).bind fun code => .refl _

/-- Labels call for no constants. -/
theorem constants_of_sameStanding {methods methods' : List Method}
    (h : List.Forall₂ Method.SameStanding methods methods') (form : StackMapForm) :
    methods'.flatMap (·.constants form) = methods.flatMap (·.constants form) := by
  induction h with
  | nil => rfl
  | cons hm _ ih => rw [List.flatMap_cons, List.flatMap_cons, hm.constants_eq, ih]

/-- **Classes that differ in the names of labels only are encoded with the same
outcome.** -/
theorem Class.sameOutcome_encode (c : Class) {methods : Array Method}
    (h : List.Forall₂ Method.SameStanding c.methods.toList methods.toList) :
    SameOutcome c.encode ({ c with methods } : Class).encode := by
  have hconstants : ∀ name form, ({ c with methods } : Class).constants name form
      = c.constants name form := by
    intro name form
    unfold Class.constants
    rw [constants_of_sameStanding h form]
    rfl
  refine SameOutcome.bind_same c.checkNames fun name => ?_
  show SameOutcome _ (ConstantPool.empty.addAll (({ c with methods } : Class).constants name
    c.version.stackMapForm) >>= _)
  rw [hconstants]
  refine .bind_same _ fun opened => ?_
  refine .bind_same _ fun pool => ?_
  refine .bind_same _ fun thisClass => ?_
  refine .bind_same _ fun superClass => ?_
  refine .bind_same _ fun interfaces => ?_
  refine .bind_same _ fun _ => ?_
  refine .bind_same _ fun attributes => ?_
  refine .bind_same _ fun fields => ?_
  refine .bind_same _ fun _ => ?_
  exact (SameOutcome.mapM (h.imp fun m m' hm => hm.encode pool name _)).bind fun infos => .refl _

end BytecodeAssembler
