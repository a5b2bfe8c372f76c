import BytecodeAssembler.Proofs.Assembler.PendingInstruction
import BytecodeAssembler.Proofs.Label.Renaming

/-!
# Methods under other label names

Two open methods that call their labels by different names go in lock step.
After every change they have the same labels, and whatever else they hold is the
same but for the texts of faults. A label can be mentioned by a change that
fails, and is made all the same, so the lock step covers changes that report
faults as well. Once the methods are closed they differ in the names of labels
only.
-/

namespace BytecodeAssembler

variable {r : LabelRenaming}

/-! ## Bodies -/

namespace Body

variable {b : Body} {labels : LabelTable}

theorem mention_renames (h : b.labels.Renames r labels) {name : String} {label : Label} {b' : Body}
    (hmention : b.mention name = (label, b')) :
    ∃ labels', ({ b with labels } : Body).mention (r.rename name)
        = (label, { b' with labels := labels' })
      ∧ b'.labels.Renames r labels' := by
  cases hmention
  obtain ⟨hlabel, hlater⟩ := h.mention name
  exact ⟨_, Prod.ext hlabel rfl, hlater⟩

theorem here_renames (h : b.labels.Renames r labels) :
    ∃ labels', ({ b with labels } : Body).here
        = (b.here.1, { b.here.2 with labels := labels' })
      ∧ b.here.2.labels.Renames r labels' := by
  obtain ⟨hlabel, hlater⟩ := h.fresh
  refine ⟨labels.fresh.2.markPlaced b.labels.fresh.1, ?_, hlater.markPlaced _⟩
  unfold here
  dsimp only
  rw [hlabel]
  rfl

/-- Labels that were never placed are missed alike. -/
theorem sameOutcome_checkLabels (h : b.labels.SameStanding labels) :
    SameOutcome b.checkLabels ({ b with labels } : Body).checkLabels := by
  have hnone := h.unplaced_eq_nil_iff
  unfold checkLabels
  dsimp only
  generalize b.labels.unplaced = names at hnone ⊢
  generalize labels.unplaced = names' at hnone ⊢
  cases names with
  | nil =>
    rw [hnone.2 rfl]
  | cons name names =>
    cases names' with
    | nil => cases hnone.1 rfl
    | cons => exact .error rfl

end Body

/-! ## Open methods -/

namespace OpenMethod

/-- **The same open method under new label names.** -/
def Renames (r : LabelRenaming) (m m' : OpenMethod) : Prop :=
  ∃ labels, m.body.labels.Renames r labels ∧ m' = m.withLabels labels

/-- **Two changes alike**: the methods are the same under new label names, and
the faults are of the same kinds. -/
structure ChangesAlike (r : LabelRenaming) (x y : OpenMethod × List Fault) : Prop where
  method : x.1.Renames r y.1
  faults : y.2.map Fault.kind = x.2.map Fault.kind

theorem ChangesAlike.of {m : OpenMethod} {labels : LabelTable} (h : m.body.labels.Renames r labels)
    (faults : List Fault) : ChangesAlike r (m, faults) (m.withLabels labels, faults) :=
  ⟨⟨labels, h, rfl⟩, rfl⟩

namespace ChangesAlike

variable {x y : OpenMethod × List Fault}

/-- A fault that comes after others. -/
theorem append (h : ChangesAlike r x y) {fault fault' : Fault}
    (hkind : fault'.kind = fault.kind) :
    ChangesAlike r (x.1, x.2 ++ [fault]) (y.1, y.2 ++ [fault']) := by
  refine ⟨h.method, ?_⟩
  rw [List.map_append, List.map_append, h.faults, List.map_singleton, List.map_singleton, hkind]

/-- Something is done to the method that leaves its labels alone. -/
theorem map (h : ChangesAlike r x y) (g : OpenMethod → OpenMethod)
    (hlabels : ∀ m, (g m).body.labels = m.body.labels)
    (hg : ∀ m labels, g (m.withLabels labels) = (g m).withLabels labels) :
    ChangesAlike r (g x.1, x.2) (g y.1, y.2) := by
  obtain ⟨⟨labels, hrenames, hy⟩, hfaults⟩ := h
  refine ⟨⟨labels, ?_, ?_⟩, hfaults⟩
  · rwa [hlabels]
  · rw [hy, hg]

end ChangesAlike

/-- What becomes of a label once the method is ready for it. -/
def placeIn (label : Label) (x : OpenMethod × List Fault) : OpenMethod × List Fault :=
  match x.1.body.labels.checkNew label with
  | .error fault => (x.1, x.2 ++ [fault])
  | .ok () => ({ x.1 with body := x.1.body.placeNew label }, x.2)

theorem plantLabel_eq (m : OpenMethod) (autoLines : Bool) (name : String) :
    m.plantLabel autoLines name = placeIn (m.body.mention name).1
      (if Label.isNumeric name then ({ m with body := (m.body.mention name).2 }, [])
        else { m with body := (m.body.mention name).2 }.flush autoLines) := rfl

theorem ChangesAlike.placeIn {x y : OpenMethod × List Fault} (h : ChangesAlike r x y)
    (label : Label) :
    ChangesAlike r (OpenMethod.placeIn label x) (OpenMethod.placeIn label y) := by
  obtain ⟨x, faults⟩ := x
  obtain ⟨y, faults'⟩ := y
  obtain ⟨⟨labels, hlabels, rfl⟩, hfaults⟩ := h
  have hnew : SameOutcome (x.body.labels.checkNew label)
      ((x.withLabels labels).body.labels.checkNew label) := hlabels.standing.checkNew label
  unfold OpenMethod.placeIn
  dsimp only
  generalize x.body.labels.checkNew label = outcome at hnew ⊢
  generalize (x.withLabels labels).body.labels.checkNew label = outcome' at hnew ⊢
  cases hnew with
  | error hkind => exact ChangesAlike.append ⟨⟨labels, hlabels, rfl⟩, hfaults⟩ hkind
  | ok => exact ⟨⟨labels.markPlaced label, hlabels.markPlaced label, rfl⟩, hfaults⟩

theorem enter_alike {α : Type} {x y : Except Fault α × LabelTable} (h : ResolvesAlike r x y)
    (frame : Frame) (copied : Nat) (put : Frame → α → Frame) :
    (enter y frame copied put).1 = (enter x frame copied put).1
      ∧ (enter x frame copied put).2.1.Renames r (enter y frame copied put).2.1
      ∧ (enter y frame copied put).2.2.map Fault.kind
        = (enter x frame copied put).2.2.map Fault.kind := by
  obtain ⟨outcome, t⟩ := x
  obtain ⟨outcome', u⟩ := y
  obtain ⟨houtcome, hlater⟩ := h
  cases houtcome with
  | error hkind => exact ⟨rfl, hlater, congrArg ([·]) hkind⟩
  | ok a => exact ⟨rfl, hlater, rfl⟩

variable {m : OpenMethod} {labels : LabelTable} (h : m.body.labels.Renames r labels)
include h

theorem changesAlike_markLine (line : Option Nat) :
    ChangesAlike r (m.markLine line) ((m.withLabels labels).markLine line) := by
  obtain ⟨labels', hhere, hlater⟩ := Body.here_renames h
  unfold markLine
  cases line with
  | none => exact .of h []
  | some line =>
    dsimp only [withLabels, withBody]
    rw [hhere]
    refine rel_ite (.of h []) (rel_ite ?_ ?_)
    · exact ⟨⟨labels', hlater, rfl⟩, rfl⟩
    · exact ⟨⟨labels, h, rfl⟩, rfl⟩

theorem changesAlike_flush (autoLines : Bool) :
    ChangesAlike r (m.flush autoLines) ((m.withLabels labels).flush autoLines) := by
  obtain ⟨method, body, pending, frame, start, finish, lastLine⟩ := m
  cases pending with
  | none => exact .of h []
  | some entry =>
    cases autoLines with
    | false => exact ⟨⟨labels, h, rfl⟩, rfl⟩
    | true =>
      exact (changesAlike_markLine (m := ⟨method, body, none, frame, start, finish, lastLine⟩) h
        entry.2).map (fun m => { m with body := m.body.push entry.1 }) (fun _ => rfl) fun _ _ => rfl

/-- **An instruction is emitted alike**, also when its argument is at fault. -/
theorem changesAlike_emit (autoLines : Bool) (line : Option Nat) (mnemonic : String)
    (argument : Argument) :
    ChangesAlike r (m.emit autoLines line mnemonic argument)
      ((m.withLabels labels).emit autoLines line mnemonic
        (argument.renameLabels r ((Opcode.find? mnemonic).any Argument.isJump))) := by
  unfold emit
  refine rel_ite (.of h _) ?_
  cases Opcode.find? mnemonic with
  | none => exact .of h _
  | some opcode =>
    have hresolves := Argument.resolvesAlike h opcode argument
    dsimp only [withLabels, withBody, Option.any]
    generalize argument.resolve opcode m.body.labels = x at hresolves ⊢
    generalize (argument.renameLabels r (Argument.isJump opcode)).resolve opcode labels = y
      at hresolves ⊢
    obtain ⟨houtcome, hlater⟩ := hresolves
    have hmake : SameOutcome (x.1.bind (Instruction.make opcode))
        (y.1.bind (Instruction.make opcode)) := houtcome.bind fun operand => .refl _
    generalize x.1.bind (Instruction.make opcode) = made at hmake ⊢
    generalize y.1.bind (Instruction.make opcode) = made' at hmake ⊢
    cases hmake with
    | error hkind => exact ⟨⟨y.2, hlater, rfl⟩, congrArg ([·]) hkind⟩
    | ok i =>
      exact (changesAlike_flush (m := m.withLabels x.2) hlater autoLines).map
        (fun m => { m with pending := some (i, line) }) (fun _ => rfl) fun _ _ => rfl

/-- **A label is planted alike**, since its new name is a number only if the old
one is. -/
theorem changesAlike_plantLabel (autoLines : Bool) (name : String) :
    ChangesAlike r (m.plantLabel autoLines name)
      ((m.withLabels labels).plantLabel autoLines (r.rename name)) := by
  obtain ⟨labels', hmention, hlater⟩ :=
    Body.mention_renames h (rfl : m.body.mention name = _)
  have hready : ChangesAlike r
      (if Label.isNumeric name then ({ m with body := (m.body.mention name).2 }, [])
        else { m with body := (m.body.mention name).2 }.flush autoLines)
      (if Label.isNumeric (r.rename name) then
        ({ m with body := { (m.body.mention name).2 with labels := labels' } }, [])
        else { m with body := { (m.body.mention name).2 with labels := labels' } }.flush
          autoLines) := by
    rw [r.isNumeric_rename]
    exact rel_ite (.of (m := { m with body := (m.body.mention name).2 }) hlater [])
      (changesAlike_flush (m := { m with body := (m.body.mention name).2 }) hlater autoLines)
  rw [plantLabel_eq, plantLabel_eq, show (m.withLabels labels).body.mention (r.rename name) = _
    from hmention]
  exact hready.placeIn _

theorem changesAlike_addHandler (catchType : Option String) (start finish target : String) :
    ChangesAlike r (m.addHandler catchType start finish target, [])
      ((m.withLabels labels).addHandler catchType (r.rename start) (r.rename finish)
        (r.rename target), []) := by
  rcases hstart : m.body.mention start with ⟨first, b₁⟩
  obtain ⟨labels₁, hstart', h₁⟩ := Body.mention_renames h hstart
  rcases hfinish : b₁.mention finish with ⟨last, b₂⟩
  obtain ⟨labels₂, hfinish', h₂⟩ := Body.mention_renames h₁ hfinish
  rcases htarget : b₂.mention target with ⟨label, b₃⟩
  obtain ⟨labels₃, htarget', h₃⟩ := Body.mention_renames h₂ htarget
  simp only [addHandler, withLabels, withBody, hstart, hstart', hfinish, hfinish', htarget,
    htarget']
  exact ⟨⟨labels₃, h₃, rfl⟩, rfl⟩

theorem changesAlike_addLine (line : Int64) :
    ChangesAlike r (m.addLine line) ((m.withLabels labels).addLine line) := by
  have hflush := changesAlike_flush h false
  unfold addLine
  generalize m.flush false = x at hflush ⊢
  generalize (m.withLabels labels).flush false = y at hflush ⊢
  cases narrowU2 "line number" line with
  | error fault => exact hflush.append rfl
  | ok line =>
    obtain ⟨x, faults⟩ := x
    obtain ⟨y, faults'⟩ := y
    obtain ⟨⟨labels', hlater, rfl⟩, hfaults⟩ := hflush
    obtain ⟨labels'', hhere, hlast⟩ := Body.here_renames hlater
    refine ⟨⟨labels'', hlast, ?_⟩, hfaults⟩
    dsimp only [withLabels, withBody]
    rw [hhere]
    rfl

theorem changesAlike_addVariable (index : Int64) (name descriptor : String)
    (signature : Option String) (range : Option (String × String)) :
    ChangesAlike r (m.addVariable index name descriptor signature range)
      ((m.withLabels labels).addVariable index name descriptor signature
        (range.map fun range => (r.rename range.1, r.rename range.2))) := by
  unfold addVariable
  cases narrowU2 "local variable index" index with
  | error fault => exact .of h _
  | ok index =>
    cases range with
    | none => exact ⟨⟨labels, h, rfl⟩, rfl⟩
    | some range =>
      rcases hstart : m.body.mention range.1 with ⟨first, b₁⟩
      obtain ⟨labels₁, hstart', h₁⟩ := Body.mention_renames h hstart
      rcases hfinish : b₁.mention range.2 with ⟨last, b₂⟩
      obtain ⟨labels₂, hfinish', h₂⟩ := Body.mention_renames h₁ hfinish
      simp only [withLabels, withBody, Option.map_some, hstart, hstart', hfinish, hfinish']
      exact ⟨⟨labels₂, h₂, rfl⟩, rfl⟩

theorem changesAlike_setMaxStack (value : Int64) :
    ChangesAlike r (m.setMaxStack value) ((m.withLabels labels).setMaxStack value) := by
  unfold setMaxStack
  cases narrowU2 "max stack" value <;> exact ⟨⟨labels, h, rfl⟩, rfl⟩

theorem changesAlike_setMaxLocals (value : Int64) :
    ChangesAlike r (m.setMaxLocals value) ((m.withLabels labels).setMaxLocals value) := by
  unfold setMaxLocals
  cases narrowU2 "max locals" value <;> exact ⟨⟨labels, h, rfl⟩, rfl⟩

/-! ### Frames -/

theorem changesAlike_beginFrame (autoLines : Bool) :
    ChangesAlike r (m.beginFrame autoLines) ((m.withLabels labels).beginFrame autoLines) := by
  have hflush := changesAlike_flush h autoLines
  unfold beginFrame
  generalize m.flush autoLines = x at hflush ⊢
  generalize (m.withLabels labels).flush autoLines = y at hflush ⊢
  obtain ⟨x, faults⟩ := x
  obtain ⟨y, faults'⟩ := y
  obtain ⟨⟨labels', hlater, rfl⟩, hfaults⟩ := hflush
  obtain ⟨labels'', hhere, hlast⟩ := Body.here_renames hlater
  refine rel_ite (ChangesAlike.append ⟨⟨labels', hlater, rfl⟩, hfaults⟩ rfl)
    ⟨⟨labels'', hlast, ?_⟩, hfaults⟩
  dsimp only [withLabels, withBody]
  rw [hhere]

theorem changesAlike_inFrame
    {change change' : Frame → Nat → LabelTable → (Frame × Nat) × LabelTable × List Fault}
    (hchange : ∀ frame copied t u, t.Renames r u →
      (change' frame copied u).1 = (change frame copied t).1
        ∧ (change frame copied t).2.1.Renames r (change' frame copied u).2.1
        ∧ (change' frame copied u).2.2.map Fault.kind
          = (change frame copied t).2.2.map Fault.kind) :
    ChangesAlike r (m.inFrame change) ((m.withLabels labels).inFrame change') := by
  obtain ⟨method, body, pending, frame, start, finish, lastLine⟩ := m
  cases frame with
  | none => exact .of h _
  | some entry =>
    obtain ⟨hframe, hlater, hfaults⟩ := hchange entry.1 entry.2 _ _ h
    refine ⟨⟨_, hlater, ?_⟩, hfaults⟩
    dsimp only [inFrame, withLabels, withBody]
    rw [hframe]

theorem changesAlike_fillFrame {α : Type} {find find' : LabelTable → Except Fault α × LabelTable}
    (hfind : ∀ t u, t.Renames r u → ResolvesAlike r (find t) (find' u)) (put : Frame → α → Frame) :
    ChangesAlike r (m.fillFrame find put) ((m.withLabels labels).fillFrame find' put) :=
  changesAlike_inFrame h fun frame copied t u htable =>
    enter_alike (hfind t u htable) frame copied put

theorem changesAlike_frameOffset (position : String) :
    ChangesAlike r (m.frameOffset position)
      ((m.withLabels labels).frameOffset (r.rename position)) := by
  rw [frameOffset_eq, frameOffset_eq]
  exact changesAlike_fillFrame h
    (fun _ _ htable => DeclaredType.resolvesAlike_readPlace htable position _) _

theorem changesAlike_frameLocal (name : String) (argument : Option String) :
    ChangesAlike r (m.frameLocal name argument)
      ((m.withLabels labels).frameLocal name (DeclaredType.renamePlace r name argument)) := by
  rw [frameLocal_eq, frameLocal_eq]
  exact changesAlike_fillFrame h
    (fun _ _ htable => DeclaredType.resolvesAlike_ofName htable name argument) _

theorem changesAlike_frameStack (name : String) (argument : Option String) :
    ChangesAlike r (m.frameStack name argument)
      ((m.withLabels labels).frameStack name (DeclaredType.renamePlace r name argument)) := by
  rw [frameStack_eq, frameStack_eq]
  exact changesAlike_fillFrame h
    (fun _ _ htable => DeclaredType.resolvesAlike_ofName htable name argument) _

theorem changesAlike_frameUseLocals (count : Int64) :
    ChangesAlike r (m.frameUseLocals count) ((m.withLabels labels).frameUseLocals count) := by
  refine changesAlike_inFrame h fun frame copied t u htable => ?_
  split
  next => cases narrowU2 "copied locals" count <;> exact ⟨rfl, htable, rfl⟩
  next => exact ⟨rfl, htable, rfl⟩

theorem changesAlike_endFrame : ChangesAlike r m.endFrame (m.withLabels labels).endFrame := by
  obtain ⟨method, body, pending, frame, start, finish, lastLine⟩ := m
  cases frame with
  | none => exact .of h _
  | some entry =>
    dsimp only [endFrame, withLabels, withBody]
    rw [show ({ body with labels } : Body).continueFrame entry.1 entry.2
      = body.continueFrame entry.1 entry.2 from rfl]
    cases body.continueFrame entry.1 entry.2 <;> exact ⟨⟨labels, h, rfl⟩, rfl⟩

/-! ### Begin and end -/

omit h

theorem renames_begin (r : LabelRenaming) (method : Method) :
    (begin method).Renames r (begin method) := by
  obtain ⟨_, hstart⟩ := (LabelTable.Renames.empty r).fresh
  obtain ⟨_, hfinish⟩ := (hstart.markPlaced LabelTable.empty.fresh.1).fresh
  exact ⟨_, hfinish, rfl⟩

/-- The body at the end of the method, and what is wrong with its labels. -/
def endBody (m : OpenMethod) : Body × List Fault :=
  match m.body.place m.finish with
  | .error fault => (m.body, [fault])
  | .ok body =>
    match body.checkLabels with
    | .error fault => (body, [fault])
    | .ok () => (body, [])

theorem close_eq_endBody (m : OpenMethod) (autoLines : Bool) :
    m.close autoLines
      = (if (m.flush autoLines).1.method.mayHaveCode then
          { (m.flush autoLines).1.method with body := some (m.flush autoLines).1.endBody.1 }
        else (m.flush autoLines).1.method,
        (m.flush autoLines).2
          ++ (if (m.flush autoLines).1.frame.isSome then [.frameOpenAtMethodEnd] else [])
          ++ (m.flush autoLines).1.endBody.2) := rfl

include h

theorem endBody_withLabels :
    ∃ labels', (m.withLabels labels).endBody.1 = { m.endBody.1 with labels := labels' }
      ∧ m.endBody.1.labels.SameStanding labels'
      ∧ (m.withLabels labels).endBody.2.map Fault.kind = m.endBody.2.map Fault.kind := by
  have hnew := h.standing.checkNew m.finish
  unfold endBody Body.place
  dsimp only [withLabels, withBody]
  generalize m.body.labels.checkNew m.finish = outcome at hnew ⊢
  generalize labels.checkNew m.finish = outcome' at hnew ⊢
  cases hnew with
  | error hkind => exact ⟨labels, rfl, h.standing, congrArg ([·]) hkind⟩
  | ok =>
    have hplaced := h.standing.markPlaced m.finish
    have hcheck : SameOutcome (m.body.placeNew m.finish).checkLabels
        (({ m.body with labels } : Body).placeNew m.finish).checkLabels :=
      Body.sameOutcome_checkLabels (b := m.body.placeNew m.finish) hplaced
    dsimp only [Except.map]
    generalize (m.body.placeNew m.finish).checkLabels = outcome at hcheck ⊢
    generalize (({ m.body with labels } : Body).placeNew m.finish).checkLabels = outcome'
      at hcheck ⊢
    cases hcheck with
    | error hkind => exact ⟨_, rfl, hplaced, congrArg ([·]) hkind⟩
    | ok => exact ⟨_, rfl, hplaced, rfl⟩

/-- **A method is closed alike.** -/
theorem close_withLabels (autoLines : Bool) :
    (m.close autoLines).1.SameStanding ((m.withLabels labels).close autoLines).1
      ∧ ((m.withLabels labels).close autoLines).2.map Fault.kind
        = (m.close autoLines).2.map Fault.kind := by
  have hflush := changesAlike_flush h autoLines
  rw [close_eq_endBody, close_eq_endBody]
  generalize m.flush autoLines = x at hflush ⊢
  generalize (m.withLabels labels).flush autoLines = y at hflush ⊢
  obtain ⟨x, faults⟩ := x
  obtain ⟨y, faults'⟩ := y
  obtain ⟨⟨labels', hlater, rfl⟩, hfaults⟩ := hflush
  obtain ⟨labels'', hbody, hstanding, hend⟩ := endBody_withLabels hlater
  dsimp only at hfaults ⊢
  constructor
  · rw [hbody]
    exact rel_ite (.body hstanding) (.refl _)
  · rw [List.map_append, List.map_append, hfaults, hend, List.map_append, List.map_append]
    rfl

end OpenMethod

end BytecodeAssembler
