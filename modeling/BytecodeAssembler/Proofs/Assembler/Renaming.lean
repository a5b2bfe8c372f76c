import BytecodeAssembler.Proofs.Assembler.Effects
import BytecodeAssembler.Proofs.Assembler.MethodRenaming

/-!
# Runs under other label names

Two runs of the same directives that call their labels by different names go in
lock step: the open methods are the same but for the names, so are the methods
closed so far, and the faults are recorded at the same directives. Label names
get no further than that. At the end the same class file comes out, or the same
faults are reported about labels of other names.
-/

namespace BytecodeAssembler

variable {r : LabelRenaming}

/-! ## Directives -/

/-- **The directive with its labels renamed**: wherever a word stands for a
label, the new name stands for it. -/
def Directive.renameLabels (r : LabelRenaming) : Directive → Directive
  | .emit mnemonic argument =>
    .emit mnemonic (argument.renameLabels r ((Opcode.find? mnemonic).any Argument.isJump))
  | .label name => .label (r.rename name)
  | .handler catchType start finish target =>
    .handler catchType (r.rename start) (r.rename finish) (r.rename target)
  | .localVariable index name descriptor generic range =>
    .localVariable index name descriptor generic
      (range.map fun range => (r.rename range.1, r.rename range.2))
  | .frameOffset position => .frameOffset (r.rename position)
  | .frameLocal type argument => .frameLocal type (DeclaredType.renamePlace r type argument)
  | .frameStack type argument => .frameStack type (DeclaredType.renamePlace r type argument)
  | d => d

/-- **What is left of a diagnostic without its text**: the line and the kind of
the fault. -/
def Diagnostic.outline (d : Diagnostic) : Option Nat × FaultKind := (d.line, d.fault.kind)

namespace Assembler

/-! ## The part of a run that knows labels -/

/-- The methods of a run and what was recorded. -/
structure Work where
  /-- The methods closed so far. -/
  methods : Array Method
  /-- The open method. -/
  method : Option OpenMethod
  /-- The faults so far. -/
  diagnostics : Array Diagnostic

/-- **The same work under new label names.** -/
structure Work.Renames (r : LabelRenaming) (w w' : Work) : Prop where
  methods : List.Forall₂ Method.SameStanding w.methods.toList w'.methods.toList
  method : Option.Rel (OpenMethod.Renames r) w.method w'.method
  diagnostics : w'.diagnostics.toList.map Diagnostic.outline
    = w.diagnostics.toList.map Diagnostic.outline

/-- The work of a run. -/
def work (a : Assembler) : Work := ⟨a.classSoFar.methods, a.method, a.diagnostics⟩

/-- The run with other work. -/
def withWork (a : Assembler) (w : Work) : Assembler :=
  { a with
    classSoFar := { a.classSoFar with methods := w.methods }
    method := w.method
    diagnostics := w.diagnostics }

/-- **The same run under new label names**: all but its work is the same. -/
def Renames (r : LabelRenaming) (a b : Assembler) : Prop :=
  ∃ w, a.work.Renames r w ∧ b = a.withWork w

theorem renames_start (r : LabelRenaming) (settings : Settings) :
    (start settings).Renames r (start settings) :=
  ⟨(start settings).work, ⟨.nil, .none, rfl⟩, rfl⟩

namespace Renames

variable {a b : Assembler}

/-- **Both runs have an open method, or none has.** -/
theorem method_cases (h : a.Renames r b) :
    (a.method = none ∧ b.method = none)
      ∨ ∃ m labels, a.method = some m ∧ b.method = some (m.withLabels labels)
        ∧ m.body.labels.Renames r labels := by
  obtain ⟨w, hw, rfl⟩ := h
  have hmethod : Option.Rel (OpenMethod.Renames r) a.method (a.withWork w).method := hw.method
  generalize (a.withWork w).method = o at hmethod ⊢
  generalize a.method = o' at hmethod ⊢
  cases hmethod with
  | none => exact .inl ⟨rfl, rfl⟩
  | some hm =>
    obtain ⟨labels, hlabels, rfl⟩ := hm
    exact .inr ⟨_, labels, rfl, rfl, hlabels⟩

theorem method_isSome (h : a.Renames r b) : b.method.isSome = a.method.isSome := by
  rcases h.method_cases with ⟨ha, hb⟩ | ⟨m, labels, ha, hb, -⟩
  · rw [ha, hb]
  · rw [ha, hb]
    rfl

theorem setMethod (h : a.Renames r b) {method method' : Option OpenMethod}
    (hmethod : Option.Rel (OpenMethod.Renames r) method method') :
    { a with method }.Renames r { b with method := method' } := by
  obtain ⟨w, hw, rfl⟩ := h
  exact ⟨⟨w.methods, method', w.diagnostics⟩, ⟨hw.methods, hmethod, hw.diagnostics⟩, rfl⟩

/-! ## Recording -/

theorem report (h : a.Renames r b) {fault fault' : Fault} (hkind : fault'.kind = fault.kind) :
    (a.report fault).Renames r (b.report fault') := by
  obtain ⟨w, hw, rfl⟩ := h
  refine ⟨⟨w.methods, w.method, w.diagnostics.push ⟨a.line, fault'⟩⟩,
    ⟨hw.methods, hw.method, ?_⟩, rfl⟩
  show (w.diagnostics.push ⟨a.line, fault'⟩).toList.map Diagnostic.outline
    = (a.diagnostics.push ⟨a.line, fault⟩).toList.map Diagnostic.outline
  have hone : Diagnostic.outline ⟨a.line, fault'⟩ = Diagnostic.outline ⟨a.line, fault⟩ :=
    congrArg (Prod.mk a.line) hkind
  rw [Array.toList_push, Array.toList_push, List.map_append, List.map_append, hw.diagnostics,
    List.map_singleton, List.map_singleton, hone]
  rfl

theorem reportAll {faults faults' : List Fault} (h : a.Renames r b)
    (hkinds : faults'.map Fault.kind = faults.map Fault.kind) :
    (a.reportAll faults).Renames r (b.reportAll faults') := by
  induction faults generalizing a b faults' with
  | nil =>
    obtain rfl := List.map_eq_nil_iff.1 hkinds
    exact h
  | cons fault faults ih =>
    obtain ⟨fault', rest, rfl, hkind, hrest⟩ := List.map_eq_cons_iff.1 hkinds
    exact (ih (h.report hkind) hrest :)

/-! ## The open method -/

/-- A change that does not look at the labels of the open method. -/
theorem modifyMethod (h : a.Renames r b) (change : Method → Method) :
    (a.modifyMethod change).Renames r (b.modifyMethod change) := by
  unfold Assembler.modifyMethod
  rcases h.method_cases with ⟨ha, hb⟩ | ⟨m, labels, ha, hb, hlabels⟩
  · rw [ha, hb]
    exact h
  · rw [ha, hb]
    exact h.setMethod (.some ⟨labels, hlabels, rfl⟩)

theorem modifyAttributes (h : a.Renames r b) (change : CommonAttributes → CommonAttributes) :
    (a.modifyAttributes change).Renames r (b.modifyAttributes change) := by
  rcases h.method_cases with ⟨ha, hb⟩ | ⟨m, labels, ha, hb, hlabels⟩
  · obtain ⟨⟨methods', method', diagnostics'⟩, hw, rfl⟩ := h
    obtain ⟨settings, c, line, diagnostics, form, field, method, trees⟩ := a
    obtain rfl : method = none := ha
    obtain rfl : method' = none := hb
    cases field <;> exact ⟨⟨methods', none, diagnostics'⟩, hw, rfl⟩
  · unfold Assembler.modifyAttributes
    rw [ha, hb]
    exact h.setMethod (.some ⟨labels, hlabels, rfl⟩)

/-! ## Members -/

theorem endField (h : a.Renames r b) : a.endField.Renames r b.endField := by
  obtain ⟨settings, c, line, diagnostics, form, field, method, trees⟩ := a
  obtain ⟨w, hw, rfl⟩ := h
  cases field <;> exact ⟨w, hw, rfl⟩

theorem setField (h : a.Renames r b) (f : Field) :
    { a with field := some f }.Renames r { b with field := some f } := by
  obtain ⟨w, hw, rfl⟩ := h
  exact ⟨w, hw, rfl⟩

/-- A method begins with labels that have no names yet. -/
theorem openMethod (h : a.Renames r b) (method : Method) :
    { a with
      form := some (a.form.getD a.classSoFar.version.stackMapForm)
      method := some (OpenMethod.begin method) }.Renames r
    { b with
      form := some (b.form.getD b.classSoFar.version.stackMapForm)
      method := some (OpenMethod.begin method) } := by
  obtain ⟨w, hw, rfl⟩ := h
  have hbegin : Option.Rel (OpenMethod.Renames r) (some (.begin method)) (some (.begin method)) :=
    .some (OpenMethod.renames_begin r method)
  exact ⟨⟨w.methods, some _, w.diagnostics⟩, ⟨hw.methods, hbegin, hw.diagnostics⟩, rfl⟩

/-- Methods that differ in the names of labels only go to the class. -/
theorem pushMethod (h : a.Renames r b) {m m' : Method} (hm : m.SameStanding m') :
    { a with
      classSoFar := { a.classSoFar with methods := a.classSoFar.methods.push m } }.Renames r
    { b with
      classSoFar := { b.classSoFar with methods := b.classSoFar.methods.push m' } } := by
  obtain ⟨w, hw, rfl⟩ := h
  refine ⟨⟨w.methods.push m', w.method, w.diagnostics⟩, ⟨?_, hw.method, hw.diagnostics⟩, rfl⟩
  show List.Forall₂ Method.SameStanding (a.classSoFar.methods.push m).toList
    (w.methods.push m').toList
  rw [Array.toList_push, Array.toList_push]
  exact List.rel_append hw.methods (.cons hm .nil)

theorem attach (h : a.Renames r b) (target : AnnotationTarget) (tree : AnnotationTree) :
    (a.attach target tree).Renames r (b.attach target tree) := by
  cases target with
  | visible | invisible => exact h.modifyAttributes _
  | visibleParameter | invisibleParameter => exact h.modifyMethod _

end Renames

/-! ## Effects -/

/-- **Effects that do the same under new label names**: the same effect, which
does not look at labels, or changes to the open method that are alike. -/
inductive EffectsAlike (r : LabelRenaming) : Effect → Effect → Prop where
  | same {e : Effect} (h : ∀ directive change, e ≠ .body directive change) : EffectsAlike r e e
  | body (directive : String) {change change' : OpenMethod → OpenMethod × List Fault}
      (h : ∀ (m : OpenMethod) labels, m.body.labels.Renames r labels →
        OpenMethod.ChangesAlike r (change m) (change' (m.withLabels labels))) :
      EffectsAlike r (.body directive change) (.body directive change')

theorem effectsAlike (a : Assembler) (w : Work) (d : Directive) :
    EffectsAlike r (a.effect d) ((a.withWork w).effect (d.renameLabels r)) := by
  cases d with
  | limitStack value =>
    exact .body _ fun m labels hlabels => OpenMethod.changesAlike_setMaxStack hlabels value
  | limitLocals value =>
    exact .body _ fun m labels hlabels => OpenMethod.changesAlike_setMaxLocals hlabels value
  | emit mnemonic argument =>
    exact .body _ fun m labels hlabels =>
      OpenMethod.changesAlike_emit hlabels _ _ mnemonic argument
  | label name =>
    exact .body _ fun m labels hlabels => OpenMethod.changesAlike_plantLabel hlabels _ name
  | handler catchType start finish target =>
    exact .body _ fun m labels hlabels =>
      OpenMethod.changesAlike_addHandler hlabels catchType start finish target
  -- ignored under automatic lines, on both sides alike
  | lineNumber value =>
    exact rel_ite (.same nofun) (.body _ fun m labels hlabels =>
      OpenMethod.changesAlike_addLine hlabels value)
  | localVariable index name descriptor signature range =>
    exact .body _ fun m labels hlabels =>
      OpenMethod.changesAlike_addVariable hlabels index name descriptor signature range
  | beginFrame =>
    exact .body _ fun m labels hlabels => OpenMethod.changesAlike_beginFrame hlabels _
  | frameOffset position =>
    exact .body _ fun m labels hlabels => OpenMethod.changesAlike_frameOffset hlabels position
  | frameLocal type argument =>
    exact .body _ fun m labels hlabels =>
      OpenMethod.changesAlike_frameLocal hlabels type argument
  | frameStack type argument =>
    exact .body _ fun m labels hlabels =>
      OpenMethod.changesAlike_frameStack hlabels type argument
  | frameUseLocals count =>
    exact .body _ fun m labels hlabels => OpenMethod.changesAlike_frameUseLocals hlabels count
  | endFrame => exact .body _ fun m labels hlabels => OpenMethod.changesAlike_endFrame hlabels
  -- the others mention no label, so renaming leaves them and their effect as they are
  | _ => exact .same nofun

/-- **Effects that are alike leave states alike**, and find faults of the same
kinds. -/
structure LeavesAlike (r : LabelRenaming) (x y : Assembler × List Fault) : Prop where
  state : x.1.Renames r y.1
  kinds : y.2.map Fault.kind = x.2.map Fault.kind

namespace Renames

variable {a b : Assembler}

/-- **An effect keeps runs in lock step.** -/
theorem perform {e e' : Effect} (h : a.Renames r b) (he : EffectsAlike r e e') :
    LeavesAlike r (a.perform e) (b.perform e') := by
  have hsome := h.method_isSome
  cases he with
  -- only what is done to the open body sees label names; each such change was renamed with its own
  | body directive hchange =>
    unfold Assembler.perform
    rcases h.method_cases with ⟨ha, hb⟩ | ⟨m, labels, ha, hb, hlabels⟩
    · rw [ha, hb]
      exact ⟨h, rfl⟩
    · obtain ⟨hmethod, hfaults⟩ := hchange m labels hlabels
      rw [ha, hb]
      exact ⟨h.setMethod (.some hmethod), hfaults⟩
  | same hother =>
    cases e with
    | line number =>
      obtain ⟨w, hw, rfl⟩ := h
      exact ⟨⟨w, hw, rfl⟩, rfl⟩
    | find faults => exact ⟨h, rfl⟩
    | version version =>
      obtain ⟨w, hw, rfl⟩ := h
      simp only [Assembler.perform, show (a.withWork w).form = a.form from rfl]
      cases version.refusedBy? a.form <;> exact ⟨⟨w, hw, rfl⟩, rfl⟩
    | head edit =>
      obtain ⟨w, hw, rfl⟩ := h
      simp only [Assembler.perform,
        show (a.withWork w).classSoFar.head = a.classSoFar.head from rfl]
      cases edit a.classSoFar.head <;> exact ⟨⟨w, hw, rfl⟩, rfl⟩
    | attributes change => exact ⟨h.modifyAttributes change, rfl⟩
    | beginField field faults =>
      simp only [Assembler.perform, hsome]
      exact rel_ite ⟨h, rfl⟩ ⟨h.endField.setField field, rfl⟩
    | endField => exact ⟨h.endField, rfl⟩
    | beginMethod method faults =>
      have hopen := h.endField.openMethod method
      simp only [endField_eq] at hopen
      simp only [Assembler.perform, hsome, endField_eq]
      exact rel_ite ⟨h, rfl⟩ ⟨hopen, rfl⟩
    | endMethod =>
      -- closing flushes the pending instruction, which asks for the settings
      have hlines : b.settings.autoLines = a.settings.autoLines := by
        obtain ⟨w, -, rfl⟩ := h
        rfl
      unfold Assembler.perform
      rcases h.method_cases with ⟨ha, hb⟩ | ⟨m, labels, ha, hb, hlabels⟩
      · rw [ha, hb]
        exact ⟨h, rfl⟩
      · obtain ⟨hclosed, hfaults⟩ := OpenMethod.close_withLabels hlabels a.settings.autoLines
        rw [ha, hb]
        dsimp only
        rw [hlines]
        exact ⟨(h.setMethod .none).pushMethod hclosed, hfaults⟩
    | body directive change => exact absurd rfl (hother directive change)
    | declaration directive change =>
      unfold Assembler.perform
      rcases h.method_cases with ⟨ha, hb⟩ | ⟨m, labels, ha, hb, hlabels⟩
      · rw [ha, hb]
        exact ⟨h, rfl⟩
      · rw [ha, hb]
        exact ⟨h.setMethod (.some ⟨labels, hlabels, rfl⟩), rfl⟩
    | trees edit =>
      obtain ⟨w, hw, rfl⟩ := h
      simp only [Assembler.perform, hsome, show (a.withWork w).trees = a.trees from rfl]
      cases edit a.method.isSome a.trees with
      | error fault => exact ⟨⟨w, hw, rfl⟩, rfl⟩
      | ok edited =>
        obtain ⟨trees, ended⟩ := edited
        have htrees : Renames r { a with trees } { a.withWork w with trees } := ⟨w, hw, rfl⟩
        cases ended with
        | none => exact ⟨htrees, rfl⟩
        | some ended => exact ⟨htrees.attach ended.1 ended.2, rfl⟩

/-! ## Runs -/

/-- **A directive keeps runs in lock step.** -/
theorem run (h : a.Renames r b) (d : Directive) :
    (a.run d).Renames r (b.run (d.renameLabels r)) := by
  obtain ⟨w, hw, rfl⟩ := h
  have houtcome := Renames.perform ⟨w, hw, rfl⟩ (a.effectsAlike w d)
  rw [run_eq, run_eq]
  exact houtcome.state.reportAll houtcome.kinds

theorem runAll (h : a.Renames r b) (ds : List Directive) :
    (a.runAll ds).Renames r (b.runAll (ds.map (Directive.renameLabels r))) := by
  induction ds generalizing a b with
  | nil => exact h
  | cons d ds ih => exact ih (h.run d)

/-! ## The end -/

theorem checkMethod (h : a.Renames r b) :
    Renames r (if a.method.isSome then a.report .methodOpenAtEnd else a)
      (if b.method.isSome then b.report .methodOpenAtEnd else b) := by
  rw [h.method_isSome]
  exact rel_ite (h.report rfl) h

theorem checkTrees (h : a.Renames r b) :
    Renames r (if a.trees.isEmpty then a else a.report .annotationOpenAtEnd)
      (if b.trees.isEmpty then b else b.report .annotationOpenAtEnd) := by
  obtain ⟨w, hw, rfl⟩ := h
  exact rel_ite ⟨w, hw, rfl⟩ (report ⟨w, hw, rfl⟩ rfl)

theorem checkClass (h : a.Renames r b) :
    Renames r (if a.className?.isNone then a.report .missingClass else a)
      (if b.className?.isNone then b.report .missingClass else b) := by
  obtain ⟨w, hw, rfl⟩ := h
  exact rel_ite (report ⟨w, hw, rfl⟩ rfl) ⟨w, hw, rfl⟩

theorem checkSuper (h : a.Renames r b) :
    Renames r
      (if a.classSoFar.superClass.isNone && a.className? != some Class.rootName then
        a.report .missingSuper else a)
      (if b.classSoFar.superClass.isNone && b.className? != some Class.rootName then
        b.report .missingSuper else b) := by
  obtain ⟨w, hw, rfl⟩ := h
  exact rel_ite (report ⟨w, hw, rfl⟩ rfl) ⟨w, hw, rfl⟩

theorem checkEnd (h : a.Renames r b) : a.checkEnd.Renames r b.checkEnd :=
  h.endField.checkMethod.checkTrees.checkClass.checkSuper

theorem diagnostics_isEmpty (h : a.Renames r b) :
    b.diagnostics.isEmpty = a.diagnostics.isEmpty := by
  obtain ⟨w, hw, rfl⟩ := h
  have hlength := congrArg List.length hw.diagnostics
  rw [List.length_map, List.length_map, Array.length_toList, Array.length_toList] at hlength
  exact congrArg (decide <| · = 0) hlength

/-- The classes differ in the names of labels only. -/
theorem finalClass (h : a.Renames r b) : SameOutcome a.finalClass.encode b.finalClass.encode := by
  obtain ⟨w, hw, rfl⟩ := h
  exact a.finalClass.sameOutcome_encode hw.methods

end Renames

/-- **The same end of a run**: the same class file, or as many diagnostics, one
by one with the same line and of the same kind. -/
inductive SameEnd : Except Failure ClassFile → Except Failure ClassFile → Prop where
  | file (file : ClassFile) : SameEnd (.ok file) (.ok file)
  | diagnosed {diagnostics diagnostics' : List Diagnostic}
    (h : diagnostics'.map Diagnostic.outline = diagnostics.map Diagnostic.outline) :
    SameEnd (.error (.diagnosed diagnostics)) (.error (.diagnosed diagnostics'))

theorem Renames.finish {a b : Assembler} (h : a.Renames r b) : SameEnd a.finish b.finish := by
  have hend := h.checkEnd
  have hencode := hend.finalClass
  unfold Assembler.finish
  dsimp only
  rw [hend.diagnostics_isEmpty]
  refine rel_ite ?_ ?_
  · generalize a.checkEnd.finalClass.encode = x at hencode ⊢
    generalize b.checkEnd.finalClass.encode = y at hencode ⊢
    cases hencode with
    | ok file => exact .file file
    | error hkind => exact .diagnosed (congrArg (fun kind => [(none, kind)]) hkind)
  · obtain ⟨w, hw, hb⟩ := hend
    rw [hb]
    exact .diagnosed hw.diagnostics

/-- **Label names matter only as identities.** A run whose labels are renamed
throughout ends like the run itself: with the same class file, or with
diagnostics of the same lines and kinds. -/
theorem finish_renameLabels (r : LabelRenaming) (settings : Settings) (ds : List Directive) :
    SameEnd ((start settings).runAll ds).finish
      ((start settings).runAll (ds.map (Directive.renameLabels r))).finish :=
  ((renames_start r settings).runAll ds).finish

/-- A method with labels of two names, in all places where a label can stand. The
class `top` is not one of them, nor is the offset in the frame. -/
def twoLabelRun (first last : String) : List Directive :=
  [.classHeader .empty "A", .superClass "B", .beginMethod .empty "m" "()V",
    .label first, .emit "new" (.word "top"), .emit "goto" (.word first),
    .emit "tableswitch" (.tableSwitch 0 none [first, last] first),
    .emit "lookupswitch" (.lookupSwitch [(1, last)] last),
    .label last, .handler none first last last,
    .localVariable 0 "x" "I" none (some (first, last)),
    .beginFrame, .frameOffset last, .frameLocal "Uninitialized" (some first),
    .frameStack "Object" (some "top"), .endFrame,
    .beginFrame, .frameOffset "3", .endFrame, .endMethod]

/-- The two labels may just as well exchange their names. -/
theorem finish_renameLabels_exchange :
    SameEnd ((start .initial).runAll (twoLabelRun "top" "end")).finish
      ((start .initial).runAll (twoLabelRun "end" "top")).finish :=
  finish_renameLabels (.exchange "top" "end" (by decide) (by decide)) .initial
    (twoLabelRun "top" "end")

end Assembler

end BytecodeAssembler
