import BytecodeAssembler.Proofs.Assembler.Effects
import BytecodeAssembler.Proofs.Assembler.OpenMethod
import BytecodeAssembler.Proofs.Class.Faults

/-!
# Clean runs

A run is **clean** if nothing was recorded. The checks that directives make
are spread over the run: a descriptor is read when its method begins, labels
are looked at when it ends, and the names of the class when everything is
over. Encoding relies on all of them. The state is **sound** if the methods
closed so far are sealed and the open one is sound; a directive keeps the
state sound unless it records a fault, and faults are never taken back, so
the state at the end of a clean run is sound. What encoding can still find
is a size, a range or an order that no directive could know.
-/

namespace BytecodeAssembler

namespace Assembler

variable {a a' a'' : Assembler} {d : Directive}

/-! ## Soundness -/

/-- **The state of a run in which nothing went wrong so far.** -/
structure Sound (a : Assembler) : Prop where
  /-- The methods closed are ready to be encoded. -/
  closed : ∀ m ∈ a.classSoFar.methods, m.Sealed
  /-- The open method is sound. -/
  opened : ∀ m, a.method = some m → m.Sound

/-- **A step of a run**: what was recorded stays, and if nothing was recorded
the state stays sound. -/
structure Keeps (a a' : Assembler) : Prop where
  /-- No diagnostic is lost. -/
  recorded : a.diagnostics.toList <+: a'.diagnostics.toList
  /-- A clean step from a sound state ends in one. -/
  sound : a'.diagnostics = #[] → a.Sound → a'.Sound

/-- Nothing was recorded before a clean state. -/
theorem Keeps.clean (h : a.Keeps a') (hclean : a'.diagnostics = #[]) : a.diagnostics = #[] := by
  have hnil : a.diagnostics.toList = [] := by
    have hprefix := h.recorded
    rw [hclean] at hprefix
    exact List.prefix_nil.1 hprefix
  exact Array.toList_eq_nil_iff.1 hnil

theorem Keeps.refl (a : Assembler) : a.Keeps a := ⟨List.prefix_rfl, fun _ => id⟩

theorem Keeps.trans (h : a.Keeps a') (h' : a'.Keeps a'') : a.Keeps a'' where
  recorded := h.recorded.trans h'.recorded
  sound hclean hsound := h'.sound hclean (h.sound (h'.clean hclean) hsound)

/-- **A step that touches no method.** -/
theorem keeps_of_eq (hdiagnostics : a'.diagnostics = a.diagnostics)
    (hmethods : a'.classSoFar.methods = a.classSoFar.methods) (hmethod : a'.method = a.method) :
    a.Keeps a' where
  recorded := hdiagnostics ▸ List.prefix_rfl
  sound _ h := by
    refine ⟨fun m hm => h.closed m ?_, fun m hm => h.opened m ?_⟩
    · rwa [hmethods] at hm
    · rwa [hmethod] at hm

/-! ## Recording -/

/-- **Recording a fault** ends every clean run. -/
theorem keeps_report (a : Assembler) (fault : Fault) : a.Keeps (a.report fault) where
  recorded := by
    show a.diagnostics.toList <+: (a.diagnostics.push _).toList
    rw [Array.toList_push]
    exact List.prefix_append _ _
  sound hclean := absurd hclean Array.push_ne_empty

theorem keeps_endField (a : Assembler) : a.Keeps a.endField := by
  rw [endField_eq]
  exact keeps_of_eq rfl rfl rfl

/-! ## The open method -/

/-- **A change to the body of a sound method** leaves it sound. -/
theorem BodyChange.sound {autoLines : Bool} {line : Option Nat}
    {change : OpenMethod → OpenMethod × List Fault} {m : OpenMethod}
    (h : BodyChange autoLines line d change) (hm : m.Sound) : (change m).1.Sound := by
  cases h with
  | limitStack value => exact (hm.setMaxStack value).sound
  | limitLocals value => exact (hm.setMaxLocals value).sound
  | emit mnemonic argument => exact (hm.emit _ _ _ _).sound
  | label name => exact (hm.plantLabel _ name).sound
  | handler catchType start finish target =>
    exact (hm.addHandler catchType start finish target).sound
  | lineNumber value => exact (hm.addLine value).sound
  | localVariable index name descriptor signature range =>
    exact (hm.addVariable index name descriptor signature range).sound
  | beginFrame => exact (hm.beginFrame _).sound
  | frameOffset position => exact (hm.frameOffset position).sound
  | frameLocal type argument => exact (hm.frameLocal type argument).sound
  | frameStack type argument => exact (hm.frameStack type argument).sound
  | frameUseLocals count => exact (hm.frameUseLocals count).sound
  | endFrame => exact hm.endFrame.sound

/-- **A method whose descriptor can be read is sound** when it begins. -/
theorem sound_begin_declare {flags : AccessFlags .methods} {name descriptor : String}
    (h : MethodDescriptor.faults descriptor = []) :
    (OpenMethod.begin (.declare flags name descriptor)).Sound := by
  unfold MethodDescriptor.faults at h
  cases hread : MethodDescriptor.read descriptor with
  | error fault =>
    rw [hread] at h
    cases h
  | ok type => exact OpenMethod.sound_begin rfl ⟨type, hread⟩

namespace Sound

/-- The open method is replaced. -/
theorem setMethod {m : OpenMethod} (h : a.Sound) (hm : m.Sound) :
    Sound { a with method := some m } where
  closed := h.closed
  opened _ hm' := Option.some.inj hm' ▸ hm

theorem modifyAttributes (h : a.Sound) (change : CommonAttributes → CommonAttributes) :
    (a.modifyAttributes change).Sound := by
  unfold Assembler.modifyAttributes
  cases hm : a.method with
  | some m => exact h.setMethod ((h.opened m hm).setMethod rfl rfl)
  | none => cases a.field <;> exact ⟨h.closed, fun m hm' => h.opened m (hm.trans hm')⟩

theorem modifyMethod (h : a.Sound) {change : Method → Method}
    (hbody : ∀ m, (change m).body = m.body)
    (hdescriptor : ∀ m, (change m).descriptor = m.descriptor) : (a.modifyMethod change).Sound := by
  unfold Assembler.modifyMethod
  cases hm : a.method with
  | none => exact h
  | some m => exact h.setMethod ((h.opened m hm).setMethod (hbody _) (hdescriptor _))

theorem attach (h : a.Sound) (target : AnnotationTarget) (tree : AnnotationTree) :
    (a.attach target tree).Sound := by
  unfold Assembler.attach
  cases target with
  | visible | invisible => exact h.modifyAttributes _
  | visibleParameter | invisibleParameter => exact h.modifyMethod (fun _ => rfl) fun _ => rfl

/-! ## Directives -/

/-- **A directive that finds no fault keeps the state sound.** -/
theorem does (h : a.Sound) (hdoes : a.Does d a') : a'.Sound := by
  cases hdoes with
  | line | ignored | version | head | edit => exact ⟨h.closed, h.opened⟩
  | attributes => exact h.modifyAttributes _
  | beginField | endField =>
    rw [endField_eq]
    exact ⟨h.closed, h.opened⟩
  | beginMethod flags name descriptor hout hread =>
    rw [endField_eq]
    exact ⟨h.closed, fun _ hm => Option.some.inj hm ▸ sound_begin_declare hread⟩
  | endMethod m hm hclose =>
    -- closing has checked the labels, so the method joins those that are sealed
    refine ⟨fun m' hm' => ?_, fun m' hm' => by cases hm'⟩
    rcases Array.mem_push.1 hm' with hm' | rfl
    · exact h.closed m' hm'
    · exact (h.opened m hm).close hclose
  | body m hd hm => exact h.setMethod (hd.sound (h.opened m hm))
  | declaration m hd hm =>
    cases hd <;> exact h.setMethod ((h.opened m hm).setMethod rfl rfl)
  | attach trees target tree =>
    have htrees : Sound { a with trees } := ⟨h.closed, h.opened⟩
    exact htrees.attach target tree

end Sound

/-! ## Runs -/

/-- **One directive** drops nothing that was recorded, and keeps the state
sound unless it records a fault. -/
theorem keeps_run (a : Assembler) (d : Directive) : a.Keeps (a.run d) where
  recorded := by
    rw [diagnostics_run]
    exact List.prefix_append _ _
  sound hclean hsound := by
    have hsame : (a.run d).diagnostics = a.diagnostics := by
      have hrecorded := a.diagnostics_run d
      rw [hclean] at hrecorded ⊢
      exact (Array.toList_eq_nil_iff.1 (List.append_eq_nil_iff.1 hrecorded.symm).1).symm
    exact hsound.does (does_run hsame)

theorem runAll_append (a : Assembler) (first rest : List Directive) :
    a.runAll (first ++ rest) = (a.runAll first).runAll rest :=
  List.foldl_append

/-- **A whole run** does what its directives do. -/
theorem keeps_runAll (a : Assembler) (directives : List Directive) :
    a.Keeps (a.runAll directives) := by
  induction directives generalizing a with
  | nil => exact .refl a
  | cons d rest ih => exact (a.keeps_run d).trans (ih (a.run d))

theorem sound_start (settings : Settings) : (start settings).Sound where
  closed m hm := absurd hm (Array.not_mem_empty m)
  opened m hm := by cases hm

/-! ## The end of a run -/

theorem keeps_reportIf (a : Assembler) (c : Prop) [Decidable c] (fault : Fault) :
    a.Keeps (if c then a.report fault else a) := by
  split
  next => exact a.keeps_report fault
  next => exact .refl a

theorem reportIf_clean {c : Prop} [Decidable c] {fault : Fault}
    (hclean : (if c then a.report fault else a).diagnostics = #[]) :
    ¬c ∧ (if c then a.report fault else a) = a := by
  split at hclean
  next => exact absurd hclean Array.push_ne_empty
  next h => exact ⟨h, if_neg h⟩

/-- The check at the end is a step like any other. -/
theorem keeps_checkEnd (a : Assembler) : a.Keeps a.checkEnd := by
  have htrees : ∀ b : Assembler,
      b.Keeps (if b.trees.isEmpty then b else b.report .annotationOpenAtEnd) := by
    intro b
    split
    next => exact .refl b
    next => exact b.keeps_report _
  refine a.keeps_endField.trans (Keeps.trans ?_ (keeps_reportIf _ _ _))
  refine Keeps.trans ?_ (keeps_reportIf _ _ _)
  exact (keeps_reportIf _ _ _).trans (htrees _)

/-- **A clean run fails only in the encoding**, and that is its one
diagnostic. -/
theorem finish_eq_error_iff (hclean : a.checkEnd.diagnostics = #[]) {failure : Failure} :
    a.finish = .error failure ↔ ∃ fault, a.checkEnd.finalClass.encode = .error fault
      ∧ failure = .diagnosed [⟨none, fault⟩] := by
  have hempty : a.checkEnd.diagnostics.isEmpty = true := by rw [hclean]; rfl
  unfold finish
  dsimp only
  rw [if_pos hempty]
  cases a.checkEnd.finalClass.encode with
  | ok file => simp
  | error fault => simp [eq_comm]

/-- **A clean end has its names**: the class is named, and so is the one
above it unless it needs none. -/
theorem names_of_checkEnd (a : Assembler) (hclean : a.checkEnd.diagnostics = #[]) :
    ∃ name, a.checkEnd.classSoFar.thisClass = some name
      ∧ (a.checkEnd.classSoFar.superClass = none → name = Class.rootName) := by
  -- what was open has been dealt with before the names are looked at
  obtain ⟨b₀, b, hb, hend⟩ : ∃ b₀ b : Assembler,
      b = (if b₀.className?.isNone then b₀.report .missingClass else b₀)
        ∧ a.checkEnd = (if b.classSoFar.superClass.isNone && b.className? != some Class.rootName
          then b.report .missingSuper else b) := ⟨_, _, rfl, rfl⟩
  rw [hend] at hclean ⊢
  obtain ⟨hsuper, hsame⟩ := reportIf_clean hclean
  rw [hsame] at hclean ⊢
  rw [hb] at hclean
  obtain ⟨hnamed, hsame'⟩ := reportIf_clean hclean
  obtain rfl : b = b₀ := hb.trans hsame'
  have hsome : b.className?.isSome := Option.isSome_iff_ne_none.2 fun hnone =>
    hnamed (Option.isNone_iff_eq_none.2 hnone)
  obtain ⟨name, hname⟩ := Option.isSome_iff_exists.1 hsome
  refine ⟨name, hname, fun hnone => ?_⟩
  by_contra hroot
  refine hsuper ?_
  rw [hnone, hname]
  exact bne_iff_ne.2 fun heq => hroot (Option.some.inj heq)

end Assembler

/-! ## What is left to find -/

theorem Method.Sealed.lateFault {m : Method} {fault : Fault} (h : m.Sealed)
    (hfault : m.EncodingFault fault) : LateFault fault := by
  cases hfault with
  | numeric hnumeric => exact .numeric hnumeric
  | codeNotAllowed hbody hcode =>
    rw [h.allowed _ hbody] at hcode
    cases hcode
  | descriptor hbody herror =>
    obtain ⟨d, hd⟩ := h.readable
    rw [hd] at herror
    cases herror
  | body hbody hfault =>
    cases hfault with
    | late hlate => exact hlate
    | undefinedLabel hreferred hunplaced =>
      have hhas := (h.built _ hbody).wellLabelled.referred _ hreferred
      rw [LabelTable.isPlaced_of_unplaced_eq_nil (h.placed _ hbody) hhas] at hunplaced
      cases hunplaced

/-- **A class with its names whose methods are sealed** can only fail
late. -/
theorem Class.encode_failsLate {c : Class} {name : String} (hname : c.thisClass = some name)
    (hsuper : c.superClass = none → name = rootName) (hmethods : ∀ m ∈ c.methods, m.Sealed) :
    FailsOnly LateFault c.encode := by
  have hencode : FailsOnly c.EncodingFault c.encode :=
    encode_failsOnly fun m hm b hb => ((hmethods m hm).built b hb).wellLabelled
  refine hencode.mono fun fault hfault => ?_
  cases hfault with
  | numeric hnumeric => exact .numeric hnumeric
  | unnamedClass hnone =>
    rw [hname] at hnone
    cases hnone
  | noSuperClass hname' hnone hroot =>
    rw [hname] at hname'
    cases hname'
    exact absurd (hsuper hnone) hroot
  | method hm hfault => exact (hmethods _ hm).lateFault hfault

/-- **The faults that are found before a class is encoded**, if they are ever
found: constants that were not registered and failures outside are none of a
clean run either. -/
inductive Fault.FoundEarly : Fault → Prop where
  -- Labels that were never placed
  | undefinedLabel (name : String) : FoundEarly (.undefinedLabel name)
  | undefinedLabels (names : List String) : FoundEarly (.undefinedLabels names)
  -- Names that are missing
  | unnamedClass : FoundEarly .unnamedClass
  | noSuperClass (name : String) : FoundEarly (.noSuperClass name)
  | missingClass : FoundEarly .missingClass
  | missingSuper : FoundEarly .missingSuper
  -- Descriptors that cannot be read
  | badBaseType (found : Char) : FoundEarly (.badBaseType found)
  | missingBaseType : FoundEarly .missingBaseType
  | badFieldType (found : Char) : FoundEarly (.badFieldType found)
  | missingFieldType : FoundEarly .missingFieldType
  | emptyClassName : FoundEarly .emptyClassName
  | openClassName (name : String) : FoundEarly (.openClassName name)
  | tooManyDimensions (count : Nat) : FoundEarly (.tooManyDimensions count)
  | missingOpenParenthesis : FoundEarly .missingOpenParenthesis
  | missingCloseParenthesis : FoundEarly .missingCloseParenthesis
  | descriptorLeftover (found : Char) (text : String) :
      FoundEarly (.descriptorLeftover found text)
  -- Code where none may be
  | codeNotAllowed (method : String) : FoundEarly (.codeNotAllowed method)
  -- What is nobody's to find
  | notRegistered (constant : Constant) : FoundEarly (.notRegistered constant)
  | outside {fault : Fault} (h : fault.kind = .inputOutput) : FoundEarly fault

theorem LateFault.not_foundEarly {fault : Fault} (h : LateFault fault) : ¬fault.FoundEarly := by
  intro hearly
  cases h with
  | numeric hnumeric =>
    cases hearly with
    | outside hkind =>
      rw [hnumeric.kind_eq] at hkind
      cases hkind
    | _ => cases hnumeric
  | emptyHandlerRange | localEndsFirst | framesOutOfOrder =>
    cases hearly with
    | outside hkind => cases hkind

namespace Assembler

/-- **A clean run fails late or not at all.** If nothing was recorded by any
directive or by the checks at the end, a failure is one diagnostic without a
line, and its fault is a value that does not fit, a handler that guards
nothing, a local variable that ends before it starts, or a frame out of
order: never one that is found earlier. -/
theorem clean_run_fails_late (settings : Settings) (directives : List Directive)
    (failure : Failure)
    (hclean : ((start settings).runAll directives).checkEnd.diagnostics = #[])
    (hfail : ((start settings).runAll directives).finish = .error failure) :
    ∃ fault, failure = .diagnosed [⟨none, fault⟩]
      ∧ (fault.kind = .numeric
        ∨ (∃ first last, fault = .emptyHandlerRange first last)
        ∨ (∃ name, fault = .localEndsFirst name)
        ∨ ∃ offset previous, fault = .framesOutOfOrder offset previous)
      ∧ ¬fault.FoundEarly := by
  have hkeeps := ((start settings).keeps_runAll directives).trans (keeps_checkEnd _)
  have hsound := hkeeps.sound hclean (sound_start settings)
  obtain ⟨name, hname, hsuper⟩ := names_of_checkEnd _ hclean
  have hencode : FailsOnly LateFault
      ((start settings).runAll directives).checkEnd.finalClass.encode :=
    Class.encode_failsLate hname hsuper hsound.closed
  obtain ⟨fault, hfault, rfl⟩ := (finish_eq_error_iff hclean).1 hfail
  have hlate : LateFault fault := hencode fault hfault
  refine ⟨fault, rfl, ?_, hlate.not_foundEarly⟩
  cases hlate with
  | numeric h => exact .inl h.kind_eq
  | emptyHandlerRange first last => exact .inr (.inl ⟨first, last, rfl⟩)
  | localEndsFirst name => exact .inr (.inr (.inl ⟨name, rfl⟩))
  | framesOutOfOrder offset previous => exact .inr (.inr (.inr ⟨offset, previous, rfl⟩))

/-- A run with two frames in a row, with no instruction between them. -/
def repeatedFrameRun : List Directive :=
  [.version .firstCompact, .classHeader .empty Class.rootName, .beginMethod .empty "m" "()V",
    .beginFrame, .endFrame, .beginFrame, .endFrame, .endMethod]

theorem checkEnd_repeatedFrameRun :
    ((start .initial).runAll repeatedFrameRun).checkEnd
      = { start .initial with classSoFar := repeatedFrameClass, form := some .compact } := by
  have hbegin : ((start .initial).runAll (repeatedFrameRun.take 3))
      = { start .initial with
          classSoFar := { repeatedFrameClass with methods := #[] }
          form := some .compact
          method := some (.begin (.declare .empty "m" "()V")) } := by
    show (((start .initial).setVersion .firstCompact).setClass .empty Class.rootName).beginMethod
      .empty "m" "()V" = _
    unfold beginMethod
    rw [MethodDescriptor.read_unit]
    rfl
  rw [← repeatedFrameRun.take_append_drop 3, runAll_append, hbegin]
  rfl

/-- Nothing is recorded in the run, and then its frames turn out to be at one
place. -/
theorem clean_run_fails_late_repeatedFrame :
    ((start .initial).runAll repeatedFrameRun).checkEnd.diagnostics = #[]
      ∧ ((start .initial).runAll repeatedFrameRun).finish
        = .error (.diagnosed [⟨none, .framesOutOfOrder 0 0⟩])
      ∧ ¬(Fault.framesOutOfOrder 0 0).FoundEarly := by
  have hclean : ((start .initial).runAll repeatedFrameRun).checkEnd.diagnostics = #[] := by
    rw [checkEnd_repeatedFrameRun]
    rfl
  have hfinish : ((start .initial).runAll repeatedFrameRun).finish
      = .error (.diagnosed [⟨none, .framesOutOfOrder 0 0⟩]) := by
    refine (finish_eq_error_iff hclean).2 ⟨_, ?_, rfl⟩
    rw [checkEnd_repeatedFrameRun]
    exact encode_repeatedFrameClass
  obtain ⟨fault, hfault, -, hlate⟩ :=
    clean_run_fails_late .initial repeatedFrameRun _ hclean hfinish
  cases hfault
  exact ⟨hclean, hfinish, hlate⟩

end Assembler

end BytecodeAssembler
