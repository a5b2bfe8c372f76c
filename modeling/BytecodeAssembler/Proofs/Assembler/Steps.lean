import BytecodeAssembler.Proofs.Assembler.CleanRun

/-!
# Directives that record nothing

A directive either records a fault or does what it is for, and what it is for
can be said exactly once nothing was recorded. A run that records nothing is
taken apart here into directives that record nothing.

A directive that works on the body of the open method makes one change to it.
What is said of the method outside of its body, and where the body ends, is
none of the business of such a change: the methods before and after it are
**alike** (`Assembler.BodyChange.alike`).
-/

namespace BytecodeAssembler

/-! ## Changes to the open method -/

namespace OpenMethod

variable {m m' m'' : OpenMethod}

/-- **Open methods of the same declaration**, which end at the same label. -/
structure Alike (m m' : OpenMethod) : Prop where
  method : m'.method = m.method
  finish : m'.finish = m.finish

namespace Alike

theorem refl (m : OpenMethod) : m.Alike m := ⟨rfl, rfl⟩

theorem trans (h : m.Alike m') (h' : m'.Alike m'') : m.Alike m'' :=
  ⟨h'.method.trans h.method, h'.finish.trans h.finish⟩

end Alike

theorem alike_markLine (m : OpenMethod) (line : Option Nat) : m.Alike (m.markLine line).1 := by
  unfold markLine
  cases line with
  | none => exact .refl m
  | some line =>
    dsimp only
    split
    next => exact .refl m
    next => split <;> exact ⟨rfl, rfl⟩

theorem alike_flush (m : OpenMethod) (autoLines : Bool) : m.Alike (m.flush autoLines).1 := by
  unfold flush
  cases m.pending with
  | none => exact .refl m
  | some entry =>
    cases autoLines with
    | false => exact ⟨rfl, rfl⟩
    | true =>
      have hmark := alike_markLine { m with pending := none } entry.2
      exact ⟨hmark.method, hmark.finish⟩

theorem alike_emit (m : OpenMethod) (autoLines : Bool) (line : Option Nat) (mnemonic : String)
    (argument : Argument) : m.Alike (m.emit autoLines line mnemonic argument).1 := by
  unfold emit
  split
  next => exact .refl m
  next =>
    split
    next => exact .refl m
    next opcode _ =>
      dsimp only
      split
      next => exact ⟨rfl, rfl⟩
      next =>
        have hflush := alike_flush
          { m with body := { m.body with labels := (argument.resolve opcode m.body.labels).2 } }
          autoLines
        exact ⟨hflush.method, hflush.finish⟩

theorem alike_plantLabel (m : OpenMethod) (autoLines : Bool) (name : String) :
    m.Alike (m.plantLabel autoLines name).1 := by
  have hflush : m.Alike (if Label.isNumeric name
      then ({ m with body := (m.body.mention name).2 }, [])
      else { m with body := (m.body.mention name).2 }.flush autoLines).1 := by
    split
    next => exact ⟨rfl, rfl⟩
    next => exact ⟨(alike_flush _ _).method, (alike_flush _ _).finish⟩
  unfold plantLabel
  dsimp only
  split
  next => exact hflush
  next => exact ⟨hflush.method, hflush.finish⟩

theorem alike_addLine (m : OpenMethod) (line : Int64) : m.Alike (m.addLine line).1 := by
  have hflush := alike_flush m false
  unfold addLine
  dsimp only
  split
  next => exact hflush
  next => exact ⟨hflush.method, hflush.finish⟩

theorem alike_addVariable (m : OpenMethod) (index : Int64) (name descriptor : String)
    (signature : Option String) (range : Option (String × String)) :
    m.Alike (m.addVariable index name descriptor signature range).1 := by
  unfold addVariable
  split
  next => exact .refl m
  next => cases range <;> exact ⟨rfl, rfl⟩

theorem alike_setMaxStack (m : OpenMethod) (value : Int64) : m.Alike (m.setMaxStack value).1 := by
  unfold setMaxStack
  split <;> exact ⟨rfl, rfl⟩

theorem alike_setMaxLocals (m : OpenMethod) (value : Int64) :
    m.Alike (m.setMaxLocals value).1 := by
  unfold setMaxLocals
  split <;> exact ⟨rfl, rfl⟩

theorem alike_beginFrame (m : OpenMethod) (autoLines : Bool) :
    m.Alike (m.beginFrame autoLines).1 := by
  have hflush := alike_flush m autoLines
  unfold beginFrame
  dsimp only
  split
  next => exact hflush
  next => exact ⟨hflush.method, hflush.finish⟩

theorem alike_inFrame (m : OpenMethod)
    (change : Frame → Nat → LabelTable → (Frame × Nat) × LabelTable × List Fault) :
    m.Alike (m.inFrame change).1 := by
  unfold inFrame
  split <;> exact ⟨rfl, rfl⟩

theorem alike_endFrame (m : OpenMethod) : m.Alike m.endFrame.1 := by
  unfold endFrame
  split
  next => exact .refl m
  next =>
    dsimp only
    split <;> exact ⟨rfl, rfl⟩

end OpenMethod

/-! ## Directives -/

/-- **The line that the next directive comes from.** -/
def Directive.lineAfter (line : Option Nat) : Directive → Option Nat
  | .line number => some number
  | _ => line

/-- **Whether the directive works on an annotation.** -/
def Directive.buildsTree : Directive → Bool
  | .beginTree _ _ | .element _ _ | .beginNested _ _ | .endTree => true
  | _ => false

namespace Assembler

variable {a : Assembler} {d : Directive}

/-- Recording shows. -/
theorem diagnostics_report_ne (a : Assembler) (fault : Fault) :
    (a.report fault).diagnostics ≠ a.diagnostics := by
  intro h
  have hsize := congrArg Array.size h
  rw [report, Array.size_push] at hsize
  omega

/-- **A change to the body of a method** is made where the method is, and to its
body alone. -/
theorem BodyChange.alike {autoLines : Bool} {line : Option Nat}
    {change : OpenMethod → OpenMethod × List Fault} (h : BodyChange autoLines line d change)
    (m : OpenMethod) : m.Alike (change m).1 := by
  cases h with
  | limitStack value => exact m.alike_setMaxStack value
  | limitLocals value => exact m.alike_setMaxLocals value
  | emit mnemonic argument => exact m.alike_emit autoLines line mnemonic argument
  | label name => exact m.alike_plantLabel autoLines name
  | handler => exact ⟨rfl, rfl⟩
  | lineNumber value => exact m.alike_addLine value
  | localVariable index name descriptor signature range =>
    exact m.alike_addVariable index name descriptor signature range
  | beginFrame => exact m.alike_beginFrame autoLines
  | frameOffset | frameLocal | frameStack | frameUseLocals => exact m.alike_inFrame _
  | endFrame => exact m.alike_endFrame

/-- **In a run that records nothing, no directive does.** -/
theorem run_clean_of_runAll {ds : List Directive}
    (h : (a.runAll (d :: ds)).diagnostics = a.diagnostics) :
    (a.run d).diagnostics = a.diagnostics
      ∧ ((a.run d).runAll ds).diagnostics = (a.run d).diagnostics := by
  have hfirst := (a.keeps_run d).recorded
  have hrest := ((a.run d).keeps_runAll ds).recorded
  rw [show (a.run d).runAll ds = a.runAll (d :: ds) from rfl, h] at hrest
  have hsame : (a.run d).diagnostics = a.diagnostics :=
    Array.toList_inj.1 (hfirst.eq_of_length_le hrest.length_le).symm
  exact ⟨hsame, h.trans hsame.symm⟩

theorem runAll_clean_of_append {ds ds' : List Directive}
    (h : (a.runAll (ds ++ ds')).diagnostics = a.diagnostics) :
    (a.runAll ds).diagnostics = a.diagnostics
      ∧ ((a.runAll ds).runAll ds').diagnostics = (a.runAll ds).diagnostics := by
  induction ds generalizing a with
  | nil => exact ⟨rfl, h⟩
  | cons d ds ih =>
    obtain ⟨hfirst, hrest⟩ := run_clean_of_runAll h
    obtain ⟨hmiddle, hlast⟩ := ih hrest
    exact ⟨hmiddle.trans hfirst, hlast⟩

/-! ## What few directives touch -/

theorem Acts.lineAfter {e : Effect} (h : a.Acts d e) (line : Option Nat) :
    e.lineAfter line = d.lineAfter line := by
  cases h with
  | head hd | attributes hd | body _ hd | declaration _ hd | trees hd => cases hd <;> rfl
  | _ => rfl

/-- **No directive changes what the run was told beforehand.** -/
theorem settings_run (a : Assembler) (d : Directive) : (a.run d).settings = a.settings := by
  have hsettings := congrArg Surroundings.settings (a.surroundings_run d)
  rw [← surroundings_perform] at hsettings
  exact hsettings.trans (a.told_perform (a.effect d)).1

/-- **The line changes by the directive that is for it**, and by no other. -/
theorem line_run (a : Assembler) (d : Directive) : (a.run d).line = d.lineAfter a.line := by
  have hline := congrArg Surroundings.line (a.surroundings_run d)
  rw [← surroundings_perform] at hline
  exact (hline.trans (a.told_perform (a.effect d)).2.1).trans ((a.acts d).lineAfter a.line)

theorem settings_runAll (a : Assembler) (ds : List Directive) :
    (a.runAll ds).settings = a.settings := by
  induction ds generalizing a with
  | nil => rfl
  | cons d ds ih => exact (ih (a.run d)).trans (a.settings_run d)

end Assembler

end BytecodeAssembler
