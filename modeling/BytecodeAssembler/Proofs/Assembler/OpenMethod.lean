import BytecodeAssembler.Assembler.OpenMethod
import BytecodeAssembler.Proofs.Body.Construction
import BytecodeAssembler.Proofs.Label.Mentions

/-!
# Open methods are sound

An open method holds labels outside of its body: those of its start and its
end, and those that the pending instruction and the open frame refer to. It
is **sound** if its body was built with the operations of bodies and all
these labels are of the body's table. Whatever is done to an open method
keeps it sound, also where it reports a fault, since labels are mentioned in
the table before anything can go wrong.

A method that is closed without a fault is **sealed**: every label of its
body is placed. That is the last time anyone looks at its labels before the
class is encoded.
-/

namespace BytecodeAssembler

/-! ## Bodies that grow -/

namespace Body

variable {b b' b'' : Body}

/-- **A built body with the labels of another one.** -/
structure Grown (b b' : Body) : Prop where
  /-- It was built. -/
  built : b'.Built
  /-- No label is lost. -/
  has : ∀ l, b.labels.Has l → b'.labels.Has l

theorem Grown.trans (h : b.Grown b') (h' : b'.Grown b'') : b.Grown b'' :=
  ⟨h'.built, fun l hl => h'.has l (h.has l hl)⟩

theorem has_here (b : Body) : b.here.2.labels.Has b.here.1 :=
  LabelTable.has_markPlaced.2 (LabelTable.has_fresh b.labels)

namespace Built

/-- Mentioning a name gives a body that has grown and a label of it. -/
theorem grown_mention (h : b.Built) {name : String} {label : Label}
    (hmention : b.mention name = (label, b')) : b.Grown b' ∧ b'.labels.Has label := by
  have hbuilt : (b.mention name).2.Built := .mention h name
  have hkeep := (LabelTable.samePlaced_mention b.labels name).has
  have hlabel : (b.mention name).2.labels.Has (b.mention name).1 :=
    h.wellLabelled.named.has_mention name
  rw [hmention] at hbuilt hlabel
  cases hmention
  exact ⟨⟨hbuilt, hkeep⟩, hlabel⟩

theorem grown_here (h : b.Built) : b.Grown b.here.2 :=
  ⟨.here h, fun l hl =>
    LabelTable.has_markPlaced.2 ((LabelTable.samePlaced_fresh b.labels).has l hl)⟩

/-- Mentioning names behind the back of a body is building it. -/
theorem grown_setLabels (h : b.Built) {t : LabelTable} (ht : b.labels.Mentions t) :
    b.Grown { b with labels := t } := by
  refine ⟨?_, ht.samePlaced.has⟩
  induction ht with
  | refl => exact h
  | mention _ name ih => exact .mention ih name

theorem grown_placeNew (h : b.Built) {label : Label} (hhas : b.labels.Has label)
    (hnew : b.labels.checkNew label = .ok ()) : b.Grown (b.placeNew label) :=
  ⟨.place h hhas (place_eq_ok_iff.2 ⟨hnew, rfl⟩), fun _ => LabelTable.has_markPlaced.2⟩

/-- A line number for the code that follows. -/
theorem grown_addLine (h : b.Built) (line : UInt16) :
    b.Grown (b.here.2.addLine ⟨b.here.1, line⟩) :=
  ⟨.addLine h.grown_here.built (has_here b), h.grown_here.has⟩

end Built

end Body

/-! ## Lines of a frame -/

namespace OpenMethod

/-- What was found in the table of labels is entered in a frame. -/
def enter {α : Type} (found : Except Fault α × LabelTable) (frame : Frame) (copied : Nat)
    (put : Frame → α → Frame) : (Frame × Nat) × LabelTable × List Fault :=
  match found with
  | (.error fault, labels) => ((frame, copied), labels, [fault])
  | (.ok a, labels) => ((put frame a, copied), labels, [])

/-- **Fill the open frame** with what is found in the table of labels, unless
that is at fault. -/
def fillFrame {α : Type} (m : OpenMethod) (find : LabelTable → Except Fault α × LabelTable)
    (put : Frame → α → Frame) : OpenMethod × List Fault :=
  m.inFrame fun frame copied labels => enter (find labels) frame copied put

theorem frameOffset_eq (m : OpenMethod) (position : String) :
    m.frameOffset position
      = m.fillFrame (DeclaredType.readPlace · position (.outOfRange "frame offset"))
        fun frame offset => { frame with offset } := by
  unfold frameOffset fillFrame
  congr 1
  funext frame copied labels
  dsimp only
  rcases DeclaredType.readPlace labels position (.outOfRange "frame offset") with ⟨_ | _, _⟩ <;> rfl

theorem frameLocal_eq (m : OpenMethod) (name : String) (argument : Option String) :
    m.frameLocal name argument
      = m.fillFrame (DeclaredType.ofName · name argument) Frame.pushLocal := by
  unfold frameLocal fillFrame
  congr 1
  funext frame copied labels
  dsimp only
  rcases DeclaredType.ofName labels name argument with ⟨_ | _, _⟩ <;> rfl

theorem frameStack_eq (m : OpenMethod) (name : String) (argument : Option String) :
    m.frameStack name argument
      = m.fillFrame (DeclaredType.ofName · name argument) Frame.pushStack := by
  unfold frameStack fillFrame
  congr 1
  funext frame copied labels
  dsimp only
  rcases DeclaredType.ofName labels name argument with ⟨_ | _, _⟩ <;> rfl

end OpenMethod

/-! ## Soundness -/

namespace OpenMethod

variable {m m' m'' : OpenMethod}

/-- **What holds of every open method** whose descriptor could be read. -/
structure Sound (m : OpenMethod) : Prop where
  /-- The body was built with its own operations. -/
  built : m.body.Built
  /-- The start is a label of the body. -/
  start : m.body.labels.Has m.start
  /-- So is the end. -/
  finish : m.body.labels.Has m.finish
  /-- So are the labels of the pending instruction. -/
  pending : ∀ entry, m.pending = some entry → ∀ l ∈ entry.1.labels, m.body.labels.Has l
  /-- So are the labels of the open frame. -/
  frame : ∀ entry, m.frame = some entry → ∀ l ∈ entry.1.labels, m.body.labels.Has l
  /-- The body is kept apart from the method. -/
  bare : m.method.body = none
  /-- The parameters can be read off the descriptor. -/
  readable : ∃ d, MethodDescriptor.read m.method.descriptor = .ok d

/-- **A sound method that goes on from another one.** -/
structure Continues (m m' : OpenMethod) : Prop where
  /-- It is sound. -/
  sound : m'.Sound
  /-- No label is lost. -/
  has : ∀ l, m.body.labels.Has l → m'.body.labels.Has l

theorem Continues.trans (h : m.Continues m') (h' : m'.Continues m'') : m.Continues m'' :=
  ⟨h'.sound, fun l hl => h'.has l (h.has l hl)⟩

/-- **Opening a method gives a sound one** if its descriptor can be read. -/
theorem sound_begin {method : Method} (hbody : method.body = none)
    (hread : ∃ d, MethodDescriptor.read method.descriptor = .ok d) : (begin method).Sound where
  built := .fresh (.here .empty)
  start := (LabelTable.samePlaced_fresh _).has _ (Body.has_here .empty)
  finish := LabelTable.has_fresh _
  pending entry h := by cases h
  frame entry h := by cases h
  bare := hbody
  readable := hread

namespace Sound

variable (h : m.Sound)
include h

theorem continues : m.Continues m := ⟨h, fun _ => id⟩

/-- A body that has grown keeps the method sound. -/
theorem setBody {b : Body} (hb : m.body.Grown b) : m.Continues { m with body := b } where
  sound :=
    { h with
      built := hb.built
      start := hb.has _ h.start
      finish := hb.has _ h.finish
      pending entry he l hl := hb.has l (h.pending entry he l hl)
      frame entry he l hl := hb.has l (h.frame entry he l hl) }
  has := hb.has

theorem setPending {pending : Option (Instruction × Option Nat)}
    (hp : ∀ entry, pending = some entry → ∀ l ∈ entry.1.labels, m.body.labels.Has l) :
    m.Continues { m with pending } :=
  ⟨{ h with pending := hp }, fun _ => id⟩

theorem setFrame {frame : Option (Frame × Nat)}
    (hf : ∀ entry, frame = some entry → ∀ l ∈ entry.1.labels, m.body.labels.Has l) :
    m.Continues { m with frame } :=
  ⟨{ h with frame := hf }, fun _ => id⟩

/-- What is said of the method outside of its body does not matter, as long
as the descriptor stays. -/
theorem setMethod {method : Method} (hbody : method.body = m.method.body)
    (hdescriptor : method.descriptor = m.method.descriptor) :
    { m with method }.Sound :=
  { h with
    bare := hbody.trans h.bare
    readable := hdescriptor ▸ h.readable }

/-! ## Instructions and labels -/

theorem markLine (line : Option Nat) : m.Continues (m.markLine line).1 := by
  unfold OpenMethod.markLine
  cases line with
  | none => exact h.continues
  | some line =>
    have hline : m.Continues { m with lastLine := some line } := ⟨{ h with }, fun _ => id⟩
    have hbody := h.built.grown_addLine (UInt16.ofNat line)
    dsimp only
    split
    next => exact h.continues
    next =>
      split
      next => exact hline.trans (hline.sound.setBody hbody)
      next => exact hline

/-- **Committing the pending instruction** keeps the method sound: the
labels that the instruction refers to are still those of the body. -/
theorem flush (autoLines : Bool) : m.Continues (m.flush autoLines).1 := by
  unfold OpenMethod.flush
  cases hpending : m.pending with
  | none => exact h.continues
  | some entry =>
    obtain ⟨i, line⟩ := entry
    have hnone : m.Continues { m with pending := none } := h.setPending fun _ hp => by cases hp
    have hmark : m.Continues (if autoLines then { m with pending := none }.markLine line
        else ({ m with pending := none }, [])).1 := by
      cases autoLines with
      | true => exact hnone.trans (hnone.sound.markLine line)
      | false => exact hnone
    have hlabels := fun l hl => hmark.has l (h.pending (i, line) hpending l hl)
    exact hmark.trans (hmark.sound.setBody ⟨.push hmark.sound.built hlabels, fun _ => id⟩)

/-- **Emitting an instruction** mentions its labels, whatever becomes of
it. -/
theorem emit (autoLines : Bool) (line : Option Nat) (mnemonic : String) (argument : Argument) :
    m.Continues (m.emit autoLines line mnemonic argument).1 := by
  unfold OpenMethod.emit
  split
  next => exact h.continues
  next =>
    split
    next => exact h.continues
    next opcode _ =>
      have hresolves := argument.resolves_resolve opcode h.built.wellLabelled.named
      have hbody := h.setBody (h.built.grown_setLabels hresolves.mentions)
      dsimp only
      split
      next => exact hbody
      next i hmake =>
        obtain ⟨operand, hoperand, hmake⟩ := bind_eq_ok_iff.1 hmake
        have hflush := hbody.sound.flush autoLines
        have hlabels : ∀ l ∈ i.labels, _ := fun l hl => hflush.has l
          (hresolves.has operand hoperand l (Instruction.mem_labels_of_make hmake hl))
        refine (hbody.trans hflush).trans (hflush.sound.setPending fun _ hp => ?_)
        cases hp
        exact hlabels

/-- **Placing a label** mentions it first. -/
theorem plantLabel (autoLines : Bool) (name : String) :
    m.Continues (m.plantLabel autoLines name).1 := by
  unfold OpenMethod.plantLabel
  rcases hmention : m.body.mention name with ⟨label, body⟩
  obtain ⟨hbody, hlabel⟩ := h.built.grown_mention hmention
  have hnamed : m.Continues { m with body } := h.setBody hbody
  have hflush : OpenMethod.Continues { m with body }
      (if Label.isNumeric name then ({ m with body }, [])
        else { m with body }.flush autoLines).1 := by
    split
    next => exact hnamed.sound.continues
    next => exact hnamed.sound.flush autoLines
  dsimp only
  split
  next => exact hnamed.trans hflush
  next hnew =>
    have hplaced := hflush.sound.built.grown_placeNew (hflush.has label hlabel) hnew
    exact (hnamed.trans hflush).trans (hflush.sound.setBody hplaced)

/-! ## The tables beside the stream -/

theorem addHandler (catchType : Option String) (start finish target : String) :
    m.Continues (m.addHandler catchType start finish target) := by
  unfold OpenMethod.addHandler
  rcases hstart : m.body.mention start with ⟨first, b₁⟩
  obtain ⟨hgrown₁, hfirst⟩ := h.built.grown_mention hstart
  dsimp only
  rcases hfinish : b₁.mention finish with ⟨last, b₂⟩
  obtain ⟨hgrown₂, hlast⟩ := hgrown₁.built.grown_mention hfinish
  dsimp only
  rcases htarget : b₂.mention target with ⟨label, b₃⟩
  obtain ⟨hgrown₃, hlabel⟩ := hgrown₂.built.grown_mention htarget
  have hlabels : ∀ l ∈ Handler.labels ⟨first, last, label, catchType⟩, b₃.labels.Has l :=
    List.forall_mem_cons.2 ⟨hgrown₃.has first (hgrown₂.has first hfirst),
      List.forall_mem_cons.2 ⟨hgrown₃.has last hlast, List.forall_mem_singleton.2 hlabel⟩⟩
  exact h.setBody ⟨.addHandler hgrown₃.built hlabels,
    ((hgrown₁.trans hgrown₂).trans hgrown₃).has⟩

theorem addLine (line : Int64) : m.Continues (m.addLine line).1 := by
  have hflush := h.flush false
  unfold OpenMethod.addLine
  dsimp only
  split
  next => exact hflush
  next line _ =>
    exact hflush.trans (hflush.sound.setBody (hflush.sound.built.grown_addLine line))

theorem addVariable (index : Int64) (name descriptor : String) (signature : Option String)
    (range : Option (String × String)) :
    m.Continues (m.addVariable index name descriptor signature range).1 := by
  unfold OpenMethod.addVariable
  split
  next => exact h.continues
  next index _ =>
    cases range with
    | none =>
      refine h.setBody ⟨.addVariable h.built ?_, fun _ => id⟩
      exact List.forall_mem_cons.2 ⟨h.start, List.forall_mem_singleton.2 h.finish⟩
    | some range =>
      obtain ⟨start, finish⟩ := range
      dsimp only
      rcases hstart : m.body.mention start with ⟨first, b₁⟩
      obtain ⟨hgrown₁, hfirst⟩ := h.built.grown_mention hstart
      dsimp only
      rcases hfinish : b₁.mention finish with ⟨last, b₂⟩
      obtain ⟨hgrown₂, hlast⟩ := hgrown₁.built.grown_mention hfinish
      refine h.setBody ⟨.addVariable hgrown₂.built ?_, (hgrown₁.trans hgrown₂).has⟩
      exact List.forall_mem_cons.2 ⟨hgrown₂.has first hfirst, List.forall_mem_singleton.2 hlast⟩

theorem setMaxStack (value : Int64) : m.Continues (m.setMaxStack value).1 := by
  unfold OpenMethod.setMaxStack
  split
  next => exact h.continues
  next value _ => exact h.setBody ⟨.setMaxStack h.built (some value), fun _ => id⟩

theorem setMaxLocals (value : Int64) : m.Continues (m.setMaxLocals value).1 := by
  unfold OpenMethod.setMaxLocals
  split
  next => exact h.continues
  next value _ => exact h.setBody ⟨.setMaxLocals h.built (some value), fun _ => id⟩

/-! ## Frames -/

theorem beginFrame (autoLines : Bool) : m.Continues (m.beginFrame autoLines).1 := by
  have hflush := h.flush autoLines
  unfold OpenMethod.beginFrame
  dsimp only
  split
  next => exact hflush
  next =>
    have hhere := hflush.sound.setBody hflush.sound.built.grown_here
    refine (hflush.trans hhere).trans (hhere.sound.setFrame fun _ hf => ?_)
    cases hf
    exact List.forall_mem_singleton.2 (Body.has_here _)

/-- **Changing the open frame** keeps the method sound if the change mentions
names and leaves only labels of the table in the frame. -/
theorem inFrame {change : Frame → Nat → LabelTable → (Frame × Nat) × LabelTable × List Fault}
    (hchange : ∀ f copied, (∀ l ∈ f.labels, m.body.labels.Has l) →
      m.body.labels.Mentions (change f copied m.body.labels).2.1
        ∧ ∀ l ∈ (change f copied m.body.labels).1.1.labels,
          (change f copied m.body.labels).2.1.Has l) :
    m.Continues (m.inFrame change).1 := by
  unfold OpenMethod.inFrame
  cases hframe : m.frame with
  | none => exact h.continues
  | some entry =>
    obtain ⟨f, copied⟩ := entry
    obtain ⟨hmentions, hlabels⟩ := hchange f copied (h.frame (f, copied) hframe)
    have hbody := h.setBody (h.built.grown_setLabels hmentions)
    refine hbody.trans (hbody.sound.setFrame fun _ hf => ?_)
    cases hf
    exact hlabels

/-- **Filling the open frame** keeps the method sound if the frame takes the
labels of what is found and no others. -/
theorem fillFrame {α : Type} {names : α → List Label}
    {find : LabelTable → Except Fault α × LabelTable} {put : Frame → α → Frame}
    (hfind : m.body.labels.Resolves names (find m.body.labels))
    (hput : ∀ f a, ∀ l ∈ (put f a).labels, l ∈ f.labels ∨ l ∈ names a) :
    m.Continues (m.fillFrame find put).1 := by
  refine h.inFrame fun f copied hf => ?_
  rcases hfound : find m.body.labels with ⟨fault | a, t⟩
  · exact hfind.keep_frame hfound hf
  · exact hfind.change_frame hfound hf (hput f a)

theorem frameOffset (position : String) : m.Continues (m.frameOffset position).1 := by
  rw [frameOffset_eq]
  refine h.fillFrame (DeclaredType.resolves_readPlace position _ h.built.wellLabelled.named)
    fun f place l hl => ?_
  rcases List.mem_append.1 hl with hl | hl
  · exact .inr hl
  · exact .inl (List.mem_append_right _ hl)

theorem frameLocal (name : String) (argument : Option String) :
    m.Continues (m.frameLocal name argument).1 := by
  rw [frameLocal_eq]
  exact h.fillFrame (DeclaredType.resolves_ofName name argument h.built.wellLabelled.named)
    fun _ _ _ => Frame.mem_labels_pushLocal.1

theorem frameStack (name : String) (argument : Option String) :
    m.Continues (m.frameStack name argument).1 := by
  rw [frameStack_eq]
  exact h.fillFrame (DeclaredType.resolves_ofName name argument h.built.wellLabelled.named)
    fun _ _ _ => Frame.mem_labels_pushStack.1

theorem frameUseLocals (count : Int64) : m.Continues (m.frameUseLocals count).1 := by
  refine h.inFrame fun f copied hf => ?_
  split
  next => split <;> exact ⟨.refl, hf⟩
  next => exact ⟨.refl, hf⟩

/-- **Ending a frame** adds it to the body. -/
theorem endFrame : m.Continues m.endFrame.1 := by
  unfold OpenMethod.endFrame
  cases hframe : m.frame with
  | none => exact h.continues
  | some entry =>
    obtain ⟨f, copied⟩ := entry
    have hnone : m.Continues { m with frame := none } := h.setFrame fun _ hf => by cases hf
    dsimp only
    split
    next => exact hnone
    next f' hcontinue =>
      have hadd : m.body.addFrame f copied = .ok (m.body.pushFrame f') :=
        map_eq_ok_iff.2 ⟨f', hcontinue, rfl⟩
      have hbuilt := Body.Built.addFrame h.built (h.frame (f, copied) hframe) hadd
      exact hnone.trans (hnone.sound.setBody ⟨hbuilt, fun _ => id⟩)

end Sound

end OpenMethod

/-! ## Closing a method -/

/-- **A method that is ready to be encoded.** -/
structure Method.Sealed (m : Method) : Prop where
  /-- The parameters can be read off the descriptor. -/
  readable : ∃ d, MethodDescriptor.read m.descriptor = .ok d
  /-- If it has a body, it may have one. -/
  allowed : ∀ b, m.body = some b → m.mayHaveCode = true
  /-- The body was built with its own operations. -/
  built : ∀ b, m.body = some b → b.Built
  /-- Every label of the body is placed. -/
  placed : ∀ b, m.body = some b → b.labels.unplaced = []

/-- **A sound method that is closed without a fault is sealed.** -/
theorem OpenMethod.Sound.close {m : OpenMethod} (h : m.Sound) {autoLines : Bool}
    (hclean : (m.close autoLines).2 = []) : (m.close autoLines).1.Sealed := by
  have hflush := (h.flush autoLines).sound
  unfold OpenMethod.close at hclean ⊢
  rcases hm : m.flush autoLines with ⟨m', faults⟩
  rw [hm] at hclean hflush
  dsimp only at hclean hflush ⊢
  -- nothing was found, so the last label was free and no mentioned one is missing
  obtain ⟨-, hlabels⟩ := List.append_eq_nil_iff.1 hclean
  cases hplace : m'.body.place m'.finish with
  | error fault =>
    rw [hplace] at hlabels
    cases hlabels
  | ok body =>
    rw [hplace] at hlabels
    cases hcheck : body.checkLabels with
    | error fault =>
      dsimp only at hlabels
      rw [hcheck] at hlabels
      cases hlabels
    | ok =>
      dsimp only
      rw [hcheck]
      by_cases hcode : m'.method.mayHaveCode = true
      · have hbuilt : body.Built := .place hflush.built hflush.finish hplace
        rw [if_pos hcode]
        refine ⟨hflush.readable, fun b _ => hcode, fun b hb => ?_, fun b hb => ?_⟩ <;> cases hb
        · exact hbuilt
        · exact Body.checkLabels_eq_ok_iff.1 hcheck
      · -- an open method has no body of its own yet
        have hnone : ∀ b, m'.method.body ≠ some b := by
          intro b hb
          rw [hflush.bare] at hb
          cases hb
        rw [if_neg hcode]
        exact ⟨hflush.readable, fun b hb => absurd hb (hnone b), fun b hb => absurd hb (hnone b),
          fun b hb => absurd hb (hnone b)⟩

end BytecodeAssembler
