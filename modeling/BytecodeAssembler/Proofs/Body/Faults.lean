import BytecodeAssembler.Body.Encoding
import BytecodeAssembler.Proofs.Body.Layout
import BytecodeAssembler.Proofs.StackMap.Compaction

/-!
# Why a body cannot be encoded

Once the pool supplies the constants of a body, few things can still go
wrong: a value does not fit its field, a range is empty or ends before it
starts, frames are out of order, or a label was never placed. The lemmas of
this module say so part by part, for any class of faults `P` that has the
late faults in it and the faults of the labels that the part refers to.
-/

namespace BytecodeAssembler

/-- **The faults that no directive can be blamed for**, since they only show
when everything has an index and an offset. -/
inductive LateFault : Fault → Prop where
  /-- A value does not fit its field. -/
  | numeric {fault : Fault} (h : fault.IsNumeric) : LateFault fault
  /-- A handler guards nothing. -/
  | emptyHandlerRange (first last : String) : LateFault (.emptyHandlerRange first last)
  /-- The scope of a local variable ends before it starts. -/
  | localEndsFirst (name : String) : LateFault (.localEndsFirst name)
  /-- A frame does not come after the one before it. -/
  | framesOutOfOrder (offset previous : UInt16) :
      LateFault (.framesOutOfOrder offset previous)

variable {P : Fault → Prop} {pool : ConstantPool}

/-! ## Instructions -/

theorem Emission.result_failsOnly {e : Emission} (h : ∀ part ∈ e, FailsOnly P part) :
    FailsOnly P e.result :=
  (FailsOnly.mapM h).map

namespace Instruction

variable {labels : LabelTable} {offset : Nat} {target : Label}

theorem displacement_failsOnly (h : FailsOnly P (labels.offset target)) :
    FailsOnly P (displacement labels offset target) := by
  unfold displacement
  exact (h.bind fun _ _ => .ok _).map

theorem narrowJump_failsOnly (hnum : ∀ fault, fault.IsNumeric → P fault)
    (h : FailsOnly P (labels.offset target)) (opcode : Opcode) :
    FailsOnly P (narrowJump opcode labels offset target) := by
  unfold narrowJump
  cases hd : displacement labels offset target with
  | error fault => exact .error (displacement_failsOnly h fault hd)
  | ok distance => exact FailsOnly.ite (fun _ => .ok _) fun _ => .error (hnum _ rfl)

theorem wideJump_failsOnly (hnum : ∀ fault, fault.IsNumeric → P fault)
    (h : FailsOnly P (labels.offset target)) :
    FailsOnly P (wideJump labels offset target) := by
  unfold wideJump
  cases hd : displacement labels offset target with
  | error fault => exact .error (displacement_failsOnly h fault hd)
  | ok distance => exact FailsOnly.ite (fun _ => .ok _) fun _ => .error (hnum _ rfl)

/-- **An instruction is encoded** once its constant has an index and its
jumps are written. -/
theorem encode_failsOnly_of_jumps {i : Instruction}
    (hc : ∀ c, i.constant? = some c → FailsOnly P (pool.indexOf c))
    (hnarrow : ∀ target, i.operand = .branch target → i.opcode.kind ≠ .branchWide →
      FailsOnly P (narrowJump i.opcode labels offset target))
    (hwide : ∀ l ∈ i.labels, FailsOnly P (wideJump labels offset l)) :
    FailsOnly P (i.encode offset pool labels) := by
  refine Emission.result_failsOnly ?_
  -- what is emitted fails if one of its parts does, so the parts are gone through by operand
  unfold emission
  unfold constant? at hc
  unfold Instruction.labels at hwide
  cases hoperand : i.operand with
  | none | byte | short | arrayType =>
    simp only [List.forall_mem_singleton]
    exact .ok _
  | localVar | increment =>
    dsimp only
    split <;> simp only [List.forall_mem_singleton] <;> exact .ok _
  | branch target =>
    rw [hoperand] at hwide
    dsimp only
    split
    next =>
      simp only [List.forall_mem_cons, List.not_mem_nil, false_implies, implies_true, and_true]
      exact ⟨.ok _, hwide target List.mem_cons_self⟩
    next hkind =>
      simp only [List.forall_mem_singleton]
      exact hnarrow target hoperand hkind
  | constant c =>
    rw [hoperand] at hc
    simp only [List.forall_mem_singleton]
    exact (hc c rfl).map
  | interfaceMethod c slots =>
    rw [hoperand] at hc
    simp only [List.forall_mem_cons, List.not_mem_nil, false_implies, implies_true, and_true]
    exact ⟨.ok _, (hc c rfl).map, .ok _⟩
  | multiArray c dimensions =>
    rw [hoperand] at hc
    simp only [List.forall_mem_cons, List.not_mem_nil, false_implies, implies_true, and_true]
    exact ⟨.ok _, (hc c rfl).map, .ok _⟩
  | tableSwitch low fallback targets =>
    rw [hoperand] at hwide
    obtain ⟨hfallback, htargets⟩ := List.forall_mem_cons.1 hwide
    simp only [List.forall_mem_cons, List.forall_mem_map]
    exact ⟨.ok _, hfallback, .ok _, htargets⟩
  | lookupSwitch fallback pairs =>
    rw [hoperand] at hwide
    obtain ⟨hfallback, htargets⟩ := List.forall_mem_cons.1 hwide
    simp only [List.forall_mem_cons]
    -- each pair is a key, which is there already, and a jump
    refine ⟨.ok _, hfallback, .ok _, fun part hpart => ?_⟩
    obtain ⟨pair, hpair, hpart⟩ := List.mem_flatMap.1 hpart
    simp only [List.mem_cons, List.not_mem_nil, or_false] at hpart
    rcases hpart with rfl | rfl
    · exact .ok _
    · exact htargets pair.2 (List.mem_map.2 ⟨pair, hpair, rfl⟩)

/-- An instruction is encoded once its constant has an index and its labels
have offsets, unless a jump is too far. -/
theorem encode_failsOnly (hnum : ∀ fault, fault.IsNumeric → P fault) {i : Instruction}
    (hc : ∀ c, i.constant? = some c → FailsOnly P (pool.indexOf c))
    (hl : ∀ l ∈ i.labels, FailsOnly P (labels.offset l)) :
    FailsOnly P (i.encode offset pool labels) := by
  refine encode_failsOnly_of_jumps hc (fun target htarget _ => ?_)
    fun l hmem => wideJump_failsOnly hnum (hl l hmem)
  refine narrowJump_failsOnly hnum (hl target ?_) i.opcode
  rw [Instruction.labels, htarget]
  exact List.mem_cons_self

end Instruction

/-! ## Stack maps -/

section StackMaps

variable {labels : LabelTable} {frames : List Frame}

/-- A place given by a label is found if the label has an offset that fits
in two bytes. -/
theorem CodeOffset.resolve_label_failsOnly (hnum : ∀ fault, fault.IsNumeric → P fault)
    {l : Label} (h : FailsOnly P (labels.offset l)) :
    FailsOnly P ((CodeOffset.label l).resolve labels) := by
  simp only [CodeOffset.resolve]
  cases hl : labels.offset l with
  | error fault => exact .error (h fault hl)
  | ok position => exact FailsOnly.ite (fun _ => .ok _) fun _ => .error (hnum _ rfl)

theorem offsetDelta_failsOnly (horder : ∀ o p, P (.framesOutOfOrder o p))
    (before : Option UInt16) (offset : UInt16) : FailsOnly P (offsetDelta before offset) := by
  cases before with
  | none => exact .ok offset
  | some p => exact FailsOnly.ite (fun _ => .ok _) fun _ => .error (horder offset p)

/-- **Frames are compacted** once their labels have offsets and their classes
have indices, unless they are out of order. -/
theorem compactFrom_failsOnly (horder : ∀ o p, P (.framesOutOfOrder o p))
    (hlabels : ∀ f ∈ frames, ∀ l ∈ f.labels, FailsOnly P ((CodeOffset.label l).resolve labels))
    (hclasses : ∀ f ∈ frames, ∀ name ∈ f.classes, FailsOnly P (pool.classIndex name))
    (previous : List ResolvedType) (before : Option UInt16) (rev : List CompactFrame) :
    FailsOnly P (compactFrom pool labels frames previous before rev) := by
  induction frames generalizing previous before rev with
  | nil => exact .ok _
  | cons frame frames ih =>
    obtain ⟨hlabel, hlabels⟩ := List.forall_mem_cons.1 hlabels
    obtain ⟨hclass, hclasses⟩ := List.forall_mem_cons.1 hclasses
    obtain ⟨hoffset, hlocals, hstack⟩ := Frame.forall_mem_labels.1 hlabel
    refine (CodeOffset.resolve_failsOnly hoffset).bind fun offset _ => ?_
    refine (offsetDelta_failsOnly horder before offset).bind fun delta _ => ?_
    refine (resolveTypes_failsOnly hlocals).bind fun locals hlocals => ?_
    refine (resolveTypes_failsOnly hstack).bind fun stack hstack => ?_
    refine (Frame.selectFrame_failsOnly hclass hlocals hstack).bind fun compact _ => ?_
    exact ih hlabels hclasses locals (some offset) (compact :: rev)

/-- A frame is written in full once its labels have offsets and its classes
have indices. -/
theorem Frame.toLegacy_failsOnly {f : Frame}
    (hlabels : ∀ l ∈ f.labels, FailsOnly P ((CodeOffset.label l).resolve labels))
    (hclasses : ∀ name ∈ f.classes, FailsOnly P (pool.classIndex name)) :
    FailsOnly P (f.toLegacy pool labels) := by
  obtain ⟨hoffset, hlocals, hstack⟩ := Frame.forall_mem_labels.1 hlabels
  refine (CodeOffset.resolve_failsOnly hoffset).bind fun offset _ => ?_
  refine (resolveTypes_failsOnly hlocals).bind fun locals hlocals => ?_
  refine (encodeTypes_failsOnly fun name hname => hclasses name ?_).bind fun _ _ => ?_
  · exact Frame.mem_classes hlocals (fun _ => List.mem_append_left _) hname
  refine (resolveTypes_failsOnly hstack).bind fun stack hstack => ?_
  refine (encodeTypes_failsOnly fun name hname => hclasses name ?_).bind fun _ _ => .ok _
  exact Frame.mem_classes hstack (fun _ => List.mem_append_right _) hname

/-- **A stack map is written** in either form once its labels have offsets
and its constants have indices. The compact form can be out of order, but it
never drops or adds a number of locals that cannot be written. -/
theorem encodeStackMap_failsOnly (hlate : ∀ fault, LateFault fault → P fault)
    {form : StackMapForm} {initial : List DeclaredType}
    (hinitial : initial.filterMap DeclaredType.label? = [])
    (hlabels : ∀ f ∈ frames, ∀ l ∈ f.labels, FailsOnly P (labels.offset l))
    (hsupply : pool.Supplies (.utf8 form.attributeName
      :: frames.flatMap fun frame => frame.classes.map .classRef)) :
    FailsOnly P (encodeStackMap form frames initial pool labels) := by
  have hnum : ∀ fault, fault.IsNumeric → P fault := fun fault h => hlate fault (.numeric h)
  have hresolve : ∀ f ∈ frames, ∀ l ∈ f.labels,
      FailsOnly P ((CodeOffset.label l).resolve labels) :=
    fun f hf l hl => CodeOffset.resolve_label_failsOnly hnum (hlabels f hf l hl)
  have hclasses : ∀ f ∈ frames, ∀ name ∈ f.classes, FailsOnly P (pool.classIndex name) := by
    intro f hf name hname
    refine hsupply.classIndex (List.mem_cons_of_mem _ (List.mem_flatMap.2 ⟨f, hf, ?_⟩))
    exact List.mem_map.2 ⟨name, hname, rfl⟩
  cases form with
  | compact =>
    have hentry : FailsOnly P (resolveTypes initial labels) := by
      refine resolveTypes_failsOnly ?_
      rw [hinitial]
      exact List.forall_mem_nil _
    have hcompact : FailsOnly P (compactFrames frames initial pool labels) :=
      hentry.bind fun entry _ => compactFrom_failsOnly
        (fun o p => hlate _ (.framesOutOfOrder o p)) hresolve hclasses entry none []
    refine hcompact.bind fun table htable => ?_
    refine (hsupply.utf8Index List.mem_cons_self).bind fun index _ => ?_
    refine FailsOnly.bind (.mapM fun f hf => .of_eq_ok ?_) fun items _ => ?_
    · -- the forms chosen can all be written
      obtain ⟨entry, -, htable⟩ := bind_eq_ok_iff.1 htable
      obtain ⟨tail, _, htail, -, hcompacts⟩ := compacts_of_compactFrom htable
      obtain rfl : table = tail := htail
      exact (hcompacts.fewLocals f hf).exists_bytes
    · unfold Attribute.make
      exact FailsOnly.ite (fun _ => .ok _) fun _ => .error (hnum _ rfl)
  | legacy =>
    have hlegacy : FailsOnly P (legacyFrames frames pool labels) :=
      (FailsOnly.mapM fun f hf =>
        Frame.toLegacy_failsOnly (hresolve f hf) (hclasses f hf)).bind fun _ _ => .ok _
    exact hlegacy.bind fun table _ => (hsupply.makeAttribute List.mem_cons_self).mono hnum

end StackMaps

/-! ## The parts of a body that is laid out -/

namespace Body

variable {b : Body} {context : BodyContext}

theorem position_failsOnly {l : Label} (h : FailsOnly P (b.labels.offset l)) :
    FailsOnly P (b.position l) :=
  h.map

theorem encodeInstructions_failsOnly (hnum : ∀ fault, fault.IsNumeric → P fault)
    (hlabels : ∀ e ∈ b.elements.toList, ∀ l ∈ e.labels, FailsOnly P (b.labels.offset l))
    (hsupply : pool.Supplies
      (b.elements.toList.filterMap fun element => element.instruction?.bind (·.constant?)))
    (starts : List Nat) : FailsOnly P (b.encodeInstructions starts pool) := by
  refine FailsOnly.map (.mapM fun entry hentry => ?_)
  obtain ⟨element, helement, hi⟩ := List.mem_filterMap.1 (List.of_mem_zip hentry).1
  cases element with
  | label l => cases hi
  | instruction i =>
    cases hi
    refine Instruction.encode_failsOnly hnum (fun c hc => hsupply.indexOf ?_) fun l hl => ?_
    · exact List.mem_filterMap.2 ⟨.instruction entry.1, helement, hc⟩
    · exact hlabels (.instruction entry.1) helement l hl

/-- A handler is written unless its range is empty. -/
theorem encodeHandler_failsOnly (hlate : ∀ fault, LateFault fault → P fault) {h : Handler}
    (hlabels : ∀ l ∈ h.labels, FailsOnly P (b.labels.offset l))
    (hclass : ∀ name, h.catchType = some name → FailsOnly P (pool.classIndex name)) :
    FailsOnly P (b.encodeHandler pool h) := by
  simp only [Handler.labels, List.forall_mem_cons, List.not_mem_nil, false_implies,
    implies_true, and_true] at hlabels
  obtain ⟨hstart, hfinish, htarget⟩ := hlabels
  refine (position_failsOnly hstart).bind fun start _ => ?_
  refine (position_failsOnly hfinish).bind fun finish _ => ?_
  refine FailsOnly.ite (fun _ => .error (hlate _ (.emptyHandlerRange _ _))) fun _ => ?_
  refine (position_failsOnly htarget).bind fun target _ => ?_
  exact (FailsOnly.elim hclass).bind fun _ _ => .ok _

theorem encodeLines_failsOnly (hnum : ∀ fault, fault.IsNumeric → P fault)
    (hlabels : ∀ entry ∈ b.lines.toList, FailsOnly P (b.labels.offset entry.start))
    (hsupply : pool.Supplies [.utf8 "LineNumberTable"]) :
    FailsOnly P (b.encodeLines pool) := by
  refine FailsOnly.bind (.mapM fun entry hentry => ?_) fun entries _ => ?_
  · exact (position_failsOnly (hlabels entry hentry)).map
  · refine ((checkCount_failsOnly _ _).mono hnum).bind fun _ _ => ?_
    exact (hsupply.makeAttribute List.mem_cons_self).mono hnum

/-- A local variable is written unless its scope ends before it starts. -/
theorem encodeVariable_failsOnly (hlate : ∀ fault, LateFault fault → P fault)
    {v : LocalVariable} (hlabels : ∀ l ∈ v.labels, FailsOnly P (b.labels.offset l))
    (hsupply : pool.Supplies (variableConstants v)) :
    FailsOnly P (b.encodeVariable pool v) := by
  simp only [LocalVariable.labels, List.forall_mem_cons, List.not_mem_nil, false_implies,
    implies_true, and_true] at hlabels
  obtain ⟨hstart, hfinish⟩ := hlabels
  obtain ⟨hnames, hsignature⟩ := ConstantPool.Supplies.append_iff.1 hsupply
  refine (position_failsOnly hstart).bind fun start _ => ?_
  refine (position_failsOnly hfinish).bind fun finish _ => ?_
  refine FailsOnly.ite (fun _ => .error (hlate _ (.localEndsFirst _))) fun _ => ?_
  refine (hnames.utf8Index List.mem_cons_self).bind fun name _ => ?_
  refine (hnames.utf8Index (List.mem_cons_of_mem _ List.mem_cons_self)).bind fun _ _ => ?_
  cases hv : v.signature with
  | none => exact .ok _
  | some signature =>
    rw [hv] at hsignature
    refine (hsignature.utf8Index (List.mem_cons_of_mem _ List.mem_cons_self)).bind fun _ _ => ?_
    exact .ok _

/-- **What is written for a local variable**: where its scope starts and how
long it is, the indices of its name and descriptor, and its slot. The second
time the signature stands in the place of the descriptor. -/
theorem encodeVariable_eq_ok {v : LocalVariable} {e : VariableEntry}
    {typed? : Option VariableEntry} (h : b.encodeVariable pool v = .ok (e, typed?)) :
    (∃ finish, b.position v.start = .ok e.start ∧ b.position v.finish = .ok finish
        ∧ e.start ≤ finish ∧ e.length = finish - e.start ∧ pool.utf8Index v.name = .ok e.name
        ∧ pool.utf8Index v.descriptor = .ok e.type ∧ e.index = v.index)
      ∧ ((v.signature = none ∧ typed? = none)
        ∨ ∃ signature index, v.signature = some signature
          ∧ pool.utf8Index signature = .ok index ∧ typed? = some { e with type := index }) := by
  obtain ⟨start, hstart, h⟩ := bind_eq_ok_iff.1 h
  obtain ⟨finish, hfinish, h⟩ := bind_eq_ok_iff.1 h
  split at h
  next => cases h
  next hle =>
    obtain ⟨name, hname, h⟩ := bind_eq_ok_iff.1 h
    obtain ⟨descriptor, hdescriptor, h⟩ := bind_eq_ok_iff.1 h
    cases hv : v.signature with
    | none =>
      rw [hv] at h
      cases h
      exact ⟨⟨finish, hstart, hfinish, UInt16.not_lt.1 hle, rfl, hname, hdescriptor, rfl⟩,
        .inl ⟨rfl, rfl⟩⟩
    | some signature =>
      rw [hv] at h
      obtain ⟨index, hindex, h⟩ := bind_eq_ok_iff.1 h
      cases h
      exact ⟨⟨finish, hstart, hfinish, UInt16.not_lt.1 hle, rfl, hname, hdescriptor, rfl⟩,
        .inr ⟨signature, index, rfl, hindex, rfl⟩⟩

/-- A variable is written a second time exactly if it has a signature. -/
theorem isSome_of_encodeVariable {v : LocalVariable} {entry : VariableEntry × Option VariableEntry}
    (h : b.encodeVariable pool v = .ok entry) : entry.2.isSome = v.signature.isSome := by
  obtain ⟨e, typed?⟩ := entry
  obtain ⟨-, ⟨hv, rfl⟩ | ⟨signature, index, hv, -, rfl⟩⟩ := encodeVariable_eq_ok h
  · rw [hv]
    rfl
  · rw [hv]
    rfl

/-- **The local variables are written.** The table of signatures has a name
in the pool whenever there is one. -/
theorem encodeVariables_failsOnly (hlate : ∀ fault, LateFault fault → P fault)
    (hlabels : ∀ v ∈ b.localVariables.toList, ∀ l ∈ v.labels, FailsOnly P (b.labels.offset l))
    (hname : pool.Supplies [.utf8 "LocalVariableTable"])
    (hsupply : pool.Supplies (b.localVariables.toList.flatMap variableConstants)) :
    FailsOnly P (b.encodeVariables pool) := by
  have hnum : ∀ fault, fault.IsNumeric → P fault := fun fault h => hlate fault (.numeric h)
  refine FailsOnly.bind (.mapM fun v hv => ?_) fun entries hentries => ?_
  · exact encodeVariable_failsOnly hlate (hlabels v hv) (hsupply.of_mem_flatMap hv)
  refine ((checkCount_failsOnly _ _).mono hnum).bind fun _ _ => ?_
  refine ((hname.makeAttribute List.mem_cons_self).mono hnum).bind fun table _ => ?_
  cases hsignatures : entries.filterMap Prod.snd with
  | nil => exact .ok _
  | cons typed _ =>
    -- some entry is written a second time, so its variable has registered the name
    obtain ⟨⟨entry, typed?⟩, hentry, rfl⟩ := List.mem_filterMap.1
      (hsignatures ▸ List.mem_cons_self : typed ∈ entries.filterMap Prod.snd)
    obtain ⟨v, hv, hwritten⟩ := exists_mem_of_mapM hentries hentry
    obtain ⟨signature, hsignature⟩ : ∃ signature, v.signature = some signature :=
      Option.isSome_iff_exists.1 (isSome_of_encodeVariable hwritten).symm
    have hv := (ConstantPool.Supplies.append_iff.1 (hsupply.of_mem_flatMap hv)).2
    rw [hsignature] at hv
    exact ((hv.makeAttribute List.mem_cons_self).mono hnum).bind fun _ _ => .ok _

/-- **The attributes of a body are written** once the labels of its tables
have offsets and its constants have indices. -/
theorem encodeAttributes_failsOnly (hlate : ∀ fault, LateFault fault → P fault)
    (hlabels : ∀ l ∈ b.referred, FailsOnly P (b.labels.offset l))
    (hinitial : context.initialLocals.filterMap DeclaredType.label? = [])
    (hsupply : pool.Supplies (b.constants context.form)) :
    FailsOnly P (b.encodeAttributes pool context) := by
  have hnum : ∀ fault, fault.IsNumeric → P fault := fun fault h => hlate fault (.numeric h)
  obtain ⟨-, -, hlines, hvariables, hframes⟩ := forall_mem_referred.1 hlabels
  simp only [constants, ConstantPool.Supplies.append_iff] at hsupply
  obtain ⟨⟨⟨⟨⟨-, hline⟩, htable⟩, hvariable⟩, hframe⟩, hcustom⟩ := hsupply
  refine FailsOnly.iteBind (fun _ => .ok _) (fun hsome => ?_) fun lines => ?_
  · rw [if_neg hsome] at hline
    exact (encodeLines_failsOnly hnum hlines hline).map
  refine FailsOnly.iteBind (fun _ => .ok _) (fun hsome => ?_) fun locals => ?_
  · rw [if_neg hsome] at htable
    exact encodeVariables_failsOnly hlate hvariables htable hvariable
  refine FailsOnly.iteBind (fun _ => .ok _) (fun hsome => ?_) fun frames => ?_
  · rw [if_neg hsome] at hframe
    refine FailsOnly.map (((checkCount_failsOnly _ _).mono hnum).bind fun _ _ => ?_)
    exact encodeStackMap_failsOnly hlate hinitial hframes hframe
  refine FailsOnly.bind (.mapM fun entry hentry => ?_) fun custom _ => ?_
  · exact (hcustom.makeAttribute (List.mem_map.2 ⟨entry, hentry, rfl⟩)).mono hnum
  exact ((checkCount_failsOnly _ _).mono hnum).bind fun _ _ => .ok _

/-- **A body that is laid out is encoded** once the labels that it refers to
have offsets and its constants have indices. -/
theorem encodeLaidOut_failsOnly (hlate : ∀ fault, LateFault fault → P fault)
    (hlabels : ∀ l ∈ b.referred, FailsOnly P (b.labels.offset l))
    (hinitial : context.initialLocals.filterMap DeclaredType.label? = [])
    (hsupply : pool.Supplies (b.constants context.form)) (starts : List Nat) :
    FailsOnly P (b.encodeLaidOut starts pool context) := by
  have hnum : ∀ fault, fault.IsNumeric → P fault := fun fault h => hlate fault (.numeric h)
  have hattributes := encodeAttributes_failsOnly hlate hlabels hinitial hsupply
  obtain ⟨helements, hhandlers, -⟩ := forall_mem_referred.1 hlabels
  simp only [constants, ConstantPool.Supplies.append_iff] at hsupply
  obtain ⟨⟨⟨⟨⟨⟨⟨-, hconstants⟩, hcaught⟩, -⟩, -⟩, -⟩, -⟩, -⟩ := hsupply
  refine (encodeInstructions_failsOnly hnum helements hconstants starts).bind fun code _ => ?_
  refine FailsOnly.bind (.mapM fun handler hmem => ?_) fun handlers _ => ?_
  · refine encodeHandler_failsOnly hlate (hhandlers handler hmem) fun name hname => ?_
    exact hcaught.classIndex (List.mem_filterMap.2 ⟨handler, hmem, by rw [hname]; rfl⟩)
  refine ((checkCount_failsOnly _ _).mono hnum).bind fun _ _ => ?_
  exact hattributes.bind fun _ _ => .ok _

/-! ## The whole body -/

/-- **Why a body cannot be encoded.** -/
inductive EncodingFault (b : Body) : Fault → Prop where
  /-- Something does not fit or is out of order. -/
  | late {fault : Fault} (h : LateFault fault) : EncodingFault b fault
  /-- A label that the body refers to was never placed. -/
  | undefinedLabel {l : Label} (hreferred : l ∈ b.referred)
      (hunplaced : b.labels.isPlaced l = false) :
      EncodingFault b (.undefinedLabel (b.labels.nameOf l))

/-- **What can go wrong with a body** whose constants are all in the pool.
Laying it out gives an offset to every label of the stream, so a label
without one was never placed. -/
theorem WellLabelled.encode_failsOnly (hb : b.WellLabelled)
    (hinitial : context.initialLocals.filterMap DeclaredType.label? = [])
    (hsupply : pool.Supplies (b.constants context.form)) :
    FailsOnly b.EncodingFault (b.encode pool context).2 := by
  have hlayout : FailsOnly b.EncodingFault (b.layout pool).2 := by
    refine FailsOnly.mono (layout_failsOnly fun i c hi hc => hsupply c ?_)
      fun fault h => .late (.numeric h)
    simp only [constants, List.mem_append, List.mem_filterMap]
    exact .inl (.inl (.inl (.inl (.inl (.inl (.inr ⟨.instruction i, hi, hc⟩))))))
  refine hlayout.bind fun ⟨starts, length⟩ hlaid => ?_
  have hsame := b.sameLabels_layout pool
  obtain ⟨-, -, hoffsets⟩ := layout_eq_ok hlaid
  have hlate : ∀ fault, LateFault fault → b.EncodingFault fault := fun fault h => .late h
  refine encodeLaidOut_failsOnly (b := (b.layout pool).1) hlate (fun l hl => ?_) hinitial
    hsupply starts
  -- a placed label stands in the stream, and the walk passes it
  have hplaced : (b.layout pool).1.labels.isPlaced l = true →
      ∃ p, (b.layout pool).1.labels.offset l = .ok p := by
    intro hplaced
    obtain ⟨p, -, hp⟩ := hoffsets l (hb.referred l hl)
      ((hb.isPlaced_iff_mem l).1 ((hsame.isPlaced l).symm.trans hplaced))
    exact ⟨p, hp⟩
  refine (LabelTable.offset_failsOnly hplaced).mono fun fault ⟨hfault, hunplaced⟩ => ?_
  rw [hfault, hsame.nameOf l]
  exact .undefinedLabel hl ((hsame.isPlaced l).symm.trans hunplaced)

end Body

end BytecodeAssembler
