import BytecodeAssembler.Class.Encoding
import BytecodeAssembler.Proofs.Body.Faults
import BytecodeAssembler.Proofs.Class.Lowering
import BytecodeAssembler.Proofs.Descriptor.Faults

/-!
# Registration covers lowering

A class is encoded in two passes that know nothing of each other: one
registers constants, the other looks constants up. This module goes through
the second pass and finds every constant it looks up among those that the
first one registered, so that a lookup never fails, no label is asked for
its offset too early, and no stack map is chosen that cannot be written.
What can still go wrong is listed by `Class.EncodingFault`.
-/

namespace BytecodeAssembler

variable {pool : ConstantPool} {form : StackMapForm} {thisClass : String}

/-! ## Descriptors -/

/-- The locals on entry mention no label. -/
theorem filterMap_label?_initialLocals (thisClass method : String)
    (descriptor : MethodDescriptor) (isStatic : Bool) :
    (initialLocals thisClass method descriptor isStatic).filterMap DeclaredType.label? = [] := by
  rw [List.filterMap_eq_nil_iff]
  intro type htype
  rcases List.mem_append.1 htype with htype | htype
  · split at htype
    next => cases htype
    next =>
      split at htype <;> obtain rfl := List.mem_singleton.1 htype <;> rfl
  · obtain ⟨parameter, -, rfl⟩ := List.mem_map.1 htype
    cases parameter with
    | base type => cases type <;> rfl
    | ref name => rfl

/-! ## Fields and methods -/

theorem Field.encode_failsOnly {f : Field} (h : pool.Supplies f.constants) :
    FailsOnly Fault.IsNumeric (f.encode pool) := by
  simp only [constants, ConstantPool.Supplies.append_iff] at h
  obtain ⟨⟨hnames, hconstant⟩, hattributes⟩ := h
  refine FailsOnly.bind (FailsOnly.elim fun c hc => ?_) fun _ _ => ?_
  · rw [hc] at hconstant
    refine FailsOnly.map ?_
    refine (hconstant.indexOf (List.mem_cons_of_mem _ List.mem_cons_self)).bind fun _ _ => ?_
    exact hconstant.makeAttribute List.mem_cons_self
  refine (CommonAttributes.encode_failsOnly hattributes).bind fun _ _ => ?_
  refine (hnames.utf8Index List.mem_cons_self).bind fun _ _ => ?_
  exact (hnames.utf8Index (List.mem_cons_of_mem _ List.mem_cons_self)).bind fun _ _ => .ok _

namespace Method

variable {m : Method}

/-- **Why a method cannot be encoded.** -/
inductive EncodingFault (m : Method) : Fault → Prop where
  /-- A value does not fit its field. -/
  | numeric {fault : Fault} (h : fault.IsNumeric) : EncodingFault m fault
  /-- It has a body and must not have one. -/
  | codeNotAllowed {b : Body} (hbody : m.body = some b) (h : m.mayHaveCode = false) :
      EncodingFault m (.codeNotAllowed m.name)
  /-- It has a body, and its parameters cannot be read off its descriptor. -/
  | descriptor {b : Body} {fault : Fault} (hbody : m.body = some b)
      (h : MethodDescriptor.read m.descriptor = .error fault) : EncodingFault m fault
  /-- Its body cannot be encoded. -/
  | body {b : Body} {fault : Fault} (hbody : m.body = some b) (h : b.EncodingFault fault) :
      EncodingFault m fault

theorem bodyContext_failsOnly {b : Body} (hbody : m.body = some b) :
    FailsOnly m.EncodingFault (m.bodyContext thisClass form) := by
  refine FailsOnly.bind (fun fault h => .descriptor hbody h) fun descriptor _ => ?_
  exact FailsOnly.ite (fun _ => .ok _) fun _ => .error (.numeric rfl)

/-- What a method tells its body: the form of stack maps, and locals that
mention no label. -/
theorem bodyContext_eq_ok {context : BodyContext}
    (h : m.bodyContext thisClass form = .ok context) :
    context.form = form ∧ context.initialLocals.filterMap DeclaredType.label? = [] := by
  obtain ⟨descriptor, -, h⟩ := bind_eq_ok_iff.1 h
  dsimp only at h
  split at h
  next =>
    cases h
    exact ⟨rfl, filterMap_label?_initialLocals _ _ _ _⟩
  next => cases h

theorem encodeBody_failsOnly {b : Body} (hbody : m.body = some b) (hb : b.WellLabelled)
    (hsupply : pool.Supplies (b.constants form)) :
    FailsOnly m.EncodingFault (m.encodeBody pool thisClass form b) := by
  refine FailsOnly.ite (fun _ => ?_) fun hcode => ?_
  · refine (bodyContext_failsOnly hbody).bind fun context hcontext => ?_
    obtain ⟨rfl, hinitial⟩ := bodyContext_eq_ok hcontext
    refine FailsOnly.bind ?_ fun code _ => ?_
    · exact (hb.encode_failsOnly hinitial hsupply).mono fun fault h => .body hbody h
    · exact (hsupply.makeAttribute (by simp [Body.constants])).mono fun fault h => .numeric h
  · exact .error (.codeNotAllowed hbody (Bool.eq_false_iff.2 hcode))

theorem encodeExceptions_failsOnly
    (h : pool.Supplies (.utf8 "Exceptions" :: m.exceptions.toList.map .classRef)) :
    FailsOnly Fault.IsNumeric (m.encodeExceptions pool) := by
  refine FailsOnly.bind (.mapM fun name hname => ?_) fun indices _ => ?_
  · exact h.classIndex (List.mem_cons_of_mem _ (List.mem_map.2 ⟨name, hname, rfl⟩))
  refine (checkCount_failsOnly _ _).bind fun _ _ => ?_
  exact h.makeAttribute List.mem_cons_self

theorem encodeParameters_failsOnly {name : String} {parameters : Array (Array AnnotationTree)}
    (h : pool.Supplies (parameterConstants name parameters)) :
    FailsOnly Fault.IsNumeric (encodeParameters name parameters pool) := by
  refine FailsOnly.ite (fun _ => .ok _) fun hsome => ?_
  refine FailsOnly.ite (fun _ => .error rfl) fun _ => ?_
  rw [parameterConstants, if_neg hsome, ConstantPool.Supplies.cons_iff] at h
  obtain ⟨hname, htrees⟩ := h
  refine FailsOnly.bind (.mapM fun trees hmem => ?_) fun lists _ => ?_
  · exact (encodeAnnotations_failsOnly (htrees.of_mem_flatMap hmem)).map
  refine FailsOnly.bind ?_ fun _ _ => .ok _
  exact ConstantPool.Supplies.makeAttribute (List.forall_mem_singleton.2 hname)
    List.mem_cons_self

theorem encodeDefault_failsOnly {value : ElementValue}
    (h : pool.Supplies (.utf8 "AnnotationDefault" :: value.constants)) :
    FailsOnly Fault.IsNumeric (encodeDefault pool value) := by
  refine (value.encode_failsOnly (ConstantPool.Supplies.cons_iff.1 h).2).bind fun bytes _ => ?_
  exact h.makeAttribute List.mem_cons_self

/-- **What can go wrong with a method** whose constants are all in the
pool. -/
theorem encode_failsOnly (hsupply : pool.Supplies (m.constants form))
    (hbody : ∀ b, m.body = some b → b.WellLabelled) :
    FailsOnly m.EncodingFault (m.encode pool thisClass form) := by
  have hnum : ∀ fault, fault.IsNumeric → m.EncodingFault fault := fun fault h => .numeric h
  simp only [constants, ConstantPool.Supplies.append_iff] at hsupply
  obtain ⟨⟨⟨⟨⟨⟨hnames, hcode⟩, hthrown⟩, hvisible⟩, hinvisible⟩, hdefault⟩, hattributes⟩ :=
    hsupply
  refine FailsOnly.bind (FailsOnly.elim fun b hb => ?_) fun code _ => ?_
  · rw [hb] at hcode
    exact (encodeBody_failsOnly hb (hbody b hb) hcode).map
  refine FailsOnly.iteBind (fun _ => .ok _) (fun hsome => ?_) fun exceptions => ?_
  · rw [if_neg hsome] at hthrown
    exact ((encodeExceptions_failsOnly hthrown).mono hnum).map
  refine ((encodeParameters_failsOnly hvisible).mono hnum).bind fun visible _ => ?_
  refine ((encodeParameters_failsOnly hinvisible).mono hnum).bind fun invisible _ => ?_
  refine FailsOnly.bind (FailsOnly.elim fun value hvalue => ?_) fun default _ => ?_
  · rw [hvalue] at hdefault
    exact ((encodeDefault_failsOnly hdefault).mono hnum).map
  refine ((CommonAttributes.encode_failsOnly hattributes).mono hnum).bind fun common _ => ?_
  refine ((checkCount_failsOnly _ _).mono hnum).bind fun _ _ => ?_
  refine (hnames.utf8Index List.mem_cons_self).bind fun _ _ => ?_
  exact (hnames.utf8Index (List.mem_cons_of_mem _ List.mem_cons_self)).bind fun _ _ => .ok _

end Method

/-! ## Classes -/

theorem Enclosing.encode_failsOnly {e : Enclosing} (h : pool.Supplies e.constants) :
    FailsOnly Fault.IsNumeric (e.encode pool) := by
  obtain ⟨hnames, hmethod⟩ := ConstantPool.Supplies.append_iff.1 h
  refine FailsOnly.bind (FailsOnly.elim fun method hm => ?_) fun _ _ => ?_
  · rw [hm] at hmethod
    exact hmethod.indexOf List.mem_cons_self
  refine (hnames.classIndex (List.mem_cons_of_mem _ List.mem_cons_self)).bind fun _ _ => ?_
  exact hnames.makeAttribute List.mem_cons_self

theorem InnerClass.encode_failsOnly {c : InnerClass} (h : pool.Supplies c.constants) :
    FailsOnly Fault.IsNumeric (c.encode pool) := by
  simp only [constants, List.map_append, ConstantPool.Supplies.append_iff] at h
  obtain ⟨⟨hinner, houter⟩, hname⟩ := h
  refine FailsOnly.bind (FailsOnly.elim fun inner hc => ?_) fun _ _ => ?_
  · exact hinner.classIndex (List.mem_map.2 ⟨inner, Option.mem_toList.2 hc, rfl⟩)
  refine FailsOnly.bind (FailsOnly.elim fun outer hc => ?_) fun _ _ => ?_
  · exact houter.classIndex (List.mem_map.2 ⟨outer, Option.mem_toList.2 hc, rfl⟩)
  refine FailsOnly.bind (FailsOnly.elim fun name hc => ?_) fun _ _ => .ok _
  exact hname.utf8Index (List.mem_map.2 ⟨name, Option.mem_toList.2 hc, rfl⟩)

namespace Class

variable {c : Class}

theorem encodeInnerClasses_failsOnly
    (h : pool.Supplies
      (.utf8 "InnerClasses" :: c.innerClasses.toList.flatMap InnerClass.constants)) :
    FailsOnly Fault.IsNumeric (c.encodeInnerClasses pool) := by
  have hinner := (ConstantPool.Supplies.cons_iff.1 h).2
  refine FailsOnly.bind (.mapM fun inner hmem => ?_) fun items _ => ?_
  · exact InnerClass.encode_failsOnly (hinner.of_mem_flatMap hmem)
  refine (checkCount_failsOnly _ _).bind fun _ _ => ?_
  exact h.makeAttribute List.mem_cons_self

/-- The class's own attributes are written once their constants have
indices. -/
theorem encodeAttributes_failsOnly (h : pool.Supplies c.attributeConstants) :
    FailsOnly Fault.IsNumeric (c.encodeAttributes pool) := by
  simp only [attributeConstants, ConstantPool.Supplies.append_iff] at h
  obtain ⟨⟨⟨⟨hsource, henclosing⟩, hinner⟩, hdebug⟩, hattributes⟩ := h
  refine FailsOnly.bind (FailsOnly.elim fun file hfile => FailsOnly.map ?_) fun _ _ => ?_
  · rw [hfile] at hsource
    refine (hsource.utf8Index (List.mem_cons_of_mem _ List.mem_cons_self)).bind fun _ _ => ?_
    exact hsource.makeAttribute List.mem_cons_self
  refine FailsOnly.bind (FailsOnly.elim fun e he => FailsOnly.map ?_) fun _ _ => ?_
  · rw [he] at henclosing
    exact e.encode_failsOnly henclosing
  refine FailsOnly.iteBind (fun _ => .ok _) (fun hsome => ?_) fun _ => ?_
  · rw [if_neg hsome] at hinner
    exact (encodeInnerClasses_failsOnly hinner).map
  refine FailsOnly.bind (FailsOnly.elim fun text htext => FailsOnly.map ?_) fun _ _ => ?_
  · rw [htext] at hdebug
    exact hdebug.makeAttribute List.mem_cons_self
  refine (CommonAttributes.encode_failsOnly hattributes).bind fun _ _ => ?_
  exact (checkCount_failsOnly _ _).bind fun _ _ => .ok _

/-- **Why a class cannot be encoded.** -/
inductive EncodingFault (c : Class) : Fault → Prop where
  /-- A value does not fit its field. -/
  | numeric {fault : Fault} (h : fault.IsNumeric) : EncodingFault c fault
  /-- It has no name. -/
  | unnamedClass (h : c.thisClass = none) : EncodingFault c .unnamedClass
  /-- It has no class above it, and is not the one that needs none. -/
  | noSuperClass {name : String} (hname : c.thisClass = some name)
      (hsuper : c.superClass = none) (hroot : name ≠ rootName) :
      EncodingFault c (.noSuperClass name)
  /-- One of its methods cannot be encoded. -/
  | method {m : Method} {fault : Fault} (hm : m ∈ c.methods) (h : m.EncodingFault fault) :
      EncodingFault c fault

theorem checkNames_failsOnly (c : Class) : FailsOnly c.EncodingFault c.checkNames := by
  unfold checkNames
  cases hname : c.thisClass with
  | none => exact .error (.unnamedClass hname)
  | some name =>
    refine FailsOnly.ite (fun _ => .ok _) fun h => .error ?_
    obtain ⟨hsuper, hroot⟩ := not_or.1 h
    exact .noSuperClass hname (Option.not_isSome_iff_eq_none.1 hsuper) hroot

/-- **Lowering finds every constant it looks up** in a finalized pool that
supplies what registration lists. -/
theorem lower_failsOnly {name : String} {n : Numbering} (hpool : pool.Reachable)
    (hfinal : pool.numbering = some n) (hsupply : pool.Supplies (c.constants name form))
    (hbodies : ∀ m ∈ c.methods, ∀ b, m.body = some b → b.WellLabelled) :
    FailsOnly c.EncodingFault (c.lower name form pool) := by
  have hnum : ∀ fault, fault.IsNumeric → c.EncodingFault fault := fun fault h => .numeric h
  have hthis : FailsOnly c.EncodingFault (pool.classIndex name) :=
    hsupply.classIndex List.mem_cons_self
  simp only [constants, ConstantPool.Supplies.cons_iff, ConstantPool.Supplies.append_iff]
    at hsupply
  obtain ⟨-, ⟨⟨⟨hsuper, hinterfaces⟩, hfields⟩, hmethods⟩, hattributes⟩ := hsupply
  -- in the order of writing: each part either looks up what is supplied or checks a count
  refine hthis.bind fun _ _ => ?_
  refine FailsOnly.bind (FailsOnly.elim fun super hc => ?_) fun _ _ => ?_
  · exact hsuper.classIndex (List.mem_map.2 ⟨super, Option.mem_toList.2 hc, rfl⟩)
  refine FailsOnly.bind (.mapM fun interface hmem => ?_) fun _ _ => ?_
  · exact hinterfaces.classIndex (List.mem_map.2 ⟨interface, hmem, rfl⟩)
  refine ((checkCount_failsOnly _ _).mono hnum).bind fun _ _ => ?_
  refine ((encodeAttributes_failsOnly hattributes).mono hnum).bind fun _ _ => ?_
  refine FailsOnly.bind (.mapM fun f hf => ?_) fun _ _ => ?_
  · exact (Field.encode_failsOnly (hfields.of_mem_flatMap hf)).mono hnum
  refine ((checkCount_failsOnly _ _).mono hnum).bind fun _ _ => ?_
  refine FailsOnly.bind (.mapM fun m hm => ?_) fun _ _ => ?_
  · have hmem : m ∈ c.methods := Array.mem_toList_iff.1 hm
    have hencode : FailsOnly m.EncodingFault (m.encode pool name form) :=
      Method.encode_failsOnly (hmethods.of_mem_flatMap hm) (hbodies m hmem)
    exact hencode.mono fun fault h => .method hmem h
  refine ((checkCount_failsOnly _ _).mono hnum).bind fun _ _ => ?_
  refine FailsOnly.bind (.of_eq_ok ⟨n.count, ?_⟩) fun _ _ => ?_
  · unfold ConstantPool.count
    rw [hfinal]
  exact ((hpool.wellFormed.poolEntries_failsOnly hfinal).mono hnum).bind fun _ _ => .ok _

/-- **What can go wrong with a class** whose bodies are well labelled. -/
theorem encode_failsOnly
    (hbodies : ∀ m ∈ c.methods, ∀ b, m.body = some b → b.WellLabelled) :
    FailsOnly c.EncodingFault c.encode := by
  refine c.checkNames_failsOnly.bind fun name _ => ?_
  obtain ⟨registered, hadd, hreach, hopen, hmem⟩ := ConstantPool.addAll_eq_ok
    (c.constants name c.version.stackMapForm) .empty rfl
  refine FailsOnly.bind (.of_eq_ok ⟨registered, hadd⟩) fun pool hpool => ?_
  obtain rfl : registered = pool := Except.ok.inj (hadd.symm.trans hpool)
  refine ((ConstantPool.finalize_failsOnly hopen).mono fun fault h => .numeric h).bind
    fun final hfinal => ?_
  have hfinalReach : final.Reachable := hreach.finalize hfinal
  obtain ⟨-, n, -, rfl⟩ := ConstantPool.finalize_eq_ok_iff.1 hfinal
  refine lower_failsOnly hfinalReach rfl (fun d hd => ?_) hbodies
  refine hfinalReach.wellFormed.exists_indexOf rfl ?_
  exact (hmem d).2 (.inr ⟨d, hd, d.self_mem_withDependencies⟩)

end Class

/-! ## Steps in the right order -/

/-- **The fault lies in what was to be encoded**: nothing outside failed, and
no step of the assembler was taken in the wrong order, unless it is the
frames that are out of order. -/
def Fault.LiesInInput (fault : Fault) : Prop :=
  fault.kind ≠ .inputOutput
    ∧ (fault.kind = .internal → ∃ offset previous, fault = .framesOutOfOrder offset previous)

/-- The fault blames what was given: its shape is wrong, or a number in it is too
large. -/
def Fault.BlamesText (fault : Fault) : Prop :=
  fault.kind = .structural ∨ fault.kind = .numeric

theorem Fault.OfDescriptor.blamesText {fault : Fault} (h : fault.OfDescriptor) :
    fault.BlamesText := by
  cases h with
  | tooManyDimensions => exact .inr rfl
  | _ => exact .inl rfl

theorem Fault.BlamesText.liesInInput {fault : Fault} (h : fault.BlamesText) :
    fault.LiesInInput := by
  unfold LiesInInput
  rcases h with h | h <;> rw [h] <;> refine ⟨fun hkind => ?_, fun hkind => ?_⟩ <;> cases hkind

theorem LateFault.liesInInput {fault : Fault} (h : LateFault fault) : fault.LiesInInput := by
  cases h with
  | numeric h => exact Fault.BlamesText.liesInInput (.inr h.kind_eq)
  | emptyHandlerRange | localEndsFirst => exact Fault.BlamesText.liesInInput (.inl rfl)
  | framesOutOfOrder offset previous =>
    refine ⟨fun h => ?_, fun _ => ⟨offset, previous, rfl⟩⟩
    cases h

theorem Body.EncodingFault.liesInInput {b : Body} {fault : Fault} (h : b.EncodingFault fault) :
    fault.LiesInInput := by
  cases h with
  | late h => exact h.liesInInput
  | undefinedLabel => exact Fault.BlamesText.liesInInput (.inl rfl)

theorem Method.EncodingFault.liesInInput {m : Method} {fault : Fault}
    (h : m.EncodingFault fault) : fault.LiesInInput := by
  cases h with
  | numeric h => exact Fault.BlamesText.liesInInput (.inr h.kind_eq)
  | codeNotAllowed => exact Fault.BlamesText.liesInInput (.inl rfl)
  | descriptor _ h => exact (MethodDescriptor.read_failsOnly _ fault h).blamesText.liesInInput
  | body _ h => exact h.liesInInput

theorem Class.EncodingFault.liesInInput {c : Class} {fault : Fault} (h : c.EncodingFault fault) :
    fault.LiesInInput := by
  cases h with
  | numeric h => exact Fault.BlamesText.liesInInput (.inr h.kind_eq)
  | unnamedClass | noSuperClass => exact Fault.BlamesText.liesInInput (.inl rfl)
  | method _ h => exact h.liesInInput

/-- **Registration covers lowering.** A class whose bodies were built with
their own operations fails to be encoded only for a reason that lies in the
class: never for something outside, and never because of steps in the wrong
order other than frames that are out of order. So lowering looks no constant
up that registration has not added, asks for no index before the pool is
finalized, adds nothing afterwards, and asks for no offset before the body is
laid out. -/
theorem registration_covers_lowering (c : Class)
    (hbuilt : ∀ m ∈ c.methods, ∀ b, m.body = some b → b.Built) (fault : Fault)
    (h : c.encode = .error fault) :
    c.EncodingFault fault ∧ fault.kind ≠ .inputOutput
      ∧ (fault.kind = .internal → ∃ offset previous, fault = .framesOutOfOrder offset previous)
      ∧ (∀ constant, fault ≠ .notRegistered constant ∧ fault ≠ .indexBeforeFinal constant
        ∧ fault ≠ .poolClosed constant)
      ∧ fault ≠ .poolAlreadyFinal ∧ fault ≠ .countBeforeFinal
      ∧ ∀ name, fault ≠ .offsetBeforeLayout name := by
  have hfault : c.EncodingFault fault :=
    Class.encode_failsOnly (fun m hm b hb => (hbuilt m hm b hb).wellLabelled) fault h
  obtain ⟨houtside, hinternal⟩ := hfault.liesInInput
  have hother : ∀ other : Fault, other.kind = .internal →
      (∀ offset previous, other ≠ .framesOutOfOrder offset previous) → fault ≠ other := by
    rintro other hkind hframes rfl
    obtain ⟨offset, previous, hfault⟩ := hinternal hkind
    exact hframes offset previous hfault
  refine ⟨hfault, houtside, hinternal, fun constant => ⟨?_, ?_, ?_⟩, ?_, ?_, fun name => ?_⟩ <;>
    refine hother _ rfl fun offset previous heq => ?_ <;> cases heq

/-- A body with a frame at the place of its label 2, with nothing after it. -/
def singleFrameBody : Body :=
  Body.empty.here.2.fresh.2.here.2.pushFrame (.empty (.label ⟨2⟩))

/-- A body with two frames at the same place, which its labels 2 and 3
mark. Label 1 is its end. -/
def repeatedFrameBody : Body :=
  (singleFrameBody.here.2.pushFrame (.empty (.label ⟨3⟩))).placeNew ⟨1⟩

theorem built_repeatedFrameBody : repeatedFrameBody.Built := by
  have hadd : ∀ (b : Body) (f : Frame), b.addFrame f 0 = .ok (b.pushFrame f) := fun _ _ => rfl
  have hsingle : singleFrameBody.Built := by
    refine .addFrame (.here (.fresh (.here .empty))) (List.forall_mem_singleton.2 ?_) (hadd _ _)
    unfold LabelTable.Has
    decide
  have hdouble : (singleFrameBody.here.2.pushFrame (.empty (.label ⟨3⟩))).Built := by
    refine .addFrame (.here hsingle) (List.forall_mem_singleton.2 ?_) (hadd _ _)
    unfold LabelTable.Has
    decide
  refine .place hdouble ?_ (Body.place_eq_ok_iff.2 ⟨rfl, rfl⟩)
  unfold LabelTable.Has
  decide

/-- A method with that body. -/
def repeatedFrameMethod : Method :=
  { Method.declare .empty "m" "()V" with body := some repeatedFrameBody }

/-- A class with that method. -/
def repeatedFrameClass : Class :=
  { Class.empty with
    version := .firstCompact
    thisClass := some Class.rootName
    methods := #[repeatedFrameMethod] }

/-- What that class names. -/
def repeatedFrameConstants : List Constant :=
  [.classRef "java/lang/Object", .utf8 "java/lang/Object", .utf8 "m", .utf8 "()V", .utf8 "Code",
    .utf8 "StackMapTable"]

/-- The pool of that class. -/
def repeatedFramePool : ConstantPool := .ofEntries repeatedFrameConstants

theorem lists_repeatedFrame :
    ConstantPool.Lists (repeatedFrameClass.constants Class.rootName .compact)
      repeatedFrameConstants :=
  ⟨by decide, by decide⟩

/-- The descriptor of a method that takes nothing and returns nothing. -/
theorem MethodDescriptor.read_unit : read "()V" = .ok ⟨[], none⟩ := by
  simp only [read, readWhole, readFrom, readParameters, String.reduceToList]
  rfl

theorem encode_repeatedFrameMethod :
    repeatedFrameMethod.encode repeatedFramePool Class.rootName .compact
      = .error (.framesOutOfOrder 0 0) := by
  have hcontext : repeatedFrameMethod.bodyContext Class.rootName .compact
      = .ok ⟨.compact, [.object Class.rootName], 1⟩ := by
    unfold Method.bodyContext
    rw [show repeatedFrameMethod.descriptor = "()V" from rfl, MethodDescriptor.read_unit]
    rfl
  have hbody : repeatedFrameMethod.encodeBody repeatedFramePool Class.rootName .compact
      repeatedFrameBody = .error (.framesOutOfOrder 0 0) := by
    unfold Method.encodeBody
    rw [if_pos (by decide), hcontext]
    rfl
  show ((repeatedFrameMethod.encodeBody repeatedFramePool Class.rootName .compact
    repeatedFrameBody).map ([·]) >>= _) = _
  rw [hbody]
  rfl

/-- Encoding the class gets as far as the frames. -/
theorem encode_repeatedFrameClass :
    repeatedFrameClass.encode = .error (.framesOutOfOrder 0 0) := by
  have hthis : repeatedFramePool.classIndex Class.rootName = .ok 1 :=
    lists_repeatedFrame.indexOf 0 rfl rfl
  have hmethods : repeatedFrameClass.methods.toList.mapM
      (·.encode repeatedFramePool Class.rootName .compact)
      = .error (.framesOutOfOrder 0 0) := by
    show (repeatedFrameMethod.encode repeatedFramePool Class.rootName .compact >>= _) = _
    rw [encode_repeatedFrameMethod]
    rfl
  rw [Class.encode_eq_lower rfl lists_repeatedFrame]
  show repeatedFrameClass.lower Class.rootName .compact repeatedFramePool = _
  unfold Class.lower
  simp only [hthis, hmethods]
  rfl

/-- The class fails at its frames, which is the one way to go out of order
that is left. -/
theorem registration_covers_lowering_repeatedFrame :
    repeatedFrameClass.encode = .error (.framesOutOfOrder 0 0)
      ∧ repeatedFrameClass.EncodingFault (.framesOutOfOrder 0 0) := by
  have hbuilt : ∀ m ∈ repeatedFrameClass.methods, ∀ b, m.body = some b → b.Built := by
    intro m hm b hb
    obtain rfl : m = repeatedFrameMethod := Array.mem_singleton.1 hm
    cases hb
    exact built_repeatedFrameBody
  exact ⟨encode_repeatedFrameClass,
    (registration_covers_lowering _ hbuilt _ encode_repeatedFrameClass).1⟩

end BytecodeAssembler
