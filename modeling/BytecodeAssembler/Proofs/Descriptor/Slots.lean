import BytecodeAssembler.Class.Method
import BytecodeAssembler.Instruction.Resolution
import BytecodeAssembler.Proofs.Descriptor.Grammar
import BytecodeAssembler.Proofs.Outcome
import Mathlib.Algebra.GroupWithZero.Nat

/-!
# Slots of parameters

How many slots the parameters of a method take is asked in three places. A body
that does not say how many local slots it needs gets as many as its parameters
take; the first frame of a stack map is compared with the locals on entry; and a
call of an interface method carries the slots of its arguments. Two of these are
counted from field types, the other from verification types. The counts agree:
the locals on entry take as many slots as the parameters, and one more if there
is a receiver.
-/

namespace BytecodeAssembler

/-- **The slots that values of these types take** together. -/
def slotsOf (types : List DeclaredType) : Nat := (types.map VerificationType.width).sum

/-- A value takes the same slots whichever way its type is given. -/
theorem DeclaredType.width_ofFieldType (t : FieldType) : (ofFieldType t).width = t.width := by
  cases t with
  | base t => cases t <;> rfl
  | ref name => rfl

/-! ## Counting from a descriptor -/

theorem FieldType.width_le (t : FieldType) : t.width ≤ 2 := by
  cases t with
  | base t => cases t <;> decide
  | ref name => exact Nat.le_succ 1

/-- Types that are spelled take at most two slots for each character. -/
theorem TypeSpelling.sum_width_le (xs : List TypeSpelling) :
    ((xs.map TypeSpelling.type).map FieldType.width).sum
      ≤ 2 * (xs.flatMap TypeSpelling.text).length := by
  induction xs with
  | nil => exact Nat.zero_le _
  | cons x xs ih =>
    obtain ⟨c, rest, htext, -⟩ := x.exists_text_eq_cons
    have hwidth := x.type.width_le
    simp only [List.map_cons, List.sum_cons, List.flatMap_cons, List.length_append, htext,
      List.length_cons]
    omega

namespace MethodDescriptor

variable {d : MethodDescriptor} {text : String}

theorem parameterSlots_eq (d : MethodDescriptor) (receiver : Bool) :
    d.parameterSlots receiver
      = (if receiver then 1 else 0) + (d.parameters.map FieldType.width).sum := by
  rw [parameterSlots, List.sum, List.foldr_map]

/-- **The slots that a descriptor gives are bounded by its length.** -/
theorem parameterSlots_lt_of_read (h : read text = .ok d) :
    d.parameterSlots true < 2 * text.length := by
  obtain ⟨x, htext, rfl⟩ := read_eq_ok_iff.1 h
  have hsum := TypeSpelling.sum_width_le x.parameters
  rw [← String.length_toList, htext, parameterSlots_eq, if_pos rfl]
  simp only [MethodSpelling.descriptor, MethodSpelling.text, List.length_cons,
    List.length_append]
  omega

end MethodDescriptor

/-! ## Counting locals -/

/-- A method that is not static has one receiver, of one slot. -/
theorem exists_receiver (thisClass method : String) (d : MethodDescriptor) (isStatic : Bool) :
    ∃ receiver, initialLocals thisClass method d isStatic
        = receiver ++ d.parameters.map DeclaredType.ofFieldType
      ∧ receiver.length = (if isStatic then 0 else 1) ∧ slotsOf receiver = receiver.length := by
  refine ⟨_, rfl, ?_⟩
  cases isStatic with
  | true => exact ⟨rfl, rfl⟩
  | false =>
    rw [if_neg Bool.false_ne_true]
    split <;> exact ⟨rfl, rfl⟩

/-- **The locals on entry take the slots of the parameters**, and one for the
receiver of a method that has one. -/
theorem slotsOf_initialLocals (thisClass method : String) (d : MethodDescriptor)
    (isStatic : Bool) :
    slotsOf (initialLocals thisClass method d isStatic) = d.parameterSlots (!isStatic) := by
  obtain ⟨receiver, hlocals, hlength, hslots⟩ := exists_receiver thisClass method d isStatic
  have hparameters : slotsOf (d.parameters.map DeclaredType.ofFieldType)
      = (d.parameters.map FieldType.width).sum := by
    unfold slotsOf
    rw [List.map_map]
    exact congrArg List.sum (List.map_congr_left fun t _ => DeclaredType.width_ofFieldType t)
  calc slotsOf (initialLocals thisClass method d isStatic)
    _ = slotsOf receiver + slotsOf (d.parameters.map DeclaredType.ofFieldType) := by
      rw [hlocals, slotsOf, List.map_append, List.sum_append]
      rfl
    _ = (if isStatic then 0 else 1) + (d.parameters.map FieldType.width).sum := by
      rw [hslots, hlength, hparameters]
    _ = d.parameterSlots (!isStatic) := by
      rw [MethodDescriptor.parameterSlots_eq]
      cases isStatic <;> rfl

/-- **What a method tells its body**: the locals on entry, and the slots of the
parameters if two bytes hold their number. -/
theorem Method.bodyContext_eq_ok_iff {m : Method} {d : MethodDescriptor} {thisClass : String}
    {form : StackMapForm} {context : BodyContext}
    (hread : MethodDescriptor.read m.descriptor = .ok d) :
    m.bodyContext thisClass form = .ok context ↔ context.form = form
      ∧ context.initialLocals = initialLocals thisClass m.name d m.isStatic
      ∧ context.defaultMaxLocals.toNat = d.parameterSlots (!m.isStatic) := by
  have hbound := context.defaultMaxLocals.toNat_lt
  rw [bodyContext, hread]
  show (if _ then _ else _) = _ ↔ _
  constructor
  · intro h
    split at h
    next hslots =>
      cases h
      exact ⟨rfl, rfl, UInt16.toNat_ofNat_of_lt' (Nat.lt_succ_of_le hslots)⟩
    next => cases h
  · obtain ⟨form', locals, slots⟩ := context
    rintro ⟨rfl, rfl, hslots⟩
    rw [← hslots, if_pos (Nat.le_of_lt_succ hbound), UInt16.ofNat_toNat]
    rfl

/-- A body that does not say how many local slots it needs is written with the
slots that its method tells it. -/
theorem Body.maxLocals_of_encode {b : Body} {pool : ConstantPool} {context : BodyContext}
    {code : Code} (h : (b.encode pool context).2 = .ok code) :
    code.maxLocals = b.maxLocals.getD context.defaultMaxLocals := by
  obtain ⟨laid, -, h⟩ := bind_eq_ok_iff.1 h
  obtain ⟨bytes, -, h⟩ := bind_eq_ok_iff.1 h
  obtain ⟨handlers, -, h⟩ := bind_eq_ok_iff.1 h
  obtain ⟨⟨⟩, -, h⟩ := bind_eq_ok_iff.1 h
  obtain ⟨attributes, -, h⟩ := bind_eq_ok_iff.1 h
  cases h
  rfl

/-! ## Counting the arguments of a call -/

/-- **The slots of an interface call** are those that the descriptor gives, if
one byte holds their number. -/
theorem interfaceOperand_eq_ok_iff {m : MemberRef} {d : MethodDescriptor} {operand : Operand}
    (hread : MethodDescriptor.read m.descriptor = .ok d)
    (hlength : m.descriptor.length < 2 ^ 63) :
    interfaceOperand m = .ok operand ↔ ∃ count : UInt8, count.toNat = d.parameterSlots true
      ∧ operand = .interfaceMethod (.interfaceMethodRef m) count := by
  have hslots := MethodDescriptor.parameterSlots_lt_of_read hread
  -- The number passes through a signed word, which cannot make a large one small.
  have hcount (count : UInt8) : (count.toNat : Int) = (Int64.ofNat (d.parameterSlots true)).toInt
      ↔ count.toNat = d.parameterSlots true := by
    have hbyte := count.toNat_lt
    have hsize : Int64.size = 2 ^ 64 := rfl
    rw [Int64.toInt_ofNat', hsize, Int.bmod_def]
    omega
  rw [interfaceOperand, hread]
  constructor
  · intro h
    obtain ⟨_, hd, h⟩ := bind_eq_ok_iff.1 h
    cases hd
    obtain ⟨count, hnarrow, h⟩ := bind_eq_ok_iff.1 h
    exact ⟨count, (hcount count).1 (narrowU1_eq_ok_iff.1 hnarrow), (Except.ok.inj h).symm⟩
  · rintro ⟨count, hslots, rfl⟩
    refine bind_eq_ok_iff.2 ⟨d, rfl, bind_eq_ok_iff.2 ⟨count, ?_, rfl⟩⟩
    exact narrowU1_eq_ok_iff.2 ((hcount count).2 hslots)

theorem Argument.resolve_member {opcode : Opcode} (hkind : opcode.kind = .interfaceMethod)
    (m : MemberRef) (labels : LabelTable) :
    (member m).resolve opcode labels = (interfaceOperand m, labels) := by
  simp only [resolve, resolvePlain, hkind]

/-! ## Agreement -/

/-- **The slots of parameters are counted alike everywhere**, for a method of
this class, name and descriptor. -/
structure SlotsAgree (thisClass method : String) (d : MethodDescriptor) (isStatic : Bool) :
    Prop where
  /-- The locals on entry take the slots of the descriptor, with the receiver
  counted unless the method is static. -/
  total : slotsOf (initialLocals thisClass method d isStatic) = d.parameterSlots (!isStatic)
  /-- After the receiver, the locals have one entry for each parameter, in order,
  and each entry takes the slots of its parameter. -/
  entries : ∃ receiver entries, initialLocals thisClass method d isStatic = receiver ++ entries
    ∧ receiver.length = (if isStatic then 0 else 1)
    ∧ List.Forall₂ (fun type entry => entry = .ofFieldType type ∧ entry.width = type.width)
      d.parameters entries
  /-- A method tells its body these locals, and as the default of its local slots
  the number that they take. Only a number beyond two bytes is refused. -/
  default (m : Method) (form : StackMapForm) (context : BodyContext) (hname : m.name = method)
      (hstatic : m.isStatic = isStatic) (hread : MethodDescriptor.read m.descriptor = .ok d) :
    m.bodyContext thisClass form = .ok context ↔ context.form = form
      ∧ context.initialLocals = initialLocals thisClass method d isStatic
      ∧ context.defaultMaxLocals.toNat = slotsOf (initialLocals thisClass method d isStatic)
  /-- A body that gives no number of local slots is written with the default. -/
  written (b : Body) (pool : ConstantPool) (context : BodyContext) (code : Code)
      (hcontext : context.defaultMaxLocals.toNat
        = slotsOf (initialLocals thisClass method d isStatic))
      (hnone : b.maxLocals = none) (hencode : (b.encode pool context).2 = .ok code) :
    code.maxLocals.toNat = slotsOf (initialLocals thisClass method d isStatic)
  /-- The call of an interface method with this descriptor carries the slots that
  the locals take on entry to a method with a receiver. Only a number beyond one
  byte is refused. The text of a descriptor is one that memory can hold: its
  length is a number of 63 bits. -/
  interface (opcode : Opcode) (m : MemberRef) (labels : LabelTable) (operand : Operand)
      (hkind : opcode.kind = .interfaceMethod)
      (hread : MethodDescriptor.read m.descriptor = .ok d)
      (hlength : m.descriptor.length < 2 ^ 63) :
    ((Argument.member m).resolve opcode labels).1 = .ok operand ↔ ∃ count : UInt8,
      count.toNat = slotsOf (initialLocals thisClass method d false)
        ∧ operand = .interfaceMethod (.interfaceMethodRef m) count

/-- **Slots are counted alike** for every class, method, descriptor and static
flag. -/
theorem slotsAgree (thisClass method : String) (d : MethodDescriptor) (isStatic : Bool) :
    SlotsAgree thisClass method d isStatic where
  total := slotsOf_initialLocals thisClass method d isStatic
  entries := by
    obtain ⟨receiver, hlocals, hlength, -⟩ := exists_receiver thisClass method d isStatic
    refine ⟨receiver, _, hlocals, hlength, List.forall₂_map_right_iff.2 ?_⟩
    exact List.forall₂_same.2 fun t _ => ⟨rfl, DeclaredType.width_ofFieldType t⟩
  default m form context hname hstatic hread := by
    subst hname hstatic
    rw [slotsOf_initialLocals]
    exact Method.bodyContext_eq_ok_iff hread
  written b pool context code hcontext hnone hencode := by
    rw [Body.maxLocals_of_encode hencode, hnone]
    exact hcontext
  interface opcode m labels operand hkind hread hlength := by
    rw [slotsOf_initialLocals, Argument.resolve_member hkind]
    exact interfaceOperand_eq_ok_iff hread hlength

/-- A method that takes a `long`, an array of doubles and an `int`. -/
def mixedDescriptor : MethodDescriptor := ⟨[.base .long, .ref "[D", .base .int], none⟩

/-- A constructor with these parameters starts with five slots of locals in four
entries, and the call of an interface method with them carries five slots. -/
theorem slotsAgree_mixed :
    MethodDescriptor.read "(J[DI)V" = .ok mixedDescriptor
      ∧ initialLocals "a/B" "<init>" mixedDescriptor false
        = [.uninitializedThis, .long, .object "[D", .integer]
      ∧ slotsOf (initialLocals "a/B" "<init>" mixedDescriptor false) = 5
      ∧ ((Argument.member ⟨"a/I", "run", "(J[DI)V"⟩).resolve
          ⟨"invokeinterface", 0xb9, .interfaceMethod⟩ .empty).1
        = .ok (.interfaceMethod (.interfaceMethodRef ⟨"a/I", "run", "(J[DI)V"⟩) 5) := by
  have hread : MethodDescriptor.read "(J[DI)V" = .ok mixedDescriptor :=
    MethodDescriptor.read_eq_ok_iff.2 ⟨⟨[⟨0, .base .long, by decide⟩,
      ⟨1, .base .double, by decide⟩, ⟨0, .base .int, by decide⟩], none⟩, rfl, rfl⟩
  have hagree := slotsAgree "a/B" "<init>" mixedDescriptor false
  refine ⟨hread, rfl, hagree.total, ?_⟩
  exact (hagree.interface _ _ _ _ rfl hread (by decide)).2 ⟨5, hagree.total.symm, rfl⟩

end BytecodeAssembler
