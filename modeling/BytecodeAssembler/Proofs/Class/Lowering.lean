import BytecodeAssembler.Class.Encoding
import BytecodeAssembler.Proofs.Class.Attributes
import BytecodeAssembler.Proofs.ConstantPool.Listing

/-!
# What lowering gives

A class that is encoded has gone through every step of the second pass, and
each part of the class file is what one of the steps gave. This module says
so once for fields, methods and classes, with one fact for each part of the
result, so that what follows need not go through the steps again.
-/

namespace BytecodeAssembler

variable {pool : ConstantPool} {form : StackMapForm} {thisClass : String}

/-- **What a field is encoded to.** -/
structure Field.EncodesTo (f : Field) (pool : ConstantPool) (info : MemberInfo .fields) :
    Prop where
  flags : info.flags = f.flags
  name : pool.utf8Index f.name = .ok info.name
  descriptor : pool.utf8Index f.descriptor = .ok info.descriptor
  /-- The constant value comes before the other attributes. -/
  attributes : ∃ value common,
    (f.constant.elim (.ok []) fun c => (encodeConstant pool c).map ([·])) = .ok value
      ∧ f.attributes.encode pool = .ok common ∧ info.attributes = value ++ common

theorem Field.encodesTo_of_encode {f : Field} {info : MemberInfo .fields}
    (h : f.encode pool = .ok info) : f.EncodesTo pool info := by
  obtain ⟨value, hvalue, h⟩ := bind_eq_ok_iff.1 h
  obtain ⟨common, hcommon, h⟩ := bind_eq_ok_iff.1 h
  obtain ⟨name, hname, h⟩ := bind_eq_ok_iff.1 h
  obtain ⟨descriptor, hdescriptor, h⟩ := bind_eq_ok_iff.1 h
  cases h
  exact ⟨rfl, hname, hdescriptor, value, common, hvalue, hcommon, rfl⟩

/-- **What a method is encoded to.** -/
structure Method.EncodesTo (m : Method) (pool : ConstantPool) (thisClass : String)
    (form : StackMapForm) (info : MemberInfo .methods) : Prop where
  flags : info.flags = m.flags
  name : pool.utf8Index m.name = .ok info.name
  descriptor : pool.utf8Index m.descriptor = .ok info.descriptor
  /-- The attributes that only methods have come before the others. -/
  attributes : ∃ code exceptions visible invisible default common,
    (m.body.elim (.ok []) fun body => (m.encodeBody pool thisClass form body).map ([·]))
        = .ok code
      ∧ (if m.exceptions.isEmpty then .ok [] else (m.encodeExceptions pool).map ([·]))
        = .ok exceptions
      ∧ encodeParameters "RuntimeVisibleParameterAnnotations" m.visibleParameters pool
        = .ok visible
      ∧ encodeParameters "RuntimeInvisibleParameterAnnotations" m.invisibleParameters pool
        = .ok invisible
      ∧ (m.defaultValue.elim (.ok []) fun value => (encodeDefault pool value).map ([·]))
        = .ok default
      ∧ m.attributes.encode pool = .ok common
      ∧ info.attributes = code ++ exceptions ++ visible ++ invisible ++ default ++ common
  attributeCount : info.attributes.length ≤ 65535

theorem Method.encodesTo_of_encode {m : Method} {info : MemberInfo .methods}
    (h : m.encode pool thisClass form = .ok info) : m.EncodesTo pool thisClass form info := by
  obtain ⟨code, hcode, h⟩ := bind_eq_ok_iff.1 h
  obtain ⟨exceptions, hexceptions, h⟩ := iteBind_eq_ok_iff.1 h
  obtain ⟨visible, hvisible, h⟩ := bind_eq_ok_iff.1 h
  obtain ⟨invisible, hinvisible, h⟩ := bind_eq_ok_iff.1 h
  obtain ⟨default, hdefault, h⟩ := bind_eq_ok_iff.1 h
  obtain ⟨common, hcommon, h⟩ := bind_eq_ok_iff.1 h
  obtain ⟨_, hcount, h⟩ := bind_eq_ok_iff.1 h
  obtain ⟨name, hname, h⟩ := bind_eq_ok_iff.1 h
  obtain ⟨descriptor, hdescriptor, h⟩ := bind_eq_ok_iff.1 h
  cases h
  exact ⟨rfl, hname, hdescriptor, ⟨code, exceptions, visible, invisible, default, common, hcode,
    hexceptions, hvisible, hinvisible, hdefault, hcommon, rfl⟩, checkCount_eq_ok_iff.1 hcount⟩

namespace Class

variable {c : Class} {name : String} {file : ClassFile}

/-- The class's own attributes are counted before they are given. -/
theorem length_encodeAttributes {attributes : List Attribute}
    (h : c.encodeAttributes pool = .ok attributes) : attributes.length ≤ 65535 := by
  obtain ⟨source, -, h⟩ := bind_eq_ok_iff.1 h
  obtain ⟨enclosing, -, h⟩ := bind_eq_ok_iff.1 h
  obtain ⟨inner, -, h⟩ := iteBind_eq_ok_iff.1 h
  obtain ⟨debug, -, h⟩ := bind_eq_ok_iff.1 h
  obtain ⟨common, -, h⟩ := bind_eq_ok_iff.1 h
  obtain ⟨_, hcount, h⟩ := bind_eq_ok_iff.1 h
  cases h
  exact checkCount_eq_ok_iff.1 hcount

/-- **What a class is lowered to** with the indices of a pool. -/
structure LowersTo (c : Class) (name : String) (form : StackMapForm) (pool : ConstantPool)
    (file : ClassFile) : Prop where
  version : file.version = c.version
  flags : file.flags = c.flags
  thisClass : pool.classIndex name = .ok file.thisClass
  superClass : c.superClass.elim (.ok 0) pool.classIndex = .ok file.superClass
  interfaces : c.interfaces.toList.mapM pool.classIndex = .ok file.interfaces
  fields : c.fields.toList.mapM (·.encode pool) = .ok file.fields
  methods : c.methods.toList.mapM (·.encode pool name form) = .ok file.methods
  attributes : c.encodeAttributes pool = .ok file.attributes
  poolCount : pool.count = .ok file.poolCount
  constants : pool.poolEntries = .ok file.constants
  interfaceCount : file.interfaces.length ≤ 65535
  fieldCount : file.fields.length ≤ 65535
  methodCount : file.methods.length ≤ 65535

theorem lowersTo_of_lower (h : c.lower name form pool = .ok file) :
    c.LowersTo name form pool file := by
  obtain ⟨thisClass, hthis, h⟩ := bind_eq_ok_iff.1 h
  obtain ⟨superClass, hsuper, h⟩ := bind_eq_ok_iff.1 h
  obtain ⟨interfaces, hinterfaces, h⟩ := bind_eq_ok_iff.1 h
  obtain ⟨_, hinterfaceCount, h⟩ := bind_eq_ok_iff.1 h
  obtain ⟨attributes, hattributes, h⟩ := bind_eq_ok_iff.1 h
  obtain ⟨fields, hfields, h⟩ := bind_eq_ok_iff.1 h
  obtain ⟨_, hfieldCount, h⟩ := bind_eq_ok_iff.1 h
  obtain ⟨methods, hmethods, h⟩ := bind_eq_ok_iff.1 h
  obtain ⟨_, hmethodCount, h⟩ := bind_eq_ok_iff.1 h
  obtain ⟨poolCount, hpoolCount, h⟩ := bind_eq_ok_iff.1 h
  obtain ⟨constants, hconstants, h⟩ := bind_eq_ok_iff.1 h
  cases h
  exact ⟨rfl, rfl, hthis, hsuper, hinterfaces, hfields, hmethods, hattributes, hpoolCount,
    hconstants, checkCount_eq_ok_iff.1 hinterfaceCount, checkCount_eq_ok_iff.1 hfieldCount,
    checkCount_eq_ok_iff.1 hmethodCount⟩

/-- **What encoding a class gives**: its names are there, its constants are
registered and numbered, and it is lowered with their indices. -/
theorem lowersTo_of_encode (h : c.encode = .ok file) :
    ∃ name opened pool, c.checkNames = .ok name
      ∧ ConstantPool.empty.addAll (c.constants name c.version.stackMapForm) = .ok opened
      ∧ opened.finalize = .ok pool ∧ c.LowersTo name c.version.stackMapForm pool file := by
  obtain ⟨name, hname, h⟩ := bind_eq_ok_iff.1 h
  obtain ⟨opened, hopened, h⟩ := bind_eq_ok_iff.1 h
  obtain ⟨pool, hpool, h⟩ := bind_eq_ok_iff.1 h
  exact ⟨name, opened, pool, hname, hopened, hpool, lowersTo_of_lower h⟩

/-- A class is lowered with the pool of its constants. -/
theorem encode_eq_lower {name : String} {entries : List Constant} (hname : c.checkNames = .ok name)
    (h : ConstantPool.Lists (c.constants name c.version.stackMapForm) entries) :
    c.encode = c.lower name c.version.stackMapForm (.ofEntries entries) := by
  unfold encode
  rw [hname]
  show (ConstantPool.empty.addAll _ >>= fun pool => pool.finalize >>= _) = _
  rw [h.addAll]
  show ((ConstantPool.openWith entries).finalize >>= _) = _
  rw [h.finalize]
  rfl

end Class

end BytecodeAssembler
