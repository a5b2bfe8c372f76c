/-!
# Opcodes

The instruction set is a table: each mnemonic has an opcode byte and the
**kind of operand** it takes. The `wide` prefix is no entry of its own, as
it is put in front of an instruction whenever its operand needs it.
-/

namespace BytecodeAssembler

/-- **The shape of the operand that an opcode expects.** -/
inductive OperandKind where
  /-- Nothing follows the opcode. -/
  | none
  /-- The index of a local variable, with a `wide` prefix above 255. -/
  | localVar
  /-- The index of a local variable and a signed increment, with a `wide`
  prefix when either does not fit in a byte. -/
  | increment
  /-- A signed byte. -/
  | byte
  /-- A signed number of two bytes. -/
  | short
  /-- The code of a primitive array type. -/
  | arrayType
  /-- A jump with a displacement of two bytes. -/
  | branch
  /-- A jump with a displacement of four bytes. -/
  | branchWide
  /-- A constant of one slot with an index of one byte; a larger index
  takes the wide form of the instruction. -/
  | load
  /-- A constant of one slot with an index of two bytes. -/
  | loadWide
  /-- A constant of two slots. -/
  | loadTwo
  /-- A class. -/
  | classRef
  /-- A field. -/
  | field
  /-- A method of a class. -/
  | method
  /-- A method of an interface and the number of argument slots. -/
  | interfaceMethod
  /-- An array class and a number of dimensions. -/
  | multiArray
  /-- A jump table for consecutive keys. -/
  | tableSwitch
  /-- A jump table with its keys. -/
  | lookupSwitch
  deriving DecidableEq, Repr

/-- What an opcode of the kind expects, in words. -/
def OperandKind.describe : OperandKind → String
  | .none => "no operand"
  | .localVar => "a local variable index"
  | .increment => "a local variable index and an increment"
  | .byte => "a byte immediate"
  | .short => "a short immediate"
  | .arrayType => "a primitive array type"
  | .branch | .branchWide => "a label"
  | .load | .loadWide => "an int, float, string, or class constant"
  | .loadTwo => "a long or double constant"
  | .classRef => "a class name"
  | .field => "a field reference"
  | .method => "a method reference"
  | .interfaceMethod => "an interface method reference and argument count"
  | .multiArray => "a class name and dimension count"
  | .tableSwitch => "a table switch"
  | .lookupSwitch => "a lookup switch"

/-- **An entry of the instruction set.** -/
structure Opcode where
  /-- The name in assembly source. -/
  mnemonic : String
  /-- The byte that starts the instruction. -/
  code : UInt8
  /-- The operand it takes. -/
  kind : OperandKind
  deriving DecidableEq, Repr

namespace Opcode

/-- The byte that widens the operands of the instruction after it. -/
def wideCode : UInt8 := 0xc4

/-- The byte that loads a constant with an index of two bytes. -/
def loadWideCode : UInt8 := 0x13

/-- **The instruction set**, in the order of the opcode bytes. -/
def all : List Opcode :=
  [
    ⟨"nop", 0x00, .none⟩,
    ⟨"aconst_null", 0x01, .none⟩,
    ⟨"iconst_m1", 0x02, .none⟩,
    ⟨"iconst_0", 0x03, .none⟩,
    ⟨"iconst_1", 0x04, .none⟩,
    ⟨"iconst_2", 0x05, .none⟩,
    ⟨"iconst_3", 0x06, .none⟩,
    ⟨"iconst_4", 0x07, .none⟩,
    ⟨"iconst_5", 0x08, .none⟩,
    ⟨"lconst_0", 0x09, .none⟩,
    ⟨"lconst_1", 0x0a, .none⟩,
    ⟨"fconst_0", 0x0b, .none⟩,
    ⟨"fconst_1", 0x0c, .none⟩,
    ⟨"fconst_2", 0x0d, .none⟩,
    ⟨"dconst_0", 0x0e, .none⟩,
    ⟨"dconst_1", 0x0f, .none⟩,
    ⟨"bipush", 0x10, .byte⟩,
    ⟨"sipush", 0x11, .short⟩,
    ⟨"ldc", 0x12, .load⟩,
    ⟨"ldc_w", 0x13, .loadWide⟩,
    ⟨"ldc2_w", 0x14, .loadTwo⟩,
    ⟨"iload", 0x15, .localVar⟩,
    ⟨"lload", 0x16, .localVar⟩,
    ⟨"fload", 0x17, .localVar⟩,
    ⟨"dload", 0x18, .localVar⟩,
    ⟨"aload", 0x19, .localVar⟩,
    ⟨"iload_0", 0x1a, .none⟩,
    ⟨"iload_1", 0x1b, .none⟩,
    ⟨"iload_2", 0x1c, .none⟩,
    ⟨"iload_3", 0x1d, .none⟩,
    ⟨"lload_0", 0x1e, .none⟩,
    ⟨"lload_1", 0x1f, .none⟩,
    ⟨"lload_2", 0x20, .none⟩,
    ⟨"lload_3", 0x21, .none⟩,
    ⟨"fload_0", 0x22, .none⟩,
    ⟨"fload_1", 0x23, .none⟩,
    ⟨"fload_2", 0x24, .none⟩,
    ⟨"fload_3", 0x25, .none⟩,
    ⟨"dload_0", 0x26, .none⟩,
    ⟨"dload_1", 0x27, .none⟩,
    ⟨"dload_2", 0x28, .none⟩,
    ⟨"dload_3", 0x29, .none⟩,
    ⟨"aload_0", 0x2a, .none⟩,
    ⟨"aload_1", 0x2b, .none⟩,
    ⟨"aload_2", 0x2c, .none⟩,
    ⟨"aload_3", 0x2d, .none⟩,
    ⟨"iaload", 0x2e, .none⟩,
    ⟨"laload", 0x2f, .none⟩,
    ⟨"faload", 0x30, .none⟩,
    ⟨"daload", 0x31, .none⟩,
    ⟨"aaload", 0x32, .none⟩,
    ⟨"baload", 0x33, .none⟩,
    ⟨"caload", 0x34, .none⟩,
    ⟨"saload", 0x35, .none⟩,
    ⟨"istore", 0x36, .localVar⟩,
    ⟨"lstore", 0x37, .localVar⟩,
    ⟨"fstore", 0x38, .localVar⟩,
    ⟨"dstore", 0x39, .localVar⟩,
    ⟨"astore", 0x3a, .localVar⟩,
    ⟨"istore_0", 0x3b, .none⟩,
    ⟨"istore_1", 0x3c, .none⟩,
    ⟨"istore_2", 0x3d, .none⟩,
    ⟨"istore_3", 0x3e, .none⟩,
    ⟨"lstore_0", 0x3f, .none⟩,
    ⟨"lstore_1", 0x40, .none⟩,
    ⟨"lstore_2", 0x41, .none⟩,
    ⟨"lstore_3", 0x42, .none⟩,
    ⟨"fstore_0", 0x43, .none⟩,
    ⟨"fstore_1", 0x44, .none⟩,
    ⟨"fstore_2", 0x45, .none⟩,
    ⟨"fstore_3", 0x46, .none⟩,
    ⟨"dstore_0", 0x47, .none⟩,
    ⟨"dstore_1", 0x48, .none⟩,
    ⟨"dstore_2", 0x49, .none⟩,
    ⟨"dstore_3", 0x4a, .none⟩,
    ⟨"astore_0", 0x4b, .none⟩,
    ⟨"astore_1", 0x4c, .none⟩,
    ⟨"astore_2", 0x4d, .none⟩,
    ⟨"astore_3", 0x4e, .none⟩,
    ⟨"iastore", 0x4f, .none⟩,
    ⟨"lastore", 0x50, .none⟩,
    ⟨"fastore", 0x51, .none⟩,
    ⟨"dastore", 0x52, .none⟩,
    ⟨"aastore", 0x53, .none⟩,
    ⟨"bastore", 0x54, .none⟩,
    ⟨"castore", 0x55, .none⟩,
    ⟨"sastore", 0x56, .none⟩,
    ⟨"pop", 0x57, .none⟩,
    ⟨"pop2", 0x58, .none⟩,
    ⟨"dup", 0x59, .none⟩,
    ⟨"dup_x1", 0x5a, .none⟩,
    ⟨"dup_x2", 0x5b, .none⟩,
    ⟨"dup2", 0x5c, .none⟩,
    ⟨"dup2_x1", 0x5d, .none⟩,
    ⟨"dup2_x2", 0x5e, .none⟩,
    ⟨"swap", 0x5f, .none⟩,
    ⟨"iadd", 0x60, .none⟩,
    ⟨"ladd", 0x61, .none⟩,
    ⟨"fadd", 0x62, .none⟩,
    ⟨"dadd", 0x63, .none⟩,
    ⟨"isub", 0x64, .none⟩,
    ⟨"lsub", 0x65, .none⟩,
    ⟨"fsub", 0x66, .none⟩,
    ⟨"dsub", 0x67, .none⟩,
    ⟨"imul", 0x68, .none⟩,
    ⟨"lmul", 0x69, .none⟩,
    ⟨"fmul", 0x6a, .none⟩,
    ⟨"dmul", 0x6b, .none⟩,
    ⟨"idiv", 0x6c, .none⟩,
    ⟨"ldiv", 0x6d, .none⟩,
    ⟨"fdiv", 0x6e, .none⟩,
    ⟨"ddiv", 0x6f, .none⟩,
    ⟨"irem", 0x70, .none⟩,
    ⟨"lrem", 0x71, .none⟩,
    ⟨"frem", 0x72, .none⟩,
    ⟨"drem", 0x73, .none⟩,
    ⟨"ineg", 0x74, .none⟩,
    ⟨"lneg", 0x75, .none⟩,
    ⟨"fneg", 0x76, .none⟩,
    ⟨"dneg", 0x77, .none⟩,
    ⟨"ishl", 0x78, .none⟩,
    ⟨"lshl", 0x79, .none⟩,
    ⟨"ishr", 0x7a, .none⟩,
    ⟨"lshr", 0x7b, .none⟩,
    ⟨"iushr", 0x7c, .none⟩,
    ⟨"lushr", 0x7d, .none⟩,
    ⟨"iand", 0x7e, .none⟩,
    ⟨"land", 0x7f, .none⟩,
    ⟨"ior", 0x80, .none⟩,
    ⟨"lor", 0x81, .none⟩,
    ⟨"ixor", 0x82, .none⟩,
    ⟨"lxor", 0x83, .none⟩,
    ⟨"iinc", 0x84, .increment⟩,
    ⟨"i2l", 0x85, .none⟩,
    ⟨"i2f", 0x86, .none⟩,
    ⟨"i2d", 0x87, .none⟩,
    ⟨"l2i", 0x88, .none⟩,
    ⟨"l2f", 0x89, .none⟩,
    ⟨"l2d", 0x8a, .none⟩,
    ⟨"f2i", 0x8b, .none⟩,
    ⟨"f2l", 0x8c, .none⟩,
    ⟨"f2d", 0x8d, .none⟩,
    ⟨"d2i", 0x8e, .none⟩,
    ⟨"d2l", 0x8f, .none⟩,
    ⟨"d2f", 0x90, .none⟩,
    ⟨"i2b", 0x91, .none⟩,
    ⟨"i2c", 0x92, .none⟩,
    ⟨"i2s", 0x93, .none⟩,
    ⟨"lcmp", 0x94, .none⟩,
    ⟨"fcmpl", 0x95, .none⟩,
    ⟨"fcmpg", 0x96, .none⟩,
    ⟨"dcmpl", 0x97, .none⟩,
    ⟨"dcmpg", 0x98, .none⟩,
    ⟨"ifeq", 0x99, .branch⟩,
    ⟨"ifne", 0x9a, .branch⟩,
    ⟨"iflt", 0x9b, .branch⟩,
    ⟨"ifge", 0x9c, .branch⟩,
    ⟨"ifgt", 0x9d, .branch⟩,
    ⟨"ifle", 0x9e, .branch⟩,
    ⟨"if_icmpeq", 0x9f, .branch⟩,
    ⟨"if_icmpne", 0xa0, .branch⟩,
    ⟨"if_icmplt", 0xa1, .branch⟩,
    ⟨"if_icmpge", 0xa2, .branch⟩,
    ⟨"if_icmpgt", 0xa3, .branch⟩,
    ⟨"if_icmple", 0xa4, .branch⟩,
    ⟨"if_acmpeq", 0xa5, .branch⟩,
    ⟨"if_acmpne", 0xa6, .branch⟩,
    ⟨"goto", 0xa7, .branch⟩,
    ⟨"jsr", 0xa8, .branch⟩,
    ⟨"ret", 0xa9, .localVar⟩,
    ⟨"tableswitch", 0xaa, .tableSwitch⟩,
    ⟨"lookupswitch", 0xab, .lookupSwitch⟩,
    ⟨"ireturn", 0xac, .none⟩,
    ⟨"lreturn", 0xad, .none⟩,
    ⟨"freturn", 0xae, .none⟩,
    ⟨"dreturn", 0xaf, .none⟩,
    ⟨"areturn", 0xb0, .none⟩,
    ⟨"return", 0xb1, .none⟩,
    ⟨"getstatic", 0xb2, .field⟩,
    ⟨"putstatic", 0xb3, .field⟩,
    ⟨"getfield", 0xb4, .field⟩,
    ⟨"putfield", 0xb5, .field⟩,
    ⟨"invokevirtual", 0xb6, .method⟩,
    ⟨"invokespecial", 0xb7, .method⟩,
    ⟨"invokestatic", 0xb8, .method⟩,
    ⟨"invokeinterface", 0xb9, .interfaceMethod⟩,
    ⟨"new", 0xbb, .classRef⟩,
    ⟨"newarray", 0xbc, .arrayType⟩,
    ⟨"anewarray", 0xbd, .classRef⟩,
    ⟨"arraylength", 0xbe, .none⟩,
    ⟨"athrow", 0xbf, .none⟩,
    ⟨"checkcast", 0xc0, .classRef⟩,
    ⟨"instanceof", 0xc1, .classRef⟩,
    ⟨"monitorenter", 0xc2, .none⟩,
    ⟨"monitorexit", 0xc3, .none⟩,
    ⟨"multianewarray", 0xc5, .multiArray⟩,
    ⟨"ifnull", 0xc6, .branch⟩,
    ⟨"ifnonnull", 0xc7, .branch⟩,
    ⟨"goto_w", 0xc8, .branchWide⟩,
    ⟨"jsr_w", 0xc9, .branchWide⟩
  ]

/-- **The opcode with the given mnemonic.** -/
def find? (mnemonic : String) : Option Opcode :=
  all.find? fun opcode => opcode.mnemonic == mnemonic

end Opcode

end BytecodeAssembler
