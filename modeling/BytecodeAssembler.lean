import BytecodeAssembler.AccessFlags.Basic
import BytecodeAssembler.AccessFlags.Keywords
import BytecodeAssembler.AnnotationTree
import BytecodeAssembler.Argument
import BytecodeAssembler.Assembler.Basic
import BytecodeAssembler.Assembler.Directives
import BytecodeAssembler.Assembler.Finish
import BytecodeAssembler.Assembler.OpenMethod
import BytecodeAssembler.Attribute
import BytecodeAssembler.Body.Basic
import BytecodeAssembler.Body.Encoding
import BytecodeAssembler.Body.Layout
import BytecodeAssembler.Bytes
import BytecodeAssembler.Class.Attributes
import BytecodeAssembler.Class.Basic
import BytecodeAssembler.Class.Encoding
import BytecodeAssembler.Class.Field
import BytecodeAssembler.Class.Method
import BytecodeAssembler.ClassFile
import BytecodeAssembler.CommandLine.Files
import BytecodeAssembler.CommandLine.Options
import BytecodeAssembler.CommandLine.Path
import BytecodeAssembler.CommandLine.Run
import BytecodeAssembler.CommandLine.Workspace
import BytecodeAssembler.Constant
import BytecodeAssembler.ConstantPool.Basic
import BytecodeAssembler.ConstantPool.Entry
import BytecodeAssembler.Descriptor.Basic
import BytecodeAssembler.Descriptor.Reader
import BytecodeAssembler.Directive
import BytecodeAssembler.Display
import BytecodeAssembler.Fault.Basic
import BytecodeAssembler.Fault.Message
import BytecodeAssembler.Instruction.Basic
import BytecodeAssembler.Instruction.Encoding
import BytecodeAssembler.Instruction.Narrow
import BytecodeAssembler.Instruction.Resolution
import BytecodeAssembler.Label.Basic
import BytecodeAssembler.Label.Table
import BytecodeAssembler.Main
import BytecodeAssembler.Number.Binary
import BytecodeAssembler.Number.Decimal
import BytecodeAssembler.Opcode
import BytecodeAssembler.Operand
import BytecodeAssembler.Proofs.Annotation.Decoding
import BytecodeAssembler.Proofs.Assembler.Annotations
import BytecodeAssembler.Proofs.Assembler.AutomaticLines
import BytecodeAssembler.Proofs.Assembler.CleanRun
import BytecodeAssembler.Proofs.Assembler.CopiedLocals
import BytecodeAssembler.Proofs.Assembler.Dictation
import BytecodeAssembler.Proofs.Assembler.Effects
import BytecodeAssembler.Proofs.Assembler.Innermost
import BytecodeAssembler.Proofs.Assembler.Members
import BytecodeAssembler.Proofs.Assembler.MethodRenaming
import BytecodeAssembler.Proofs.Assembler.OpenFrame
import BytecodeAssembler.Proofs.Assembler.OpenMethod
import BytecodeAssembler.Proofs.Assembler.PendingInstruction
import BytecodeAssembler.Proofs.Assembler.Positions
import BytecodeAssembler.Proofs.Assembler.Renaming
import BytecodeAssembler.Proofs.Assembler.StackMapForm
import BytecodeAssembler.Proofs.Assembler.Steps
import BytecodeAssembler.Proofs.Assembler.Unlined
import BytecodeAssembler.Proofs.Body.Books
import BytecodeAssembler.Proofs.Body.BranchRange
import BytecodeAssembler.Proofs.Body.Construction
import BytecodeAssembler.Proofs.Body.Decoding
import BytecodeAssembler.Proofs.Body.Faults
import BytecodeAssembler.Proofs.Body.LabelBookkeeping
import BytecodeAssembler.Proofs.Body.LabelNames
import BytecodeAssembler.Proofs.Body.Layout
import BytecodeAssembler.Proofs.Body.Offsets
import BytecodeAssembler.Proofs.Body.Places
import BytecodeAssembler.Proofs.Body.SideTables
import BytecodeAssembler.Proofs.Bytes
import BytecodeAssembler.Proofs.Class.Attributes
import BytecodeAssembler.Proofs.Class.Counts
import BytecodeAssembler.Proofs.Class.Faults
import BytecodeAssembler.Proofs.Class.FieldConstants
import BytecodeAssembler.Proofs.Class.Lowering
import BytecodeAssembler.Proofs.Class.References
import BytecodeAssembler.Proofs.ClassFile.Decoding
import BytecodeAssembler.Proofs.ConstantPool.Decoding
import BytecodeAssembler.Proofs.ConstantPool.Failures
import BytecodeAssembler.Proofs.ConstantPool.Listing
import BytecodeAssembler.Proofs.ConstantPool.Numbering
import BytecodeAssembler.Proofs.ConstantPool.Order
import BytecodeAssembler.Proofs.ConstantPool.Registration
import BytecodeAssembler.Proofs.ConstantPool.Run
import BytecodeAssembler.Proofs.Descriptor.Faults
import BytecodeAssembler.Proofs.Descriptor.Grammar
import BytecodeAssembler.Proofs.Descriptor.RoundTrip
import BytecodeAssembler.Proofs.Descriptor.Slots
import BytecodeAssembler.Proofs.Instruction.Agreement
import BytecodeAssembler.Proofs.Instruction.Decoding
import BytecodeAssembler.Proofs.Instruction.LookupSwitch
import BytecodeAssembler.Proofs.Label.Mentions
import BytecodeAssembler.Proofs.Label.Renaming
import BytecodeAssembler.Proofs.Label.Resolution
import BytecodeAssembler.Proofs.Label.Table
import BytecodeAssembler.Proofs.Outcome
import BytecodeAssembler.Proofs.SameOutcome
import BytecodeAssembler.Proofs.Source.BlankLines
import BytecodeAssembler.Proofs.Source.Frames
import BytecodeAssembler.Proofs.Source.Integer
import BytecodeAssembler.Proofs.Source.LineEffect
import BytecodeAssembler.Proofs.Source.Recording
import BytecodeAssembler.Proofs.Source.SwitchEntries
import BytecodeAssembler.Proofs.Source.Tokens
import BytecodeAssembler.Proofs.StackMap.Compaction
import BytecodeAssembler.Proofs.StackMap.Counts
import BytecodeAssembler.Proofs.StackMap.Decoding
import BytecodeAssembler.Proofs.StackMap.FrameBytes
import BytecodeAssembler.Proofs.StackMap.Legacy
import BytecodeAssembler.Proofs.StackMap.NumericPlaces
import BytecodeAssembler.Proofs.StackMap.Resolution
import BytecodeAssembler.Proofs.Text.Integer
import BytecodeAssembler.Proofs.Text.ModifiedUtf8
import BytecodeAssembler.Source.Command
import BytecodeAssembler.Source.Number
import BytecodeAssembler.Source.Operands
import BytecodeAssembler.Source.Reading
import BytecodeAssembler.Source.Token
import BytecodeAssembler.StackMap.Encoding
import BytecodeAssembler.StackMap.Frame
import BytecodeAssembler.StackMap.VerificationType
import BytecodeAssembler.Text.Blank
import BytecodeAssembler.Text.Extending
import BytecodeAssembler.Text.Integer
import BytecodeAssembler.Text.Lines
import BytecodeAssembler.Text.ModifiedUtf8
import BytecodeAssembler.Text.Quoted
import BytecodeAssembler.Text.Unprintable
import BytecodeAssembler.Text.Utf8
import BytecodeAssembler.Version.Basic
import BytecodeAssembler.Version.Reader
