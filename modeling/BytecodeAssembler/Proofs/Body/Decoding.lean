import BytecodeAssembler.Body.Encoding
import BytecodeAssembler.Proofs.Body.Layout
import BytecodeAssembler.Proofs.Instruction.Decoding

/-!
# Code arrays decode to the body

The code array of a body is a plain sequence of bytes, in which nothing marks
where an instruction ends. Still there is one way to read it: each
instruction is as long as layout counted with, so the reader finds the next
one exactly where it was laid out. The induction is over the instructions as
they are laid out, and carries the offset at which the reader stands.
-/

namespace BytecodeAssembler

variable {pool : ConstantPool} {labels : LabelTable}

/-- An instruction takes at least one byte. -/
theorem ne_nil_of_reads {offset : Nat} {bytes : Bytes} {d : CodeInstruction}
    (h : Reads (readInstruction offset) bytes d) : bytes ≠ [] := by
  rintro rfl
  cases h []

/-- **The decoder takes an instruction off the front** and goes on behind
it. -/
theorem decodeFrom_append {offset : Nat} {bytes : Bytes} {d : CodeInstruction}
    (h : Reads (readInstruction offset) bytes d) (rest : Bytes) :
    decodeFrom offset (bytes ++ rest)
      = (decodeFrom (offset + bytes.length) rest).map (d :: ·) := by
  have hpos : 0 < bytes.length := List.length_pos_iff.2 (ne_nil_of_reads h)
  have hlt : rest.length < (bytes ++ rest).length := by
    rw [List.length_append]
    omega
  have hconsumed : (bytes ++ rest).length - rest.length = bytes.length := by
    rw [List.length_append, Nat.add_sub_cancel]
  rw [decodeFrom, if_neg (List.append_ne_nil_of_left_ne_nil (ne_nil_of_reads h) rest), h rest]
  dsimp only
  rw [if_pos hlt, hconsumed]

/-- **Instructions that are laid out decode one after the other**, each at
its start, and their bytes lead exactly to the end. -/
theorem decodeFrom_of_laid (hpool : pool.Reachable) {first finish : Nat}
    {is : List Instruction} {starts : List Nat} (hlaid : Laid pool first is starts finish)
    (hmade : ∀ i ∈ is, i.Made) (hbound : finish ≤ 65535) {chunks : List Bytes}
    (hchunks : List.Forall₂ (fun entry chunk => entry.1.encode entry.2 pool labels = .ok chunk)
      (is.zip starts) chunks) :
    first + chunks.flatten.length = finish
      ∧ ∃ decoded, decodeFrom first chunks.flatten = some decoded
        ∧ List.Forall₂ (fun entry d => Shows pool labels entry.2 entry.1 d)
          (is.zip starts) decoded := by
  induction hlaid generalizing chunks with
  | nil offset =>
    cases hchunks
    refine ⟨rfl, [], ?_, .nil⟩
    rw [decodeFrom]
    rfl
  | @cons offset size finish i is starts hsize hrest ih =>
    obtain ⟨chunk, later, hchunk, hlater, rfl⟩ := List.forall₂_cons_left_iff.1 hchunks
    obtain ⟨hi, hmade⟩ := List.forall_mem_cons.1 hmade
    have hle := hrest.le
    have hlength := Instruction.length_encode hsize hchunk
    obtain ⟨d, hshows, hread⟩ := hi.reads_encode hpool hsize (by omega) hchunk
    obtain ⟨hend, decoded, hdecoded, hall⟩ := ih hmade hbound hlater
    refine ⟨?_, d :: decoded, ?_, .cons hshows hall⟩
    · rw [List.flatten_cons, List.length_append]
      omega
    · rw [List.flatten_cons, decodeFrom_append hread, hlength, hdecoded]
      rfl

namespace Body

variable {b : Body} {context : BodyContext}

/-- What is written for a body: the bytes of its instructions, each encoded
at its offset. -/
theorem code_of_encode {code : Code} (h : (b.encode pool context).2 = .ok code) :
    ∃ starts length chunks, (b.layout pool).2 = .ok (starts, length)
      ∧ List.Forall₂ (fun entry chunk =>
          entry.1.encode entry.2 pool (b.encode pool context).1.labels = .ok chunk)
        (b.instructions.zip starts) chunks
      ∧ code.code = chunks.flatten := by
  obtain ⟨⟨starts, length⟩, hlayout, h⟩ := bind_eq_ok_iff.1 h
  obtain ⟨bytes, hbytes, h⟩ := bind_eq_ok_iff.1 h
  obtain ⟨handlers, -, h⟩ := bind_eq_ok_iff.1 h
  obtain ⟨-, -, h⟩ := bind_eq_ok_iff.1 h
  obtain ⟨attributes, -, h⟩ := bind_eq_ok_iff.1 h
  cases h
  obtain ⟨chunks, hchunks, rfl⟩ := map_eq_ok_iff.1 hbytes
  exact ⟨starts, length, chunks, hlayout, mapM_eq_ok_iff.1 hchunks, rfl⟩

end Body

/-- **The code of a body decodes to the body.** Reading the code array from
its start uses up all its bytes and gives one instruction for each
instruction of the body, in order, at the offset where it was laid out; what
it shows is that instruction, with its own opcode and operand. Every jump
leads to the offset of its label, and that is where the label stands among
the instructions. -/
theorem encode_decodes (b : Body) (pool : ConstantPool) (context : BodyContext)
    (hpool : pool.Reachable) (hmade : ∀ i ∈ b.instructions, i.Made) (code : Code)
    (h : (b.encode pool context).2 = .ok code) :
    ∃ starts decoded, (b.layout pool).2 = .ok (starts, code.code.length)
      ∧ starts.length = b.instructions.length
      ∧ decodeCode code.code = some decoded
      ∧ List.Forall₂ (fun entry d =>
          Shows pool (b.encode pool context).1.labels entry.2 entry.1 d)
        (b.instructions.zip starts) decoded
      ∧ ∀ front l back, b.elements.toList = front ++ .label l :: back → .label l ∉ back →
        b.labels.Has l → ∃ p, (b.encode pool context).1.labels.offset l = .ok p
          ∧ (starts ++ [code.code.length])[(front.filterMap Element.instruction?).length]?
            = some p := by
  obtain ⟨starts, length, chunks, hlayout, hchunks, hcode⟩ := Body.code_of_encode h
  obtain ⟨hlaid, hbound, -⟩ := Body.layout_eq_ok hlayout
  obtain ⟨hend, decoded, hdecoded, hall⟩ := decodeFrom_of_laid hpool hlaid hmade hbound hchunks
  obtain rfl : chunks.flatten.length = length := (Nat.zero_add _).symm.trans hend
  rw [hcode]
  refine ⟨starts, decoded, hlayout, hlaid.length_starts, hdecoded, hall, ?_⟩
  intro front l back hsplit hlast hl
  exact Body.offset_of_label hlayout hsplit hlast hl

/-- A body that loads a variable by a wide index and then jumps back, through
a table or on its own. -/
def loopBody : Body :=
  ((Body.empty.here.2.push ⟨⟨"iload", 0x15, .localVar⟩, .localVar 300⟩).push
    ⟨⟨"tableswitch", 0xaa, .tableSwitch⟩, .tableSwitch (-1) ⟨0⟩ [⟨0⟩, ⟨0⟩]⟩).push
    ⟨⟨"goto", 0xa7, .branch⟩, .branch ⟨0⟩⟩

/-- The code of that body. -/
def loopCode : Code where
  maxStack := 1
  maxLocals := 0
  code := [0xc4, 0x15, 1, 44, 0xaa, 0, 0, 0, 255, 255, 255, 252, 255, 255, 255, 255, 0, 0, 0, 0,
    255, 255, 255, 252, 255, 255, 255, 252, 0xa7, 255, 228]
  handlers := []
  attributes := []

theorem made_loopBody : ∀ i ∈ loopBody.instructions, i.Made := by
  have hinstructions : loopBody.instructions =
      [⟨⟨"iload", 0x15, .localVar⟩, .localVar 300⟩,
        ⟨⟨"tableswitch", 0xaa, .tableSwitch⟩, .tableSwitch (-1) ⟨0⟩ [⟨0⟩, ⟨0⟩]⟩,
        ⟨⟨"goto", 0xa7, .branch⟩, .branch ⟨0⟩⟩] := rfl
  rw [hinstructions]
  simp only [List.forall_mem_cons, List.not_mem_nil, false_implies, implies_true, and_true]
  refine ⟨⟨?_, .localVar 300, rfl⟩, ⟨?_, .tableSwitch (-1) ⟨0⟩ [⟨0⟩, ⟨0⟩], rfl⟩,
    ⟨?_, .branch ⟨0⟩, rfl⟩⟩ <;> decide +kernel

/-- A finalized pool without constants. -/
def loopPool : ConstantPool := { ConstantPool.empty with numbering := some ⟨#[], 1⟩ }

/-- The code is read as the three instructions, at 0, 4 and 28. -/
theorem encode_decodes_loop :
    (loopBody.encode loopPool ⟨.compact, [], 0⟩).2 = .ok loopCode
    ∧ ∃ decoded, decodeCode loopCode.code = some decoded
      ∧ List.Forall₂ (fun entry d =>
          Shows loopPool (loopBody.encode loopPool ⟨.compact, [], 0⟩).1.labels entry.2 entry.1 d)
        (loopBody.instructions.zip [0, 4, 28]) decoded := by
  have hpool : loopPool.Reachable := .finalize .empty rfl
  have hencode : (loopBody.encode loopPool ⟨.compact, [], 0⟩).2 = .ok loopCode := rfl
  obtain ⟨starts, decoded, hlayout, -, hdecoded, hall, -⟩ :=
    encode_decodes loopBody loopPool _ hpool made_loopBody loopCode hencode
  obtain rfl : [0, 4, 28] = starts := congrArg Prod.fst (Except.ok.inj hlayout)
  exact ⟨hencode, decoded, hdecoded, hall⟩

end BytecodeAssembler
