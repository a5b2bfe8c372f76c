import BytecodeAssembler.Proofs.Body.Faults
import BytecodeAssembler.Proofs.Body.Offsets

/-!
# When a code array can be written

Before the tables of a body come its instructions: they are laid out and
encoded one after the other. Once their constants have indices and their
labels stand in the stream, two things can still stop them. The code is too
long, or a branch of two bytes is too far from its label. The distance of a
branch depends on the sizes of all instructions in between, so it is stated
over the offsets that layout gives (`BranchesReach`).

A jump of four bytes never fails: it leads from one offset to another, and
both are at most 65535 by the time that anything is written.
-/

namespace BytecodeAssembler

variable {pool : ConstantPool} {labels : LabelTable} {start position : Nat}

/-! ## Distances -/

/-- **A branch of two bytes** to the label. -/
def Instruction.BranchesTo (i : Instruction) (target : Label) : Prop :=
  i.opcode.kind = .branch ∧ i.operand = .branch target

/-- **The distance fits in two bytes.** -/
def InBranchRange (start position : Nat) : Prop :=
  -32768 ≤ (position : Int) - start ∧ (position : Int) - start ≤ 32767

namespace Instruction

variable {opcode : Opcode} {target : Label}

theorem BranchesTo.mem_labels {i : Instruction} (h : i.BranchesTo target) :
    target ∈ i.labels := by
  rw [Instruction.labels, h.2]
  exact List.mem_cons_self

/-- A made instruction that jumps without being wide is a branch of two
bytes. -/
theorem Made.branchesTo {i : Instruction} (hi : i.Made) (hoperand : i.operand = .branch target)
    (hkind : i.opcode.kind ≠ .branchWide) : i.BranchesTo target := by
  refine ⟨?_, hoperand⟩
  have hfits := hi.fits
  rw [hoperand] at hfits
  generalize i.opcode.kind = kind at hfits hkind ⊢
  cases hfits with
  | branch => rfl
  | branchWide => exact absurd rfl hkind

-- the opcodes whose branches take two bytes
example : (Opcode.all.filter (·.kind = .branch)).map Opcode.mnemonic =
    ["ifeq", "ifne", "iflt", "ifge", "ifgt", "ifle", "if_icmpeq", "if_icmpne", "if_icmplt",
      "if_icmpge", "if_icmpgt", "if_icmple", "if_acmpeq", "if_acmpne", "goto", "jsr", "ifnull",
      "ifnonnull"] := by decide +kernel

/-- A distance is the offset of the label without the offset of the jump. -/
theorem displacement_of_offset (h : labels.offset target = .ok position) :
    displacement labels start target = .ok ((position : Int) - start) := by
  unfold displacement
  rw [h]
  rfl

/-- **A jump of two bytes is written exactly if its distance fits.** -/
theorem narrowJump_of_offset (h : labels.offset target = .ok position) :
    narrowJump opcode labels start target =
      if -32768 ≤ (position : Int) - start ∧ (position : Int) - start ≤ 32767 then
        .ok (opcode.code :: Bytes.s2 (Int16.ofInt ((position : Int) - start)))
      else .error
        (.branchTooFar (labels.nameOf target) opcode.mnemonic ((position : Int) - start)) := by
  unfold narrowJump
  rw [displacement_of_offset h]

/-- **A jump of four bytes is written** between any two offsets of a code
that is not too long. -/
theorem exists_wideJump (h : labels.offset target = .ok position) (hposition : position ≤ 65535)
    (hstart : start ≤ 65535) : ∃ bytes, wideJump labels start target = .ok bytes := by
  unfold wideJump
  rw [displacement_of_offset h]
  exact ⟨_, if_pos (by omega)⟩

/-- A branch that is written is in range. -/
theorem BranchesTo.inBranchRange_of_encode {i : Instruction} {bytes : Bytes}
    (hi : i.BranchesTo target) (h : labels.offset target = .ok position)
    (hencode : i.encode start pool labels = .ok bytes) : InBranchRange start position := by
  obtain ⟨opcode, operand⟩ := i
  obtain ⟨hkind, rfl⟩ : opcode.kind = .branch ∧ operand = .branch target := hi
  have hjump : narrowJump opcode labels start target = .ok bytes := by
    rw [← Emission.result_singleton_eq_ok_iff, ← hencode, encode, emission]
    dsimp only
    rw [if_neg (by rw [hkind]; decide)]
  rw [narrowJump_of_offset h] at hjump
  exact (okIf_eq_ok_iff.1 hjump).1

end Instruction

/-! ## Instructions at their offsets -/

section Entries

variable {entries : List (Instruction × Nat)}

/-- **Every branch of two bytes is in range of its label.** The instructions
are given with the offsets where they start. -/
def BranchesReach (labels : LabelTable) (entries : List (Instruction × Nat)) : Prop :=
  ∀ i start target position, (i, start) ∈ entries → i.BranchesTo target →
    labels.offset target = .ok position → InBranchRange start position

/-- **The faults of branches that are too far from their labels.** -/
inductive TooFar (labels : LabelTable) (entries : List (Instruction × Nat)) : Fault → Prop where
  | intro {i : Instruction} {start position : Nat} {target : Label} (hi : (i, start) ∈ entries)
      (hbranch : i.BranchesTo target) (hposition : labels.offset target = .ok position)
      (hfar : ¬InBranchRange start position) :
      TooFar labels entries
        (.branchTooFar (labels.nameOf target) i.opcode.mnemonic ((position : Int) - start))

theorem TooFar.kind_eq {fault : Fault} (h : TooFar labels entries fault) :
    fault.kind = .numeric := by
  cases h
  rfl

theorem BranchesReach.not_tooFar (h : BranchesReach labels entries) {fault : Fault} :
    ¬TooFar labels entries fault := by
  rintro ⟨hi, hbranch, hposition, hfar⟩
  exact hfar (h _ _ _ _ hi hbranch hposition)

/-- **Instructions that are made fail by a branch only**, if their constants
have indices and no offset is beyond the longest code. -/
theorem mapM_encode_failsOnly (hmade : ∀ entry ∈ entries, entry.1.Made)
    (hsupply : ∀ entry ∈ entries, ∀ c, entry.1.constant? = some c →
      ∃ index, pool.indexOf c = .ok index)
    (hstarts : ∀ entry ∈ entries, entry.2 ≤ 65535)
    (hlabels : ∀ entry ∈ entries, ∀ l ∈ entry.1.labels, ∃ p ≤ 65535, labels.offset l = .ok p) :
    FailsOnly (TooFar labels entries)
      (entries.mapM fun entry => entry.1.encode entry.2 pool labels) := by
  refine FailsOnly.mapM fun entry hentry => ?_
  refine Instruction.encode_failsOnly_of_jumps
    (fun c hc => .of_eq_ok (hsupply entry hentry c hc)) (fun target hoperand hkind => ?_)
    fun l hl => ?_
  · have hbranch := (hmade entry hentry).branchesTo hoperand hkind
    obtain ⟨p, -, hp⟩ := hlabels entry hentry target hbranch.mem_labels
    rw [Instruction.narrowJump_of_offset hp]
    exact FailsOnly.ite (fun _ => .ok _) fun hfar => .error (.intro hentry hbranch hp hfar)
  · obtain ⟨p, hle, hp⟩ := hlabels entry hentry l hl
    exact .of_eq_ok (Instruction.exists_wideJump hp hle (hstarts entry hentry))

/-- If all instructions are written, every branch is in range. -/
theorem branchesReach_of_mapM {chunks : List Bytes}
    (h : (entries.mapM fun entry => entry.1.encode entry.2 pool labels) = .ok chunks) :
    BranchesReach labels entries := by
  intro i start target position hi hbranch hposition
  obtain ⟨k, hk⟩ := List.mem_iff_getElem?.1 hi
  obtain ⟨bytes, -, hencode⟩ := getElem?_of_forall₂ (mapM_eq_ok_iff.1 h) hk
  exact hbranch.inBranchRange_of_encode hposition hencode

end Entries

namespace Body

variable {b : Body}

/-- **The walk over a body comes to the end** once its constants have
indices. -/
theorem exists_walk (h : ∀ i ∈ b.instructions, ∀ c, i.constant? = some c →
      ∃ index, pool.indexOf c = .ok index) :
    ∃ after, Layout.walk pool b.elements.toList ⟨#[], 0, b.labels⟩ = (after, none) := by
  refine Layout.exists_walk (fun i offset hi => FailsOnly.exists_ok ?_) _
  refine Instruction.size_failsOnly fun c hc => .of_eq_ok (h i ?_ c hc)
  exact List.mem_filterMap.2 ⟨.instruction i, hi, rfl⟩

/-! ## The code array -/

/-- **The code array of a body**: its instructions laid out and encoded. -/
def codeArray (b : Body) (pool : ConstantPool) : Except Fault Bytes :=
  (b.layout pool).2.bind fun (starts, _) => (b.layout pool).1.encodeInstructions starts pool

/-- The code of a body that is encoded is its code array. -/
theorem codeArray_of_encode {context : BodyContext} {code : Code}
    (h : (b.encode pool context).2 = .ok code) : b.codeArray pool = .ok code.code := by
  obtain ⟨starts, length, chunks, hlayout, hchunks, hcode⟩ := code_of_encode h
  unfold codeArray
  rw [hlayout, hcode]
  exact map_eq_ok_iff.2 ⟨chunks, mapM_eq_ok_iff.2 hchunks, rfl⟩

/-- Encoding a body begins with its code array, and fails if that fails. -/
theorem encode_of_codeArray {fault : Fault} (h : b.codeArray pool = .error fault)
    (context : BodyContext) : (b.encode pool context).2 = .error fault := by
  unfold codeArray at h
  unfold encode
  dsimp only
  cases hlayout : (b.layout pool).2 with
  | error fault' =>
    rw [hlayout] at h
    cases h
    rfl
  | ok laid =>
    rw [hlayout] at h
    have h : (b.layout pool).1.encodeInstructions laid.1 pool = .error fault := h
    show (b.layout pool).1.encodeLaidOut laid.1 pool context = .error fault
    unfold encodeLaidOut
    rw [h]
    rfl

/-- The code array of a body, if the walk over it comes to the end. -/
theorem codeArray_of_walk {after : Layout}
    (h : Layout.walk pool b.elements.toList ⟨#[], 0, b.labels⟩ = (after, none)) :
    b.codeArray pool =
      if after.length ≤ 65535 then
        ((b.instructions.zip after.starts.toList).mapM fun (entry : Instruction × Nat) =>
          entry.1.encode entry.2 pool after.labels).map List.flatten
      else .error (.codeTooLong after.length 65535) := by
  unfold codeArray
  rw [layout_of_walk h]
  show Except.bind (if after.length ≤ 65535 then _ else _) _ = _
  split <;> rfl

section Walked

variable {after : Layout}
  (hwalk : Layout.walk pool b.elements.toList ⟨#[], 0, b.labels⟩ = (after, none))
include hwalk

/-- The instructions of a body start within its code. -/
theorem le_length_of_walk {i : Instruction} {start : Nat}
    (h : (i, start) ∈ b.instructions.zip after.starts.toList) :
    i ∈ b.instructions ∧ start ≤ after.length := by
  obtain ⟨hi, hstart⟩ := List.of_mem_zip h
  obtain ⟨starts, hstarts, hlaid⟩ := Layout.laid_of_walk hwalk
  obtain rfl : after.starts.toList = starts := hstarts
  exact ⟨hi, hlaid.le_of_mem (List.mem_append_left _ hstart)⟩

variable (hmade : ∀ i ∈ b.instructions, i.Made)
  (hplaced : ∀ i ∈ b.instructions, ∀ l ∈ i.labels, b.Places l)
  (hsupply : ∀ i ∈ b.instructions, ∀ c, i.constant? = some c →
    ∃ index, pool.indexOf c = .ok index)
include hmade hplaced hsupply

/-- **Only a branch of two bytes can stop the instructions** of a body whose
code is not too long. -/
theorem mapM_encode_failsOnly_of_walk (hlength : after.length ≤ 65535) :
    FailsOnly (TooFar after.labels (b.instructions.zip after.starts.toList))
      ((b.instructions.zip after.starts.toList).mapM fun (entry : Instruction × Nat) =>
        entry.1.encode entry.2 pool after.labels) := by
  have hmem : ∀ entry ∈ b.instructions.zip after.starts.toList,
      entry.1 ∈ b.instructions ∧ entry.2 ≤ after.length :=
    fun entry h => le_length_of_walk hwalk h
  refine mapM_encode_failsOnly (fun entry h => hmade _ (hmem entry h).1)
    (fun entry h => hsupply _ (hmem entry h).1)
    (fun entry h => Nat.le_trans (hmem entry h).2 hlength) fun entry h l hl => ?_
  have hl := hplaced _ (hmem entry h).1 l hl
  obtain ⟨p, hle, hp⟩ := Layout.exists_offset_of_walk hwalk hl.1 (.inl hl.2)
  exact ⟨p, Nat.le_trans hle hlength, hp⟩

/-- **What stops the code array of a body**: it is too long, or a branch is too
far from its label. -/
theorem codeArray_failsOnly :
    FailsOnly (fun fault => fault = .codeTooLong after.length 65535
        ∨ TooFar after.labels (b.instructions.zip after.starts.toList) fault)
      (b.codeArray pool) := by
  rw [codeArray_of_walk hwalk]
  refine FailsOnly.ite (fun hlength => ?_) fun _ => .error (.inl rfl)
  have hfails := mapM_encode_failsOnly_of_walk hwalk hmade hplaced hsupply hlength
  exact hfails.map.mono fun fault => .inr

/-- **The code array is written exactly if the code is not too long and every
branch is in range.** -/
theorem exists_codeArray_iff :
    (∃ code, b.codeArray pool = .ok code) ↔ after.length ≤ 65535
      ∧ BranchesReach after.labels (b.instructions.zip after.starts.toList) := by
  rw [codeArray_of_walk hwalk]
  by_cases hlength : after.length ≤ 65535
  · rw [if_pos hlength, and_iff_right hlength]
    constructor
    · rintro ⟨code, hcode⟩
      obtain ⟨chunks, hchunks, -⟩ := map_eq_ok_iff.1 hcode
      exact branchesReach_of_mapM hchunks
    · intro hreach
      have hfails := mapM_encode_failsOnly_of_walk hwalk hmade hplaced hsupply hlength
      obtain ⟨chunks, hchunks⟩ := (hfails.mono fun fault h => hreach.not_tooFar h).exists_ok
      exact ⟨chunks.flatten, map_eq_ok_iff.2 ⟨chunks, hchunks, rfl⟩⟩
  · rw [if_neg hlength]
    refine iff_of_false ?_ fun h => hlength h.1
    rintro ⟨code, hcode⟩
    cases hcode

end Walked

end Body

/-- **When the code array of a body can be written.** The instructions were
made, their labels stand in the stream, and their constants are in the pool.
Then layout gives every instruction and every label its offset, and the code
array is written exactly if the code is not too long and every branch of two
bytes is in range of its label. If it is not written, the fault says which of
these it is, and encoding the body fails with the same fault. No jump of four
bytes ever fails. -/
theorem codeArray_eq_ok_iff (b : Body) (pool : ConstantPool)
    (hmade : ∀ i ∈ b.instructions, i.Made)
    (hplaced : ∀ i ∈ b.instructions, ∀ l ∈ i.labels, b.Places l)
    (hpool : pool.Reachable) (hfinal : pool.numbering.isSome = true)
    (hholds : ∀ i ∈ b.instructions, ∀ c, i.constant? = some c → c ∈ pool.entries) :
    ∃ starts length, Laid pool 0 b.instructions starts length
      ∧ (∀ i ∈ b.instructions, ∀ l ∈ i.labels, ∃ before p, b.Stands l before
        ∧ (b.layout pool).1.labels.offset l = .ok p
        ∧ (starts ++ [length])[before.length]? = some p)
      ∧ ((∃ code, b.codeArray pool = .ok code) ↔ length ≤ 65535
        ∧ BranchesReach (b.layout pool).1.labels (b.instructions.zip starts))
      ∧ (∀ fault, b.codeArray pool = .error fault → fault.kind = .numeric
        ∧ (fault = .codeTooLong length 65535
          ∨ TooFar (b.layout pool).1.labels (b.instructions.zip starts) fault))
      ∧ (length ≤ 65535 → ∀ i start, (i, start) ∈ b.instructions.zip starts →
        ∀ l ∈ i.labels, ∃ bytes,
          Instruction.wideJump (b.layout pool).1.labels start l = .ok bytes)
      ∧ ∀ context, (∀ code, (b.encode pool context).2 = .ok code →
          b.codeArray pool = .ok code.code)
        ∧ ∀ fault, b.codeArray pool = .error fault →
          (b.encode pool context).2 = .error fault := by
  obtain ⟨n, hn⟩ := Option.isSome_iff_exists.1 hfinal
  have hsupply : ∀ i ∈ b.instructions, ∀ c, i.constant? = some c →
      ∃ index, pool.indexOf c = .ok index :=
    fun i hi c hc => hpool.wellFormed.exists_indexOf hn (hholds i hi c hc)
  -- sizes need the pool but no label, so the walk ends and every label gets its offset
  obtain ⟨after, hwalk⟩ := Body.exists_walk hsupply
  have hlabels : (b.layout pool).1.labels = after.labels :=
    congrArg (·.1.labels) (Body.layout_of_walk hwalk)
  obtain ⟨starts, hstarts, hlaid⟩ := Layout.laid_of_walk hwalk
  obtain rfl : after.starts.toList = starts := hstarts
  rw [hlabels]
  refine ⟨after.starts.toList, after.length, hlaid,
    fun i hi l hl => Body.exists_stands hwalk (hplaced i hi l hl), ?_, ?_, ?_, ?_⟩
  · exact Body.exists_codeArray_iff hwalk hmade hplaced hsupply
  · intro fault hfault
    have hwhy := Body.codeArray_failsOnly hwalk hmade hplaced hsupply fault hfault
    exact ⟨hwhy.elim (fun h => h ▸ rfl) TooFar.kind_eq, hwhy⟩
  · intro hlength i start hentry l hl
    obtain ⟨hi, hstart⟩ := Body.le_length_of_walk hwalk hentry
    have hl := hplaced i hi l hl
    obtain ⟨p, hle, hp⟩ := Layout.exists_offset_of_walk hwalk hl.1 (.inl hl.2)
    exact Instruction.exists_wideJump hp (Nat.le_trans hle hlength) (Nat.le_trans hstart hlength)
  · intro context
    exact ⟨fun code => Body.codeArray_of_encode, fun fault h => Body.encode_of_codeArray h context⟩

/-- A table with the given number of targets, all of them the first label. -/
def tableOf (count : Nat) : Instruction :=
  ⟨⟨"tableswitch", 0xaa, .tableSwitch⟩, .tableSwitch 0 ⟨0⟩ (List.replicate count ⟨0⟩)⟩

/-- A body that jumps back over such a table. -/
def tableLoop (count : Nat) : Body :=
  (Body.empty.here.2.push (tableOf count)).push ⟨⟨"goto", 0xa7, .branch⟩, .branch ⟨0⟩⟩

theorem made_tableOf {count : Nat} (hsome : 0 < count) (hcount : count ≤ 65535) :
    (tableOf count).Made := by
  have hswitch : Instruction.makeTableSwitch 0 ⟨0⟩ (List.replicate count ⟨0⟩)
      = .ok (.tableSwitch 0 ⟨0⟩ (List.replicate count ⟨0⟩)) := by
    unfold Instruction.makeTableSwitch
    rw [if_neg (by simp; omega), if_neg (by simp; omega)]
  have hmem : (⟨"tableswitch", 0xaa, .tableSwitch⟩ : Opcode) ∈ Opcode.all := by decide +kernel
  refine ⟨hmem, .tableSwitch 0 ⟨0⟩ (List.replicate count ⟨0⟩), ?_⟩
  show (Instruction.makeTableSwitch 0 ⟨0⟩ (List.replicate count ⟨0⟩)).map _ = _
  rw [hswitch]
  rfl

theorem made_tableLoop {count : Nat} (hsome : 0 < count) (hcount : count ≤ 65535) :
    ∀ i ∈ (tableLoop count).instructions, i.Made := by
  show ∀ i ∈ [_, _], _
  simp only [List.forall_mem_cons, List.not_mem_nil, false_implies, implies_true, and_true]
  exact ⟨made_tableOf hsome hcount, by decide +kernel, .branch ⟨0⟩, rfl⟩

theorem labels_tableLoop (count : Nat) :
    ∀ i ∈ (tableLoop count).instructions, ∀ l ∈ i.labels, l = ⟨0⟩ := by
  show ∀ i ∈ [_, _], _
  simp [Instruction.labels, tableOf]

theorem built_tableLoop (count : Nat) : (tableLoop count).Built := by
  have hhas : ∀ i ∈ (tableLoop count).instructions, ∀ l ∈ i.labels,
      (tableLoop count).labels.Has l := by
    intro i hi l hl
    rw [labels_tableLoop count i hi l hl]
    exact Nat.one_pos
  exact .push (.push (.here .empty) (hhas _ List.mem_cons_self))
    (hhas _ (List.mem_cons_of_mem _ List.mem_cons_self))

theorem places_tableLoop (count : Nat) :
    ∀ i ∈ (tableLoop count).instructions, ∀ l ∈ i.labels, (tableLoop count).Places l := by
  intro i hi l hl
  rw [labels_tableLoop count i hi l hl]
  exact (built_tableLoop count).places_iff.2 rfl

theorem holds_tableLoop (count : Nat) :
    ∀ i ∈ (tableLoop count).instructions, ∀ c, i.constant? = some c → c ∈ loopPool.entries := by
  show ∀ i ∈ [_, _], _
  simp [Instruction.constant?, tableOf]

/-- The branch of that body comes right after the table. -/
theorem starts_tableLoop {count length : Nat} {starts : List Nat}
    (h : Laid loopPool 0 (tableLoop count).instructions starts length) :
    starts = [0, 16 + 4 * count] ∧ length = 19 + 4 * count := by
  have hsize : (tableOf count).size 0 loopPool = .ok (16 + 4 * count) := by
    simp [Instruction.size, tableOf, Instruction.padding]
  have hthree (offset : Nat) : Instruction.size ⟨⟨"goto", 0xa7, .branch⟩, .branch ⟨0⟩⟩ offset
      loopPool = .ok 3 := rfl
  have h : Laid loopPool 0 [tableOf count, ⟨⟨"goto", 0xa7, .branch⟩, .branch ⟨0⟩⟩] starts length :=
    h
  cases h with
  | cons htable h =>
    cases h with
    | cons hgoto h =>
      cases h
      cases (hthree _).symm.trans hgoto
      cases hsize.symm.trans htable
      exact ⟨by rw [Nat.zero_add], by omega⟩

/-- The branch is in range of the start of the code exactly if the table is
short enough. -/
theorem branchesReach_tableLoop (count : Nat) :
    BranchesReach ((tableLoop count).layout loopPool).1.labels
      ((tableLoop count).instructions.zip [0, 16 + 4 * count]) ↔ 16 + 4 * count ≤ 32768 := by
  have hoffset : ((tableLoop count).layout loopPool).1.labels.offset ⟨0⟩ = .ok 0 := rfl
  constructor
  · intro h
    have hrange := h _ (16 + 4 * count) ⟨0⟩ 0 (List.mem_cons_of_mem _ List.mem_cons_self)
      ⟨rfl, rfl⟩ hoffset
    unfold InBranchRange at hrange
    omega
  · intro hcount i start target position hi hbranch hposition
    have hi : (i, start) ∈ [(tableOf count, 0),
      (⟨⟨"goto", 0xa7, .branch⟩, .branch ⟨0⟩⟩, 16 + 4 * count)] := hi
    simp only [List.mem_cons, List.not_mem_nil, or_false, Prod.mk.injEq] at hi
    rcases hi with ⟨rfl, rfl⟩ | ⟨rfl, rfl⟩
    · cases hbranch.1
    · cases hbranch.2
      cases hoffset.symm.trans hposition
      unfold InBranchRange
      omega

/-- The table of 8188 targets is as long as a branch can jump back, and with
one more target it is longer. -/
theorem codeArray_eq_ok_iff_tableLoop :
    (∃ code, (tableLoop 8188).codeArray loopPool = .ok code)
      ∧ ¬∃ code, (tableLoop 8189).codeArray loopPool = .ok code := by
  have hpool : loopPool.Reachable := .finalize .empty rfl
  constructor
  · obtain ⟨starts, length, hlaid, -, hiff, -⟩ := codeArray_eq_ok_iff (tableLoop 8188) loopPool
      (made_tableLoop (by decide) (by decide)) (places_tableLoop 8188) hpool rfl
      (holds_tableLoop 8188)
    obtain ⟨rfl, rfl⟩ := starts_tableLoop hlaid
    exact hiff.2 ⟨by decide, (branchesReach_tableLoop 8188).2 (by decide)⟩
  · obtain ⟨starts, length, hlaid, -, hiff, -⟩ := codeArray_eq_ok_iff (tableLoop 8189) loopPool
      (made_tableLoop (by decide) (by decide)) (places_tableLoop 8189) hpool rfl
      (holds_tableLoop 8189)
    obtain ⟨rfl, rfl⟩ := starts_tableLoop hlaid
    intro h
    exact absurd ((branchesReach_tableLoop 8189).1 (hiff.1 h).2) (by decide)

end BytecodeAssembler
