import BytecodeAssembler.Proofs.Instruction.Decoder
import BytecodeAssembler.Proofs.Instruction.Making

/-!
# Decoding instructions

What the encoder writes for an instruction is read back as one instruction
that shows it, whatever follows. The proof goes operand by operand: first
what is written for it, then that the reader of its kind reads just that. The
size that layout counts with is the number of bytes written.
-/

namespace BytecodeAssembler

/-! ## Reading opcodes -/

namespace Opcode

/-- The entries stand in the order of their opcode bytes. -/
theorem pairwise_codes : (all.map Opcode.code).Pairwise (· < ·) :=
  List.isChain_iff_pairwise.1 (by decide +kernel)

theorem find?_code {entries : List Opcode}
    (hsorted : (entries.map Opcode.code).Pairwise (· < ·)) {entry : Opcode}
    (h : entry ∈ entries) :
    entries.find? (fun other => other.code = entry.code) = some entry := by
  induction entries with
  | nil => cases h
  | cons first entries ih =>
    obtain ⟨hfirst, hsorted⟩ := List.pairwise_cons.1 hsorted
    rcases List.mem_cons.1 h with rfl | h
    · exact List.find?_cons_of_pos (decide_eq_true rfl)
    · have hne : first.code ≠ entry.code :=
        UInt8.ne_of_lt (hfirst entry.code (List.mem_map.2 ⟨entry, h, rfl⟩))
      rw [List.find?_cons_of_neg (by simpa using hne)]
      exact ih hsorted h

/-- **An opcode byte leads back to its entry.** -/
theorem ofCode?_code (entry : Opcode) (h : entry ∈ all) : ofCode? entry.code = some entry :=
  find?_code pairwise_codes h

/-- The prefix is no entry of its own. -/
theorem code_ne_wideCode : ∀ entry ∈ all, entry.code ≠ wideCode := by decide +kernel

/-- There is one load that goes by the size of its index. -/
theorem eq_ldc_of_kind : ∀ entry ∈ all, entry.kind = .load → entry = ldc := by decide +kernel

theorem ldc_mem : ldc ∈ all := by decide +kernel

theorem ldcWide_mem : ldcWide ∈ all := by decide +kernel

end Opcode

section Reading

variable {pool : ConstantPool} {labels : LabelTable} {start : Nat} {opcode : Opcode}
  {bytes : Bytes} {operand : CodeOperand}

theorem reads_opcode (h : opcode ∈ Opcode.all) : Reads readOpcode [opcode.code] opcode := by
  intro rest
  show (Opcode.ofCode? opcode.code).map (·, rest) = _
  rw [Opcode.ofCode?_code opcode h]
  rfl

/-- **An opcode and its operand are read as an instruction.** -/
theorem reads_instruction (h : opcode ∈ Opcode.all)
    (hoperand : Reads (readOperand start opcode.kind) bytes operand) :
    Reads (readInstruction start) (opcode.code :: bytes) ⟨start, false, opcode, operand⟩ := by
  intro rest
  refine (if_neg (Opcode.code_ne_wideCode opcode h)).trans ?_
  exact (reads_opcode h).bind (hoperand.map (CodeInstruction.mk start false opcode)) rest

/-- With the prefix in front, the operand is read in its wide form. -/
theorem reads_wideInstruction (h : opcode ∈ Opcode.all)
    (hoperand : Reads (readWideOperand opcode.kind) bytes operand) :
    Reads (readInstruction start) (Opcode.wideCode :: opcode.code :: bytes)
      ⟨start, true, opcode, operand⟩ := by
  intro rest
  rw [List.cons_append, readInstruction, if_pos rfl]
  exact (reads_opcode h).bind (hoperand.map (CodeInstruction.mk start true opcode)) rest

/-! ## Parts of an instruction -/

namespace Emission

theorem result_nil_eq_ok_iff : result [] = .ok bytes ↔ bytes = [] :=
  ⟨fun h => (Except.ok.inj h).symm, fun h => congrArg Except.ok h.symm⟩

/-- **The bytes of an emission are those of its parts**, one after the
other. -/
theorem result_cons_eq_ok_iff {part : Except Fault Bytes} {e : Emission} :
    result (part :: e) = .ok bytes
      ↔ ∃ chunk later, part = .ok chunk ∧ e.result = .ok later ∧ bytes = chunk ++ later := by
  unfold result
  simp only [map_eq_ok_iff, mapM_eq_ok_iff, List.forall₂_cons_left_iff, id]
  constructor
  · rintro ⟨_, ⟨chunk, chunks, hpart, hchunks, rfl⟩, rfl⟩
    exact ⟨chunk, chunks.flatten, hpart, ⟨chunks, hchunks, rfl⟩, List.flatten_cons⟩
  · rintro ⟨chunk, _, hpart, ⟨chunks, hchunks, rfl⟩, rfl⟩
    exact ⟨chunk :: chunks, ⟨chunk, chunks, hpart, hchunks, rfl⟩, List.flatten_cons⟩

theorem result_singleton_eq_ok_iff {part : Except Fault Bytes} :
    result [part] = .ok bytes ↔ part = .ok bytes := by
  rw [result_cons_eq_ok_iff]
  constructor
  · rintro ⟨chunk, later, hpart, hlater, rfl⟩
    rw [result_nil_eq_ok_iff.1 hlater, List.append_nil]
    exact hpart
  · intro hpart
    exact ⟨bytes, [], hpart, rfl, (List.append_nil bytes).symm⟩

end Emission

namespace Instruction

/-- The distance to a label leads to its offset. -/
theorem reaches_of_displacement {target : Label} {distance : Int}
    (h : displacement labels start target = .ok distance) :
    Reaches labels start distance target := by
  obtain ⟨position, hposition, rfl⟩ := map_eq_ok_iff.1 h
  obtain ⟨p, hp, h⟩ := bind_eq_ok_iff.1 hposition
  obtain rfl : (p : Int) = position := Except.ok.inj h
  exact ⟨p, hp, by omega⟩

theorem narrowJump_eq_ok {target : Label}
    (h : narrowJump opcode labels start target = .ok bytes) :
    ∃ distance : Int16, bytes = opcode.code :: Bytes.s2 distance
      ∧ Reaches labels start distance.toInt target := by
  unfold narrowJump at h
  cases hd : displacement labels start target with
  | error fault =>
    rw [hd] at h
    cases h
  | ok distance =>
    rw [hd] at h
    dsimp only at h
    split at h
    next hrange =>
      cases h
      refine ⟨Int16.ofInt distance, rfl, ?_⟩
      rw [Int16.toInt_ofInt_of_le (by omega) (by omega)]
      exact reaches_of_displacement hd
    next => cases h

theorem wideJump_eq_ok {target : Label} (h : wideJump labels start target = .ok bytes) :
    ∃ distance, bytes.length = 4 ∧ Reads readDistance bytes distance
      ∧ Reaches labels start distance target := by
  unfold wideJump at h
  cases hd : displacement labels start target with
  | error fault =>
    rw [hd] at h
    cases h
  | ok distance =>
    rw [hd] at h
    dsimp only at h
    split at h
    next hrange =>
      cases h
      have hread : Reads readDistance (Bytes.s4 (Int32.ofInt distance))
          (Int32.ofInt distance).toInt := (reads_s4 _).map Int32.toInt
      rw [Int32.toInt_ofInt_of_le (by omega) (by omega)] at hread
      exact ⟨distance, rfl, hread, reaches_of_displacement hd⟩
    next => cases h

/-! ## Switches -/

/-- The padding is as long as the reader expects. -/
theorem padding_eq_gapToWord (offset : Nat) : padding offset = gapToWord (offset + 1) := by
  unfold padding gapToWord
  omega

theorem reads_padding (count : Nat) :
    Reads (readU1.many count) (List.replicate count 0) (List.replicate count 0) := by
  induction count with
  | zero => exact .pure []
  | succ count ih => exact (reads_u1 0).bind (ih.map (0 :: ·))

theorem aligns_padding (start : Nat) : Aligns start (List.replicate (padding start) 0) := by
  refine ⟨fun byte hbyte => List.eq_of_mem_replicate hbyte, ?_, ?_⟩ <;>
    rw [List.length_replicate, padding] <;> omega

/-- The jumps of a table are read back, each with its distance. -/
theorem result_map_wideJump {targets : List Label}
    (h : Emission.result (targets.map (wideJump labels start)) = .ok bytes) :
    ∃ distances, bytes.length = 4 * targets.length
      ∧ Reads (readDistance.many targets.length) bytes distances
      ∧ List.Forall₂ (Reaches labels start) distances targets := by
  induction targets generalizing bytes with
  | nil =>
    obtain rfl := Emission.result_nil_eq_ok_iff.1 h
    exact ⟨[], rfl, .pure [], .nil⟩
  | cons target targets ih =>
    obtain ⟨chunk, later, hchunk, hlater, rfl⟩ := Emission.result_cons_eq_ok_iff.1 h
    obtain ⟨distance, hlength, hread, hreaches⟩ := wideJump_eq_ok hchunk
    obtain ⟨distances, hlengths, hreads, hall⟩ := ih hlater
    refine ⟨distance :: distances, ?_, hread.bind (hreads.map _), .cons hreaches hall⟩
    rw [List.length_append, List.length_cons]
    omega

/-- The pairs of a switch are read back, each with its key and distance. -/
theorem result_flatMap_pairs {pairs : List (Int32 × Label)}
    (h : Emission.result (pairs.flatMap fun pair =>
      [.ok (Bytes.s4 pair.1), wideJump labels start pair.2]) = .ok bytes) :
    ∃ read, bytes.length = 8 * pairs.length ∧ Reads (readPair.many pairs.length) bytes read
      ∧ List.Forall₂ (fun r p => r.1 = p.1 ∧ Reaches labels start r.2 p.2) read pairs := by
  induction pairs generalizing bytes with
  | nil =>
    obtain rfl := Emission.result_nil_eq_ok_iff.1 h
    exact ⟨[], rfl, .pure [], .nil⟩
  | cons pair pairs ih =>
    rw [List.flatMap_cons, List.cons_append] at h
    obtain ⟨_, _, hkey, hjump, rfl⟩ := Emission.result_cons_eq_ok_iff.1 h
    cases hkey
    obtain ⟨chunk, later, hchunk, hlater, rfl⟩ := Emission.result_cons_eq_ok_iff.1 hjump
    obtain ⟨distance, hlength, hread, hreaches⟩ := wideJump_eq_ok hchunk
    obtain ⟨read, hlengths, hreads, hall⟩ := ih hlater
    have hpair : Reads readPair (Bytes.s4 pair.1 ++ chunk) (pair.1, distance) :=
      (reads_s4 pair.1).bind (hread.map (Prod.mk pair.1))
    refine ⟨(pair.1, distance) :: read, ?_, ?_, .cons ⟨rfl, hreaches⟩ hall⟩
    · rw [List.length_append, List.length_append, List.length_cons, hlength, hlengths]
      show 4 + (4 + 8 * pairs.length) = 8 * (pairs.length + 1)
      omega
    · rw [← List.append_assoc]
      exact hpair.bind (hreads.map _)

/-- The highest key of a table is an `int`, so it is written as it is. -/
theorem toInt_highest {low : Int32} {targets : List Label} (hsome : targets ≠ [])
    (hlast : low.toInt + targets.length - 1 ≤ 2147483647) :
    (Int32.ofInt (low.toInt + targets.length - 1)).toInt = low.toInt + targets.length - 1 := by
  have hpos : 0 < targets.length := List.length_pos_iff.2 hsome
  have hlow := low.le_toInt
  exact Int32.toInt_ofInt_of_le (by omega) (by omega)

theorem reads_table {low : Int32} {targets : List Label} (hsome : targets ≠ [])
    (hlast : low.toInt + targets.length - 1 ≤ 2147483647) {distances : List Int}
    (hread : Reads (readDistance.many targets.length) bytes distances)
    (padding : List UInt8) (fallback : Int) :
    Reads (readTable padding fallback)
      (Bytes.s4 low ++ (Bytes.s4 (Int32.ofInt (low.toInt + targets.length - 1)) ++ bytes))
      (.tableSwitch padding fallback low (Int32.ofInt (low.toInt + targets.length - 1))
        distances) := by
  have hhigh := toInt_highest hsome hlast
  have hpos : 0 < targets.length := List.length_pos_iff.2 hsome
  refine (reads_s4 low).bind ((reads_s4 _).bind ?_)
  rw [if_pos (Int32.le_iff_toInt_le.2 (by omega)), hhigh,
    show (low.toInt + targets.length - 1 - low.toInt + 1).toNat = targets.length by omega]
  exact hread.map _

theorem reads_lookup {pairs : List (Int32 × Label)} (hcount : pairs.length ≤ 65535)
    {read : List (Int32 × Int)} (hread : Reads (readPair.many pairs.length) bytes read)
    (padding : List UInt8) (fallback : Int) :
    Reads (readLookup padding fallback) (Bytes.s4 (Int32.ofInt pairs.length) ++ bytes)
      (.lookupSwitch padding fallback read) := by
  have hlength : (Int32.ofInt pairs.length).toInt = pairs.length :=
    Int32.toInt_ofInt_of_le (by omega) (by omega)
  refine (reads_s4 _).bind ?_
  rw [if_pos (Int32.le_iff_toInt_le.2 (by rw [hlength]; exact Int.natCast_nonneg _)), hlength,
    Int.toNat_natCast]
  exact hread.map _

/-! ## What is written for each operand -/

theorem encode_branch_eq_ok {target : Label}
    (h : encode ⟨opcode, .branch target⟩ start pool labels = .ok bytes) :
    (opcode.kind = .branchWide ∧ ∃ distance chunk, bytes = opcode.code :: chunk
        ∧ chunk.length = 4 ∧ Reads readDistance chunk distance
        ∧ Reaches labels start distance target)
      ∨ (opcode.kind ≠ .branchWide ∧ ∃ distance : Int16,
        bytes = opcode.code :: Bytes.s2 distance ∧ Reaches labels start distance.toInt target) := by
  unfold encode emission at h
  dsimp only at h
  split at h
  next hwide =>
    obtain ⟨_, chunk, hcode, hjump, rfl⟩ := Emission.result_cons_eq_ok_iff.1 h
    cases hcode
    obtain ⟨distance, hlength, hread, hreaches⟩ := wideJump_eq_ok
      (Emission.result_singleton_eq_ok_iff.1 hjump)
    exact .inl ⟨hwide, distance, chunk, rfl, hlength, hread, hreaches⟩
  next hwide =>
    exact .inr ⟨hwide, narrowJump_eq_ok (Emission.result_singleton_eq_ok_iff.1 h)⟩

theorem encode_constant_eq_ok {c : Constant}
    (h : encode ⟨opcode, .constant c⟩ start pool labels = .ok bytes) :
    ∃ index, pool.indexOf c = .ok index
      ∧ bytes = if opcode.kind = .load then
          if 255 < index then Opcode.loadWideCode :: Bytes.u2 index
          else [opcode.code, index.toUInt8]
        else opcode.code :: Bytes.u2 index := by
  obtain ⟨index, hindex, hbytes⟩ := map_eq_ok_iff.1 (Emission.result_singleton_eq_ok_iff.1 h)
  exact ⟨index, hindex, hbytes.symm⟩

/-- An index between an opcode and some bytes that are known up front. -/
theorem result_index_eq_ok {c : Constant} {code : UInt8} {last : Bytes}
    (h : Emission.result [.ok [code], (pool.indexOf c).map Bytes.u2, .ok last] = .ok bytes) :
    ∃ index, pool.indexOf c = .ok index ∧ bytes = code :: (Bytes.u2 index ++ last) := by
  obtain ⟨_, _, hcode, h', rfl⟩ := Emission.result_cons_eq_ok_iff.1 h
  obtain ⟨_, _, hmap, hlast, rfl⟩ := Emission.result_cons_eq_ok_iff.1 h'
  obtain ⟨index, hindex, rfl⟩ := map_eq_ok_iff.1 hmap
  cases hcode
  cases Emission.result_singleton_eq_ok_iff.1 hlast
  exact ⟨index, hindex, rfl⟩

theorem encode_tableSwitch_eq_ok {low : Int32} {fallback : Label} {targets : List Label}
    (h : encode ⟨opcode, .tableSwitch low fallback targets⟩ start pool labels = .ok bytes) :
    ∃ distance distances chunk later,
      bytes = opcode.code :: (List.replicate (padding start) 0 ++ (chunk ++ (Bytes.s4 low
        ++ (Bytes.s4 (Int32.ofInt (low.toInt + targets.length - 1)) ++ later))))
      ∧ chunk.length = 4 ∧ later.length = 4 * targets.length
      ∧ Reads readDistance chunk distance ∧ Reaches labels start distance fallback
      ∧ Reads (readDistance.many targets.length) later distances
      ∧ List.Forall₂ (Reaches labels start) distances targets := by
  obtain ⟨_, _, hcode, h', rfl⟩ := Emission.result_cons_eq_ok_iff.1 h
  cases hcode
  obtain ⟨chunk, _, hchunk, h'', rfl⟩ := Emission.result_cons_eq_ok_iff.1 h'
  obtain ⟨_, later, hkeys, hlater, rfl⟩ := Emission.result_cons_eq_ok_iff.1 h''
  cases hkeys
  obtain ⟨distance, hlength, hread, hreaches⟩ := wideJump_eq_ok hchunk
  obtain ⟨distances, hlengths, hreads, hall⟩ := result_map_wideJump hlater
  refine ⟨distance, distances, chunk, later, ?_, hlength, hlengths, hread, hreaches, hreads,
    hall⟩
  rw [List.append_assoc]
  rfl

theorem encode_lookupSwitch_eq_ok {fallback : Label} {pairs : List (Int32 × Label)}
    (h : encode ⟨opcode, .lookupSwitch fallback pairs⟩ start pool labels = .ok bytes) :
    ∃ distance read chunk later,
      bytes = opcode.code :: (List.replicate (padding start) 0 ++ (chunk
        ++ (Bytes.s4 (Int32.ofInt pairs.length) ++ later)))
      ∧ chunk.length = 4 ∧ later.length = 8 * pairs.length
      ∧ Reads readDistance chunk distance ∧ Reaches labels start distance fallback
      ∧ Reads (readPair.many pairs.length) later read
      ∧ List.Forall₂ (fun r p => r.1 = p.1 ∧ Reaches labels start r.2 p.2) read pairs := by
  obtain ⟨_, _, hcode, h', rfl⟩ := Emission.result_cons_eq_ok_iff.1 h
  cases hcode
  obtain ⟨chunk, _, hchunk, h'', rfl⟩ := Emission.result_cons_eq_ok_iff.1 h'
  obtain ⟨_, later, hcount, hlater, rfl⟩ := Emission.result_cons_eq_ok_iff.1 h''
  cases hcount
  obtain ⟨distance, hlength, hread, hreaches⟩ := wideJump_eq_ok hchunk
  obtain ⟨read, hlengths, hreads, hall⟩ := result_flatMap_pairs hlater
  exact ⟨distance, read, chunk, later, rfl, hlength, hlengths, hread, hreaches, hreads, hall⟩

/-! ## Whole instructions -/

/-- **The bytes of an instruction are as many as its size says.** -/
theorem length_encode {i : Instruction} {size : Nat} (hsize : i.size start pool = .ok size)
    (hbytes : i.encode start pool labels = .ok bytes) : bytes.length = size := by
  obtain ⟨opcode, operand⟩ := i
  unfold Instruction.size at hsize
  cases operand with
  | none | byte | short | arrayType =>
    cases hsize
    cases Emission.result_singleton_eq_ok_iff.1 hbytes
    rfl
  -- both ask whether the operands are small, and the answer is the same
  | localVar | increment =>
    cases hsize
    unfold encode emission at hbytes
    dsimp only at hbytes ⊢
    split at hbytes <;> rename_i hwide <;>
      cases Emission.result_singleton_eq_ok_iff.1 hbytes <;> simp only [hwide] <;> rfl
  | branch target =>
    cases hsize
    obtain ⟨hwide, distance, chunk, rfl, hlength, -⟩ | ⟨hwide, distance, rfl, -⟩ :=
      encode_branch_eq_ok hbytes
    · rw [if_pos hwide, List.length_cons, hlength]
    · rw [if_neg hwide]
      rfl
  | constant c =>
    obtain ⟨index, hindex, rfl⟩ := encode_constant_eq_ok hbytes
    dsimp only at hsize
    rw [hindex] at hsize
    -- a constant that is loaded has one byte for its index if that is small, the others have two
    split at hsize <;> rename_i hload <;> cases hsize
    · show _ = if 255 < index then 3 else 2
      rw [if_pos hload]
      by_cases hwide : 255 < index
      · rw [if_pos hwide, if_pos hwide]
        rfl
      · rw [if_neg hwide, if_neg hwide]
        rfl
    · rw [if_neg hload]
      rfl
  | interfaceMethod c slots =>
    cases hsize
    obtain ⟨index, -, rfl⟩ := result_index_eq_ok hbytes
    rfl
  | multiArray c dimensions =>
    cases hsize
    obtain ⟨index, -, rfl⟩ := result_index_eq_ok hbytes
    rfl
  -- the size counts the padding and four bytes for each number that follows it
  | tableSwitch low fallback targets =>
    cases hsize
    obtain ⟨_, _, chunk, later, rfl, hchunk, hlater, -⟩ := encode_tableSwitch_eq_ok hbytes
    simp only [List.length_cons, List.length_append, List.length_replicate, hchunk, hlater,
      Bytes.s4, Bytes.u4, List.length_nil]
    omega
  | lookupSwitch fallback pairs =>
    cases hsize
    obtain ⟨_, _, chunk, later, rfl, hchunk, hlater, -⟩ := encode_lookupSwitch_eq_ok hbytes
    simp only [List.length_cons, List.length_append, List.length_replicate, hchunk, hlater,
      Bytes.s4, Bytes.u4, List.length_nil]
    omega

/-- An increment is wide exactly if one of its numbers needs two bytes. -/
theorem isWideIncrement_iff {index : UInt16} {delta : Int16} :
    isWideIncrement index delta = true
      ↔ 255 < index.toNat ∨ delta.toInt < -128 ∨ 127 < delta.toInt := by
  unfold isWideIncrement
  simp only [Bool.or_eq_true, decide_eq_true_eq, UInt16.lt_iff_toNat_lt, Int16.lt_iff_toInt_lt,
    or_assoc]
  exact Iff.rfl

theorem reads_localVar {index : UInt16} (hmem : opcode ∈ Opcode.all)
    (hkind : opcode.kind = .localVar)
    (h : encode ⟨opcode, .localVar index⟩ start pool labels = .ok bytes) :
    Reads (readInstruction start) bytes
      ⟨start, 255 < index.toNat, opcode, .localVar index⟩ := by
  unfold encode emission at h
  dsimp only at h
  split at h
  next hwide =>
    cases Emission.result_singleton_eq_ok_iff.1 h
    have hlt : 255 < index.toNat := UInt16.lt_iff_toNat_lt.1 hwide
    rw [decide_eq_true hlt]
    refine reads_wideInstruction hmem ?_
    rw [hkind]
    exact (reads_u2 index).map CodeOperand.localVar
  next hwide =>
    cases Emission.result_singleton_eq_ok_iff.1 h
    have hle : ¬255 < index.toNat := fun hlt => hwide (UInt16.lt_iff_toNat_lt.2 hlt)
    rw [decide_eq_false hle]
    refine reads_instruction hmem ?_
    rw [hkind]
    have hread := (reads_u1 index.toUInt8).map fun index => CodeOperand.localVar index.toUInt16
    rw [toUInt16_toUInt8 (Nat.not_lt.1 hle)] at hread
    exact hread

theorem reads_increment {index : UInt16} {delta : Int16} (hmem : opcode ∈ Opcode.all)
    (hkind : opcode.kind = .increment)
    (h : encode ⟨opcode, .increment index delta⟩ start pool labels = .ok bytes) :
    Reads (readInstruction start) bytes
      ⟨start, 255 < index.toNat ∨ delta.toInt < -128 ∨ 127 < delta.toInt, opcode,
        .increment index delta⟩ := by
  unfold encode emission at h
  dsimp only at h
  split at h
  next hwide =>
    cases Emission.result_singleton_eq_ok_iff.1 h
    rw [decide_eq_true (isWideIncrement_iff.1 hwide)]
    refine reads_wideInstruction hmem ?_
    rw [hkind, readWideOperand]
    refine (reads_u2 index).bind ?_
    exact (reads_s2 delta).map (CodeOperand.increment index)
  next hwide =>
    cases Emission.result_singleton_eq_ok_iff.1 h
    have hfits := mt isWideIncrement_iff.2 hwide
    rw [decide_eq_false hfits]
    refine reads_instruction hmem ?_
    rw [hkind]
    have hread : Reads (readOperand start .increment)
        ([index.toUInt8] ++ [delta.toUInt16.toUInt8]) (.increment index.toUInt8.toUInt16
          delta.toUInt16.toUInt8.toInt8.toInt16) := by
      rw [readOperand]
      refine (reads_u1 index.toUInt8).bind ?_
      exact ((reads_u1 delta.toUInt16.toUInt8).map UInt8.toInt8).map fun delta =>
        CodeOperand.increment index.toUInt8.toUInt16 delta.toInt16
    rw [toUInt16_toUInt8 (by omega), toInt16_toUInt8 (by omega) (by omega)] at hread
    exact hread

theorem reads_branch {target : Label} (hmem : opcode ∈ Opcode.all)
    (hkind : opcode.kind = .branch ∨ opcode.kind = .branchWide)
    (h : encode ⟨opcode, .branch target⟩ start pool labels = .ok bytes) :
    ∃ distance, Reaches labels start distance target
      ∧ Reads (readInstruction start) bytes ⟨start, false, opcode, .branch distance⟩ := by
  obtain ⟨hwide, distance, chunk, rfl, -, hread, hreaches⟩ | ⟨hwide, distance, rfl, hreaches⟩ :=
    encode_branch_eq_ok h
  · refine ⟨distance, hreaches, reads_instruction hmem ?_⟩
    rw [hwide, readOperand]
    exact hread.map CodeOperand.branch
  · refine ⟨distance.toInt, hreaches, reads_instruction hmem ?_⟩
    rw [hkind.resolve_right hwide, readOperand]
    exact (reads_s2 distance).map fun distance => CodeOperand.branch distance.toInt

/-- **A load is read as the one that goes with the size of its index.** -/
theorem reads_load {c : Constant}
    (h : encode ⟨.ldc, .constant c⟩ start pool labels = .ok bytes) :
    ∃ index, pool.indexOf c = .ok index
      ∧ Reads (readInstruction start) bytes
        ⟨start, false, if 255 < index.toNat then .ldcWide else .ldc, .constant index⟩ := by
  obtain ⟨index, hindex, rfl⟩ := encode_constant_eq_ok h
  refine ⟨index, hindex, ?_⟩
  rw [if_pos (show Opcode.ldc.kind = .load from rfl)]
  by_cases hwide : 255 < index
  · have hlt : 255 < index.toNat := UInt16.lt_iff_toNat_lt.1 hwide
    rw [if_pos hwide, if_pos hlt]
    refine reads_instruction Opcode.ldcWide_mem ?_
    show Reads (readOperand start .loadWide) _ _
    rw [readOperand]
    exact (reads_u2 index).map CodeOperand.constant
  · have hle : ¬255 < index.toNat := fun hlt => hwide (UInt16.lt_iff_toNat_lt.2 hlt)
    rw [if_neg hwide, if_neg hle]
    refine reads_instruction Opcode.ldc_mem ?_
    show Reads (readOperand start .load) _ _
    have hread := (reads_u1 index.toUInt8).map fun index => CodeOperand.constant index.toUInt16
    rw [toUInt16_toUInt8 (Nat.not_lt.1 hle)] at hread
    exact hread

theorem reads_constant {c : Constant} (hmem : opcode ∈ Opcode.all)
    (hkind : opcode.kind ∈ [OperandKind.loadWide, .loadTwo, .classRef, .field, .method])
    (h : encode ⟨opcode, .constant c⟩ start pool labels = .ok bytes) :
    ∃ index, pool.indexOf c = .ok index
      ∧ Reads (readInstruction start) bytes ⟨start, false, opcode, .constant index⟩ := by
  obtain ⟨index, hindex, rfl⟩ := encode_constant_eq_ok h
  refine ⟨index, hindex, ?_⟩
  have hload : opcode.kind ≠ .load := by
    intro hload
    rw [hload] at hkind
    revert hkind
    decide
  rw [if_neg hload]
  refine reads_instruction hmem ?_
  have hread : readOperand start opcode.kind = readU2.map CodeOperand.constant := by
    simp only [List.mem_cons, List.not_mem_nil, or_false] at hkind
    rcases hkind with hkind | hkind | hkind | hkind | hkind <;> rw [hkind] <;> rfl
  rw [hread]
  exact (reads_u2 index).map CodeOperand.constant

theorem reads_tableSwitch {low : Int32} {fallback : Label} {targets : List Label}
    (hmem : opcode ∈ Opcode.all) (hkind : opcode.kind = .tableSwitch) (hsome : targets ≠ [])
    (hlast : low.toInt + targets.length - 1 ≤ 2147483647)
    (h : encode ⟨opcode, .tableSwitch low fallback targets⟩ start pool labels = .ok bytes) :
    ∃ d, Shows pool labels start ⟨opcode, .tableSwitch low fallback targets⟩ d
      ∧ Reads (readInstruction start) bytes d := by
  obtain ⟨distance, distances, chunk, later, rfl, -, -, hread, hreaches, hreads, hall⟩ :=
    encode_tableSwitch_eq_ok h
  refine ⟨_, .tableSwitch opcode (aligns_padding start) hreaches
    (toInt_highest hsome hlast) hall, reads_instruction hmem ?_⟩
  rw [hkind, readOperand, ← padding_eq_gapToWord]
  refine (reads_padding _).bind (hread.bind ?_)
  exact reads_table hsome hlast hreads _ _

/-- The keys read are those written. -/
theorem keys_of_forall₂ {read : List (Int32 × Int)} {pairs : List (Int32 × Label)}
    (h : List.Forall₂ (fun r p => r.1 = p.1 ∧ Reaches labels start r.2 p.2) read pairs) :
    read.map Prod.fst = pairs.map Prod.fst := by
  induction h with
  | nil => rfl
  | cons hpair _ ih => rw [List.map_cons, List.map_cons, hpair.1, ih]

theorem reads_lookupSwitch {fallback : Label} {pairs : List (Int32 × Label)}
    (hmem : opcode ∈ Opcode.all) (hkind : opcode.kind = .lookupSwitch)
    (hkeys : (pairs.map Prod.fst).Pairwise (· < ·)) (hcount : pairs.length ≤ 65535)
    (h : encode ⟨opcode, .lookupSwitch fallback pairs⟩ start pool labels = .ok bytes) :
    ∃ d, Shows pool labels start ⟨opcode, .lookupSwitch fallback pairs⟩ d
      ∧ Reads (readInstruction start) bytes d := by
  obtain ⟨distance, read, chunk, later, rfl, -, -, hread, hreaches, hreads, hall⟩ :=
    encode_lookupSwitch_eq_ok h
  refine ⟨_, .lookupSwitch opcode (aligns_padding start) hreaches
    (keys_of_forall₂ hall ▸ hkeys) hall, reads_instruction hmem ?_⟩
  rw [hkind, readOperand, ← padding_eq_gapToWord]
  refine (reads_padding _).bind (hread.bind ?_)
  exact reads_lookup hcount hreads _ _

/-- **What is written for a made instruction is read back as one instruction
that shows it**, whatever follows. Only the pairs of a `lookupswitch` need
the bound, since their number is written in four bytes. -/
theorem Made.reads_encode {i : Instruction} (hi : i.Made) (hpool : pool.Reachable) {size : Nat}
    (hsize : i.size start pool = .ok size) (hbound : size ≤ 65535)
    (h : i.encode start pool labels = .ok bytes) :
    ∃ d, Shows pool labels start i d ∧ Reads (readInstruction start) bytes d := by
  have hfits := hi.fits
  obtain ⟨hmem, -⟩ := hi
  obtain ⟨opcode, operand⟩ := i
  dsimp only at hmem hfits
  -- a reachable pool is one-to-one, so an index leads back to its constant
  have hnames : ∀ {c index}, pool.indexOf c = .ok index → Names pool index c :=
    fun hindex => ⟨hindex, hpool.constantAt?_of_indexOf hindex⟩
  -- the reader goes by the kind of the opcode and the writer by the operand; the two go together
  -- because the operand fits, so the cases are those of fitting
  generalize hkind : opcode.kind = kind at hfits
  cases hfits with
  | none =>
    cases Emission.result_singleton_eq_ok_iff.1 h
    refine ⟨_, .none opcode, reads_instruction hmem ?_⟩
    rw [hkind]
    exact .pure _
  -- these two may be written wide, behind a byte that the reader takes for an opcode
  | localVar index => exact ⟨_, .localVar opcode index, reads_localVar hmem hkind h⟩
  | increment index delta =>
    exact ⟨_, .increment opcode index delta, reads_increment hmem hkind h⟩
  | byte value =>
    cases Emission.result_singleton_eq_ok_iff.1 h
    refine ⟨_, .byte opcode value, reads_instruction hmem ?_⟩
    rw [hkind]
    exact (reads_s1 value).map CodeOperand.byte
  | short value =>
    cases Emission.result_singleton_eq_ok_iff.1 h
    refine ⟨_, .short opcode value, reads_instruction hmem ?_⟩
    rw [hkind]
    exact (reads_s2 value).map CodeOperand.short
  | arrayType code =>
    cases Emission.result_singleton_eq_ok_iff.1 h
    refine ⟨_, .arrayType opcode code, reads_instruction hmem ?_⟩
    rw [hkind]
    exact (reads_u1 code).map CodeOperand.arrayType
  | branch target =>
    obtain ⟨distance, hreaches, hread⟩ := reads_branch hmem (.inl hkind) h
    exact ⟨_, .branch opcode hreaches, hread⟩
  | branchWide target =>
    obtain ⟨distance, hreaches, hread⟩ := reads_branch hmem (.inr hkind) h
    exact ⟨_, .branch opcode hreaches, hread⟩
  -- only one opcode loads a constant, and it has two sizes
  | load c =>
    obtain rfl := Opcode.eq_ldc_of_kind opcode hmem hkind
    obtain ⟨index, hindex, hread⟩ := reads_load h
    exact ⟨_, .load (hnames hindex), hread⟩
  | constant c hwide =>
    obtain ⟨index, hindex, hread⟩ := reads_constant hmem (hkind ▸ hwide) h
    refine ⟨_, .constant (fun hldc => ?_) (hnames hindex), hread⟩
    -- its index would have been one byte
    rw [← hkind, hldc] at hwide
    revert hwide
    decide
  | interfaceMethod c slots =>
    obtain ⟨index, hindex, rfl⟩ := result_index_eq_ok h
    refine ⟨_, .interfaceMethod opcode slots (hnames hindex), reads_instruction hmem ?_⟩
    rw [hkind, readOperand]
    refine (reads_u2 index).bind ?_
    show Reads _ ([slots] ++ [0]) _
    refine (reads_u1 slots).bind ?_
    exact Reads.map (fun _ => rfl) _
  | multiArray c dimensions =>
    obtain ⟨index, hindex, rfl⟩ := result_index_eq_ok h
    refine ⟨_, .multiArray opcode dimensions (hnames hindex), reads_instruction hmem ?_⟩
    rw [hkind, readOperand]
    refine (reads_u2 index).bind ?_
    exact (reads_u1 dimensions).map (CodeOperand.multiArray index)
  | tableSwitch fallback hsome hlast => exact reads_tableSwitch hmem hkind hsome hlast h
  | @lookupSwitch fallback pairs hkeys =>
    -- the size bounds the number of pairs, and four bytes hold any such number
    cases hsize
    exact reads_lookupSwitch hmem hkind hkeys (by omega) h

end Instruction

end Reading

end BytecodeAssembler
