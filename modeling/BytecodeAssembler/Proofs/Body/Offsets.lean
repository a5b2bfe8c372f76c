import BytecodeAssembler.Proofs.Body.Decoding
import BytecodeAssembler.Proofs.Body.Places
import Mathlib.Algebra.BigOperators.Group.List.Lemmas

/-!
# Offsets of layout and places in the code

Layout and encoding go over the instructions one after the other, each with
its own case for every operand: the one counts bytes and the other writes
them. That they agree on one instruction is `Instruction.length_encode`. Here
the instructions are put together. What layout counts are sums of sizes
(`Laid.exists_sizes`), and a code array is cut at the sums of the lengths of
its parts, so every instruction fills the code from its own offset to the
next one. Nothing is asked of the instructions, which need not have been made.

A label has one offset, so what is said of the labels of a stream needs that
none of them stands there twice. Right books take care of that.
-/

namespace BytecodeAssembler

/-! ## Streams without repeated labels -/

namespace Body

variable {b : Body}

/-- **Each label of the stream is placed, and stands there once.** -/
structure Streamed (b : Body) : Prop where
  /-- The labels of the stream are placed. -/
  placed : ∀ l ∈ b.streamLabels, b.labels.isPlaced l = true
  /-- They differ from each other. -/
  once : b.streamLabels.Nodup

namespace Streamed

/-- No label is found again behind the place where it stands. -/
theorem not_mem_back (h : b.Streamed) {front back : List Element} {l : Label}
    (hsplit : b.elements.toList = front ++ .label l :: back) : .label l ∉ back := by
  intro hmem
  have honce := h.once
  rw [streamLabels, hsplit, List.filterMap_append, List.nodup_append] at honce
  exact (List.nodup_cons.1 honce.2.1).1 (List.mem_filterMap.2 ⟨.label l, hmem, rfl⟩)

theorem has_of_split (h : b.Streamed) {front back : List Element} {l : Label}
    (hsplit : b.elements.toList = front ++ .label l :: back) : b.labels.Has l := by
  refine LabelTable.has_of_isPlaced (h.placed l (List.mem_filterMap.2 ⟨.label l, ?_, rfl⟩))
  rw [hsplit]
  exact List.mem_append_right _ List.mem_cons_self

end Streamed

/-- **Right books keep each label of the stream placed, and there once.** -/
theorem Tracked.streamed (h : b.Tracked) : b.Streamed := ⟨fun _ => h.placed, h.once⟩

theorem Built.streamed (h : b.Built) : b.Streamed := h.wellLabelled.streamed

/-! ## Where labels stand -/

variable {pool : ConstantPool}

/-- **The label can be jumped to**: it is one of the table and stands in the
stream. -/
def Places (b : Body) (l : Label) : Prop := b.labels.Has l ∧ .label l ∈ b.elements.toList

/-- In a body that is built, those are the labels placed. -/
theorem Built.places_iff (h : b.Built) {l : Label} :
    b.Places l ↔ b.labels.isPlaced l = true := by
  constructor
  · rintro ⟨-, hmem⟩
    exact h.streamed.placed l (List.mem_filterMap.2 ⟨.label l, hmem, rfl⟩)
  · intro hplaced
    exact ⟨LabelTable.has_of_isPlaced hplaced, (h.wellLabelled.isPlaced_iff_mem l).1 hplaced⟩

/-- **A label of the stream stands somewhere**, and layout gives it the offset
of that place: where the next instruction starts, or the end of the code. -/
theorem exists_stands {after : Layout}
    (h : Layout.walk pool b.elements.toList ⟨#[], 0, b.labels⟩ = (after, none)) {l : Label}
    (hl : b.Places l) :
    ∃ before p, b.Stands l before ∧ after.labels.offset l = .ok p
      ∧ (after.starts.toList ++ [after.length])[before.length]? = some p := by
  -- the last place counts, which is the first one from behind
  obtain ⟨back, front, hsplit, hlast⟩ :=
    List.eq_append_cons_of_mem (List.mem_reverse.2 hl.2)
  have hsplit : b.elements.toList = front.reverse ++ .label l :: back.reverse := by
    rw [← List.reverse_reverse b.elements.toList, hsplit]
    simp
  rw [hsplit] at h
  obtain ⟨p, hp, hat⟩ := Layout.offset_of_walk h (mt List.mem_reverse.1 hlast) hl.1
  exact ⟨_, p, ⟨front.reverse, back.reverse, hsplit, rfl⟩, hp, hat⟩

end Body

/-! ## Sums of sizes -/

variable {pool : ConstantPool} {labels : LabelTable}

/-- **The offsets of a layout are sums of sizes**: each instruction, and the
end, comes after the sizes of all instructions before it. -/
theorem Laid.exists_sizes {first finish : Nat} {is : List Instruction} {starts : List Nat}
    (h : Laid pool first is starts finish) :
    ∃ sizes, List.Forall₂ (fun entry size => entry.1.size entry.2 pool = .ok size)
        (is.zip starts) sizes
      ∧ ∀ k ≤ is.length, (starts ++ [finish])[k]? = some (first + (sizes.take k).sum) := by
  induction h with
  | nil offset =>
    refine ⟨[], .nil, fun k hk => ?_⟩
    obtain rfl : k = 0 := Nat.le_zero.1 hk
    rfl
  | @cons offset size finish i is starts hsize _ ih =>
    obtain ⟨sizes, hsizes, hsums⟩ := ih
    refine ⟨size :: sizes, .cons hsize hsizes, fun k hk => ?_⟩
    cases k with
    | zero => rfl
    | succ k =>
      rw [List.cons_append, List.getElem?_cons_succ, hsums k (Nat.le_of_succ_le_succ hk),
        List.take_succ_cons, List.sum_cons, Nat.add_assoc]

/-- The offsets of a layout come before its end. -/
theorem Laid.le_of_mem {first finish : Nat} {is : List Instruction} {starts : List Nat}
    (h : Laid pool first is starts finish) {p : Nat} (hp : p ∈ starts ++ [finish]) :
    p ≤ finish := by
  induction h with
  | nil => exact Nat.le_of_eq (List.mem_singleton.1 hp)
  | cons _ hrest ih =>
    rcases List.mem_cons.1 hp with rfl | hp
    · exact Nat.le_of_add_right_le hrest.le
    · exact ih hp

/-- Items that are related one by one are related at each place. -/
theorem getElem?_of_forall₂ {α β : Type} {R : α → β → Prop} {xs : List α} {ys : List β}
    (h : List.Forall₂ R xs ys) {k : Nat} {x : α} (hx : xs[k]? = some x) :
    ∃ y, ys[k]? = some y ∧ R x y := by
  obtain ⟨hk, rfl⟩ := List.getElem?_eq_some_iff.1 hx
  exact ⟨_, List.getElem?_eq_getElem (h.length_eq ▸ hk), h.get hk (h.length_eq ▸ hk)⟩

/-- What is written for instructions is as long as their sizes say. -/
theorem lengths_eq_sizes {entries : List (Instruction × Nat)} {sizes : List Nat}
    {chunks : List Bytes}
    (hsizes : List.Forall₂ (fun entry size => entry.1.size entry.2 pool = .ok size) entries sizes)
    (hchunks : List.Forall₂ (fun entry chunk => entry.1.encode entry.2 pool labels = .ok chunk)
      entries chunks) :
    chunks.map List.length = sizes := by
  induction hsizes generalizing chunks with
  | nil =>
    cases hchunks
    rfl
  | cons hsize _ ih =>
    obtain ⟨chunk, later, hchunk, hlater, rfl⟩ := List.forall₂_cons_left_iff.1 hchunks
    rw [List.map_cons, Instruction.length_encode hsize hchunk, ih hlater]

/-- **A part of a code array stands between two sums**: those of the lengths
of the parts before it, without its own length and with it. -/
theorem chunk_eq_slice {chunks : List Bytes} {k : Nat} {chunk : Bytes}
    (h : chunks[k]? = some chunk) :
    (chunks.flatten.take ((chunks.map List.length).take (k + 1)).sum).drop
      ((chunks.map List.length).take k).sum = chunk := by
  obtain ⟨hk, rfl⟩ := List.getElem?_eq_some_iff.1 h
  exact List.drop_take_succ_flatten_eq_getElem chunks k hk

/-- The code of instructions that are laid out ends where the layout does. -/
theorem Laid.length_flatten {first finish : Nat} {is : List Instruction} {starts : List Nat}
    (h : Laid pool first is starts finish) {chunks : List Bytes}
    (hchunks : List.Forall₂ (fun entry chunk => entry.1.encode entry.2 pool labels = .ok chunk)
      (is.zip starts) chunks) :
    first + chunks.flatten.length = finish := by
  induction h generalizing chunks with
  | nil =>
    cases hchunks
    rfl
  | cons hsize _ ih =>
    obtain ⟨chunk, later, hchunk, hlater, rfl⟩ := List.forall₂_cons_left_iff.1 hchunks
    rw [List.flatten_cons, List.length_append, Instruction.length_encode hsize hchunk,
      ← Nat.add_assoc, ih hlater]

/-- **An instruction fills the code from its own offset to the next one**, if
the offsets are the sums of the sizes. -/
theorem exists_slice {is : List Instruction} {starts sizes : List Nat} {finish : Nat}
    (hlength : starts.length = is.length)
    (hsizes : List.Forall₂ (fun entry size => entry.1.size entry.2 pool = .ok size)
      (is.zip starts) sizes)
    (hsums : ∀ k ≤ is.length, (starts ++ [finish])[k]? = some (sizes.take k).sum)
    {chunks : List Bytes}
    (hchunks : List.Forall₂ (fun entry chunk => entry.1.encode entry.2 pool labels = .ok chunk)
      (is.zip starts) chunks)
    {k start next : Nat} {i : Instruction} (hi : is[k]? = some i) (hstart : starts[k]? = some start)
    (hnext : (starts ++ [finish])[k + 1]? = some next) :
    ∃ bytes, i.encode start pool labels = .ok bytes
      ∧ bytes = (chunks.flatten.take next).drop start ∧ start + bytes.length = next
      ∧ i.size start pool = .ok bytes.length := by
  have hk : k < is.length := (List.getElem?_eq_some_iff.1 hi).1
  have hentry : (is.zip starts)[k]? = some (i, start) :=
    List.getElem?_zip_eq_some.2 ⟨hi, hstart⟩
  obtain ⟨bytes, hbytes, hencode⟩ := getElem?_of_forall₂ hchunks hentry
  obtain ⟨size, hat, hsize⟩ := getElem?_of_forall₂ hsizes hentry
  have hbytesLength : bytes.length = size := Instruction.length_encode hsize hencode
  have hfrom : start = (sizes.take k).sum := by
    have hsum := hsums k (Nat.le_of_lt hk)
    rw [List.getElem?_append_left (hlength ▸ hk), hstart] at hsum
    exact Option.some.inj hsum
  have hto : next = (sizes.take (k + 1)).sum :=
    Option.some.inj (hnext.symm.trans (hsums (k + 1) hk))
  refine ⟨bytes, hencode, ?_, ?_, hbytesLength ▸ hsize⟩
  · rw [hfrom, hto, ← lengths_eq_sizes hsizes hchunks, chunk_eq_slice hbytes]
  · rw [hfrom, hto, List.take_add_one, hat, List.sum_append, hbytesLength]
    rfl

/-! ## Whole bodies -/

/-- **Layout and encoding agree on every offset.** The instructions of a body
fill its code one after the other: each of them stands from the offset that
layout gave it up to the next one, and its bytes are as many as its size there
says. The code is as long as layout says, which is at most 65535 bytes. Each
label of the stream has the sum of the sizes of the instructions before it as
its offset. -/
theorem encode_offsets (b : Body) (pool : ConstantPool) (context : BodyContext) (code : Code)
    (h : (b.encode pool context).2 = .ok code) :
    ∃ starts sizes, (b.layout pool).2 = .ok (starts, code.code.length)
      ∧ code.code.length ≤ 65535 ∧ starts.length = b.instructions.length
      ∧ List.Forall₂ (fun entry size => entry.1.size entry.2 pool = .ok size)
        (b.instructions.zip starts) sizes
      ∧ (∀ k ≤ b.instructions.length,
        (starts ++ [code.code.length])[k]? = some (sizes.take k).sum)
      ∧ (∀ k i start next, b.instructions[k]? = some i → starts[k]? = some start →
        (starts ++ [code.code.length])[k + 1]? = some next →
          ∃ bytes, i.encode start pool (b.encode pool context).1.labels = .ok bytes
            ∧ bytes = (code.code.take next).drop start ∧ start + bytes.length = next
            ∧ i.size start pool = .ok bytes.length)
      ∧ (b.Streamed → ∀ front l back, b.elements.toList = front ++ .label l :: back →
        (b.encode pool context).1.labels.offset l
          = .ok (sizes.take (front.filterMap Element.instruction?).length).sum) := by
  obtain ⟨starts, length, chunks, hlayout, hchunks, hcode⟩ := Body.code_of_encode h
  obtain ⟨hlaid, hbound, -⟩ := Body.layout_eq_ok hlayout
  obtain ⟨sizes, hsizes, hsums⟩ := hlaid.exists_sizes
  -- both count the same sizes, so layout knows how long the code is
  obtain rfl : chunks.flatten.length = length := (Nat.zero_add _).symm.trans
    (hlaid.length_flatten hchunks)
  simp only [Nat.zero_add] at hsums
  rw [hcode]
  refine ⟨starts, sizes, hlayout, hbound, hlaid.length_starts, hsizes, hsums, ?_, ?_⟩
  · intro k i start next hi hstart hnext
    exact exists_slice hlaid.length_starts hsizes hsums hchunks hi hstart hnext
  · intro hb front l back hsplit
    obtain ⟨p, hp, hat⟩ := Body.offset_of_label hlayout hsplit (hb.not_mem_back hsplit)
      (hb.has_of_split hsplit)
    have hle : (front.filterMap Element.instruction?).length ≤ b.instructions.length := by
      rw [Body.instructions, hsplit, List.filterMap_append, List.length_append]
      exact Nat.le_add_right _ _
    rw [hsums _ hle] at hat
    rw [Option.some.inj hat]
    exact hp

/-- A body with a table at an offset that is no multiple of four, and a label
between the table and a `goto` that nobody made: it has no operand. -/
def paddedBody : Body :=
  ((Body.empty.here.2.push ⟨⟨"iload", 0x15, .localVar⟩, .localVar 300⟩).push
    ⟨⟨"tableswitch", 0xaa, .tableSwitch⟩, .tableSwitch (-1) ⟨0⟩ [⟨0⟩, ⟨0⟩]⟩).here.2.push
    ⟨⟨"goto", 0xa7, .branch⟩, .none⟩

/-- The code of that body. -/
def paddedCode : Code where
  maxStack := 1
  maxLocals := 0
  code := [0xc4, 0x15, 1, 44, 0xaa, 0, 0, 0, 255, 255, 255, 252, 255, 255, 255, 255, 0, 0, 0, 0,
    255, 255, 255, 252, 255, 255, 255, 252, 0xa7]
  handlers := []
  attributes := []

theorem streamed_paddedBody : paddedBody.Streamed := by
  refine Body.Built.streamed (.push (.here (.push (.push (.here .empty) ?_) ?_)) ?_)
  · exact List.forall_mem_nil _
  · intro l hl
    obtain rfl : l = ⟨0⟩ := by simpa [Instruction.labels] using hl
    exact Nat.one_pos
  · exact List.forall_mem_nil _

/-- The table stands from 4 to 28, its padding included, and the label behind
it at 28. -/
theorem encode_offsets_padded :
    paddedBody.Streamed ∧ (paddedBody.encode loopPool ⟨.compact, [], 0⟩).2 = .ok paddedCode
      ∧ Instruction.encode ⟨⟨"tableswitch", 0xaa, .tableSwitch⟩, .tableSwitch (-1) ⟨0⟩ [⟨0⟩, ⟨0⟩]⟩ 4
          loopPool (paddedBody.encode loopPool ⟨.compact, [], 0⟩).1.labels
        = .ok ((paddedCode.code.take 28).drop 4)
      ∧ (paddedBody.encode loopPool ⟨.compact, [], 0⟩).1.labels.offset ⟨1⟩ = .ok 28 := by
  have hencode : (paddedBody.encode loopPool ⟨.compact, [], 0⟩).2 = .ok paddedCode := rfl
  obtain ⟨starts, sizes, hlayout, -, -, -, hsums, hfills, hlabels⟩ :=
    encode_offsets paddedBody loopPool _ paddedCode hencode
  obtain rfl : [0, 4, 28] = starts := congrArg Prod.fst (Except.ok.inj hlayout)
  obtain ⟨bytes, hbytes, hslice, -, -⟩ := hfills 1 _ 4 28 rfl rfl rfl
  have hlabel := hlabels streamed_paddedBody [.label ⟨0⟩,
    .instruction ⟨⟨"iload", 0x15, .localVar⟩, .localVar 300⟩,
    .instruction ⟨⟨"tableswitch", 0xaa, .tableSwitch⟩, .tableSwitch (-1) ⟨0⟩ [⟨0⟩, ⟨0⟩]⟩] ⟨1⟩
    [.instruction ⟨⟨"goto", 0xa7, .branch⟩, .none⟩] rfl
  have hsum : some 28 = some (sizes.take 2).sum := hsums 2 (by decide)
  refine ⟨streamed_paddedBody, hencode, hslice ▸ hbytes, ?_⟩
  rw [Option.some.inj hsum]
  exact hlabel

end BytecodeAssembler
