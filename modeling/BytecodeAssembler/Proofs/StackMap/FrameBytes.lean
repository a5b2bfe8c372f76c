import BytecodeAssembler.Proofs.StackMap.Compaction
import BytecodeAssembler.Proofs.StackMap.Decoding

/-!
# The bytes of compact frames

The first byte of a compact frame says which form the frame has, and for two
of the forms it holds the distance as well. Nothing else marks where a frame
ends, and still a table of frames is read back whatever follows it, as long
as its counts hold (`compactTable_reads`).

The same frame can be given in several forms: every frame can be spelled out
in full, and most of the frames of a real method are a small change to the
frame before. How many bytes a frame takes is decided by two things only: by
what it means, and by whether it is spelled out (`Means.length_bytes`). A
change is always shorter, so choosing the change wherever there is one gives
the shortest form (`selectFrame_shortest`).
-/

namespace BytecodeAssembler

/-! ## Reading a table back -/

/-- **A table of frames is read back from its bytes**, and so is whatever
stands behind them. The forms that drop or add locals have to do so with one to
three of them, and lists that are counted have to be counted right. -/
theorem compactTable_reads (frames : List CompactFrame) (hcount : frames.length ≤ 65535)
    (hfew : ∀ f ∈ frames, f.FewLocals)
    (hfull : ∀ delta locals stack, .full delta locals stack ∈ frames →
      locals.length ≤ 65535 ∧ stack.length ≤ 65535) :
    ∃ items, frames.mapM CompactFrame.bytes = .ok items
      ∧ ∀ rest, readCounted CompactFrame.read (Bytes.counted items ++ rest)
        = some (frames, rest) := by
  have hwritten : FailsOnly (fun _ => False) (frames.mapM CompactFrame.bytes) :=
    .mapM fun f hf => .of_eq_ok (hfew f hf).exists_bytes
  obtain ⟨items, hitems⟩ := hwritten.exists_ok
  have hframes := (mapM_eq_ok_iff.1 hitems).flip.imp fun _ _ => CompactFrame.readsIff
  refine ⟨items, hitems, (ReadsIff.counted hframes).reads ⟨countHolds_iff.2 hcount, ?_⟩⟩
  intro f hf
  cases f with
  | full delta locals stack =>
    obtain ⟨hlocals, hstack⟩ := hfull delta locals stack hf
    exact ⟨countHolds_iff.2 hlocals, countHolds_iff.2 hstack⟩
  | same | sameOneStack | chop | append => trivial

/-- Frames of every form, with the distances at which the tags change. -/
def everyForm : List CompactFrame :=
  [.same 63, .same 64, .sameOneStack 63 (.object 9), .sameOneStack 64 .null, .chop 5 1, .chop 5 3,
    .append 5 [.long], .append 5 [.top, .uninitialized 4, .integer],
    .full 0 [.float, .double] [.uninitializedThis]]

/-- The bytes of these frames. The tags are 63, 251, 127, 247, 250, 248, 252,
254 and 255. -/
def everyFormItems : List Bytes :=
  [[63], [251, 0, 64], [127, 7, 0, 9], [247, 0, 64, 5], [250, 0, 5], [248, 0, 5], [252, 0, 5, 4],
    [254, 0, 5, 0, 8, 0, 4, 1], [255, 0, 0, 0, 2, 2, 3, 0, 1, 6]]

/-- Frames of every form are read back in front of two bytes that could be
frames too. -/
theorem compactTable_reads_everyForm :
    everyForm.mapM CompactFrame.bytes = .ok everyFormItems
      ∧ readCounted CompactFrame.read (Bytes.counted everyFormItems ++ [63, 64])
        = some (everyForm, [63, 64]) := by
  have hfew : ∀ f ∈ everyForm, f.FewLocals := by
    simp [everyForm, CompactFrame.FewLocals]
  have hfull : ∀ delta locals stack, .full delta locals stack ∈ everyForm →
      locals.length ≤ 65535 ∧ stack.length ≤ 65535 := by
    rintro delta locals stack hmem
    obtain ⟨rfl, rfl, rfl⟩ : delta = 0 ∧ locals = [.float, .double]
        ∧ stack = [.uninitializedThis] := by
      simpa [everyForm] using hmem
    decide
  obtain ⟨items, hitems, hread⟩ := compactTable_reads everyForm (by decide) hfew hfull
  have hsame : everyForm.mapM CompactFrame.bytes = .ok everyFormItems := by rfl
  obtain rfl : everyFormItems = items := Except.ok.inj (hsame.symm.trans hitems)
  exact ⟨hsame, hread [63, 64]⟩

/-! ## How many bytes types take -/

namespace VerificationType

variable {α β : Type}

/-- The bytes that a type takes: its tag, and two more for a class or a
place. -/
def byteLength : VerificationType α β → Nat
  | .object _ | .uninitialized _ => 3
  | _ => 1

end VerificationType

/-- The bytes that several types take. -/
def typesLength {α β : Type} (types : List (VerificationType α β)) : Nat :=
  (types.map VerificationType.byteLength).sum

section TypesLength

variable {α β : Type}

@[simp] theorem typesLength_nil : typesLength ([] : List (VerificationType α β)) = 0 := rfl

@[simp] theorem typesLength_cons (type : VerificationType α β)
    (types : List (VerificationType α β)) :
    typesLength (type :: types) = type.byteLength + typesLength types := rfl

@[simp] theorem typesLength_append (types types' : List (VerificationType α β)) :
    typesLength (types ++ types') = typesLength types + typesLength types' := by
  simp [typesLength]

theorem typesLength_drop_le (types : List (VerificationType α β)) (n : Nat) :
    typesLength (types.drop n) ≤ typesLength types := by
  conv_rhs => rw [← List.take_append_drop n types, typesLength_append]
  exact Nat.le_add_left _ _

end TypesLength

@[simp] theorem EncodedType.length_bytes (type : EncodedType) :
    (EncodedType.bytes type).length = type.byteLength := by
  cases type <;> rfl

theorem length_flatten_types (types : List EncodedType) :
    (types.map EncodedType.bytes).flatten.length = typesLength types := by
  induction types with
  | nil => rfl
  | cons type types ih =>
    rw [List.map_cons, List.flatten_cons, List.length_append, ih, EncodedType.length_bytes,
      typesLength_cons]

theorem length_typesBytes (types : List EncodedType) :
    (typesBytes types).length = 2 + typesLength types := by
  rw [typesBytes, Bytes.counted, List.length_append, length_flatten_types]
  rfl

variable {pool : ConstantPool}

/-- A type takes the same bytes whichever class it names. -/
theorem EncodedType.byteLength_of_read? {encoded : EncodedType} {type : ResolvedType}
    (h : EncodedType.read? pool encoded = some type) : encoded.byteLength = type.byteLength := by
  cases encoded with
  | object index =>
    obtain ⟨name, -, rfl⟩ := Option.map_eq_some_iff.1 h
    rfl
  | _ =>
    cases h
    rfl

/-- **The types that encoded types stand for**, one by one. -/
def ReadAs (pool : ConstantPool) (encoded : List EncodedType) (types : List ResolvedType) : Prop :=
  List.Forall₂ (fun code type => EncodedType.read? pool code = some type) encoded types

theorem readAs_of_mapM {encoded : List EncodedType} {types : List ResolvedType}
    (h : encoded.mapM (EncodedType.read? pool) = some types) : ReadAs pool encoded types := by
  induction encoded generalizing types with
  | nil =>
    cases h
    exact .nil
  | cons code encoded ih =>
    rw [List.mapM_cons] at h
    obtain ⟨type, htype, h⟩ := Option.bind_eq_some_iff.1 h
    obtain ⟨later, hlater, h⟩ := Option.bind_eq_some_iff.1 h
    cases h
    exact .cons htype (ih hlater)

theorem ReadAs.typesLength_eq {encoded : List EncodedType} {types : List ResolvedType}
    (h : ReadAs pool encoded types) : typesLength encoded = typesLength types := by
  induction h with
  | nil => rfl
  | cons htype _ ih =>
    rw [typesLength_cons, typesLength_cons, EncodedType.byteLength_of_read? htype, ih]

/-! ## What a frame means -/

namespace CompactFrame

variable {f : CompactFrame} {delta : UInt16} {previous locals stack : List ResolvedType}
  {bytes : Bytes}

/-- **What a frame means that can be written**, after one with the locals
`previous`: the distance, the locals and the stack. -/
inductive Means (pool : ConstantPool) (previous : List ResolvedType) :
    CompactFrame → UInt16 → List ResolvedType → List ResolvedType → Prop where
  | same {delta : UInt16} : Means pool previous (.same delta) delta previous []
  | sameOneStack {delta : UInt16} {code : EncodedType} {item : ResolvedType}
      (hitem : EncodedType.read? pool code = some item) :
      Means pool previous (.sameOneStack delta code) delta previous [item]
  | chop {delta : UInt16} {count : UInt8} {kept dropped : List ResolvedType}
      (hprevious : previous = kept ++ dropped) (hcount : dropped.length = count.toNat)
      (hfew : 1 ≤ dropped.length ∧ dropped.length ≤ 3) :
      Means pool previous (.chop delta count) delta kept []
  | append {delta : UInt16} {encoded : List EncodedType} {added : List ResolvedType}
      (hadded : ReadAs pool encoded added) (hfew : 1 ≤ added.length ∧ added.length ≤ 3) :
      Means pool previous (.append delta encoded) delta (previous ++ added) []
  | full {delta : UInt16} {locals stack : List ResolvedType} {locals' stack' : List EncodedType}
      (hlocals : ReadAs pool locals' locals) (hstack : ReadAs pool stack' stack) :
      Means pool previous (.full delta locals' stack') delta locals stack

/-- **Expanding a frame gives what it means.** -/
theorem exists_means {before : Option Nat} {r : ResolvedFrame} (h : f.bytes = .ok bytes)
    (hr : f.expand? pool previous before = some r) :
    ∃ delta, r.offset = expandOffset before delta
      ∧ Means pool previous f delta r.locals r.stack := by
  cases f with
  | same delta =>
    cases hr
    exact ⟨delta, rfl, .same⟩
  | sameOneStack delta code =>
    obtain ⟨item, hitem, hr⟩ := Option.bind_eq_some_iff.1 hr
    cases hr
    exact ⟨delta, rfl, .sameOneStack hitem⟩
  | chop delta count =>
    obtain ⟨hfew, -⟩ := okIf_eq_ok_iff.1 h
    obtain ⟨hcount, hr⟩ := Option.ite_none_right_eq_some.1 hr
    cases hr
    have hlow : 1 ≤ count.toNat := UInt8.le_iff_toNat_le.1 hfew.1
    have hhigh : count.toNat ≤ 3 := UInt8.le_iff_toNat_le.1 hfew.2
    -- the locals are those kept and those dropped, and as many were dropped as are counted
    have hdropped : (previous.drop (previous.length - count.toNat)).length = count.toNat := by
      rw [List.length_drop]
      omega
    exact ⟨delta, rfl, .chop (List.take_append_drop _ previous).symm hdropped (by omega)⟩
  | append delta encoded =>
    obtain ⟨hfew, -⟩ := okIf_eq_ok_iff.1 h
    obtain ⟨added, hadded, hr⟩ := Option.bind_eq_some_iff.1 hr
    cases hr
    have hread := readAs_of_mapM hadded
    exact ⟨delta, rfl, .append hread (List.Forall₂.length_eq hread ▸ hfew)⟩
  | full delta locals' stack' =>
    obtain ⟨locals, hlocals, hr⟩ := Option.bind_eq_some_iff.1 hr
    obtain ⟨stack, hstack, hr⟩ := Option.bind_eq_some_iff.1 hr
    cases hr
    exact ⟨delta, rfl, .full (readAs_of_mapM hlocals) (readAs_of_mapM hstack)⟩

/-! ## How many bytes a frame takes -/

/-- Whether the frame is spelled out. -/
def isFull : CompactFrame → Bool
  | .full _ _ _ => true
  | _ => false

/-- The bytes of a frame that is spelled out: the tag, the distance, two counts
and the types. -/
def spelledLength (locals stack : List ResolvedType) : Nat :=
  7 + typesLength locals + typesLength stack

/-- The bytes of a frame that is a change. The distance goes into the tag only
if it is short and no locals come or go; behind it stand the types that are
new. -/
def changeLength (delta : UInt16) (previous locals stack : List ResolvedType) : Nat :=
  (if locals.length = previous.length ∧ delta ≤ 63 then 1 else 3)
    + typesLength (locals.drop previous.length) + typesLength stack

/-- **A change is shorter than the frame spelled out.** -/
theorem changeLength_lt (delta : UInt16) (previous locals stack : List ResolvedType) :
    changeLength delta previous locals stack < spelledLength locals stack := by
  have hdrop := typesLength_drop_le locals previous.length
  unfold changeLength spelledLength
  split <;> omega

/-- **What a frame means decides how many bytes it takes**, except that it can
be spelled out or be a change. -/
theorem Means.length_bytes (h : Means pool previous f delta locals stack)
    (hbytes : f.bytes = .ok bytes) :
    bytes.length = if f.isFull then spelledLength locals stack
      else changeLength delta previous locals stack := by
  cases h with
  | same =>
    cases hbytes
    show _ = changeLength delta previous previous []
    by_cases hshort : delta ≤ 63 <;> simp [changeLength, hshort, Bytes.u2]
  | @sameOneStack _ code item hitem =>
    cases hbytes
    show _ = changeLength delta previous previous [item]
    rw [List.length_append, EncodedType.length_bytes, EncodedType.byteLength_of_read? hitem]
    by_cases hshort : delta ≤ 63 <;> simp [changeLength, hshort, Bytes.u2]
  | @chop _ count _ dropped hprevious _ hfew =>
    obtain ⟨-, rfl⟩ := okIf_eq_ok_iff.1 hbytes
    show 3 = changeLength delta previous locals []
    -- some are dropped, so the locals differ and nothing of them is written
    have hlength : previous.length = locals.length + dropped.length := by
      rw [hprevious, List.length_append]
    rw [changeLength, if_neg (by omega), List.drop_of_length_le (by omega)]
    rfl
  | @append _ encoded added hadded hfew =>
    obtain ⟨-, rfl⟩ := okIf_eq_ok_iff.1 hbytes
    show _ = changeLength delta previous (previous ++ added) []
    -- some are added, so it is not the short form
    have hlength : ¬(previous.length + added.length = previous.length ∧ delta ≤ 63) := by omega
    rw [changeLength, List.length_append, if_neg hlength, List.drop_left, ← hadded.typesLength_eq,
      List.length_cons, List.length_append, length_flatten_types, Nat.add_right_comm]
    rfl
  | @full _ _ _ locals' stack' hlocals hstack =>
    cases hbytes
    show _ = spelledLength locals stack
    rw [spelledLength, ← hlocals.typesLength_eq, ← hstack.typesLength_eq, List.length_cons,
      List.length_append, List.length_append, length_typesBytes, length_typesBytes]
    show 2 + (2 + typesLength locals') + (2 + typesLength stack') + 1 = _
    omega

/-- A frame that is not spelled out is a change. -/
theorem Means.isChange (h : Means pool previous f delta locals stack) (hnot : f.isFull = false) :
    IsChange previous locals stack := by
  cases h with
  | same => exact .inl ⟨rfl, Nat.zero_le 1⟩
  | sameOneStack => exact .inl ⟨rfl, Nat.le_refl 1⟩
  | chop hprevious _ hfew =>
    refine .inr ⟨rfl, .inr ⟨hprevious ▸ List.prefix_append _ _, ?_⟩⟩
    rw [hprevious, List.length_append]
    omega
  | append hadded hfew =>
    refine .inr ⟨rfl, .inl ⟨List.prefix_append _ _, ?_⟩⟩
    rw [List.length_append]
    omega
  | full => cases hnot

end CompactFrame

/-- A distance leads to one offset only. -/
theorem expandOffset_injective (before : Option Nat) :
    Function.Injective (expandOffset before) := by
  intro delta delta' h
  apply UInt16.toNat_inj.1
  cases before with
  | none => exact h
  | some position =>
    have h : position + delta.toNat + 1 = position + delta'.toNat + 1 := h
    omega

/-- The form chosen is spelled out only if the frame is no change. -/
theorem FrameForm.not_isChange {delta : UInt16} {previous locals stack : List ResolvedType}
    {f : CompactFrame} (h : FrameForm pool delta previous locals stack f)
    (hfull : f.isFull = true) : ¬IsChange previous locals stack := by
  cases h with
  | full _ _ hnot => exact hnot
  | same | sameOneStack | append | chop => cases hfull

/-- **The form chosen for a frame is the shortest one.** It means the frame that
it was chosen for, after one with the locals `previous`, and it can be written.
Whatever else can be written and means the same takes at least as many
bytes. -/
theorem selectFrame_shortest (delta : UInt16) (previous locals stack : List ResolvedType)
    (pool : ConstantPool) (hpool : pool.Reachable) (f : CompactFrame)
    (h : selectFrame delta previous locals stack pool = .ok f) (before : Option Nat) :
    f.expand? pool previous before = some ⟨expandOffset before delta, locals, stack⟩
      ∧ ∃ bytes, f.bytes = .ok bytes
        ∧ ∀ (g : CompactFrame) (written : Bytes), g.bytes = .ok written →
          g.expand? pool previous before = f.expand? pool previous before →
          bytes.length ≤ written.length := by
  have hform := frameForm_selectFrame h
  have hexpand := hform.expand? hpool before
  obtain ⟨bytes, hbytes⟩ := hform.fewLocals.exists_bytes
  refine ⟨hexpand, bytes, hbytes, fun g written hwritten hsame => ?_⟩
  obtain ⟨deltaF, hdeltaF, hmeans⟩ := CompactFrame.exists_means hbytes hexpand
  obtain ⟨deltaG, hdeltaG, hmeans'⟩ := CompactFrame.exists_means hwritten (hsame.trans hexpand)
  -- both frames stand at the same offset, so their distances agree as well
  obtain rfl : deltaF = deltaG := expandOffset_injective before (hdeltaF.symm.trans hdeltaG)
  rw [hmeans.length_bytes hbytes, hmeans'.length_bytes hwritten]
  have hlt := CompactFrame.changeLength_lt deltaF previous locals stack
  cases hg : g.isFull with
  | true =>
    cases f.isFull with
    | true => exact Nat.le_refl _
    | false => exact Nat.le_of_lt hlt
  | false =>
    cases hf : f.isFull with
    | true => exact absurd (hmeans'.isChange hg) (hform.not_isChange hf)
    | false => exact Nat.le_refl _

/-- One more local is chosen to be appended, which takes six bytes. The frame
spelled out means the same and takes eleven. -/
theorem selectFrame_shortest_appended :
    selectFrame 64 [.integer] [.integer, .object "A"] [] oneClassPool
        = .ok (.append 64 [.object 1])
      ∧ CompactFrame.expand? oneClassPool [.integer] (some 7) (.full 64 [.integer, .object 1] [])
        = some ⟨72, [.integer, .object "A"], []⟩
      ∧ ∃ bytes, CompactFrame.bytes (.append 64 [.object 1]) = .ok bytes
        ∧ bytes.length ≤ [255, 0, 64, 0, 2, 1, 7, 0, 1, 0, 0].length := by
  have hclass : oneClassPool.classIndex "A" = .ok 1 :=
    lists_oneClass.indexOf 0 rfl rfl
  have hselect : selectFrame 64 [.integer] [.integer, .object "A"] [] oneClassPool
      = .ok (.append 64 [.object 1]) := by
    show Except.map _ (encodeTypes [.object "A"] oneClassPool) = _
    rw [encodeTypes, List.mapM_cons, List.mapM_nil, ResolvedType.encode, VerificationType.mapM,
      hclass]
    rfl
  obtain ⟨hexpand, bytes, hbytes, hshortest⟩ :=
    selectFrame_shortest _ _ _ _ _ lists_oneClass.reachable _ hselect (some 7)
  have hfull : CompactFrame.expand? oneClassPool [.integer] (some 7)
      (.full 64 [.integer, .object 1] []) = some ⟨72, [.integer, .object "A"], []⟩ := by rfl
  exact ⟨hselect, hfull, bytes, hbytes, hshortest _ _ rfl (hfull.trans hexpand.symm)⟩

end BytecodeAssembler
