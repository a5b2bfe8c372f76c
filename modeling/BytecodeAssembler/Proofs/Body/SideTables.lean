import BytecodeAssembler.Proofs.Body.Faults
import BytecodeAssembler.Proofs.Body.Offsets
import BytecodeAssembler.Proofs.ClassFile.Decoding

/-!
# Tables beside the code

A body has tables that refer to places in its code: exception handlers, line
numbers and local variables. In the stream the places are labels, in the
tables they are offsets of two bytes, and nothing checks that an offset fits
when it is cut down to them. It always does. A label has an offset only if it
stands in the stream, since a body that is built has no offsets before it is
laid out (`Body.Built.offset_ne_ok`), and the code that layout accepts is
short enough.

What an entry says is stated for any notion `At` of where a label lies. Each
table is then read back from the bytes that were written for it, and its
entries are compared with the entries of the body one by one.
-/

namespace BytecodeAssembler

variable {pool : ConstantPool} {At : Label → UInt16 → Prop}

/-! ## Entries -/

/-- **Where a label lies in the code**, given the offsets of the instructions
and the length of the code. -/
structure LiesAt (labels : LabelTable) (starts : List Nat) (length : Nat) (l : Label)
    (p : UInt16) : Prop where
  /-- It is the offset of the label, and nothing was cut off. -/
  offset : labels.offset l = .ok p.toNat
  /-- An instruction starts there, or the code ends there. -/
  boundary : p.toNat ∈ starts ∨ p.toNat = length
  /-- It is within the code. -/
  within : p.toNat ≤ length

/-- **What the entry of an exception handler says.** -/
structure HandlerEntry.Records (At : Label → UInt16 → Prop) (pool : ConstantPool) (h : Handler)
    (e : HandlerEntry) : Prop where
  start : At h.start e.start
  finish : At h.finish e.finish
  target : At h.target e.target
  /-- The range is not empty. -/
  nonempty : e.start.toNat < e.finish.toNat
  /-- Index 0 stands for everything, and for nothing else. -/
  catchAll : e.catchType = 0 ↔ h.catchType = none
  catchType : ∀ name, h.catchType = some name → pool.classIndex name = .ok e.catchType

/-- **What the entry of a line says**: an offset and a number. -/
structure LineEntry.Recorded (At : Label → UInt16 → Prop) (entry : LineEntry)
    (row : UInt16 × UInt16) : Prop where
  start : At entry.start row.1
  line : row.2 = entry.line

/-- **What the entry of a local variable says.** -/
structure VariableEntry.Records (At : Label → UInt16 → Prop) (pool : ConstantPool)
    (v : LocalVariable) (e : VariableEntry) : Prop where
  start : At v.start e.start
  /-- The scope ends where its end lies. -/
  finish : ∃ p, At v.finish p ∧ e.start.toNat + e.length.toNat = p.toNat
  name : pool.utf8Index v.name = .ok e.name
  type : pool.utf8Index v.descriptor = .ok e.type
  index : e.index = v.index

/-- **An entry of the table of signatures** is the entry of a variable that
has one, with the signature in the place of the descriptor. -/
def VariableEntry.Signed (pool : ConstantPool) (written : LocalVariable × VariableEntry)
    (e : VariableEntry) : Prop :=
  ∃ signature index, written.1.signature = some signature
    ∧ pool.utf8Index signature = .ok index ∧ e = { written.2 with type := index }

/-! ## Tables -/

/-- Read the entry of a line. -/
def readLineRow : Reader (UInt16 × UInt16) := readU2.pair readU2

/-- Read the entry of a local variable. -/
def VariableEntry.read : Reader VariableEntry :=
  (readU2.pair (readU2.pair (readU2.pair (readU2.pair readU2)))).map
    fun (start, length, name, type, index) => ⟨start, length, name, type, index⟩

theorem VariableEntry.reads (e : VariableEntry) : Reads VariableEntry.read e.bytes e := by
  have hparts := (reads_u2 e.start).pair ((reads_u2 e.length).pair
    ((reads_u2 e.name).pair ((reads_u2 e.type).pair (reads_u2 e.index))))
  rw [← List.append_assoc, ← List.append_assoc, ← List.append_assoc] at hparts
  exact hparts.map fun (start, length, name, type, index) =>
    VariableEntry.mk start length name type index

/-- **The entries are written as an attribute** of the given name, which is
left out if there are none. -/
inductive Tabulated {α : Type} (pool : ConstantPool) (name : String) (read : Reader α) :
    List α → List Attribute → Prop where
  | absent : Tabulated pool name read [] []
  | present {entries : List α} {a : Attribute} (hsome : entries ≠ [])
      (hname : pool.utf8Index name = .ok a.name)
      (hread : readCounted read a.info = some (entries, [])) :
      Tabulated pool name read entries [a]

/-- A table that is not too long is read back from what is written for it. -/
theorem tabulated_of_makeAttribute {α : Type} {name : String} {read : Reader α}
    {write : α → Bytes} (hread : ∀ entry, Reads read (write entry) entry) {entries : List α}
    (hsome : entries ≠ []) (hcount : entries.length ≤ 65535) {a : Attribute}
    (h : pool.makeAttribute name (Bytes.counted (entries.map write)) = .ok a) :
    Tabulated pool name read entries [a] := by
  obtain ⟨index, hindex, h⟩ := bind_eq_ok_iff.1 h
  obtain ⟨rfl, -⟩ := Attribute.make_eq_ok_iff.1 h
  have htable := (ReadsIff.list (fun entry => (hread entry).readsIff) entries).reads
    ⟨hcount, fun _ _ => trivial⟩ []
  rw [List.append_nil] at htable
  exact .present hsome hindex htable

/-- Items that each come from a value come from a list of values. -/
theorem exists_map_of_forall₂ {α β γ : Type} {R : α → β → Prop} {S : α → γ → Prop} {f : γ → β}
    (hf : ∀ x y, R x y → ∃ z, f z = y ∧ S x z) {xs : List α} {ys : List β}
    (h : List.Forall₂ R xs ys) : ∃ zs, zs.map f = ys ∧ List.Forall₂ S xs zs := by
  induction h with
  | nil => exact ⟨[], rfl, .nil⟩
  | @cons x y xs ys hxy _ ih =>
    obtain ⟨z, rfl, hz⟩ := hf x y hxy
    obtain ⟨zs, rfl, hzs⟩ := ih
    exact ⟨z :: zs, rfl, .cons hz hzs⟩

namespace Body

variable {b : Body} {context : BodyContext}

/-! ## What is written for each entry -/

section Written

variable (hAt : ∀ l p, b.position l = .ok p → At l p)
include hAt

/-- **The entry of a handler says what the handler does.** -/
theorem records_of_encodeHandler (hpool : pool.Reachable) {h : Handler} {e : HandlerEntry}
    (hencode : b.encodeHandler pool h = .ok e) : e.Records At pool h := by
  obtain ⟨start, hstart, hencode⟩ := bind_eq_ok_iff.1 hencode
  obtain ⟨finish, hfinish, hencode⟩ := bind_eq_ok_iff.1 hencode
  split at hencode
  next => cases hencode
  next hrange =>
    obtain ⟨target, htarget, hencode⟩ := bind_eq_ok_iff.1 hencode
    obtain ⟨catchType, hcatch, hencode⟩ := bind_eq_ok_iff.1 hencode
    cases hencode
    refine ⟨hAt _ _ hstart, hAt _ _ hfinish, hAt _ _ htarget,
      UInt16.lt_iff_toNat_lt.1 (UInt16.not_le.1 hrange), ?_, fun name hname => ?_⟩
    · cases hcaught : h.catchType with
      | none =>
        rw [hcaught] at hcatch
        exact iff_of_true (Except.ok.inj hcatch).symm rfl
      | some name =>
        rw [hcaught] at hcatch
        exact iff_of_false (hpool.indexOf_ne_zero hcatch) (Option.some_ne_none name)
    · rw [hname] at hcatch
      exact hcatch

/-- **The line numbers are tabulated**, one entry for each of them. -/
theorem tabulated_lines {table : List Attribute}
    (h : (if b.lines.isEmpty then .ok [] else (b.encodeLines pool).map ([·])) = .ok table) :
    ∃ rows, Tabulated pool "LineNumberTable" readLineRow rows table
      ∧ List.Forall₂ (LineEntry.Recorded At) b.lines.toList rows := by
  split at h
  next hempty =>
    cases h
    rw [Array.isEmpty_iff.1 hempty]
    exact ⟨[], .absent, .nil⟩
  next hsome =>
    obtain ⟨a, ha, rfl⟩ := map_eq_ok_iff.1 h
    obtain ⟨chunks, hchunks, ha⟩ := bind_eq_ok_iff.1 ha
    obtain ⟨⟨⟩, hcount, ha⟩ := bind_eq_ok_iff.1 ha
    have hwritten := mapM_eq_ok_iff.1 hchunks
    obtain ⟨rows, rfl, hrows⟩ : ∃ rows, rows.map (fun row => Bytes.u2 row.1 ++ Bytes.u2 row.2)
        = chunks ∧ List.Forall₂ (LineEntry.Recorded At) b.lines.toList rows := by
      refine exists_map_of_forall₂ (fun entry chunk hchunk => ?_) hwritten
      obtain ⟨start, hstart, rfl⟩ := map_eq_ok_iff.1 hchunk
      exact ⟨(start, entry.line), rfl, hAt _ _ hstart, rfl⟩
    have hlength := checkCount_eq_ok_iff.1 hcount
    rw [List.length_map] at hlength
    refine ⟨rows, tabulated_of_makeAttribute (fun row => (reads_u2 row.1).pair (reads_u2 row.2))
      (fun hnil => hsome ?_) hlength ha, hrows⟩
    subst hnil
    exact Array.isEmpty_iff.2 (Array.toList_eq_nil_iff.1 (List.forall₂_nil_right_iff.1 hrows))

/-- **The entry of a local variable says what the variable is.** The length
of its scope does not wrap around. -/
theorem records_of_encodeVariable {v : LocalVariable} {e : VariableEntry}
    {typed? : Option VariableEntry} (h : b.encodeVariable pool v = .ok (e, typed?)) :
    e.Records At pool v := by
  obtain ⟨⟨finish, hstart, hfinish, hle, hlength, hname, htype, hindex⟩, -⟩ :=
    encodeVariable_eq_ok h
  refine ⟨hAt _ _ hstart, ⟨finish, hAt _ _ hfinish, ?_⟩, hname, htype, hindex⟩
  rw [hlength, UInt16.toNat_sub_of_le _ _ hle]
  exact Nat.add_sub_of_le (UInt16.le_iff_toNat_le.1 hle)

omit hAt in
/-- **The variables with a signature are written a second time**, in the same
order. -/
theorem signed_of_forall₂ {vs : List LocalVariable}
    {entries : List (VariableEntry × Option VariableEntry)}
    (h : List.Forall₂ (fun v entry => b.encodeVariable pool v = .ok entry) vs entries) :
    List.Forall₂ (VariableEntry.Signed pool)
      ((vs.zip (entries.map Prod.fst)).filter fun written => written.1.signature.isSome)
      (entries.filterMap Prod.snd) := by
  induction h with
  | nil => exact .nil
  | @cons v entry vs entries hv _ ih =>
    obtain ⟨e, typed?⟩ := entry
    rw [List.map_cons, List.zip_cons_cons]
    obtain ⟨-, ⟨hnone, rfl⟩ | ⟨signature, index, hsome, hindex, rfl⟩⟩ := encodeVariable_eq_ok hv
    · rw [List.filter_cons_of_neg (by simp [hnone])]
      exact ih
    · rw [List.filter_cons_of_pos (by simp [hsome])]
      exact .cons ⟨signature, index, hsome, hindex, rfl⟩ ih

/-- **The local variables are tabulated**, one entry for each of them, and
those with a signature once more. -/
theorem tabulated_variables {attributes : List Attribute}
    (h : (if b.localVariables.isEmpty then .ok [] else b.encodeVariables pool)
      = .ok attributes) :
    ∃ scopes types table typeTable, attributes = table ++ typeTable
      ∧ Tabulated pool "LocalVariableTable" VariableEntry.read scopes table
      ∧ Tabulated pool "LocalVariableTypeTable" VariableEntry.read types typeTable
      ∧ List.Forall₂ (fun v e => VariableEntry.Records At pool v e) b.localVariables.toList
        scopes
      ∧ List.Forall₂ (VariableEntry.Signed pool)
        ((b.localVariables.toList.zip scopes).filter fun written =>
          written.1.signature.isSome) types := by
  split at h
  next hempty =>
    cases h
    rw [Array.isEmpty_iff.1 hempty]
    exact ⟨[], [], [], [], rfl, .absent, .absent, .nil, .nil⟩
  next hsome =>
    obtain ⟨entries, hentries, h⟩ := bind_eq_ok_iff.1 h
    obtain ⟨⟨⟩, hcount, h⟩ := bind_eq_ok_iff.1 h
    obtain ⟨a, ha, h⟩ := bind_eq_ok_iff.1 h
    have hwritten := mapM_eq_ok_iff.1 hentries
    have hlength := checkCount_eq_ok_iff.1 hcount
    have hscopes : List.Forall₂ (fun v e => VariableEntry.Records At pool v e)
        b.localVariables.toList (entries.map Prod.fst) :=
      List.forall₂_map_right_iff.2
        (hwritten.imp fun v entry hv => records_of_encodeVariable hAt hv)
    have htable : Tabulated pool "LocalVariableTable" VariableEntry.read
        (entries.map Prod.fst) [a] := by
      refine tabulated_of_makeAttribute VariableEntry.reads (fun hnil => hsome ?_)
        (by rwa [List.length_map]) (by rwa [List.map_map])
      rw [hnil] at hscopes
      exact Array.isEmpty_iff.2
        (Array.toList_eq_nil_iff.1 (List.forall₂_nil_right_iff.1 hscopes))
    -- the second table is there only if some variable has a signature
    have hsigned := signed_of_forall₂ hwritten
    cases htypes : entries.filterMap Prod.snd with
    | nil =>
      rw [htypes] at h hsigned
      cases h
      exact ⟨_, [], [a], [], rfl, htable, .absent, hscopes, hsigned⟩
    | cons first rest =>
      rw [htypes] at h hsigned
      obtain ⟨a', ha', h⟩ := bind_eq_ok_iff.1 h
      cases h
      -- it has at most as many entries as the first one, whose count was checked
      have hle : (first :: rest).length ≤ 65535 := by
        rw [← htypes]
        exact Nat.le_trans (List.length_filterMap_le _ _) hlength
      exact ⟨_, _, [a], [a'], rfl, htable,
        tabulated_of_makeAttribute VariableEntry.reads (List.cons_ne_nil _ _) hle ha',
        hscopes, hsigned⟩

end Written

/-- **What the tables of a body are made from.** -/
theorem tables_of_encode {code : Code} (h : (b.encode pool context).2 = .ok code) :
    (b.layout pool).1.handlers.toList.mapM ((b.layout pool).1.encodeHandler pool)
        = .ok code.handlers
      ∧ ∃ lines locals others,
        (if b.lines.isEmpty then .ok [] else ((b.layout pool).1.encodeLines pool).map ([·]))
          = .ok lines
        ∧ (if b.localVariables.isEmpty then .ok [] else (b.layout pool).1.encodeVariables pool)
          = .ok locals
        ∧ code.attributes = lines ++ locals ++ others := by
  obtain ⟨⟨starts, length⟩, -, h⟩ := bind_eq_ok_iff.1 h
  obtain ⟨bytes, -, h⟩ := bind_eq_ok_iff.1 h
  obtain ⟨handlers, hhandlers, h⟩ := bind_eq_ok_iff.1 h
  obtain ⟨-, -, h⟩ := bind_eq_ok_iff.1 h
  obtain ⟨attributes, hattributes, h⟩ := bind_eq_ok_iff.1 h
  cases h
  obtain ⟨lines, hlines, hattributes⟩ := iteBind_eq_ok_iff.1 hattributes
  obtain ⟨locals, hlocals, hattributes⟩ := iteBind_eq_ok_iff.1 hattributes
  obtain ⟨frames, -, hattributes⟩ := iteBind_eq_ok_iff.1 hattributes
  obtain ⟨custom, -, hattributes⟩ := bind_eq_ok_iff.1 hattributes
  obtain ⟨-, -, hattributes⟩ := bind_eq_ok_iff.1 hattributes
  cases hattributes
  refine ⟨hhandlers, lines, locals, frames ++ custom, hlines, hlocals, ?_⟩
  rw [List.append_assoc (lines ++ locals)]

/-! ## Where labels lie -/

/-- **A body that is built has no offsets.** -/
theorem Built.offset_ne_ok (h : b.Built) (l : Label) (p : Nat) : b.labels.offset l ≠ .ok p := by
  induction h with
  | empty =>
    intro h
    cases h
  | mention _ name ih => exact mt LabelTable.offset_mention.1 ih
  | fresh _ ih => exact mt LabelTable.offset_push.1 ih
  | here _ ih =>
    exact mt (fun h => LabelTable.offset_push.1 (LabelTable.offset_markPlaced.1 h)) ih
  | place _ _ placed ih =>
    obtain ⟨-, rfl⟩ := place_eq_ok_iff.1 placed
    exact mt LabelTable.offset_markPlaced.1 ih
  | push _ _ ih | addHandler _ _ ih | addLine _ _ ih | addVariable _ _ ih | addAttribute _ _ ih
  | setMaxStack _ _ ih | setMaxLocals _ _ ih => exact ih
  | addFrame _ _ added ih =>
    obtain ⟨f, -, rfl⟩ := map_eq_ok_iff.1 added
    exact ih

/-- **A position in a table is where the label lies.** -/
theorem Built.liesAt (hb : b.Built) {starts : List Nat} {length : Nat}
    (hlayout : (b.layout pool).2 = .ok (starts, length)) {l : Label} {p : UInt16}
    (h : (b.layout pool).1.position l = .ok p) :
    LiesAt (b.layout pool).1.labels starts length l p := by
  obtain ⟨q, hq, rfl⟩ := map_eq_ok_iff.1 h
  obtain ⟨hlaid, -, -⟩ := layout_eq_ok hlayout
  obtain ⟨after, hwalk, hlabels, rfl, rfl, hbound⟩ := walk_of_layout hlayout
  rw [hlabels] at hq ⊢
  have hplaces : b.Places l := by
    refine ⟨(Layout.sameLabels_walk hwalk).has_iff.1 (LabelTable.has_of_offset hq), ?_⟩
    by_contra hnot
    exact hb.offset_ne_ok l q ((Layout.offset_of_walk_of_not_mem hwalk hnot).1 hq)
  obtain ⟨before, q', -, hq', hat⟩ := exists_stands hwalk hplaces
  obtain rfl : q = q' := Except.ok.inj (hq.symm.trans hq')
  have hmem := List.mem_of_getElem? hat
  have hle := hlaid.le_of_mem hmem
  have hword : (UInt16.ofNat q).toNat = q :=
    UInt16.toNat_ofNat_of_lt' (Nat.lt_succ_of_le (Nat.le_trans hle hbound))
  refine ⟨?_, ?_, ?_⟩ <;> rw [hword]
  · exact hq
  · exact (List.mem_append.1 hmem).imp_right List.mem_singleton.1
  · exact hle

end Body

/-- **The tables of a body stay inside its code.** Each handler, each line and
each local variable has one entry, in order. Every place that an entry names
is where its label lies: at the offset that layout gave it, where an
instruction starts or the code ends. The range of a handler is not empty, and
it has index 0 exactly if it catches everything. The table of signatures has
the entries of the variables that have one, and no others. -/
theorem encode_sideTables (b : Body) (pool : ConstantPool) (context : BodyContext)
    (hb : b.Built) (hpool : pool.Reachable) (code : Code)
    (h : (b.encode pool context).2 = .ok code) :
    ∃ starts, Laid pool 0 b.instructions starts code.code.length
      ∧ List.Forall₂ (fun handler e => HandlerEntry.Records
          (LiesAt (b.encode pool context).1.labels starts code.code.length) pool handler e)
        b.handlers.toList code.handlers
      ∧ ∃ lines scopes types lineTable variableTable typeTable others,
        code.attributes = lineTable ++ (variableTable ++ typeTable) ++ others
        ∧ Tabulated pool "LineNumberTable" readLineRow lines lineTable
        ∧ Tabulated pool "LocalVariableTable" VariableEntry.read scopes variableTable
        ∧ Tabulated pool "LocalVariableTypeTable" VariableEntry.read types typeTable
        ∧ List.Forall₂ (fun entry row => LineEntry.Recorded
            (LiesAt (b.encode pool context).1.labels starts code.code.length) entry row)
          b.lines.toList lines
        ∧ List.Forall₂ (fun v e => VariableEntry.Records
            (LiesAt (b.encode pool context).1.labels starts code.code.length) pool v e)
          b.localVariables.toList scopes
        ∧ List.Forall₂ (VariableEntry.Signed pool)
          ((b.localVariables.toList.zip scopes).filter fun written =>
            written.1.signature.isSome) types := by
  obtain ⟨starts, length, chunks, hlayout, hchunks, hcode⟩ := Body.code_of_encode h
  obtain ⟨hlaid, -, -⟩ := Body.layout_eq_ok hlayout
  obtain rfl : chunks.flatten.length = length := (Nat.zero_add _).symm.trans
    (hlaid.length_flatten hchunks)
  obtain ⟨hhandlers, lineTable, locals, others, hlines, hlocals, hattributes⟩ :=
    Body.tables_of_encode h
  have hAt : ∀ l p, (b.layout pool).1.position l = .ok p →
      LiesAt (b.encode pool context).1.labels starts chunks.flatten.length l p :=
    fun l p hp => hb.liesAt hlayout hp
  obtain ⟨lines, hlineTable, hlines⟩ := Body.tabulated_lines hAt hlines
  obtain ⟨scopes, types, variableTable, typeTable, rfl, hvariableTable, htypeTable,
    hscopes, htypes⟩ := Body.tabulated_variables hAt hlocals
  rw [hcode]
  refine ⟨starts, hlaid, ?_, lines, scopes, types, lineTable, variableTable, typeTable,
    others, hattributes, hlineTable, hvariableTable, htypeTable, hlines, hscopes, htypes⟩
  exact (mapM_eq_ok_iff.1 hhandlers).imp fun handler e he =>
    Body.records_of_encodeHandler hAt hpool he

/-- A body of one instruction with two handlers, of which one catches
everything, a line, and two variables, of which one has a signature and is
never in scope. -/
def tablesBody : Body :=
  ((((((Body.empty.here.2.push ⟨⟨"nop", 0x00, .none⟩, .none⟩).here.2.addHandler
    ⟨⟨0⟩, ⟨1⟩, ⟨1⟩, none⟩).addHandler ⟨⟨0⟩, ⟨1⟩, ⟨0⟩, some "I"⟩).addLine ⟨⟨0⟩, 7⟩).addVariable
    ⟨⟨0⟩, ⟨1⟩, "I", "I", none, 0⟩).addVariable ⟨⟨1⟩, ⟨1⟩, "I", "I", some "I", 1⟩)

/-- What the body names. -/
def tablesConstants : List Constant :=
  [.classRef "I", .utf8 "I", .utf8 "LineNumberTable", .utf8 "LocalVariableTable",
    .utf8 "LocalVariableTypeTable"]

/-- The pool of that body. -/
def tablesPool : ConstantPool := .ofEntries tablesConstants

theorem lists_tables : ConstantPool.Lists tablesConstants tablesConstants :=
  ⟨by decide, by decide⟩

/-- The code of that body. -/
def tablesCode : Code where
  maxStack := 1
  maxLocals := 0
  code := [0]
  handlers := [⟨0, 1, 1, 0⟩, ⟨0, 1, 0, 1⟩]
  attributes := [⟨3, [0, 1, 0, 0, 0, 7]⟩,
    ⟨4, [0, 2, 0, 0, 0, 1, 0, 2, 0, 2, 0, 0, 0, 1, 0, 0, 0, 2, 0, 2, 0, 1]⟩,
    ⟨5, [0, 1, 0, 1, 0, 0, 0, 2, 0, 2, 0, 1]⟩]

theorem built_tablesBody : tablesBody.Built := by
  have htwo : ∀ l ∈ [(⟨0⟩ : Label), ⟨1⟩], tablesBody.labels.Has l := by
    simp only [List.forall_mem_cons]
    exact ⟨Nat.two_pos, Nat.one_lt_two, List.forall_mem_nil _⟩
  have hlabels {ls : List Label} (hls : ls ⊆ [⟨0⟩, ⟨1⟩]) : ∀ l ∈ ls, tablesBody.labels.Has l :=
    fun l hl => htwo l (hls hl)
  refine .addVariable (.addVariable (.addLine (.addHandler (.addHandler (.here (.push (.here
    .empty) (List.forall_mem_nil _))) (hlabels ?_)) (hlabels ?_)) (htwo _ ?_)) (hlabels ?_))
    (hlabels ?_) <;> decide

theorem encode_tablesBody :
    (tablesBody.encode tablesPool ⟨.compact, [], 0⟩).2 = .ok tablesCode := by
  have hclass : tablesPool.classIndex "I" = .ok 1 := lists_tables.indexOf 0 rfl rfl
  have htext : tablesPool.utf8Index "I" = .ok 2 := lists_tables.indexOf 1 rfl rfl
  have hlines : tablesPool.utf8Index "LineNumberTable" = .ok 3 := lists_tables.indexOf 2 rfl rfl
  have hlocals : tablesPool.utf8Index "LocalVariableTable" = .ok 4 :=
    lists_tables.indexOf 3 rfl rfl
  have htypes : tablesPool.utf8Index "LocalVariableTypeTable" = .ok 5 :=
    lists_tables.indexOf 4 rfl rfl
  -- the layout and the code come to the one instruction
  refine bind_eq_ok_iff.2 ⟨([0], 1), rfl, bind_eq_ok_iff.2 ⟨[0], rfl, ?_⟩⟩
  refine bind_eq_ok_iff.2 ⟨tablesCode.handlers, mapM_eq_ok_iff.2 (.cons rfl (.cons ?_ .nil)), ?_⟩
  · show (tablesPool.classIndex "I" >>= fun index => Except.ok (HandlerEntry.mk 0 1 0 index)) = _
    rw [hclass]
    rfl
  refine bind_eq_ok_iff.2 ⟨(), rfl, bind_eq_ok_iff.2 ⟨tablesCode.attributes, ?_, rfl⟩⟩
  unfold Body.encodeAttributes
  -- the lines have a table of their own
  refine iteBind_eq_ok_iff.2 ⟨tablesCode.attributes.take 1, ?_, ?_⟩
  · show ((tablesPool.utf8Index "LineNumberTable") >>= fun index =>
      Attribute.make index [0, 1, 0, 0, 0, 7]).map ([·]) = _
    rw [hlines]
    rfl
  -- the variables have two, since one of them has a signature
  refine iteBind_eq_ok_iff.2 ⟨tablesCode.attributes.drop 1, ?_, ?_⟩
  · refine bind_eq_ok_iff.2 ⟨[(⟨0, 1, 2, 2, 0⟩, none), (⟨1, 0, 2, 2, 1⟩, some ⟨1, 0, 2, 2, 1⟩)],
      mapM_eq_ok_iff.2 (.cons ?_ (.cons ?_ .nil)), ?_⟩
    · show (tablesPool.utf8Index "I" >>= fun name => tablesPool.utf8Index "I" >>= fun type =>
        Except.ok (VariableEntry.mk 0 1 name type 0, none)) = _
      rw [htext]
      rfl
    · show (tablesPool.utf8Index "I" >>= fun name => tablesPool.utf8Index "I" >>= fun type =>
        tablesPool.utf8Index "I" >>= fun signature => Except.ok
          (VariableEntry.mk 1 0 name type 1, some (VariableEntry.mk 1 0 name signature 1))) = _
      rw [htext]
      rfl
    · show (tablesPool.utf8Index "LocalVariableTable" >>= fun index => Attribute.make index _) >>= _
        = _
      rw [hlocals]
      show (tablesPool.utf8Index "LocalVariableTypeTable" >>= fun index =>
        Attribute.make index _) >>= _ = _
      rw [htypes]
      rfl
  · rfl

/-- The handlers guard the only instruction, from 0 to 1, and the table of
signatures has one entry, for the second variable. -/
theorem encode_sideTables_tablesBody :
    tablesBody.Built ∧ tablesPool.Reachable
      ∧ (tablesBody.encode tablesPool ⟨.compact, [], 0⟩).2 = .ok tablesCode
      ∧ List.Forall₂ (fun handler e => HandlerEntry.Records
          (LiesAt (tablesBody.encode tablesPool ⟨.compact, [], 0⟩).1.labels [0] 1) tablesPool
          handler e)
        [⟨⟨0⟩, ⟨1⟩, ⟨1⟩, none⟩, ⟨⟨0⟩, ⟨1⟩, ⟨0⟩, some "I"⟩] [⟨0, 1, 1, 0⟩, ⟨0, 1, 0, 1⟩]
      ∧ ∃ scope e,
        VariableEntry.Signed tablesPool (⟨⟨1⟩, ⟨1⟩, "I", "I", some "I", 1⟩, scope) e := by
  obtain ⟨starts, hlaid, hhandlers, lines, scopes, types, -, -, -, -, -, -, -, -, -, hscopes,
    hsigned⟩ := encode_sideTables tablesBody tablesPool _ built_tablesBody lists_tables.reachable
      tablesCode encode_tablesBody
  obtain rfl : starts = [0] := by
    obtain ⟨start, rfl⟩ := List.length_eq_one_iff.1 hlaid.length_starts
    exact congrArg (fun p => [p]) (Option.some.inj hlaid.first_eq)
  refine ⟨built_tablesBody, lists_tables.reachable, encode_tablesBody, hhandlers, ?_⟩
  obtain ⟨first, _, -, hrest, rfl⟩ := List.forall₂_cons_left_iff.1 hscopes
  obtain ⟨second, _, -, hnil, rfl⟩ := List.forall₂_cons_left_iff.1 hrest
  cases hnil
  obtain ⟨e, -, he, -, -⟩ := List.forall₂_cons_left_iff.1 hsigned
  exact ⟨second, e, he⟩

end BytecodeAssembler
