import BytecodeAssembler.Class.Attributes
import BytecodeAssembler.Proofs.ConstantPool.Registration

/-!
# Attributes find their constants

Annotations are trees of any depth, and two walks go over them: one collects
their constants and the other looks the constants up. The collecting walk
carries along what it found before, and the first part of this module takes
that away: the constants of a tree are its own, put together from those of
its parts. With that, whatever the second walk looks up is in a pool that
**supplies** the constants of the tree, and all that remains to go wrong is a
count that does not fit.
-/

namespace BytecodeAssembler

/-! ## The constants of annotations -/

/-- The constants of a named element. -/
def elementConstants (element : String × ElementValue) : List Constant :=
  .utf8 element.1 :: element.2.constants

mutual

/-- **What a value appends does not depend on what was found before.** -/
theorem ElementValue.toList_collect : ∀ (value : ElementValue) (found : Array Constant),
    (value.collect found).toList = found.toList ++ value.constants
  | .integer _ _, found | .float _, found | .long _, found | .double _, found
  | .string _, found | .classType _, found => by
    simp only [ElementValue.constants, ElementValue.collect, Array.toList_push,
      List.nil_append]
  | .enum type name, found => by
    simp only [ElementValue.constants, ElementValue.collect, Array.toList_push,
      List.nil_append, List.append_assoc]
  | .nested tree, found => by
    simp only [ElementValue.constants, ElementValue.collect]
    exact tree.toList_collect found
  | .array values, found => by
    simp only [ElementValue.constants, ElementValue.collect]
    rw [toList_collectValues values found, toList_collectValues values #[], List.nil_append]

theorem AnnotationTree.toList_collect : ∀ (tree : AnnotationTree) (found : Array Constant),
    (tree.collect found).toList = found.toList ++ tree.constants
  | ⟨type, elements⟩, found => by
    simp only [AnnotationTree.constants, AnnotationTree.collect]
    rw [toList_collectElements elements (found.push (.utf8 type)),
      toList_collectElements elements (#[].push (.utf8 type)), Array.toList_push,
      List.append_assoc]
    rfl

theorem toList_collectValues : ∀ (values : List ElementValue) (found : Array Constant),
    (collectValues values found).toList
      = found.toList ++ values.flatMap ElementValue.constants
  | [], found => by rw [collectValues, List.flatMap_nil, List.append_nil]
  | value :: rest, found => by
    rw [collectValues, toList_collectValues rest, value.toList_collect, List.flatMap_cons,
      List.append_assoc]

theorem toList_collectElements :
    ∀ (elements : List (String × ElementValue)) (found : Array Constant),
      (collectElements elements found).toList
        = found.toList ++ elements.flatMap elementConstants
  | [], found => by rw [collectElements, List.flatMap_nil, List.append_nil]
  | (name, value) :: rest, found => by
    rw [collectElements, toList_collectElements rest, value.toList_collect, Array.toList_push,
      List.flatMap_cons, List.append_assoc, List.append_assoc]
    rfl

end

/-- The constants of an array are those of its values. -/
theorem ElementValue.constants_array (values : List ElementValue) :
    (ElementValue.array values).constants = values.flatMap ElementValue.constants := by
  simp only [ElementValue.constants, ElementValue.collect]
  rw [toList_collectValues, List.nil_append]

/-- The constants of a tree are its type and those of its elements. -/
theorem AnnotationTree.constants_mk (type : String) (elements : List (String × ElementValue)) :
    (AnnotationTree.mk type elements).constants
      = .utf8 type :: elements.flatMap elementConstants := by
  simp only [AnnotationTree.constants, AnnotationTree.collect]
  rw [toList_collectElements]
  rfl

/-! ## Annotations -/

variable {pool : ConstantPool}

mutual

/-- **A value is written** once its constants have indices, unless an array
in it is too long. -/
theorem ElementValue.encode_failsOnly : ∀ (value : ElementValue),
    pool.Supplies value.constants → FailsOnly Fault.IsNumeric (value.encode pool)
  | .integer _ _, h | .float _, h | .long _, h | .double _, h
  | .string _, h | .classType _, h => by
    simp only [ElementValue.constants, ElementValue.collect] at h
    unfold ElementValue.encode
    exact (h.indexOf List.mem_cons_self).map
  | .enum type name, h => by
    simp only [ElementValue.constants, ElementValue.collect] at h
    unfold ElementValue.encode
    refine (h.utf8Index List.mem_cons_self).bind fun _ _ => ?_
    exact (h.utf8Index (List.mem_cons_of_mem _ List.mem_cons_self)).bind fun _ _ => .ok _
  | .nested tree, h => by
    simp only [ElementValue.constants, ElementValue.collect] at h
    unfold ElementValue.encode
    exact (tree.encode_failsOnly h).map
  | .array values, h => by
    rw [ElementValue.constants_array] at h
    unfold ElementValue.encode
    refine (checkCount_failsOnly _ _).bind fun _ _ => ?_
    exact (encodeValues_failsOnly values [] h).bind fun _ _ => .ok _

/-- **An annotation is written** once its constants have indices, unless it
has too many elements. -/
theorem AnnotationTree.encode_failsOnly : ∀ (tree : AnnotationTree),
    pool.Supplies tree.constants → FailsOnly Fault.IsNumeric (tree.encode pool)
  | ⟨type, elements⟩, h => by
    rw [AnnotationTree.constants_mk, ConstantPool.Supplies.cons_iff] at h
    unfold AnnotationTree.encode
    refine (encodeElements_failsOnly elements [] h.2).bind fun _ _ => ?_
    refine (checkCount_failsOnly _ _).bind fun _ _ => ?_
    exact (FailsOnly.of_eq_ok h.1).bind fun _ _ => .ok _

theorem encodeValues_failsOnly : ∀ (values : List ElementValue) (rev : List Bytes),
    pool.Supplies (values.flatMap ElementValue.constants) →
      FailsOnly Fault.IsNumeric (encodeValues pool values rev)
  | [], rev, _ => by
    unfold encodeValues
    exact .ok _
  | value :: rest, rev, h => by
    rw [List.flatMap_cons, ConstantPool.Supplies.append_iff] at h
    have hvalue := value.encode_failsOnly h.1
    unfold encodeValues
    cases hbytes : value.encode pool with
    | error fault => exact .error (hvalue fault hbytes)
    | ok bytes => exact encodeValues_failsOnly rest (bytes :: rev) h.2

theorem encodeElements_failsOnly :
    ∀ (elements : List (String × ElementValue)) (rev : List Bytes),
      pool.Supplies (elements.flatMap elementConstants) →
        FailsOnly Fault.IsNumeric (encodeElements pool elements rev)
  | [], rev, _ => by
    unfold encodeElements
    exact .ok _
  | (name, value) :: rest, rev, h => by
    rw [List.flatMap_cons, ConstantPool.Supplies.append_iff, elementConstants,
      ConstantPool.Supplies.cons_iff] at h
    obtain ⟨⟨⟨index, hname⟩, hvalue⟩, hrest⟩ := h
    have hvalue := value.encode_failsOnly hvalue
    unfold encodeElements
    rw [ConstantPool.utf8Index, hname]
    dsimp only
    cases hbytes : value.encode pool with
    | error fault => exact .error (hvalue fault hbytes)
    | ok bytes => exact encodeElements_failsOnly rest _ hrest

end

theorem encodeAnnotations_failsOnly {trees : List AnnotationTree}
    (h : pool.Supplies (trees.flatMap AnnotationTree.constants)) :
    FailsOnly Fault.IsNumeric (encodeAnnotations trees pool) :=
  (checkCount_failsOnly _ _).bind fun _ _ =>
    .mapM fun tree htree => tree.encode_failsOnly (h.of_mem_flatMap htree)

/-! ## The attributes of a declaration -/

namespace CommonAttributes

/-- The attribute of the signature, if there is one. -/
def encodeSignature (a : CommonAttributes) (pool : ConstantPool) :
    Except Fault (List Attribute) :=
  a.signature.elim (.ok []) fun signature => do
    let index ← pool.utf8Index signature
    let info ← pool.makeAttribute "Signature" (Bytes.u2 index)
    return [info]

/-- The mark as deprecated, if there is one. -/
def encodeMark (a : CommonAttributes) (pool : ConstantPool) : Except Fault (List Attribute) :=
  if a.deprecated then (pool.makeAttribute "Deprecated" []).map ([·]) else .ok []

/-- **Encoding goes through the kinds of attributes one after the other.** -/
theorem encode_eq (a : CommonAttributes) (pool : ConstantPool) :
    a.encode pool = do
      let signature ← a.encodeSignature pool
      let deprecated ← a.encodeMark pool
      let visible ← encodeList "RuntimeVisibleAnnotations" a.visible pool
      let invisible ← encodeList "RuntimeInvisibleAnnotations" a.invisible pool
      let custom ← a.custom.toList.mapM (·.encode pool)
      return signature ++ deprecated ++ visible ++ invisible ++ custom := by
  unfold encode encodeSignature encodeMark
  cases a.signature <;> cases a.deprecated <;> simp only [Option.elim, bind_assoc] <;> rfl

theorem encodeSignature_failsOnly {a : CommonAttributes}
    (h : pool.Supplies
      (a.signature.elim [] fun signature => [.utf8 "Signature", .utf8 signature])) :
    FailsOnly Fault.IsNumeric (a.encodeSignature pool) := by
  refine FailsOnly.elim fun signature hsignature => ?_
  rw [hsignature] at h
  refine (h.utf8Index (List.mem_cons_of_mem _ List.mem_cons_self)).bind fun index _ => ?_
  exact (h.makeAttribute List.mem_cons_self).bind fun _ _ => .ok _

theorem encodeMark_failsOnly {a : CommonAttributes}
    (h : pool.Supplies (if a.deprecated then [.utf8 "Deprecated"] else [])) :
    FailsOnly Fault.IsNumeric (a.encodeMark pool) := by
  refine FailsOnly.ite (fun hmarked => ?_) fun _ => .ok _
  rw [if_pos hmarked] at h
  exact (h.makeAttribute List.mem_cons_self).map

theorem encodeList_failsOnly {name : String} {trees : Array AnnotationTree}
    (hname : pool.Supplies (if trees.isEmpty then [] else [.utf8 name]))
    (htrees : pool.Supplies (trees.toList.flatMap AnnotationTree.constants)) :
    FailsOnly Fault.IsNumeric (encodeList name trees pool) := by
  refine FailsOnly.ite (fun _ => .ok _) fun hsome => ?_
  rw [if_neg hsome] at hname
  refine (encodeAnnotations_failsOnly htrees).bind fun items _ => ?_
  exact (hname.makeAttribute List.mem_cons_self).bind fun _ _ => .ok _

/-- **The attributes of a declaration are written** once their constants have
indices. -/
theorem encode_failsOnly {a : CommonAttributes} (h : pool.Supplies a.constants) :
    FailsOnly Fault.IsNumeric (a.encode pool) := by
  simp only [constants, ConstantPool.Supplies.append_iff, List.flatMap_append] at h
  obtain ⟨⟨⟨⟨⟨hsignature, hmark⟩, hvisible⟩, hinvisible⟩, hseen, hunseen⟩, hcustom⟩ := h
  rw [encode_eq]
  refine (encodeSignature_failsOnly hsignature).bind fun _ _ => ?_
  refine (encodeMark_failsOnly hmark).bind fun _ _ => ?_
  refine (encodeList_failsOnly hvisible hseen).bind fun _ _ => ?_
  refine (encodeList_failsOnly hinvisible hunseen).bind fun _ _ => ?_
  refine FailsOnly.bind (.mapM fun entry hentry => ?_) fun _ _ => .ok _
  exact hcustom.makeAttribute (List.mem_map.2 ⟨entry, hentry, rfl⟩)

end CommonAttributes

end BytecodeAssembler
