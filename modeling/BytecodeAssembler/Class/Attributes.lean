import BytecodeAssembler.AnnotationTree

/-!
# Attributes that every declaration can carry

Classes, fields and methods can all have a generic signature, a mark as
deprecated, annotations, and attributes given as they are. They are written
in this order, the ones given as they are last.
-/

namespace BytecodeAssembler

/-- **The attributes of a class, field or method.** -/
structure CommonAttributes where
  /-- The generic signature. -/
  signature : Option String
  /-- Whether it is deprecated. -/
  deprecated : Bool
  /-- The annotations that can be seen at run time. -/
  visible : Array AnnotationTree
  /-- The annotations that cannot. -/
  invisible : Array AnnotationTree
  /-- The attributes given as they are. -/
  custom : Array CustomAttribute

namespace CommonAttributes

/-- No attributes. -/
def empty : CommonAttributes := ⟨none, false, #[], #[], #[]⟩

instance : Inhabited CommonAttributes := ⟨empty⟩

/-- **The constants that the attributes need**, in the order in which they
are registered. -/
def constants (a : CommonAttributes) : List Constant :=
  a.signature.elim [] (fun signature => [.utf8 "Signature", .utf8 signature])
    ++ (if a.deprecated then [.utf8 "Deprecated"] else [])
    ++ (if a.visible.isEmpty then [] else [.utf8 "RuntimeVisibleAnnotations"])
    ++ (if a.invisible.isEmpty then [] else [.utf8 "RuntimeInvisibleAnnotations"])
    ++ (a.visible.toList ++ a.invisible.toList).flatMap AnnotationTree.constants
    ++ a.custom.toList.map fun entry => .utf8 entry.name

/-- The attribute of a list of annotations, if there are any. -/
def encodeList (name : String) (trees : Array AnnotationTree) (pool : ConstantPool) :
    Except Fault (List Attribute) :=
  if trees.isEmpty then .ok []
  else do
    let items ← encodeAnnotations trees.toList pool
    let info ← pool.makeAttribute name (Bytes.counted items)
    return [info]

/-- **The attributes as they are written.** -/
def encode (a : CommonAttributes) (pool : ConstantPool) : Except Fault (List Attribute) := do
  let signature ←
    match a.signature with
    | none => .ok []
    | some signature => do
      let index ← pool.utf8Index signature
      let info ← pool.makeAttribute "Signature" (Bytes.u2 index)
      pure [info]
  let deprecated ←
    if a.deprecated then (pool.makeAttribute "Deprecated" []).map ([·]) else .ok []
  let visible ← encodeList "RuntimeVisibleAnnotations" a.visible pool
  let invisible ← encodeList "RuntimeInvisibleAnnotations" a.invisible pool
  let custom ← a.custom.toList.mapM (·.encode pool)
  return signature ++ deprecated ++ visible ++ invisible ++ custom

end CommonAttributes

end BytecodeAssembler
