import BytecodeAssembler.Proofs.Descriptor.Grammar
import Mathlib.Algebra.GroupWithZero.Nat
import Mathlib.Algebra.Order.BigOperators.Group.List
import Mathlib.Algebra.Order.Group.Nat

/-!
# Reading and rendering descriptors

A reference does not say whether it is a class or an array type: rendering
tells them apart by the first character. That works unless a class has a name
that begins with a bracket, which no class can have, but which a reader lets
pass: `L[I;` is read as the same type as `[I`, and rendered as `[I`.

This is the only way to lose something. A spelling without such names is
**plain**, and rendering what it spells gives the spelling back, while every
such name costs the two characters around it. The types that plain spellings
stand for are the **well-formed** ones, and they are exactly those that survive
being rendered and read again.
-/

namespace BytecodeAssembler

/-! ## Plain spellings -/

/-- The name of a class does not begin with a bracket. -/
def ElementSpelling.Plain : ElementSpelling → Prop
  | .base _ => True
  | .named name _ _ => name.head? ≠ some '['

instance : DecidablePred ElementSpelling.Plain
  | .base _ => inferInstanceAs (Decidable True)
  | .named name _ _ => inferInstanceAs (Decidable (name.head? ≠ some '['))

/-- **No class is spelled with a name that begins with a bracket.** -/
def TypeSpelling.Plain (x : TypeSpelling) : Prop := x.element.Plain

instance : DecidablePred TypeSpelling.Plain :=
  fun x => inferInstanceAs (Decidable x.element.Plain)

namespace MethodSpelling

/-- The types that are spelled, the result last. -/
def types (x : MethodSpelling) : List TypeSpelling := x.parameters ++ x.result.toList

/-- **No class is spelled with a name that begins with a bracket.** -/
def Plain (x : MethodSpelling) : Prop := ∀ y ∈ x.types, y.Plain

instance : DecidablePred Plain :=
  fun x => inferInstanceAs (Decidable (∀ y ∈ x.types, y.Plain))

end MethodSpelling

/-! ## Rendering what is spelled -/

/-- A name that begins with a bracket is rendered as it is. -/
theorem FieldType.chars_ref_of_bracket (rest : List Char) :
    (FieldType.ref (String.ofList ('[' :: rest))).chars = '[' :: rest := by
  simp only [chars, String.toList_ofList]

/-- Any other name is rendered between `L` and `;`. -/
theorem FieldType.chars_ref_of_ne {name : List Char} (h : name.head? ≠ some '[') :
    (FieldType.ref (String.ofList name)).chars = 'L' :: (name ++ [';']) := by
  simp only [chars, String.toList_ofList]
  split
  next => exact absurd rfl h
  next => rfl

namespace ElementSpelling

theorem chars_type_of_plain {x : ElementSpelling} (h : x.Plain) : x.type.chars = x.text := by
  cases x with
  | base type => rfl
  | named name _ _ => exact FieldType.chars_ref_of_ne h

/-- A name that begins with a bracket loses the `L` and the `;` around it. -/
theorem length_chars_type_of_not_plain {x : ElementSpelling} (h : ¬x.Plain) :
    x.type.chars.length + 2 = x.text.length := by
  cases x with
  | base type => exact absurd trivial h
  | named name _ _ =>
    obtain ⟨rest, rfl⟩ := List.head?_eq_some_iff.1 (not_not.1 h)
    show (FieldType.ref _).chars.length + 2 = _
    rw [FieldType.chars_ref_of_bracket]
    simp [text]

end ElementSpelling

namespace TypeSpelling

/-- Rendering renders the brackets and the elements. -/
theorem chars_type (x : TypeSpelling) :
    x.type.chars = List.replicate x.dimensions '[' ++ x.element.type.chars := by
  obtain ⟨n, element, hle⟩ := x
  cases n with
  | zero => rfl
  | succ n => exact FieldType.chars_ref_of_bracket _

/-- **A plain spelling is rendered again.** -/
theorem chars_type_of_plain {x : TypeSpelling} (h : x.Plain) : x.type.chars = x.text := by
  rw [chars_type, ElementSpelling.chars_type_of_plain h]
  rfl

theorem length_chars_type_lt {x : TypeSpelling} (h : ¬x.Plain) :
    x.type.chars.length < x.text.length := by
  have hlength := ElementSpelling.length_chars_type_of_not_plain h
  rw [chars_type, text, List.length_append, List.length_append]
  omega

theorem length_chars_type_le (x : TypeSpelling) : x.type.chars.length ≤ x.text.length := by
  by_cases h : x.Plain
  · exact Nat.le_of_eq (congrArg List.length (chars_type_of_plain h))
  · exact Nat.le_of_lt (length_chars_type_lt h)

/-- **Rendering gives the spelling back exactly if it is plain.** -/
theorem chars_type_eq_text_iff {x : TypeSpelling} : x.type.chars = x.text ↔ x.Plain := by
  refine ⟨fun h => not_not.1 fun hnot => ?_, chars_type_of_plain⟩
  exact absurd (congrArg List.length h) (Nat.ne_of_lt (length_chars_type_lt hnot))

end TypeSpelling

namespace MethodSpelling

/-- The text of a method descriptor in which the types are written in a given
way. -/
def textWith (write : TypeSpelling → List Char) (x : MethodSpelling) : List Char :=
  '(' :: (x.parameters.flatMap write ++ ')' :: x.result.elim ['V'] write)

/-- Rendering renders the types. -/
theorem chars_descriptor (x : MethodSpelling) :
    x.descriptor.chars = x.textWith fun y => y.type.chars := by
  obtain ⟨parameters, result⟩ := x
  show '(' :: ((parameters.map TypeSpelling.type).flatMap FieldType.chars ++ _) = _
  rw [List.flatMap_map]
  cases result <;> rfl

theorem textWith_congr {write write' : TypeSpelling → List Char} {x : MethodSpelling}
    (h : ∀ y ∈ x.types, write y = write' y) : x.textWith write = x.textWith write' := by
  obtain ⟨parameters, result⟩ := x
  obtain ⟨hparameters, hresult⟩ := List.forall_mem_append.1 h
  unfold textWith
  rw [List.flatMap_congr hparameters]
  cases result with
  | none => rfl
  | some y => exact congrArg (fun last => _ :: (_ ++ _ :: last)) (hresult y List.mem_cons_self)

/-- Besides the types, there are the parentheses, and `V` where there is no
result. -/
theorem length_textWith (write : TypeSpelling → List Char) (x : MethodSpelling) :
    (x.textWith write).length
      = (x.types.map fun y => (write y).length).sum + if x.result.isSome then 2 else 3 := by
  obtain ⟨parameters, result⟩ := x
  cases result with
  | none => simp [textWith, types, List.length_flatMap]
  | some y =>
    simp [textWith, types, List.length_flatMap]
    omega

/-- **Rendering gives the spelling back exactly if it is plain.** Every name
that begins with a bracket makes the rendering shorter, and nothing makes it
longer. -/
theorem chars_descriptor_eq_text_iff {x : MethodSpelling} :
    x.descriptor.chars = x.text ↔ x.Plain := by
  rw [chars_descriptor]
  refine ⟨fun h => not_not.1 fun hnot => ?_, fun h =>
    textWith_congr fun y hy => TypeSpelling.chars_type_of_plain (h y hy)⟩
  have hshorter : ∃ y ∈ x.types, y.type.chars.length < y.text.length := by
    obtain ⟨y, hy⟩ := not_forall.1 hnot
    obtain ⟨hmem, hy⟩ := Classical.not_imp.1 hy
    exact ⟨y, hmem, TypeSpelling.length_chars_type_lt hy⟩
  have hlt := List.sum_lt_sum _ _ (fun y _ => y.length_chars_type_le) hshorter
  have hlength : (x.textWith fun y => y.type.chars).length = (x.textWith _).length :=
    congrArg List.length h
  rw [length_textWith, length_textWith] at hlength
  omega

end MethodSpelling

/-! ## Well-formed types -/

namespace FieldType

/-- **A well-formed type that is no array type.** -/
inductive IsElement : FieldType → Prop where
  | base (type : BaseType) : IsElement (.base type)
  | named {name : String} (hne : name ≠ "") (hfree : ';' ∉ name.toList)
      (hhead : name.toList.head? ≠ some '[') : IsElement (.ref name)

/-- **A well-formed type**: an array type has one to 255 dimensions, and its
elements are well-formed and rendered after the brackets. -/
inductive WellFormed : FieldType → Prop where
  | element {t : FieldType} (h : IsElement t) : WellFormed t
  | array {n : Nat} {element : FieldType} (hpos : 1 ≤ n) (hle : n ≤ 255)
      (h : IsElement element) :
      WellFormed (.ref (String.ofList (List.replicate n '[') ++ element.render))

/-- A type that is no array type is well formed exactly if a plain spelling
stands for it. -/
theorem isElement_iff {t : FieldType} :
    t.IsElement ↔ ∃ x : ElementSpelling, x.Plain ∧ t = x.type := by
  constructor
  · intro h
    cases h with
    | base type => exact ⟨.base type, trivial, rfl⟩
    | @named name hne hfree hhead =>
      have hne' : name.toList ≠ [] := fun h => hne (String.toList_eq_nil_iff.1 h)
      exact ⟨.named name.toList hne' hfree, hhead, congrArg _ String.ofList_toList.symm⟩
  · rintro ⟨x, hplain, rfl⟩
    cases x with
    | base type => exact .base type
    | named name hne hfree =>
      refine .named (fun h => hne ?_) ?_ ?_
      · rw [← String.toList_ofList (l := name), h]
        rfl
      · rwa [String.toList_ofList]
      · rwa [String.toList_ofList]

/-- **A type is well formed exactly if a plain spelling stands for it.** -/
theorem wellFormed_iff {t : FieldType} :
    t.WellFormed ↔ ∃ x : TypeSpelling, x.Plain ∧ t = x.type := by
  constructor
  · intro h
    cases h with
    | element h =>
      obtain ⟨x, hplain, rfl⟩ := isElement_iff.1 h
      exact ⟨⟨0, x, by omega⟩, hplain, rfl⟩
    | @array n _ hpos hle h =>
      obtain ⟨x, hplain, rfl⟩ := isElement_iff.1 h
      refine ⟨⟨n, x, hle⟩, hplain, ?_⟩
      rw [TypeSpelling.type, if_neg (Nat.ne_of_gt hpos), String.ofList_append]
      rfl
  · rintro ⟨⟨n, x, hle⟩, hplain, rfl⟩
    have helement : x.type.IsElement := isElement_iff.2 ⟨x, hplain, rfl⟩
    cases n with
    | zero => exact .element helement
    | succ n =>
      rw [TypeSpelling.type, if_neg (Nat.succ_ne_zero n), String.ofList_append]
      exact .array (Nat.succ_pos n) hle helement

/-- Types are all well formed exactly if plain spellings stand for them. -/
theorem forall_wellFormed_iff {types : List FieldType} :
    (∀ t ∈ types, t.WellFormed)
      ↔ ∃ xs : List TypeSpelling, (∀ x ∈ xs, x.Plain) ∧ types = xs.map TypeSpelling.type := by
  constructor
  · intro h
    induction types with
    | nil => exact ⟨[], List.forall_mem_nil _, rfl⟩
    | cons t types ih =>
      obtain ⟨ht, htypes⟩ := List.forall_mem_cons.1 h
      obtain ⟨x, hx, rfl⟩ := wellFormed_iff.1 ht
      obtain ⟨xs, hxs, rfl⟩ := ih htypes
      exact ⟨x :: xs, List.forall_mem_cons.2 ⟨hx, hxs⟩, rfl⟩
  · rintro ⟨xs, hxs, rfl⟩
    exact List.forall_mem_map.2 fun x hx => wellFormed_iff.2 ⟨x, hxs x hx, rfl⟩

end FieldType

namespace MethodDescriptor

/-- **A well-formed descriptor** has well-formed parameters, and a well-formed
result if it has one. -/
def WellFormed (d : MethodDescriptor) : Prop :=
  (∀ t ∈ d.parameters, t.WellFormed) ∧ ∀ t ∈ d.result, t.WellFormed

/-- **A descriptor is well formed exactly if a plain spelling stands for it.** -/
theorem wellFormed_iff {d : MethodDescriptor} :
    d.WellFormed ↔ ∃ x : MethodSpelling, x.Plain ∧ d = x.descriptor := by
  constructor
  · obtain ⟨parameters, result⟩ := d
    rintro ⟨hparameters, hresult⟩
    obtain ⟨xs, hxs, rfl⟩ := FieldType.forall_wellFormed_iff.1 hparameters
    cases result with
    | none => exact ⟨⟨xs, none⟩, List.forall_mem_append.2 ⟨hxs, List.forall_mem_nil _⟩, rfl⟩
    | some t =>
      obtain ⟨x, hx, rfl⟩ := FieldType.wellFormed_iff.1 (hresult t rfl)
      exact ⟨⟨xs, some x⟩, List.forall_mem_append.2 ⟨hxs, List.forall_mem_singleton.2 hx⟩, rfl⟩
  · rintro ⟨⟨xs, result⟩, hplain, rfl⟩
    obtain ⟨hxs, hresult⟩ := List.forall_mem_append.1 hplain
    refine ⟨FieldType.forall_wellFormed_iff.2 ⟨xs, hxs, rfl⟩, fun t ht => ?_⟩
    obtain ⟨x, hx, rfl⟩ := Option.map_eq_some_iff.1 ht
    exact FieldType.wellFormed_iff.2 ⟨x, hresult x (Option.mem_toList.2 hx), rfl⟩

end MethodDescriptor

/-! ## Round trips -/

/-- **Texts are read as they are spelled**, and of the spellings exactly the
plain ones are rendered again. -/
structure ReadsSpellings {α σ : Type} (read : String → Except Fault α) (render : α → String)
    (text : σ → List Char) (meaning : σ → α) (Plain : σ → Prop) : Prop where
  read_iff {s : String} {a : α} : read s = .ok a ↔ ∃ x, s.toList = text x ∧ a = meaning x
  render_iff {x : σ} : (render (meaning x)).toList = text x ↔ Plain x

namespace ReadsSpellings

variable {α σ : Type} {read : String → Except Fault α} {render : α → String}
  {text : σ → List Char} {meaning : σ → α} {Plain : σ → Prop}

/-- What is rendered is read again exactly if a plain spelling stands for it. -/
theorem read_render_iff (h : ReadsSpellings read render text meaning Plain) {a : α} :
    read (render a) = .ok a ↔ ∃ x, Plain x ∧ a = meaning x := by
  rw [h.read_iff]
  refine exists_congr fun x => and_congr_left fun ha => ?_
  rw [ha, h.render_iff]

/-- What is read is rendered again exactly if it is spelled plainly. -/
theorem render_eq_iff (h : ReadsSpellings read render text meaning Plain) {s : String} {a : α}
    (hread : read s = .ok a) : render a = s ↔ ∃ x, Plain x ∧ s.toList = text x := by
  constructor
  · rintro rfl
    obtain ⟨x, htext, rfl⟩ := h.read_iff.1 hread
    exact ⟨x, h.render_iff.1 htext, htext⟩
  · rintro ⟨x, hplain, htext⟩
    have hread' : read s = .ok (meaning x) := h.read_iff.2 ⟨x, htext, rfl⟩
    obtain rfl : a = meaning x := Except.ok.inj (hread.symm.trans hread')
    rw [← String.toList_inj, h.render_iff.2 hplain, htext]

/-- Texts that are spelled plainly and read as the same are the same. -/
theorem eq_of_read (h : ReadsSpellings read render text meaning Plain) {s s' : String} {a : α}
    (hread : read s = .ok a) (hread' : read s' = .ok a) (hplain : ∃ x, Plain x ∧ s.toList = text x)
    (hplain' : ∃ x, Plain x ∧ s'.toList = text x) : s = s' := by
  calc s = render a := ((h.render_eq_iff hread).2 hplain).symm
    _ = s' := (h.render_eq_iff hread').2 hplain'

end ReadsSpellings

theorem FieldType.readsSpellings :
    ReadsSpellings read render TypeSpelling.text TypeSpelling.type TypeSpelling.Plain where
  read_iff := read_eq_ok_iff
  render_iff {x} := by
    rw [render, String.toList_ofList]
    exact TypeSpelling.chars_type_eq_text_iff

theorem MethodDescriptor.readsSpellings :
    ReadsSpellings read render MethodSpelling.text MethodSpelling.descriptor
      MethodSpelling.Plain where
  read_iff := read_eq_ok_iff
  render_iff {x} := by
    rw [render, String.toList_ofList]
    exact MethodSpelling.chars_descriptor_eq_text_iff

/-- **Reading undoes rendering**, exactly for the well-formed types and
descriptors. -/
theorem read_render_iff_wellFormed (t : FieldType) (d : MethodDescriptor) :
    (FieldType.read t.render = .ok t ↔ t.WellFormed)
      ∧ (MethodDescriptor.read d.render = .ok d ↔ d.WellFormed) := by
  rw [FieldType.wellFormed_iff, MethodDescriptor.wellFormed_iff]
  exact ⟨FieldType.readsSpellings.read_render_iff, MethodDescriptor.readsSpellings.read_render_iff⟩

/-- **The text is a field type** in which no class has a name that begins with a
bracket. -/
def FieldType.PlainText (text : String) : Prop :=
  ∃ x : TypeSpelling, x.Plain ∧ text.toList = x.text

/-- **The text is a method descriptor** in which no class has a name that begins
with a bracket. -/
def MethodDescriptor.PlainText (text : String) : Prop :=
  ∃ x : MethodSpelling, x.Plain ∧ text.toList = x.text

/-- **Rendering undoes reading**, exactly where no class has a name that begins
with a bracket. Two different texts without such names are never read as the
same type. -/
theorem render_read_iff_plain (text : String) :
    (∀ t, FieldType.read text = .ok t → (t.render = text ↔ FieldType.PlainText text)
        ∧ ∀ text', FieldType.read text' = .ok t → FieldType.PlainText text →
          FieldType.PlainText text' → text = text')
      ∧ ∀ d, MethodDescriptor.read text = .ok d →
        (d.render = text ↔ MethodDescriptor.PlainText text)
        ∧ ∀ text', MethodDescriptor.read text' = .ok d → MethodDescriptor.PlainText text →
          MethodDescriptor.PlainText text' → text = text' := by
  constructor
  · intro t h
    exact ⟨FieldType.readsSpellings.render_eq_iff h, fun text' =>
      FieldType.readsSpellings.eq_of_read h⟩
  · intro d h
    exact ⟨MethodDescriptor.readsSpellings.render_eq_iff h, fun text' =>
      MethodDescriptor.readsSpellings.eq_of_read h⟩

/-- A method with an array of a class named `)V` and a `long` as parameters, and
with a class named `a[` as result. -/
def hardSpelling : MethodSpelling where
  parameters :=
    [⟨2, .named [')', 'V'] (by decide) (by decide), by decide⟩, ⟨0, .base .long, by decide⟩]
  result := some ⟨0, .named ['a', '['] (by decide) (by decide), by decide⟩

/-- Parentheses, letters and brackets in a name are kept apart from those
around it. -/
theorem render_read_iff_plain_hard :
    MethodDescriptor.read "([[L)V;J)La[;"
        = .ok ⟨[.ref "[[L)V;", .base .long], some (.ref "a[")⟩
      ∧ MethodDescriptor.PlainText "([[L)V;J)La[;"
      ∧ MethodDescriptor.render ⟨[.ref "[[L)V;", .base .long], some (.ref "a[")⟩
        = "([[L)V;J)La[;" := by
  have hread : MethodDescriptor.read "([[L)V;J)La[;"
      = .ok ⟨[.ref "[[L)V;", .base .long], some (.ref "a[")⟩ :=
    MethodDescriptor.read_eq_ok_iff.2 ⟨hardSpelling, rfl, rfl⟩
  have hplain : MethodDescriptor.PlainText "([[L)V;J)La[;" := ⟨hardSpelling, by decide, rfl⟩
  exact ⟨hread, hplain, ((render_read_iff_plain _).2 _ hread).1.2 hplain⟩

/-- The class named `[I`. -/
def bracketSpelling : TypeSpelling :=
  ⟨0, .named ['[', 'I'] (by decide) (by decide), by decide⟩

/-- **A class whose name begins with a bracket is lost**: it is read as the array
type that its name spells, and rendered as that. -/
theorem render_read_bracketName :
    FieldType.read "L[I;" = .ok (.ref "[I") ∧ FieldType.read "[I" = .ok (.ref "[I")
      ∧ (FieldType.ref "[I").render = "[I" ∧ "[I" ≠ "L[I;" := by
  refine ⟨FieldType.read_eq_ok_iff.2 ⟨bracketSpelling, rfl, rfl⟩, ?_, rfl, by decide⟩
  exact FieldType.read_eq_ok_iff.2 ⟨⟨1, .base .int, by decide⟩, rfl, rfl⟩

end BytecodeAssembler
