import BytecodeAssembler.Proofs.Label.Mentions

/-!
# Names keep their labels

A name that was mentioned stands for its label from then on: a table only
ever gains names. So an argument can be read again later. In any table in
which the names of the first reading still stand for their labels, the same
operand comes out, and there is nothing left to mention. That makes the final
table of a body enough to say which instructions were meant on the way to it,
and which types in its frames.
-/

namespace BytecodeAssembler

namespace LabelTable

variable {t u v : LabelTable}

/-- **Every name of the one table stands for the same label in the other.** -/
def Within (t u : LabelTable) : Prop :=
  ∀ (name : String) (label : Label), t.names[name]? = some label → u.names[name]? = some label

namespace Within

theorem refl (t : LabelTable) : t.Within t := fun _ _ => id

theorem trans (h : t.Within u) (h' : u.Within v) : t.Within v :=
  fun name label hname => h' name label (h name label hname)

end Within

/-- A name that is mentioned stands for the label it gives. -/
theorem names_mention (t : LabelTable) (name : String) :
    (t.mention name).2.names[name]? = some (t.mention name).1 := by
  unfold mention
  cases hname : t.names[name]? with
  | some label => exact hname
  | none => exact Std.HashMap.getElem?_insert_self

theorem within_mention (t : LabelTable) (name : String) : t.Within (t.mention name).2 := by
  unfold mention
  cases hname : t.names[name]? with
  | some label => exact .refl t
  | none =>
    intro name' label' hname'
    have hne : ¬(name == name') = true := by
      intro heq
      rw [beq_iff_eq.1 heq, hname'] at hname
      cases hname
    show (t.names.insert name _)[name']? = some label'
    rw [Std.HashMap.getElem?_insert, if_neg hne]
    exact hname'

theorem Mentions.within (h : t.Mentions u) : t.Within u := by
  induction h with
  | refl => exact .refl t
  | mention _ name ih => exact ih.trans (within_mention _ name)

/-- **A name mentioned before is not new.** -/
theorem mention_of_within {name : String} (h : (t.mention name).2.Within u) :
    u.mention name = ((t.mention name).1, u) := by
  have hname := h name _ (names_mention t name)
  generalize (t.mention name).1 = label at hname ⊢
  unfold mention
  rw [hname]

theorem within_mentionEach (names : List String) (rev : List Label) (t : LabelTable) :
    t.Within (mentionEach names rev t).2 := by
  induction names generalizing rev t with
  | nil => exact .refl t
  | cons name rest ih => exact (within_mention t name).trans (ih _ _)

theorem mentionEach_of_within {names : List String} {rev : List Label}
    (h : (mentionEach names rev t).2.Within u) :
    mentionEach names rev u = ((mentionEach names rev t).1, u) := by
  induction names generalizing rev t with
  | nil => rfl
  | cons name rest ih =>
    have hname : u.mention name = ((t.mention name).1, u) :=
      mention_of_within ((within_mentionEach rest _ _).trans h)
    show mentionEach rest ((u.mention name).1 :: rev) (u.mention name).2 = _
    rw [hname]
    exact ih h

end LabelTable

namespace Argument

variable {t u : LabelTable}

theorem within_lookupPairs (pairs : List (Int64 × String)) (rev : List (Int32 × Label))
    (t : LabelTable) : t.Within (lookupPairs pairs rev t).2 := by
  induction pairs generalizing rev t with
  | nil => exact .refl t
  | cons pair rest ih =>
    unfold lookupPairs
    split
    next => exact .refl t
    next => exact (LabelTable.within_mention t pair.2).trans (ih _ _)

theorem lookupPairs_of_within {pairs : List (Int64 × String)} {rev : List (Int32 × Label)}
    (h : (lookupPairs pairs rev t).2.Within u) :
    lookupPairs pairs rev u = ((lookupPairs pairs rev t).1, u) := by
  induction pairs generalizing rev t with
  | nil => rfl
  | cons pair rest ih =>
    unfold lookupPairs at h ⊢
    cases hkey : narrowS4 "lookupswitch key" pair.1 with
    | error fault => rfl
    | ok key =>
      rw [hkey] at h
      dsimp only at h ⊢
      have hname : u.mention pair.2 = ((t.mention pair.2).1, u) :=
        LabelTable.mention_of_within ((within_lookupPairs rest _ _).trans h)
      rw [hname]
      exact ih h

/-- **An argument reads the same later**: whenever the names it mentioned
stand for their labels, it gives the same operand and mentions nothing new. -/
theorem resolve_of_within {argument : Argument} {opcode : Opcode}
    (h : (argument.resolve opcode t).2.Within u) :
    argument.resolve opcode u = ((argument.resolve opcode t).1, u) := by
  revert h
  unfold resolve
  split
  next name _ =>
    intro h
    dsimp only at h ⊢
    rw [LabelTable.mention_of_within h]
  next name _ =>
    intro h
    dsimp only at h ⊢
    rw [LabelTable.mention_of_within h]
  next low high targets fallback _ =>
    cases tableLow low high targets.length with
    | error fault => exact fun _ => rfl
    | ok low =>
      intro h
      dsimp only [LabelTable.mentionAll] at h ⊢
      -- the default comes before the cases, so its name has its label once theirs have
      have hfallback : u.mention fallback = ((t.mention fallback).1, u) :=
        LabelTable.mention_of_within ((LabelTable.within_mentionEach targets _ _).trans h)
      rw [hfallback, LabelTable.mentionEach_of_within h]
  next pairs fallback _ =>
    -- here the pairs come first and may fail before the default is mentioned
    have hlater : (lookupPairs pairs [] t).2.Within u → _ := lookupPairs_of_within
    rcases hpairs : lookupPairs pairs [] t with ⟨outcome, labels⟩
    rw [hpairs] at hlater
    cases outcome with
    | error fault =>
      intro h
      rw [hlater h]
    | ok result =>
      intro h
      dsimp only at h ⊢
      rw [hlater ((LabelTable.within_mention labels fallback).trans h)]
      dsimp only
      rw [LabelTable.mention_of_within h]
  next => exact fun _ => rfl

end Argument

namespace DeclaredType

variable {t u : LabelTable}

theorem readPlace_of_within {text : String} {outOfRange : Int → Fault}
    (h : (readPlace t text outOfRange).2.Within u) :
    readPlace u text outOfRange = ((readPlace t text outOfRange).1, u) := by
  unfold readPlace at h ⊢
  cases hread : Text.readInt64 10 text.toList with
  | ok value =>
    dsimp only
    split <;> rfl
  | error fault =>
    rw [hread] at h
    dsimp only at h ⊢
    rw [LabelTable.mention_of_within h]

/-- **A type reads the same later.** -/
theorem ofName_of_within {name : String} {argument : Option String}
    (h : (ofName t name argument).2.Within u) :
    ofName u name argument = ((ofName t name argument).1, u) := by
  revert h
  unfold ofName
  split
  next => exact fun _ => rfl
  next => exact fun _ => rfl
  next argument _ _ _ =>
    split
    next => cases argument <;> exact fun _ => rfl
    next =>
      split
      next =>
        cases argument with
        | none => exact fun _ => rfl
        | some text =>
          intro h
          dsimp only at h ⊢
          rw [readPlace_of_within h]
      next => exact fun _ => rfl

end DeclaredType

end BytecodeAssembler
