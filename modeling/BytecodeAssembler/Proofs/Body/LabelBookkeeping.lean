import BytecodeAssembler.Proofs.Body.Layout
import BytecodeAssembler.Proofs.Body.Places
import Mathlib.Logic.Relation

/-!
# The books that a body keeps of its labels

A label is a number, which a body hands out for a name or without one. Whoever
holds a label can put it into the stream, once. That no two holders get the same
label by accident, and that the table knows what stands in the stream, is nowhere
checked: it follows from the operations being the only way to change a body.

What one operation can do to a table is `LabelTable.GrowsTo`: labels are gained,
names keep theirs, and no name comes to stand for a label that was there before.
What every operation keeps of a body is that its books are right
(`Body.Tracked`). From the empty body on, both hold along every run.
-/

namespace BytecodeAssembler

namespace LabelTable

variable {t u v : LabelTable} {l : Label} {name : String}

/-! ## Tables that grow -/

/-- **A table grows**: it gains labels, and a name comes to stand for new labels
only. -/
structure GrowsTo (t u : LabelTable) : Prop where
  /-- No label is lost. -/
  has : ∀ l, t.Has l → u.Has l
  /-- Names keep their labels. -/
  within : t.Within u
  /-- A label that was there gets no other name. -/
  named : ∀ (name : String) (l : Label),
    t.Has l → u.names[name]? = some l → t.names[name]? = some l

namespace GrowsTo

theorem refl (t : LabelTable) : t.GrowsTo t := ⟨fun _ => id, .refl t, fun _ _ _ => id⟩

theorem trans (h : t.GrowsTo u) (h' : u.GrowsTo v) : t.GrowsTo v where
  has l hl := h'.has l (h.has l hl)
  within := h.within.trans h'.within
  named name l hl hname := h.named name l hl (h'.named name l (h.has l hl) hname)

/-- A table that gains labels and no names. -/
theorem of_names (hhas : ∀ l, t.Has l → u.Has l) (hnames : u.names = t.names) : t.GrowsTo u where
  has := hhas
  within _ _ hname := hnames ▸ hname
  named _ _ _ hname := hnames ▸ hname

/-- **A label that was there is called what it was called.** -/
theorem names_iff (h : t.GrowsTo u) (hl : t.Has l) :
    u.names[name]? = some l ↔ t.names[name]? = some l :=
  ⟨h.named name l hl, h.within name l⟩

end GrowsTo

theorem growsTo_mention (t : LabelTable) (name : String) : t.GrowsTo (t.mention name).2 where
  has := (samePlaced_mention t name).has
  within := within_mention t name
  named name' l hl hname' := by
    unfold mention at hname'
    cases hname : t.names[name]? with
    | some _ =>
      rw [hname] at hname'
      exact hname'
    | none =>
      rw [hname] at hname'
      rw [Std.HashMap.getElem?_insert] at hname'
      split at hname'
      next => exact absurd (Option.some.inj hname') (fresh_ne_of_has hl)
      next => exact hname'

/-- Mentioning gives a label that was there exactly if the name stood for it. -/
theorem mention_eq_iff (hl : t.Has l) : (t.mention name).1 = l ↔ t.names[name]? = some l := by
  unfold mention
  cases t.names[name]? with
  | some _ => exact Option.some_inj.symm
  | none => exact iff_of_false (fresh_ne_of_has hl) (Option.some_ne_none l).symm

end LabelTable

/-! ## Operations -/

/-- **A way to ask a body for a label.** -/
inductive LabelRequest where
  /-- The label of a name. -/
  | named (name : String)
  /-- A new label that is not in the stream yet. -/
  | fresh
  /-- A new label at the end of the stream. -/
  | here
  deriving DecidableEq, Repr

/-- The label that a body hands out, and the body after that. -/
def LabelRequest.serve : LabelRequest → Body → Label × Body
  | .named name, b => b.mention name
  | .fresh, b => b.fresh
  | .here, b => b.here

namespace Body

variable {b b' : Body} {label l : Label} {fault : Fault}

/-- **Put a label at the end of the stream in place**: check that it has not been
placed, mark it, and append it to the stream. -/
def put (label : Label) : EStateM Fault Body Unit := do
  ofExcept ((← get).labels.checkNew label)
  modify fun b => { b with labels := b.labels.markPlaced label }
  modify fun b => { b with elements := b.elements.push (.label label) }

/-- A label is refused exactly if it is placed. -/
theorem place_eq_error_iff : b.place label = .error fault
    ↔ b.labels.isPlaced label = true ∧ fault = .duplicateLabel (b.labels.nameOf label) := by
  unfold place LabelTable.checkNew
  cases b.labels.isPlaced label with
  | true => exact ⟨fun h => ⟨rfl, (Except.error.inj h).symm⟩, fun h => congrArg _ h.2.symm⟩
  | false => exact iff_of_false (by rintro ⟨⟩) (by rintro ⟨⟨⟩, -⟩)

/-- **Putting a label in place agrees with placing it.** -/
theorem put_eq (b : Body) (label : Label) : (put label).run b = inPlace b (b.place label) := by
  unfold put place
  rw [EStateM.run_bind, EStateM.run_get]
  dsimp only
  cases b.labels.checkNew label <;> rfl

/-- **One operation on a body.** The labels that are put into the stream are of the
body's own table. Adding a frame that is refused changes nothing, and is left out. -/
inductive Step : Body → Body → Prop where
  | request (b : Body) (r : LabelRequest) : Step b (r.serve b).2
  | put {b b' : Body} {label : Label} (hlabel : b.labels.Has label)
      (hput : (put label).run b = .ok () b') : Step b b'
  | refuse {b b' : Body} {label : Label} {fault : Fault} (hlabel : b.labels.Has label)
      (hput : (put label).run b = .error fault b') : Step b b'
  | push (b : Body) (i : Instruction) : Step b (b.push i)
  | addHandler (b : Body) (h : Handler) : Step b (b.addHandler h)
  | addLine (b : Body) (entry : LineEntry) : Step b (b.addLine entry)
  | addVariable (b : Body) (v : LocalVariable) : Step b (b.addVariable v)
  | addAttribute (b : Body) (entry : CustomAttribute) : Step b (b.addAttribute entry)
  | setMaxStack (b : Body) (value : Option UInt16) : Step b { b with maxStack := value }
  | setMaxLocals (b : Body) (value : Option UInt16) : Step b { b with maxLocals := value }
  | addFrame {b b' : Body} {f : Frame} {copied : Nat} (added : b.addFrame f copied = .ok b') :
      Step b b'
  | layout (b : Body) (pool : ConstantPool) : Step b (b.layout pool).1

/-- **Operations lead from one body to another.** -/
def LeadsTo (b b' : Body) : Prop := Relation.ReflTransGen Step b b'

/-- **The bodies that operations lead to**, from nothing. -/
def Reached (b : Body) : Prop := empty.LeadsTo b

/-- **What an operation can do to labels**: hand one out, put one into the stream
that was not there, or nothing. -/
theorem Step.cases (h : b.Step b') :
    (∃ r : LabelRequest, b' = (r.serve b).2)
      ∨ (∃ label, b.labels.Has label ∧ b.labels.isPlaced label = false
        ∧ b' = b.placeNew label)
      ∨ b.SameBooks b' := by
  cases h with
  | request r => exact .inl ⟨r, rfl⟩
  | @put _ label hlabel hput =>
    rw [put_eq, inPlace_eq_ok_iff] at hput
    obtain ⟨hnew, rfl⟩ := place_eq_ok_iff.1 hput
    exact .inr (.inl ⟨label, hlabel, LabelTable.checkNew_eq_ok_iff.1 hnew, rfl⟩)
  | refuse hlabel hput =>
    rw [put_eq, inPlace_eq_error_iff] at hput
    obtain ⟨-, rfl⟩ := hput
    exact .inr (.inr (.of_eq rfl fun _ => rfl))
  | push i => exact .inr (.inr (.of_eq rfl (occurrences_push b i)))
  | addHandler | addLine | addVariable | addAttribute | setMaxStack | setMaxLocals =>
    exact .inr (.inr (.of_eq rfl fun _ => rfl))
  | addFrame added =>
    obtain ⟨f', -, rfl⟩ := map_eq_ok_iff.1 added
    exact .inr (.inr (.of_eq rfl fun _ => rfl))
  | layout pool =>
    exact .inr (.inr ⟨sameLabels_layout b pool, names_layout b pool, fun _ => rfl⟩)

/-! ## What every operation keeps -/

theorem growsTo_serve (b : Body) (r : LabelRequest) : b.labels.GrowsTo (r.serve b).2.labels := by
  have hfresh := (LabelTable.samePlaced_fresh b.labels).has
  cases r with
  | named name => exact LabelTable.growsTo_mention b.labels name
  | fresh => exact .of_names hfresh rfl
  | here => exact .of_names (fun l hl => LabelTable.has_markPlaced.2 (hfresh l hl)) rfl

theorem Step.growsTo (h : b.Step b') : b.labels.GrowsTo b'.labels := by
  obtain ⟨r, rfl⟩ | ⟨label, -, -, rfl⟩ | hsame := h.cases
  · exact growsTo_serve b r
  · exact .of_names (fun l hl => LabelTable.has_markPlaced.2 hl) rfl
  · exact .of_names (fun l hl => hsame.labels.has_iff.2 hl) hsame.names

/-- **Tables grow along every run.** -/
theorem LeadsTo.growsTo (h : b.LeadsTo b') : b.labels.GrowsTo b'.labels := by
  induction h with
  | refl => exact .refl _
  | tail _ hstep ih => exact ih.trans hstep.growsTo

namespace Tracked

theorem serve (h : b.Tracked) (r : LabelRequest) : (r.serve b).2.Tracked := by
  cases r with
  | named name => exact h.mention name
  | fresh => exact h.fresh
  | here => exact h.here

theorem step (h : b.Tracked) (hstep : b.Step b') : b'.Tracked := by
  obtain ⟨r, rfl⟩ | ⟨label, hhas, hnew, rfl⟩ | hsame := hstep.cases
  · exact h.serve r
  · exact h.placeNew hhas hnew
  · exact h.sameBooks hsame

end Tracked

/-- **The books of every body are right** that operations lead to. -/
theorem Reached.tracked (h : b.Reached) : b.Tracked := by
  induction h with
  | refl => exact tracked_empty
  | tail _ hstep ih => exact ih.step hstep

/-- **Building a body is a run of its operations.** -/
theorem Built.reached (h : b.Built) : b.Reached := by
  induction h with
  | empty => exact .refl
  | mention _ name ih => exact ih.tail (.request _ (.named name))
  | fresh _ ih => exact ih.tail (.request _ .fresh)
  | here _ ih => exact ih.tail (.request _ .here)
  | place _ hlabel placed ih =>
    refine ih.tail (.put hlabel ?_)
    rw [put_eq, inPlace_eq_ok_iff]
    exact placed
  | push _ _ ih => exact ih.tail (.push _ _)
  | addHandler _ _ ih => exact ih.tail (.addHandler _ _)
  | addLine _ _ ih => exact ih.tail (.addLine _ _)
  | addVariable _ _ ih => exact ih.tail (.addVariable _ _)
  | addFrame _ _ added ih => exact ih.tail (.addFrame added)
  | addAttribute _ entry ih => exact ih.tail (.addAttribute _ entry)
  | setMaxStack _ value ih => exact ih.tail (.setMaxStack _ value)
  | setMaxLocals _ value ih => exact ih.tail (.setMaxLocals _ value)

/-! ## Who gets which label -/

/-- A label that the table had is handed out for a name only. -/
theorem exists_named_of_has_serve {r : LabelRequest} (h : b.labels.Has (r.serve b).1) :
    ∃ name, r = .named name := by
  cases r with
  | named name => exact ⟨name, rfl⟩
  | fresh => exact absurd rfl (LabelTable.fresh_ne_of_has h)
  | here => exact absurd rfl (LabelTable.fresh_ne_of_has h)

namespace Tracked

/-- A label that is handed out is one of the table. -/
theorem has_serve (h : b.Tracked) (r : LabelRequest) :
    (r.serve b).2.labels.Has (r.serve b).1 := by
  cases r with
  | named name => exact h.named.has_mention name
  | fresh => exact LabelTable.has_fresh b.labels
  | here => exact LabelTable.has_markPlaced.2 (LabelTable.has_fresh b.labels)

/-- **A label has the name that it was asked for by**, and no other. -/
theorem names_serve_iff (h : b.Tracked) (r : LabelRequest) (name : String) :
    (r.serve b).2.labels.names[name]? = some (r.serve b).1 ↔ r = .named name := by
  cases r with
  | named name' =>
    have hname' := LabelTable.names_mention b.labels name'
    refine ⟨fun hname => ?_, ?_⟩
    · exact congrArg _ ((h.distinct.mention h.named name') name' name _ hname' hname)
    · rintro ⟨⟩
      exact hname'
  | fresh => exact iff_of_false (h.named.names_ne_fresh name) LabelRequest.noConfusion
  | here => exact iff_of_false (h.named.names_ne_fresh name) LabelRequest.noConfusion

/-- **Two requests get the same label exactly if they ask for the same name**,
whatever happens between them. -/
theorem serve_eq_serve_iff (h : b.Tracked) {r r' : LabelRequest} (hrun : (r.serve b).2.LeadsTo b') :
    (r.serve b).1 = (r'.serve b').1 ↔ ∃ name, r = .named name ∧ r' = .named name := by
  have hgrows := hrun.growsTo
  have hhas := h.has_serve r
  have hnew : (r.serve b).1 ≠ b'.labels.fresh.1 :=
    (LabelTable.fresh_ne_of_has (hgrows.has _ hhas)).symm
  cases r' with
  | named name =>
    have hmention : (r.serve b).1 = (b'.mention name).1 ↔ r = .named name := by
      rw [eq_comm, ← h.names_serve_iff, ← hgrows.names_iff hhas]
      exact LabelTable.mention_eq_iff (hgrows.has _ hhas)
    refine hmention.trans ⟨fun hr => ⟨name, hr, rfl⟩, ?_⟩
    rintro ⟨_, hr, ⟨⟩⟩
    exact hr
  | fresh => exact iff_of_false hnew fun ⟨_, _, hr⟩ => LabelRequest.noConfusion hr
  | here => exact iff_of_false hnew fun ⟨_, _, hr⟩ => LabelRequest.noConfusion hr

end Tracked

/-! ## Books in order -/

/-- **The books of a body are in order.** -/
structure Bookkeeping (b : Body) : Prop where
  /-- Two requests get the same label exactly if they ask for the same name,
  whatever happens between them. So a label without a name differs from all that
  come later and from all that came before. -/
  identity (r r' : LabelRequest) (b' : Body) (hrun : (r.serve b).2.LeadsTo b') :
    (r.serve b).1 = (r'.serve b').1 ↔ ∃ name, r = .named name ∧ r' = .named name
  /-- What is handed out is of the table from then on. Without a name, it was not
  before. -/
  given (r : LabelRequest) : (r.serve b).2.labels.Has (r.serve b).1
    ∧ (b.labels.Has (r.serve b).1 → ∃ name, r = .named name)
  /-- The table says of a label that it is placed exactly if it stands in the
  stream. -/
  placed (l : Label) : b.labels.isPlaced l = true ↔ .label l ∈ b.elements.toList
  /-- It stands there once. -/
  once (l : Label) (hl : .label l ∈ b.elements.toList) :
    b.elements.toList.count (.label l) = 1
  /-- Putting a label in place and placing it come to the same outcome. -/
  agrees (label : Label) : (put label).run b = inPlace b (b.place label)
  /-- A label is refused exactly if it is placed. -/
  refused (label : Label) (fault : Fault) : b.place label = .error fault
    ↔ b.labels.isPlaced label = true ∧ fault = .duplicateLabel (b.labels.nameOf label)
  /-- If it is refused, the body stays as it is. -/
  unchanged (label : Label) (fault : Fault) (b' : Body) :
    (put label).run b = .error fault b' ↔ b.place label = .error fault ∧ b' = b
  /-- The labels pass the check exactly if all of the table stand in the stream. -/
  checked : b.checkLabels = .ok () ↔ ∀ l, b.labels.Has l → .label l ∈ b.elements.toList
  /-- If they do, a layout that succeeds gives all of them an offset in the code. -/
  offsets (hcheck : b.checkLabels = .ok ()) (pool : ConstantPool) (starts : List Nat)
      (length : Nat) (hlayout : (b.layout pool).2 = .ok (starts, length)) (l : Label)
      (hl : (b.layout pool).1.labels.Has l) :
    ∃ p ≤ length, (b.layout pool).1.labels.offset l = .ok p

theorem Tracked.checkLabels_eq_ok_iff (h : b.Tracked) :
    b.checkLabels = .ok () ↔ ∀ l, b.labels.Has l → .label l ∈ b.elements.toList := by
  rw [Body.checkLabels_eq_ok_iff, LabelTable.unplaced_eq_nil_iff]
  exact forall₂_congr fun l _ => h.isPlaced_iff_mem l

/-- **The books of every body are in order** that operations lead to. -/
theorem bookkeeping_of_reached (h : b.Reached) : b.Bookkeeping where
  identity _ _ _ := h.tracked.serve_eq_serve_iff
  given r := ⟨h.tracked.has_serve r, exists_named_of_has_serve⟩
  placed := h.tracked.isPlaced_iff_mem
  once l hl := (h.tracked.occurrences l).trans (if_pos ((h.tracked.isPlaced_iff_mem l).2 hl))
  agrees := put_eq b
  refused _ _ := place_eq_error_iff
  unchanged label _ _ := by rw [put_eq, inPlace_eq_error_iff]
  checked := h.tracked.checkLabels_eq_ok_iff
  offsets hcheck pool starts length hlayout l hl := by
    have hhas := (sameLabels_layout b pool).has_iff.1 hl
    obtain ⟨-, -, hoffsets⟩ := layout_eq_ok hlayout
    exact hoffsets l hhas (h.tracked.checkLabels_eq_ok_iff.1 hcheck l hhas)

/-- A body with a label that is named `a` and stands nowhere yet. -/
def oneNamed : Body :=
  { empty with
    labels := ⟨(∅ : Std.HashMap String Label).insert "a" ⟨0⟩, #[⟨some "a", false, none⟩]⟩ }

/-- A body with that label in its stream, and with another one without a name. -/
def halfPlaced : Body := (oneNamed.placeNew ⟨0⟩).fresh.2

theorem reached_halfPlaced : halfPlaced.Reached := by
  have hmention : ((LabelRequest.named "a").serve empty).2 = oneNamed := by
    simp [LabelRequest.serve, mention, LabelTable.mention, empty, LabelTable.empty, oneNamed]
  have hnamed : empty.Step oneNamed := hmention ▸ .request empty (.named "a")
  have hput : oneNamed.Step (oneNamed.placeNew ⟨0⟩) := .put Nat.zero_lt_one rfl
  have hfresh : (oneNamed.placeNew ⟨0⟩).Step halfPlaced := .request _ .fresh
  exact ((Relation.ReflTransGen.single hnamed).tail hput).tail hfresh

/-- The label `a` stands in the stream once and is refused a second time; the other
one does not pass the check, and neither it nor `a` is what another name gets. -/
theorem bookkeeping_halfPlaced :
    halfPlaced.Reached ∧ halfPlaced.elements.toList.count (.label ⟨0⟩) = 1
      ∧ (put ⟨0⟩).run halfPlaced = .error (.duplicateLabel "a") halfPlaced
      ∧ halfPlaced.checkLabels ≠ .ok ()
      ∧ (halfPlaced.mention "a").1 ≠ ((halfPlaced.mention "a").2.mention "b").1
      ∧ halfPlaced.fresh.1 ≠ (halfPlaced.fresh.2.mention "b").1 := by
  have hbooks := bookkeeping_of_reached reached_halfPlaced
  refine ⟨reached_halfPlaced, hbooks.once ⟨0⟩ (by decide), ?_, fun hcheck => ?_, fun heq => ?_,
    fun heq => ?_⟩
  · exact (hbooks.unchanged _ _ _).2 ⟨(hbooks.refused _ _).2 ⟨rfl, rfl⟩, rfl⟩
  · exact absurd (hbooks.checked.1 hcheck ⟨1⟩ Nat.one_lt_two) (by decide)
  · obtain ⟨name, hname, hname'⟩ := (hbooks.identity (.named "a") (.named "b") _ .refl).1 heq
    exact absurd (LabelRequest.named.inj (hname.trans hname'.symm)) (by decide)
  · obtain ⟨name, hname, -⟩ := (hbooks.identity .fresh (.named "b") _ .refl).1 heq
    cases hname

end Body

end BytecodeAssembler
