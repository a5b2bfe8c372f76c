import BytecodeAssembler.Proofs.Assembler.Members

/-!
# The form of stack maps

A class writes all its stack maps in one form, and its version decides which.
The assembler fixes the form when the first method is opened, while the class
asks its version for the form again when it is encoded. The two agree because
of how little a directive can do to them: apart from the opening of a method
and the setting of the version, **no directive touches the form or the
version**. The first of the two only fixes the form that the version has
already, and the second is refused if it would give another one.
-/

namespace BytecodeAssembler

/-- A version is not refused if it gives the form that is fixed, if one is. -/
theorem Version.refusedBy?_eq_none_iff {version : Version} {fixed : Option StackMapForm} :
    version.refusedBy? fixed = none ↔ ∀ form, fixed = some form → form = version.stackMapForm := by
  cases fixed <;> simp [refusedBy?]

namespace Assembler

variable {a : Assembler}

/-! ## What a directive does to the version -/

/-- **What is settled about stack maps**: the form, once it is fixed, and the
version of the class. -/
def versioning (a : Assembler) : Option StackMapForm × Version := (a.form, a.classSoFar.version)

theorem versioning_run (a : Assembler) (d : Directive) :
    (a.run d).versioning = ((a.surroundings.after a.method.isSome (a.effect d)).form,
      (a.surroundings.after a.method.isSome (a.effect d)).version) :=
  congrArg (fun s : Surroundings => (s.form, s.version)) (a.surroundings_run d)

/-- **Opening a method** fixes the form that the version has, unless a form is
fixed already. -/
theorem versioning_beginMethod (hclosed : a.method = none) (flags : AccessFlags .methods)
    (name descriptor : String) :
    (a.beginMethod flags name descriptor).versioning
      = (some (a.form.getD a.classSoFar.version.stackMapForm), a.classSoFar.version) := by
  refine (a.versioning_run (.beginMethod flags name descriptor)).trans ?_
  rw [hclosed]
  rfl

/-- **A version that is taken.** Nothing is recorded. -/
theorem setVersion_of_agrees {version : Version}
    (h : ∀ form, a.form = some form → form = version.stackMapForm) :
    a.setVersion version = { a with classSoFar := { a.classSoFar with version } } := by
  unfold setVersion
  cases hform : a.form with
  | none => rfl
  | some form => exact if_pos (h form hform)

/-- **A version that is refused**, because it would change the form. -/
theorem setVersion_of_ne {version : Version} {form : StackMapForm} (hform : a.form = some form)
    (hne : form ≠ version.stackMapForm) :
    a.setVersion version = a.report (.stackMapFormFixed version form) := by
  unfold setVersion
  rw [hform]
  exact if_neg hne

/-- **All that a directive can do to the form and the version**: nothing, take
a version that agrees with the form, or open a method. -/
theorem versioning_run_cases (a : Assembler) (d : Directive) :
    (a.run d).versioning = a.versioning
      ∨ (∃ version, d = .version version
        ∧ (∀ form, a.form = some form → form = version.stackMapForm)
        ∧ (a.run d).versioning = (a.form, version))
      ∨ (∃ flags name descriptor, d = .beginMethod flags name descriptor ∧ a.method = none
        ∧ (a.run d).versioning
          = (some (a.form.getD a.classSoFar.version.stackMapForm), a.classSoFar.version)) := by
  have hd := a.acts d
  rw [versioning_run]
  generalize a.effect d = e at hd ⊢
  cases hd with
  | version version =>
    cases hform : version.refusedBy? a.form with
    | some form =>
      left
      simp [Surroundings.after, surroundings, versioning, hform]
    | none =>
      refine .inr (.inl ⟨version, rfl, Version.refusedBy?_eq_none_iff.1 hform, ?_⟩)
      simp [Surroundings.after, surroundings, hform]
  | beginMethod flags name descriptor =>
    cases a.method with
    | some m => exact .inl rfl
    | none => exact .inr (.inr ⟨flags, name, descriptor, rfl, rfl, rfl⟩)
  | trees =>
    left
    unfold Surroundings.after
    dsimp only
    split <;> rfl
  | _ => exact .inl rfl

/-! ## The form that is fixed -/

/-- **A run whose stack maps are in this form**: the form is fixed, and the
version agrees with it. -/
structure FixesForm (a : Assembler) (form : StackMapForm) : Prop where
  fixed : a.form = some form
  agrees : a.classSoFar.version.stackMapForm = form

variable {form : StackMapForm} {settings : Settings} {ds : List Directive}

theorem fixesForm_of_versioning {version : Version} (h : a.versioning = (some form, version))
    (hagrees : version.stackMapForm = form) : a.FixesForm form where
  fixed := congrArg Prod.fst h
  agrees := (congrArg (·.2.stackMapForm) h).trans hagrees

theorem FixesForm.versioning (h : a.FixesForm form) :
    a.versioning = (some form, a.classSoFar.version) :=
  congrArg (·, a.classSoFar.version) h.fixed

/-- **No directive changes the form once it is fixed.** -/
theorem FixesForm.run (h : a.FixesForm form) (d : Directive) : (a.run d).FixesForm form := by
  obtain hsame | ⟨version, -, hagrees, htaken⟩ | ⟨_, _, _, -, -, hbegin⟩ :=
    a.versioning_run_cases d
  · exact fixesForm_of_versioning (hsame.trans h.versioning) h.agrees
  · rw [h.fixed] at htaken
    exact fixesForm_of_versioning htaken (hagrees form h.fixed).symm
  · rw [h.fixed, Option.getD_some] at hbegin
    exact fixesForm_of_versioning hbegin h.agrees

theorem FixesForm.runAll (h : a.FixesForm form) (ds : List Directive) :
    (a.runAll ds).FixesForm form := by
  induction ds generalizing a with
  | nil => exact h
  | cons d ds ih => exact ih (h.run d)

/-- **The version agrees with the form**, if a form is fixed. -/
def FormAgrees (a : Assembler) : Prop := ∀ form, a.form = some form → a.FixesForm form

theorem formAgrees_of_form_eq_none (h : a.form = none) : a.FormAgrees :=
  fun _ hform => absurd (h.symm.trans hform) (Option.some_ne_none _).symm

/-- **Opening a method fixes the form of the version in force.** -/
theorem FormAgrees.fixesForm_beginMethod (h : a.FormAgrees) (hclosed : a.method = none)
    (flags : AccessFlags .methods) (name descriptor : String) :
    (a.run (.beginMethod flags name descriptor)).FixesForm a.classSoFar.version.stackMapForm := by
  cases hform : a.form with
  | none =>
    have hbegin := versioning_beginMethod hclosed flags name descriptor
    rw [hform, Option.getD_none] at hbegin
    exact fixesForm_of_versioning hbegin rfl
  | some form =>
    rw [(h form hform).agrees]
    exact (h form hform).run _

theorem FormAgrees.run (h : a.FormAgrees) (d : Directive) : (a.run d).FormAgrees := by
  cases hform : a.form with
  | some form =>
    have hfixes := (h form hform).run d
    intro form' hform'
    rwa [← Option.some.inj (hfixes.fixed.symm.trans hform')]
  | none =>
    obtain hsame | ⟨version, -, -, htaken⟩ | ⟨flags, name, descriptor, rfl, hclosed, -⟩ :=
      a.versioning_run_cases d
    · exact formAgrees_of_form_eq_none ((congrArg Prod.fst hsame).trans hform)
    · exact formAgrees_of_form_eq_none ((congrArg Prod.fst htaken).trans hform)
    · have hfixes := h.fixesForm_beginMethod hclosed flags name descriptor
      intro form' hform'
      rwa [← Option.some.inj (hfixes.fixed.symm.trans hform')]

theorem formAgrees_runAll (settings : Settings) (ds : List Directive) :
    ((start settings).runAll ds).FormAgrees := by
  induction ds using List.reverseRecOn with
  | nil => exact formAgrees_of_form_eq_none rfl
  | append_singleton ds d ih =>
    rw [runAll_append]
    exact ih.run d

/-- **A method is opened here**: at this point of the run a method is begun
while none is open. -/
def OpensMethodAfter (settings : Settings) (front ds : List Directive) : Prop :=
  ((start settings).runAll front).method = none
    ∧ ∃ flags name descriptor, front ++ [.beginMethod flags name descriptor] <+: ds

variable {front : List Directive}

/-- **From the first method on**, the form is that of the version in force when
a method was opened. -/
theorem OpensMethodAfter.fixesForm (h : OpensMethodAfter settings front ds) :
    ((start settings).runAll ds).FixesForm
      ((start settings).runAll front).classSoFar.version.stackMapForm := by
  obtain ⟨hclosed, flags, name, descriptor, back, rfl⟩ := h
  rw [runAll_append, runAll_append]
  exact ((formAgrees_runAll settings front).fixesForm_beginMethod hclosed flags name
    descriptor).runAll back

/-- **No form is fixed before the first method.** -/
theorem opensMethodAfter_of_form_ne_none (h : ((start settings).runAll ds).form ≠ none) :
    ∃ front, OpensMethodAfter settings front ds := by
  -- The last directive either fixed the form or found it fixed.
  induction ds using List.reverseRecOn with
  | nil => exact absurd rfl h
  | append_singleton ds d ih =>
    rw [runAll_append] at h
    by_cases hform : ((start settings).runAll ds).form = none
    · obtain hsame | ⟨_, -, -, htaken⟩ | ⟨flags, name, descriptor, rfl, hclosed, -⟩ :=
        ((start settings).runAll ds).versioning_run_cases d
      · exact absurd ((congrArg Prod.fst hsame).trans hform) h
      · exact absurd ((congrArg Prod.fst htaken).trans hform) h
      · exact ⟨ds, hclosed, flags, name, descriptor, [], List.append_nil _⟩
    · obtain ⟨front, hclosed, flags, name, descriptor, hfront⟩ := ih hform
      exact ⟨front, hclosed, flags, name, descriptor, hfront.trans (List.prefix_append _ _)⟩

/-! ## The methods of the class -/

/-- **The methods of a class file have their stack maps in the form of the
version.** -/
theorem resolves_methods_of_finish {file : ClassFile} (h : a.finish = .ok file) :
    List.Forall₂ (fun m info => MemberInfo.Resolves info file.table m.flags m.name m.descriptor
        (m.specs file.table a.classSoFar.version.stackMapForm))
      a.classSoFar.methods.toList file.methods := by
  obtain ⟨hclean, hencode⟩ := finish_eq_ok_iff.1 h
  obtain ⟨hend, -, -⟩ := closed_of_checkEnd hclean
  obtain ⟨name, pool, -, hlowers, hcovers⟩ := Class.covers_of_encode hencode
  have hmethods := mapM_eq_ok_iff.1 hlowers.methods
  rw [hend, endField_eq] at hmethods
  exact hmethods.imp fun m info hm => Method.resolves_of_encode hcovers hm

/-- **A version that would change the form of stack maps**: a method was opened,
and the version in force gives another form. -/
def Flips (settings : Settings) (ds : List Directive) (version : Version) : Prop :=
  (∃ front, OpensMethodAfter settings front ds)
    ∧ version.stackMapForm ≠ ((start settings).runAll ds).classSoFar.version.stackMapForm

theorem run_version_of_flips {version : Version} (h : Flips settings ds version) :
    ∃ fault : Fault, fault.kind = .structural
      ∧ ((start settings).runAll ds).run (.version version)
        = ((start settings).runAll ds).report fault := by
  obtain ⟨⟨front, hopens⟩, hne⟩ := h
  have hfixes := hopens.fixesForm
  rw [hfixes.agrees] at hne
  exact ⟨_, rfl, setVersion_of_ne hfixes.fixed hne.symm⟩

theorem run_version_of_not_flips {version : Version} (h : ¬Flips settings ds version) :
    ((start settings).runAll ds).run (.version version)
      = { (start settings).runAll ds with
          classSoFar := { ((start settings).runAll ds).classSoFar with version } } := by
  refine setVersion_of_agrees fun form hform => ?_
  have hsome : ((start settings).runAll ds).form ≠ none := hform ▸ Option.some_ne_none form
  have hsame := Classical.not_not.1 fun hne => h ⟨opensMethodAfter_of_form_ne_none hsome, hne⟩
  exact ((formAgrees_runAll settings ds form hform).agrees.symm.trans hsame.symm)

/-- **The form of stack maps never flips.** Whatever the directives, once a
method was opened the version gives the form that the version in force then
had, and all methods of the class have their stack maps in that form. A version
that would change it is refused, with one structural fault and nothing else
changed; any other version is taken, and nothing is recorded. -/
theorem runAll_stackMapForm (settings : Settings) (ds : List Directive) :
    (∀ front, OpensMethodAfter settings front ds →
      ((start settings).runAll ds).classSoFar.version.stackMapForm
          = ((start settings).runAll front).classSoFar.version.stackMapForm
        ∧ ∀ file, ((start settings).runAll ds).finish = .ok file →
          List.Forall₂ (fun m info => MemberInfo.Resolves info file.table m.flags m.name
              m.descriptor (m.specs file.table
                ((start settings).runAll front).classSoFar.version.stackMapForm))
            ((start settings).runAll ds).classSoFar.methods.toList file.methods)
      ∧ ∀ version,
        (Flips settings ds version → ∃ fault : Fault, fault.kind = .structural
          ∧ (start settings).runAll (ds ++ [.version version])
            = { (start settings).runAll ds with
                diagnostics := ((start settings).runAll ds).diagnostics.push
                  ⟨((start settings).runAll ds).line, fault⟩ })
        ∧ (¬Flips settings ds version →
          (start settings).runAll (ds ++ [.version version])
            = { (start settings).runAll ds with
                classSoFar := { ((start settings).runAll ds).classSoFar with version } }) := by
  refine ⟨fun front hopens => ?_, fun version => ?_⟩
  · have hform := hopens.fixesForm.agrees
    refine ⟨hform, fun file hfile => ?_⟩
    rw [← hform]
    exact resolves_methods_of_finish hfile
  · rw [runAll_append]
    exact ⟨run_version_of_flips, run_version_of_not_flips⟩

/-- The class with a field and a method has legacy stack maps: it takes another
version of that form and refuses one of the other form. -/
theorem runAll_stackMapForm_homonym :
    OpensMethodAfter .initial (homonymRun.take 4) homonymRun
      ∧ ((start .initial).runAll homonymRun).classSoFar.version.stackMapForm = .legacy
      ∧ List.Forall₂ (fun m info => MemberInfo.Resolves info Class.homonymFile.table m.flags m.name
          m.descriptor (m.specs Class.homonymFile.table .legacy))
        ((start .initial).runAll homonymRun).classSoFar.methods.toList Class.homonymFile.methods
      ∧ ((start .initial).runAll (homonymRun ++ [.version ⟨50, 0⟩])).diagnostics.size
        = ((start .initial).runAll homonymRun).diagnostics.size + 1
      ∧ ((start .initial).runAll (homonymRun ++ [.version ⟨49, 0⟩])).classSoFar.version
        = ⟨49, 0⟩ := by
  have hopens : OpensMethodAfter .initial (homonymRun.take 4) homonymRun :=
    ⟨rfl, ⟨0x0400⟩, "A", "()V", [.throws "A", .endMethod], rfl⟩
  obtain ⟨hfixed, hversion⟩ := runAll_stackMapForm .initial homonymRun
  obtain ⟨hform, hmethods⟩ := hfixed _ hopens
  have hlegacy : ((start .initial).runAll homonymRun).classSoFar.version.stackMapForm = .legacy :=
    hform
  have hflips : Flips .initial homonymRun ⟨50, 0⟩ := by
    refine ⟨⟨_, hopens⟩, ?_⟩
    rw [hlegacy]
    decide
  obtain ⟨fault, -, hrefused⟩ := (hversion ⟨50, 0⟩).1 hflips
  have htaken := (hversion ⟨49, 0⟩).2 fun h => h.2 (by rw [hlegacy]; rfl)
  refine ⟨hopens, hlegacy, hmethods _ finish_homonymRun, ?_, ?_⟩
  · rw [hrefused, Array.size_push]
  · rw [htaken]

end Assembler

end BytecodeAssembler
