import BytecodeAssembler.Proofs.Assembler.PendingInstruction

/-!
# Where instructions and labels come to stand

Whatever marks a place after committing stands after the whole stream of
instructions, and a numeric label, which commits nothing, stands before the
instruction held back if there is one. Bodies grow at the end only, so that is
where the marks still stand when the method is closed
(`Assembler.endMethod_positions`).
-/

namespace BytecodeAssembler

/-! ## Directives inside a method -/

namespace Assembler

open OpenMethod (Carries Turns)

variable {a a' : Assembler} {m m' : OpenMethod} {d : Directive}

/-- **A step inside a method**: the directive does to the open method what it
is for, and the methods closed before stay as they are. -/
structure Moves (d : Directive) (m m' : OpenMethod) (a a' : Assembler) : Prop where
  method : a'.method = some m'
  turns : Turns a.settings.autoLines a.line m d m'
  settings : a'.settings = a.settings
  methods : a'.classSoFar.methods = a.classSoFar.methods

/-- A step that says something of the open method outside of its body, if
anything. -/
def Redeclares (m : OpenMethod) (a a' : Assembler) : Prop :=
  ∃ method, a'.method = some { m with method } ∧ m.method.SameHeader method
    ∧ a'.settings = a.settings ∧ a'.classSoFar.methods = a.classSoFar.methods

theorem redeclares_of_eq (hm : a.method = some m) (hmethod : a'.method = a.method)
    (hsettings : a'.settings = a.settings)
    (hmethods : a'.classSoFar.methods = a.classSoFar.methods) : Redeclares m a a' :=
  ⟨m.method, hmethod.trans hm, ⟨rfl, rfl, rfl⟩, hsettings, hmethods⟩

theorem redeclares_modifyAttributes (hm : a.method = some m)
    (change : CommonAttributes → CommonAttributes) :
    Redeclares m a (a.modifyAttributes change) := by
  unfold modifyAttributes
  rw [hm]
  exact ⟨_, rfl, ⟨rfl, rfl, rfl⟩, rfl, rfl⟩

theorem redeclares_modifyMethod (hm : a.method = some m) {change : Method → Method}
    (h : m.method.SameHeader (change m.method)) : Redeclares m a (a.modifyMethod change) := by
  unfold modifyMethod
  rw [hm]
  exact ⟨_, rfl, h, rfl, rfl⟩

theorem redeclares_attach (hm : a.method = some m) (target : AnnotationTarget)
    (tree : AnnotationTree) : Redeclares m a (a.attach target tree) := by
  unfold attach
  cases target with
  | visible | invisible => exact redeclares_modifyAttributes hm _
  | visibleParameter | invisibleParameter => exact redeclares_modifyMethod hm ⟨rfl, rfl, rfl⟩

theorem Redeclares.moves (h : Redeclares m a a') (hd : d.isIdle a.settings.autoLines = true) :
    ∃ m', Moves d m m' a a' := by
  obtain ⟨method, hmethod, hheader, hsettings, hmethods⟩ := h
  have hidle : m.Idle { m with method } := { OpenMethod.Idle.refl m with header := hheader }
  exact ⟨{ m with method }, hmethod, .idle hd hidle, hsettings, hmethods⟩

theorem BodyChange.turns {autoLines : Bool} {line : Option Nat}
    {change : OpenMethod → OpenMethod × List Fault} (hd : BodyChange autoLines line d change)
    (h : (change m).2 = []) : Turns autoLines line m d (change m).1 := by
  cases hd with
  | limitStack value => exact .idle rfl (m.idle_setMaxStack value)
  | limitLocals value => exact .idle rfl (m.idle_setMaxLocals value)
  | emit mnemonic argument => exact .emit mnemonic argument h
  | label name => exact .label name h
  | handler catchType start finish target =>
    exact .idle rfl (m.idle_addHandler catchType start finish target)
  | lineNumber value hauto => exact .lineNumber value hauto h
  | localVariable index name descriptor signature range =>
    exact .idle rfl (m.idle_addVariable index name descriptor signature range)
  | beginFrame => exact .beginFrame h
  | frameOffset position => exact .frameOffset position h
  | frameLocal type argument => exact .frameLocal type argument h
  | frameStack type argument => exact .frameStack type argument h
  | frameUseLocals count => exact .frameUseLocals count h
  | endFrame => exact .endFrame h

/-- **Inside a method, a directive that finds no fault works on it** or has
nothing to do with its body, unless it is the one that ends it. -/
theorem Does.moves (h : a.Does d a') (hm : a.method = some m) (hd : d ≠ .endMethod) :
    ∃ m', Moves d m m' a a' := by
  cases h with
  | line | version => exact Redeclares.moves (redeclares_of_eq hm rfl rfl rfl) rfl
  | ignored _ hauto => exact Redeclares.moves (redeclares_of_eq hm rfl rfl rfl) hauto
  | head _ hd => cases hd <;> exact Redeclares.moves (redeclares_of_eq hm rfl rfl rfl) rfl
  | attributes hd => cases hd <;> exact Redeclares.moves (redeclares_modifyAttributes hm _) rfl
  -- these would have found the method open
  | beginField _ _ _ _ hout | beginMethod _ _ _ hout =>
    rw [hm] at hout
    cases hout
  | endField =>
    rw [endField_eq]
    exact Redeclares.moves (redeclares_of_eq hm rfl rfl rfl) rfl
  | endMethod => exact absurd rfl hd
  | body m₀ hd hm₀ h =>
    obtain rfl : m = m₀ := Option.some.inj (hm.symm.trans hm₀)
    exact ⟨_, rfl, hd.turns h, rfl, rfl⟩
  | declaration m₀ hd hm₀ =>
    obtain rfl : m = m₀ := Option.some.inj (hm.symm.trans hm₀)
    cases hd <;> exact Redeclares.moves ⟨_, rfl, ⟨rfl, rfl, rfl⟩, rfl, rfl⟩ rfl
  | edit _ hd => cases hd <;> exact Redeclares.moves (redeclares_of_eq hm rfl rfl rfl) rfl
  | attach trees target tree hd =>
    obtain ⟨method, hattached⟩ := redeclares_attach (a := { a with trees }) hm target tree
    cases hd <;> exact Redeclares.moves ⟨method, hattached⟩ rfl

theorem moves_run (hm : a.method = some m) (hd : d ≠ .endMethod)
    (hclean : (a.run d).diagnostics = a.diagnostics) : ∃ m', Moves d m m' a (a.run d) :=
  (does_run hclean).moves hm hd

/-! ## Runs inside a method -/

/-- **What an open method is after some directives.** -/
structure Follows (autoLines : Bool) (opened : OpenMethod) (ds : List Directive)
    (m : OpenMethod) : Prop where
  header : opened.method.SameHeader m.method
  finish : m.finish = opened.finish
  appends : opened.body.AppendsTo m.body
  tidy : m.body.Tidy m.finish
  /-- Its stream is what the directives emit. -/
  stream : ∀ u, m.body.labels.Within u → m.stream = emitted u ds
  count : ∀ u, m.body.labels.Within u → (emitted u ds).length = ds.countP Directive.isEmit
  pending : m.pending.isSome = heldBack autoLines ds
  lines : autoLines = false → m.body.lines.size = ds.countP Directive.isLineNumber
  frames : m.body.frames.size = ds.countP Directive.isEndFrame

namespace Follows

variable {autoLines : Bool} {opened : OpenMethod} {ds : List Directive}

/-- **One directive more.** -/
theorem step (h : Follows autoLines opened ds m) (hd : Carries autoLines d m m') :
    Follows autoLines opened (ds ++ [d]) m' where
  header := ⟨hd.header.flags.trans h.header.flags, hd.header.name.trans h.header.name,
    hd.header.descriptor.trans h.header.descriptor⟩
  finish := hd.finish.trans h.finish
  appends := h.appends.trans hd.appends
  tidy := hd.finish ▸ hd.tidy
  stream u hu := by
    rw [hd.stream u hu, h.stream u (hd.appends.labels.trans hu), emitted_concat]
  count u hu := by
    have hlength : (d.instruction? u).toList.length = [d].countP Directive.isEmit := by
      rw [Option.length_toList, hd.emits u hu, List.countP_singleton]
    rw [emitted_concat, List.length_append, h.count u (hd.appends.labels.trans hu), hlength,
      List.countP_append]
  pending := by rw [hd.pending, h.pending, heldBack_concat]
  lines hoff := by rw [hd.lines hoff, h.lines hoff, List.countP_append]
  frames := by rw [hd.frames, h.frames, List.countP_append]

end Follows

/-- **A method that was just opened** has emitted nothing, and its body holds
the label of the start. -/
theorem follows_begin (autoLines : Bool) (method : Method) :
    Follows autoLines (.begin method) [] (.begin method) where
  header := ⟨rfl, rfl, rfl⟩
  finish := rfl
  appends := .refl _
  tidy := by
    refine ⟨Body.tracked_empty.here.fresh, Nat.lt_succ_self 1, rfl, fun name => ?_⟩
    show (∅ : Std.HashMap String Label)[name]? ≠ _
    rw [Std.HashMap.getElem?_empty]
    exact nofun
  stream u _ := rfl
  count u _ := rfl
  pending := rfl
  lines _ := rfl
  frames := rfl

/-- What a run inside a method gives. -/
structure Runs (opened : OpenMethod) (before ds : List Directive) (m m' : OpenMethod)
    (a a' : Assembler) : Prop where
  method : a'.method = some m'
  follows : Follows a.settings.autoLines opened (before ++ ds) m'
  appends : m.body.AppendsTo m'.body
  settings : a'.settings = a.settings
  methods : a'.classSoFar.methods = a.classSoFar.methods
  /-- An open frame keeps its place until it ends or is given another one. -/
  framePlace : m.frame.isSome → (∀ d ∈ ds, d.isEndFrame = false ∧ d.isFrameOffset = false) →
    m'.framePlace = m.framePlace

/-- **Directives inside a method** that record nothing and do not end it. -/
theorem runs_runAll {opened : OpenMethod} {before ds : List Directive} (hm : a.method = some m)
    (hfollows : Follows a.settings.autoLines opened before m) (hinside : .endMethod ∉ ds)
    (hclean : (a.runAll ds).diagnostics = a.diagnostics) :
    ∃ m', Runs opened before ds m m' a (a.runAll ds) := by
  induction ds generalizing a m before with
  | nil =>
    exact ⟨m, hm, (List.append_nil before).symm ▸ hfollows, .refl _, rfl, rfl, fun _ _ => rfl⟩
  | cons d ds ih =>
    obtain ⟨hd, hds⟩ := not_or.1 (mt List.mem_cons.2 hinside)
    obtain ⟨hfirst, hrest⟩ := run_clean_of_runAll hclean
    obtain ⟨m₁, hmoves⟩ := moves_run hm (Ne.symm hd) hfirst
    have hcarries := hmoves.turns.carries hfollows.tidy
    -- the invariant speaks of the directives before, to which this one is added
    have hstep := hfollows.step hcarries
    rw [← hmoves.settings] at hstep
    obtain ⟨m', hruns⟩ := ih hmoves.method hstep hds hrest
    refine ⟨m', hruns.method, ?_, hcarries.appends.trans hruns.appends,
      hruns.settings.trans hmoves.settings, hruns.methods.trans hmoves.methods, ?_⟩
    · have hall := hruns.follows
      rw [hmoves.settings, List.append_assoc, List.singleton_append] at hall
      exact hall
    · intro hframe hkeep
      obtain ⟨hd, hds⟩ := List.forall_mem_cons.1 hkeep
      have hplace := hcarries.framePlace hframe hd.1 hd.2
      have hsome : m₁.frame.isSome = true := by
        have hmap := congrArg Option.isSome hplace
        unfold OpenMethod.framePlace at hmap
        rw [Option.isSome_map, Option.isSome_map] at hmap
        exact hmap.trans hframe
      exact (hruns.framePlace hsome hds).trans hplace

/-! ## The end of the method -/

/-- **Closing a method** commits what is pending and places the end, whatever
it finds fault with. -/
theorem close_eq (h : m.body.Tidy m.finish) (hcode : m.method.mayHaveCode = true)
    (autoLines : Bool) :
    (m.close autoLines).1 = { m.method with
      body := some ((m.flush autoLines).1.body.placeNew m.finish) } := by
  have hflush := OpenMethod.commits_flush h autoLines
  have hplace : (m.flush autoLines).1.body.place (m.flush autoLines).1.finish
      = .ok ((m.flush autoLines).1.body.placeNew m.finish) := by
    rw [hflush.alike.finish]
    exact Body.place_eq_ok_iff.2 ⟨hflush.tidy.free.checkNew, rfl⟩
  unfold OpenMethod.close
  dsimp only
  rw [hplace, hflush.alike.method, if_pos hcode]
  dsimp only
  split <;> rfl

/-- Recording faults leaves the class as it is. -/
theorem classSoFar_reportAll (a : Assembler) (faults : List Fault) :
    (a.reportAll faults).classSoFar = a.classSoFar := by
  induction faults generalizing a with
  | nil => rfl
  | cons fault faults ih => exact ih (a.report fault)

theorem methods_endMethod (hm : a.method = some m) :
    a.endMethod.classSoFar.methods
      = a.classSoFar.methods.push (m.close a.settings.autoLines).1 := by
  unfold endMethod
  rw [hm]
  dsimp only
  rw [classSoFar_reportAll]

/-- **A method that may have code ends** after directives that record nothing:
it is added with all that it holds, and the end is placed in its body. -/
theorem Runs.methods_endMethod {a' : Assembler} {opened m m' : OpenMethod}
    {before ds : List Directive} (h : Runs opened before ds m m' a a')
    (hcode : opened.method.mayHaveCode = true) :
    a'.endMethod.classSoFar.methods = a.classSoFar.methods.push { m'.method with
      body := some ((m'.flush a.settings.autoLines).1.body.placeNew m'.finish) } := by
  rw [Assembler.methods_endMethod h.method, h.settings, h.methods,
    close_eq h.follows.tidy (h.follows.header.mayHaveCode.trans hcode)]

/-- **A run inside a method up to one of its directives**, that directive, and
what comes after it. -/
structure Splits (opened : OpenMethod) (earlier before : List Directive) (d : Directive)
    (after : List Directive) (m m₁ m₂ m₃ : OpenMethod) (a : Assembler) : Prop where
  first : Runs opened earlier before m m₁ a (a.runAll before)
  clean : ((a.runAll before).run d).diagnostics = (a.runAll before).diagnostics
  moves : Moves d m₁ m₂ (a.runAll before) ((a.runAll before).run d)
  follows : Follows ((a.runAll before).run d).settings.autoLines opened
    (earlier ++ before ++ [d]) m₂
  inside : .endMethod ∉ after
  cleanRest : (((a.runAll before).run d).runAll after).diagnostics
    = ((a.runAll before).run d).diagnostics
  rest : Runs opened (earlier ++ before ++ [d]) after m₂ m₃ ((a.runAll before).run d)
    (a.runAll (before ++ d :: after))

theorem exists_splits {opened : OpenMethod} {earlier before after : List Directive}
    (hm : a.method = some m) (hfollows : Follows a.settings.autoLines opened earlier m)
    (hinside : .endMethod ∉ before ++ d :: after)
    (hclean : (a.runAll (before ++ d :: after)).diagnostics = a.diagnostics) :
    ∃ m₁ m₂ m₃, Splits opened earlier before d after m m₁ m₂ m₃ a := by
  obtain ⟨hbefore, hrest⟩ := not_or.1 (mt List.mem_append.2 hinside)
  obtain ⟨hd, hafter⟩ := not_or.1 (mt List.mem_cons.2 hrest)
  obtain ⟨hfirst, hlater⟩ := runAll_clean_of_append hclean
  obtain ⟨hstep, hlast⟩ := run_clean_of_runAll hlater
  obtain ⟨m₁, hruns⟩ := runs_runAll hm hfollows hbefore hfirst
  have hfollows₁ := hruns.follows
  rw [← hruns.settings] at hfollows₁
  obtain ⟨m₂, hmoves⟩ := moves_run hruns.method (Ne.symm hd) hstep
  have hfollows₂ := hfollows₁.step (hmoves.turns.carries hfollows₁.tidy)
  rw [← hmoves.settings] at hfollows₂
  obtain ⟨m₃, hruns'⟩ := runs_runAll hmoves.method hfollows₂ hafter hlast
  refine ⟨m₁, m₂, m₃, hruns, hstep, hmoves, hfollows₂, hafter, hlast, ?_⟩
  rw [runAll_append]
  exact hruns'

/-- What is at an index stays there when more is appended. -/
theorem getElem?_of_prefix {α : Type} {xs ys : Array α} (h : xs.toList <+: ys.toList) {k : Nat}
    {x : α} (hx : xs[k]? = some x) : ys[k]? = some x := by
  rw [← Array.getElem?_toList] at hx ⊢
  obtain ⟨more, hmore⟩ := h
  rw [← hmore]
  exact List.getElem?_append_left (List.getElem?_eq_some_iff.1 hx).1 ▸ hx

/-- **Everything stands where it belongs** in the body that directives built,
where `start` and `finish` are the labels of its start and end. -/
structure Positions (autoLines : Bool) (ds : List Directive) (start finish : Label)
    (body : Body) : Prop where
  /-- The instructions are those emitted, in order. -/
  instructions : body.instructions = emitted body.labels ds
  /-- Every directive that is to emit an instruction has emitted one. -/
  count : body.instructions.length = ds.countP Directive.isEmit
  /-- No label stands twice. -/
  once : body.streamLabels.Nodup
  /-- The start stands before all instructions. -/
  start : body.Stands start []
  /-- The end stands after all of them. -/
  finish : body.Stands finish (emitted body.labels ds)
  /-- A label stands after the instructions emitted before it, and a numeric
  label before the one held back. -/
  label : ∀ before name after, ds = before ++ .label name :: after →
    ∃ l, body.labels.names[name]? = some l
      ∧ body.Stands l (if Label.isNumeric name && heldBack autoLines before
        then (emitted body.labels before).dropLast else emitted body.labels before)
  /-- A line number holds from after the instructions emitted before it, and
  the line numbers are in order. -/
  line : autoLines = false → ∀ before value after, ds = before ++ .lineNumber value :: after →
    ∃ entry, body.lines[before.countP Directive.isLineNumber]? = some entry
      ∧ (entry.line.toNat : Int) = value.toInt
      ∧ body.Stands entry.start (emitted body.labels before)
  /-- A frame begins after the instructions emitted before it. That is the
  place it describes, unless it is given another one before it ends, and the
  frames are in order. -/
  frame : ∀ before after, ds = before ++ .beginFrame :: after →
    ∃ l, body.Stands l (emitted body.labels before)
      ∧ ∀ inner rest, after = inner ++ .endFrame :: rest →
        (∀ d ∈ inner, d.isEndFrame = false ∧ d.isFrameOffset = false) →
        ∃ f, body.frames[before.countP Directive.isEndFrame]? = some f ∧ f.offset = .label l

section Split

variable {opened : OpenMethod} {ds before after : List Directive} {body : Body}
  (hm : a.method = some opened) (hfollows : Follows a.settings.autoLines opened [] opened)
  (hinside : .endMethod ∉ ds) (hclean : (a.runAll ds).diagnostics = a.diagnostics)
  (hlast : (a.runAll ds).method = some m) (hbody : m.body.AppendsTo body)
include hm hfollows hinside hclean hlast hbody

theorem label_stands {name : String} (hds : ds = before ++ .label name :: after) :
    ∃ l, body.labels.names[name]? = some l
      ∧ body.Stands l (if Label.isNumeric name && heldBack a.settings.autoLines before
        then (emitted body.labels before).dropLast else emitted body.labels before) := by
  subst hds
  obtain ⟨m₁, m₂, m₃, hsplit⟩ := exists_splits hm hfollows hinside hclean
  obtain rfl : m₃ = m := Option.some.inj (hsplit.rest.method.symm.trans hlast)
  have hfollows₁ := hsplit.first.follows
  have hgrows := hsplit.rest.appends.trans hbody
  obtain ⟨rfl, hfaults⟩ := hsplit.moves.turns.of_label
  obtain ⟨hcarries, l, hname, hstands⟩ := OpenMethod.carries_plantLabel hfollows₁.tidy hfaults
  have hstream := hfollows₁.stream body.labels (hcarries.appends.labels.trans hgrows.labels)
  refine ⟨l, hgrows.labels name l hname, ?_⟩
  have hplace := hstands.mono hgrows
  rw [m₁.instructions_eq, hfollows₁.pending, hstream] at hplace
  cases hnumeric : Label.isNumeric name with
  | true =>
    rw [hnumeric] at hplace
    exact hplace
  | false =>
    rw [hnumeric] at hplace
    exact hplace

theorem line_stands (hauto : a.settings.autoLines = false) {value : Int64}
    (hds : ds = before ++ .lineNumber value :: after) :
    ∃ entry, body.lines[before.countP Directive.isLineNumber]? = some entry
      ∧ (entry.line.toNat : Int) = value.toInt
      ∧ body.Stands entry.start (emitted body.labels before) := by
  subst hds
  obtain ⟨m₁, m₂, m₃, hsplit⟩ := exists_splits hm hfollows hinside hclean
  obtain rfl : m₃ = m := Option.some.inj (hsplit.rest.method.symm.trans hlast)
  have hfollows₁ := hsplit.first.follows
  have hgrows := hsplit.rest.appends.trans hbody
  have hturns := hsplit.moves.turns
  rw [hsplit.first.settings, hauto] at hturns
  obtain ⟨rfl, hfaults⟩ := hturns.of_lineNumber
  obtain ⟨hcarries, entry, hlines, hvalue, hstands⟩ :=
    OpenMethod.carries_addLine hfollows₁.tidy hfaults
  have hstream := hfollows₁.stream body.labels (hcarries.appends.labels.trans hgrows.labels)
  refine ⟨entry, ?_, hvalue, hstream ▸ hstands.mono hgrows⟩
  have hget : (m₁.addLine value).1.body.lines[m₁.body.lines.size]? = some entry := by
    rw [hlines, Array.getElem?_push_size]
  rw [hfollows₁.lines hauto] at hget
  exact getElem?_of_prefix hgrows.lines hget

theorem frame_stands (hds : ds = before ++ .beginFrame :: after) :
    ∃ l, body.Stands l (emitted body.labels before)
      ∧ ∀ inner rest, after = inner ++ .endFrame :: rest →
        (∀ d ∈ inner, d.isEndFrame = false ∧ d.isFrameOffset = false) →
        ∃ f, body.frames[before.countP Directive.isEndFrame]? = some f ∧ f.offset = .label l := by
  subst hds
  obtain ⟨m₁, m₂, m₃, hsplit⟩ := exists_splits hm hfollows hinside hclean
  obtain rfl : m₃ = m := Option.some.inj (hsplit.rest.method.symm.trans hlast)
  have hfollows₁ := hsplit.first.follows
  have hgrows := hsplit.rest.appends.trans hbody
  obtain ⟨rfl, hfaults⟩ := hsplit.moves.turns.of_beginFrame
  obtain ⟨hcarries, l, hstands, hplace⟩ :=
    OpenMethod.carries_beginFrame hfollows₁.tidy hfaults
  have hstream := hfollows₁.stream body.labels (hcarries.appends.labels.trans hgrows.labels)
  refine ⟨l, hstream ▸ hstands.mono hgrows, ?_⟩
  rintro inner rest rfl hinner
  -- the frame is carried through the directives up to its end
  obtain ⟨m₄, m₅, m₆, hend⟩ :=
    exists_splits hsplit.moves.method hsplit.follows hsplit.inside hsplit.cleanRest
  obtain rfl : m₆ = m₃ := by
    rw [runAll_append] at hlast
    exact Option.some.inj (hend.rest.method.symm.trans hlast)
  have hframe : (m₁.beginFrame (a.runAll before).settings.autoLines).1.frame.isSome = true := by
    rw [← Option.isSome_map, ← OpenMethod.framePlace, hplace]
    rfl
  have hkept := hend.first.framePlace hframe hinner
  obtain ⟨rfl, hended⟩ := hend.moves.turns.of_endFrame
  obtain ⟨f, hf, hadded⟩ := OpenMethod.endFrame_of_clean hended
  have hcount : m₄.body.frames.size = before.countP Directive.isEndFrame := by
    have hnone : inner.countP Directive.isEndFrame = 0 :=
      List.countP_eq_zero.2 fun d hd => Bool.eq_false_iff.1 (hinner d hd).1
    rw [hend.first.follows.frames, List.countP_append, List.countP_append, hnone]
    rfl
  have hget : m₄.endFrame.1.body.frames[before.countP Directive.isEndFrame]? = some f := by
    rw [hadded, ← hcount]
    exact Array.getElem?_push_size
  refine ⟨f, getElem?_of_prefix (hend.rest.appends.trans hbody).frames hget, ?_⟩
  exact Option.some.inj (hf.symm.trans (hkept.trans hplace))

end Split

/-- A method is opened outside of any other. -/
theorem beginMethod_of_closed (h : a.method = none) (flags : AccessFlags .methods)
    (name descriptor : String) :
    (a.beginMethod flags name descriptor).method
        = some (.begin (.declare flags name descriptor))
      ∧ (a.beginMethod flags name descriptor).settings = a.settings
      ∧ (a.beginMethod flags name descriptor).classSoFar.methods = a.classSoFar.methods := by
  unfold beginMethod
  rw [if_neg (by rw [h]; exact Bool.false_ne_true), endField_eq]
  dsimp only
  split <;> exact ⟨rfl, rfl, rfl⟩

/-- **The pending instruction loses, repeats and reorders nothing, and marks
stand where they belong.** A method that may have code is opened, and some
directives follow that record nothing and do not end it. Then the method that
its end adds to the class has a body in which exactly the instructions emitted
stand, in order, and every label, line number and frame is where the
directives put it. -/
theorem endMethod_positions (a : Assembler) (flags : AccessFlags .methods)
    (name descriptor : String) (ds : List Directive) (hout : a.method = none)
    (hcode : (Method.declare flags name descriptor).mayHaveCode = true)
    (hinside : .endMethod ∉ ds)
    (hclean : ((a.beginMethod flags name descriptor).runAll ds).diagnostics
      = (a.beginMethod flags name descriptor).diagnostics) :
    ∃ method body,
      ((a.beginMethod flags name descriptor).runAll ds).endMethod.classSoFar.methods
          = a.classSoFar.methods.push method
        ∧ method.flags = flags ∧ method.name = name ∧ method.descriptor = descriptor
        ∧ method.body = some body
        ∧ Positions a.settings.autoLines ds
          (OpenMethod.begin (.declare flags name descriptor)).start
          (OpenMethod.begin (.declare flags name descriptor)).finish body := by
  obtain ⟨hopen, hsettings, hmethods⟩ := beginMethod_of_closed hout flags name descriptor
  have hbegin := follows_begin (a.beginMethod flags name descriptor).settings.autoLines
    (.declare flags name descriptor)
  obtain ⟨m, hruns⟩ := runs_runAll hopen hbegin hinside hclean
  have hfollows : Follows _ _ ds m := hruns.follows
  -- the end commits what is pending and places the last label; both only append
  have hflush := OpenMethod.commits_flush hfollows.tidy
    (a.beginMethod flags name descriptor).settings.autoLines
  have hbody : m.body.AppendsTo
      ((m.flush (a.beginMethod flags name descriptor).settings.autoLines).1.body.placeNew
        m.finish) :=
    hflush.appends.trans (.placeNew _ _)
  have hstream := hfollows.stream _ hbody.labels
  have hend := hruns.methods_endMethod hcode
  rw [hmethods] at hend
  rw [← hsettings]
  have hplaced := hflush.tidy.toTracked.placeNew hflush.tidy.free.has hflush.tidy.free.unplaced
  have hinstructions := (Body.instructions_placeNew
    (m.flush (a.beginMethod flags name descriptor).settings.autoLines).1.body m.finish).trans
      (hflush.instructions.trans hstream)
  -- what stood somewhere in the open body stands there in the one that is added
  refine ⟨_, _, hend, hfollows.header.flags, hfollows.header.name, hfollows.header.descriptor,
    rfl, hinstructions, ?_, hplaced.once, ?_, ?_,
    fun _ _ _ => label_stands hopen hbegin hinside hclean hruns.method hbody,
    fun hoff _ _ _ => line_stands hopen hbegin hinside hclean hruns.method hbody hoff,
    fun _ _ => frame_stands hopen hbegin hinside hclean hruns.method hbody⟩
  · rw [hinstructions]
    exact hfollows.count _ hbody.labels
  · exact Body.Stands.mono ⟨[], [], rfl, rfl⟩ (hfollows.appends.trans hbody)
  · have hstands := Body.stands_placeNew
      (m.flush (a.beginMethod flags name descriptor).settings.autoLines).1.body m.finish
    rw [hflush.instructions, hstream] at hstands
    rw [← hfollows.finish]
    exact hstands

/-- Two instructions, then a numeric label and one that is not a number. -/
def markedRun : List Directive :=
  [.emit "nop" .none, .emit "nop" .none, .label "1", .label "end"]

/-- The method of the run once its instructions are emitted: one is in the
body and one is held back. -/
def markedMethod (labels : LabelTable) (elements : Array Element) : OpenMethod :=
  { OpenMethod.begin (.declare .empty "m" "()V") with
    body := { Body.empty with labels, elements }
    pending := some (⟨⟨"nop", 0x00, .none⟩, .none⟩, none) }

/-- The method before its labels are placed. -/
def emittedMethod : OpenMethod :=
  markedMethod ⟨∅, #[⟨none, true, none⟩, ⟨none, false, none⟩]⟩
    #[.label ⟨0⟩, .instruction ⟨⟨"nop", 0x00, .none⟩, .none⟩]

/-- The method with its first label. -/
def numberedMethod : OpenMethod :=
  markedMethod
    ⟨.insert ∅ "1" ⟨2⟩, #[⟨none, true, none⟩, ⟨none, false, none⟩, ⟨some "1", true, none⟩]⟩
    #[.label ⟨0⟩, .instruction ⟨⟨"nop", 0x00, .none⟩, .none⟩, .label ⟨2⟩]

/-- A run inside of a first method. -/
def insideMethod (m : OpenMethod) : Assembler :=
  { start .initial with form := some Version.initial.stackMapForm, method := some m }

-- a table of names does not compute, so what it finds is said
theorem plantLabel_emittedMethod :
    emittedMethod.plantLabel false "1" = (numberedMethod, []) := by
  have hnew : (∅ : Std.HashMap String Label)["1"]? = none := by simp
  unfold emittedMethod markedMethod OpenMethod.plantLabel Body.mention LabelTable.mention
  dsimp only
  rw [hnew]
  rfl

theorem plantLabel_numberedMethod : (numberedMethod.plantLabel false "end").2 = [] := by
  have hnew : ((∅ : Std.HashMap String Label).insert "1" ⟨2⟩)["end"]? = none := by simp
  unfold numberedMethod markedMethod OpenMethod.plantLabel Body.mention LabelTable.mention
  dsimp only
  rw [hnew]
  rfl

theorem run_label {m m' : OpenMethod} {name : String}
    (h : m.plantLabel false name = (m', [])) :
    (insideMethod m).run (.label name) = insideMethod m' := by
  show ({ start .initial with
    form := some Version.initial.stackMapForm
    method := some (m.plantLabel false name).1 } : Assembler).reportAll
      (m.plantLabel false name).2 = _
  rw [h]
  rfl

theorem beginMethod_unit : (start .initial).beginMethod .empty "m" "()V"
    = insideMethod (.begin (.declare .empty "m" "()V")) := by
  unfold beginMethod
  rw [MethodDescriptor.read_unit]
  rfl

theorem diagnostics_markedRun :
    (((start .initial).beginMethod .empty "m" "()V").runAll markedRun).diagnostics
      = ((start .initial).beginMethod .empty "m" "()V").diagnostics := by
  have hemitted : (insideMethod (.begin (.declare .empty "m" "()V"))).runAll (markedRun.take 2)
      = insideMethod emittedMethod := rfl
  have hone : (insideMethod emittedMethod).run (.label "1") = insideMethod numberedMethod :=
    run_label plantLabel_emittedMethod
  have hend : (insideMethod numberedMethod).run (.label "end")
      = insideMethod (numberedMethod.plantLabel false "end").1 :=
    run_label (Prod.ext rfl plantLabel_numberedMethod)
  rw [beginMethod_unit, ← markedRun.take_append_drop 2, runAll_append, hemitted]
  show (((insideMethod emittedMethod).run (.label "1")).run (.label "end")).diagnostics = _
  rw [hone, hend]
  rfl

/-- **The numeric label stands before the instruction held back**, and the
other label after it. -/
theorem endMethod_positions_marked :
    (((start .initial).beginMethod .empty "m" "()V").runAll markedRun).diagnostics
        = ((start .initial).beginMethod .empty "m" "()V").diagnostics
      ∧ ∃ body one last,
        (((start .initial).beginMethod .empty "m" "()V").runAll
            markedRun).endMethod.classSoFar.methods.toList.map (·.body) = [some body]
          ∧ body.instructions.map (·.opcode.mnemonic) = ["nop", "nop"]
          ∧ body.labels.names["1"]? = some one ∧ body.Stands one (body.instructions.take 1)
          ∧ body.labels.names["end"]? = some last ∧ body.Stands last body.instructions := by
  obtain ⟨method, body, hmethods, -, -, -, hbody, hpositions⟩ :=
    endMethod_positions (start .initial) .empty "m" "()V" markedRun rfl (by decide)
      (by simp [markedRun]) diagnostics_markedRun
  obtain ⟨one, hone, hstands⟩ := hpositions.label (markedRun.take 2) "1" [.label "end"] rfl
  obtain ⟨last, hlast, hstands'⟩ := hpositions.label (markedRun.take 3) "end" [] rfl
  refine ⟨diagnostics_markedRun, body, one, last, ?_, ?_, hone, ?_, hlast, ?_⟩
  · rw [hmethods]
    exact congrArg ([·]) hbody
  · rw [hpositions.instructions]
    rfl
  · rw [hpositions.instructions]
    exact hstands
  · rw [hpositions.instructions]
    exact hstands'

end Assembler

end BytecodeAssembler
