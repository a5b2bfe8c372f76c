import BytecodeAssembler.Proofs.Assembler.Members
import BytecodeAssembler.Proofs.Source.LineEffect

/-!
# What is recorded stays

An assembler is asked for one thing after another: single directives, and whole
sources to read. Each of them may record faults, and none of them fails, so
that a run finds as many faults as it can. What makes this safe is that nothing
is found without being recorded, that nothing takes a fault back, and that a run
with a fault has no output: it ends in a failure that shows all that was
recorded, and nothing is written (`Assembler.serveAll_recorded`).
-/

namespace BytecodeAssembler

/-- **What an assembler can be asked for.** -/
inductive Request where
  | directive (directive : Directive)
  | source (text : String)

namespace Assembler

variable {a : Assembler} {failure : Failure} {file : ClassFile}

/-- Do what is asked for. -/
def serve (a : Assembler) : Request → Assembler
  | .directive directive => a.run directive
  | .source text => Source.read a text

/-- Do all that is asked for, in order. -/
def serveAll (a : Assembler) (requests : List Request) : Assembler := requests.foldl serve a

theorem serveAll_append (a : Assembler) (first rest : List Request) :
    a.serveAll (first ++ rest) = (a.serveAll first).serveAll rest :=
  List.foldl_append

theorem serveAll_directives (a : Assembler) (ds : List Directive) :
    a.serveAll (ds.map .directive) = a.runAll ds :=
  List.foldl_map

/-! ## Recording -/

/-- **Every fault that is found is recorded**: behind what was recorded before,
once, in order and at the line that it comes from, and nothing else is. -/
structure RecordsFaults (a : Assembler) : Prop where
  report : ∀ fault, (a.report fault).diagnostics.toList = a.diagnostics.toList ++ [⟨a.line, fault⟩]
  reportAll : ∀ faults, (a.reportAll faults).diagnostics.toList
    = a.diagnostics.toList ++ faults.map (Diagnostic.mk a.line)
  /-- A change to the open method finds what it says. -/
  inMethod : ∀ directive change m, a.method = some m →
    (a.inMethod directive change).diagnostics.toList
      = a.diagnostics.toList ++ (change m).2.map (Diagnostic.mk a.line)
  /-- Without an open method that is what is found. -/
  outside : ∀ directive change, a.method = none →
    (a.inMethod directive change).diagnostics.toList
      = a.diagnostics.toList ++ [⟨a.line, .outsideMethod directive⟩]
  /-- A directive finds what its effect finds. -/
  run : ∀ d, (a.run d).diagnostics.toList
    = a.diagnostics.toList ++ (a.outcome d).2.map (Diagnostic.mk a.line)

theorem recordsFaults (a : Assembler) : a.RecordsFaults where
  report fault := Array.toList_push
  reportAll := a.toList_diagnostics_reportAll
  inMethod directive change m hm := by
    unfold Assembler.inMethod
    rw [hm]
    exact toList_diagnostics_reportAll { a with method := some (change m).1 } (change m).2
  outside directive change hnone := by
    unfold Assembler.inMethod
    rw [hnone]
    exact Array.toList_push
  run := a.diagnostics_run

theorem recorded_serve (a : Assembler) (request : Request) :
    a.diagnostics.toList <+: (a.serve request).diagnostics.toList := by
  cases request with
  | directive directive => exact (a.keeps_run directive).recorded
  | source text =>
    obtain ⟨ds, hds⟩ := Source.exists_runAll_read a text
    rw [serve, hds]
    exact (a.keeps_runAll ds).recorded

theorem recorded_serveAll (a : Assembler) (requests : List Request) :
    a.diagnostics.toList <+: (a.serveAll requests).diagnostics.toList := by
  induction requests generalizing a with
  | nil => exact List.prefix_rfl
  | cons request requests ih => exact (a.recorded_serve request).trans (ih (a.serve request))

/-! ## Failing -/

/-- **A run with a fault fails**, and shows all that was recorded before what
is found at its end. -/
theorem finish_of_recorded (h : a.diagnostics ≠ #[]) :
    ∃ ds, a.finish = .error (.diagnosed ds) ∧ a.diagnostics.toList <+: ds := by
  have hend : a.checkEnd.diagnostics ≠ #[] := fun hclean => h (a.keeps_checkEnd.clean hclean)
  refine ⟨a.checkEnd.diagnostics.toList, ?_, a.keeps_checkEnd.recorded⟩
  simp [finish, hend]

/-- **A run fails for a reason.** -/
theorem exists_diagnosed_of_finish (h : a.finish = .error failure) :
    ∃ d ds, failure = .diagnosed (d :: ds) := by
  unfold finish at h
  dsimp only at h
  split at h
  next =>
    split at h
    next fault _ =>
      cases h
      exact ⟨⟨none, fault⟩, [], rfl⟩
    next => cases h
  next hend =>
    cases h
    have hsome : a.checkEnd.diagnostics.toList ≠ [] := by simpa using hend
    obtain ⟨d, ds, hds⟩ := List.exists_cons_of_ne_nil hsome
    exact ⟨d, ds, congrArg Failure.diagnosed hds⟩

/-! ## Writing -/

theorem write_of_finish_error (h : a.finish = .error failure) (limit : Nat) :
    a.write limit = ([], .error failure) := by
  rw [write, h]

/-- **What is written** are the bytes of the class, as many as are taken, and
the outcome tells whether these are all of them. -/
theorem write_of_finish_ok (h : a.finish = .ok file) (limit : Nat) :
    (a.write limit).1 = file.bytes.take limit
      ∧ ((a.write limit).2 = .ok () ↔ file.bytes.length ≤ limit) := by
  rw [write, h]
  dsimp only
  split
  next hfits => exact ⟨(List.take_of_length_le hfits).symm, iff_of_true rfl hfits⟩
  next hfits => exact ⟨rfl, iff_of_false nofun hfits⟩

/-- **Faults are neither dropped nor followed by output.** Every fault that a
directive finds is recorded, in any state. Whatever is asked for, what was
recorded before is still recorded after it, first and in the same order. If
anything is recorded at the end, the run fails and shows it, again first and in
the same order. A run that fails shows at least one diagnostic and writes
nothing. A run that does not fail writes the bytes of its class, unless not all
of them are taken. -/
theorem serveAll_recorded (a : Assembler) (requests : List Request) (limit : Nat) :
    (∀ before request after, requests = before ++ request :: after →
        (a.serveAll before).diagnostics.toList
            <+: (a.serveAll (before ++ [request])).diagnostics.toList
          ∧ (a.serveAll (before ++ [request])).diagnostics.toList
            <+: (a.serveAll requests).diagnostics.toList)
      ∧ (∀ b : Assembler, b.RecordsFaults)
      ∧ ((a.serveAll requests).diagnostics ≠ #[] →
        ∃ ds, (a.serveAll requests).finish = .error (.diagnosed ds)
          ∧ (a.serveAll requests).diagnostics.toList <+: ds)
      ∧ (∀ failure, (a.serveAll requests).finish = .error failure →
        (∃ d ds, failure = .diagnosed (d :: ds))
          ∧ (a.serveAll requests).write limit = ([], .error failure))
      ∧ ∀ file, (a.serveAll requests).finish = .ok file →
        ((a.serveAll requests).write limit).1 = file.bytes.take limit
          ∧ (((a.serveAll requests).write limit).2 = .ok () ↔ file.bytes.length ≤ limit) := by
  refine ⟨?_, recordsFaults, finish_of_recorded, ?_, ?_⟩
  · rintro before request after rfl
    have hafter : a.serveAll (before ++ request :: after)
        = (a.serveAll (before ++ [request])).serveAll after := by
      rw [List.append_cons, serveAll_append]
    rw [hafter, serveAll_append]
    exact ⟨recorded_serve _ request, recorded_serveAll _ after⟩
  · exact fun failure h => ⟨exists_diagnosed_of_finish h, write_of_finish_error h limit⟩
  · exact fun file h => write_of_finish_ok h limit

/-- A run with a fault in a directive and one in a source. -/
def faultyRequests : List Request := [.directive .endMethod, .source ".stack\n"]

/-- Of two runs, the one with faults shows them and writes nothing, and the
other one writes as much as is taken. -/
theorem serveAll_recorded_twice :
    (∃ d ds, ((start .initial).serveAll faultyRequests).write 10 = ([], .error (.diagnosed ds))
        ∧ ((start .initial).serveAll (faultyRequests.take 1)).diagnostics.toList = [d]
        ∧ d ∈ ds)
      ∧ ((start .initial).serveAll (homonymRun.map .directive)).finish = .ok Class.homonymFile
      ∧ (((start .initial).serveAll (homonymRun.map .directive)).write 4).1
        = [0xCA, 0xFE, 0xBA, 0xBE] := by
  obtain ⟨hsteps, hrecords, hrecorded, hfailure, -⟩ :=
    serveAll_recorded (start .initial) faultyRequests 10
  have hfirst : ((start .initial).serveAll (faultyRequests.take 1)).diagnostics.toList
      = [⟨none, .endMethodAlone⟩] := (hrecords (start .initial)).run .endMethod
  obtain ⟨-, hlater⟩ := hsteps [] (.directive .endMethod) [.source ".stack\n"] rfl
  have hfaulty : ((start .initial).serveAll faultyRequests).diagnostics ≠ #[] := by
    decide
  obtain ⟨ds, hfinish, hshown⟩ := hrecorded hfaulty
  have hfinish' : ((start .initial).serveAll (homonymRun.map .directive)).finish
      = .ok Class.homonymFile := by
    rw [serveAll_directives]
    exact finish_homonymRun
  obtain ⟨-, -, -, -, hwritten⟩ :=
    serveAll_recorded (start .initial) (homonymRun.map .directive) 4
  refine ⟨⟨_, ds, (hfailure _ hfinish).2, hfirst, ?_⟩, hfinish', ?_⟩
  · exact (hlater.trans hshown).subset (List.mem_singleton_self _)
  · rw [(hwritten _ hfinish').1]
    decide

end Assembler

end BytecodeAssembler
